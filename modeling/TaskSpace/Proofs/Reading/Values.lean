import TaskSpace.Reading.Parser

/-!
# Values that are literals

The value of an argument is read as any other expression is, if something follows it. It counts as a literal
exactly if it is written as one token: every other expression begins with something else, or something stands
behind its first operand.
-/

namespace TaskSpace.Reading

open Entry (Token Delimiter)

/-! ## Plain literals -/

/-- The expression is more than a literal. -/
def ExprKind.Compound (kind : ExprKind) : Prop := ∀ value, kind ≠ .literal value

theorem ExprKind.compound_other : ExprKind.other.Compound := nofun

namespace Literal

/-- The literal is a text, or a whole number without a sign. -/
def Plain : Literal → Prop
  | text _ => True
  | int negative _ _ => negative = false
  | other => False

theorem not_plain_of_sign (input : Lexer.Chars) : ¬(ofNumber true input).Plain := by
  unfold ofNumber
  split
  · exact nofun
  · exact not_false

theorem Plain.of_token {v : Literal} {token : Token} (hv : v.Plain) (h : ofToken? token = some v) :
    ∃ text, token = .literal text ∧ ofText text = v := by
  cases token with
  | literal text => exact ⟨text, rfl, Option.some.inj h⟩
  | word text =>
    simp only [ofToken?] at h
    split at h <;> cases h
    exact absurd hv not_false
  | punct | opening | closing => cases h

end Literal

/-! ## Readers step by step -/

namespace Reader

variable {α β : Type} {p q : Reader α} {f : α → Reader β} {P : α → Prop} {tape tape' : Tape} {a a' : α} {b : β}
  {v : Literal}

/-- Reading tokens from a clean sheet gives an answer, writes something, and leaves the rest. -/
def Reads (p : Reader α) (tokens : List Token) (a : α) (written left : List Token) : Prop :=
  p.run ⟨tokens, []⟩ = some (a, ⟨left, written.reverse⟩)

theorem run_bind_eq_some :
    (p >>= f).run tape = some (b, tape') ↔
      ∃ a mid, p.run tape = some (a, mid) ∧ (f a).run mid = some (b, tape') := by
  rw [StateT.run_bind, Option.bind_eq_bind, Option.bind_eq_some_iff]
  exact ⟨fun ⟨⟨a, mid⟩, h⟩ => ⟨a, mid, h⟩, fun ⟨a, mid, h⟩ => ⟨⟨a, mid⟩, h⟩⟩

theorem run_pure_eq_some : (pure a : Reader α).run tape = some (a', tape') ↔ a' = a ∧ tape' = tape := by
  rw [StateT.run_pure, Option.pure_def, Option.some_inj, Prod.mk.injEq, eq_comm, @eq_comm _ tape]

theorem run_collected (p : Reader α) (tape : Tape) :
    (collected p).run tape = (p.run ⟨tape.rest, []⟩).map
      fun (a, after) => ((a, after.written.reverse), ⟨after.rest, tape.written⟩) := by
  cases h : p.run ⟨tape.rest, []⟩ <;> simp [collected, h]

theorem run_collected_eq_some {r : α × List Token} :
    (collected p).run tape = some (r, tape') ↔
      p.Reads tape.rest r.1 r.2 tape'.rest ∧ tape'.written = tape.written := by
  rw [run_collected, Option.map_eq_some_iff]
  constructor
  · rintro ⟨⟨a, left, written⟩, hp, he⟩
    cases he
    exact ⟨by simpa [Reads] using hp, rfl⟩
  · rintro ⟨hr, hw⟩
    refine ⟨_, hr, ?_⟩
    rw [← hw]
    simp

theorem run_op? (text : String) (tape : Tape) :
    (op? text).run tape = if Ahead.op text tape.rest then
      some (true, ⟨tape.rest.drop text.length, (tape.rest.take text.length).reverse ++ tape.written⟩)
      else some (false, tape) := by
  simp [op?, see, rest, take, write, skip]
  split <;> simp

/-! ## Answers -/

/-- Whatever a reader answers is so. -/
def Answers (p : Reader α) (P : α → Prop) : Prop := ∀ tape a tape', p.run tape = some (a, tape') → P a

theorem answers_pure (h : P a) : Answers (pure a) P := by
  rintro tape _ _ hrun
  rw [(run_pure_eq_some.1 hrun).1]
  exact h

theorem answers_failure : Answers (failure : Reader α) P := by
  intro tape _ _ hrun
  cases hrun

theorem Answers.bind {p : Reader β} {f : β → Reader α} (h : ∀ b, (f b).Answers P) : Answers (p >>= f) P := by
  intro tape a tape' hrun
  obtain ⟨b, mid, _, hrun⟩ := run_bind_eq_some.1 hrun
  exact h b mid a tape' hrun

theorem Answers.ite {c : Prop} [Decidable c] (hp : p.Answers P) (hq : q.Answers P) :
    (if c then p else q).Answers P := by
  split
  · exact hp
  · exact hq

theorem Answers.not_literal {p : Reader ExprKind} (h : p.Answers ExprKind.Compound) :
    p.run tape ≠ some (.literal v, tape') := fun hrun => h _ _ _ hrun v rfl

theorem run_require_eq_some {c : Bool} {u : Unit} (h : (require c).run tape = some (u, tape')) : c = true := by
  cases c with
  | true => rfl
  | false => cases h

theorem tape_of_require {c : Bool} {u : Unit} (h : (require c).run tape = some (u, tape')) : tape' = tape := by
  cases c with
  | true => exact (run_pure_eq_some.1 h).2
  | false => cases h

theorem opens_of_run {d : Delimiter} (h : (group d p).run tape = some (a, tape')) :
    Ahead.opens d tape.rest = true := by
  obtain ⟨_, _, hsee, h⟩ := run_bind_eq_some.1 h
  cases hsee
  obtain ⟨_, _, hrequire, _⟩ := run_bind_eq_some.1 h
  exact run_require_eq_some hrequire

theorem opChars_singleton {c : Char} {ts : List Token} :
    Ahead.opChars [c] ts = true ↔ ∃ joint left, ts = .punct c joint :: left := by
  constructor
  · intro h
    rcases ts with _ | ⟨_ | ⟨d, joint⟩ | _ | _ | _, left⟩ <;> simp [Ahead.opChars] at h
    exact ⟨joint, left, by rw [h]⟩
  · rintro ⟨joint, left, rfl⟩
    exact decide_eq_true rfl

/-! ## Literals -/

theorem run_attempt (p : Reader α) (tape : Tape) :
    (attempt p).run tape = match p.run tape with
      | some (a, after) => some (some a, after)
      | none => some (none, tape) := rfl

theorem run_literal {text : String} {left : List Token} (h : tape.rest = .literal text :: left) :
    literal.run tape = some (Literal.ofText text, ⟨left, .literal text :: tape.written⟩) := by
  simp [literal, rest, take, write, skip, h, Literal.ofToken?]

/-- A literal is one token, or it has a minus sign. -/
theorem literal_of_run (h : literal.run tape = some (v, tape')) :
    (∃ token left, tape.rest = token :: left ∧ Literal.ofToken? token = some v ∧
      tape' = ⟨left, token :: tape.written⟩) ∨
      (∃ joint left, tape.rest = .punct '-' joint :: left) ∧ ∃ input, v = Literal.ofNumber true input := by
  obtain ⟨ts, mid, hrest, h⟩ := run_bind_eq_some.1 h
  cases hrest
  split at h
  · rename_i joint text left heq
    refine .inr ⟨⟨joint, _, heq⟩, ?_⟩
    unfold Literal.negative? at h
    split at h
    · rename_i value hv
      split at hv
      · cases hv
        obtain ⟨_, _, _, h⟩ := run_bind_eq_some.1 h
        exact ⟨_, (run_pure_eq_some.1 h).1⟩
      · cases hv
    · cases h
  · rename_i token left _ heq
    split at h
    · rename_i value hv
      obtain ⟨_, _, htake, h⟩ := run_bind_eq_some.1 h
      cases htake
      obtain ⟨rfl, rfl⟩ := run_pure_eq_some.1 h
      exact .inl ⟨token, left, heq, hv, by simp [heq]⟩
    · cases h
  · cases h

end Reader

namespace Grammar

open Reader

variable (g : Grammar) {tape tape' : Tape} {v : Literal} {kind answer : ExprKind} {structs : Bool}

/-! ## Operands -/

theorem answers_parenthesized : g.parenthesized.Answers ExprKind.Compound := .bind fun _ => answers_pure nofun

theorem answers_arrayOrRepeat : g.arrayOrRepeat.Answers ExprKind.Compound := .bind fun _ => answers_pure nofun

theorem answers_pathOperand (structs : Bool) : (g.pathOperand structs).Answers ExprKind.Compound := by
  unfold pathOperand
  repeat' first | exact answers_pure nofun | refine .bind fun _ => ?_ | refine .ite ?_ ?_

theorem answers_closure (structs : Bool) : (g.closure structs).Answers ExprKind.Compound := by
  unfold closure
  repeat' first | exact answers_pure nofun | refine .bind fun _ => ?_ | refine .ite ?_ ?_

theorem answers_control : g.control.Answers ExprKind.Compound := by
  unfold control
  refine .bind fun ts => ?_
  dsimp only
  repeat' first | exact answers_pure nofun | refine .bind fun _ => ?_ | refine .ite ?_ ?_

theorem answers_labeled : g.labeled.Answers ExprKind.Compound := by
  refine .bind fun _ => .bind fun _ => .bind fun ts => .ite g.answers_control ?_
  exact .bind fun _ => answers_pure nofun

theorem answers_compound (structs : Bool) : (g.compound structs).Answers ExprKind.Compound := by
  unfold compound
  refine .bind fun ts => ?_
  dsimp only
  -- The chain of choices is taken apart down to what each of them ends with.
  repeat' with_reducible first
    | refine .ite ?_ ?_
    | refine .bind fun _ => ?_
    | exact answers_failure
    | refine answers_pure ?_
  all_goals with_reducible first
    | exact g.answers_closure structs
    | exact g.answers_pathOperand structs
    | exact g.answers_parenthesized
    | exact g.answers_arrayOrRepeat
    | exact g.answers_control
    | exact g.answers_labeled
    | skip
  all_goals exact nofun

/-- An expression is more than a literal, or it is its first operand and nothing was read behind that. -/
def Extends (kind answer : ExprKind) (tape tape' : Tape) : Prop :=
  answer.Compound ∨ answer = kind ∧ tape' = tape

theorem Extends.compound (h : Extends kind answer tape tape') (hk : kind.Compound) : answer.Compound := by
  rcases h with h | ⟨rfl, _⟩
  · exact h
  · exact hk

/-- What follows an operand makes more of it than a literal. -/
theorem extends_trailers {limit : Nat} (hrun : (g.trailers limit kind).run tape = some (answer, tape')) :
    Extends kind answer tape tape' := by
  induction limit generalizing kind tape with
  | zero => cases hrun
  | succ limit ih =>
    have hother : ∀ {p : Reader Unit}, (do p; g.trailers limit .other).run tape = some (answer, tape') →
        Extends kind answer tape tape' := by
      intro p hrun
      obtain ⟨_, mid, _, hrun⟩ := run_bind_eq_some.1 hrun
      exact .inl ((ih hrun).compound nofun)
    obtain ⟨ts, mid, hrest, hrun⟩ := run_bind_eq_some.1 hrun
    cases hrest
    split at hrun
    · exact hother hrun
    · split at hrun
      · rw [← bind_assoc] at hrun
        exact hother hrun
      · split at hrun
        · exact hother hrun
        · split at hrun
          · exact hother hrun
          · exact .inr (run_pure_eq_some.1 hrun)

/-- Operators read with the grammar make no literal of what is none. -/
def Binds : Prop := ∀ structs base kind, kind.Compound → (g.operators structs base kind).Answers ExprKind.Compound

variable {g}

theorem Binds.operatorsRule (h : g.Binds) {base : Precedence}
    (hrun : (g.operatorsRule structs base kind).run tape = some (answer, tape')) :
    Extends kind answer tape tape' := by
  obtain ⟨ts, mid, hrest, hrun⟩ := run_bind_eq_some.1 hrun
  cases hrest
  split at hrun
  · exact .inr (run_pure_eq_some.1 hrun)
  · split at hrun
    · split at hrun
      · exact .inr (run_pure_eq_some.1 hrun)
      · refine .inl (Answers.bind (fun _ => .bind fun _ => .bind fun _ => h _ _ _ ?_) _ _ _ hrun)
        split <;> exact nofun
    · split at hrun
      · exact .inl (Answers.bind (fun _ => .bind fun _ => h _ _ _ ExprKind.compound_other) _ _ _ hrun)
      · split at hrun
        · exact .inl (Answers.bind (fun _ => answers_pure nofun) _ _ _ hrun)
        · split at hrun
          · refine .inl (Answers.bind (fun _ => .bind fun _ => .bind fun _ => .bind fun _ => ?_) _ _ _ hrun)
            exact h _ _ _ ExprKind.compound_other
          · exact .inr (run_pure_eq_some.1 hrun)

theorem binds_ofDepth (depth : Nat) : (ofDepth depth).Binds := by
  induction depth with
  | zero => exact fun _ _ _ _ => answers_failure
  | succ depth ih => exact fun _ _ _ hk _ _ _ hrun => (ih.operatorsRule hrun).compound hk

/-! ## Expressions -/

/-- An attribute stands next. -/
def attributeAhead (ts : List Token) : Bool := Ahead.op "#" ts && Ahead.opens .bracket (Ahead.skip ts)

theorem run_outerAttributes (g : Grammar) (h : Ahead.op "#" tape.rest = false) :
    g.outerAttributes.run tape = some ((), tape) := by
  simp [outerAttributes, whileMore, repeatUpTo, rest, run_op?, h]

theorem outerAttributes_of_run {u : Unit} (hnone : attributeAhead tape.rest = false)
    (hrun : g.outerAttributes.run tape = some (u, tape')) : tape' = tape := by
  cases hsharp : Ahead.op "#" tape.rest with
  | false =>
    rw [run_outerAttributes g hsharp] at hrun
    cases hrun
    rfl
  | true =>
    obtain ⟨joint, left, hrest⟩ := opChars_singleton.1 hsharp
    obtain ⟨_, _, hts, hrun⟩ := run_bind_eq_some.1 hrun
    cases hts
    obtain ⟨_, _, hmore, _⟩ := run_bind_eq_some.1 hrun
    obtain ⟨_, _, hsign, hmore⟩ := run_bind_eq_some.1 hmore
    rw [run_op?, if_pos hsharp, hrest] at hsign
    cases hsign
    obtain ⟨_, _, hgroup, _⟩ := run_bind_eq_some.1 hmore
    have hopens : Ahead.opens .bracket left = true := opens_of_run hgroup
    rw [attributeAhead, hsharp, hrest] at hnone
    cases hopens.symm.trans hnone

theorem attributeAhead_of_literal (h : literal.run tape = some (v, tape')) : attributeAhead tape.rest = false := by
  rcases literal_of_run h with ⟨token, left, hrest, htoken, _⟩ | ⟨⟨joint, left, hrest⟩, _⟩
  · rw [hrest]
    cases token with
    | literal | word => rfl
    | punct | opening | closing => cases htoken
  · rw [hrest]
    rfl

theorem Extends.eq_of_literal (h : Extends kind (.literal v) tape tape') : kind = .literal v ∧ tape' = tape := by
  rcases h with h | ⟨hkind, htape⟩
  · exact absurd rfl (h v)
  · exact ⟨hkind.symm, htape⟩

theorem literal_of_atom (hrun : (g.atom structs).run tape = some (.literal v, tape')) :
    literal.run tape = some (v, tape') := by
  obtain ⟨found, mid, hattempt, hrun⟩ := run_bind_eq_some.1 hrun
  rw [run_attempt] at hattempt
  cases hl : literal.run tape with
  | none =>
    rw [hl] at hattempt
    cases hattempt
    exact absurd hrun (Answers.not_literal (g.answers_compound structs))
  | some r =>
    rw [hl] at hattempt
    cases hattempt
    obtain ⟨hv, rfl⟩ := run_pure_eq_some.1 hrun
    cases hv
    rfl

/-- An operand that is a literal is one token, unless attributes stand before it. -/
theorem literal_of_unaryRule (hnone : attributeAhead tape.rest = false)
    (hrun : (g.unaryRule structs).run tape = some (.literal v, tape')) :
    ∃ token left, tape.rest = token :: left ∧ Literal.ofToken? token = some v ∧
      tape' = ⟨left, token :: tape.written⟩ := by
  obtain ⟨_, mid, hattributes, hbehind⟩ := run_bind_eq_some.1 hrun
  rw [outerAttributes_of_run hnone hattributes] at hbehind
  obtain ⟨ts, mid, hrest, hrun⟩ := run_bind_eq_some.1 hbehind
  cases hrest
  obtain ⟨found, mid, hand, hrun⟩ := run_bind_eq_some.1 hrun
  split at hrun
  · refine absurd hrun (Answers.not_literal ?_)
    exact .bind fun _ => .bind fun _ => .ite (.bind fun _ => .bind fun _ => answers_pure nofun)
      (.bind fun _ => .bind fun _ => answers_pure nofun)
  · rename_i hnot
    rw [run_op?] at hand
    split at hand <;> cases hand
    · exact absurd rfl hnot
    · split at hrun
      · exact absurd hrun (Answers.not_literal (.bind fun _ => .bind fun _ => answers_pure nofun))
      · rename_i hsigns
        obtain ⟨kind, mid, hatom, hrun⟩ := run_bind_eq_some.1 hrun
        obtain ⟨after, _, hrest, hrun⟩ := run_bind_eq_some.1 hrun
        cases hrest
        obtain ⟨rfl, rfl⟩ := (g.extends_trailers hrun).eq_of_literal
        rcases literal_of_run (literal_of_atom hatom) with htoken | ⟨⟨joint, left, hminus⟩, _⟩
        · exact htoken
        · exact absurd (by rw [hminus]; rfl) hsigns

/-- An expression that is a literal is one token, unless attributes stand before it. -/
theorem literal_of_expr {depth : Nat} (hnone : attributeAhead tape.rest = false)
    (hrun : ((ofDepth depth).expr structs).run tape = some (.literal v, tape')) :
    ∃ token left, tape.rest = token :: left ∧ Literal.ofToken? token = some v ∧
      tape' = ⟨left, token :: tape.written⟩ := by
  match depth, hrun with
  | 0, hrun => cases hrun
  | 1, hrun =>
    obtain ⟨_, _, hunary, _⟩ := run_bind_eq_some.1 hrun
    cases hunary
  | depth + 2, hrun =>
    obtain ⟨kind, mid, hunary, hrun⟩ := run_bind_eq_some.1 hrun
    obtain ⟨rfl, rfl⟩ := ((binds_ofDepth depth).operatorsRule hrun).eq_of_literal
    exact literal_of_unaryRule hnone hunary

/-! ## Values -/

/-- The value of an argument that is a text, or a number without a sign, is one token. -/
theorem literal_of_attributeValue {depth : Nat} (hv : v.Plain)
    (hrun : (ofDepth depth).attributeValue.run tape = some (some v, tape')) :
    ∃ text left, tape.rest = .literal text :: left ∧ Literal.ofText text = v ∧
      tape' = ⟨left, .literal text :: tape.written⟩ := by
  have hplain : ∀ {value mid}, literal.run tape = some (value, mid) → value = v → ∃ text left,
      tape.rest = .literal text :: left ∧ Literal.ofText text = v ∧
        mid = ⟨left, .literal text :: tape.written⟩ := by
    rintro value mid hl rfl
    rcases literal_of_run hl with ⟨token, left, hrest, htoken, hmid⟩ | ⟨_, input, rfl⟩
    · obtain ⟨text, rfl, htext⟩ := hv.of_token htoken
      exact ⟨text, left, hrest, htext, hmid⟩
    · exact absurd hv (Literal.not_plain_of_sign input)
  obtain ⟨start, mid, hstart, hrun⟩ := run_bind_eq_some.1 hrun
  cases hstart
  obtain ⟨found, mid, hattempt, hrun⟩ := run_bind_eq_some.1 hrun
  rw [run_attempt] at hattempt
  have hexpr : attributeAhead tape.rest = false → ((ofDepth depth).expr true).run tape = some (.literal v, tape') →
      ∃ text left, tape.rest = .literal text :: left ∧ Literal.ofText text = v ∧
        tape' = ⟨left, .literal text :: tape.written⟩ := by
    intro hnone hkind
    obtain ⟨token, left, hrest, htoken, hafter⟩ := literal_of_expr hnone hkind
    obtain ⟨text, rfl, htext⟩ := hv.of_token htoken
    exact ⟨text, left, hrest, htext, hafter⟩
  cases hl : literal.run tape with
  | none =>
    rw [hl] at hattempt
    cases hattempt
    obtain ⟨_, _, hsharp, hseen⟩ := run_bind_eq_some.1 hrun
    cases hsharp
    obtain ⟨_, _, hbracket, hchecked⟩ := run_bind_eq_some.1 hseen
    cases hbracket
    obtain ⟨_, mid, hrequire, hread⟩ := run_bind_eq_some.1 hchecked
    have hnone : attributeAhead tape.rest = false := (Bool.not_eq_true' _).mp (run_require_eq_some hrequire)
    obtain rfl := tape_of_require hrequire
    obtain ⟨kind, after, hkind, hanswer⟩ := run_bind_eq_some.1 hread
    split at hanswer <;> obtain ⟨hvalue, rfl⟩ := run_pure_eq_some.1 hanswer <;> cases hvalue
    exact hexpr hnone hkind
  | some r =>
    obtain ⟨value, after⟩ := r
    rw [hl] at hattempt
    cases hattempt
    obtain ⟨ended, _, hsee, hrun⟩ := run_bind_eq_some.1 hrun
    cases hsee
    split at hrun
    · obtain ⟨hvalue, rfl⟩ := run_pure_eq_some.1 hrun
      cases hvalue
      exact hplain hl rfl
    · obtain ⟨_, _, hset, hrun⟩ := run_bind_eq_some.1 hrun
      cases hset
      obtain ⟨kind, after, hkind, hanswer⟩ := run_bind_eq_some.1 hrun
      split at hanswer <;> obtain ⟨hvalue, rfl⟩ := run_pure_eq_some.1 hanswer <;> cases hvalue
      exact hexpr (attributeAhead_of_literal hl) hkind

/-- What stands behind a value: nothing more in the group, or the comma before the next entry. -/
def EndsValue (left : List Token) : Prop := Ahead.atEnd left = true ∨ ∃ joint more, left = .punct ',' joint :: more

theorem run_atom {text : String} {left : List Token} (h : tape.rest = .literal text :: left) :
    (g.atom structs).run tape = some (.literal (Literal.ofText text), ⟨left, .literal text :: tape.written⟩) := by
  simp [atom, run_attempt, run_literal h]

theorem run_trailers {limit : Nat} {joint : Bool} {more : List Token} (h : tape.rest = .punct ',' joint :: more) :
    (g.trailers (limit + 1) kind).run tape = some (kind, tape) := by
  simp [trailers, rest, h, Ahead.opens, Ahead.op, Ahead.opChars]

theorem run_operatorsRule {base : Precedence} {joint : Bool} {more : List Token}
    (h : tape.rest = .punct ',' joint :: more) :
    (g.operatorsRule structs base kind).run tape = some (kind, tape) := by
  have hnone : operator? (.punct ',' joint :: more) = .none := by
    simp [operator?, binaryOperators, Ahead.op, Ahead.opChars]
  simp [operatorsRule, rest, h, hnone, assignAhead, Ahead.keyword, Ahead.op, Ahead.opChars]

theorem run_unaryRule {text : String} {joint : Bool} {more : List Token}
    (h : tape.rest = .literal text :: .punct ',' joint :: more) :
    (g.unaryRule structs).run tape =
      some (.literal (Literal.ofText text), ⟨.punct ',' joint :: more, .literal text :: tape.written⟩) := by
  have hsharp : Ahead.op "#" tape.rest = false := by rw [h]; rfl
  have hsigns : Ahead.op "*" tape.rest = false ∧ Ahead.op "!" tape.rest = false ∧
      Ahead.op "-" tape.rest = false := by
    rw [h]
    exact ⟨rfl, rfl, rfl⟩
  have hand : (op? "&").run tape = some (false, tape) := by
    rw [run_op?, h]
    rfl
  simp [unaryRule, run_outerAttributes g hsharp, rest, hand, hsigns, run_atom h]
  exact run_trailers rfl

theorem run_expr {depth : Nat} {text : String} {joint : Bool} {more : List Token}
    (h : tape.rest = .literal text :: .punct ',' joint :: more) :
    ((ofDepth (depth + 2)).expr structs).run tape =
      some (.literal (Literal.ofText text), ⟨.punct ',' joint :: more, .literal text :: tape.written⟩) := by
  refine run_bind_eq_some.2 ⟨_, _, run_unaryRule h, run_operatorsRule rfl⟩

/-- One literal is what it stands for, whether the group ends behind it or a comma follows. -/
theorem run_attributeValue {depth : Nat} {text : String} {left : List Token}
    (h : tape.rest = .literal text :: left) (hleft : EndsValue left) :
    (ofDepth (depth + 2)).attributeValue.run tape =
      some (some (Literal.ofText text), ⟨left, .literal text :: tape.written⟩) := by
  cases hend : Ahead.atEnd left with
  | true => simp [attributeValue, run_attempt, run_literal h, atEnd, see, rest, hend]
  | false =>
    obtain ⟨joint, more, rfl⟩ := hleft.resolve_left (by simp [hend])
    simp [attributeValue, run_attempt, run_literal h, atEnd, see, rest, hend, run_expr h]

end Grammar

end TaskSpace.Reading

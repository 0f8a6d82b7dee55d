import Mathlib.Data.List.Forall2
import TaskSpace.Proofs.Reading.Numerals
import TaskSpace.Proofs.Reading.Values

/-!
# The parser of runs

The tokens of an attribute are read as entries with commas between them. An entry with a word and a literal is
these two with an equals sign between them and nothing else, and wherever these three stand as an entry they are
read as one. The parser of runs therefore keeps to what is asked of parsers.
-/

namespace TaskSpace.Reading

open Entry (Token Argument CommaList)

namespace Reader

variable {α β : Type} {p : Reader α} {tape tape' : Tape}

/-! ## Readers that copy -/

/-- A reader that writes the very tokens that it takes. -/
def Copies (p : Reader α) : Prop :=
  ∀ tape a tape', p.run tape = some (a, tape') →
    ∃ taken, tape.rest = taken ++ tape'.rest ∧ tape'.written = taken.reverse ++ tape.written

theorem copies_pure (a : α) : (pure a : Reader α).Copies := by
  rintro tape b tape' h
  obtain ⟨-, rfl⟩ := run_pure_eq_some.1 h
  exact ⟨[], rfl, rfl⟩

theorem copies_failure : (failure : Reader α).Copies := by
  intro tape a tape' h
  cases h

theorem Copies.bind {f : α → Reader β} (hp : p.Copies) (hf : ∀ a, (f a).Copies) : (p >>= f).Copies := by
  intro tape b tape' h
  obtain ⟨a, mid, h, h'⟩ := run_bind_eq_some.1 h
  obtain ⟨first, hrest, hwritten⟩ := hp _ _ _ h
  obtain ⟨second, hrest', hwritten'⟩ := hf _ _ _ _ h'
  exact ⟨first ++ second, by rw [hrest, hrest', List.append_assoc],
    by rw [hwritten', hwritten, List.reverse_append, List.append_assoc]⟩

theorem Copies.ite {c : Prop} [Decidable c] {q : Reader α} (hp : p.Copies) (hq : q.Copies) :
    (if c then p else q).Copies := by
  split
  · exact hp
  · exact hq

theorem copies_see (test : List Token → Bool) : (see test).Copies := by
  intro tape a tape' h
  cases h
  exact ⟨[], rfl, rfl⟩

theorem copies_rest : rest.Copies := by
  intro tape a tape' h
  cases h
  exact ⟨[], rfl, rfl⟩

theorem copies_take (n : Nat) : (take n).Copies := by
  intro tape a tape' h
  cases h
  exact ⟨tape.rest.take n, (List.take_append_drop n tape.rest).symm, rfl⟩

theorem copies_require (c : Bool) : (require c).Copies := by
  cases c with
  | true => exact copies_pure ()
  | false => exact copies_failure

theorem copies_op? (text : String) : (op? text).Copies :=
  (copies_see _).bind fun _ => .ite ((copies_take _).bind fun _ => copies_pure _) (copies_pure _)

theorem Copies.repeatUpTo {more : Reader Bool} (h : more.Copies) (limit : Nat) :
    (repeatUpTo limit more).Copies := by
  induction limit with
  | zero => exact copies_failure
  | succ limit ih => exact h.bind fun _ => .ite ih (copies_pure _)

theorem Copies.whileMore {more : Reader Bool} (h : more.Copies) : (whileMore more).Copies :=
  copies_rest.bind fun _ => h.repeatUpTo _

theorem Copies.reads {tokens written left : List Token} {a : α} (h : p.Copies)
    (hreads : p.Reads tokens a written left) : tokens = written ++ left := by
  obtain ⟨taken, hrest, hwritten⟩ := h _ _ _ hreads
  rw [List.append_nil, List.reverse_inj] at hwritten
  rw [hwritten]
  exact hrest

theorem run_op_eq_some {text : String} {u : Unit} (h : (op text).run tape = some (u, tape')) :
    Ahead.op text tape.rest = true ∧ tape'.rest = tape.rest.drop text.length := by
  obtain ⟨_, _, hsee, hseen⟩ := run_bind_eq_some.1 h
  cases hsee
  obtain ⟨_, mid, hrequire, htake⟩ := run_bind_eq_some.1 hseen
  obtain rfl := tape_of_require hrequire
  cases htake
  exact ⟨run_require_eq_some hrequire, rfl⟩

theorem run_op {text : String} (h : Ahead.op text tape.rest = true) :
    (op text).run tape =
      some ((), ⟨tape.rest.drop text.length, (tape.rest.take text.length).reverse ++ tape.written⟩) := by
  simp [op, see, rest, require, h, take, write, skip]

end Reader

open Reader

namespace Grammar

/-! ## Names -/

theorem copies_attributePath : attributePath.Copies := by
  refine (copies_see _).bind fun _ => .ite (copies_take 1) ?_
  refine (copies_op? "::").bind fun _ => Copies.whileMore ?_
  exact (copies_see _).bind fun _ => (copies_require _).bind fun _ => (copies_take 1).bind fun _ => copies_op? "::"

theorem run_attributePath {key : String} {joint : Bool} {left : List Token} {tape : Tape} (hkey : key ∉ keywords)
    (h : tape.rest = .word key :: .punct '=' joint :: left) :
    (collected attributePath).run tape = some (((), [.word key]), ⟨.punct '=' joint :: left, tape.written⟩) := by
  have hunsafe : key ≠ "unsafe" := by
    rintro rfl
    exact hkey (by decide)
  have hcolons : ∀ written, (op? "::").run ⟨.word key :: .punct '=' joint :: left, written⟩ =
      some (false, ⟨.word key :: .punct '=' joint :: left, written⟩) := by
    intro written
    rw [run_op?]
    rfl
  have hmore : ∀ written, (op? "::").run ⟨.punct '=' joint :: left, written⟩ =
      some (false, ⟨.punct '=' joint :: left, written⟩) := by
    intro written
    rw [run_op?]
    rfl
  simp [run_collected, attributePath, plainPath, whileMore, repeatUpTo, see, rest, take, write, skip, require, h,
    Ahead.keyword, Ahead.ident, hunsafe, hkey, hcolons, hmore]

end Grammar

/-! ## Lists -/

namespace Reader

variable {α : Type} {entry : Reader α} {W : List Token → α → Prop} {P : α → Prop} {tape tape' : Tape}
  {answers : List α} {entries : List (List Token)} {tokens : List Token} {limit : Nat}

theorem run_atEnd (tape : Tape) : atEnd.run tape = some (Ahead.atEnd tape.rest, tape) := rfl

/-- What is read as a list to the end is one, if each entry that is read is what `W` says of its answer. -/
theorem commaList_of_run (hentry : ∀ {tape tape' : Tape} {a : α}, P a → entry.run tape = some (a, tape') →
      ∃ e, W e a ∧ tape.rest = e ++ tape'.rest)
    (hP : ∀ a ∈ answers, P a) (h : (commaListUpTo entry limit).run tape = some (answers, tape'))
    (hend : tape'.rest = []) :
    ∃ entries, CommaList entries tape.rest ∧ List.Forall₂ W entries answers := by
  -- By the recursion of the reader: it is over before an entry, over behind one, or a comma stands between two.
  induction limit generalizing tape answers with
  | zero => cases h
  | succ limit ih =>
    obtain ⟨ended, mid, hended, hfirst⟩ := run_bind_eq_some.1 h
    cases hended
    split at hfirst
    · obtain ⟨rfl, rfl⟩ := run_pure_eq_some.1 hfirst
      exact ⟨[], hend ▸ .nil, .nil⟩
    · obtain ⟨a, behind, ha, hmore⟩ := run_bind_eq_some.1 hfirst
      obtain ⟨ended, mid, hended, hnext⟩ := run_bind_eq_some.1 hmore
      cases hended
      split at hnext
      · obtain ⟨rfl, rfl⟩ := run_pure_eq_some.1 hnext
        obtain ⟨e, hW, hrest⟩ := hentry (hP a List.mem_cons_self) ha
        refine ⟨[e], ?_, .cons hW .nil⟩
        rw [hrest, hend, List.append_nil]
        exact .last e
      · obtain ⟨_, after, hcomma, hlist⟩ := run_bind_eq_some.1 hnext
        obtain ⟨others, last, hothers, hanswers⟩ := run_bind_eq_some.1 hlist
        obtain ⟨rfl, rfl⟩ := run_pure_eq_some.1 hanswers
        rw [List.forall_mem_cons] at hP
        obtain ⟨e, hW, hrest⟩ := hentry hP.1 ha
        obtain ⟨entries, hentries, hall⟩ := ih hP.2 hothers
        obtain ⟨hahead, hafter⟩ := run_op_eq_some hcomma
        obtain ⟨joint, left, hleft⟩ := opChars_singleton.1 hahead
        obtain rfl : after.rest = left := hafter.trans (by rw [hleft]; rfl)
        refine ⟨e :: entries, ?_, .cons hW hall⟩
        rw [hrest, hleft]
        exact .cons e joint hentries

/-- A list is read to its end, if each entry that is what `W` says of an answer is read so. -/
theorem run_commaList (hentry : ∀ {e left written : List Token} {a : α}, P a → W e a → Grammar.EndsValue left →
      Ahead.atEnd (e ++ left) = false ∧ ∃ written', entry.run ⟨e ++ left, written⟩ = some (a, ⟨left, written'⟩))
    (hP : ∀ a ∈ answers, P a) (h : CommaList entries tokens) (hall : List.Forall₂ W entries answers)
    (hlimit : entries.length < limit) (written : List Token) :
    ∃ written', (commaListUpTo entry limit).run ⟨tokens, written⟩ = some (answers, ⟨[], written'⟩) := by
  -- One turn is left for the look at the end, so the limit is never zero.
  obtain _ | limit := limit
  · exact absurd hlimit (Nat.not_lt_zero _)
  induction h generalizing answers limit written with
  | nil =>
    cases hall
    exact ⟨written, rfl⟩
  | last e =>
    obtain _ | ⟨hW, ⟨⟩⟩ := hall
    obtain ⟨hstart, written', hrun⟩ := @hentry e [] written _ (hP _ List.mem_cons_self) hW (.inl rfl)
    rw [List.append_nil] at hstart hrun
    refine ⟨written', run_bind_eq_some.2 ⟨_, _, run_atEnd _, ?_⟩⟩
    rw [hstart]
    exact run_bind_eq_some.2 ⟨_, _, hrun, run_bind_eq_some.2 ⟨_, _, run_atEnd _, rfl⟩⟩
  | cons e joint hentries ih =>
    obtain _ | ⟨hW, hall⟩ := hall
    rw [List.forall_mem_cons] at hP
    obtain ⟨hstart, mid, hrun⟩ := @hentry e (.punct ',' joint :: _) written _ hP.1 hW (.inr ⟨joint, _, rfl⟩)
    obtain _ | limit := limit
    · exact absurd hlimit (by simp)
    obtain ⟨written', hlist⟩ := ih hP.2 hall (.punct ',' joint :: mid) limit (Nat.lt_of_succ_lt_succ hlimit)
    refine ⟨written', run_bind_eq_some.2 ⟨_, _, run_atEnd _, ?_⟩⟩
    rw [hstart]
    refine run_bind_eq_some.2 ⟨_, _, hrun, run_bind_eq_some.2 ⟨_, _, run_atEnd _, ?_⟩⟩
    exact run_bind_eq_some.2 ⟨_, _, run_op rfl, run_bind_eq_some.2 ⟨_, _, hlist, rfl⟩⟩

theorem length_le_of_commaList (h : CommaList entries tokens) (hne : ∀ e ∈ entries, e ≠ []) :
    entries.length ≤ tokens.length := by
  induction h with
  | nil => exact Nat.le_refl 0
  | last e => exact List.length_pos_iff.2 (hne e List.mem_cons_self)
  | cons e joint _ ih =>
    have := ih fun e he => hne e (List.mem_cons_of_mem _ he)
    simp only [List.length_cons, List.length_append]
    omega

end Reader

/-! ## Arguments -/

/-- What a literal stands for in an argument. -/
def literalOf (text : String) : Entry.Literal := (Literal.ofText text).shown

theorem Literal.plain_of_shown {value : Literal} (h : value.shown.Plain) : value.Plain := by
  cases value with
  | text => trivial
  | other => exact h
  | int negative value suffix =>
    cases negative with
    | false => rfl
    | true => exact absurd (by simp) (show ("-" ++ toString value).toList.head? ≠ some '-' from h)

theorem not_keyword_of_mem_keys {key : String} (h : key ∈ Argument.keys) : key ∉ keywords := by
  revert key
  decide

section

open Reader Grammar

variable {argument : Argument} {list : List Argument} {entry tokens : List Token} {tape tape' : Tape} {depth : Nat}

theorem keyOf_eq_some {path : List Token} {key : String} (h : keyOf path = some key) : path = [.word key] := by
  unfold keyOf at h
  split at h <;> cases h
  rfl

theorem writes_of_readArgument (hplain : argument.Plain)
    (h : (readArgument (ofDepth depth)).run tape = some (argument, tape')) :
    ∃ entry, Argument.Writes literalOf entry argument ∧ tape.rest = entry ++ tape'.rest := by
  obtain ⟨key, value, rfl, -, hvalue⟩ := hplain
  obtain ⟨⟨_, path⟩, named, hpath, hbehind⟩ := run_bind_eq_some.1 h
  obtain ⟨_, signed, hsign, hvalued⟩ := run_bind_eq_some.1 hbehind
  obtain ⟨found, valued, hfound, hanswer⟩ := run_bind_eq_some.1 hvalued
  obtain ⟨hargument, rfl⟩ := run_pure_eq_some.1 hanswer
  obtain ⟨hkey, hshown⟩ : some key = keyOf path ∧ some value = found.map Literal.shown := by
    simpa using hargument
  obtain rfl := keyOf_eq_some hkey.symm
  obtain ⟨read, rfl, rfl⟩ := Option.map_eq_some_iff.1 hshown.symm
  -- What was written of the path is what was taken for it, so the path was one word.
  have hname : tape.rest = [.word key] ++ named.rest :=
    copies_attributePath.reads (run_collected_eq_some.1 hpath).1
  obtain ⟨hahead, hsigned⟩ := run_op_eq_some hsign
  obtain ⟨joint, left, hleft⟩ := opChars_singleton.1 hahead
  rw [hleft] at hsigned
  obtain ⟨text, behind, hrest, rfl, rfl⟩ := literal_of_attributeValue (Literal.plain_of_shown hvalue) hfound
  refine ⟨_, .mk key joint text, ?_⟩
  rw [hname, hleft, ← show signed.rest = left from hsigned, hrest]
  rfl

theorem run_readArgument {left written : List Token} (hplain : argument.Plain)
    (hwrites : Argument.Writes literalOf entry argument) (hleft : EndsValue left) :
    ∃ written', (readArgument (ofDepth (depth + 2))).run ⟨entry ++ left, written⟩ =
      some (argument, ⟨left, written'⟩) := by
  obtain ⟨key, joint, text⟩ := hwrites
  obtain ⟨_, _, heq, hmem, -⟩ := hplain
  cases heq
  have hkey : key ∉ keywords := not_keyword_of_mem_keys hmem
  have hvalue : ∀ written, (ofDepth (depth + 2)).attributeValue.run ⟨.literal text :: left, written⟩ =
      some (some (Literal.ofText text), ⟨left, .literal text :: written⟩) := fun _ => run_attributeValue rfl hleft
  exact ⟨_, run_bind_eq_some.2 ⟨_, _, run_attributePath hkey rfl, run_bind_eq_some.2 ⟨_, _, run_op rfl,
    run_bind_eq_some.2 ⟨_, _, hvalue _, rfl⟩⟩⟩⟩

theorem atEnd_of_writes (hwrites : Argument.Writes literalOf entry argument) (left : List Token) :
    Ahead.atEnd (entry ++ left) = false := by
  obtain ⟨⟩ := hwrites
  rfl

theorem ne_nil_of_writes (hwrites : Argument.Writes literalOf entry argument) : entry ≠ [] := by
  obtain ⟨⟩ := hwrites
  exact nofun

theorem whole_eq_some {α : Type} {read : Grammar → Reader α} {a : α} :
    whole read tokens = some a ↔ ∃ written, (read (forTokens tokens)).run ⟨tokens, []⟩ = some (a, ⟨[], written⟩) := by
  rw [whole]
  constructor
  · intro h
    split at h <;> cases h
    exact ⟨_, ‹_›⟩
  · rintro ⟨written, h⟩
    rw [h]

theorem parser_arguments_eq_ok :
    parser.arguments tokens = .ok list ↔ whole (fun g => commaList (readArgument g)) tokens = some list := by
  cases h : whole (fun g => commaList (readArgument g)) tokens <;> simp [parser, h]

/-- The lists of words with texts and numbers are those that are written as such. -/
theorem parser_arguments_iff (h : ∀ argument ∈ list, argument.Plain) :
    parser.arguments tokens = .ok list ↔
      ∃ entries, CommaList entries tokens ∧ List.Forall₂ (Argument.Writes literalOf) entries list := by
  rw [parser_arguments_eq_ok, whole_eq_some]
  constructor
  · rintro ⟨written, hrun⟩
    obtain ⟨_, _, hrest, hlist⟩ := run_bind_eq_some.1 hrun
    cases hrest
    exact commaList_of_run (fun hplain hread => writes_of_readArgument hplain hread) h hlist rfl
  · rintro ⟨entries, hlist, hall⟩
    have hne : ∀ e ∈ entries, e ≠ [] := by
      have hall' := hall.imp fun _ _ hwrites => And.intro (ne_nil_of_writes hwrites) hwrites
      exact ((List.forall₂_and_left entries list).1 hall').1
    have hlimit : entries.length < tokens.length + 1 := Nat.lt_succ_of_le (length_le_of_commaList hlist hne)
    exact run_commaList (fun hplain hwrites hleft =>
      ⟨atEnd_of_writes hwrites _, run_readArgument hplain hwrites hleft⟩) h hlist hall hlimit []

theorem literalOf_eq_int {text digits : String} (hunsigned : digits.toList.head? ≠ some '-') :
    literalOf text = .int digits ↔ ∃ value suffix, Entry.Numeral text value suffix ∧ digits = toString value := by
  constructor
  · intro h
    rw [literalOf] at h
    cases hvalue : Literal.ofText text with
    | text | other => rw [hvalue] at h; cases h
    | int negative value suffix =>
      have hplain : (Literal.ofText text).Plain := by
        refine Literal.plain_of_shown ?_
        rw [h]
        exact hunsigned
      rw [hvalue] at h hplain
      obtain rfl : negative = false := hplain
      refine ⟨value, suffix, (Literal.ofText_eq_int.1 hvalue).2, ?_⟩
      simpa [Literal.shown] using h.symm
  · rintro ⟨value, suffix, hnumeral, rfl⟩
    rw [literalOf, Literal.ofText_eq_int.2 ⟨rfl, hnumeral⟩]
    simp [Literal.shown]

end

theorem parser_reads : parser.Reads literalOf where
  arguments _ h := parser_arguments_iff h
  int _ _ h := literalOf_eq_int h

end TaskSpace.Reading

/-!
# Runs as data

A run is a list of acts, each of which has to be possible. Its turns keep the states between them, so
that what is true of every step of a run can be said of the turns.
-/

namespace TaskSpace

variable {S A : Type}

/-- One act of a run, with the state before and after it. -/
structure Turn (S A : Type) where
  before : S
  act : A
  after : S

/-- The turns of a run, and the state in which it ends. -/
def trail (step : S → A → Option S) (s : S) : List A → Option (List (Turn S A) × S)
  | [] => some ([], s)
  | act :: rest => do
    let after ← step s act
    let (turns, last) ← trail step after rest
    return (⟨s, act, after⟩ :: turns, last)

variable {step : S → A → Option S} {s last : S} {acts : List A} {turns : List (Turn S A)}

theorem trail_cons {act : A} (h : trail step s (act :: acts) = some (turns, last)) :
    ∃ after rest, step s act = some after ∧ trail step after acts = some (rest, last) ∧
      turns = ⟨s, act, after⟩ :: rest := by
  obtain ⟨after, hstep, h⟩ := Option.bind_eq_some_iff.1 h
  obtain ⟨⟨rest, last'⟩, hrest, h⟩ := Option.bind_eq_some_iff.1 h
  cases h
  exact ⟨after, rest, hstep, hrest, rfl⟩

/-- What is so after some turns, and stays so when a run grows by a turn, is so after a run from there. -/
theorem trail_induction_from {P : List (Turn S A) → S → Prop}
    (next : ∀ turns s act after, P turns s → step s act = some after →
      P (turns ++ [⟨s, act, after⟩]) after)
    {before : List (Turn S A)} (start : P before s) (h : trail step s acts = some (turns, last)) :
    P (before ++ turns) last := by
  induction acts generalizing s before turns with
  | nil =>
    cases h
    simpa using start
  | cons act acts ih =>
    obtain ⟨after, rest, hstep, hrest, rfl⟩ := trail_cons h
    have hgrown := ih (next before s act after start hstep) hrest
    simpa using hgrown

theorem trail_induction {P : List (Turn S A) → S → Prop}
    (next : ∀ turns s act after, P turns s → step s act = some after →
      P (turns ++ [⟨s, act, after⟩]) after)
    (start : P [] s) (h : trail step s acts = some (turns, last)) : P turns last :=
  trail_induction_from next start h

/-- A run goes on by one act. -/
theorem trail_snoc {act : A} {after : S} (h : trail step s acts = some (turns, last))
    (hstep : step last act = some after) :
    trail step s (acts ++ [act]) = some (turns ++ [⟨last, act, after⟩], after) := by
  induction acts generalizing s turns with
  | nil =>
    cases h
    simp [trail, hstep]
  | cons first acts ih =>
    obtain ⟨middle, rest, hfirst, hrest, rfl⟩ := trail_cons h
    simp only [List.cons_append, trail, hfirst, ih hrest, Option.bind_eq_bind, Option.bind_some, Option.pure_def]

/-- The last turn of a run, and the run up to it. -/
theorem trail_concat {turn : Turn S A} (h : trail step s acts = some (turns ++ [turn], last)) :
    ∃ init, acts = init ++ [turn.act] ∧ trail step s init = some (turns, turn.before) ∧
      step turn.before turn.act = some turn.after ∧ last = turn.after := by
  induction acts generalizing s turns with
  | nil =>
    obtain ⟨hnil, _⟩ := Prod.mk.inj (Option.some.inj h)
    cases turns <;> cases hnil
  | cons act acts ih =>
    obtain ⟨after, rest, hstep, hrest, hturns⟩ := trail_cons h
    cases turns with
    | nil =>
      obtain ⟨rfl, rfl⟩ := List.cons.inj hturns
      cases acts with
      | nil =>
        cases hrest
        exact ⟨[], rfl, rfl, hstep, rfl⟩
      | cons next acts =>
        obtain ⟨_, _, _, _, hnil⟩ := trail_cons hrest
        cases hnil
    | cons first turns =>
      obtain ⟨rfl, rfl⟩ := List.cons.inj hturns
      obtain ⟨init, rfl, hinit, hlast⟩ := ih hrest
      refine ⟨act :: init, rfl, ?_, hlast⟩
      simp only [trail, hstep, hinit, Option.bind_eq_bind, Option.bind_some, Option.pure_def]

/-- The run up to a turn, and the turn. -/
theorem trail_split {earlier later : List (Turn S A)} {turn : Turn S A}
    (h : trail step s acts = some (earlier ++ turn :: later, last)) :
    ∃ init, trail step s init = some (earlier, turn.before) ∧ step turn.before turn.act = some turn.after := by
  induction earlier generalizing s acts with
  | nil =>
    cases acts with
    | nil => cases h
    | cons act acts =>
      obtain ⟨after, rest, hstep, _, hturns⟩ := trail_cons h
      obtain ⟨rfl, _⟩ := List.cons.inj hturns
      exact ⟨[], rfl, hstep⟩
  | cons first earlier ih =>
    cases acts with
    | nil => cases h
    | cons act acts =>
      obtain ⟨after, rest, hfirst, hrest, hturns⟩ := trail_cons h
      obtain ⟨rfl, rfl⟩ := List.cons.inj hturns
      obtain ⟨init, hinit, hstep⟩ := ih hrest
      refine ⟨act :: init, ?_, hstep⟩
      simp only [trail, hfirst, hinit, Option.bind_eq_bind, Option.bind_some, Option.pure_def]

/-- A turn of a run that grew by one is the new one, or it was there before. -/
theorem split_of_snoc {earlier later : List (Turn S A)} {turn new : Turn S A}
    (h : turns ++ [new] = earlier ++ turn :: later) : earlier = turns ∧ turn = new ∧ later = [] ∨
      ∃ init, later = init ++ [new] ∧ turns = earlier ++ turn :: init := by
  rcases List.eq_nil_or_concat later with rfl | ⟨init, last, rfl⟩
  · obtain ⟨rfl, he⟩ := List.append_inj' h rfl
    exact .inl ⟨rfl, (List.singleton_inj.1 he).symm, rfl⟩
  · rw [List.concat_eq_append, ← List.cons_append, ← List.append_assoc] at h
    obtain ⟨rfl, he⟩ := List.append_inj' h rfl
    obtain rfl := List.singleton_inj.1 he
    exact .inr ⟨init, List.concat_eq_append, rfl⟩

end TaskSpace

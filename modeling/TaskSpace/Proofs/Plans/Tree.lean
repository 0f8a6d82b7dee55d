import TaskSpace.Proofs.Machine.SpawnTree

/-!
# Plans of tasks

A plan is what a task does that only spawns tasks, waits for tasks, returns and panics. A task is named by
its place in the spawn tree, and so is the handle that a plan waits for. `Plan.Reaches` says what a task
comes to when nothing is said about a schedule, and it comes to one result at most.
-/

namespace TaskSpace

inductive Plan where
  | finish (v : Value)
  | panic (payload : Payload)
  | spawn (options : SpawnOptions) (child next : Plan)
  /-- Waits for a task, which another task may have spawned, or may spawn later. -/
  | wait (kind : WaitKind) (task : Path) (next : Except JoinCause Value → Plan)

namespace Plan

def ofResult : Except Payload Value → Plan
  | .ok v => .finish v
  | .error payload => .panic payload

theorem ofResult_inj {result result' : Except Payload Value} (h : ofResult result = ofResult result') :
    result = result' := by
  cases result <;> cases result' <;> cases h <;> rfl

/-- What a wait for a task tells whose body ended so. -/
def told (result : Except Payload Value) : Except JoinCause Value := result.mapError JoinCause.panicked

variable {root : Plan} {path other : Path} {n i j k l : Nat} {plan : Plan} {result : Except Payload Value}

/-- The task at `path` comes to `plan` after `n` spawns and waits, `k` of them spawns. -/
inductive Reaches (root : Plan) : Path → (n k : Nat) → Plan → Prop
  | root : Reaches root [] 0 0 root
  | child {path n k options child next} : Reaches root path n k (.spawn options child next) →
    Reaches root (path ++ [k]) 0 0 child
  | spawn {path n k options child next} : Reaches root path n k (.spawn options child next) →
    Reaches root path (n + 1) (k + 1) next
  | wait {path other n k j l kind next result} : Reaches root path n k (.wait kind other next) →
    Reaches root other j l (.ofResult result) → Reaches root path (n + 1) k (next (told result))

/-- A plan that goes on, by a spawn or by a wait, with `k` spawns before and at most `l` after. -/
inductive Goes (k l : Nat) : Plan → Prop
  | spawn {options child next} : k < l → Goes k l (.spawn options child next)
  | wait {kind task next} : k ≤ l → Goes k l (.wait kind task next)

theorem Goes.mono (h : Goes i k plan) (hle : k ≤ l) : Goes i l plan := by
  cases h with
  | spawn hlt => exact .spawn (Nat.lt_of_lt_of_le hlt hle)
  | wait hle' => exact .wait (Nat.le_trans hle' hle)

theorem Goes.not_result (h : Goes k l (.ofResult result)) : False := by
  cases result <;> cases h

/-- Before each step of a task there was one that goes on. -/
theorem Reaches.before (h : Reaches root path n k plan) (hlt : i < n) :
    ∃ l earlier, Reaches root path i l earlier ∧ Goes l k earlier := by
  induction h with
  | root | child => cases hlt
  | @spawn path n k options child next hd ih =>
    rcases Nat.lt_or_eq_of_le (Nat.le_of_lt_succ hlt) with hlt | rfl
    · obtain ⟨l, earlier, hr, hg⟩ := ih hlt
      exact ⟨l, earlier, hr, hg.mono (Nat.le_succ k)⟩
    · exact ⟨k, _, hd, .spawn (Nat.lt_succ_self k)⟩
  | wait hd hother ih _ =>
    rcases Nat.lt_or_eq_of_le (Nat.le_of_lt_succ hlt) with hlt | rfl
    · exact ih hlt
    · exact ⟨_, _, hd, .wait (Nat.le_refl _)⟩

/-- Up to step `n`, a task comes to one plan only. -/
def UniqueTo (root : Plan) (path : Path) (n : Nat) : Prop :=
  ∀ i ≤ n, ∀ k l plan other, Reaches root path i k plan → Reaches root path i l other → k = l ∧ plan = other

/-- Two plans that a task comes to are at the same step when neither is one that goes on to the other. -/
theorem UniqueTo.step_eq (hu : UniqueTo root path n) {plan' : Plan} (h : Reaches root path n k plan)
    (h' : Reaches root path i l plan') (hstop : ¬Goes k l plan) (hstop' : ¬Goes l k plan') :
    n = i ∧ k = l ∧ plan = plan' := by
  rcases Nat.lt_trichotomy n i with hlt | rfl | hlt
  · obtain ⟨c, earlier, hr, hg⟩ := h'.before hlt
    obtain ⟨rfl, rfl⟩ := hu n (Nat.le_refl n) _ _ _ _ h hr
    exact absurd hg hstop
  · exact ⟨rfl, hu n (Nat.le_refl n) _ _ _ _ h h'⟩
  · obtain ⟨c, earlier, hr, hg⟩ := h.before hlt
    obtain ⟨rfl, rfl⟩ := hu i (Nat.le_of_lt hlt) _ _ _ _ h' hr
    exact absurd hg hstop'

theorem not_goes_spawn {options : SpawnOptions} {child next : Plan} :
    ¬Goes k k (.spawn options child next) := by
  intro h
  cases h with
  | spawn hlt => exact Nat.lt_irrefl k hlt

/-- The first step beyond those up to which a task comes to one plan only. -/
theorem UniqueTo.succ (hu : UniqueTo root path n)
    (hlast : ∀ k l plan other, Reaches root path (n + 1) k plan → Reaches root path (n + 1) l other →
      k = l ∧ plan = other) : UniqueTo root path (n + 1) := by
  intro i hi
  rcases Nat.lt_or_eq_of_le hi with hlt | rfl
  · exact hu i (Nat.le_of_lt_succ hlt)
  · exact hlast

theorem Reaches.zero (h : Reaches root path 0 k plan) : k = 0 ∧ (path = [] ∧ plan = root ∨
    ∃ parent n c options next, path = parent ++ [c] ∧ Reaches root parent n c (.spawn options plan next)) := by
  cases h with
  | root => exact ⟨rfl, .inl ⟨rfl, rfl⟩⟩
  | child h => exact ⟨rfl, .inr ⟨_, _, _, _, _, rfl, h⟩⟩

theorem Reaches.succ (h : Reaches root path (n + 1) k plan) :
    (∃ c options child, k = c + 1 ∧ Reaches root path n c (.spawn options child plan)) ∨
      ∃ kind other next j l result, plan = next (told result) ∧ Reaches root path n k (.wait kind other next) ∧
        Reaches root other j l (.ofResult result) := by
  cases h with
  | spawn h => exact .inl ⟨_, _, _, rfl, h⟩
  | wait h hother => exact .inr ⟨_, _, _, _, _, _, rfl, h, hother⟩

/-- Whatever a task comes to does not depend on how it comes to it. -/
theorem Reaches.unique (h : Reaches root path n k plan) : UniqueTo root path n := by
  induction h with
  | root =>
    intro i hi k l plan other h h'
    obtain rfl := Nat.le_zero.1 hi
    have hroot : ∀ {k plan}, Reaches root [] 0 k plan → k = 0 ∧ plan = root := by
      intro k plan h
      obtain ⟨rfl, ⟨_, rfl⟩ | ⟨parent, _, c, _, _, he, _⟩⟩ := h.zero
      · exact ⟨rfl, rfl⟩
      · simp at he
    obtain ⟨rfl, rfl⟩ := hroot h
    obtain ⟨rfl, rfl⟩ := hroot h'
    exact ⟨rfl, rfl⟩
  | @child parent n c options child next hd ih =>
    intro i hi k l plan other h h'
    obtain rfl := Nat.le_zero.1 hi
    -- the spawn that brought the task about is the one at which its parent had spawned as many
    have hborn : ∀ {k plan}, Reaches root (parent ++ [c]) 0 k plan → k = 0 ∧ plan = child := by
      intro k plan h
      obtain ⟨rfl, ⟨he, _⟩ | ⟨parent', m, c', options', next', he, hspawn⟩⟩ := h.zero
      · simp at he
      · obtain ⟨rfl, hc⟩ := List.append_inj' he rfl
        obtain rfl := List.singleton_inj.1 hc
        obtain ⟨_, _, hsame⟩ := ih.step_eq hd hspawn not_goes_spawn not_goes_spawn
        cases hsame
        exact ⟨rfl, rfl⟩
    obtain ⟨rfl, rfl⟩ := hborn h
    obtain ⟨rfl, rfl⟩ := hborn h'
    exact ⟨rfl, rfl⟩
  | @spawn path n c options child next hd ih =>
    have hlast : ∀ {k plan}, Reaches root path (n + 1) k plan → k = c + 1 ∧ plan = next := by
      intro k plan h
      rcases h.succ with ⟨c', _, _, rfl, hspawn⟩ | ⟨_, _, _, _, _, _, _, hwait, _⟩
      · obtain ⟨rfl, hsame⟩ := ih n (Nat.le_refl n) _ _ _ _ hd hspawn
        cases hsame
        exact ⟨rfl, rfl⟩
      · cases (ih n (Nat.le_refl n) _ _ _ _ hd hwait).2
    refine ih.succ fun k l plan other h h' => ?_
    obtain ⟨rfl, rfl⟩ := hlast h
    obtain ⟨rfl, rfl⟩ := hlast h'
    exact ⟨rfl, rfl⟩
  | @wait path waited n c j l kind next result hd hother ih iho =>
    have hlast : ∀ {k plan}, Reaches root path (n + 1) k plan → k = c ∧ plan = next (told result) := by
      intro k plan h
      rcases h.succ with ⟨_, _, _, _, hspawn⟩ | ⟨_, _, _, _, _, result', rfl, hwait, hother'⟩
      · cases (ih n (Nat.le_refl n) _ _ _ _ hd hspawn).2
      · obtain ⟨rfl, hsame⟩ := ih n (Nat.le_refl n) _ _ _ _ hd hwait
        cases hsame
        obtain ⟨_, _, hresult⟩ := iho.step_eq hother hother' Goes.not_result Goes.not_result
        exact ⟨rfl, by rw [ofResult_inj hresult]⟩
    refine ih.succ fun k l plan other h h' => ?_
    obtain ⟨rfl, rfl⟩ := hlast h
    obtain ⟨rfl, rfl⟩ := hlast h'
    exact ⟨rfl, rfl⟩

/-- A task has one result. -/
theorem Reaches.result_eq {result' : Except Payload Value} (h : Reaches root path n k (.ofResult result))
    (h' : Reaches root path i l (.ofResult result')) : k = l ∧ result = result' := by
  obtain ⟨_, hcount, hsame⟩ := h.unique.step_eq h h' Goes.not_result Goes.not_result
  exact ⟨hcount, ofResult_inj hsame⟩

/-- A task has spawned whatever it comes to spawn when it has its result. -/
theorem Reaches.spawned_before {options : SpawnOptions} {child next : Plan}
    (h : Reaches root path n k (.spawn options child next)) (h' : Reaches root path i l (.ofResult result)) :
    k < l := by
  refine Nat.lt_of_not_le fun hle => ?_
  have hstop : ¬Goes k l (.spawn options child next) := fun hg => by
    cases hg with
    | spawn hlt => exact Nat.not_le_of_lt hlt hle
  obtain ⟨_, _, hsame⟩ := h.unique.step_eq h h' hstop Goes.not_result
  cases result <;> cases hsame

end Plan

end TaskSpace

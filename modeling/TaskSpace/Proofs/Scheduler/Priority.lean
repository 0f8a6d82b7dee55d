import TaskSpace.Proofs.Scheduler.Queues
import TaskSpace.Scheduler.Search

/-!
# The order in which a worker is served

A batch that a worker takes from the injector lands in its own queue, and later tasks land on top of it.
Nobody can tell: a worker that searches undisturbed is served as if sticky tasks, its own tasks, injected
tasks and the tasks of another worker stood in four queues that nothing is ever moved between.
-/

namespace TaskSpace

/-! ## Looking at shared queues -/

namespace Steal

variable {α : Type}

@[simp] theorem found?_quiet (found : Option α) : (quiet found).found? = found := by
  cases found <;> rfl

@[simp] theorem isRetry_quiet (found : Option α) : (quiet found).isRetry = false := by
  cases found <;> rfl

@[simp] theorem quiet_orElse (first second : Option α) :
    (quiet first).orElse (quiet second) = quiet (first <|> second) := by
  cases first <;> rfl

end Steal

theorem Searcher.mem_stealers {n : Nat} (s : Searcher n) {v : WorkerId} :
    v ∈ s.stealers ↔ v < n ∧ v ≠ s.worker := by
  simp [s.every.mem_iff]

namespace Queues

variable {n : Nat} {s : Searcher n} {q q' : Queues} {v w : WorkerId} {t task : TaskId} {batch : Nat}

theorem steal_eq_none (h : (q.lane v).own = []) : q.steal v = none := by
  simp [steal, h]

theorem steal_isSome (h : (q.lane v).own ≠ []) : (q.steal v).isSome := by
  simp [steal, h]

/-- The first success among the other workers is that of the first one with a task. -/
theorem collect_steal (q : Queues) (stealers : List WorkerId) :
    Steal.collect (stealers.map fun v => .quiet (q.steal v)) =
      .quiet ((stealers.find? fun v => (q.lane v).own ≠ []).bind q.steal) := by
  induction stealers with
  | nil => rfl
  | cons v rest ih =>
    rw [List.map_cons, Steal.collect, ih, Steal.quiet_orElse]
    by_cases hv : (q.lane v).own = []
    · rw [steal_eq_none hv, List.find?_cons_of_neg (by simpa using hv)]
      rfl
    · obtain ⟨found, hfound⟩ := Option.isSome_iff_exists.1 (steal_isSome hv)
      rw [List.find?_cons_of_pos (by simpa using hv), Option.bind_some, hfound]
      rfl

/-- An attempt takes what a scan picks. -/
theorem attempt_eq (q : Queues) (s : Searcher n) (batch : Nat) :
    q.attempt s batch = .quiet (q.takeShared s.worker (q.scan batch s.stealers)) := by
  rw [attempt, collect_steal, Steal.quiet_orElse]
  congr 1
  unfold scan
  split
  · rename_i hi
    obtain ⟨first, rest, he⟩ := List.exists_cons_of_ne_nil hi
    simp [takeShared, takeInjected, he]
  · rename_i hi
    rw [takeInjected, Classical.not_not.1 hi]
    cases s.stealers.find? fun v => (q.lane v).own ≠ [] <;> rfl

/-- However many attempts a worker may make, the first one settles it. -/
theorem search_eq_find (q : Queues) (s : Searcher n) (batch : Nat) :
    q.search s batch = q.find s.worker none (q.scan batch s.stealers) := by
  have hretries := Nat.ne_of_gt s.positive
  simp [search, attempt_eq, find, hretries]

theorem search_takes (h : q.search s batch = some (task, q')) : q.Takes s.worker task q' := by
  simp only [search_eq_find, find, Option.bind_none, Option.orElse_eq_orElse, Option.orElse_eq_or, Option.none_or,
    Option.or_eq_some_iff] at h
  rcases h with h | ⟨_, h⟩
  · exact takeLocal_takes h
  · generalize q.scan batch s.stealers = pick at h
    cases pick with
    | injector batch => exact takeInjected_takes h
    | lane v => exact steal_takes s.worker h
    | nothing => cases h

/-- A worker that finds nothing has nothing, and nothing is left that it could take. -/
theorem search_none (hq : q.lanes.length = n) (h : q.search s batch = none) :
    q.injector = [] ∧ q.lane s.worker = bare ∧ ∀ v, (q.lane v).own = [] := by
  simp only [search_eq_find, find, Option.bind_none, Option.orElse_eq_orElse, Option.orElse_eq_or, Option.none_or,
    Option.or_eq_none_iff] at h
  obtain ⟨hlocal, hshared⟩ := h
  have hlane := takeLocal_eq_none hlocal
  have hinjector : q.injector = [] := by
    refine Classical.byContradiction fun hne => ?_
    obtain ⟨first, rest, hi⟩ := List.exists_cons_of_ne_nil hne
    simp [scan, takeShared, takeInjected, hi] at hshared
  refine ⟨hinjector, hlane, fun v => Classical.byContradiction fun hv => ?_⟩
  have hne : v ≠ s.worker := by
    rintro rfl
    exact hv (by rw [hlane])
  have hknown : v < n := hq ▸ lt_of_lane fun hbare => hv (by rw [hbare])
  -- the scan stops at this worker or before it
  cases hfound : s.stealers.find? fun v => (q.lane v).own ≠ [] with
  | none =>
    have := List.find?_eq_none.1 hfound v (s.mem_stealers.2 ⟨hknown, hne⟩)
    exact hv (by simpa using this)
  | some u =>
    have hu : (q.lane u).own ≠ [] := by simpa using List.find?_some hfound
    have hsteal := steal_isSome hu
    rw [scan, if_neg (fun h => h hinjector), hfound, takeShared] at hshared
    rw [hshared] at hsteal
    cases hsteal

/-! ## Running -/

/-- What happens to the queues around one worker. -/
inductive Op where
  | add (sticky : Bool) (task : TaskId)
  | inject (task : TaskId)
  | push (other : WorkerId) (task : TaskId)
  | find
deriving DecidableEq, Repr

/-- One operation, with what it finds if it is a find. `batch` tasks move along with an injected one. -/
def step (s : Searcher n) (batch : Nat) (q : Queues) : Op → List (Option TaskId) × Queues
  | .add sticky task => ([], q.add s.worker sticky task)
  | .inject task => ([], q.inject task)
  | .push v task => ([], q.add v false task)
  | .find =>
    match q.search s batch with
    | some (task, q) => ([some task], q)
    | none => ([none], q)

/-- What the finds of a run answer, and the queues after it. Every find has a batch of its own:
`batch k` is that of the operation with `k` more to come. -/
def run (s : Searcher n) (batch : Nat → Nat) (q : Queues) : List Op → List (Option TaskId) × Queues
  | [] => ([], q)
  | op :: rest =>
    let (found, q) := q.step s (batch rest.length) op
    let (later, q) := run s batch q rest
    (found ++ later, q)

end Queues

/-! ## Four queues -/

/-- Four queues that nothing is ever moved between. `sticky` and `own` hold their newest task first,
`injected` and `other` their oldest; `other` is the queue of worker `host`. -/
structure Fourfold where
  sticky : List TaskId
  own : List TaskId
  injected : List TaskId
  other : List TaskId
  host : WorkerId
deriving DecidableEq, Repr

namespace Fourfold

open Queues (Op)

def empty : Fourfold := ⟨[], [], [], [], 0⟩

/-- The first task of the first queue that has one. -/
def find (r : Fourfold) : Option (TaskId × Fourfold) :=
  match r.sticky, r.own, r.injected, r.other with
  | task :: sticky, _, _, _ => some (task, { r with sticky })
  | [], task :: own, _, _ => some (task, { r with own })
  | [], [], task :: injected, _ => some (task, { r with injected })
  | [], [], [], task :: other => some (task, { r with other })
  | [], [], [], [] => none

def step (r : Fourfold) : Op → List (Option TaskId) × Fourfold
  | .add true task => ([], { r with sticky := task :: r.sticky })
  | .add false task => ([], { r with own := task :: r.own })
  | .inject task => ([], { r with injected := r.injected ++ [task] })
  | .push v task => ([], { r with other := r.other ++ [task], host := v })
  | .find =>
    match r.find with
    | some (task, r) => ([some task], r)
    | none => ([none], r)

def run (r : Fourfold) : List Op → List (Option TaskId) × Fourfold
  | [] => ([], r)
  | op :: rest =>
    let (found, r) := r.step op
    let (later, r) := run r rest
    (found ++ later, r)

/-- What may happen around worker `w`, one of `n`: another worker gets a task only while the others have
none. -/
def Permits (n : Nat) (w : WorkerId) (r : Fourfold) : Op → Prop
  | .push v _ => v < n ∧ v ≠ w ∧ (r.other = [] ∨ v = r.host)
  | _ => True

def Permitted (n : Nat) (w : WorkerId) (r : Fourfold) : List Op → Prop
  | [] => True
  | op :: rest => r.Permits n w op ∧ Permitted n w (r.step op).2 rest

instance (n : Nat) (w : WorkerId) (r : Fourfold) (op : Op) : Decidable (r.Permits n w op) :=
  match op with
  | .push v _ => inferInstanceAs (Decidable (v < n ∧ v ≠ w ∧ (r.other = [] ∨ v = r.host)))
  | .add _ _ | .inject _ | .find => inferInstanceAs (Decidable True)

instance decidablePermitted (n : Nat) (w : WorkerId) : (r : Fourfold) → (ops : List Op) →
    Decidable (r.Permitted n w ops)
  | _, [] => inferInstanceAs (Decidable True)
  | r, op :: rest =>
    have := decidablePermitted n w (r.step op).2 rest
    inferInstanceAs (Decidable (r.Permits n w op ∧ (r.step op).2.Permitted n w rest))

def Bare (r : Fourfold) : Prop := r.sticky = [] ∧ r.own = [] ∧ r.injected = [] ∧ r.other = []

theorem find_eq_none {r : Fourfold} : r.find = none ↔ r.Bare := by
  unfold find Bare
  split <;> simp_all

end Fourfold

/-! ## No batch is seen -/

namespace Queues

variable {n : Nat} {s : Searcher n} {q : Queues} {r r' : Fourfold} {t : TaskId} {batch : Nat}

/-- The queues around a worker, told apart: under its own tasks lie those that were moved from the
injector, which the four queues still count as injected. -/
structure Mirrors (s : Searcher n) (q : Queues) (r : Fourfold) : Prop where
  lanes : q.lanes.length = n
  sticky : (q.lane s.worker).pinned = r.sticky
  moved : ∃ moved, (q.lane s.worker).own = r.own ++ moved ∧ r.injected = moved ++ q.injector
  others : ∀ v, v ≠ s.worker → (q.lane v).own = if v = r.host then r.other.reverse else []
  host : r.other ≠ [] → r.host ≠ s.worker

theorem mirrors_empty (s : Searcher n) : Mirrors s (.empty n) .empty where
  lanes := by simp [Queues.empty]
  sticky := by rw [lane_empty]; rfl
  moved := ⟨[], by rw [lane_empty]; exact ⟨rfl, rfl⟩⟩
  others v _ := by rw [lane_empty]; exact (ite_self _).symm
  host h := absurd rfl h

namespace Mirrors

/-- Only the injector and the lane of the worker change. -/
theorem settle (m : Mirrors s q r) {injector moved : List TaskId} {l : Lane}
    (hsticky : l.pinned = r'.sticky) (hown : l.own = r'.own ++ moved)
    (hinjected : r'.injected = moved ++ injector) (hother : r'.other = r.other) (hhost : r'.host = r.host) :
    Mirrors s ({ q with injector }.setLane s.worker l) r' := by
  have hlane : ∀ v, ({ q with injector }.setLane s.worker l).lane v = if v = s.worker then l else q.lane v :=
    fun v => lane_setLane (q := { q with injector }) (m.lanes ▸ s.known)
  refine ⟨by simpa [setLane] using m.lanes, ?_, ⟨moved, ?_, hinjected⟩, fun v hv => ?_, ?_⟩
  · rw [hlane, if_pos rfl, hsticky]
  · rw [hlane, if_pos rfl, hown]
  · rw [hlane, if_neg hv, hother, hhost]
    exact m.others v hv
  · rw [hother, hhost]
    exact m.host

theorem add (m : Mirrors s q r) (sticky : Bool) (task : TaskId) :
    Mirrors s (q.add s.worker sticky task) (r.step (.add sticky task)).2 := by
  obtain ⟨moved, hown, hinjected⟩ := m.moved
  cases sticky with
  | true => exact m.settle (by simp [Fourfold.step, m.sticky]) hown hinjected rfl rfl
  | false => exact m.settle (by simp [Fourfold.step, m.sticky]) (by simp [Fourfold.step, hown]) hinjected rfl rfl

theorem inject (m : Mirrors s q r) (task : TaskId) : Mirrors s (q.inject task) (r.step (.inject task)).2 := by
  obtain ⟨moved, hown, hinjected⟩ := m.moved
  refine ⟨m.lanes, m.sticky, ⟨moved, hown, ?_⟩, m.others, m.host⟩
  simp [Fourfold.step, Queues.inject, hinjected]

theorem push {v : WorkerId} (m : Mirrors s q r) (task : TaskId) (hp : r.Permits n s.worker (.push v task)) :
    Mirrors s (q.add v false task) (r.step (.push v task)).2 := by
  obtain ⟨hv, hne, hhost⟩ := hp
  have hlane : ∀ u, (q.add v false task).lane u =
      if u = v then { q.lane v with own := task :: (q.lane v).own } else q.lane u :=
    fun u => Queues.lane_setLane (m.lanes ▸ hv)
  have hkept : (q.add v false task).lane s.worker = q.lane s.worker := by
    rw [hlane, if_neg hne.symm]
  refine ⟨by simpa [Queues.add, setLane] using m.lanes, by rw [hkept]; exact m.sticky,
    by rw [hkept]; exact m.moved, fun u hu => ?_, fun _ => hne⟩
  have hown := m.others u hu
  by_cases huv : u = v
  · -- either this was the host before, or no other worker had a task
    subst huv
    have hbefore : (q.lane u).own = r.other.reverse := by
      rcases hhost with hnone | rfl
      · simpa [hnone] using hown
      · simpa using hown
    simp [hlane, Fourfold.step, hbefore]
  · have hbare : (q.lane u).own = [] := by
      rcases hhost with hnone | rfl
      · simpa [hnone] using hown
      · simpa [huv] using hown
    simp [hlane, Fourfold.step, huv, hbare]

/-! ### Finding -/

/-- A worker without tasks of its own takes what a scan of the shared queues picks. -/
theorem search_shared (m : Mirrors s q r) (batch : Nat) (hs : r.sticky = [])
    (ho : (q.lane s.worker).own = []) :
    q.search s batch = q.takeShared s.worker (q.scan batch s.stealers) := by
  have hlocal : q.takeLocal s.worker = none := by simp [takeLocal, m.sticky, hs, ho]
  rw [search_eq_find, Queues.find, hlocal]
  rfl

/-- A scan of an empty injector comes to the host, the only other worker with tasks. -/
theorem scan_host (m : Mirrors s q r) (batch : Nat) (hi : q.injector = []) (ho : r.other ≠ []) :
    q.scan batch s.stealers = .lane r.host := by
  have hne := m.host ho
  have hown : (q.lane r.host).own ≠ [] := by
    rw [m.others _ hne, if_pos rfl]
    simpa using ho
  have hknown : r.host < n :=
    m.lanes ▸ lt_of_lane fun hbare => hown (by rw [hbare])
  have hsome : (s.stealers.find? fun v => (q.lane v).own ≠ []).isSome :=
    List.find?_isSome.2 ⟨r.host, s.mem_stealers.2 ⟨hknown, hne⟩, by simpa using hown⟩
  obtain ⟨v, hv⟩ := Option.isSome_iff_exists.1 hsome
  have hfound : (q.lane v).own ≠ [] := by simpa using List.find?_some hv
  have hother := m.others v (s.mem_stealers.1 (List.mem_of_find?_eq_some hv)).2
  have hhost : v = r.host := Classical.byContradiction fun he => hfound (by rw [hother, if_neg he])
  rw [scan, if_neg (fun h => h hi), hv, hhost]

theorem scan_nothing (m : Mirrors s q r) (batch : Nat) (hi : q.injector = []) (ho : r.other = []) :
    q.scan batch s.stealers = .nothing := by
  have hnone : (s.stealers.find? fun v => (q.lane v).own ≠ []) = none := by
    refine List.find?_eq_none.2 fun v hv => ?_
    simp [m.others v (s.mem_stealers.1 hv).2, ho]
  rw [scan, if_neg (fun h => h hi), hnone]

/-- The host loses its oldest task. -/
theorem steal (m : Mirrors s q r) {other : List TaskId} (ho : r.other = t :: other) :
    ∃ q', q.steal r.host = some (t, q') ∧ Mirrors s q' { r with other } := by
  have hne := m.host (by simp [ho])
  have hown : (q.lane r.host).own = other.reverse ++ [t] := by
    rw [m.others _ hne, if_pos rfl, ho, List.reverse_cons]
  have hknown : r.host < q.lanes.length :=
    lt_of_lane fun hbare => by simp [hbare] at hown
  have hlane : ∀ l v, (q.setLane r.host l).lane v = if v = r.host then l else q.lane v :=
    fun l v => lane_setLane hknown
  refine ⟨_, by rw [Queues.steal, hown, List.getLast?_concat, List.dropLast_concat]; rfl, ?_⟩
  refine ⟨by simpa [setLane] using m.lanes, ?_, ?_, fun v hv => ?_, fun _ => hne⟩
  · rw [hlane, if_neg hne.symm]
    exact m.sticky
  · rw [hlane, if_neg hne.symm]
    exact m.moved
  · rw [hlane]
    split
    · rfl
    · rename_i hvh
      rw [m.others v hv, if_neg hvh]

/-- A find serves what the four queues serve. A moved task is found where it was moved, one that was not
in the injector; either way the oldest. -/
theorem find_some (m : Mirrors s q r) (batch : Nat) (h : r.find = some (t, r')) :
    ∃ q', q.search s batch = some (t, q') ∧ Mirrors s q' r' := by
  obtain ⟨moved, hown, hinjected⟩ := m.moved
  unfold Fourfold.find at h
  split at h
  · rename_i task sticky hs
    cases h
    exact ⟨q.setLane s.worker { q.lane s.worker with pinned := sticky },
      by simp [search, takeLocal, m.sticky, hs], m.settle rfl hown hinjected rfl rfl⟩
  · rename_i task own hs ho
    cases h
    rw [ho, List.cons_append] at hown
    exact ⟨q.setLane s.worker { q.lane s.worker with own := own ++ moved },
      by simp [search, takeLocal, m.sticky, hs, hown], m.settle m.sticky rfl hinjected rfl rfl⟩
  · rename_i task injected hs ho hi
    cases h
    rw [ho, List.nil_append] at hown
    rw [hi] at hinjected
    cases moved with
    | cons first moved =>
      cases hinjected
      exact ⟨q.setLane s.worker { q.lane s.worker with own := moved },
        by simp [search, takeLocal, m.sticky, hs, hown], m.settle m.sticky (by simp [ho]) rfl rfl rfl⟩
    | nil =>
      have hinjector : q.injector = t :: injected := hinjected.symm
      have hpick : q.scan batch s.stealers = .injector batch := by simp [scan, hinjector]
      refine ⟨_, by rw [m.search_shared batch hs hown, hpick, takeShared, takeInjected, hinjector], ?_⟩
      refine m.settle m.sticky ?_ (List.take_append_drop batch injected).symm rfl rfl
      simp [hown, ho]
  · rename_i task other hs ho hi hother
    cases h
    rw [hi, eq_comm, List.append_eq_nil_iff] at hinjected
    rw [ho, hinjected.1] at hown
    obtain ⟨q', hsteal, hm⟩ := m.steal hother
    refine ⟨q', ?_, hm⟩
    rw [m.search_shared batch hs hown, m.scan_host batch hinjected.2 (by simp [hother]), takeShared, hsteal]
  · cases h

/-- When the four queues are empty, so are those of the worker and those it shares. -/
theorem find_none (m : Mirrors s q r) (batch : Nat) (h : r.find = none) : q.search s batch = none := by
  obtain ⟨hs, ho, hi, hother⟩ := Fourfold.find_eq_none.1 h
  obtain ⟨moved, hown, hinjected⟩ := m.moved
  rw [hi, eq_comm, List.append_eq_nil_iff] at hinjected
  rw [ho, hinjected.1] at hown
  rw [m.search_shared batch hs hown, m.scan_nothing batch hinjected.2 hother]
  rfl

theorem search_eq_none (m : Mirrors s q r) (batch : Nat) : q.search s batch = none ↔ r.Bare := by
  rw [← Fourfold.find_eq_none]
  refine ⟨fun h => ?_, m.find_none batch⟩
  cases hr : r.find with
  | none => rfl
  | some found =>
    obtain ⟨q', hq, _⟩ := m.find_some batch hr
    rw [h] at hq
    cases hq

/-! ### Running -/

theorem step (m : Mirrors s q r) (batch : Nat) {op : Op} (hp : r.Permits n s.worker op) :
    (q.step s batch op).1 = (r.step op).1 ∧ Mirrors s (q.step s batch op).2 (r.step op).2 := by
  cases op with
  | add sticky task => exact ⟨by cases sticky <;> rfl, m.add sticky task⟩
  | inject task => exact ⟨rfl, m.inject task⟩
  | push v task => exact ⟨rfl, m.push task hp⟩
  | find =>
    cases hr : r.find with
    | none => simpa [Queues.step, Fourfold.step, m.find_none batch hr, hr] using m
    | some found =>
      obtain ⟨q', hq, hm⟩ := m.find_some batch hr
      simpa [Queues.step, Fourfold.step, hq, hr] using hm

theorem run (batch : Nat → Nat) : ∀ {ops : List Op} {q : Queues} {r : Fourfold}, Mirrors s q r →
    r.Permitted n s.worker ops →
      (q.run s batch ops).1 = (r.run ops).1 ∧ Mirrors s (q.run s batch ops).2 (r.run ops).2
  | [], _, _, m, _ => ⟨rfl, m⟩
  | op :: rest, q, r, m, hp => by
    obtain ⟨hfound, hm⟩ := m.step (batch rest.length) hp.1
    obtain ⟨hlater, hend⟩ := run batch hm hp.2
    exact ⟨by simp only [Queues.run, Fourfold.run, hfound, hlater], hend⟩

end Mirrors

/-- However the tasks come and whatever moves along with an injected one, a worker that searches alone is
served from four queues that nothing is moved between, and finds nothing just when these are empty. -/
theorem run_fourfold (s : Searcher n) (batch : Nat → Nat) (ops : List Op)
    (hp : Fourfold.empty.Permitted n s.worker ops) :
    ((empty n).run s batch ops).1 = (Fourfold.empty.run ops).1 ∧
      ∀ size, ((empty n).run s batch ops).2.search s size = none ↔ (Fourfold.empty.run ops).2.Bare := by
  obtain ⟨hfound, hm⟩ := (mirrors_empty s).run batch hp
  exact ⟨hfound, fun size => hm.search_eq_none size⟩

/-- Task 2 moves along with task 1, and task 9, which the worker adds on top of it, comes first. Task 3 was
never moved, and comes after task 2 all the same. -/
theorem run_fourfold_batch :
    let s : Searcher 3 := ⟨0, by decide, 2, by decide, [2, 1], by decide⟩
    let ops : List Op := [.inject 1, .inject 2, .inject 3, .push 1 20, .find, .add false 9, .push 1 21, .find, .find,
      .add true 5, .find, .find, .find, .find, .push 2 30, .find, .find]
    Fourfold.empty.Permitted 3 s.worker ops ∧
      ((empty 3).run s (fun _ => 1) ops).1 =
        [some 1, some 9, some 2, some 5, some 3, some 20, some 21, some 30, none] :=
  ⟨by decide, (run_fourfold _ _ _ (by decide)).1.trans (by decide)⟩

end Queues

end TaskSpace

import TaskSpace.Proofs.Scheduler.Parking

/-!
# What a refused registration leaves

A registration that is refused changes no slot and no later answer. If the refusal is that the thread
is registered, then the thread is left with the worker it was refused for, until it is refused so again.
-/

namespace TaskSpace

namespace Slots

/-- A thread that registers the storage of a worker. -/
structure Entrant where
  thread : ThreadId
  worker : WorkerId
  storage : StorageId
deriving DecidableEq, Repr

def enter (s : Slots) (e : Entrant) : Except SlotError Unit × Slots :=
  s.register e.thread e.worker e.storage

/-- Registers one after the other, with the answer to each. -/
def enterAll (s : Slots) : List Entrant → List (Except SlotError Unit) × Slots
  | [] => ([], s)
  | e :: rest => ((s.enter e).1 :: ((s.enter e).2.enterAll rest).1, ((s.enter e).2.enterAll rest).2)

variable {s s' : Slots} {e : Entrant} {error : SlotError} {thread : ThreadId}

/-! ## What an entry answers, and what it changes -/

theorem lookup_filter_ne {thread other : ThreadId} (hne : other ≠ thread) (mapping : List (ThreadId × WorkerId)) :
    (mapping.filter fun entry => entry.1 ≠ thread).lookup other = mapping.lookup other := by
  induction mapping with
  | nil => rfl
  | cons entry mapping ih =>
    obtain ⟨mapped, worker⟩ := entry
    by_cases hmine : mapped = thread
    · have hother : (other == mapped) = false := beq_false_of_ne (hmine ▸ hne)
      rw [List.filter_cons_of_neg (by simp [hmine]), List.lookup_cons, hother]
      exact ih
    · rw [List.filter_cons_of_pos (by simp [hmine]), List.lookup_cons, List.lookup_cons, ih]

/-- An entry that finds its slot empty maps its thread, whether or not it is refused. -/
theorem worker?_enter (s : Slots) (e : Entrant) (thread : ThreadId) : (s.enter e).2.worker? thread =
    if s.slots[e.worker]? = some none ∧ thread = e.thread then some e.worker else s.worker? thread := by
  unfold enter register
  split
  · rename_i hnone
    simp [hnone]
  · rename_i hfull
    simp [hfull]
  · rename_i hempty
    have hmapped : (Slots.mk s.slots ((e.thread, e.worker) ::
        s.mapping.filter fun entry => entry.1 ≠ e.thread)).worker? thread =
          if thread = e.thread then some e.worker else s.worker? thread := by
      by_cases hmine : thread = e.thread
      · simp [worker?, hmine]
      · rw [worker?_cons _ _ _ _ _ hmine, if_neg hmine]
        exact lookup_filter_ne hmine s.mapping
    simp only [hempty, true_and]
    split <;> exact hmapped

theorem enter_refused (h : (s.enter e).1 = .error error) : (s.enter e).2.slots = s.slots := by
  unfold enter register at h ⊢
  split
  · rfl
  · rfl
  · rename_i hempty
    simp only [hempty] at h
    split
    · rfl
    · rename_i hnew
      simp [hnew] at h

/-- Only an entry that finds its slot empty, of a thread that is mapped, is refused for its thread. -/
theorem enter_threadTaken : (s.enter e).1 = .error (.threadTaken thread) ↔
    s.slots[e.worker]? = some none ∧ (s.worker? e.thread).isSome ∧ e.thread = thread := by
  unfold enter register
  split
  · rename_i hnone
    simp [hnone]
  · rename_i hfull
    simp [hfull]
  · rename_i hempty
    split
    · rename_i hmapped
      simp [hempty, hmapped]
    · rename_i hnew
      simp [hempty, hnew]

theorem isSome_worker?_enter (h : (s.worker? thread).isSome) : ((s.enter e).2.worker? thread).isSome := by
  rw [worker?_enter]
  split
  · rfl
  · exact h

/-! ## Tables that differ only in whom a thread is mapped to -/

/-- The slots are the same, and so are the threads that are mapped. -/
structure Alike (s s' : Slots) : Prop where
  slots : s.slots = s'.slots
  mapped : ∀ thread, (s.worker? thread).isSome = (s'.worker? thread).isSome

theorem Alike.answer (h : s.Alike s') (e : Entrant) : (s.enter e).1 = (s'.enter e).1 := by
  unfold enter register
  rw [h.slots, h.mapped]
  split
  · rfl
  · rfl
  · split <;> rfl

theorem Alike.enter (h : s.Alike s') (e : Entrant) : (s.enter e).2.Alike (s'.enter e).2 := by
  refine ⟨?_, fun thread => ?_⟩
  · unfold Slots.enter register
    rw [h.slots, h.mapped]
    split
    · exact h.slots
    · exact h.slots
    · split <;> simp
  · simp only [worker?_enter, h.slots]
    split
    · rfl
    · exact h.mapped thread

theorem Alike.enterAll (h : s.Alike s') (rest : List Entrant) :
    (s.enterAll rest).1 = (s'.enterAll rest).1 ∧ (s.enterAll rest).2.Alike (s'.enterAll rest).2 := by
  induction rest generalizing s s' with
  | nil => exact ⟨rfl, h⟩
  | cons e rest ih =>
    obtain ⟨hanswers, halike⟩ := ih (h.enter e)
    exact ⟨List.cons_eq_cons.2 ⟨h.answer e, hanswers⟩, halike⟩

/-- A thread that both map to the same worker stays so. -/
theorem Alike.same (h : s.Alike s') (hsame : s.worker? thread = s'.worker? thread) (rest : List Entrant) :
    (s.enterAll rest).2.worker? thread = (s'.enterAll rest).2.worker? thread := by
  induction rest generalizing s s' with
  | nil => exact hsame
  | cons e rest ih =>
    refine ih (h.enter e) ?_
    simp only [worker?_enter, h.slots, hsame]

/-- Once a thread is refused for being registered, both map it to the worker of that entry. -/
theorem Alike.refused (h : s.Alike s') {rest : List Entrant}
    (hrefused : .error (.threadTaken thread) ∈ (s.enterAll rest).1) :
    (s.enterAll rest).2.worker? thread = (s'.enterAll rest).2.worker? thread := by
  induction rest generalizing s s' with
  | nil => cases hrefused
  | cons e rest ih =>
    rcases List.mem_cons.1 hrefused with hhere | hlater
    · obtain ⟨hempty, -, hmine⟩ := enter_threadTaken.1 hhere.symm
      refine (h.enter e).same ?_ rest
      simp only [worker?_enter, ← h.slots, hempty, hmine, and_self, if_true]
    · exact ih (h.enter e) hlater

/-- A thread that is mapped keeps its worker while it is not refused for being registered. -/
theorem worker?_enterAll (hmapped : (s.worker? thread).isSome) {rest : List Entrant}
    (hnever : .error (.threadTaken thread) ∉ (s.enterAll rest).1) :
    (s.enterAll rest).2.worker? thread = s.worker? thread := by
  induction rest generalizing s with
  | nil => rfl
  | cons e rest ih =>
    rw [enterAll, List.mem_cons, not_or] at hnever
    obtain ⟨hhere, hlater⟩ := hnever
    refine (ih (isSome_worker?_enter hmapped) hlater).trans ?_
    rw [worker?_enter, if_neg]
    rintro ⟨hempty, rfl⟩
    exact hhere (enter_threadTaken.2 ⟨hempty, hmapped, rfl⟩).symm

/-! ## The refused registration -/

/-- A thread that is new is never refused where the slot is empty. -/
theorem isSome_of_refused (h : (s.enter e).1 = .error error) (hempty : s.slots[e.worker]? = some none) :
    (s.worker? e.thread).isSome := by
  cases hnew : s.worker? e.thread with
  | none => simp [enter, register, hempty, hnew] at h
  | some _ => rfl

theorem enter_alike (h : (s.enter e).1 = .error error) : (s.enter e).2.Alike s := by
  refine ⟨enter_refused h, fun thread => ?_⟩
  rw [worker?_enter]
  split
  · rename_i hfound
    rw [hfound.2, isSome_of_refused h hfound.1]
    rfl
  · rfl

/-- How later entries go, and what they leave, after an entry was refused, next to how they go
without it. -/
structure Outlives (s : Slots) (e : Entrant) (error : SlotError) (later : List Entrant) : Prop where
  answers : ((s.enter e).2.enterAll later).1 = (s.enterAll later).1
  len : ((s.enter e).2.enterAll later).2.len = (s.enterAll later).2.len
  storages : ((s.enter e).2.enterAll later).2.storages = (s.enterAll later).2.storages
  slot : ∀ worker, ((s.enter e).2.enterAll later).2.slot? worker = (s.enterAll later).2.slot? worker
  /-- Every thread is looked up as without the entry, but one that it is refused for. -/
  others : ∀ thread, (error = .threadTaken thread → .error (.threadTaken thread) ∈ (s.enterAll later).1) →
    ((s.enter e).2.enterAll later).2.worker? thread = (s.enterAll later).2.worker? thread ∧
      ((s.enter e).2.enterAll later).2.data? thread = (s.enterAll later).2.data? thread
  /-- That one has no data at first, and then the data of whoever fills the slot it was refused. -/
  unseated : ∀ thread, error = .threadTaken thread → (s.enter e).2.data? thread = none
  moved : ∀ thread, error = .threadTaken thread → .error (.threadTaken thread) ∉ (s.enterAll later).1 →
    ((s.enter e).2.enterAll later).2.worker? thread = some e.worker ∧
      ((s.enter e).2.enterAll later).2.data? thread = (s.enterAll later).2.slot? e.worker

theorem worker?_others (h : (s.enter e).1 = .error error) {later : List Entrant}
    (hother : error = .threadTaken thread → .error (.threadTaken thread) ∈ (s.enterAll later).1) :
    ((s.enter e).2.enterAll later).2.worker? thread = (s.enterAll later).2.worker? thread := by
  have halike := enter_alike h
  by_cases herror : error = .threadTaken thread
  · exact halike.refused ((halike.enterAll later).1 ▸ hother herror)
  · refine halike.same ?_ later
    rw [worker?_enter, if_neg]
    rintro ⟨hempty, rfl⟩
    have htaken := enter_threadTaken.2 ⟨hempty, isSome_of_refused h hempty, rfl⟩
    exact herror (Except.error.inj (h.symm.trans htaken))

theorem worker?_moved (h : (s.enter e).1 = .error (.threadTaken thread)) {later : List Entrant}
    (hnever : .error (.threadTaken thread) ∉ (s.enterAll later).1) :
    ((s.enter e).2.enterAll later).2.worker? thread = some e.worker := by
  obtain ⟨hempty, hmapped, rfl⟩ := enter_threadTaken.1 h
  rw [← ((enter_alike h).enterAll later).1] at hnever
  rw [worker?_enterAll (isSome_worker?_enter hmapped) hnever, worker?_enter, if_pos ⟨hempty, rfl⟩]

/-- **A registration that is refused is seen by nobody but the thread that it is refused for**: of any
number of slots, and after any registrations, all later ones are answered as without it, and the slots
they leave are the same. A thread is looked up as without it, unless it was refused because it is
registered: that one is from then on taken for the worker it was refused for. -/
theorem refused_outlives (n : Nat) (earlier : List Entrant)
    (h : (((Slots.empty n).enterAll earlier).2.enter e).1 = .error error) (later : List Entrant) :
    ((Slots.empty n).enterAll earlier).2.Outlives e error later := by
  obtain ⟨hanswers, halike⟩ := (enter_alike h).enterAll later
  have hslot : ∀ worker, ((((Slots.empty n).enterAll earlier).2.enter e).2.enterAll later).2.slot? worker =
      (((Slots.empty n).enterAll earlier).2.enterAll later).2.slot? worker := fun worker => by
    rw [slot?, slot?, halike.slots]
  refine ⟨hanswers, ?_, ?_, hslot, fun thread hother => ?_, ?_, ?_⟩
  · rw [len, len, halike.slots]
  · rw [storages, storages, halike.slots]
  · have hworker := worker?_others h hother
    exact ⟨hworker, by rw [data?, data?, hworker, funext hslot]⟩
  · rintro thread rfl
    obtain ⟨hempty, -, rfl⟩ := enter_threadTaken.1 h
    rw [data?, worker?_enter, if_pos ⟨hempty, rfl⟩, Option.bind_some, slot?, enter_refused h, hempty]
    rfl
  · rintro thread rfl hnever
    have hworker := worker?_moved h hnever
    exact ⟨hworker, by rw [data?, hworker, Option.bind_some, hslot]⟩

/-- Thread 0 is worker 0, and is refused as worker 1, which thread 1 becomes: it is then taken for
thread 1. -/
theorem refused_outlives_remapped :
    (((Slots.empty 2).enterAll [⟨0, 0, 0⟩]).2.enter ⟨0, 1, 1⟩).1 = .error (.threadTaken 0) ∧
      ((Slots.empty 2).enterAll [⟨0, 0, 0⟩]).2.data? 0 = some ⟨0, false⟩ ∧
      ((Slots.empty 2).enterAll [⟨0, 0, 0⟩]).2.Outlives ⟨0, 1, 1⟩ (.threadTaken 0) [⟨1, 1, 2⟩] ∧
      ((((Slots.empty 2).enterAll [⟨0, 0, 0⟩]).2.enter ⟨0, 1, 1⟩).2.enterAll [⟨1, 1, 2⟩]).2.data? 0 =
        some ⟨2, false⟩ :=
  ⟨by rfl, by rfl, refused_outlives 2 [⟨0, 0, 0⟩] (by rfl) [⟨1, 1, 2⟩], by rfl⟩

end Slots

end TaskSpace

import TaskSpace.Machine.Step

/-!
# Every worker has a slot

The threads of a runtime are registered when it is launched, so that parking and waking them is never
refused.
-/

namespace TaskSpace

namespace Slots

variable {s : Slots} {i j : Nat}

/-- Thread `i` is mapped to worker `i`, whose slot is filled. -/
structure Has (s : Slots) (i : Nat) : Prop where
  mapped : s.worker? i = some i
  filled : (s.slot? i).isSome

/-- Worker `i` has an empty slot, and thread `i` is mapped to no worker. -/
structure Lacks (s : Slots) (i : Nat) : Prop where
  mapped : s.worker? i = none
  free : s.slots[i]? = some none

/-- A thread that is new takes a slot that is empty. -/
theorem register_fresh {thread : ThreadId} {worker : WorkerId} (hnew : s.worker? thread = none)
    (hfree : s.slots[worker]? = some none) (storage : StorageId) : (s.register thread worker storage).2 =
      { slots := s.slots.set worker (some ⟨storage, false⟩), mapping := (thread, worker) :: s.mapping } := by
  have hsame : s.mapping.filter (fun entry => entry.1 ≠ thread) = s.mapping := by
    refine List.filter_eq_self.2 fun entry hm => decide_eq_true fun he => ?_
    have hnone := List.lookup_eq_none_iff.1 hnew entry hm
    simp [he] at hnone
  simp only [register, hfree, hnew, Option.isSome_none, Bool.false_eq_true, if_false, hsame]

theorem register_eq (h : s.Lacks i) (storage : StorageId) : (s.register i i storage).2 =
    { slots := s.slots.set i (some ⟨storage, false⟩), mapping := (i, i) :: s.mapping } :=
  register_fresh h.mapped h.free storage

theorem register_has (h : s.Lacks i) (storage : StorageId) : (s.register i i storage).2.Has i := by
  have hlt := (List.getElem?_eq_some_iff.1 h.free).1
  rw [register_eq h]
  exact ⟨by simp [worker?], by simp [slot?, hlt]⟩

theorem worker?_cons (thread other : ThreadId) (worker : WorkerId) (slots : List (Option Slot))
    (mapping : List (ThreadId × WorkerId)) (hne : other ≠ thread) :
    (Slots.mk slots ((thread, worker) :: mapping)).worker? other = (Slots.mk slots mapping).worker? other := by
  have hbeq : (other == thread) = false := beq_false_of_ne hne
  simp [worker?, List.lookup_cons, hbeq]

theorem Has.register (hj : s.Has j) (h : s.Lacks i) (hne : j ≠ i) (storage : StorageId) :
    (s.register i i storage).2.Has j := by
  rw [register_eq h]
  refine ⟨?_, ?_⟩
  · exact (worker?_cons i j i _ _ hne).trans hj.mapped
  · simpa [slot?, List.getElem?_set_ne hne.symm] using hj.filled

theorem Lacks.register (hj : s.Lacks j) (h : s.Lacks i) (hne : j ≠ i) (storage : StorageId) :
    (s.register i i storage).2.Lacks j := by
  rw [register_eq h]
  refine ⟨?_, ?_⟩
  · exact (worker?_cons i j i _ _ hne).trans hj.mapped
  · simpa [List.getElem?_set_ne hne.symm] using hj.free

theorem empty_lacks {n : Nat} (h : i < n) : (Slots.empty n).Lacks i :=
  ⟨rfl, by simp [empty, h]⟩

/-- The threads of a pool register one after the other, and then the thread that builds it. -/
theorem registerAll_has {k : Nat} (hi : i < k + 1) :
    (Machine.registerAll (.empty (k + 1)) 0 (List.range (k + 1)) ((List.range k).map (1 + ·))).Has i := by
  have hentries : (((List.range k).map (1 + ·)).zip (List.range (k + 1)).tail).zipIdx 1 =
      (List.range k).map fun i => ((i + 1, i + 1), i + 1) := by
    refine List.ext_getElem (by simp) fun i _ _ => ?_
    simp [Nat.add_comm]
  have hfold : ∀ j, j ≤ k → ∀ s, s = ((List.range j).map fun i => ((i + 1, i + 1), i + 1)).foldl
      (fun (slots : Slots) ((thread, storage), worker) => (slots.register thread worker storage).2)
      (.empty (k + 1)) → (∀ i, 1 ≤ i → i ≤ j → s.Has i) ∧ ∀ i, i = 0 ∨ j < i → i < k + 1 → s.Lacks i := by
    intro j
    induction j with
    | zero =>
      rintro _ s rfl
      exact ⟨fun i h1 h0 => absurd h1 (Nat.not_le_of_lt (Nat.lt_succ_of_le h0)), fun i _ hi => empty_lacks hi⟩
    | succ j ih =>
      rintro hj s rfl
      obtain ⟨hhas, hlacks⟩ := ih (Nat.le_of_succ_le hj) _ rfl
      have hnext := hlacks (j + 1) (.inr (Nat.lt_succ_self j)) (Nat.succ_le_succ hj)
      rw [List.range_succ, List.map_append, List.foldl_append]
      refine ⟨fun i h1 hi => ?_, fun i h0 hi => ?_⟩
      · rcases Nat.lt_or_eq_of_le hi with hlt | rfl
        · exact (hhas i h1 (Nat.le_of_lt_succ hlt)).register hnext (Nat.ne_of_lt hlt) _
        · exact register_has hnext _
      · exact (hlacks i (by omega) hi).register hnext (by omega) _
  have hrange : List.range (k + 1) = 0 :: (List.range k).map Nat.succ := List.range_succ_eq_map
  obtain ⟨hhas, hlacks⟩ := hfold k (Nat.le_refl k) _ rfl
  have hzero := hlacks 0 (.inl rfl) (Nat.succ_pos k)
  unfold Machine.registerAll
  rw [hentries, hrange]
  by_cases h0 : i = 0
  · subst h0
    exact register_has hzero 0
  · exact (hhas i (Nat.pos_of_ne_zero h0) (Nat.le_of_lt_succ hi)).register hzero h0 0

theorem exists_setWake {n : Nat} (h : ∀ i < n, s.Has i) (hi : i < n) (wake : Bool) :
    ∃ s', s.setWake i wake = some s' ∧ ∀ j < n, s'.Has j := by
  obtain ⟨slot, hslot⟩ := Option.isSome_iff_exists.1 (h i hi).filled
  refine ⟨{ s with slots := s.slots.set i (some { slot with wake }) }, ?_, fun j hj => ⟨(h j hj).mapped, ?_⟩⟩
  · simp [setWake, (h i hi).mapped, hslot]
  · have hfilled := (h j hj).filled
    by_cases he : i = j
    · subst he
      have hlt : i < s.slots.length := by
        refine Nat.lt_of_not_le fun hge => ?_
        simp [slot?, List.getElem?_eq_none hge] at hslot
      simp [slot?, hlt]
    · simpa [slot?, List.getElem?_set_ne he] using hfilled

/-! ## The storages in the slots -/

variable {s' : Slots} {thread : ThreadId}

/-- The storage in each slot that is filled. -/
def table (s : Slots) : List (Option StorageId) := s.slots.map (Option.map Slot.storage)

theorem storages_eq_table (s : Slots) : s.storages = s.table.filterMap id := by
  simp [storages, table, List.filterMap_map]

theorem len_eq_table (s : Slots) : s.len = s.table.length := by simp [len, table]

theorem table_setWake {wake : Bool} (h : s.setWake thread wake = some s') : s'.table = s.table := by
  obtain ⟨worker, _, h⟩ := Option.bind_eq_some_iff.1 h
  obtain ⟨slot, hslot, h⟩ := Option.bind_eq_some_iff.1 h
  cases h
  obtain ⟨hlt, hin⟩ := List.getElem?_eq_some_iff.1 (Option.join_eq_some_iff.1 hslot)
  refine List.ext_getElem? fun place => ?_
  simp only [table, List.getElem?_map, List.getElem?_set]
  split
  · rename_i he
    subst he
    simp [hlt, hin]
  · rfl

/-- The threads of a pool that are new, one after the other, take slots that are empty. -/
theorem registerPool_slots {pool : List ThreadId} {storages : List StorageId}
    (hlen : pool.length = storages.length) (hdistinct : pool.Nodup) {before : List (Option Slot)}
    (hnew : ∀ thread ∈ pool, s.worker? thread = none)
    (hfree : s.slots = before ++ List.replicate pool.length none) {filled : Slots}
    (hfilled : filled = ((pool.zip storages).zipIdx before.length).foldl
      (fun (slots : Slots) ((thread, storage), worker) => (slots.register thread worker storage).2) s) :
    filled.slots = before ++ storages.map (fun storage => some ⟨storage, false⟩) ∧
      ∀ thread, thread ∉ pool → filled.worker? thread = s.worker? thread := by
  induction pool generalizing storages s before with
  | nil =>
    obtain rfl := List.length_eq_zero_iff.1 hlen.symm
    subst hfilled
    exact ⟨by simpa using hfree, fun _ _ => rfl⟩
  | cons thread pool ih =>
    obtain ⟨storage, storages, rfl⟩ := List.exists_cons_of_length_eq_add_one hlen.symm
    obtain ⟨hout, hdistinct⟩ := List.nodup_cons.1 hdistinct
    obtain ⟨hmine, hnew⟩ := List.forall_mem_cons.1 hnew
    have hslot : s.slots[before.length]? = some none := by
      simp [hfree, List.replicate_succ]
    have hreg := register_fresh hmine hslot storage
    simp only [List.zip_cons_cons, List.zipIdx_cons, List.foldl_cons, hreg] at hfilled
    have hslots : (Slots.mk (s.slots.set before.length (some ⟨storage, false⟩))
        ((thread, before.length) :: s.mapping)).slots =
          (before ++ [some ⟨storage, false⟩]) ++ List.replicate pool.length none := by
      simp [hfree, List.replicate_succ]
    have hothers : ∀ other ≠ thread, (Slots.mk (s.slots.set before.length (some ⟨storage, false⟩))
        ((thread, before.length) :: s.mapping)).worker? other = s.worker? other :=
      fun other hne => worker?_cons _ _ _ _ _ hne
    obtain ⟨hall, hrest⟩ := ih (Nat.succ.inj hlen) hdistinct
      (fun other hm => (hothers other (ne_of_mem_of_not_mem hm hout)).trans (hnew other hm)) hslots
      (by simpa using hfilled)
    refine ⟨by simpa using hall, fun other hnot => ?_⟩
    rw [List.mem_cons, not_or] at hnot
    obtain ⟨hne, hnot⟩ := hnot
    exact (hrest other hnot).trans (hothers other hne)

/-- Threads that are different fill all slots, in the order of the storages. -/
theorem table_registerAll {root : ThreadId} {pool : List ThreadId} {storages : List StorageId}
    (hdistinct : (root :: pool).Nodup) (hlen : storages.length = pool.length + 1) :
    (Machine.registerAll (.empty (pool.length + 1)) root storages pool).table = storages.map some := by
  obtain ⟨first, rest, rfl⟩ := List.exists_cons_of_length_eq_add_one hlen
  obtain ⟨hout, hpool⟩ := List.nodup_cons.1 hdistinct
  have hfree : (Slots.empty (pool.length + 1)).slots = [none] ++ List.replicate pool.length none := rfl
  obtain ⟨hslots, hroot⟩ := registerPool_slots (Nat.succ.inj hlen).symm hpool (fun _ _ => rfl) hfree rfl
  have hreg := fun storage => register_fresh (hroot root hout)
    (show _[WorkerId.root]? = _ by rw [hslots]; rfl) storage
  simp only [Machine.registerAll, List.tail_cons, table]
  simp only [List.length_singleton] at hreg hslots
  rw [hreg, hslots]
  simp [WorkerId.root]

end Slots

namespace Lot

variable {n : Nat} {l : Lot} {i : Nat}

/-- Every worker has its slot, and only workers are parked. -/
structure Sound (n : Nat) (l : Lot) : Prop where
  slots : ∀ i < n, l.slots.Has i
  parked : ∀ i ∈ l.parked, i < n

theorem Sound.park (h : l.Sound n) (hi : i < n) : ∃ l', l.park i = some l' ∧ l'.Sound n := by
  obtain ⟨slots, hs, hhas⟩ := Slots.exists_setWake h.slots hi false
  refine ⟨⟨i :: l.parked, slots⟩, by simp [Lot.park, hs], hhas, fun j hj => ?_⟩
  rcases List.mem_cons.1 hj with rfl | hj
  · exact hi
  · exact h.parked j hj

theorem Sound.unparkOne (h : l.Sound n) : ∃ l', l.unparkOne = some l' ∧ l'.Sound n := by
  unfold Lot.unparkOne
  cases hp : l.parked with
  | nil => exact ⟨l, rfl, h⟩
  | cons i parked =>
    have hlt := h.parked i (hp ▸ List.mem_cons_self)
    obtain ⟨slots, hs, hhas⟩ := Slots.exists_setWake h.slots hlt true
    refine ⟨⟨parked, slots⟩, by simp [hs], hhas, fun j hj => ?_⟩
    exact h.parked j (hp ▸ List.mem_cons_of_mem i hj)

theorem exists_wakeAll {s : Slots} (h : ∀ i < n, s.Has i) {parked : List ThreadId} (hp : ∀ i ∈ parked, i < n) :
    ∃ s', wakeAll s parked = some s' ∧ ∀ i < n, s'.Has i := by
  induction parked generalizing s with
  | nil => exact ⟨s, rfl, h⟩
  | cons i parked ih =>
    obtain ⟨woken, hs, hhas⟩ := Slots.exists_setWake h (hp i List.mem_cons_self) true
    obtain ⟨slots, hall, hhas⟩ := ih hhas fun j hj => hp j (List.mem_cons_of_mem i hj)
    exact ⟨slots, by simp [wakeAll, hs, hall], hhas⟩

theorem Sound.unparkAll (h : l.Sound n) : ∃ l', l.unparkAll = some l' ∧ l'.Sound n := by
  obtain ⟨slots, hs, hhas⟩ := exists_wakeAll h.slots h.parked
  exact ⟨⟨[], slots⟩, by simp [Lot.unparkAll, hs], hhas, fun i hi => by cases hi⟩

/-! ## Waking keeps the storages -/

variable {l' : Lot} {thread : ThreadId}

theorem table_park (h : l.park thread = some l') : l'.slots.table = l.slots.table := by
  obtain ⟨slots, hs, h⟩ := Option.bind_eq_some_iff.1 h
  cases h
  exact Slots.table_setWake hs

theorem table_unparkOne (h : l.unparkOne = some l') : l'.slots.table = l.slots.table := by
  unfold Lot.unparkOne at h
  split at h
  · cases h
    rfl
  · obtain ⟨slots, hs, h⟩ := Option.bind_eq_some_iff.1 h
    cases h
    exact Slots.table_setWake hs

theorem table_wakeAll {s s' : Slots} {parked : List ThreadId} (h : wakeAll s parked = some s') :
    s'.table = s.table := by
  induction parked generalizing s with
  | nil =>
    cases h
    rfl
  | cons thread rest ih =>
    obtain ⟨woken, hs, h⟩ := Option.bind_eq_some_iff.1 h
    exact (ih h).trans (Slots.table_setWake hs)

theorem table_unparkAll (h : l.unparkAll = some l') : l'.slots.table = l.slots.table := by
  obtain ⟨slots, hs, h⟩ := Option.bind_eq_some_iff.1 h
  cases h
  exact table_wakeAll hs

/-! ## The list and the signs -/

theorem parked_park (hp : l.park thread = some l') : l'.parked = thread :: l.parked := by
  obtain ⟨_, _, hp⟩ := Option.bind_eq_some_iff.1 hp
  cases hp
  rfl

theorem parked_unparkOne (hp : l.unparkOne = some l') : l'.parked = l.parked.tail := by
  unfold Lot.unparkOne at hp
  split at hp
  · rename_i hl
    cases hp
    rw [hl, List.tail_nil]
  · rename_i hl
    obtain ⟨_, _, hp⟩ := Option.bind_eq_some_iff.1 hp
    cases hp
    rw [hl, List.tail_cons]

theorem parked_unparkAll (hp : l.unparkAll = some l') : l'.parked = [] := by
  obtain ⟨_, _, hp⟩ := Option.bind_eq_some_iff.1 hp
  cases hp
  rfl

/-- Setting the sign of one worker changes no other. -/
theorem wake_setWake {s s' : Slots} (h : ∀ i < n, s.Has i) (hi : i < n) {wake : Bool}
    (hs : s.setWake i wake = some s') {j : Nat} (hj : j < n) :
    ((s'.data? j).map Slot.wake).getD false = if j = i then wake else ((s.data? j).map Slot.wake).getD false := by
  obtain ⟨slot, hslot⟩ := Option.isSome_iff_exists.1 (h i hi).filled
  have hlt : i < s.slots.length := Nat.lt_of_not_le fun hge => by
    simp [Slots.slot?, List.getElem?_eq_none hge] at hslot
  simp only [Slots.setWake, (h i hi).mapped, Option.bind_eq_bind, Option.bind_some, hslot, Option.pure_def,
    Option.some.injEq] at hs
  subst hs
  have hworker : ∀ slots, Slots.worker? ⟨slots, s.mapping⟩ j = some j := fun _ => (h j hj).mapped
  simp only [Slots.data?, hworker, Option.bind_some, Slots.slot?]
  by_cases he : j = i
  · subst he
    simp [hlt]
  · rw [List.getElem?_set_ne (Ne.symm he), if_neg he]

theorem Sound.signalled_park (h : l.Sound n) (hi : i < n) (hp : l.park i = some l') {j : Nat} (hj : j < n) :
    l'.signalled j = if j = i then false else l.signalled j := by
  obtain ⟨slots, hs, hp⟩ := Option.bind_eq_some_iff.1 hp
  cases hp
  exact wake_setWake h.slots hi hs hj

theorem Sound.signalled_unparkOne (h : l.Sound n) (hp : l.unparkOne = some l') {j : Nat} (hj : j < n) :
    l'.signalled j = (decide (l.parked.head? = some j) || l.signalled j) := by
  unfold Lot.unparkOne at hp
  split at hp
  · rename_i hl
    cases hp
    simp [hl]
  · rename_i i rest hl
    obtain ⟨slots, hs, hp⟩ := Option.bind_eq_some_iff.1 hp
    cases hp
    refine (wake_setWake h.slots (h.parked i (hl ▸ List.mem_cons_self)) hs hj).trans ?_
    by_cases he : j = i
    · simp [he, hl]
    · simp [hl, he, Ne.symm he, Lot.signalled]

theorem wake_wakeAll {s s' : Slots} (h : ∀ i < n, s.Has i) {parked : List ThreadId} (hp : ∀ i ∈ parked, i < n)
    (hs : wakeAll s parked = some s') {j : Nat} (hj : j < n) :
    ((s'.data? j).map Slot.wake).getD false =
      (decide (j ∈ parked) || ((s.data? j).map Slot.wake).getD false) := by
  induction parked generalizing s with
  | nil =>
    cases hs
    simp
  | cons i rest ih =>
    obtain ⟨woken, hw, hs⟩ := Option.bind_eq_some_iff.1 hs
    have hi := hp i List.mem_cons_self
    obtain ⟨_, hw', hhas⟩ := Slots.exists_setWake h hi true
    cases hw'.symm.trans hw
    rw [ih hhas (fun j hm => hp j (List.mem_cons_of_mem i hm)) hs, wake_setWake h hi hw hj]
    by_cases he : j = i
    · simp [he]
    · simp [he]

theorem Sound.signalled_unparkAll (h : l.Sound n) (hp : l.unparkAll = some l') {j : Nat} (hj : j < n) :
    l'.signalled j = (decide (j ∈ l.parked) || l.signalled j) := by
  obtain ⟨slots, hs, hp⟩ := Option.bind_eq_some_iff.1 hp
  cases hp
  exact wake_wakeAll h.slots h.parked hs hj

end Lot

end TaskSpace

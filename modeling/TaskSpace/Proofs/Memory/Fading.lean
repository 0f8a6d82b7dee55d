import TaskSpace.Proofs.Memory.Client

/-!
# Mappings come alive once

Whatever is asked of a space, a mapping keeps its place, and one that is dead stays dead
(`Space.Fades`). Nothing is assumed of the space: these facts hold also when its addresses have gone
round, and tell apart what a call of `localizeAll` leaves mapped when it ends in a panic.
-/

namespace TaskSpace

variable {s s' : Space} {id : MappingId} {ids : List MappingId}

theorem Word.wrap_pred (n : Nat) : wrap (wrap (n + 1) + top) = wrap n := by
  unfold wrap
  rw [Nat.mod_add_mod, Nat.add_assoc, show 1 + top = bound by decide, Nat.add_mod_right]

theorem Word.wrap_succ (n : Nat) : wrap (wrap n + 1) = wrap (n + 1) := by
  unfold wrap
  rw [Nat.mod_add_mod]

namespace Space

def Dead (s : Space) (id : MappingId) : Prop :=
  ∃ mapping, s.mappings[id]? = some mapping ∧ mapping.live = false

/-- Every mapping is still there, and the dead ones are dead. -/
def Fades (s s' : Space) : Prop :=
  ∀ (id : MappingId) (mapping : Mapping), s.mappings[id]? = some mapping →
    ∃ mapping' : Mapping, s'.mappings[id]? = some mapping' ∧ (mapping.live = false → mapping'.live = false)

structure Still (s s' : Space) : Prop where
  mappings : s'.mappings = s.mappings
  live : s'.live = s.live

theorem Fades.refl (s : Space) : Fades s s := fun _ mapping hm => ⟨mapping, hm, fun h => h⟩

theorem Fades.trans {s'' : Space} (h : Fades s s') (h' : Fades s' s'') : Fades s s'' := by
  intro id mapping hm
  obtain ⟨mapping', hm', hd⟩ := h id mapping hm
  obtain ⟨mapping'', hm'', hd'⟩ := h' id mapping' hm'
  exact ⟨mapping'', hm'', fun hl => hd' (hd hl)⟩

theorem Fades.dead (h : Fades s s') (hd : s.Dead id) : s'.Dead id := by
  obtain ⟨mapping, hm, hl⟩ := hd
  obtain ⟨mapping', hm', hl'⟩ := h id mapping hm
  exact ⟨mapping', hm', hl' hl⟩

theorem Fades.lt (h : Fades s s') (hlt : id < s.mappings.length) : id < s'.mappings.length := by
  obtain ⟨mapping, hm, _⟩ := h id _ (List.getElem?_eq_getElem hlt)
  exact (List.getElem?_eq_some_iff.1 hm).1

theorem Still.refl (s : Space) : Still s s := ⟨rfl, rfl⟩

theorem Still.fades (h : Still s s') : Fades s s' := fun _ mapping hm =>
  ⟨mapping, by rw [h.mappings, hm], fun hl => hl⟩

/-! ## Calls that make no mapping -/

theorem alloc_still (s : Space) (size blockSize : Nat) : Still s (s.alloc size blockSize).2 := by
  unfold alloc
  split
  · exact .refl s
  · split
    · exact .refl s
    · dsimp only
      split <;> exact ⟨rfl, rfl⟩

theorem dealloc_still {base : Pointer} (hd : s.dealloc base = .ok s') : Still s s' := by
  rcases s.dealloc_cases base with ⟨_, he⟩ | ⟨_, _, he⟩ | ⟨_, _, he⟩ <;> rw [he] at hd <;> cases hd
  exact ⟨rfl, rfl⟩

theorem put_still {ptr : Pointer} {new : Bytes} (hw : s.put ptr new = .ok s') : Still s s' := by
  obtain ⟨_, _, _, _, _, rfl⟩ := put_cases hw
  exact ⟨rfl, rfl⟩

theorem rmw_still {ptr : Pointer} {len : Nat} {update : Update} {old : Bytes}
    (hw : s.rmw ptr len update = .ok (old, s')) : Still s s' :=
  put_still (put_of_rmw hw)

theorem write_still {off : Nat} {new : Bytes} (hw : s.write id off new = .ok s') : Still s s' := by
  rcases write_eq_ok hw with rfl | ⟨_, _, _, _, _, rfl⟩ <;> exact ⟨rfl, rfl⟩

theorem acquire_still (s : Space) (seg : Segment) (key : RegionKey) (refresh : Bool) :
    Still s (s.acquire seg key refresh).2 := by
  rcases s.acquire_cases seg key refresh with ⟨_, he⟩ | ⟨entry, _, _, ⟨t, ht, he⟩ | ⟨_, _, he⟩⟩ |
    ⟨_, _, _, _, _, _, _, he⟩ <;> rw [he]
  · exact .refl s
  · rcases ht with ⟨_, rfl⟩ | ⟨_, _, _, _, _, _, rfl⟩ <;> exact ⟨rfl, rfl⟩
  · exact ⟨rfl, rfl⟩
  · exact ⟨rfl, rfl⟩

/-! ## Mapping and releasing -/

/-- A mapping that is made is counted, and one that is not is not. -/
theorem localize_counts (s : Space) (ptr : Pointer) (len : Nat) (access : Access) (worker : WorkerId) :
    (∃ fault s', s.localize ptr len access worker = (.error fault, s') ∧ Still s s') ∨
    ∃ id s', s.localize ptr len access worker = (.ok id, s') ∧ Fades s s' ∧
      id < s'.mappings.length ∧ s'.live = Word.wrap (s.live + 1) := by
  rcases s.localize_cases ptr len access worker with ⟨fault, he⟩ |
    ⟨seg, first, last, moved, _, _, _, he⟩
  · exact .inl ⟨fault, s, he, .refl s⟩
  · have hacq := acquire_still (s.storeSegment moved) moved ⟨moved.base, first, last⟩ access.refreshes
    rcases he with ⟨fault, t, ha, he⟩ | ⟨region, t, ha, he⟩ <;> rw [ha] at hacq
    · exact .inl ⟨fault, t, he, hacq.mappings, hacq.live⟩
    · have hm : t.mappings = s.mappings := hacq.mappings
      refine .inr ⟨_, _, he, fun id mapping hid => ⟨mapping, ?_, fun h => h⟩, by simp,
        congrArg (fun n => Word.wrap (n + 1)) hacq.live⟩
      have hlt := (List.getElem?_eq_some_iff.1 hid).1
      simp only [hm, List.getElem?_append_left hlt, hid]

theorem giveUp_still (s : Space) (region : RegionId) (key : RegionKey) : Still s (s.giveUp region key) := by
  unfold giveUp
  repeat' split
  all_goals exact ⟨rfl, rfl⟩

theorem mappings_unlocalize (s : Space) (id : MappingId) :
    (s.unlocalize id).mappings = s.mappings.modify id fun old => { old with live := false } := by
  cases hm : s.mappings[id]? with
  | none =>
    simp only [unlocalize, hm]
    exact (List.modify_eq_self (List.getElem?_eq_none_iff.1 hm)).symm
  | some mapping =>
    simp only [unlocalize, hm]
    split
    · rw [(giveUp_still _ _ _).mappings]
    · rfl

theorem mappings_unlocalizeAll (s : Space) (ids : List MappingId) :
    (AddressSpace.unlocalizeAll s ids).mappings =
      s.mappings.mapIdx fun id mapping => if id ∈ ids then { mapping with live := false } else mapping := by
  induction ids generalizing s with
  | nil => exact List.ext_getElem? fun id => by simp [AddressSpace.unlocalizeAll]
  | cons other rest ih =>
    have hclass : AddressSpace.unlocalizeAll s (other :: rest) =
        AddressSpace.unlocalizeAll (s.unlocalize other) rest := rfl
    rw [hclass, ih, mappings_unlocalize]
    refine List.ext_getElem? fun id => ?_
    rw [List.getElem?_mapIdx, List.getElem?_mapIdx, List.getElem?_modify]
    cases s.mappings[id]? with
    | none => rfl
    | some mapping =>
      by_cases he : other = id
      · subst he
        by_cases hm : other ∈ rest <;> simp [hm]
      · simp [he, Ne.symm he]

theorem fades_unlocalize (s : Space) (id : MappingId) : Fades s (s.unlocalize id) := fun other mapping ho => by
  simp only [mappings_unlocalize, List.getElem?_modify, ho]
  refine ⟨_, rfl, fun hl => ?_⟩
  split
  · rfl
  · exact hl

theorem unlocalize_counts (hlt : id < s.mappings.length) :
    Fades s (s.unlocalize id) ∧ (s.unlocalize id).Dead id ∧
      (s.unlocalize id).live = Word.wrap (s.live + Word.top) := by
  have hm := List.getElem?_eq_getElem hlt
  refine ⟨s.fades_unlocalize id, ?_, ?_⟩
  · refine ⟨{ s.mappings[id] with live := false }, ?_, rfl⟩
    simp only [mappings_unlocalize, List.getElem?_modify_eq, hm]
    rfl
  · simp only [unlocalize, hm]
    split
    · rw [(giveUp_still _ _ _).live]
    · rfl

theorem unlocalizeAll_counts {n : Nat} (hv : ∀ id ∈ ids, id < s.mappings.length)
    (hl : s.live = Word.wrap (n + ids.length)) :
    Fades s (AddressSpace.unlocalizeAll s ids) ∧ (∀ id ∈ ids, (AddressSpace.unlocalizeAll s ids).Dead id) ∧
      (AddressSpace.unlocalizeAll s ids).live = Word.wrap n := by
  induction ids generalizing s with
  | nil => exact ⟨.refl s, by simp, hl⟩
  | cons id rest ih =>
    obtain ⟨hf, hd, hlive⟩ := unlocalize_counts (hv id List.mem_cons_self)
    rw [hl, List.length_cons, ← Nat.add_assoc, Word.wrap_pred] at hlive
    obtain ⟨hf', hd', hlive'⟩ := ih (fun other hm => hf.lt (hv other (List.mem_cons_of_mem _ hm))) hlive
    refine ⟨hf.trans hf', fun other hm => ?_, hlive'⟩
    rcases List.mem_cons.1 hm with rfl | hm
    · exact hf'.dead hd
    · exact hd' other hm

/-- The ranges that `localizeAll` maps before the one that it does not map. -/
def mappedBefore (s : Space) (access : Access) (worker : WorkerId) (ranges : List Range) : Nat :=
  s.reached access worker ranges - 1

/-- Mapping some ranges counts them all; a refusal counts out what was made. A panic leaves it. -/
theorem localizeRest_counts (access : Access) (worker : WorkerId) {made : List MappingId}
    (ranges : List Range) {n : Nat} (hv : ∀ id ∈ made, id < s.mappings.length)
    (hl : s.live = Word.wrap (n + made.length)) :
    (∃ ids s', AddressSpace.localizeRest access worker made ranges s = (.ok ids, s') ∧ Fades s s' ∧
      (∀ id ∈ ids, id < s'.mappings.length) ∧ s'.live = Word.wrap (n + ids.length)) ∨
    (∃ error s', AddressSpace.localizeRest access worker made ranges s = (.error (.refused error), s') ∧
      Fades s s' ∧ s'.live = Word.wrap n) ∨
    ∃ payload s', AddressSpace.localizeRest access worker made ranges s =
        (.error (.panicked payload), s') ∧ Fades s s' ∧ 0 < s.reached access worker ranges ∧
      s'.live = Word.wrap (n + made.length + s.mappedBefore access worker ranges) := by
  induction ranges generalizing s made with
  | nil => exact .inl ⟨made, s, rfl, .refl s, hv, hl⟩
  | cons range rest ih =>
    have hclass : AddressSpace.localize s = s.localize := rfl
    simp only [AddressSpace.localizeRest, hclass]
    rcases s.localize_counts range.start range.len access worker with ⟨fault, s', he, hs⟩ |
      ⟨id, s', he, hf, hlt, hlive⟩
    · have hreach : s.reached access worker (range :: rest) = 1 := by simp only [reached, he]
      rw [he]
      cases fault with
      | refused error =>
        have hv' : ∀ id ∈ made, id < s'.mappings.length := fun id hm => hs.fades.lt (hv id hm)
        obtain ⟨hf, _, hlive⟩ := unlocalizeAll_counts hv' (hs.live.trans hl)
        exact .inr (.inl ⟨error, _, rfl, hs.fades.trans hf, hlive⟩)
      | panicked payload =>
        -- nothing is released, and what was made stays counted
        refine .inr (.inr ⟨payload, s', rfl, hs.fades, by omega, ?_⟩)
        rw [mappedBefore, hreach, hs.live, hl]
        rfl
    · have hreach : s.reached access worker (range :: rest) = s'.reached access worker rest + 1 := by
        simp only [reached, he]
      have hlen : n + (made ++ [id]).length = n + made.length + 1 := by simp [Nat.add_assoc]
      have hv' : ∀ other ∈ made ++ [id], other < s'.mappings.length := by
        intro other hm
        rcases List.mem_append.1 hm with hm | hm
        · exact hf.lt (hv other hm)
        · exact List.mem_singleton.1 hm ▸ hlt
      rw [hl, Word.wrap_succ, ← hlen] at hlive
      rw [he]
      rcases ih hv' hlive with ⟨ids, t, ht, hf', hids, hlive'⟩ | ⟨error, t, ht, hf', hlive'⟩ |
        ⟨payload, t, ht, hf', hpos, hlive'⟩
      · exact .inl ⟨ids, t, ht, hf.trans hf', hids, hlive'⟩
      · exact .inr (.inl ⟨error, t, ht, hf.trans hf', hlive'⟩)
      · refine .inr (.inr ⟨payload, t, ht, hf.trans hf', by omega, ?_⟩)
        rw [hlive', hlen, mappedBefore, mappedBefore, hreach]
        congr 1
        omega

end Space

/-! ## Recorders do what their spaces do -/

namespace Recorder

theorem localize_eq (a : Recorder) : AddressSpace.localize a = a.localize := rfl

theorem unlocalizeAll_space (a : Recorder) (ids : List MappingId) :
    (AddressSpace.unlocalizeAll a ids).space = AddressSpace.unlocalizeAll a.space ids := by
  induction ids generalizing a with
  | nil => rfl
  | cons id rest ih => exact ih _

theorem unlocalizeAll_localized (a : Recorder) (ids : List MappingId) :
    (AddressSpace.unlocalizeAll a ids).localized = a.localized := by
  induction ids generalizing a with
  | nil => rfl
  | cons id rest ih => exact (ih _).trans rfl

theorem localizeRest_space (access : Access) (worker : WorkerId) (made : List MappingId)
    (ranges : List Range) (a : Recorder) :
    (AddressSpace.localizeRest access worker made ranges a).1 =
        (AddressSpace.localizeRest access worker made ranges a.space).1 ∧
      (AddressSpace.localizeRest access worker made ranges a).2.space =
        (AddressSpace.localizeRest access worker made ranges a.space).2 := by
  induction ranges generalizing a made with
  | nil => exact ⟨rfl, rfl⟩
  | cons range rest ih =>
    have hclass : AddressSpace.localize a.space = a.space.localize := rfl
    simp only [AddressSpace.localizeRest, hclass, localize_eq, Recorder.localize]
    rcases a.space.localize range.start range.len access worker with ⟨fault | id, space⟩
    · cases fault with
      | refused error => exact ⟨rfl, unlocalizeAll_space _ made⟩
      | panicked payload => exact ⟨rfl, rfl⟩
    · exact ih (made ++ [id]) _

end Recorder

end TaskSpace

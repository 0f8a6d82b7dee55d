import TaskSpace.Proofs.Memory.Fading

/-!
# Who owns a block

The blocks of a new segment are dealt to the homes of its space, and mapping moves blocks to no other
home than the worker that maps them. So the home of a block is always one of the homes of the space
(`Space.Homed`), and a worker that maps a range with ownership is the home of its blocks
(`Space.Owned`). Nothing is assumed of where the segments lie.
-/

namespace TaskSpace

variable {s s' : Space} {n : Nat} {ptr : Pointer} {len : Nat} {id : MappingId}

/-! ## One segment -/

namespace Segment

variable {seg moved : Segment} {first last off : Nat} {home : WorkerId}

def Homed (n : Nat) (seg : Segment) : Prop := ∀ home ∈ seg.homes, home < n

theorem homed_fresh (hn : 0 < n) (base : Pointer) (size blockSize : Nat) :
    (fresh base size blockSize n).Homed n := by
  intro home hm
  obtain ⟨block, _, rfl⟩ := List.mem_map.1 hm
  exact Nat.mod_lt block hn

theorem Homed.migrate (h : seg.Homed n) (hh : home < n) (hm : seg.migrate first last home = .ok moved) :
    moved.Homed n := by
  unfold Segment.migrate at hm
  split at hm
  · cases hm
    intro old ho
    obtain ⟨block, hlt, rfl⟩ := List.mem_mapIdx.1 ho
    split
    · exact hh
    · exact h _ (List.getElem_mem hlt)
  · cases hm

theorem Homed.homeAt_lt (h : seg.Homed n) (ha : seg.homeAt off = .ok home) : home < n := by
  unfold homeAt at ha
  split at ha
  · rename_i found hf
    cases ha
    exact h _ (List.mem_of_getElem? hf)
  · cases ha

/-- The blocks that migrate have their new home; the segment stays the same otherwise. -/
theorem migrate_homes (hm : seg.migrate first last home = .ok moved) :
    moved = { seg with homes := moved.homes } ∧
      ∀ block, moved.homes[block]? = if first ≤ block ∧ block ≤ last then some home else seg.homes[block]? := by
  unfold migrate at hm
  split at hm
  · rename_i hlt
    cases hm
    refine ⟨rfl, fun block => ?_⟩
    rw [List.getElem?_mapIdx]
    by_cases hin : first ≤ block ∧ block ≤ last
    · have hthere : block < seg.homes.length := Nat.lt_of_le_of_lt hin.2 hlt
      simp [hin, hthere]
    · simp [hin]
  · cases hm

end Segment

/-! ## All segments of a space -/

namespace Space

variable {seg : Segment} {off : Nat} {access : Access} {worker : WorkerId}

structure Homed (n : Nat) (s : Space) : Prop where
  pos : 0 < n
  numHomes : s.numHomes = n
  segments : ∀ seg ∈ s.segments, seg.Homed n

theorem homed_new (hn : 0 < n) : (new n).Homed n where
  pos := hn
  numHomes := Nat.max_eq_left hn
  segments := by simp [new]

/-- The two spaces have the same homes and segments. -/
structure SameSegments (s s' : Space) : Prop where
  numHomes : s'.numHomes = s.numHomes
  segments : s'.segments = s.segments

theorem SameSegments.homed (hs : SameSegments s s') (h : s.Homed n) : s'.Homed n :=
  ⟨h.pos, hs.numHomes.trans h.numHomes, hs.segments.symm ▸ h.segments⟩

theorem Homed.storeSegment (h : s.Homed n) (hseg : seg.Homed n) : (s.storeSegment seg).Homed n where
  pos := h.pos
  numHomes := h.numHomes
  segments other hm := by
    obtain ⟨old, hold, rfl⟩ := List.mem_map.1 hm
    split
    · exact hseg
    · exact h.segments old hold

theorem mem_insertSegment {other : Segment} {segs : List Segment} (h : other ∈ insertSegment seg segs) :
    other = seg ∨ other ∈ segs := by
  induction segs with
  | nil => exact .inl (List.mem_singleton.1 h)
  | cons head rest ih =>
    unfold insertSegment at h
    split at h
    · exact List.mem_cons.1 h
    · split at h
      · exact (List.mem_cons.1 h).imp_right (List.mem_cons_of_mem head)
      · rcases List.mem_cons.1 h with rfl | h
        · exact .inr List.mem_cons_self
        · exact (ih h).imp_right (List.mem_cons_of_mem head)

/-- What a search finds: the first segment that starts at or below an address, if it reaches above. -/
theorem segmentAt_eq_ok :
    s.segmentAt ptr = .ok seg ↔ ptr.addr ≠ 0 ∧
      s.segments.find? (fun seg => decide (seg.base.addr ≤ ptr.addr)) = some seg ∧
      seg.base.addr + seg.size < Word.bound ∧ ptr.addr < seg.base.addr + seg.size := by
  unfold segmentAt Pointer.isNull
  by_cases h0 : ptr.addr = 0
  · simp [h0]
  · simp only [h0, decide_false, Bool.false_eq_true, if_false, ne_eq, not_false_eq_true, true_and]
    cases s.segments.find? (fun seg => decide (seg.base.addr ≤ ptr.addr)) with
    | none => simp
    | some found =>
      have hstop : ∀ {stop}, found.stop = .ok stop ↔ found.base.addr + found.size < Word.bound ∧
          found.base.addr + found.size = stop := Fault.sum_eq_ok
      dsimp only
      split
      · rename_i fault hs
        simp only [reduceCtorEq, Option.some.injEq, false_iff]
        rintro ⟨rfl, hlt, _⟩
        cases hs.symm.trans (hstop.2 ⟨hlt, rfl⟩)
      · rename_i stop hs
        obtain ⟨hlt, rfl⟩ := hstop.1 hs
        split
        · rename_i hin
          simp only [Except.ok.injEq, Option.some.injEq]
          exact ⟨by rintro rfl; exact ⟨rfl, hlt, hin⟩, fun h => h.1⟩
        · rename_i hnot
          simp only [reduceCtorEq, Option.some.injEq, false_iff]
          rintro ⟨rfl, _, hin⟩
          exact hnot hin

theorem mem_of_segmentAt (h : s.segmentAt ptr = .ok seg) : seg ∈ s.segments :=
  List.mem_of_find?_eq_some (segmentAt_eq_ok.1 h).2.1

theorem locate_eq_ok :
    s.locate ptr len = .ok (seg, off) ↔ s.segmentAt ptr = .ok seg ∧ seg.offset ptr len = .ok off := by
  rw [locate_eq]
  cases s.segmentAt ptr with
  | error fault => simp
  | ok found =>
    constructor
    · intro h
      cases ho : found.offset ptr len with
      | error fault => simp [Except.map, ho] at h
      | ok place =>
        simp only [Except.map, ho, Except.ok.injEq, Prod.mk.injEq] at h
        obtain ⟨rfl, rfl⟩ := h
        exact ⟨rfl, ho⟩
    · rintro ⟨hf, ho⟩
      cases hf
      simp [Except.map, ho]

/-- A range that is placed lies in a segment, whose blocks it covers from its first to its last byte. -/
theorem exists_locate {access : Access} {first last : Nat} (h : s.place ptr len access = .ok ⟨seg, first, last⟩) :
    ∃ off, s.locate ptr len = .ok (seg, off) ∧ 0 < len ∧ first = seg.blockOf off ∧
      last = seg.blockOf (off + len - 1) := by
  unfold place at h
  split at h
  · cases h
  · split at h
    · cases h
    · rename_i hlen
      split at h
      · cases h
      · rename_i found off hl
        cases h
        exact ⟨off, hl, Nat.pos_of_ne_zero hlen, rfl, rfl⟩

theorem mem_of_place {access : Access} {first last : Nat} (h : s.place ptr len access = .ok ⟨seg, first, last⟩) :
    seg ∈ s.segments := by
  obtain ⟨off, hl, _⟩ := exists_locate h
  exact mem_of_segmentAt (locate_eq_ok.1 hl).1

theorem Homed.homeOf_lt (h : s.Homed n) {home : WorkerId} (ha : s.homeOf ptr = .ok home) : home < n := by
  unfold homeOf at ha
  cases hl : s.locate ptr 0 with
  | error fault => rw [hl] at ha; cases ha
  | ok found =>
    rw [hl] at ha
    exact (h.segments _ (mem_of_segmentAt (locate_eq_ok.1 hl).1)).homeAt_lt ha

/-! ## Calls -/

theorem Homed.alloc (h : s.Homed n) (size blockSize : Nat) : (s.alloc size blockSize).2.Homed n := by
  unfold Space.alloc
  split
  · exact h
  · split
    · exact h
    · dsimp only
      split
      · exact ⟨h.pos, h.numHomes, h.segments⟩
      · obtain ⟨hpos, rfl, hsegments⟩ := h
        refine ⟨hpos, rfl, fun seg hm => ?_⟩
        rcases mem_insertSegment hm with rfl | hm
        · exact Segment.homed_fresh hpos _ _ _
        · exact hsegments seg hm

theorem Homed.dealloc (h : s.Homed n) {base : Pointer} (hd : s.dealloc base = .ok s') : s'.Homed n := by
  rcases s.dealloc_cases base with ⟨_, he⟩ | ⟨_, _, he⟩ | ⟨_, _, he⟩ <;> rw [he] at hd <;> cases hd
  exact ⟨h.pos, h.numHomes, fun seg hm => h.segments seg (List.mem_filter.1 hm).1⟩

theorem Homed.put (h : s.Homed n) {new : Bytes} (hw : s.put ptr new = .ok s') : s'.Homed n := by
  obtain ⟨seg, off, bytes, hl, _, rfl⟩ := put_cases hw
  have hseg : seg.Homed n := h.segments _ (mem_of_segmentAt (locate_eq_ok.1 hl).1)
  exact h.storeSegment hseg

theorem Homed.rmw (h : s.Homed n) {update : Update} {old : Bytes} (hw : s.rmw ptr len update = .ok (old, s')) :
    s'.Homed n :=
  h.put (put_of_rmw hw)

theorem write_sameSegments {offset : Nat} {new : Bytes} (hw : s.write id offset new = .ok s') :
    SameSegments s s' := by
  rcases write_eq_ok hw with rfl | ⟨_, _, _, _, _, rfl⟩ <;> exact ⟨rfl, rfl⟩

theorem acquire_sameSegments (s : Space) (seg : Segment) (key : RegionKey) (refresh : Bool) :
    SameSegments s (s.acquire seg key refresh).2 := by
  rcases s.acquire_cases seg key refresh with ⟨_, he⟩ | ⟨entry, _, _, ⟨t, ht, he⟩ | ⟨_, _, he⟩⟩ |
    ⟨_, _, _, _, _, _, _, he⟩ <;> rw [he]
  · exact ⟨rfl, rfl⟩
  · rcases ht with ⟨_, rfl⟩ | ⟨_, _, _, _, _, _, rfl⟩ <;> exact ⟨rfl, rfl⟩
  · exact ⟨rfl, rfl⟩
  · exact ⟨rfl, rfl⟩

theorem giveUp_sameSegments (s : Space) (region : RegionId) (key : RegionKey) :
    SameSegments s (s.giveUp region key) := by
  unfold giveUp
  repeat' split
  all_goals exact ⟨rfl, rfl⟩

theorem unlocalize_sameSegments (s : Space) (id : MappingId) : SameSegments s (s.unlocalize id) := by
  unfold unlocalize
  cases s.mappings[id]? with
  | none => exact ⟨rfl, rfl⟩
  | some mapping =>
    dsimp only
    cases s.regions[mapping.region]? with
    | none => exact ⟨rfl, rfl⟩
    | some region =>
      have hgive := giveUp_sameSegments
        { s with mappings := s.mappings.modify id fun old => { old with live := false } }
        mapping.region region.key
      exact ⟨hgive.numHomes, hgive.segments⟩

theorem unlocalizeAll_sameSegments (s : Space) (ids : List MappingId) :
    SameSegments s (AddressSpace.unlocalizeAll s ids) := by
  induction ids generalizing s with
  | nil => exact ⟨rfl, rfl⟩
  | cons id rest ih =>
    have hone := s.unlocalize_sameSegments id
    have hrest := ih (s.unlocalize id)
    exact ⟨hrest.numHomes.trans hone.numHomes, hrest.segments.trans hone.segments⟩

/-- Mapping changes the homes of the blocks of one segment at most, and does so even where it fails later. -/
theorem localize_segments (s : Space) (ptr : Pointer) (len : Nat) (access : Access) (worker : WorkerId) :
    (∃ fault, s.localize ptr len access worker = (.error fault, s)) ∨
    ∃ seg first last moved, s.place ptr len access = .ok ⟨seg, first, last⟩ ∧
      (if access.takesOwnership then seg.migrate first last (worker % s.numHomes) else .ok seg) = .ok moved ∧
      SameSegments (s.storeSegment moved) (s.localize ptr len access worker).2 := by
  unfold localize
  split
  · exact .inl ⟨_, rfl⟩
  · rename_i seg first last hplace
    dsimp only
    split
    · exact .inl ⟨_, rfl⟩
    · rename_i moved howned
      have hacq := (s.storeSegment moved).acquire_sameSegments moved ⟨moved.base, first, last⟩ access.refreshes
      refine .inr ⟨seg, first, last, moved, hplace, howned, ?_⟩
      split <;> rename_i he <;> rw [he] at hacq
      · exact hacq
      · exact ⟨hacq.numHomes, hacq.segments⟩

theorem localize_numHomes (s : Space) (ptr : Pointer) (len : Nat) (access : Access) (worker : WorkerId) :
    (s.localize ptr len access worker).2.numHomes = s.numHomes := by
  rcases s.localize_segments ptr len access worker with ⟨_, he⟩ | ⟨_, _, _, _, _, _, hs⟩
  · rw [he]
  · exact hs.numHomes

theorem Homed.localize (h : s.Homed n) (ptr : Pointer) (len : Nat) (access : Access) (worker : WorkerId) :
    (s.localize ptr len access worker).2.Homed n := by
  rcases s.localize_segments ptr len access worker with ⟨_, he⟩ | ⟨seg, first, last, moved, hp, ho, hs⟩
  · rw [he]
    exact h
  · refine hs.homed (h.storeSegment ?_)
    have hseg : seg.Homed n := h.segments seg (mem_of_place hp)
    split at ho
    · rw [h.numHomes] at ho
      exact hseg.migrate (Nat.mod_lt worker h.pos) ho
    · cases ho
      exact hseg

theorem Homed.localizeRest (h : s.Homed n) (access : Access) (worker : WorkerId) (made : List MappingId)
    (ranges : List Range) : (AddressSpace.localizeRest access worker made ranges s).2.Homed n := by
  induction ranges generalizing s made with
  | nil => exact h
  | cons range rest ih =>
    have hstep := h.localize range.start range.len access worker
    simp only [AddressSpace.localizeRest]
    split <;> rename_i he <;> rw [show AddressSpace.localize s = s.localize from rfl] at he <;>
      rw [he] at hstep
    · exact ih hstep _
    · exact (unlocalizeAll_sameSegments _ made).homed hstep
    · exact hstep

/-! ## Ownership -/

/-- A worker is the home of every block that a range covers, and of every address of the range at which no
other segment starts in between. -/
def Owned (s : Space) (ptr : Pointer) (len : Nat) (worker : WorkerId) : Prop :=
  ∃ seg off, s.locate ptr len = .ok (seg, off) ∧
    (∀ block, seg.blockOf off ≤ block → block ≤ seg.blockOf (off + len - 1) → seg.homes[block]? = some worker) ∧
    ∀ inner : Pointer, ptr.addr ≤ inner.addr → inner.addr < ptr.addr + len →
      (∀ other ∈ s.segments, other.base.addr ≤ inner.addr → other.base.addr ≤ seg.base.addr) →
      s.homeOf inner = .ok worker

theorem SameSegments.segmentAt_eq (hs : SameSegments s s') (ptr : Pointer) :
    s'.segmentAt ptr = s.segmentAt ptr := by
  unfold segmentAt
  rw [hs.segments]

/-- Storing a segment moves none. -/
theorem find?_storeSegment (s : Space) (moved : Segment) (addr : Nat) :
    (s.storeSegment moved).segments.find? (fun seg => decide (seg.base.addr ≤ addr)) =
      (s.segments.find? fun seg => decide (seg.base.addr ≤ addr)).map fun old =>
        if old.base = moved.base then moved else old := by
  have hbase : ∀ old : Segment, (if old.base = moved.base then moved else old).base = old.base := fun old => by
    split
    · exact (‹_› : old.base = moved.base).symm
    · rfl
  simp only [storeSegment, List.find?_map, Function.comp_def, hbase]

/-- A search finds a segment again that was stored in its place. -/
theorem segmentAt_storeSegment {moved : Segment} (h : s.segmentAt ptr = .ok seg) (hb : moved.base = seg.base)
    (hsize : moved.size = seg.size) : (s.storeSegment moved).segmentAt ptr = .ok moved := by
  obtain ⟨h0, hf, hlt, hin⟩ := segmentAt_eq_ok.1 h
  refine segmentAt_eq_ok.2 ⟨h0, ?_, by rw [hb, hsize]; exact hlt, by rw [hb, hsize]; exact hin⟩
  rw [find?_storeSegment, hf, Option.map_some, if_pos hb.symm]

theorem segmentAt_storeSegment_ne {moved : Segment} (h : s.segmentAt ptr = .ok seg) (hb : seg.base ≠ moved.base) :
    (s.storeSegment moved).segmentAt ptr = .ok seg := by
  obtain ⟨h0, hf, hlt, hin⟩ := segmentAt_eq_ok.1 h
  refine segmentAt_eq_ok.2 ⟨h0, ?_, hlt, hin⟩
  rw [find?_storeSegment, hf, Option.map_some, if_neg hb]

/-- A segment that is found from some address is found from its first address. -/
theorem find?_base (h : s.segmentAt ptr = .ok seg) :
    s.segments.find? (fun old => decide (old.base.addr ≤ seg.base.addr)) = some seg := by
  obtain ⟨hbase, before, after, hsegs, hbefore⟩ := List.find?_eq_some_iff_append.1 (segmentAt_eq_ok.1 h).2.1
  refine List.find?_eq_some_iff_append.2 ⟨decide_eq_true (Nat.le_refl _), before, after, hsegs, ?_⟩
  intro other hm
  have hhigher : ¬other.base.addr ≤ ptr.addr := by simpa using hbefore other hm
  have hle : seg.base.addr ≤ ptr.addr := of_decide_eq_true hbase
  simpa using fun hle' => hhigher (Nat.le_trans hle' hle)

/-- No two segments that are found start at the same address. -/
theorem segmentAt_unique {other : Pointer} {seg' : Segment} (h : s.segmentAt ptr = .ok seg)
    (h' : s.segmentAt other = .ok seg') (hb : seg.base = seg'.base) : seg = seg' := by
  have hfind := find?_base h
  rw [hb, find?_base h'] at hfind
  exact (Option.some.inj hfind).symm

/-- A search from further inside a segment finds it too, unless another segment starts in between. -/
theorem segmentAt_inner {inner : Pointer} (h : s.segmentAt ptr = .ok seg) (hle : ptr.addr ≤ inner.addr)
    (hin : inner.addr < seg.base.addr + seg.size)
    (hnone : ∀ other ∈ s.segments, other.base.addr ≤ inner.addr → other.base.addr ≤ seg.base.addr) :
    s.segmentAt inner = .ok seg := by
  obtain ⟨h0, hf, hlt, _⟩ := segmentAt_eq_ok.1 h
  refine segmentAt_eq_ok.2 ⟨by omega, ?_, hlt, hin⟩
  obtain ⟨hbase, before, after, hsegs, hbefore⟩ := List.find?_eq_some_iff_append.1 hf
  have hbase : seg.base.addr ≤ ptr.addr := of_decide_eq_true hbase
  refine List.find?_eq_some_iff_append.2 ⟨decide_eq_true (Nat.le_trans hbase hle), before, after, hsegs, ?_⟩
  intro other hm
  have hhigher : ¬other.base.addr ≤ ptr.addr := by simpa using hbefore other hm
  have hthere : other ∈ s.segments := by simp [hsegs, hm]
  simp only [Bool.not_eq_eq_eq_not, Bool.not_true, decide_eq_false_iff_not]
  exact fun hle' => hhigher (Nat.le_trans (hnone other hthere hle') hbase)

/-- A range is owned once the blocks that it covers are. -/
theorem owned_of_blocks (hl : s.locate ptr len = .ok (seg, off))
    (hb : ∀ block, seg.blockOf off ≤ block → block ≤ seg.blockOf (off + len - 1) →
      seg.homes[block]? = some worker) : s.Owned ptr len worker := by
  refine ⟨seg, off, hl, hb, fun inner hle hlt hnone => ?_⟩
  obtain ⟨hat, hoff⟩ := locate_eq_ok.1 hl
  obtain ⟨haddr, hbound, hroom⟩ := Segment.offset_eq_ok.1 hoff
  have hinner : s.segmentAt inner = .ok seg := segmentAt_inner hat hle (by omega) hnone
  obtain ⟨place, hplace⟩ := Nat.exists_eq_add_of_le (show seg.base.addr ≤ inner.addr by omega)
  have hlocate : s.locate inner 0 = .ok (seg, place) :=
    locate_eq_ok.2 ⟨hinner, Segment.offset_eq_ok.2 (by omega)⟩
  have hhome : seg.homes[seg.blockOf place]? = some worker :=
    hb _ (Nat.div_le_div_right (by omega)) (Nat.div_le_div_right (by omega))
  simp [homeOf, hlocate, bind, Except.bind, Segment.homeAt, hhome]

/-- What is known of a range by its place in a segment stays known where the segment is found again. -/
theorem locate_moved {moved : Segment} (hl : s.locate ptr len = .ok (seg, off))
    (hm : moved = { seg with homes := moved.homes }) (hat : s'.segmentAt ptr = .ok moved) :
    s'.locate ptr len = .ok (moved, off) := by
  obtain ⟨_, hoff⟩ := locate_eq_ok.1 hl
  refine locate_eq_ok.2 ⟨hat, ?_⟩
  rw [hm]
  exact hoff

/-- A worker that maps a range with ownership owns it. -/
theorem localize_owned (hl : s.localize ptr len access worker = (.ok id, s')) (ha : access.takesOwnership)
    (hw : worker < s.numHomes) : s'.Owned ptr len worker := by
  rcases s.localize_segments ptr len access worker with ⟨_, he⟩ | ⟨seg, first, last, moved, hp, ho, hs⟩
  · cases he.symm.trans hl
  · rw [hl] at hs
    rw [if_pos ha, Nat.mod_eq_of_lt hw] at ho
    obtain ⟨off, hlocate, _, rfl, rfl⟩ := exists_locate hp
    obtain ⟨hmoved, hhomes⟩ := Segment.migrate_homes ho
    have hat : s'.segmentAt ptr = .ok moved := (hs.segmentAt_eq ptr).trans
      (segmentAt_storeSegment (locate_eq_ok.1 hlocate).1 (by rw [hmoved]) (by rw [hmoved]))
    refine owned_of_blocks (locate_moved hlocate hmoved hat) fun block hfirst hlast => ?_
    have hblock : moved.blockOf = seg.blockOf := by rw [hmoved]; rfl
    rw [hblock] at hfirst hlast
    rw [hhomes, if_pos ⟨hfirst, hlast⟩]

/-- What a worker owns stays its own when it maps more with ownership. -/
theorem Owned.localize (h : s.Owned ptr len worker) (ha : access.takesOwnership) (hw : worker < s.numHomes)
    (start : Pointer) (size : Nat) : (s.localize start size access worker).2.Owned ptr len worker := by
  rcases s.localize_segments start size access worker with ⟨_, he⟩ | ⟨seg, first, last, moved, hp, ho, hs⟩
  · rw [he]
    exact h
  · rw [if_pos ha, Nat.mod_eq_of_lt hw] at ho
    obtain ⟨off, hlocate, _⟩ := exists_locate hp
    obtain ⟨hmoved, hhomes⟩ := Segment.migrate_homes ho
    obtain ⟨mine, place, hmine, hblocks, _⟩ := h
    have hfound := (locate_eq_ok.1 hlocate).1
    have hat := (locate_eq_ok.1 hmine).1
    by_cases hb : mine.base = seg.base
    · obtain rfl := segmentAt_unique hat hfound hb
      have hat' := (hs.segmentAt_eq ptr).trans (segmentAt_storeSegment hat (by rw [hmoved]) (by rw [hmoved]))
      refine owned_of_blocks (locate_moved hmine hmoved hat') fun block hfirst hlast => ?_
      have hblock : moved.blockOf = mine.blockOf := by rw [hmoved]; rfl
      rw [hblock] at hfirst hlast
      rw [hhomes, hblocks block hfirst hlast, ite_self]
    · have hbase : mine.base ≠ moved.base := by rwa [hmoved]
      have hat' := (hs.segmentAt_eq ptr).trans (segmentAt_storeSegment_ne hat hbase)
      exact owned_of_blocks (locate_moved hmine rfl hat') hblocks

/-- A worker that maps ranges with ownership owns them all. -/
theorem localizeRest_owned {made ids : List MappingId} {ranges : List Range}
    (hl : AddressSpace.localizeRest access worker made ranges s = (.ok ids, s')) (ha : access.takesOwnership)
    (hw : worker < s.numHomes) : (∀ ptr len, s.Owned ptr len worker → s'.Owned ptr len worker) ∧
      ∀ range ∈ ranges, s'.Owned range.start range.len worker := by
  induction ranges generalizing s made with
  | nil =>
    cases hl
    exact ⟨fun _ _ h => h, fun _ hm => by cases hm⟩
  | cons range rest ih =>
    have hkept := fun ptr len (h : s.Owned ptr len worker) => h.localize ha hw range.start range.len
    have hhomes := s.localize_numHomes range.start range.len access worker
    simp only [AddressSpace.localizeRest] at hl
    split at hl <;> rename_i he <;> rw [show AddressSpace.localize s = s.localize from rfl] at he <;>
      rw [he] at hkept hhomes
    · obtain ⟨hrest, howned⟩ := ih hl (hhomes ▸ hw)
      refine ⟨fun ptr len h => hrest ptr len (hkept ptr len h), List.forall_mem_cons.2 ⟨?_, howned⟩⟩
      exact hrest _ _ (localize_owned he ha hw)
    · cases hl
    · cases hl

end Space

end TaskSpace

import TaskSpace.Proofs.Memory.Fading
import TaskSpace.Proofs.Memory.Sharing

/-!
# The account of handles

What the cache of a space counts, and what the space says of live mappings, are the handles that a
client holds. `Space.Counted` is the invariant: the handles held share the cached regions, and the
space counts as many live mappings as there are handles.
-/

namespace TaskSpace

variable {s s' : Space} {handles : List MappingId} {ptr : Pointer} {len : Nat} {access : Access}
  {key : RegionKey} {seg seg' : Segment} {reach first last : Nat}

namespace Space

structure Counted (s : Space) (handles : List MappingId) : Prop where
  nodup : handles.Nodup
  room : handles.length < Word.bound
  live : s.live = handles.length
  keys : (s.cache.map CacheEntry.key).Nodup
  held : ∀ h ∈ handles, ∃ mapping entry, s.mappings[h]? = some mapping ∧ mapping.live = true ∧
    entry ∈ s.cache ∧ entry.region = mapping.region ∧ s.Touches mapping.start mapping.len entry.key
  backed : ∀ entry ∈ s.cache, ∃ region, s.regions[entry.region]? = some region ∧
    region.key = entry.key ∧ s.Backs region
  refs : ∀ entry ∈ s.cache, entry.refs = users s.mappings handles entry.region
  used : ∀ entry ∈ s.cache, 0 < entry.refs

theorem counted_new (numHomes : Nat) : (new numHomes).Counted [] where
  nodup := .nil
  room := by decide
  live := rfl
  keys := .nil
  held := by simp
  backed := by simp [new]
  refs := by simp [new]
  used := by simp [new]

theorem Counted.shared (h : s.Counted handles) : s.Shared handles :=
  ⟨h.nodup, h.keys, h.held, h.backed, h.refs, h.used⟩

theorem Shared.counted (h : s.Shared handles) (hroom : handles.length < Word.bound)
    (hlive : s.live = Word.wrap handles.length) : s.Counted handles :=
  ⟨h.nodup, hroom, hlive.trans (Word.wrap_of_lt hroom), h.keys, h.held, h.backed, h.refs, h.used⟩

theorem Counted.live_eq (h : s.Counted handles) : s.live = Word.wrap handles.length :=
  h.live.trans (Word.wrap_of_lt h.room).symm

/-- The account stays as it is when no mapping is made or released. -/
theorem Counted.still (h : s.Counted handles) (hs : s'.Shared handles) (hstill : Still s s') :
    s'.Counted handles :=
  hs.counted h.room (hstill.live.trans h.live_eq)

theorem Counted.dealloc (h : s.Counted handles) {base : Pointer} (hd : s.dealloc base = .ok s') :
    s'.Counted handles :=
  h.still (h.shared.dealloc hd) (dealloc_still hd)

theorem Counted.alloc (h : s.Counted handles) {size blockSize : Nat} (hp : s.Placed reach)
    (hr : reach + span size blockSize ≤ Word.bound) : (s.alloc size blockSize).2.Counted handles :=
  h.still (h.shared.alloc hp hr) (s.alloc_still size blockSize)

theorem Counted.put (h : s.Counted handles) (hp : s.Placed reach) {new : Bytes}
    (hw : s.put ptr new = .ok s') : s'.Counted handles :=
  h.still (h.shared.put hp hw) (put_still hw)

theorem Counted.write (h : s.Counted handles) {id : MappingId} {off : Nat} {new : Bytes}
    (hw : s.write id off new = .ok s') : s'.Counted handles :=
  h.still (h.shared.write hw) (write_still hw)

/-- A mapping that is made puts its handle in the account; one that is not changes nothing there. -/
theorem Counted.localize (h : s.Counted handles) (hp : s.Placed reach) (ptr : Pointer) (len : Nat)
    (access : Access) (worker : WorkerId)
    (hroom : ∀ id s', s.localize ptr len access worker = (.ok id, s') →
      handles.length + 1 < Word.bound) :
    (∃ fault s', s.localize ptr len access worker = (.error fault, s') ∧ s'.Counted handles) ∨
    ∃ id s', s.localize ptr len access worker = (.ok id, s') ∧ s'.Counted (handles ++ [id]) := by
  rcases h.shared.localize hp ptr len access worker with ⟨fault, s', he, hs⟩ | ⟨id, s', he, hs⟩ <;>
    rcases s.localize_counts ptr len access worker with ⟨fault', t, he', hstill⟩ |
      ⟨id', t, he', _, _, hlive⟩ <;> rw [he] at he' <;> cases he'
  · exact .inl ⟨fault, s', he, h.still hs hstill⟩
  · have hlen : (handles ++ [id]).length = handles.length + 1 := List.length_append
    refine .inr ⟨id, s', he, hs.counted (hlen ▸ hroom id s' he) ?_⟩
    rw [hlive, h.live, hlen]

/-- Releasing a handle takes it, and no other one, out of the account. -/
theorem Counted.unlocalize {pre post : List MappingId} {id : MappingId}
    (h : s.Counted (pre ++ id :: post)) : (s.unlocalize id).Counted (pre ++ post) := by
  have hlen : (pre ++ id :: post).length = (pre ++ post).length + 1 := by simp; omega
  have hid : id ∈ pre ++ id :: post := by simp
  have hlive := (unlocalize_counts (h.shared.handle_lt hid)).2.2
  have hroom := h.room
  refine h.shared.unlocalize.counted (by omega) ?_
  -- the counter goes down by going round
  rw [hlive, h.live_eq, hlen, Word.wrap_pred]

/-- Releasing the last handles, first to last, leaves the ones before. -/
theorem Counted.unlocalizeAll {made : List MappingId} (h : s.Counted (handles ++ made)) :
    Counted (AddressSpace.unlocalizeAll s made) handles := by
  induction made generalizing s with
  | nil => rwa [List.append_nil] at h
  | cons id rest ih => exact ih h.unlocalize

/-! ## No panic in the middle -/

/-- Segments are no longer than a block of memory can be, and the sizes of their blocks are words. -/
def BlocksFit (s : Space) : Prop :=
  ∀ seg ∈ s.segments, seg.size ≤ Word.maxLength ∧ seg.blockSize < Word.bound

theorem blocksFit_new (numHomes : Nat) : (new numHomes).BlocksFit := by
  simp [BlocksFit, new]

theorem BlocksFit.of_sameShape (h : s.BlocksFit) (ho : SameShape s s') : s'.BlocksFit := by
  intro seg hseg
  obtain ⟨old, hold, he⟩ := List.mem_map.1 (ho.outline ▸ List.mem_map_of_mem hseg)
  obtain ⟨_, hs, hb, _⟩ := Segment.shape_of_outline he
  rw [← hs, ← hb]
  exact h old hold

theorem BlocksFit.dealloc (h : s.BlocksFit) {base : Pointer} (hd : s.dealloc base = .ok s') :
    s'.BlocksFit := by
  rcases s.dealloc_cases base with ⟨_, he⟩ | ⟨_, _, he⟩ | ⟨_, _, he⟩ <;> rw [he] at hd <;> cases hd
  exact fun seg hm => h seg (List.mem_filter.1 hm).1

theorem BlocksFit.alloc (h : s.BlocksFit) (hp : s.Placed reach) {size blockSize : Nat}
    (hb : blockSize < Word.bound) (hr : reach + span size blockSize ≤ Word.bound) :
    (s.alloc size blockSize).2.BlocksFit := by
  rcases hp.alloc_cases hr with ⟨_, _, he⟩ | ⟨ha, _, _, he⟩ <;> rw [he]
  · exact h
  · intro seg hm
    rcases List.mem_cons.1 hm with rfl | hm
    · exact ⟨ha.2.2.1, hb⟩
    · exact h seg hm

/-- The blocks that a range inside a segment touches can be loaded. -/
theorem Placed.exists_blockRange (hp : s.Placed reach) (hf : s.BlocksFit) (hm : seg ∈ s.segments)
    {off : Nat} (hlen : 0 < len) (hle : off + len ≤ seg.size) :
    ∃ start stop, seg.blockRange (seg.blockOf off) (seg.blockOf (off + len - 1)) = .ok (start, stop) ∧
      start ≤ off ∧ start ≤ stop ∧ stop ≤ seg.bytes.length := by
  have hw := hp.wellFormed seg hm
  have hpos := hw.blockSize_pos
  have hbytes := hw.length_bytes
  obtain ⟨hsize, hfit⟩ := hf seg hm
  have hbound : 2 * Word.maxLength < Word.bound := by decide
  have hstart : seg.blockOf off * seg.blockSize ≤ off := Nat.div_mul_le_self _ _
  have hlast : seg.blockOf (off + len - 1) * seg.blockSize ≤ off + len - 1 := Nat.div_mul_le_self _ _
  have hmono : seg.blockOf off ≤ seg.blockOf (off + len - 1) := Nat.div_le_div_right (by omega)
  have hcount : seg.blockOf (off + len - 1) ≤ off + len - 1 := Nat.div_le_self _ _
  -- the block after the last one starts below the bound: the first block has a size that is a word,
  -- and any other one starts at least one block size in
  have hafter : (seg.blockOf (off + len - 1) + 1) * seg.blockSize < Word.bound := by
    rw [Nat.succ_mul]
    rcases Nat.eq_zero_or_pos (seg.blockOf (off + len - 1)) with h0 | hpos'
    · rw [h0]; omega
    · have := Nat.le_mul_of_pos_left seg.blockSize hpos'
      omega
  have hstop : seg.blockOf off * seg.blockSize ≤
      min ((seg.blockOf (off + len - 1) + 1) * seg.blockSize) seg.size := by
    refine Nat.le_min.2 ⟨?_, by omega⟩
    exact Nat.mul_le_mul_right _ (by omega)
  have hp1 := Fault.product_eq_ok.2 ⟨show seg.blockOf off * seg.blockSize < Word.bound by omega, rfl⟩
  have hs := Fault.sum_eq_ok.2 ⟨show seg.blockOf (off + len - 1) + 1 < Word.bound by omega, rfl⟩
  refine ⟨_, _, ?_, hstart, hstop, hbytes ▸ Nat.min_le_right _ _⟩
  simp only [Segment.blockRange, hp1, hs, Fault.product_eq_ok.2 ⟨hafter, rfl⟩, bind, Except.bind, pure,
    Except.pure]

/-- Nobody can be added to the users of a run of blocks: their count is as high as a word can be. -/
def Crowded (s : Space) (key : RegionKey) : Prop :=
  ∃ entry ∈ s.cache, entry.key = key ∧ Word.bound ≤ entry.refs + 1

/-- A range with a place is mapped in two steps, of which the first cannot fail: its blocks move, if
they are to, and their region is acquired. -/
theorem Placed.localize_eq (hp : s.Placed reach)
    (hplace : s.place ptr len access = .ok ⟨seg, first, last⟩) (worker : WorkerId) :
    ∃ moved, (if access.takesOwnership then seg.migrate first last (worker % s.numHomes)
        else .ok seg) = .ok moved ∧
      s.localize ptr len access worker =
        match (s.storeSegment moved).acquire moved ⟨moved.base, first, last⟩ access.refreshes with
        | (.error fault, t) => (.error fault, t)
        | (.ok region, t) =>
          (.ok t.mappings.length, t.withMapping ⟨ptr, len, access, region, true⟩) := by
  obtain ⟨_, hpos, off, hm, _, hle, _, rfl⟩ := hp.place_eq_ok.1 hplace
  have hlast : seg.blockOf (off + len - 1) < seg.homes.length :=
    (hp.wellFormed seg hm).blockOf_lt (by omega)
  obtain ⟨moved, howned⟩ : ∃ moved, (if access.takesOwnership then
      seg.migrate first (seg.blockOf (off + len - 1)) (worker % s.numHomes)
      else .ok seg) = .ok moved := by
    split
    · exact ⟨_, if_pos hlast⟩
    · exact ⟨seg, rfl⟩
  refine ⟨moved, howned, ?_⟩
  simp only [localize, hplace, howned]
  obtain ⟨fault | region, t⟩ := (s.storeSegment moved).acquire moved
    ⟨moved.base, first, seg.blockOf (off + len - 1)⟩ access.refreshes
  · rfl
  · rfl

/-- What moving blocks leaves as it was. -/
theorem moved_contents {moved : Segment} {home : WorkerId}
    (h : (if access.takesOwnership then seg.migrate first last home else .ok seg) = .ok moved) :
    moved.contents = seg.contents ∧ moved.base = seg.base := by
  split at h
  · exact Segment.contents_migrate h
  · cases h; exact ⟨rfl, rfl⟩

theorem Shared.acquire_ok (h : s.Shared handles) (hp : s.Placed reach) (hf : s.BlocksFit)
    (hm : seg ∈ s.segments) {off : Nat} (hlen : 0 < len) (hle : off + len ≤ seg.size)
    (hroom : ¬ s.Crowded ⟨seg.base, seg.blockOf off, seg.blockOf (off + len - 1)⟩) (refresh : Bool) :
    ∃ region, (s.acquire seg ⟨seg.base, seg.blockOf off, seg.blockOf (off + len - 1)⟩ refresh).1 =
      .ok region := by
  unfold acquire
  cases hent : s.entry? ⟨seg.base, seg.blockOf off, seg.blockOf (off + len - 1)⟩ with
  | some entry =>
    obtain ⟨he, hkey⟩ := (entry?_eq_some h.keys).1 hent
    have hsum : Fault.sum entry.refs 1 = .ok (entry.refs + 1) :=
      Fault.sum_eq_ok.2 ⟨Nat.lt_of_not_le fun hfull => hroom ⟨entry, he, hkey, hfull⟩, rfl⟩
    obtain ⟨fresh, region, hload, hreg, hlen⟩ := h.exists_load hp he hm (by rw [hkey])
    rw [hkey] at hload
    cases refresh with
    | false => exact ⟨entry.region, by simp only [hsum]; rfl⟩
    | true =>
      refine ⟨entry.region, ?_⟩
      simp only [hsum, if_true, hload, updateEntry, hreg, hlen]
  | none =>
    obtain ⟨start, stop, hrange, hstart, hss, hstop⟩ := hp.exists_blockRange hf hm hlen hle
    obtain ⟨bytes, hload, _⟩ := Segment.exists_load hrange hss hstop
    have hbelow := hp.below seg hm
    have hreach := hp.reach_le
    have hsum : Fault.sum seg.base.addr start = .ok (seg.base.addr + start) :=
      Fault.sum_eq_ok.2 ⟨by omega, rfl⟩
    refine ⟨s.regions.length, ?_⟩
    simp only [hrange, hload, hsum, bind, Except.bind, pure, Except.pure]

/-- A range with a place is mapped, unless its blocks are crowded. -/
theorem Shared.localize_ok (h : s.Shared handles) (hp : s.Placed reach) (hf : s.BlocksFit)
    (hplace : s.place ptr len access = .ok ⟨seg, first, last⟩)
    (hroom : ¬ s.Crowded ⟨seg.base, first, last⟩) (worker : WorkerId) :
    ∃ id s', s.localize ptr len access worker = (.ok id, s') := by
  obtain ⟨moved, howned, he⟩ := hp.localize_eq hplace worker
  obtain ⟨_, hpos, off, hm, _, hle, rfl, rfl⟩ := hp.place_eq_ok.1 hplace
  obtain ⟨hc, hb⟩ := moved_contents howned
  obtain ⟨ho, hmoved⟩ := hp.storeMoved hm hc hb
  have hshape : moved.outline = seg.outline := by
    rw [← Segment.outline_contents, hc, Segment.outline_contents]
  obtain ⟨_, hsize, hblock, _⟩ := Segment.shape_of_outline hshape
  have hroom : ¬ (s.storeSegment moved).Crowded
      ⟨moved.base, moved.blockOf off, moved.blockOf (off + len - 1)⟩ := by
    show ¬ s.Crowded _
    simpa only [Segment.blockOf, hb, hblock] using hroom
  have hs : (s.storeSegment moved).Shared handles := h.of_sameShape rfl rfl rfl ho
  obtain ⟨region, hacq⟩ := hs.acquire_ok (hp.of_sameShape ho) (hf.of_sameShape ho) hmoved hpos
    (hsize ▸ hle) hroom access.refreshes
  simp only [Segment.blockOf, hblock] at hacq he
  rw [he]
  split <;> rename_i heq
  · rw [heq] at hacq; cases hacq
  · exact ⟨_, _, rfl⟩

/-- Crowded blocks are not mapped once more: counting the user is what fails. -/
theorem Shared.localize_crowded (h : s.Shared handles) (hp : s.Placed reach)
    (hplace : s.place ptr len access = .ok ⟨seg, first, last⟩)
    (hfull : s.Crowded ⟨seg.base, first, last⟩) (worker : WorkerId) :
    (s.localize ptr len access worker).1 = .error (.panicked .addOverflow) := by
  obtain ⟨moved, howned, he⟩ := hp.localize_eq hplace worker
  obtain ⟨-, hb⟩ := moved_contents howned
  obtain ⟨entry, hm, hkey, hfull⟩ := hfull
  have hent : Space.entry? (s.storeSegment moved) ⟨moved.base, first, last⟩ = some entry :=
    (entry?_eq_some h.keys).2 ⟨hm, by rw [hkey, hb]⟩
  have hsum : Fault.sum entry.refs 1 = .error (.panicked .addOverflow) := by
    simp only [Fault.sum, Word.add?, if_neg (Nat.not_lt.2 hfull)]
  have hacq : (s.storeSegment moved).acquire moved ⟨moved.base, first, last⟩ access.refreshes =
      (.error (.panicked .addOverflow), s.storeSegment moved) := by
    simp only [acquire, hent, hsum]
  rw [he, hacq]

theorem Counted.not_crowded (h : s.Counted handles) (hroom : handles.length + 1 < Word.bound)
    (key : RegionKey) : ¬ s.Crowded key := by
  rintro ⟨entry, he, -, hfull⟩
  have hle : users s.mappings handles entry.region ≤ handles.length := List.countP_le_length
  have hrefs := h.refs entry he
  omega

theorem Counted.localize_refused (h : s.Counted handles) (hp : s.Placed reach) (hf : s.BlocksFit)
    {worker : WorkerId} {fault : Fault} (hroom : handles.length + 1 < Word.bound)
    (he : s.localize ptr len access worker = (.error fault, s')) :
    ∃ error, fault = .refused error := by
  cases hplace : s.place ptr len access with
  | error found =>
    simp only [Space.localize, hplace, Prod.mk.injEq, Except.error.injEq] at he
    exact he.1 ▸ hp.place_refused hplace
  | ok placement =>
    obtain ⟨id, t, he'⟩ := h.shared.localize_ok hp hf hplace (h.not_crowded hroom _) worker
    cases he'.symm.trans he

/-- Either every range is mapped, or a refusal ends it and the handles made are released again. -/
theorem Counted.localizeRest {made : List MappingId} {ranges : List Range} {worker : WorkerId}
    (h : s.Counted (handles ++ made)) (hp : s.Placed reach) (hf : s.BlocksFit)
    (hroom : (handles ++ made).length + s.reached access worker ranges < Word.bound) :
    (∃ ids s', AddressSpace.localizeRest access worker made ranges s = (.ok ids, s') ∧
      s'.Counted (handles ++ ids)) ∨
    ∃ error s', AddressSpace.localizeRest access worker made ranges s =
      (.error (.refused error), s') ∧ s'.Counted handles := by
  induction ranges generalizing s made with
  | nil => exact .inl ⟨made, s, rfl, h⟩
  | cons range rest ih =>
    have hsame := hp.localize_sameHome range.start range.len access worker
    have hp' := hp.of_sameHome hsame
    have hf' := hf.of_sameShape hsame.sameShape
    have hclass : AddressSpace.localize s = s.localize := rfl
    have hone : (handles ++ made).length + 1 < Word.bound := by
      simp only [reached] at hroom
      split at hroom <;> omega
    simp only [AddressSpace.localizeRest, hclass]
    rcases h.localize hp range.start range.len access worker (fun _ _ _ => hone) with
      ⟨fault, s', he, h'⟩ | ⟨id, s', he, h'⟩
    · obtain ⟨error, rfl⟩ := h.localize_refused hp hf hone he
      rw [he]
      -- the refusal released `made`, so only the handles from before are left
      exact .inr ⟨error, _, rfl, h'.unlocalizeAll⟩
    · simp only [reached, he] at hroom
      rw [he] at hp' hf' ⊢
      rw [List.append_assoc] at h'
      refine ih h' hp' hf' ?_
      simp only [List.length_append, List.length_singleton] at hroom ⊢
      omega

end Space

end TaskSpace

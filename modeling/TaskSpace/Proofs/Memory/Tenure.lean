import TaskSpace.Proofs.Memory.Recording
import TaskSpace.Proofs.Memory.Rollback

/-!
# How long mappings live, and where writes through them land

Whatever is asked of a space, its mappings stay in their places, and those that die are those that are
released (`Space.Ages`). While the addresses of the space last, a mapping starts inside its region
(`Space.Rooted`), and a write through it lands at the addresses that it names. Once they have gone
round, a mapping may start below the region that it was given, and a write lands above its place.
-/

namespace TaskSpace

/-! ## Mappings -/

namespace Mapping

/-- The mapping that `id` names, after some have been released. -/
def after (mapping : Mapping) (id : MappingId) (freed : List MappingId) : Mapping :=
  { mapping with live := mapping.live && decide (id ∉ freed) }

/-- Why a write is refused once the mapping is released. -/
def refusal (mapping : Mapping) (off : Nat) (new : Bytes) : AccessError :=
  if mapping.access.isWritable = false then .readOnly mapping.start
  else if mapping.len < off + new.length then .outOfBounds (mapping.start.wrappingAdd off) new.length
  else .unlocalized mapping.start

/-- Mappings stay in their places and new ones come after them; `freed` are released. -/
structure Ends (freed : List MappingId) (old new : List Mapping) : Prop where
  kept : ∀ (id : MappingId) (mapping : Mapping), old[id]? = some mapping → new[id]? = some (mapping.after id freed)
  made : ∀ (id : MappingId) (mapping : Mapping), new[id]? = some mapping → old.length ≤ id →
    (mapping.live = true ↔ id ∉ freed)
  there : ∀ id ∈ freed, id < new.length

variable {mapping : Mapping} {id : MappingId} {freed freed' : List MappingId} {old new newer : List Mapping}

@[simp] theorem after_nil (mapping : Mapping) (id : MappingId) : mapping.after id [] = mapping := by
  simp [after]

theorem after_append (mapping : Mapping) (id : MappingId) (freed freed' : List MappingId) :
    (mapping.after id freed).after id freed' = mapping.after id (freed ++ freed') := by
  simp [after, Bool.and_assoc]

theorem after_of_dead (hl : mapping.live = false) : mapping.after id freed = mapping := by
  unfold after
  rw [hl, Bool.false_and, ← hl]

theorem Ends.refl (old : List Mapping) : Ends [] old old where
  kept id mapping hm := by rw [after_nil, hm]
  made id mapping hm hle := absurd (List.getElem?_eq_some_iff.1 hm).1 (Nat.not_lt_of_le hle)
  there := by simp

theorem Ends.length_le (h : Ends freed old new) : old.length ≤ new.length := by
  refine Nat.le_of_not_lt fun hlt => ?_
  have hm := h.kept _ _ (List.getElem?_eq_getElem hlt)
  rw [List.getElem?_eq_none (Nat.le_refl _)] at hm
  cases hm

theorem Ends.trans (h : Ends freed old new) (h' : Ends freed' new newer) : Ends (freed ++ freed') old newer where
  kept id mapping hm := by rw [← after_append, h'.kept id _ (h.kept id mapping hm)]
  made id mapping hm hle := by
    rw [List.mem_append, not_or]
    by_cases hlt : id < new.length
    · have hnew := List.getElem?_eq_getElem hlt
      cases (h'.kept id _ hnew).symm.trans hm
      rw [← h.made id _ hnew hle]
      simp [after]
    · have hnot : id ∉ freed := fun hid => hlt (h.there id hid)
      rw [h'.made id mapping hm (Nat.not_lt.1 hlt)]
      exact (and_iff_right hnot).symm
  there id hid := (List.mem_append.1 hid).elim
    (fun hid => Nat.lt_of_lt_of_le (h.there id hid) h'.length_le) (h'.there id)

theorem Ends.snoc (old : List Mapping) (hl : mapping.live = true) : Ends [] old (old ++ [mapping]) where
  kept id found hm := by
    rw [after_nil, List.getElem?_append_left (List.getElem?_eq_some_iff.1 hm).1, hm]
  made id found hm hle := by
    rw [List.getElem?_append_right hle] at hm
    simp [List.mem_singleton.1 (List.mem_of_getElem? hm), hl]
  there := by simp

/-- Releasing a mapping that is not there does nothing. -/
theorem Ends.release (old : List Mapping) (id : MappingId) : Ends (if id < old.length then [id] else []) old
    (old.modify id fun mapping => { mapping with live := false }) where
  kept other mapping hm := by
    rw [List.getElem?_modify, hm]
    by_cases he : id = other
    · subst he
      simp [after, (List.getElem?_eq_some_iff.1 hm).1]
    · have hnot : other ∉ if id < old.length then [id] else [] := by
        split
        · simpa using Ne.symm he
        · simp
      simp [after, he, hnot]
  made other mapping hm hle := by
    rw [List.getElem?_modify, List.getElem?_eq_none hle] at hm
    cases hm
  there other hother := by
    rw [List.length_modify]
    split at hother
    · exact List.mem_singleton.1 hother ▸ ‹_›
    · cases hother

end Mapping

/-! ## Regions -/

namespace Region

/-- The byte that a region has for an address. -/
def byteAt (region : Region) (addr : Nat) : Option UInt8 :=
  if region.base.addr ≤ addr then region.bytes[addr - region.base.addr]? else none

/-- The region has got `bytes`: these are the old ones but for `new`, from address `place` on. -/
structure Overwritten (region : Region) (place : Nat) (new bytes : Bytes) : Prop where
  length : bytes.length = region.bytes.length
  inside : region.base.addr ≤ place ∧ place + new.length ≤ region.base.addr + region.bytes.length
  byte : ∀ addr, { region with bytes }.byteAt addr =
    if place ≤ addr ∧ addr < place + new.length then new[addr - place]? else region.byteAt addr

theorem overwritten {region : Region} {off : Nat} {new bytes : Bytes} (h : region.bytes.splice off new = .ok bytes) :
    region.Overwritten (region.base.addr + off) new bytes := by
  have hlen := Bytes.length_splice h
  obtain ⟨hle, rfl⟩ := Bytes.splice_eq_ok.1 h
  refine ⟨hlen, ⟨by omega, by omega⟩, fun addr => ?_⟩
  unfold byteAt
  by_cases hbase : region.base.addr ≤ addr
  · have hiff : (off ≤ addr - region.base.addr ∧ addr - region.base.addr < off + new.length) ↔
        region.base.addr + off ≤ addr ∧ addr < region.base.addr + off + new.length := by
      omega
    rw [if_pos hbase, if_pos hbase, Space.overwrite_getElem? hle, Nat.sub_sub]
    simp only [hiff]
  · rw [if_neg hbase, if_neg hbase, if_neg (by omega)]

end Region

namespace Space

variable {s s' t : Space} {id : MappingId} {freed freed' : List MappingId} {mapping : Mapping}
  {reach span span' : Nat} {ptr : Pointer} {len : Nat} {access : Access} {worker : WorkerId} {seg : Segment}

/-- What is cached and what is mapped has a region, and the length of a mapping is a word. -/
structure Housed (s : Space) : Prop where
  cached : ∀ entry ∈ s.cache, entry.region < s.regions.length
  mapped : ∀ mapping ∈ s.mappings, mapping.region < s.regions.length ∧ mapping.len < Word.bound

/-- Segments are placed, cached regions start where the first of their blocks does, and no mapping starts below its
region. -/
structure Rooted (s : Space) (reach : Nat) : Prop extends s.Placed reach where
  cached : ∀ entry ∈ s.cache, ∃ region, s.regions[entry.region]? = some region ∧ region.key = entry.key ∧ s.Based region
  inside : ∀ mapping ∈ s.mappings, ∃ region, s.regions[mapping.region]? = some region ∧
    region.base.addr ≤ mapping.start.addr

/-- A space is used: its mappings stay but for those that are released, and at most `span` addresses are taken. -/
structure Ages (freed : List MappingId) (span : Nat) (s s' : Space) : Prop where
  ends : Mapping.Ends freed s.mappings s'.mappings
  housed : s.Housed → s'.Housed
  rooted : ∀ reach, s.Rooted reach → reach + span ≤ Word.bound → s'.Rooted (reach + span)

theorem housed_new (numHomes : Nat) : (new numHomes).Housed := ⟨by simp [new], by simp [new]⟩

theorem rooted_new (numHomes : Nat) : (new numHomes).Rooted page :=
  ⟨placed_new numHomes, by simp [new], by simp [new]⟩

theorem Ages.refl (s : Space) : Ages [] 0 s s := ⟨.refl _, fun h => h, fun _ h _ => h⟩

theorem Ages.trans (h : Ages freed span s s') (h' : Ages freed' span' s' t) :
    Ages (freed ++ freed') (span + span') s t where
  ends := h.ends.trans h'.ends
  housed hs := h'.housed (h.housed hs)
  rooted reach hs hr := by
    rw [← Nat.add_assoc] at hr ⊢
    exact h'.rooted _ (h.rooted reach hs (by omega)) hr

/-! ## What the invariants depend on -/

/-- Regions stay where they are, nothing new is cached, and mappings keep their ranges and regions. -/
structure Inherits (s s' : Space) : Prop where
  regions : ∀ (id : RegionId) (region : Region), s.regions[id]? = some region →
    ∃ region' : Region, s'.regions[id]? = some region' ∧ region'.key = region.key ∧ region'.base = region.base
  cache : ∀ new ∈ s'.cache, ∃ old ∈ s.cache, old.key = new.key ∧ old.region = new.region
  mappings : ∀ new ∈ s'.mappings, ∃ old ∈ s.mappings,
    old.start = new.start ∧ old.len = new.len ∧ old.region = new.region

theorem Inherits.of_eq (hr : s'.regions = s.regions) (hc : ∀ new ∈ s'.cache, new ∈ s.cache)
    (hm : s'.mappings = s.mappings) : Inherits s s' where
  regions _ region h := ⟨region, hr ▸ h, rfl, rfl⟩
  cache new hnew := ⟨new, hc new hnew, rfl, rfl⟩
  mappings new hnew := ⟨new, hm ▸ hnew, rfl, rfl, rfl⟩

theorem inherits_setRegion (s : Space) (id : RegionId) (bytes : Bytes) : Inherits s (s.setRegion id bytes) where
  regions other region h := by
    simp only [Space.setRegion, List.getElem?_modify, h]
    refine ⟨_, rfl, ?_⟩
    split <;> exact ⟨rfl, rfl⟩
  cache new hnew := ⟨new, hnew, rfl, rfl⟩
  mappings new hnew := ⟨new, hnew, rfl, rfl, rfl⟩

theorem inherits_updateEntry (s : Space) (key : RegionKey) {f : CacheEntry → CacheEntry}
    (hf : ∀ old : CacheEntry, (f old).key = old.key ∧ (f old).region = old.region) :
    Inherits s (s.updateEntry key f) where
  regions _ region h := ⟨region, h, rfl, rfl⟩
  cache := mem_updateEntry hf
  mappings new hnew := ⟨new, hnew, rfl, rfl, rfl⟩

theorem Inherits.trans (h : Inherits s s') (h' : Inherits s' t) : Inherits s t where
  regions id region hr := by
    obtain ⟨region', hr', hk, hb⟩ := h.regions id region hr
    obtain ⟨region'', hr'', hk', hb'⟩ := h'.regions id region' hr'
    exact ⟨region'', hr'', hk'.trans hk, hb'.trans hb⟩
  cache new hnew := by
    obtain ⟨old, hold, hk, hr⟩ := h'.cache new hnew
    obtain ⟨older, holder, hk', hr'⟩ := h.cache old hold
    exact ⟨older, holder, hk'.trans hk, hr'.trans hr⟩
  mappings new hnew := by
    obtain ⟨old, hold, hs, hl, hr⟩ := h'.mappings new hnew
    obtain ⟨older, holder, hs', hl', hr'⟩ := h.mappings old hold
    exact ⟨older, holder, hs'.trans hs, hl'.trans hl, hr'.trans hr⟩

theorem inherits_unlocalize (s : Space) (id : MappingId) : Inherits s (s.unlocalize id) where
  regions other region h := ⟨region, (s.unlocalize_sheds id).regions ▸ h, rfl, rfl⟩
  cache := (s.unlocalize_sheds id).cache
  mappings new hnew := by
    rw [mappings_unlocalize] at hnew
    obtain ⟨other, hother⟩ := List.mem_iff_getElem?.1 hnew
    rw [List.getElem?_modify] at hother
    obtain ⟨old, hold, rfl⟩ := Option.map_eq_some_iff.1 hother
    refine ⟨old, List.mem_of_getElem? hold, ?_⟩
    split <;> exact ⟨rfl, rfl, rfl⟩

theorem Housed.inherits (h : s.Housed) (hi : Inherits s s') : s'.Housed := by
  have hlt : ∀ {region}, region < s.regions.length → region < s'.regions.length := fun hr => by
    obtain ⟨_, hr', _⟩ := hi.regions _ _ (List.getElem?_eq_getElem hr)
    exact (List.getElem?_eq_some_iff.1 hr').1
  refine ⟨fun new hnew => ?_, fun new hnew => ?_⟩
  · obtain ⟨old, hold, _, hr⟩ := hi.cache new hnew
    exact hr ▸ hlt (h.cached old hold)
  · obtain ⟨old, hold, _, hl, hr⟩ := hi.mappings new hnew
    obtain ⟨hreg, hlen⟩ := h.mapped old hold
    exact ⟨hr ▸ hlt hreg, hl ▸ hlen⟩

theorem Rooted.inherits {reach' : Nat} (h : s.Rooted reach) (hi : Inherits s s') (hp : s'.Placed reach')
    (hs : ∀ new ∈ s'.cache, ∀ seg ∈ s.segments, seg.base = new.key.segment →
      ∃ seg' ∈ s'.segments, seg'.outline = seg.outline) : s'.Rooted reach' where
  toPlaced := hp
  cached new hnew := by
    obtain ⟨old, hold, hkey, hreg⟩ := hi.cache new hnew
    obtain ⟨region, hr, hk, hbased⟩ := h.cached old hold
    obtain ⟨region', hr', hk', hb'⟩ := hi.regions _ region hr
    refine ⟨region', hreg ▸ hr', by rw [hk', hk, hkey], ?_⟩
    have hmoved : s'.Based region := hbased.mono fun seg hm hbase => hs new hnew seg hm (by rw [hbase, hk, hkey])
    unfold Based at hmoved ⊢
    rwa [hk', hb']
  inside new hnew := by
    obtain ⟨old, hold, hstart, _, hreg⟩ := hi.mappings new hnew
    obtain ⟨region, hr, hle⟩ := h.inside old hold
    obtain ⟨region', hr', _, hb⟩ := hi.regions _ region hr
    exact ⟨region', hreg ▸ hr', by rwa [hb, ← hstart]⟩

theorem Rooted.of_sameShape (h : s.Rooted reach) (hi : Inherits s s') (hs : SameShape s s') : s'.Rooted reach :=
  h.inherits hi (h.toPlaced.of_sameShape hs) fun _ _ _ hm _ => hs.exists_outline hm

/-! ## Calls that make no mapping -/

theorem ages_alloc (s : Space) (size blockSize : Nat) :
    Ages [] (Space.span size blockSize) s (s.alloc size blockSize).2 := by
  have hstill := s.alloc_still size blockSize
  have hsame : (s.alloc size blockSize).2.regions = s.regions ∧ (s.alloc size blockSize).2.cache = s.cache := by
    unfold alloc
    split
    · exact ⟨rfl, rfl⟩
    · split
      · exact ⟨rfl, rfl⟩
      · dsimp only
        split <;> exact ⟨rfl, rfl⟩
  have hi : Inherits s (s.alloc size blockSize).2 :=
    .of_eq hsame.1 (fun new hnew => hsame.2 ▸ hnew) hstill.mappings
  refine ⟨hstill.mappings ▸ .refl _, fun h => h.inherits hi, fun reach h hr => ?_⟩
  refine h.inherits hi (h.toPlaced.alloc hr) fun _ _ seg hm _ => ⟨seg, ?_, rfl⟩
  rcases h.toPlaced.alloc_cases hr with ⟨_, _, he⟩ | ⟨_, _, _, he⟩ <;> rw [he]
  · exact hm
  · exact List.mem_cons_of_mem _ hm

theorem ages_dealloc {base : Pointer} (hd : s.dealloc base = .ok s') : Ages [] 0 s s' := by
  have hplaced : ∀ {reach}, s.Placed reach → s'.Placed reach := fun h => h.dealloc hd
  rcases s.dealloc_cases base with ⟨_, he⟩ | ⟨_, _, he⟩ | ⟨_, _, he⟩ <;> rw [he] at hd <;> cases hd
  have hi : Inherits s { s with
      cache := s.cache.filter fun entry => entry.key.segment ≠ base
      segments := s.segments.filter fun seg => seg.base ≠ base } :=
    .of_eq rfl (fun new hnew => (List.mem_filter.1 hnew).1) rfl
  refine ⟨.refl _, fun h => h.inherits hi, fun reach h _ => h.inherits hi (hplaced h.toPlaced) ?_⟩
  intro new hnew seg hm hbase
  refine ⟨seg, List.mem_filter.2 ⟨hm, ?_⟩, rfl⟩
  rw [hbase]
  exact (List.mem_filter.1 hnew).2

theorem ages_put {new : Bytes} (hw : s.put ptr new = .ok s') : Ages [] 0 s s' := by
  have hi : Inherits s s' := by
    obtain ⟨_, _, _, _, _, rfl⟩ := put_cases hw
    exact .of_eq rfl (fun _ h => h) rfl
  exact ⟨(put_still hw).mappings ▸ .refl _, fun h => h.inherits hi,
    fun _ h _ => h.of_sameShape hi (h.toPlaced.put_sameShape hw)⟩

theorem ages_write {off : Nat} {new : Bytes} (hw : s.write id off new = .ok s') : Ages [] 0 s s' := by
  have hsame := write_sameHome hw
  rcases write_eq_ok hw with rfl | ⟨region, _, bytes, _, _, rfl⟩
  · exact .refl _
  · have hi := s.inherits_setRegion region bytes
    exact ⟨.refl _, fun h => h.inherits hi, fun reach h _ => h.of_sameShape hi hsame.sameShape⟩

/-! ## Mapping -/

/-- The region that is acquired is there, and all else is as it was. -/
theorem Housed.acquire (h : s.Housed) (seg : Segment) (key : RegionKey) (refresh : Bool) :
    (s.acquire seg key refresh).2.Housed ∧ ∀ region, (s.acquire seg key refresh).1 = .ok region →
      region < (s.acquire seg key refresh).2.regions.length := by
  have hcounted (t : Space) (n : Nat) : Inherits t (t.updateEntry key fun old => { old with refs := n }) :=
    t.inherits_updateEntry key fun _ => ⟨rfl, rfl⟩
  rcases s.acquire_cases seg key refresh with ⟨_, he⟩ | ⟨entry, hent, _, ⟨t, ht, he⟩ | ⟨_, _, he⟩⟩ |
    ⟨_, _, _, _, _, _, _, he⟩ <;> rw [he]
  · exact ⟨h, fun _ hok => by cases hok⟩
  · have hlt := h.cached entry (List.mem_of_find?_eq_some hent)
    rcases ht with ⟨_, rfl⟩ | ⟨fresh, _, _, _, _, _, rfl⟩
    · exact ⟨h.inherits (hcounted ..), fun _ hok => Except.ok.inj hok ▸ hlt⟩
    · refine ⟨h.inherits ((s.inherits_setRegion entry.region fresh).trans (hcounted ..)), fun _ hok => ?_⟩
      simpa [Space.setRegion, updateEntry, ← Except.ok.inj hok] using hlt
  · exact ⟨h.inherits (hcounted ..), fun _ hok => by cases hok⟩
  · refine ⟨⟨fun new hnew => ?_, fun old hold => ?_⟩, fun _ hok => ?_⟩
    · rw [List.length_append]
      rcases List.mem_append.1 hnew with hold | hnew
      · exact Nat.lt_add_right _ (h.cached new hold)
      · rw [List.mem_singleton.1 hnew]
        exact Nat.lt_succ_self _
    · rw [List.length_append]
      exact ⟨Nat.lt_add_right _ (h.mapped old hold).1, (h.mapped old hold).2⟩
    · rw [← Except.ok.inj hok, List.length_append]
      exact Nat.lt_succ_self _

/-- The region that is acquired for a run of blocks starts where the first of them does. -/
theorem Rooted.acquire (h : s.Rooted reach) (hm : seg ∈ s.segments) (first last : Nat) (refresh : Bool) :
    (s.acquire seg ⟨seg.base, first, last⟩ refresh).2.Rooted reach ∧
      ∀ id, (s.acquire seg ⟨seg.base, first, last⟩ refresh).1 = .ok id →
        ∃ region, (s.acquire seg ⟨seg.base, first, last⟩ refresh).2.regions[id]? = some region ∧
          region.base.addr = seg.base.addr + first * seg.blockSize := by
  have hhome := s.acquire_sameHome seg ⟨seg.base, first, last⟩ refresh
  have hcounted (t : Space) (n : Nat) :
      Inherits t (t.updateEntry ⟨seg.base, first, last⟩ fun old => { old with refs := n }) :=
    t.inherits_updateEntry _ fun _ => ⟨rfl, rfl⟩
  rcases s.acquire_cases seg ⟨seg.base, first, last⟩ refresh with ⟨_, he⟩ |
    ⟨entry, hent, _, ⟨t, ht, he⟩ | ⟨_, _, he⟩⟩ | ⟨_, start, stop, bytes, hrange, _, _, he⟩ <;>
    rw [he] at hhome ⊢
  · exact ⟨h, fun _ hok => by cases hok⟩
  · -- what is cached for the run was made for it, in the one segment at its base
    have hi : Inherits s t := by
      rcases ht with ⟨_, rfl⟩ | ⟨fresh, _, _, _, _, _, rfl⟩
      · exact .of_eq rfl (fun _ hm => hm) rfl
      · exact s.inherits_setRegion _ _
    refine ⟨h.of_sameShape (hi.trans (hcounted ..)) hhome.sameShape, fun id hok => ?_⟩
    obtain ⟨region, hr, hk, seg', hm', hbase, start, stop, hrange, haddr⟩ :=
      h.cached entry (List.mem_of_find?_eq_some hent)
    obtain ⟨region', hr', _, hb'⟩ := hi.regions _ region hr
    have hkey : entry.key = ⟨seg.base, first, last⟩ := by simpa using List.find?_some hent
    rw [hk, hkey] at hbase hrange
    obtain rfl := h.eq_of_base hm' hm hbase
    obtain ⟨rfl, _⟩ := Segment.blockRange_eq_ok hrange
    exact ⟨region', Except.ok.inj hok ▸ hr', by rw [hb', haddr]⟩
  · exact ⟨h.of_sameShape (hcounted ..) hhome.sameShape, fun _ hok => by cases hok⟩
  · refine ⟨⟨h.of_sameHome hhome, fun new hnew => ?_, fun old hold => ?_⟩, fun id hok => ?_⟩
    · rcases List.mem_append.1 hnew with hold | hnew
      · obtain ⟨region, hr, hk, hbased⟩ := h.cached new hold
        exact ⟨region, List.getElem?_append_left (List.getElem?_eq_some_iff.1 hr).1 ▸ hr, hk, hbased⟩
      · rw [List.mem_singleton.1 hnew]
        exact ⟨_, List.getElem?_concat_length, rfl, seg, hm, rfl, start, stop, hrange, rfl⟩
    · obtain ⟨region, hr, hle⟩ := h.inside old hold
      exact ⟨region, List.getElem?_append_left (List.getElem?_eq_some_iff.1 hr).1 ▸ hr, hle⟩
    · rw [← Except.ok.inj hok, (Segment.blockRange_eq_ok hrange).1.symm]
      exact ⟨_, List.getElem?_concat_length, rfl⟩

theorem lt_of_place {first last : Nat} (h : s.place ptr len access = .ok ⟨seg, first, last⟩) : len < Word.bound := by
  unfold place at h
  split at h
  · cases h
  · split at h
    · cases h
    · rw [locate_eq] at h
      cases hat : s.segmentAt ptr with
      | error fault => simp only [hat] at h; cases h
      | ok found =>
        cases hoff : found.offset ptr len with
        | error fault => simp [hat, hoff, Except.map] at h
        | ok off => exact Nat.lt_of_le_of_lt (Nat.le_add_left _ _) (Segment.offset_eq_ok.1 hoff).2.1

theorem ages_localize (s : Space) (ptr : Pointer) (len : Nat) (access : Access) (worker : WorkerId) :
    Ages [] 0 s (s.localize ptr len access worker).2 := by
  refine ⟨?_, fun h => ?_, fun reach h _ => ?_⟩
  · rcases s.localize_adds ptr len access worker with ⟨_, _, he, hs⟩ | ⟨_, _, he, hm, _⟩ <;> rw [he]
    · exact hs.mappings ▸ .refl _
    · exact hm ▸ .snoc _ rfl
  · rcases s.localize_cases ptr len access worker with ⟨_, he⟩ | ⟨seg, first, last, moved, hplace, _, _, he⟩
    · rw [he]
      exact h
    · have hstored : (s.storeSegment moved).Housed := h.inherits (.of_eq rfl (fun _ hm => hm) rfl)
      obtain ⟨hacq, hlt⟩ := hstored.acquire moved ⟨moved.base, first, last⟩ access.refreshes
      rcases he with ⟨_, t, ha, he⟩ | ⟨region, t, ha, he⟩ <;> rw [ha] at hacq hlt <;> rw [he]
      · exact hacq
      · refine ⟨hacq.cached, fun new hnew => ?_⟩
        rcases List.mem_append.1 hnew with hold | hnew
        · exact hacq.mapped new hold
        · rw [List.mem_singleton.1 hnew]
          exact ⟨hlt region rfl, lt_of_place hplace⟩
  · rcases s.localize_cases ptr len access worker with ⟨_, he⟩ | ⟨seg, first, last, moved, hplace, hc, hb, he⟩
    · rw [he]
      exact h
    · obtain ⟨_, _, off, hm, haddr, _, rfl, _⟩ := h.place_eq_ok.1 hplace
      have hstored : (s.storeSegment moved).Rooted reach :=
        h.of_sameShape (.of_eq rfl (fun _ hm => hm) rfl)
          (SameHome.sameShape ⟨rfl, h.map_storeSegment _ hm hb hc⟩)
      have hmoved : moved ∈ (s.storeSegment moved).segments := List.mem_map.2 ⟨seg, hm, by rw [if_pos hb.symm]⟩
      have hshape : moved.outline = seg.outline := by rw [← Segment.outline_contents, hc, Segment.outline_contents]
      obtain ⟨_, _, hblock, _⟩ := Segment.shape_of_outline hshape
      obtain ⟨hacq, hbase⟩ := hstored.acquire hmoved (seg.blockOf off) last access.refreshes
      rcases he with ⟨_, t, ha, he⟩ | ⟨region, t, ha, he⟩ <;> rw [ha] at hacq hbase <;> rw [he]
      · exact hacq
      · refine ⟨⟨hacq.nextAddr, hacq.page_le, hacq.reach_le, hacq.wellFormed, hacq.below, hacq.apart⟩,
          hacq.cached, fun new hnew => ?_⟩
        rcases List.mem_append.1 hnew with hold | hnew
        · exact hacq.inside new hold
        · obtain ⟨found, hr, hfound⟩ := hbase region rfl
          rw [List.mem_singleton.1 hnew]
          refine ⟨found, hr, ?_⟩
          rw [hfound, hb, hblock, haddr]
          exact Nat.add_le_add_left (Nat.div_mul_le_self off seg.blockSize) _

/-! ## Releasing -/

theorem ages_unlocalize (s : Space) (id : MappingId) :
    Ages (if id < s.mappings.length then [id] else []) 0 s (s.unlocalize id) :=
  ⟨s.mappings_unlocalize id ▸ .release _ _, fun h => h.inherits (s.inherits_unlocalize id),
    fun _ h _ => h.of_sameShape (s.inherits_unlocalize id) (s.unlocalize_sameHome id).sameShape⟩

theorem ages_unlocalizeAll (s : Space) (ids : List MappingId) :
    Ages (ids.filter (· < s.mappings.length)) 0 s (AddressSpace.unlocalizeAll s ids) := by
  induction ids generalizing s with
  | nil => exact .refl s
  | cons id rest ih =>
    have hlen : (s.unlocalize id).mappings.length = s.mappings.length := by rw [mappings_unlocalize, List.length_modify]
    have hrest := (s.ages_unlocalize id).trans (ih (s.unlocalize id))
    rw [hlen] at hrest
    by_cases hlt : id < s.mappings.length
    · rw [List.filter_cons_of_pos (by simpa using hlt)]
      rwa [if_pos hlt] at hrest
    · rw [List.filter_cons_of_neg (by simpa using hlt)]
      rwa [if_neg hlt] at hrest

/-- The mappings that a call makes and takes back: if it is refused, all that it made. -/
def takenBack (s : Space) (ranges : List Range) (access : Access) (worker : WorkerId) : List MappingId :=
  match AddressSpace.localizeAll s ranges access worker with
  | (.error (.refused _), s') => List.range' s.mappings.length (s'.mappings.length - s.mappings.length)
  | _ => []

/-- A call for several ranges releases what it made if it is refused, and nothing otherwise. -/
theorem ages_localizeRest (access : Access) (worker : WorkerId) {made : List MappingId} (ranges : List Range)
    (hv : ∀ id ∈ made, id < s.mappings.length) :
    (∃ error s' n, AddressSpace.localizeRest access worker made ranges s = (.error (.refused error), s') ∧
      s'.mappings.length = s.mappings.length + n ∧ Ages (made ++ List.range' s.mappings.length n) 0 s s') ∨
    ∃ answer s', AddressSpace.localizeRest access worker made ranges s = (answer, s') ∧ Fault.Grants answer ∧
      Ages [] 0 s s' := by
  induction ranges generalizing s made with
  | nil => exact .inr ⟨_, s, rfl, Fault.grants_ok _, .refl s⟩
  | cons range rest ih =>
    have hclass : AddressSpace.localize s = s.localize := rfl
    have hage := s.ages_localize range.start range.len access worker
    simp only [AddressSpace.localizeRest, hclass]
    rcases s.localize_adds range.start range.len access worker with ⟨fault, t, he, hs⟩ | ⟨region, t, he, hm, _⟩ <;>
      rw [he] at hage ⊢
    · cases fault with
      | panicked payload => exact .inr ⟨_, t, rfl, Fault.grants_panicked payload, hage⟩
      | refused error =>
        have hall : made.filter (· < t.mappings.length) = made :=
          List.filter_eq_self.2 fun id hid => by simpa [hs.mappings] using hv id hid
        have hfreed := hage.trans (t.ages_unlocalizeAll made)
        rw [hall] at hfreed
        refine .inl ⟨error, _, 0, rfl, ?_, by simpa using hfreed⟩
        rw [mappings_unlocalizeAll, List.length_mapIdx, hs.mappings, Nat.add_zero]
    · have hlen : t.mappings.length = s.mappings.length + 1 := by simp [hm]
      have hv' : ∀ id ∈ made ++ [s.mappings.length], id < t.mappings.length := by
        intro id hid
        rw [hlen]
        rcases List.mem_append.1 hid with hid | hid
        · exact Nat.lt_succ_of_lt (hv id hid)
        · exact List.mem_singleton.1 hid ▸ Nat.lt_succ_self _
      rcases ih hv' with ⟨error, u, n, hu, hn, hrest⟩ | ⟨answer, u, hu, hgrants, hrest⟩
      · refine .inl ⟨error, u, n + 1, hu, by omega, ?_⟩
        have hboth := hage.trans hrest
        rwa [hlen, List.append_assoc, List.singleton_append, ← List.range'_succ] at hboth
      · exact .inr ⟨answer, u, hu, hgrants, hage.trans hrest⟩

theorem ages_localizeAll (s : Space) (ranges : List Range) (access : Access) (worker : WorkerId) :
    Ages (s.takenBack ranges access worker) 0 s (AddressSpace.localizeAll s ranges access worker).2 := by
  have hnone : ∀ id ∈ ([] : List MappingId), id < s.mappings.length := by simp
  rcases s.ages_localizeRest access worker ranges hnone with ⟨error, s', n, he, hn, h⟩ |
    ⟨answer, s', he, hgrants, h⟩ <;> unfold takenBack AddressSpace.localizeAll <;> rw [he]
  · simpa [hn] using h
  · rcases answer with ⟨error | payload⟩ | ids
    · exact absurd rfl (hgrants error)
    · exact h
    · exact h

/-! ## Access -/

theorem not_fits {off : Nat} {new : Bytes} (hl : len < Word.bound) :
    fits off new.length len = false ↔ len < off + new.length := by
  unfold fits Word.add?
  by_cases hlt : off + new.length < Word.bound
  · simp [hlt]
  · simp [hlt]
    omega

theorem write_dead (hm : s.mappings[id]? = some mapping) (hlen : mapping.len < Word.bound) (hl : mapping.live = false)
    (off : Nat) (new : Bytes) : s.write id off new = .error (.refused (mapping.refusal off new)) := by
  have hfits : fits off new.length mapping.len = false ↔ mapping.len < off + new.length := not_fits hlen
  unfold write Mapping.refusal
  simp only [hm, hl]
  cases mapping.access.isWritable with
  | false => rfl
  | true =>
    by_cases hout : mapping.len < off + new.length
    · simp [hfits.2 hout, hout]
    · have hin : fits off new.length mapping.len = true := by simpa using mt hfits.1 hout
      simp [hin, hout]

/-- Where a write lands: at its place from the start of the mapping, or of the region if that is higher. -/
theorem Housed.write_lands (h : s.Housed) (hm : s.mappings[id]? = some mapping) {off : Nat} {new : Bytes}
    (hw : s.write id off new = .ok s') : mapping.access.isWritable = true ∧ mapping.live = true ∧
      off + new.length ≤ mapping.len ∧ ∃ region bytes, s.regions[mapping.region]? = some region ∧
        region.Overwritten (max mapping.start.addr region.base.addr + off) new bytes ∧
        s' = s.setRegion mapping.region bytes := by
  rcases write_cases hw with ⟨hnone, _⟩ | ⟨found, hfound, hwritable, hlive, hle, hlands⟩
  · cases hnone.symm.trans hm
  · obtain rfl := Option.some.inj (hfound.symm.trans hm)
    refine ⟨hwritable, hlive, hle, ?_⟩
    rcases hlands with ⟨hnone, _⟩ | ⟨region, bytes, hr, hsplice, rfl⟩
    · exact absurd (h.mapped found (List.mem_of_getElem? hm)).1 (Nat.not_lt_of_le (List.getElem?_eq_none_iff.1 hnone))
    · have hover := Region.overwritten hsplice
      have hplace : region.base.addr + (regionOffset found region + off) =
          max found.start.addr region.base.addr + off := by
        unfold regionOffset Pointer.offsetFrom
        split <;> simp only [Option.getD_some, Option.getD_none] <;> omega
      exact ⟨region, bytes, hr, hplace ▸ hover, rfl⟩

end Space

end TaskSpace

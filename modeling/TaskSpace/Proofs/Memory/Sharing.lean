import TaskSpace.Proofs.Memory.Client

/-!
# Mappings share regions

`Space.Shared` is the invariant of the cache: every mapping of a list shares the region that the
cache keeps for the blocks of its range, and every cached region has as many users as there are
mappings of the list that share it.
-/

namespace TaskSpace

variable {s s' : Space} {handles : List MappingId} {ptr : Pointer} {len : Nat} {access : Access}
  {key : RegionKey} {seg seg' : Segment}

/-! ## Runs of blocks -/

namespace Segment

theorem shape_of_outline (h : seg'.outline = seg.outline) :
    seg'.base = seg.base ∧ seg'.size = seg.size ∧ seg'.blockSize = seg.blockSize ∧
      seg'.bytes.length = seg.bytes.length := by
  simp only [outline, contents, mk.injEq] at h
  refine ⟨h.1, h.2.1, h.2.2.1, ?_⟩
  simpa [Bytes.zeros] using congrArg List.length h.2.2.2.2

theorem blockRange_of_outline (h : seg'.outline = seg.outline) (first last : Nat) :
    seg'.blockRange first last = seg.blockRange first last := by
  obtain ⟨_, hs, hb, _⟩ := shape_of_outline h
  simp only [blockRange, hs, hb]

theorem load_eq_ok {first last : Nat} {bytes : Bytes} (h : seg.load first last = .ok bytes) :
    ∃ start stop, seg.blockRange first last = .ok (start, stop) ∧
      start ≤ stop ∧ stop ≤ seg.bytes.length ∧ bytes.length = stop - start := by
  unfold load at h
  cases hr : seg.blockRange first last with
  | error fault => simp only [hr] at h; cases h
  | ok range =>
    obtain ⟨start, stop⟩ := range
    simp only [hr] at h
    have hs := Bytes.slice_eq_ok.1 h
    exact ⟨start, stop, rfl, hs.1.1, hs.1.2, Bytes.length_slice h⟩

theorem exists_load {first last start stop : Nat} (h : seg.blockRange first last = .ok (start, stop))
    (hs : start ≤ stop) (ht : stop ≤ seg.bytes.length) :
    ∃ bytes, seg.load first last = .ok bytes ∧ bytes.length = stop - start := by
  have hsl := Bytes.slice_eq_ok.2 ⟨⟨hs, ht⟩, rfl⟩
  exact ⟨_, by simp only [load, h]; exact hsl, Bytes.length_slice hsl⟩

end Segment

namespace Space

/-- A range touches exactly the blocks of `key`, all of one segment. -/
def Touches (s : Space) (ptr : Pointer) (len : Nat) (key : RegionKey) : Prop :=
  ∃ seg ∈ s.segments, ∃ off, ptr.addr = seg.base.addr + off ∧ off < seg.size ∧
    off + len ≤ seg.size ∧ key = ⟨seg.base, seg.blockOf off, seg.blockOf (off + len - 1)⟩

/-- A region is as long as its blocks, which a segment has. -/
def Backs (s : Space) (region : Region) : Prop :=
  ∃ seg ∈ s.segments, seg.base = region.key.segment ∧
    ∃ start stop, seg.blockRange region.key.first region.key.last = .ok (start, stop) ∧
      start ≤ stop ∧ stop ≤ seg.bytes.length ∧ region.bytes.length = stop - start

/-- The handles of which the mappings share a region. -/
def users (mappings : List Mapping) (handles : List MappingId) (region : RegionId) : Nat :=
  handles.countP fun h => (mappings[h]?.map Mapping.region) = some region

structure Shared (s : Space) (handles : List MappingId) : Prop where
  nodup : handles.Nodup
  keys : (s.cache.map CacheEntry.key).Nodup
  held : ∀ h ∈ handles, ∃ mapping entry, s.mappings[h]? = some mapping ∧ mapping.live = true ∧
    entry ∈ s.cache ∧ entry.region = mapping.region ∧ s.Touches mapping.start mapping.len entry.key
  backed : ∀ entry ∈ s.cache, ∃ region, s.regions[entry.region]? = some region ∧
    region.key = entry.key ∧ s.Backs region
  refs : ∀ entry ∈ s.cache, entry.refs = users s.mappings handles entry.region
  used : ∀ entry ∈ s.cache, 0 < entry.refs

theorem shared_new (numHomes : Nat) : (new numHomes).Shared [] where
  nodup := .nil
  keys := .nil
  held := by simp
  backed := by simp [new]
  refs := by simp [new]
  used := by simp [new]

/-! ## The cache as a table -/

theorem eq_of_key {cache : List CacheEntry} {entry entry' : CacheEntry}
    (hk : (cache.map CacheEntry.key).Nodup) (hm : entry ∈ cache) (hm' : entry' ∈ cache)
    (he : entry.key = entry'.key) : entry = entry' := by
  obtain ⟨i, hi⟩ := List.mem_iff_getElem?.1 hm
  obtain ⟨j, hj⟩ := List.mem_iff_getElem?.1 hm'
  have hkeys : (cache.map CacheEntry.key)[i]? = (cache.map CacheEntry.key)[j]? := by
    rw [List.getElem?_map, List.getElem?_map, hi, hj, Option.map_some, Option.map_some, he]
  have hlt : i < (cache.map CacheEntry.key).length := by
    rw [List.length_map]
    exact (List.getElem?_eq_some_iff.1 hi).1
  obtain rfl := (List.getElem?_inj hlt hk).1 hkeys
  exact Option.some.inj (hi.symm.trans hj)

theorem entry?_eq_some (hk : (s.cache.map CacheEntry.key).Nodup) {entry : CacheEntry} :
    s.entry? key = some entry ↔ entry ∈ s.cache ∧ entry.key = key := by
  unfold entry?
  constructor
  · intro h
    exact ⟨List.mem_of_find?_eq_some h, by simpa using List.find?_some h⟩
  · rintro ⟨hm, rfl⟩
    cases hf : s.cache.find? fun old => old.key = entry.key with
    | none => simpa using List.find?_eq_none.1 hf entry hm
    | some found =>
      have he : found.key = entry.key := by simpa using List.find?_some hf
      rw [eq_of_key hk (List.mem_of_find?_eq_some hf) hm he]

theorem entry?_eq_none (h : s.entry? key = none) : ∀ entry ∈ s.cache, entry.key ≠ key := by
  unfold entry? at h
  simpa using h

theorem keys_updateEntry (s : Space) (key : RegionKey) {f : CacheEntry → CacheEntry}
    (hf : ∀ old : CacheEntry, (f old).key = old.key) :
    (s.updateEntry key f).cache.map CacheEntry.key = s.cache.map CacheEntry.key := by
  simp only [updateEntry, List.map_map]
  refine List.map_congr_left fun old _ => ?_
  simp only [Function.comp_apply]
  split
  · exact hf old
  · rfl

variable {entry entry' : CacheEntry}

theorem Shared.eq_of_key (h : s.Shared handles) (hm : entry ∈ s.cache) (hm' : entry' ∈ s.cache)
    (he : entry.key = entry'.key) : entry = entry' :=
  Space.eq_of_key h.keys hm hm' he

theorem Shared.eq_of_region (h : s.Shared handles) (hm : entry ∈ s.cache)
    (hm' : entry' ∈ s.cache) (he : entry.region = entry'.region) : entry = entry' := by
  obtain ⟨region, hr, hk, _⟩ := h.backed entry hm
  obtain ⟨region', hr', hk', _⟩ := h.backed entry' hm'
  rw [he, hr', Option.some.injEq] at hr
  exact h.eq_of_key hm hm' (by rw [← hk, ← hk', hr])

theorem Shared.handle_lt (h : s.Shared handles) {id : MappingId} (hm : id ∈ handles) :
    id < s.mappings.length := by
  obtain ⟨mapping, _, hmap, _⟩ := h.held id hm
  exact (List.getElem?_eq_some_iff.1 hmap).1

/-! ## Changes that no handle notices -/

theorem Touches.mono (ht : s.Touches ptr len key)
    (hs : ∀ seg ∈ s.segments, seg.base = key.segment → ∃ seg' ∈ s'.segments, seg'.outline = seg.outline) :
    s'.Touches ptr len key := by
  obtain ⟨seg, hm, off, ha, hlt, hle, rfl⟩ := ht
  obtain ⟨seg', hm', ho⟩ := hs seg hm rfl
  obtain ⟨hb, hsz, hbs, _⟩ := Segment.shape_of_outline ho
  exact ⟨seg', hm', off, by rw [hb, ha], by rw [hsz]; exact hlt, by rw [hsz]; exact hle,
    by simp only [Segment.blockOf, hb, hbs]⟩

theorem Backs.mono {region region' : Region} (hb : s.Backs region) (hk : region'.key = region.key)
    (hl : region'.bytes.length = region.bytes.length)
    (hs : ∀ seg ∈ s.segments, seg.base = region.key.segment →
      ∃ seg' ∈ s'.segments, seg'.outline = seg.outline) : s'.Backs region' := by
  obtain ⟨seg, hm, hbase, start, stop, hr, hle, hstop, hlen⟩ := hb
  obtain ⟨seg', hm', ho⟩ := hs seg hm hbase
  obtain ⟨hb, _, _, hbytes⟩ := Segment.shape_of_outline ho
  exact ⟨seg', hm', by rw [hb, hk, hbase], start, stop,
    by rw [hk, Segment.blockRange_of_outline ho, hr], hle, by rw [hbytes]; exact hstop, by rw [hl, hlen]⟩

/-- The account stays as it is when neither the cache nor a mapping changes, regions keep their
length, and the segments of cached regions keep their shape. -/
theorem Shared.frame (h : s.Shared handles) (hc : s'.cache = s.cache)
    (hm : s'.mappings = s.mappings)
    (hr : ∀ (id : RegionId) (region : Region), s.regions[id]? = some region →
      ∃ region' : Region, s'.regions[id]? = some region' ∧
        region'.key = region.key ∧ region'.bytes.length = region.bytes.length)
    (hs : ∀ entry ∈ s.cache, ∀ seg ∈ s.segments, seg.base = entry.key.segment →
      ∃ seg' ∈ s'.segments, seg'.outline = seg.outline) :
    s'.Shared handles where
  nodup := h.nodup
  keys := hc ▸ h.keys
  held id hid := by
    obtain ⟨mapping, entry, hmap, hlive, hent, hreg, ht⟩ := h.held id hid
    exact ⟨mapping, entry, hm ▸ hmap, hlive, hc ▸ hent, hreg, ht.mono (hs entry hent)⟩
  backed entry hent := by
    rw [hc] at hent
    obtain ⟨region, hreg, hk, hb⟩ := h.backed entry hent
    obtain ⟨region', hreg', hk', hlen⟩ := hr _ _ hreg
    exact ⟨region', hreg', hk'.trans hk, hb.mono hk' hlen (hk ▸ hs entry hent)⟩
  refs entry hent := by
    rw [hc] at hent
    rw [hm]; exact h.refs entry hent
  used entry hent := h.used entry (hc ▸ hent)

theorem regions_keep (s : Space) (id : RegionId) (region : Region)
    (h : s.regions[id]? = some region) : ∃ region' : Region, s.regions[id]? = some region' ∧
      region'.key = region.key ∧ region'.bytes.length = region.bytes.length :=
  ⟨region, h, rfl, rfl⟩

theorem Shared.of_sameShape (h : s.Shared handles) (hc : s'.cache = s.cache)
    (hm : s'.mappings = s.mappings) (hr : s'.regions = s.regions)
    (ho : SameShape s s') : s'.Shared handles :=
  h.frame hc hm (by rw [hr]; exact s.regions_keep) fun _ _ _ hseg _ => ho.exists_outline hseg

theorem Shared.setRegion (h : s.Shared handles) {id : RegionId} {old : Region} {bytes : Bytes}
    (ho : s.regions[id]? = some old) (hl : bytes.length = old.bytes.length) :
    (s.setRegion id bytes).Shared handles := by
  refine h.frame rfl rfl (fun other region hr => ?_) fun _ _ seg hseg _ => ⟨seg, hseg, rfl⟩
  simp only [Space.setRegion, List.getElem?_modify, hr]
  refine ⟨_, rfl, ?_⟩
  split
  · rename_i he
    subst he
    rw [ho, Option.some.injEq] at hr
    subst hr
    exact ⟨rfl, hl⟩
  · exact ⟨rfl, rfl⟩

/-! ## Segments come and go -/

/-- A cached region has users, so a segment in which there are none has no cached region. -/
theorem Shared.not_cached (h : s.Shared handles) {base : Pointer} (h0 : s.refsIn base = 0) :
    ∀ entry ∈ s.cache, entry.key.segment ≠ base := by
  intro entry hent hbase
  have hmem : entry.refs ∈
      (s.cache.filter fun entry => entry.key.segment = base).map CacheEntry.refs :=
    List.mem_map_of_mem (List.mem_filter.2 ⟨hent, by simpa using hbase⟩)
  have hle : entry.refs ≤ s.refsIn base := Word.le_total hmem
  exact Nat.not_lt_of_le (h0 ▸ hle) (h.used entry hent)

theorem Shared.filter_cache (h : s.Shared handles) {base : Pointer} (h0 : s.refsIn base = 0) :
    (s.cache.filter fun entry => entry.key.segment ≠ base) = s.cache :=
  List.filter_eq_self.2 (by simpa using h.not_cached h0)

theorem Shared.dealloc (h : s.Shared handles) {base : Pointer} (hd : s.dealloc base = .ok s') :
    s'.Shared handles := by
  rcases s.dealloc_cases base with ⟨_, he⟩ | ⟨_, _, he⟩ | ⟨_, h0, he⟩ <;> rw [he] at hd <;> cases hd
  refine h.frame (h.filter_cache h0) rfl s.regions_keep fun entry hent seg hseg hb => ?_
  have hne : seg.base ≠ base := hb ▸ h.not_cached h0 entry hent
  exact ⟨seg, List.mem_filter.2 ⟨hseg, by simpa using hne⟩, rfl⟩

theorem Shared.alloc (h : s.Shared handles) {reach size blockSize : Nat} (hp : s.Placed reach)
    (hr : reach + span size blockSize ≤ Word.bound) : (s.alloc size blockSize).2.Shared handles := by
  rcases hp.alloc_cases hr with ⟨_, _, he⟩ | ⟨_, _, _, he⟩ <;> rw [he]
  · exact h.frame rfl rfl s.regions_keep fun _ _ seg hseg _ => ⟨seg, hseg, rfl⟩
  · exact h.frame rfl rfl s.regions_keep fun _ _ seg hseg _ =>
      ⟨seg, List.mem_cons_of_mem _ hseg, rfl⟩

theorem Shared.put (h : s.Shared handles) {reach : Nat} (hp : s.Placed reach) {new : Bytes}
    (hw : s.put ptr new = .ok s') : s'.Shared handles := by
  have hshape := hp.put_sameShape hw
  cases hl : s.locate ptr new.length with
  | error fault => rw [put_of_error hl] at hw; cases hw
  | ok found =>
    rw [hp.put_eq hl] at hw; cases hw
    exact h.of_sameShape rfl rfl rfl hshape

theorem Shared.write (h : s.Shared handles) {id : MappingId} {off : Nat} {new : Bytes}
    (hw : s.write id off new = .ok s') : s'.Shared handles := by
  rcases write_eq_ok hw with rfl | ⟨_, _, _, hreg, hlen, rfl⟩
  · exact h
  · exact h.setRegion hreg hlen

/-! ## A new handle -/

theorem users_append (mappings : List Mapping) (mapping : Mapping) {handles : List MappingId}
    (hlt : ∀ id ∈ handles, id < mappings.length) (region : RegionId) :
    users (mappings ++ [mapping]) (handles ++ [mappings.length]) region =
      users mappings handles region + if mapping.region = region then 1 else 0 := by
  have hold : ∀ id ∈ handles, (mappings ++ [mapping])[id]? = mappings[id]? := fun id hid =>
    List.getElem?_append_left (hlt id hid)
  simp only [users, List.countP_append, List.countP_singleton]
  congr 1
  · exact List.countP_congr fun id hid => by rw [hold id hid]
  · simp

def withMapping (s : Space) (mapping : Mapping) : Space :=
  { s with mappings := s.mappings ++ [mapping], live := Word.wrap (s.live + 1) }

variable {mapping : Mapping}

/-- One more handle is in the account when the entry of its region has one more user. -/
theorem Shared.withMapping (h : s.Shared handles)
    (hs : s'.segments = s.segments) (hm : s'.mappings = s.mappings)
    (hkeys : (s'.cache.map CacheEntry.key).Nodup)
    (hkept : ∀ entry ∈ s.cache, ∃ entry' ∈ s'.cache, entry'.key = entry.key ∧
      entry'.region = entry.region)
    (hbacked : ∀ entry ∈ s'.cache, ∃ region, s'.regions[entry.region]? = some region ∧
      region.key = entry.key ∧ s.Backs region)
    (hrefs : ∀ entry ∈ s'.cache, entry.refs =
      users s.mappings handles entry.region + if mapping.region = entry.region then 1 else 0)
    (hused : ∀ entry ∈ s'.cache, 0 < entry.refs)
    (hnew : ∃ entry ∈ s'.cache, entry.region = mapping.region ∧
      s.Touches mapping.start mapping.len entry.key)
    (hlive : mapping.live = true) :
    (s'.withMapping mapping).Shared (handles ++ [s.mappings.length]) where
  nodup := by
    refine List.nodup_append.2 ⟨h.nodup, List.pairwise_singleton _ _, fun id hid new hnew => ?_⟩
    rw [List.mem_singleton.1 hnew]
    exact Nat.ne_of_lt (h.handle_lt hid)
  keys := hkeys
  held id hid := by
    have hmono : ∀ {ptr len key}, s.Touches ptr len key → (s'.withMapping mapping).Touches ptr len key :=
      fun ht => ht.mono fun seg hseg _ => ⟨seg, hs ▸ hseg, rfl⟩
    simp only [Space.withMapping, hm]
    rcases List.mem_append.1 hid with hid | hid
    · obtain ⟨old, entry, hmap, hlive, hent, hreg, ht⟩ := h.held id hid
      obtain ⟨entry', hent', hk, hr⟩ := hkept entry hent
      refine ⟨old, entry', ?_, hlive, hent', hr.trans hreg, hk ▸ hmono ht⟩
      rw [List.getElem?_append_left (h.handle_lt hid), hmap]
    · obtain ⟨entry, hent, hreg, ht⟩ := hnew
      rw [List.mem_singleton.1 hid]
      exact ⟨mapping, entry, List.getElem?_concat_length, hlive, hent, hreg, hmono ht⟩
  backed entry hent := by
    obtain ⟨region, hreg, hk, hb⟩ := hbacked entry hent
    exact ⟨region, hreg, hk, hb.mono rfl rfl fun seg hseg _ => ⟨seg, hs ▸ hseg, rfl⟩⟩
  refs entry hent := by
    simp only [Space.withMapping, hm]
    rw [users_append _ _ (fun id hid => h.handle_lt hid)]
    exact hrefs entry hent
  used := hused

/-- A handle joins those that share a cached region. -/
theorem Shared.join (h : s.Shared handles) (mapping : Mapping) {entry : CacheEntry} (he : entry ∈ s.cache) (hr : mapping.region = entry.region)
    (hlive : mapping.live = true) (ht : s.Touches mapping.start mapping.len entry.key) :
    ((s.updateEntry entry.key fun old => { old with refs := entry.refs + 1 }).withMapping
      mapping).Shared (handles ++ [s.mappings.length]) := by
  have hcache : ∀ new ∈ (s.updateEntry entry.key fun old => { old with refs := entry.refs + 1 }).cache,
      (new ∈ s.cache ∧ new.region ≠ entry.region) ∨ new = { entry with refs := entry.refs + 1 } := by
    intro new hnew
    obtain ⟨old, hold, rfl⟩ := List.mem_map.1 hnew
    split
    · rename_i hk
      rw [h.eq_of_key hold he hk]
      exact .inr rfl
    · rename_i hk
      exact .inl ⟨hold, fun hreg => hk (by rw [h.eq_of_region hold he hreg])⟩
  have hself : { entry with refs := entry.refs + 1 } ∈
      (s.updateEntry entry.key fun old => { old with refs := entry.refs + 1 }).cache :=
    List.mem_map.2 ⟨entry, he, by simp⟩
  refine h.withMapping rfl rfl ?_ ?_ ?_ ?_ ?_ ⟨_, hself, hr.symm, ht⟩ hlive
  · rw [keys_updateEntry s entry.key (by exact fun _ => rfl)]
    exact h.keys
  · intro old hold
    refine ⟨_, List.mem_map.2 ⟨old, hold, rfl⟩, ?_⟩
    split <;> exact ⟨rfl, rfl⟩
  · intro new hnew
    rcases hcache new hnew with ⟨hold, _⟩ | rfl
    · exact h.backed new hold
    · exact h.backed entry he
  · intro new hnew
    rcases hcache new hnew with ⟨hold, hne⟩ | rfl
    · rw [if_neg (fun he => hne (he.symm.trans hr)), h.refs new hold]; rfl
    · rw [if_pos hr]
      simp only [h.refs entry he]
  · intro new hnew
    rcases hcache new hnew with ⟨hold, _⟩ | rfl
    · exact h.used new hold
    · exact Nat.succ_pos _

theorem Shared.found (h : s.Shared handles) (mapping : Mapping) (region : Region) (hn : s.entry? region.key = none) (hb : s.Backs region)
    (hr : mapping.region = s.regions.length) (hlive : mapping.live = true)
    (ht : s.Touches mapping.start mapping.len region.key) :
    (Space.withMapping { s with
      regions := s.regions ++ [region]
      cache := s.cache ++ [{ key := region.key, region := s.regions.length, refs := 1 }] }
      mapping).Shared (handles ++ [s.mappings.length]) := by
  have hlt : ∀ entry ∈ s.cache, entry.region < s.regions.length := by
    intro entry hent
    obtain ⟨old, hreg, _⟩ := h.backed entry hent
    exact (List.getElem?_eq_some_iff.1 hreg).1
  have hnone : users s.mappings handles s.regions.length = 0 := by
    refine List.countP_eq_zero.2 fun id hid => ?_
    obtain ⟨old, entry, hmap, _, hent, hreg, _⟩ := h.held id hid
    simp only [hmap, Option.map_some, Option.some.injEq, decide_eq_true_eq]
    exact Nat.ne_of_lt (hreg ▸ hlt entry hent)
  have hself : (⟨region.key, s.regions.length, 1⟩ : CacheEntry) ∈
      s.cache ++ [⟨region.key, s.regions.length, 1⟩] := List.mem_concat_self
  refine h.withMapping rfl rfl ?_ ?_ ?_ ?_ ?_ ⟨_, hself, hr.symm, ht⟩ hlive
  · simp only [List.map_append, List.map_cons, List.map_nil]
    refine List.nodup_append.2 ⟨h.keys, List.pairwise_singleton _ _, fun key hkey new hnew => ?_⟩
    obtain ⟨entry, hent, rfl⟩ := List.mem_map.1 hkey
    rw [List.mem_singleton.1 hnew]
    exact entry?_eq_none hn entry hent
  · exact fun entry hent => ⟨entry, List.mem_append_left _ hent, rfl, rfl⟩
  · intro entry hent
    rcases List.mem_append.1 hent with hent | hent
    · obtain ⟨old, hreg, hk, hb⟩ := h.backed entry hent
      exact ⟨old, by rw [List.getElem?_append_left (hlt entry hent), hreg], hk, hb⟩
    · rw [List.mem_singleton.1 hent]
      exact ⟨region, List.getElem?_concat_length, rfl, hb⟩
  · intro entry hent
    rcases List.mem_append.1 hent with hent | hent
    · have hne : mapping.region ≠ entry.region := hr ▸ (Nat.ne_of_lt (hlt entry hent)).symm
      rw [if_neg hne, h.refs entry hent]; rfl
    · rw [List.mem_singleton.1 hent]
      simp only [hr, hnone, if_true]
  · intro entry hent
    rcases List.mem_append.1 hent with hent | hent
    · exact h.used entry hent
    · rw [List.mem_singleton.1 hent]
      exact Nat.one_pos

variable {reach : Nat}

theorem Placed.touches (h : s.Placed reach) {first last : Nat}
    (hp : s.place ptr len access = .ok ⟨seg, first, last⟩) :
    seg ∈ s.segments ∧ s.Touches ptr len ⟨seg.base, first, last⟩ := by
  obtain ⟨_, hpos, off, hm, ha, hle, rfl, rfl⟩ := h.place_eq_ok.1 hp
  exact ⟨hm, seg, hm, off, ha, by omega, hle, rfl⟩

/-- Whatever `acquire` is asked, a cached region can be loaded again. -/
theorem Shared.exists_load (h : s.Shared handles) (hp : s.Placed reach) {entry : CacheEntry}
    (he : entry ∈ s.cache) (hm : seg ∈ s.segments) (hs : entry.key.segment = seg.base) :
    ∃ fresh region, seg.load entry.key.first entry.key.last = .ok fresh ∧
      s.regions[entry.region]? = some region ∧ fresh.length = region.bytes.length := by
  obtain ⟨region, hreg, hk, seg', hm', hbase, start, stop, hr, hle, hstop, hlen⟩ := h.backed entry he
  rw [hp.eq_of_base hm' hm (by rw [hbase, hk, hs])] at hr hstop
  obtain ⟨fresh, hload, hfresh⟩ := Segment.exists_load hr hle hstop
  exact ⟨fresh, region, hk ▸ hload, hreg, hfresh.trans hlen.symm⟩

theorem Placed.place_refused (h : s.Placed reach) {fault : Fault}
    (he : s.place ptr len access = .error fault) : ∃ error, fault = .refused error := by
  unfold place at he
  split at he
  · cases he; exact ⟨_, rfl⟩
  · split at he
    · cases he; exact ⟨_, rfl⟩
    · split at he
      · rename_i hl
        cases he; exact h.locate_refused hl
      · cases he

/-- Blocks may move before a range is mapped; the segment stays where it is, with its shape. -/
theorem Placed.storeMoved (hp : s.Placed reach) {moved : Segment} (hm : seg ∈ s.segments)
    (hc : moved.contents = seg.contents) (hb : moved.base = seg.base) :
    SameShape s (s.storeSegment moved) ∧ moved ∈ (s.storeSegment moved).segments := by
  refine ⟨⟨rfl, hp.map_storeSegment _ hm hb ?_⟩, List.mem_map.2 ⟨seg, hm, by simp [hb]⟩⟩
  rw [← Segment.outline_contents, hc, Segment.outline_contents]

/-- A mapping that is made puts its handle in the account; one that is not changes nothing there. -/
theorem Shared.localize (h : s.Shared handles) (hp : s.Placed reach) (ptr : Pointer) (len : Nat)
    (access : Access) (worker : WorkerId) :
    (∃ fault s', s.localize ptr len access worker = (.error fault, s') ∧ s'.Shared handles) ∨
    ∃ id s', s.localize ptr len access worker = (.ok id, s') ∧ s'.Shared (handles ++ [id]) := by
  rcases s.localize_cases ptr len access worker with ⟨fault, he⟩ |
    ⟨seg, first, last, moved, hplace, hc, hb, he⟩
  · exact .inl ⟨fault, s, he, h⟩
  obtain ⟨hseg, ht⟩ := hp.touches hplace
  obtain ⟨ho, hmoved⟩ := hp.storeMoved hseg hc hb
  have hp : (s.storeSegment moved).Placed reach := hp.of_sameShape ho
  have h : (s.storeSegment moved).Shared handles := h.of_sameShape rfl rfl rfl ho
  have ht : (s.storeSegment moved).Touches ptr len ⟨moved.base, first, last⟩ := by
    rw [hb]
    exact ht.mono fun old hold _ => List.mem_map.1 (ho.outline ▸ List.mem_map_of_mem hold)
  rcases acquire_cases (s.storeSegment moved) moved ⟨moved.base, first, last⟩ access.refreshes with
    ⟨_, hacq⟩ | ⟨entry, hent, _, hacq⟩ | ⟨hnone, start, stop, bytes, hrange, _, hload, hacq⟩
  · rcases he with ⟨_, _, ha, he⟩ | ⟨_, _, ha, _⟩ <;> rw [hacq] at ha <;> cases ha
    exact .inl ⟨_, _, he, h⟩
  · obtain ⟨hmem, hkey⟩ := (entry?_eq_some h.keys).1 hent
    rcases hacq with ⟨t, hst, hacq⟩ | ⟨hbad, _⟩
    · rcases he with ⟨_, _, ha, _⟩ | ⟨region, t', ha, he⟩ <;> rw [hacq] at ha <;> cases ha
      refine .inr ⟨_, _, he, ?_⟩
      have hcount : t.Shared handles ∧ t.cache = s.cache ∧ t.mappings = s.mappings ∧
          t.segments = (s.storeSegment moved).segments := by
        rcases hst with ⟨_, rfl⟩ | ⟨fresh, region, _, _, hreg, hlen, rfl⟩
        · exact ⟨h, rfl, rfl, rfl⟩
        · exact ⟨h.setRegion hreg hlen, rfl, rfl, rfl⟩
      obtain ⟨hcount, hcache, hmap, hsegs⟩ := hcount
      rw [← hkey] at ht ⊢
      exact hcount.join ⟨ptr, len, access, entry.region, true⟩ (hcache ▸ hmem) rfl rfl
        (ht.mono fun old hold _ => ⟨old, hsegs ▸ hold, rfl⟩)
    -- the region has the length of its blocks, so reloading it cannot fail
    · obtain ⟨fresh, region, hload, hreg, hlen⟩ := h.exists_load hp hmem hmoved (by rw [hkey])
      rw [hkey] at hload
      exact absurd hlen (hbad fresh region hload hreg)
  · rcases he with ⟨_, _, ha, _⟩ | ⟨region, t', ha, he⟩ <;> rw [hacq] at ha <;> cases ha
    refine .inr ⟨_, _, he, ?_⟩
    obtain ⟨start', stop', hrange', hle, hstop, hlen⟩ := Segment.load_eq_ok hload
    exact h.found ⟨ptr, len, access, _, true⟩
      ⟨⟨moved.base, first, last⟩, ⟨moved.base.addr + start⟩, bytes⟩ hnone
      ⟨moved, hmoved, rfl, start', stop', hrange', hle, hstop, hlen⟩ rfl rfl ht

/-! ## A handle released -/

/-- What `unlocalize` does when the region of the mapping is the one that the cache keeps. -/
theorem unlocalize_eq {id : MappingId} {region : Region} {entry : CacheEntry}
    (hm : s.mappings[id]? = some mapping) (hr : s.regions[mapping.region]? = some region)
    (he : s.entry? region.key = some entry) (hreg : entry.region = mapping.region) :
    s.unlocalize id = { s with
      mappings := s.mappings.modify id fun old => { old with live := false }
      cache := if entry.refs - 1 = 0 then (s.removeEntry region.key).cache
        else (s.updateEntry region.key fun old => { old with refs := old.refs - 1 }).cache
      live := Word.wrap (s.live + Word.top) } := by
  have he' : ∀ mappings, Space.entry? { s with mappings } region.key = some entry := fun _ => he
  simp only [unlocalize, hm, hr, giveUp, he', hreg, if_true]
  split <;> rfl

theorem users_modify (mappings : List Mapping) (id : MappingId) (handles : List MappingId)
    (region : RegionId) :
    users (mappings.modify id fun old => { old with live := false }) handles region =
      users mappings handles region := by
  refine List.countP_congr fun h _ => ?_
  rw [List.getElem?_modify]
  split <;> cases mappings[h]? <;> rfl

theorem users_middle {mappings : List Mapping} {id : MappingId} (pre post : List MappingId)
    (hm : mappings[id]? = some mapping) (region : RegionId) :
    users mappings (pre ++ id :: post) region =
      users mappings (pre ++ post) region + if mapping.region = region then 1 else 0 := by
  simp only [users, List.countP_append, List.countP_cons, hm, Option.map_some, Option.some.injEq,
    decide_eq_true_eq]
  omega

def dropUser (s : Space) (entry : CacheEntry) : List CacheEntry :=
  if entry.refs - 1 = 0 then (s.removeEntry entry.key).cache
  else (s.updateEntry entry.key fun old => { old with refs := old.refs - 1 }).cache

theorem Shared.mem_dropUser (h : s.Shared handles) {entry new : CacheEntry} (he : entry ∈ s.cache)
    (hn : new ∈ s.dropUser entry) : (new ∈ s.cache ∧ new.region ≠ entry.region) ∨
      (new = { entry with refs := entry.refs - 1 } ∧ 0 < entry.refs - 1) := by
  unfold dropUser at hn
  split at hn
  · obtain ⟨hold, hne⟩ := List.mem_filter.1 hn
    refine .inl ⟨hold, fun hreg => ?_⟩
    rw [h.eq_of_region hold he hreg] at hne
    simp at hne
  · rename_i hpos
    obtain ⟨old, hold, rfl⟩ := List.mem_map.1 hn
    split
    · rename_i hk
      rw [h.eq_of_key hold he hk]
      exact .inr ⟨rfl, Nat.pos_of_ne_zero hpos⟩
    · rename_i hk
      exact .inl ⟨hold, fun hreg => hk (by rw [h.eq_of_region hold he hreg])⟩

theorem keys_dropUser (hk : (s.cache.map CacheEntry.key).Nodup) (entry : CacheEntry) :
    ((s.dropUser entry).map CacheEntry.key).Nodup := by
  unfold dropUser
  split
  · exact hk.sublist (List.filter_sublist.map _)
  · rw [keys_updateEntry s entry.key (by exact fun _ => rfl)]
    exact hk

theorem mem_dropUser_of_mem {entry old : CacheEntry} (ho : old ∈ s.cache)
    (hu : old.key ≠ entry.key ∨ 0 < entry.refs - 1) :
    ∃ new ∈ s.dropUser entry, new.key = old.key ∧ new.region = old.region := by
  unfold dropUser
  split
  · rename_i h0
    have hne : old.key ≠ entry.key := hu.resolve_right (by omega)
    exact ⟨old, List.mem_filter.2 ⟨ho, by simpa using hne⟩, rfl, rfl⟩
  · refine ⟨_, List.mem_map.2 ⟨old, ho, rfl⟩, ?_⟩
    split <;> exact ⟨rfl, rfl⟩

/-- Releasing a handle takes it, and no other one, out of the account. -/
theorem Shared.unlocalize {pre post : List MappingId} {id : MappingId}
    (h : s.Shared (pre ++ id :: post)) : (s.unlocalize id).Shared (pre ++ post) := by
  have hsub : (pre ++ post).Sublist (pre ++ id :: post) :=
    List.Sublist.append (.refl _) (List.sublist_cons_self _ _)
  have hnot : ∀ h ∈ pre ++ post, h ≠ id := by
    have := (List.pairwise_middle Ne.symm).1 h.nodup
    exact fun h hm he => (List.nodup_cons.1 this).1 (he ▸ hm)
  obtain ⟨mapping, entry, hmap, _, hent, hreg, _⟩ := h.held id (by simp)
  obtain ⟨region, hr, hk, _⟩ := h.backed entry hent
  have husers : ∀ r, users s.mappings (pre ++ id :: post) r =
      users s.mappings (pre ++ post) r + if mapping.region = r then 1 else 0 :=
    users_middle pre post hmap
  have hrefs : entry.refs = users s.mappings (pre ++ post) entry.region + 1 := by
    rw [h.refs entry hent, husers, if_pos hreg.symm]
  rw [unlocalize_eq hmap (hreg ▸ hr) ((entry?_eq_some h.keys).2 ⟨hent, hk.symm⟩) hreg, hk,
    ← dropUser]
  refine ⟨h.nodup.sublist hsub, keys_dropUser h.keys entry, ?_, ?_, ?_, ?_⟩
  · intro other hmem
    obtain ⟨old, entry', hold, hlive, hent', hreg', ht⟩ := h.held other (hsub.subset hmem)
    -- a handle that is left keeps the entry of its region in the cache
    have hu : entry'.key ≠ entry.key ∨ 0 < entry.refs - 1 := by
      by_cases hke : entry'.key = entry.key
      · right
        have hpos : 0 < users s.mappings (pre ++ post) entry.region := by
          refine List.countP_pos_iff.2 ⟨other, hmem, ?_⟩
          simp [hold, ← hreg', h.eq_of_key hent' hent hke]
        omega
      · exact .inl hke
    obtain ⟨new, hnew, hk', hr'⟩ := mem_dropUser_of_mem hent' hu
    refine ⟨old, new, ?_, hlive, hnew, hr'.trans hreg', ?_⟩
    · simp only [List.getElem?_modify_ne _ _ (hnot other hmem).symm, hold]
    · rw [hk']
      exact ht.mono fun seg hseg _ => ⟨seg, hseg, rfl⟩
  · intro new hnew
    rcases h.mem_dropUser hent hnew with ⟨hold, _⟩ | ⟨rfl, _⟩
    · exact h.backed new hold
    · exact h.backed entry hent
  · intro new hnew
    simp only [users_modify]
    rcases h.mem_dropUser hent hnew with ⟨hold, hne⟩ | ⟨rfl, _⟩
    · rw [h.refs new hold, husers, if_neg fun he => hne (he.symm.trans hreg.symm)]; rfl
    · simp only [hrefs, Nat.add_sub_cancel]
  · intro new hnew
    rcases h.mem_dropUser hent hnew with ⟨hold, _⟩ | ⟨rfl, hpos⟩
    · exact h.used new hold
    · exact hpos

/-- Releasing the last handles, first to last, leaves the ones before. -/
theorem Shared.unlocalizeAll {made : List MappingId} (h : s.Shared (handles ++ made)) :
    Shared (AddressSpace.unlocalizeAll s made) handles := by
  induction made generalizing s with
  | nil => rwa [List.append_nil] at h
  | cons id rest ih => exact ih h.unlocalize

end Space

end TaskSpace

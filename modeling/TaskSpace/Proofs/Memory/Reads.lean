import TaskSpace.Proofs.Memory.Account
import TaskSpace.Proofs.Memory.Flat

/-!
# What a mapping reads

A region belongs to a run of blocks and not to addresses: two runs that overlap have a copy each. A
run of a client is read here as a list of stores, of which each names one run of blocks. A live
mapping reads what was stored last for its own run of blocks, address by address; stores for another
run, whatever their addresses, do not concern it.
-/

namespace TaskSpace

/-! ## Stores -/

/-- Bytes stored for a run of blocks, by their addresses. -/
structure Store where
  key : RegionKey
  byte : Nat → Option UInt8

/-- The byte stored last, by the stores of a list from the first to the last. -/
def latest : List Store → RegionKey → Nat → Option UInt8
  | [], _, _ => none
  | store :: later, key, addr =>
    (latest later key addr).or (if store.key = key then store.byte addr else none)

theorem latest_snoc (stores : List Store) (store : Store) (key : RegionKey) (addr : Nat) :
    latest (stores ++ [store]) key addr =
      (if store.key = key then store.byte addr else none).or (latest stores key addr) := by
  induction stores with
  | nil => simp [latest]
  | cons first rest ih => rw [List.cons_append, latest, latest, ih, Option.or_assoc]

theorem latest_snoc_ne {stores : List Store} {store : Store} {key : RegionKey}
    (h : store.key ≠ key) (addr : Nat) : latest (stores ++ [store]) key addr = latest stores key addr := by
  rw [latest_snoc, if_neg h, Option.none_or]

namespace Space

/-- The run of blocks that a range touches. -/
def runOf (s : Space) (ptr : Pointer) (len : Nat) : Option RegionKey :=
  (s.locate ptr len).toOption.map fun (seg, off) =>
    ⟨seg.base, seg.blockOf off, seg.blockOf (off + len - 1)⟩

/-- An address lies in a run of blocks. -/
def Spans (s : Space) (key : RegionKey) (addr : Nat) : Prop :=
  ∃ seg ∈ s.segments, seg.base = key.segment ∧ seg.Covers addr ∧
    key.first ≤ seg.blockOf (addr - seg.base.addr) ∧ seg.blockOf (addr - seg.base.addr) ≤ key.last

instance (s : Space) (key : RegionKey) (addr : Nat) : Decidable (s.Spans key addr) :=
  inferInstanceAs (Decidable (∃ seg ∈ s.segments, _))

/-- The copy of home memory for a run of blocks, in whole. -/
def copyOf (s : Space) (key : RegionKey) : Store where
  key
  byte addr := if s.Spans key addr then s.flat.byte addr else none

/-- Some live mapping is of exactly these blocks. -/
def Outstanding (s : Space) (key : RegionKey) : Prop :=
  ∃ mapping ∈ s.mappings, mapping.live = true ∧ s.runOf mapping.start mapping.len = some key

instance (s : Space) (key : RegionKey) : Decidable (s.Outstanding key) :=
  inferInstanceAs (Decidable (∃ mapping ∈ s.mappings, _))

/-- A range that is mapped has its blocks copied from home memory if they are to be refreshed, or if no
mapping of them is outstanding. -/
def copies (s : Space) (ptr : Pointer) (len : Nat) (access : Access) : List Store :=
  match s.runOf ptr len with
  | some key => if access.refreshes = true ∨ ¬ s.Outstanding key then [s.copyOf key] else []
  | none => []

/-- The copies of ranges that are mapped one after the other, up to the one that fails. -/
def copiesAll (access : Access) (worker : WorkerId) : List Range → Space → List Store
  | [], _ => []
  | range :: rest, s =>
    match s.localize range.start range.len access worker with
    | (.ok _, s') => s.copies range.start range.len access ++ copiesAll access worker rest s'
    | (.error _, _) => []

/-- A write that succeeds stores its bytes for the blocks of the mapping it goes through. -/
def written (s : Space) (id : MappingId) (off : Nat) (new : Bytes) : List Store :=
  match s.write id off new, s.mappings[id]?, s.rangeOf id with
  | .ok _, some mapping, some key =>
    [⟨key, fun addr =>
      if mapping.start.addr + off ≤ addr then new[addr - (mapping.start.addr + off)]? else none⟩]
  | _, _, _ => []

end Space

namespace Client

/-- What a call stores. Only mapping a range and writing through a mapping store anything. -/
def stores (c : Client) : SpaceOp → List Store
  | .localize ptr len access worker => Space.copiesAll access worker [⟨ptr, len⟩] c.space
  | .localizeAll ranges access worker => Space.copiesAll access worker ranges c.space
  | .write handle off new => c.space.written handle off new
  | _ => []

def storesOf (c : Client) : List SpaceOp → List Store
  | [] => []
  | op :: rest => c.stores op ++ (c.perform op).2.storesOf rest

end Client

/-! ## Runs of blocks and their copies -/

theorem Segment.blockRange_eq_ok {seg : Segment} {first last start stop : Nat}
    (h : seg.blockRange first last = .ok (start, stop)) :
    start = first * seg.blockSize ∧ stop = min ((last + 1) * seg.blockSize) seg.size := by
  unfold blockRange at h
  cases hs : Fault.product first seg.blockSize with
  | error fault => rw [hs] at h; cases h
  | ok lower =>
    cases ha : Fault.sum last 1 with
    | error fault => rw [hs, ha] at h; cases h
    | ok after =>
      cases he : Fault.product after seg.blockSize with
      | error fault => simp [hs, ha, he, bind, Except.bind] at h
      | ok upper =>
        obtain ⟨_, rfl⟩ := Fault.product_eq_ok.1 hs
        obtain ⟨_, rfl⟩ := Fault.sum_eq_ok.1 ha
        obtain ⟨_, rfl⟩ := Fault.product_eq_ok.1 he
        simp only [hs, ha, he, bind, Except.bind, pure, Except.pure, Except.ok.injEq,
          Prod.mk.injEq] at h
        exact ⟨h.1.symm, h.2.symm⟩

namespace Space

variable {s s' : Space} {ids : List MappingId} {stores : List Store} {reach : Nat} {ptr : Pointer}
  {len : Nat} {access : Access} {key : RegionKey} {seg : Segment} {id : MappingId} {mapping : Mapping}

theorem Placed.runOf_eq (hp : s.Placed reach) (ht : s.Touches ptr len key) :
    s.runOf ptr len = some key := by
  obtain ⟨seg, hseg, off, ha, hlt, hle, rfl⟩ := ht
  simp only [runOf, hp.locate_eq_ok.2 ⟨hseg, ha, hlt, hle⟩, Except.toOption, Option.map_some]

theorem touches_of_sameHome (h : SameHome s s') : s'.Touches ptr len key ↔ s.Touches ptr len key := by
  have hmono : ∀ {t t' : Space}, t'.segments.map Segment.outline = t.segments.map Segment.outline →
      t.Touches ptr len key → t'.Touches ptr len key := fun ho ht => ht.mono fun seg hseg _ =>
    List.mem_map.1 (ho ▸ List.mem_map_of_mem hseg)
  exact ⟨hmono h.sameShape.outline.symm, hmono h.sameShape.outline⟩

theorem Placed.runOf_eq_some (hp : s.Placed reach) : s.runOf ptr len = some key ↔ s.Touches ptr len key := by
  refine ⟨fun h => ?_, hp.runOf_eq⟩
  obtain ⟨⟨seg, off⟩, hl, rfl⟩ := Option.map_eq_some_iff.1 h
  cases hlocate : s.locate ptr len with
  | error fault => simp [hlocate, Except.toOption] at hl
  | ok found =>
    simp only [hlocate, Except.toOption, Option.some.injEq] at hl
    subst hl
    obtain ⟨hm, ha, hlt, hle⟩ := hp.locate_eq_ok.1 hlocate
    exact ⟨seg, hm, off, ha, hlt, hle, rfl⟩

theorem rangeOf_eq_runOf (hm : s.mappings[id]? = some mapping) :
    s.rangeOf id = s.runOf mapping.start mapping.len := by
  simp only [rangeOf, hm, Option.bind_some, runOf]

theorem copyOf_of_sameHome (h : SameHome s s') (key : RegionKey) : s'.copyOf key = s.copyOf key := by
  have hspans : ∀ (t : Space) (addr : Nat), t.Spans key addr ↔ ∃ seg ∈ t.segments.map Segment.contents,
      seg.base = key.segment ∧ seg.Covers addr ∧ key.first ≤ seg.blockOf (addr - seg.base.addr) ∧
        seg.blockOf (addr - seg.base.addr) ≤ key.last := by
    intro t addr
    simp only [List.mem_map, exists_exists_and_eq_and]
    exact Iff.rfl
  have hsame : ∀ addr, s'.Spans key addr ↔ s.Spans key addr := fun addr => by
    rw [hspans, hspans, h.contents]
  simp only [copyOf, hsame, flat_of_sameHome h]

/-- The bytes that are loaded for a run of blocks are the copy of home memory for it. -/
theorem Placed.load_eq_copyOf (hp : s.Placed reach) (hm : seg ∈ s.segments) {first last start stop : Nat}
    {bytes : Bytes} (hr : seg.blockRange first last = .ok (start, stop))
    (hl : seg.load first last = .ok bytes) {i : Nat} (hi : i < bytes.length) :
    bytes[i]? = (s.copyOf ⟨seg.base, first, last⟩).byte (seg.base.addr + start + i) := by
  obtain ⟨hstart, hstop⟩ := Segment.blockRange_eq_ok hr
  have hw := hp.wellFormed seg hm
  have hbytes := hw.length_bytes
  have hpos := hw.blockSize_pos
  simp only [Segment.load, hr] at hl
  have hlen : bytes.length = stop - start := Bytes.length_slice hl
  obtain ⟨_, rfl⟩ := Bytes.slice_eq_ok.1 hl
  have hsub : seg.base.addr + start + i - seg.base.addr = start + i := by omega
  have hc : seg.Covers (seg.base.addr + start + i) := ⟨by omega, by omega⟩
  have hfirst : first * seg.blockSize ≤ start + i := by omega
  have hlast : start + i < (last + 1) * seg.blockSize := by omega
  have hspans : s.Spans ⟨seg.base, first, last⟩ (seg.base.addr + start + i) := by
    refine ⟨seg, hm, rfl, hc, ?_, ?_⟩ <;> rw [hsub]
    · exact (Nat.le_div_iff_mul_le hpos).2 hfirst
    · exact Nat.lt_succ_iff.1 ((Nat.div_lt_iff_lt_mul hpos).2 hlast)
  simp only [copyOf, if_pos hspans, flat, hp.byteAt_of_covers hm hc, hsub]
  rw [List.getElem?_drop, List.getElem?_take_of_lt (by omega)]

/-! ## The invariant -/

/-- A region starts where the first of its blocks does. -/
def Based (s : Space) (region : Region) : Prop :=
  ∃ seg ∈ s.segments, seg.base = region.key.segment ∧
    ∃ start stop, seg.blockRange region.key.first region.key.last = .ok (start, stop) ∧
      region.base.addr = seg.base.addr + start

/-- A cached region holds what was stored last for its blocks. -/
def Filled (s : Space) (stores : List Store) : Prop :=
  ∀ entry ∈ s.cache, ∃ region, s.regions[entry.region]? = some region ∧ region.key = entry.key ∧
    s.Based region ∧
    ∀ i < region.bytes.length, region.bytes[i]? = latest stores entry.key (region.base.addr + i)

/-- The mappings of a list are the live ones; they share the cached regions, and these hold what was
stored last. -/
structure Current (s : Space) (ids : List MappingId) (stores : List Store) : Prop where
  shared : s.Shared ids
  complete : ∀ (id : MappingId) (mapping : Mapping), s.mappings[id]? = some mapping →
    mapping.live = true → id ∈ ids
  filled : s.Filled stores

theorem current_new (numHomes : Nat) : (new numHomes).Current [] [] where
  shared := shared_new numHomes
  complete := by simp [new]
  filled := by simp [Filled, new]

theorem Based.mono {region : Region} (hb : s.Based region)
    (hs : ∀ seg ∈ s.segments, seg.base = region.key.segment →
      ∃ seg' ∈ s'.segments, seg'.outline = seg.outline) : s'.Based region := by
  obtain ⟨seg, hm, hbase, start, stop, hr, ha⟩ := hb
  obtain ⟨seg', hm', ho⟩ := hs seg hm hbase
  have hb := (Segment.shape_of_outline ho).1
  exact ⟨seg', hm', hb.trans hbase, start, stop, by rw [Segment.blockRange_of_outline ho, hr],
    by rw [hb, ha]⟩

/-- Regions go on holding what was stored last when none of them changes and none is new. -/
theorem Filled.frame (h : s.Filled stores) (hr : s'.regions = s.regions)
    (hc : ∀ new ∈ s'.cache, ∃ old ∈ s.cache, old.key = new.key ∧ old.region = new.region)
    (hs : ∀ new ∈ s'.cache, ∀ seg ∈ s.segments, seg.base = new.key.segment →
      ∃ seg' ∈ s'.segments, seg'.outline = seg.outline) : s'.Filled stores := by
  intro new hnew
  obtain ⟨old, hold, hkey, hreg⟩ := hc new hnew
  obtain ⟨region, hr', hk, hb, hbytes⟩ := h old hold
  rw [hkey] at hk hbytes
  refine ⟨region, by rw [hr, ← hreg, hr'], hk, hb.mono fun seg hm hbase => ?_, hbytes⟩
  exact hs new hnew seg hm (by rw [hbase, hk])

theorem Filled.still (h : s.Filled stores) (hr : s'.regions = s.regions) (hc : s'.cache = s.cache)
    (hs : ∀ new ∈ s.cache, ∀ seg ∈ s.segments, seg.base = new.key.segment →
      ∃ seg' ∈ s'.segments, seg'.outline = seg.outline) : s'.Filled stores :=
  h.frame hr (fun new hnew => ⟨new, hc ▸ hnew, rfl, rfl⟩) fun new hnew => hs new (hc ▸ hnew)

theorem Filled.of_sameShape (h : s.Filled stores) (hr : s'.regions = s.regions)
    (hc : s'.cache = s.cache) (ho : SameShape s s') : s'.Filled stores :=
  h.still hr hc fun _ _ _ hseg _ => ho.exists_outline hseg

/-! ## One region changes -/

variable {entry : CacheEntry} {region : Region} {store : Store} {bytes : Bytes}

/-- A store for the blocks of a cached region is seen there when the region is given its bytes. -/
theorem Filled.setRegion (h : s.Filled stores) (hs : s.Shared ids) (he : entry ∈ s.cache)
    (hr : s.regions[entry.region]? = some region) (hl : bytes.length = region.bytes.length)
    (hk : store.key = entry.key)
    (hb : ∀ i < bytes.length, bytes[i]? =
      (store.byte (region.base.addr + i)).or (latest stores entry.key (region.base.addr + i))) :
    (s.setRegion entry.region bytes).Filled (stores ++ [store]) := by
  intro other hother
  obtain ⟨old, hold, hkey, hbased, hbytes⟩ := h other hother
  simp only [Space.setRegion, List.getElem?_modify, hold]
  by_cases heq : entry.region = other.region
  · -- the region is that of one entry only
    obtain rfl := hs.eq_of_region he hother heq
    obtain rfl := Option.some.inj (hold.symm.trans hr)
    refine ⟨{ old with bytes }, by simp, hkey, hbased, fun i hi => ?_⟩
    rw [latest_snoc, if_pos hk]
    exact hb i hi
  · refine ⟨old, by simp [heq], hkey, hbased, fun i hi => ?_⟩
    have hne : store.key ≠ other.key := fun hsame =>
      heq (congrArg CacheEntry.region (hs.eq_of_key he hother (hk.symm.trans hsame)))
    rw [latest_snoc_ne hne]
    exact hbytes i hi

/-- A store for blocks without a region is seen in the region made for them. -/
theorem Filled.addRegion (h : s.Filled stores) (hn : ∀ entry ∈ s.cache, entry.key ≠ region.key)
    (hbased : s.Based region) (hk : store.key = region.key)
    (hb : ∀ i < region.bytes.length, region.bytes[i]? = store.byte (region.base.addr + i)) (refs : Nat) :
    Filled { s with
      regions := s.regions ++ [region]
      cache := s.cache ++ [{ key := region.key, region := s.regions.length, refs }] }
      (stores ++ [store]) := by
  intro entry hent
  rcases List.mem_append.1 hent with hent | hent
  · obtain ⟨old, hold, hkey, hbased', hbytes⟩ := h entry hent
    have hlt := (List.getElem?_eq_some_iff.1 hold).1
    refine ⟨old, by rw [List.getElem?_append_left hlt, hold], hkey, hbased', fun i hi => ?_⟩
    rw [latest_snoc_ne fun hsame => hn entry hent (hsame.symm.trans hk)]
    exact hbytes i hi
  · rw [List.mem_singleton.1 hent]
    refine ⟨region, List.getElem?_concat_length, rfl, hbased, fun i hi => ?_⟩
    rw [latest_snoc, if_pos hk, ← hb i hi, List.getElem?_eq_getElem hi, Option.some_or]

theorem mem_updateEntry {f : CacheEntry → CacheEntry}
    (hf : ∀ old : CacheEntry, (f old).key = old.key ∧ (f old).region = old.region) :
    ∀ new ∈ (s.updateEntry key f).cache, ∃ old ∈ s.cache, old.key = new.key ∧ old.region = new.region := by
  intro new hnew
  obtain ⟨old, hold, rfl⟩ := List.mem_map.1 hnew
  refine ⟨old, hold, ?_⟩
  split
  · exact ⟨(hf old).1.symm, (hf old).2.symm⟩
  · exact ⟨rfl, rfl⟩

/-- The region that a mapping acquires holds the copy of home memory if it was loaded just now. -/
theorem Filled.acquire (h : s.Filled stores) (hs : s.Shared ids) (hp : s.Placed reach)
    (hm : seg ∈ s.segments) (first last : Nat) (refresh : Bool) :
    (∃ fault t, s.acquire seg ⟨seg.base, first, last⟩ refresh = (.error fault, t) ∧ t.Filled stores) ∨
    ∃ region t, s.acquire seg ⟨seg.base, first, last⟩ refresh = (.ok region, t) ∧
      t.Filled (stores ++ if refresh = true ∨ s.entry? ⟨seg.base, first, last⟩ = none
        then [s.copyOf ⟨seg.base, first, last⟩] else []) := by
  rcases s.acquire_cases seg ⟨seg.base, first, last⟩ refresh with ⟨fault, he⟩ |
    ⟨entry, hent, _, hacq⟩ | ⟨hnone, start, stop, bytes, hrange, _, hload, he⟩
  · exact .inl ⟨fault, s, he, h⟩
  · obtain ⟨hentry, hkey⟩ := (entry?_eq_some hs.keys).1 hent
    have hcounted : ∀ {t : Space} {stores' : List Store}, t.Filled stores' →
        (t.updateEntry ⟨seg.base, first, last⟩ fun old => { old with refs := entry.refs + 1 }).Filled
          stores' :=
      fun ht => ht.frame rfl (mem_updateEntry fun _ => ⟨rfl, rfl⟩) fun _ _ seg hseg _ => ⟨seg, hseg, rfl⟩
    rcases hacq with ⟨t, ⟨rfl, rfl⟩ | ⟨fresh, region, rfl, hload, hreg, hlen, rfl⟩, he⟩ | ⟨_, fault, he⟩
    · refine .inr ⟨_, _, he, hcounted ?_⟩
      simpa [hent] using h
    · refine .inr ⟨_, _, he, hcounted ?_⟩
      rw [if_pos (.inl rfl)]
      obtain ⟨old, hold, hk, ⟨seg', hm', hbase, start, stop, hrange, haddr⟩, _⟩ := h entry hentry
      obtain rfl := Option.some.inj (hold.symm.trans hreg)
      have hseg : seg' = seg := hp.eq_of_base hm' hm (by rw [hbase, hk, hkey])
      subst hseg
      rw [hk, hkey] at hrange
      refine h.setRegion hs hentry hreg hlen hkey.symm fun i hi => ?_
      rw [haddr, ← hp.load_eq_copyOf hm hrange hload hi, List.getElem?_eq_getElem hi, Option.some_or]
    · exact .inl ⟨fault, _, he, hcounted h⟩
  · refine .inr ⟨_, _, he, ?_⟩
    rw [if_pos (.inr hnone)]
    have hbased : s.Based ⟨⟨seg.base, first, last⟩, ⟨seg.base.addr + start⟩, bytes⟩ :=
      ⟨seg, hm, rfl, start, stop, hrange, rfl⟩
    have hkey : (s.copyOf ⟨seg.base, first, last⟩).key = ⟨seg.base, first, last⟩ := rfl
    exact h.addRegion (entry?_eq_none hnone) hbased hkey
      (fun i hi => hp.load_eq_copyOf hm hrange hload hi) 1

/-! ## Live mappings -/

/-- The region of a live mapping: the range lies inside, and the bytes are those stored last. -/
theorem Current.seen (h : s.Current ids stores) (hp : s.Placed reach)
    (hm : s.mappings[id]? = some mapping) (hl : mapping.live = true) :
    ∃ entry region off, entry ∈ s.cache ∧ entry.region = mapping.region ∧
      s.regions[mapping.region]? = some region ∧ s.rangeOf id = some entry.key ∧
      mapping.start.addr = region.base.addr + off ∧ regionOffset mapping region = off ∧
      off + mapping.len ≤ region.bytes.length ∧ region.bytes.length < Word.bound ∧
      ∀ i < region.bytes.length, region.bytes[i]? = latest stores entry.key (region.base.addr + i) := by
  obtain ⟨mapping', entry, hm', _, hentry, hreg, ht⟩ := h.shared.held id (h.complete id mapping hm hl)
  obtain rfl := Option.some.inj (hm.symm.trans hm')
  obtain ⟨region, hregion, hk, ⟨seg', hseg', hbase, start, stop, hrange, haddr⟩, hbytes⟩ :=
    h.filled entry hentry
  have hrangeOf := hp.rangeOf_eq hm ht
  obtain ⟨seg, hseg, off, ha, hlt, hle, hkey⟩ := ht
  -- the region is based in the segment of the mapping, and backed by it
  obtain rfl : seg = seg' := hp.eq_of_base hseg hseg' (by rw [hbase, hk, hkey])
  obtain ⟨region', hregion', hk', back, hback, hbaseBack, start', stop', hrange', _, _, hlen⟩ :=
    h.shared.backed entry hentry
  obtain rfl := Option.some.inj (hregion.symm.trans hregion')
  obtain rfl : seg = back := hp.eq_of_base hseg hback (hbase.trans hbaseBack.symm)
  obtain ⟨rfl, rfl⟩ := Prod.mk.injEq .. ▸ Except.ok.inj (hrange.symm.trans hrange')
  rw [hk, hkey] at hrange
  obtain ⟨hstart, hstop⟩ : start = seg.blockOf off * seg.blockSize ∧
      stop = min ((seg.blockOf (off + mapping.len - 1) + 1) * seg.blockSize) seg.size :=
    Segment.blockRange_eq_ok hrange
  have hfirst : seg.blockOf off * seg.blockSize ≤ off := Nat.div_mul_le_self _ _
  have hlast : off + mapping.len - 1 < (seg.blockOf (off + mapping.len - 1) + 1) * seg.blockSize :=
    Nat.lt_mul_of_div_lt (Nat.lt_succ_self _) (hp.wellFormed seg hseg).blockSize_pos
  have hbelow := hp.below seg hseg
  have hreach := hp.reach_le
  have hpage : 0 < page := by decide
  have hoff : mapping.start.addr = region.base.addr + (off - start) := by omega
  refine ⟨entry, region, off - start, hentry, hreg, hreg ▸ hregion, hrangeOf, hoff, ?_, by omega,
    by omega, hbytes⟩
  simp only [regionOffset, Pointer.offsetFrom_eq_some.2 hoff, Option.getD_some]

theorem Current.outstanding_iff (h : s.Current ids stores) (hp : s.Placed reach) :
    s.Outstanding key ↔ s.entry? key ≠ none := by
  constructor
  · rintro ⟨mapping, hmem, hl, hrun⟩ hnone
    obtain ⟨id, hm⟩ := List.mem_iff_getElem?.1 hmem
    have hkey := (h.shared.mem_keys hp).2
      ⟨id, h.complete id mapping hm hl, (rangeOf_eq_runOf hm).trans hrun⟩
    obtain ⟨entry, hentry, hk⟩ := List.mem_map.1 hkey
    exact entry?_eq_none hnone entry hentry hk
  · intro hsome
    obtain ⟨entry, hent⟩ := Option.ne_none_iff_exists'.1 hsome
    obtain ⟨hentry, hk⟩ := (entry?_eq_some h.shared.keys).1 hent
    obtain ⟨id, hid, hrange⟩ := (h.shared.mem_keys hp).1 (List.mem_map.2 ⟨entry, hentry, hk⟩)
    obtain ⟨mapping, _, hm, hl, _⟩ := h.shared.held id hid
    exact ⟨mapping, List.mem_of_getElem? hm, hl, (rangeOf_eq_runOf hm).symm.trans hrange⟩

/-- A live mapping reads what was stored last for its blocks. -/
theorem Current.read (h : s.Current ids stores) (hp : s.Placed reach)
    (hm : s.mappings[id]? = some mapping) (hl : mapping.live = true) :
    ∃ key bytes, s.rangeOf id = some key ∧ s.read id = .ok bytes ∧ bytes.length = mapping.len ∧
      ∀ i < mapping.len, bytes[i]? = latest stores key (mapping.start.addr + i) := by
  obtain ⟨entry, region, off, _, _, hregion, hrange, haddr, hoff, hle, hbound, hbytes⟩ := h.seen hp hm hl
  have hsum : Fault.sum off mapping.len = .ok (off + mapping.len) :=
    Fault.sum_eq_ok.2 ⟨by omega, rfl⟩
  have hslice : region.bytes.slice off (off + mapping.len) =
      .ok ((region.bytes.take (off + mapping.len)).drop off) :=
    Bytes.slice_eq_ok.2 ⟨⟨by omega, hle⟩, rfl⟩
  refine ⟨entry.key, (region.bytes.take (off + mapping.len)).drop off, hrange, ?_, ?_, fun i hi => ?_⟩
  · simp only [Space.read, hm, hl, if_true, hregion, hoff, hsum, bind, Except.bind, hslice]
  · simp only [List.length_drop, List.length_take]
    omega
  · rw [take_drop_getElem? hi, hbytes (off + i) (by omega), haddr, Nat.add_assoc]

/-- A write that succeeds is stored. -/
theorem Current.write (h : s.Current ids stores) (hp : s.Placed reach) {off : Nat} {new : Bytes}
    (hw : s.write id off new = .ok s') : s'.Current ids (stores ++ s.written id off new) := by
  have hshared := h.shared.write hw
  rcases write_cases hw with ⟨hnone, rfl⟩ | ⟨mapping, hm, _, hl, hle, hdone⟩
  · simp only [written, hw, hnone, List.append_nil]
    exact h
  obtain ⟨entry, region, start, hentry, hreg, hregion, hrange, haddr, hoff, hfit, _, hbytes⟩ :=
    h.seen hp hm hl
  rcases hdone with ⟨hnone, _⟩ | ⟨region', bytes, hregion', hsp, rfl⟩
  · rw [hregion] at hnone; cases hnone
  obtain rfl := Option.some.inj (hregion.symm.trans hregion')
  simp only [written, hw, hm, hrange]
  refine ⟨hshared, h.complete, ?_⟩
  rw [hoff] at hsp
  obtain ⟨_, rfl⟩ := Bytes.splice_eq_ok.1 hsp
  rw [← hreg]
  refine h.filled.setRegion h.shared hentry (hreg ▸ hregion) (Bytes.length_splice hsp) rfl fun i hi => ?_
  rw [Bytes.length_splice hsp] at hi
  rw [overwrite_getElem? (by omega), ← hbytes i hi]
  dsimp only
  -- inside the range written the new byte stands, and outside the old one
  by_cases hlow : start + off ≤ i
  · have hstart : mapping.start.addr + off ≤ region.base.addr + i := by omega
    have hsub : region.base.addr + i - (mapping.start.addr + off) = i - (start + off) := by omega
    rw [if_pos hstart, hsub]
    by_cases hhigh : i < start + off + new.length
    · have hin : i - (start + off) < new.length := by omega
      rw [if_pos ⟨hlow, hhigh⟩, List.getElem?_eq_getElem hin, Option.some_or]
    · have hout : new.length ≤ i - (start + off) := by omega
      rw [if_neg fun hc => hhigh hc.2, List.getElem?_eq_none hout, Option.none_or]
  · have hstart : ¬ mapping.start.addr + off ≤ region.base.addr + i := by omega
    rw [if_neg hstart, if_neg fun hc => hlow hc.1, Option.none_or]

/-! ## Mapping and releasing -/

/-- A mapping that is made is live, and what it had copied is stored. -/
theorem Current.localize (h : s.Current ids stores) (hp : s.Placed reach) (ptr : Pointer) (len : Nat)
    (access : Access) (worker : WorkerId) :
    (∃ fault s', s.localize ptr len access worker = (.error fault, s') ∧ s'.Current ids stores) ∨
    ∃ id s' mapping, s.localize ptr len access worker = (.ok id, s') ∧
      s'.Current (ids ++ [id]) (stores ++ s.copies ptr len access) ∧ s'.mappings[id]? = some mapping ∧
      mapping.start = ptr ∧ mapping.len = len ∧ mapping.live = true := by
  have hshared := h.shared.localize hp ptr len access worker
  rcases s.localize_cases ptr len access worker with ⟨fault, he⟩ |
    ⟨seg, first, last, moved, hplace, hc, hb, he⟩
  · exact .inl ⟨fault, s, he, h⟩
  obtain ⟨hseg, ht⟩ := hp.touches hplace
  obtain ⟨ho, hmoved⟩ := hp.storeMoved hseg hc hb
  have hhome : SameHome s (s.storeSegment moved) := ⟨rfl, hp.map_storeSegment _ hseg hb hc⟩
  have hcopies : s.copies ptr len access =
      if access.refreshes = true ∨ Space.entry? (s.storeSegment moved) ⟨moved.base, first, last⟩ = none
      then [(s.storeSegment moved).copyOf ⟨moved.base, first, last⟩] else [] := by
    have hentry : ∀ key, Space.entry? (s.storeSegment moved) key = s.entry? key := fun _ => rfl
    simp only [copies, hp.runOf_eq ht, h.outstanding_iff hp, hentry, copyOf_of_sameHome hhome, hb,
      ne_eq, Decidable.not_not]
  have hstill := acquire_still (s.storeSegment moved) moved ⟨moved.base, first, last⟩ access.refreshes
  have hfilled : (s.storeSegment moved).Filled stores := h.filled.of_sameShape rfl rfl ho
  rcases hfilled.acquire (h.shared.of_sameShape rfl rfl rfl ho) (hp.of_sameShape ho) hmoved first last
    access.refreshes with ⟨fault, t, hacq, hf⟩ | ⟨region, t, hacq, hf⟩ <;> rw [hacq] at hstill
  · rcases he with ⟨_, _, ha, he⟩ | ⟨_, _, ha, _⟩ <;> rw [hacq] at ha <;> cases ha
    rcases hshared with ⟨_, _, he', hs⟩ | ⟨_, _, he', _⟩ <;> rw [he] at he' <;> cases he'
    refine .inl ⟨_, _, he, hs, fun id mapping hm hl => ?_, hf⟩
    exact h.complete id mapping (hstill.mappings ▸ hm) hl
  · rcases he with ⟨_, _, ha, _⟩ | ⟨_, _, ha, he⟩ <;> rw [hacq] at ha <;> cases ha
    rcases hshared with ⟨_, _, he', _⟩ | ⟨_, _, he', hs⟩ <;> rw [he] at he' <;> cases he'
    refine .inr ⟨_, _, ⟨ptr, len, access, region, true⟩, he, ⟨hs, fun id mapping hm hl => ?_, ?_⟩,
      List.getElem?_concat_length, rfl, rfl, rfl⟩
    · rcases Nat.lt_or_ge id t.mappings.length with hlt | hge
      · rw [List.getElem?_append_left hlt] at hm
        exact List.mem_append_left _ (h.complete id mapping (hstill.mappings ▸ hm) hl)
      · have hlt := (List.getElem?_eq_some_iff.1 hm).1
        simp only [List.length_append, List.length_singleton] at hlt
        have hlast : id = t.mappings.length := Nat.le_antisymm (Nat.lt_succ_iff.1 hlt) hge
        exact List.mem_append_right _ (List.mem_singleton.2 hlast)
    · rw [hcopies]
      exact hf.still rfl rfl fun _ _ seg hseg _ => ⟨seg, hseg, rfl⟩

/-- What is left in the cache after a release was there before, with the same region. -/
structure Sheds (s s' : Space) : Prop where
  regions : s'.regions = s.regions
  segments : s'.segments = s.segments
  cache : ∀ new ∈ s'.cache, ∃ old ∈ s.cache, old.key = new.key ∧ old.region = new.region

theorem giveUp_sheds (s : Space) (region : RegionId) (key : RegionKey) :
    Sheds s (s.giveUp region key) := by
  have hself : ∀ new ∈ s.cache, ∃ old ∈ s.cache, old.key = new.key ∧ old.region = new.region :=
    fun new hnew => ⟨new, hnew, rfl, rfl⟩
  unfold giveUp
  split
  · split
    · split
      · exact ⟨rfl, rfl, fun new hnew => hself new (List.mem_filter.1 hnew).1⟩
      · exact ⟨rfl, rfl, mem_updateEntry fun _ => ⟨rfl, rfl⟩⟩
    · exact ⟨rfl, rfl, hself⟩
  · exact ⟨rfl, rfl, hself⟩

theorem unlocalize_sheds (s : Space) (id : MappingId) : Sheds s (s.unlocalize id) := by
  have hself : Sheds s s := ⟨rfl, rfl, fun new hnew => ⟨new, hnew, rfl, rfl⟩⟩
  cases hm : s.mappings[id]? with
  | none =>
    simp only [unlocalize, hm]
    exact hself
  | some mapping =>
    simp only [unlocalize, hm]
    split
    · obtain ⟨hr, hs, hc⟩ := giveUp_sheds
        { s with mappings := s.mappings.modify id fun old => { old with live := false } }
        mapping.region (by assumption : Region).key
      exact ⟨hr, hs, hc⟩
    · exact ⟨hself.regions, hself.segments, hself.cache⟩

theorem Filled.sheds (h : s.Filled stores) (hs : Sheds s s') : s'.Filled stores :=
  h.frame hs.regions hs.cache fun _ _ seg hseg _ => ⟨seg, hs.segments ▸ hseg, rfl⟩

theorem Current.unlocalize {pre post : List MappingId} (h : s.Current (pre ++ id :: post) stores) :
    (s.unlocalize id).Current (pre ++ post) stores where
  shared := h.shared.unlocalize
  complete other mapping hm hl := by
    rw [mappings_unlocalize, List.getElem?_modify] at hm
    obtain ⟨old, hold, rfl⟩ := Option.map_eq_some_iff.1 hm
    by_cases he : id = other
    · rw [if_pos he] at hl
      cases hl
    · rw [if_neg he] at hl
      have hmem := h.complete other old hold hl
      simp only [List.mem_append, List.mem_cons] at hmem ⊢
      rcases hmem with hmem | rfl | hmem
      · exact .inl hmem
      · exact absurd rfl he
      · exact .inr hmem
  filled := h.filled.sheds (s.unlocalize_sheds id)

theorem Current.unlocalizeAll {made : List MappingId} (h : s.Current (ids ++ made) stores) :
    Current (AddressSpace.unlocalizeAll s made) ids stores := by
  induction made generalizing s with
  | nil => rwa [List.append_nil] at h
  | cons id rest ih => exact ih h.unlocalize

/-- The ranges that are mapped are stored, also when a later one fails. -/
theorem Current.localizeRest {made : List MappingId} (h : s.Current (ids ++ made) stores)
    (hp : s.Placed reach) (access : Access) (worker : WorkerId) (ranges : List Range) :
    (∃ made' s', AddressSpace.localizeRest access worker made ranges s = (.ok made', s') ∧
      s'.Current (ids ++ made') (stores ++ copiesAll access worker ranges s)) ∨
    ∃ fault left s', AddressSpace.localizeRest access worker made ranges s = (.error fault, s') ∧
      s'.Current (ids ++ left) (stores ++ copiesAll access worker ranges s) := by
  induction ranges generalizing s made stores with
  | nil => exact .inl ⟨made, s, rfl, by rwa [copiesAll, List.append_nil]⟩
  | cons range rest ih =>
    have hp' := hp.of_sameHome (hp.localize_sameHome range.start range.len access worker)
    have hclass : AddressSpace.localize s = s.localize := rfl
    simp only [AddressSpace.localizeRest, hclass, copiesAll]
    rcases h.localize hp range.start range.len access worker with ⟨fault, s', he, h'⟩ |
      ⟨id, s', _, he, h', _⟩ <;> rw [he] at hp' ⊢ <;> dsimp only
    · rw [List.append_nil]
      cases fault with
      | refused error => exact .inr ⟨_, [], _, rfl, by rw [List.append_nil]; exact h'.unlocalizeAll⟩
      | panicked payload => exact .inr ⟨_, made, _, rfl, h'⟩
    · rw [← List.append_assoc]
      exact ih (by rwa [List.append_assoc] at h') hp'

/-! ## Fresh copies -/

theorem Touches.spans (ht : s.Touches ptr len key) {i : Nat} (hi : i < len) :
    s.Spans key (ptr.addr + i) := by
  obtain ⟨seg, hseg, off, ha, hlt, hle, rfl⟩ := ht
  have hsub : ptr.addr + i - seg.base.addr = off + i := by omega
  refine ⟨seg, hseg, rfl, ⟨by omega, by omega⟩, ?_, ?_⟩ <;> rw [hsub]
  · exact Nat.div_le_div_right (by omega)
  · exact Nat.div_le_div_right (by omega)

/-- A live mapping of blocks that were copied last reads what home memory holds. -/
theorem Current.reads_copy (h : s'.Current ids (stores ++ [s.copyOf key])) (hp : s'.Placed reach)
    (hhome : SameHome s s') (hm : s'.mappings[id]? = some mapping) (hl : mapping.live = true)
    (hk : s'.rangeOf id = some key) :
    ∃ bytes, s'.read id = .ok bytes ∧ s'.get mapping.start mapping.len = .ok bytes := by
  obtain ⟨key', bytes, hrange, hread, hlen, hbytes⟩ := h.read hp hm hl
  obtain rfl : key = key' := Option.some.inj (hk.symm.trans hrange)
  have ht : s'.Touches mapping.start mapping.len key := hp.runOf_eq_some.1 (rangeOf_eq_runOf hm ▸ hk)
  have hspans := (touches_of_sameHome hhome).1 ht
  obtain ⟨seg, hseg, off, ha, hlt, hle, _⟩ := ht
  have hlocate := hp.locate_eq_ok.2 ⟨hseg, ha, hlt, hle⟩
  refine ⟨bytes, hread, (hp.get_eq hlocate).trans (congrArg _ (List.ext_getElem? fun i => ?_))⟩
  have hwidth := (hp.wellFormed seg hseg).length_bytes
  by_cases hi : i < mapping.len
  · have hc : seg.Covers (mapping.start.addr + i) := ⟨by omega, by omega⟩
    have hsub : mapping.start.addr + i - seg.base.addr = off + i := by omega
    have hhomebyte : s.flat.byte (mapping.start.addr + i) = seg.bytes[off + i]? := by
      rw [← flat_of_sameHome hhome, ← hsub]
      exact hp.byteAt_of_covers hseg hc
    have hin : off + i < seg.bytes.length := by omega
    rw [hbytes i hi, latest_snoc, take_drop_getElem? hi]
    simp only [copyOf, if_true, if_pos (hspans.spans hi), hhomebyte, List.getElem?_eq_getElem hin,
      Option.some_or]
  · have hshort : ((seg.bytes.take (off + mapping.len)).drop off).length = mapping.len := by
      rw [List.length_drop, List.length_take]
      omega
    rw [List.getElem?_eq_none (by omega), List.getElem?_eq_none (by omega)]

/-- A mapping that had its blocks copied reads what home memory holds. -/
theorem Current.fresh (h : s.Current ids stores) (hp : s.Placed reach) {worker : WorkerId}
    (he : s.localize ptr len access worker = (.ok id, s'))
    (hf : access.refreshes = true ∨ ∀ key, s.runOf ptr len = some key → ¬ s.Outstanding key) :
    ∃ bytes, s'.read id = .ok bytes ∧ s'.get ptr len = .ok bytes := by
  have hhome := hp.localize_sameHome ptr len access worker
  rw [he] at hhome
  have hp' : s'.Placed reach := hp.of_sameHome hhome
  obtain ⟨key, ht⟩ : ∃ key, s.Touches ptr len key := by
    rcases s.localize_cases ptr len access worker with ⟨_, he'⟩ | ⟨seg, first, last, _, hplace, _⟩
    · rw [he] at he'; cases he'
    · exact ⟨_, (hp.touches hplace).2⟩
  have hcopies : s.copies ptr len access = [s.copyOf key] := by
    simp only [copies, hp.runOf_eq ht]
    exact if_pos (hf.imp_right fun hn => hn key (hp.runOf_eq ht))
  rcases h.localize hp ptr len access worker with ⟨_, _, he', _⟩ |
    ⟨_, _, mapping, he', hcurrent, hm, rfl, rfl, hl⟩ <;> rw [he] at he' <;> cases he'
  rw [hcopies] at hcurrent
  refine hcurrent.reads_copy hp' hhome hm hl ?_
  rw [rangeOf_eq_runOf hm, hp'.runOf_eq ((touches_of_sameHome hhome).2 ht)]

/-! ## Calls that store nothing -/

theorem Current.of_sameShape (h : s.Current ids stores) (hm : s'.mappings = s.mappings)
    (hc : s'.cache = s.cache) (hr : s'.regions = s.regions) (ho : SameShape s s') :
    s'.Current ids stores where
  shared := h.shared.of_sameShape hc hm hr ho
  complete id mapping hmap hl := h.complete id mapping (hm ▸ hmap) hl
  filled := h.filled.of_sameShape hr hc ho

theorem Current.alloc (h : s.Current ids stores) (hp : s.Placed reach) {size blockSize : Nat}
    (hr : reach + span size blockSize ≤ Word.bound) : (s.alloc size blockSize).2.Current ids stores where
  shared := h.shared.alloc hp hr
  complete id mapping hm hl := h.complete id mapping ((s.alloc_still size blockSize).mappings ▸ hm) hl
  filled := by
    rcases hp.alloc_cases hr with ⟨_, _, he⟩ | ⟨_, _, _, he⟩ <;> rw [he]
    · exact h.filled.still rfl rfl fun _ _ seg hseg _ => ⟨seg, hseg, rfl⟩
    · exact h.filled.still rfl rfl fun _ _ seg hseg _ => ⟨seg, List.mem_cons_of_mem _ hseg, rfl⟩

theorem Current.dealloc (h : s.Current ids stores) {base : Pointer} (hd : s.dealloc base = .ok s') :
    s'.Current ids stores where
  shared := h.shared.dealloc hd
  complete id mapping hm hl := h.complete id mapping ((dealloc_still hd).mappings ▸ hm) hl
  filled := by
    rcases s.dealloc_cases base with ⟨_, he⟩ | ⟨_, _, he⟩ | ⟨_, h0, he⟩ <;> rw [he] at hd <;> cases hd
    refine h.filled.still rfl (h.shared.filter_cache h0) fun entry hent seg hseg hb => ?_
    have hne : seg.base ≠ base := hb ▸ h.shared.not_cached h0 entry hent
    exact ⟨seg, List.mem_filter.2 ⟨hseg, by simpa using hne⟩, rfl⟩

theorem Current.put (h : s.Current ids stores) (hp : s.Placed reach) {new : Bytes}
    (hw : s.put ptr new = .ok s') : s'.Current ids stores := by
  have hshape := hp.put_sameShape hw
  cases hl : s.locate ptr new.length with
  | error fault => rw [put_of_error hl] at hw; cases hw
  | ok found =>
    rw [hp.put_eq hl] at hw; cases hw
    exact h.of_sameShape rfl rfl rfl hshape

end Space

/-! ## Runs -/

namespace Client

variable {c : Client} {stores : List Store} {reach : Nat}

/-- The mappings that are live, of which a client may hold the handles, read what is stored. -/
def Tracks (c : Client) (stores : List Store) : Prop :=
  ∃ ids, c.space.Current ids stores ∧ c.handles.Nodup ∧ c.handles ⊆ ids

theorem Tracks.keep (h : c.Tracks stores) {answer : Except Fault Space} {more : List Store}
    (hok : ∀ s ids, answer = .ok s → c.space.Current ids stores → s.Current ids (stores ++ more))
    (herr : ∀ fault, answer = .error fault → more = []) :
    (c.keep answer).2.Tracks (stores ++ more) := by
  obtain ⟨ids, hcurrent, hnodup, hsub⟩ := h
  cases answer with
  | ok s => exact ⟨ids, hok s ids rfl hcurrent, hnodup, hsub⟩
  | error fault =>
    rw [herr fault rfl, List.append_nil]
    exact ⟨ids, hcurrent, hnodup, hsub⟩

theorem Tracks.put (h : c.Tracks stores) (hp : c.space.Placed reach) (ptr : Pointer) (new : Bytes) :
    (c.keep (c.space.put ptr new)).2.Tracks (stores ++ []) := by
  refine h.keep (fun s ids he hcurrent => ?_) fun _ _ => rfl
  rw [List.append_nil]
  exact hcurrent.put hp he

/-- New handles are those of mappings that were not live before. -/
theorem nodup_append_of_subset {handles ids made : List MappingId} (hn : handles.Nodup)
    (hs : handles ⊆ ids) (h : (ids ++ made).Nodup) : (handles ++ made).Nodup := by
  obtain ⟨_, hmade, hapart⟩ := List.nodup_append.1 h
  exact List.nodup_append.2 ⟨hn, hmade, fun a ha => hapart a (hs ha)⟩

theorem Tracks.localizeAll (h : c.Tracks stores) (hp : c.space.Placed reach) (ranges : List Range)
    (access : Access) (worker : WorkerId) :
    (c.perform (.localizeAll ranges access worker)).2.Tracks
      (stores ++ Space.copiesAll access worker ranges c.space) := by
  obtain ⟨ids, hcurrent, hnodup, hsub⟩ := h
  have hstart : c.space.Current (ids ++ []) stores := by rwa [List.append_nil]
  simp only [perform, AddressSpace.localizeAll]
  rcases hstart.localizeRest hp access worker ranges with ⟨made, s', he, h'⟩ |
    ⟨fault, left, s', he, h'⟩ <;> rw [he]
  · exact ⟨ids ++ made, h', nodup_append_of_subset hnodup hsub h'.shared.nodup, fun id hid =>
      List.mem_append.2 ((List.mem_append.1 hid).imp_left fun hid => hsub hid)⟩
  · exact ⟨ids ++ left, h', hnodup, fun id hid => List.mem_append_left _ (hsub hid)⟩

/-- Mapping one range is mapping the list of it. -/
theorem perform_localize (c : Client) (ptr : Pointer) (len : Nat) (access : Access) (worker : WorkerId) :
    (c.perform (.localize ptr len access worker)).2 =
      (c.perform (.localizeAll [⟨ptr, len⟩] access worker)).2 := by
  simp only [perform, AddressSpace.localizeAll, AddressSpace.localizeRest,
    show AddressSpace.localize c.space = c.space.localize from rfl]
  rcases c.space.localize ptr len access worker with ⟨(error | payload) | id, s'⟩ <;> rfl

theorem Tracks.unlocalize (h : c.Tracks stores) (handle : MappingId) :
    (c.perform (.unlocalize handle)).2.Tracks stores := by
  obtain ⟨ids, hcurrent, hnodup, hsub⟩ := h
  simp only [perform]
  split
  · rename_i hm
    obtain ⟨pre, post, rfl⟩ := List.append_of_mem (hsub hm)
    refine ⟨pre ++ post, hcurrent.unlocalize, hnodup.erase _, fun id hid => ?_⟩
    obtain ⟨hne, hid⟩ := (hnodup.mem_erase_iff).1 hid
    have hmem := hsub hid
    simp only [List.mem_append, List.mem_cons] at hmem ⊢
    exact hmem.imp_right fun hmem => hmem.resolve_left hne
  · exact ⟨ids, hcurrent, hnodup, hsub⟩

/-- What a call stores is what the live mappings read after it, and nothing else changes that. -/
theorem Tracks.perform (h : c.Tracks stores) (hp : c.space.Placed reach) (op : SpaceOp)
    (hr : reach + op.span ≤ Word.bound) : (c.perform op).2.Tracks (stores ++ c.stores op) := by
  have hquiet : ∀ {c' : Client}, c'.Tracks stores → c'.Tracks (stores ++ []) := fun h' => by
    rwa [List.append_nil]
  cases op with
  | alloc size blockSize =>
    obtain ⟨ids, hcurrent, hhandles⟩ := h
    exact hquiet ⟨ids, hcurrent.alloc hp hr, hhandles⟩
  | dealloc base =>
    refine h.keep (fun s ids he hcurrent => ?_) fun _ _ => rfl
    show s.Current ids (stores ++ [])
    rw [List.append_nil]
    exact hcurrent.dealloc he
  | put ptr new => exact h.put hp ptr new
  | get ptr len => exact hquiet h
  | fill ptr value len =>
    simp only [Client.perform, Space.fill_eq_put]
    exact h.put hp ptr _
  | rmw ptr len update =>
    simp only [Client.perform, Space.rmw_eq]
    cases c.space.get ptr len with
    | error fault => exact hquiet h
    | ok old =>
      have hput := h.put hp ptr (update.run old)
      simp only [Except.bind]
      cases hw : c.space.put ptr (update.run old) <;> rw [hw] at hput <;> exact hput
  | commit ptr new => exact h.put hp ptr new
  | localize ptr len access worker =>
    rw [perform_localize]
    exact h.localizeAll hp _ access worker
  | localizeAll ranges access worker => exact h.localizeAll hp ranges access worker
  | unlocalize handle => exact hquiet (h.unlocalize handle)
  | write handle off new =>
    refine h.keep (fun s ids he hcurrent => hcurrent.write hp he) fun fault he => ?_
    simp only [Client.stores, Space.written, he]

theorem run_tracks (h : c.Tracks stores) (hp : c.space.Placed reach) (ops : List SpaceOp)
    (hr : reach + Word.total (ops.map SpaceOp.span) ≤ Word.bound) :
    (c.run ops).Tracks (stores ++ c.storesOf ops) := by
  induction ops generalizing c reach stores with
  | nil => rwa [storesOf, List.append_nil]
  | cons op rest ih =>
    rw [List.map_cons, Word.total_cons, ← Nat.add_assoc] at hr
    have hop : reach + op.span ≤ Word.bound := by omega
    rw [storesOf, ← List.append_assoc]
    exact ih (h.perform hp op hop) (perform_placed hp op hop) hr

/-- The mappings that are live after any calls share the cached regions, and have the stores so far in
them. -/
theorem run_current (numHomes : Nat) (ops : List SpaceOp) (hr : SpaceOp.addresses ops ≤ Word.bound) :
    ∃ ids, ((start numHomes).run ops).space.Current ids ((start numHomes).storesOf ops) := by
  have hstart : (start numHomes).Tracks [] := ⟨[], Space.current_new numHomes, .nil, fun _ h => h⟩
  obtain ⟨ids, h, -⟩ := run_tracks hstart (Space.placed_new numHomes) ops hr
  exact ⟨ids, h⟩

/-- What the live mappings of a client read, given what was stored so far. -/
structure Reads (c : Client) (stores : List Store) : Prop where
  read : ∀ (id : MappingId) (mapping : Mapping), c.space.mappings[id]? = some mapping →
    mapping.live = true → ∃ key bytes, c.space.rangeOf id = some key ∧ c.space.read id = .ok bytes ∧
      bytes.length = mapping.len ∧
      ∀ i < mapping.len, bytes[i]? = latest stores key (mapping.start.addr + i)
  /-- Two live mappings of the same blocks agree on the addresses that they share. -/
  agree : ∀ (id id' : MappingId) (mapping mapping' : Mapping), c.space.mappings[id]? = some mapping →
    c.space.mappings[id']? = some mapping' → mapping.live = true → mapping'.live = true →
    c.space.rangeOf id = c.space.rangeOf id' → ∃ bytes bytes', c.space.read id = .ok bytes ∧
      c.space.read id' = .ok bytes' ∧
      ∀ i < mapping.len, ∀ i' < mapping'.len, mapping.start.addr + i = mapping'.start.addr + i' →
        bytes[i]? = bytes'[i']?
  /-- A range that is refreshed, or of which the blocks are mapped anew, reads as home memory does. -/
  fresh : ∀ ptr len access worker id s', c.space.localize ptr len access worker = (.ok id, s') →
    (access.refreshes = true ∨ ∀ key, c.space.runOf ptr len = some key → ¬ c.space.Outstanding key) →
    ∃ bytes, s'.read id = .ok bytes ∧ s'.get ptr len = .ok bytes

/-- As long as the address counter has not wrapped, a live mapping reads what was stored last for its
own run of blocks: a copy of home memory, or what was written through a mapping of that run. -/
theorem run_reads (numHomes : Nat) (ops : List SpaceOp) (hr : SpaceOp.addresses ops ≤ Word.bound) :
    ((start numHomes).run ops).Reads ((start numHomes).storesOf ops) := by
  have hp := run_placed numHomes ops hr
  obtain ⟨ids, h⟩ := run_current numHomes ops hr
  refine ⟨fun id mapping hm hl => h.read hp hm hl, ?_, ?_⟩
  · intro id id' mapping mapping' hm hm' hl hl' hsame
    obtain ⟨key, bytes, hk, hread, _, hbytes⟩ := h.read hp hm hl
    obtain ⟨key', bytes', hk', hread', _, hbytes'⟩ := h.read hp hm' hl'
    obtain rfl := Option.some.inj (hk.symm.trans (hsame.trans hk'))
    refine ⟨bytes, bytes', hread, hread', fun i hi i' hi' haddr => ?_⟩
    rw [hbytes i hi, hbytes' i' hi', haddr]
  · exact fun ptr len access worker id s' he hf => h.fresh hp he hf

/-- Two overlapping runs of blocks: a write through one of them, a write to home memory, and then a
refresh of the other. -/
theorem run_reads_overlapping :
    let ops : List SpaceOp := [.alloc 16 4, .localize ⟨4096⟩ 4 .exclusive 0,
      .localize ⟨4098⟩ 4 .readOnly 0, .write 0 2 [7], .put ⟨4096⟩ [1, 2, 3, 4],
      .localize ⟨4097⟩ 5 .sharedWrite 0]
    SpaceOp.addresses ops ≤ Word.bound ∧ ((start 1).run ops).Reads ((start 1).storesOf ops) :=
  ⟨by decide, run_reads 1 _ (by decide)⟩

/-- The writer still reads its own byte, and the mappings of the other run read the refreshed copy. -/
example :
    let ops : List SpaceOp := [.alloc 16 4, .localize ⟨4096⟩ 4 .exclusive 0,
      .localize ⟨4098⟩ 4 .readOnly 0, .write 0 2 [7], .put ⟨4096⟩ [1, 2, 3, 4],
      .localize ⟨4097⟩ 5 .sharedWrite 0]
    [0, 1, 2].map (fun id => (((start 1).run ops).space.read id).toOption) =
      [some [0, 0, 7, 0], some [3, 4, 0, 0], some [2, 3, 4, 0, 0]] := by
  dsimp only
  decide

end Client

end TaskSpace

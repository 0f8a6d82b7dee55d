import Mathlib.Data.List.Dedup
import TaskSpace.Proofs.Memory.Handles

/-!
# The mapping table agrees with the handles

At every point of a run of a client the space says of its cache and its live mappings what the
handles that the client holds say; so a segment can be freed exactly when no handle of it is left.
-/

namespace TaskSpace

namespace Space

/-- The run of blocks that the range of a mapping touches, as home memory has it now. -/
def rangeOf (s : Space) (id : MappingId) : Option RegionKey :=
  s.mappings[id]?.bind fun mapping =>
    (s.locate mapping.start mapping.len).toOption.map fun (seg, off) =>
      ⟨seg.base, seg.blockOf off, seg.blockOf (off + mapping.len - 1)⟩

variable {s : Space} {reach : Nat} {handles : List MappingId} {id : MappingId} {mapping : Mapping}
  {key : RegionKey} {entry : CacheEntry}

theorem Placed.rangeOf_eq (hp : s.Placed reach) (hm : s.mappings[id]? = some mapping)
    (ht : s.Touches mapping.start mapping.len key) : s.rangeOf id = some key := by
  obtain ⟨seg, hseg, off, ha, hlt, hle, rfl⟩ := ht
  simp only [rangeOf, hm, Option.bind_some, hp.locate_eq_ok.2 ⟨hseg, ha, hlt, hle⟩,
    Except.toOption, Option.map_some]

/-- A handle held, its region, and the entry that the cache keeps for the range of the handle. -/
theorem Shared.shares (h : s.Shared handles) (hp : s.Placed reach) (hid : id ∈ handles) :
    ∃ mapping region entry, s.mappings[id]? = some mapping ∧ mapping.live = true ∧
      s.regions[mapping.region]? = some region ∧ entry ∈ s.cache ∧ entry.key = region.key ∧
      entry.region = mapping.region ∧ s.rangeOf id = some region.key := by
  obtain ⟨mapping, entry, hmap, hlive, hent, hreg, ht⟩ := h.held id hid
  obtain ⟨region, hr, hk, _⟩ := h.backed entry hent
  exact ⟨mapping, region, entry, hmap, hlive, hreg ▸ hr, hent, hk.symm, hreg,
    hk ▸ hp.rangeOf_eq hmap ht⟩

/-- The users of a cached region are the handles whose range is its run of blocks. -/
theorem Shared.refs_eq (h : s.Shared handles) (hp : s.Placed reach) (he : entry ∈ s.cache) :
    entry.refs = handles.countP fun id => s.rangeOf id = some entry.key := by
  rw [h.refs entry he]
  refine List.countP_congr fun id hid => ?_
  obtain ⟨mapping, region, entry', hmap, _, _, hent, hk, hreg, hrange⟩ := h.shares hp hid
  simp only [hmap, hrange, ← hk, ← hreg, Option.map_some, Option.some.injEq, decide_eq_true_eq]
  constructor
  · exact fun hr => by rw [h.eq_of_region hent he hr]
  · exact fun hk => by rw [h.eq_of_key hent he hk]

theorem Shared.mem_keys (h : s.Shared handles) (hp : s.Placed reach) :
    key ∈ s.cache.map CacheEntry.key ↔ ∃ id ∈ handles, s.rangeOf id = some key := by
  constructor
  · intro hm
    obtain ⟨entry, hent, rfl⟩ := List.mem_map.1 hm
    have hpos := h.used entry hent
    rw [h.refs_eq hp hent, List.countP_pos_iff] at hpos
    simpa using hpos
  · rintro ⟨id, hid, hrange⟩
    obtain ⟨_, region, entry, _, _, _, hent, hk, _, hrange'⟩ := h.shares hp hid
    rw [hrange, Option.some.injEq] at hrange'
    exact List.mem_map.2 ⟨entry, hent, by rw [hk, hrange']⟩

theorem Shared.cachedRegions_eq (h : s.Shared handles) (hp : s.Placed reach) :
    s.cachedRegions = (handles.filterMap s.rangeOf).dedup.length := by
  have hperm : (s.cache.map CacheEntry.key).Perm (handles.filterMap s.rangeOf).dedup := by
    refine (List.perm_ext_iff_of_nodup h.keys (List.nodup_dedup _)).2 fun key => ?_
    rw [h.mem_keys hp, List.mem_dedup, List.mem_filterMap]
  rw [cachedRegions, ← hperm.length_eq, List.length_map]

/-! ## Handles of one segment -/

theorem countP_or {α : Type} (l : List α) {p q : α → Prop} [DecidablePred p] [DecidablePred q]
    (hd : ∀ a ∈ l, p a → ¬ q a) :
    l.countP (fun a => p a ∨ q a) = l.countP (fun a => p a) + l.countP (fun a => q a) := by
  induction l with
  | nil => rfl
  | cons a rest ih =>
    have := hd a List.mem_cons_self
    simp only [List.countP_cons, ih fun b hb => hd b (List.mem_cons_of_mem a hb)]
    by_cases hp : p a <;> by_cases hq : q a <;> simp_all <;> omega

theorem total_countP {α β : Type} [DecidableEq β] (l : List α) (f : α → Option β) {keys : List β}
    (hk : keys.Nodup) :
    Word.total (keys.map fun key => l.countP fun a => f a = some key) =
      l.countP fun a => ∃ key ∈ keys, f a = some key := by
  induction keys with
  | nil => simp
  | cons key rest ih =>
    obtain ⟨hnot, hrest⟩ := List.nodup_cons.1 hk
    rw [List.map_cons, Word.total_cons, ih hrest, ← countP_or]
    · simp only [List.exists_mem_cons_iff]
    · rintro a _ he ⟨key', hm, he'⟩
      rw [he, Option.some.injEq] at he'
      exact hnot (he' ▸ hm)

def handlesIn (s : Space) (handles : List MappingId) (base : Pointer) : Nat :=
  handles.countP fun id => (s.rangeOf id).map RegionKey.segment = some base

theorem Shared.refsIn_eq (h : s.Shared handles) (hp : s.Placed reach) (base : Pointer) :
    s.refsIn base = s.handlesIn handles base := by
  have hsub : ((s.cache.filter fun entry => entry.key.segment = base).map CacheEntry.key).Nodup :=
    h.keys.sublist (List.filter_sublist.map _)
  have hrefs : s.refsIn base =
      Word.total (((s.cache.filter fun entry => entry.key.segment = base).map CacheEntry.key).map fun key =>
        handles.countP fun id => s.rangeOf id = some key) := by
    rw [refsIn, List.map_map]
    congr 1
    exact List.map_congr_left fun entry he => h.refs_eq hp (List.mem_filter.1 he).1
  rw [hrefs, total_countP _ _ hsub]
  refine List.countP_congr fun id hid => ?_
  obtain ⟨_, region, entry, _, _, _, hent, hk, _, hrange⟩ := h.shares hp hid
  simp only [hrange, decide_eq_true_eq, Option.map_some, Option.some.injEq, List.mem_map,
    List.mem_filter]
  constructor
  · rintro ⟨_, ⟨entry', ⟨_, hbase⟩, rfl⟩, he⟩
    rw [he, hbase]
  · intro hbase
    exact ⟨_, ⟨entry, ⟨hent, by rw [hk, hbase]⟩, hk⟩, rfl⟩

end Space

/-! ## Runs -/

namespace Client

/-- The handles that a call makes, and the one that it may fail to make. -/
def asked (c : Client) : SpaceOp → Nat
  | .localize .. => 1
  | .localizeAll ranges access worker => c.space.reached access worker ranges
  | _ => 0

/-- During some calls the handles outstanding always fit a word. -/
def Roomy (c : Client) : List SpaceOp → Prop
  | [] => True
  | op :: rest => c.handles.length + c.asked op < Word.bound ∧ (c.perform op).2.Roomy rest

/-- What the mapping table says, and what the handles held say. -/
structure Consistent (c : Client) : Prop where
  liveMappings : c.space.liveMappings = c.handles.length
  cachedRegions : c.space.cachedRegions = (c.handles.filterMap c.space.rangeOf).dedup.length
  refs : ∀ entry ∈ c.space.cache, 0 < entry.refs ∧
    entry.refs = c.handles.countP fun id => c.space.rangeOf id = some entry.key
  /-- A handle points at the very region that the cache keeps for its range. -/
  shared : ∀ id ∈ c.handles, ∃ mapping region entry, c.space.mappings[id]? = some mapping ∧
    mapping.live = true ∧ c.space.regions[mapping.region]? = some region ∧
    c.space.rangeOf id = some region.key ∧ c.space.entry? region.key = some entry ∧
    entry.region = mapping.region
  allocated : ∀ entry ∈ c.space.cache, ∃ seg ∈ c.space.segments, seg.base = entry.key.segment
  dealloc_eq : ∀ base, c.space.dealloc base =
    if ∀ seg ∈ c.space.segments, seg.base ≠ base then .error (.refused (.unknownSegment base))
    else if 0 < c.space.handlesIn c.handles base then
      .error (.refused (.segmentInUse base (c.space.handlesIn c.handles base)))
    else .ok { c.space with segments := c.space.segments.filter fun seg => seg.base ≠ base }

variable {c : Client} {reach : Nat}

/-- A segment can be freed when no handle of it is held. -/
theorem dealloc_eq (h : c.space.Counted c.handles) (hp : c.space.Placed reach) (base : Pointer) :
    c.space.dealloc base =
      if ∀ seg ∈ c.space.segments, seg.base ≠ base then .error (.refused (.unknownSegment base))
      else if 0 < c.space.handlesIn c.handles base then
        .error (.refused (.segmentInUse base (c.space.handlesIn c.handles base)))
      else .ok { c.space with segments := c.space.segments.filter fun seg => seg.base ≠ base } := by
  rw [← h.shared.refsIn_eq hp]
  rcases c.space.dealloc_cases base with ⟨hn, he⟩ | ⟨⟨seg, hm, hb⟩, hpos, he⟩ |
    ⟨⟨seg, hm, hb⟩, h0, he⟩
  · rw [he, if_pos hn]
  · rw [he, if_neg (fun hn => hn seg hm hb), if_pos hpos]
  · rw [he, if_neg (fun hn => hn seg hm hb), if_neg (by omega)]
    rw [h.shared.filter_cache h0]

theorem consistent (h : c.space.Counted c.handles) (hp : c.space.Placed reach) : c.Consistent where
  liveMappings := h.live
  cachedRegions := h.shared.cachedRegions_eq hp
  refs entry he := ⟨h.used entry he, h.shared.refs_eq hp he⟩
  shared id hid := by
    obtain ⟨mapping, region, entry, hmap, hlive, hr, hent, hk, hreg, hrange⟩ := h.shared.shares hp hid
    exact ⟨mapping, region, entry, hmap, hlive, hr, hrange,
      (Space.entry?_eq_some h.keys).2 ⟨hent, hk⟩, hreg⟩
  allocated entry he := by
    obtain ⟨region, _, hk, seg, hseg, hbase, _⟩ := h.backed entry he
    exact ⟨seg, hseg, by rw [hbase, hk]⟩
  dealloc_eq := dealloc_eq h hp

theorem perform_blocksFit (h : c.space.BlocksFit) (hp : c.space.Placed reach) (op : SpaceOp)
    (hw : op.Worded) (hr : reach + op.span ≤ Word.bound) : (c.perform op).2.space.BlocksFit := by
  rcases perform_shape hp op with ⟨size, blockSize, rfl, he⟩ | ⟨base, rfl, he⟩ | hs
  · rw [he]
    exact h.alloc hp hw hr
  · exact h.dealloc he
  · exact h.of_sameShape hs

theorem run_blocksFit (h : c.space.BlocksFit) (hp : c.space.Placed reach) (ops : List SpaceOp)
    (hw : ∀ op ∈ ops, op.Worded) (hr : reach + Word.total (ops.map SpaceOp.span) ≤ Word.bound) :
    (c.run ops).space.BlocksFit := by
  induction ops generalizing c reach with
  | nil => exact h
  | cons op rest ih =>
    rw [List.map_cons, Word.total_cons, ← Nat.add_assoc] at hr
    have hop : reach + op.span ≤ Word.bound := by omega
    exact ih (perform_blocksFit h hp op (hw op List.mem_cons_self) hop) (perform_placed hp op hop)
      (fun op hm => hw op (List.mem_cons_of_mem _ hm)) hr

theorem keep_counted {answer : Except Fault Space} (h : c.space.Counted c.handles)
    (ha : ∀ s, answer = .ok s → s.Counted c.handles) :
    (c.keep answer).2.space.Counted (c.keep answer).2.handles := by
  cases answer with
  | ok s => exact ha s rfl
  | error fault => exact h

theorem perform_counted (h : c.space.Counted c.handles) (hp : c.space.Placed reach)
    (hf : c.space.BlocksFit) (op : SpaceOp) (hr : reach + op.span ≤ Word.bound)
    (hroom : c.handles.length + c.asked op < Word.bound) :
    (c.perform op).2.space.Counted (c.perform op).2.handles := by
  cases op with
  | alloc size blockSize => exact h.alloc hp hr
  | dealloc base => exact keep_counted h fun s he => h.dealloc he
  | put ptr new => exact keep_counted h fun s he => h.put hp he
  | get ptr len => exact h
  | fill ptr value len =>
    exact keep_counted h fun s he => h.put hp (Space.fill_eq_put _ _ _ _ ▸ he)
  | rmw ptr len update =>
    simp only [perform, Space.rmw_eq]
    cases c.space.get ptr len with
    | error fault => exact h
    | ok old =>
      simp only [Except.bind]
      cases hw : c.space.put ptr (update.run old) with
      | error fault => exact h
      | ok s => exact h.put hp hw
  | commit ptr new => exact keep_counted h fun s he => h.put hp he
  | localize ptr len access worker =>
    rcases h.localize hp ptr len access worker (fun _ _ _ => hroom) with
      ⟨fault, s', he, h'⟩ | ⟨id, s', he, h'⟩
    · simp only [perform, he]; exact h'
    · simp only [perform, he]; exact h'
  | localizeAll ranges access worker =>
    have hall : c.space.Counted (c.handles ++ []) := by rwa [List.append_nil]
    have hroom : (c.handles ++ []).length + c.space.reached access worker ranges < Word.bound := by
      rw [List.append_nil]; exact hroom
    rcases hall.localizeRest hp hf hroom with ⟨ids, s', he, h'⟩ | ⟨error, s', he, h'⟩
    · simp only [perform, AddressSpace.localizeAll, he]; exact h'
    · simp only [perform, AddressSpace.localizeAll, he]; exact h'
  | unlocalize handle =>
    simp only [perform]
    split
    · rename_i hm
      obtain ⟨pre, post, _, hsplit, herase⟩ := List.exists_erase_eq hm
      rw [herase]
      exact (hsplit ▸ h).unlocalize
    · exact h
  | write handle off new => exact keep_counted h fun s he => h.write he

theorem run_counted (h : c.space.Counted c.handles) (hp : c.space.Placed reach)
    (hf : c.space.BlocksFit) (ops : List SpaceOp) (hw : ∀ op ∈ ops, op.Worded)
    (hr : reach + Word.total (ops.map SpaceOp.span) ≤ Word.bound) (hroom : c.Roomy ops) :
    (c.run ops).space.Counted (c.run ops).handles := by
  induction ops generalizing c reach with
  | nil => exact h
  | cons op rest ih =>
    rw [List.map_cons, Word.total_cons, ← Nat.add_assoc] at hr
    have hop : reach + op.span ≤ Word.bound := by omega
    exact ih (perform_counted h hp hf op hop hroom.1) (perform_placed hp op hop)
      (perform_blocksFit hf hp op (hw op List.mem_cons_self) hop)
      (fun op hm => hw op (List.mem_cons_of_mem _ hm)) hr hroom.2

/-- The mapping table agrees with the handles held after any calls, as long as neither the address
counter nor the handles leave a word. -/
theorem run_consistent (numHomes : Nat) (ops : List SpaceOp) (hw : ∀ op ∈ ops, op.Worded)
    (hr : SpaceOp.addresses ops ≤ Word.bound) (hroom : (start numHomes).Roomy ops) :
    ((start numHomes).run ops).Consistent :=
  consistent (run_counted (Space.counted_new numHomes) (Space.placed_new numHomes)
    (Space.blocksFit_new numHomes) ops hw hr hroom) (run_placed numHomes ops hr)

instance decidableRoomy : (c : Client) → (ops : List SpaceOp) → Decidable (c.Roomy ops)
  | _, [] => .isTrue trivial
  | c, op :: rest =>
    have := decidableRoomy (c.perform op).2 rest
    inferInstanceAs (Decidable (_ ∧ _))

/-- Two overlapping ranges with three handles, of which one is released. -/
theorem run_consistent_overlapping :
    let ops : List SpaceOp := [.alloc 8 4, .localize ⟨4096⟩ 4 .readOnly 1,
      .localizeAll [⟨⟨4096⟩, 2⟩, ⟨⟨4098⟩, 4⟩] .sharedWrite 1, .unlocalize 1, .dealloc ⟨4096⟩]
    ((∀ op ∈ ops, op.Worded) ∧ SpaceOp.addresses ops ≤ Word.bound ∧ (start 2).Roomy ops) ∧
      ((start 2).run ops).Consistent :=
  ⟨by decide, run_consistent 2 _ (by decide) (by decide) (by decide)⟩

end Client

end TaskSpace

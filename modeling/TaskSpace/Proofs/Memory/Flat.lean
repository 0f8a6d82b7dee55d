import TaskSpace.Proofs.Memory.Client

/-!
# Home memory is a flat byte memory

`FlatMemory` has no segments to search, no blocks and no cache: a partial map from addresses to
bytes, and the extents it is made of. Every run of a client is a run of it, answer by answer.
-/

namespace TaskSpace

def Range.Contains (r : Range) (addr : Nat) : Prop :=
  r.start.addr ≤ addr ∧ addr < r.start.addr + r.len

instance (r : Range) (addr : Nat) : Decidable (r.Contains addr) :=
  inferInstanceAs (Decidable (_ ∧ _))

@[ext] structure FlatMemory where
  extents : List Range
  byte : Nat → Option UInt8

/-! ## The flat memory and its operations -/

namespace FlatMemory

def empty : FlatMemory := ⟨[], fun _ => none⟩

/-- The map grows by the addresses of an extent, each of which holds zero. -/
def add (f : FlatMemory) (r : Range) : FlatMemory where
  extents := r :: f.extents
  byte addr := if r.Contains addr then some 0 else f.byte addr

/-- The map loses the addresses of the extents that start at `base`. -/
def remove (f : FlatMemory) (base : Pointer) : FlatMemory where
  extents := f.extents.filter fun r => r.start ≠ base
  byte addr := if ∃ r ∈ f.extents, r.start = base ∧ r.Contains addr then none else f.byte addr

def overwrite (f : FlatMemory) (ptr : Pointer) (new : Bytes) : FlatMemory where
  extents := f.extents
  byte addr :=
    if Range.Contains ⟨ptr, new.length⟩ addr then new[addr - ptr.addr]? else f.byte addr

/-- The bytes of a range, from the first to the last, are `bytes`. -/
def Holds (f : FlatMemory) (ptr : Pointer) (len : Nat) (bytes : Bytes) : Prop :=
  (List.range len).map (fun i => f.byte (ptr.addr + i)) = bytes.map some

/-- Why a range cannot be accessed, in order of precedence, or `none` if it can. -/
def refusal (f : FlatMemory) (ptr : Pointer) (len : Nat) : Option AccessError :=
  if ptr.isNull then some .nullPointer
  else if ∀ r ∈ f.extents, ¬ r.Contains ptr.addr then some (.unknownSegment ptr)
  else if ∃ r ∈ f.extents, r.Contains ptr.addr ∧ ptr.addr + len ≤ r.start.addr + r.len then none
  else some (.outOfBounds ptr len)

/-- An access is refused and changes nothing, or else it does what `done` says. -/
def Accesses (f f' : FlatMemory) (ptr : Pointer) (len : Nat) {α : Type} (answer : Except Fault α)
    (done : α → Prop) : Prop :=
  match f.refusal ptr len with
  | some error => answer = .error (.refused error) ∧ f' = f
  | none => ∃ a, answer = .ok a ∧ done a

/-- What a call may answer at `f`, and the memory `f'` after it. Mappings are no part of the memory:
it does not say which handles a call gives, only that a segment in use stays. -/
def Step (f f' : FlatMemory) : (op : SpaceOp) → op.Answer → Prop
  | .alloc size blockSize, .ok base =>
    Space.Allocatable size blockSize ∧ base.addr ≠ 0 ∧ base.addr + size ≤ Word.bound ∧
      (∀ addr, Range.Contains ⟨base, size⟩ addr → f.byte addr = none) ∧ f' = f.add ⟨base, size⟩
  | .alloc size blockSize, .error _ => ¬ Space.Allocatable size blockSize ∧ f' = f
  | .dealloc base, .ok () => (∃ r ∈ f.extents, r.start = base) ∧ f' = f.remove base
  | .dealloc base, .error fault =>
    f' = f ∧ ((fault = .refused (.unknownSegment base) ∧ ∀ r ∈ f.extents, r.start ≠ base) ∨
      ∃ live, 0 < live ∧ fault = .refused (.segmentInUse base live) ∧ ∃ r ∈ f.extents, r.start = base)
  | .put ptr new, answer => f.Accesses f' ptr new.length answer fun _ => f' = f.overwrite ptr new
  | .commit ptr new, answer => f.Accesses f' ptr new.length answer fun _ => f' = f.overwrite ptr new
  | .fill ptr value len, answer =>
    f.Accesses f' ptr len answer fun _ => f' = f.overwrite ptr (List.replicate len value)
  | .get ptr len, answer => f.Accesses f' ptr len answer fun old => f.Holds ptr len old ∧ f' = f
  | .rmw ptr len update, answer =>
    f.Accesses f' ptr len answer fun old =>
      f.Holds ptr len old ∧ f' = f.overwrite ptr (update.run old)
  | .localize .., _ => f' = f
  | .localizeAll .., _ => f' = f
  | .unlocalize _, _ => f' = f
  | .write .., _ => f' = f

inductive Run : FlatMemory → List ((op : SpaceOp) × op.Answer) → FlatMemory → Prop
  | nil (f) : Run f [] f
  | cons {f f' f'' op answer rest} :
    Step f f' op answer → Run f' rest f'' → Run f (⟨op, answer⟩ :: rest) f''

/-- The map is defined on its extents, and these do not overlap. -/
structure Partitioned (f : FlatMemory) : Prop where
  isSome_byte : ∀ addr, (f.byte addr).isSome ↔ ∃ r ∈ f.extents, r.Contains addr
  disjoint : ∀ r ∈ f.extents, ∀ r' ∈ f.extents, ∀ addr, r.Contains addr → r'.Contains addr → r = r'

end FlatMemory

/-! ## The flat memory of a space -/

def Segment.extent (s : Segment) : Range := ⟨s.base, s.size⟩

namespace Space

variable {s s' : Space} {reach : Nat} {seg : Segment} {ptr : Pointer} {len : Nat}

def byteAt (s : Space) (addr : Nat) : Option UInt8 :=
  (s.segments.find? fun seg => decide (seg.Covers addr)).bind fun seg =>
    seg.bytes[addr - seg.base.addr]?

def flat (s : Space) : FlatMemory := ⟨s.segments.map Segment.extent, s.byteAt⟩

theorem Placed.byteAt_of_covers (h : s.Placed reach) (hm : seg ∈ s.segments) {addr : Nat}
    (hc : seg.Covers addr) : s.byteAt addr = seg.bytes[addr - seg.base.addr]? := by
  unfold byteAt
  cases hf : s.segments.find? (fun seg => decide (seg.Covers addr)) with
  | none => exact absurd hc (by simpa using List.find?_eq_none.1 hf seg hm)
  | some found =>
    have hcf : found.Covers addr := by simpa using List.find?_some hf
    rw [h.eq_of_covers (List.mem_of_find?_eq_some hf) hm hcf hc]
    rfl

theorem byteAt_of_not_covers {addr : Nat} (hn : ∀ seg ∈ s.segments, ¬ seg.Covers addr) :
    s.byteAt addr = none := by
  unfold byteAt
  rw [List.find?_eq_none.2 (by simpa using hn)]
  rfl

theorem flat_of_contents
    (h : s'.segments.map Segment.contents = s.segments.map Segment.contents) :
    s'.flat = s.flat := by
  have hflat : ∀ t : Space, t.flat =
      ⟨(t.segments.map Segment.contents).map Segment.extent, fun addr =>
        ((t.segments.map Segment.contents).find? fun seg => decide (seg.Covers addr)).bind fun seg =>
          seg.bytes[addr - seg.base.addr]?⟩ := by
    intro t
    simp [flat, List.find?_map, Option.bind_map, Function.comp_def, Segment.extent,
      Segment.contents, Segment.Covers]
    rfl
  rw [hflat, hflat, h]

theorem flat_of_sameHome (h : SameHome s s') : s'.flat = s.flat := flat_of_contents h.contents

theorem exists_extents {p : Range → Prop} :
    (∃ r ∈ s.flat.extents, p r) ↔ ∃ seg ∈ s.segments, p seg.extent := by
  simp only [flat, List.mem_map]
  constructor
  · rintro ⟨_, ⟨seg, hm, rfl⟩, hp⟩; exact ⟨seg, hm, hp⟩
  · rintro ⟨seg, hm, hp⟩; exact ⟨_, ⟨seg, hm, rfl⟩, hp⟩

theorem forall_extents {p : Range → Prop} :
    (∀ r ∈ s.flat.extents, p r) ↔ ∀ seg ∈ s.segments, p seg.extent := by
  simp [flat]

theorem Placed.flat_partitioned (h : s.Placed reach) : s.flat.Partitioned where
  isSome_byte addr := by
    rw [exists_extents]
    constructor
    · intro hs
      rcases Classical.em (∃ seg ∈ s.segments, seg.extent.Contains addr) with hc | hn
      · exact hc
      · have hnone : s.byteAt addr = none :=
          byteAt_of_not_covers fun seg hm hc => hn ⟨seg, hm, hc⟩
        simp [flat, hnone] at hs
    · rintro ⟨seg, hm, hc⟩
      have hb := (h.wellFormed seg hm).length_bytes
      have hin : addr - seg.base.addr < seg.bytes.length := by
        simp only [Segment.extent, Range.Contains] at hc; omega
      simp only [flat, h.byteAt_of_covers hm hc, List.getElem?_eq_getElem hin, Option.isSome_some]
  disjoint := by
    rw [forall_extents]
    intro seg hm
    rw [forall_extents]
    intro seg' hm' addr hc hc'
    rw [h.eq_of_covers hm hm' hc hc']

/-! ## Accesses -/

/-- A range that the flat memory refuses, the space refuses for the same reason. -/
theorem Placed.locate_of_refusal (h : s.Placed reach) {error : AccessError}
    (hr : s.flat.refusal ptr len = some error) : s.locate ptr len = .error (.refused error) := by
  unfold FlatMemory.refusal at hr
  simp only [exists_extents, forall_extents] at hr
  split at hr
  · rename_i h0
    cases hr
    rw [locate_eq, segmentAt_null s (by simpa [Pointer.isNull] using h0)]
  · rename_i h0
    have h0 : ptr.addr ≠ 0 := by simpa [Pointer.isNull] using h0
    split at hr
    · rename_i hn
      cases hr
      rw [locate_eq, h.segmentAt_eq_error h0 hn]
    · rename_i hn
      split at hr
      · cases hr
      · rename_i hfit
        cases hr
        obtain ⟨seg, hm, hc⟩ : ∃ seg ∈ s.segments, seg.extent.Contains ptr.addr := by
          simpa using hn
        exact h.locate_outOfBounds hm hc (Nat.lt_of_not_le fun hle => hfit ⟨seg, hm, hc, hle⟩)

/-- A range that the flat memory grants lies inside one segment. -/
theorem Placed.locate_of_granted (h : s.Placed reach) (hr : s.flat.refusal ptr len = none) :
    ∃ seg off, s.locate ptr len = .ok (seg, off) := by
  unfold FlatMemory.refusal at hr
  simp only [exists_extents, forall_extents] at hr
  split at hr
  · cases hr
  · split at hr
    · cases hr
    · split at hr
      · rename_i hfit
        obtain ⟨seg, hm, hc, hle⟩ := hfit
        simp only [Segment.extent, Range.Contains] at hc hle
        exact ⟨seg, ptr.addr - seg.base.addr,
          h.locate_eq_ok.2 ⟨hm, by omega, by omega, by omega⟩⟩
      · cases hr

/-- To show what an access does, it is enough to look at a range inside one segment. -/
theorem Placed.accesses (h : s.Placed reach) {α : Type} {f' : FlatMemory} {answer : Except Fault α}
    {done : α → Prop}
    (herr : ∀ fault, s.locate ptr len = .error fault → answer = .error fault ∧ f' = s.flat)
    (hok : ∀ seg off, s.locate ptr len = .ok (seg, off) → ∃ a, answer = .ok a ∧ done a) :
    s.flat.Accesses f' ptr len answer done := by
  unfold FlatMemory.Accesses
  cases hr : s.flat.refusal ptr len with
  | some error => exact herr _ (h.locate_of_refusal hr)
  | none =>
    obtain ⟨seg, off, hl⟩ := h.locate_of_granted hr
    exact hok seg off hl

theorem take_drop_getElem? {b : Bytes} {off len i : Nat} (hi : i < len) :
    ((b.take (off + len)).drop off)[i]? = b[off + i]? := by
  rw [List.getElem?_drop, List.getElem?_take_of_lt (by omega)]

theorem Placed.holds (h : s.Placed reach) {off : Nat} (hl : s.locate ptr len = .ok (seg, off)) :
    s.flat.Holds ptr len ((seg.bytes.take (off + len)).drop off) := by
  obtain ⟨hm, ha, hlt, hs⟩ := h.locate_eq_ok.1 hl
  have hb := (h.wellFormed seg hm).length_bytes
  refine List.ext_getElem? fun i => ?_
  simp only [List.getElem?_map]
  by_cases hi : i < len
  · have hc : seg.Covers (ptr.addr + i) := ⟨by omega, by omega⟩
    have hsub : ptr.addr + i - seg.base.addr = off + i := by omega
    have hin : off + i < seg.bytes.length := by omega
    simp only [List.getElem?_range hi, Option.map_some, flat, h.byteAt_of_covers hm hc, hsub,
      take_drop_getElem? hi, List.getElem?_eq_getElem hin]
  · rw [List.getElem?_eq_none (by simpa using hi), List.getElem?_eq_none (by simp; omega)]
    rfl

theorem overwrite_getElem? {b new : Bytes} {off : Nat} (h : off + new.length ≤ b.length) (i : Nat) :
    (b.take off ++ new ++ b.drop (off + new.length))[i]? =
      if off ≤ i ∧ i < off + new.length then new[i - off]? else b[i]? := by
  have ho : (b.take off).length = off := List.length_take_of_le (by omega)
  have hon : (b.take off ++ new).length = off + new.length := by rw [List.length_append, ho]
  split
  · rename_i hi
    rw [List.getElem?_append_left (by omega), List.getElem?_append_right (by omega), ho]
  · rename_i hi
    by_cases hlt : i < off
    · rw [List.getElem?_append_left (by omega), List.getElem?_append_left (by omega),
        List.getElem?_take_of_lt hlt]
    · rw [List.getElem?_append_right (by omega), List.getElem?_drop, hon]
      congr 1; omega

theorem Placed.flat_overwrite (h : s.Placed reach) {off : Nat} {new : Bytes}
    (hl : s.locate ptr new.length = .ok (seg, off)) :
    (s.storeSegment (seg.overwrite off new)).flat = s.flat.overwrite ptr new := by
  obtain ⟨hm, ha, _, hs⟩ := h.locate_eq_ok.1 hl
  have hb := (h.wellFormed seg hm).length_bytes
  have hput := h.of_sameShape (h.put_sameShape (h.put_eq hl))
  have hm' : seg.overwrite off new ∈ (s.storeSegment (seg.overwrite off new)).segments :=
    List.mem_map.2 ⟨seg, hm, by simp [Segment.overwrite]⟩
  refine FlatMemory.ext (h.map_storeSegment _ hm rfl rfl) (funext fun addr => ?_)
  simp only [flat, FlatMemory.overwrite]
  by_cases hc : seg.Covers addr
  · have hle := hc.1
    rw [hput.byteAt_of_covers hm' hc, h.byteAt_of_covers hm hc]
    simp only [Segment.overwrite]
    rw [overwrite_getElem? (by omega)]
    have hiff : (off ≤ addr - seg.base.addr ∧ addr - seg.base.addr < off + new.length) ↔
        Range.Contains ⟨ptr, new.length⟩ addr := by
      simp only [Range.Contains]; omega
    have hsub : addr - seg.base.addr - off = addr - ptr.addr := by omega
    simp only [hiff, hsub]
  · have hout : ¬ Range.Contains ⟨ptr, new.length⟩ addr := by
      simp only [Range.Contains, Segment.Covers] at hc ⊢; omega
    rw [if_neg hout]
    by_cases ho : ∃ other ∈ s.segments, other.Covers addr
    · obtain ⟨other, hmo, hco⟩ := ho
      have hne : other.base ≠ seg.base := fun he => hc (h.eq_of_base hmo hm he ▸ hco)
      have hmo' : other ∈ (s.storeSegment (seg.overwrite off new)).segments :=
        List.mem_map.2 ⟨other, hmo, by simp [Segment.overwrite, hne]⟩
      rw [hput.byteAt_of_covers hmo' hco, h.byteAt_of_covers hmo hco]
    · have hno : ∀ other ∈ s.segments, ¬ other.Covers addr := fun other hm hc => ho ⟨other, hm, hc⟩
      rw [byteAt_of_not_covers hno, byteAt_of_not_covers]
      intro new' hm'
      obtain ⟨old, hmo, rfl⟩ := List.mem_map.1 hm'
      split
      · exact hc
      · exact hno old hmo

/-- An allocation adds its addresses, which no byte was at. -/
theorem Placed.flat_alloc (h : s.Placed reach) {size blockSize : Nat}
    (hr : reach + span size blockSize ≤ Word.bound) :
    FlatMemory.Step s.flat (s.alloc size blockSize).2.flat (.alloc size blockSize)
      (s.alloc size blockSize).1 := by
  have hp : 0 < page := by decide
  have hle := h.page_le
  have hplaced := h.alloc hr
  rcases h.alloc_cases hr with ⟨hn, fault, he⟩ | ⟨ha, hlt, hroom, he⟩
  · rw [he]
    exact ⟨hn, rfl⟩
  · rw [he] at hplaced ⊢
    have hfree : ∀ addr, Range.Contains ⟨⟨reach⟩, size⟩ addr → ∀ seg ∈ s.segments, ¬ seg.Covers addr := by
      intro addr hc seg hm hcs
      have := h.below seg hm
      simp only [Range.Contains, Segment.Covers] at hc hcs
      omega
    refine ⟨ha, by simp only; omega, by simp only; omega, fun addr hc =>
      byteAt_of_not_covers (hfree addr hc), FlatMemory.ext rfl (funext fun addr => ?_)⟩
    simp only [flat, FlatMemory.add]
    by_cases hc : Range.Contains ⟨⟨reach⟩, size⟩ addr
    · rw [if_pos hc, hplaced.byteAt_of_covers (List.mem_cons_self) hc]
      have hin : addr - reach < size := by simp only [Range.Contains] at hc; omega
      exact List.getElem?_replicate_of_lt hin
    · rw [if_neg hc]
      have hn : ¬ (Segment.fresh ⟨reach⟩ size blockSize s.numHomes).Covers addr := hc
      unfold byteAt
      rw [List.find?_cons_of_neg (by simpa using hn)]

theorem Placed.flat_dealloc (h : s.Placed reach) {base : Pointer} (hd : s.dealloc base = .ok s') :
    s'.flat = s.flat.remove base := by
  have hplaced := h.dealloc hd
  rcases s.dealloc_cases base with ⟨_, he⟩ | ⟨_, _, he⟩ | ⟨_, _, he⟩ <;> rw [he] at hd <;> cases hd
  refine FlatMemory.ext ?_ (funext fun addr => ?_)
  · simp only [flat, FlatMemory.remove, List.filter_map]
    rfl
  · simp only [FlatMemory.remove, exists_extents]
    split
    · rename_i hg
      obtain ⟨gone, hmg, hbg, hcg⟩ := hg
      refine byteAt_of_not_covers fun seg hm hc => ?_
      obtain ⟨hm, hne⟩ := List.mem_filter.1 hm
      rw [h.eq_of_covers hm hmg hc hcg] at hne
      simp [show gone.base = base from hbg] at hne
    · rename_i hg
      by_cases hs : ∃ seg ∈ s.segments, seg.Covers addr
      · obtain ⟨seg, hm, hc⟩ := hs
        have hne : seg.base ≠ base := fun he => hg ⟨seg, hm, he, hc⟩
        have hm' : seg ∈ s.segments.filter fun seg => seg.base ≠ base :=
          List.mem_filter.2 ⟨hm, by simpa using hne⟩
        exact (hplaced.byteAt_of_covers hm' hc).trans (h.byteAt_of_covers hm hc).symm
      · have hno : ∀ seg ∈ s.segments, ¬ seg.Covers addr := fun seg hm hc => hs ⟨seg, hm, hc⟩
        exact (byteAt_of_not_covers fun seg hm => hno seg (List.mem_filter.1 hm).1).trans
          (byteAt_of_not_covers hno).symm

end Space

/-! ## Runs -/

namespace Client

variable {c : Client} {reach : Nat}

theorem keep_flat {answer : Except Fault Space} (h : ∀ s, answer = .ok s → s.flat = c.space.flat) :
    (c.keep answer).2.space.flat = c.space.flat := by
  cases answer with
  | ok s => exact h s rfl
  | error fault => rfl

theorem put_accesses (h : c.space.Placed reach) (ptr : Pointer) (new : Bytes) :
    c.space.flat.Accesses (c.keep (c.space.put ptr new)).2.space.flat ptr new.length
      (c.keep (c.space.put ptr new)).1
      fun _ => (c.keep (c.space.put ptr new)).2.space.flat = c.space.flat.overwrite ptr new := by
  refine h.accesses (fun fault hl => ?_) fun seg off hl => ?_
  · rw [Space.put_of_error hl]
    exact ⟨rfl, rfl⟩
  · rw [h.put_eq hl]
    exact ⟨(), rfl, h.flat_overwrite hl⟩

/-- A call does to the space what it may do to the flat memory. -/
theorem perform_step (h : c.space.Placed reach) (op : SpaceOp)
    (hr : reach + op.span ≤ Word.bound) :
    FlatMemory.Step c.space.flat (c.perform op).2.space.flat op (c.perform op).1 := by
  cases op with
  | alloc size blockSize => exact h.flat_alloc hr
  | dealloc base =>
    simp only [perform]
    rcases c.space.dealloc_cases base with ⟨hn, he⟩ | ⟨hb, hpos, he⟩ | ⟨hb, _, he⟩
    · rw [he]
      exact ⟨rfl, .inl ⟨rfl, Space.forall_extents.2 hn⟩⟩
    · rw [he]
      exact ⟨rfl, .inr ⟨_, hpos, rfl, Space.exists_extents.2 hb⟩⟩
    · rw [he]
      exact ⟨Space.exists_extents.2 hb, h.flat_dealloc he⟩
  | put ptr new => exact put_accesses h ptr new
  | commit ptr new => exact put_accesses h ptr new
  | fill ptr value len =>
    simp only [perform, Space.fill_eq_put]
    have := put_accesses h ptr (List.replicate len value)
    rwa [List.length_replicate] at this
  | get ptr len =>
    refine h.accesses (fun fault hl => ⟨Space.get_of_error hl, rfl⟩) fun seg off hl => ?_
    exact ⟨_, h.get_eq hl, h.holds hl, rfl⟩
  | rmw ptr len update =>
    refine h.accesses (fun fault hl => ?_) fun seg off hl => ?_
    · simp only [perform, Space.rmw_eq, Space.get_of_error hl]
      exact ⟨rfl, rfl⟩
    -- an update keeps the length, so the new bytes fit where the old ones lay
    · have hlen : (update.run ((seg.bytes.take (off + len)).drop off)).length = len := by
        obtain ⟨hm, _, _, hs⟩ := h.locate_eq_ok.1 hl
        have hb := (h.wellFormed seg hm).length_bytes
        rw [update.length_run, List.length_drop, List.length_take]
        omega
      have hl' := hl
      rw [← hlen] at hl'
      simp only [perform, Space.rmw_eq, h.get_eq hl, Except.bind, h.put_eq hl', Except.map]
      exact ⟨_, rfl, h.holds hl, h.flat_overwrite hl'⟩
  | localize ptr len access worker =>
    have hs := Space.flat_of_sameHome (h.localize_sameHome ptr len access worker)
    simp only [perform]
    split <;> rename_i he <;> rw [he] at hs <;> exact hs
  | localizeAll ranges access worker =>
    have hs := Space.flat_of_sameHome (h.localizeRest_sameHome access worker [] ranges)
    simp only [perform, AddressSpace.localizeAll]
    split <;> rename_i he <;> rw [he] at hs <;> exact hs
  | unlocalize handle =>
    simp only [perform]
    split
    · exact Space.flat_of_sameHome (Space.unlocalize_sameHome _ _)
    · rfl
  | write handle off new =>
    exact keep_flat fun s he => Space.flat_of_sameHome (Space.write_sameHome he)

theorem run_flat (h : c.space.Placed reach) (ops : List SpaceOp)
    (hr : reach + Word.total (ops.map SpaceOp.span) ≤ Word.bound) :
    FlatMemory.Run c.space.flat (c.answers ops) (c.run ops).space.flat := by
  induction ops generalizing c reach with
  | nil => exact .nil _
  | cons op rest ih =>
    rw [List.map_cons, Word.total_cons, ← Nat.add_assoc] at hr
    have hop : reach + op.span ≤ Word.bound := by omega
    exact .cons (perform_step h op hop) (ih (perform_placed h op hop) hr)

/-- As long as the address counter has not wrapped, a space is a flat byte memory: whatever is called,
every answer is one that the flat memory gives, and the bytes are the ones it then has. -/
theorem refines_flatMemory (numHomes : Nat) (ops : List SpaceOp)
    (hr : SpaceOp.addresses ops ≤ Word.bound) :
    FlatMemory.Run .empty ((start numHomes).answers ops) ((start numHomes).run ops).space.flat ∧
      ((start numHomes).run ops).space.flat.Partitioned ∧
      ∀ ptr value len, ((start numHomes).run ops).space.fill ptr value len =
        ((start numHomes).run ops).space.put ptr (List.replicate len value) := by
  refine ⟨?_, (run_placed numHomes ops hr).flat_partitioned, Space.fill_eq_put _⟩
  exact run_flat (c := start numHomes) (Space.placed_new numHomes) ops hr

/-- Two segments, a write up to the end of one, and an access one byte too long. -/
theorem refines_flatMemory_two_segments :
    let ops : List SpaceOp := [.alloc 8 4, .alloc 5000 16, .put ⟨4100⟩ [1, 2, 3, 4],
      .get ⟨4102⟩ 3, .dealloc ⟨12288⟩]
    SpaceOp.addresses ops ≤ Word.bound ∧
      FlatMemory.Run .empty ((start 2).answers ops) ((start 2).run ops).space.flat :=
  ⟨by decide, (refines_flatMemory 2 _ (by decide)).1⟩

end Client

end TaskSpace

import TaskSpace.Memory.Recorder

/-!
# Where segments lie

Segments never overlap, and every one of them ends below the address counter. `Space.Placed` says so
for a space whose counter, were it not a word, would stand at `reach`. It follows which segment a
search finds, and so what every access to home memory answers.
-/

namespace TaskSpace

/-! ## One segment -/

namespace Segment

/-- The segment without its homes: what it holds, and the number of its blocks. -/
def contents (s : Segment) : Segment := { s with homes := List.replicate s.homes.length 0 }

/-- The shape of a segment: its place, its size and its blocks, but nothing of what it holds. -/
def outline (s : Segment) : Segment := { s.contents with bytes := Bytes.zeros s.bytes.length }

def Covers (s : Segment) (addr : Nat) : Prop := s.base.addr ≤ addr ∧ addr < s.base.addr + s.size

instance (s : Segment) (addr : Nat) : Decidable (s.Covers addr) :=
  inferInstanceAs (Decidable (_ ∧ _))

structure WellFormed (s : Segment) : Prop where
  page_le : Space.page ≤ s.base.addr
  size_pos : 0 < s.size
  blockSize_pos : 0 < s.blockSize
  length_bytes : s.bytes.length = s.size
  length_homes : s.homes.length = Word.divUp s.size s.blockSize

@[simp] theorem outline_contents (s : Segment) : s.contents.outline = s.outline := by
  simp [outline, contents]

theorem outline_map_contents (segs : List Segment) :
    (segs.map contents).map outline = segs.map outline := by
  simp [List.map_map, Function.comp_def]

theorem wellFormed_outline {s : Segment} : s.outline.WellFormed ↔ s.WellFormed := by
  constructor
  · rintro ⟨h1, h2, h3, h4, h5⟩
    exact ⟨h1, h2, h3, by simpa [outline, contents, Bytes.zeros] using h4,
      by simpa [outline, contents] using h5⟩
  · rintro ⟨h1, h2, h3, h4, h5⟩
    exact ⟨h1, h2, h3, by simpa [outline, contents, Bytes.zeros] using h4,
      by simpa [outline, contents] using h5⟩

theorem fresh_wellFormed {base : Pointer} {size blockSize numHomes : Nat}
    (hb : Space.page ≤ base.addr) (hs : 0 < size) (hbs : 0 < blockSize) :
    (fresh base size blockSize numHomes).WellFormed :=
  ⟨hb, hs, hbs, by simp [fresh, Bytes.zeros], by simp [fresh]⟩

theorem WellFormed.covers_base {s : Segment} (h : s.WellFormed) : s.Covers s.base.addr :=
  ⟨Nat.le_refl _, Nat.lt_add_of_pos_right h.size_pos⟩

/-- Every offset inside a segment lies in one of its blocks. -/
theorem WellFormed.blockOf_lt {s : Segment} (h : s.WellFormed) {off : Nat} (ho : off < s.size) :
    s.blockOf off < s.homes.length := by
  rw [h.length_homes]
  refine Word.lt_divUp_of_mul_lt h.blockSize_pos ?_
  exact Nat.lt_of_le_of_lt (Nat.div_mul_le_self off s.blockSize) ho

theorem offset_refused {s : Segment} {ptr : Pointer} {len : Nat} {fault : Fault}
    (h : s.offset ptr len = .error fault) : fault = .refused (.outOfBounds ptr len) := by
  unfold offset at h
  repeat' split at h
  all_goals cases h
  all_goals rfl

/-- Two segments of one list, the higher one first, with an unmapped page between them. -/
def Apart (above below : Segment) : Prop :=
  below.base.addr + below.size + Space.page ≤ above.base.addr

end Segment

/-! ## All segments of a space -/

namespace Space

/-- How far an allocation moves the address counter. -/
def span (size blockSize : Nat) : Nat :=
  if size = 0 ∨ blockSize = 0 then 0 else ((reserve size).toOption).getD 0

structure Placed (s : Space) (reach : Nat) : Prop where
  nextAddr : s.nextAddr = Word.wrap reach
  page_le : page ≤ reach
  reach_le : reach ≤ Word.bound
  wellFormed : ∀ seg ∈ s.segments, seg.WellFormed
  below : ∀ seg ∈ s.segments, seg.base.addr + seg.size + page ≤ reach
  apart : s.segments.Pairwise Segment.Apart

variable {s s' : Space} {reach : Nat} {seg : Segment} {ptr : Pointer} {len : Nat}

theorem placed_new (numHomes : Nat) : (new numHomes).Placed page where
  nextAddr := rfl
  page_le := Nat.le_refl _
  reach_le := by decide
  wellFormed := by simp [new]
  below := by simp [new]
  apart := .nil

/-- The two spaces have segments of the same shapes at the same places. -/
structure SameShape (s s' : Space) : Prop where
  nextAddr : s'.nextAddr = s.nextAddr
  outline : s'.segments.map Segment.outline = s.segments.map Segment.outline

theorem SameShape.exists_outline (hs : SameShape s s') (hm : seg ∈ s.segments) :
    ∃ seg' ∈ s'.segments, seg'.outline = seg.outline := by
  have hmem := List.mem_map_of_mem hm (f := Segment.outline)
  rw [← hs.outline] at hmem
  exact List.mem_map.1 hmem

/-- The placement of a space depends on the shapes of its segments only. -/
theorem Placed.of_sameShape (h : s.Placed reach) (hs : SameShape s s') : s'.Placed reach := by
  obtain ⟨hn, ho⟩ := hs
  have wf : ∀ {t : Space}, (∀ seg ∈ t.segments, seg.WellFormed) ↔
      ∀ seg ∈ t.segments.map Segment.outline, seg.WellFormed := by
    simp [Segment.wellFormed_outline]
  have bl : ∀ {t : Space}, (∀ seg ∈ t.segments, seg.base.addr + seg.size + page ≤ reach) ↔
      ∀ seg ∈ t.segments.map Segment.outline, seg.base.addr + seg.size + page ≤ reach := by
    simp [Segment.outline, Segment.contents]
  have ap : ∀ {t : Space}, t.segments.Pairwise Segment.Apart ↔
      (t.segments.map Segment.outline).Pairwise Segment.Apart := by
    intro t
    rw [List.pairwise_map]
    rfl
  exact ⟨hn ▸ h.nextAddr, h.page_le, h.reach_le, wf.2 (ho ▸ wf.1 h.wellFormed),
    bl.2 (ho ▸ bl.1 h.below), ap.2 (ho ▸ ap.1 h.apart)⟩

/-! ## Searches -/

/-- The first segment that starts at or below an address is the one that covers it. -/
theorem find?_of_covers {segs : List Segment} {addr : Nat} (hp : segs.Pairwise Segment.Apart)
    (hm : seg ∈ segs) (hc : seg.Covers addr) :
    segs.find? (fun seg => decide (seg.base.addr ≤ addr)) = some seg := by
  induction segs with
  | nil => cases hm
  | cons head rest ih =>
    rcases List.mem_cons.1 hm with rfl | hm
    · exact List.find?_cons_of_pos (by simpa using hc.1)
    · have hlt : ¬ head.base.addr ≤ addr := by
        have := (List.pairwise_cons.1 hp).1 seg hm
        unfold Segment.Apart Segment.Covers at *; omega
      rw [List.find?_cons_of_neg (by simpa using hlt)]
      exact ih (List.pairwise_cons.1 hp).2 hm

theorem Placed.eq_of_covers (h : s.Placed reach) {a b : Segment} {addr : Nat}
    (ha : a ∈ s.segments) (hb : b ∈ s.segments) (hca : a.Covers addr) (hcb : b.Covers addr) :
    a = b := by
  have h1 := find?_of_covers h.apart ha hca
  rw [find?_of_covers h.apart hb hcb] at h1
  exact (Option.some.inj h1).symm

theorem Placed.eq_of_base (h : s.Placed reach) {a b : Segment} (ha : a ∈ s.segments)
    (hb : b ∈ s.segments) (he : a.base = b.base) : a = b :=
  h.eq_of_covers ha hb (h.wellFormed a ha).covers_base (he ▸ (h.wellFormed b hb).covers_base)

theorem Placed.stop_eq (h : s.Placed reach) (hm : seg ∈ s.segments) :
    seg.stop = .ok (seg.base.addr + seg.size) := by
  have hb := h.below seg hm
  have hr := h.reach_le
  have hp : 0 < page := by decide
  exact Fault.sum_eq_ok.2 ⟨by omega, rfl⟩

theorem Placed.segmentAt_eq_ok (h : s.Placed reach) :
    s.segmentAt ptr = .ok seg ↔ seg ∈ s.segments ∧ seg.Covers ptr.addr := by
  unfold segmentAt
  constructor
  · intro he
    split at he
    · cases he
    · split at he
      · cases he
      · rename_i found hf
        have hm := List.mem_of_find?_eq_some hf
        have hle := List.find?_some hf
        rw [h.stop_eq hm] at he
        simp only at he
        split at he
        · rename_i hlt
          cases he
          exact ⟨hm, by simpa using hle, hlt⟩
        · cases he
  · rintro ⟨hm, hc⟩
    have hw := (h.wellFormed seg hm).page_le
    have hp : 0 < page := by decide
    have hnull : ptr.isNull = false := by
      have := hc.1
      simp only [Pointer.isNull, decide_eq_false_iff_not]; omega
    simp only [hnull, find?_of_covers h.apart hm hc, h.stop_eq hm, hc.2]
    rfl

theorem Placed.segmentAt_eq_error (h : s.Placed reach) (h0 : ptr.addr ≠ 0)
    (hn : ∀ seg ∈ s.segments, ¬ seg.Covers ptr.addr) :
    s.segmentAt ptr = .error (.refused (.unknownSegment ptr)) := by
  unfold segmentAt
  simp only [Pointer.isNull, h0, decide_false, Bool.false_eq_true, if_false]
  split
  · rfl
  · rename_i found hf
    have hm := List.mem_of_find?_eq_some hf
    have hle := List.find?_some hf
    rw [h.stop_eq hm]
    have hlt : ¬ ptr.addr < found.base.addr + found.size := fun hlt =>
      hn found hm ⟨by simpa using hle, hlt⟩
    simp only [hlt, if_false]

theorem segmentAt_null (s : Space) (h0 : ptr.addr = 0) :
    s.segmentAt ptr = .error (.refused .nullPointer) := by
  simp [segmentAt, Pointer.isNull, h0]

theorem locate_eq (s : Space) (ptr : Pointer) (len : Nat) :
    s.locate ptr len = (match s.segmentAt ptr with
      | .error fault => .error fault
      | .ok seg => (seg.offset ptr len).map fun off => (seg, off)) := by
  unfold locate
  cases s.segmentAt ptr with
  | error fault => rfl
  | ok seg => simp only [bind, Except.bind]; cases seg.offset ptr len <;> rfl

/-- Where a range lies: in the one segment that covers its start, if it ends inside. -/
theorem Placed.locate_eq_ok (h : s.Placed reach) {off : Nat} :
    s.locate ptr len = .ok (seg, off) ↔
      seg ∈ s.segments ∧ ptr.addr = seg.base.addr + off ∧ off < seg.size ∧ off + len ≤ seg.size := by
  rw [locate_eq]
  constructor
  · intro he
    split at he
    · cases he
    · rename_i found hf
      obtain ⟨hm, hc⟩ := h.segmentAt_eq_ok.1 hf
      cases ho : found.offset ptr len with
      | error fault => rw [ho] at he; cases he
      | ok n =>
        rw [ho] at he; cases he
        obtain ⟨ha, _, hs⟩ := Segment.offset_eq_ok.1 ho
        have := hc.2
        exact ⟨hm, ha, by omega, hs⟩
  · rintro ⟨hm, ha, hlt, hs⟩
    have hb := h.below seg hm
    have hr := h.reach_le
    have hp : 0 < page := by decide
    have hc : seg.Covers ptr.addr := ⟨by omega, by omega⟩
    have ho : seg.offset ptr len = .ok off := Segment.offset_eq_ok.2 ⟨ha, by omega, hs⟩
    rw [h.segmentAt_eq_ok.2 ⟨hm, hc⟩]
    simp only [ho]
    rfl

/-- A range that lies in no segment is refused; looking for it never panics. -/
theorem Placed.locate_refused (h : s.Placed reach) {fault : Fault}
    (he : s.locate ptr len = .error fault) : ∃ error, fault = .refused error := by
  rw [locate_eq] at he
  by_cases h0 : ptr.addr = 0
  · rw [segmentAt_null s h0] at he
    cases he; exact ⟨_, rfl⟩
  by_cases hc : ∃ seg ∈ s.segments, seg.Covers ptr.addr
  · obtain ⟨seg, hm, hc⟩ := hc
    rw [h.segmentAt_eq_ok.2 ⟨hm, hc⟩] at he
    cases ho : seg.offset ptr len with
    | ok off => simp only [ho] at he; cases he
    | error fault => simp only [ho] at he; cases he; exact ⟨_, Segment.offset_refused ho⟩
  · rw [h.segmentAt_eq_error h0 fun seg hm hcs => hc ⟨seg, hm, hcs⟩] at he
    cases he; exact ⟨_, rfl⟩

theorem Placed.locate_outOfBounds (h : s.Placed reach) (hm : seg ∈ s.segments)
    (hc : seg.Covers ptr.addr) (hs : seg.base.addr + seg.size < ptr.addr + len) :
    s.locate ptr len = .error (.refused (.outOfBounds ptr len)) := by
  rw [locate_eq, h.segmentAt_eq_ok.2 ⟨hm, hc⟩]
  have hle := hc.1
  simp only [Segment.offset, Pointer.offsetFrom, hle, if_true, Word.add?]
  split
  · rfl
  · rename_i stop he
    split at he
    · cases he
      rw [if_neg (by omega)]
      rfl
    · cases he

end Space

end TaskSpace

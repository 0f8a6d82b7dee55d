import Mathlib.Data.List.Pairwise
import TaskSpace.Proofs.Memory.Flat

/-!
# The addresses handed out

An allocation takes the addresses above every earlier one, whether or not it succeeds, and nothing
gives addresses back. `SpaceOp.grants` says what a run hands out by a counter that is a natural number;
a space counts with a word, so its addresses are those, gone round. As long as they do not go round
no address is handed out twice, and the segment that holds an address is the only one that ever will.
-/

namespace TaskSpace

/-- The later range lies above the earlier one, with an unmapped page between them. -/
def Range.Apart (earlier later : Range) : Prop :=
  earlier.start.addr + earlier.len + Space.page ≤ later.start.addr

/-- The range at the address that a word has room for. -/
def Range.wrapped (r : Range) : Range := ⟨⟨Word.wrap r.start.addr⟩, r.len⟩

theorem Range.Apart.not_contains {r r' : Range} (h : r.Apart r') {addr : Nat} (hc : r.Contains addr) :
    ¬ r'.Contains addr := by
  unfold Range.Apart Range.Contains at *
  omega

theorem Range.apart_or {l : List Range} (h : l.Pairwise Range.Apart) {r r' : Range} (hm : r ∈ l)
    (hm' : r' ∈ l) (hne : r ≠ r') : r.Apart r' ∨ r'.Apart r := by
  have hp : l.Pairwise fun a b => a.Apart b ∨ b.Apart a := h.imp Or.inl
  have hsymm : Std.Symm fun a b : Range => a.Apart b ∨ b.Apart a := ⟨fun _ _ => Or.symm⟩
  exact hp.forall hm hm' hne

theorem Range.wrapped_of_lt {r : Range} (h : r.start.addr < Word.bound) : r.wrapped = r := by
  unfold wrapped
  rw [Word.wrap_of_lt h]

/-! ## What the calls of a run ask for -/

namespace SpaceOp

/-- What a call hands out when the counter stands at `reach`. -/
def grant (reach : Nat) : SpaceOp → Option Range
  | alloc size blockSize => if Space.Allocatable size blockSize then some ⟨⟨reach⟩, size⟩ else none
  | _ => none

/-- What some calls hand out, in order, when the counter stands at `reach` before them. -/
def grants (reach : Nat) : List SpaceOp → List Range
  | [] => []
  | op :: rest => (op.grant reach).toList ++ grants (reach + op.span) rest

/-- The range that a call was given, if its answer gives one. -/
def granted : (op : SpaceOp) × op.Answer → Option Range
  | ⟨alloc size _, .ok base⟩ => some ⟨base, size⟩
  | _ => none

/-- The base that a call freed, if it did. -/
def freed : (op : SpaceOp) × op.Answer → Option Pointer
  | ⟨dealloc base, .ok _⟩ => some base
  | _ => none

variable {reach : Nat} {r : Range}

theorem Allocatable.span_room {size blockSize : Nat} (h : Space.Allocatable size blockSize) :
    size + Space.page ≤ Space.span size blockSize := by
  obtain ⟨reserved, hr⟩ := h.reserve
  rw [Space.span_eq h.1 h.2.1 hr]
  exact Space.size_add_page_le hr

theorem page_dvd_span (op : SpaceOp) : Space.page ∣ op.span := by
  cases op with
  | alloc size blockSize =>
    simp only [span, Space.span]
    split
    · exact Nat.dvd_zero _
    · cases hr : Space.reserve size with
      | error fault => exact Nat.dvd_zero _
      | ok reserved =>
        obtain ⟨_, rfl⟩ := Space.reserve_eq_ok.1 hr
        exact Nat.dvd_add (Nat.dvd_mul_left _ _) (Nat.dvd_refl _)
  | _ => exact Nat.dvd_zero _

theorem grant_eq_some {op : SpaceOp} (h : op.grant reach = some r) :
    r.start.addr = reach ∧ r.start.addr + r.len + Space.page ≤ reach + op.span := by
  cases op with
  | alloc size blockSize =>
    simp only [grant, Option.ite_none_right_eq_some, Option.some.injEq] at h
    obtain ⟨ha, rfl⟩ := h
    have hroom := Allocatable.span_room ha
    simp only [span, true_and]
    omega
  | _ => cases h

/-- What a run hands out lies between the counter before and the counter after it. -/
theorem mem_grants {ops : List SpaceOp} (h : r ∈ grants reach ops) :
    reach ≤ r.start.addr ∧
      r.start.addr + r.len + Space.page ≤ reach + Word.total (ops.map span) := by
  induction ops generalizing reach with
  | nil => cases h
  | cons op rest ih =>
    rw [List.map_cons, Word.total_cons]
    rcases List.mem_append.1 h with h | h
    · obtain ⟨ha, hle⟩ := grant_eq_some (Option.mem_toList.1 h)
      omega
    · obtain ⟨hle, hle'⟩ := ih h
      omega

theorem page_dvd_of_mem_grants {ops : List SpaceOp} (hp : Space.page ∣ reach)
    (h : r ∈ grants reach ops) : Space.page ∣ r.start.addr := by
  induction ops generalizing reach with
  | nil => cases h
  | cons op rest ih =>
    rcases List.mem_append.1 h with h | h
    · rwa [(grant_eq_some (Option.mem_toList.1 h)).1]
    · exact ih (Nat.dvd_add hp op.page_dvd_span) h

theorem grants_apart (reach : Nat) (ops : List SpaceOp) : (grants reach ops).Pairwise Range.Apart := by
  induction ops generalizing reach with
  | nil => exact .nil
  | cons op rest ih =>
    refine List.pairwise_append.2 ⟨?_, ih _, fun r hr r' hr' => ?_⟩
    · cases op.grant reach with
      | none => exact .nil
      | some r => exact List.pairwise_singleton _ _
    · have hle := (grant_eq_some (Option.mem_toList.1 hr)).2
      exact Nat.le_trans hle (mem_grants hr').1

end SpaceOp

/-! ## The counter of a space -/

namespace Space

variable {s s' : Space} {reach : Nat} {ptr : Pointer} {len : Nat}

/-- An allocation moves the counter by its span and answers where the counter stood, gone round. -/
theorem alloc_counts (hn : s.nextAddr = Word.wrap reach) (size blockSize : Nat) :
    (s.alloc size blockSize).2.nextAddr = Word.wrap (reach + span size blockSize) ∧
      SpaceOp.granted ⟨.alloc size blockSize, (s.alloc size blockSize).1⟩ =
        (SpaceOp.grant reach (.alloc size blockSize)).map Range.wrapped := by
  have hround : ∀ n, Word.wrap (Word.wrap reach + n) = Word.wrap (reach + n) :=
    fun n => Nat.mod_add_mod _ _ _
  by_cases hz : size = 0 ∨ blockSize = 0
  · have hno : ¬ Allocatable size blockSize := fun ha => by
      have := ha.1; have := ha.2.1; omega
    simp [alloc, span, hz, hn, SpaceOp.granted, SpaceOp.grant, hno]
  · cases hres : reserve size with
    | error fault =>
      have hno : ¬ Allocatable size blockSize := fun ha => by
        obtain ⟨r, hr⟩ := ha.reserve
        rw [hr] at hres; cases hres
      simp [alloc, span, hz, hres, hn, SpaceOp.granted, SpaceOp.grant, hno, Except.toOption]
    | ok reserved =>
      have hspan : span size blockSize = reserved := span_eq (by omega) (by omega) hres
      by_cases hc : maxBlocks < Word.divUp size blockSize ∨ Word.maxLength < size
      · have hno : ¬ Allocatable size blockSize := fun ha => by
          have := ha.2.2.1; have := ha.2.2.2; omega
        simp [alloc, hz, hres, hn, hspan, hc, hround, SpaceOp.granted, SpaceOp.grant, hno]
      · have hyes : Allocatable size blockSize := ⟨by omega, by omega, by omega, by omega⟩
        simp [alloc, hz, hres, hn, hspan, hc, hround, SpaceOp.granted, SpaceOp.grant, hyes,
          Range.wrapped]

theorem put_nextAddr {new : Bytes} (h : s.put ptr new = .ok s') : s'.nextAddr = s.nextAddr := by
  obtain ⟨_, _, _, _, _, rfl⟩ := put_cases h
  rfl

theorem localize_nextAddr (s : Space) (ptr : Pointer) (len : Nat) (access : Access)
    (worker : WorkerId) : (s.localize ptr len access worker).2.nextAddr = s.nextAddr := by
  rcases s.localize_cases ptr len access worker with ⟨_, he⟩ | ⟨seg, first, last, moved, _, _, _, he⟩
  · rw [he]
  · have hacq := (acquire_sameHome (s.storeSegment moved) moved ⟨moved.base, first, last⟩
      access.refreshes).nextAddr
    rcases he with ⟨_, _, ha, he⟩ | ⟨_, _, ha, he⟩ <;> rw [ha] at hacq <;> rw [he] <;> exact hacq

theorem localizeRest_nextAddr (access : Access) (worker : WorkerId) (made : List MappingId)
    (ranges : List Range) (s : Space) :
    (AddressSpace.localizeRest access worker made ranges s).2.nextAddr = s.nextAddr := by
  induction ranges generalizing s made with
  | nil => rfl
  | cons range rest ih =>
    have hstep := s.localize_nextAddr range.start range.len access worker
    simp only [AddressSpace.localizeRest]
    split <;> rename_i he <;> rw [show AddressSpace.localize s = s.localize from rfl] at he <;>
      rw [he] at hstep
    · exact (ih _ _).trans hstep
    · exact (unlocalizeAll_sameHome _ made).nextAddr.trans hstep
    · exact hstep

theorem dealloc_nextAddr {base : Pointer} (h : s.dealloc base = .ok s') :
    s'.nextAddr = s.nextAddr := by
  rcases s.dealloc_cases base with ⟨_, he⟩ | ⟨_, _, he⟩ | ⟨_, _, he⟩ <;> rw [he] at h <;> cases h
  rfl

/-! ## Addresses that nothing holds -/

/-- Every access at `ptr` is refused for want of a segment, and so is freeing it. -/
structure Unknown (s : Space) (ptr : Pointer) : Prop where
  get : ∀ len, s.get ptr len = .error (.refused (.unknownSegment ptr))
  put : ∀ new, s.put ptr new = .error (.refused (.unknownSegment ptr))
  fill : ∀ value len, s.fill ptr value len = .error (.refused (.unknownSegment ptr))
  rmw : ∀ len update, s.rmw ptr len update = .error (.refused (.unknownSegment ptr))
  commit : ∀ new, s.commit ptr new = .error (.refused (.unknownSegment ptr))
  homeOf : s.homeOf ptr = .error (.refused (.unknownSegment ptr))
  localize : ∀ len access worker, access.isValid → 0 < len →
    s.localize ptr len access worker = (.error (.refused (.unknownSegment ptr)), s)
  dealloc : s.dealloc ptr = .error (.refused (.unknownSegment ptr))

theorem Placed.unknown (h : s.Placed reach) (h0 : ptr.addr ≠ 0)
    (hn : ∀ seg ∈ s.segments, ¬ seg.Covers ptr.addr) : s.Unknown ptr := by
  have hat := h.segmentAt_eq_error h0 hn
  have hl : ∀ len, s.locate ptr len = .error (.refused (.unknownSegment ptr)) := by
    intro len
    rw [locate_eq, hat]
  exact {
    get := fun len => get_of_error (hl len)
    put := fun new => put_of_error (hl new.length)
    fill := fun value len => by rw [fill_eq_put]; exact put_of_error (hl _)
    rmw := fun len update => by rw [rmw_eq, get_of_error (hl len)]; rfl
    commit := fun new => put_of_error (hl new.length)
    homeOf := by simp only [homeOf, hl, bind, Except.bind]
    localize := fun len access worker hv hpos => by
      simp only [localize, place, Access.validate, hv, if_true, Nat.ne_of_gt hpos, if_false, hl]
    dealloc := by
      rcases s.dealloc_cases ptr with ⟨_, he⟩ | ⟨⟨seg, hm, rfl⟩, _⟩ | ⟨⟨seg, hm, rfl⟩, _⟩
      · exact he
      · exact absurd (h.wellFormed seg hm).covers_base (hn seg hm)
      · exact absurd (h.wellFormed seg hm).covers_base (hn seg hm) }

end Space

/-! ## Runs -/

namespace Client

variable {c : Client} {reach : Nat} {log : List ((op : SpaceOp) × op.Answer)}

theorem keep_nextAddr {answer : Except Fault Space}
    (h : ∀ s, answer = .ok s → s.nextAddr = c.space.nextAddr) :
    (c.keep answer).2.space.nextAddr = c.space.nextAddr := by
  cases answer with
  | ok s => exact h s rfl
  | error fault => rfl

/-- The counter moves by the span of a call, and a call is given what it asks for, gone round. -/
theorem perform_counts (hn : c.space.nextAddr = Word.wrap reach) (op : SpaceOp) :
    (c.perform op).2.space.nextAddr = Word.wrap (reach + op.span) ∧
      SpaceOp.granted ⟨op, (c.perform op).1⟩ = (op.grant reach).map Range.wrapped := by
  cases op with
  | alloc size blockSize => exact Space.alloc_counts hn size blockSize
  | dealloc base => exact ⟨(keep_nextAddr fun _ he => Space.dealloc_nextAddr he).trans hn, rfl⟩
  | put ptr new => exact ⟨(keep_nextAddr fun _ he => Space.put_nextAddr he).trans hn, rfl⟩
  | get ptr len => exact ⟨hn, rfl⟩
  | fill ptr value len =>
    exact ⟨(keep_nextAddr fun _ he => Space.put_nextAddr (Space.fill_eq_put _ _ _ _ ▸ he)).trans hn, rfl⟩
  | rmw ptr len update =>
    refine ⟨?_, rfl⟩
    simp only [perform, Space.rmw_eq]
    cases c.space.get ptr len with
    | error fault => exact hn
    | ok old =>
      simp only [Except.bind]
      cases hp : c.space.put ptr (update.run old) with
      | error fault => exact hn
      | ok s => exact (Space.put_nextAddr hp).trans hn
  | commit ptr new => exact ⟨(keep_nextAddr fun _ he => Space.put_nextAddr he).trans hn, rfl⟩
  | localize ptr len access worker =>
    have hs := c.space.localize_nextAddr ptr len access worker
    refine ⟨?_, rfl⟩
    simp only [perform]
    split <;> rename_i he <;> rw [he] at hs <;> exact hs.trans hn
  | localizeAll ranges access worker =>
    have hs := Space.localizeRest_nextAddr access worker [] ranges c.space
    refine ⟨?_, rfl⟩
    simp only [perform, AddressSpace.localizeAll]
    split <;> rename_i he <;> rw [he] at hs <;> exact hs.trans hn
  | unlocalize handle =>
    refine ⟨?_, rfl⟩
    simp only [perform]
    split
    · exact (Space.unlocalize_sameHome _ _).nextAddr.trans hn
    · exact hn
  | write handle off new =>
    exact ⟨(keep_nextAddr fun _ he => (Space.write_sameHome he).nextAddr).trans hn, rfl⟩

/-- Whatever the counter does, a run is given what it asks for, gone round. -/
theorem granted_answers (hn : c.space.nextAddr = Word.wrap reach) (ops : List SpaceOp) :
    (c.answers ops).filterMap SpaceOp.granted = (SpaceOp.grants reach ops).map Range.wrapped := by
  induction ops generalizing c reach with
  | nil => rfl
  | cons op rest ih =>
    obtain ⟨hn', hg⟩ := perform_counts hn op
    rw [answers, List.filterMap_cons, hg, SpaceOp.grants, List.map_append, ih hn']
    cases op.grant reach <;> rfl

/-- The segments of a space are the ranges handed out and not freed. -/
structure Holds (reach : Nat) (c : Client) (log : List ((op : SpaceOp) × op.Answer)) : Prop where
  placed : c.space.Placed reach
  live : ∀ r, (∃ seg ∈ c.space.segments, seg.extent = r) ↔
    r ∈ log.filterMap SpaceOp.granted ∧ r.start ∉ log.filterMap SpaceOp.freed
  below : ∀ r ∈ log.filterMap SpaceOp.granted, r.start.addr < reach
  freed : ∀ base ∈ log.filterMap SpaceOp.freed, ∃ r ∈ log.filterMap SpaceOp.granted, r.start = base

theorem holds_start (numHomes : Nat) : Holds Space.page (start numHomes) [] where
  placed := Space.placed_new numHomes
  live := by simp [start, Space.new]
  below := by simp
  freed := by simp

theorem filterMap_snoc {α β : Type} (f : α → Option β) (l : List α) (a : α) :
    (l ++ [a]).filterMap f = l.filterMap f ++ (f a).toList := by
  rw [List.filterMap_append]
  cases h : f a <;> simp [h]

/-- A call that hands out nothing and frees nothing leaves every segment its place. -/
theorem Holds.quiet (h : Holds reach c log) {c' : Client} {call : (op : SpaceOp) × op.Answer}
    (hp : c'.space.Placed reach)
    (hs : c'.space.segments.map Segment.extent = c.space.segments.map Segment.extent)
    (hg : SpaceOp.granted call = none) (hf : SpaceOp.freed call = none) :
    Holds reach c' (log ++ [call]) := by
  have hgranted : (log ++ [call]).filterMap SpaceOp.granted = log.filterMap SpaceOp.granted := by
    rw [filterMap_snoc, hg, Option.toList_none, List.append_nil]
  have hfreed : (log ++ [call]).filterMap SpaceOp.freed = log.filterMap SpaceOp.freed := by
    rw [filterMap_snoc, hf, Option.toList_none, List.append_nil]
  refine ⟨hp, fun r => ?_, hgranted ▸ h.below, by rw [hgranted, hfreed]; exact h.freed⟩
  rw [hgranted, hfreed, ← h.live r]
  simp only [← List.mem_map, hs]

theorem Holds.alloc (h : Holds reach c log) {size blockSize : Nat}
    (hr : reach + Space.span size blockSize ≤ Word.bound) :
    Holds (reach + Space.span size blockSize) (c.perform (.alloc size blockSize)).2
      (log ++ [⟨.alloc size blockSize, (c.perform (.alloc size blockSize)).1⟩]) := by
  have hplaced := perform_placed h.placed (.alloc size blockSize) hr
  have hle : ∀ r ∈ log.filterMap SpaceOp.granted,
      r.start.addr < reach + Space.span size blockSize :=
    fun r hm => Nat.lt_of_lt_of_le (h.below r hm) (Nat.le_add_right _ _)
  simp only [perform] at hplaced ⊢
  rcases h.placed.alloc_cases hr with ⟨_, fault, he⟩ | ⟨ha, _, hroom, he⟩ <;> rw [he] at hplaced ⊢
  · have hquiet : Holds reach c (log ++ [⟨.alloc size blockSize, .error fault⟩]) :=
      h.quiet h.placed rfl rfl rfl
    refine ⟨hplaced, hquiet.live, ?_, hquiet.freed⟩
    rw [filterMap_snoc]
    exact fun r hm => hle r (by simpa [SpaceOp.granted] using hm)
  · -- what was freed was handed out before, below the counter
    have hfresh : (⟨reach⟩ : Pointer) ∉ log.filterMap SpaceOp.freed := by
      intro hm
      obtain ⟨r, hr, hs⟩ := h.freed _ hm
      have := h.below r hr
      rw [hs] at this
      exact Nat.lt_irrefl _ this
    have hpage : 0 < Space.page := by decide
    refine ⟨hplaced, fun r => ?_, ?_, ?_⟩ <;> simp only [filterMap_snoc, SpaceOp.granted,
      SpaceOp.freed, Option.toList_none, Option.toList_some, List.append_nil, List.mem_append,
      List.mem_singleton]
    · constructor
      · rintro ⟨seg, hm, rfl⟩
        rcases List.mem_cons.1 hm with rfl | hm
        · exact ⟨.inr rfl, hfresh⟩
        · obtain ⟨hg, hn⟩ := (h.live _).1 ⟨seg, hm, rfl⟩
          exact ⟨.inl hg, hn⟩
      · rintro ⟨hg | rfl, hn⟩
        · obtain ⟨seg, hm, he⟩ := (h.live r).2 ⟨hg, hn⟩
          exact ⟨seg, List.mem_cons_of_mem _ hm, he⟩
        · exact ⟨_, List.mem_cons_self, rfl⟩
    · rintro r (hm | rfl)
      · exact hle r hm
      · simp only; omega
    · intro base hm
      obtain ⟨r, hr, hs⟩ := h.freed base hm
      exact ⟨r, .inl hr, hs⟩

theorem Holds.dealloc (h : Holds reach c log) (base : Pointer) :
    Holds reach (c.perform (.dealloc base)).2
      (log ++ [⟨.dealloc base, (c.perform (.dealloc base)).1⟩]) := by
  simp only [perform]
  cases hd : c.space.dealloc base with
  | error fault => exact h.quiet h.placed rfl rfl rfl
  | ok s =>
    have hplaced := h.placed.dealloc hd
    rcases c.space.dealloc_cases base with ⟨_, he⟩ | ⟨_, _, he⟩ | ⟨⟨old, hold, hbase⟩, _, he⟩ <;>
      rw [he] at hd <;> cases hd
    refine ⟨hplaced, fun r => ?_, ?_, ?_⟩ <;> simp only [keep, filterMap_snoc, SpaceOp.granted,
      SpaceOp.freed, Option.toList_none, Option.toList_some, List.append_nil, List.mem_append,
      List.mem_singleton, not_or, List.mem_filter, decide_eq_true_eq]
    · rw [← and_assoc, ← h.live r]
      constructor
      · rintro ⟨seg, ⟨hm, hne⟩, rfl⟩
        exact ⟨⟨seg, hm, rfl⟩, hne⟩
      · rintro ⟨⟨seg, hm, rfl⟩, hne⟩
        exact ⟨seg, ⟨hm, hne⟩, rfl⟩
    · exact h.below
    · rintro base' (hm | rfl)
      · exact h.freed base' hm
      · exact ⟨old.extent, ((h.live _).1 ⟨old, hold, rfl⟩).1, hbase⟩

theorem Holds.perform (h : Holds reach c log) (op : SpaceOp) (hr : reach + op.span ≤ Word.bound) :
    Holds (reach + op.span) (c.perform op).2 (log ++ [⟨op, (c.perform op).1⟩]) := by
  have hextent : ∀ {s s' : Space}, Space.SameShape s s' →
      s'.segments.map Segment.extent = s.segments.map Segment.extent := by
    intro s s' hs
    have hmap : ∀ t : Space, t.segments.map Segment.extent =
        (t.segments.map Segment.outline).map Segment.extent := by simp [Segment.extent, Segment.outline,
          Segment.contents, Function.comp_def]
    rw [hmap, hs.outline, ← hmap]
  rcases perform_shape h.placed op with ⟨size, blockSize, rfl, _⟩ | ⟨base, rfl, _⟩ | hs
  · exact h.alloc hr
  · exact h.dealloc base
  · cases op with
    | alloc size blockSize => exact h.alloc hr
    | dealloc base => exact h.dealloc base
    | _ => exact h.quiet (h.placed.of_sameShape hs) (hextent hs) rfl rfl

/-- What a run has handed out, and what became of it. -/
structure Separate (c : Client) (log : List ((op : SpaceOp) × op.Answer)) : Prop where
  apart : (log.filterMap SpaceOp.granted).Pairwise Range.Apart
  base : ∀ r ∈ log.filterMap SpaceOp.granted, r.start.isNull = false ∧ Space.page ∣ r.start.addr
  stop : ∀ r ∈ log.filterMap SpaceOp.granted, r.start.addr + r.len < Word.bound
  /-- A segment stays until it is freed, and no allocation puts another one over it. -/
  live : ∀ r, (∃ seg ∈ c.space.segments, seg.extent = r) ↔
    r ∈ log.filterMap SpaceOp.granted ∧ r.start ∉ log.filterMap SpaceOp.freed
  stale : ∀ r ∈ log.filterMap SpaceOp.granted, r.start ∈ log.filterMap SpaceOp.freed →
    ∀ ptr : Pointer, r.Contains ptr.addr → c.space.Unknown ptr

theorem Holds.separate (h : Holds reach c log)
    (hapart : (log.filterMap SpaceOp.granted).Pairwise Range.Apart)
    (hbase : ∀ r ∈ log.filterMap SpaceOp.granted, Space.page ≤ r.start.addr ∧
      Space.page ∣ r.start.addr ∧ r.start.addr + r.len < Word.bound) : Separate c log where
  apart := hapart
  base r hm := by
    have hpage : 0 < Space.page := by decide
    obtain ⟨hle, hdvd, _⟩ := hbase r hm
    exact ⟨by simp only [Pointer.isNull, decide_eq_false_iff_not]; omega, hdvd⟩
  stop r hm := (hbase r hm).2.2
  live := h.live
  stale r hm hf ptr hc := by
    have hpage : 0 < Space.page := by decide
    have hle := (hbase r hm).1
    refine h.placed.unknown (by unfold Range.Contains at hc; omega) fun seg hseg hcs => ?_
    obtain ⟨hms, hns⟩ := (h.live seg.extent).1 ⟨seg, hseg, rfl⟩
    have hne : r ≠ seg.extent := fun he => hns (he ▸ hf)
    rcases Range.apart_or hapart hm hms hne with ha | ha
    · exact ha.not_contains hc hcs
    · exact ha.not_contains hcs hc

/-- No address is handed out twice while the counter stays below the bound of words. Whatever the
counter does, what a run is given is `SpaceOp.grants` gone round: ranges that are apart and start at
pages before they go round. -/
theorem run_separate (numHomes : Nat) (ops : List SpaceOp) :
    ((start numHomes).answers ops).filterMap SpaceOp.granted =
        (SpaceOp.grants Space.page ops).map Range.wrapped ∧
      (SpaceOp.grants Space.page ops).Pairwise Range.Apart ∧
      (∀ r ∈ ((start numHomes).answers ops).filterMap SpaceOp.granted, Space.page ∣ r.start.addr) ∧
      (SpaceOp.addresses ops ≤ Word.bound →
        Separate ((start numHomes).run ops) ((start numHomes).answers ops)) := by
  have hstart : (start numHomes).space.nextAddr = Word.wrap Space.page := rfl
  have hgranted := granted_answers hstart ops
  have hdvd : ∀ r ∈ SpaceOp.grants Space.page ops, Space.page ∣ r.start.addr :=
    fun r => SpaceOp.page_dvd_of_mem_grants (Nat.dvd_refl _)
  refine ⟨hgranted, SpaceOp.grants_apart _ ops, ?_, fun hr => ?_⟩
  · rw [hgranted]
    intro r hm
    obtain ⟨unwrapped, hg, rfl⟩ := List.mem_map.1 hm
    exact (Nat.dvd_mod_iff (by decide)).2 (hdvd unwrapped hg)
  · have hinside : ∀ r ∈ SpaceOp.grants Space.page ops, Space.page ≤ r.start.addr ∧
        Space.page ∣ r.start.addr ∧ r.start.addr + r.len < Word.bound := by
      intro r hm
      have hpage : 0 < Space.page := by decide
      obtain ⟨hle, hstop⟩ := SpaceOp.mem_grants hm
      unfold SpaceOp.addresses at hr
      exact ⟨hle, hdvd r hm, by omega⟩
    have hsame : ((start numHomes).answers ops).filterMap SpaceOp.granted =
        SpaceOp.grants Space.page ops := by
      rw [hgranted]
      refine (List.map_congr_left fun r hm => Range.wrapped_of_lt ?_).trans (List.map_id _)
      have := (hinside r hm).2.2
      omega
    have hholds := answers_induction (P := Holds) (fun _ _ _ op h hr => h.perform op hr)
      (holds_start numHomes) ops hr
    rw [List.nil_append] at hholds
    refine hholds.separate ?_ ?_ <;> rw [hsame]
    · exact SpaceOp.grants_apart _ ops
    · exact hinside

/-- A segment is freed and another one allocated, with a refused and a panicking allocation before it. -/
theorem run_separate_freed :
    let ops : List SpaceOp := [.alloc 8 8, .alloc 5000 16, .alloc 0 1,
      .alloc (Word.maxLength + 1) 1, .dealloc ⟨4096⟩, .alloc 8 8, .get ⟨4100⟩ 1]
    SpaceOp.addresses ops ≤ Word.bound ∧ Separate ((start 2).run ops) ((start 2).answers ops) :=
  ⟨by decide, (run_separate 2 _).2.2.2 (by decide)⟩

/-- An allocation that panics takes the counter round to the first base, and the next one replaces the
segment there. -/
example :
    let ops : List SpaceOp := [.alloc 8 8, .put ⟨4096⟩ [1],
      .alloc (Word.bound - 3 * Space.page) (2 ^ 63), .alloc 8 8]
    ((start 1).answers ops).filterMap SpaceOp.granted = [⟨⟨4096⟩, 8⟩, ⟨⟨4096⟩, 8⟩] ∧
      (((start 1).run ops).space.get ⟨4096⟩ 1).toOption = some [0] := by
  dsimp only
  decide

end Client

end TaskSpace

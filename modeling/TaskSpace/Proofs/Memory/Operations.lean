import TaskSpace.Proofs.Memory.Placement

/-!
# What the operations do to home memory

One lemma for each operation of a space: what it answers, and what becomes of the segments. Mapping
and releasing change no byte of home memory (`SameHome`).
-/

namespace TaskSpace

def Segment.overwrite (s : Segment) (off : Nat) (new : Bytes) : Segment :=
  { s with bytes := s.bytes.take off ++ new ++ s.bytes.drop (off + new.length) }

theorem Segment.outline_overwrite {s : Segment} {off : Nat} {new : Bytes}
    (h : off + new.length ≤ s.bytes.length) : (s.overwrite off new).outline = s.outline := by
  simp [outline, contents, overwrite, Bytes.zeros]
  omega

theorem Segment.contents_migrate {s moved : Segment} {first last : Nat} {home : WorkerId}
    (h : s.migrate first last home = .ok moved) :
    moved.contents = s.contents ∧ moved.base = s.base := by
  unfold migrate at h
  split at h
  · cases h; simp [contents]
  · cases h

namespace Space

variable {s s' : Space} {reach : Nat} {seg : Segment} {ptr : Pointer} {len : Nat}

/-! ## One segment changes -/

/-- What holds of a segment and of its new version alike, the list keeps. -/
theorem Placed.map_storeSegment {α : Type} (h : s.Placed reach) (f : Segment → α) {new : Segment}
    (hm : seg ∈ s.segments) (hb : new.base = seg.base) (hf : f new = f seg) :
    (s.storeSegment new).segments.map f = s.segments.map f := by
  simp only [storeSegment, List.map_map]
  refine List.map_congr_left fun old ho => ?_
  simp only [Function.comp_apply]
  split
  · rename_i he
    rw [h.eq_of_base ho hm (he.trans hb), hf]
  · rfl

/-! ## Allocation -/

/-- The sizes for which an allocation is not refused and does not run out of capacity. -/
def Allocatable (size blockSize : Nat) : Prop :=
  0 < size ∧ 0 < blockSize ∧ size ≤ Word.maxLength ∧ Word.divUp size blockSize ≤ maxBlocks

instance (size blockSize : Nat) : Decidable (Allocatable size blockSize) :=
  inferInstanceAs (Decidable (_ ∧ _))

theorem reserve_eq_ok {size r : Nat} :
    reserve size = .ok r ↔
      Word.divUp size page * page + page < Word.bound ∧ Word.divUp size page * page + page = r := by
  unfold reserve
  cases hp : Fault.product (Word.divUp size page) page with
  | error fault =>
    have : ¬ Word.divUp size page * page < Word.bound := fun hlt => by
      rw [Fault.product_eq_ok.2 ⟨hlt, rfl⟩] at hp; cases hp
    simp only [bind, Except.bind, reduceCtorEq, false_iff, not_and]
    omega
  | ok pages =>
    obtain ⟨_, rfl⟩ := Fault.product_eq_ok.1 hp
    simp only [bind, Except.bind]
    exact Fault.sum_eq_ok

theorem Allocatable.reserve {size blockSize : Nat} (h : Allocatable size blockSize) :
    ∃ r, Space.reserve size = .ok r := by
  have hs := h.2.2.1
  have hp : Word.divUp size page * page < size + page := by
    unfold Word.divUp page; split <;> omega
  have hroom : Word.maxLength + page + page < Word.bound := by decide
  exact ⟨_, reserve_eq_ok.2 ⟨by omega, rfl⟩⟩

theorem span_eq {size blockSize r : Nat} (hs : 0 < size) (hb : 0 < blockSize)
    (hr : reserve size = .ok r) : span size blockSize = r := by
  unfold span
  rw [if_neg (by omega), hr]
  rfl

theorem size_add_page_le {size r : Nat} (h : reserve size = .ok r) : size + page ≤ r := by
  obtain ⟨_, rfl⟩ := reserve_eq_ok.1 h
  have := Word.le_divUp_mul (show 0 < page by decide) size
  omega

theorem Placed.insertSegment_eq (h : s.Placed reach) (hseg : seg.base.addr = reach) :
    insertSegment seg s.segments = seg :: s.segments := by
  cases hs : s.segments with
  | nil => rfl
  | cons head rest =>
    have hb := h.below head (hs ▸ List.mem_cons_self)
    have hp : 0 < page := by decide
    have hlt : head.base.addr < seg.base.addr := by omega
    simp [insertSegment, hlt]

/-- An allocation that has room makes a fresh segment at the address counter; any other one moves
the counter at most. -/
theorem Placed.alloc_cases (h : s.Placed reach) {size blockSize : Nat}
    (hr : reach + span size blockSize ≤ Word.bound) :
    (¬ Allocatable size blockSize ∧ ∃ fault, s.alloc size blockSize =
        (.error fault, { s with nextAddr := Word.wrap (reach + span size blockSize) })) ∨
    (Allocatable size blockSize ∧ reach < Word.bound ∧
      reach + size + page ≤ reach + span size blockSize ∧ s.alloc size blockSize =
        (.ok ⟨reach⟩, { s with
          nextAddr := Word.wrap (reach + span size blockSize)
          segments := Segment.fresh ⟨reach⟩ size blockSize s.numHomes :: s.segments })) := by
  have hstay : span size blockSize = 0 →
      s = { s with nextAddr := Word.wrap (reach + span size blockSize) } := by
    intro h0; rw [h0, Nat.add_zero, ← h.nextAddr]
  by_cases hz : size = 0 ∨ blockSize = 0
  · left
    refine ⟨fun ha => ?_, .refused .zeroSized, ?_⟩
    · have := ha.1; have := ha.2.1; omega
    · rw [← hstay (by simp [span, hz])]
      simp [alloc, hz]
  · have hs : 0 < size := by omega
    have hb : 0 < blockSize := by omega
    cases hres : reserve size with
    | error fault =>
      left
      refine ⟨fun ha => ?_, fault, ?_⟩
      · obtain ⟨r, hr⟩ := ha.reserve
        rw [hr] at hres; cases hres
      · rw [← hstay (by simp [span, hz, hres, Except.toOption])]
        simp [alloc, hz, hres]
    | ok reserved =>
      have hspan := span_eq hs hb hres
      have hle := size_add_page_le hres
      have hp : 0 < page := by decide
      have hlt : reach < Word.bound := by omega
      have hbase : s.nextAddr = reach := h.nextAddr.trans (Word.wrap_of_lt hlt)
      simp only [hspan] at hr ⊢
      by_cases hc : maxBlocks < Word.divUp size blockSize ∨ Word.maxLength < size
      · left
        refine ⟨fun ha => ?_, .panicked .capacityOverflow, ?_⟩
        · have := ha.2.2.1; have := ha.2.2.2; omega
        · simp [alloc, hz, hres, hc, hbase]
      · right
        refine ⟨⟨hs, hb, by omega, by omega⟩, hlt, by omega, ?_⟩
        have hins : insertSegment (Segment.fresh ⟨reach⟩ size blockSize s.numHomes) s.segments =
            Segment.fresh ⟨reach⟩ size blockSize s.numHomes :: s.segments :=
          h.insertSegment_eq rfl
        simp only [alloc, hz, if_false, hres, hc, hbase, hins]

theorem Placed.alloc (h : s.Placed reach) {size blockSize : Nat}
    (hr : reach + span size blockSize ≤ Word.bound) :
    (s.alloc size blockSize).2.Placed (reach + span size blockSize) := by
  have hle : reach ≤ reach + span size blockSize := Nat.le_add_right _ _
  have hbelow : ∀ seg ∈ s.segments,
      seg.base.addr + seg.size + page ≤ reach + span size blockSize :=
    fun seg hm => Nat.le_trans (h.below seg hm) hle
  rcases h.alloc_cases hr with ⟨_, fault, he⟩ | ⟨ha, _, hroom, he⟩
  · rw [he]
    exact ⟨rfl, Nat.le_trans h.page_le hle, hr, h.wellFormed, hbelow, h.apart⟩
  · rw [he]
    refine ⟨rfl, Nat.le_trans h.page_le hle, hr, ?_, ?_, ?_⟩
    · intro seg hm
      rcases List.mem_cons.1 hm with rfl | hm
      · exact Segment.fresh_wellFormed h.page_le ha.1 ha.2.1
      · exact h.wellFormed seg hm
    · intro seg hm
      rcases List.mem_cons.1 hm with rfl | hm
      · exact hroom
      · exact hbelow seg hm
    · exact List.pairwise_cons.2 ⟨fun below hm => h.below below hm, h.apart⟩

/-! ## Deallocation -/

theorem dealloc_cases (s : Space) (base : Pointer) :
    ((∀ seg ∈ s.segments, seg.base ≠ base) ∧
      s.dealloc base = .error (.refused (.unknownSegment base))) ∨
    ((∃ seg ∈ s.segments, seg.base = base) ∧ 0 < s.refsIn base ∧
      s.dealloc base = .error (.refused (.segmentInUse base (s.refsIn base)))) ∨
    ((∃ seg ∈ s.segments, seg.base = base) ∧ s.refsIn base = 0 ∧ s.dealloc base = .ok { s with
      cache := s.cache.filter fun entry => entry.key.segment ≠ base
      segments := s.segments.filter fun seg => seg.base ≠ base }) := by
  unfold dealloc
  by_cases hb : ∃ seg ∈ s.segments, seg.base = base
  · have hany : s.segments.any (fun seg => seg.base = base) = true := by simpa using hb
    rw [if_pos hany]
    rcases Nat.eq_zero_or_pos (s.refsIn base) with h0 | hpos
    · exact .inr (.inr ⟨hb, h0, by rw [if_neg (by omega)]⟩)
    · exact .inr (.inl ⟨hb, hpos, by rw [if_pos hpos]⟩)
  · have hany : ¬ s.segments.any (fun seg => seg.base = base) = true := by simpa using hb
    rw [if_neg hany]
    exact .inl ⟨fun seg hm he => hb ⟨seg, hm, he⟩, rfl⟩

theorem Placed.dealloc (h : s.Placed reach) {base : Pointer} (hd : s.dealloc base = .ok s') :
    s'.Placed reach := by
  rcases s.dealloc_cases base with ⟨_, he⟩ | ⟨_, _, he⟩ | ⟨_, _, he⟩ <;> rw [he] at hd <;> cases hd
  exact ⟨h.nextAddr, h.page_le, h.reach_le,
    fun seg hm => h.wellFormed seg (List.mem_filter.1 hm).1,
    fun seg hm => h.below seg (List.mem_filter.1 hm).1, h.apart.filter _⟩

/-! ## Writes and reads -/

theorem put_of_error {fault : Fault} {new : Bytes} (hl : s.locate ptr new.length = .error fault) :
    s.put ptr new = .error fault := by
  simp [put, hl, bind, Except.bind]

theorem get_of_error {fault : Fault} (hl : s.locate ptr len = .error fault) :
    s.get ptr len = .error fault := by
  simp [get, hl, bind, Except.bind]

theorem Placed.put_eq (h : s.Placed reach) {off : Nat} {new : Bytes}
    (hl : s.locate ptr new.length = .ok (seg, off)) :
    s.put ptr new = .ok (s.storeSegment (seg.overwrite off new)) := by
  obtain ⟨hm, _, _, hs⟩ := h.locate_eq_ok.1 hl
  have hb := (h.wellFormed seg hm).length_bytes
  have hsp : seg.bytes.splice off new =
      .ok (seg.bytes.take off ++ new ++ seg.bytes.drop (off + new.length)) :=
    Bytes.splice_eq_ok.2 ⟨by omega, rfl⟩
  simp [put, hl, hsp, bind, Except.bind, pure, Except.pure, Segment.overwrite]

theorem Placed.get_eq (h : s.Placed reach) {off : Nat} (hl : s.locate ptr len = .ok (seg, off)) :
    s.get ptr len = .ok ((seg.bytes.take (off + len)).drop off) := by
  obtain ⟨hm, _, _, hs⟩ := h.locate_eq_ok.1 hl
  have hb := (h.wellFormed seg hm).length_bytes
  have hsl : seg.bytes.slice off (off + len) = .ok ((seg.bytes.take (off + len)).drop off) :=
    Bytes.slice_eq_ok.2 ⟨⟨by omega, by omega⟩, rfl⟩
  simp [get, hl, hsl, bind, Except.bind]

theorem fill_eq_put (s : Space) (ptr : Pointer) (value : UInt8) (len : Nat) :
    s.fill ptr value len = s.put ptr (List.replicate len value) := by
  simp [fill, put]

theorem rmw_eq (s : Space) (ptr : Pointer) (len : Nat) (update : Update) :
    s.rmw ptr len update =
      (s.get ptr len).bind fun old => (s.put ptr (update.run old)).map fun s' => (old, s') := by
  unfold rmw get
  cases hl : s.locate ptr len with
  | error fault => rfl
  | ok found =>
    obtain ⟨seg, off⟩ := found
    cases hsl : seg.bytes.slice off (off + len) with
    | error fault => simp [bind, Except.bind, hsl]
    | ok old =>
      have hlen : (update.run old).length = len := by
        rw [update.length_run, Bytes.length_slice hsl]; omega
      simp only [bind, Except.bind, hsl, put, hlen, hl]
      cases seg.bytes.splice off (update.run old) <;> rfl

theorem put_cases {new : Bytes} (hw : s.put ptr new = .ok s') :
    ∃ seg off bytes, s.locate ptr new.length = .ok (seg, off) ∧ seg.bytes.splice off new = .ok bytes ∧
      s' = s.storeSegment { seg with bytes } := by
  cases hl : s.locate ptr new.length with
  | error fault => rw [put_of_error hl] at hw; cases hw
  | ok found =>
    obtain ⟨seg, off⟩ := found
    simp only [put, hl, bind, Except.bind] at hw
    cases hb : seg.bytes.splice off new with
    | error fault => rw [hb] at hw; cases hw
    | ok bytes =>
      rw [hb] at hw
      cases hw
      exact ⟨seg, off, bytes, rfl, hb, rfl⟩

/-- An update in place puts what it makes of the bytes before. -/
theorem put_of_rmw {update : Update} {old : Bytes} (hw : s.rmw ptr len update = .ok (old, s')) :
    s.put ptr (update.run old) = .ok s' := by
  rw [rmw_eq] at hw
  cases hg : s.get ptr len with
  | error fault => rw [hg] at hw; cases hw
  | ok found =>
    rw [hg, Except.bind] at hw
    cases hp : s.put ptr (update.run found) with
    | error fault => rw [hp] at hw; cases hw
    | ok t =>
      rw [hp] at hw
      cases hw
      exact hp

theorem Placed.put_sameShape (h : s.Placed reach) {new : Bytes} (hp : s.put ptr new = .ok s') :
    SameShape s s' := by
  cases hl : s.locate ptr new.length with
  | error fault => rw [put_of_error hl] at hp; cases hp
  | ok found =>
    obtain ⟨seg, off⟩ := found
    obtain ⟨hm, _, _, hs⟩ := h.locate_eq_ok.1 hl
    rw [h.put_eq hl] at hp; cases hp
    have hb := (h.wellFormed seg hm).length_bytes
    exact ⟨rfl, h.map_storeSegment _ hm rfl (Segment.outline_overwrite (by omega))⟩

/-! ## Mapping and releasing -/

/-- The two spaces have the same home memory: segments differ in the homes of their blocks at most. -/
structure SameHome (s s' : Space) : Prop where
  nextAddr : s'.nextAddr = s.nextAddr
  contents : s'.segments.map Segment.contents = s.segments.map Segment.contents

@[refl] theorem SameHome.refl (s : Space) : SameHome s s := ⟨rfl, rfl⟩

theorem SameHome.trans {s'' : Space} (h : SameHome s s') (h' : SameHome s' s'') :
    SameHome s s'' :=
  ⟨h'.nextAddr.trans h.nextAddr, h'.contents.trans h.contents⟩

theorem SameHome.of_eq (hn : s'.nextAddr = s.nextAddr) (hs : s'.segments = s.segments) :
    SameHome s s' :=
  ⟨hn, by rw [hs]⟩

theorem SameHome.sameShape (h : SameHome s s') : SameShape s s' :=
  ⟨h.nextAddr, by rw [← Segment.outline_map_contents, h.contents, Segment.outline_map_contents]⟩

theorem Placed.of_sameHome (h : s.Placed reach) (hs : SameHome s s') : s'.Placed reach :=
  h.of_sameShape hs.sameShape

/-- A region is shared, or loaded again and shared, or made; or else the attempt fails. Where it fails
after the count of users was raised, the count stays raised. -/
theorem acquire_cases (s : Space) (seg : Segment) (key : RegionKey) (refresh : Bool) :
    (∃ fault, s.acquire seg key refresh = (.error fault, s)) ∨
    (∃ entry, s.entry? key = some entry ∧ entry.refs + 1 < Word.bound ∧
      ((∃ t : Space, ((refresh = false ∧ t = s) ∨ ∃ fresh region, refresh = true ∧
            seg.load key.first key.last = .ok fresh ∧ s.regions[entry.region]? = some region ∧
            fresh.length = region.bytes.length ∧ t = s.setRegion entry.region fresh) ∧
          s.acquire seg key refresh = (.ok entry.region,
            t.updateEntry key fun old => { old with refs := entry.refs + 1 })) ∨
        ((∀ fresh region, seg.load key.first key.last = .ok fresh →
            s.regions[entry.region]? = some region → fresh.length ≠ region.bytes.length) ∧
          ∃ fault, s.acquire seg key refresh = (.error fault,
            s.updateEntry key fun old => { old with refs := entry.refs + 1 })))) ∨
    (s.entry? key = none ∧ ∃ start stop bytes, seg.blockRange key.first key.last = .ok (start, stop) ∧
      seg.base.addr + start < Word.bound ∧ seg.load key.first key.last = .ok bytes ∧
      s.acquire seg key refresh = (.ok s.regions.length, { s with
        regions := s.regions ++ [{ key, base := ⟨seg.base.addr + start⟩, bytes }]
        cache := s.cache ++ [{ key, region := s.regions.length, refs := 1 }] })) := by
  unfold acquire
  cases hent : s.entry? key with
  | some entry =>
    dsimp only
    cases hsum : Fault.sum entry.refs 1 with
    | error fault => exact .inl ⟨fault, rfl⟩
    | ok refs =>
      obtain ⟨hlt, rfl⟩ := Fault.sum_eq_ok.1 hsum
      refine .inr (.inl ⟨entry, rfl, hlt, ?_⟩)
      have hregions : ∀ f, (s.updateEntry key f).regions = s.regions := fun _ => rfl
      cases refresh with
      | false => exact .inl ⟨s, .inl ⟨rfl, rfl⟩, rfl⟩
      | true =>
        simp only [if_true, hregions]
        cases hload : seg.load key.first key.last with
        | error fault => exact .inr ⟨fun _ _ hl => (nomatch hl), fault, rfl⟩
        | ok fresh =>
          cases hreg : s.regions[entry.region]? with
          | none => exact .inr ⟨fun _ _ _ hr => (nomatch hr), _, rfl⟩
          | some region =>
            by_cases hl : fresh.length = region.bytes.length
            · exact .inl ⟨_, .inr ⟨fresh, region, trivial, rfl, rfl, hl, rfl⟩, by simp only [hl, if_true]; rfl⟩
            · refine .inr ⟨?_, _, by simp only [hl, if_false]; rfl⟩
              rintro _ _ ⟨⟩ ⟨⟩
              exact hl
  | none =>
    dsimp only
    cases hrange : seg.blockRange key.first key.last with
    | error fault => exact .inl ⟨fault, rfl⟩
    | ok range =>
      obtain ⟨start, stop⟩ := range
      simp only [bind, Except.bind]
      cases hsum : Fault.sum seg.base.addr start with
      | error fault => exact .inl ⟨fault, rfl⟩
      | ok base =>
        obtain ⟨hlt, rfl⟩ := Fault.sum_eq_ok.1 hsum
        cases hload : seg.load key.first key.last with
        | error fault => exact .inl ⟨fault, rfl⟩
        | ok bytes => exact .inr (.inr ⟨trivial, start, stop, bytes, rfl, hlt, rfl, rfl⟩)

/-- A range is mapped in two steps: the homes of its blocks may move, then the region is acquired. -/
theorem localize_cases (s : Space) (ptr : Pointer) (len : Nat) (access : Access)
    (worker : WorkerId) :
    (∃ fault, s.localize ptr len access worker = (.error fault, s)) ∨
    ∃ seg first last moved, s.place ptr len access = .ok ⟨seg, first, last⟩ ∧
      moved.contents = seg.contents ∧ moved.base = seg.base ∧
      ((∃ fault t, (s.storeSegment moved).acquire moved ⟨moved.base, first, last⟩ access.refreshes =
            (.error fault, t) ∧ s.localize ptr len access worker = (.error fault, t)) ∨
        ∃ region t, (s.storeSegment moved).acquire moved ⟨moved.base, first, last⟩ access.refreshes =
            (.ok region, t) ∧ s.localize ptr len access worker = (.ok t.mappings.length, { t with
              mappings := t.mappings ++ [{ start := ptr, len, access, region, live := true }]
              live := Word.wrap (t.live + 1) })) := by
  unfold localize
  cases hplace : s.place ptr len access with
  | error fault => exact .inl ⟨fault, rfl⟩
  | ok placement =>
    obtain ⟨seg, first, last⟩ := placement
    dsimp only
    generalize howned : (if access.takesOwnership then
      seg.migrate first last (worker % s.numHomes) else .ok seg) = owned
    cases owned with
    | error fault => exact .inl ⟨fault, rfl⟩
    | ok moved =>
      have hc : moved.contents = seg.contents ∧ moved.base = seg.base := by
        split at howned
        · exact Segment.contents_migrate howned
        · cases howned; exact ⟨rfl, rfl⟩
      refine .inr ⟨seg, first, last, moved, rfl, hc.1, hc.2, ?_⟩
      dsimp only
      rcases hacq : (s.storeSegment moved).acquire moved ⟨moved.base, first, last⟩
        access.refreshes with ⟨_ | region, t⟩
      · exact .inl ⟨_, t, rfl, rfl⟩
      · exact .inr ⟨region, t, rfl, rfl⟩

theorem acquire_sameHome (s : Space) (seg : Segment) (key : RegionKey) (refresh : Bool) :
    SameHome s (s.acquire seg key refresh).2 := by
  rcases s.acquire_cases seg key refresh with ⟨_, he⟩ | ⟨_, _, _, he⟩ | ⟨_, _, _, _, _, _, _, he⟩
  · rw [he]
  · rcases he with ⟨t, ht, he⟩ | ⟨_, _, he⟩ <;> rw [he]
    · rcases ht with ⟨_, rfl⟩ | ⟨_, _, _, _, _, _, rfl⟩ <;> exact .of_eq rfl rfl
    · exact .of_eq rfl rfl
  · rw [he]; exact .of_eq rfl rfl

/-- What a placement says: the flags are valid, the range is not empty, and it lies inside a segment. -/
theorem Placed.place_eq_ok (h : s.Placed reach) {access : Access} {first last : Nat} :
    s.place ptr len access = .ok ⟨seg, first, last⟩ ↔
      access.isValid ∧ 0 < len ∧ ∃ off, seg ∈ s.segments ∧ ptr.addr = seg.base.addr + off ∧
        off + len ≤ seg.size ∧ first = seg.blockOf off ∧ last = seg.blockOf (off + len - 1) := by
  unfold place Access.validate
  by_cases hv : access.isValid
  · simp only [hv, if_true, true_and]
    by_cases h0 : len = 0
    · simp [h0]
    · have hpos : 0 < len := Nat.pos_of_ne_zero h0
      simp only [h0, if_false, hpos, true_and]
      cases hl : s.locate ptr len with
      | error fault =>
        simp only [reduceCtorEq, false_iff]
        rintro ⟨off, hm, ha, hs, _⟩
        rw [h.locate_eq_ok.2 ⟨hm, ha, by omega, hs⟩] at hl; cases hl
      | ok found =>
        obtain ⟨found, off⟩ := found
        obtain ⟨hm, ha, hlt, hs⟩ := h.locate_eq_ok.1 hl
        simp only [Except.ok.injEq, Placement.mk.injEq]
        constructor
        · rintro ⟨rfl, rfl, rfl⟩
          exact ⟨off, hm, ha, hs, rfl, rfl⟩
        · rintro ⟨off', hm', ha', hs', rfl, rfl⟩
          have hc : found.Covers ptr.addr := ⟨by omega, by omega⟩
          have heq := h.eq_of_covers hm hm' hc ⟨by omega, by omega⟩
          subst heq
          have : off = off' := by omega
          subst this
          exact ⟨rfl, rfl, rfl⟩
  · simp [hv]

theorem Placed.localize_sameHome (h : s.Placed reach) (ptr : Pointer) (len : Nat) (access : Access)
    (worker : WorkerId) : SameHome s (s.localize ptr len access worker).2 := by
  rcases s.localize_cases ptr len access worker with ⟨fault, he⟩ |
    ⟨seg, first, last, moved, hp, hc, hb, he⟩
  · rw [he]
  · obtain ⟨_, _, _, hm, _⟩ := h.place_eq_ok.1 hp
    have hstore : SameHome s (s.storeSegment moved) := ⟨rfl, h.map_storeSegment _ hm hb hc⟩
    have hacq := hstore.trans (acquire_sameHome (s.storeSegment moved) moved
      ⟨moved.base, first, last⟩ access.refreshes)
    rcases he with ⟨_, _, ha, he⟩ | ⟨_, _, ha, he⟩ <;> rw [ha] at hacq <;> rw [he]
    · exact hacq
    · exact hacq.trans (.of_eq rfl rfl)

theorem giveUp_sameHome (s : Space) (region : RegionId) (key : RegionKey) :
    SameHome s (s.giveUp region key) := by
  unfold giveUp
  repeat' split
  all_goals exact .of_eq rfl rfl

theorem unlocalize_sameHome (s : Space) (id : MappingId) : SameHome s (s.unlocalize id) := by
  unfold unlocalize
  cases s.mappings[id]? with
  | none => exact .refl s
  | some mapping =>
    dsimp only
    cases s.regions[mapping.region]? with
    | none => exact .of_eq rfl rfl
    | some region =>
      have hgive := giveUp_sameHome
        { s with mappings := s.mappings.modify id fun old => { old with live := false } }
        mapping.region region.key
      exact ⟨hgive.nextAddr, hgive.contents⟩

theorem unlocalizeAll_sameHome (s : Space) (ids : List MappingId) :
    SameHome s (AddressSpace.unlocalizeAll s ids) := by
  induction ids generalizing s with
  | nil => exact .refl s
  | cons id rest ih => exact (unlocalize_sameHome s id).trans (ih (s.unlocalize id))

theorem Placed.localizeRest_sameHome (h : s.Placed reach) (access : Access) (worker : WorkerId)
    (made : List MappingId) (ranges : List Range) :
    SameHome s (AddressSpace.localizeRest access worker made ranges s).2 := by
  induction ranges generalizing s made with
  | nil => exact .refl s
  | cons range rest ih =>
    have hstep := h.localize_sameHome range.start range.len access worker
    simp only [AddressSpace.localizeRest]
    split <;> rename_i he <;> rw [show AddressSpace.localize s = s.localize from rfl] at he <;>
      rw [he] at hstep
    · exact hstep.trans (ih (h.of_sameHome hstep) _)
    · exact hstep.trans (unlocalizeAll_sameHome _ made)
    · exact hstep

/-- A write that succeeds went through a live writable mapping, inside its range. -/
theorem write_cases {id : MappingId} {off : Nat} {new : Bytes} (hw : s.write id off new = .ok s') :
    (s.mappings[id]? = none ∧ s' = s) ∨
    ∃ mapping, s.mappings[id]? = some mapping ∧ mapping.access.isWritable = true ∧
      mapping.live = true ∧ off + new.length ≤ mapping.len ∧
      ((s.regions[mapping.region]? = none ∧ s' = s) ∨
        ∃ region bytes, s.regions[mapping.region]? = some region ∧
          region.bytes.splice (regionOffset mapping region + off) new = .ok bytes ∧
          s' = s.setRegion mapping.region bytes) := by
  unfold write at hw
  split at hw
  · rename_i hnone
    cases hw; exact .inl ⟨hnone, rfl⟩
  · rename_i mapping hmap
    split at hw
    · cases hw
    · rename_i hwritable
      split at hw
      · cases hw
      · rename_i hfits
        split at hw
        · cases hw
        · rename_i hlive
          have hle : off + new.length ≤ mapping.len := by
            simp only [fits, Word.add?, Bool.not_eq_true', Bool.not_eq_false] at hfits
            split at hfits
            · rename_i stop he
              split at he <;> cases he
              simpa using hfits
            · cases hfits
          refine .inr ⟨mapping, hmap, by simpa using hwritable, by simpa using hlive, hle, ?_⟩
          split at hw
          · rename_i hnone
            cases hw; exact .inl ⟨hnone, rfl⟩
          · rename_i region hregion
            cases hsum : Fault.sum (regionOffset mapping region) off with
            | error fault => rw [hsum] at hw; cases hw
            | ok start =>
              obtain ⟨_, rfl⟩ := Fault.sum_eq_ok.1 hsum
              cases hsp : region.bytes.splice (regionOffset mapping region + off) new with
              | error fault => rw [hsum] at hw; simp [bind, Except.bind, hsp] at hw
              | ok bytes =>
                rw [hsum] at hw
                simp only [bind, Except.bind, hsp, pure, Except.pure, Except.ok.injEq] at hw
                exact .inr ⟨region, bytes, hregion, hsp, hw.symm⟩

theorem write_eq_ok {id : MappingId} {off : Nat} {new : Bytes} (hw : s.write id off new = .ok s') :
    s' = s ∨ ∃ region old bytes, s.regions[region]? = some old ∧ bytes.length = old.bytes.length ∧
      s' = s.setRegion region bytes := by
  rcases write_cases hw with ⟨_, rfl⟩ | ⟨mapping, _, _, _, _, ⟨_, rfl⟩ | ⟨region, bytes, hr, hsp, rfl⟩⟩
  · exact .inl rfl
  · exact .inl rfl
  · exact .inr ⟨_, region, bytes, hr, Bytes.length_splice hsp, rfl⟩

theorem write_sameHome {id : MappingId} {off : Nat} {new : Bytes}
    (hw : s.write id off new = .ok s') : SameHome s s' := by
  rcases write_eq_ok hw with rfl | ⟨_, _, _, _, _, rfl⟩
  · rfl
  · exact .of_eq rfl rfl

end Space

end TaskSpace

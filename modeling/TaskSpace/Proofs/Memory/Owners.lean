import TaskSpace.Proofs.Memory.Rollback

/-!
# The home of a block is its last owner

A run of a client is read here as a list of takings: the ranges that were taken with ownership, and for
which worker. The home of a block is the worker that took a range with a byte of it last, and the
home that the block was dealt if there was none since its segment was allocated.
-/

namespace TaskSpace

/-! ## Takings -/

/-- A range taken with ownership. Its blocks move before the users of their region are counted, so that
they have moved even if that count overflows and the range is not mapped. -/
structure Taking where
  range : Range
  worker : WorkerId
  mapped : Bool

namespace Segment

variable {seg seg' : Segment}

/-- A range has a byte in the block of an address. -/
def Meets (seg : Segment) (range : Range) (addr : Nat) : Prop :=
  ∃ i < range.len, seg.Covers (range.start.addr + i) ∧
    seg.blockOf (range.start.addr + i - seg.base.addr) = seg.blockOf (addr - seg.base.addr)

instance (seg : Segment) (range : Range) (addr : Nat) : Decidable (seg.Meets range addr) :=
  inferInstanceAs (Decidable (∃ i < range.len, _))

/-- The worker that took a block last, the block given by an address in it. -/
def lastTaker (seg : Segment) (addr : Nat) (takings : List Taking) : Option WorkerId :=
  (takings.reverse.find? fun taking => seg.Meets taking.range addr).map Taking.worker

@[simp] theorem lastTaker_nil (seg : Segment) (addr : Nat) : seg.lastTaker addr [] = none := rfl

theorem lastTaker_append (seg : Segment) (addr : Nat) (before after : List Taking) :
    seg.lastTaker addr (before ++ after) = (seg.lastTaker addr after).or (seg.lastTaker addr before) := by
  simp only [lastTaker, List.reverse_append, List.find?_append, Option.map_or]

theorem lastTaker_eq_none {addr : Nat} {takings : List Taking}
    (h : ∀ taking ∈ takings, ¬ seg.Meets taking.range addr) : seg.lastTaker addr takings = none := by
  simpa [lastTaker] using h

/-- The two segments have the same place, and the same blocks. -/
structure SameBlocks (seg seg' : Segment) : Prop where
  base : seg'.base = seg.base
  size : seg'.size = seg.size
  blockSize : seg'.blockSize = seg.blockSize

theorem SameBlocks.refl (seg : Segment) : seg.SameBlocks seg := ⟨rfl, rfl, rfl⟩

theorem sameBlocks_of_outline (h : seg'.outline = seg.outline) : seg.SameBlocks seg' := by
  obtain ⟨hbase, hsize, hblock, _⟩ := shape_of_outline h
  exact ⟨hbase, hsize, hblock⟩

theorem SameBlocks.covers (h : seg.SameBlocks seg') {addr : Nat} : seg'.Covers addr ↔ seg.Covers addr := by
  rw [Covers, Covers, h.base, h.size]

theorem SameBlocks.blockOf (h : seg.SameBlocks seg') : seg'.blockOf = seg.blockOf := by
  funext off
  rw [Segment.blockOf, Segment.blockOf, h.blockSize]

theorem SameBlocks.meets (h : seg.SameBlocks seg') {range : Range} {addr : Nat} :
    seg'.Meets range addr ↔ seg.Meets range addr := by
  simp only [Meets, h.covers, h.blockOf, h.base]

theorem SameBlocks.lastTaker (h : seg.SameBlocks seg') : seg'.lastTaker = seg.lastTaker := by
  funext addr takings
  have hsame : (fun taking : Taking => decide (seg'.Meets taking.range addr)) =
      fun taking => decide (seg.Meets taking.range addr) := funext fun _ => decide_eq_decide.2 h.meets
  rw [Segment.lastTaker, Segment.lastTaker, hsame]

theorem homeAt_fresh {size blockSize off n : Nat} (hb : 0 < blockSize) (base : Pointer) (ho : off < size) :
    (fresh base size blockSize n).homeAt off = .ok ((fresh base size blockSize n).blockOf off % n) := by
  have hlt : off / blockSize < Word.divUp size blockSize :=
    Word.lt_divUp_of_mul_lt hb (Nat.lt_of_le_of_lt (Nat.div_mul_le_self off blockSize) ho)
  simp [homeAt, fresh, blockOf, hlt]

end Segment

/-- What taking ownership adds to the takings. -/
def Access.taken (access : Access) (range : Range) (worker : WorkerId) (mapped : Bool) : List Taking :=
  if access.takesOwnership then [⟨range, worker, mapped⟩] else []

theorem Segment.lastTaker_taken (seg : Segment) (addr : Nat) (access : Access) (range : Range)
    (worker : WorkerId) (mapped : Bool) : seg.lastTaker addr (access.taken range worker mapped) =
      if access.takesOwnership ∧ seg.Meets range addr then some worker else none := by
  unfold Access.taken
  by_cases hown : access.takesOwnership
  · by_cases hmeets : seg.Meets range addr <;> simp [hown, hmeets, lastTaker]
  · simp [hown]

namespace Space

/-- The takings of ranges that are mapped one after the other, up to the one that fails. -/
def takings (access : Access) (worker : WorkerId) : List Range → Space → List Taking
  | [], _ => []
  | range :: rest, s =>
    match s.localize range.start range.len access worker with
    | (.ok _, s) => access.taken range worker true ++ takings access worker rest s
    | (.error (.refused _), _) => []
    | (.error (.panicked _), _) => access.taken range worker false

variable {s s' : Space} {reach : Nat} {seg seg' : Segment} {access : Access} {worker : WorkerId}
  {range : Range} {addr : Nat}

/-- The home of an address, once the ranges of a list were taken. -/
def homeBy (s : Space) (seg : Segment) (addr : Nat) (takings : List Taking) : Except Fault WorkerId :=
  match seg.lastTaker addr takings with
  | some worker => .ok (worker % s.numHomes)
  | none => s.homeOf ⟨addr⟩

/-! ## One range -/

/-- The blocks between the first and the last that a range touches are those in which it has a byte. -/
theorem Placed.covered_iff (hp : s.Placed reach) (hok : (s.place range.start range.len access).isOk)
    (hm : seg ∈ s.segments) (hc : seg.Covers addr) : s.Covered [range] addr ↔ seg.Meets range addr := by
  obtain ⟨⟨found, first, last⟩, hplace⟩ := exists_of_isOk hok
  obtain ⟨-, hlen, off, hfound, hstart, hle, rfl, rfl⟩ := hp.place_eq_ok.1 hplace
  have hpos := (hp.wellFormed found hfound).blockSize_pos
  rw [covered_singleton (hp.runOf_eq (hp.touches hplace).2)]
  constructor
  · rintro ⟨other, hother, hbase, hcovers, hfirst, hlast⟩
    obtain rfl := hp.eq_of_covers hm hother hc hcovers
    obtain rfl := hp.eq_of_base hm hfound hbase
    unfold Segment.Meets
    generalize seg.blockOf (addr - seg.base.addr) = block at hfirst hlast ⊢
    have hend : block * seg.blockSize ≤ off + range.len - 1 := (Nat.le_div_iff_mul_le hpos).1 hlast
    -- the first byte of the range in this block is the first of the range, or else of the block
    refine ⟨max off (block * seg.blockSize) - off, by omega, ⟨by omega, by omega⟩, ?_⟩
    have hsub : range.start.addr + (max off (block * seg.blockSize) - off) - seg.base.addr =
        max off (block * seg.blockSize) := by omega
    rw [hsub, Segment.blockOf]
    rcases Nat.le_total (block * seg.blockSize) off with hin | hbefore
    · rw [Nat.max_eq_left hin]
      exact Nat.le_antisymm hfirst ((Nat.le_div_iff_mul_le hpos).2 hin)
    · rw [Nat.max_eq_right hbefore, Nat.mul_div_cancel _ hpos]
  · rintro ⟨i, hi, hcovers, hblock⟩
    obtain rfl := hp.eq_of_covers hm hfound hcovers ⟨by omega, by omega⟩
    have hsub : range.start.addr + i - seg.base.addr = off + i := by omega
    rw [hsub] at hblock
    refine ⟨seg, hm, rfl, hc, ?_, ?_⟩ <;> rw [← hblock]
    · exact Nat.div_le_div_right (by omega)
    · exact Nat.div_le_div_right (by omega)

/-- A range with a place is taken, whether it is mapped in the end or not. -/
theorem Placed.homeOf_taken (hp : s.Placed reach) (hok : (s.place range.start range.len access).isOk)
    (hm : seg ∈ s.segments) (hc : seg.Covers addr) (worker : WorkerId) (mapped : Bool) :
    (s.localize range.start range.len access worker).2.homeOf ⟨addr⟩ =
      s.homeBy seg addr (access.taken range worker mapped) := by
  obtain ⟨htaken, hkept⟩ := hp.homeOf_of_place hok worker ⟨addr⟩
  simp only [hp.covered_iff hok hm hc] at htaken hkept
  rw [homeBy, seg.lastTaker_taken]
  split <;> rename_i hcase
  · split at hcase
    · cases hcase
      exact htaken ‹_›
    · cases hcase
  · split at hcase
    · cases hcase
    · exact hkept ‹_›

/-! ## Ranges one after the other -/

theorem homeBy_append (s : Space) (seg : Segment) (addr : Nat) (before after : List Taking) :
    s.homeBy seg addr (before ++ after) = match seg.lastTaker addr after with
      | some worker => .ok (worker % s.numHomes)
      | none => s.homeBy seg addr before := by
  simp only [homeBy, seg.lastTaker_append]
  cases seg.lastTaker addr after <;> rfl

/-- What the homes were before is what other takings made them. -/
theorem homeBy_trans {before after : List Taking} (hsame : seg.SameBlocks seg')
    (hnum : s'.numHomes = s.numHomes) (hhome : s'.homeOf ⟨addr⟩ = s.homeBy seg addr before) :
    s'.homeBy seg' addr after = s.homeBy seg addr (before ++ after) := by
  rw [homeBy_append, homeBy, hsame.lastTaker, hnum, hhome]

theorem SameHome.exists_sameBlocks (h : SameHome s s') (hm : seg ∈ s.segments) :
    ∃ seg' ∈ s'.segments, seg.SameBlocks seg' := by
  obtain ⟨seg', hm', he⟩ := List.mem_map.1 (h.sameShape.outline.symm ▸ List.mem_map_of_mem hm :
    seg.outline ∈ s'.segments.map Segment.outline)
  exact ⟨seg', hm', Segment.sameBlocks_of_outline he⟩

/-- A range that makes mapping panic has a place. -/
theorem Placed.isOk_place_of_panicked (hp : s.Placed reach) {payload : Payload}
    (he : s.localize range.start range.len access worker = (.error (.panicked payload), s')) :
    (s.place range.start range.len access).isOk := by
  cases hplace : s.place range.start range.len access with
  | ok placement => rfl
  | error fault =>
    obtain ⟨error, rfl⟩ := hp.place_refused hplace
    simp only [localize, hplace] at he
    cases he

theorem Placed.homeOf_localizeRest (hp : s.Placed reach) (made : List MappingId) (ranges : List Range)
    (hm : seg ∈ s.segments) (hc : seg.Covers addr) :
    (AddressSpace.localizeRest access worker made ranges s).2.homeOf ⟨addr⟩ =
      s.homeBy seg addr (s.takings access worker ranges) := by
  induction ranges generalizing s made seg with
  | nil => rfl
  | cons range rest ih =>
    have hclass : AddressSpace.localize s = s.localize := rfl
    have hhome := hp.localize_sameHome range.start range.len access worker
    have hnum := s.localize_numHomes range.start range.len access worker
    simp only [AddressSpace.localizeRest, hclass, takings]
    split <;> rename_i he <;> rw [he] at hhome hnum <;> simp only [he]
    · have htaken := hp.homeOf_taken (isOk_place_of_localize he) hm hc worker true
      rw [he] at htaken
      obtain ⟨seg', hm', hsame⟩ := hhome.exists_sameBlocks hm
      rw [ih (hp.of_sameHome hhome) _ hm' (hsame.covers.2 hc)]
      exact homeBy_trans hsame hnum htaken
    · obtain ⟨-, rfl⟩ := localize_refused he
      exact (unlocalizeAll_sameSegments _ made).homeOf_eq _
    · have htaken := hp.homeOf_taken (hp.isOk_place_of_panicked he) hm hc worker false
      rwa [he] at htaken

/-- As long as there is room for the handles, what is taken is mapped. -/
theorem Counted.mapped {handles : List MappingId} (h : s.Counted handles) (hp : s.Placed reach)
    (hf : s.BlocksFit) (ranges : List Range)
    (hroom : handles.length + s.reached access worker ranges < Word.bound) :
    ∀ taking ∈ s.takings access worker ranges, taking.mapped := by
  induction ranges generalizing s handles with
  | nil => exact fun _ hm => absurd hm List.not_mem_nil
  | cons range rest ih =>
    have hhome := hp.localize_sameHome range.start range.len access worker
    have hone : handles.length + 1 < Word.bound := by
      simp only [reached] at hroom
      split at hroom <;> omega
    rcases h.localize hp range.start range.len access worker (fun _ _ _ => hone) with
      ⟨fault, s', he, -⟩ | ⟨id, s', he, h'⟩
    · obtain ⟨error, rfl⟩ := h.localize_refused hp hf hone he
      simp only [takings, he]
      exact fun _ hm => absurd hm List.not_mem_nil
    · simp only [reached, he] at hroom
      simp only [takings, he]
      rw [he] at hhome
      refine List.forall_mem_append.2 ⟨fun taking hm => ?_, ih h' (hp.of_sameHome hhome)
        (hf.of_sameShape hhome.sameShape) (by rw [List.length_append, List.length_singleton]; omega)⟩
      unfold Access.taken at hm
      split at hm
      · rw [List.mem_singleton.1 hm]
      · cases hm

/-! ## Calls that take nothing -/

theorem Placed.homeOf_eq_homeAt (hp : s.Placed reach) (hm : seg ∈ s.segments) (hc : seg.Covers addr) :
    s.homeOf ⟨addr⟩ = seg.homeAt (addr - seg.base.addr) := by
  have hbelow := hp.below seg hm
  have hreach := hp.reach_le
  obtain ⟨hle, hlt⟩ := hc
  have hoff : seg.offset ⟨addr⟩ 0 = .ok (addr - seg.base.addr) :=
    Segment.offset_eq_ok.2 ⟨by simp only; omega, by omega, by omega⟩
  rw [homeOf_eq (hp.segmentAt_eq_ok.2 ⟨hm, hle, hlt⟩), hoff]
  rfl

/-- Blocks that are the same as before, homes included. -/
def KeepsBlocks (s s' : Space) : Prop :=
  ∀ seg' ∈ s'.segments, ∃ seg ∈ s.segments, seg.SameBlocks seg' ∧ seg'.homes = seg.homes

theorem KeepsBlocks.refl (s : Space) : s.KeepsBlocks s := fun seg hm => ⟨seg, hm, .refl seg, rfl⟩

theorem SameSegments.keepsBlocks (h : SameSegments s s') : s.KeepsBlocks s' :=
  fun seg' hm' => ⟨seg', h.segments ▸ hm', .refl seg', rfl⟩

theorem dealloc_keepsBlocks {base : Pointer} (hd : s.dealloc base = .ok s') : s.KeepsBlocks s' := by
  rcases s.dealloc_cases base with ⟨_, he⟩ | ⟨_, _, he⟩ | ⟨_, _, he⟩ <;> rw [he] at hd <;> cases hd
  exact fun seg' hm' => ⟨seg', (List.mem_filter.1 hm').1, .refl seg', rfl⟩

theorem Placed.put_keepsBlocks (hp : s.Placed reach) {ptr : Pointer} {new : Bytes}
    (hw : s.put ptr new = .ok s') : s.KeepsBlocks s' := by
  cases hl : s.locate ptr new.length with
  | error fault => rw [put_of_error hl] at hw; cases hw
  | ok found =>
    obtain ⟨seg, off⟩ := found
    obtain ⟨hm, _⟩ := hp.locate_eq_ok.1 hl
    rw [hp.put_eq hl] at hw
    cases hw
    intro seg' hm'
    obtain ⟨old, hold, rfl⟩ := List.mem_map.1 hm'
    split
    · exact ⟨seg, hm, ⟨rfl, rfl, rfl⟩, rfl⟩
    · exact ⟨old, hold, .refl old, rfl⟩

theorem Placed.homeOf_of_blocks (hp : s.Placed reach) {reach' : Nat} (hp' : s'.Placed reach')
    (hm : seg ∈ s.segments) (hm' : seg' ∈ s'.segments) (hsame : seg.SameBlocks seg')
    (hhomes : seg'.homes = seg.homes) (hc : seg.Covers addr) : s'.homeOf ⟨addr⟩ = s.homeOf ⟨addr⟩ := by
  rw [hp'.homeOf_eq_homeAt hm' (hsame.covers.2 hc), hp.homeOf_eq_homeAt hm hc]
  simp only [Segment.homeAt, hsame.blockOf, hsame.base, hhomes]

/-- Every segment of a later space was there before, unless it lies at `reach` or above, and takings made
the homes of its blocks. -/
def Takes (s s' : Space) (reach : Nat) (takings : List Taking) : Prop :=
  ∀ seg' ∈ s'.segments, seg'.base.addr < reach → ∃ seg ∈ s.segments, seg.SameBlocks seg' ∧
    ∀ addr, seg.Covers addr → s'.homeOf ⟨addr⟩ = s.homeBy seg addr takings

theorem Placed.takes_nil (hp : s.Placed reach) (hp' : s'.Placed reach) (h : s.KeepsBlocks s') :
    s.Takes s' reach [] := by
  intro seg' hm' _
  obtain ⟨seg, hm, hsame, hhomes⟩ := h seg' hm'
  exact ⟨seg, hm, hsame, fun addr hc => hp.homeOf_of_blocks hp' hm hm' hsame hhomes hc⟩

theorem Placed.takes_alloc (hp : s.Placed reach) {size blockSize : Nat}
    (hr : reach + span size blockSize ≤ Word.bound) : s.Takes (s.alloc size blockSize).2 reach [] := by
  have hp' := hp.alloc hr
  intro seg' hm' hlt
  have hm : seg' ∈ s.segments := by
    rcases hp.alloc_cases hr with ⟨_, _, he⟩ | ⟨_, _, _, he⟩ <;> rw [he] at hm'
    · exact hm'
    · rcases List.mem_cons.1 hm' with rfl | hm'
      · exact absurd hlt (Nat.lt_irrefl reach)
      · exact hm'
  exact ⟨seg', hm, .refl seg', fun addr hc => hp.homeOf_of_blocks hp' hm hm' (.refl seg') rfl hc⟩

theorem Placed.takes_localizeRest (hp : s.Placed reach) (access : Access) (worker : WorkerId)
    (made : List MappingId) (ranges : List Range) :
    s.Takes (AddressSpace.localizeRest access worker made ranges s).2 reach
      (s.takings access worker ranges) := by
  have hhome := hp.localizeRest_sameHome access worker made ranges
  intro seg' hm' _
  obtain ⟨seg, hm, he⟩ := List.mem_map.1 (hhome.sameShape.outline ▸ List.mem_map_of_mem hm' :
    seg'.outline ∈ s.segments.map Segment.outline)
  exact ⟨seg, hm, Segment.sameBlocks_of_outline he.symm, fun addr hc => hp.homeOf_localizeRest made ranges hm hc⟩

end Space

/-! ## Runs -/

namespace Client

variable {c : Client} {reach n : Nat} {seg : Segment}

/-- The ranges that a call takes. -/
def takings (c : Client) : SpaceOp → List Taking
  | .localize ptr len access worker => c.space.takings access worker [⟨ptr, len⟩]
  | .localizeAll ranges access worker => c.space.takings access worker ranges
  | _ => []

def takingsOf (c : Client) : List SpaceOp → List Taking
  | [] => []
  | op :: rest => c.takings op ++ (c.perform op).2.takingsOf rest

theorem keep_takes (hp : c.space.Placed reach) {answer : Except Fault Space}
    (h : ∀ s, answer = .ok s → s.Placed reach ∧ c.space.KeepsBlocks s) :
    c.space.Takes (c.keep answer).2.space reach [] := by
  cases answer with
  | ok s =>
    obtain ⟨hp', hkeeps⟩ := h s rfl
    exact hp.takes_nil hp' hkeeps
  | error fault => exact hp.takes_nil hp (.refl _)

theorem put_takes (hp : c.space.Placed reach) (ptr : Pointer) (new : Bytes) :
    c.space.Takes (c.keep (c.space.put ptr new)).2.space reach [] :=
  keep_takes hp fun _ he => ⟨hp.of_sameShape (hp.put_sameShape he), hp.put_keepsBlocks he⟩

theorem localizeAll_takes (hp : c.space.Placed reach) (ranges : List Range) (access : Access)
    (worker : WorkerId) : c.space.Takes (c.perform (.localizeAll ranges access worker)).2.space reach
      (c.space.takings access worker ranges) := by
  have htakes := hp.takes_localizeRest access worker [] ranges
  simp only [perform, AddressSpace.localizeAll]
  split <;> rename_i he <;> rw [he] at htakes <;> exact htakes

/-- A call moves the blocks that it takes, and no others. -/
theorem perform_takes (hp : c.space.Placed reach) (op : SpaceOp) (hr : reach + op.span ≤ Word.bound) :
    c.space.Takes (c.perform op).2.space reach (c.takings op) := by
  cases op with
  | alloc size blockSize => exact hp.takes_alloc hr
  | dealloc base => exact keep_takes hp fun _ he => ⟨hp.dealloc he, Space.dealloc_keepsBlocks he⟩
  | put ptr new => exact put_takes hp ptr new
  | get ptr len => exact hp.takes_nil hp (.refl _)
  | fill ptr value len =>
    simp only [perform, Space.fill_eq_put]
    exact put_takes hp ptr _
  | rmw ptr len update =>
    simp only [perform, Space.rmw_eq]
    cases c.space.get ptr len with
    | error fault => exact hp.takes_nil hp (.refl _)
    | ok old =>
      have hput := put_takes hp ptr (update.run old)
      simp only [Except.bind]
      cases hw : c.space.put ptr (update.run old) <;> rw [hw] at hput <;> exact hput
  | commit ptr new => exact put_takes hp ptr new
  | localize ptr len access worker =>
    rw [perform_localize]
    exact localizeAll_takes hp _ access worker
  | localizeAll ranges access worker => exact localizeAll_takes hp ranges access worker
  | unlocalize handle =>
    simp only [perform]
    split
    · refine hp.takes_nil (hp.of_sameHome (Space.unlocalize_sameHome _ handle)) ?_
      exact (Space.unlocalize_sameSegments _ handle).keepsBlocks
    · exact hp.takes_nil hp (.refl _)
  | write handle off new =>
    refine keep_takes hp fun s he => ⟨hp.of_sameHome (Space.write_sameHome he), ?_⟩
    exact (Space.write_sameSegments he).keepsBlocks

theorem keep_homed (h : c.space.Homed n) {answer : Except Fault Space}
    (ha : ∀ s, answer = .ok s → s.Homed n) : (c.keep answer).2.space.Homed n := by
  cases answer with
  | ok s => exact ha s rfl
  | error fault => exact h

theorem perform_homed (h : c.space.Homed n) (op : SpaceOp) : (c.perform op).2.space.Homed n := by
  cases op with
  | alloc size blockSize => exact h.alloc size blockSize
  | dealloc base => exact keep_homed h fun _ he => h.dealloc he
  | put ptr new => exact keep_homed h fun _ he => h.put he
  | get ptr len => exact h
  | fill ptr value len => exact keep_homed h fun _ he => h.put (Space.fill_eq_put _ _ _ _ ▸ he)
  | rmw ptr len update =>
    simp only [perform]
    split <;> rename_i he
    · exact h.rmw he
    · exact h
  | commit ptr new => exact keep_homed h fun _ he => h.put he
  | localize ptr len access worker =>
    have hstep := h.localize ptr len access worker
    simp only [perform]
    split <;> rename_i he <;> rw [he] at hstep <;> exact hstep
  | localizeAll ranges access worker =>
    have hstep := h.localizeRest access worker [] ranges
    simp only [perform, AddressSpace.localizeAll]
    split <;> rename_i he <;> rw [he] at hstep <;> exact hstep
  | unlocalize handle =>
    simp only [perform]
    split
    · exact (Space.unlocalize_sameSegments _ handle).homed h
    · exact h
  | write handle off new => exact keep_homed h fun _ he => (Space.write_sameSegments he).homed h

theorem run_homed (h : c.space.Homed n) (ops : List SpaceOp) : (c.run ops).space.Homed n := by
  induction ops generalizing c with
  | nil => exact h
  | cons op rest ih => exact ih (perform_homed h op)

/-- A segment of a space with `n` homes, of so many bytes in blocks of this size: takings decide of the
homes of its blocks, and the place in the segment decides of those of blocks that none of them met. -/
structure Dealt (n size blockSize : Nat) (takings : List Taking) (s : Space) (seg : Segment) : Prop where
  size : seg.size = size
  blockSize : seg.blockSize = blockSize
  home : ∀ addr, seg.Covers addr → s.homeOf ⟨addr⟩ = .ok (match seg.lastTaker addr takings with
    | some worker => worker % n
    | none => seg.blockOf (addr - seg.base.addr) % n)

/-- The takings of a run decide of the homes of a segment that is there all along. -/
theorem run_dealt {size blockSize : Nat} {base : Pointer} {takings : List Taking}
    (hp : c.space.Placed reach) (hh : c.space.Homed n) (hlt : base.addr < reach)
    (h : ∀ seg ∈ c.space.segments, seg.base = base → Dealt n size blockSize takings c.space seg)
    (ops : List SpaceOp) (hr : reach + Word.total (ops.map SpaceOp.span) ≤ Word.bound) :
    ∀ seg ∈ (c.run ops).space.segments, seg.base = base →
      Dealt n size blockSize (takings ++ c.takingsOf ops) (c.run ops).space seg := by
  induction ops generalizing c reach takings with
  | nil => simpa [takingsOf] using h
  | cons op rest ih =>
    rw [List.map_cons, Word.total_cons, ← Nat.add_assoc] at hr
    have hop : reach + op.span ≤ Word.bound := by omega
    rw [takingsOf, ← List.append_assoc]
    refine ih (perform_placed hp op hop) (perform_homed hh op) (by omega) (fun seg' hm' hbase => ?_) hr
    obtain ⟨seg, hm, hsame, hhome⟩ := perform_takes hp op hop seg' hm' (hbase ▸ hlt)
    obtain ⟨hsize, hblock, hbefore⟩ := h seg hm (hsame.base ▸ hbase)
    refine ⟨hsame.size.trans hsize, hsame.blockSize.trans hblock, fun addr hc => ?_⟩
    rw [hsame.covers] at hc
    rw [hhome addr hc, hsame.lastTaker, Segment.lastTaker_append, Space.homeBy, hh.numHomes]
    cases seg.lastTaker addr (c.takings op) with
    | some worker => rfl
    | none =>
      rw [hbefore addr hc, hsame.blockOf, hsame.base]
      rfl

/-- The blocks of a new segment are dealt in turn. -/
theorem perform_alloc_dealt (hp : c.space.Placed reach) (hh : c.space.Homed n) {size blockSize : Nat}
    {base : Pointer} (hr : reach + Space.span size blockSize ≤ Word.bound)
    (he : (c.perform (.alloc size blockSize)).1 = .ok base) :
    base.addr < reach + Space.span size blockSize ∧
      ∀ seg ∈ (c.perform (.alloc size blockSize)).2.space.segments, seg.base = base →
        Dealt n size blockSize [] (c.perform (.alloc size blockSize)).2.space seg := by
  have hp' := hp.alloc hr
  simp only [perform] at he ⊢
  rcases hp.alloc_cases hr with ⟨_, _, he'⟩ | ⟨ha, _, hroom, he'⟩ <;> rw [he'] at he hp' ⊢ <;> cases he
  have hpage : 0 < Space.page := by decide
  refine ⟨by simp only; omega, fun seg hm hbase => ?_⟩
  obtain rfl := hp'.eq_of_base hm List.mem_cons_self hbase
  refine ⟨rfl, rfl, fun addr hc => ?_⟩
  have hle : reach ≤ addr := hc.1
  have hlt : addr < reach + size := hc.2
  rw [hp'.homeOf_eq_homeAt hm hc, ← hh.numHomes]
  exact Segment.homeAt_fresh ha.2.1 _ (show addr - reach < size by omega)

/-- Every segment that is there after some calls was there before, or is new. -/
theorem run_segments (hp : c.space.Placed reach) (ops : List SpaceOp)
    (hr : reach + Word.total (ops.map SpaceOp.span) ≤ Word.bound) :
    ∀ seg ∈ (c.run ops).space.segments, (∃ old ∈ c.space.segments, old.base = seg.base) ∨
      ∃ pre size blockSize post, ops = pre ++ .alloc size blockSize :: post ∧
        ((c.run pre).perform (.alloc size blockSize)).1 = .ok seg.base := by
  induction ops generalizing c reach with
  | nil => exact fun seg hm => .inl ⟨seg, hm, rfl⟩
  | cons op rest ih =>
    rw [List.map_cons, Word.total_cons, ← Nat.add_assoc] at hr
    have hop : reach + op.span ≤ Word.bound := by omega
    intro seg hm
    rcases ih (perform_placed hp op hop) hr seg hm with ⟨old, hold, hbase⟩ |
      ⟨pre, size, blockSize, post, rfl, he⟩
    · rcases perform_shape hp op with ⟨size, blockSize, rfl, he⟩ | ⟨base, rfl, he⟩ | hs
      · rw [he] at hold
        rcases hp.alloc_cases hop with ⟨_, _, he'⟩ | ⟨_, _, _, he'⟩ <;> rw [he'] at hold
        · exact .inl ⟨old, hold, hbase⟩
        · rcases List.mem_cons.1 hold with rfl | hold
          · refine .inr ⟨[], size, blockSize, rest, rfl, ?_⟩
            rw [← hbase]
            exact congrArg Prod.fst he'
          · exact .inl ⟨old, hold, hbase⟩
      · obtain ⟨before, hbefore, hsame, -⟩ := Space.dealloc_keepsBlocks he old hold
        exact .inl ⟨before, hbefore, hsame.base.symm.trans hbase⟩
      · obtain ⟨before, hbefore, he⟩ := List.mem_map.1 (hs.outline ▸ List.mem_map_of_mem hold :
          old.outline ∈ c.space.segments.map Segment.outline)
        exact .inl ⟨before, hbefore, (Segment.shape_of_outline he).1.trans hbase⟩
    · exact .inr ⟨op :: pre, size, blockSize, post, rfl, he⟩

theorem run_mapped (h : c.space.Counted c.handles) (hp : c.space.Placed reach) (hf : c.space.BlocksFit)
    (ops : List SpaceOp) (hw : ∀ op ∈ ops, op.Worded)
    (hr : reach + Word.total (ops.map SpaceOp.span) ≤ Word.bound) (hroom : c.Roomy ops) :
    ∀ taking ∈ c.takingsOf ops, taking.mapped := by
  induction ops generalizing c reach with
  | nil => exact fun _ hm => absurd hm List.not_mem_nil
  | cons op rest ih =>
    rw [List.map_cons, Word.total_cons, ← Nat.add_assoc] at hr
    have hop : reach + op.span ≤ Word.bound := by omega
    refine List.forall_mem_append.2 ⟨?_, ih (perform_counted h hp hf op hop hroom.1)
      (perform_placed hp op hop) (perform_blocksFit hf hp op (hw op List.mem_cons_self) hop)
      (fun op hm => hw op (List.mem_cons_of_mem _ hm)) hr hroom.2⟩
    cases op with
    | localize ptr len access worker =>
      refine h.mapped hp hf [⟨ptr, len⟩] (Nat.lt_of_le_of_lt ?_ hroom.1)
      simp only [Space.reached, asked]
      split <;> omega
    | localizeAll ranges access worker => exact h.mapped hp hf ranges hroom.1
    | _ => exact fun _ hm => absurd hm List.not_mem_nil

/-- The home of every block, after some calls. -/
structure HomesTaken (numHomes : Nat) (ops : List SpaceOp) : Prop where
  allocated : ∀ seg ∈ ((start numHomes).run ops).space.segments, ∃ pre size blockSize post,
    ops = pre ++ .alloc size blockSize :: post ∧
      (((start numHomes).run pre).perform (.alloc size blockSize)).1 = .ok seg.base
  /-- The takings since the segment was allocated decide. -/
  home : ∀ pre size blockSize post, ops = pre ++ .alloc size blockSize :: post →
    ∀ seg ∈ ((start numHomes).run ops).space.segments,
      (((start numHomes).run pre).perform (.alloc size blockSize)).1 = .ok seg.base →
        Dealt (max numHomes 1) size blockSize
          ((((start numHomes).run pre).perform (.alloc size blockSize)).2.takingsOf post)
          ((start numHomes).run ops).space seg
  /-- A call that meets no byte of a block leaves the block its home, as long as its segment stays. -/
  kept : ∀ op, SpaceOp.addresses ops + op.span ≤ Word.bound →
    ∀ seg ∈ ((start numHomes).run ops).space.segments,
      (∃ seg' ∈ (((start numHomes).run ops).perform op).2.space.segments, seg'.base = seg.base) →
        ∀ addr, seg.Covers addr →
          (∀ taking ∈ ((start numHomes).run ops).takings op, ¬ seg.Meets taking.range addr) →
            (((start numHomes).run ops).perform op).2.space.homeOf ⟨addr⟩ =
              ((start numHomes).run ops).space.homeOf ⟨addr⟩
  /-- Whoever took a range was given a handle for it, unless its users were too many to be counted. -/
  mapped : (∀ op ∈ ops, op.Worded) → (start numHomes).Roomy ops →
    ∀ taking ∈ (start numHomes).takingsOf ops, taking.mapped
  one_block : ∀ seg ∈ ((start numHomes).run ops).space.segments, ∀ addr addr', seg.Covers addr →
    seg.Covers addr' → seg.blockOf (addr - seg.base.addr) = seg.blockOf (addr' - seg.base.addr) →
      ((start numHomes).run ops).space.homeOf ⟨addr⟩ = ((start numHomes).run ops).space.homeOf ⟨addr'⟩
  lt_homes : ∀ ptr home, ((start numHomes).run ops).space.homeOf ptr = .ok home → home < max numHomes 1

theorem homed_start (numHomes : Nat) : (start numHomes).space.Homed (max numHomes 1) where
  pos := by omega
  numHomes := rfl
  segments := by simp [start, Space.new]

/-- **The home of a block is its last owner.** As long as the address counter has not wrapped, the home of
an address is the worker that took a range with a byte in its block last, alone or among others, and
the home that the block was dealt if there was none since its segment was allocated. -/
theorem run_homesTaken (numHomes : Nat) (ops : List SpaceOp) (hr : SpaceOp.addresses ops ≤ Word.bound) :
    HomesTaken numHomes ops where
  allocated seg hm := by
    rcases run_segments (c := start numHomes) (Space.placed_new numHomes) ops hr seg hm with
      ⟨old, hold, -⟩ | hnew
    · cases hold
    · exact hnew
  home pre size blockSize post hops seg hm he := by
    subst hops
    have hsplit : SpaceOp.addresses (pre ++ .alloc size blockSize :: post) =
        SpaceOp.addresses pre + Space.span size blockSize + Word.total (post.map SpaceOp.span) := by
      simp only [SpaceOp.addresses, List.map_append, List.map_cons, Word.total_append, Word.total_cons,
        SpaceOp.span]
      omega
    have hrun : (start numHomes).run (pre ++ .alloc size blockSize :: post) =
        (((start numHomes).run pre).perform (.alloc size blockSize)).2.run post := List.foldl_append
    rw [hrun] at hm ⊢
    have hp := run_placed numHomes pre (by omega)
    have hh := run_homed (homed_start numHomes) pre
    have hop : SpaceOp.addresses pre + Space.span size blockSize ≤ Word.bound := by omega
    obtain ⟨hlt, hnew⟩ := perform_alloc_dealt hp hh hop he
    exact run_dealt (perform_placed hp (.alloc size blockSize) hop) (perform_homed hh _) hlt hnew post
      (hsplit ▸ hr) seg hm rfl
  kept op hop seg hm hstays addr hc hnone := by
    have hp := run_placed numHomes ops hr
    obtain ⟨seg', hm', hbase⟩ := hstays
    have hbelow := hp.below seg hm
    have hpage : 0 < Space.page := by decide
    obtain ⟨old, hold, hsame, hhome⟩ := perform_takes hp op hop seg' hm' (by rw [hbase]; omega)
    obtain rfl := hp.eq_of_base hold hm (hsame.base ▸ hbase)
    rw [hhome addr hc, Space.homeBy, Segment.lastTaker_eq_none hnone]
  mapped hw hroom := run_mapped (Space.counted_new numHomes) (Space.placed_new numHomes)
    (Space.blocksFit_new numHomes) ops hw hr hroom
  one_block seg hm addr addr' hc hc' hblock := by
    have hp := run_placed numHomes ops hr
    rw [hp.homeOf_eq_homeAt hm hc, hp.homeOf_eq_homeAt hm hc', Segment.homeAt, Segment.homeAt, hblock]
  lt_homes ptr home he := (run_homed (homed_start numHomes) ops).homeOf_lt he

/-- Three blocks of which the last one is clipped: a taking within the first leaves the others, one that
starts at the last byte of the second takes that too, and what a refused call had taken stays. -/
theorem run_homesTaken_clipped :
    let ops : List SpaceOp := [.alloc 10 4, .localize ⟨4097⟩ 2 ⟨10⟩ 5,
      .localizeAll [⟨⟨4103⟩, 2⟩, ⟨⟨0⟩, 1⟩] ⟨9⟩ 7, .unlocalize 0]
    let s := ((start 3).run ops).space
    SpaceOp.addresses ops ≤ Word.bound ∧ HomesTaken 3 ops ∧
      (List.range 10).map (fun i => s.homeOf ⟨4096 + i⟩) = (List.range 10).map fun i =>
        .ok (if i < 4 then 2 else 1) :=
  ⟨by decide, run_homesTaken 3 _ (by decide), by decide⟩

end Client

end TaskSpace

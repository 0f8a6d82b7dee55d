import TaskSpace.Proofs.Memory.Owners
import TaskSpace.Proofs.Memory.Recording
import TaskSpace.Proofs.Memory.Scatter
import TaskSpace.Proofs.Memory.Tenure

/-!
# No sum, product or index leaves its bounds

`Space.Bounded` lists what a space works out with machine words and what it indexes: the ends of segments, the
runs of blocks around a range, the offsets of mappings in their regions, the counts of users and of live mappings.
Every run of a client keeps it, whatever it calls and however large its blocks are, as long as the address counter
has not wrapped; only the two counts ask for more, namely that the mappings that are live now fit a word.
-/

namespace TaskSpace

/-- The answer is a result or a refusal: nothing that was worked out on the way to it panicked. -/
def Fault.Averted {α : Type} (answer : Except Fault α) : Prop :=
  ∀ payload, answer ≠ .error (.panicked payload)

namespace Fault

variable {α β : Type}

theorem averted_ok (a : α) : Averted (.ok a : Except Fault α) := fun _ h => by cases h

theorem averted_refused (error : AccessError) : Averted (.error (.refused error) : Except Fault α) :=
  fun _ h => by cases h

theorem Averted.map {answer : Except Fault α} (h : Averted answer) (f : α → β) : Averted (answer.map f) := by
  cases answer with
  | ok a => exact averted_ok (f a)
  | error fault => exact fun payload he => by cases he; exact h payload rfl

theorem Averted.bind {answer : Except Fault α} (h : Averted answer) {f : α → Except Fault β}
    (hf : ∀ a, answer = .ok a → Averted (f a)) : Averted (answer.bind f) := by
  cases answer with
  | ok a => exact hf a rfl
  | error fault => exact fun payload he => by cases he; exact h payload rfl

end Fault

open Fault (Averted averted_ok averted_refused)

/-! ## Blocks -/

namespace Segment

/-- The blocks `first` to `last` are there and surround the range of `len` bytes at `off`, and neither the place
where they start nor the one where they end leaves a word, also before it is clipped. -/
structure Encloses (seg : Segment) (first last off len : Nat) : Prop where
  first_le : first * seg.blockSize ≤ off
  le_last : off + len ≤ min ((last + 1) * seg.blockSize) seg.size
  ordered : first ≤ last
  last_lt : last < seg.homes.length
  product_lt : (last + 1) * seg.blockSize < Word.bound
  range : seg.blockRange first last = .ok (first * seg.blockSize, min ((last + 1) * seg.blockSize) seg.size)

theorem product_lt_of_blockRange {seg : Segment} {first last : Nat} {range : Nat × Nat}
    (h : seg.blockRange first last = .ok range) : (last + 1) * seg.blockSize < Word.bound := by
  unfold blockRange at h
  cases hs : Fault.product first seg.blockSize with
  | error fault => rw [hs] at h; cases h
  | ok lower =>
    cases ha : Fault.sum last 1 with
    | error fault => rw [hs, ha] at h; cases h
    | ok after =>
      obtain ⟨_, rfl⟩ := Fault.sum_eq_ok.1 ha
      cases he : Fault.product (last + 1) seg.blockSize with
      | error fault => simp [hs, ha, he, Bind.bind, Except.bind] at h
      | ok upper => exact (Fault.product_eq_ok.1 he).1

/-- A region starts where the first of its blocks does, is as long as they are once they are clipped at the end of
the segment, and as long as what a refresh copies into it. -/
structure Backs (seg : Segment) (region : Region) : Prop where
  base : region.base.addr = seg.base.addr + region.key.first * seg.blockSize
  length : region.bytes.length =
    min ((region.key.last + 1) * seg.blockSize) seg.size - region.key.first * seg.blockSize
  refresh : ∃ fresh, seg.load region.key.first region.key.last = .ok fresh ∧ fresh.length = region.bytes.length

end Segment

namespace Space

variable {s s' : Space} {ids : List MappingId} {stores : List Store} {reach : Nat} {seg : Segment} {ptr : Pointer}
  {len off : Nat} {access : Access} {worker : WorkerId} {id : MappingId} {mapping : Mapping}

/-- What a space works out and indexes stays in bounds. -/
structure Bounded (s : Space) : Prop where
  /-- A worker is taken modulo the homes. -/
  homes : 0 < s.numHomes
  segments : ∀ seg ∈ s.segments, 0 < seg.blockSize ∧ seg.base.addr + seg.size < Word.bound ∧
    seg.bytes.length = seg.size
  located : ∀ ptr len seg off, s.locate ptr len = .ok (seg, off) → seg ∈ s.segments ∧
    ptr.addr = seg.base.addr + off ∧ off + len ≤ seg.size ∧ seg.blockOf off < seg.homes.length
  placed : ∀ ptr len access seg first last, s.place ptr len access = .ok ⟨seg, first, last⟩ → 0 < len ∧
    ∃ off, s.locate ptr len = .ok (seg, off) ∧ seg.Encloses first last off len
  cached : ∀ entry ∈ s.cache, ∃ region seg, s.regions[entry.region]? = some region ∧ region.key = entry.key ∧
    seg ∈ s.segments ∧ seg.base = entry.key.segment ∧ seg.Backs region
  /-- A mapping never starts below its region, be it live or not, and ends inside while it is live. -/
  mapped : ∀ mapping ∈ s.mappings, ∃ region, s.regions[mapping.region]? = some region ∧
    mapping.start.offsetFrom region.base = some (regionOffset mapping region) ∧
    (mapping.live = true → regionOffset mapping region + mapping.len ≤ region.bytes.length ∧
      region.bytes.length < Word.bound)
  /-- The count of live mappings has gone round neither way, and can go up by one. -/
  live : s.live = s.mappings.countP Mapping.live ∧ s.live + 1 < Word.bound
  /-- Nor has a count of users. -/
  refs : ∀ entry ∈ s.cache, 0 < entry.refs ∧ entry.refs ≤ s.live
  /-- What is released is counted with the users of the region that it is mapped into. -/
  released : ∀ mapping ∈ s.mappings, mapping.live = true → ∃ region entry, s.regions[mapping.region]? = some region ∧
    s.entry? region.key = some entry ∧ entry.region = mapping.region
  put : ∀ ptr new, Averted (s.put ptr new)
  get : ∀ ptr len, Averted (s.get ptr len)
  fill : ∀ ptr value len, Averted (s.fill ptr value len)
  rmw : ∀ ptr len update, Averted (s.rmw ptr len update)
  commit : ∀ ptr new, Averted (s.commit ptr new)
  localize : ∀ ptr len access worker, Averted (s.localize ptr len access worker).1
  homeOf : ∀ ptr, Averted (s.homeOf ptr)
  read : ∀ id, Averted (s.read id)
  write : ∀ id off new, Averted (s.write id off new)

/-! ## Home memory -/

theorem Placed.averts_locate (h : s.Placed reach) (ptr : Pointer) (len : Nat) : Averted (s.locate ptr len) := by
  cases hl : s.locate ptr len with
  | ok found => exact averted_ok _
  | error fault =>
    obtain ⟨error, rfl⟩ := h.locate_refused hl
    exact averted_refused error

theorem Placed.averts_put (h : s.Placed reach) (ptr : Pointer) (new : Bytes) : Averted (s.put ptr new) := by
  cases hl : s.locate ptr new.length with
  | ok found => exact h.put_eq hl ▸ averted_ok _
  | error fault =>
    obtain ⟨error, rfl⟩ := h.locate_refused hl
    exact put_of_error hl ▸ averted_refused error

theorem Placed.averts_get (h : s.Placed reach) (ptr : Pointer) (len : Nat) : Averted (s.get ptr len) := by
  cases hl : s.locate ptr len with
  | ok found => exact h.get_eq hl ▸ averted_ok _
  | error fault =>
    obtain ⟨error, rfl⟩ := h.locate_refused hl
    exact get_of_error hl ▸ averted_refused error

theorem Placed.averts_rmw (h : s.Placed reach) (ptr : Pointer) (len : Nat) (update : Update) :
    Averted (s.rmw ptr len update) :=
  s.rmw_eq ptr len update ▸ (h.averts_get ptr len).bind fun old _ => (h.averts_put ptr (update.run old)).map _

theorem Placed.blockOf_lt (h : s.Placed reach) (hl : s.locate ptr len = .ok (seg, off)) :
    seg.blockOf off < seg.homes.length := by
  obtain ⟨hm, _, hlt, _⟩ := h.locate_eq_ok.1 hl
  exact (h.wellFormed seg hm).blockOf_lt hlt

theorem Placed.averts_homeOf (h : s.Placed reach) (ptr : Pointer) : Averted (s.homeOf ptr) := by
  refine (h.averts_locate ptr 0).bind fun (seg, off) hl => ?_
  simp only [Segment.homeAt, List.getElem?_eq_getElem (h.blockOf_lt hl)]
  exact averted_ok _

/-! ## Blocks around a range -/

/-- The blocks that a range touches enclose it. That the end of the last one is a word is seen before it is clipped:
either there is one block, and its size is a word, or blocks are shorter than the segment. -/
theorem Placed.encloses (h : s.Placed reach) (hf : s.BlocksFit)
    {first last : Nat} (hplace : s.place ptr len access = .ok ⟨seg, first, last⟩) : 0 < len ∧
      ∃ off, s.locate ptr len = .ok (seg, off) ∧ seg.Encloses first last off len := by
  obtain ⟨_, hlen, off, hm, haddr, hle, rfl, rfl⟩ := h.place_eq_ok.1 hplace
  have hw := h.wellFormed seg hm
  have hlt : off + len - 1 < seg.size := by omega
  obtain ⟨start, stop, hrange, _⟩ := h.exists_blockRange hf hm hlen hle
  obtain ⟨rfl, rfl⟩ := Segment.blockRange_eq_ok hrange
  have hend : off + len - 1 < (seg.blockOf (off + len - 1) + 1) * seg.blockSize :=
    Nat.lt_mul_of_div_lt (Nat.lt_succ_self _) hw.blockSize_pos
  refine ⟨hlen, off, h.locate_eq_ok.2 ⟨hm, haddr, by omega, hle⟩, Nat.div_mul_le_self _ _,
    Nat.le_min.2 ⟨by omega, hle⟩, Nat.div_le_div_right (by omega), hw.blockOf_lt hlt, ?_, hrange⟩
  exact Segment.product_lt_of_blockRange hrange

/-! ## Regions and mappings -/

theorem Current.backs (h : s.Current ids stores) (hp : s.Placed reach) {entry : CacheEntry} (he : entry ∈ s.cache) :
    ∃ region seg, s.regions[entry.region]? = some region ∧ region.key = entry.key ∧ seg ∈ s.segments ∧
      seg.base = entry.key.segment ∧ seg.Backs region := by
  obtain ⟨region, hregion, hkey, ⟨seg, hm, hbase, start, stop, hrange, haddr⟩, _⟩ := h.filled entry he
  obtain ⟨region', hregion', _, seg', hm', hbase', _, _, hrange', _, _, hlen⟩ := h.shared.backed entry he
  obtain rfl := Option.some.inj (hregion.symm.trans hregion')
  obtain rfl := hp.eq_of_base hm hm' (hbase.trans hbase'.symm)
  obtain ⟨rfl, rfl⟩ := Segment.blockRange_eq_ok hrange'
  obtain ⟨rfl, _⟩ := Segment.blockRange_eq_ok hrange
  obtain ⟨fresh, region', hload, hregion', hfresh⟩ := h.shared.exists_load hp he hm (hkey ▸ hbase).symm
  obtain rfl := Option.some.inj (hregion.symm.trans hregion')
  exact ⟨region, seg, hregion, hkey, hm, hkey ▸ hbase, haddr, hlen, fresh, hkey ▸ hload, hfresh⟩

theorem Current.averts_read (h : s.Current ids stores) (hp : s.Placed reach) (id : MappingId) :
    Averted (s.read id) := by
  cases hm : s.mappings[id]? with
  | none =>
    rw [Space.read, hm]
    exact averted_ok _
  | some mapping =>
    cases hl : mapping.live with
    | false => exact read_dead hm hl ▸ averted_refused _
    | true =>
      obtain ⟨_, bytes, _, hread, _⟩ := h.read hp hm hl
      exact hread ▸ averted_ok _

theorem le_of_fits {size : Nat} (h : fits off len size = true) : off + len ≤ size := by
  unfold fits at h
  split at h
  · rename_i stop hsum
    obtain ⟨_, rfl⟩ := Word.add?_eq_some.1 hsum
    simpa using h
  · cases h

theorem Current.averts_write (h : s.Current ids stores) (hp : s.Placed reach) (id : MappingId) (off : Nat)
    (new : Bytes) : Averted (s.write id off new) := by
  cases hm : s.mappings[id]? with
  | none =>
    rw [Space.write, hm]
    exact averted_ok _
  | some mapping =>
    -- a write that is not refused before it looks at the region is one that succeeds
    by_cases hw : mapping.access.isWritable = true
    · by_cases hfits : fits off new.length mapping.len = true
      · cases hl : mapping.live with
        | true =>
          obtain ⟨s', hs⟩ := h.exists_write hp hm hl hw (le_of_fits hfits)
          exact hs ▸ averted_ok _
        | false =>
          simp only [Space.write, hm, hw, hfits, hl, Bool.not_true, Bool.not_false, Bool.false_eq_true, if_false, if_true]
          exact averted_refused _
      · simp only [Space.write, hm, hw, hfits, Bool.not_true, Bool.not_false, Bool.false_eq_true, if_false, if_true]
        exact averted_refused _
    · simp only [Space.write, hm, hw, Bool.not_false, if_true]
      exact averted_refused _

/-- The live mappings, counted by their handles and in the table. -/
theorem Current.length_eq (h : s.Current ids stores) : ids.length = s.mappings.countP Mapping.live := by
  let alive (id : MappingId) : Bool := ((s.mappings[id]?).map Mapping.live).getD false
  have halive : ∀ id, alive id = true ↔ ∃ mapping, s.mappings[id]? = some mapping ∧ mapping.live = true := by
    intro id
    simp only [alive]
    cases s.mappings[id]? <;> simp
  have hperm : ids.Perm ((List.range s.mappings.length).filter alive) := by
    refine (List.perm_ext_iff_of_nodup h.shared.nodup (List.nodup_range.filter _)).2 fun id => ?_
    rw [List.mem_filter, List.mem_range, halive]
    constructor
    · intro hid
      obtain ⟨mapping, _, hm, hl, _⟩ := h.shared.held id hid
      exact ⟨(List.getElem?_eq_some_iff.1 hm).1, mapping, hm, hl⟩
    · rintro ⟨_, mapping, hm, hl⟩
      exact h.complete id mapping hm hl
  have htable : (List.range s.mappings.length).map alive = s.mappings.map Mapping.live := by
    refine List.ext_getElem (by simp) fun id hid hid' => ?_
    have hlt : id < s.mappings.length := by simpa using hid
    simp [alive, hlt]
  rw [hperm.length_eq, ← List.countP_eq_length_filter]
  have hcount := congrArg (List.countP id) htable
  rw [List.countP_map, List.countP_map] at hcount
  exact hcount

/-- A count of users is no higher than that of live mappings. -/
theorem Current.refs_le (h : s.Current ids stores) {entry : CacheEntry} (he : entry ∈ s.cache) :
    entry.refs ≤ s.mappings.countP Mapping.live := by
  rw [h.shared.refs entry he, ← h.length_eq]
  exact List.countP_le_length

theorem Current.averts_localize (h : s.Current ids stores) (hp : s.Placed reach) (hf : s.BlocksFit)
    (hroom : s.mappings.countP Mapping.live + 1 < Word.bound) (ptr : Pointer) (len : Nat) (access : Access)
    (worker : WorkerId) : Averted (s.localize ptr len access worker).1 := by
  cases hplace : s.place ptr len access with
  | error fault =>
    obtain ⟨error, rfl⟩ := hp.place_refused hplace
    simp only [Space.localize, hplace]
    exact averted_refused error
  | ok placement =>
    have hquiet : ¬ s.Crowded ⟨placement.segment.base, placement.first, placement.last⟩ := by
      rintro ⟨entry, he, _, hfull⟩
      have hle := h.refs_le he
      omega
    obtain ⟨id, s', hs⟩ := h.shared.localize_ok hp hf hplace hquiet worker
    exact hs ▸ averted_ok _

/-- What is known of the mappings, the regions and the segments of a space keeps it in bounds. -/
theorem Current.bounded {n : Nat} (h : s.Current ids stores) (hr : s.Rooted reach) (hf : s.BlocksFit)
    (hh : s.Homed n) (hlive : s.live = Word.wrap (s.mappings.countP Mapping.live))
    (hroom : s.mappings.countP Mapping.live + 1 < Word.bound) : s.Bounded := by
  have hp := hr.toPlaced
  have hcount : s.live = s.mappings.countP Mapping.live := hlive.trans (Word.wrap_of_lt (by omega))
  have hpage : 0 < page := by decide
  exact {
    homes := hh.numHomes.symm ▸ hh.pos
    segments := fun seg hm => by
      have hbelow := hp.below seg hm
      have hreach := hp.reach_le
      have hw := hp.wellFormed seg hm
      exact ⟨hw.blockSize_pos, by omega, hw.length_bytes⟩
    located := fun ptr len seg off hl => by
      obtain ⟨hm, haddr, _, hle⟩ := hp.locate_eq_ok.1 hl
      exact ⟨hm, haddr, hle, hp.blockOf_lt hl⟩
    placed := fun ptr len access seg first last hplace => hp.encloses hf hplace
    cached := fun entry he => h.backs hp he
    mapped := fun mapping hm => by
      obtain ⟨region, hregion, hle⟩ := hr.inside mapping hm
      refine ⟨region, hregion, ?_, fun hl => ?_⟩
      · simp only [regionOffset, Pointer.offsetFrom, if_pos hle, Option.getD_some]
      · obtain ⟨id, hid⟩ := List.mem_iff_getElem?.1 hm
        obtain ⟨_, region', off, _, _, hregion', _, _, hoff, hfit, hlt, _⟩ := h.seen hp hid hl
        obtain rfl := Option.some.inj (hregion.symm.trans hregion')
        exact ⟨hoff ▸ hfit, hlt⟩
    live := ⟨hcount, hcount ▸ hroom⟩
    refs := fun entry he => ⟨h.shared.used entry he, hcount ▸ h.refs_le he⟩
    released := fun mapping hm hl => by
      obtain ⟨id, hid⟩ := List.mem_iff_getElem?.1 hm
      obtain ⟨entry, region, _, he, hreg, hregion, _⟩ := h.seen hp hid hl
      obtain ⟨region', hregion', hkey, _⟩ := h.shared.backed entry he
      obtain rfl := Option.some.inj (hregion.symm.trans (hreg ▸ hregion'))
      exact ⟨region, entry, hregion, (entry?_eq_some h.shared.keys).2 ⟨he, hkey.symm⟩, hreg⟩
    put := hp.averts_put
    get := hp.averts_get
    fill := fun ptr value len => s.fill_eq_put ptr value len ▸ hp.averts_put ptr _
    rmw := hp.averts_rmw
    commit := hp.averts_put
    localize := h.averts_localize hp hf hroom
    homeOf := hp.averts_homeOf
    read := h.averts_read hp
    write := h.averts_write hp }

end Space

/-! ## Runs -/

namespace Client

variable {c : Client} {reach : Nat}

/-- A record kept of the mappings would balance with the handles that the client holds. -/
def Booked (c : Client) : Prop := ∃ r : Recorder, r.space = c.space ∧ r.Balanced c.handles

theorem perform_booked (h : c.Booked) (op : SpaceOp) : (c.perform op).2.Booked := by
  obtain ⟨r, hr, h⟩ := h
  have hstill : ∀ {s}, Space.Still c.space s → Booked { c with space := s } := fun hs =>
    ⟨_, rfl, h.still (hr ▸ hs)⟩
  have hkeep : ∀ {answer : Except Fault Space}, (∀ s, answer = .ok s → Space.Still c.space s) →
      (c.keep answer).2.Booked := fun {answer} hs => by
    cases answer with
    | ok s => exact hstill (hs s rfl)
    | error fault => exact ⟨r, hr, h⟩
  cases op with
  | alloc size blockSize => exact hstill (c.space.alloc_still size blockSize)
  | dealloc base => exact hkeep fun _ he => Space.dealloc_still he
  | put ptr new => exact hkeep fun _ he => Space.put_still he
  | get ptr len => exact ⟨r, hr, h⟩
  | fill ptr value len => exact hkeep fun _ he => Space.put_still (Space.fill_eq_put _ _ _ _ ▸ he)
  | rmw ptr len update =>
    simp only [perform]
    split <;> rename_i he
    · exact hstill (Space.rmw_still he)
    · exact ⟨r, hr, h⟩
  | commit ptr new => exact hkeep fun _ he => Space.put_still he
  | localize ptr len access worker =>
    have hstep := h.localize ptr len access worker
    simp only [Recorder.localize, hr] at hstep
    simp only [perform]
    rcases hs : c.space.localize ptr len access worker with ⟨fault | id, s⟩ <;> rw [hs] at hstep
    · obtain ⟨_, r', he, h'⟩ | ⟨_, _, he, _⟩ := hstep <;> cases he
      exact ⟨_, rfl, h'⟩
    · obtain ⟨_, _, he, _⟩ | ⟨_, r', he, h'⟩ := hstep <;> cases he
      exact ⟨_, rfl, h'⟩
  | localizeAll ranges access worker =>
    have hall : r.Balanced (c.handles ++ []) := (List.append_nil c.handles).symm ▸ h
    obtain ⟨hanswer, hspace⟩ := r.localizeRest_space access worker [] ranges
    rw [hr] at hanswer hspace
    simp only [perform, AddressSpace.localizeAll]
    rcases hs : AddressSpace.localizeRest access worker [] ranges c.space with ⟨fault | ids, s⟩ <;>
      rw [hs] at hanswer hspace <;>
      rcases hall.localizeRest access worker ranges with ⟨_, r', he, h'⟩ | ⟨_, r', he, h'⟩ <;>
      rw [he] at hanswer hspace <;> cases hanswer
    · exact ⟨r', hspace, h'⟩
    · exact ⟨r', hspace, h'⟩
  | unlocalize handle =>
    simp only [perform]
    split
    · rename_i hm
      obtain ⟨pre, post, _, hsplit, herase⟩ := List.exists_erase_eq hm
      exact ⟨r.unlocalize handle, congrArg (Space.unlocalize · handle) hr, herase ▸ (hsplit ▸ h).unlocalize⟩
    · exact ⟨r, hr, h⟩
  | write handle off new => exact hkeep fun _ he => Space.write_still he

theorem perform_rooted (h : c.space.Rooted reach) (op : SpaceOp) (hr : reach + op.span ≤ Word.bound) :
    (c.perform op).2.space.Rooted (reach + op.span) := by
  have hage : ∀ {freed s}, Space.Ages freed 0 c.space s → s.Rooted reach := fun ha =>
    ha.rooted reach h (Nat.le_of_add_right_le hr)
  have hkeep : ∀ {answer : Except Fault Space}, (∀ s, answer = .ok s → Space.Ages [] 0 c.space s) →
      (c.keep answer).2.space.Rooted reach := fun {answer} hs => by
    cases answer with
    | ok s => exact hage (hs s rfl)
    | error fault => exact h
  cases op with
  | alloc size blockSize => exact (c.space.ages_alloc size blockSize).rooted reach h hr
  | dealloc base => exact hkeep fun _ he => Space.ages_dealloc he
  | put ptr new => exact hkeep fun _ he => Space.ages_put he
  | get ptr len => exact h
  | fill ptr value len => exact hkeep fun _ he => Space.ages_put (Space.fill_eq_put _ _ _ _ ▸ he)
  | rmw ptr len update =>
    simp only [perform]
    split <;> rename_i he
    · exact hage (Space.ages_put (Space.put_of_rmw he))
    · exact h
  | commit ptr new => exact hkeep fun _ he => Space.ages_put he
  | localize ptr len access worker =>
    have ha := hage (c.space.ages_localize ptr len access worker)
    simp only [perform]
    split <;> rename_i he <;> rw [he] at ha <;> exact ha
  | localizeAll ranges access worker =>
    have ha : (AddressSpace.localizeRest access worker [] ranges c.space).2.Rooted reach := by
      have hnone : ∀ id ∈ ([] : List MappingId), id < c.space.mappings.length := by simp
      rcases Space.ages_localizeRest access worker ranges hnone with ⟨_, _, _, he, _, ha⟩ | ⟨_, _, he, _, ha⟩ <;>
        rw [he] <;> exact hage ha
    simp only [perform, AddressSpace.localizeAll]
    split <;> rename_i he <;> rw [he] at ha <;> exact ha
  | unlocalize handle =>
    simp only [perform]
    split
    · exact hage (c.space.ages_unlocalize handle)
    · exact h
  | write handle off new => exact hkeep fun _ he => Space.ages_write he

/-- **No index and no arithmetic of a space goes wrong.** After any calls, with segments of any size and blocks of
any size that is a word, as long as the address counter has not wrapped and the mappings that are live fit a word with
one to spare: no call panics, whatever its arguments, and every number that calls work out and index with is in
bounds. -/
theorem run_bounded (numHomes : Nat) (ops : List SpaceOp) (hw : ∀ op ∈ ops, op.Worded)
    (hr : SpaceOp.addresses ops ≤ Word.bound)
    (hroom : ((start numHomes).run ops).space.mappings.countP Mapping.live + 1 < Word.bound) :
    ((start numHomes).run ops).space.Bounded := by
  have hf := run_blocksFit (c := start numHomes) (Space.blocksFit_new numHomes) (Space.placed_new numHomes) ops hw hr
  have hroot := run_induction (c := start numHomes) (P := fun reach c => c.space.Rooted reach)
    (fun _ _ op h hr => perform_rooted h op hr) (Space.rooted_new numHomes) ops hr
  have hbooked : ((start numHomes).run ops).Booked := by
    refine (run_induction (P := fun _ c => c.Booked) (fun _ _ op h _ => perform_booked h op) ?_ ops hr)
    exact ⟨Recorder.new numHomes, rfl, Recorder.balanced_new numHomes⟩
  obtain ⟨r, hspace, hbalanced⟩ := hbooked
  have hlive := hbalanced.live
  rw [hspace, ← List.countP_eq_length_filter] at hlive
  obtain ⟨ids, h⟩ := run_current numHomes ops hr
  exact h.bounded hroot hf (run_homed (homed_start numHomes) ops) hlive hroom

/-- Blocks of the largest size there is, and two runs of blocks that overlap, one of them mapped twice. -/
theorem run_bounded_huge :
    let ops : List SpaceOp := [.alloc 8 (Word.bound - 1), .alloc 9 4, .localize ⟨4099⟩ 5 .readOnly 1,
      .localizeAll [⟨⟨12288⟩, 2⟩, ⟨⟨12291⟩, 6⟩] .sharedWrite 1, .localize ⟨12289⟩ 3 .exclusive 0, .unlocalize 1]
    ((∀ op ∈ ops, op.Worded) ∧ SpaceOp.addresses ops ≤ Word.bound ∧
      ((start 2).run ops).space.mappings.countP Mapping.live + 1 < Word.bound) ∧
      ((start 2).run ops).space.Bounded ∧
        ((start 2).run ops).space.regions.map (fun region => (region.base.addr, region.bytes.length)) =
          [(4096, 8), (12288, 4), (12288, 9)] :=
  ⟨by decide, run_bounded 2 _ (by decide) (by decide) (by decide), by decide⟩

end Client

end TaskSpace

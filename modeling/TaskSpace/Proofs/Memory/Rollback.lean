import TaskSpace.Proofs.Memory.Ownership
import TaskSpace.Proofs.Memory.Reads

/-!
# What is left when ranges are refused

Ranges are mapped one after the other, and the first that is refused has those before it released. Their
handles are dead then, but what mapping them did besides is not taken back: blocks keep their new
homes, and regions that were loaded again keep what was loaded.
-/

namespace TaskSpace

/-! ## Panics -/

/-- An answer is not a refusal. -/
def Fault.Grants {α : Type} (answer : Except Fault α) : Prop := ∀ error, answer ≠ .error (.refused error)

namespace Fault

variable {α β : Type} {answer : Except Fault α}

theorem sum_grants (a b : Nat) : Grants (sum a b) := by
  intro error
  unfold sum
  split <;> nofun

theorem product_grants (a b : Nat) : Grants (product a b) := by
  intro error
  unfold product
  split <;> nofun

theorem slice_grants (b : Bytes) (start stop : Nat) : Grants (b.slice start stop) := by
  intro error
  unfold Bytes.slice Bytes.outOfRange
  split <;> nofun

theorem Grants.bind (h : Grants answer) {next : α → Except Fault β} (hnext : ∀ a, Grants (next a)) :
    Grants (answer >>= next) := by
  cases answer with
  | ok a => exact hnext a
  | error fault => exact fun error he => h error (congrArg Except.error (Except.error.inj he))

theorem grants_ok (a : α) : Grants (.ok a) := fun _ => nofun

theorem grants_panicked (payload : Payload) : Grants (.error (.panicked payload) : Except Fault α) := fun _ => nofun

end Fault

open Fault

namespace Segment

theorem blockRange_grants (seg : Segment) (first last : Nat) : Grants (seg.blockRange first last) :=
  (product_grants _ _).bind fun _ => (sum_grants _ _).bind fun _ => (product_grants _ _).bind fun _ => grants_ok _

theorem load_grants (seg : Segment) (first last : Nat) : Grants (seg.load first last) :=
  (seg.blockRange_grants first last).bind fun _ => slice_grants _ _ _

theorem migrate_grants (seg : Segment) (first last : Nat) (home : WorkerId) :
    Grants (seg.migrate first last home) := by
  intro error
  unfold migrate noSuchBlock
  split <;> nofun

end Segment

namespace Space

variable {s s' t : Space} {reach : Nat} {ptr : Pointer} {len : Nat} {access : Access} {worker : WorkerId}
  {id : MappingId} {error : AccessError}

theorem acquire_grants (s : Space) (seg : Segment) (key : RegionKey) (refresh : Bool) :
    Grants (s.acquire seg key refresh).1 := by
  have hload := seg.load_grants key.first key.last
  intro error he
  unfold acquire at he
  split at he
  · split at he
    · rename_i hsum
      cases he
      exact sum_grants _ _ _ hsum
    · dsimp only at he
      split at he
      · split at he
        · split at he <;> cases he
        · rename_i hl
          cases he
          exact hload _ hl
        · cases he
      · cases he
  · dsimp only at he
    split at he
    · rename_i hmade
      cases he
      refine Grants.bind (seg.blockRange_grants _ _) (fun _ => ?_) _ hmade
      exact (sum_grants _ _).bind fun _ => hload.bind fun _ => grants_ok _
    · cases he

/-- A range is refused for its place only, and before anything changes. -/
theorem localize_refused (he : s.localize ptr len access worker = (.error (.refused error), s')) :
    s.place ptr len access = .error (.refused error) ∧ s' = s := by
  unfold localize at he
  split at he
  · rename_i hplace
    cases he
    exact ⟨hplace, rfl⟩
  · dsimp only at he
    split at he
    · rename_i howned
      cases he
      split at howned
      · exact absurd howned (Segment.migrate_grants _ _ _ _ _)
      · cases howned
    · split at he
      · rename_i hacq
        cases he
        exact absurd (congrArg Prod.fst hacq) (acquire_grants _ _ _ _ _)
      · cases he

/-! ## Places are those of home memory -/

variable {seg : Segment} {key : RegionKey} {ranges : List Range}

theorem Placed.runOf_of_sameHome (hp : s.Placed reach) (h : SameHome s s') (ptr : Pointer) (len : Nat) :
    s'.runOf ptr len = s.runOf ptr len :=
  Option.ext fun key => by
    rw [(hp.of_sameHome h).runOf_eq_some, hp.runOf_eq_some, touches_of_sameHome h]

theorem exists_of_isOk {α : Type} {answer : Except Fault α} (h : answer.isOk) : ∃ a, answer = .ok a := by
  cases answer with
  | ok a => exact ⟨a, rfl⟩
  | error fault => cases h

theorem Placed.isOk_place (hp : s.Placed reach) : (s.place ptr len access).isOk ↔
    access.isValid ∧ 0 < len ∧ ∃ key, s.Touches ptr len key := by
  constructor
  · intro hok
    obtain ⟨⟨seg, first, last⟩, hplace⟩ := exists_of_isOk hok
    obtain ⟨hv, hpos, _⟩ := hp.place_eq_ok.1 hplace
    exact ⟨hv, hpos, _, (hp.touches hplace).2⟩
  · rintro ⟨hv, hpos, key, seg, hm, off, ha, hlt, hle, rfl⟩
    rw [hp.place_eq_ok.2 ⟨hv, hpos, off, hm, ha, hle, rfl, rfl⟩]
    rfl

theorem isOk_place_of_localize (he : s.localize ptr len access worker = (.ok id, s')) :
    (s.place ptr len access).isOk := by
  rcases s.localize_cases ptr len access worker with ⟨_, he'⟩ | ⟨_, _, _, _, hplace, _⟩
  · cases he'.symm.trans he
  · rw [hplace]
    rfl

/-- The ranges before the first one that has no place. -/
def granted (s : Space) (access : Access) (ranges : List Range) : List Range :=
  ranges.takeWhile fun range => (s.place range.start range.len access).isOk

theorem Placed.granted_of_sameHome (hp : s.Placed reach) (h : SameHome s s') (access : Access)
    (ranges : List Range) : s'.granted access ranges = s.granted access ranges := by
  unfold granted
  congr 1
  refine funext fun range => Bool.eq_iff_iff.2 ?_
  simp only [(hp.of_sameHome h).isOk_place, hp.isOk_place, touches_of_sameHome h]

/-! ## Ranges that are all mapped -/

/-- Ranges are mapped one after the other, and given these handles. -/
inductive Maps (access : Access) (worker : WorkerId) : Space → List Range → List MappingId → Space → Prop
  | nil (s : Space) : Maps access worker s [] [] s
  | cons {s t s' : Space} {range : Range} {rest : List Range} {id : MappingId} {ids : List MappingId} :
    s.localize range.start range.len access worker = (.ok id, t) →
      Maps access worker t rest ids s' → Maps access worker s (range :: rest) (id :: ids) s'

variable {ids made : List MappingId}

/-- What is refused was mapped up to the range without a place, and is all released again. -/
theorem Placed.exists_maps (hp : s.Placed reach)
    (he : AddressSpace.localizeRest access worker made ranges s = (.error (.refused error), s')) :
    ∃ ids t, Maps access worker s (s.granted access ranges) ids t ∧
      s' = AddressSpace.unlocalizeAll t (made ++ ids) := by
  induction ranges generalizing s made with
  | nil => cases he
  | cons range rest ih =>
    have hclass : AddressSpace.localize s = s.localize := rfl
    have hhome := hp.localize_sameHome range.start range.len access worker
    simp only [AddressSpace.localizeRest, hclass] at he
    split at he <;> rename_i hl
    · rw [hl] at hhome
      obtain ⟨ids, u, hmaps, rfl⟩ := ih (hp.of_sameHome hhome) he
      have hgranted : s.granted access (range :: rest) = range :: s.granted access rest :=
        List.takeWhile_cons_of_pos (isOk_place_of_localize hl)
      rw [hgranted, ← hp.granted_of_sameHome hhome]
      exact ⟨_, u, .cons hl hmaps, by rw [List.append_assoc]; rfl⟩
    · obtain ⟨hplace, hsame⟩ := localize_refused hl
      cases he
      have hgranted : s.granted access (range :: rest) = [] :=
        List.takeWhile_cons_of_neg (by simp [hplace, Except.isOk, Except.toBool])
      rw [hgranted, hsame]
      exact ⟨[], s, .nil s, by rw [List.append_nil]⟩
    · cases he

/-! ## Homes -/

/-- One of the ranges touches the block of an address. -/
def Covered (s : Space) (ranges : List Range) (addr : Nat) : Prop :=
  ∃ range ∈ ranges, ∃ key, s.runOf range.start range.len = some key ∧ s.Spans key addr

theorem spans_of_sameHome (h : SameHome s s') (key : RegionKey) (addr : Nat) :
    s'.Spans key addr ↔ s.Spans key addr := by
  have hspans : ∀ t : Space, t.Spans key addr ↔ ∃ seg ∈ t.segments.map Segment.contents,
      seg.base = key.segment ∧ seg.Covers addr ∧ key.first ≤ seg.blockOf (addr - seg.base.addr) ∧
        seg.blockOf (addr - seg.base.addr) ≤ key.last := fun t => by
    simp only [List.mem_map, exists_exists_and_eq_and]
    exact Iff.rfl
  rw [hspans, hspans, h.contents]

theorem Placed.covered_of_sameHome (hp : s.Placed reach) (h : SameHome s s') (ranges : List Range) (addr : Nat) :
    s'.Covered ranges addr ↔ s.Covered ranges addr := by
  simp only [Covered, hp.runOf_of_sameHome h, spans_of_sameHome h]

theorem SameSegments.homeOf_eq (hs : SameSegments s s') (ptr : Pointer) : s'.homeOf ptr = s.homeOf ptr := by
  simp only [homeOf, locate_eq, hs.segmentAt_eq]

theorem Placed.segmentAt_error (hp : s.Placed reach) (h : SameHome s s') {fault : Fault}
    (he : s.segmentAt ptr = .error fault) : s'.segmentAt ptr = .error fault := by
  by_cases h0 : ptr.addr = 0
  · rw [segmentAt_null s h0] at he
    rw [segmentAt_null s' h0, he]
  · have hnone : ∀ seg ∈ s.segments, ¬ seg.Covers ptr.addr := fun seg hm hc => by
      cases he.symm.trans (hp.segmentAt_eq_ok.2 ⟨hm, hc⟩)
    have hnone' : ∀ seg ∈ s'.segments, ¬ seg.Covers ptr.addr := fun seg' hm' hc => by
      obtain ⟨seg, hm, hcontents⟩ := List.mem_map.1 (h.contents ▸ List.mem_map_of_mem hm')
      have houtline : seg.outline = seg'.outline := by
        rw [← Segment.outline_contents, hcontents, Segment.outline_contents]
      obtain ⟨hb, hsize, _⟩ := Segment.shape_of_outline houtline
      exact hnone seg hm (by rwa [Segment.Covers, hb, hsize])
    rw [hp.segmentAt_eq_error h0 hnone] at he
    rw [(hp.of_sameHome h).segmentAt_eq_error h0 hnone', he]

theorem homeOf_eq (h : s.segmentAt ptr = .ok seg) : s.homeOf ptr = (seg.offset ptr 0).bind seg.homeAt := by
  simp only [homeOf, locate_eq, h]
  cases seg.offset ptr 0 <;> rfl

theorem Placed.spans_iff (hp : s.Placed reach) (hat : s.segmentAt ptr = .ok seg) {off : Nat}
    (hoff : seg.offset ptr 0 = .ok off) : s.Spans key ptr.addr ↔
      seg.base = key.segment ∧ key.first ≤ seg.blockOf off ∧ seg.blockOf off ≤ key.last := by
  obtain ⟨hm, hc⟩ := hp.segmentAt_eq_ok.1 hat
  obtain ⟨haddr, _⟩ := Segment.offset_eq_ok.1 hoff
  have hsub : ptr.addr - seg.base.addr = off := by omega
  constructor
  · rintro ⟨other, hother, hbase, hcovers, hfirst, hlast⟩
    obtain rfl := hp.eq_of_covers hm hother hc hcovers
    rw [hsub] at hfirst hlast
    exact ⟨hbase, hfirst, hlast⟩
  · rintro ⟨hbase, hfirst, hlast⟩
    exact ⟨seg, hm, hbase, hc, by rwa [hsub], by rwa [hsub]⟩

theorem covered_singleton {range : Range} {addr : Nat} (h : s.runOf range.start range.len = some key) :
    s.Covered [range] addr ↔ s.Spans key addr := by
  simp [Covered, h]

/-- The blocks of a range with a place move before anything else can fail. -/
theorem Placed.localize_moves (hp : s.Placed reach) {first last : Nat}
    (hplace : s.place ptr len access = .ok ⟨seg, first, last⟩) (worker : WorkerId) :
    ∃ moved, (if access.takesOwnership then seg.migrate first last (worker % s.numHomes)
        else .ok seg) = .ok moved ∧
      SameSegments (s.storeSegment moved) (s.localize ptr len access worker).2 := by
  obtain ⟨moved, howned, he⟩ := hp.localize_eq hplace worker
  have hacq := (s.storeSegment moved).acquire_sameSegments moved ⟨moved.base, first, last⟩ access.refreshes
  refine ⟨moved, howned, ?_⟩
  rw [he]
  split <;> rename_i heq <;> rw [heq] at hacq
  · exact hacq
  · exact ⟨hacq.numHomes, hacq.segments⟩

/-- A range with a place gives the blocks that it touches their new home if it takes ownership, and no
others, whether it is mapped in the end or not. -/
theorem Placed.homeOf_of_place (hp : s.Placed reach) (hok : (s.place ptr len access).isOk)
    (worker : WorkerId) (p : Pointer) :
    (access.takesOwnership ∧ s.Covered [⟨ptr, len⟩] p.addr →
        (s.localize ptr len access worker).2.homeOf p = .ok (worker % s.numHomes)) ∧
      (¬ (access.takesOwnership ∧ s.Covered [⟨ptr, len⟩] p.addr) →
        (s.localize ptr len access worker).2.homeOf p = s.homeOf p) := by
  obtain ⟨⟨seg, first, last⟩, hplace⟩ := exists_of_isOk hok
  obtain ⟨moved, howned, hs⟩ := hp.localize_moves hplace worker
  obtain ⟨hm, ht⟩ := hp.touches hplace
  obtain ⟨hcontents, hmoved, hhomes⟩ : moved.contents = seg.contents ∧
      moved = { seg with homes := moved.homes } ∧ ∀ block, moved.homes[block]? =
        if access.takesOwnership ∧ first ≤ block ∧ block ≤ last then some (worker % s.numHomes)
        else seg.homes[block]? := by
    split at howned
    · rename_i hown
      simpa only [hown, true_and] using
        And.intro (Segment.contents_migrate howned).1 (Segment.migrate_homes howned)
    · rename_i hown
      cases howned
      exact ⟨rfl, rfl, fun block => by rw [if_neg fun h => hown h.1]⟩
  have hhome : SameHome s (s.storeSegment moved) :=
    ⟨rfl, hp.map_storeSegment _ hm (by rw [hmoved]) hcontents⟩
  rw [covered_singleton (hp.runOf_eq ht), hs.homeOf_eq]
  cases hat : s.segmentAt p with
  | error fault =>
    have hnot : ¬ s.Spans ⟨seg.base, first, last⟩ p.addr := by
      rintro ⟨old, hold, _, hc, _⟩
      cases hat.symm.trans (hp.segmentAt_eq_ok.2 ⟨hold, hc⟩)
    refine ⟨fun h => absurd h.2 hnot, fun _ => ?_⟩
    simp only [homeOf, locate_eq, hat, hp.segmentAt_error hhome hat]
  | ok old =>
    obtain ⟨hold, hc⟩ := hp.segmentAt_eq_ok.1 hat
    obtain ⟨off, haddr⟩ := Nat.exists_eq_add_of_le hc.1
    have hbelow := hp.below old hold
    have hreach := hp.reach_le
    have hin := hc.2
    have hoff : old.offset p 0 = .ok off := Segment.offset_eq_ok.2 ⟨haddr, by omega, by omega⟩
    rw [hp.spans_iff hat hoff, homeOf_eq hat, hoff]
    by_cases hb : old.base = seg.base
    · obtain rfl := hp.eq_of_base hold hm hb
      have hblock : moved.blockOf = old.blockOf := by
        rw [hmoved]
        rfl
      have hoff' : moved.offset p 0 = .ok off := by
        rw [hmoved]
        exact hoff
      obtain ⟨home, hold⟩ : ∃ home, old.homes[old.blockOf off]? = some home :=
        ⟨_, List.getElem?_eq_getElem ((hp.wellFormed old hm).blockOf_lt (by omega))⟩
      rw [homeOf_eq (segmentAt_storeSegment hat (by rw [hmoved]) (by rw [hmoved]))]
      simp only [hoff', Except.bind, Segment.homeAt, hblock, hhomes, hold, true_and]
      exact ⟨fun h => by rw [if_pos h], fun h => by rw [if_neg h]⟩
    · rw [homeOf_eq (segmentAt_storeSegment_ne hat (by rwa [hmoved])), hoff]
      exact ⟨fun h => absurd h.2.1 hb, fun _ => rfl⟩

/-- Mapping a range with ownership gives the blocks that it touches their new home, and no others. -/
theorem Placed.homeOf_localize (hp : s.Placed reach) (he : s.localize ptr len access worker = (.ok id, s'))
    (p : Pointer) :
    (access.takesOwnership ∧ s.Covered [⟨ptr, len⟩] p.addr → s'.homeOf p = .ok (worker % s.numHomes)) ∧
      (¬ (access.takesOwnership ∧ s.Covered [⟨ptr, len⟩] p.addr) → s'.homeOf p = s.homeOf p) := by
  have hhome := hp.homeOf_of_place (isOk_place_of_localize he) worker p
  rwa [he] at hhome

theorem covered_cons {range : Range} {rest : List Range} {addr : Nat} :
    s.Covered (range :: rest) addr ↔ s.Covered [range] addr ∨ s.Covered rest addr := by
  simp only [Covered, List.mem_cons, List.not_mem_nil, or_false, exists_eq_or_imp, exists_eq_left]

/-- Mapping ranges with ownership gives the blocks that they touch their new home, and no others. -/
theorem Maps.homeOf (h : Maps access worker s ranges ids s') (hp : s.Placed reach) (p : Pointer) :
    (access.takesOwnership ∧ s.Covered ranges p.addr → s'.homeOf p = .ok (worker % s.numHomes)) ∧
      (¬ (access.takesOwnership ∧ s.Covered ranges p.addr) → s'.homeOf p = s.homeOf p) := by
  induction h with
  | nil s => exact ⟨fun ⟨_, _, hm, _⟩ => (nomatch hm), fun _ => rfl⟩
  | @cons s t s' range rest id ids hl hmaps ih =>
    have hhome := hp.localize_sameHome range.start range.len access worker
    have hnum := s.localize_numHomes range.start range.len access worker
    rw [hl] at hhome hnum
    obtain ⟨hmine, hkept⟩ := hp.homeOf_localize hl p
    obtain ⟨hlater, hrest⟩ := ih (hp.of_sameHome hhome)
    rw [hp.covered_of_sameHome hhome, hnum] at hlater
    rw [hp.covered_of_sameHome hhome] at hrest
    rw [covered_cons]
    by_cases hlast : access.takesOwnership ∧ s.Covered rest p.addr
    · exact ⟨fun _ => hlater hlast, fun hnot => absurd ⟨hlast.1, .inr hlast.2⟩ hnot⟩
    · rw [hrest hlast]
      refine ⟨fun ⟨hown, hcovered⟩ => hmine ⟨hown, hcovered.resolve_right fun hc => hlast ⟨hown, hc⟩⟩, ?_⟩
      exact fun hnot => hkept fun h => hnot ⟨h.1, .inl h.2⟩

/-! ## Bytes -/

variable {mapping : Mapping} {stores : List Store} {new : MappingId}

/-- One of the ranges is of exactly the blocks of a mapping. -/
def Reloaded (s : Space) (ranges : List Range) (id : MappingId) : Prop :=
  ∃ range ∈ ranges, s.runOf range.start range.len = s.rangeOf id

theorem reloaded_cons {range : Range} {rest : List Range} : s.Reloaded (range :: rest) id ↔
    s.runOf range.start range.len = s.rangeOf id ∨ s.Reloaded rest id := by
  simp only [Reloaded, List.mem_cons, exists_eq_or_imp]

theorem mappings_localize (he : s.localize ptr len access worker = (.ok new, s')) :
    new = s.mappings.length ∧ ∃ region, s'.mappings = s.mappings ++ [⟨ptr, len, access, region, true⟩] := by
  rcases s.localize_cases ptr len access worker with ⟨_, he'⟩ | ⟨seg, first, last, moved, _, _, _, he'⟩
  · cases he'.symm.trans he
  · have hstill := acquire_still (s.storeSegment moved) moved ⟨moved.base, first, last⟩ access.refreshes
    rcases he' with ⟨_, _, _, he'⟩ | ⟨region, t, hacq, he'⟩
    · cases he'.symm.trans he
    · rw [hacq] at hstill
      have hm : t.mappings = s.mappings := hstill.mappings
      cases he'.symm.trans he
      exact ⟨by rw [hm], region, by rw [hm]⟩

/-- What home memory holds is not changed by what keeps it. -/
theorem Placed.get_of_sameHome (hp : s.Placed reach) (h : SameHome s s') {bytes : Bytes}
    (hg : s'.get ptr len = .ok bytes) : s.get ptr len = .ok bytes := by
  have hp' := hp.of_sameHome h
  cases hl : s'.locate ptr len with
  | error fault => rw [get_of_error hl] at hg; cases hg
  | ok found =>
    obtain ⟨seg', off⟩ := found
    obtain ⟨hm', ha, hlt, hle⟩ := hp'.locate_eq_ok.1 hl
    obtain ⟨seg, hm, hcontents⟩ := List.mem_map.1 (h.contents ▸ List.mem_map_of_mem hm')
    simp only [Segment.contents, Segment.mk.injEq] at hcontents
    obtain ⟨hbase, hsize, _, _, hbytes⟩ := hcontents
    have hl' : s.locate ptr len = .ok (seg, off) :=
      hp.locate_eq_ok.2 ⟨hm, by rw [hbase, ha], by rwa [hsize], by rwa [hsize]⟩
    rw [hp.get_eq hl', ← hg, hp'.get_eq hl, hbytes]

theorem latest_append_ne {stores later : List Store} {key : RegionKey}
    (h : ∀ store ∈ later, store.key ≠ key) (addr : Nat) :
    latest (stores ++ later) key addr = latest stores key addr := by
  induction later generalizing stores with
  | nil => rw [List.append_nil]
  | cons store later ih =>
    obtain ⟨hne, hlater⟩ := List.forall_mem_cons.1 h
    rw [List.append_cons, ih hlater, latest_snoc_ne hne]

/-- Blocks are copied again under a live mapping of them only if they are refreshed. -/
theorem copies_ne (hm : s.mappings[id]? = some mapping) (hl : mapping.live = true)
    (hk : s.rangeOf id = some key) (hnot : ¬ (access.refreshes ∧ s.runOf ptr len = s.rangeOf id)) :
    ∀ store ∈ s.copies ptr len access, store.key ≠ key := by
  intro store hstore he
  unfold copies at hstore
  split at hstore
  · rename_i mine hrun
    split at hstore
    · rename_i hcopied
      obtain rfl := List.mem_singleton.1 hstore
      obtain rfl : mine = key := he
      have hout : s.Outstanding mine :=
        ⟨mapping, List.mem_of_getElem? hm, hl, (rangeOf_eq_runOf hm).symm.trans hk⟩
      exact hnot ⟨hcopied.resolve_right fun hc => hc hout, hrun.trans hk.symm⟩
    · cases hstore
  · cases hstore

/-- A live mapping reads home memory once its blocks are refreshed, and what it read before if some
other range is mapped. -/
theorem Current.read_localize (h : s.Current ids stores) (hp : s.Placed reach)
    (he : s.localize ptr len access worker = (.ok new, s')) (hm : s.mappings[id]? = some mapping)
    (hl : mapping.live = true) :
    (access.refreshes ∧ s.runOf ptr len = s.rangeOf id →
      ∃ bytes, s.get mapping.start mapping.len = .ok bytes ∧ s'.read id = .ok bytes) ∧
    (¬ (access.refreshes ∧ s.runOf ptr len = s.rangeOf id) → s'.read id = s.read id) := by
  have hhome := hp.localize_sameHome ptr len access worker
  rw [he] at hhome
  have hp' : s'.Placed reach := hp.of_sameHome hhome
  obtain ⟨-, added, hmappings⟩ := mappings_localize he
  have hm' : s'.mappings[id]? = some mapping := by
    rw [hmappings, List.getElem?_append_left (List.getElem?_eq_some_iff.1 hm).1, hm]
  obtain ⟨key, bytes, hk, hread, hlen, hbytes⟩ := h.read hp hm hl
  have hk' : s'.rangeOf id = some key := by
    rw [rangeOf_eq_runOf hm', hp.runOf_of_sameHome hhome, ← rangeOf_eq_runOf hm, hk]
  rcases h.localize hp ptr len access worker with ⟨_, _, he', _⟩ | ⟨_, _, _, he', hcurrent, _⟩ <;>
    rw [he] at he' <;> cases he'
  constructor
  · rintro ⟨hrefresh, hrun⟩
    have hcopies : s.copies ptr len access = [s.copyOf key] := by
      simp only [copies, hrun.trans hk]
      exact if_pos (.inl hrefresh)
    rw [hcopies] at hcurrent
    obtain ⟨bytes, hread', hget⟩ := hcurrent.reads_copy hp' hhome hm' hl hk'
    exact ⟨bytes, hp.get_of_sameHome hhome hget, hread'⟩
  · intro hnot
    obtain ⟨key', bytes', hrange, hread', hlen', hbytes'⟩ := hcurrent.read hp' hm' hl
    obtain rfl : key = key' := Option.some.inj (hk'.symm.trans hrange)
    rw [hread, hread']
    refine congrArg _ (List.ext_getElem? fun i => ?_)
    by_cases hi : i < mapping.len
    · rw [hbytes i hi, hbytes' i hi, latest_append_ne (copies_ne hm hl hk hnot)]
    · rw [List.getElem?_eq_none (by omega), List.getElem?_eq_none (by omega)]

theorem read_dead (hm : s.mappings[id]? = some mapping) (hl : mapping.live = false) :
    s.read id = .error (.refused (.unlocalized mapping.start)) := by
  simp [Space.read, hm, hl]

theorem Maps.mappings (h : Maps access worker s ranges ids s') :
    (∃ added, s'.mappings = s.mappings ++ added) ∧ ∀ new ∈ ids, s.mappings.length ≤ new := by
  induction h with
  | nil s => exact ⟨⟨[], (List.append_nil _).symm⟩, fun _ hm => (nomatch hm)⟩
  | cons hl hmaps ih =>
    obtain ⟨rfl, first, hfirst⟩ := mappings_localize hl
    obtain ⟨⟨added, hadded⟩, hnew⟩ := ih
    refine ⟨⟨_ :: added, by rw [hadded, hfirst, List.append_assoc]; rfl⟩, List.forall_mem_cons.2 ⟨Nat.le_refl _, ?_⟩⟩
    exact fun new hm => Nat.le_trans (by simp [hfirst]) (hnew new hm)

theorem Maps.read (h : Maps access worker s ranges made s') (hp : s.Placed reach) (hc : s.Current ids stores)
    (hm : s.mappings[id]? = some mapping) (hl : mapping.live = true) :
    (access.refreshes ∧ s.Reloaded ranges id →
      ∃ bytes, s.get mapping.start mapping.len = .ok bytes ∧ s'.read id = .ok bytes) ∧
    (¬ (access.refreshes ∧ s.Reloaded ranges id) → s'.read id = s.read id) := by
  induction h generalizing ids stores with
  | nil s => exact ⟨fun ⟨_, _, hmem, _⟩ => (nomatch hmem), fun _ => rfl⟩
  | @cons s t s' range rest new made hlocal hmaps ih =>
    have hhome := hp.localize_sameHome range.start range.len access worker
    rw [hlocal] at hhome
    obtain ⟨-, added, hmappings⟩ := mappings_localize hlocal
    have hm' : t.mappings[id]? = some mapping := by
      rw [hmappings, List.getElem?_append_left (List.getElem?_eq_some_iff.1 hm).1, hm]
    have hrange : t.rangeOf id = s.rangeOf id := by
      rw [rangeOf_eq_runOf hm', hp.runOf_of_sameHome hhome, ← rangeOf_eq_runOf hm]
    have hreloaded : t.Reloaded rest id ↔ s.Reloaded rest id := by
      simp only [Reloaded, hp.runOf_of_sameHome hhome, hrange]
    obtain ⟨hmine, hkept⟩ := hc.read_localize hp hlocal hm hl
    rcases hc.localize hp range.start range.len access worker with ⟨_, _, he', _⟩ |
      ⟨_, _, _, he', hcurrent, _⟩ <;> rw [hlocal] at he' <;> cases he'
    obtain ⟨hlater, hrest⟩ := ih (hp.of_sameHome hhome) hcurrent hm'
    rw [hreloaded] at hlater hrest
    rw [reloaded_cons]
    by_cases hlast : access.refreshes ∧ s.Reloaded rest id
    · refine ⟨fun _ => ?_, fun hnot => absurd ⟨hlast.1, .inr hlast.2⟩ hnot⟩
      obtain ⟨bytes, hget, hread⟩ := hlater hlast
      exact ⟨bytes, hp.get_of_sameHome hhome hget, hread⟩
    · rw [hrest hlast]
      refine ⟨fun ⟨hr, hreload⟩ => hmine ⟨hr, hreload.resolve_right fun hc => hlast ⟨hr, hc⟩⟩, ?_⟩
      exact fun hnot => hkept fun h => hnot ⟨h.1, .inl h.2⟩

theorem read_unlocalize {other : MappingId} (hne : other ≠ id) : (s.unlocalize other).read id = s.read id := by
  simp only [Space.read, mappings_unlocalize, List.getElem?_modify_ne _ _ hne, (s.unlocalize_sheds other).regions]

theorem read_unlocalizeAll (hnot : id ∉ ids) : Space.read (AddressSpace.unlocalizeAll s ids) id = s.read id := by
  induction ids generalizing s with
  | nil => rfl
  | cons other rest ih =>
    rw [List.mem_cons, not_or] at hnot
    exact (ih hnot.2).trans (read_unlocalize fun he => hnot.1 he.symm)

/-! ## What a refusal leaves -/

/-- What is left of ranges that were mapped for a worker and released again: the homes that they moved, and
the regions that they loaded again. -/
structure Leaves (access : Access) (worker : WorkerId) (ranges : List Range) (s s' : Space) : Prop where
  home : ∀ p, ¬ (access.takesOwnership ∧ s.Covered ranges p.addr) → s'.homeOf p = s.homeOf p
  moved : ∀ p, access.takesOwnership ∧ s.Covered ranges p.addr → s'.homeOf p = .ok (worker % s.numHomes)
  bytes : ∀ id mapping, s.mappings[id]? = some mapping →
    ¬ (mapping.live ∧ access.refreshes ∧ s.Reloaded ranges id) → s'.read id = s.read id
  reloaded : ∀ id mapping, s.mappings[id]? = some mapping →
    mapping.live ∧ access.refreshes ∧ s.Reloaded ranges id →
      ∃ bytes, s.get mapping.start mapping.len = .ok bytes ∧ s'.read id = .ok bytes

/-- Ranges that are refused leave what those before the first one without a place leave. -/
theorem Current.refused (h : s.Current ids stores) (hp : s.Placed reach)
    (he : AddressSpace.localizeAll s ranges access worker = (.error (.refused error), s')) :
    Leaves access worker (s.granted access ranges) s s' := by
  obtain ⟨made, t, hmaps, rfl⟩ := hp.exists_maps he
  rw [List.nil_append]
  obtain ⟨⟨added, hadded⟩, hnew⟩ := hmaps.mappings
  have hsegments := unlocalizeAll_sameSegments t made
  have hread : ∀ {id mapping}, s.mappings[id]? = some mapping →
      Space.read (AddressSpace.unlocalizeAll t made) id = t.read id := fun hm =>
    read_unlocalizeAll fun hmem => Nat.not_le_of_lt (List.getElem?_eq_some_iff.1 hm).1 (hnew _ hmem)
  refine ⟨fun p hnot => ?_, fun p hmoved => ?_, fun id mapping hm hnot => ?_, fun id mapping hm hload => ?_⟩
  · exact (hsegments.homeOf_eq p).trans ((hmaps.homeOf hp p).2 hnot)
  · exact (hsegments.homeOf_eq p).trans ((hmaps.homeOf hp p).1 hmoved)
  · rw [hread hm]
    cases hl : mapping.live with
    | true => exact (hmaps.read hp h hm hl).2 fun hc => hnot ⟨hl, hc⟩
    | false =>
      have hm' : t.mappings[id]? = some mapping := by
        rw [hadded, List.getElem?_append_left (List.getElem?_eq_some_iff.1 hm).1, hm]
      rw [read_dead hm hl, read_dead hm' hl]
  · rw [hread hm]
    exact (hmaps.read hp h hm hload.1).1 hload.2

end Space

namespace Client

/-- **What a refused call to map ranges leaves behind.** As long as the address counter has not wrapped,
the ranges before the first one without a place keep the homes that they moved if they take
ownership, and the regions that they loaded again if they refresh; every other address has the home
it had, and every other mapping reads the bytes it read. -/
theorem refused_leaves (numHomes : Nat) (ops : List SpaceOp) (hr : SpaceOp.addresses ops ≤ Word.bound)
    {ranges : List Range} {access : Access} {worker : WorkerId} {error : AccessError} {c' : Client}
    (he : ((start numHomes).run ops).perform (.localizeAll ranges access worker) = (.error (.refused error), c')) :
    Space.Leaves access worker (((start numHomes).run ops).space.granted access ranges)
      ((start numHomes).run ops).space c'.space := by
  have hp := run_placed numHomes ops hr
  obtain ⟨ids, h⟩ := run_current numHomes ops hr
  simp only [perform] at he
  split at he <;> rename_i hall
  · cases he
  · cases he
    exact h.refused hp hall

/-- A block that moves, and a byte written that is lost, because of a range with no place after them. -/
theorem refused_leaves_second_null :
    let ops : List SpaceOp := [.alloc 16 8, .localize ⟨4096⟩ 8 .exclusive 0, .write 0 0 [7]]
    let c := (start 2).run ops
    let answered := c.perform (.localizeAll [⟨⟨4096⟩, 8⟩, ⟨⟨0⟩, 8⟩] ⟨12⟩ 1)
    SpaceOp.addresses ops ≤ Word.bound ∧ answered.1 = .error (.refused .nullPointer) ∧
      Space.Leaves ⟨12⟩ 1 (c.space.granted ⟨12⟩ [⟨⟨4096⟩, 8⟩, ⟨⟨0⟩, 8⟩]) c.space answered.2.space :=
  ⟨by decide, by rfl, refused_leaves 2 _ (by decide) (by rfl)⟩

/-- A refused call is seen: in the home of a block, and in the bytes of another mapping. -/
theorem refused_seen :
    let ops : List SpaceOp := [.alloc 16 8, .localize ⟨4096⟩ 8 .exclusive 0, .write 0 0 [7]]
    let c := (start 2).run ops
    let answered := c.perform (.localizeAll [⟨⟨4096⟩, 8⟩, ⟨⟨0⟩, 8⟩] ⟨12⟩ 1)
    SpaceOp.addresses ops ≤ Word.bound ∧ answered.1 = .error (.refused .nullPointer) ∧
      (¬ ∀ p, answered.2.space.homeOf p = c.space.homeOf p) ∧
      ¬ ∀ id mapping, c.space.mappings[id]? = some mapping → mapping.live →
        answered.2.space.read id = c.space.read id := by
  refine ⟨by decide, by rfl, fun hsame => ?_, fun hsame => ?_⟩
  · have hhome := hsame ⟨4096⟩
    revert hhome
    decide
  · have hbytes := hsame 0 ⟨⟨4096⟩, 8, .exclusive, 0, true⟩ (by rfl) rfl
    revert hbytes
    decide

end Client

end TaskSpace

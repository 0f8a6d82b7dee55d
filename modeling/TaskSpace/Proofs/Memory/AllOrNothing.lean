import Mathlib.Data.List.Induction
import TaskSpace.Proofs.Machine.Tally
import TaskSpace.Proofs.Memory.Checks

/-!
# All ranges or none

Ranges are mapped together as they would be one after the other, if each of them alone would be. If not,
the call is refused as the first range that would not be is refused alone, and the mapping table is what
it was: releasing takes back exactly the users that the ranges before had added, and the entries that
these had made. There is one way out: a run of blocks may have as many users as a word can count.
-/

namespace TaskSpace

namespace Space

variable {s s' t : Space} {handles ids : List MappingId} {reach : Nat} {access : Access}
  {worker : WorkerId} {ranges rest : List Range} {key : RegionKey} {id : MappingId}

/-! ## Ranges that are all mapped -/

theorem Maps.localizeRest (h : Maps access worker s ranges ids t) (made : List MappingId)
    (rest : List Range) : AddressSpace.localizeRest access worker made (ranges ++ rest) s =
      AddressSpace.localizeRest access worker (made ++ ids) rest t := by
  induction h generalizing made with
  | nil s => rw [List.nil_append, List.append_nil]
  | @cons s t s' range later id ids hl _ ih =>
    have hclass : AddressSpace.localize s = s.localize := rfl
    simp only [List.cons_append, AddressSpace.localizeRest, hclass, hl, ih, List.append_assoc,
      List.nil_append]

theorem Maps.length (h : Maps access worker s ranges ids t) : ids.length = ranges.length := by
  induction h with
  | nil s => rfl
  | cons _ _ ih => rw [List.length_cons, List.length_cons, ih]

theorem Maps.sameHome (h : Maps access worker s ranges ids t) (hp : s.Placed reach) : SameHome s t := by
  induction h with
  | nil s => exact .refl s
  | @cons s t s' range later id ids hl _ ih =>
    have hhome := hp.localize_sameHome range.start range.len access worker
    rw [hl] at hhome
    exact hhome.trans (ih (hp.of_sameHome hhome))

theorem Maps.shared (h : Maps access worker s ranges ids t) (hs : s.Shared handles) (hp : s.Placed reach) :
    t.Shared (handles ++ ids) := by
  induction h generalizing handles with
  | nil s => rwa [List.append_nil]
  | @cons s t s' range later id ids hl _ ih =>
    have hhome := hp.localize_sameHome range.start range.len access worker
    rcases hs.localize hp range.start range.len access worker with ⟨_, _, he, _⟩ | ⟨_, _, he, hs'⟩ <;>
      rw [hl] at he <;> cases he
    rw [hl] at hhome
    rw [List.append_cons]
    exact ih hs' (hp.of_sameHome hhome)

theorem Maps.live (h : Maps access worker s ranges ids t) {n : Nat} (hl : s.live = Word.wrap n) :
    t.live = Word.wrap (n + ids.length) := by
  induction h generalizing n with
  | nil s => exact hl
  | @cons s t s' range later id ids hl' _ ih =>
    rcases s.localize_counts range.start range.len access worker with ⟨_, _, he, _⟩ |
      ⟨_, _, he, _, _, hlive⟩ <;> rw [hl'] at he <;> cases he
    rw [hl, Word.wrap_succ] at hlive
    rw [ih hlive, List.length_cons, Nat.add_assoc, Nat.add_comm 1]

/-- The mappings that are made are new, and the handles are theirs. -/
theorem Maps.made (h : Maps access worker s ranges ids t) :
    ids = List.range' s.mappings.length ranges.length ∧ ∃ added,
      t.mappings = s.mappings ++ added ∧ added.length = ranges.length := by
  induction h with
  | nil s => exact ⟨rfl, [], (List.append_nil _).symm, rfl⟩
  | @cons s t s' range later id ids hl _ ih =>
    obtain ⟨rfl, region, hone⟩ := mappings_localize hl
    obtain ⟨rfl, added, hadded, hcount⟩ := ih
    have hlength : t.mappings.length = s.mappings.length + 1 := by rw [hone, List.length_append]; rfl
    refine ⟨by rw [hlength]; rfl, ⟨range.start, range.len, access, region, true⟩ :: added, ?_,
      congrArg (· + 1) hcount⟩
    rw [hadded, hone, List.append_assoc]
    rfl

/-- A handle names a live mapping of a range. -/
def Names (s : Space) (access : Access) (range : Range) (id : MappingId) : Prop :=
  ∃ region, s.mappings[id]? = some ⟨range.start, range.len, access, region, true⟩

theorem Maps.names (h : Maps access worker s ranges ids t) : List.Forall₂ (t.Names access) ranges ids := by
  induction h with
  | nil s => exact .nil
  | @cons s t s' range later id ids hl hmaps ih =>
    obtain ⟨rfl, region, hone⟩ := mappings_localize hl
    obtain ⟨-, added, hadded, -⟩ := hmaps.made
    refine .cons ⟨region, ?_⟩ ih
    rw [hadded, hone, List.append_assoc, List.getElem?_append_right (Nat.le_refl _), Nat.sub_self]
    rfl

/-! ## Ranges that are released again -/

/-- What is left of ranges that were mapped and released again, in the mapping table: handles that are
dead. -/
structure Restored (s s' : Space) (count : Nat) : Prop where
  home : SameHome s s'
  cache : s'.cache.Perm s.cache
  live : s'.liveMappings = s.liveMappings
  length : s'.mappings.length = s.mappings.length + count
  kept : ∀ id < s.mappings.length, s'.mappings[id]? = s.mappings[id]?
  dead : ∀ id, s.mappings.length ≤ id → id < s'.mappings.length → s'.Dead id

theorem Placed.rangeOf_of_sameHome (hp : s.Placed reach) (h : SameHome s t)
    (hm : t.mappings[id]? = s.mappings[id]?) : t.rangeOf id = s.rangeOf id := by
  cases hs : s.mappings[id]? with
  | none => simp only [rangeOf, hm, hs, Option.bind_none]
  | some mapping => rw [rangeOf_eq_runOf hs, rangeOf_eq_runOf (hm.trans hs), hp.runOf_of_sameHome h]

theorem Shared.region_eq (h : s.Shared handles) (hp : s.Placed reach) {entry : CacheEntry}
    (he : entry ∈ s.cache) (hid : id ∈ handles) (hrange : s.rangeOf id = some entry.key) :
    s.mappings[id]?.map Mapping.region = some entry.region := by
  obtain ⟨mapping, region, found, hmap, -, -, hfound, hk, hreg, hrange'⟩ := h.shares hp hid
  have hkey : found.key = entry.key := hk.trans (Option.some.inj (hrange'.symm.trans hrange))
  rw [hmap, Option.map_some, ← hreg, h.eq_of_key hfound he hkey]

/-- The users of a run of blocks are those handles of which it is the range, so the entries of two tables
are the same if the handles and their ranges are. -/
theorem Shared.mem_cache_of_same (h : s.Shared handles) (h' : t.Shared handles) (hp : s.Placed reach)
    (hhome : SameHome s t) (hm : ∀ id ∈ handles, t.mappings[id]? = s.mappings[id]?) {entry : CacheEntry}
    (he : entry ∈ s.cache) : entry ∈ t.cache := by
  have hp' := hp.of_sameHome hhome
  obtain ⟨id, hid, hrange⟩ := (h.mem_keys hp).1 (List.mem_map_of_mem he)
  have hrange' := (hp.rangeOf_of_sameHome hhome (hm id hid)).trans hrange
  obtain ⟨entry', he', hkey⟩ := List.mem_map.1 ((h'.mem_keys hp').2 ⟨id, hid, hrange'⟩)
  have hrefs : entry'.refs = entry.refs := by
    rw [h.refs_eq hp he, h'.refs_eq hp' he', hkey]
    exact List.countP_congr fun id hid => by rw [hp.rangeOf_of_sameHome hhome (hm id hid)]
  -- both tables keep the region that the mapping of `id` points at
  have hregion : entry'.region = entry.region := by
    have hpoints := h'.region_eq hp' he' hid (hkey ▸ hrange')
    rw [hm id hid, h.region_eq hp he hid hrange] at hpoints
    exact (Option.some.inj hpoints).symm
  obtain ⟨k, r, n⟩ := entry
  obtain ⟨k', r', n'⟩ := entry'
  cases hkey
  cases hrefs
  cases hregion
  exact he'

theorem SameHome.symm (h : SameHome s t) : SameHome t s := ⟨h.nextAddr.symm, h.contents.symm⟩

theorem Shared.cache_perm (h : s.Shared handles) (h' : t.Shared handles) (hp : s.Placed reach)
    (hhome : SameHome s t) (hm : ∀ id ∈ handles, t.mappings[id]? = s.mappings[id]?) :
    t.cache.Perm s.cache := by
  refine (List.perm_ext_iff_of_nodup h'.keys.of_map h.keys.of_map).2 fun entry => ⟨fun he => ?_, fun he => ?_⟩
  · exact h'.mem_cache_of_same h (hp.of_sameHome hhome) hhome.symm (fun id hid => (hm id hid).symm) he
  · exact h.mem_cache_of_same h' hp hhome hm he

theorem Maps.restored (h : Maps access worker s ranges ids t) (hs : s.Shared handles) (hp : s.Placed reach)
    (hlive : s.live < Word.bound) : Restored s (AddressSpace.unlocalizeAll t ids) ranges.length := by
  obtain ⟨hids, added, hadded, hcount⟩ := h.made
  have hlength : t.mappings.length = s.mappings.length + ranges.length := by
    rw [hadded, List.length_append, hcount]
  have hmem : ∀ id, id ∈ ids ↔ s.mappings.length ≤ id ∧ id < t.mappings.length := fun id => by
    rw [hids, List.mem_range'_1, hlength]
  have hkept : ∀ id < s.mappings.length,
      (AddressSpace.unlocalizeAll t ids).mappings[id]? = s.mappings[id]? := fun id hlt => by
    have hnot : id ∉ ids := fun hid => Nat.not_le_of_lt hlt ((hmem id).1 hid).1
    rw [mappings_unlocalizeAll, List.getElem?_mapIdx, hadded, List.getElem?_append_left hlt]
    simp [hnot]
  have hafter : (AddressSpace.unlocalizeAll t ids).mappings.length = t.mappings.length := by
    rw [mappings_unlocalizeAll, List.length_mapIdx]
  have hhome : SameHome s (AddressSpace.unlocalizeAll t ids) :=
    (h.sameHome hp).trans (unlocalizeAll_sameHome t ids)
  obtain ⟨-, hdead, hlive'⟩ := unlocalizeAll_counts (fun id hid => ((hmem id).1 hid).2)
    (h.live (Word.wrap_of_lt hlive).symm)
  exact {
    home := hhome
    cache := hs.cache_perm (h.shared hs hp).unlocalizeAll hp hhome fun id hid => hkept id (hs.handle_lt hid)
    live := hlive'.trans (Word.wrap_of_lt hlive)
    length := hafter.trans hlength
    kept := hkept
    dead := fun id hle hlt => hdead id ((hmem id).2 ⟨hle, hafter ▸ hlt⟩) }

/-! ## Blocks with too many users -/

/-- A run of blocks that has as many users as a word can count has no fewer later. -/
theorem Shared.crowded_later (h : s.Shared handles) (hp : s.Placed reach)
    (hmaps : Maps access worker s ranges ids t) (hfull : s.Crowded key) : t.Crowded key := by
  obtain ⟨entry, he, rfl, hfull⟩ := hfull
  have h' := hmaps.shared h hp
  have hhome := hmaps.sameHome hp
  obtain ⟨-, added, hadded, -⟩ := hmaps.made
  have hrange : ∀ id ∈ handles, t.rangeOf id = s.rangeOf id := fun id hid =>
    hp.rangeOf_of_sameHome hhome (by rw [hadded, List.getElem?_append_left (h.handle_lt hid)])
  obtain ⟨id, hid, hkey⟩ := (h.mem_keys hp).1 (List.mem_map_of_mem he)
  obtain ⟨entry', he', hkey'⟩ := List.mem_map.1 ((h'.mem_keys (hp.of_sameHome hhome)).2
    ⟨id, List.mem_append_left _ hid, (hrange id hid).trans hkey⟩)
  refine ⟨entry', he', hkey', ?_⟩
  have hmore : entry.refs ≤ entry'.refs := by
    rw [h.refs_eq hp he, h'.refs_eq (hp.of_sameHome hhome) he', hkey', List.countP_append]
    refine Nat.le_trans (Nat.le_of_eq (List.countP_congr fun id hid => ?_)) (Nat.le_add_right _ _)
    rw [hrange id hid]
  omega

/-- One of the ranges is of blocks that have as many users as a word can count once those before it are
mapped. -/
def Overflows (access : Access) (worker : WorkerId) (ranges : List Range) (s : Space) : Prop :=
  (AddressSpace.localizeAll s ranges access worker).1 = .error (.panicked .addOverflow) ∧
    ∃ before range after ids t key, ranges = before ++ range :: after ∧
      Maps access worker s before ids t ∧ t.Touches range.start range.len key ∧ t.Crowded key

theorem Maps.overflows {before after : List Range} {range : Range} (h : Maps access worker s before ids t)
    (hs : s.Shared handles) (hp : s.Placed reach) {seg : Segment} {first last : Nat}
    (hplace : t.place range.start range.len access = .ok ⟨seg, first, last⟩)
    (hfull : t.Crowded ⟨seg.base, first, last⟩) :
    Overflows access worker (before ++ range :: after) s := by
  have hp' := hp.of_sameHome (h.sameHome hp)
  have hfails := (h.shared hs hp).localize_crowded hp' hplace hfull worker
  refine ⟨?_, before, range, after, ids, t, _, rfl, h, (hp'.touches hplace).2, hfull⟩
  rcases he : t.localize range.start range.len access worker with ⟨answer, t'⟩
  rw [he] at hfails
  cases hfails
  have hclass : AddressSpace.localize t = t.localize := rfl
  rw [AddressSpace.localizeAll, h.localizeRest, AddressSpace.localizeRest, hclass, he]

/-- Blocks that have too many users are those of a space with too many mappings. -/
theorem Overflows.le (ho : Overflows access worker ranges s) (hs : s.Shared handles) (hp : s.Placed reach) :
    Word.bound ≤ s.mappings.length + ranges.length := by
  obtain ⟨-, before, range, after, ids, t, key, rfl, hmaps, -, entry, he, -, hfull⟩ := ho
  have hrefs : entry.refs ≤ (handles ++ ids).length := by
    rw [(hmaps.shared hs hp).refs entry he]
    exact List.countP_le_length
  have hhandles : handles.length ≤ s.mappings.length := by
    have hsub : handles ⊆ List.range s.mappings.length :=
      fun id hid => List.mem_range.2 (hs.handle_lt hid)
    simpa using (hs.nodup.subperm hsub).length_le
  rw [List.length_append, hmaps.length] at hrefs
  rw [List.length_append, List.length_cons]
  omega

/-! ## All or none -/

theorem objection_of_sameHome (h : SameHome s t) : t.objection = s.objection := by
  funext ptr len access
  rw [objection, objection, flat_of_sameHome h]

theorem Placed.exists_place (hp : s.Placed reach) {ptr : Pointer} {len : Nat}
    (hnone : s.objection ptr len access = none) : ∃ seg first last, s.place ptr len access = .ok ⟨seg, first, last⟩ := by
  cases hplace : s.place ptr len access with
  | ok placement => exact ⟨placement.segment, placement.first, placement.last, rfl⟩
  | error fault =>
    obtain ⟨error, rfl⟩ := hp.place_refused hplace
    cases hnone.symm.trans (hp.place_eq_error.1 hplace)

theorem Maps.snoc {range : Range} {u : Space} (h : Maps access worker s ranges ids t)
    (hl : t.localize range.start range.len access worker = (.ok id, u)) :
    Maps access worker s (ranges ++ [range]) (ids ++ [id]) u := by
  induction h with
  | nil s => exact .cons hl (.nil u)
  | cons hfirst _ ih => exact .cons hfirst (ih hl)

/-- Ranges that nothing is objected to are mapped one after the other, unless there are too many. -/
theorem Shared.maps_or_overflows (h : s.Shared handles) (hp : s.Placed reach) (hf : s.BlocksFit)
    (worker : WorkerId) (ranges rest : List Range)
    (hnone : ∀ range ∈ ranges, s.objection range.start range.len access = none) :
    (∃ ids t, Maps access worker s ranges ids t) ∨ Overflows access worker (ranges ++ rest) s := by
  induction ranges using List.reverseRecOn generalizing rest with
  | nil => exact .inl ⟨[], s, .nil s⟩
  | append_singleton before range ih =>
    rw [List.append_assoc]
    rcases ih (range :: rest) (fun earlier hm => hnone earlier (List.mem_append_left _ hm)) with
      ⟨ids, t, hmaps⟩ | ho
    · have hhome := hmaps.sameHome hp
      have hp' := hp.of_sameHome hhome
      have hfree := hnone range (List.mem_append_right _ List.mem_cons_self)
      rw [← objection_of_sameHome hhome] at hfree
      obtain ⟨seg, first, last, hplace⟩ := hp'.exists_place hfree
      by_cases hfull : t.Crowded ⟨seg.base, first, last⟩
      · exact .inr (hmaps.overflows h hp hplace hfull)
      · obtain ⟨id, u, hl⟩ := (hmaps.shared h hp).localize_ok hp' (hf.of_sameShape hhome.sameShape) hplace
          hfull worker
        exact .inl ⟨ids ++ [id], u, hmaps.snoc hl⟩
    · exact .inr ho

/-- What mapping ranges together does, by what mapping each of them alone would do. -/
structure AllOrNone (access : Access) (worker : WorkerId) (ranges : List Range) (s : Space) : Prop where
  mapped : (∀ range ∈ ranges, ∃ id, (s.localize range.start range.len access worker).1 = .ok id) →
    (∃ ids s', AddressSpace.localizeAll s ranges access worker = (.ok ids, s') ∧
      Maps access worker s ranges ids s' ∧ List.Forall₂ (s'.Names access) ranges ids) ∨
    Overflows access worker ranges s
  refused : ∀ before range after fault, ranges = before ++ range :: after →
    (∀ earlier ∈ before, ∃ id, (s.localize earlier.start earlier.len access worker).1 = .ok id) →
    (s.localize range.start range.len access worker).1 = .error fault →
      (∃ error s', fault = .refused error ∧
        AddressSpace.localizeAll s ranges access worker = (.error (.refused error), s') ∧
        Restored s s' before.length) ∨
      Overflows access worker ranges s
  /-- It takes more mappings than a word can count to count too many. -/
  overflow : Overflows access worker ranges s → Word.bound ≤ s.mappings.length + ranges.length

theorem Placed.objection_of_mapped (hp : s.Placed reach) {ptr : Pointer} {len : Nat}
    (h : ∃ id, (s.localize ptr len access worker).1 = .ok id) : s.objection ptr len access = none := by
  obtain ⟨id, hok⟩ := h
  cases hobj : s.objection ptr len access with
  | none => rfl
  | some error => cases hok.symm.trans (hp.localize_eq_refused.2 hobj)

theorem Shared.allOrNone (h : s.Shared handles) (hp : s.Placed reach) (hf : s.BlocksFit)
    (hlive : s.live < Word.bound) : AllOrNone access worker ranges s where
  mapped halone := by
    rcases h.maps_or_overflows hp hf worker ranges [] (fun range hm => hp.objection_of_mapped (halone range hm)) with
      ⟨ids, t, hmaps⟩ | ho
    · refine .inl ⟨ids, t, ?_, hmaps, hmaps.names⟩
      have hall := hmaps.localizeRest [] []
      rw [List.append_nil, List.nil_append] at hall
      exact hall
    · exact .inr (by rwa [List.append_nil] at ho)
  refused := by
    rintro before range after fault rfl halone hfails
    rcases h.maps_or_overflows hp hf worker before (range :: after)
      (fun range hm => hp.objection_of_mapped (halone range hm)) with ⟨ids, t, hmaps⟩ | ho
    · have hhome := hmaps.sameHome hp
      have hp' := hp.of_sameHome hhome
      cases hobj : s.objection range.start range.len access with
      | some error =>
        cases hfails.symm.trans (hp.localize_eq_refused.2 hobj)
        rw [← objection_of_sameHome hhome] at hobj
        have hrefused : (t.localize range.start range.len access worker).1 = .error (.refused error) :=
          hp'.localize_eq_refused.2 hobj
        rcases hl : t.localize range.start range.len access worker with ⟨answer, t'⟩
        rw [hl] at hrefused
        cases hrefused
        obtain ⟨-, rfl⟩ := localize_refused hl
        refine .inl ⟨error, _, rfl, ?_, hmaps.restored h hp hlive⟩
        have hclass : AddressSpace.localize t' = t'.localize := rfl
        rw [AddressSpace.localizeAll, hmaps.localizeRest, AddressSpace.localizeRest, hclass, hl,
          List.nil_append]
      | none =>
        rcases h.localize_of_granted hp hf hobj worker with ⟨id, hok⟩ | ⟨key, ht, hfull, _⟩
        · cases hok.symm.trans hfails
        · rw [← objection_of_sameHome hhome] at hobj
          obtain ⟨seg, first, last, hplace⟩ := hp'.exists_place hobj
          refine .inr (hmaps.overflows h hp hplace ?_)
          have hkey : key = ⟨seg.base, first, last⟩ := by
            have hrun := hp'.runOf_eq (hp'.touches hplace).2
            rw [hp'.runOf_eq ((touches_of_sameHome hhome).2 ht)] at hrun
            exact Option.some.inj hrun
          exact hkey ▸ h.crowded_later hp hmaps hfull
    · exact .inr ho
  overflow ho := ho.le h hp

end Space

/-! ## Ranges mapped for a body -/

namespace Ledger

/-- What is recorded of ranges that a body maps together: all of the handles in order, or none. -/
structure RecordsAll (l : Ledger) (site : Site) (holder : HolderId) (ranges : List Range) (access : Access)
    (s : Space) : Prop where
  given : ∀ ids s', AddressSpace.localizeAll s ranges access site.worker = (.ok ids, s') → ∃ l',
    l.perform (some site) (.localizeAll ranges access) = (.ok (ids.map fun id => ⟨site.space, id⟩), l') ∧
      l'.roster = l.roster.updateHolder holder (fun h => { h with handles := h.handles ++ ids }) ∧
      l'.spaces[site.space]?.map Recorder.space = some s'
  refused : ∀ fault s', AddressSpace.localizeAll s ranges access site.worker = (.error fault, s') → ∃ l',
    l.perform (some site) (.localizeAll ranges access) = (.error fault, l') ∧ l'.roster = l.roster ∧
      l'.spaces[site.space]?.map Recorder.space = some s'

theorem recordsAll {l : Ledger} {site : Site} {holder : HolderId} {a : Recorder}
    (ha : l.spaces[site.space]? = some a) (hh : site.holder = some holder) (ranges : List Range)
    (access : Access) : l.RecordsAll site holder ranges access a.space := by
  obtain ⟨hanswer, hspace⟩ := Recorder.localizeRest_space access site.worker [] ranges a
  rcases hall : AddressSpace.localizeAll a ranges access site.worker with ⟨answer, a'⟩
  have hlast : (l.updateSpace site.space fun _ => a').spaces[site.space]? = some a' :=
    spaces_updateSpace ha _
  simp only [AddressSpace.localizeAll] at hall
  rw [hall] at hanswer hspace
  refine ⟨fun ids s' he => ?_, fun fault s' he => ?_⟩ <;> simp only [AddressSpace.localizeAll] at he <;>
    rw [he] at hanswer hspace <;> cases hanswer
  · simp only [perform, performIn, hh, localizeAll, ha, AddressSpace.localizeAll, hall, foldl_record]
    exact ⟨_, rfl, rfl, by rw [hlast, Option.map_some, hspace]⟩
  · simp only [perform, performIn, hh, localizeAll, ha, AddressSpace.localizeAll, hall]
    exact ⟨_, rfl, rfl, by rw [hlast, Option.map_some, hspace]⟩

end Ledger

/-! ## Runs -/

namespace Client

variable {c : Client}

theorem perform_live (h : c.space.live < Word.bound) (op : SpaceOp) : (c.perform op).2.space.live < Word.bound := by
  have hwrap : ∀ n, Word.wrap n < Word.bound := fun n => Nat.mod_lt n (by decide)
  have hkeep : ∀ {answer : Except Fault Space}, (∀ s, answer = .ok s → Space.Still c.space s) →
      (c.keep answer).2.space.live < Word.bound := fun {answer} hstill => by
    cases answer with
    | ok s => exact (hstill s rfl).live ▸ h
    | error fault => exact h
  cases op with
  | alloc size blockSize => exact (c.space.alloc_still size blockSize).live ▸ h
  | dealloc base => exact hkeep fun _ he => Space.dealloc_still he
  | put ptr new => exact hkeep fun _ he => Space.put_still he
  | get ptr len => exact h
  | fill ptr value len => exact hkeep fun _ he => Space.put_still (Space.fill_eq_put _ _ _ _ ▸ he)
  | rmw ptr len update =>
    simp only [perform]
    split <;> rename_i he
    · exact (Space.rmw_still he).live ▸ h
    · exact h
  | commit ptr new => exact hkeep fun _ he => Space.put_still he
  | localize ptr len access worker =>
    simp only [perform]
    rcases c.space.localize_counts ptr len access worker with ⟨_, s, he, hs⟩ | ⟨_, s, he, _, _, hl⟩ <;>
      rw [he]
    · exact hs.live ▸ h
    · exact hl ▸ hwrap _
  | localizeAll ranges access worker =>
    have hlive : c.space.live = Word.wrap (c.space.live + ([] : List MappingId).length) :=
      (Word.wrap_of_lt h).symm
    simp only [perform, AddressSpace.localizeAll]
    rcases Space.localizeRest_counts access worker ranges (by simp) hlive with ⟨_, s, he, _, _, hl⟩ |
      ⟨_, s, he, _, hl⟩ | ⟨_, s, he, _, _, hl⟩ <;> rw [he] <;> exact hl ▸ hwrap _
  | unlocalize handle =>
    simp only [perform]
    split
    · by_cases hlt : handle < c.space.mappings.length
      · exact (Space.unlocalize_counts hlt).2.2 ▸ hwrap _
      · simp only [Space.unlocalize, List.getElem?_eq_none (Nat.le_of_not_lt hlt)]
        exact h
    · exact h
  | write handle off new => exact hkeep fun _ he => Space.write_still he

theorem run_live (h : c.space.live < Word.bound) (ops : List SpaceOp) : (c.run ops).space.live < Word.bound := by
  induction ops generalizing c with
  | nil => exact h
  | cons op rest ih => exact ih (perform_live h op)

/-- **Ranges are mapped all or none.** As long as the address counter has not wrapped, ranges of which each
alone would be mapped are mapped one after the other, and their handles are recorded in order; if one
of them would not, the first such refuses them all, and the mapping table is left as it was. -/
theorem run_allOrNone (numHomes : Nat) (ops : List SpaceOp) (hw : ∀ op ∈ ops, op.Worded)
    (hr : SpaceOp.addresses ops ≤ Word.bound) (ranges : List Range) (access : Access) :
    (∀ worker, ((start numHomes).run ops).space.AllOrNone access worker ranges) ∧
      ∀ (l : Ledger) (site : Site) (holder : HolderId) (a : Recorder), l.spaces[site.space]? = some a →
        a.space = ((start numHomes).run ops).space → site.holder = some holder →
          l.RecordsAll site holder ranges access ((start numHomes).run ops).space := by
  have hp := run_placed numHomes ops hr
  have hf := run_blocksFit (c := start numHomes) (Space.blocksFit_new numHomes) (Space.placed_new numHomes) ops hw hr
  have hlive := run_live (c := start numHomes) (show 0 < Word.bound by decide) ops
  obtain ⟨ids, h⟩ := run_current numHomes ops hr
  exact ⟨fun worker => h.shared.allOrNone hp hf hlive,
    fun l site holder a ha hspace hh => hspace ▸ Ledger.recordsAll ha hh ranges access⟩

/-- The third range ends one byte too late; the two before it made an entry and shared one. -/
theorem run_allOrNone_overlapping :
    let ops : List SpaceOp := [.alloc 8 4, .localize ⟨4096⟩ 4 .readOnly 0]
    let ranges : List Range := [⟨⟨4097⟩, 2⟩, ⟨⟨4099⟩, 2⟩, ⟨⟨4099⟩, 2⟩, ⟨⟨4103⟩, 2⟩]
    let s := ((start 2).run ops).space
    (∀ op ∈ ops, op.Worded) ∧ SpaceOp.addresses ops ≤ Word.bound ∧ s.AllOrNone .readOnly 1 ranges ∧
      (AddressSpace.localizeAll s ranges .readOnly 1).1 = .error (.refused (.outOfBounds ⟨4103⟩ 2)) ∧
      (AddressSpace.localizeAll s ranges .readOnly 1).2.cache = s.cache :=
  ⟨by decide, by decide, (run_allOrNone 2 _ (by decide) (by decide) _ _).1 1, by rfl, by rfl⟩

end Client

end TaskSpace

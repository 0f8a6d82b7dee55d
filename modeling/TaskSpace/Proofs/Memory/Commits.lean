import TaskSpace.Proofs.Machine.Footprint
import TaskSpace.Proofs.Memory.Rollback

/-!
# Committing what mappings hold

A commit writes what a live mapping reads to the place of its range in home memory. The segment of a
live mapping cannot be freed, so nothing but a dead reference ends a list of commits: home memory is
written over by what the references before it hold, one after the other.
-/

namespace TaskSpace

/-- Bytes, and where in home memory they go. -/
@[ext] structure Image where
  start : Pointer
  bytes : Bytes
deriving DecidableEq, Repr

namespace FlatMemory

/-- Writes images one after the other, so that later ones win where they overlap. -/
def overwriteAll (f : FlatMemory) (images : List Image) : FlatMemory :=
  images.foldl (fun f image => f.overwrite image.start image.bytes) f

theorem overwriteAll_append (f : FlatMemory) (images images' : List Image) :
    f.overwriteAll (images ++ images') = (f.overwriteAll images).overwriteAll images' :=
  List.foldl_append

end FlatMemory

/-- The segment without what it holds: its place, its blocks and their homes. -/
def Segment.layout (s : Segment) : Segment := { s with bytes := [] }

namespace Space

variable {s s' s'' : Space} {ids : List MappingId} {stores : List Store} {reach : Nat} {seg : Segment}
  {id : MappingId} {mapping : Mapping} {image : Image} {images images' : List Image}

instance (s : Space) (id : MappingId) : Decidable (s.Alive id) :=
  decidable_of_iff (s.mappings[id]?.any Mapping.live = true) (Option.any_eq_true ..)

/-! ## Home memory is written -/

/-- Images are written to home memory one after the other, and nothing else changes: not the homes of
the blocks, nor anything outside of home memory. -/
structure Writes (s : Space) (images : List Image) (s' : Space) : Prop where
  flat : s'.flat = s.flat.overwriteAll images
  layout : s'.segments.map Segment.layout = s.segments.map Segment.layout
  rest : s' = { s with segments := s'.segments }

theorem Writes.refl (s : Space) : s.Writes [] s := ⟨rfl, rfl, rfl⟩

theorem Writes.trans (h : s.Writes images s') (h' : s'.Writes images' s'') :
    s.Writes (images ++ images') s'' where
  flat := by rw [h'.flat, h.flat, FlatMemory.overwriteAll_append]
  layout := h'.layout.trans h.layout
  rest := by
    have hrest := h'.rest
    rwa [h.rest] at hrest

theorem Writes.mappings (h : s.Writes images s') : s'.mappings = s.mappings := by rw [h.rest]

theorem Writes.regions (h : s.Writes images s') : s'.regions = s.regions := by rw [h.rest]

theorem Writes.alive_iff (h : s.Writes images s') : s'.Alive id ↔ s.Alive id := by
  unfold Alive
  rw [h.mappings]

theorem Writes.read (h : s.Writes images s') (id : MappingId) : s'.read id = s.read id := by
  simp only [Space.read, h.mappings, h.regions]

/-- The home of an address does not depend on what segments hold. -/
theorem homeOf_layout (s : Space) (ptr : Pointer) :
    homeOf { s with segments := s.segments.map Segment.layout } ptr = s.homeOf ptr := by
  have hat : segmentAt { s with segments := s.segments.map Segment.layout } ptr =
      (s.segmentAt ptr).map Segment.layout := by
    have hstop : ∀ seg : Segment, seg.layout.stop = seg.stop := fun _ => rfl
    have hbase : ∀ seg : Segment, seg.layout.base = seg.base := fun _ => rfl
    simp only [segmentAt, List.find?_map, Function.comp_def, hbase]
    split
    · rfl
    · cases s.segments.find? fun seg => decide (seg.base.addr ≤ ptr.addr) with
      | none => rfl
      | some found =>
        simp only [Option.map_some, hstop]
        cases found.stop with
        | error fault => rfl
        | ok stop =>
          dsimp only
          split <;> rfl
  unfold homeOf
  rw [locate_eq, locate_eq, hat]
  cases s.segmentAt ptr with
  | error fault => rfl
  | ok seg =>
    have hoff : seg.layout.offset ptr 0 = seg.offset ptr 0 := rfl
    simp only [Except.map, hoff]
    cases seg.offset ptr 0 <;> rfl

theorem Writes.homeOf (h : s.Writes images s') (ptr : Pointer) : s'.homeOf ptr = s.homeOf ptr := by
  have hrest : { s' with segments := s'.segments.map Segment.layout } =
      { s with segments := s.segments.map Segment.layout } := by
    rw [h.layout, h.rest]
  rw [← homeOf_layout s', hrest, homeOf_layout]

theorem Placed.put_writes (hp : s.Placed reach) {ptr : Pointer} {new : Bytes} {off : Nat}
    (hl : s.locate ptr new.length = .ok (seg, off)) :
    s.Writes [⟨ptr, new⟩] (s.storeSegment (seg.overwrite off new)) where
  flat := hp.flat_overwrite hl
  layout := hp.map_storeSegment _ (hp.locate_eq_ok.1 hl).1 rfl rfl
  rest := rfl

/-! ## What a mapping commits -/

/-- What a mapping reads, at the start of its range. -/
def Shows (s : Space) (id : MappingId) (image : Image) : Prop :=
  ∃ mapping, s.mappings[id]? = some mapping ∧ image.start = mapping.start ∧
    s.read id = .ok image.bytes ∧ image.bytes.length = mapping.len

theorem Shows.unique {image' : Image} (h : s.Shows id image) (h' : s.Shows id image') : image = image' := by
  obtain ⟨mapping, hm, hstart, hread, -⟩ := h
  obtain ⟨mapping', hm', hstart', hread', -⟩ := h'
  obtain rfl := Option.some.inj (hm.symm.trans hm')
  exact Image.ext (hstart.trans hstart'.symm) (Except.ok.inj (hread.symm.trans hread'))

theorem Writes.shows_iff (h : s.Writes images s') : s'.Shows id image ↔ s.Shows id image := by
  simp only [Shows, h.mappings, h.read]

/-- A live mapping can be committed: its segment is still there, with the range inside. -/
theorem Current.exists_put (h : s.Current ids stores) (hp : s.Placed reach) (hl : s.Alive id) :
    ∃ image s', s.Shows id image ∧ s.put image.start image.bytes = .ok s' ∧ s.Writes [image] s' := by
  obtain ⟨mapping, hm, hlive⟩ := hl
  obtain ⟨key, bytes, hrange, hread, hlen, -⟩ := h.read hp hm hlive
  have ht : s.Touches mapping.start mapping.len key := hp.runOf_eq_some.1 (rangeOf_eq_runOf hm ▸ hrange)
  obtain ⟨seg, hseg, off, haddr, hlt, hle, -⟩ := ht
  have hlocate : s.locate mapping.start bytes.length = .ok (seg, off) :=
    hp.locate_eq_ok.2 ⟨hseg, haddr, hlt, hlen ▸ hle⟩
  exact ⟨⟨mapping.start, bytes⟩, _, ⟨mapping, hm, rfl, hread, hlen⟩, hp.put_eq hlocate, hp.put_writes hlocate⟩

/-- The start of the first mapping of a list that is dead. -/
def firstDead (s : Space) (ids : List MappingId) : Option Pointer :=
  ids.findSome? fun id => (s.mappings[id]?.filter fun mapping => !mapping.live).map Mapping.start

theorem firstDead_cons_of_alive (h : s.Alive id) : s.firstDead (id :: ids) = s.firstDead ids := by
  obtain ⟨mapping, hm, hl⟩ := h
  simp [firstDead, hm, hl]

theorem firstDead_cons_of_dead (hm : s.mappings[id]? = some mapping) (hl : mapping.live = false) :
    s.firstDead (id :: ids) = some mapping.start := by
  simp [firstDead, hm, hl]

theorem Writes.firstDead (h : s.Writes images s') : s'.firstDead ids = s.firstDead ids := by
  simp only [Space.firstDead, h.mappings]

theorem firstDead_eq_none (hin : ∀ id ∈ ids, id < s.mappings.length) :
    s.firstDead ids = none ↔ ∀ id ∈ ids, s.Alive id := by
  simp only [firstDead, List.findSome?_eq_none_iff, Option.map_eq_none_iff, Option.filter_eq_none_iff]
  refine forall₂_congr fun id hid => ?_
  have hm := List.getElem?_eq_getElem (hin id hid)
  simp [Alive, hm]

/-- How a list of references ends: with the refusal of the first dead one, if there is any. -/
def ending (s : Space) (ids : List MappingId) : Except Fault Unit :=
  match s.firstDead ids with
  | none => .ok ()
  | some ptr => .error (.refused (.unlocalized ptr))

/-- The mappings of a list before the first that is dead. -/
def livePrefix (s : Space) (ids : List MappingId) : List MappingId := ids.takeWhile fun id => s.Alive id

theorem livePrefix_of_alive (h : ∀ id ∈ ids, s.Alive id) : s.livePrefix ids = ids := by
  induction ids with
  | nil => rfl
  | cons id rest ih =>
    obtain ⟨hfirst, hrest⟩ := List.forall_mem_cons.1 h
    exact (List.takeWhile_cons_of_pos (by simpa using hfirst)).trans (congrArg _ (ih hrest))

theorem Writes.livePrefix (h : s.Writes images s') : s'.livePrefix ids = s.livePrefix ids := by
  simp only [Space.livePrefix, h.alive_iff]

end Space

/-! ## References of a ledger -/

namespace Ledger

variable {l : Ledger} {space : SpaceId} {a : Recorder} {s : Space} {ids : List MappingId} {stores : List Store}
  {reach : Nat} {ref : LocalRef} {mapping : Mapping}

theorem updateSpace_self (ha : l.spaces[space]? = some a) : (l.updateSpace space fun _ => a) = l := by
  have hsame : l.spaces.modify space (fun a => a) = l.spaces := List.modify_id _ _
  rw [← updateSpace_some ha fun a => a, updateSpace, hsame]

theorem updateSpace_twice (l : Ledger) (space : SpaceId) (a a' : Recorder) :
    ((l.updateSpace space fun _ => a).updateSpace space fun _ => a') = l.updateSpace space fun _ => a' := by
  have htwice : (l.spaces.modify space fun _ => a).modify space (fun _ => a') =
      l.spaces.modify space fun _ => a' := by
    refine List.ext_getElem? fun other => ?_
    simp only [List.getElem?_modify]
    by_cases he : space = other <;> simp [he, Function.comp_def]
  simp only [updateSpace, htwice]

theorem commit_of_dead (ha : l.spaces[space]? = some a) (hin : ref.space = space)
    (hm : a.space.mappings[ref.mapping]? = some mapping) (hl : mapping.live = false) :
    l.commit space ref = (.error (.refused (.unlocalized mapping.start)), l) := by
  simp only [commit, read, hin, ha, Space.read_dead hm hl]

theorem commit_of_shows {image : Image} {s' : Space} (ha : l.spaces[space]? = some a)
    (hin : ref.space = space) (hshows : a.space.Shows ref.mapping image)
    (hput : a.space.put image.start image.bytes = .ok s') :
    l.commit space ref = (.ok (), l.updateSpace space fun _ => { a with space := s' }) := by
  obtain ⟨mapping, hm, hstart, hread, -⟩ := hshows
  have hcommit : AddressSpace.commit a mapping.start image.bytes = .ok { a with space := s' } := by
    show a.keep (a.space.put mapping.start image.bytes) = _
    rw [← hstart, hput]
    rfl
  simp only [commit, read, mapping?, hin, ha, hread, Option.bind_eq_bind, Option.bind_some, hm, change,
    hcommit]

/-- Committing references ends as the first dead one says, and writes what those before it show. -/
structure Commits (l : Ledger) (space : SpaceId) (a : Recorder) (refs : List LocalRef)
    (answer : Except Fault Unit) (l' : Ledger) : Prop where
  answer : answer = a.space.ending (refs.map LocalRef.mapping)
  written : ∃ images s', List.Forall₂ a.space.Shows (a.space.livePrefix (refs.map LocalRef.mapping)) images ∧
    a.space.Writes images s' ∧ l' = l.updateSpace space fun _ => { a with space := s' }

theorem commitAll_commits (ha : l.spaces[space]? = some a) (h : a.space.Current ids stores)
    (hp : a.space.Placed reach) (refs : List LocalRef)
    (hrefs : ∀ ref ∈ refs, ref.space = space ∧ ref.mapping < a.space.mappings.length) :
    l.Commits space a refs (l.commitAll space refs).1 (l.commitAll space refs).2 := by
  induction refs generalizing l a with
  | nil => exact ⟨rfl, [], a.space, .nil, .refl _, (updateSpace_self ha).symm⟩
  | cons ref rest ih =>
    obtain ⟨⟨hin, hlt⟩, hrest⟩ := List.forall_mem_cons.1 hrefs
    have hm := List.getElem?_eq_getElem hlt
    cases hl : a.space.mappings[ref.mapping].live with
    | false =>
      have hdead : ¬ a.space.Alive ref.mapping := fun ⟨mapping, hm', hl'⟩ => by
        rw [hm, Option.some.injEq] at hm'
        rw [← hm', hl] at hl'
        cases hl'
      simp only [commitAll, commit_of_dead ha hin hm hl]
      refine ⟨?_, [], a.space, ?_, .refl _, (updateSpace_self ha).symm⟩
      · simp only [List.map_cons, Space.ending, Space.firstDead_cons_of_dead hm hl]
      · simp [Space.livePrefix, hdead]
    | true =>
      have halive : a.space.Alive ref.mapping := ⟨_, hm, hl⟩
      obtain ⟨image, s', hshows, hput, hwrites⟩ := h.exists_put hp halive
      have ha' : (l.updateSpace space fun _ => { a with space := s' }).spaces[space]? =
          some { a with space := s' } := spaces_updateSpace ha _
      -- what is left is committed in the space that the first commit leaves, where all mappings show the same
      obtain ⟨hanswer, images, t, hall, hwritten, hledger⟩ := ih ha' (h.put hp hput)
        (hp.of_sameShape (hp.put_sameShape hput)) (by simpa only [hwrites.mappings] using hrest)
      simp only [commitAll, commit_of_shows ha hin hshows hput]
      refine ⟨?_, image :: images, t, ?_, hwrites.trans hwritten, ?_⟩
      · rw [hanswer]
        simp only [List.map_cons, Space.ending, Space.firstDead_cons_of_alive halive, hwrites.firstDead]
      · simp only [List.map_cons, Space.livePrefix, List.takeWhile_cons, halive, decide_true]
        rw [hwrites.livePrefix] at hall
        exact .cons hshows (hall.imp fun _ _ => hwrites.shows_iff.1)
      · rw [hledger, updateSpace_twice]

/-- One reference is committed as the list of it. -/
theorem commitAll_singleton (l : Ledger) (space : SpaceId) (ref : LocalRef) :
    l.commitAll space [ref] = l.commit space ref := by
  simp only [commitAll]
  rcases l.commit space ref with ⟨fault | ⟨⟩, l'⟩ <;> rfl

/-- What committing references does where a thread works. -/
structure CommitsAll (l : Ledger) (site : Site) (a : Recorder) (refs : List LocalRef) : Prop where
  succeeds : (l.perform (some site) (.commitAll refs)).1 = .ok () ↔ ∀ ref ∈ refs, a.space.Alive ref.mapping
  commits : l.Commits site.space a refs (l.perform (some site) (.commitAll refs)).1
    (l.perform (some site) (.commitAll refs)).2
  homes : ∀ a', (l.perform (some site) (.commitAll refs)).2.spaces[site.space]? = some a' →
    ∀ ptr, a'.space.homeOf ptr = a.space.homeOf ptr
  one : ∀ ref, l.perform (some site) (.commit ref) = l.perform (some site) (.commitAll [ref])

end Ledger

namespace Client

/-- **Committing references writes back those before the first dead one.** As long as the address counter has
not wrapped, a list of references is committed if all of them are live, and refused as the first dead
one is otherwise. What the references before it read is written over home memory, one after the
other; nothing else changes. -/
theorem run_commits (numHomes : Nat) (ops : List SpaceOp) (hr : SpaceOp.addresses ops ≤ Word.bound)
    {l : Ledger} {site : Site} {a : Recorder} (ha : l.spaces[site.space]? = some a)
    (hs : a.space = ((start numHomes).run ops).space) (refs : List LocalRef)
    (hrefs : ∀ ref ∈ refs, ref.space = site.space ∧ ref.mapping < a.space.mappings.length) :
    l.CommitsAll site a refs := by
  have hp := run_placed numHomes ops hr
  obtain ⟨ids, h⟩ := run_current numHomes ops hr
  rw [← hs] at h hp
  have hcommits := Ledger.commitAll_commits ha h hp refs hrefs
  have hin : ∀ id ∈ refs.map LocalRef.mapping, id < a.space.mappings.length := by
    simpa using fun ref hm => (hrefs ref hm).2
  refine ⟨?_, hcommits, fun a' ha' ptr => ?_, fun ref => (Ledger.commitAll_singleton l site.space ref).symm⟩
  · have hall := Space.firstDead_eq_none hin
    simp only [List.forall_mem_map] at hall
    rw [← hall]
    show (l.commitAll site.space refs).1 = _ ↔ _
    rw [hcommits.answer, Space.ending]
    cases a.space.firstDead (refs.map LocalRef.mapping) <;> simp
  · obtain ⟨images, s', -, hwrites, hledger⟩ := hcommits.written
    have hperform : (l.perform (some site) (.commitAll refs)).2 =
      l.updateSpace site.space fun _ => { a with space := s' } := hledger
    rw [hperform, Ledger.spaces_updateSpace ha, Option.some.injEq] at ha'
    rw [← ha']
    exact hwrites.homeOf ptr

/-- Two overlapping ranges of different blocks, one of them committed twice, and a dead reference before the
last one. -/
theorem run_commits_overlapping :
    let ops : List SpaceOp := [.alloc 16 4, .localize ⟨4096⟩ 4 .exclusive 0, .localize ⟨4098⟩ 4 .exclusive 0,
      .write 0 0 [1, 2, 3, 4], .write 1 0 [5, 6, 7, 8], .localize ⟨4104⟩ 1 .readOnly 0, .unlocalize 2]
    let s := ((start 1).run ops).space
    let l : Ledger := ⟨[⟨s, [], []⟩], .empty⟩
    let refs : List LocalRef := [⟨0, 0⟩, ⟨0, 1⟩, ⟨0, 0⟩, ⟨0, 2⟩, ⟨0, 1⟩]
    let after := l.perform (some ⟨0, 0, none⟩) (.commitAll refs)
    SpaceOp.addresses ops ≤ Word.bound ∧ l.CommitsAll ⟨0, 0, none⟩ ⟨s, [], []⟩ refs ∧
      after.1 = .error (.refused (.unlocalized ⟨4104⟩)) ∧
      after.2.spaces.map (fun a => a.space.get ⟨4096⟩ 8) = [.ok [1, 2, 3, 4, 7, 8, 0, 0]] :=
  ⟨by decide, run_commits 1 _ (by decide) rfl rfl _ (by decide), by rfl, by rfl⟩

end Client

end TaskSpace

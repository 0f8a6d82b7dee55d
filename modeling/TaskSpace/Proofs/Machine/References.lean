import TaskSpace.Proofs.Machine.Releases
import TaskSpace.Proofs.Memory.Tenure

/-!
# References to mappings

Spaces and holders are used in any order, by task bodies and by anyone else who has them. A reference is
live until its mapping is released, on one of four ways (`Ledger.released`), and then it is dead for good.
Through a dead reference nothing is read or written, and a write through a live one changes the bytes
that it names and no others, as long as the addresses of the space last.
-/

namespace TaskSpace

/-- What can be done with some spaces and a roster: what a thread asks for where it works, a write through a
reference, what a program does with a space itself, and what it does with storages and holders. -/
inductive Use where
  | ask (site : Option Site) (op : MemoryOp)
  | write (ref : LocalRef) (off : Nat) (new : Bytes)
  | localize (space : SpaceId) (range : Range) (access : Access) (worker : WorkerId)
  | localizeAll (space : SpaceId) (ranges : List Range) (access : Access) (worker : WorkerId)
  | unlocalize (ref : LocalRef)
  | registry (op : RegistryOp)
  | addHolder (owner : Option TaskId)

/-- How far a use moves the address counter of a space. -/
def Use.span (space : SpaceId) : Use → Nat
  | ask (some site) (.alloc size blockSize) => if site.space = space then Space.span size blockSize else 0
  | _ => 0

/-- Where the address counter of a new space would stand after some uses, were it not a word. -/
def Use.reserved (space : SpaceId) (uses : List Use) : Nat := Space.page + Word.total (uses.map (span space))

/-- The mappings of a space that some references are to. -/
def LocalRef.within (refs : List LocalRef) (space : SpaceId) : List MappingId :=
  (refs.filter fun ref => ref.space = space).map LocalRef.mapping

theorem Roster.deregister_handles {r r' : Roster} {storage : StorageId} {thread : ThreadId} {holder : HolderId}
    {handles : List MappingId} (h : r.deregister storage thread = (.ok (holder, handles), r')) :
    handles = r.handlesOf holder := by
  unfold deregister at h
  split at h
  · cases h
  · rename_i s hs
    rw [checkThread_eq hs] at h
    split at h <;> rename_i hcheck
    · cases h
    · rename_i bound
      have hbound : bound.holder? holder = r.holder? holder := by
        split at hcheck <;> cases hcheck
        rfl
      split at h <;> cases h
      rw [holder?_updateHolder, if_pos rfl, hbound, handlesOf]
      cases r.holder? holder <;> rfl

namespace Ledger

def use (l : Ledger) : Use → Ledger
  | .ask site op => (l.perform site op).2
  | .write ref off new => (l.write ref off new).2
  | .localize space range access worker =>
    l.updateSpace space fun a => (AddressSpace.localize a range.start range.len access worker).2
  | .localizeAll space ranges access worker =>
    l.updateSpace space fun a => (AddressSpace.localizeAll a ranges access worker).2
  | .unlocalize ref => l.release ref.space [ref.mapping]
  | .registry op => (l.call op).2
  | .addHolder owner => (l.addHolder owner).2

def after (l : Ledger) (uses : List Use) : Ledger := uses.foldl use l

/-- The references to those mappings that are there. -/
def standing (l : Ledger) (space : SpaceId) (handles : List MappingId) : List LocalRef :=
  (handles.map fun handle => ⟨space, handle⟩).filter fun ref => (l.mapping? ref).isSome

/-- What a call for several ranges makes and takes back. -/
def takenBack (l : Ledger) (space : SpaceId) (ranges : List Range) (access : Access) (worker : WorkerId) :
    List LocalRef :=
  ((l.spaces[space]?).elim [] fun a => a.space.takenBack ranges access worker).map fun handle => ⟨space, handle⟩

/-- What is released when a thread asks for something where it works: what is taken back of several ranges, or
everything that the innermost body has mapped. -/
def releasedAt (l : Ledger) (site : Site) : MemoryOp → List LocalRef
  | .localizeAll ranges access => site.holder.elim [] fun _ => l.takenBack site.space ranges access site.worker
  | .unlocalize => site.holder.elim [] fun holder => l.standing site.space (l.roster.handlesOf holder)
  | _ => []

/-- The mappings that a use releases: one that is named, what is taken back of several ranges, what a body asks to
have released, and what is left in a holder that is deregistered. -/
def released (l : Ledger) : Use → List LocalRef
  | .ask site op => site.elim [] fun site => l.releasedAt site op
  | .localizeAll space ranges access worker => l.takenBack space ranges access worker
  | .unlocalize ref => l.standing ref.space [ref.mapping]
  | .registry (.deregister storage thread) =>
    match (l.deregister storage thread).1 with
    | .ok holder =>
      l.standing (((l.roster.storages[storage]?).map Storage.space).getD 0) (l.roster.handlesOf holder)
    | .error _ => []
  | .write .. | .localize .. | .registry _ | .addHolder _ => []

/-- What some uses release, from the first to the last. -/
def log (l : Ledger) : List Use → List LocalRef
  | [] => []
  | first :: rest => l.released first ++ (l.use first).log rest

/-- Nothing has been done with the spaces. -/
def Unused (l : Ledger) : Prop := ∀ a ∈ l.spaces, ∃ numHomes, a.space = Space.new numHomes

/-- What a write through a reference leaves: the bytes from `place` on are the new ones, in the region of its
mapping, and all else is as it was. -/
def Writes (l : Ledger) (ref : LocalRef) (mapping : Mapping) (place : Region → Nat) (new : Bytes)
    (l' : Ledger) : Prop :=
  ∃ a region bytes, l.spaces[ref.space]? = some a ∧ a.space.regions[mapping.region]? = some region ∧
    region.Overwritten (place region) new bytes ∧
    l' = l.updateSpace ref.space fun _ => { a with space := a.space.setRegion mapping.region bytes }

/-- References are good until they are released. -/
structure Honours (l : Ledger) (log : List LocalRef) : Prop where
  live : ∀ ref mapping, l.mapping? ref = some mapping → (mapping.live = true ↔ ref ∉ log)
  read : ∀ ref mapping, l.mapping? ref = some mapping → mapping.live = false →
    l.read ref = .error (.refused (.unlocalized mapping.start))
  refused : ∀ ref mapping, l.mapping? ref = some mapping → mapping.live = false → ∀ off new,
    l.write ref off new = (.error (.refused (mapping.refusal off new)), l)
  failed : ∀ ref off new fault l', l.write ref off new = (.error fault, l') → l' = l
  written : ∀ ref mapping off new l', l.mapping? ref = some mapping → l.write ref off new = (.ok (), l') →
    mapping.access.isWritable = true ∧ mapping.live = true ∧ off + new.length ≤ mapping.len ∧
      l.Writes ref mapping (fun region => max mapping.start.addr region.base.addr + off) new l'

variable {l l' l'' : Ledger} {id space : SpaceId} {a a' : Recorder} {freed freed' : List MappingId} {span span' : Nat}
  {ref : LocalRef} {mapping : Mapping} {refs : List LocalRef} {uses : List Use}

theorem after_append (l : Ledger) (uses more : List Use) : l.after (uses ++ more) = (l.after uses).after more :=
  List.foldl_append

theorem mem_within {handle : MappingId} : handle ∈ LocalRef.within refs space ↔ ⟨space, handle⟩ ∈ refs := by
  simp only [LocalRef.within, List.mem_map, List.mem_filter, decide_eq_true_eq]
  constructor
  · rintro ⟨⟨_, _⟩, ⟨hm, rfl⟩, rfl⟩
    exact hm
  · intro hm
    exact ⟨_, ⟨hm, rfl⟩, rfl⟩

theorem within_append (refs more : List LocalRef) (space : SpaceId) :
    LocalRef.within (refs ++ more) space = LocalRef.within refs space ++ LocalRef.within more space := by
  simp [LocalRef.within]

theorem within_map (handles : List MappingId) (space id : SpaceId) :
    LocalRef.within (handles.map fun handle => ⟨space, handle⟩) id = if space = id then handles else [] := by
  by_cases he : space = id <;> simp [LocalRef.within, List.filter_map, Function.comp_def, he]

theorem mapping?_eq (ha : l.spaces[space]? = some a) (handle : MappingId) :
    l.mapping? ⟨space, handle⟩ = a.space.mappings[handle]? := by
  simp [mapping?, ha]

theorem within_standing (l : Ledger) (space : SpaceId) (handles : List MappingId) (id : SpaceId) :
    LocalRef.within (l.standing space handles) id =
      if space = id then handles.filter fun handle => (l.mapping? ⟨space, handle⟩).isSome else [] := by
  rw [standing, List.filter_map, within_map]
  rfl

/-! ## One space -/

/-- The space is there after it was used, if it was there before. -/
structure AgesAt (id : SpaceId) (freed : List MappingId) (span : Nat) (l l' : Ledger) : Prop where
  gone : l.spaces[id]? = none → l'.spaces[id]? = none
  aged : ∀ a, l.spaces[id]? = some a → ∃ a', l'.spaces[id]? = some a' ∧ Space.Ages freed span a.space a'.space

theorem AgesAt.of_spaces (h : l'.spaces = l.spaces) : AgesAt id [] 0 l l' where
  gone hn := h ▸ hn
  aged a ha := ⟨a, h ▸ ha, .refl _⟩

theorem AgesAt.congr (h : AgesAt id freed span l l') (hs : l''.spaces = l'.spaces) : AgesAt id freed span l l'' where
  gone hn := hs ▸ h.gone hn
  aged := hs ▸ h.aged

theorem AgesAt.trans (h : AgesAt id freed span l l') (h' : AgesAt id freed' span' l' l'') :
    AgesAt id (freed ++ freed') (span + span') l l'' where
  gone hn := h'.gone (h.gone hn)
  aged a ha := by
    obtain ⟨a', ha', hage⟩ := h.aged a ha
    obtain ⟨a'', ha'', hage'⟩ := h'.aged a' ha'
    exact ⟨a'', ha'', hage.trans hage'⟩

theorem AgesAt.update {f : Recorder → Recorder}
    (h : ∀ a, l.spaces[space]? = some a → Space.Ages freed span a.space (f a).space) (id : SpaceId) :
    AgesAt id (if space = id then freed else []) (if space = id then span else 0) l (l.updateSpace space f) := by
  by_cases he : space = id
  · subst he
    simp only [if_true]
    refine ⟨fun hn => ?_, fun a ha => ⟨f a, spaces_updateSpace ha f, h a ha⟩⟩
    simp [updateSpace, hn]
  · have hsame : (l.updateSpace space f).spaces[id]? = l.spaces[id]? := List.getElem?_modify_ne _ _ he
    simp only [if_neg he]
    exact ⟨fun hn => hsame.trans hn, fun a ha => ⟨a, hsame.trans ha, .refl _⟩⟩

theorem AgesAt.quiet {f : Recorder → Recorder}
    (h : ∀ a, l.spaces[space]? = some a → Space.Ages [] 0 a.space (f a).space) (id : SpaceId) :
    AgesAt id [] 0 l (l.updateSpace space f) := by
  simpa using AgesAt.update h id

/-! ## What a use does to a space -/

theorem ages_change {op : Recorder → Except Fault Recorder}
    (hop : ∀ a a', op a = .ok a' → Space.Ages [] 0 a.space a'.space) : AgesAt id [] 0 l (l.change space op).2 := by
  unfold change
  split
  · exact .of_spaces rfl
  · rename_i a ha
    split
    · rename_i a' he
      refine .quiet (fun b hb => ?_) id
      cases ha.symm.trans hb
      exact hop a a' he
    · exact .of_spaces rfl

theorem ages_keep {answer : Except Fault Space} (hs : ∀ s, answer = .ok s → Space.Ages [] 0 a.space s)
    (h : a.keep answer = .ok a') : Space.Ages [] 0 a.space a'.space := by
  cases answer with
  | error fault => cases h
  | ok s =>
    cases h
    exact hs s rfl

theorem ages_writeRef (l : Ledger) (ref : LocalRef) (off : Nat) (new : Bytes) :
    AgesAt id [] 0 l (l.write ref off new).2 :=
  ages_change fun _ _ he => ages_keep (fun _ hw => Space.ages_write hw) he

theorem ages_commit (l : Ledger) (space : SpaceId) (ref : LocalRef) : AgesAt id [] 0 l (l.commit space ref).2 := by
  unfold Ledger.commit
  split
  · exact .of_spaces rfl
  · exact ages_change fun _ _ he => ages_keep (fun _ hw => Space.ages_put hw) he
  · exact .of_spaces rfl

theorem ages_commitAll (l : Ledger) (space : SpaceId) (refs : List LocalRef) :
    AgesAt id [] 0 l (l.commitAll space refs).2 := by
  induction refs generalizing l with
  | nil => exact .of_spaces rfl
  | cons ref rest ih =>
    have hone : AgesAt id [] 0 l (l.commit space ref).2 := l.ages_commit space ref
    unfold Ledger.commitAll
    split <;> rename_i he <;> rw [he] at hone
    · exact hone
    · exact hone.trans (ih _)

theorem ages_release (l : Ledger) (roster : Roster) (space : SpaceId) (handles : List MappingId) (id : SpaceId) :
    AgesAt id (LocalRef.within (l.standing space handles) id) 0 l ({ l with roster }.release space handles) := by
  have hrelease : AgesAt id (LocalRef.within (l.standing space handles) id) (if space = id then 0 else 0) l
      (l.release space handles) := by
    rw [within_standing]
    refine AgesAt.update (fun a ha => ?_) id
    rw [Recorder.unlocalizeAll_space]
    have hsame : (handles.filter fun handle => (l.mapping? ⟨space, handle⟩).isSome) =
        handles.filter (· < a.space.mappings.length) :=
      List.filter_congr fun handle _ => by rw [mapping?_eq ha, Bool.eq_iff_iff]; simp
    rw [hsame]
    exact a.space.ages_unlocalizeAll handles
  rw [ite_self] at hrelease
  exact hrelease.congr rfl

theorem ages_takenBack (l : Ledger) (space : SpaceId) (ranges : List Range) (access : Access) (worker : WorkerId)
    (id : SpaceId) : AgesAt id (LocalRef.within (l.takenBack space ranges access worker) id) 0 l
      (l.updateSpace space fun a => (AddressSpace.localizeAll a ranges access worker).2) := by
  have hage : ∀ a, l.spaces[space]? = some a → Space.Ages
      ((l.spaces[space]?).elim [] fun a => a.space.takenBack ranges access worker) 0 a.space
      (AddressSpace.localizeAll a ranges access worker).2.space := by
    intro a ha
    rw [ha, Option.elim_some, AddressSpace.localizeAll, (a.localizeRest_space access worker [] ranges).2]
    exact a.space.ages_localizeAll ranges access worker
  have hupdate := AgesAt.update hage id
  rw [takenBack, within_map]
  rwa [ite_self] at hupdate

theorem ages_localizeIn (l : Ledger) (space : SpaceId) (worker : WorkerId) (holder : HolderId) (ptr : Pointer)
    (len : Nat) (access : Access) (id : SpaceId) :
    AgesAt id [] 0 l (l.localize space worker holder ptr len access).2 := by
  unfold Ledger.localize
  split
  · exact .of_spaces rfl
  · rename_i a ha
    have hage := a.space.ages_localize ptr len access worker
    rw [← Recorder.localize_space] at hage
    have hset : AgesAt id [] 0 l (l.updateSpace space fun _ => (AddressSpace.localize a ptr len access worker).2) :=
      .quiet (fun b hb => by cases ha.symm.trans hb; exact hage) id
    split <;> rename_i he <;> rw [he] at hset
    · exact hset.congr rfl
    · exact hset

theorem ages_localizeAllIn (l : Ledger) (space : SpaceId) (worker : WorkerId) (holder : HolderId) (ranges : List Range)
    (access : Access) (id : SpaceId) : AgesAt id (LocalRef.within (l.takenBack space ranges access worker) id) 0 l
      (l.localizeAll space worker holder ranges access).2 := by
  have htaken := l.ages_takenBack space ranges access worker id
  unfold Ledger.localizeAll
  cases ha : l.spaces[space]? with
  | none => rwa [updateSpace_none ha] at htaken
  | some a =>
    rw [updateSpace_some ha] at htaken
    dsimp only
    split <;> rename_i he <;> rw [he] at htaken
    · rw [foldl_record]
      exact htaken.congr rfl
    · exact htaken

theorem ages_performIn (l : Ledger) (site : Site) (op : MemoryOp) (id : SpaceId) :
    AgesAt id (LocalRef.within (l.releasedAt site op) id) ((Use.ask (some site) op).span id) l
      (l.performIn site.space site.worker site.holder op).2 := by
  obtain ⟨space, worker, holder⟩ := site
  cases op with
  | alloc size blockSize =>
    have hage : ∀ a, l.spaces[space]? = some a → Space.Ages [] (Space.span size blockSize) a.space
        (AddressSpace.alloc a size blockSize).2.space :=
      fun a _ => a.space.ages_alloc size blockSize
    have hupdate := AgesAt.update hage id
    rw [ite_self] at hupdate
    simp only [performIn, Use.span]
    cases ha : l.spaces[space]? with
    | none => rwa [updateSpace_none ha] at hupdate
    | some a => rwa [updateSpace_some ha] at hupdate
  | dealloc ptr => exact ages_change fun _ _ he => ages_keep (fun _ hd => Space.ages_dealloc hd) he
  | put ptr bytes => exact ages_change fun _ _ he => ages_keep (fun _ hw => Space.ages_put hw) he
  | fill ptr value len =>
    exact ages_change fun _ _ he => ages_keep (fun _ hw => Space.ages_put (Space.fill_eq_put _ _ _ _ ▸ hw)) he
  | rmw ptr len update =>
    simp only [performIn, look]
    cases ha : l.spaces[space]? with
    | none => exact .of_spaces rfl
    | some a =>
      simp only [AddressSpace.rmw]
      cases hw : a.space.rmw ptr len update with
      | error fault => exact .of_spaces rfl
      | ok result =>
        refine .quiet (fun b hb => ?_) id
        cases ha.symm.trans hb
        exact Space.ages_put (Space.put_of_rmw hw)
  | get ptr len => exact .of_spaces rfl
  | homeOf ptr => exact .of_spaces rfl
  | commit ref => exact l.ages_commit space ref
  | commitAll refs => exact l.ages_commitAll space refs
  | localize ptr len access =>
    cases holder with
    | none => exact .of_spaces rfl
    | some holder => exact l.ages_localizeIn space worker holder ptr len access id
  | localizeAll ranges access =>
    cases holder with
    | none => exact .of_spaces rfl
    | some holder => exact l.ages_localizeAllIn space worker holder ranges access id
  | unlocalize =>
    cases holder with
    | none => exact .of_spaces rfl
    | some holder => exact l.ages_release (l.roster.drain holder).2 space (l.roster.handlesOf holder) id

theorem ages_deregister (l : Ledger) (storage : StorageId) (thread : ThreadId) (id : SpaceId) :
    AgesAt id (LocalRef.within (l.released (.registry (.deregister storage thread))) id) 0 l
      (l.deregister storage thread).2 := by
  simp only [released, Ledger.deregister]
  split <;> rename_i hanswer <;> split at hanswer <;> rename_i he
  · cases hanswer
    rw [Roster.deregister_handles he]
    exact l.ages_release _ _ _ id
  · cases hanswer
  · cases hanswer
  · exact .of_spaces rfl

theorem ages_use (l : Ledger) (first : Use) (id : SpaceId) :
    AgesAt id (LocalRef.within (l.released first) id) (first.span id) l (l.use first) := by
  cases first with
  | ask site op =>
    cases site with
    | none => exact .of_spaces rfl
    | some site => exact l.ages_performIn site op id
  | write ref off new => exact l.ages_writeRef ref off new
  | localize space range access worker =>
    refine .quiet (fun a _ => ?_) id
    rw [Recorder.localize_space]
    exact a.space.ages_localize range.start range.len access worker
  | localizeAll space ranges access worker => exact l.ages_takenBack space ranges access worker id
  | unlocalize ref => exact l.ages_release l.roster ref.space [ref.mapping] id
  | registry op =>
    cases op with
    | deregister storage thread => exact l.ages_deregister storage thread id
    | register storage thread holder => exact .of_spaces rfl
    | close storage => exact .of_spaces rfl
    | record holder handle => exact .of_spaces rfl
  | addHolder owner => exact .of_spaces rfl

/-- What each use does to a space, all of them do together. -/
theorem ages_after (l : Ledger) (uses : List Use) (id : SpaceId) :
    AgesAt id (LocalRef.within (l.log uses) id) (Word.total (uses.map (Use.span id))) l (l.after uses) := by
  induction uses generalizing l with
  | nil => exact .of_spaces rfl
  | cons first rest ih =>
    rw [log, within_append, List.map_cons, Word.total_cons]
    exact (l.ages_use first id).trans (ih (l.use first))

/-! ## References -/

theorem exists_of_mapping? (hm : l.mapping? ref = some mapping) :
    ∃ a, l.spaces[ref.space]? = some a ∧ a.space.mappings[ref.mapping]? = some mapping := by
  obtain ⟨a, ha, hm⟩ := Option.bind_eq_some_iff.1 hm
  exact ⟨a, ha, hm⟩

/-- A space that is there after some uses was new, and has aged since. -/
theorem Unused.ages (h : l.Unused) (ha : (l.after uses).spaces[id]? = some a) :
    ∃ numHomes, Space.Ages (LocalRef.within (l.log uses) id) (Word.total (uses.map (Use.span id)))
      (Space.new numHomes) a.space := by
  have hages := l.ages_after uses id
  cases hfirst : l.spaces[id]? with
  | none => cases (hages.gone hfirst).symm.trans ha
  | some first =>
    obtain ⟨numHomes, hnew⟩ := h first (List.mem_of_getElem? hfirst)
    obtain ⟨last, hlast, hage⟩ := hages.aged first hfirst
    cases hlast.symm.trans ha
    exact ⟨numHomes, hnew ▸ hage⟩

theorem Unused.housed (h : l.Unused) (ha : (l.after uses).spaces[id]? = some a) : a.space.Housed := by
  obtain ⟨numHomes, hage⟩ := h.ages ha
  exact hage.housed (Space.housed_new numHomes)

theorem Unused.rooted (h : l.Unused) (ha : (l.after uses).spaces[id]? = some a)
    (hr : Use.reserved id uses ≤ Word.bound) : a.space.Rooted (Use.reserved id uses) := by
  obtain ⟨numHomes, hage⟩ := h.ages ha
  exact hage.rooted _ (Space.rooted_new numHomes) hr

theorem written_of_write (hhoused : a.space.Housed) (ha : l.spaces[ref.space]? = some a)
    (hm : a.space.mappings[ref.mapping]? = some mapping) {off : Nat} {new : Bytes}
    (hw : l.write ref off new = (.ok (), l')) : mapping.access.isWritable = true ∧ mapping.live = true ∧
      off + new.length ≤ mapping.len ∧
      l.Writes ref mapping (fun region => max mapping.start.addr region.base.addr + off) new l' := by
  rw [write_eq ha] at hw
  split at hw <;> cases hw
  rename_i s hs
  obtain ⟨hwritable, hlive, hle, region, bytes, hr, hover, rfl⟩ := hhoused.write_lands hm hs
  exact ⟨hwritable, hlive, hle, a, region, bytes, ha, hr, hover, rfl⟩

theorem Unused.honours (h : l.Unused) (uses : List Use) : (l.after uses).Honours (l.log uses) where
  live ref mapping hm := by
    obtain ⟨a, ha, hm⟩ := exists_of_mapping? hm
    obtain ⟨numHomes, hage⟩ := h.ages ha
    rw [hage.ends.made _ mapping hm (Nat.zero_le _), mem_within]
  read ref mapping hm hl := by
    obtain ⟨a, ha, hm⟩ := exists_of_mapping? hm
    simp only [Ledger.read, ha, Space.read_dead hm hl]
  refused ref mapping hm hl off new := by
    obtain ⟨a, ha, hm⟩ := exists_of_mapping? hm
    have hlen := ((h.housed ha).mapped mapping (List.mem_of_getElem? hm)).2
    rw [write_eq ha, Space.write_dead hm hlen hl]
  failed ref off new fault l' hw := by
    cases ha : (l.after uses).spaces[ref.space]? with
    | none =>
      simp only [Ledger.write, change, ha] at hw
      cases hw
      rfl
    | some a =>
      rw [write_eq ha] at hw
      split at hw <;> cases hw
      rfl
  written ref mapping off new l' hm hw := by
    obtain ⟨a, ha, hm⟩ := exists_of_mapping? hm
    exact written_of_write (h.housed ha) ha hm hw

/-- **A reference is good until it is released, and dead for good after that.** Whatever is done with new spaces, by
whomever and in any order: a reference is live just while its mapping is not released; a dead one reads nothing,
writes nothing and says why, and no later use revives it; a write that fails changes nothing; and one that succeeds
changes just its bytes in the region, from its place in the mapping on, or from its place in the region if that
starts higher, which it does not as long as the addresses last. -/
theorem after_honours (h : l.Unused) (uses : List Use) :
    (l.after uses).Honours (l.log uses) ∧
    (∀ ref mapping, (l.after uses).mapping? ref = some mapping → mapping.live = false →
      ∀ more, (l.after (uses ++ more)).mapping? ref = some mapping) ∧
    ∀ ref mapping off new l', Use.reserved ref.space uses ≤ Word.bound →
      (l.after uses).mapping? ref = some mapping → (l.after uses).write ref off new = (.ok (), l') →
      (l.after uses).Writes ref mapping (fun _ => mapping.start.addr + off) new l' := by
  refine ⟨h.honours uses, fun ref mapping hm hl more => ?_, fun ref mapping off new l' hr hm hw => ?_⟩
  · obtain ⟨a, ha, hm⟩ := exists_of_mapping? hm
    obtain ⟨a', ha', hage⟩ := ((l.after uses).ages_after more ref.space).aged a ha
    have hkept := hage.ends.kept _ mapping hm
    rw [Mapping.after_of_dead hl] at hkept
    rw [after_append]
    exact (mapping?_eq ha' ref.mapping).trans hkept
  · obtain ⟨a, ha, hm⟩ := exists_of_mapping? hm
    obtain ⟨_, _, _, a', region, bytes, ha', hr', hover, hl'⟩ := written_of_write (h.housed ha) ha hm hw
    cases ha.symm.trans ha'
    obtain ⟨found, hfound, hle⟩ := (h.rooted ha hr).inside mapping (List.mem_of_getElem? hm)
    cases hfound.symm.trans hr'
    simp only [Nat.max_eq_left hle] at hover
    exact ⟨a, region, bytes, ha, hr', hover, hl'⟩

/-- Each way to release a mapping, while others of the same blocks are made and stay. After that a segment takes the
place of another one, and what is written at `4100` is read at `4104`. -/
theorem after_honours_released :
    let l : Ledger := ⟨[Recorder.new 1], ⟨[], [Storage.fresh 0 0]⟩⟩
    let outside : Option Site := some ⟨0, 0, none⟩
    let body : Option Site := some ⟨0, 0, some 1⟩
    let uses : List Use := [.ask outside (.alloc 16 8), .addHolder none, .registry (.register 0 7 1),
      .localize 0 ⟨⟨4096⟩, 8⟩ .exclusive 0, .ask body (.localize ⟨4098⟩ 6 .exclusive), .ask body .unlocalize,
      .ask body (.localize ⟨4096⟩ 8 .exclusive), .registry (.deregister 0 7),
      .localizeAll 0 [⟨⟨4096⟩, 8⟩, ⟨⟨0⟩, 8⟩] .exclusive 0, .localize 0 ⟨⟨4096⟩, 8⟩ .exclusive 0, .unlocalize ⟨0, 4⟩]
    let again : List Use := [.localize 0 ⟨⟨4098⟩, 6⟩ .exclusive 0]
    let around : List Use := [.ask outside (.alloc 16 8), .localize 0 ⟨⟨4104⟩, 8⟩ .exclusive 0,
      .ask outside (.alloc 18446744073709539328 9223372036854775808), .ask outside (.alloc 16 4),
      .localize 0 ⟨⟨4100⟩, 4⟩ .exclusive 0]
    let dead : Mapping := ⟨⟨4098⟩, 6, .exclusive, 0, false⟩
    let live : Mapping := ⟨⟨4096⟩, 8, .exclusive, 0, true⟩
    l.Unused ∧ l.log uses = [⟨0, 1⟩, ⟨0, 2⟩, ⟨0, 3⟩, ⟨0, 4⟩] ∧ (l.after uses).Honours (l.log uses) ∧
      (l.after uses).mapping? ⟨0, 1⟩ = some dead ∧ (l.after (uses ++ again)).mapping? ⟨0, 1⟩ = some dead ∧
      (l.after uses).mapping? ⟨0, 0⟩ = some live ∧ (∃ l', (l.after uses).write ⟨0, 0⟩ 2 [7] = (.ok (), l') ∧
        (l.after uses).Writes ⟨0, 0⟩ live (fun _ => 4098) [7] l') ∧
      (l.after around).Honours (l.log around) ∧
      (l.after around).mapping? ⟨0, 0⟩ = some ⟨⟨4104⟩, 8, .exclusive, 0, true⟩ ∧
      (l.after around).mapping? ⟨0, 1⟩ = some ⟨⟨4100⟩, 4, .exclusive, 0, true⟩ ∧
      ((l.after around).write ⟨0, 1⟩ 0 [7]).2.read ⟨0, 0⟩ = .ok [7, 0, 0, 0, 0, 0, 0, 0] := by
  intro l outside body uses again around dead live
  have h : l.Unused := by simp [l, Unused, Recorder.new]
  have hdead : (l.after uses).mapping? ⟨0, 1⟩ = some dead := by decide
  have hlive : (l.after uses).mapping? ⟨0, 0⟩ = some live := by decide
  obtain ⟨hhonours, hstays, hwrites⟩ := after_honours h uses
  have hanswer : ((l.after uses).write ⟨0, 0⟩ 2 [7]).1 = .ok () := by decide
  have hagain := hstays ⟨0, 1⟩ dead hdead rfl again
  rcases hw : (l.after uses).write ⟨0, 0⟩ 2 [7] with ⟨answer, l'⟩
  rw [hw] at hanswer
  obtain rfl : answer = .ok () := hanswer
  have hreserved : Use.reserved 0 uses ≤ Word.bound := by decide
  have hwritten := hwrites ⟨0, 0⟩ live 2 [7] l' hreserved hlive hw
  refine ⟨h, by decide, hhonours, hdead, hagain, hlive, ⟨l', rfl, hwritten⟩, (after_honours h around).1, ?_, ?_, ?_⟩
  · decide
  · decide
  · decide

/-! ## Runs of a machine -/

theorem uses_openBracket {storage : StorageId} {thread : ThreadId} {owner : Option TaskId} {parent : Option HolderId}
    {answer : Except RegistryError Bracket} (h : l.openBracket storage thread owner parent = (answer, l')) :
    ∃ uses, l' = l.after uses := by
  refine ⟨[.addHolder owner, .registry (.register storage thread (l.addHolder owner).1)], ?_⟩
  simp only [Ledger.openBracket] at h
  split at h <;> rename_i he <;> cases h <;> exact (congrArg Prod.snd he).symm

theorem uses_closeBracket {thread : ThreadId} {b : Bracket} {answer : Except RegistryError Unit}
    (h : l.closeBracket thread b = (answer, l')) : ∃ uses, l' = l.after uses := by
  refine ⟨[.registry (.deregister b.storage thread)], ?_⟩
  simp only [Ledger.closeBracket, Ledger.deregisterOwn] at h
  split at h <;> rename_i he
  · cases h
    exact (congrArg Prod.snd he).symm
  · split at h <;> cases h <;> exact (congrArg Prod.snd he).symm

end Ledger

namespace Machine

variable {σ : Type} {m rest : Machine σ} {k : Nat} {es : TaskId → List Event} {id : ThreadId} {th th' : Thread σ}

/-- Whatever a thread does in a step, it uses the spaces and the roster at most. -/
theorem Hosts.uses (h : m.Hosts k es) (hth : m.threads[id]? = some th) (hm : m.Move id th rest th')
    (hcrash : rest.crash = none) : ∃ uses, rest.ledger = m.ledger.after uses := by
  cases hm with
  | answered _ ha =>
    cases ha with
    | call r next =>
      cases r with
      | memory op => exact ⟨[.ask (m.site th) op], rfl⟩
      | write ref off new => exact ⟨[.write ref off new], rfl⟩
      | _ => exact ⟨[], rfl⟩
    | _ => exact ⟨[], rfl⟩
  | launched hctl => exact (h.controlFits hth hctl).2.elim
  | rooted _ _ _ ho | began _ _ _ ho => exact Ledger.uses_openBracket ho
  | left _ _ hc | leftRoot _ _ hc => exact Ledger.uses_closeBracket hc
  | exited => exact ⟨[.registry (.close _)], rfl⟩
  | @closed runtime rt _ storage =>
    obtain ⟨left, crash, he⟩ := dropQueues_eq (m.closeStorage storage) (queued rt.queues)
    rw [he]
    exact ⟨[.registry (.close storage)], rfl⟩
  | crashed => cases hcrash
  | _ => exact ⟨[], rfl⟩

variable {parallelism : Nat} {spaces : List Recorder} {shared : σ} {settings : Settings} {given : Option SpaceId}
  {next : Except BuildError RuntimeId → Body σ} {config : Config}

/-- A run on new spaces does no more with them and with the roster than to use them. -/
theorem run_uses (h : Launches parallelism spaces settings given config) (hnext : (next (.ok 0)).Allowed .outside)
    (hnew : ∀ a ∈ spaces, ∃ numHomes, a.space = Space.new numHomes)
    (hown : ∀ s, settings.space = some s → ∃ numHomes, s = Space.new numHomes)
    {schedule : List (ThreadId × Choice)} {turns : Turns σ}
    (hrun : trail advance (start parallelism spaces shared (.build settings given next)) schedule = some (turns, m)) :
    ∃ (l : Ledger) (uses : List Use), l.Unused ∧ m.ledger = l.after uses := by
  rcases launch_run h hrun with ⟨rfl, rfl⟩ | ⟨choice, launched, rest, later, hlaunched, hstep, hrest, rfl⟩
  · exact ⟨⟨spaces, .empty⟩, [], hnew, rfl⟩
  · have hhosts := hosts_launch h hnext shared (.build settings given next)
    rw [← hlaunched] at hhosts
    have hunused : launched.ledger.Unused := by
      obtain ⟨workers, hconfig⟩ := Settings.space_of_toConfig h.accepted
      subst hlaunched
      cases given with
      | some space =>
        simp only [launch, start, addStorages_append]
        exact hnew
      | none =>
        simp only [launch, start, Ledger.addSpace, addStorages_append]
        intro a ha
        rcases List.mem_append.1 ha with ha | ha
        · exact hnew a ha
        · rw [List.mem_singleton.1 ha, hconfig]
          cases hs : settings.space with
          | none => exact ⟨workers, rfl⟩
          | some s => exact hown s hs
    have hkept := trail_induction (P := fun _ m =>
      (∃ es, m.Hosts config.poolSize es) ∧ ∃ uses, m.ledger = launched.ledger.after uses) ?_
      ⟨⟨_, hhosts⟩, [], rfl⟩ hrest
    · obtain ⟨_, uses, huses⟩ := hkept
      exact ⟨launched.ledger, uses, hunused, huses⟩
    · rintro turns m act m' ⟨⟨es, hm⟩, uses, huses⟩ hs
      obtain ⟨id, choice⟩ := act
      obtain ⟨th, rest, th', hth, hmove, rfl, hm'⟩ := hm.step hs
      obtain ⟨more, hmore⟩ := hm.uses hth hmove hm'.crash
      exact ⟨⟨_, hm'⟩, uses ++ more, by rw [Ledger.after_append, ← huses]; exact hmore⟩

end Machine

end TaskSpace

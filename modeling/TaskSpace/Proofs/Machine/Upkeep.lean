import TaskSpace.Proofs.Machine.Footprint
import TaskSpace.Proofs.Memory.Ownership

/-!
# What every step keeps

Whatever a thread does in a step, runtimes keep their configuration, their space, their storages and their
slots, storages keep their workers, and spaces keep to their homes. So what a runtime had when it was
launched it has in every later state.
-/

namespace TaskSpace

variable {σ : Type}

/-- A space that has some homes has them still. -/
def Space.KeepsHomes (s s' : Space) : Prop := ∀ n, s.Homed n → s'.Homed n

theorem Space.KeepsHomes.of_same {s s' : Space} (h : SameSegments s s') : KeepsHomes s s' := fun _ => h.homed

/-! ## Rosters -/

namespace Roster

variable {r : Roster} {id : StorageId}

/-- The worker of each storage. -/
def workers (r : Roster) : List WorkerId := r.storages.map Storage.worker

theorem workers_updateStorage {f : Storage → Storage}
    (hf : ∀ s, r.storages[id]? = some s → (f s).worker = s.worker) :
    (r.updateStorage id f).workers = r.workers := by
  refine List.ext_getElem? fun place => ?_
  rw [workers, workers, List.getElem?_map, List.getElem?_map, updateStorage, List.getElem?_modify]
  cases hs : r.storages[place]? with
  | none => rfl
  | some s =>
    by_cases he : id = place
    · subst he
      simp [hf s hs]
    · simp [he]

theorem workers_updateHolder (r : Roster) (holder : HolderId) (f : Holder → Holder) :
    (r.updateHolder holder f).workers = r.workers := by
  rw [workers, storages_updateHolder, workers]

theorem workers_checkThread (r : Roster) (id : StorageId) (s : Storage) (thread : ThreadId) :
    (r.checkThread id s thread).2.workers = r.workers := by
  unfold checkThread
  split
  · exact workers_updateStorage fun _ _ => rfl
  · split <;> rfl

theorem workers_register (r : Roster) (id : StorageId) (thread : ThreadId) (holder : HolderId) :
    (r.register id thread holder).2.workers = r.workers := by
  unfold register
  split
  · rename_i s h hs hh
    have hcheck := r.workers_checkThread id s thread
    split <;> rename_i he <;> rw [he] at hcheck
    · exact hcheck
    · split
      · exact hcheck
      · split
        · exact hcheck
        · refine (workers_updateStorage fun old _ => ?_).trans ((workers_updateHolder _ _ _).trans hcheck)
          exact (rfl : (old.push holder).worker = old.worker)
  · rfl

theorem worker_of_storage {s : Storage} (hs : r.storages[id]? = some s) : r.workers[id]? = some s.worker := by
  rw [workers, List.getElem?_map, hs]
  rfl

theorem worker_of_pop {s rest : Storage} {top : HolderId} (h : s.pop = some (top, rest)) :
    rest.worker = s.worker := by
  obtain ⟨_, _, h⟩ := Option.bind_eq_some_iff.1 h
  obtain ⟨_, _, h⟩ := Option.bind_eq_some_iff.1 h
  cases h
  rfl

theorem workers_deregister (r : Roster) (id : StorageId) (thread : ThreadId) :
    (r.deregister id thread).2.workers = r.workers := by
  unfold deregister
  split
  · rfl
  · rename_i s hs
    have hcheck := r.workers_checkThread id s thread
    split <;> rename_i he <;> rw [he] at hcheck
    · exact hcheck
    · split
      · exact hcheck
      · rename_i _ checked _ top rest hpop
        have hkept : ((checked.updateHolder top fun h => { h with mark := Holder.unregistered }).drain top).2.workers =
            r.workers := (workers_updateHolder ..).trans ((workers_updateHolder ..).trans hcheck)
        refine (workers_updateStorage fun old hold => ?_).trans hkept
        have hworker :=
          (worker_of_storage hold).symm.trans ((congrArg (·[id]?) hkept).trans (worker_of_storage hs))
        exact (worker_of_pop hpop).trans (Option.some.inj hworker).symm

end Roster

theorem Recorder.localize_space (a : Recorder) (ptr : Pointer) (len : Nat) (access : Access) (worker : WorkerId) :
    (AddressSpace.localize a ptr len access worker).2.space = (a.space.localize ptr len access worker).2 := by
  rw [Recorder.localize_eq, Recorder.localize]
  split <;> rename_i he <;> rw [he]

/-! ## Ledgers -/

namespace Ledger

variable {l l' : Ledger} {space : SpaceId} {a a' : Recorder}

/-- Every space keeps to its homes, and every storage is that of the same worker. -/
structure Keeps (l l' : Ledger) : Prop where
  spaces : ∀ (id : SpaceId) (a : Recorder), l.spaces[id]? = some a →
    ∃ a', l'.spaces[id]? = some a' ∧ a.space.KeepsHomes a'.space
  workers : l.roster.workers <+: l'.roster.workers

theorem Keeps.refl (l : Ledger) : l.Keeps l := ⟨fun _ a ha => ⟨a, ha, fun _ h => h⟩, List.prefix_rfl⟩

theorem Keeps.trans {l'' : Ledger} (h : l.Keeps l') (h' : l'.Keeps l'') : l.Keeps l'' where
  spaces id a ha := by
    obtain ⟨a', ha', hk⟩ := h.spaces id a ha
    obtain ⟨a'', ha'', hk'⟩ := h'.spaces id a' ha'
    exact ⟨a'', ha'', fun n hn => hk' n (hk n hn)⟩
  workers := h.workers.trans h'.workers

theorem keeps_updateSpace (ha : l.spaces[space]? = some a) (hk : a.space.KeepsHomes a'.space) :
    l.Keeps (l.updateSpace space fun _ => a') where
  spaces id b hb := by
    rcases updateSpace_cases a' ha hb with ⟨_, rfl, hs⟩ | hs
    · exact ⟨a', hs, hk⟩
    · exact ⟨b, hs, fun _ h => h⟩
  workers := List.prefix_rfl

/-- A change of the roster that keeps the workers of the storages. -/
theorem keeps_roster {roster : Roster} (h : roster.workers = l.roster.workers) : l.Keeps { l with roster } where
  spaces _ a ha := ⟨a, ha, fun _ h => h⟩
  workers := h ▸ List.prefix_rfl

theorem keeps_change {op : Recorder → Except Fault Recorder}
    (hop : ∀ a a', op a = .ok a' → a.space.KeepsHomes a'.space) : l.Keeps (l.change space op).2 := by
  unfold change
  split
  · exact .refl l
  · rename_i a ha
    split
    · rename_i a' he
      exact keeps_updateSpace ha (hop a a' he)
    · exact .refl l

theorem keeps_keep {answer : Except Fault Space} (hs : ∀ s, answer = .ok s → a.space.KeepsHomes s)
    (h : a.keep answer = .ok a') : a.space.KeepsHomes a'.space := by
  cases answer with
  | error fault => cases h
  | ok s =>
    cases h
    exact hs s rfl

theorem keeps_write (l : Ledger) (ref : LocalRef) (off : Nat) (bytes : Bytes) :
    l.Keeps (l.write ref off bytes).2 :=
  keeps_change fun _ _ he => keeps_keep (fun _ hw => .of_same (Space.write_sameSegments hw)) he

theorem keeps_commit (l : Ledger) (space : SpaceId) (ref : LocalRef) : l.Keeps (l.commit space ref).2 := by
  unfold Ledger.commit
  split
  · exact .refl l
  · exact keeps_change fun _ _ he => keeps_keep (fun _ hw _ hn => hn.put hw) he
  · exact .refl l

theorem keeps_commitAll (l : Ledger) (space : SpaceId) (refs : List LocalRef) :
    l.Keeps (l.commitAll space refs).2 := by
  induction refs generalizing l with
  | nil => exact .refl l
  | cons ref rest ih =>
    have hone := l.keeps_commit space ref
    unfold Ledger.commitAll
    split <;> rename_i he <;> rw [he] at hone
    · exact hone
    · exact hone.trans (ih _)

theorem keeps_record (l : Ledger) (holder : HolderId) (ids : List MappingId) :
    l.Keeps (ids.foldl (fun l id => l.record holder id) l) := by
  rw [foldl_record]
  exact keeps_roster (Roster.workers_updateHolder ..)

theorem keeps_release (l : Ledger) (space : SpaceId) (handles : List MappingId) :
    l.Keeps (l.release space handles) where
  spaces id a ha := by
    by_cases he : space = id
    · subst he
      refine ⟨AddressSpace.unlocalizeAll a handles, spaces_updateSpace ha _, ?_⟩
      rw [Recorder.unlocalizeAll_space]
      exact .of_same (Space.unlocalizeAll_sameSegments a.space handles)
    · exact ⟨a, by rw [Ledger.release, updateSpace, List.getElem?_modify_ne _ _ he, ha], fun _ hn => hn⟩
  workers := List.prefix_rfl

theorem keeps_localize (l : Ledger) (space : SpaceId) (worker : WorkerId) (holder : HolderId) (ptr : Pointer)
    (len : Nat) (access : Access) : l.Keeps (l.localize space worker holder ptr len access).2 := by
  unfold Ledger.localize
  split
  · exact .refl l
  · rename_i a ha
    have hk : a.space.KeepsHomes (AddressSpace.localize a ptr len access worker).2.space := fun n hn => by
      rw [Recorder.localize_space]
      exact hn.localize ptr len access worker
    split <;> rename_i he <;> rw [he] at hk
    · exact (keeps_updateSpace ha hk).trans (keeps_record _ holder [_])
    · exact keeps_updateSpace ha hk

theorem keeps_localizeAll (l : Ledger) (space : SpaceId) (worker : WorkerId) (holder : HolderId)
    (ranges : List Range) (access : Access) : l.Keeps (l.localizeAll space worker holder ranges access).2 := by
  unfold Ledger.localizeAll
  split
  · exact .refl l
  · rename_i a ha
    have hk : a.space.KeepsHomes (AddressSpace.localizeAll a ranges access worker).2.space := fun n hn => by
      rw [AddressSpace.localizeAll, (a.localizeRest_space access worker [] ranges).2]
      exact hn.localizeRest access worker [] ranges
    split <;> rename_i he <;> rw [he] at hk
    · exact (keeps_updateSpace ha hk).trans (keeps_record _ holder _)
    · exact keeps_updateSpace ha hk

theorem keeps_unlocalize (l : Ledger) (space : SpaceId) (holder : HolderId) :
    l.Keeps (l.unlocalize space holder).2 :=
  (keeps_roster (Roster.workers_updateHolder ..)).trans (keeps_release _ space _)

theorem keeps_performIn (l : Ledger) (space : SpaceId) (worker : WorkerId) (holder : Option HolderId)
    (op : MemoryOp) : l.Keeps (l.performIn space worker holder op).2 := by
  cases op with
  | alloc size blockSize =>
    simp only [performIn]
    cases ha : l.spaces[space]? with
    | none => exact .refl l
    | some a => exact keeps_updateSpace ha fun _ hn => hn.alloc size blockSize
  | dealloc ptr => exact keeps_change fun _ _ he => keeps_keep (fun _ hd _ hn => hn.dealloc hd) he
  | put ptr bytes => exact keeps_change fun _ _ he => keeps_keep (fun _ hw _ hn => hn.put hw) he
  | fill ptr value len =>
    exact keeps_change fun _ _ he => keeps_keep (fun _ hw _ hn => hn.put (Space.fill_eq_put _ _ _ _ ▸ hw)) he
  | rmw ptr len update =>
    simp only [performIn, look]
    cases ha : l.spaces[space]? with
    | none => exact .refl l
    | some a =>
      simp only [AddressSpace.rmw]
      cases hw : a.space.rmw ptr len update with
      | error fault => exact .refl l
      | ok result => exact keeps_updateSpace ha fun _ hn => hn.rmw hw
  | get ptr len => exact .refl l
  | homeOf ptr => exact .refl l
  | commit ref => exact l.keeps_commit space ref
  | commitAll refs => exact l.keeps_commitAll space refs
  | localize ptr len access =>
    cases holder with
    | none => exact .refl l
    | some holder => exact l.keeps_localize space worker holder ptr len access
  | localizeAll ranges access =>
    cases holder with
    | none => exact .refl l
    | some holder => exact l.keeps_localizeAll space worker holder ranges access
  | unlocalize =>
    cases holder with
    | none => exact .refl l
    | some holder => exact l.keeps_unlocalize space holder

theorem keeps_openBracket {storage : StorageId} {thread : ThreadId} {owner : Option TaskId}
    {parent : Option HolderId} {answer : Except RegistryError Bracket}
    (h : l.openBracket storage thread owner parent = (answer, l')) : l.Keeps l' := by
  have hreg := (l.roster.addHolder owner).2.workers_register storage thread (l.roster.addHolder owner).1
  simp only [Ledger.openBracket, Ledger.register, Ledger.addHolder] at h
  split at h <;> rename_i he <;> obtain ⟨-, rfl⟩ := Prod.mk.inj he <;> cases h <;> exact keeps_roster hreg

theorem keeps_deregister (l : Ledger) (storage : StorageId) (thread : ThreadId) :
    l.Keeps (l.deregister storage thread).2 := by
  have hworkers := l.roster.workers_deregister storage thread
  simp only [Ledger.deregister]
  split <;> rename_i he <;> rw [he] at hworkers
  · exact (keeps_roster hworkers).trans (keeps_release _ _ _)
  · exact keeps_roster hworkers

theorem keeps_closeBracket {thread : ThreadId} {b : Bracket} {answer : Except RegistryError Unit}
    (h : l.closeBracket thread b = (answer, l')) : l.Keeps l' := by
  have hk := l.keeps_deregister b.storage thread
  simp only [Ledger.closeBracket, Ledger.deregisterOwn] at h
  split at h <;> rename_i he <;> rw [he] at hk
  · cases h
    exact hk
  · split at h <;> cases h <;> exact hk

theorem keeps_addSpace (l : Ledger) (space : Recorder) : l.Keeps (l.addSpace space).2 where
  spaces _ a ha := ⟨a, List.getElem?_append_left (List.getElem?_eq_some_iff.1 ha).1 ▸ ha, fun _ h => h⟩
  workers := List.prefix_rfl

end Ledger

/-! ## Runtimes -/

/-- What a runtime is launched with stays as it is. -/
structure Runtime.Keeps (rt rt' : Runtime) : Prop where
  config : rt'.config = rt.config
  space : rt'.space = rt.space
  storages : rt'.storages = rt.storages
  table : rt'.lot.slots.table = rt.lot.slots.table
  outer : rt'.outer = rt.outer

theorem Runtime.Keeps.refl (rt : Runtime) : rt.Keeps rt := ⟨rfl, rfl, rfl, rfl, rfl⟩

namespace Machine

variable {m m' rest : Machine σ} {id : ThreadId} {th th' : Thread σ} {config : Config}

theorem keeps_answer (m : Machine σ) (th : Thread σ) (r : Request) : m.ledger.Keeps (m.answer th r).2 := by
  cases r with
  | memory op =>
    simp only [answer, Ledger.perform]
    cases m.site th with
    | none => exact .refl _
    | some site => exact m.ledger.keeps_performIn ..
  | write ref off bytes => exact m.ledger.keeps_write ref off bytes
  | _ => exact .refl _

theorem keeps_closeStorage (m : Machine σ) (storage : StorageId) :
    m.ledger.Keeps (m.closeStorage storage).ledger :=
  Ledger.keeps_roster (Roster.workers_updateStorage fun s _ => (rfl : s.close.worker = s.worker))

/-- One runtime changes at most, and it stays what it was launched as. -/
def Tends (m m' : Machine σ) : Prop :=
  ∃ runtime f, (∀ rt, m.runtimes[runtime]? = some rt → rt.Keeps (f rt)) ∧
    m'.runtimes = m.runtimes.modify runtime f ∧ m.ledger.Keeps m'.ledger

theorem Tends.of_same (he : m'.runtimes = m.runtimes) (hk : m.ledger.Keeps m'.ledger) : m.Tends m' :=
  ⟨0, fun rt => rt, fun rt _ => .refl rt, he.trans (List.modify_id _ _).symm, hk⟩

theorem Tends.update {runtime : RuntimeId} {f : Runtime → Runtime} (he : m'.runtimes = m.runtimes.modify runtime f)
    (hf : ∀ rt, m.runtimes[runtime]? = some rt → rt.Keeps (f rt)) (hk : m.ledger.Keeps m'.ledger) : m.Tends m' :=
  ⟨runtime, f, hf, he, hk⟩

/-- Waking and parking change no more of a runtime than the signs in its slots. -/
theorem Tends.lot {runtime : RuntimeId} {rt : Runtime} {lot : Lot} (hrt : m.runtimes[runtime]? = some rt)
    (ht : lot.slots.table = rt.lot.slots.table) : m.Tends (m.updateRuntime runtime fun rt => { rt with lot }) := by
  refine .update rfl (fun old hold => ?_) (.refl _)
  cases hrt.symm.trans hold
  exact ⟨rfl, rfl, rfl, ht, rfl⟩

/-- A step tends the runtimes that are there, or it launches one more. -/
theorem Move.tends (hm : m.Move id th rest th') (hcrash : rest.crash = none) : m.Tends rest ∨
    ∃ settings space next config, th.control = .run (.build settings space next) ∧
      rest.runtimes = (m.launch id th config space next).runtimes ∧
      rest.ledger = (m.launch id th config space next).ledger := by
  cases hm with
  | answered _ ha =>
    cases ha with
    | call r next => exact .inl (.of_same rfl (m.keeps_answer th r))
    | _ => exact .inl (.of_same rfl (.refl _))
  | launched hctl => exact .inr ⟨_, _, _, _, hctl, rfl, rfl⟩
  | spawned => exact .inl (.update rfl (fun _ _ => ⟨rfl, rfl, rfl, rfl, rfl⟩) (.refl _))
  | rooted _ _ _ ho | began _ _ _ ho => exact .inl (.of_same rfl (Ledger.keeps_openBracket ho))
  | left _ _ hc | leftRoot _ _ hc => exact .inl (.of_same rfl (Ledger.keeps_closeBracket hc))
  | woke _ hrt hlot => exact .inl (.lot hrt (Lot.table_unparkOne hlot))
  | parked _ _ hrt hlot => exact .inl (.lot hrt (Lot.table_park hlot))
  | rang _ hrt hlot => exact .inl (.lot hrt (Lot.table_unparkAll hlot))
  | found | stopped => exact .inl (.update rfl (fun _ _ => ⟨rfl, rfl, rfl, rfl, rfl⟩) (.refl _))
  | exited => exact .inl (.of_same rfl (m.keeps_closeStorage _))
  | @closed runtime rt _ storage =>
    obtain ⟨left, crash, he⟩ := dropQueues_eq (m.closeStorage storage) (queued rt.queues)
    rw [he]
    exact .inl (.update rfl (fun _ _ => ⟨rfl, rfl, rfl, rfl, rfl⟩) (m.keeps_closeStorage storage))
  | crashed => cases hcrash
  | _ => exact .inl (.of_same rfl (.refl _))

end Machine

end TaskSpace

import TaskSpace.Proofs.Registry.Sound

/-!
# The registries are disjoint stacks

`Stacks` has no maps, links or marks: a list of stacks of holders, and the handles recorded in each
holder. The registries answer every sequence of calls as the stacks do, and stay a picture of them.
-/

namespace TaskSpace

/-- A stack of holders, top first, and the thread that may use it, once there is one. -/
structure HolderStack where
  worker : WorkerId
  space : SpaceId
  owner : Option ThreadId
  closed : Bool
  holders : List HolderId

structure Stacks where
  all : List HolderStack
  handles : HolderId → List MappingId

inductive RegistryOp where
  | register (storage : StorageId) (thread : ThreadId) (holder : HolderId)
  | deregister (storage : StorageId) (thread : ThreadId)
  | close (storage : StorageId)
  | record (holder : HolderId) (handle : MappingId)

def RegistryOp.Names (storages holders : Nat) : RegistryOp → Prop
  | register storage _ holder => storage < storages ∧ 0 < holder ∧ holder ≤ holders
  | deregister storage _ => storage < storages
  | close storage => storage < storages
  | record holder _ => 0 < holder ∧ holder ≤ holders

instance (storages holders : Nat) : (op : RegistryOp) → Decidable (op.Names storages holders)
  | .register .. | .record .. => inferInstanceAs (Decidable (_ ∧ _))
  | .deregister .. | .close .. => inferInstanceAs (Decidable (_ < _))

/-- What a call answers, which handles it releases, each in its space and in order, and the stacks
after it. -/
structure StackOutcome where
  answer : Except RegistryError (Option HolderId)
  released : List (SpaceId × MappingId)
  after : Stacks

/-! ## The stacks -/

namespace Stacks

def update (t : Stacks) (id : StorageId) (f : HolderStack → HolderStack) : Stacks :=
  { t with all := t.all.modify id f }

def setHandles (t : Stacks) (holder : HolderId) (handles : List MappingId) : Stacks :=
  { t with handles := fun other => if other = holder then handles else t.handles other }

def on (t : Stacks) (holder : HolderId) : Option HolderStack :=
  t.all.find? fun k => holder ∈ k.holders

/-- A stack belongs to the first thread that asks for it; any other thread is turned away. -/
def guarded (t : Stacks) (id : StorageId) (thread : ThreadId)
    (use : HolderStack → Stacks → StackOutcome) : StackOutcome :=
  match t.all[id]? with
  | none => ⟨.ok none, [], t⟩
  | some k =>
    if k.owner.getD thread = thread then use k (t.update id fun k => { k with owner := some thread })
    else ⟨.error (.foreignThread k.worker (k.owner.getD thread) thread), [], t⟩

/-- A holder that is on no stack is pushed, if the stack is not closed. -/
def register (t : Stacks) (id : StorageId) (thread : ThreadId) (holder : HolderId) : StackOutcome :=
  t.guarded id thread fun k t =>
    if k.closed then ⟨.error (.closed k.worker), [], t⟩
    else
      match t.on holder with
      | some other => ⟨.error (.alreadyRegistered holder other.worker), [], t⟩
      | none => ⟨.ok none, [], t.update id fun k => { k with holders := holder :: k.holders }⟩

/-- The top is popped, closed or not, and what was recorded in it is released. -/
def deregister (t : Stacks) (id : StorageId) (thread : ThreadId) : StackOutcome :=
  t.guarded id thread fun k t =>
    match k.holders with
    | [] => ⟨.error (.notRegistered k.worker), [], t⟩
    | top :: rest =>
      ⟨.ok (some top), (t.handles top).map fun handle => (k.space, handle),
        (t.update id fun k => { k with holders := rest }).setHandles top []⟩

def perform (t : Stacks) : RegistryOp → StackOutcome
  | .register id thread holder => t.register id thread holder
  | .deregister id thread => t.deregister id thread
  | .close id => ⟨.ok none, [], t.update id fun k => { k with closed := true }⟩
  | .record holder handle => ⟨.ok none, [], t.setHandles holder (t.handles holder ++ [handle])⟩

/-- The answers of some calls, everything they release, and the stacks after them. -/
def run (t : Stacks) : List RegistryOp →
    List (Except RegistryError (Option HolderId)) × List (SpaceId × MappingId) × Stacks
  | [] => ([], [], t)
  | op :: rest =>
    let o := t.perform op
    let (answers, released, after) := o.after.run rest
    (o.answer :: answers, o.released ++ released, after)

def start (workers : List (WorkerId × SpaceId)) : Stacks where
  all := workers.map fun w => ⟨w.1, w.2, none, false, []⟩
  handles _ := []

/-- No holder is on two stacks, or on one stack twice. -/
structure Disjoint (t : Stacks) : Prop where
  nodup : ∀ k ∈ t.all, k.holders.Nodup
  apart : ∀ (i j : Nat) (a b : HolderStack), t.all[i]? = some a → t.all[j]? = some b →
    ∀ holder, holder ∈ a.holders → holder ∈ b.holders → i = j

end Stacks

/-! ## The stacks of a roster -/

def Storage.toStack (s : Storage) : HolderStack := ⟨s.worker, s.space, s.owner, s.closed, s.active⟩

namespace Roster

variable {r : Roster} {id : StorageId} {holder : HolderId} {thread : ThreadId} {s : Storage}
  {h : Holder}

def toStacks (r : Roster) : Stacks where
  all := r.storages.map Storage.toStack
  handles holder := ((r.holder? holder).map Holder.handles).getD []

theorem toStacks_updateStorage (hs : r.storages[id]? = some s) {f : Storage → Storage}
    {g : HolderStack → HolderStack} (hf : (f s).toStack = g s.toStack) :
    (r.updateStorage id f).toStacks = r.toStacks.update id g := by
  have hstacks : (r.updateStorage id f).storages.map Storage.toStack =
      (r.storages.map Storage.toStack).modify id g := by
    refine List.ext_getElem? fun other => ?_
    by_cases he : other = id
    · subst he
      simp [storage_updateStorage hs, hs, hf]
    · simp only [List.getElem?_map, storage_updateStorage_ne he, List.getElem?_modify_ne _ _ (Ne.symm he)]
  simp only [toStacks, Stacks.update, hstacks]
  rfl

theorem toStacks_updateHolder {f : Holder → Holder} (hf : ∀ h, (f h).handles = h.handles) :
    (r.updateHolder holder f).toStacks = r.toStacks := by
  simp only [toStacks, storages_updateHolder, Stacks.mk.injEq, true_and]
  funext other
  rw [holder?_updateHolder]
  split
  · rw [Option.map_map, show Holder.handles ∘ f = Holder.handles from funext hf]
  · rfl

theorem toStacks_setHandles (hh : r.holder? holder = some h) (f : Holder → Holder) :
    (r.updateHolder holder f).toStacks = r.toStacks.setHandles holder (f h).handles := by
  simp only [toStacks, Stacks.setHandles, storages_updateHolder, Stacks.mk.injEq, true_and]
  funext other
  rw [holder?_updateHolder]
  by_cases he : holder = other
  · subst he; simp [hh]
  · rw [if_neg he, if_neg (fun h => he h.symm)]

/-- A holder is on a stack exactly when it is marked, and then with the worker of that stack. -/
theorem Sound.on_eq (hr : r.Sound) (holder : HolderId) :
    (r.toStacks.on holder).map HolderStack.worker =
      if r.markOf holder = Holder.unregistered then none else some (r.markOf holder) := by
  have hactive : ∀ {k}, k ∈ r.toStacks.all → ∃ (id : StorageId) (s : Storage),
      r.storages[id]? = some s ∧ k.worker = s.worker ∧ k.holders = s.stack := by
    intro k hk
    obtain ⟨s, hs, rfl⟩ := List.mem_map.1 hk
    obtain ⟨id, hid⟩ := List.mem_iff_getElem?.1 hs
    exact ⟨id, s, hid, rfl, (hr.linked id s hid).active_eq⟩
  cases hon : r.toStacks.on holder with
  | none =>
    rw [if_pos, Option.map_none]
    by_cases hm : r.markOf holder = Holder.unregistered
    · exact hm
    · obtain ⟨id, s, hs, hin⟩ := hr.stacked holder hm
      have hk := List.find?_eq_none.1 hon s.toStack (List.mem_map_of_mem (List.mem_of_getElem? hs))
      have hin : holder ∈ s.active := (hr.linked id s hs).active_eq.symm ▸ hin
      simp only [decide_eq_true_eq] at hk
      exact absurd hin hk
  | some k =>
    obtain ⟨id, s, hs, hw, hh⟩ := hactive (List.mem_of_find?_eq_some hon)
    have hin : holder ∈ k.holders := by simpa using List.find?_some hon
    have hm := hr.marked id s hs holder (hh ▸ hin)
    rw [if_neg (hm ▸ hr.worker id s hs), Option.map_some, hw, hm]

/-- Whether a thread may use a storage, and that the first one to ask binds it. -/
theorem checkThread_eq (hs : r.storages[id]? = some s) (thread : ThreadId) :
    r.checkThread id s thread =
      if s.owner.getD thread = thread then (.ok (), r.updateStorage id (·.bind thread))
      else (.error (.foreignThread s.worker (s.owner.getD thread) thread), r) := by
  unfold checkThread
  cases ho : s.owner with
  | none => simp
  | some owner =>
    simp only [Option.getD_some]
    split
    · rename_i he
      have hbind : s.bind thread = s := by cases s; cases ho; rfl
      have hsame : r.updateStorage id (·.bind thread) = r := by
        simp only [updateStorage]
        congr 1
        refine List.ext_getElem? fun other => ?_
        by_cases hid : id = other
        · subst hid; simp [hs, hbind]
        · rw [List.getElem?_modify_ne _ _ hid]
      rw [hsame]
    · rfl

theorem Sound.bound (hr : r.Sound) (hs : r.storages[id]? = some s)
    (ho : s.owner.getD thread = thread) :
    (r.updateStorage id (·.bind thread)).Sound ∧
      (r.updateStorage id (·.bind thread)).storages[id]? = some (s.bind thread) ∧
      (r.updateStorage id (·.bind thread)).toStacks =
        r.toStacks.update id fun k => { k with owner := some thread } := by
  refine ⟨hr.updateStorage hs rfl rfl rfl, storage_updateStorage hs _, toStacks_updateStorage hs ?_⟩
  have howner : (s.bind thread).owner = some thread := by
    unfold Storage.bind
    cases hso : s.owner with
    | none => rfl
    | some owner => rw [hso] at ho; exact congrArg some ho
  have hactive : (s.bind thread).active = s.active := Storage.active_congr rfl rfl
  simp only [Storage.toStack, howner, hactive]
  rfl

/-- A roster and its stacks turn the same threads away, and go on alike for the others. -/
theorem guarded_eq (hs : r.storages[id]? = some s) (thread : ThreadId)
    (use : HolderStack → Stacks → StackOutcome) :
    r.toStacks.guarded id thread use =
      if s.owner.getD thread = thread then
        use s.toStack (r.toStacks.update id fun k => { k with owner := some thread })
      else ⟨.error (.foreignThread s.worker (s.owner.getD thread) thread), [], r.toStacks⟩ := by
  have hk : r.toStacks.all[id]? = some s.toStack := by simp [toStacks, hs]
  simp only [Stacks.guarded, hk]
  rfl

theorem Sound.push_stacks (hr : r.Sound) (hs : r.storages[id]? = some s)
    (hm : r.markOf holder = Holder.unregistered) (mark : Nat) :
    ((r.updateHolder holder fun h => { h with mark }).updateStorage id (·.push holder)).toStacks =
      r.toStacks.update id fun k => { k with holders := holder :: k.holders } := by
  obtain ⟨hl, hst⟩ := (hr.linked id s hs).push (hr.not_mem_stack hm hs)
  have hactive : (s.push holder).active = holder :: s.active := by
    rw [hl.active_eq, hst, (hr.linked id s hs).active_eq]
  have hs' : (r.updateHolder holder fun h => { h with mark }).storages[id]? = some s := by
    rw [storages_updateHolder, hs]
  have hview : (s.push holder).toStack = { s.toStack with holders := holder :: s.active } := by
    rw [← hactive]; rfl
  have hsame : (r.updateHolder holder fun h => { h with mark }).toStacks = r.toStacks :=
    toStacks_updateHolder (by exact fun _ => rfl)
  rw [← hsame]
  exact toStacks_updateStorage hs' hview

theorem Sound.pop_stacks (hs : r.storages[id]? = some s) {s' : Storage} {top : HolderId}
    (hview : s'.toStack = { s.toStack with holders := s'.active }) (hh : r.holder? top = some h)
    (mark : Nat) :
    ((((r.updateHolder top fun h => { h with mark }).updateHolder top fun h =>
        { h with handles := [] }).updateStorage id fun _ => s').toStacks =
      (r.toStacks.update id fun k => { k with holders := s'.active }).setHandles top []) := by
  have hs' : ((r.updateHolder top fun h => { h with mark }).updateHolder top fun h =>
      { h with handles := [] }).storages[id]? = some s := by
    rw [storages_updateHolder, storages_updateHolder, hs]
  have hh' : (r.updateHolder top fun h => { h with mark }).holder? top = some { h with mark } := by
    rw [holder?_updateHolder, if_pos rfl, hh]; rfl
  have hsame : (r.updateHolder top fun h => { h with mark }).toStacks = r.toStacks :=
    toStacks_updateHolder (by exact fun _ => rfl)
  have hempty := toStacks_setHandles hh' fun h => { h with handles := [] }
  rw [hsame] at hempty
  rw [toStacks_updateStorage hs' (g := fun k => { k with holders := s'.active }) hview, hempty]
  rfl

theorem Sound.register (hr : r.Sound) (hs : r.storages[id]? = some s)
    (hh : r.holder? holder = some h) (thread : ThreadId) :
    (r.register id thread holder).2.Sound ∧
      r.toStacks.register id thread holder =
        ⟨(r.register id thread holder).1.map fun _ => none, [],
          (r.register id thread holder).2.toStacks⟩ := by
  simp only [Roster.register, hs, hh, checkThread_eq hs, Stacks.register, guarded_eq hs]
  by_cases ho : s.owner.getD thread = thread
  · obtain ⟨hb, hsb, hstacks⟩ := hr.bound hs ho
    simp only [ho, if_true, ← hstacks]
    cases hc : s.closed with
    | true =>
      have hk : s.toStack.closed = true := hc
      simp only [hk, if_true]
      exact ⟨hb, rfl⟩
    | false =>
      have hk : s.toStack.closed = false := hc
      have hon := hb.on_eq holder
      rw [markOf_updateStorage, markOf_eq hh] at hon
      simp only [hk, Bool.false_eq_true, if_false]
      by_cases hm : h.mark = Holder.unregistered
      · rw [if_pos hm, Option.map_eq_none_iff] at hon
        have hpushed := Sound.push (s := s.bind thread) hb hsb hh hm
        have hview := hb.push_stacks hsb ((markOf_eq hh).trans hm) s.worker
        simp only [hm, ne_eq, not_true, if_false, hon]
        exact ⟨hpushed, by rw [hview]; rfl⟩
      · rw [if_neg hm, Option.map_eq_some_iff] at hon
        obtain ⟨other, hon, hw⟩ := hon
        simp only [ne_eq, hm, not_false_eq_true, if_true, hon, hw]
        exact ⟨hb, rfl⟩
  · simp only [ho, if_false]
    exact ⟨hr, rfl⟩

theorem Sound.deregister (hr : r.Sound) (hs : r.storages[id]? = some s) (thread : ThreadId) :
    (r.deregister id thread).2.Sound ∧
      r.toStacks.deregister id thread =
        ⟨(r.deregister id thread).1.map fun gone => some gone.1,
          match (r.deregister id thread).1 with
          | .ok (_, handles) => handles.map fun handle => (s.space, handle)
          | .error _ => [],
          (r.deregister id thread).2.toStacks⟩ := by
  simp only [Roster.deregister, hs, checkThread_eq hs, Stacks.deregister, guarded_eq hs]
  by_cases ho : s.owner.getD thread = thread
  · obtain ⟨hb, hsb, hstacks⟩ := hr.bound hs ho
    have hl := hb.linked id _ hsb
    simp only [ho, if_true, ← hstacks]
    have hactive : (s.bind thread).active = s.active := Storage.active_congr rfl rfl
    have hk : s.toStack.holders = (s.bind thread).stack := hactive.symm.trans hl.active_eq
    rw [hk]
    cases hst : (s.bind thread).stack with
    | nil =>
      rw [hl.pop_nil hst]
      exact ⟨hb, rfl⟩
    | cons top rest =>
      obtain ⟨current, entries, hpop, hl', hst'⟩ := hl.pop_cons hst
      obtain ⟨h, hh⟩ := hb.exists_holder hsb (hst ▸ List.mem_cons_self)
      rw [hpop]
      simp only [Roster.drain, holder?_updateHolder, if_true, hh, Option.map_some, Option.getD_some]
      generalize hgone : Storage.countReleased { s.bind thread with current, entries }
        h.handles.length = gone
      have hlast : gone.Linked := hgone ▸ hl'.congr rfl rfl
      have hrest : gone.stack = rest := hgone ▸ hst'
      have hworker : gone.worker = (s.bind thread).worker := hgone ▸ rfl
      have hview : gone.toStack = { (s.bind thread).toStack with holders := gone.active } := hgone ▸ rfl
      have hempty : ∀ h : Holder, { h with handles := [] }.mark = h.mark := fun _ => rfl
      have hpopped := (hb.pop hsb hst hworker hlast hrest).updateHolder top hempty
      refine ⟨by rw [← updateHolder_updateStorage]; exact hpopped, ?_⟩
      have hhandles : (r.updateStorage id (·.bind thread)).toStacks.handles top = h.handles := by
        simp only [toStacks, hh, Option.map_some, Option.getD_some]
      rw [Sound.pop_stacks hsb hview hh, hlast.active_eq, hrest, hhandles]
      rfl
  · simp only [ho, if_false]
    exact ⟨hr, rfl⟩

/-- What is seen of a roster from outside, and the disjoint stacks that it is a picture of. -/
structure Shows (r : Roster) (t : Stacks) : Prop where
  picture : r.toStacks = t
  disjoint : t.Disjoint
  current : ∀ s ∈ r.storages, s.current = s.active.head?
  len : ∀ s ∈ r.storages, s.len = s.active.length
  contains : ∀ s ∈ r.storages, ∀ holder, s.contains holder = decide (holder ∈ s.active)
  registeredOn : ∀ holder h, r.holder? holder = some h →
    h.registeredOn = (t.on holder).map HolderStack.worker

theorem Sound.shows (hr : r.Sound) : r.Shows r.toStacks := by
  have hlinked : ∀ s ∈ r.storages, s.Linked := fun s hs => by
    obtain ⟨id, hid⟩ := List.mem_iff_getElem?.1 hs
    exact hr.linked id s hid
  refine ⟨rfl, ⟨fun k hk => ?_, fun i j a b ha hb => ?_⟩, fun s hs => ?_, fun s hs => ?_,
    fun s hs holder => ?_, fun holder h hh => ?_⟩
  · obtain ⟨s, hs, rfl⟩ := List.mem_map.1 hk
    simp only [Storage.toStack, (hlinked s hs).active_eq]
    exact (hlinked s hs).nodup
  · simp only [toStacks, List.getElem?_map] at ha hb
    obtain ⟨s, hs, rfl⟩ := Option.map_eq_some_iff.1 ha
    obtain ⟨s', hs', rfl⟩ := Option.map_eq_some_iff.1 hb
    simp only [Storage.toStack, (hr.linked i s hs).active_eq, (hr.linked j s' hs').active_eq]
    exact hr.disjoint i j s s' hs hs'
  · rw [(hlinked s hs).active_eq, (hlinked s hs).current_eq]
  · rw [(hlinked s hs).active_eq, Storage.len_eq]
  · rw [(hlinked s hs).active_eq, Storage.contains_eq]
  · rw [hr.on_eq, markOf_eq hh]
    rfl

theorem sound_fresh {workers : List (WorkerId × SpaceId)} (owners : List (Option TaskId))
    (hw : ∀ w ∈ workers, w.1 ≠ Holder.unregistered) :
    Sound ⟨owners.map Holder.fresh, workers.map fun w => Storage.fresh w.1 w.2⟩ := by
  have hfresh : ∀ (id : StorageId) (s : Storage),
      (workers.map fun w => Storage.fresh w.1 w.2)[id]? = some s →
      ∃ w ∈ workers, s = Storage.fresh w.1 w.2 := by
    intro id s hs
    obtain ⟨w, hm, rfl⟩ := List.mem_map.1 (List.mem_of_getElem? hs)
    exact ⟨w, hm, rfl⟩
  have hmark : ∀ holder : HolderId,
      markOf ⟨owners.map Holder.fresh, workers.map fun w => Storage.fresh w.1 w.2⟩ holder =
        Holder.unregistered := by
    intro holder
    cases holder with
    | zero => rfl
    | succ place =>
      simp only [markOf, holder?, List.getElem?_map]
      cases owners[place]? <;> rfl
  refine ⟨fun id s hs => ?_, fun id s hs => ?_, fun id s hs holder hin => ?_,
    fun holder hm => absurd (hmark holder) hm, fun i j a b ha _ holder hin => ?_⟩
  · obtain ⟨w, hm, rfl⟩ := hfresh id s hs
    exact hw w hm
  · obtain ⟨w, _, rfl⟩ := hfresh id s hs
    exact Storage.linked_fresh ..
  · obtain ⟨w, _, rfl⟩ := hfresh id s hs
    cases hin
  · obtain ⟨w, _, rfl⟩ := hfresh i a ha
    cases hin

theorem toStacks_fresh (workers : List (WorkerId × SpaceId)) (owners : List (Option TaskId)) :
    toStacks ⟨owners.map Holder.fresh, workers.map fun w => Storage.fresh w.1 w.2⟩ =
      Stacks.start workers := by
  simp only [toStacks, Stacks.start, List.map_map, Stacks.mk.injEq]
  refine ⟨rfl, funext fun holder => ?_⟩
  cases holder with
  | zero => rfl
  | succ place =>
    simp only [holder?, List.getElem?_map]
    cases owners[place]? <;> rfl

theorem checkThread_sameSize (r : Roster) (id : StorageId) (s : Storage) (thread : ThreadId) :
    SameSize r (r.checkThread id s thread).2 := by
  unfold checkThread
  repeat' split
  · exact updateStorage_sameSize ..
  all_goals exact ⟨rfl, rfl⟩

theorem register_sameSize (r : Roster) (id : StorageId) (thread : ThreadId) (holder : HolderId) :
    SameSize r (r.register id thread holder).2 := by
  unfold Roster.register
  split
  · rename_i s h hs hh
    have hc := checkThread_sameSize r id s thread
    split <;> rename_i he <;> rw [he] at hc
    · exact hc
    · split
      · exact hc
      · split
        · exact hc
        · exact hc.trans ((updateHolder_sameSize ..).trans (updateStorage_sameSize ..))
  · exact ⟨rfl, rfl⟩

theorem deregister_sameSize (r : Roster) (id : StorageId) (thread : ThreadId) :
    SameSize r (r.deregister id thread).2 := by
  unfold Roster.deregister
  split
  · exact ⟨rfl, rfl⟩
  · rename_i s hs
    have hc := checkThread_sameSize r id s thread
    split <;> rename_i he <;> rw [he] at hc
    · exact hc
    · split
      · exact hc
      · exact hc.trans ((updateHolder_sameSize ..).trans
          ((updateHolder_sameSize ..).trans (updateStorage_sameSize ..)))

end Roster

/-! ## Runs -/

namespace Ledger

/-- One call; only a deregistration names a holder in its answer. -/
def call (l : Ledger) : RegistryOp → Except RegistryError (Option HolderId) × Ledger
  | .register id thread holder =>
    ((l.register id thread holder).1.map fun _ => none, (l.register id thread holder).2)
  | .deregister id thread => ((l.deregister id thread).1.map some, (l.deregister id thread).2)
  | .close id => (.ok none, { l with roster := l.roster.updateStorage id Storage.close })
  | .record holder handle => (.ok none, l.record holder handle)

def run (l : Ledger) : List RegistryOp →
    List (Except RegistryError (Option HolderId)) × Ledger
  | [] => ([], l)
  | op :: rest => ((l.call op).1 :: ((l.call op).2.run rest).1, ((l.call op).2.run rest).2)

def start (spaces : List Recorder) (workers : List (WorkerId × SpaceId))
    (owners : List (Option TaskId)) : Ledger where
  spaces := spaces
  roster := ⟨owners.map Holder.fresh, workers.map fun w => Storage.fresh w.1 w.2⟩

def releaseEach (spaces : List Recorder) (released : List (SpaceId × MappingId)) : List Recorder :=
  released.foldl (fun spaces (space, handle) =>
    spaces.modify space fun a => AddressSpace.unlocalize a handle) spaces

theorem releaseEach_append (spaces : List Recorder) (a b : List (SpaceId × MappingId)) :
    releaseEach spaces (a ++ b) = releaseEach (releaseEach spaces a) b :=
  List.foldl_append

theorem releaseEach_map (spaces : List Recorder) (space : SpaceId) (handles : List MappingId) :
    releaseEach spaces (handles.map fun handle => (space, handle)) =
      spaces.modify space fun a => AddressSpace.unlocalizeAll a handles := by
  induction handles generalizing spaces with
  | nil => exact (List.modify_id _ _).symm
  | cons handle rest ih =>
    rw [List.map_cons, releaseEach, List.foldl_cons, ← releaseEach, ih, List.modify_modify_eq]
    rfl

variable {l : Ledger} {op : RegistryOp}

theorem call_stacks (hl : l.roster.Sound)
    (hn : op.Names l.roster.storages.length l.roster.holders.length) :
    (l.call op).2.roster.Sound ∧
      (l.roster.toStacks.perform op).answer = (l.call op).1 ∧
      (l.roster.toStacks.perform op).after = (l.call op).2.roster.toStacks ∧
      (l.call op).2.spaces = releaseEach l.spaces (l.roster.toStacks.perform op).released := by
  cases op with
  | register id thread holder =>
    obtain ⟨s, hs⟩ := Roster.exists_storage hn.1
    obtain ⟨h, hh⟩ := Roster.exists_holder hn.2.1 hn.2.2
    obtain ⟨hsound, he⟩ := hl.register hs hh thread
    simp only [call, Stacks.perform, Ledger.register, he]
    exact ⟨hsound, trivial, trivial, rfl⟩
  | deregister id thread =>
    obtain ⟨s, hs⟩ := Roster.exists_storage hn
    obtain ⟨hsound, he⟩ := hl.deregister hs thread
    simp only [call, Stacks.perform, Ledger.deregister, he, hs, Option.map_some, Option.getD_some]
    cases hd : l.roster.deregister id thread with
    | mk answer roster =>
      rw [hd] at hsound
      cases answer with
      | ok gone =>
        obtain ⟨top, handles⟩ := gone
        exact ⟨hsound, rfl, rfl, (releaseEach_map ..).symm⟩
      | error error => exact ⟨hsound, rfl, rfl, rfl⟩
  | close id =>
    obtain ⟨s, hs⟩ := Roster.exists_storage hn
    refine ⟨hl.updateStorage hs rfl rfl rfl, rfl, ?_, rfl⟩
    refine (Roster.toStacks_updateStorage hs ?_).symm
    have hactive : s.close.active = s.active := Storage.active_congr rfl rfl
    simp only [Storage.toStack, hactive]
    rfl
  | record holder handle =>
    obtain ⟨h, hh⟩ := Roster.exists_holder hn.1 hn.2
    refine ⟨hl.updateHolder holder fun _ => rfl, rfl, ?_, rfl⟩
    refine .trans ?_ (Roster.toStacks_setHandles hh _).symm
    simp only [Stacks.perform, Roster.toStacks, hh, Option.map_some, Option.getD_some]

theorem call_sameSize (l : Ledger) (op : RegistryOp) : Roster.SameSize l.roster (l.call op).2.roster := by
  cases op with
  | register id thread holder => exact Roster.register_sameSize ..
  | deregister id thread =>
    have hsize := Roster.deregister_sameSize l.roster id thread
    simp only [call, Ledger.deregister]
    split <;> rename_i he <;> rw [he] at hsize <;> exact hsize
  | close id => exact Roster.updateStorage_sameSize ..
  | record holder handle => exact Roster.updateHolder_sameSize ..

theorem run_stacks (hl : l.roster.Sound) (ops : List RegistryOp)
    (hn : ∀ op ∈ ops, op.Names l.roster.storages.length l.roster.holders.length) :
    (l.run ops).2.roster.Sound ∧ (l.roster.toStacks.run ops).1 = (l.run ops).1 ∧
      (l.roster.toStacks.run ops).2.2 = (l.run ops).2.roster.toStacks ∧
      (l.run ops).2.spaces = releaseEach l.spaces (l.roster.toStacks.run ops).2.1 := by
  induction ops generalizing l with
  | nil => exact ⟨hl, rfl, rfl, rfl⟩
  | cons op rest ih =>
    obtain ⟨hsound, hanswer, hafter, hspaces⟩ := call_stacks hl (hn op List.mem_cons_self)
    obtain ⟨hstorages, hholders⟩ := l.call_sameSize op
    -- no call makes a storage or a holder, so the calls left still name what exists
    obtain ⟨hsound', hanswer', hafter', hspaces'⟩ := ih hsound fun op hm => by
      rw [hstorages, hholders]
      exact hn op (List.mem_cons_of_mem _ hm)
    simp only [run, Stacks.run, hafter, hanswer, hanswer', hafter', releaseEach_append]
    exact ⟨hsound', trivial, trivial, by rw [hspaces', hspaces]⟩

/-- The registries of any workers but the unregistered mark, with any holders, answer any calls from
any threads as disjoint stacks do, release the handles that the stacks release, and show them. -/
theorem run_refines_stacks (spaces : List Recorder) (workers : List (WorkerId × SpaceId))
    (owners : List (Option TaskId)) (ops : List RegistryOp)
    (hw : ∀ w ∈ workers, w.1 ≠ Holder.unregistered)
    (hn : ∀ op ∈ ops, op.Names workers.length owners.length) :
    ((start spaces workers owners).run ops).1 = ((Stacks.start workers).run ops).1 ∧
      ((start spaces workers owners).run ops).2.spaces =
        releaseEach spaces ((Stacks.start workers).run ops).2.1 ∧
      ((start spaces workers owners).run ops).2.roster.Shows ((Stacks.start workers).run ops).2.2 := by
  have hsound : (start spaces workers owners).roster.Sound := Roster.sound_fresh owners hw
  have hstacks : (start spaces workers owners).roster.toStacks = Stacks.start workers :=
    Roster.toStacks_fresh workers owners
  obtain ⟨hsound, hanswers, hafter, hspaces⟩ := run_stacks hsound ops
    (by simpa only [start, List.length_map] using hn)
  rw [hstacks] at hanswers hafter hspaces
  exact ⟨hanswers.symm, hspaces, hafter ▸ hsound.shows⟩

/-- A space with one mapping, of its first block. -/
def mapped : Recorder :=
  let space := (AddressSpace.alloc (Recorder.new 2) 8 8).2
  (AddressSpace.localize space ⟨0x1000⟩ 8 .readOnly 0).2

/-- Two workers and two threads: a holder refused twice, and one that comes back after a pop. The mapping that
is recorded in the first holder is released when that holder is popped. -/
theorem run_refines_stacks_two_workers :
    let workers : List (WorkerId × SpaceId) := [(0, 0), (1, 0)]
    let ops : List RegistryOp := [.register 0 7 1, .record 1 0, .register 1 8 1, .register 0 8 2, .register 0 7 2,
      .deregister 0 7, .register 1 8 2, .deregister 0 7, .close 1, .register 1 8 1, .deregister 1 8]
    ((∀ w ∈ workers, w.1 ≠ Holder.unregistered) ∧ ∀ op ∈ ops, op.Names workers.length 2) ∧
      ((start [mapped] workers [none, some 1]).run ops).1 = ((Stacks.start workers).run ops).1 ∧
      ((Stacks.start workers).run ops).2.1 = [(0, 0)] ∧
      ((start [mapped] workers [none, some 1]).run ops).2.spaces = [AddressSpace.unlocalize mapped 0] := by
  obtain ⟨hanswers, hspaces, -⟩ := run_refines_stacks [mapped] [(0, 0), (1, 0)] [none, some 1]
    [.register 0 7 1, .record 1 0, .register 1 8 1, .register 0 8 2, .register 0 7 2, .deregister 0 7,
      .register 1 8 2, .deregister 0 7, .close 1, .register 1 8 1, .deregister 1 8] (by decide) (by decide)
  exact ⟨by decide, hanswers, rfl, hspaces⟩

end Ledger

end TaskSpace

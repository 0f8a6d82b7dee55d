import Mathlib.Data.List.Nodup
import Mathlib.Data.List.Perm.Subperm
import TaskSpace.Proofs.Memory.Fading

/-!
# What a recorder tells

A recorder answers every call as the space in it would alone. Its two lists say what became of the
mappings: the one has all that were made, the other all that were released, both in order, and what
is live is the difference. `Recorder.Balanced` is the invariant, and it needs nothing of the space:
the lists are right also when addresses have gone round, or a call has ended in a panic.
-/

namespace TaskSpace

/-! ## Calls of any space -/

namespace AddressSpace

inductive Call where
  | alloc (size blockSize : Nat)
  | dealloc (base : Pointer)
  | put (ptr : Pointer) (new : Bytes)
  | get (ptr : Pointer) (len : Nat)
  | fill (ptr : Pointer) (value : UInt8) (len : Nat)
  | rmw (ptr : Pointer) (len : Nat) (update : Update)
  | localize (ptr : Pointer) (len : Nat) (access : Access) (worker : WorkerId)
  | localizeAll (ranges : List Range) (access : Access) (worker : WorkerId)
  | commit (ptr : Pointer) (new : Bytes)
  | unlocalize (handle : MappingId)
  | homeOf (ptr : Pointer)
  | liveMappings

@[reducible] def Call.Result : Call → Type
  | alloc .. => Pointer
  | get .. | rmw .. => Bytes
  | localize .. => MappingId
  | localizeAll .. => List MappingId
  | homeOf .. => WorkerId
  | liveMappings => Nat
  | dealloc .. | put .. | fill .. | commit .. | unlocalize .. => Unit

@[reducible] def Call.Answer (call : Call) : Type := Except Fault call.Result

/-- A space, and the handles that its one caller was given and has not released. -/
structure Caller (α : Type) where
  space : α
  handles : List MappingId

namespace Caller

variable {α : Type} [AddressSpace α]

def start (space : α) : Caller α := ⟨space, []⟩

def keep (c : Caller α) : Except Fault α → Except Fault Unit × Caller α
  | .ok space => (.ok (), { c with space })
  | .error fault => (.error fault, c)

/-- Releasing takes the handle away, so only a handle that is held is released. -/
def perform (c : Caller α) : (call : Call) → call.Answer × Caller α
  | .alloc size blockSize =>
    let (answer, space) := alloc c.space size blockSize
    (answer, { c with space })
  | .dealloc base => c.keep (dealloc c.space base)
  | .put ptr new => c.keep (put c.space ptr new)
  | .get ptr len => (get c.space ptr len, c)
  | .fill ptr value len => c.keep (fill c.space ptr value len)
  | .rmw ptr len update =>
    match rmw c.space ptr len update with
    | .ok (old, space) => (.ok old, { c with space })
    | .error fault => (.error fault, c)
  | .localize ptr len access worker =>
    match localize c.space ptr len access worker with
    | (.ok id, space) => (.ok id, ⟨space, c.handles ++ [id]⟩)
    | (.error fault, space) => (.error fault, { c with space })
  | .localizeAll ranges access worker =>
    match localizeAll c.space ranges access worker with
    | (.ok ids, space) => (.ok ids, ⟨space, c.handles ++ ids⟩)
    | (.error fault, space) => (.error fault, { c with space })
  | .commit ptr new => c.keep (commit c.space ptr new)
  | .unlocalize handle =>
    (.ok (), if handle ∈ c.handles then ⟨unlocalize c.space handle, c.handles.erase handle⟩ else c)
  | .homeOf ptr => (homeOf c.space ptr, c)
  | .liveMappings => (.ok (liveMappings c.space), c)

def run (c : Caller α) (calls : List Call) : Caller α := calls.foldl (fun c call => (c.perform call).2) c

def answers (c : Caller α) : List Call → List ((call : Call) × call.Answer)
  | [] => []
  | call :: rest => ⟨call, (c.perform call).1⟩ :: (c.perform call).2.answers rest

@[simp] theorem run_nil (c : Caller α) : c.run [] = c := rfl

@[simp] theorem run_cons (c : Caller α) (call : Call) (rest : List Call) :
    c.run (call :: rest) = (c.perform call).2.run rest := rfl

end Caller

end AddressSpace

/-! ## What becomes of mappings -/

namespace Space

open AddressSpace (Call)

/-- The ranges that are mapped before the first one that is not. -/
def mapped (access : Access) (worker : WorkerId) : List Range → Space → List Range
  | [], _ => []
  | range :: rest, s =>
    match s.localize range.start range.len access worker with
    | (.ok _, s) => range :: mapped access worker rest s
    | (.error _, _) => []

def startOf (s : Space) (id : MappingId) : Option Pointer := (s.mappings[id]?).map Mapping.start

end Space

namespace AddressSpace

namespace Call

/-- The mappings that a call makes, in order, those that it releases again among them. -/
def made (s : Space) : Call → List (Pointer × WorkerId)
  | localize ptr len access worker =>
    (s.mapped access worker [⟨ptr, len⟩]).map fun range => (range.start, worker)
  | localizeAll ranges access worker =>
    (s.mapped access worker ranges).map fun range => (range.start, worker)
  | _ => []

/-- What a call gives back that has made some mappings: all of them, if it is refused in the end. -/
def rollback {β : Type} (made : List Pointer) : Except Fault β → List Pointer
  | .error (.refused _) => made
  | .error (.panicked _) | .ok _ => []

/-- The mappings that a call releases, in order: the one that it is asked to, if it is held, and what a
refusal makes it give back. -/
def freed (c : Caller Space) : Call → List Pointer
  | unlocalize handle => if handle ∈ c.handles then (c.space.startOf handle).toList else []
  | localizeAll ranges access worker =>
    rollback ((c.space.mapped access worker ranges).map Range.start)
      (AddressSpace.localizeAll c.space ranges access worker).1
  | _ => []

end Call

namespace Caller

def made (c : Caller Space) : List Call → List (Pointer × WorkerId)
  | [] => []
  | call :: rest => call.made c.space ++ (c.perform call).2.made rest

def freed (c : Caller Space) : List Call → List Pointer
  | [] => []
  | call :: rest => call.freed c ++ (c.perform call).2.freed rest

/-- The same caller of the space without its record. -/
def bare (c : Caller Recorder) : Caller Space := ⟨c.space.space, c.handles⟩

end Caller

end AddressSpace

variable {s s' : Space} {r : Recorder} {id : MappingId} {mapping : Mapping} {handles : List MappingId}

/-- Changing an element leaves what is before and after it. -/
theorem split_of_modify {α : Type} {l : List α} {place : Nat} {a : α} (ha : l[place]? = some a) (f : α → α) :
    ∃ before after, l = before ++ a :: after ∧ l.modify place f = before ++ f a :: after := by
  obtain ⟨hlt, rfl⟩ := List.getElem?_eq_some_iff.1 ha
  refine ⟨l.take place, l.drop (place + 1), ?_, List.modify_eq_take_cons_drop hlt⟩
  rw [List.getElem_cons_drop, List.take_append_drop]

namespace Space

/-- A mapping that is made comes after all others. -/
theorem localize_adds (s : Space) (ptr : Pointer) (len : Nat) (access : Access) (worker : WorkerId) :
    (∃ fault s', s.localize ptr len access worker = (.error fault, s') ∧ Still s s') ∨
    ∃ region s', s.localize ptr len access worker = (.ok s.mappings.length, s') ∧
      s'.mappings = s.mappings ++ [{ start := ptr, len, access, region, live := true }] ∧
      s'.live = Word.wrap (s.live + 1) := by
  rcases s.localize_cases ptr len access worker with ⟨fault, he⟩ |
    ⟨seg, first, last, moved, _, _, _, he⟩
  · exact .inl ⟨fault, s, he, .refl s⟩
  · have hacq := acquire_still (s.storeSegment moved) moved ⟨moved.base, first, last⟩ access.refreshes
    rcases he with ⟨fault, t, ha, he⟩ | ⟨region, t, ha, he⟩ <;> rw [ha] at hacq
    · exact .inl ⟨fault, t, he, hacq.mappings, hacq.live⟩
    · have hm : t.mappings = s.mappings := hacq.mappings
      rw [← hm]
      exact .inr ⟨region, _, he, rfl, congrArg (fun n => Word.wrap (n + 1)) hacq.live⟩

theorem startOf_append (hm : s'.mappings = s.mappings ++ [mapping]) (hlt : id < s.mappings.length) :
    s'.startOf id = s.startOf id := by
  rw [startOf, startOf, hm, List.getElem?_append_left hlt]

/-- A mapping that is released keeps its start. -/
theorem startOf_unlocalize (s : Space) (other id : MappingId) :
    (s.unlocalize other).startOf id = s.startOf id := by
  rw [startOf, startOf, mappings_unlocalize, List.getElem?_modify]
  cases s.mappings[id]? with
  | none => rfl
  | some mapping =>
    simp only [Option.map_eq_map, Option.map_some]
    split <;> rfl

end Space

/-! ## The two lists -/

namespace Recorder

open AddressSpace (Call localizeRest unlocalizeAll)

theorem unlocalizeAll_released (r : Recorder) (ids : List MappingId) :
    (unlocalizeAll r ids).released = r.released ++ ids.filterMap r.space.startOf := by
  induction ids generalizing r with
  | nil => exact (List.append_nil _).symm
  | cons id rest ih =>
    have hsame : (r.unlocalize id).space.startOf = r.space.startOf := funext (r.space.startOf_unlocalize id)
    refine (ih (r.unlocalize id)).trans ?_
    rw [hsame, List.filterMap_cons]
    show r.released ++ (r.space.startOf id).toList ++ _ = _
    cases r.space.startOf id <;> simp

/-- What a call for several ranges adds to the lists: it makes what it maps, and a refusal releases all of it. -/
theorem localizeRest_lists (access : Access) (worker : WorkerId) {made : List MappingId} (ranges : List Range)
    (hv : ∀ id ∈ made, id < r.space.mappings.length) :
    (localizeRest access worker made ranges r).2.localized =
        r.localized ++ (r.space.mapped access worker ranges).map (fun range => (range.start, worker)) ∧
      (localizeRest access worker made ranges r).2.released =
        r.released ++ Call.rollback
          (made.filterMap r.space.startOf ++ (r.space.mapped access worker ranges).map Range.start)
          (localizeRest access worker made ranges r).1 := by
  induction ranges generalizing r made with
  | nil => simp [localizeRest, Space.mapped, Call.rollback]
  | cons range rest ih =>
    simp only [localizeRest, Recorder.localize_eq, Recorder.localize, Space.mapped]
    rcases r.space.localize_adds range.start range.len access worker with ⟨fault, s', he, hs⟩ |
      ⟨region, s', he, hm, _⟩
    · rw [he]
      cases fault with
      | panicked payload => simp [Call.rollback]
      | refused error =>
        have hsame : s'.startOf = r.space.startOf := funext fun id => by rw [Space.startOf, hs.mappings]; rfl
        simp [unlocalizeAll_released, unlocalizeAll_localized, hsame, Call.rollback]
    · have hstart : s'.startOf r.space.mappings.length = some range.start := by simp [Space.startOf, hm]
      have hold : made.filterMap s'.startOf = made.filterMap r.space.startOf :=
        List.filterMap_congr fun id hid => Space.startOf_append hm (hv id hid)
      have hv' : ∀ id ∈ made ++ [r.space.mappings.length], id < s'.mappings.length := by
        intro id hid
        have hlen : s'.mappings.length = r.space.mappings.length + 1 := by simp [hm]
        rcases List.mem_append.1 hid with hid | hid
        · exact hlen ▸ Nat.lt_succ_of_lt (hv id hid)
        · exact hlen ▸ List.mem_singleton.1 hid ▸ Nat.lt_succ_self _
      rw [he]
      obtain ⟨hmade, hfreed⟩ := @ih { r with space := s', localized := r.localized ++ [(range.start, worker)] } _ hv'
      exact ⟨hmade.trans (by simp), hfreed.trans (by simp [hold, hstart])⟩

/-- The lists of a recorder against the mappings of its space, while some handles are held. -/
structure Balanced (r : Recorder) (handles : List MappingId) : Prop where
  made : r.localized.map Prod.fst = r.space.mappings.map Mapping.start
  freed : r.released.Perm ((r.space.mappings.filter fun mapping => !mapping.live).map Mapping.start)
  live : r.space.live = Word.wrap (r.space.mappings.filter Mapping.live).length
  nodup : handles.Nodup
  held : ∀ id ∈ handles, ∃ mapping, r.space.mappings[id]? = some mapping ∧ mapping.live = true

theorem balanced_new (numHomes : Nat) : (new numHomes).Balanced [] where
  made := rfl
  freed := .nil
  live := rfl
  nodup := .nil
  held := by simp

/-- Handles that nobody can name any more need not be held. -/
theorem Balanced.drop {made : List MappingId} (h : r.Balanced (handles ++ made)) : r.Balanced handles :=
  ⟨h.made, h.freed, h.live, (List.nodup_append.1 h.nodup).1, fun id hid => h.held id (List.mem_append_left _ hid)⟩

theorem Balanced.still (h : r.Balanced handles) (hs : Space.Still r.space s) :
    Balanced { r with space := s } handles where
  made := by rw [h.made, hs.mappings]
  freed := by rw [hs.mappings]; exact h.freed
  live := by rw [hs.live, h.live, hs.mappings]
  nodup := h.nodup
  held := by rw [hs.mappings]; exact h.held

theorem Balanced.lt (h : r.Balanced handles) (hid : id ∈ handles) : id < r.space.mappings.length := by
  obtain ⟨mapping, hm, _⟩ := h.held id hid
  exact (List.getElem?_eq_some_iff.1 hm).1

theorem Balanced.localize (h : r.Balanced handles) (ptr : Pointer) (len : Nat) (access : Access)
    (worker : WorkerId) :
    (∃ fault r', r.localize ptr len access worker = (.error fault, r') ∧ r'.Balanced handles) ∨
    ∃ id r', r.localize ptr len access worker = (.ok id, r') ∧ r'.Balanced (handles ++ [id]) := by
  simp only [Recorder.localize]
  rcases r.space.localize_adds ptr len access worker with ⟨fault, s', he, hs⟩ | ⟨region, s', he, hm, hlive⟩
  · exact .inl ⟨fault, _, by rw [he], h.still hs⟩
  · refine .inr ⟨_, _, by rw [he], ?_, ?_, ?_, ?_, ?_⟩
    · simp [hm, h.made]
    · simpa [hm] using h.freed
    · rw [hlive, h.live, Word.wrap_succ]
      simp [hm]
    · refine List.nodup_append.2 ⟨h.nodup, by simp, fun id hid other hother => ?_⟩
      exact List.mem_singleton.1 hother ▸ Nat.ne_of_lt (h.lt hid)
    · intro id hid
      rcases List.mem_append.1 hid with hid | hid
      · obtain ⟨mapping, hmapping, hl⟩ := h.held id hid
        exact ⟨mapping, by rw [hm, List.getElem?_append_left (h.lt hid), hmapping], hl⟩
      · obtain rfl := List.mem_singleton.1 hid
        exact ⟨_, by rw [hm, List.getElem?_concat_length], rfl⟩

/-- A handle that is held is the handle of a live mapping, which dies when the handle is released. -/
theorem Balanced.unlocalize {pre post : List MappingId} (h : r.Balanced (pre ++ id :: post)) :
    (r.unlocalize id).Balanced (pre ++ post) := by
  obtain ⟨mapping, hm, hl⟩ := h.held id (by simp)
  obtain ⟨before, after, hold, hnew⟩ := split_of_modify hm fun old => { old with live := false }
  rw [← Space.mappings_unlocalize] at hnew
  have hmade := h.made
  have hfreed := h.freed
  have hlive := h.live
  rw [hold] at hmade hfreed hlive
  have hcount := (Space.unlocalize_counts (h.lt (by simp : id ∈ pre ++ id :: post))).2.2
  refine ⟨?_, ?_, ?_, ?_, fun other hother => ?_⟩
  · simp [Recorder.unlocalize, hnew, hmade]
  · have hmiddle : (r.released ++ [mapping.start]).Perm (mapping.start :: r.released) := List.perm_append_comm
    simp only [Recorder.unlocalize, hm, hnew]
    simp [hl] at hfreed ⊢
    exact hmiddle.trans ((hfreed.cons _).trans List.perm_middle.symm)
  · simp only [Recorder.unlocalize, hnew, hcount, hlive]
    simp [hl, ← Nat.add_assoc, Word.wrap_pred]
  · exact (List.nodup_middle.1 h.nodup).of_cons
  · have hne : id ≠ other := fun he => (List.nodup_middle.1 h.nodup).notMem (he ▸ hother)
    obtain ⟨found, hf, hlf⟩ := h.held other (by simp at hother ⊢; tauto)
    exact ⟨found, by rw [Recorder.unlocalize, Space.mappings_unlocalize, List.getElem?_modify_ne _ _ hne, hf], hlf⟩

theorem Balanced.unlocalizeAll {made : List MappingId} (h : r.Balanced (handles ++ made)) :
    (unlocalizeAll r made).Balanced handles := by
  induction made generalizing r with
  | nil => rwa [List.append_nil] at h
  | cons id rest ih => exact ih h.unlocalize

/-- A call for several ranges ends with all of its handles held, or with none that anyone can name. -/
theorem Balanced.localizeRest (access : Access) (worker : WorkerId) {made : List MappingId} (ranges : List Range)
    (h : r.Balanced (handles ++ made)) :
    (∃ fault r', localizeRest access worker made ranges r = (.error fault, r') ∧ r'.Balanced handles) ∨
    ∃ ids r', localizeRest access worker made ranges r = (.ok ids, r') ∧ r'.Balanced (handles ++ ids) := by
  induction ranges generalizing r made with
  | nil => exact .inr ⟨made, r, rfl, h⟩
  | cons range rest ih =>
    simp only [AddressSpace.localizeRest, Recorder.localize_eq]
    rcases h.localize range.start range.len access worker with ⟨fault, r', he, h'⟩ | ⟨id, r', he, h'⟩
    · rw [he]
      cases fault with
      | panicked payload => exact .inl ⟨_, _, rfl, h'.drop⟩
      | refused error => exact .inl ⟨_, _, rfl, h'.unlocalizeAll⟩
    · rw [he]
      exact ih (List.append_assoc handles made [id] ▸ h')

/-- What is held is what was made and not released. -/
theorem Balanced.length (h : r.Balanced handles) :
    r.localized.length = r.released.length + (r.space.mappings.filter Mapping.live).length := by
  have hmade : r.localized.length = r.space.mappings.length := by
    simpa using congrArg List.length h.made
  have hfreed := h.freed.length_eq
  have hsplit := List.length_eq_length_filter_add (l := r.space.mappings) Mapping.live
  rw [List.length_map] at hfreed
  omega

theorem Balanced.subperm (h : r.Balanced handles) : r.released.Subperm (r.localized.map Prod.fst) := by
  rw [h.made]
  exact h.freed.subperm.trans ((List.filter_sublist.map Mapping.start).subperm)

theorem rmw_eq (r : Recorder) (ptr : Pointer) (len : Nat) (update : Update) :
    AddressSpace.rmw r ptr len update =
      (r.space.rmw ptr len update).map fun result => (result.1, { r with space := result.2 }) := rfl

end Recorder

/-! ## Runs -/

namespace AddressSpace.Caller

open AddressSpace (Call)

variable {c : Caller Recorder}

/-- A recorder answers a call as its space does, and does to its space what the call does. -/
theorem perform_bare (c : Caller Recorder) (call : Call) :
    c.bare.perform call = ((c.perform call).1, (c.perform call).2.bare) := by
  have hkeep (outcome : Except Fault Space) :
      c.bare.keep outcome = ((c.keep (c.space.keep outcome)).1, (c.keep (c.space.keep outcome)).2.bare) := by
    cases outcome <;> rfl
  cases call with
  | alloc size blockSize => rfl
  | dealloc base => exact hkeep _
  | put ptr new => exact hkeep _
  | get ptr len => rfl
  | fill ptr value len => exact hkeep _
  | rmw ptr len update =>
    have hspace : AddressSpace.rmw c.bare.space ptr len update = c.space.space.rmw ptr len update := rfl
    simp only [perform, Recorder.rmw_eq, hspace]
    cases c.space.space.rmw ptr len update <;> rfl
  | localize ptr len access worker =>
    have hspace : AddressSpace.localize c.bare.space = c.space.space.localize := rfl
    simp only [perform, Recorder.localize_eq, hspace, Recorder.localize]
    rcases c.space.space.localize ptr len access worker with ⟨fault | id, s⟩ <;> rfl
  | localizeAll ranges access worker =>
    have hspace : c.bare.space = c.space.space := rfl
    obtain ⟨hanswer, hafter⟩ := c.space.localizeRest_space access worker [] ranges
    simp only [perform, localizeAll, hspace]
    revert hanswer hafter
    rcases localizeRest access worker [] ranges c.space with ⟨answer, r⟩
    rcases localizeRest access worker [] ranges c.space.space with ⟨_, _⟩
    rintro rfl rfl
    cases answer <;> rfl
  | commit ptr new => exact hkeep _
  | unlocalize handle =>
    simp only [perform, show c.bare.handles = c.handles from rfl]
    split <;> rfl
  | homeOf ptr => rfl
  | liveMappings => rfl

theorem run_bare (c : Caller Recorder) (calls : List Call) : (c.run calls).bare = c.bare.run calls := by
  induction calls generalizing c with
  | nil => rfl
  | cons call rest ih => rw [run_cons, run_cons, ih, perform_bare]

theorem answers_bare (c : Caller Recorder) (calls : List Call) : c.answers calls = c.bare.answers calls := by
  induction calls generalizing c with
  | nil => rfl
  | cons call rest ih => rw [answers, answers, ih, perform_bare]

/-- A call that is not recorded leaves the record as it is. -/
theorem keep_lists (c : Caller Recorder) (outcome : Except Fault Space) :
    (c.keep (c.space.keep outcome)).2.space.localized = c.space.localized ∧
      (c.keep (c.space.keep outcome)).2.space.released = c.space.released := by
  cases outcome <;> exact ⟨rfl, rfl⟩

/-- What a call adds to the two lists. -/
theorem perform_lists (c : Caller Recorder) (call : Call) :
    (c.perform call).2.space.localized = c.space.localized ++ call.made c.space.space ∧
      (c.perform call).2.space.released = c.space.released ++ call.freed c.bare := by
  have hquiet : ∀ {r : Recorder}, r.localized = c.space.localized ∧ r.released = c.space.released →
      r.localized = c.space.localized ++ [] ∧ r.released = c.space.released ++ [] := fun h => by
    simpa using h
  cases call with
  | alloc size blockSize => exact hquiet ⟨rfl, rfl⟩
  | dealloc base => exact hquiet (c.keep_lists _)
  | put ptr new => exact hquiet (c.keep_lists _)
  | get ptr len => exact hquiet ⟨rfl, rfl⟩
  | fill ptr value len => exact hquiet (c.keep_lists _)
  | rmw ptr len update =>
    refine hquiet ?_
    simp only [perform, Recorder.rmw_eq]
    cases c.space.space.rmw ptr len update <;> exact ⟨rfl, rfl⟩
  | localize ptr len access worker =>
    simp only [perform, Recorder.localize_eq, Recorder.localize, Call.made, Call.freed, Space.mapped]
    rcases c.space.space.localize ptr len access worker with ⟨fault | id, s⟩ <;> simp
  | localizeAll ranges access worker =>
    obtain ⟨hspace, _⟩ := c.space.localizeRest_space access worker [] ranges
    obtain ⟨hmade, hfreed⟩ := @Recorder.localizeRest_lists c.space access worker [] ranges (by simp)
    rw [hspace] at hfreed
    have hafter : (c.perform (.localizeAll ranges access worker)).2.space =
        (localizeRest access worker [] ranges c.space).2 := by
      simp only [perform, localizeAll]
      rcases localizeRest access worker [] ranges c.space with ⟨fault | ids, r⟩ <;> rfl
    rw [hafter]
    exact ⟨hmade, hfreed⟩
  | commit ptr new => exact hquiet (c.keep_lists _)
  | unlocalize handle =>
    simp only [perform, Call.made, Call.freed, show c.bare.handles = c.handles from rfl]
    split
    · exact ⟨(List.append_nil _).symm, rfl⟩
    · exact hquiet ⟨rfl, rfl⟩
  | homeOf ptr => exact hquiet ⟨rfl, rfl⟩
  | liveMappings => exact hquiet ⟨rfl, rfl⟩

theorem perform_balanced (h : c.space.Balanced c.handles) (call : Call) :
    (c.perform call).2.space.Balanced (c.perform call).2.handles := by
  have hkeep (outcome : Except Fault Space) (hs : ∀ s, outcome = .ok s → Space.Still c.space.space s) :
      (c.keep (c.space.keep outcome)).2.space.Balanced (c.keep (c.space.keep outcome)).2.handles := by
    cases outcome with
    | error fault => exact h
    | ok s => exact h.still (hs s rfl)
  cases call with
  | alloc size blockSize => exact h.still (Space.alloc_still ..)
  | dealloc base => exact hkeep _ fun s => Space.dealloc_still
  | put ptr new => exact hkeep _ fun s => Space.put_still
  | get ptr len => exact h
  | fill ptr value len => exact hkeep _ fun s hs => Space.put_still (Space.fill_eq_put _ _ _ _ ▸ hs)
  | rmw ptr len update =>
    simp only [perform, Recorder.rmw_eq]
    cases hw : c.space.space.rmw ptr len update with
    | error fault => exact h
    | ok found => exact h.still (Space.rmw_still hw)
  | localize ptr len access worker =>
    simp only [perform, Recorder.localize_eq]
    rcases h.localize ptr len access worker with ⟨fault, r', he, h'⟩ | ⟨id, r', he, h'⟩ <;> rw [he] <;> exact h'
  | localizeAll ranges access worker =>
    have hall : c.space.Balanced (c.handles ++ []) := (List.append_nil c.handles).symm ▸ h
    simp only [perform, localizeAll]
    rcases hall.localizeRest access worker ranges with ⟨fault, r', he, h'⟩ | ⟨ids, r', he, h'⟩ <;>
      rw [he] <;> exact h'
  | commit ptr new => exact hkeep _ fun s => Space.put_still
  | unlocalize handle =>
    simp only [perform]
    split
    · rename_i hm
      obtain ⟨pre, post, _, hsplit, herase⟩ := List.exists_erase_eq hm
      rw [herase]
      exact (hsplit ▸ h).unlocalize
    · exact h
  | homeOf ptr => exact h
  | liveMappings => exact h

theorem run_lists (c : Caller Recorder) (calls : List Call) :
    (c.run calls).space.localized = c.space.localized ++ c.bare.made calls ∧
      (c.run calls).space.released = c.space.released ++ c.bare.freed calls := by
  induction calls generalizing c with
  | nil => exact ⟨(List.append_nil _).symm, (List.append_nil _).symm⟩
  | cons call rest ih =>
    obtain ⟨hmade, hfreed⟩ := c.perform_lists call
    obtain ⟨hmade', hfreed'⟩ := ih (c.perform call).2
    rw [run_cons, made, freed, perform_bare, hmade', hfreed', hmade, hfreed]
    exact ⟨List.append_assoc .., List.append_assoc ..⟩

theorem run_balanced (h : c.space.Balanced c.handles) (calls : List Call) :
    (c.run calls).space.Balanced (c.run calls).handles := by
  induction calls generalizing c with
  | nil => exact h
  | cons call rest ih => exact ih (perform_balanced h call)

end AddressSpace.Caller

open AddressSpace (Call Caller)

/-- A recorder is transparent, and its record is right: whatever is called, every answer is the one that
the space gives without a record, the lists have what that space maps and releases, and they differ by
what is mapped, the count of which goes round at a word. -/
theorem Recorder.run_transparent (numHomes : Nat) (calls : List Call) :
    let plain : Caller Space := .start (Space.new numHomes)
    let c := (Caller.start (new numHomes)).run calls
    (Caller.start (new numHomes)).answers calls = plain.answers calls ∧
      c.space.space = (plain.run calls).space ∧ c.handles = (plain.run calls).handles ∧
      c.space.localized = plain.made calls ∧ c.space.released = plain.freed calls ∧
      c.space.released.Subperm (c.space.localized.map Prod.fst) ∧
      AddressSpace.liveMappings c.space = Word.wrap (c.space.localized.length - c.space.released.length) ∧
      (c.space.localized.length - c.space.released.length < Word.bound →
        c.space.localized.length = c.space.released.length + AddressSpace.liveMappings c.space) := by
  intro plain c
  have hbare : c.bare = plain.run calls := Caller.run_bare (.start (new numHomes)) calls
  have hbalanced : c.space.Balanced c.handles := Caller.run_balanced (balanced_new numHomes) calls
  obtain ⟨hmade, hfreed⟩ := Caller.run_lists (.start (new numHomes)) calls
  have hlength := hbalanced.length
  have hlive : AddressSpace.liveMappings c.space = Word.wrap (c.space.localized.length - c.space.released.length) := by
    rw [hlength, Nat.add_sub_cancel_left]
    exact hbalanced.live
  refine ⟨Caller.answers_bare _ calls, congrArg Caller.space hbare, congrArg Caller.handles hbare, hmade, hfreed,
    hbalanced.subperm, hlive, fun hlt => ?_⟩
  rw [hlive, Word.wrap_of_lt hlt]
  omega

end TaskSpace

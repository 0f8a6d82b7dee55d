import Mathlib.Logic.Relation
import TaskSpace.Machine.Memory
import TaskSpace.Proofs.Machine.Brackets

/-!
# Brackets around whatever is done

`Ledger.Does` is anything that a body, or any other thread, may do to a ledger: the calls of the registries,
new holders and storages, releasing what a holder has, and every use of memory. A bracket that is opened, and
closed after any of that, leaves its storage as it found it, as long as the stack has come back to the holder
of the bracket and the holders below have what they had.
-/

namespace TaskSpace

variable {id : StorageId} {thread : ThreadId} {holder : HolderId} {s s' s'' : Storage} {h : Holder}

/-! ## What becomes of a storage -/

/-- The storage at a later time: it has its worker, its space and its thread, and as many holders came and
did not go as are on its stack. -/
structure Storage.Follows (s s' : Storage) : Prop where
  worker : s'.worker = s.worker
  space : s'.space = s.space
  owner : ∀ thread, s.owner = some thread → s'.owner = some thread
  counted : s'.counters.registered + s.counters.deregistered + s.stack.length =
    s'.counters.deregistered + s.counters.registered + s'.stack.length

namespace Storage

theorem Follows.refl (s : Storage) : s.Follows s :=
  ⟨rfl, rfl, fun _ ho => ho, by rw [Nat.add_comm s.counters.registered]⟩

theorem Follows.trans (h : s.Follows s') (h' : s'.Follows s'') : s.Follows s'' where
  worker := h'.worker.trans h.worker
  space := h'.space.trans h.space
  owner thread ho := h'.owner thread (h.owner thread ho)
  counted := by
    have hfirst := h.counted
    have hsecond := h'.counted
    omega

theorem follows_bind (s : Storage) (thread : ThreadId) : s.Follows (s.bind thread) :=
  { Follows.refl s with owner := fun owner ho => by rw [bind, ho]; rfl }

theorem Linked.follows_push (hl : s.Linked) (hn : holder ∉ s.stack) : s.Follows (s.push holder) where
  worker := rfl
  space := rfl
  owner _ ho := ho
  counted := by
    rw [(hl.push hn).2, List.length_cons]
    simp only [Storage.push]
    omega

theorem Linked.follows_pop (hl : s.Linked) {top : HolderId} {rest : Storage} (hp : s.pop = some (top, rest))
    (handles : Nat) : s.Follows (rest.countReleased handles) := by
  cases hst : s.stack with
  | nil => cases (hl.pop_nil hst).symm.trans hp
  | cons head below =>
    obtain ⟨current, entries, hpop, _, hbelow⟩ := hl.pop_cons hst
    cases hpop.symm.trans hp
    have hstack : (({ s with current, entries } : Storage).countReleased handles).stack = below := hbelow
    refine ⟨rfl, rfl, fun _ ho => ho, ?_⟩
    rw [hst, hstack, List.length_cons]
    simp only [countReleased]
    omega

end Storage

namespace Roster

variable {r r' r'' : Roster}

def Follows (r r' : Roster) : Prop :=
  ∀ (id : StorageId) (s : Storage), r.storages[id]? = some s → ∃ s', r'.storages[id]? = some s' ∧ s.Follows s'

theorem Follows.refl (r : Roster) : r.Follows r := fun _ s hs => ⟨s, hs, .refl s⟩

theorem Follows.trans (h : r.Follows r') (h' : r'.Follows r'') : r.Follows r'' := fun id s hs => by
  obtain ⟨s', hs', hf⟩ := h id s hs
  obtain ⟨s'', hs'', hf'⟩ := h' id s' hs'
  exact ⟨s'', hs'', hf.trans hf'⟩

theorem follows_of_storages (he : r'.storages = r.storages) : r.Follows r' := fun _ s hs => ⟨s, he ▸ hs, .refl s⟩

theorem follows_updateHolder (r : Roster) (holder : HolderId) (f : Holder → Holder) :
    r.Follows (r.updateHolder holder f) :=
  follows_of_storages (storages_updateHolder r holder f)

theorem follows_updateStorage (hs : r.storages[id]? = some s) {f : Storage → Storage} (hf : s.Follows (f s)) :
    r.Follows (r.updateStorage id f) := fun other o ho => by
  by_cases he : other = id
  · subst he
    cases hs.symm.trans ho
    exact ⟨f s, storage_updateStorage hs f, hf⟩
  · exact ⟨o, (storage_updateStorage_ne he f).trans ho, .refl o⟩

theorem Sound.follows_register (hr : r.Sound) (id : StorageId) (thread : ThreadId) (holder : HolderId) :
    (r.register id thread holder).2.Sound ∧ r.Follows (r.register id thread holder).2 := by
  cases hs : r.storages[id]? with
  | none =>
    rw [Roster.register, hs]
    exact ⟨hr, .refl r⟩
  | some s =>
    cases hh : r.holder? holder with
    | none =>
      rw [Roster.register, hs, hh]
      exact ⟨hr, .refl r⟩
    | some h =>
      refine ⟨(hr.register hs hh thread).1, ?_⟩
      simp only [Roster.register, hs, hh, checkThread_eq hs]
      by_cases ho : s.owner.getD thread = thread
      · have hbound : r.Follows (r.updateStorage id (·.bind thread)) :=
          follows_updateStorage hs (s.follows_bind thread)
        simp only [ho, if_true]
        split
        · exact hbound
        · split
          · exact hbound
          · rename_i hmark
            obtain ⟨hb, hsb, _⟩ := hr.bound hs ho
            have hnot := hb.not_mem_stack ((markOf_eq hh).trans (Classical.not_not.1 hmark)) hsb
            have hpushed := (hb.linked id _ hsb).follows_push hnot
            have hmarked := follows_updateHolder (r.updateStorage id (·.bind thread)) holder fun h =>
              { h with mark := s.worker }
            refine hbound.trans (hmarked.trans (follows_updateStorage ?_ hpushed))
            rw [storages_updateHolder]
            exact hsb
      · simp only [ho, if_false]
        exact .refl r

theorem Sound.follows_deregister (hr : r.Sound) (id : StorageId) (thread : ThreadId) :
    (r.deregister id thread).2.Sound ∧ r.Follows (r.deregister id thread).2 := by
  cases hs : r.storages[id]? with
  | none =>
    rw [Roster.deregister, hs]
    exact ⟨hr, .refl r⟩
  | some s =>
    refine ⟨(hr.deregister hs thread).1, ?_⟩
    simp only [Roster.deregister, hs, checkThread_eq hs]
    by_cases ho : s.owner.getD thread = thread
    · have hbound : r.Follows (r.updateStorage id (·.bind thread)) := follows_updateStorage hs (s.follows_bind thread)
      simp only [ho, if_true]
      split
      · exact hbound
      · rename_i top rest hpop
        obtain ⟨hb, hsb, _⟩ := hr.bound hs ho
        have hgone := follows_updateHolder (r.updateStorage id (·.bind thread)) top fun h =>
          { h with mark := Holder.unregistered }
        refine hbound.trans (hgone.trans ((follows_updateHolder _ top _).trans (follows_updateStorage ?_
          ((hb.linked id _ hsb).follows_pop hpop _))))
        rw [storages_updateHolder, storages_updateHolder]
        exact hsb
    · simp only [ho, if_false]
      exact .refl r

theorem sound_empty : Roster.empty.Sound where
  worker _ _ hs := by cases hs
  linked _ _ hs := by cases hs
  marked _ _ hs := by cases hs
  stacked holder hm := absurd (by cases holder <;> rfl) hm
  disjoint _ _ _ _ hs := by cases hs

theorem storages_addStorage {worker : WorkerId} {space : SpaceId}
    (hs : (r.addStorage worker space).2.storages[id]? = some s) :
    r.storages[id]? = some s ∨ s = .fresh worker space := by
  rcases Nat.lt_or_ge id r.storages.length with hlt | hge
  · exact .inl ((List.getElem?_append_left hlt).symm.trans hs)
  · exact .inr (List.mem_singleton.1 (List.mem_of_getElem? ((List.getElem?_append_right hge).symm.trans hs)))

theorem Sound.addStorage (hr : r.Sound) {worker : WorkerId} (space : SpaceId) (hw : worker ≠ Holder.unregistered) :
    (r.addStorage worker space).2.Sound := by
  refine ⟨fun id s hs => ?_, fun id s hs => ?_, fun id s hs holder hin => ?_, fun holder hm => ?_,
    fun i j a b ha hb holder hina hinb => ?_⟩
  · rcases storages_addStorage hs with hs | rfl
    · exact hr.worker id s hs
    · exact hw
  · rcases storages_addStorage hs with hs | rfl
    · exact hr.linked id s hs
    · exact Storage.linked_fresh worker space
  · rcases storages_addStorage hs with hs | rfl
    · exact hr.marked id s hs holder hin
    · cases hin
  · obtain ⟨id, s, hs, hin⟩ := hr.stacked holder hm
    refine ⟨id, s, ?_, hin⟩
    exact (List.getElem?_append_left (List.getElem?_eq_some_iff.1 hs).1).trans hs
  · rcases storages_addStorage ha with ha | rfl
    · rcases storages_addStorage hb with hb | rfl
      · exact hr.disjoint i j a b ha hb holder hina hinb
      · cases hinb
    · cases hina

theorem follows_addStorage (r : Roster) (worker : WorkerId) (space : SpaceId) :
    r.Follows (r.addStorage worker space).2 := fun _ s hs => by
  refine ⟨s, ?_, .refl s⟩
  have hlt := (List.getElem?_eq_some_iff.1 hs).1
  simp only [addStorage, List.getElem?_append_left hlt, hs]

end Roster

namespace Ledger

variable {l l' opened body : Ledger}

/-- Anything that may be done to a ledger, by whatever thread. -/
inductive Does (l : Ledger) : Ledger → Prop
  | call (op : RegistryOp) : Does l (l.call op).2
  | holder (owner : Option TaskId) : Does l (l.addHolder owner).2
  | storage (worker : WorkerId) (space : SpaceId) : worker ≠ Holder.unregistered →
    Does l (l.addStorage worker space).2
  | unlocalize (space : SpaceId) (holder : HolderId) : Does l (l.unlocalize space holder).2
  | memory (spaces : List Recorder) : Does l { l with spaces }

theorem deregister_roster (l : Ledger) (id : StorageId) (thread : ThreadId) :
    (l.deregister id thread).2.roster = (l.roster.deregister id thread).2 := by
  unfold Ledger.deregister
  split
  · rename_i he
    rw [he]
    rfl
  · rename_i he
    rw [he]

theorem Does.follows (hd : l.Does l') (hl : l.roster.Sound) : l'.roster.Sound ∧ l.roster.Follows l'.roster := by
  cases hd with
  | call op =>
    cases op with
    | register id thread holder => exact hl.follows_register id thread holder
    | deregister id thread =>
      simp only [Ledger.call, deregister_roster]
      exact hl.follows_deregister id thread
    | close id =>
      cases hs : l.roster.storages[id]? with
      | none =>
        have hsame : l.roster.updateStorage id Storage.close = l.roster := by
          simp only [Roster.updateStorage, List.modify_eq_self (List.getElem?_eq_none_iff.1 hs)]
        simp only [Ledger.call, hsame]
        exact ⟨hl, .refl _⟩
      | some s =>
        have hclosed : s.Follows s.close := { Storage.Follows.refl s with }
        exact ⟨hl.updateStorage hs rfl rfl rfl, Roster.follows_updateStorage hs hclosed⟩
    | record holder handle =>
      exact ⟨hl.updateHolder holder fun _ => rfl, l.roster.follows_updateHolder holder _⟩
  | holder owner => exact ⟨hl.addHolder owner, Roster.follows_of_storages rfl⟩
  | storage worker space hw => exact ⟨hl.addStorage space hw, l.roster.follows_addStorage worker space⟩
  | unlocalize space holder =>
    exact ⟨hl.updateHolder holder fun _ => rfl, l.roster.follows_updateHolder holder _⟩
  | memory spaces => exact ⟨hl, .refl _⟩

/-- However much is done. -/
theorem follows_of_does (hd : Relation.ReflTransGen Does l l') (hl : l.roster.Sound) :
    l'.roster.Sound ∧ l.roster.Follows l'.roster := by
  induction hd with
  | refl => exact ⟨hl, .refl _⟩
  | tail _ hone ih =>
    obtain ⟨hsound, hfollows⟩ := hone.follows ih.1
    exact ⟨hsound, ih.2.trans hfollows⟩

/-! ## Brackets -/

/-- The stack of a storage is that of `l` below a holder, and the holders of that stack have the handles they
had in `l`. -/
structure Covers (l body : Ledger) (id : StorageId) (s : Storage) (holder : HolderId) : Prop where
  stack : (body.roster.storages[id]?).map Storage.active = some (holder :: s.active)
  handles : ∀ other ∈ s.active, (body.roster.holder? other).map Holder.handles =
    (l.roster.holder? other).map Holder.handles

/-- The bracket of a holder was closed in `body`. The storage has the stack that it had in `l`, the holders on
it have the handles they had, those of the holder itself are released one by one, and as many holders went as
came. -/
structure Restores (l body closed : Ledger) (id : StorageId) (s : Storage) (holder : HolderId) : Prop where
  storage : ∃ s', closed.roster.storages[id]? = some s' ∧ s'.active = s.active ∧
    s'.counters.registered + s.counters.deregistered = s'.counters.deregistered + s.counters.registered
  handles : ∀ other ∈ s.active, (closed.roster.holder? other).map Holder.handles =
    (l.roster.holder? other).map Holder.handles
  released : ∃ g, body.roster.holder? holder = some g ∧ closed.spaces = (body.release s.space g.handles).spaces ∧
    closed.roster.holder? holder = some { g with mark := Holder.unregistered, handles := [] }

/-- A bracket on an open storage of the thread can be opened; and whatever is done before it is closed, as long
as it keeps the stack and the handles of the others, it can be closed and restores them. -/
theorem bracket_restores (hl : l.roster.Sound) (hs : l.roster.storages[id]? = some s)
    (ho : s.owner.getD thread = thread) (hc : s.closed = false) (owner : Option TaskId) (current : Option HolderId) :
    ∃ bracket opened, l.openBracket id thread owner current = (.ok bracket, opened) ∧ bracket.parent = current ∧
      ∀ body, Relation.ReflTransGen Does opened body → l.Covers body id s bracket.holder →
        ∃ closed, body.closeBracket thread bracket = (.ok (), closed) ∧
          l.Restores body closed id s bracket.holder := by
  obtain ⟨roster, hreg, hopened⟩ := hl.opened hs owner ho hc
  refine ⟨_, _, openBracket_eq current hreg, rfl, fun body hdone hcovers => ?_⟩
  have hadded : l.roster.Follows (l.roster.addHolder owner).2 := Roster.follows_of_storages rfl
  have hcame := ((hl.addHolder owner).follows_register id thread (l.roster.holders.length + 1)).2
  rw [hreg] at hcame
  obtain ⟨hsound, hfollows⟩ := follows_of_does hdone hopened.sound
  obtain ⟨s₁, hs₁, hrestacked⟩ := hopened.storage s hs
  obtain ⟨s₂, hs₂, hfollows₂⟩ := hfollows id s₁ hs₁
  -- the holder of the bracket is on top of a storage that is bound to the thread
  have howner : s₂.owner.getD thread = thread := by
    rw [hfollows₂.owner thread hrestacked.owner]
    rfl
  have hstack : s₂.stack = (l.roster.holders.length + 1) :: s.active := by
    have hactive := hcovers.stack
    rw [hs₂, Option.map_some] at hactive
    rw [← (hsound.linked id s₂ hs₂).active_eq]
    exact Option.some.inj hactive
  obtain ⟨g, roster', hg, hd, hclosed⟩ := hsound.closed hs₂ howner hstack
  have hwent := (hsound.follows_deregister id thread).2
  rw [hd] at hwent
  obtain ⟨s₃, hs₃, hreleased⟩ := hclosed.storage s₂ hs₂
  have hactive : s₃.active = s.active := (hclosed.sound.linked id s₃ hs₃).active_eq.trans hreleased.stack
  have hbelow : ∀ other ∈ s.active, other ≠ l.roster.holders.length + 1 := by
    intro other hin
    rw [(hl.linked id s hs).active_eq] at hin
    obtain ⟨h, hh⟩ := hl.exists_holder hs hin
    exact Roster.ne_fresh hh
  have hspace : s₂.space = s.space := hfollows₂.space.trans hrestacked.space
  refine ⟨_, closeBracket_eq (b := ⟨id, l.roster.holders.length + 1, current⟩) hs₂ hd, ⟨s₃, hs₃, hactive, ?_⟩,
    fun other hin => ?_, g, hg, by rw [hspace]; rfl, (hclosed.holder g hg).1⟩
  · obtain ⟨found, hfound, hcounted⟩ := (hadded.trans (hcame.trans (hfollows.trans hwent))) id s hs
    cases hs₃.symm.trans hfound
    have hcount := hcounted.counted
    rw [hreleased.stack, ← (hl.linked id s hs).active_eq] at hcount
    omega
  · rw [← hcovers.handles other hin]
    exact congrArg (Option.map Holder.handles) (hclosed.holders other (hbelow other hin))

end Ledger

namespace Machine

variable {σ : Type} {m after : Machine σ} {th x : Thread σ} {task : TaskId} {frame : Bracket → Frame σ}
  {body : Body σ} {goesOn : Except Payload Value → Control σ} {bracket : Bracket} {result : Except Payload Value}

/-- The body that a thread is to begin on a storage, its task and its frame, and how the thread goes on with the
result. -/
inductive Begins (m : Machine σ) (th : Thread σ) (storage : StorageId) :
    TaskId → (Bracket → Frame σ) → Body σ → (Except Payload Value → Control σ) → Prop
  | task {t body cell started} : th.control = .begin t storage body → m.cell? t = some cell →
    cell.start = .ok started →
    Begins m th storage t (.task t · th.currentTask) body fun result =>
      .publish t (result.mapError (JoinError.panicked t))
  | root {runtime rt body next} : th.control = .run (.blockOn runtime body next) →
    m.runtimes[runtime]? = some rt → rt.storages[WorkerId.root]? = some storage →
    Begins m th storage TaskId.root (.root · th.currentTask next) body fun result => .run (next result)

theorem step_eq_stepThread (hth : m.threads[thread]? = some th) (hcrash : m.crash = none) (choice : Choice) :
    m.step thread choice = m.stepThread thread th choice := by
  simp [step, hcrash, hth]

theorem Begins.enter (hb : m.Begins th id task frame body goesOn) (hth : m.threads[thread]? = some th)
    (hcrash : m.crash = none) (choice : Choice) :
    ∃ tasks, m.step thread choice = some ({ m with tasks }.openBracket thread th id task frame body) := by
  rw [step_eq_stepThread hth hcrash, stepThread]
  cases hb with
  | @task _ _ _ started hctl hc hstart =>
    rw [hctl]
    refine ⟨(m.setCell started).tasks, ?_⟩
    simp only [hc, hstart, Option.pure_def, Option.bind_eq_bind, Option.bind_some]
    rfl
  | root hctl hrt hstorage =>
    rw [hctl]
    refine ⟨m.tasks, ?_⟩
    simp only [runBody, hrt, hstorage, Option.pure_def, Option.bind_eq_bind, Option.bind_some]

theorem Begins.leave (hb : m.Begins th id task frame body goesOn) (hx : after.threads[thread]? = some x)
    (hcrash : after.crash = none) (hctl : x.control = .leave result) {frames : List (Frame σ)}
    (hf : x.frames = frame bracket :: frames) (choice : Choice) :
    after.step thread choice =
      some (after.closeBracket thread x bracket th.currentTask frames (goesOn result)) := by
  rw [step_eq_stepThread hx hcrash, stepThread, hctl]
  cases hb <;> simp only [hf]

/-- A thread is to begin a body on an open storage of its own. The ledger is what came of an empty one by anything
that was done. -/
structure Entering (m : Machine σ) (thread : ThreadId) (th : Thread σ) (id : StorageId) (s : Storage)
    (task : TaskId) (frame : Bracket → Frame σ) (body : Body σ) (goesOn : Except Payload Value → Control σ) :
    Prop where
  reached : ∃ spaces, Relation.ReflTransGen Ledger.Does ⟨spaces, .empty⟩ m.ledger
  calm : m.crash = none
  self : m.threads[thread]? = some th
  storage : m.ledger.roster.storages[id]? = some s
  owner : s.owner.getD thread = thread
  closed : s.closed = false
  begins : m.Begins th id task frame body goesOn

/-- The body of a bracket is over, with a result: whatever it and others did since the bracket was opened, it
leaves the stack and the handles of the others as it found them. What holder is the current one by now, and what
task the thread is marked with, does not matter. -/
structure Leaving (m opened : Machine σ) (thread : ThreadId) (th : Thread σ) (id : StorageId) (s : Storage)
    (frame : Bracket → Frame σ) (bracket : Bracket) (after : Machine σ) (x : Thread σ)
    (result : Except Payload Value) : Prop where
  done : Relation.ReflTransGen Ledger.Does opened.ledger after.ledger
  covers : m.ledger.Covers after.ledger id s bracket.holder
  calm : after.crash = none
  self : after.threads[thread]? = some x
  control : x.control = .leave result
  frames : x.frames = frame bracket :: th.frames
  context : ∃ mark, x.context = (th.setTask mark).context

/-- The body begins, with a new holder as the current one. When it is over, the thread goes on with its result, and
has the frames, the holder and the mark of its task from before; so has its storage what it had. -/
def Bracketed (m : Machine σ) (thread : ThreadId) (th : Thread σ) (id : StorageId) (s : Storage) (task : TaskId)
    (frame : Bracket → Frame σ) (body : Body σ) (goesOn : Except Payload Value → Control σ) : Prop :=
  ∀ choice, ∃ bracket opened, m.step thread choice = some opened ∧ opened.crash = none ∧
    opened.threads[thread]? = some { th.setTask (some task) with
      control := .run body, frames := frame bracket :: th.frames, holder := some bracket.holder } ∧
    ∀ after x result choice, m.Leaving opened thread th id s frame bracket after x result →
      ∃ closed, after.step thread choice = some closed ∧ closed.crash = none ∧
        closed.threads[thread]? = some { x with
          control := goesOn result, frames := th.frames, holder := th.holder, context := th.context } ∧
        m.ledger.Restores after.ledger closed.ledger id s bracket.holder

theorem Entering.bracketed (he : m.Entering thread th id s task frame body goesOn) :
    m.Bracketed thread th id s task frame body goesOn := by
  intro choice
  obtain ⟨spaces, hreached⟩ := he.reached
  obtain ⟨bracket, ledger, hopen, hparent, hclose⟩ := Ledger.bracket_restores
    (Ledger.follows_of_does hreached Roster.sound_empty).1 he.storage he.owner he.closed (some task) th.holder
  have hset : ∀ {before : Machine σ} {x : Thread σ} (ledger : Ledger) (x' : Thread σ),
      before.threads[thread]? = some x → ({ before with ledger }.setThread thread x').threads[thread]? = some x' :=
    fun _ _ hx => List.getElem?_set_self (List.getElem?_eq_some_iff.1 hx).1
  obtain ⟨tasks, henter⟩ := he.begins.enter he.self he.calm choice
  refine ⟨bracket, _, henter, ?_, ?_, fun after x result choice hl => ?_⟩
  · simp only [openBracket, hopen]
    exact he.calm
  · simp only [openBracket, hopen]
    exact hset ledger _ he.self
  · have hledger : ({ m with tasks }.openBracket thread th id task frame body).ledger = ledger := by
      simp only [openBracket, hopen]
      rfl
    obtain ⟨closed, hclosed, hrestores⟩ := hclose after.ledger (hledger ▸ hl.done) hl.covers
    refine ⟨_, he.begins.leave hl.self hl.calm hl.control hl.frames choice, ?_, ?_, ?_⟩ <;>
      simp only [closeBracket, hclosed]
    · exact hl.calm
    · refine (hset closed _ hl.self).trans ?_
      obtain ⟨mark, hcontext⟩ := hl.context
      have hmark := (Thread.context_setTask hcontext).trans th.context_setTask_currentTask
      simp only [Thread.setTask] at hmark ⊢
      rw [hmark, hparent]
    · exact hrestores

end Machine

end TaskSpace

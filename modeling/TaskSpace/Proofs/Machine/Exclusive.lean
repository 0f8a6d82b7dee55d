import TaskSpace.Proofs.Machine.Orderly
import TaskSpace.Proofs.Machine.Passes

/-!
# One runtime to a thread

A thread that builds a runtime is marked, and works for that runtime as its root until it has shut it down; then
it has back what it worked for before. As long as it is marked every build is refused, and a build that is refused
changes nothing. So a thread has at most one runtime of its own up, and a thread that was not started by a runtime
works for no other then. The threads of a pool are not marked when they start: a task that runs on one of them
builds a runtime within the one that it works for, though no third within that.
-/

namespace TaskSpace

variable {σ : Type}

/-- The runtime and the worker of a context, whatever the task. -/
def Context.office (c : Context) : RuntimeId × WorkerId := (c.runtime, c.worker)

/-- What a thread does to a runtime of its own. -/
inductive Deed where
  | built (r : RuntimeId)
  | closed (r : RuntimeId)
deriving DecidableEq, Repr

namespace Deed

/-- The runtimes that are up after a deed. -/
def apply (up : List RuntimeId) : Deed → List RuntimeId
  | built r => r :: up
  | closed r => up.erase r

end Deed

/-- The runtime that a frame goes on to shut down. -/
def Frame.closing? : Frame σ → Option RuntimeId
  | .drain runtime _ _ => some runtime
  | .task _ _ _ | .root _ _ _ | .joiner _ _ _ | .loop _ _ _ => none

namespace Control

def closing? : Control σ → Option RuntimeId
  | .stop runtime _ _ => some runtime
  | _ => none

/-- The deed that a step is in which a runtime was launched, or none was. -/
def deed? (launched : Option RuntimeId) : Control σ → Option Deed
  | .run (.build _ _ _) => launched.map .built
  | .stop runtime .close _ => some (.closed runtime)
  | _ => none

end Control

namespace Thread

/-- The runtimes that the thread is shutting down. -/
def closing (th : Thread σ) : List RuntimeId :=
  th.control.closing?.toList ++ th.frames.filterMap Frame.closing?

/-- What a thread works for without having built a runtime: a thread of a pool as a worker of the pool, any other
thread for nobody. -/
def Native (th : Thread σ) (office : Option (RuntimeId × WorkerId)) : Prop :=
  if th.clock?.isSome then ∃ r w, office = some (r, w) ∧ w ≠ WorkerId.root else office = none

theorem Native.congr {th th' : Thread σ} {office : Option (RuntimeId × WorkerId)} (h : th.Native office)
    (hloop : th'.clock?.isSome = th.clock?.isSome) : th'.Native office := by
  rwa [Native, hloop]

@[simp] theorem office_setTask (th : Thread σ) (task : Option TaskId) :
    (th.setTask task).context.map Context.office = th.context.map Context.office := by
  rw [setTask, Option.map_map]
  rfl

end Thread

namespace Machine

variable {m m' rest : Machine σ} {id other : ThreadId} {th th' x : Thread σ} {choice : Choice} {r : RuntimeId}
  {rt : Runtime} {up : List RuntimeId} {turns : Turns σ}

/-- The runtime that a step launched. -/
def launched? (m m' : Machine σ) : Option RuntimeId :=
  if m.runtimes.length < m'.runtimes.length then some m.runtimes.length else none

/-- What a turn of a thread did to a runtime of its own. -/
def deed? (id : ThreadId) (turn : Turn (Machine σ) (ThreadId × Choice)) : Option Deed :=
  if turn.act.1 = id then do
    let th ← turn.before.threads[id]?
    th.control.deed? (turn.before.launched? turn.after)
  else none

def deeds (id : ThreadId) (turns : Turns σ) : List Deed := turns.filterMap (deed? id)

/-- The runtimes that a thread has built and not closed yet. -/
def standing (id : ThreadId) (turns : Turns σ) : List RuntimeId := (deeds id turns).foldl Deed.apply []

theorem standing_concat (id : ThreadId) (turns : Turns σ) (turn : Turn (Machine σ) (ThreadId × Choice)) :
    standing id (turns ++ [turn]) = ((deed? id turn).toList).foldl Deed.apply (standing id turns) := by
  rw [standing, deeds, List.filterMap_append, List.foldl_append, standing, deeds]
  cases hd : deed? id turn <;> simp [hd]

/-- A thread that has these runtimes up. -/
inductive Has (m : Machine σ) (th : Thread σ) : List RuntimeId → Prop
  | free : th.active = false → th.Native (th.context.map Context.office) → th.closing = [] → Has m th []
  | busy {own built} : th.active = true → th.context.map Context.office = some (own, WorkerId.root) →
    m.runtimes[own]? = some built → th.Native (built.outer.map Context.office) →
    th.closing = [] ∨ th.closing = [own] ∧ built.stopping = true → Has m th [own]

/-- What lasts of a runtime. -/
def Lasts (m m' : Machine σ) : Prop :=
  ∀ (r : RuntimeId) (rt : Runtime), m.runtimes[r]? = some rt →
    ∃ rt', m'.runtimes[r]? = some rt' ∧ rt'.outer = rt.outer ∧ (rt.stopping = true → rt'.stopping = true)

theorem Lasts.of_eq (h : m'.runtimes = m.runtimes) : m.Lasts m' :=
  fun _ rt hrt => ⟨rt, h ▸ hrt, rfl, fun hs => hs⟩

theorem Lasts.of_modify {f : Runtime → Runtime} (h : m'.runtimes = m.runtimes.modify r f)
    (hf : ∀ rt, (f rt).outer = rt.outer ∧ (rt.stopping = true → (f rt).stopping = true)) : m.Lasts m' := by
  intro s rt hrt
  by_cases he : r = s
  · subst he
    exact ⟨f rt, by rw [h, List.getElem?_modify_eq, hrt]; rfl, hf rt⟩
  · exact ⟨rt, by rw [h, List.getElem?_modify_ne _ _ he, hrt], rfl, id⟩

/-- A step keeps the runtimes that are there, with what their builders worked for before, and none that stops goes
on. -/
theorem Move.lasts (hm : m.Move id th rest th') (hcrash : rest.crash = none) : m.Lasts rest := by
  cases hm with
  | spawned | woke | found | parked | rang => exact .of_modify rfl fun _ => ⟨rfl, fun hs => hs⟩
  | stopped => exact .of_modify rfl fun _ => ⟨rfl, fun _ => rfl⟩
  | @closed _ found _ storage =>
    obtain ⟨left, crash, he⟩ := dropQueues_eq (m.closeStorage storage) (queued found.queues)
    rw [he]
    exact .of_modify rfl fun _ => ⟨rfl, fun hs => hs⟩
  | launched =>
    refine fun r rt hrt => ⟨rt, ?_, rfl, fun hs => hs⟩
    exact (List.getElem?_append_left (List.getElem?_eq_some_iff.1 hrt).1).trans hrt
  | crashed => cases hcrash
  | _ => exact .of_eq rfl

theorem Has.congr (h : m.Has th up) (hl : m.Lasts m') (hactive : th'.active = th.active)
    (hoffice : th'.context.map Context.office = th.context.map Context.office)
    (hloop : th'.clock?.isSome = th.clock?.isSome) (hclosing : th'.closing = th.closing) : m'.Has th' up := by
  cases h with
  | free hf hn hc => exact .free (hactive ▸ hf) (hoffice ▸ hn.congr hloop) (hclosing ▸ hc)
  | busy hf ho hrt hn hc =>
    obtain ⟨rt', hrt', houter, hstop⟩ := hl _ _ hrt
    refine .busy (hactive ▸ hf) (hoffice ▸ ho) hrt' (houter ▸ hn.congr hloop) (hclosing ▸ ?_)
    exact hc.imp_right fun ⟨hc, hs⟩ => ⟨hc, hstop hs⟩

/-- What most steps of a thread leave as it was. -/
structure Steady (launched : Option RuntimeId) (th th' : Thread σ) : Prop where
  deed : th.control.deed? launched = none
  active : th'.active = th.active
  office : th'.context.map Context.office = th.context.map Context.office
  loop : th'.clock?.isSome = th.clock?.isSome
  closing : th'.closing = th.closing

/-- What a step of a thread is to the runtimes that it has of its own. -/
inductive Manages (m : Machine σ) (th : Thread σ) (rest : Machine σ) (th' : Thread σ) : Prop
  | steady : Steady (m.launched? rest) th th' → Manages m th rest th'
  | launched {settings space next rt} : th.control = .run (.build settings space next) → th.active = false →
    rest.runtimes = m.runtimes ++ [rt] → rt.outer = th.context →
    th' = { th with
      control := .run (next (.ok m.runtimes.length))
      context := some ⟨m.runtimes.length, WorkerId.root, none⟩, active := true } →
    Manages m th rest th'
  | stopped {r rt next} : th.control = .run (.shutdown r next) → m.runtimes[r]? = some rt → rt.stopping = false →
    rest.runtimes = m.runtimes.modify r (fun rt => { rt with stopping := true }) →
    th' = { th with control := .stop r .wakeAll next } → Manages m th rest th'
  | closed {r rt next} : th.control = .stop r .close next → m.runtimes[r]? = some rt →
    th' = { th with control := .run next, context := rt.outer, active := false } → Manages m th rest th'

theorem Frame.closing?_of_past {frame : Frame σ} {past : Control σ} (h : frame.past? = some past) :
    past.closing? = none := by
  cases frame <;> cases h <;> rfl

theorem Move.manages (hm : m.Move id th rest th') (hth : m.threads[id]? = some th) (hcrash : rest.crash = none)
    (hgoes : th'.result? = none) : Manages m th rest th' := by
  have hsame : th.control.deed? (m.launched? rest) = none → th'.active = th.active →
      th'.context.map Context.office = th.context.map Context.office → th'.frames = th.frames →
      th.control.closing? = none → th'.control.closing? = none → Manages m th rest th' :=
    fun hd ha ho hf hc hc' => .steady ⟨hd, ha, ho, by rw [Thread.clock?, Thread.clock?, hf],
      by rw [Thread.closing, Thread.closing, hf, hc, hc']⟩
  cases hm with
  | @launched _ space next config hctl hfree =>
    obtain ⟨_, rt, hadded, _, houter, _⟩ :=
      m.launch_manned id th config space next (List.getElem?_eq_some_iff.1 hth).1
    exact .launched hctl hfree hadded houter rfl
  | stopped hctl hrt hgoing => exact .stopped hctl hrt hgoing rfl rfl
  | closed hctl hrt => exact .closed hctl hrt rfl
  | ended | exited => cases hgoes
  | crashed => cases hcrash
  | answered hctl ha =>
    cases ha <;> exact hsame (by simp [hctl, Control.deed?, launched?]) rfl rfl rfl (by rw [hctl]; rfl) rfl
  | @returned result hctl =>
    cases result <;> exact hsame (by rw [hctl]; rfl) rfl rfl rfl (by rw [hctl]; rfl) rfl
  | delivered ha =>
    rcases ha with hctl | hctl <;> exact hsame (by rw [hctl]; rfl) rfl rfl rfl (by rw [hctl]; rfl) rfl
  | spawned hctl | blocked hctl | woke hctl | took hctl | parked hctl | awake hctl | unparked hctl | forked hctl
  | joinedThread hctl | published hctl =>
    exact hsame (by rw [hctl]; rfl) rfl rfl rfl (by rw [hctl]; rfl) rfl
  | settled hctl _ _ _ hpast | passed hctl _ hpast =>
    exact hsame (by rw [hctl]; rfl) rfl rfl rfl (by rw [hctl]; rfl) (Frame.closing?_of_past hpast)
  | rooted hctl | began hctl =>
    exact .steady ⟨by rw [hctl]; rfl, rfl, th.office_setTask _, rfl,
      by rw [Thread.closing, Thread.closing, hctl]; rfl⟩
  | nested hctl | rang hctl | joinedPool hctl =>
    exact .steady ⟨by rw [hctl]; rfl, rfl, rfl, rfl, by rw [Thread.closing, Thread.closing, hctl]; rfl⟩
  | left hctl hf | leftRoot hctl hf =>
    exact .steady ⟨by rw [hctl]; rfl, rfl, th.office_setTask _, by rw [Thread.clock?, Thread.clock?, hf]; rfl,
      by rw [Thread.closing, Thread.closing, hctl, hf]; rfl⟩
  | resumed hctl _ _ hf | drained hctl hf | ticked hctl hf =>
    exact .steady ⟨by rw [hctl]; rfl, rfl, rfl, by rw [Thread.clock?, Thread.clock?, hf]; rfl,
      by rw [Thread.closing, Thread.closing, hctl, hf]; rfl⟩
  | @idle _ _ leaving _ _ _ _ hctl hf =>
    exact .steady ⟨by rw [hctl]; rfl, rfl, rfl, by rw [Thread.clock?, Thread.clock?, hf]; rfl,
      by rw [Thread.closing, Thread.closing, hctl, hf]; cases leaving <;> rfl⟩
  | found hctl hseeks =>
    cases hseeks with
    | loop hf =>
      exact .steady ⟨by rw [hctl]; rfl, rfl, rfl, by rw [Thread.clock?, Thread.clock?, hf]; rfl,
        by rw [Thread.closing, Thread.closing, hctl, hf]; rfl⟩
    | drain hf => exact hsame (by rw [hctl]; rfl) rfl rfl rfl (by rw [hctl]; rfl) rfl

/-- A thread that shuts a runtime down has that one up, and no other shutdown begun. -/
theorem Has.of_stop (h : m.Has th up) {stage : StopStage} {next : Body σ} (hctl : th.control = .stop r stage next) :
    up = [r] ∧ th.frames.filterMap Frame.closing? = [] ∧
      ∃ rt, m.runtimes[r]? = some rt ∧ th.Native (rt.outer.map Context.office) ∧ rt.stopping = true := by
  have hclosing : th.closing = r :: th.frames.filterMap Frame.closing? := by rw [Thread.closing, hctl]; rfl
  cases h with
  | free _ _ hc => cases hclosing.symm.trans hc
  | busy _ _ hrt hn hc =>
    rcases hc with hc | ⟨hc, hstop⟩
    · cases hclosing.symm.trans hc
    · obtain ⟨rfl, hrest⟩ := List.cons.inj (hclosing.symm.trans hc)
      exact ⟨rfl, hrest, _, hrt, hn, hstop⟩

/-- A step of a thread that has these runtimes up. A thread that builds one had none, and one that is done shutting
a runtime down had this one. -/
theorem Has.move (h : m.Has th up) (hm : m.Move id th rest th') (hth : m.threads[id]? = some th)
    (hcrash : rest.crash = none) (hgoes : th'.result? = none)
    (hown : ∀ r next, th.control = .run (.shutdown r next) → r ∈ up ∨
      ∃ rt, m.runtimes[r]? = some rt ∧ rt.stopping = true) :
    (rest.setThread id th').Has th' ((th.control.deed? (m.launched? rest)).toList.foldl Deed.apply up) := by
  have hl : m.Lasts (rest.setThread id th') := hm.lasts hcrash
  cases hm.manages hth hcrash hgoes with
  | steady hs =>
    rw [hs.deed]
    exact h.congr hl hs.active hs.office hs.loop hs.closing
  | @launched _ _ _ rt hctl hfree hadded houter he =>
    subst he
    have hnew : m.launched? rest = some m.runtimes.length := by simp [launched?, hadded]
    rw [hctl, hnew]
    cases h with
    | busy hactive => cases hfree.symm.trans hactive
    | free _ hn hc =>
      have hrt : rest.runtimes[m.runtimes.length]? = some rt := hadded ▸ List.getElem?_concat_length
      rw [Thread.closing, hctl] at hc
      exact .busy rfl rfl hrt (houter ▸ hn) (.inl hc)
  | @stopped r rt next hctl hrt hgoing hruntimes he =>
    subst he
    rw [hctl]
    have hup : r ∈ up := by
      rcases hown r next hctl with hup | ⟨found, hfound, hstop⟩
      · exact hup
      · cases hrt.symm.trans hfound
        cases hgoing.symm.trans hstop
    cases h with
    | free => cases hup
    | @busy own built hactive ho hbuilt hn hc =>
      obtain rfl := List.mem_singleton.1 hup
      cases hrt.symm.trans hbuilt
      have hopen : th.closing = [] := by
        rcases hc with hc | ⟨_, hstop⟩
        · exact hc
        · cases hgoing.symm.trans hstop
      rw [Thread.closing, hctl] at hopen
      have hrt' : rest.runtimes[r]? = some { rt with stopping := true } := by
        rw [hruntimes, List.getElem?_modify_eq, hrt]
        rfl
      exact .busy hactive ho hrt' hn (.inr ⟨congrArg (r :: ·) hopen, rfl⟩)
  | closed hctl hrt he =>
    subst he
    obtain ⟨rfl, hrest, _, hfound, hn, _⟩ := h.of_stop hctl
    cases hrt.symm.trans hfound
    rw [hctl, Control.deed?, Option.toList_some, List.foldl_cons, List.foldl_nil, Deed.apply, List.erase_cons_head]
    exact .free rfl hn hrest

/-! ## Runs -/

/-- The runtime that a turn is to shut down. -/
def stops? (turn : Turn (Machine σ) (ThreadId × Choice)) : Option RuntimeId :=
  match (turn.before.threads[turn.act.1]?).map Thread.control with
  | some (.run (.shutdown r _)) => some r
  | _ => none

/-- Runtimes do not leave the thread that built them: no thread shuts down one that it has not built. -/
def StopsOwn (turns : Turns σ) : Prop :=
  ∀ i, ∀ h : i < turns.length, ∀ r ∈ stops? turns[i], .built r ∈ deeds turns[i].act.1 (turns.take i)

theorem StopsOwn.init {later : Turns σ} (h : StopsOwn (turns ++ later)) : StopsOwn turns := by
  intro i hi r hr
  have hmine := h i (Nat.lt_of_lt_of_le hi (by simp)) r
  simp only [List.getElem_append_left hi, List.take_append_of_le_length hi.le] at hmine
  exact hmine hr

theorem StopsOwn.last {turn : Turn (Machine σ) (ThreadId × Choice)} (h : StopsOwn (turns ++ [turn]))
    (hr : r ∈ stops? turn) : .built r ∈ deeds turn.act.1 turns := by
  have hmine := h turns.length (by simp) r
  simp only [List.getElem_concat_length, List.take_left'] at hmine
  exact hmine hr

instance : DecidablePred (StopsOwn (σ := σ)) := fun turns =>
  inferInstanceAs (Decidable (∀ i, ∀ h : i < turns.length, ∀ r ∈ stops? turns[i], _))

/-- What is so after a run in which every thread shuts down its own runtimes only. -/
structure Exclusive (parallelism : Nat) (turns : Turns σ) (m : Machine σ) : Prop where
  cores : m.parallelism = parallelism
  has : ∀ id th, m.threads[id]? = some th → th.result? = none → m.Has th (standing id turns)
  unborn : ∀ id, m.threads[id]? = none → deeds id turns = []
  /-- What was built works for its builder still, or has begun to stop, and knows what that worked for before. -/
  built : ∀ turn ∈ turns, ∀ id r, deed? id turn = some (.built r) →
    ∃ th rt, turn.before.threads[id]? = some th ∧ m.runtimes[r]? = some rt ∧ rt.outer = th.context ∧
      (r ∈ standing id turns ∨ rt.stopping = true)

variable {parallelism : Nat}

theorem deed?_self (hth : m.threads[id]? = some th) :
    deed? id ⟨m, (id, choice), m'⟩ = th.control.deed? (m.launched? m') := by
  rw [deed?, if_pos rfl, hth]
  rfl

theorem deed?_other (hne : other ≠ id) : deed? other ⟨m, (id, choice), m'⟩ = none := if_neg hne.symm

/-- A thread that a step adds is a plain one, or it is of a pool. -/
theorem Move.fresh (hm : m.Move id th rest th') (hne : other ≠ id) (hnone : m.threads[other]? = none)
    (hx : (rest.setThread id th').threads[other]? = some x) :
    (∃ body, x = .plain body) ∨ ∃ runtime i, x = .pooled runtime (i + 1) := by
  simp only [setThread, List.getElem?_set_ne hne.symm] at hx
  have hgone : m.threads[other]? ≠ some x := fun hsome => by cases hnone.symm.trans hsome
  have hlen : m.threads.length ≤ other := List.getElem?_eq_none_iff.1 hnone
  cases hm with
  | launched =>
    rw [List.getElem?_append_right hlen] at hx
    obtain ⟨i, _, rfl⟩ := List.mem_map.1 (List.mem_of_getElem? hx)
    exact .inr ⟨_, i, rfl⟩
  | forked =>
    rw [List.getElem?_append_right hlen] at hx
    exact .inl ⟨_, List.mem_singleton.1 (List.mem_of_getElem? hx)⟩
  | @closed _ _ _ storage =>
    exact absurd ((congrArg (·[other]?) (threads_dropQueues (m.closeStorage storage) _)).symm.trans hx) hgone
  | crashed ha => cases ha <;> exact absurd hx hgone
  | _ => exact absurd hx hgone

theorem stop_of_closed {control : Control σ} {launched : Option RuntimeId}
    (h : control.deed? launched = some (.closed r)) : ∃ next, control = .stop r .close next := by
  unfold Control.deed? at h
  split at h
  · cases launched <;> cases h
  · cases h
    exact ⟨_, rfl⟩
  · cases h

theorem launched_of_built {control : Control σ} (h : control.deed? (m.launched? rest) = some (.built r)) :
    m.runtimes.length < rest.runtimes.length ∧ r = m.runtimes.length := by
  unfold Control.deed? launched? at h
  split at h
  · split at h
    · rename_i hgrown
      cases h
      exact ⟨hgrown, rfl⟩
    · cases h
  · cases h
  · cases h

/-- A runtime that is up stays so, unless it has been shut down. -/
theorem Has.kept (h : m.Has th up) (hr : r ∈ up) (hrt : m.runtimes[r]? = some rt) (launched : Option RuntimeId) :
    r ∈ (th.control.deed? launched).toList.foldl Deed.apply up ∨ rt.stopping = true := by
  cases hd : th.control.deed? launched with
  | none => exact .inl hr
  | some deed =>
    cases deed with
    | built new => exact .inl (List.mem_cons_of_mem new hr)
    | closed gone =>
      obtain ⟨next, hctl⟩ := stop_of_closed hd
      obtain ⟨rfl, _, _, hfound, _, hstop⟩ := h.of_stop hctl
      obtain rfl := List.mem_singleton.1 hr
      cases hrt.symm.trans hfound
      exact .inr hstop

/-- A runtime that a turn builds is there afterwards, and knows what its builder worked for before. -/
theorem built_of_step (hm : m.Move id th rest th') (hth : m.threads[id]? = some th) (hcrash : rest.crash = none)
    (hd : deed? other ⟨m, (id, choice), rest.setThread id th'⟩ = some (.built r)) :
    other = id ∧ ∃ rt, (rest.setThread id th').runtimes[r]? = some rt ∧ rt.outer = th.context := by
  by_cases hne : other = id
  · subst hne
    refine ⟨rfl, ?_⟩
    rw [deed?_self hth] at hd
    obtain ⟨hgrown, rfl⟩ := launched_of_built hd
    rcases hm.tends hcrash with ⟨_, _, _, hruntimes, _⟩ | ⟨_, space, next, config, _, hruntimes, _⟩
    · rw [setThread, hruntimes, List.length_modify] at hgrown
      exact absurd hgrown (Nat.lt_irrefl _)
    · obtain ⟨_, rt, hadded, _, houter, _⟩ :=
        m.launch_manned other th config space next (List.getElem?_eq_some_iff.1 hth).1
      refine ⟨rt, ?_, houter⟩
      rw [setThread, hruntimes, hadded]
      exact List.getElem?_concat_length
  · rw [deed?_other hne] at hd
    cases hd

theorem Exclusive.step (h : Exclusive parallelism turns m) {act : ThreadId × Choice}
    (hs : advance m act = some m') (hcrash : m'.crash = none) (hown : StopsOwn (turns ++ [⟨m, act, m'⟩])) :
    Exclusive parallelism (turns ++ [⟨m, act, m'⟩]) m' := by
  obtain ⟨id, choice⟩ := act
  obtain ⟨th, rest, th', hth, _, hm, rfl⟩ := exists_move hs
  have hhas := h.has id th hth hm.live
  have hl : m.Lasts (rest.setThread id th') := hm.lasts hcrash
  have hmine : ∀ r next, th.control = .run (.shutdown r next) → r ∈ standing id turns ∨
      ∃ rt, m.runtimes[r]? = some rt ∧ rt.stopping = true := by
    intro r next hctl
    have hr : r ∈ stops? ⟨m, (id, choice), rest.setThread id th'⟩ := by simp [stops?, hth, hctl]
    obtain ⟨turn, hturn, hdeed⟩ := List.mem_filterMap.1 (hown.last hr)
    obtain ⟨_, rt, _, hrt, _, hup⟩ := h.built turn hturn id r hdeed
    exact hup.imp_right fun hstop => ⟨rt, hrt, hstop⟩
  refine ⟨hm.parallelism.trans h.cores, fun other x hx hgoes => ?_, fun other hnone => ?_,
    fun turn hturn other r hdeed => ?_⟩
  · rw [standing_concat]
    by_cases hne : other = id
    · subst hne
      obtain rfl := Option.some.inj (hx.symm.trans (hm.self hth))
      rw [deed?_self hth]
      exact hhas.move hm hth hcrash hgoes hmine
    · rw [deed?_other hne]
      rcases hm.others hne with hsame | ⟨hnone, _⟩
      · exact (h.has other x (hsame ▸ hx) hgoes).congr hl rfl rfl rfl rfl
      · rw [standing, h.unborn other hnone]
        rcases hm.fresh hne hnone hx with ⟨_, rfl⟩ | ⟨_, i, rfl⟩
        · exact .free rfl rfl rfl
        · exact .free rfl ⟨_, _, rfl, Nat.succ_ne_zero i⟩ rfl
  · have hne : other ≠ id := by
      rintro rfl
      cases hnone.symm.trans (hm.self hth)
    have hbefore : m.threads[other]? = none := by
      cases hx : m.threads[other]? with
      | none => rfl
      | some x => cases hnone.symm.trans (hm.kept hx hne)
    rw [deeds, List.filterMap_append, ← deeds, h.unborn other hbefore, List.filterMap_cons_none (deed?_other hne)]
    rfl
  · rw [standing_concat]
    rcases List.mem_append.1 hturn with hturn | hturn
    · obtain ⟨builder, rt, hbuilder, hrt, houter, hup⟩ := h.built turn hturn other r hdeed
      obtain ⟨rt', hrt', houter', hstop⟩ := hl r rt hrt
      refine ⟨builder, rt', hbuilder, hrt', houter'.trans houter, ?_⟩
      rcases hup with hup | hup
      · by_cases hne : other = id
        · subst hne
          rw [deed?_self hth]
          exact (hhas.kept hup hrt _).imp_right hstop
        · rw [deed?_other hne]
          exact .inl hup
      · exact .inr (hstop hup)
    · obtain rfl := List.mem_singleton.1 hturn
      obtain ⟨rfl, rt, hrt, houter⟩ := built_of_step hm hth hcrash hdeed
      exact ⟨th, rt, hth, hrt, houter, .inl (by rw [hdeed]; exact List.mem_cons_self)⟩

theorem exclusive_of_run {spaces : List Recorder} {shared : σ} {body : Body σ}
    {schedule : List (ThreadId × Choice)}
    (hrun : trail advance (start parallelism spaces shared body) schedule = some (turns, m))
    (hown : StopsOwn turns) (hcrash : m.crash = none) : Exclusive parallelism turns m := by
  refine trail_induction (P := fun turns m => StopsOwn turns → m.crash = none → Exclusive parallelism turns m)
    (fun turns m act after ih hs hown hafter => ?_) (fun _ _ => ?_) hrun hown hcrash
  · obtain ⟨_, _, _, _, hnone, _⟩ := exists_move hs
    exact (ih hown.init hnone).step hs hafter hown
  · refine ⟨rfl, fun id th hth _ => ?_, fun _ _ => rfl, fun _ hturn => by cases hturn⟩
    rw [List.mem_singleton.1 (List.mem_of_getElem? hth)]
    exact .free rfl rfl rfl

/-- The answer to a build with these settings by a thread that has these runtimes up. -/
def verdict (parallelism : Nat) (settings : Settings) (up : List RuntimeId) : Except BuildError Config :=
  if up ≠ [] then .error .alreadyActive
  else
    match settings.toConfig parallelism with
    | .error error => .error (.config error)
    | .ok config => config.checkPool.map fun _ => config

theorem Has.build (h : m.Has th up) (settings : Settings) (space : Option SpaceId)
    (next : Except BuildError RuntimeId → Body σ) :
    m.build id th settings space next = match verdict m.parallelism settings up with
      | .error error => m.setThread id (th.continueWith (next (.error error)))
      | .ok config => m.launch id th config space next := by
  cases h with
  | busy hactive => simp [Machine.build, verdict, hactive]
  | free hfree =>
    simp only [Machine.build, verdict, hfree]
    cases settings.toConfig m.parallelism with
    | error error => rfl
    | ok config => cases hpool : config.checkPool <;> simp [hpool] <;> rfl

/-- What a turn is to the runtimes of its thread, which is `th`, after the turns before it. -/
structure Managed (parallelism : Nat) (earlier : Turns σ) (turn : Turn (Machine σ) (ThreadId × Choice))
    (th : Thread σ) : Prop where
  has : turn.before.Has th (standing turn.act.1 earlier)
  /-- A build that is refused leaves nothing but the answer. -/
  refused : ∀ settings space next error, th.control = .run (.build settings space next) →
    verdict parallelism settings (standing turn.act.1 earlier) = .error error →
    turn.after = turn.before.setThread turn.act.1 (th.continueWith (next (.error error))) ∧
      standing turn.act.1 (earlier ++ [turn]) = standing turn.act.1 earlier
  /-- A thread that builds a runtime has none, and works for nobody unless it is of a pool. -/
  accepted : ∀ settings space next config, th.control = .run (.build settings space next) →
    verdict parallelism settings (standing turn.act.1 earlier) = .ok config →
    standing turn.act.1 earlier = [] ∧ th.Native (th.context.map Context.office) ∧
      turn.after = turn.before.launch turn.act.1 th config space next ∧
      standing turn.act.1 (earlier ++ [turn]) = [turn.before.runtimes.length]
  /-- A thread that is done shutting its runtime down works for whom it did when it built that, and has none. -/
  closed : ∀ r next, th.control = .stop r .close next →
    standing turn.act.1 earlier = [r] ∧ standing turn.act.1 (earlier ++ [turn]) = [] ∧
      ∃ building ∈ earlier, ∃ builder, deed? turn.act.1 building = some (.built r) ∧
        building.before.threads[turn.act.1]? = some builder ∧
        turn.after.threads[turn.act.1]? =
          some { th with control := .run next, context := builder.context, active := false }

theorem mem_deeds_of_mem_standing (h : r ∈ standing id turns) : .built r ∈ deeds id turns := by
  have hall : ∀ (ds : List Deed) (up : List RuntimeId), r ∈ ds.foldl Deed.apply up → r ∈ up ∨ .built r ∈ ds := by
    intro ds
    induction ds with
    | nil => exact fun up hr => .inl hr
    | cons d ds ih =>
      intro up hr
      rcases ih _ hr with hr | hr
      · cases d with
        | built new =>
          rcases List.mem_cons.1 hr with rfl | hr
          · exact .inr List.mem_cons_self
          · exact .inl hr
        | closed gone => exact .inl (List.mem_of_mem_erase hr)
      · exact .inr (List.mem_cons_of_mem d hr)
  exact (hall _ [] h).resolve_left List.not_mem_nil

/-- A thread that is done with a shutdown is as it was, but for what the runtime of that knows. -/
theorem close_of_step (hs : m.step id choice = some m') (hth : m.threads[id]? = some th) {next : Body σ}
    (hctl : th.control = .stop r .close next) : ∃ rt, m.runtimes[r]? = some rt ∧
      m'.threads[id]? = some { th with control := .run next, context := rt.outer, active := false } := by
  obtain ⟨_, hs⟩ := stepThread_of_step hs hth
  simp only [stepThread, hctl, stop] at hs
  obtain ⟨rt, hrt, hs⟩ := Option.bind_eq_some_iff.1 hs
  obtain ⟨storage, _, hs⟩ := Option.bind_eq_some_iff.1 hs
  cases hs
  refine ⟨rt, hrt, List.getElem?_set_self ?_⟩
  rw [show (updateRuntime _ r _).threads = m.threads from threads_dropQueues (m.closeStorage storage) _]
  exact (List.getElem?_eq_some_iff.1 hth).1

theorem Exclusive.managed (h : Exclusive parallelism turns m) {act : ThreadId × Choice}
    (hs : advance m act = some m') (hth : m.threads[act.1]? = some th) : Managed parallelism turns ⟨m, act, m'⟩ th := by
  obtain ⟨id, choice⟩ := act
  have hs : m.step id choice = some m' := hs
  obtain ⟨th', rest, _, hth', _, hm, _⟩ := exists_move hs
  cases hth.symm.trans hth'
  have hhas := h.has id th hth hm.live
  obtain ⟨_, hstep⟩ := stepThread_of_step hs hth
  have hbuilt : ∀ {settings space next}, th.control = .run (.build settings space next) →
      m' = m.build id th settings space next := fun hctl => by
    rw [stepThread, hctl] at hstep
    exact (Option.some.inj hstep).symm
  have hdeed : deed? id ⟨m, (id, choice), m'⟩ = th.control.deed? (m.launched? m') := deed?_self hth
  refine ⟨hhas, fun settings space next error hctl hv => ?_, fun settings space next config hctl hv => ?_,
    fun r next hctl => ?_⟩
  · have hv : verdict m.parallelism settings (standing id turns) = .error error := h.cores ▸ hv
    have he : m' = m.setThread id (th.continueWith (next (.error error))) := by rw [hbuilt hctl, hhas.build, hv]
    have hsame : m.launched? m' = none := by rw [he]; exact if_neg (Nat.lt_irrefl _)
    refine ⟨he, ?_⟩
    rw [standing_concat, hdeed, hctl, hsame]
    rfl
  · have hv : verdict m.parallelism settings (standing id turns) = .ok config := h.cores ▸ hv
    have hnone : standing id turns = [] := by
      by_contra hup
      rw [verdict, if_pos hup] at hv
      cases hv
    have he : m' = m.launch id th config space next := by rw [hbuilt hctl, hhas.build, hv]
    have hnew : m.launched? m' = some m.runtimes.length := by
      obtain ⟨_, rt, hadded, _⟩ := m.launch_manned id th config space next (List.getElem?_eq_some_iff.1 hth).1
      rw [he, launched?, hadded, if_pos (by simp)]
    refine ⟨hnone, ?_, he, ?_⟩
    · rw [hnone] at hhas
      cases hhas with
      | free _ hnative => exact hnative
    · rw [standing_concat, hdeed, hctl, hnew, hnone]
      rfl
  · obtain ⟨hup, _⟩ := hhas.of_stop hctl
    obtain ⟨rt, hrt, hclosed⟩ := close_of_step hs hth hctl
    obtain ⟨building, hin, hbuilding⟩ := List.mem_filterMap.1
      (mem_deeds_of_mem_standing (hup ▸ List.mem_singleton_self r : r ∈ standing id turns))
    obtain ⟨builder, rt', hbuilder, hrt', houter, _⟩ := h.built building hin id r hbuilding
    cases hrt.symm.trans hrt'
    refine ⟨hup, ?_, building, hin, builder, hbuilding, hbuilder, houter ▸ hclosed⟩
    rw [standing_concat, hdeed, hctl, hup]
    exact List.erase_cons_head r []

/-- A thread has at most one runtime of its own up: the mark, the context and what it has built and not closed agree
in every state, on every thread that is not over. A build succeeds exactly if the thread has none up and the settings
are good; the thread then works for nobody, unless it is of a pool. One that is refused for any reason leaves the
machine as it was but for the answer, so nothing that is built later depends on it, and once a runtime is shut down
its thread works for whom it did before and may build again. All of this goes for any bodies, threads and runtimes,
as long as every runtime is shut down by the thread that built it. -/
theorem builds_exclude {spaces : List Recorder} {shared : σ} {body : Body σ}
    {schedule : List (ThreadId × Choice)}
    (hrun : trail advance (start parallelism spaces shared body) schedule = some (turns, m))
    (hown : StopsOwn turns) :
    (m.crash = none → ∀ id th, m.threads[id]? = some th → th.result? = none → m.Has th (standing id turns)) ∧
      ∀ earlier turn later, turns = earlier ++ turn :: later →
        ∀ th, turn.before.threads[turn.act.1]? = some th → Managed parallelism earlier turn th := by
  refine ⟨fun hcrash => (exclusive_of_run hrun hown hcrash).has, fun earlier turn later hturns th hth => ?_⟩
  subst hturns
  obtain ⟨init, hinit, hs⟩ := trail_split hrun
  obtain ⟨_, _, _, _, hnone, _⟩ := exists_move hs
  exact (exclusive_of_run hinit hown.init hnone).managed hs hth

/-- Builds a runtime with a stack that is too small, a runtime, and another one within that, and once more after it
was shut down. -/
def building (r : RuntimeId) : Body Unit :=
  .build { Settings.new .localOnly with stackSize := some 1 } none fun _ =>
    .build (Settings.new .localOnly) none fun _ => .build (Settings.new .localOnly) none fun _ =>
      .shutdown r (.build (Settings.new .localOnly) none fun _ => .finish .none)

/-- A task that a worker of a pool stole from the thread that built the pool's runtime builds twice. -/
theorem builds_exclude_pooled :
    let main : Body Unit := .build { Settings.new .stealing with workerThreads := some 1 } none fun _ =>
      .spawn none ⟨false, none⟩ (building 1) fun _ => .finish .none
    let schedule : List (ThreadId × Choice) :=
      (List.replicate 3 0 ++ [1]).map (·, ⟨false, 0, .lane 0⟩) ++ List.replicate 12 (1, ⟨false, 0, .nothing⟩)
    ∃ turns m, trail advance (start 1 [] () main) schedule = some (turns, m) ∧
      deeds 0 turns = [.built 0] ∧ deeds 1 turns = [.built 1, .closed 1, .built 2] ∧
      (∃ th, m.threads[0]? = some th ∧ m.Has th [0]) ∧ ∃ th, m.threads[1]? = some th ∧ m.Has th [2] := by
  intro main schedule
  have hshown : (trail advance (start 1 [] () main) schedule).any (fun (run : Turns Unit × _) => decide
      (StopsOwn run.1 ∧ deeds 0 run.1 = [.built 0] ∧ deeds 1 run.1 = [.built 1, .closed 1, .built 2] ∧
        run.2.crash = none ∧ run.2.threads.map Thread.result? = [none, none])) = true := by
    decide
  obtain ⟨⟨turns, m⟩, hrun, hshown⟩ := (Option.any_eq_true _ _).1 hshown
  obtain ⟨hown, hroot, hpooled, hcrash, hgoes⟩ := of_decide_eq_true hshown
  have hhas : ∀ id < 2, ∃ th, m.threads[id]? = some th ∧ m.Has th (standing id turns) := by
    intro id hlt
    have hlen : m.threads.length = 2 := by simpa using congrArg List.length hgoes
    have hbound : id < m.threads.length := hlen.symm ▸ hlt
    have hth := List.getElem?_eq_getElem hbound
    have hin : m.threads[id].result? ∈ m.threads.map Thread.result? := List.mem_map_of_mem (List.getElem_mem hbound)
    rw [hgoes] at hin
    exact ⟨_, hth, (builds_exclude hrun hown).1 hcrash id _ hth (by simpa using hin)⟩
  have hzero : standing 0 turns = [0] := by rw [standing, hroot]; rfl
  have hone : standing 1 turns = [2] := by rw [standing, hpooled]; rfl
  refine ⟨turns, m, hrun, hroot, hpooled, ?_, ?_⟩
  · exact hzero ▸ hhas 0 Nat.two_pos
  · exact hone ▸ hhas 1 Nat.one_lt_two

end Machine

end TaskSpace

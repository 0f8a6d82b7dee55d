import Mathlib.Data.Fintype.EquivFin
import Mathlib.Logic.Relation
import Mathlib.Order.WellFounded
import TaskSpace.Proofs.Machine.Hosts

/-!
# Acyclic joins never deadlock

A body that is suspended on a thread waits for the task right above it, so from every body on a thread
there are joins up to the innermost one, and from there on to the task that the thread waits for. When
every thread with a body is blocked, this leads from one awaited task to another, without end.
-/

namespace TaskSpace

variable {σ : Type}

namespace Machine

/-- The bodies and the tasks of the joins in a turn: a body joins what its thread is to wait for. -/
def join? (turn : Turn (Machine σ) (ThreadId × Choice)) : Option (TaskId × TaskId) := do
  let th ← turn.before.threads[turn.act.1]?
  match th.control, th.bodies with
  | .run (.wait _ y _), (x, _) :: _ => some (x, y)
  | _, _ => none

def joins (turns : Turns σ) : List (TaskId × TaskId) := turns.filterMap join?

/-- In the run, body `x` calls get or join on task `y`. -/
def Joins (turns : Turns σ) (x y : TaskId) : Prop := (x, y) ∈ joins turns

end Machine

/-- The thread has a body that is not over: one that was taken, and whose task is not terminal yet, or
that of a block-on call. -/
def Thread.Engaged (th : Thread σ) : Prop := th.bodies ≠ [] ∨ ∃ t, th.stages t ≠ []

/-- The thread waits for a task that is not terminal. -/
def Machine.Blocked (m : Machine σ) (th : Thread σ) : Prop :=
  ∃ kind t next cell, th.control = .wait kind t next ∧ m.cell? t = some cell ∧ ¬cell.state.isTerminal

/-- Each body that runs the task it waits for has joined it. -/
def Frame.Joined (J : TaskId → TaskId → Prop) : List (Frame σ) → Prop
  | [] => True
  | .joiner _ t _ :: frames =>
    (∀ body ∈ (frames.filterMap Frame.body?).head?, J body.1 t) ∧ Joined J frames
  | _ :: frames => Joined J frames

namespace Frame

variable {J J' : TaskId → TaskId → Prop} {frame : Frame σ} {frames : List (Frame σ)}

theorem Joined.tail (h : Joined J (frame :: frames)) : Joined J frames := by
  cases frame with
  | joiner => exact h.2
  | _ => exact h

theorem Joined.mono (h : Joined J frames) (hj : ∀ x y, J x y → J' x y) : Joined J' frames := by
  induction frames with
  | nil => trivial
  | cons frame frames ih =>
    cases frame with
    | joiner => exact ⟨fun body hb => hj _ _ (h.1 body hb), ih h.2⟩
    | _ => exact ih h

theorem past_ne_wait {past : Control σ} (h : frame.past? = some past) (kind : WaitKind) (t : TaskId)
    (next : Outcome → Body σ) : past ≠ .wait kind t next := by
  rintro rfl
  cases frame <;> cases h

theorem of_stages_ne {top : Stage} {t : TaskId} (h : frame.stages top t ≠ []) :
    ∃ bracket outer, frame = .task t bracket outer := by
  cases frame with
  | task u bracket outer =>
    simp only [Frame.stages] at h
    split at h
    · rename_i he
      exact ⟨bracket, outer, by rw [he]⟩
    · exact absurd rfl h
  | _ => exact absurd rfl h

end Frame

/-- Below a body that is no task there are only such bodies. -/
theorem Stacked.root_of_role {base : Role} {frames : List (Frame σ)} (h : Stacked base false frames)
    (hr : base.on frames ≠ .task) : ∀ body ∈ frames.filterMap Frame.body?, body.1 = TaskId.root := by
  generalize hw : false = waiting at h
  induction h with
  | nil => exact fun body hm => by cases hm
  | root hbelow hrole _ ih =>
    intro body hm
    rcases List.mem_cons.1 hm with rfl | hm
    · rfl
    · exact ih hrole hw body hm
  | task => exact absurd rfl hr
  | joiner | loop | drain => cases hw

/-- From every task whose body is on a stack, joins lead to the innermost body. -/
theorem Stacked.reaches {J : TaskId → TaskId → Prop} {base : Role} {waiting : Bool} {frames : List (Frame σ)}
    (h : Stacked base waiting frames) {above : Option TaskId} (hp : Frame.Paired above frames)
    (hj : Frame.Joined J frames) {y : TaskId} (hne : y ≠ TaskId.root) {bracket : Bracket}
    (hy : (y, bracket) ∈ frames.filterMap Frame.body?) :
    ∃ body, (frames.filterMap Frame.body?).head? = some body ∧ Relation.ReflTransGen J y body.1 := by
  induction h generalizing above with
  | nil => cases hy
  | root hbelow hrole hnext ih =>
    rcases List.mem_cons.1 hy with he | hy
    · cases he
      exact absurd rfl hne
    · exact absurd (hbelow.root_of_role hrole _ hy) hne
  | @task t b outer frames ht hbelow ih =>
    refine ⟨(t, b), rfl, ?_⟩
    rcases List.mem_cons.1 hy with he | hy
    · cases he
      exact .refl
    -- the body above waits for this task, and so it joined it
    · cases hbelow with
      | joiner hfr =>
        obtain ⟨body, hbody, hreach⟩ := ih hp hj hy
        obtain rfl := Option.some.inj hp.1
        exact hreach.tail (hj.1 body hbody)
      | loop => cases hy
      | drain => cases hy
  | joiner hbelow hnext ih => exact ih hp.2 hj.2 hy
  | loop => cases hy
  | drain => cases hy

namespace Machine

variable {m rest : Machine σ} {k : Nat} {es : TaskId → List Event} {id : ThreadId} {th th' : Thread σ}
  {turns : Turns σ} {t : TaskId} {kind : WaitKind} {next : Outcome → Body σ}

/-- What the threads wait for was joined, and a worker waits for no body that it could run. -/
structure Recorded (turns : Turns σ) (m : Machine σ) : Prop where
  waits : ∀ (id : ThreadId) (th : Thread σ) kind t next, m.threads[id]? = some th →
    th.control = .wait kind t next → ∀ body ∈ th.bodies.head?, Joins turns body.1 t
  suspended : ∀ (id : ThreadId) (th : Thread σ), m.threads[id]? = some th →
    Frame.Joined (Joins turns) th.frames
  taken : ∀ (id : ThreadId) (th : Thread σ) kind t next, m.threads[id]? = some th →
    th.control = .wait kind t next → th.context.isSome → ∃ cell, m.cell? t = some cell ∧ cell.body = none

theorem Joins.append (turn : Turn (Machine σ) (ThreadId × Choice)) {x y : TaskId} (h : Joins turns x y) :
    Joins (turns ++ [turn]) x y := by
  unfold Joins joins at h ⊢
  rw [List.filterMap_append]
  exact List.mem_append_left _ h

theorem joins_of_wait {turn : Turn (Machine σ) (ThreadId × Choice)}
    (hth : turn.before.threads[turn.act.1]? = some th) (hctl : th.control = .run (.wait kind t next))
    {body : TaskId × Bracket} (hb : body ∈ th.bodies.head?) : Joins (turns ++ [turn]) body.1 t := by
  obtain ⟨below, hbelow⟩ := List.head?_eq_some_iff.1 hb
  unfold Joins joins
  rw [List.filterMap_append]
  refine List.mem_append_right _ (List.mem_filterMap.2 ⟨turn, List.mem_singleton.2 rfl, ?_⟩)
  simp [join?, hth, hctl, hbelow]

theorem Added.ne_wait {x : Thread σ} (ha : Added th x) (kind : WaitKind) (t : TaskId) (next : Outcome → Body σ) :
    x.control ≠ .wait kind t next := by
  intro hctl
  rcases ha with ⟨_, _, _, rfl⟩ | ⟨_, _, _, _, _, _, rfl⟩ <;> cases hctl

/-- A thread comes to wait for a task only when it cannot run it. -/
theorem Move.waits (hm : m.Move id th rest th') (hcrash : rest.crash = none)
    (hctl : th'.control = .wait kind t next) : rest = m ∧ th' = { th with control := .wait kind t next } ∧
      th.control = .run (.wait kind t next) ∧ ∃ cell, m.cell? t = some cell ∧
        (cell.state ≠ .created ∨ th.context.bind m.storageOf = none ∨ cell.body = none) := by
  cases hm with
  | blocked hrun hc _ hwhy =>
    cases hctl
    exact ⟨rfl, rfl, hrun, _, hc, hwhy⟩
  | settled _ _ _ _ hpast | passed _ _ hpast =>
    have hfree := Frame.past_ne_wait hpast
    exact absurd hctl (hfree kind t next)
  | @idle ticker force leaving => cases leaving <;> cases hctl
  | crashed => cases hcrash
  | _ => cases hctl

theorem Recorded.frames (hr : Recorded turns m) (hth : m.threads[id]? = some th) (hm : m.Move id th rest th')
    (hcrash : rest.crash = none) {turn : Turn (Machine σ) (ThreadId × Choice)} (hbefore : turn.before = m)
    (hact : turn.act.1 = id) : Frame.Joined (Joins (turns ++ [turn])) th'.frames := by
  have hkept : Frame.Joined (Joins (turns ++ [turn])) th.frames :=
    (hr.suspended id th hth).mono fun x y => Joins.append turn
  have htail : ∀ {frame : Frame σ} {frames : List (Frame σ)}, th.frames = frame :: frames →
      Frame.Joined (Joins (turns ++ [turn])) frames := fun hf => (hf ▸ hkept).tail
  have hloop : ∀ {ticker force leaving ticker' force' leaving'} {frames : List (Frame σ)},
      th.frames = .loop ticker force leaving :: frames →
      Frame.Joined (Joins (turns ++ [turn])) (.loop ticker' force' leaving' :: frames) := by
    intro _ _ _ _ _ _ frames hf
    have hbelow : Frame.Joined (Joins (turns ++ [turn])) frames := htail hf
    exact hbelow
  cases hm with
  | left _ hf | leftRoot _ hf | resumed _ _ _ hf | drained _ hf => exact htail hf
  | idle _ hf | ticked _ hf => exact hloop hf
  | nested hctl => exact ⟨fun body hb => joins_of_wait (by rw [hbefore, hact, hth]) hctl hb, hkept⟩
  | found _ hseeks =>
    cases hseeks with
    | loop hf => exact hloop hf
    | drain => exact hkept
  | exited => trivial
  | crashed => cases hcrash
  | _ => exact hkept

theorem Recorded.move (h : m.Hosts k es) (hr : Recorded turns m) (hth : m.threads[id]? = some th)
    (hm : m.Move id th rest th') (h' : (rest.setThread id th').Hosts k (Scene.next es id th m rest))
    (choice : Choice) :
    Recorded (turns ++ [⟨m, (id, choice), rest.setThread id th'⟩]) (rest.setThread id th') := by
  have hcrash : rest.crash = none := h'.crash
  refine ⟨fun other x kind t next hx hctl body hb => ?_, fun other x hx => ?_, fun other x kind t next hx hctl hw => ?_⟩
  · rcases hm.thread_cases hth hx with ⟨rfl, rfl⟩ | ⟨_, hx⟩ | ⟨_, _, ha⟩
    · obtain ⟨_, rfl, hrun, _⟩ := hm.waits hcrash hctl
      exact joins_of_wait hth hrun hb
    · exact (hr.waits other x kind t next hx hctl body hb).append _
    · exact absurd hctl (ha.ne_wait kind t next)
  · rcases hm.thread_cases hth hx with ⟨rfl, rfl⟩ | ⟨_, hx⟩ | ⟨_, _, ha⟩
    · exact hr.frames hth hm hcrash rfl rfl
    · exact (hr.suspended other x hx).mono fun x y => Joins.append _
    · rcases ha with ⟨_, _, _, rfl⟩ | ⟨_, _, _, _, _, _, rfl⟩ <;> trivial
  · rcases hm.thread_cases hth hx with ⟨rfl, rfl⟩ | ⟨_, hx⟩ | ⟨_, _, ha⟩
    · obtain ⟨rfl, rfl, hrun, cell, hc, hwhy⟩ := hm.waits hcrash hctl
      refine ⟨cell, hc, ?_⟩
      obtain ⟨c, hcontext⟩ := Option.isSome_iff_exists.1 hw
      obtain ⟨storage, hstorage⟩ := exists_storageOf h hth hcontext
      rcases hwhy with hstate | hnone | hbody
      · cases hb : cell.body with
        | none => rfl
        | some body => exact absurd (by rw [(h.accounted.fresh t cell hc).2 body hb]; rfl) hstate
      · cases hnone.symm.trans hstorage
      · exact hbody
    · obtain ⟨cell, hc, hbody⟩ := hr.taken other x kind t next hx hctl hw
      obtain ⟨cell', hc', _, _, hkept⟩ := h.moved hth h' hc
      exact ⟨cell', hc', hkept hbody⟩
    · exact absurd hctl (ha.ne_wait kind t next)

/-! ## Who has the awaited tasks -/

theorem body_of_stages (hfree : th.control.free) (h : th.stages t ≠ []) : ∃ bracket, (t, bracket) ∈ th.bodies := by
  rw [Thread.stages_of_free hfree] at h
  obtain ⟨stage, hstage⟩ := List.exists_mem_of_ne_nil _ h
  obtain ⟨frame, hframe, hin⟩ := List.mem_flatMap.1 hstage
  obtain ⟨bracket, outer, rfl⟩ := Frame.of_stages_ne (List.ne_nil_of_mem hin)
  exact ⟨bracket, List.mem_filterMap.2 ⟨_, hframe, rfl⟩⟩

theorem bodies_of_engaged (hfree : th.control.free) (h : th.Engaged) : th.bodies ≠ [] := by
  rcases h with h | ⟨t, h⟩
  · exact h
  · obtain ⟨bracket, hin⟩ := body_of_stages hfree h
    exact List.ne_nil_of_mem hin

/-- The tasks that threads with bodies wait for. -/
def Awaited (m : Machine σ) (t : TaskId) : Prop :=
  ∃ (id : ThreadId) (th : Thread σ) (kind : WaitKind) (next : Outcome → Body σ) (cell : Cell (Body σ)),
    m.threads[id]? = some th ∧ th.Engaged ∧ th.control = .wait kind t next ∧ m.cell? t = some cell ∧
      ¬cell.state.isTerminal

theorem awaited_of_blocked (hth : m.threads[id]? = some th) (he : th.Engaged) (hb : m.Blocked th) :
    ∃ kind t next, th.control = .wait kind t next ∧ m.Awaited t := by
  obtain ⟨kind, t, next, cell, hctl, hc, hlive⟩ := hb
  exact ⟨kind, t, next, hctl, id, th, kind, next, cell, hth, he, hctl, hc, hlive⟩

/-- Joins lead from a body on a stack to whatever its thread waits for. -/
theorem Recorded.joined (h : m.Hosts k es) (hr : Recorded turns m) (hth : m.threads[id]? = some th) {y : TaskId}
    (hctl : th.control = .wait kind t next) (hne : y ≠ TaskId.root) {bracket : Bracket}
    (hy : (y, bracket) ∈ th.bodies) : Relation.TransGen (Joins turns) y t := by
  have hst : Stacked (th.base id) false th.frames := (h.controlFits hth hctl).1
  have hp : Frame.Paired none th.frames := (h.paired hth).of_free (by rw [hctl]; rfl)
  obtain ⟨body, hbody, hreach⟩ := hst.reaches hp (hr.suspended id th hth) hne hy
  exact .tail' hreach (hr.waits id th kind t next hth hctl body hbody)

/-- If every engaged thread is blocked, joins lead from each awaited task to another one. -/
theorem Recorded.leads_on (h : m.Hosts k es) (hr : Recorded turns m)
    (hall : ∀ (id : ThreadId) (th : Thread σ), m.threads[id]? = some th → th.Engaged → m.Blocked th)
    {y : TaskId} (hy : m.Awaited y) : ∃ z, m.Awaited z ∧ Relation.TransGen (Joins turns) y z := by
  obtain ⟨id, th, kind, next, cell, hth, he, hctl, hc, hlive⟩ := hy
  -- the body was taken, since a worker would have taken it rather than wait
  have hw : th.context.isSome := by
    obtain ⟨body, below, hbodies⟩ := List.exists_cons_of_ne_nil (bodies_of_engaged (by rw [hctl]; rfl) he)
    exact (h.fits hth).isSome_of_bodies (hbodies ▸ List.mem_cons_self)
  obtain ⟨found, hfound, hbody⟩ := hr.taken id th kind y next hth hctl hw
  cases hc.symm.trans hfound
  obtain ⟨owner, x, hx, hstages⟩ := h.exists_owner hc hbody hlive
  have hengaged : x.Engaged := .inr ⟨y, hstages⟩
  obtain ⟨kind', z, next', hctl', hz⟩ := awaited_of_blocked hx hengaged (hall owner x hx hengaged)
  obtain ⟨bracket, hin⟩ := body_of_stages (by rw [hctl']; rfl) hstages
  refine ⟨z, hz, hr.joined h hx hctl' ?_ hin⟩
  rintro rfl
  cases hc

theorem lt_of_cell {cell : Cell (Body σ)} (hc : m.cell? t = some cell) : t < m.tasks.length + 1 := by
  cases t with
  | zero => exact Nat.succ_pos _
  | succ place =>
    obtain ⟨spawned, hs, _⟩ := Option.map_eq_some_iff.1 hc
    exact Nat.succ_lt_succ (List.getElem?_eq_some_iff.1 hs).1

theorem Recorded.progress (h : m.Hosts k es) (hr : Recorded turns m)
    (hacyclic : ∀ t, ¬Relation.TransGen (Joins turns) t t)
    (hengaged : ∃ (id : ThreadId) (th : Thread σ), m.threads[id]? = some th ∧ th.Engaged) :
    ∃ (id : ThreadId) (th : Thread σ), m.threads[id]? = some th ∧ th.Engaged ∧ ¬m.Blocked th := by
  by_contra hnot
  have hall : ∀ (id : ThreadId) (th : Thread σ), m.threads[id]? = some th → th.Engaged → m.Blocked th := by
    intro id th hth he
    by_contra hb
    exact hnot ⟨id, th, hth, he, hb⟩
  obtain ⟨id, th, hth, he⟩ := hengaged
  obtain ⟨_, t, _, _, ht⟩ := awaited_of_blocked hth he (hall id th hth he)
  -- there are finitely many tasks, so the joins that lead on from awaited tasks come back to one
  let after (a b : Fin (m.tasks.length + 1)) : Prop := Relation.TransGen (Joins turns) b.val a.val
  have : IsTrans _ after := ⟨fun a b c hab hbc => hbc.trans hab⟩
  have : Std.Irrefl after := ⟨fun a => hacyclic a.val⟩
  have hlt : ∀ {y}, m.Awaited y → y < m.tasks.length + 1 := by
    rintro y ⟨_, _, _, _, _, _, _, _, hc, _⟩
    exact lt_of_cell hc
  obtain ⟨last, hlast, hmin⟩ := (Finite.wellFounded_of_trans_of_irrefl after).has_min
    {y | m.Awaited y.val} ⟨⟨t, hlt ht⟩, ht⟩
  obtain ⟨z, hz, hreach⟩ := hr.leads_on h hall hlast
  exact hmin ⟨z, hlt hz⟩ hz hreach

/-! ## One thread -/

theorem Stacked.ne_nil {base : Role} {frames : List (Frame σ)} (h : Stacked base true frames) : frames ≠ [] := by
  generalize hw : true = waiting at h
  cases h with
  | joiner | loop | drain => exact List.cons_ne_nil _ _
  | nil | root | task => cases hw

/-- Whoever has a task works for the runtime. -/
theorem Hosts.works_of_stages (h : m.Hosts k es) (hth : m.threads[id]? = some th) (hs : th.stages t ≠ []) :
    id < k + 1 := by
  have hframes : th.frames ≠ [] := by
    intro hn
    have hctl := (h.fits hth).control
    rw [hn] at hctl
    cases hc : th.control <;> rw [hc] at hctl <;> try simp [Thread.stages, hc, hn, Control.stages, hosted] at hs
    · exact Stacked.ne_nil hctl.1 rfl
    · exact Stacked.ne_nil hctl rfl
    · exact Stacked.ne_nil hctl rfl
  obtain ⟨frame, frames, hf⟩ := List.exists_cons_of_ne_nil hframes
  obtain ⟨_, _, _, _, hlt⟩ := h.works hth hf
  exact hlt

/-- The thread is to wait for a task, and its step takes the body and is to run it first. -/
def Nests (m : Machine σ) (id : ThreadId) (th : Thread σ) (kind : WaitKind) (t : TaskId)
    (next : Outcome → Body σ) (cell : Cell (Body σ)) : Prop :=
  th.control = .run (.wait kind t next) ∧ ∃ body, cell.body = some body ∧ ∀ choice, m.step id choice =
    some ((m.setCell { cell with body := none }).setThread id { th with
      control := .begin t id body, frames := .joiner kind t next :: th.frames })

theorem Hosts.nests (h : m.Hosts k es) (hth : m.threads[id]? = some th) {c : Context} (hw : th.context = some c)
    (hctl : th.control = .run (.wait kind t next)) {cell : Cell (Body σ)} (hc : m.cell? t = some cell)
    {body : Body σ} (hb : cell.body = some body) : m.Nests id th kind t next cell := by
  refine ⟨hctl, body, hb, fun choice => ?_⟩
  obtain ⟨storage, hstorage⟩ := exists_storageOf h hth hw
  obtain ⟨rfl, _⟩ := h.storageOf hth hstorage
  have hcell := (h.accounted.fresh t cell hc).2 body hb
  have hstate : cell.state = .created := by rw [hcell]; rfl
  simp [Machine.step, h.crash, hth, stepThread, hctl, runBody, beginWait, hc, hstate, TaskState.isTerminal,
    hstorage, Cell.take, hb]

/-- When only one thread works for the runtime, the task that a body on it waits for has its body untaken,
or is suspended on the same stack. -/
theorem Recorded.alone (h : m.Hosts 0 es) (hr : Recorded turns m) (hth : m.threads[id]? = some th)
    (hbodies : th.bodies ≠ []) (ha : th.Awaits kind t next) {cell : Cell (Body σ)} (hc : m.cell? t = some cell)
    (hlive : ¬cell.state.isTerminal) : (∃ bracket, (t, bracket) ∈ th.bodies) ∨ m.Nests id th kind t next cell := by
  obtain ⟨body, below, hcons⟩ := List.exists_cons_of_ne_nil hbodies
  have hw := (h.fits hth).isSome_of_bodies (hcons ▸ List.mem_cons_self)
  obtain ⟨c, hcontext⟩ := Option.isSome_iff_exists.1 hw
  cases hbody : cell.body with
  | some body =>
    rcases ha with hctl | hctl
    · exact .inr (h.nests hth hcontext hctl hc hbody)
    · obtain ⟨found, hfound, hnone⟩ := hr.taken id th kind t next hth hctl hw
      cases hc.symm.trans hfound
      cases hbody.symm.trans hnone
  | none =>
    obtain ⟨owner, x, hx, hstages⟩ := h.exists_owner hc hbody hlive
    have hsame : owner = id := by
      rw [Nat.lt_one_iff.1 (h.works_of_stages hx hstages), Nat.lt_one_iff.1 ((h.fits hth).lt hw)]
    subst hsame
    cases hth.symm.trans hx
    exact .inl (body_of_stages (by rcases ha with hctl | hctl <;> rw [hctl] <;> rfl) hstages)

/-! ## Runs -/

variable {parallelism : Nat} {spaces : List Recorder} {shared : σ} {settings : Settings} {given : Option SpaceId}
  {answer : Except BuildError RuntimeId → Body σ} {config : Config} {schedule : List (ThreadId × Choice)}

theorem recorded_launched (hl : Launched k answer m) (turns : Turns σ) : Recorded turns m where
  waits id th kind t next hth hctl := by
    rcases hl.thread hth with ⟨_, rfl⟩ | ⟨_, rfl⟩ <;> cases hctl
  suspended id th hth := by
    rcases hl.thread hth with ⟨_, rfl⟩ | ⟨_, rfl⟩ <;> trivial
  taken id th kind t next hth hctl := by
    rcases hl.thread hth with ⟨_, rfl⟩ | ⟨_, rfl⟩ <;> cases hctl

/-- As long as the joins of a run are acyclic, some thread that has a body is not blocked, if any thread
has one. On a local runtime a body never waits for a task other than one suspended below it, which acyclic
joins rule out: what it joins is over, or it is run by the join. -/
theorem acyclic_joins_never_deadlock (h : Launches parallelism spaces settings given config)
    (hnext : (answer (.ok 0)).Allowed .outside)
    (hrun : trail advance (start parallelism spaces shared (.build settings given answer)) schedule =
      some (turns, m)) :
    ((∀ t, ¬Relation.TransGen (Joins turns) t t) →
      (∃ (id : ThreadId) (th : Thread σ), m.threads[id]? = some th ∧ th.Engaged) →
      ∃ (id : ThreadId) (th : Thread σ), m.threads[id]? = some th ∧ th.Engaged ∧ ¬m.Blocked th) ∧
    (config.flavor = .localOnly → ∀ (id : ThreadId) (th : Thread σ) kind t next cell,
      m.threads[id]? = some th → th.bodies ≠ [] → th.Awaits kind t next → m.cell? t = some cell →
      ¬cell.state.isTerminal →
      ((∃ bracket, (t, bracket) ∈ th.bodies) ∨ m.Nests id th kind t next cell) ∧
      ((∀ t, ¬Relation.TransGen (Joins turns) t t) → th.control ≠ .wait kind t next)) := by
  have hinv := hosts_run (P := fun turns _ m => Recorded turns m) h hnext
    (fun before choice m _ _ hl _ => recorded_launched hl _)
    (fun turns es m id choice th rest th' hm hr hth hmove hm' => hr.move hm hth hmove hm' choice) hrun
  rcases hinv with ⟨rfl, rfl⟩ | ⟨es, hm, hr⟩
  · have hidle : ∀ {id : ThreadId} {th : Thread σ},
        (start parallelism spaces shared (.build settings given answer)).threads[id]? = some th →
        th = .plain (.build settings given answer) := by
      intro id th hth
      cases id with
      | zero => exact (Option.some.inj hth).symm
      | succ id => cases hth
    refine ⟨fun _ ⟨id, th, hth, he⟩ => ?_, fun _ id th _ _ _ _ hth hbodies => ?_⟩
    · obtain rfl := hidle hth
      rcases he with he | ⟨t, he⟩ <;> exact absurd rfl he
    · obtain rfl := hidle hth
      exact absurd rfl hbodies
  · refine ⟨fun hacyclic hengaged => hr.progress hm hacyclic hengaged,
      fun hflavor id th kind t next cell hth hbodies ha hc hlive => ?_⟩
    have hzero : config.poolSize = 0 := by rw [Config.poolSize, hflavor]
    rw [hzero] at hm
    have halone := hr.alone hm hth hbodies ha hc hlive
    refine ⟨halone, fun hacyclic hctl => ?_⟩
    rcases halone with ⟨bracket, hin⟩ | ⟨hrun, _⟩
    · refine hacyclic t (hr.joined hm hth hctl ?_ hin)
      rintro rfl
      cases hc
    · cases hctl.symm.trans hrun

/-- Spawns a task and joins it. -/
def forking : Body Unit :=
  .spawn none ⟨false, none⟩ (.finish .none) fun
  | .ok t => .wait .join t fun _ => .finish .none
  | .error payload => .panic payload

/-- A worker of the pool has taken the task that the root waits for. -/
theorem acyclic_joins_never_deadlock_stolen :
    let answer : Except BuildError RuntimeId → Body Unit := fun _ => .blockOn 0 forking fun _ => .finish .none
    let schedule : List (ThreadId × Choice) :=
      (List.replicate 4 0 ++ [1, 1, 0]).map fun id => (id, ⟨false, 0, .lane 0⟩)
    ∃ turns m, trail advance (start 1 [] () (.build (Settings.new .stealing) none answer)) schedule =
        some (turns, m) ∧ joins turns = [(0, 1)] ∧ (∀ t, ¬Relation.TransGen (Joins turns) t t) ∧
      m.threads.map (fun th => th.bodies.length) = [1, 0] ∧
      ∃ (id : ThreadId) (th : Thread Unit), m.threads[id]? = some th ∧ th.Engaged ∧ ¬m.Blocked th := by
  intro answer schedule
  have hlaunches : Launches 1 [] (Settings.new .stealing) none
      { flavor := .stealing, workerThreads := 1, naming := .numbered, stackSize := none, interval := 31
        retries := 3, space := Space.new 2 } :=
    ⟨rfl, rfl, by simp, by simp, by simp [Settings.new]⟩
  have hnext : (answer (.ok 0)).Allowed .outside := by
    refine ⟨by decide, rfl, ⟨trivial, fun result => ?_⟩, fun _ => trivial⟩
    cases result with
    | ok t => exact fun _ => trivial
    | error payload => trivial
  have hshown : (trail advance (start 1 [] () (.build (Settings.new .stealing) none answer)) schedule).map
      (fun run => (joins run.1, run.2.threads.map fun th => th.bodies.length)) = some ([(0, 1)], [1, 0]) := by
    decide
  obtain ⟨⟨turns, m⟩, hrun, hshown⟩ := Option.map_eq_some_iff.1 hshown
  obtain ⟨hjoins, hbodies⟩ := Prod.mk.injEq .. ▸ hshown
  have hlt : ∀ {x y}, Relation.TransGen (Joins turns) x y → x < y := by
    intro x y hxy
    have hedge : ∀ {x y}, Joins turns x y → x < y := by
      intro x y h
      rw [Joins, hjoins, List.mem_singleton] at h
      cases h
      decide
    induction hxy with
    | single h => exact hedge h
    | tail _ h ih => exact ih.trans (hedge h)
  have hacyclic : ∀ t, ¬Relation.TransGen (Joins turns) t t := fun t h => lt_irrefl t (hlt h)
  refine ⟨turns, m, hrun, hjoins, hacyclic, hbodies, ?_⟩
  refine (acyclic_joins_never_deadlock hlaunches hnext hrun).1 hacyclic ?_
  obtain ⟨th, hth, hlen⟩ : ∃ th, m.threads[0]? = some th ∧ th.bodies.length = 1 := by
    have hzero := congrArg (·[0]?) hbodies
    simpa using hzero
  exact ⟨0, th, hth, .inl fun hnil => by simp [hnil] at hlen⟩

end Machine

end TaskSpace

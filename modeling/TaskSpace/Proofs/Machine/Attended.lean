import TaskSpace.Proofs.Machine.Steps

/-!
# Running tasks are attended

A task that is running has its body on some thread, or its body is over there and the thread is
completing it. A step leaves the other threads alone, so only what it does to its own thread matters.
-/

namespace TaskSpace

variable {σ : Type}

/-- The body of the task is on the thread, or the thread is completing the task. -/
def Thread.Attends (th : Thread σ) (t : TaskId) : Prop :=
  th.control.completing = some t ∨ ∃ bracket, (t, bracket) ∈ th.bodies

namespace Machine

def IsRunning (m : Machine σ) (t : TaskId) : Prop :=
  ∃ cell, m.cell? t = some cell ∧ cell.state = .running

def Attended (m : Machine σ) : Prop :=
  ∀ t, m.IsRunning t → ∃ (id : ThreadId) (th : Thread σ), m.threads[id]? = some th ∧ th.Attends t

/-- The thread is not completing a task that still runs. -/
def Free (m : Machine σ) (th : Thread σ) : Prop :=
  ∀ t, m.IsRunning t → th.control.completing ≠ some t

variable {m m' : Machine σ} {n : Nat} {space : SpaceId} {hist : History} {id : ThreadId}
  {th th' : Thread σ} {t : TaskId} {cell cell' : Cell (Body σ)} {choice : Choice} {storage : StorageId}

theorem Free.of_none (hn : th.control.completing = none) : m.Free th := by
  intro t _ he
  cases hn.symm.trans he

theorem not_isRunning_root (m : Machine σ) : ¬m.IsRunning TaskId.root := by
  rintro ⟨cell, hc, _⟩
  cases hc

theorem attended_of_no_tasks (hn : m.tasks = []) : m.Attended := by
  rintro t ⟨cell, hc, _⟩
  cases t with
  | zero => cases hc
  | succ place => simp [cell?, task?, hn] at hc

/-! ## What changes a machine -/

/-- The threads of a machine in which one is changed: the others, and the new one. -/
theorem Attended.setThread (ha : m.Attended) (hth : m.threads[id]? = some th)
    (hk : ∀ t, m.IsRunning t → th.Attends t → th'.Attends t) : (m.setThread id th').Attended := by
  intro t hr
  obtain ⟨other, x, hx, hat⟩ := ha t hr
  by_cases he : other = id
  · subst he
    cases hth.symm.trans hx
    exact ⟨other, th', List.getElem?_set_self (List.getElem?_eq_some_iff.1 hth).1, hk t hr hat⟩
  · exact ⟨other, x, (List.getElem?_set_ne fun h => he h.symm).trans hx, hat⟩

theorem Attended.goOn (ha : m.Attended) (hth : m.threads[id]? = some th) (hfree : m.Free th)
    (hb : ∀ body ∈ th.bodies, body ∈ th'.bodies) : (m.setThread id th').Attended := by
  refine ha.setThread hth fun t hr hat => ?_
  rcases hat with hat | ⟨bracket, hat⟩
  · exact absurd hat (hfree t hr)
  · exact .inr ⟨bracket, hb _ hat⟩

theorem Attended.addThread (ha : m.Attended) (th : Thread σ) :
    ({ m with threads := m.threads ++ [th] } : Machine σ).Attended := by
  intro t hr
  obtain ⟨id, x, hx, hat⟩ := ha t hr
  exact ⟨id, x, (List.getElem?_append_left (List.getElem?_eq_some_iff.1 hx).1).trans hx, hat⟩

/-- No task comes to run but by its start. -/
theorem isRunning_of_setCell (hc : m.cell? t = some cell) (hid : cell'.id = t)
    (hr : cell'.state = .running → cell.state = .running) {other : TaskId}
    (h : (m.setCell cell').IsRunning other) : m.IsRunning other := by
  obtain ⟨found, hf, hs⟩ := h
  rw [cell?_setCell hc hid] at hf
  split at hf
  · rename_i he
    cases hf
    exact ⟨cell, he ▸ hc, hr hs⟩
  · exact ⟨found, hf, hs⟩

theorem Attended.setCell (ha : m.Attended) (hc : m.cell? t = some cell) (cell' : Cell (Body σ))
    (hid : cell'.id = t) (hr : cell'.state = .running → cell.state = .running) :
    (m.setCell cell').Attended :=
  fun other h => ha other (isRunning_of_setCell hc hid hr h)

theorem isRunning_of_addTask {sticky : Bool} {name : Option String} {child : Body σ}
    {runtime : RuntimeId} (h : ({ m with tasks := m.tasks ++
      [⟨.spawned (m.tasks.length + 1) sticky name child, runtime⟩] } : Machine σ).IsRunning t) :
    m.IsRunning t := by
  obtain ⟨found, hf, hs⟩ := h
  rw [cell?_addTask] at hf
  split at hf
  · cases hf
    cases hs
  · exact ⟨found, hf, hs⟩

/-! ## Waiting, spawning and looking for tasks -/

variable {kind : WaitKind} {next : Outcome → Body σ}

theorem Attended.deliver (ha : m.Attended) (hth : m.threads[id]? = some th) (hfree : m.Free th)
    (hb : ∀ body ∈ th.bodies, body ∈ th'.bodies) (cell : Cell (Body σ)) :
    (m.deliver id th' kind cell next).Attended := by
  unfold Machine.deliver
  dsimp only
  split
  · exact ha.goOn hth hfree hb
  · exact ha

theorem Attended.take (ha : m.Attended) (h : m.Sound n space hist) {body : Body σ}
    (hc : m.cell? t = some cell) (ht : cell.take = some (body, cell')) : (m.setCell cell').Attended := by
  obtain ⟨old, _, he⟩ := Option.map_eq_some_iff.1 ht
  cases he
  exact ha.setCell hc _ (h.cells t cell hc).1 fun hr => hr

theorem Attended.beginWait (ha : m.Attended) (h : m.Sound n space hist) (hth : m.threads[id]? = some th)
    (hn : th.control.completing = none) (hs : m.beginWait id th kind t next = some m') : m'.Attended := by
  unfold Machine.beginWait at hs
  obtain ⟨cell, hc, hs⟩ := Option.bind_eq_some_iff.1 hs
  split at hs
  · cases hs
    exact ha.deliver hth (.of_none hn) (fun _ hb => hb) cell
  · split at hs
    · rename_i ht
      cases hs
      exact (ha.take h hc ht).goOn hth (.of_none hn) fun _ hb => hb
    · cases hs
      exact ha.goOn hth (.of_none hn) fun _ hb => hb

theorem Attended.runHeld (ha : m.Attended) (h : m.Sound n space hist) (hth : m.threads[id]? = some th)
    (hn : th.control.completing = none) {past : Control σ}
    (hs : m.runHeld id th t storage past = some m') : m'.Attended := by
  unfold Machine.runHeld at hs
  obtain ⟨cell, hc, hs⟩ := Option.bind_eq_some_iff.1 hs
  split at hs
  · rename_i ht
    cases hs
    exact (ha.take h hc ht).goOn hth (.of_none hn) fun _ hb => hb
  · cases hs
    exact ha.goOn hth (.of_none hn) fun _ hb => hb

/-- The frames on which a thread takes up what it did are under no body. -/
theorem Attended.resume (ha : m.Attended) (hth : m.threads[id]? = some th) (hfree : m.Free th)
    (hs : m.resume id th = some m') : m'.Attended := by
  unfold Machine.resume at hs
  split at hs
  · rename_i kind t next frames hframes
    obtain ⟨cell, _, hs⟩ := Option.bind_eq_some_iff.1 hs
    cases hs
    have hb := Thread.bodies_of_cons hframes rfl
    exact ha.deliver hth hfree (fun body hm => by rwa [hb] at hm) cell
  · cases hs
    exact ha.goOn hth hfree fun _ hb => hb
  · cases hs
    exact ha.goOn hth hfree fun _ hb => hb
  · cases hs

theorem Attended.spawnOn (ha : m.Attended) (hth : m.threads[id]? = some th)
    (hn : th.control.completing = none) {runtime : RuntimeId} {options : SpawnOptions} {child : Body σ}
    {next : Except Payload TaskId → Body σ}
    (hs : m.spawnOn id th runtime options child next = some m') : m'.Attended := by
  obtain ⟨rt, _, hs⟩ := Option.bind_eq_some_iff.1 hs
  cases hs
  have hadded : ∀ queues : Runtime → Runtime, Attended { m.updateRuntime runtime queues with
      tasks := m.tasks ++ [⟨.spawned (m.tasks.length + 1)
        (options.sticky || rt.config.defaultSticky) options.name child, runtime⟩] } :=
    fun queues t hr => ha t (isRunning_of_addTask hr)
  exact (hadded _).goOn hth (.of_none hn) fun _ hb => hb

theorem Attended.search (ha : m.Attended) (hth : m.threads[id]? = some th)
    (hn : th.control.completing = none) {runtime : RuntimeId} {w : WorkerId} {force : Bool}
    {idle : Thread σ} (hb : ∀ body ∈ th.bodies, body ∈ th'.bodies)
    (hidle : ∀ body ∈ th.bodies, body ∈ idle.bodies)
    (hs : m.search id th' runtime w force choice idle = some m') : m'.Attended := by
  obtain ⟨rt, _, hs⟩ := Option.bind_eq_some_iff.1 hs
  obtain ⟨found, _, hs⟩ := Option.bind_eq_some_iff.1 hs
  cases found with
  | none =>
    cases hs
    exact ha.goOn hth (.of_none hn) hidle
  | some found =>
    cases hs
    have hqueues : (m.updateRuntime runtime fun rt => { rt with queues := found.2 }).Attended := ha
    exact hqueues.goOn hth (.of_none hn) hb

theorem Attended.stepSearch (ha : m.Attended) (hth : m.threads[id]? = some th)
    (hn : th.control.completing = none) (hs : m.stepSearch id th choice = some m') : m'.Attended := by
  unfold Machine.stepSearch at hs
  split at hs
  · rename_i ticker force leaving frames c hframes _
    have hb := Thread.bodies_of_cons hframes rfl
    exact ha.search hth hn (fun body hm => by rwa [hb] at hm) (fun body hm => by rwa [hb] at hm) hs
  · rename_i runtime stage next frames hframes
    have hb := Thread.bodies_of_cons hframes rfl
    exact ha.search hth hn (fun _ hm => hm) (fun body hm => by rwa [hb] at hm) hs
  · cases hs

theorem Attended.stepHold (ha : m.Attended) (h : m.Sound n space hist) (hth : m.threads[id]? = some th)
    (hn : th.control.completing = none) (hs : m.stepHold id th t = some m') : m'.Attended := by
  unfold Machine.stepHold at hs
  split at hs
  · obtain ⟨storage, _, hs⟩ := Option.bind_eq_some_iff.1 hs
    exact ha.runHeld h hth hn hs
  · obtain ⟨rt, _, hs⟩ := Option.bind_eq_some_iff.1 hs
    obtain ⟨storage, _, hs⟩ := Option.bind_eq_some_iff.1 hs
    exact ha.runHeld h hth hn hs
  · cases hs

theorem Attended.stepPark (ha : m.Attended) (hth : m.threads[id]? = some th)
    (hn : th.control.completing = none) (hs : m.stepPark id th = some m') : m'.Attended := by
  obtain ⟨c, _, hs⟩ := Option.bind_eq_some_iff.1 hs
  obtain ⟨rt, _, hs⟩ := Option.bind_eq_some_iff.1 hs
  split at hs
  · cases hs
    exact ha.goOn hth (.of_none hn) fun _ hb => hb
  · split at hs
    · cases hs
      exact ha
    · rename_i lot _
      cases hs
      have hparked : (m.updateRuntime c.runtime fun rt => { rt with lot }).Attended := ha
      exact hparked.goOn hth (.of_none hn) fun _ hb => hb

theorem Attended.stepTick (ha : m.Attended) (hth : m.threads[id]? = some th)
    (hn : th.control.completing = none) (hs : m.stepTick id th = some m') : m'.Attended := by
  unfold Machine.stepTick at hs
  split at hs
  · rename_i ticker force leaving frames c hframes _
    obtain ⟨rt, _, hs⟩ := Option.bind_eq_some_iff.1 hs
    cases hs
    have hb := Thread.bodies_of_cons hframes rfl
    refine ha.goOn hth (.of_none hn) fun body hm => ?_
    rw [hb] at hm
    dsimp only [Thread.bodies]
    split <;> exact hm
  · cases hs

/-! ## Ending threads, and shutting down -/

theorem Attended.stepExit (ha : m.Attended) (hth : m.threads[id]? = some th)
    (hn : th.control.completing = none) (hb : th.bodies = []) (hs : m.stepExit id th = some m') :
    m'.Attended := by
  obtain ⟨c, _, hs⟩ := Option.bind_eq_some_iff.1 hs
  obtain ⟨storage, _, hs⟩ := Option.bind_eq_some_iff.1 hs
  cases hs
  have hclosed : (m.closeStorage storage).Attended := ha
  refine hclosed.goOn hth (.of_none hn) fun body hm => ?_
  rw [hb] at hm
  cases hm

theorem Attended.cancel (ha : m.Attended) (h : m.Sound n space hist) (hc : m.cell? t = some cell)
    (hcan : cell.cancel = .ok cell') : (m.setCell cell').Attended := by
  obtain ⟨hid, hbody, _⟩ := h.cells t cell hc
  unfold Cell.cancel at hcan
  cases hb : cell.body with
  | none =>
    simp only [Cell.take, hb, Option.map_none] at hcan
    cases hcan
    exact ha.setCell hc _ hid fun hr => hr
  | some body =>
    have hcreated := (hbody body hb).2
    simp only [Cell.take, hb, Option.map_some, Cell.complete, Cell.settle, Cell.publish, hcreated] at hcan
    cases hcan
    exact ha.setCell hc _ hid fun hr => by cases hr

theorem Attended.dropQueues (ha : m.Attended) (h : m.Sound n space hist) (tasks : List TaskId) :
    (m.dropQueues tasks).Attended := by
  induction tasks generalizing m with
  | nil => exact ha
  | cons task rest ih =>
    unfold Machine.dropQueues
    split
    · rename_i cell' he
      obtain ⟨cell, hc, hcan⟩ := Option.map_eq_some_iff.1 he
      exact ih (ha.cancel h hc hcan) (h.cancel hc hcan)
    · exact ha
    · exact ih ha h

theorem threads_dropQueues (m : Machine σ) (tasks : List TaskId) :
    (m.dropQueues tasks).threads = m.threads := by
  induction tasks generalizing m with
  | nil => rfl
  | cons task rest ih =>
    unfold Machine.dropQueues
    split
    · exact ih _
    · rfl
    · exact ih m

theorem dropQueues_closeStorage (m : Machine σ) (storage : StorageId) (tasks : List TaskId) :
    (m.closeStorage storage).dropQueues tasks = (m.dropQueues tasks).closeStorage storage := by
  induction tasks generalizing m with
  | nil => rfl
  | cons task rest ih =>
    have hcell : (m.closeStorage storage).cell? task = m.cell? task := rfl
    unfold Machine.dropQueues
    rw [hcell]
    cases (m.cell? task).map Cell.cancel with
    | none => exact ih m
    | some answer =>
      cases answer with
      | ok cell => exact ih (m.setCell cell)
      | error violation => rfl

theorem Attended.stop (ha : m.Attended) (h : m.Sound n space hist) (hth : m.threads[id]? = some th)
    (hn : th.control.completing = none) {runtime : RuntimeId} {stage : StopStage} {next : Body σ}
    (hs : m.stop id th runtime stage next = some m') : m'.Attended := by
  obtain ⟨rt, _, hs⟩ := Option.bind_eq_some_iff.1 hs
  cases stage with
  | wakeAll =>
    cases hlot : rt.lot.unparkAll with
    | none =>
      simp only [hlot] at hs
      cases hs
      exact ha
    | some lot =>
      simp only [hlot] at hs
      cases hs
      have hwoken : (m.updateRuntime runtime fun rt => { rt with lot }).Attended := ha
      exact hwoken.goOn hth (.of_none hn) fun _ hb => hb
  | joinPool =>
    dsimp only at hs
    split at hs
    · cases hs
    · cases hs
      exact ha.goOn hth (.of_none hn) fun _ hb => hb
  | close =>
    obtain ⟨storage, _, hs⟩ := Option.bind_eq_some_iff.1 hs
    cases hs
    have hdropped : ((m.closeStorage storage).dropQueues (queued rt.queues)).Attended := by
      rw [dropQueues_closeStorage]
      exact ha.dropQueues h _
    have hemptied : (((m.closeStorage storage).dropQueues (queued rt.queues)).updateRuntime runtime
        fun rt => { rt with queues := .empty rt.config.numWorkers }).Attended := hdropped
    refine hemptied.goOn ?_ (.of_none hn) fun _ hb => hb
    exact (congrArg (fun threads : List (Thread σ) => threads[id]?) (threads_dropQueues _ _)).trans hth

/-! ## Bodies begin and end -/

/-- A body that begins is on its thread from then on. -/
theorem attended_openBracket {frame : Bracket → Frame σ} {body : Body σ}
    (ha : ∀ other, m.IsRunning other → other ≠ t →
      ∃ (id : ThreadId) (th : Thread σ), m.threads[id]? = some th ∧ th.Attends other)
    (hth : m.threads[id]? = some th) (hn : th.control.completing = none)
    (hframe : ∀ b, (frame b).body? = some (t, b))
    (hcrash : ∀ error, (m.openBracket id th storage t frame body).crash ≠ some (.registry error)) :
    (m.openBracket id th storage t frame body).Attended := by
  unfold Machine.openBracket at hcrash ⊢
  split
  · rename_i error ledger he
    rw [he] at hcrash
    exact absurd rfl (hcrash error)
  · rename_i bracket ledger he
    intro other hr
    have hself : ({ m with ledger }.setThread id { th.setTask (some t) with
        control := .run body, frames := frame bracket :: th.frames
        holder := some bracket.holder }).threads[id]? = some _ :=
      List.getElem?_set_self (List.getElem?_eq_some_iff.1 hth).1
    by_cases ho : other = t
    · subst ho
      refine ⟨id, _, hself, .inr ⟨bracket, ?_⟩⟩
      simp [Thread.bodies, hframe]
    · obtain ⟨place, x, hx, hat⟩ := ha other hr ho
      by_cases hp : place = id
      · subst hp
        cases hth.symm.trans hx
        refine ⟨place, _, hself, .inr ?_⟩
        obtain ⟨found, hfound⟩ := hat.resolve_left fun hc => by cases hn.symm.trans hc
        refine ⟨found, ?_⟩
        simp only [Thread.bodies, List.filterMap_cons, hframe]
        exact List.mem_cons_of_mem _ hfound
      · exact ⟨place, x, (List.getElem?_set_ne fun h => hp h.symm).trans hx, hat⟩

/-- A body that ends leaves a task that its thread is to complete, unless it was no task. -/
theorem Attended.closeBracket (ha : m.Attended) (hth : m.threads[id]? = some th)
    (hn : th.control.completing = none) {bracket : Bracket} {outer : Option TaskId}
    {frames : List (Frame σ)} {control : Control σ}
    (hb : th.bodies = (t, bracket) :: frames.filterMap Frame.body?)
    (ht : control.completing = some t ∨ t = TaskId.root) :
    (m.closeBracket id th bracket outer frames control).Attended := by
  unfold Machine.closeBracket
  split
  · exact ha
  · rename_i ledger _
    have hledger : ({ m with ledger } : Machine σ).Attended := ha
    refine hledger.setThread hth fun other hr hat => ?_
    obtain ⟨found, hfound⟩ := hat.resolve_left fun hc => by cases hn.symm.trans hc
    rw [hb] at hfound
    -- the task was in the body that ended, or in one below
    rcases List.mem_cons.1 hfound with he | hbelow
    · cases he
      rcases ht with ht | rfl
      · exact .inl ht
      · exact absurd hr m.not_isRunning_root
    · exact .inr ⟨found, hbelow⟩

theorem Attended.runBody (ha : m.Attended) (h : m.Sound n space hist) (hth : m.threads[id]? = some th)
    (hn : th.control.completing = none) {body : Body σ} (hs : m.runBody id th body = some m')
    (hcrash : ∀ error, m'.crash ≠ some (.registry error))
    (hbuild : ∀ settings space next, body ≠ .build settings space next) : m'.Attended := by
  have hgoOn : ∀ (control : Control σ), (m.setThread id { th with control }).Attended := fun control =>
    ha.goOn hth (.of_none hn) fun _ hb => hb
  cases body with
  | finish v =>
    simp only [Machine.runBody] at hs
    split at hs <;> cases hs <;> exact hgoOn _
  | panic payload =>
    simp only [Machine.runBody] at hs
    split at hs <;> cases hs <;> exact hgoOn _
  | call r next =>
    cases hs
    exact hgoOn _
  | share change next =>
    cases hs
    exact hgoOn _
  | await ready next =>
    simp only [Machine.runBody] at hs
    split at hs <;> cases hs
    exact hgoOn _
  | spawn target options child next =>
    simp only [Machine.runBody] at hs
    split at hs
    · exact ha.spawnOn hth hn hs
    · cases hs
      exact hgoOn _
  | wait kind task next => exact ha.beginWait h hth hn hs
  | build settings space next => exact absurd rfl (hbuild settings space next)
  | blockOn runtime root next =>
    obtain ⟨rt, _, hs⟩ := Option.bind_eq_some_iff.1 hs
    obtain ⟨storage, _, hs⟩ := Option.bind_eq_some_iff.1 hs
    cases hs
    exact attended_openBracket (fun other hr _ => ha other hr) hth hn (fun _ => rfl) hcrash
  | shutdown runtime next =>
    obtain ⟨rt, _, hs⟩ := Option.bind_eq_some_iff.1 hs
    split at hs <;> cases hs <;> exact hgoOn _
  | onThread body next =>
    cases hs
    exact (hgoOn (.joinThread m.threads.length next)).addThread (.plain body)

theorem Attended.begin (ha : m.Attended) (h : m.Sound n space hist) (hth : m.threads[id]? = some th)
    (hn : th.control.completing = none) {body : Body σ} (hc : m.cell? t = some cell)
    (hstart : cell.start = .ok cell')
    (hcrash : ∀ error, ((m.setCell cell').openBracket id th storage t (.task t · th.currentTask)
      body).crash ≠ some (.registry error)) :
    ((m.setCell cell').openBracket id th storage t (.task t · th.currentTask) body).Attended := by
  have hid : cell'.id = t := by
    rw [← (h.cells t cell hc).1]
    unfold Cell.start at hstart
    split at hstart <;> cases hstart
    rfl
  refine attended_openBracket (fun other hr hne => ?_) hth hn (fun _ => rfl) hcrash
  obtain ⟨found, hf, hstate⟩ := hr
  rw [cell?_setCell hc hid, if_neg hne] at hf
  exact ha other ⟨found, hf, hstate⟩

theorem Attended.leave (ha : m.Attended) (hth : m.threads[id]? = some th)
    {result : Except Payload Value} (hctl : th.control = .leave result)
    (hs : m.stepThread id th choice = some m') : m'.Attended := by
  have hn : th.control.completing = none := by rw [hctl]; rfl
  unfold Machine.stepThread at hs
  rw [hctl] at hs
  dsimp only at hs
  split at hs
  · rename_i task bracket outer frames hframes
    cases hs
    exact ha.closeBracket hth hn (Thread.bodies_eq hframes) (.inl rfl)
  · rename_i bracket outer next frames hframes
    cases hs
    exact ha.closeBracket hth hn (Thread.bodies_eq hframes) (.inr rfl)
  · cases hs

/-- The thread that wrote the outcome of a task is still completing it. -/
theorem Attended.publish (ha : m.Attended) (h : m.Sound n space hist) (hth : m.threads[id]? = some th)
    {outcome : Outcome} (hctl : th.control = .publish t outcome) (hc : m.cell? t = some cell) :
    ((m.setCell (cell.publish outcome)).setThread id
      { th with control := .settle t outcome.isOk }).Attended := by
  have hset : (m.setCell (cell.publish outcome)).Attended :=
    ha.setCell hc _ (h.cells t cell hc).1 fun hr => hr
  refine hset.setThread hth fun other _ hat => hat.imp_left fun hdone => ?_
  rw [hctl] at hdone
  exact hdone

theorem Attended.settle (ha : m.Attended) (h : m.Sound n space hist) (hth : m.threads[id]? = some th)
    {completed : Bool} (hctl : th.control = .settle t completed) (hc : m.cell? t = some cell)
    (hset : cell.settle completed = .ok cell') (hs : (m.setCell cell').resume id th = some m') :
    m'.Attended := by
  obtain ⟨hid, _⟩ := h.cells t cell hc
  unfold Cell.settle at hset
  split at hset <;> cases hset
  have hover : (if completed then TaskState.completed else .failed) ≠ .running := by
    cases completed <;> decide
  have hsettled := ha.setCell hc { cell with state := if completed then .completed else .failed } hid
    fun hr => absurd hr hover
  refine hsettled.resume hth (fun other hr hdone => ?_) hs
  rw [hctl] at hdone
  cases hdone
  obtain ⟨found, hf, hstate⟩ := hr
  cases (cell?_setCell_self hc { cell with state := if completed then .completed else .failed } hid).symm.trans hf
  exact hover hstate

/-! ## Steps -/

theorem Attended.stepThread (ha : m.Attended) (h : m.Sound n space hist)
    (hth : m.threads[id]? = some th) (hs : m.stepThread id th choice = some m') : m'.Attended := by
  have hcrash := (h.stepThread hth hs).crash
  cases hctl : th.control with
  | leave result => exact ha.leave hth hctl hs
  | publish t outcome =>
    simp only [Machine.stepThread, hctl] at hs
    obtain ⟨cell, hc, hs⟩ := Option.bind_eq_some_iff.1 hs
    cases hs
    exact ha.publish h hth hctl hc
  | settle t completed =>
    simp only [Machine.stepThread, hctl] at hs
    obtain ⟨cell, hc, hs⟩ := Option.bind_eq_some_iff.1 hs
    split at hs
    · cases hs
      exact ha
    · rename_i cell' hset
      exact ha.settle h hth hctl hc hset hs
  | run body =>
    have hn : th.control.completing = none := by rw [hctl]; rfl
    simp only [Machine.stepThread, hctl] at hs
    refine ha.runBody h hth hn hs hcrash fun settings space next he => ?_
    exact (h.controlFits hth (hctl.trans (congrArg _ he))).2
  | «begin» t storage body =>
    have hn : th.control.completing = none := by rw [hctl]; rfl
    simp only [Machine.stepThread, hctl] at hs
    obtain ⟨cell, hc, hs⟩ := Option.bind_eq_some_iff.1 hs
    split at hs
    · cases hs
      exact ha
    · rename_i cell' hstart
      cases hs
      exact ha.begin h hth hn hc hstart hcrash
  | wait kind t next =>
    have hn : th.control.completing = none := by rw [hctl]; rfl
    simp only [Machine.stepThread, hctl] at hs
    obtain ⟨cell, hc, hs⟩ := Option.bind_eq_some_iff.1 hs
    split at hs <;> cases hs
    exact ha.deliver hth (.of_none hn) (fun _ hb => hb) cell
  | wake runtime next =>
    have hn : th.control.completing = none := by rw [hctl]; rfl
    simp only [Machine.stepThread, hctl] at hs
    obtain ⟨rt, _, hs⟩ := Option.bind_eq_some_iff.1 hs
    split at hs
    · cases hs
      exact ha
    · rename_i lot _
      cases hs
      have hwoken : (m.updateRuntime runtime fun rt => { rt with lot }).Attended := ha
      exact hwoken.goOn hth (.of_none hn) fun _ hb => hb
  | search =>
    simp only [Machine.stepThread, hctl] at hs
    exact ha.stepSearch hth (by rw [hctl]; rfl) hs
  | hold t =>
    simp only [Machine.stepThread, hctl] at hs
    exact ha.stepHold h hth (by rw [hctl]; rfl) hs
  | park =>
    simp only [Machine.stepThread, hctl] at hs
    exact ha.stepPark hth (by rw [hctl]; rfl) hs
  | parked =>
    have hn : th.control.completing = none := by rw [hctl]; rfl
    simp only [Machine.stepThread, hctl] at hs
    obtain ⟨c, _, hs⟩ := Option.bind_eq_some_iff.1 hs
    obtain ⟨rt, _, hs⟩ := Option.bind_eq_some_iff.1 hs
    split at hs <;> cases hs
    exact ha.goOn hth (.of_none hn) fun _ hb => hb
  | tick =>
    simp only [Machine.stepThread, hctl] at hs
    exact ha.stepTick hth (by rw [hctl]; rfl) hs
  | exit =>
    simp only [Machine.stepThread, hctl] at hs
    obtain ⟨ticker, force, leaving, hframes⟩ := h.controlFits hth hctl
    exact ha.stepExit hth (by rw [hctl]; rfl) (Thread.bodies_eq hframes) hs
  | stop runtime stage next =>
    simp only [Machine.stepThread, hctl] at hs
    exact ha.stop h hth (by rw [hctl]; rfl) hs
  | joinThread thread next =>
    have hn : th.control.completing = none := by rw [hctl]; rfl
    simp only [Machine.stepThread, hctl] at hs
    obtain ⟨other, _, hs⟩ := Option.bind_eq_some_iff.1 hs
    obtain ⟨result, _, hs⟩ := Option.bind_eq_some_iff.1 hs
    cases hs
    exact ha.goOn hth (.of_none hn) fun _ hb => hb
  | ended result =>
    simp only [Machine.stepThread, hctl] at hs
    cases hs

theorem Attended.step (ha : m.Attended) (h : m.Sound n space hist) (hs : m.step id choice = some m') :
    m'.Attended := by
  unfold Machine.step at hs
  split at hs
  · cases hs
  · obtain ⟨th, hth, hs⟩ := Option.bind_eq_some_iff.1 hs
    exact ha.stepThread h hth hs

end Machine

end TaskSpace

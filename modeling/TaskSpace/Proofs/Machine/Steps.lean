import TaskSpace.Proofs.Machine.Brackets

/-!
# Every step keeps the invariant

One lemma for each function that steps are made of, up to `Sound.step`: whatever thread steps, and
whatever its search finds, the machine stays sound, with the history of what the step mapped.
-/

namespace TaskSpace

variable {σ : Type}

/-- The history after the step of a thread: the operations of bodies add to it. -/
def History.next (hist : History) (m : Machine σ) (th : Thread σ) : History :=
  match th.control with
  | .run (.call (.memory op) _) => hist.after m.ledger (m.site th) op
  | _ => hist

namespace Machine

variable {m m' : Machine σ} {n : Nat} {space : SpaceId} {hist : History} {id : ThreadId}
  {th : Thread σ} {t : TaskId} {storage : StorageId}

/-! ## Where a thread works -/

/-- The runtime that a thread works for is the only one, and its storages are the threads. -/
theorem Sound.storageOf (h : m.Sound n space hist) (hth : m.threads[id]? = some th)
    (hs : th.context.bind m.storageOf = some storage) : storage = id ∧ th.context.isSome := by
  obtain ⟨c, hc, hs⟩ := Option.bind_eq_some_iff.1 hs
  obtain ⟨_, hworker, hlt⟩ := (h.fits id th hth).works c hc
  obtain ⟨rt, hrt, hs⟩ := Option.bind_eq_some_iff.1 hs
  rw [(h.runtimes rt (List.mem_of_getElem? hrt)).1, hworker, List.getElem?_range hlt] at hs
  exact ⟨(Option.some.inj hs).symm, by rw [hc]; rfl⟩

theorem Sound.controlFits (h : m.Sound n space hist) (hth : m.threads[id]? = some th)
    {control : Control σ} (hctl : th.control = control) :
    control.Fits (th.base id) th.context.isSome id th.frames :=
  hctl ▸ (h.fits id th hth).control

theorem Sound.rootStorage (h : m.Sound n space hist) {runtime : RuntimeId} {rt : Runtime}
    (hrt : m.runtimes[runtime]? = some rt) (hs : rt.storages[WorkerId.root]? = some storage) :
    storage = 0 := by
  rw [(h.runtimes rt (List.mem_of_getElem? hrt)).1] at hs
  obtain ⟨_, rfl⟩ := List.getElem?_eq_some_iff.1 hs
  exact List.getElem_range ..

theorem Sound.site (h : m.Sound n space hist) (w : Site) (hw : m.site th = some w) : w.space = space := by
  obtain ⟨c, _, hw⟩ := Option.bind_eq_some_iff.1 hw
  obtain ⟨rt, hrt, hw⟩ := Option.bind_eq_some_iff.1 hw
  cases hw
  exact (h.runtimes rt (List.mem_of_getElem? hrt)).2.1

/-- The current holder of a thread is that of its innermost body, and it is registered. -/
theorem Sound.holder (h : m.Sound n space hist) (hth : m.threads[id]? = some th) (holder : HolderId)
    (hh : (m.site th).bind Site.holder = some holder) :
    ∃ g, m.ledger.roster.holder? holder = some g ∧ g.mark ≠ Holder.unregistered := by
  obtain ⟨w, hw, hh⟩ := Option.bind_eq_some_iff.1 hh
  obtain ⟨c, hc, hw⟩ := Option.bind_eq_some_iff.1 hw
  obtain ⟨rt, _, hw⟩ := Option.bind_eq_some_iff.1 hw
  cases hw
  have hnested := (h.fits id th hth).nested
  rw [show th.holder = some holder from hh] at hnested
  cases hb : th.bodies with
  | nil => rw [hb] at hnested; cases hnested
  | cons body below =>
    obtain ⟨t, bracket⟩ := body
    rw [hb] at hnested
    obtain ⟨hholder, _⟩ := hnested
    cases hholder
    obtain ⟨g, hg, _⟩ := h.owners id th hth _ (hb ▸ List.mem_cons_self)
    obtain ⟨s, hs, hserves⟩ := h.exists_storage hth (by rw [hc]; rfl)
    have hin : bracket.holder ∈ s.stack := by
      rw [hserves.stack, Thread.stack, hb]
      exact List.mem_cons_self
    refine ⟨g, hg, ?_⟩
    rw [← Roster.markOf_eq hg, h.roster.marked id s hs _ hin]
    exact h.roster.worker id s hs

/-! ## Waiting for tasks -/

variable {kind : WaitKind} {next : Outcome → Body σ}

theorem Sound.deliver (h : m.Sound n space hist) (hth : m.threads[id]? = some th)
    (frames : List (Frame σ)) (hb : frames.filterMap Frame.body? = th.bodies)
    (hfr : Stacked (th.base id) false frames)
    (hnext : ∀ outcome, (next outcome).Allowed ((th.base id).on frames)) (cell : Cell (Body σ)) :
    (m.deliver id { th with frames } kind cell next).Sound n space hist := by
  unfold Machine.deliver
  dsimp only
  split
  · exact h.reframe hth _ hb ⟨hfr, hnext _⟩ (.idle rfl rfl)
  · exact h.failTask _

/-- The body of a task is taken: from then on this thread is the one to begin it. -/
theorem Sound.take (h : m.Sound n space hist) {cell cell' : Cell (Body σ)} {body : Body σ}
    (hc : m.cell? t = some cell) (ht : cell.take = some (body, cell')) :
    (m.setCell cell').Sound n space hist ∧ t ≠ TaskId.root ∧ body.Allowed .task ∧
      ∃ c, (m.setCell cell').cell? t = some c ∧ c.body = none := by
  obtain ⟨old, hbody, he⟩ := Option.map_eq_some_iff.1 ht
  cases he
  obtain ⟨hid, hcell, hterm⟩ := h.cells t cell hc
  refine ⟨h.setCell hc _ hid (fun _ he => by cases he) (fun hs => hs) hterm, ?_, (hcell body hbody).1,
    { cell with body := none }, ?_, rfl⟩
  · rintro rfl
    cases hc
  · exact cell?_setCell_self hc { cell with body := none } hid

theorem Sound.beginWait (h : m.Sound n space hist) (hth : m.threads[id]? = some th)
    (hfr : Stacked (th.base id) false th.frames)
    (hnext : ∀ outcome, (next outcome).Allowed ((th.base id).on th.frames))
    (hs : m.beginWait id th kind t next = some m') : m'.Sound n space hist := by
  unfold Machine.beginWait at hs
  obtain ⟨cell, hc, hs⟩ := Option.bind_eq_some_iff.1 hs
  split at hs
  · cases hs
    exact h.deliver hth th.frames rfl hfr hnext cell
  · split at hs
    · rename_i storage body cell' _ hstorage ht
      cases hs
      obtain ⟨rfl, hw⟩ := h.storageOf hth hstorage
      obtain ⟨hsound, hne, hbody, hcell⟩ := h.take hc ht
      refine hsound.reframe hth _ rfl ⟨.joiner hfr hnext, hne, rfl, hw, hbody⟩
        ⟨fun t' he => ?_, fun _ he => ?_⟩
      · cases he
        exact hcell
      · cases he
    · cases hs
      exact h.goOn hth _ ⟨hfr, hnext⟩ (.idle rfl rfl)

theorem Sound.runHeld (h : m.Sound n space hist) (hth : m.threads[id]? = some th)
    (hfr : Stacked (th.base id) true th.frames) (hstorage : storage = id) (hw : th.context.isSome)
    {past : Control σ} (hpast : past = .tick ∨ past = .search)
    (hs : m.runHeld id th t storage past = some m') : m'.Sound n space hist := by
  unfold Machine.runHeld at hs
  obtain ⟨cell, hc, hs⟩ := Option.bind_eq_some_iff.1 hs
  split at hs
  · rename_i body cell' ht
    cases hs
    obtain ⟨hsound, hne, hbody, hcell⟩ := h.take hc ht
    refine hsound.goOn hth _ ⟨hfr, hne, hstorage, hw, hbody⟩ ⟨fun t' he => ?_, fun _ he => ?_⟩
    · cases he
      exact hcell
    · cases he
  · cases hs
    rcases hpast with rfl | rfl <;> exact h.goOn hth _ hfr (.idle rfl rfl)

theorem Sound.resume (h : m.Sound n space hist) (hth : m.threads[id]? = some th)
    (hfr : Stacked (th.base id) true th.frames) (hs : m.resume id th = some m') :
    m'.Sound n space hist := by
  unfold Machine.resume at hs
  split at hs
  · rename_i kind t next frames hframes
    obtain ⟨cell, _, hs⟩ := Option.bind_eq_some_iff.1 hs
    cases hs
    rw [hframes] at hfr
    cases hfr with
    | joiner hfr hnext =>
      exact h.deliver hth frames (Thread.bodies_eq hframes).symm hfr hnext cell
  · cases hs
    exact h.goOn hth _ hfr (.idle rfl rfl)
  · cases hs
    exact h.goOn hth _ hfr (.idle rfl rfl)
  · cases hs

/-! ## Spawning, and looking for tasks -/

theorem Sound.spawnOn (h : m.Sound n space hist) (hth : m.threads[id]? = some th)
    {runtime : RuntimeId} {options : SpawnOptions} {child : Body σ} {next : Except Payload TaskId → Body σ}
    (hfr : Stacked (th.base id) false th.frames) (hchild : child.Allowed .task)
    (hnext : ∀ answer, (next answer).Allowed ((th.base id).on th.frames))
    (hs : m.spawnOn id th runtime options child next = some m') : m'.Sound n space hist := by
  obtain ⟨rt, _, hs⟩ := Option.bind_eq_some_iff.1 hs
  cases hs
  exact ((h.updateRuntime runtime (by exact fun _ => ⟨rfl, rfl, rfl⟩)).addTask hchild runtime).goOn hth
    (.wake runtime (next (.ok _))) ⟨hfr, hnext _⟩ (.idle rfl rfl)

theorem Sound.search (h : m.Sound n space hist) (hth : m.threads[id]? = some th)
    {runtime : RuntimeId} {w : WorkerId} {force : Bool} {choice : Choice} {idle : Thread σ}
    (frames : List (Frame σ)) (hb : frames.filterMap Frame.body? = th.bodies)
    (hfr : Stacked (th.base id) true frames) (hidle : (m.setThread id idle).Sound n space hist)
    (hs : m.search id { th with frames } runtime w force choice idle = some m') :
    m'.Sound n space hist := by
  obtain ⟨rt, _, hs⟩ := Option.bind_eq_some_iff.1 hs
  obtain ⟨found, _, hs⟩ := Option.bind_eq_some_iff.1 hs
  cases found with
  | none =>
    cases hs
    exact hidle
  | some found =>
    cases hs
    have hqueues := h.updateRuntime runtime (f := fun rt => { rt with queues := found.2 })
      fun _ => ⟨rfl, rfl, rfl⟩
    exact hqueues.reframe hth (.hold found.1) hb hfr (.idle rfl rfl)

theorem Sound.stepSearch (h : m.Sound n space hist) (hth : m.threads[id]? = some th) {choice : Choice}
    (hfr : Stacked (th.base id) true th.frames) (hs : m.stepSearch id th choice = some m') :
    m'.Sound n space hist := by
  unfold Machine.stepSearch at hs
  split at hs
  · rename_i ticker force leaving frames c hframes _
    rw [hframes] at hfr
    have hb : (Frame.loop ticker false leaving :: frames).filterMap Frame.body? = th.bodies :=
      (Thread.bodies_eq hframes).symm
    cases hfr
    refine h.search hth _ hb .loop (h.reframe hth _ hb ?_ ?_) hs
    · cases leaving with
      | true => exact ⟨ticker, false, true, rfl⟩
      | false => exact .loop
    · cases leaving <;> exact .idle rfl rfl
  · rename_i runtime stage next frames hframes
    have hb : frames.filterMap Frame.body? = th.bodies :=
      (Thread.bodies_eq hframes).symm
    refine h.search hth th.frames rfl hfr (h.reframe hth _ hb ?_ (.idle rfl rfl)) hs
    rw [hframes] at hfr
    cases hfr with
    | drain hbase hnext => exact ⟨rfl, hbase, rfl, hnext⟩
  · cases hs

theorem Sound.stepHold (h : m.Sound n space hist) (hth : m.threads[id]? = some th)
    (hfr : Stacked (th.base id) true th.frames) (hs : m.stepHold id th t = some m') :
    m'.Sound n space hist := by
  unfold Machine.stepHold at hs
  split at hs
  · rename_i hc
    obtain ⟨storage, hstorage, hs⟩ := Option.bind_eq_some_iff.1 hs
    have hof : th.context.bind m.storageOf = some storage := by rw [hc]; exact hstorage
    obtain ⟨he, hw⟩ := h.storageOf hth hof
    exact h.runHeld hth hfr he hw (.inl rfl) hs
  · rename_i hframes
    have hbase := hframes ▸ hfr
    cases hbase with
    | drain hbase =>
      obtain ⟨rt, hrt, hs⟩ := Option.bind_eq_some_iff.1 hs
      obtain ⟨storage, hstorage, hs⟩ := Option.bind_eq_some_iff.1 hs
      obtain ⟨rfl, hw⟩ := Thread.base_eq_outside.1 hbase
      exact h.runHeld hth hfr (h.rootStorage hrt hstorage) hw (.inr rfl) hs
  · cases hs

theorem Sound.stepPark (h : m.Sound n space hist) (hth : m.threads[id]? = some th)
    (hfr : Stacked (th.base id) true th.frames) (hs : m.stepPark id th = some m') :
    m'.Sound n space hist := by
  obtain ⟨c, _, hs⟩ := Option.bind_eq_some_iff.1 hs
  obtain ⟨rt, _, hs⟩ := Option.bind_eq_some_iff.1 hs
  split at hs
  · cases hs
    exact h.goOn hth _ hfr (.idle rfl rfl)
  · split at hs
    · cases hs
      exact h.failSlot
    · rename_i lot _
      cases hs
      have hparked := h.updateRuntime c.runtime (f := fun rt => { rt with lot }) fun _ => ⟨rfl, rfl, rfl⟩
      exact hparked.goOn hth (.parked) hfr (.idle rfl rfl)

theorem Sound.stepTick (h : m.Sound n space hist) (hth : m.threads[id]? = some th)
    (hfr : Stacked (th.base id) true th.frames) (hs : m.stepTick id th = some m') :
    m'.Sound n space hist := by
  unfold Machine.stepTick at hs
  split at hs
  · rename_i hframes _
    obtain ⟨rt, _, hs⟩ := Option.bind_eq_some_iff.1 hs
    rw [hframes] at hfr
    cases hfr
    cases hs
    have hb : ∀ frame : Frame σ, frame.body? = none → [frame].filterMap Frame.body? = th.bodies := by
      intro frame hn
      rw [Thread.bodies_of_cons hframes rfl, List.filterMap_cons, hn]
    refine h.reframe hth _ (hb _ ?_) ?_ (.idle rfl rfl)
    · split <;> rfl
    · split <;> exact .loop
  · cases hs

/-! ## Ending threads, and shutting down -/

/-- A thread without frames leaves the runtime. -/
theorem Sound.quit (h : m.Sound n space hist) (hth : m.threads[id]? = some th)
    (hb : th.bodies = []) (th' : Thread σ) (hframes : th'.frames = []) (hn : th'.context = none)
    (hholder : th'.holder = th.holder) (hc : th'.control.Fits .task false id [])
    (hk : m.Keeps th'.control) :
    ((m.setThread id th').closeStorage id).Sound n space hist := by
  have hempty : th'.bodies = [] := Thread.bodies_eq hframes
  have hfit : th'.Fits n id := by
    refine ⟨fun c he => ?_, fun _ => hempty, ?_, ?_⟩
    · rw [hn] at he
      cases he
    · rw [hempty, hholder, ← hb]
      exact (h.fits id th hth).nested
    · rw [hframes, hn, show th'.base id = .task by simp [Thread.base, hn]]
      exact hc
  have hset := h.setThread hth (hempty.trans hb.symm) (fun hw => by rw [hn] at hw; cases hw) hfit hk
  have hself : (m.setThread id th').threads[id]? = some th' :=
    List.getElem?_set_self (List.getElem?_eq_some_iff.1 hth).1
  exact hset.closeStorage hself hn

theorem Sound.stepExit (h : m.Sound n space hist) (hth : m.threads[id]? = some th)
    (hframes : ∃ ticker force leaving, th.frames = [.loop ticker force leaving])
    (hs : m.stepExit id th = some m') : m'.Sound n space hist := by
  obtain ⟨c, hc, hs⟩ := Option.bind_eq_some_iff.1 hs
  obtain ⟨storage, hstorage, hs⟩ := Option.bind_eq_some_iff.1 hs
  obtain ⟨rfl, _⟩ := h.storageOf hth (by rw [hc]; exact hstorage)
  obtain ⟨ticker, force, leaving, hframes⟩ := hframes
  have hb : th.bodies = [] := Thread.bodies_eq hframes
  cases hs
  exact h.quit hth hb _ rfl rfl rfl rfl (.idle rfl rfl)

theorem Sound.not_owned (h : m.Sound n space hist) {cell : Cell (Body σ)} (hc : m.cell? t = some cell)
    (hs : cell.state = .created) :
    ∀ holder g, m.ledger.roster.holder? holder = some g → g.owner ≠ some t := by
  intro holder g hg ho
  obtain ⟨t', ho', hcell⟩ := h.owned holder g hg
  cases ho.symm.trans ho'
  rcases hcell with rfl | ⟨found, hfound, hne⟩
  · cases hc
  · cases hc.symm.trans hfound
    exact hne hs

theorem Sound.cancel (h : m.Sound n space hist) {cell cell' : Cell (Body σ)} (hc : m.cell? t = some cell)
    (hcan : cell.cancel = .ok cell') : (m.setCell cell').Sound n space hist := by
  obtain ⟨hid, hbody, hterm⟩ := h.cells t cell hc
  unfold Cell.cancel at hcan
  cases hb : cell.body with
  | none =>
    simp only [Cell.take, hb, Option.map_none] at hcan
    cases hcan
    exact h.setCell hc _ hid (fun body he => ⟨he, (hbody body he).2⟩) (fun hs => hs) hterm
  | some body =>
    have hcreated := (hbody body hb).2
    simp only [Cell.take, hb, Option.map_some, Cell.complete, Cell.settle, Cell.publish, hcreated] at hcan
    cases hcan
    refine h.setCell hc _ hid (fun _ he => by cases he) (fun hs => ?_) fun _ holder g hg ho => ?_
    · cases hs
    · exact absurd ho (h.not_owned hc hcreated holder g hg)

theorem Sound.dropQueues (h : m.Sound n space hist) (tasks : List TaskId) :
    (m.dropQueues tasks).Sound n space hist := by
  induction tasks generalizing m with
  | nil => exact h
  | cons task rest ih =>
    unfold Machine.dropQueues
    split
    · rename_i cell' he
      obtain ⟨cell, hc, hcan⟩ := Option.map_eq_some_iff.1 he
      exact ih (h.cancel hc hcan)
    · exact h.failTask _
    · exact ih h

theorem dropQueues_setThread (m : Machine σ) (id : ThreadId) (th : Thread σ) (tasks : List TaskId) :
    (m.setThread id th).dropQueues tasks = (m.dropQueues tasks).setThread id th := by
  induction tasks generalizing m with
  | nil => rfl
  | cons task rest ih =>
    have hcell : (m.setThread id th).cell? task = m.cell? task := rfl
    unfold Machine.dropQueues
    rw [hcell]
    cases (m.cell? task).map Cell.cancel with
    | none => exact ih m
    | some answer =>
      cases answer with
      | ok cell => exact ih (m.setCell cell)
      | error violation => rfl

theorem Sound.stop (h : m.Sound n space hist) (hth : m.threads[id]? = some th) {runtime : RuntimeId}
    {stage : StopStage} {next : Body σ} (hframes : th.frames = []) (hbase : th.base id = .outside)
    (hruntime : runtime = 0) (hnext : next.Allowed .task)
    (hs : m.stop id th runtime stage next = some m') : m'.Sound n space hist := by
  subst hruntime
  obtain ⟨rt, hrt, hs⟩ := Option.bind_eq_some_iff.1 hs
  have hb : th.bodies = [] := Thread.bodies_eq hframes
  have hdrain : ∀ stage, (Frame.drain 0 stage next :: th.frames).filterMap Frame.body? = th.bodies := by
    intro stage
    rw [hframes, hb]
    rfl
  have hwaiting : ∀ stage, Stacked (th.base id) true (Frame.drain 0 stage next :: th.frames) := by
    intro stage
    rw [hframes]
    exact .drain hbase hnext
  cases stage with
  | wakeAll =>
    cases hlot : rt.lot.unparkAll with
    | none =>
      simp only [hlot] at hs
      cases hs
      exact h.failSlot
    | some lot =>
      simp only [hlot] at hs
      cases hs
      have hwoken := h.updateRuntime 0 (f := fun rt => { rt with lot }) fun _ => ⟨rfl, rfl, rfl⟩
      exact hwoken.reframe hth .search (hdrain .joinPool) (hwaiting .joinPool) (.idle rfl rfl)
  | joinPool =>
    dsimp only at hs
    split at hs
    · cases hs
    · cases hs
      exact h.reframe hth .search (hdrain .close) (hwaiting .close) (.idle rfl rfl)
  | close =>
    obtain ⟨storage, hstorage, hs⟩ := Option.bind_eq_some_iff.1 hs
    obtain ⟨rfl, _⟩ := Thread.base_eq_outside.1 hbase
    obtain rfl := h.rootStorage hrt hstorage
    have houter := (h.runtimes rt (List.mem_of_getElem? hrt)).2.2
    cases hs
    have hquit := h.quit hth hb { th with control := .run next, context := rt.outer, active := false }
      hframes houter rfl ⟨.nil, hnext⟩ (.idle rfl rfl)
    have hdropped := hquit.dropQueues (queued rt.queues)
    rw [show (m.setThread 0 _).closeStorage 0 = (m.closeStorage 0).setThread 0 _ from rfl,
      dropQueues_setThread] at hdropped
    exact hdropped.updateRuntime 0 fun _ => ⟨rfl, rfl, rfl⟩

/-! ## Bodies -/

/-- A request is answered: only the operations on memory map anything. -/
theorem Sound.answer (h : m.Sound n space hist) (hth : m.threads[id]? = some th) (r : Request)
    {next : r.Reply → Body σ} (hctl : th.control = .run (.call r next)) :
    ({ m with ledger := (m.answer th r).2 } : Machine σ).Sound n space (hist.next m th) := by
  unfold History.next
  rw [hctl]
  cases r with
  | memory op =>
    obtain ⟨htally, hbodies⟩ := h.tally.perform h.site (h.holder hth) op
    exact h.setLedger hbodies htally
  | write ref off bytes =>
    refine h.setLedger ?_ (h.tally.write ref off bytes)
    rw [show (m.answer th (.write ref off bytes)).2.roster = m.ledger.roster from
      m.ledger.write_roster ref off bytes]
    exact .refl _
  | _ => exact h

theorem Sound.blockOn (h : m.Sound n space hist) (hth : m.threads[id]? = some th)
    {root : Body σ} {next : Except Payload Value → Body σ} {rt : Runtime}
    (hrt : m.runtimes[0]? = some rt) (hstorage : rt.storages[WorkerId.root]? = some storage)
    (hfr : Stacked (th.base id) false th.frames) (hrole : (th.base id).on th.frames ≠ .task)
    (hroot : root.Allowed .root) (hnext : ∀ result, (next result).Allowed ((th.base id).on th.frames)) :
    (m.openBracket id th storage TaskId.root (.root · th.currentTask next) root).Sound n space hist := by
  obtain ⟨rfl, hw⟩ := Thread.base_eq_outside.1 (Thread.base_of_ne (hfr.base_ne hrole))
  obtain rfl := h.rootStorage hrt hstorage
  refine h.openBracket hth hw (fun _ => rfl) (fun _ => ⟨.root hfr hrole hnext, hroot⟩)
    (fun hne => absurd rfl hne) (.inl rfl) fun other x hx hc => ?_
  obtain ⟨⟨cell, hcell, _⟩, _⟩ := (h.keeps other x hx).2 _ hc
  cases hcell

theorem Sound.runBody (h : m.Sound n space hist) (hth : m.threads[id]? = some th) {body : Body σ}
    (hfr : Stacked (th.base id) false th.frames) (hallowed : body.Allowed ((th.base id).on th.frames))
    (hcall : ∀ r next, body ≠ .call r next) (hs : m.runBody id th body = some m') :
    m'.Sound n space hist := by
  cases body with
  | call r next => exact absurd rfl (hcall r next)
  | finish v =>
    simp only [Machine.runBody] at hs
    split at hs
    · rename_i he
      cases hs
      exact h.goOn hth _ (List.isEmpty_iff.1 he) (.idle rfl rfl)
    · cases hs
      exact h.goOn hth (.leave (.ok v)) hfr (.idle rfl rfl)
  | panic payload =>
    simp only [Machine.runBody] at hs
    split at hs
    · rename_i he
      cases hs
      exact h.goOn hth _ (List.isEmpty_iff.1 he) (.idle rfl rfl)
    · cases hs
      exact h.goOn hth (.leave (.error payload)) hfr (.idle rfl rfl)
  | share change next =>
    cases hs
    exact (h.share (change m.shared)).goOn hth (.run (next m.shared)) ⟨hfr, hallowed _⟩ (.idle rfl rfl)
  | await ready next =>
    simp only [Machine.runBody] at hs
    split at hs
    · cases hs
      exact h.goOn hth (.run (next m.shared)) ⟨hfr, hallowed _⟩ (.idle rfl rfl)
    · cases hs
  | spawn target options child next =>
    simp only [Machine.runBody] at hs
    split at hs
    · exact h.spawnOn hth hfr hallowed.1 hallowed.2 hs
    · cases hs
      exact h.goOn hth (.run (next (.error noRuntime))) ⟨hfr, hallowed.2 _⟩ (.idle rfl rfl)
  | wait kind task next => exact h.beginWait hth hfr hallowed hs
  | build settings space next => exact hallowed.elim
  | blockOn runtime root next =>
    obtain ⟨hrole, rfl, hroot, hnext⟩ := hallowed
    obtain ⟨rt, hrt, hs⟩ := Option.bind_eq_some_iff.1 hs
    obtain ⟨storage, hstorage, hs⟩ := Option.bind_eq_some_iff.1 hs
    cases hs
    exact h.blockOn hth hrt hstorage hfr hrole hroot hnext
  | shutdown runtime next =>
    obtain ⟨hrole, rfl, hnext⟩ := hallowed
    obtain ⟨rt, hrt, hs⟩ := Option.bind_eq_some_iff.1 hs
    have hframes : th.frames = [] := by
      generalize hw : th.frames = frames at hfr hrole
      cases hfr with
      | nil => rfl
      | root => cases hrole
      | task => cases hrole
    split at hs
    · cases hs
      exact h.goOn hth (.run next) ⟨hfr, hnext.of_task _⟩ (.idle rfl rfl)
    · cases hs
      rw [hframes] at hrole
      have hstopping := h.updateRuntime 0 (f := fun rt => { rt with stopping := true })
        fun _ => ⟨rfl, rfl, rfl⟩
      exact hstopping.goOn hth (.stop 0 .wakeAll next) ⟨hframes, hrole, rfl, hnext⟩ (.idle rfl rfl)
  | onThread body next =>
    cases hs
    exact (h.goOn hth (.joinThread m.threads.length next) ⟨hfr, hallowed.2⟩ (.idle rfl rfl)).addThread
      hallowed.1

/-! ## Tasks begin and end -/

theorem Sound.begin (h : m.Sound n space hist) (hth : m.threads[id]? = some th) {body : Body σ}
    (hctl : th.control = .begin t storage body) {cell cell' : Cell (Body σ)} (hc : m.cell? t = some cell)
    (hstart : cell.start = .ok cell') :
    ((m.setCell cell').openBracket id th storage t (.task t · th.currentTask) body).Sound n space hist := by
  obtain ⟨hfr, hne, rfl, hw, hbody⟩ := h.controlFits hth hctl
  obtain ⟨taken, htaken, hnone⟩ := (h.keeps _ th hth).1 t (by rw [hctl]; rfl)
  cases hc.symm.trans htaken
  unfold Cell.start at hstart
  split at hstart
  · rename_i hcreated
    cases hstart
    have hset := h.setCell hc { cell with state := .running } (h.cells t cell hc).1
      (fun body he => by cases hnone.symm.trans he) (fun hs => by cases hs) (fun hs => by cases hs)
    refine hset.openBracket hth hw (fun _ => rfl) (fun _ => ⟨.task hne hfr, hbody⟩)
      (fun _ => h.not_owned hc hcreated) (.inr ⟨{ cell with state := .running }, ?_, rfl⟩)
      fun other x hx hdone => ?_
    · exact cell?_setCell_self hc { cell with state := .running } (h.cells t cell hc).1
    -- nobody completes a task that was just created
    · obtain ⟨⟨found, hfound, hstate⟩, _⟩ := (h.keeps other x hx).2 t hdone
      cases hc.symm.trans hfound
      exact hstate hcreated
  · cases hstart

theorem Sound.leave (h : m.Sound n space hist) (hth : m.threads[id]? = some th)
    {result : Except Payload Value} {choice : Choice} (hctl : th.control = .leave result)
    (hs : m.stepThread id th choice = some m') : m'.Sound n space hist := by
  have hfr : Stacked (th.base id) false th.frames := h.controlFits hth hctl
  unfold Machine.stepThread at hs
  rw [hctl] at hs
  dsimp only at hs
  split at hs
  · rename_i task bracket outer frames hframes
    cases hs
    rw [hframes] at hfr
    have hb : th.bodies = (task, bracket) :: frames.filterMap Frame.body? := Thread.bodies_eq hframes
    cases hfr with
    | task hne hfr =>
      refine h.closeBracket hth hb rfl hfr rfl fun t' he => ?_
      cases he
      exact ⟨rfl, hne⟩
  · rename_i bracket outer next frames hframes
    cases hs
    rw [hframes] at hfr
    have hb : th.bodies = (TaskId.root, bracket) :: frames.filterMap Frame.body? := Thread.bodies_eq hframes
    cases hfr with
    | root hfr _ hnext =>
      refine h.closeBracket hth hb rfl ⟨hfr, hnext _⟩ rfl fun t' he => ?_
      cases he
  · cases hs

theorem Sound.publish (h : m.Sound n space hist) (hth : m.threads[id]? = some th) {outcome : Outcome}
    (hctl : th.control = .publish t outcome) {cell : Cell (Body σ)} (hc : m.cell? t = some cell) :
    ((m.setCell (cell.publish outcome)).setThread id
      { th with control := .settle t outcome.isOk }).Sound n space hist := by
  have hfr : Stacked (th.base id) true th.frames := h.controlFits hth hctl
  obtain ⟨⟨found, hfound, hne⟩, hreleased⟩ := (h.keeps id th hth).2 t (by rw [hctl]; rfl)
  cases hc.symm.trans hfound
  obtain ⟨hid, hbody, hterm⟩ := h.cells t cell hc
  have hset := h.setCell hc (cell.publish outcome) hid (fun body he => ⟨he, (hbody body he).2⟩)
    (fun hs => hs) hterm
  refine hset.goOn hth (.settle t outcome.isOk) hfr ⟨fun _ he => (by cases he), fun t' he => ?_⟩
  cases he
  exact ⟨⟨_, cell?_setCell_self hc (cell.publish outcome) hid, hne⟩, hreleased⟩

/-- A task becomes terminal, once nothing of it is registered. -/
theorem Sound.settle (h : m.Sound n space hist) (hth : m.threads[id]? = some th) {completed : Bool}
    (hctl : th.control = .settle t completed) {cell cell' : Cell (Body σ)} (hc : m.cell? t = some cell)
    (hset : cell.settle completed = .ok cell') (hs : (m.setCell cell').resume id th = some m') :
    m'.Sound n space hist := by
  have hfr : Stacked (th.base id) true th.frames := h.controlFits hth hctl
  obtain ⟨⟨found, hfound, hne⟩, hreleased⟩ := (h.keeps id th hth).2 t (by rw [hctl]; rfl)
  cases hc.symm.trans hfound
  obtain ⟨hid, hbody, _⟩ := h.cells t cell hc
  unfold Cell.settle at hset
  split at hset
  · cases hset
  · cases hset
    have hsound := h.setCell hc { cell with state := if completed then .completed else .failed }
      hid (fun body he => absurd (hbody body he).2 hne) (fun hs => by cases completed <;> cases hs)
      fun _ => hreleased
    exact hsound.resume hth hfr hs

/-! ## Steps -/

/-- The step of a thread that does anything but run a body. -/
theorem Sound.stepControl (h : m.Sound n space hist) (hth : m.threads[id]? = some th) {choice : Choice}
    (hrun : ∀ body, th.control ≠ .run body) (hs : m.stepThread id th choice = some m') :
    m'.Sound n space hist := by
  cases hctl : th.control with
  | run body => exact absurd hctl (hrun body)
  | leave result => exact h.leave hth hctl hs
  | «begin» t storage body =>
    simp only [Machine.stepThread, hctl] at hs
    obtain ⟨cell, hc, hs⟩ := Option.bind_eq_some_iff.1 hs
    split at hs
    · cases hs
      exact h.failTask _
    · rename_i cell' hstart
      cases hs
      exact h.begin hth hctl hc hstart
  | publish t outcome =>
    simp only [Machine.stepThread, hctl] at hs
    obtain ⟨cell, hc, hs⟩ := Option.bind_eq_some_iff.1 hs
    cases hs
    exact h.publish hth hctl hc
  | settle t completed =>
    simp only [Machine.stepThread, hctl] at hs
    obtain ⟨cell, hc, hs⟩ := Option.bind_eq_some_iff.1 hs
    split at hs
    · cases hs
      exact h.failTask _
    · rename_i cell' hset
      exact h.settle hth hctl hc hset hs
  | wait kind t next =>
    have hfit := h.controlFits hth hctl
    simp only [Machine.stepThread, hctl] at hs
    obtain ⟨cell, hc, hs⟩ := Option.bind_eq_some_iff.1 hs
    split at hs
    · cases hs
      exact h.deliver hth th.frames rfl hfit.1 hfit.2 cell
    · cases hs
  | wake runtime next =>
    have hfit := h.controlFits hth hctl
    simp only [Machine.stepThread, hctl] at hs
    obtain ⟨rt, _, hs⟩ := Option.bind_eq_some_iff.1 hs
    split at hs
    · cases hs
      exact h.failSlot
    · rename_i lot _
      cases hs
      have hwoken := h.updateRuntime runtime (f := fun rt => { rt with lot }) fun _ => ⟨rfl, rfl, rfl⟩
      exact hwoken.goOn hth (.run next) hfit (.idle rfl rfl)
  | search =>
    have hfit := h.controlFits hth hctl
    simp only [Machine.stepThread, hctl] at hs
    exact h.stepSearch hth hfit hs
  | hold t =>
    have hfit := h.controlFits hth hctl
    simp only [Machine.stepThread, hctl] at hs
    exact h.stepHold hth hfit hs
  | park =>
    have hfit := h.controlFits hth hctl
    simp only [Machine.stepThread, hctl] at hs
    exact h.stepPark hth hfit hs
  | parked =>
    have hfit := h.controlFits hth hctl
    simp only [Machine.stepThread, hctl] at hs
    obtain ⟨c, _, hs⟩ := Option.bind_eq_some_iff.1 hs
    obtain ⟨rt, _, hs⟩ := Option.bind_eq_some_iff.1 hs
    split at hs
    · cases hs
      exact h.goOn hth .tick hfit (.idle rfl rfl)
    · cases hs
  | tick =>
    have hfit := h.controlFits hth hctl
    simp only [Machine.stepThread, hctl] at hs
    exact h.stepTick hth hfit hs
  | exit =>
    have hfit := h.controlFits hth hctl
    simp only [Machine.stepThread, hctl] at hs
    exact h.stepExit hth hfit hs
  | stop runtime stage next =>
    have hfit := h.controlFits hth hctl
    simp only [Machine.stepThread, hctl] at hs
    obtain ⟨hframes, hbase, hruntime, hnext⟩ := hfit
    exact h.stop hth hframes hbase hruntime hnext hs
  | joinThread thread next =>
    have hfit := h.controlFits hth hctl
    simp only [Machine.stepThread, hctl] at hs
    obtain ⟨other, _, hs⟩ := Option.bind_eq_some_iff.1 hs
    obtain ⟨result, _, hs⟩ := Option.bind_eq_some_iff.1 hs
    cases hs
    exact h.goOn hth (.run (next result)) ⟨hfit.1, hfit.2 result⟩ (.idle rfl rfl)
  | ended result =>
    simp only [Machine.stepThread, hctl] at hs
    cases hs

theorem Sound.stepThread (h : m.Sound n space hist) (hth : m.threads[id]? = some th) {choice : Choice}
    (hs : m.stepThread id th choice = some m') : m'.Sound n space (hist.next m th) := by
  by_cases hrun : ∃ body, th.control = .run body
  · obtain ⟨body, hctl⟩ := hrun
    obtain ⟨hfr, hallowed⟩ := h.controlFits hth hctl
    simp only [Machine.stepThread, hctl] at hs
    by_cases hcall : ∃ r next, body = .call r next
    · obtain ⟨r, next, rfl⟩ := hcall
      cases hs
      exact (h.answer hth r hctl).goOn hth (.run (next _)) ⟨hfr, hallowed _⟩ (.idle rfl rfl)
    · have hcall : ∀ r next, body ≠ .call r next := fun r next he => hcall ⟨r, next, he⟩
      have hhist : hist.next m th = hist := by
        rw [History.next, hctl]
        split
        · rename_i he
          cases he
          exact absurd rfl (hcall _ _)
        · rfl
      rw [hhist]
      exact h.runBody hth hfr hallowed hcall hs
  · have hrun : ∀ body, th.control ≠ .run body := fun body he => hrun ⟨body, he⟩
    have hhist : hist.next m th = hist := by
      rw [History.next]
      split
      · rename_i he
        exact absurd he (hrun _)
      · rfl
    rw [hhist]
    exact h.stepControl hth hrun hs

/-- Whatever thread steps, a sound machine stays sound. -/
theorem Sound.step (h : m.Sound n space hist) (hth : m.threads[id]? = some th) {choice : Choice}
    (hs : m.step id choice = some m') : m'.Sound n space (hist.next m th) := by
  unfold Machine.step at hs
  split at hs
  · cases hs
  · obtain ⟨found, hfound, hs⟩ := Option.bind_eq_some_iff.1 hs
    cases hth.symm.trans hfound
    exact h.stepThread hth hs

end Machine

end TaskSpace

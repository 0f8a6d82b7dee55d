import TaskSpace.Proofs.Plans.Followed

/-!
# Runs of a plan agree

A run that carries out a plan and comes to its end has run every task, and the result of each is the one
that the plan comes to. Nothing else about the run matters: not its settings, nor which thread ran what.
-/

namespace TaskSpace

namespace Machine

/-! ## The end of a run -/

section

variable {σ : Type} {m rest : Machine σ} {k : Nat} {es : TaskId → List Event} {id : ThreadId} {th th' : Thread σ}
  {rt rt' : Runtime} {stage : StopStage}

/-- A shutdown goes on until the runtime is closed. -/
theorem Hosts.stops_on (h : m.Hosts k es) (hth : m.threads[id]? = some th) (hm : m.Move id th rest th')
    (hs : th.Stops stage) : (∃ stage', th'.Stops stage') ∨
      (∃ runtime body, th.control = .stop runtime .close body) ∧ th'.context = none := by
  rcases hs with ⟨runtime, next, hstop⟩ | ⟨runtime, next, hin⟩
  · cases hm with
    | rang hctl => exact .inl ⟨_, .inr ⟨_, _, List.mem_cons_self⟩⟩
    | joinedPool hctl => exact .inl ⟨_, .inr ⟨_, _, List.mem_cons_self⟩⟩
    | closed hctl hfound =>
      obtain ⟨space, hist, hsound⟩ := h.sound
      exact .inr ⟨⟨_, _, hctl⟩, (hsound.runtimes _ (List.mem_of_getElem? hfound)).2.2⟩
    | crashed => exact .inl ⟨_, .inl ⟨_, _, hstop⟩⟩
    | delivered ha => rcases ha with ha | ha <;> cases hstop.symm.trans ha
    | @ended result hrun | @returned result hrun => cases hstop.symm.trans hrun
    | _ => cases hstop.symm.trans (by assumption)
  · have htail : ∀ {frame : Frame σ} {frames : List (Frame σ)}, th.frames = frame :: frames →
        (∀ runtime stage next, frame ≠ .drain runtime stage next) → .drain runtime stage next ∈ frames := by
      intro frame frames hf hne
      rw [hf] at hin
      exact (List.mem_cons.1 hin).resolve_left fun he => hne _ _ _ he.symm
    cases hm with
    | rooted | began | nested | rang | joinedPool =>
      exact .inl ⟨stage, .inr ⟨_, _, List.mem_cons_of_mem _ hin⟩⟩
    | left _ hf | leftRoot _ hf | resumed _ _ _ hf => exact .inl ⟨stage, .inr ⟨_, _, htail hf nofun⟩⟩
    | idle _ hf | ticked _ hf =>
      exact .inl ⟨stage, .inr ⟨_, _, List.mem_cons_of_mem _ (htail hf nofun)⟩⟩
    | found _ hseeks =>
      cases hseeks with
      | loop hf => exact .inl ⟨stage, .inr ⟨_, _, List.mem_cons_of_mem _ (htail hf nofun)⟩⟩
      | drain => exact .inl ⟨stage, .inr ⟨_, _, hin⟩⟩
    | drained => exact .inl ⟨_, .inl ⟨_, _, rfl⟩⟩
    | exited hctl =>
      obtain ⟨_, _, _, hf⟩ := h.controlFits hth hctl
      cases htail hf nofun
    | closed hctl =>
      rw [(h.controlFits hth hctl).1] at hin
      cases hin
    | _ => exact .inl ⟨stage, .inr ⟨_, _, hin⟩⟩

end

variable {m rest : Machine Handles} {k : Nat} {es : TaskId → List Event} {id other : ThreadId}
  {th th' x : Thread Handles} {rt rt' : Runtime} {t u : TaskId} {root : Plan} {fam : Family} {path : Path}
  {result : Except Payload Value} {turns : Turns Handles}

/-- How far the thread that built the runtime is: the runtime is up, or the thread shuts it down, or did so.
Then no other thread is left, and every task is over. -/
inductive Phase (m : Machine Handles) (rt : Runtime) (th : Thread Handles) : Prop
  | up : rt.stopping = false → Phase m rt th
  | closing {stage} : th.Stops stage → Phase m rt th
  | down : th.context = none →
    (∀ (other : ThreadId) (x : Thread Handles), other ≠ 0 → m.threads[other]? = some x → x.result?.isSome) →
    (∀ t cell, m.cell? t = some cell → cell.outcome.isSome) → Phase m rt th

/-- Once every task has its outcome, this stays so, unless a task is spawned. -/
theorem Hosts.outcomes_move (h : m.Hosts k es) (hth : m.threads[id]? = some th)
    (h' : (rest.setThread id th').Hosts k (Scene.next es id th m rest))
    (hspawn : ∀ target options child next, th.control ≠ .run (.spawn target options child next))
    (hall : ∀ t cell, m.cell? t = some cell → cell.outcome.isSome) {cell : Cell (Body Handles)}
    (hc : rest.cell? t = some cell) : cell.outcome.isSome := by
  cases hold : m.cell? t with
  | none =>
    obtain ⟨_, _, _, _, hctl⟩ := h.spawns_of_new h' hold hc
    exact absurd hctl (hspawn _ _ _ _)
  | some old =>
    obtain ⟨_, hc', _, hsame, _⟩ := h.moved hth h' hold
    cases hc.symm.trans hc'
    rw [hsame (hall t old hold)]
    exact hall t old hold

theorem Followed.ended_move (hf : Followed root fam m) (hth : m.threads[0]? = some th) (hm : m.Move 0 th rest th')
    (hall : ∀ (other : ThreadId) (x : Thread Handles), other ≠ 0 → m.threads[other]? = some x → x.result?.isSome)
    (hne : other ≠ 0) (hx : (rest.setThread 0 th').threads[other]? = some x) : x.result?.isSome := by
  rcases hm.thread_cases hth hx with ⟨he, _⟩ | ⟨_, hx⟩ | ⟨_, _, ha⟩
  · exact absurd he hne
  · exact hall other x hne hx
  · exact (hf.not_added hth ha).elim

theorem Phase.move (h : m.Hosts k es) (ho : m.Orderly k rt es) (hf : Followed root fam m)
    (hth : m.threads[0]? = some th) (hp : Phase m rt th) (hm : m.Move 0 th rest th')
    (h' : (rest.setThread 0 th').Hosts k (Scene.next es 0 th m rest)) (hone : m.runtimes = [rt])
    (hone' : rest.runtimes = [rt']) : Phase (rest.setThread 0 th') rt' th' := by
  cases hp with
  | up hup =>
    rcases (h.requeues hth hm h'.crash hone hone').2 with he | ⟨_, _, _, hctl⟩
    · exact .up (he.trans hup)
    · exact .closing (.inl ⟨_, _, hctl⟩)
  | closing hs =>
    rcases h.stops_on hth hm hs with ⟨_, hs⟩ | ⟨⟨_, _, hctl⟩, hnone⟩
    · exact .closing hs
    · refine .down hnone (fun other x hne => hf.ended_move hth hm (fun other x hne hx => ?_) hne) fun t cell =>
        h.outcomes_move hth h' (fun _ _ _ _ hspawn => ?_) fun t cell hc => ?_
      · cases hr : x.result? with
        | none => exact absurd (ho.alone h hth hctl hx hr).1 hne
        | some => rfl
      · cases hctl.symm.trans hspawn
      · obtain ⟨_, _, houtcome⟩ := ho.finished h hth hctl hc
        rw [houtcome]
        rfl
  | down hnone hended hall =>
    refine .down ?_ (fun other x hne => hf.ended_move hth hm hended hne) fun t cell =>
      h.outcomes_move hth h' (fun _ _ _ _ hspawn => ?_) hall
    · cases hc : th'.context with
      | none => rfl
      | some c =>
        have hworks := h.worked hth hm (by rw [hc]; rfl)
        rw [hnone] at hworks
        cases hworks
    · obtain ⟨u, htop, _⟩ := hf.planned hth hspawn rfl
      rw [h.idle 0 th hth hnone] at htop
      cases htop

theorem Phase.move_other (h : m.Hosts k es) (hp : Phase m rt x) (hne : id ≠ 0)
    (hth : m.threads[id]? = some th) (hm : m.Move id th rest th')
    (h' : (rest.setThread id th').Hosts k (Scene.next es id th m rest)) (hone : m.runtimes = [rt])
    (hone' : rest.runtimes = [rt']) : Phase (rest.setThread id th') rt' x := by
  cases hp with
  | up hup =>
    rcases (h.requeues hth hm h'.crash hone hone').2 with he | ⟨_, _, _, hctl⟩
    · exact .up (he.trans hup)
    · exact absurd (h'.of_stop (hm.self hth) hctl).1 hne
  | closing hs => exact .closing hs
  | down _ hended =>
    have hr := hended id th hne hth
    rw [hm.live] at hr
    cases hr

/-- The plan was carried out up to now. -/
structure Carries (root : Plan) (k : Nat) (turns : Turns Handles) (es : TaskId → List Event)
    (m : Machine Handles) : Prop where
  followed : Followed root (spawnTree turns) m
  phase : ∃ rt th, m.runtimes = [rt] ∧ m.Orderly k rt es ∧ m.threads[0]? = some th ∧ Phase m rt th

theorem carries_launched (hl : Launched k root.main m) (hshared : m.shared = [])
    (turn : Turn (Machine Handles) (ThreadId × Choice)) (hafter : turn.after = m) :
    Carries root k [turn] (fun _ => []) m where
  followed := by
    have htree : spawnTree [turn] = [] := after_of_le [] (by rw [hafter, hl.tasks]; exact Nat.zero_le _)
    rw [htree]
    refine ⟨.nil, by rw [hl.tasks]; rfl, fun path t hin => ?_, fun t cell hc => ?_, fun id th hth => ?_⟩
    · rw [hshared] at hin
      cases hin
    · cases (hl.cell t).symm.trans hc
    · rcases hl.thread hth with ⟨rfl, rfl⟩ | ⟨h1, rfl⟩
      · exact ⟨trivial, .inr ⟨rfl, rfl, .blockOn (.plan rfl .root)⟩⟩
      · exact ⟨Nat.ne_of_gt h1, trivial⟩
  phase := by
    obtain ⟨rt, hone, hqueues, hup, _⟩ := hl.runtime
    exact ⟨rt, _, hone, orderly_launched hl hqueues, by rw [hl.threads]; rfl, .up hup⟩

theorem Carries.move (hc : Carries root k turns es m) (h : m.Hosts k es) (hth : m.threads[id]? = some th)
    (hm : m.Move id th rest th') (h' : (rest.setThread id th').Hosts k (Scene.next es id th m rest))
    (choice : Choice) : Carries root k (turns ++ [⟨m, (id, choice), rest.setThread id th'⟩])
      (Scene.next es id th m rest) (rest.setThread id th') := by
  obtain ⟨rt, x, hone, ho, hx, hp⟩ := hc.phase
  obtain ⟨rt', hone', _⟩ := h'.runtime
  refine ⟨?_, ?_⟩
  · rw [spawnTree_append]
    exact hc.followed.move h ho hth hm h'.crash hone hone'
  · have ho' := ho.move h hth hm h' hone hone'
    by_cases hid : id = 0
    · subst hid
      cases hth.symm.trans hx
      exact ⟨rt', th', hone', ho', hm.self hth, hp.move h ho hc.followed hth hm h' hone hone'⟩
    · exact ⟨rt', x, hone', ho', hm.kept hx (Ne.symm hid), hp.move_other h hid hth hm h' hone hone'⟩

/-- A plan was carried out to its end; `fam` is the spawn tree. -/
structure Finished (root : Plan) (fam : Family) (m : Machine Handles) (result : Except Payload Value) : Prop where
  followed : Followed root fam m
  concludes : Concludes root fam TaskId.root result
  complete : ∀ t cell, m.cell? t = some cell → cell.outcome.isSome

theorem Carries.finished (hc : Carries root k turns es m) (h : m.Hosts k es)
    (hend : (m.threads[0]?).bind Thread.result? = some result) : Finished root (spawnTree turns) m result := by
  obtain ⟨rt, th, hone, _, hth, hp⟩ := hc.phase
  rw [hth] at hend
  have hctl : th.control = .ended result := by
    cases hctl : th.control with
    | ended found => simpa [Thread.result?, hctl] using hend
    | _ => simp [Thread.result?, hctl] at hend
  have hfollows := (hc.followed.threads 0 th hth).control
  rw [hctl] at hfollows
  obtain ⟨hstopping, hconcludes⟩ := hfollows rfl
  refine ⟨hc.followed, hconcludes, ?_⟩
  cases hp with
  | up hup => simp [(stopping_iff hone).1 hstopping] at hup
  | closing hs =>
    rcases hs with ⟨_, _, hstop⟩ | ⟨_, _, hin⟩
    · cases hctl.symm.trans hstop
    · rw [show th.frames = [] from h.controlFits hth hctl] at hin
      cases hin
  | down _ _ hall => exact hall

/-! ## Results -/

/-- The tasks of a machine are those of the spawn tree. -/
theorem Followed.cell_iff (hf : Followed root fam m) :
    (∃ cell, m.cell? t = some cell) ↔ ∃ e, fam.entry? t = some e := by
  cases t with
  | zero => simp [cell?, task?, Family.entry?]
  | succ place =>
    rw [← Option.isSome_iff_exists, ← Option.isSome_iff_exists, cell?, Option.isSome_map]
    simp [task?, Family.entry?, hf.length]

namespace Finished

variable {plan : Plan} {n i : Nat}

/-- Every task came to a result. -/
theorem concluded (hf : Finished root fam m result) (hp : fam.place? u = some path) :
    ∃ result, Concludes root fam u result ∧
      ∀ cell, m.cell? u = some cell → cell.outcome = some (outcomeOf u result) := by
  rcases Family.place?_cases hp with ⟨rfl, _⟩ | ⟨_, he⟩
  · exact ⟨result, hf.concludes, nofun⟩
  · obtain ⟨cell, hc⟩ := hf.followed.cell_iff.2 ⟨_, he⟩
    obtain ⟨outcome, houtcome⟩ := Option.isSome_iff_exists.1 (hf.complete u cell hc)
    obtain ⟨result, rfl, hconcludes⟩ := (hf.followed.cells u cell hc).outcome outcome houtcome
    refine ⟨result, hconcludes, fun found hfound => ?_⟩
    cases hc.symm.trans hfound
    exact houtcome

/-- Every task that the plan comes to is there. -/
theorem reached (hf : Finished root fam m result) (h : root.Reaches path n i plan) :
    ∃ t, fam.place? t = some path := by
  induction h with
  | root => exact ⟨TaskId.root, rfl⟩
  | child hspawn ih =>
    obtain ⟨u, hp⟩ := ih
    obtain ⟨_, ⟨_, _, hp', hresult⟩, _⟩ := hf.concluded hp
    cases hp.symm.trans hp'
    obtain ⟨t, he⟩ := hf.followed.grown.exists_child hp (hspawn.spawned_before hresult)
    exact ⟨t, Family.place?_of_entry he⟩
  | spawn _ ih => exact ih
  | wait _ _ ih => exact ih

theorem told_outcomeOf (t : TaskId) (result : Except Payload Value) :
    (outcomeOf t result).mapError JoinError.cause = Plan.told result := by
  cases result <;> rfl

/-- The results are those that the plan comes to. -/
theorem resultAt_iff (hf : Finished root (spawnTree turns) m result) {answer : Except JoinCause Value} :
    resultAt turns m path = some answer ↔
      path ≠ [] ∧ ∃ n i result, root.Reaches path n i (.ofResult result) ∧ answer = Plan.told result := by
  constructor
  · intro h
    obtain ⟨outcome, hfound, rfl⟩ := Option.map_eq_some_iff.1 h
    obtain ⟨cell, hfound, houtcome⟩ := Option.bind_eq_some_iff.1 hfound
    obtain ⟨t, ht, hc⟩ := Option.bind_eq_some_iff.1 hfound
    obtain ⟨u, he⟩ := Family.entry?_of_taskAt ht
    have hp := Family.place?_of_entry he
    obtain ⟨result, rfl, _, n, hp', hresult⟩ := (hf.followed.cells t cell hc).outcome outcome houtcome
    cases hp.symm.trans hp'
    refine ⟨?_, n, _, result, hresult, told_outcomeOf t result⟩
    obtain ⟨parent, i, _, rfl, _⟩ := hf.followed.grown.entry he
    simp
  · rintro ⟨hne, n, i, result, hresult, rfl⟩
    obtain ⟨t, hp⟩ := hf.reached hresult
    rcases Family.place?_cases hp with ⟨_, rfl⟩ | ⟨_, he⟩
    · exact absurd rfl hne
    · obtain ⟨cell, hc⟩ := hf.followed.cell_iff.2 ⟨_, he⟩
      obtain ⟨result', ⟨_, _, hp', hresult'⟩, houtcome⟩ := hf.concluded hp
      cases hp.symm.trans hp'
      obtain ⟨_, rfl⟩ := hresult.result_eq hresult'
      simp only [resultAt, hf.followed.grown.taskAt_of_entry he, Option.bind_some, hc, houtcome cell hc,
        Option.map_some, told_outcomeOf]

/-- Every task has a place, and a result. -/
theorem exists_place (hf : Finished root (spawnTree turns) m result) {cell : Cell (Body Handles)}
    (hc : m.cell? t = some cell) : ∃ path, (spawnTree turns).taskAt path = some t ∧ (resultAt turns m path).isSome := by
  obtain ⟨⟨u, path⟩, he⟩ := hf.followed.cell_iff.1 ⟨cell, hc⟩
  have ht := hf.followed.grown.taskAt_of_entry he
  obtain ⟨outcome, houtcome⟩ := Option.isSome_iff_exists.1 (hf.complete t cell hc)
  refine ⟨path, ht, ?_⟩
  simp only [resultAt, ht, Option.bind_some, hc, houtcome, Option.map_some, Option.isSome_some]

/-- Two machines that carried out a plan agree. -/
theorem agree {turns' : Turns Handles} {m' : Machine Handles} {result' : Except Payload Value}
    (hf : Finished root (spawnTree turns) m result) (hf' : Finished root (spawnTree turns') m' result') :
    result = result' ∧ ∀ path, resultAt turns m path = resultAt turns' m' path := by
  refine ⟨?_, fun path => Option.ext fun answer => hf.resultAt_iff.trans hf'.resultAt_iff.symm⟩
  obtain ⟨_, _, hp, hresult⟩ := hf.concludes
  obtain ⟨_, _, hp', hresult'⟩ := hf'.concludes
  cases hp
  cases hp'
  exact (hresult.result_eq hresult').2

end Finished

/-! ## Runs -/

variable {parallelism parallelism' : Nat} {spaces spaces' : List Recorder} {settings settings' : Settings}
  {given given' : Option SpaceId} {config config' : Config} {schedule schedule' : List (ThreadId × Choice)}
  {turns' : Turns Handles} {m' : Machine Handles} {result' : Except Payload Value}

theorem finished_of_run (h : Launches parallelism spaces settings given config)
    (hrun : trail advance (start parallelism spaces [] (.build settings given root.main)) schedule = some (turns, m))
    (hend : (m.threads[0]?).bind Thread.result? = some result) : Finished root (spawnTree turns) m result := by
  have hinv := hosts_run (P := fun turns es m => Carries root config.poolSize turns es m) h root.allowed_main
    (fun before choice m hshared _ hl _ => carries_launched hl hshared ⟨before, (0, choice), m⟩ rfl)
    (fun _ es m id choice th rest th' hm hc hth hmove hm' => hc.move hm hth hmove hm' choice) hrun
  rcases hinv with ⟨rfl, rfl⟩ | ⟨es, hm, hc⟩
  · cases hend
  · exact hc.finished hm hend

/-- Whatever the flavor, the workers and the schedules are, two runs of a plan that come to their end agree: the
block-on call gives the same, and so does each task, by its place in the spawn tree. -/
theorem results_agree (root : Plan) (h : Launches parallelism spaces settings given config)
    (h' : Launches parallelism' spaces' settings' given' config')
    (hrun : trail advance (start parallelism spaces [] (.build settings given root.main)) schedule = some (turns, m))
    (hrun' : trail advance (start parallelism' spaces' [] (.build settings' given' root.main)) schedule' =
      some (turns', m'))
    (hend : (m.threads[0]?).bind Thread.result? = some result)
    (hend' : (m'.threads[0]?).bind Thread.result? = some result') :
    result = result' ∧ (∀ path, resultAt turns m path = resultAt turns' m' path) ∧
      ∀ t cell, m.cell? t = some cell →
        ∃ path, (spawnTree turns).taskAt path = some t ∧ (resultAt turns m path).isSome := by
  have hf := finished_of_run h hrun hend
  obtain ⟨hresult, hall⟩ := hf.agree (finished_of_run h' hrun' hend')
  exact ⟨hresult, hall, fun t cell hc => hf.exists_place hc⟩

/-- The child of a task panics, and a task that the root spawns is handed its handle and waits for it. -/
def handed : Plan :=
  .spawn ⟨false, none⟩ (.spawn ⟨false, none⟩ (.panic (.number 7)) (.finish .none)) <|
    .spawn ⟨false, none⟩ (.wait .get [0, 0] fun answer => .finish (.flag (answer matches .ok _))) <|
      .wait .join [0] fun _ => .wait .join [1] fun
      | .ok v => .finish v
      | .error _ => .finish .none

/-- On a local runtime the tasks are run by those that wait for them. On the other a worker of the pool takes the
first task before the root spawns the second, which therefore has another name. -/
theorem results_agree_stolen :
    let turn (id : ThreadId) (pick : Pick) : ThreadId × Choice := (id, ⟨false, 0, pick⟩)
    let schedule := List.replicate 47 (turn 0 .nothing)
    let schedule' := List.replicate 4 (turn 0 .nothing) ++ [turn 1 (.lane 0)] ++ List.replicate 20 (turn 1 .nothing) ++
      List.replicate 22 (turn 0 .nothing) ++ List.replicate 4 (turn 1 .nothing) ++ List.replicate 4 (turn 0 .nothing)
    ∃ turns m turns' m' result result',
      trail advance (start 1 [] [] (.build (Settings.new .localOnly) none handed.main)) schedule = some (turns, m) ∧
      trail advance (start 1 [] [] (.build (Settings.new .stealing) none handed.main)) schedule' =
        some (turns', m') ∧
      (m.threads[0]?).bind Thread.result? = some result ∧ (m'.threads[0]?).bind Thread.result? = some result' ∧
      (spawnTree turns).taskAt [1] = some 2 ∧ (spawnTree turns').taskAt [1] = some 3 ∧
      result = result' ∧ (∀ path, resultAt turns m path = resultAt turns' m' path) ∧
      ∀ t cell, m.cell? t = some cell →
        ∃ path, (spawnTree turns).taskAt path = some t ∧ (resultAt turns m path).isSome := by
  intro turn schedule schedule'
  have hlocal : Launches 1 [] (Settings.new .localOnly) none
      { flavor := .localOnly, workerThreads := 1, naming := .numbered, stackSize := none, interval := 31
        retries := 3, space := Space.new 1 } :=
    ⟨rfl, rfl, by simp, by simp, by simp [Settings.new]⟩
  have hstealing : Launches 1 [] (Settings.new .stealing) none
      { flavor := .stealing, workerThreads := 1, naming := .numbered, stackSize := none, interval := 31
        retries := 3, space := Space.new 2 } :=
    ⟨rfl, rfl, by simp, by simp, by simp [Settings.new]⟩
  have hshown : (trail advance (start 1 [] [] (.build (Settings.new .localOnly) none handed.main)) schedule).map
      (fun run => (((run.2.threads[0]?).bind Thread.result?).isSome, (spawnTree run.1).taskAt [1])) =
        some (true, some 2) := by
    decide +kernel
  have hshown' : (trail advance (start 1 [] [] (.build (Settings.new .stealing) none handed.main)) schedule').map
      (fun run => (((run.2.threads[0]?).bind Thread.result?).isSome, (spawnTree run.1).taskAt [1])) =
        some (true, some 3) := by
    decide +kernel
  obtain ⟨⟨turns, m⟩, hrun, hshown⟩ := Option.map_eq_some_iff.1 hshown
  obtain ⟨⟨turns', m'⟩, hrun', hshown'⟩ := Option.map_eq_some_iff.1 hshown'
  obtain ⟨hend, hname⟩ := Prod.mk.injEq .. ▸ hshown
  obtain ⟨hend', hname'⟩ := Prod.mk.injEq .. ▸ hshown'
  obtain ⟨result, hend⟩ := Option.isSome_iff_exists.1 hend
  obtain ⟨result', hend'⟩ := Option.isSome_iff_exists.1 hend'
  exact ⟨turns, m, turns', m', result, result', hrun, hrun', hend, hend', hname, hname',
    results_agree handed hlocal hstealing hrun hrun' hend hend'⟩

end Machine

end TaskSpace

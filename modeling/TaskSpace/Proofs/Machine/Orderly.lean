import Mathlib.Tactic.ByContra
import TaskSpace.Proofs.Machine.Counted

/-!
# What the queues hold until the runtime is closed

A task that nobody took is queued, or some thread has just found it. A worker of the pool leaves its loop
with an empty lane, and only its own thread puts tasks there. So when the pool has ended and the thread that
shuts the runtime down finds nothing, nothing is queued; and then no other thread is left.
-/

namespace TaskSpace

variable {σ : Type}

namespace Frame

/-- An event loop is at the bottom of the frames. -/
inductive Looped : List (Frame σ) → Prop
  | loop {ticker force leaving} : Looped [.loop ticker force leaving]
  | push {frame frames} : Looped frames → Looped (frame :: frames)

theorem Looped.retick {ticker ticker' : Ticker} {force leaving force' leaving' : Bool} {frames : List (Frame σ)}
    (h : Looped (.loop ticker force leaving :: frames)) : Looped (.loop ticker' force' leaving' :: frames) := by
  cases h with
  | loop => exact .loop
  | push h => exact .push h

end Frame

/-- The thread shuts the runtime down: it is at a stage of that, or runs what is queued before. -/
def Thread.Stops (th : Thread σ) (stage : StopStage) : Prop :=
  (∃ runtime next, th.control = .stop runtime stage next) ∨ ∃ runtime next, .drain runtime stage next ∈ th.frames

namespace Machine

variable {m rest : Machine σ} {k : Nat} {es : TaskId → List Event} {id other : ThreadId} {th th' x : Thread σ}
  {rt rt' : Runtime} {t : TaskId} {turns : Turns σ} {stage : StopStage} {w : WorkerId}

/-! ## What a move does to the queues -/

inductive Requeues (k : Nat) (m : Machine σ) (id : ThreadId) (th th' : Thread σ) (q : Queues) : Queues → Prop
  | same : Requeues k m id th th' q q
  | spawned {runtime body grown} : th'.control = .wake runtime body →
    q.Grows (th'.context.map fun _ => id) (m.tasks.length + 1) grown → Requeues k m id th th' q grown
  | found {task left} : th'.control = .hold task → th'.context.isSome → q.Yields id task left →
    Requeues k m id th th' q left
  | closed {runtime body} : th.control = .stop runtime .close body → Requeues k m id th th' q (.empty (k + 1))

theorem Hosts.requeues (h : m.Hosts k es) (hth : m.threads[id]? = some th) (hm : m.Move id th rest th')
    (hcrash : rest.crash = none) (hone : m.runtimes = [rt]) (hone' : rest.runtimes = [rt']) :
    Requeues k m id th th' rt.queues rt'.queues ∧ (rt'.stopping = rt.stopping ∨
      rt'.stopping ∧ ∃ runtime body, th'.control = .stop runtime .wakeAll body) := by
  have hrt := h.staff hone
  have hsame : m.runtimes = [rt'] → rt' = rt := fun he => List.singleton_inj.1 (he.symm.trans hone)
  have hupdate : ∀ {runtime : RuntimeId} {found : Runtime} {f : Runtime → Runtime}, m.runtimes[runtime]? = some found →
      (m.updateRuntime runtime f).runtimes = [rt'] → found = rt ∧ rt' = f rt := by
    intro runtime found f hrun he
    obtain ⟨rfl, rfl⟩ := runtime_eq hone hrun
    exact ⟨rfl, List.singleton_inj.1 (he.symm.trans (updateRuntime_eq hone f))⟩
  cases hm with
  | spawned hctl _ hrun =>
    obtain ⟨rfl, rfl, he⟩ := enroll_eq hone hrun
    obtain rfl := List.singleton_inj.1 (hone'.symm.trans he)
    exact ⟨.spawned rfl (h.enqueue hth hrt _ _), .inl rfl⟩
  | launched hctl => exact (h.controlFits hth hctl).2.elim
  | woke _ hrun | parked _ _ hrun | rang _ hrun =>
    obtain ⟨_, rfl⟩ := hupdate hrun hone'
    exact ⟨.same, .inl rfl⟩
  | found hctl hseeks hrun hchoose =>
    obtain ⟨rfl, rfl⟩ := hupdate hrun hone'
    obtain ⟨_, rfl, hlt⟩ := h.seeks hth hctl hseeks
    refine ⟨.found rfl ?_ (Queues.choose_yields (hrt.lanes ▸ hlt) hchoose), .inl rfl⟩
    cases hseeks with
    | loop _ hc => exact Option.isSome_iff_exists.2 ⟨_, hc⟩
    | drain hf =>
      obtain ⟨c, hc, _⟩ := h.works hth hf
      exact Option.isSome_iff_exists.2 ⟨c, hc⟩
  | stopped hctl hrun =>
    obtain ⟨_, rfl⟩ := hupdate hrun hone'
    exact ⟨.same, .inr ⟨rfl, _, _, rfl⟩⟩
  | @closed _ found _ storage hctl hrun =>
    obtain ⟨left, crash, he⟩ := dropQueues_eq (m.closeStorage storage) (queued found.queues)
    rw [he] at hone'
    obtain ⟨rfl, rfl⟩ := hupdate hrun hone'
    exact ⟨hrt.workers ▸ .closed hctl, .inl rfl⟩
  | crashed => cases hcrash
  | _ =>
    obtain rfl := hsame hone'
    exact ⟨.same, .inl rfl⟩

theorem Hosts.still_stopping (h : m.Hosts k es) (hth : m.threads[id]? = some th) (hm : m.Move id th rest th')
    (hcrash : rest.crash = none) (hone : m.runtimes = [rt]) (hone' : rest.runtimes = [rt']) (hs : rt.stopping) :
    rt'.stopping := by
  rcases (h.requeues hth hm hcrash hone hone').2 with he | ⟨hs', _⟩
  · exact he.trans hs
  · exact hs'

/-- Whoever asks for a shutdown finds the runtime stopping, or makes it stop. -/
theorem Move.stopping (hm : m.Move id th rest th') (hcrash : rest.crash = none) (hone : m.runtimes = [rt]) (hone' : rest.runtimes = [rt']) {runtime : RuntimeId}
    {body : Body σ} (hctl : th.control = .run (.shutdown runtime body)) : rt'.stopping := by
  cases hm with
  | answered hrun ha =>
    cases hctl.symm.trans hrun
    cases ha with
    | stopping _ hfound hstopping =>
      obtain ⟨_, rfl⟩ := runtime_eq hone hfound
      exact List.singleton_inj.1 (hone.symm.trans hone') ▸ hstopping
  | stopped hrun hfound =>
    obtain ⟨rfl, rfl⟩ := runtime_eq hone hfound
    rw [← List.singleton_inj.1 ((updateRuntime_eq hone _).symm.trans hone')]
  | delivered ha => rcases ha with ha | ha <;> cases hctl.symm.trans ha
  | @ended result hrun | @returned result hrun => cases result <;> cases hctl.symm.trans hrun
  | crashed => cases hcrash
  | _ => cases hctl.symm.trans (by assumption)

/-- A lane without tasks gets one only from its own worker. -/
theorem Requeues.lane {q q' : Queues} (h : Requeues k m id th th' q q') (hw : q.lane w = Queues.bare)
    (hgone : w = id → th'.control = .exit ∨ th'.context = none) : q'.lane w = Queues.bare := by
  cases h with
  | same => exact hw
  | spawned hctl hgrows =>
    rw [hgrows.others w fun hmine => ?_, hw]
    obtain ⟨c, hc, hid⟩ := Option.map_eq_some_iff.1 hmine
    rcases hgone hid.symm with he | he
    · cases he.symm.trans hctl
    · cases he.symm.trans hc
  | found hctl hc hyields =>
    refine hyields.others w (fun hid => ?_) hw
    rcases hgone hid with he | he
    · cases he.symm.trans hctl
    · rw [he] at hc
      cases hc
  | closed => exact Queues.lane_empty _

/-! ## Threads that are over -/

/-- Thread `id` is over. -/
def Ended (m : Machine σ) (id : ThreadId) : Prop :=
  ∃ th, m.threads[id]? = some th ∧ th.result?.isSome

theorem Move.live (hm : m.Move id th rest th') : th.result? = none := by
  cases hctl : th.control with
  | ended result =>
    cases hm with
    | delivered ha => rcases ha with ha | ha <;> cases hctl.symm.trans ha
    | crashed ha =>
      cases ha with
      | undelivered ha => rcases ha with ha | ha <;> cases hctl.symm.trans ha
      | noSlot _ ha => rcases ha with ⟨_, _, ha, _⟩ | ⟨ha, _⟩ | ⟨_, _, _, ha, _⟩ <;> cases hctl.symm.trans ha
      | _ => cases hctl.symm.trans (by assumption)
    | _ => cases hctl.symm.trans (by assumption)
  | _ => simp [Thread.result?, hctl]

theorem Ended.move (he : m.Ended w) (hth : m.threads[id]? = some th) (hm : m.Move id th rest th') :
    (rest.setThread id th').Ended w := by
  obtain ⟨x, hx, hr⟩ := he
  have hne : w ≠ id := by
    rintro rfl
    cases hth.symm.trans hx
    rw [hm.live] at hr
    cases hr
  exact ⟨x, hm.kept hx hne, hr⟩

theorem ended_of_quiet (hrt : rt.Staffed k) (hquiet : m.contended rt = false) (h1 : 1 ≤ w) (hlt : w < k + 1) :
    m.Ended w := by
  have hsome := List.any_eq_false.1 hquiet w ((mem_pool hrt).2 ⟨h1, hlt⟩)
  cases hx : m.threads[w]? with
  | none => simp [hx] at hsome
  | some x => exact ⟨x, hx, by simpa [hx, Option.isSome_iff_ne_none] using hsome⟩

theorem quiet_of_ended (hrt : rt.Staffed k) (hended : ∀ w, 1 ≤ w → w < k + 1 → m.Ended w) :
    m.contended rt = false := by
  refine List.any_eq_false.2 fun w hw => ?_
  obtain ⟨h1, hlt⟩ := (mem_pool hrt).1 hw
  obtain ⟨x, hx, hr⟩ := hended w h1 hlt
  simpa [hx, Option.isSome_iff_ne_none] using hr

/-! ## The stages of a shutdown -/

/-- How a thread comes to a stage of a shutdown. -/
inductive Enters (m : Machine σ) (th : Thread σ) : StopStage → Prop
  | wakeAll {runtime body} : th.control = .run (.shutdown runtime body) → Enters m th .wakeAll
  | joinPool : th.Stops .wakeAll → Enters m th .joinPool
  | close {runtime : RuntimeId} {found : Runtime} : th.Stops .joinPool → m.runtimes[runtime]? = some found →
    m.contended found = false → Enters m th .close

theorem Move.stops (hm : m.Move id th rest th') (hs : th'.Stops stage) : th.Stops stage ∨ m.Enters th stage := by
  rcases hs with ⟨runtime, next, hc⟩ | ⟨runtime, next, hin⟩
  · cases hm with
    | stopped hctl =>
      cases hc
      exact .inr (.wakeAll hctl)
    | drained _ hf =>
      cases hc
      exact .inl (.inr ⟨_, _, hf ▸ List.mem_cons_self⟩)
    | @settled _ _ _ frame _ _ _ _ _ _ hpast | @passed _ frame _ _ _ _ _ hpast =>
      cases hc
      cases frame <;> cases hpast
    | @idle _ _ leaving => cases leaving <;> cases hc
    | crashed => exact .inl (.inl ⟨_, _, hc⟩)
    | _ => cases hc
  · have htail : ∀ {frame : Frame σ} {frames : List (Frame σ)}, th.frames = frame :: frames →
        .drain runtime stage next ∈ frames → th.Stops stage := fun hf hin =>
      .inr ⟨_, _, hf ▸ List.mem_cons_of_mem _ hin⟩
    cases hm with
    | rooted | began | nested => exact .inl (.inr ⟨_, _, (List.mem_cons.1 hin).resolve_left nofun⟩)
    | left _ hf | leftRoot _ hf | resumed _ _ _ hf | drained _ hf => exact .inl (htail hf hin)
    | idle _ hf | ticked _ hf => exact .inl (htail hf ((List.mem_cons.1 hin).resolve_left nofun))
    | found _ hseeks =>
      cases hseeks with
      | loop hf => exact .inl (htail hf ((List.mem_cons.1 hin).resolve_left nofun))
      | drain => exact .inl (.inr ⟨_, _, hin⟩)
    | exited => cases hin
    | rang hctl =>
      rcases List.mem_cons.1 hin with he | hin
      · cases he
        exact .inr (.joinPool (.inl ⟨_, _, hctl⟩))
      · exact .inl (.inr ⟨_, _, hin⟩)
    | joinedPool hctl hrun hquiet =>
      rcases List.mem_cons.1 hin with he | hin
      · cases he
        exact .inr (.close (.inl ⟨_, _, hctl⟩) hrun hquiet)
      · exact .inl (.inr ⟨_, _, hin⟩)
    | _ => exact .inl (.inr ⟨_, _, hin⟩)

theorem Added.not_stops (ha : Added th x) (hs : x.Stops stage) : False := by
  rcases ha with ⟨_, _, _, rfl⟩ | ⟨_, _, _, _, _, _, rfl⟩
  · rcases hs with ⟨_, _, hc⟩ | ⟨_, _, hin⟩
    · cases hc
    · cases hin
  · rcases hs with ⟨_, _, hc⟩ | ⟨_, _, hin⟩
    · cases hc
    · cases List.mem_singleton.1 hin

/-! ## The loops of the pool -/

theorem Move.looped (hm : m.Move id th rest th') (hl : Frame.Looped th.frames) (hw : th'.context.isSome) :
    Frame.Looped th'.frames := by
  have htail : ∀ {frame : Frame σ} {frames : List (Frame σ)}, th.frames = frame :: frames →
      (∀ ticker force leaving, frame ≠ .loop ticker force leaving) → Frame.Looped frames := by
    intro frame frames hf hne
    rw [hf] at hl
    cases hl with
    | loop => exact absurd rfl (hne _ _ _)
    | push hl => exact hl
  cases hm with
  | rooted | began | nested | rang | joinedPool => exact .push hl
  | left _ hf | leftRoot _ hf | resumed _ _ _ hf | drained _ hf => exact htail hf nofun
  | idle _ hf | ticked _ hf =>
    rw [hf] at hl
    exact hl.retick
  | found _ hseeks =>
    cases hseeks with
    | loop hf =>
      rw [hf] at hl
      exact hl.retick
    | drain => exact hl
  | exited => cases hw
  | _ => exact hl

/-- No thread begins to work for the runtime. -/
theorem Hosts.worked (h : m.Hosts k es) (hth : m.threads[id]? = some th) (hm : m.Move id th rest th')
    (hw : th'.context.isSome) : th.context.isSome := by
  have hmarked : ∀ {t}, (th.setTask t).context.isSome → th.context.isSome := fun hw => by
    rwa [Thread.setTask, Option.isSome_map] at hw
  cases hm with
  | launched hctl => exact (h.controlFits hth hctl).2.elim
  | rooted | began | left | leftRoot => exact hmarked hw
  | exited => cases hw
  | closed hctl =>
    exact (h.of_stop hth hctl).2.2
  | _ => exact hw

/-- A worker of the pool that leaves found its lane empty. -/
theorem Hosts.leaves (h : m.Hosts k es) (hone : m.runtimes = [rt]) (hth : m.threads[id]? = some th)
    (hm : m.Move id th rest th') (h1 : 1 ≤ id) (hgone : th'.control = .exit ∨ th'.context = none) :
    (th.control = .exit ∨ th.context = none) ∨ rt.queues.lane id = Queues.bare := by
  rcases hgone with hexit | hnone
  · cases hm with
    | idle hctl hf hc hrun hchoose =>
      obtain ⟨_, rfl⟩ := runtime_eq hone hrun
      rw [((h.fits hth).works _ hc).2.1] at hchoose
      exact .inr (Queues.choose_none hchoose).1
    | @settled _ _ _ frame _ _ _ _ _ _ hpast | @passed _ frame _ _ _ _ _ hpast =>
      cases hexit
      cases frame <;> cases hpast
    | crashed => exact .inl (.inl hexit)
    | _ => cases hexit
  · rcases hm.context_none hnone with hnone | hshut
    · exact .inl (.inr hnone)
    · cases hctl : th.control with
      | exit => exact .inl (.inl rfl)
      | stop _ stage _ =>
        obtain ⟨rfl, _⟩ := h.of_stop hth hctl
        cases h1
      | _ => simp [hctl, Control.shuts] at hshut

/-! ## The order that a run keeps -/

/-- What holds of the queues and the threads of a machine all the time, until its runtime is closed. -/
structure Orderly (k : Nat) (rt : Runtime) (es : TaskId → List Event) (m : Machine σ) : Prop where
  kept : ∀ t, .taken none ∉ es t
  /-- A thread that is no worker was forked by one that still waits for it. -/
  parents : ∀ (id : ThreadId) (th : Thread σ), m.threads[id]? = some th → k < id → th.result? = none →
    ∃ parent < id, ∃ x next, m.threads[parent]? = some x ∧ x.control = .joinThread id next
  looped : ∀ (id : ThreadId) (th : Thread σ), m.threads[id]? = some th → 1 ≤ id → th.context.isSome →
    Frame.Looped th.frames
  retired : ∀ (id : ThreadId) (th : Thread σ), m.threads[id]? = some th → th.Stops .close →
    ∀ w, 1 ≤ w → w < k + 1 → m.Ended w
  /-- A worker of the pool that has left its loop has an empty lane. -/
  lanes : ∀ (w : WorkerId) (th : Thread σ), 1 ≤ w → w < k + 1 → m.threads[w]? = some th →
    th.control = .exit ∨ th.context = none → rt.queues.lane w = Queues.bare
  /-- A task that nobody took is queued, or was just found. -/
  waiting : ∀ t cell, m.cell? t = some cell → cell.body.isSome →
    t ∈ queued rt.queues ∨ ∃ (id : ThreadId) (th : Thread σ), m.threads[id]? = some th ∧ th.control = .hold t
  emptied : ∀ (id : ThreadId) (th : Thread σ) runtime next, m.threads[id]? = some th →
    th.control = .stop runtime .close next → queued rt.queues = []
  stopping : ∀ (id : ThreadId) (th : Thread σ) stage, m.threads[id]? = some th → th.Stops stage → rt.stopping

/-- When the runtime is about to be closed, the thread that does it is the only one left. -/
theorem Orderly.alone (h : m.Hosts k es) (ho : m.Orderly k rt es) (hth : m.threads[id]? = some th)
    {runtime : RuntimeId} {body : Body σ} (hctl : th.control = .stop runtime .close body)
    (hx : m.threads[other]? = some x) (hlive : x.result? = none) : other = id ∧ x = th := by
  obtain ⟨rfl, _⟩ := h.of_stop hth hctl
  suffices other = 0 by
    subst this
    exact ⟨rfl, Option.some.inj (hx.symm.trans hth)⟩
  -- a thread that is no worker has a parent that waits, which would be the closing thread
  induction other using Nat.strongRecOn generalizing x with
  | _ other ih =>
    by_contra hne
    by_cases hworker : other < k + 1
    · obtain ⟨y, hy, hr⟩ := ho.retired 0 th hth (.inl ⟨_, _, hctl⟩) other (Nat.pos_of_ne_zero hne) hworker
      cases hx.symm.trans hy
      rw [hlive] at hr
      cases hr
    · obtain ⟨parent, hlt, y, _, hy, hwaits⟩ := ho.parents other x hx (Nat.lt_of_not_le fun hle =>
        hworker (Nat.lt_succ_of_le hle)) hlive
      obtain rfl := ih parent hlt hy (by simp [Thread.result?, hwaits])
      cases hth.symm.trans hy
      cases hctl.symm.trans hwaits

/-- By then every task has been taken. -/
theorem Orderly.all_taken (h : m.Hosts k es) (ho : m.Orderly k rt es) (hth : m.threads[id]? = some th)
    {runtime : RuntimeId} {body : Body σ} (hctl : th.control = .stop runtime .close body) {cell : Cell (Body σ)}
    (hc : m.cell? t = some cell) : cell.body = none := by
  cases hb : cell.body with
  | none => rfl
  | some _ =>
    rcases ho.waiting t cell hc (by rw [hb]; rfl) with hin | ⟨other, x, hx, hhold⟩
    · rw [ho.emptied id th runtime body hth hctl] at hin
      cases hin
    · obtain ⟨_, rfl⟩ := ho.alone h hth hctl hx (by simp [Thread.result?, hhold])
      cases hctl.symm.trans hhold

/-- A thread of the pool that is over has left its loop. -/
theorem Orderly.context_of_ended (h : m.Hosts k es) (ho : m.Orderly k rt es) (h1 : 1 ≤ id)
    (hth : m.threads[id]? = some th) (hr : th.result?.isSome) : th.context = none := by
  cases hc : th.context with
  | none => rfl
  | some c =>
    have hloop := ho.looped id th hth h1 (by rw [hc]; rfl)
    cases hctl : th.control with
    | ended result =>
      rw [h.controlFits hth hctl] at hloop
      cases hloop
    | _ => simp [Thread.result?, hctl] at hr

theorem Orderly.lane_of_ended (h : m.Hosts k es) (ho : m.Orderly k rt es) (h1 : 1 ≤ w) (hlt : w < k + 1)
    (he : m.Ended w) : rt.queues.lane w = Queues.bare := by
  obtain ⟨x, hx, hr⟩ := he
  exact ho.lanes w x h1 hlt hx (.inr (ho.context_of_ended h h1 hx hr))

/-! ## A move keeps the order -/

/-- Only a runtime that is closed drops queue entries. -/
theorem dropped_of_events {c c' : Option (Cell (Body σ))} (h : .taken none ∈ th.events id t c c') :
    (∃ runtime next, th.control = .stop runtime .close next) ∧ Cell.waiting c := by
  unfold Thread.events at h
  split at h
  case h_9 runtime next hctl =>
    split at h
    · rename_i hw
      exact ⟨⟨_, _, hctl⟩, hw.1⟩
    · cases h
  case h_10 => cases h
  case h_5 | h_6 =>
    obtain ⟨_, _, he⟩ := List.mem_map.1 h
    cases he
  all_goals
    split at h
    · cases List.mem_singleton.1 h
    · cases h

/-- Only a spawn brings a task about. -/
theorem spawned_of_events {c c' : Option (Cell (Body σ))} (h : .spawned ∈ th.events id t c c') :
    ∃ target options child next, th.control = .run (.spawn target options child next) := by
  unfold Thread.events at h
  split at h
  case h_1 hctl => exact ⟨_, _, _, _, hctl⟩
  case h_9 =>
    split at h
    · simp at h
    · cases h
  case h_10 => cases h
  case h_5 | h_6 =>
    obtain ⟨_, _, he⟩ := List.mem_map.1 h
    cases he
  all_goals
    split at h
    · cases List.mem_singleton.1 h
    · cases h

theorem Orderly.not_dropped (h : m.Hosts k es) (ho : m.Orderly k rt es) (hth : m.threads[id]? = some th)
    (c : Option (Cell (Body σ))) : .taken none ∉ th.events id t (m.cell? t) c := by
  intro hin
  obtain ⟨⟨_, _, hctl⟩, hwaiting⟩ := dropped_of_events hin
  cases hc : m.cell? t with
  | none => simp [Cell.waiting, hc] at hwaiting
  | some cell => simp [Cell.waiting, hc, ho.all_taken h hth hctl hc] at hwaiting

/-- A thread that waits for another one moves when that one is over. -/
theorem Move.ended_of_join (hm : m.Move id th rest th') (hcrash : rest.crash = none)
    {answer : Except Payload Value → Body σ} (hctl : th.control = .joinThread other answer) : m.Ended other := by
  cases hm with
  | joinedThread hjoin hx hr =>
    cases hctl.symm.trans hjoin
    exact ⟨_, hx, Option.isSome_iff_exists.2 ⟨_, hr⟩⟩
  | delivered ha => rcases ha with ha | ha <;> cases hctl.symm.trans ha
  | crashed => cases hcrash
  | _ => cases hctl.symm.trans (by assumption)

theorem Orderly.parents_move (h : m.Hosts k es) (ho : m.Orderly k rt es) (hth : m.threads[id]? = some th)
    (hm : m.Move id th rest th') (hcrash : rest.crash = none)
    (hx : (rest.setThread id th').threads[other]? = some x) (hlt : k < other) (hlive : x.result? = none) :
    ∃ parent < other, ∃ y next, (rest.setThread id th').threads[parent]? = some y ∧
      y.control = .joinThread other next := by
  rcases hm.thread_cases hth hx with ⟨rfl, rfl⟩ | ⟨_, hsame⟩ | ⟨_, hnone, ha⟩
  · obtain ⟨parent, hlt, y, next, hy, hwaits⟩ := ho.parents other th hth hlt hm.live
    exact ⟨parent, hlt, y, next, (hm.kept hy (Nat.ne_of_lt hlt)), hwaits⟩
  · obtain ⟨parent, hlt, y, next, hy, hwaits⟩ := ho.parents other x hsame hlt hlive
    refine ⟨parent, hlt, y, next, hm.kept hy fun he => ?_, hwaits⟩
    subst he
    cases hth.symm.trans hy
    obtain ⟨z, hz, hr⟩ := hm.ended_of_join hcrash hwaits
    cases hsame.symm.trans hz
    rw [hlive] at hr
    cases hr
  · rcases ha with ⟨body, next, hctl, rfl⟩ | ⟨_, _, _, _, _, hctl, rfl⟩
    · have hself := hm.self hth
      cases hm with
      | forked hfork =>
        obtain rfl : other = m.threads.length := by
          have hbound := (List.getElem?_eq_some_iff.1 hx).1
          simp only [setThread, List.length_set, List.length_append, List.length_singleton] at hbound
          exact Nat.le_antisymm (Nat.le_of_lt_succ hbound) (List.getElem?_eq_none_iff.1 hnone)
        exact ⟨id, (List.getElem?_eq_some_iff.1 hth).1, _, _, hself, rfl⟩
      | delivered hawaits => rcases hawaits with hawaits | hawaits <;> cases hctl.symm.trans hawaits
      | @ended result hrun | @returned result hrun => cases result <;> cases hctl.symm.trans hrun
      | answered hrun hanswered =>
        cases hctl.symm.trans hrun
        cases hanswered
      | crashed => cases hcrash
      | _ => cases hctl.symm.trans (by assumption)
    · exact (h.controlFits hth hctl).2.elim

/-- A task that waits to be taken did so before, or was just spawned. -/
theorem Hosts.was_waiting (h : m.Hosts k es) (hth : m.threads[id]? = some th)
    (h' : (rest.setThread id th').Hosts k (Scene.next es id th m rest)) {cell : Cell (Body σ)}
    (hc : rest.cell? t = some cell) (hb : cell.body.isSome) :
    (∃ old, m.cell? t = some old ∧ old.body.isSome) ∨ m.cell? t = none := by
  cases hold : m.cell? t with
  | none => exact .inr rfl
  | some old =>
    obtain ⟨_, hc', _, _, hgone⟩ := h.moved hth h' hold
    cases hc.symm.trans hc'
    refine .inl ⟨old, rfl, Option.isSome_iff_ne_none.2 fun hnone => ?_⟩
    rw [hgone hnone] at hb
    cases hb

/-- A thread that has found a task knows afterwards that it is taken. -/
theorem Hosts.taken_of_hold (h : m.Hosts k es) (hm : m.Move id th rest th') (hcrash : rest.crash = none)
    (hctl : th.control = .hold t) {cell : Cell (Body σ)} (hc : rest.cell? t = some cell) : cell.body = none := by
  cases hm with
  | @took _ _ _ _ found _ hhold _ _ _ hold =>
    cases hctl.symm.trans hhold
    cases (cell?_setCell_self hold { found with body := none } (h.accounted.fresh _ _ hold).1).symm.trans hc
    rfl
  | passed hhold _ _ hold hb =>
    cases hctl.symm.trans hhold
    cases hold.symm.trans hc
    exact hb
  | delivered ha => rcases ha with ha | ha <;> cases hctl.symm.trans ha
  | crashed => cases hcrash
  | _ => cases hctl.symm.trans (by assumption)

/-- A task is new only after a spawn. -/
theorem Hosts.spawns_of_new (h : m.Hosts k es) (h' : (rest.setThread id th').Hosts k (Scene.next es id th m rest))
    {cell : Cell (Body σ)} (hnone : m.cell? t = none) (hc : rest.cell? t = some cell) :
    ∃ target options child next, th.control = .run (.spawn target options child next) := by
  obtain ⟨hand, hl, _⟩ := h.accounted.life t
  obtain ⟨hand', hl', _⟩ := h'.accounted.life t
  have hempty : es t = [] := (show Life t (none : Option (Cell (Body σ))) _ hand from hnone ▸ hl).unseen
  have hspawned := (show Life t (some cell) _ hand' from hc ▸ hl').spawned_mem
  rw [Scene.next, hempty, List.nil_append] at hspawned
  exact spawned_of_events hspawned

/-- It is queued then. -/
theorem Hosts.queued_of_new (h : m.Hosts k es) (hth : m.threads[id]? = some th) (hm : m.Move id th rest th')
    (h' : (rest.setThread id th').Hosts k (Scene.next es id th m rest)) (hone : m.runtimes = [rt])
    (hone' : rest.runtimes = [rt']) {cell : Cell (Body σ)} (hnone : m.cell? t = none)
    (hc : rest.cell? t = some cell) : t ∈ queued rt'.queues := by
  have hrt := h.staff hone
  obtain ⟨target, options, child, next, hctl⟩ := h.spawns_of_new h' hnone hc
  cases hm with
  | spawned _ _ hrun =>
    obtain ⟨rfl, rfl, he⟩ := enroll_eq hone hrun
    cases List.singleton_inj.1 (hone'.symm.trans he)
    rw [Scene.cell?_enroll] at hc
    split at hc
    · rename_i ht
      rw [ht]
      exact (h.enqueue hth hrt _ _).queued
    · cases hnone.symm.trans hc
  | answered => cases hnone.symm.trans hc
  | @ended result hrun | @returned result hrun => cases result <;> cases hctl.symm.trans hrun
  | delivered ha => rcases ha with ha | ha <;> cases hctl.symm.trans ha
  | crashed => cases h'.crash
  | _ => cases hctl.symm.trans (by assumption)

theorem Orderly.waiting_move (h : m.Hosts k es) (ho : m.Orderly k rt es) (hth : m.threads[id]? = some th)
    (hm : m.Move id th rest th') (h' : (rest.setThread id th').Hosts k (Scene.next es id th m rest))
    (hone : m.runtimes = [rt]) (hone' : rest.runtimes = [rt']) {cell : Cell (Body σ)}
    (hc : rest.cell? t = some cell) (hb : cell.body.isSome) : t ∈ queued rt'.queues ∨
      ∃ (other : ThreadId) (x : Thread σ), (rest.setThread id th').threads[other]? = some x ∧ x.control = .hold t := by
  rcases h.was_waiting hth h' hc hb with ⟨old, hold, hbody⟩ | hnone
  · rcases ho.waiting t old hold hbody with hin | ⟨other, x, hx, hhold⟩
    · have hrequeues := (h.requeues hth hm h'.crash hone hone').1
      generalize rt'.queues = left at hrequeues ⊢
      cases hrequeues with
      | same => exact .inl hin
      | spawned _ hgrows => exact .inl (hgrows.kept t hin)
      | found hctl _ hyields =>
        rcases hyields.kept t hin with rfl | hin
        · exact .inr ⟨id, th', hm.self hth, hctl⟩
        · exact .inl hin
      | closed hctl =>
        rw [ho.all_taken h hth hctl hold] at hbody
        cases hbody
    · by_cases hne : other = id
      · subst hne
        cases hth.symm.trans hx
        rw [h.taken_of_hold hm h'.crash hhold hc] at hb
        cases hb
      · exact .inr ⟨other, x, hm.kept hx hne, hhold⟩
  · exact .inl (h.queued_of_new hth hm h' hone hone' hnone hc)

/-- The thread that shuts down comes to close the runtime when it finds nothing more. -/
theorem Orderly.emptied_move (h : m.Hosts k es) (ho : m.Orderly k rt es) (hth : m.threads[id]? = some th)
    (hm : m.Move id th rest th') (hone : m.runtimes = [rt]) (hone' : rest.runtimes = [rt']) {runtime : RuntimeId}
    {body : Body σ} (hx : (rest.setThread id th').threads[other]? = some x)
    (hcrash : rest.crash = none) (hctl : x.control = .stop runtime .close body) : queued rt'.queues = [] := by
  have hrt := h.staff hone
  rcases hm.thread_cases hth hx with ⟨rfl, rfl⟩ | ⟨hne, hx⟩ | ⟨_, _, ha⟩
  · cases hm with
    | drained hsearch hf hrun hchoose =>
      cases hctl
      cases List.singleton_inj.1 (hone.symm.trans hone')
      obtain ⟨_, rfl⟩ := runtime_eq hone hrun
      have hended := ho.retired other th hth (.inr ⟨_, _, hf ▸ List.mem_cons_self⟩)
      obtain ⟨hroot, hothers⟩ := Queues.choose_none hchoose
      refine Queues.queued_eq_nil.2 ⟨(hothers (quiet_of_ended hrt hended)).1, fun w => ?_⟩
      rcases Nat.eq_zero_or_pos w with rfl | h1
      · exact hroot
      · rcases Nat.lt_or_ge w (k + 1) with hlt | hge
        · exact ho.lane_of_ended h h1 hlt (hended w h1 hlt)
        · exact Queues.lane_of_ge (hrt.lanes ▸ hge)
    | @settled _ _ _ frame _ _ _ _ _ _ hpast | @passed _ frame _ _ _ _ _ hpast =>
      cases hctl
      cases frame <;> cases hpast
    | @idle _ _ leaving => cases leaving <;> cases hctl
    | crashed => cases hcrash
    | _ => cases hctl
  · exact absurd (ho.alone h hx hctl hth hm.live).1.symm hne
  · exact (ha.not_stops (.inl ⟨_, _, hctl⟩)).elim

theorem Orderly.move (h : m.Hosts k es) (ho : m.Orderly k rt es) (hth : m.threads[id]? = some th)
    (hm : m.Move id th rest th') (h' : (rest.setThread id th').Hosts k (Scene.next es id th m rest))
    (hone : m.runtimes = [rt]) (hone' : rest.runtimes = [rt']) :
    (rest.setThread id th').Orderly k rt' (Scene.next es id th m rest) := by
  have hrt := h.staff hone
  have hcrash : rest.crash = none := h'.crash
  have hrequeues := (h.requeues hth hm hcrash hone hone').1
  have hstopping := h.still_stopping hth hm hcrash hone hone'
  refine ⟨fun t hin => ?_, fun other x => ho.parents_move h hth hm hcrash, fun other x hx h1 hw => ?_,
    fun other x hx hs w h1 hlt => ?_, fun w x h1 hlt hx hgone => ?_, fun t cell => ho.waiting_move h hth hm h' hone hone',
    fun other x runtime next hx => ho.emptied_move h hth hm hone hone' hx hcrash, fun other x stage hx hs => ?_⟩
  · rcases List.mem_append.1 hin with hin | hin
    · exact ho.kept t hin
    · exact ho.not_dropped h hth _ hin
  · rcases hm.thread_cases hth hx with ⟨rfl, rfl⟩ | ⟨_, hx⟩ | ⟨_, _, ha⟩
    · exact hm.looped (ho.looped other th hth h1 (h.worked hth hm hw)) hw
    · exact ho.looped other x hx h1 hw
    · rcases ha with ⟨_, _, _, rfl⟩ | ⟨_, _, _, _, _, hctl, _⟩
      · cases hw
      · exact (h.controlFits hth hctl).2.elim
  · rcases hm.thread_cases hth hx with ⟨rfl, rfl⟩ | ⟨_, hx⟩ | ⟨_, _, ha⟩
    · rcases hm.stops hs with hs | hs
      · exact (ho.retired other th hth hs w h1 hlt).move hth hm
      · cases hs with
        | close _ hrun hquiet =>
          obtain ⟨_, rfl⟩ := runtime_eq hone hrun
          exact (ended_of_quiet hrt hquiet h1 hlt).move hth hm
    · exact (ho.retired other x hx hs w h1 hlt).move hth hm
    · exact (ha.not_stops hs).elim
  · rcases hm.thread_cases hth hx with ⟨rfl, rfl⟩ | ⟨hne, hx⟩ | ⟨_, hnone, _⟩
    · refine hrequeues.lane ?_ fun _ => hgone
      rcases h.leaves hone hth hm h1 hgone with hgone | hbare
      · exact ho.lanes w th h1 hlt hth hgone
      · exact hbare
    · exact hrequeues.lane (ho.lanes w x h1 hlt hx hgone) fun he => absurd he hne
    · obtain ⟨space, hist, hsound⟩ := h.sound
      exact absurd (List.getElem?_eq_none_iff.1 hnone) (Nat.not_le_of_lt (Nat.lt_of_lt_of_le hlt hsound.present))
  · rcases hm.thread_cases hth hx with ⟨rfl, rfl⟩ | ⟨_, hx⟩ | ⟨_, _, ha⟩
    · rcases hm.stops hs with hs | hs
      · exact hstopping (ho.stopping other th stage hth hs)
      · cases hs with
        | wakeAll hctl => exact hm.stopping hcrash hone hone' hctl
        | joinPool hbefore => exact hstopping (ho.stopping other th _ hth hbefore)
        | close hbefore => exact hstopping (ho.stopping other th _ hth hbefore)
    · exact hstopping (ho.stopping other x stage hx hs)
    · exact (ha.not_stops hs).elim

theorem Launched.not_stops {next : Except BuildError RuntimeId → Body σ} (hl : Launched k next m)
    (hth : m.threads[id]? = some th) (hs : th.Stops stage) : False := by
  rcases hl.thread hth with ⟨_, rfl⟩ | ⟨_, rfl⟩
  · rcases hs with ⟨_, _, hc⟩ | ⟨_, _, hin⟩
    · cases hc
    · cases hin
  · rcases hs with ⟨_, _, hc⟩ | ⟨_, _, hin⟩
    · cases hc
    · cases List.mem_singleton.1 hin

theorem orderly_launched {next : Except BuildError RuntimeId → Body σ} (hl : Launched k next m)
    (hqueues : rt.queues = .empty (k + 1)) : m.Orderly k rt fun _ => [] where
  kept _ := List.not_mem_nil
  parents id th hth hlt := by
    have hbound := (List.getElem?_eq_some_iff.1 hth).1
    rw [hl.threads, List.length_cons, workers, List.length_map, List.length_range] at hbound
    exact absurd hlt (Nat.not_lt_of_le (Nat.le_of_lt_succ hbound))
  looped id th hth h1 := by
    rcases hl.thread hth with ⟨rfl, _⟩ | ⟨_, rfl⟩
    · cases h1
    · exact fun _ => .loop
  retired id th hth hs := (hl.not_stops hth hs).elim
  lanes w _ _ _ _ _ := hqueues ▸ Queues.lane_empty _
  waiting t cell hc := by
    cases (hl.cell t).symm.trans hc
  emptied id th runtime body hth hctl := (hl.not_stops hth (.inl ⟨_, _, hctl⟩)).elim
  stopping id th stage hth hs := (hl.not_stops hth hs).elim

end Machine

end TaskSpace

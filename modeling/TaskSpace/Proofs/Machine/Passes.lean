import Mathlib.Data.List.Chain
import TaskSpace.Proofs.Machine.Staff
import TaskSpace.Proofs.Scheduler.Ticks

/-!
# The passes of an event loop

A worker of a pool goes round: it looks for a task, runs it or parks, and ticks. What a tick calls for is kept in
a flag that the next search reads and clears, so what a pass does first was settled at the end of the one before.
Runs are taken with any bodies, runtimes and threads; what other threads and the tasks themselves do between two
searches of a worker neither touches its ticker nor its flag.
-/

namespace TaskSpace

open Machine (choose)

variable {σ : Type}

/-- What an event loop knows of its ticks. -/
structure Clock where
  ticker : Ticker
  /-- The next search looks at the injector first. -/
  force : Bool
  /-- A tick found the runtime shutting down. -/
  leaving : Bool
deriving DecidableEq, Repr

namespace Clock

/-- A search uses up what the last tick called for. -/
def searched (c : Clock) : Clock := { c with force := false }

def ticked (c : Clock) (interval : Nat) (stopping : Bool) : Clock where
  ticker := (c.ticker.next (.ofNat interval) stopping).2
  force := (c.ticker.next (.ofNat interval) stopping).1 = .popInjector || c.force
  leaving := stopping || c.leaving

/-- The frame of a loop that knows this. -/
def frame (c : Clock) : Frame σ := .loop c.ticker c.force c.leaving

theorem frame_ticked (c : Clock) (interval : Nat) (stopping : Bool) :
    (match (c.ticker.next (.ofNat interval) stopping).1 with
      | .shutdown => .loop (c.ticker.next (.ofNat interval) stopping).2 c.force true
      | .popInjector => .loop (c.ticker.next (.ofNat interval) stopping).2 true c.leaving
      | .none => .loop (c.ticker.next (.ofNat interval) stopping).2 c.force c.leaving : Frame σ) =
        (c.ticked interval stopping).frame := by
  simp only [ticked, frame, Ticker.next]
  cases stopping with
  | true => simp [Ticker.event]
  | false =>
    split
    · rename_i he
      cases Ticker.event_eq_shutdown.1 he
    all_goals simp [*]

end Clock

def Frame.clock? : Frame σ → Option Clock
  | .loop ticker force leaving => some ⟨ticker, force, leaving⟩
  | .task _ _ _ | .root _ _ _ | .joiner _ _ _ | .drain _ _ _ => none

namespace Thread

/-- The clock of the innermost event loop of a thread. -/
def clock? (th : Thread σ) : Option Clock := th.frames.findSome? Frame.clock?

/-- The next step of the thread is a search of its event loop. -/
def AtPass (th : Thread σ) (clock : Clock) : Prop :=
  th.control = .search ∧ ∃ frames, th.frames = clock.frame :: frames

theorem AtPass.clock? {th : Thread σ} {clock : Clock} (h : th.AtPass clock) : th.clock? = some clock := by
  obtain ⟨_, frames, hframes⟩ := h
  rw [Thread.clock?, hframes]
  rfl

/-- The entry that a thread has found. -/
def held? (th : Thread σ) : Option TaskId :=
  match th.control with
  | .hold t => some t
  | _ => none

end Thread

/-- A pass of an event loop: what there is as its search begins, and what the search takes. -/
structure Pass where
  clock : Clock
  worker : WorkerId
  interval : Nat
  queues : Queues
  choice : Choice
  found : Option TaskId
  left : Queues
deriving DecidableEq, Repr

/-- The search takes the task that was injected first. -/
def Pass.TakesOldest (p : Pass) : Prop :=
  ∃ task rest, p.queues.injector = task :: rest ∧ p.found = some task ∧
    p.queues.takeInjected p.worker p.choice.batch = some (task, p.left)

/-- Pass `q` follows on pass `p`, with one tick between them. -/
def Pass.Precedes (p q : Pass) : Prop :=
  ∃ stopping, q.clock = p.clock.searched.ticked q.interval stopping

theorem Queues.injector_of_takeInjected {q q' : Queues} {w : WorkerId} {batch : Nat} {task : TaskId}
    (h : q.takeInjected w batch = some (task, q')) : ∃ rest, q.injector = task :: rest := by
  unfold takeInjected at h
  split at h
  · cases h
  · rename_i rest hi
    cases h
    exact ⟨rest, hi⟩

namespace Machine

variable {m m' rest : Machine σ} {id : ThreadId} {th th' : Thread σ} {choice : Choice} {clock : Clock}

/-- The pass that a turn of a thread is, if it is a search of the thread's event loop. -/
def pass? (id : ThreadId) (turn : Turn (Machine σ) (ThreadId × Choice)) : Option Pass :=
  if turn.act.1 = id then do
    let th ← turn.before.threads[id]?
    match th.control, th.frames, th.context with
    | .search, .loop ticker force leaving :: _, some c => do
      let rt ← turn.before.runtimes[c.runtime]?
      return {
        clock := ⟨ticker, force, leaving⟩, worker := c.worker, interval := rt.config.interval
        queues := rt.queues, choice := turn.act.2
        found := (← turn.after.threads[id]?).held?
        left := (← turn.after.runtimes[c.runtime]?).queues }
    | _, _, _ => none
  else none

/-- The passes of the event loop of a thread, in order. -/
def passes (id : ThreadId) (turns : Turns σ) : List Pass := turns.filterMap (pass? id)

/-! ## One step -/

theorem stepThread_of_step (hs : m.step id choice = some m') (hth : m.threads[id]? = some th) :
    m.crash = none ∧ m.stepThread id th choice = some m' := by
  unfold Machine.step at hs
  split at hs
  · cases hs
  · rename_i hcrash
    rw [hth] at hs
    exact ⟨Option.not_isSome_iff_eq_none.1 hcrash, hs⟩

/-- A forced look that nobody disturbs takes the oldest injected task. -/
theorem choose_forced {q : Queues} {w : WorkerId} {contended : Bool} (hinjected : q.injector ≠ [])
    (hquiet : choice.missForced = false) :
    choose q w true contended choice = some (q.takeInjected w choice.batch) := by
  rw [choose, if_pos ⟨rfl, hinjected, by rw [hquiet]; rfl⟩]

theorem pass?_eq {frames : List (Frame σ)} {c : Context} {rt rt' : Runtime} (hth : m.threads[id]? = some th)
    (hctl : th.control = .search) (hframes : th.frames = clock.frame :: frames)
    (hc : th.context = some c) (hrt : m.runtimes[c.runtime]? = some rt) (hth' : m'.threads[id]? = some th')
    (hrt' : m'.runtimes[c.runtime]? = some rt') :
    pass? id ⟨m, (id, choice), m'⟩ = some {
      clock, worker := c.worker, interval := rt.config.interval, queues := rt.queues, choice
      found := th'.held?, left := rt'.queues } := by
  simp [pass?, hth, hctl, hframes, Clock.frame, hc, hrt, hth', hrt']

/-- A search of an event loop is a pass, and uses up what the tick before called for. A forced look that nobody
disturbs takes the oldest task of the injector, if there is one. -/
theorem pass_of_step (hs : m.step id choice = some m') (hth : m.threads[id]? = some th) (hat : th.AtPass clock) :
    ∃ p c rt th', pass? id ⟨m, (id, choice), m'⟩ = some p ∧ p.clock = clock ∧ th.context = some c ∧
      m.runtimes[c.runtime]? = some rt ∧ p.interval = rt.config.interval ∧
      m'.threads[id]? = some th' ∧ th'.clock? = some clock.searched ∧ (∀ clock, ¬th'.AtPass clock) ∧
      (clock.force = true → p.queues.injector ≠ [] → p.choice.missForced = false → p.TakesOldest) := by
  obtain ⟨_, hs⟩ := stepThread_of_step hs hth
  obtain ⟨hctl, frames, hframes⟩ := hat
  have hlt := (List.getElem?_eq_some_iff.1 hth).1
  cases hc : th.context with
  | none => simp [stepThread, hctl, stepSearch, hframes, Clock.frame, hc] at hs
  | some c =>
    simp only [stepThread, hctl, stepSearch, hframes, Clock.frame, hc, search] at hs
    obtain ⟨rt, hrt, hs⟩ := Option.bind_eq_some_iff.1 hs
    obtain ⟨found, hchoose, hs⟩ := Option.bind_eq_some_iff.1 hs
    cases found with
    | none =>
      cases hs
      refine ⟨_, c, rt, _, pass?_eq hth hctl hframes hc hrt (List.getElem?_set_self hlt) hrt, rfl, rfl, hrt, rfl,
        List.getElem?_set_self hlt, rfl, ?_, fun hforce hinjected hquiet => ?_⟩
      · rintro _ ⟨hsearch, -⟩
        dsimp only at hsearch
        split at hsearch <;> cases hsearch
      · rw [hforce, choose_forced hinjected hquiet] at hchoose
        obtain ⟨task, rest, hi⟩ := List.exists_cons_of_ne_nil hinjected
        rw [Queues.takeInjected, hi] at hchoose
        cases hchoose
    | some found =>
      obtain ⟨task, queues⟩ := found
      cases hs
      have hrt' : (m.runtimes.modify c.runtime fun rt => { rt with queues })[c.runtime]? =
          some { rt with queues } := by rw [List.getElem?_modify_eq, hrt]; rfl
      refine ⟨_, c, rt, _, pass?_eq hth hctl hframes hc hrt (List.getElem?_set_self hlt) hrt', rfl, rfl, hrt, rfl,
        List.getElem?_set_self hlt, rfl, ?_, fun hforce hinjected hquiet => ?_⟩
      · rintro _ ⟨hsearch, -⟩
        cases hsearch
      · rw [hforce, choose_forced hinjected hquiet] at hchoose
        have htake : rt.queues.takeInjected c.worker choice.batch = some (task, queues) := Option.some.inj hchoose
        obtain ⟨rest, hi⟩ := Queues.injector_of_takeInjected htake
        exact ⟨task, rest, hi, rfl, htake⟩

/-- A tick of an event loop, and the clock that its next search begins with. -/
theorem tick_of_step (hs : m.step id choice = some m') (hth : m.threads[id]? = some th) (hctl : th.control = .tick) :
    ∃ clock c rt th', th.clock? = some clock ∧ th.context = some c ∧ m.runtimes[c.runtime]? = some rt ∧
      m' = m.setThread id th' ∧ th'.context = some c ∧ th'.AtPass (clock.ticked rt.config.interval rt.stopping) := by
  obtain ⟨_, hs⟩ := stepThread_of_step hs hth
  simp only [stepThread, hctl, stepTick] at hs
  split at hs
  · rename_i ticker force leaving frames c hframes hc
    obtain ⟨rt, hrt, hs⟩ := Option.bind_eq_some_iff.1 hs
    refine ⟨⟨ticker, force, leaving⟩, c, rt, _, by rw [Thread.clock?, hframes]; rfl, hc, hrt,
      (Option.some.inj hs).symm, hc, rfl, frames, ?_⟩
    exact congrArg (· :: frames) (Clock.frame_ticked ⟨ticker, force, leaving⟩ _ _)
  · cases hs

theorem not_atPass_of_past {frame : Frame σ} {frames : List (Frame σ)} {past : Control σ}
    (hframes : th.frames = frame :: frames) (hpast : frame.past? = some past) (hctl : th.control = past) :
    ∀ clock, ¬th.AtPass clock := by
  rintro clock ⟨hsearch, frames', hloop⟩
  obtain ⟨rfl, _⟩ := List.cons.inj (hframes.symm.trans hloop)
  cases hpast
  cases hctl.symm.trans hsearch

/-- The other steps of a thread leave the clock of its event loop as it is, or end the loop. -/
theorem Move.clock? (hm : m.Move id th rest th') (hctl : th.control ≠ .tick) (hat : ∀ clock, ¬th.AtPass clock) :
    (th'.clock? = th.clock? ∨ th'.clock? = none) ∧ ∀ clock, ¬th'.AtPass clock := by
  have hpopped : ∀ {frame : Frame σ} {frames}, th.frames = frame :: frames → frame.clock? = none →
      frames.findSome? Frame.clock? = th.clock? := fun hframes hnone => by
    rw [Thread.clock?, hframes, List.findSome?_cons, hnone]
  have hloop : ∀ {ticker force leaving frames}, th.control = .search →
      th.frames ≠ .loop ticker force leaving :: frames := fun hctl hframes =>
    hat ⟨_, _, _⟩ ⟨hctl, _, hframes⟩
  cases hm with
  | left _ hframes | leftRoot _ hframes | resumed _ _ _ hframes =>
    exact ⟨.inl (hpopped hframes rfl), fun _ ⟨hs, _⟩ => by cases hs⟩
  | drained _ hframes => exact ⟨.inl (hpopped hframes rfl), fun _ ⟨hs, _⟩ => by cases hs⟩
  | settled _ _ _ hframes hpast | passed _ hframes hpast =>
    exact ⟨.inl rfl, not_atPass_of_past hframes hpast rfl⟩
  | found hctl hseeks =>
    cases hseeks with
    | loop hframes => exact absurd hframes (hloop hctl)
    | drain => exact ⟨.inl rfl, fun _ ⟨hs, _⟩ => by cases hs⟩
  | idle hctl hframes => exact absurd hframes (hloop hctl)
  | ticked htick => exact absurd htick hctl
  | exited => exact ⟨.inr rfl, fun _ ⟨hs, _⟩ => by cases hs⟩
  | rang | joinedPool => exact ⟨.inl rfl, fun _ ⟨_, _, hframes⟩ => by cases (List.cons.inj hframes).1⟩
  | crashed => exact ⟨.inl rfl, hat⟩
  | _ => exact ⟨.inl rfl, fun _ ⟨hs, _⟩ => by cases hs⟩

/-! ## From one pass to the next -/

/-- Where a thread stands after a pass of its event loop: it has yet to tick, or its loop is over, or the tick has
settled what the next search begins with. -/
inductive Past (m : Machine σ) (id : ThreadId) (p : Pass) : Prop
  | before {th : Thread σ} : m.threads[id]? = some th → th.clock? = some p.clock.searched ∨ th.clock? = none →
    (∀ clock, ¬th.AtPass clock) → Past m id p
  | after {th : Thread σ} {c rt stopping} : m.threads[id]? = some th → th.context = some c →
    m.runtimes[c.runtime]? = some rt → th.AtPass (p.clock.searched.ticked rt.config.interval stopping) →
    Past m id p

variable {p q : Pass} {turn : Turn (Machine σ) (ThreadId × Choice)}

theorem atPass_of_pass? (h : pass? id turn = some q) :
    turn.act.1 = id ∧ ∃ th, turn.before.threads[id]? = some th ∧ th.AtPass q.clock := by
  unfold pass? at h
  split at h
  · rename_i hid
    obtain ⟨th, hth, h⟩ := Option.bind_eq_some_iff.1 h
    split at h
    · rename_i hctl hframes _
      obtain ⟨_, _, h⟩ := Option.bind_eq_some_iff.1 h
      obtain ⟨_, _, h⟩ := Option.bind_eq_some_iff.1 h
      obtain ⟨_, _, h⟩ := Option.bind_eq_some_iff.1 h
      cases h
      exact ⟨hid, th, hth, hctl, _, hframes⟩
    · cases h
  · cases h

/-- What a pass leaves behind, and what it takes if the tick before called for the injector. -/
theorem past_of_pass {act : ThreadId × Choice} (hs : advance m act = some m')
    (hq : pass? id ⟨m, act, m'⟩ = some q) : m'.Past id q ∧
      (q.clock.force = true → q.queues.injector ≠ [] → q.choice.missForced = false → q.TakesOldest) := by
  obtain ⟨rfl, th, hth, hat⟩ := atPass_of_pass? hq
  obtain ⟨q', c, rt, th', hq', _, _, _, _, hth', hclock, hnot, htakes⟩ := pass_of_step hs hth hat
  obtain rfl : q' = q := Option.some.inj (hq'.symm.trans hq)
  exact ⟨.before hth' (.inl hclock) hnot, htakes⟩

theorem Past.precedes (h : m.Past id p) {act : ThreadId × Choice} (hs : advance m act = some m')
    (hq : pass? id ⟨m, act, m'⟩ = some q) : p.Precedes q := by
  obtain ⟨rfl, th, hth, hat⟩ := atPass_of_pass? hq
  obtain ⟨q', c, rt, _, hq', _, hc, hrt, hinterval, _⟩ := pass_of_step hs hth hat
  obtain rfl : q' = q := Option.some.inj (hq'.symm.trans hq)
  cases h with
  | before hth' _ hnot =>
    cases hth.symm.trans hth'
    exact absurd hat (hnot _)
  | @after _ _ _ stopping hth' hc' hrt' hat' =>
    cases hth.symm.trans hth'
    cases hc.symm.trans hc'
    cases hrt.symm.trans hrt'
    exact ⟨stopping, hinterval ▸ Option.some.inj (hat.clock?.symm.trans hat'.clock?)⟩

/-- Between two passes the loop stays where it is, whatever the threads do, but for the tick. -/
theorem Past.step (h : m.Past id p) {act : ThreadId × Choice} (hs : advance m act = some m')
    (hcrash : m'.crash = none) (hnone : pass? id ⟨m, act, m'⟩ = none) : m'.Past id p := by
  obtain ⟨other, choice⟩ := act
  obtain ⟨th, rest, th', hth, _, hm, rfl⟩ := exists_move hs
  have hretains := hm.retains hcrash hth
  cases h with
  | @before x hx hclock hnot =>
    by_cases hne : id = other
    · subst hne
      cases hth.symm.trans hx
      by_cases hctl : th.control = .tick
      · obtain ⟨clock, c, rt, ticked, hsome, hc, hrt, he, hc', hat⟩ := tick_of_step hs hth hctl
        rw [hsome] at hclock
        obtain rfl : clock = p.clock.searched := by simpa using hclock
        have hself : (m.setThread id ticked).threads[id]? = some ticked :=
          List.getElem?_set_self (List.getElem?_eq_some_iff.1 hth).1
        exact he ▸ .after hself hc' hrt hat
      · obtain ⟨hkept, hnot⟩ := hm.clock? hctl hnot
        refine .before (hm.self hth) ?_ hnot
        rcases hkept with hkept | hkept
        · exact hkept ▸ hclock
        · exact .inr hkept
    · exact .before (hm.kept hx hne) hclock hnot
  | @after x c rt stopping hx hc hrt hat =>
    have hne : id ≠ other := by
      rintro rfl
      cases hth.symm.trans hx
      obtain ⟨q, _, _, _, hq, _⟩ := pass_of_step hs hth hat
      cases hnone.symm.trans hq
    obtain ⟨rt', hrt', hr⟩ := hretains.runtimes _ rt hrt
    exact .after (hm.kept hx hne) hc hrt' (hr.config ▸ hat)

/-! ## Runs -/

/-- The passes of a loop follow on each other, and those to which the tick before called for the injector take its
oldest task unless they are disturbed. -/
structure Paced (passes : List Pass) : Prop where
  chain : passes.IsChain Pass.Precedes
  forced : ∀ p ∈ passes, p.clock.force = true → p.queues.injector ≠ [] → p.choice.missForced = false → p.TakesOldest

theorem paced_of_run {parallelism : Nat} {spaces : List Recorder} {shared : σ} {body : Body σ}
    {schedule : List (ThreadId × Choice)} {turns : Turns σ}
    (hrun : trail advance (start parallelism spaces shared body) schedule = some (turns, m)) (id : ThreadId) :
    Paced (passes id turns) := by
  have hnext : ∀ (turns : Turns σ) (m : Machine σ) act after,
      Paced (passes id turns) ∧ (m.crash = none → ∀ p ∈ (passes id turns).getLast?, m.Past id p) →
      advance m act = some after → Paced (passes id (turns ++ [⟨m, act, after⟩])) ∧
        (after.crash = none → ∀ p ∈ (passes id (turns ++ [⟨m, act, after⟩])).getLast?, after.Past id p) := by
    rintro turns m act after ⟨hpaced, hlast⟩ hs
    obtain ⟨_, _, _, _, hnone, _⟩ := exists_move hs
    have hlast := hlast hnone
    cases hq : pass? id ⟨m, act, after⟩ with
    | none =>
      have hsame : passes id (turns ++ [⟨m, act, after⟩]) = passes id turns := by
        rw [passes, List.filterMap_append, List.filterMap_cons_none hq, List.filterMap_nil, List.append_nil, passes]
      rw [hsame]
      exact ⟨hpaced, fun hcrash p hp => (hlast p hp).step hs hcrash hq⟩
    | some q =>
      have hgrown : passes id (turns ++ [⟨m, act, after⟩]) = passes id turns ++ [q] := by
        rw [passes, List.filterMap_append, List.filterMap_cons_some hq, List.filterMap_nil, passes]
      obtain ⟨hpast, htakes⟩ := past_of_pass hs hq
      rw [hgrown]
      refine ⟨⟨List.isChain_append.2 ⟨hpaced.chain, .singleton q, fun p hp q' hq' => ?_⟩, fun p hp => ?_⟩,
        fun _ p hp => ?_⟩
      · cases hq'
        exact (hlast p hp).precedes hs hq
      · rcases List.mem_append.1 hp with hp | hp
        · exact hpaced.forced p hp
        · exact List.mem_singleton.1 hp ▸ htakes
      · simp only [List.getLast?_append, List.getLast?_singleton, Option.some_or, Option.mem_some_iff] at hp
        exact hp ▸ hpast
  refine (trail_induction hnext ⟨⟨.nil, fun p hp => ?_⟩, fun _ p hp => ?_⟩ hrun).1
  · cases hp
  · cases hp

/-- While a runtime goes on, the passes of a loop do what its ticks call for, each one pass later. -/
theorem forces_eq_events {p : Pass} {window : List Pass} {interval : UInt32}
    (hchain : (p :: window).IsChain Pass.Precedes)
    (hwindow : ∀ q ∈ window, q.clock.leaving = false ∧ q.interval = interval.toNat) :
    window.map (·.clock.force) = (p.clock.ticker.events interval (List.replicate window.length false)).map
      (decide <| · = .popInjector) := by
  induction window generalizing p with
  | nil => rfl
  | cons q window ih =>
    obtain ⟨⟨stopping, hclock⟩, hchain⟩ := List.isChain_cons_cons.1 hchain
    obtain ⟨hleaving, hinterval⟩ := hwindow q List.mem_cons_self
    have hgoes : stopping = false := by
      rw [hclock] at hleaving
      exact (Bool.or_eq_false_iff.1 hleaving).1
    have hrest := ih hchain fun q hq => hwindow q (List.mem_cons_of_mem _ hq)
    subst hgoes
    rw [hinterval, Clock.ticked, UInt32.ofNat_toNat] at hclock
    rw [List.map_cons, hrest, List.length_cons, List.replicate_succ, Ticker.events, List.map_cons, hclock]
    simp only [Clock.searched, Bool.or_false]
    rfl

/-- Local work does not starve the injector. Wherever the counter of a ticker stands, among as many ticks in a row as
the interval says one calls for the injector, unless the runtime shuts down. So among as many passes in a row of an
event loop, the very first one apart, there is one that takes the task injected first, whatever is queued with the
worker and whatever the tasks and other threads do, as long as each of the passes finds the injector filled, is not
disturbed when it looks there first, and comes after no tick that found the runtime shutting down. -/
theorem injector_never_starves :
    (∀ (t : Ticker) (interval : UInt32), 0 < interval →
      .popInjector ∈ t.events interval (List.replicate interval.toNat false)) ∧
    ∀ {parallelism : Nat} {spaces : List Recorder} {shared : σ} {body : Body σ}
      {schedule : List (ThreadId × Choice)} {turns : Turns σ} {m : Machine σ},
      trail advance (start parallelism spaces shared body) schedule = some (turns, m) →
      ∀ (id : ThreadId) (interval : UInt32) (earlier window later : List Pass), 0 < interval →
        passes id turns = earlier ++ window ++ later → earlier ≠ [] → window.length = interval.toNat →
        (∀ p ∈ window, p.interval = interval.toNat ∧ p.clock.leaving = false ∧ p.queues.injector ≠ [] ∧
          p.choice.missForced = false) →
        ∃ p ∈ window, p.TakesOldest := by
  refine ⟨fun t interval h => t.popInjector_mem_events h, ?_⟩
  intro parallelism spaces shared body schedule turns m hrun id interval earlier window later hpos hpasses hearlier
    hlen hwindow
  have hpaced := paced_of_run hrun id
  rw [hpasses] at hpaced
  obtain ⟨before, p, rfl⟩ := (List.eq_nil_or_concat' earlier).resolve_left hearlier
  have hchain : (p :: window).IsChain Pass.Precedes := by
    refine hpaced.chain.infix ⟨before, later, ?_⟩
    simp
  have hforces := forces_eq_events hchain fun q hq => ⟨(hwindow q hq).2.1, (hwindow q hq).1⟩
  have hcalls := p.clock.ticker.popInjector_mem_events hpos
  rw [hlen] at hforces
  have hforced : true ∈ window.map (·.clock.force) := by
    rw [hforces]
    exact List.mem_map.2 ⟨_, hcalls, decide_eq_true rfl⟩
  obtain ⟨q, hq, hforce⟩ := List.mem_map.1 hforced
  obtain ⟨_, _, hinjected, hquiet⟩ := hwindow q hq
  exact ⟨q, hq, hpaced.forced q (by simp [hq]) hforce hinjected hquiet⟩

/-- A body that queues as many tasks on runtime `0`, none of which does anything. -/
def feeding : Nat → Body Unit
  | 0 => .finish .none
  | n + 1 => .spawn (some 0) ⟨false, none⟩ (.finish .none) fun _ => feeding n

/-- Four tasks are injected, and worker `1` takes the first of them and two more. With an interval of `2` its
second pass takes one of those two; its third takes the last of the four, before what is left with the worker. -/
theorem injector_never_starves_full :
    let settings : Settings := { Settings.new .stealing with workerThreads := some 1, interval := 2 }
    let main : Body Unit := .build settings none fun _ => .onThread (feeding 4) fun _ => .finish .none
    let schedule : List (ThreadId × Choice) :=
      (List.replicate 2 0 ++ List.replicate 8 2 ++ List.replicate 17 1).map (·, ⟨false, 2, .injector 2⟩)
    ∃ turns m, trail advance (start 1 [] () main) schedule = some (turns, m) ∧
      (passes 1 turns).map (fun p => (p.queues.injector, (p.queues.lane p.worker).own, p.found)) =
        [([1, 2, 3, 4], [], some 1), ([4], [2, 3], some 2), ([4], [3], some 4)] ∧
      ∃ p ∈ (passes 1 turns).drop 1, p.TakesOldest := by
  intro settings main schedule
  have hshown : (trail advance (start 1 [] () main) schedule).any (fun (run : Turns Unit × _) => decide
      ((passes 1 run.1).map (fun p => (p.queues.injector, (p.queues.lane p.worker).own, p.found)) =
        [([1, 2, 3, 4], [], some 1), ([4], [2, 3], some 2), ([4], [3], some 4)] ∧
      ∀ p ∈ (passes 1 run.1).drop 1, p.interval = 2 ∧ p.clock.leaving = false ∧ p.queues.injector ≠ [] ∧
        p.choice.missForced = false)) = true := by
    decide
  obtain ⟨⟨turns, m⟩, hrun, hshown⟩ := (Option.any_eq_true _ _).1 hshown
  obtain ⟨hshown, hwindow⟩ := of_decide_eq_true hshown
  have hlen : (passes 1 turns).length = 3 := by simpa using congrArg List.length hshown
  refine ⟨turns, m, hrun, hshown, ?_⟩
  have hsplit : passes 1 turns = (passes 1 turns).take 1 ++ (passes 1 turns).drop 1 ++ [] := by
    rw [List.take_append_drop, List.append_nil]
  exact injector_never_starves.2 hrun 1 2 _ _ _ (by decide) hsplit (List.ne_nil_of_length_pos (by simp [hlen]))
    (by simp [hlen]) hwindow

end Machine

end TaskSpace

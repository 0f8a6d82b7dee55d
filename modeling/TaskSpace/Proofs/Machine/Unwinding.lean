import TaskSpace.Proofs.Machine.Counted

/-!
# Calls and their frames

A call of a thread begins a body, or waits for a task. It pushes a frame, and all that the thread does before
that frame is popped happens above it: frames are pushed and popped, and each remembers the mark and the holder
from before it. So the thread comes back with the frames, the mark and the holder that it had.
-/

namespace TaskSpace

variable {σ : Type}

/-- Without the frames `above`, the thread has the mark and the holder that are given first. -/
inductive Unwinds (mark : Option TaskId) (holder : Option HolderId) :
    (above : List (Frame σ)) → Option TaskId → Option HolderId → Prop
  | nil : Unwinds mark holder [] mark holder
  | task {t bracket outer above} : Unwinds mark holder above outer bracket.parent →
    Unwinds mark holder (.task t bracket outer :: above) (some t) (some bracket.holder)
  | root {bracket outer next above} : Unwinds mark holder above outer bracket.parent →
    Unwinds mark holder (.root bracket outer next :: above) (some TaskId.root) (some bracket.holder)
  | joiner {kind t next above mark' holder'} : Unwinds mark holder above mark' holder' →
    Unwinds mark holder (.joiner kind t next :: above) mark' holder'

variable {mark mark' : Option TaskId} {holder holder' : Option HolderId} {frame : Frame σ} {above : List (Frame σ)}

theorem Unwinds.of_task {t : TaskId} {bracket : Bracket} {outer : Option TaskId}
    (h : Unwinds mark holder (.task t bracket outer :: above) mark' holder') :
    Unwinds mark holder above outer bracket.parent := by
  cases h
  assumption

theorem Unwinds.of_root {bracket : Bracket} {outer : Option TaskId} {next : Except Payload Value → Body σ}
    (h : Unwinds mark holder (.root bracket outer next :: above) mark' holder') :
    Unwinds mark holder above outer bracket.parent := by
  cases h
  assumption

theorem Unwinds.of_joiner {kind : WaitKind} {t : TaskId} {next : Outcome → Body σ}
    (h : Unwinds mark holder (.joiner kind t next :: above) mark' holder') :
    Unwinds mark holder above mark' holder' := by
  cases h
  assumption

/-- No loop and no shutdown is on top. -/
theorem Unwinds.past? (h : Unwinds mark holder (frame :: above) mark' holder') : frame.past? = none := by
  cases h <;> rfl

/-- The holder is registered nowhere, and has nothing recorded. -/
def Ledger.Emptied (l : Ledger) (holder : HolderId) : Prop :=
  ∃ g, l.roster.holder? holder = some g ∧ g.mark = Holder.unregistered ∧ g.handles = []

/-- What a thread is to do next when a frame of it was popped. -/
inductive Frame.Returns (m : Machine σ) (control : Control σ) : Frame σ → Control σ → Prop
  | task {t bracket outer result} : control = .leave result → m.ledger.Emptied bracket.holder →
    Returns m control (.task t bracket outer) (.publish t (result.mapError (JoinError.panicked t)))
  | root {bracket outer next result} : control = .leave result → m.ledger.Emptied bracket.holder →
    Returns m control (.root bracket outer next) (.run (next result))
  | joiner {kind t next cell outcome} : m.cell? t = some cell → cell.give kind = .ok outcome →
    Returns m control (.joiner kind t next) (.run (next outcome))

namespace Control

/-- A body is to begin, or the thread is to wait for a task. -/
def calls : Control σ → Bool
  | .begin _ _ _ | .run (.blockOn _ _ _) | .run (.wait _ _ _) => true
  | _ => false

/-- The frame that a call pushes, if it does not only wait. -/
inductive Pushes : Control σ → Frame σ → Prop
  | «begin» {t storage body bracket outer} : Pushes (.begin t storage body) (.task t bracket outer)
  | blockOn {runtime root next bracket outer} : Pushes (.run (.blockOn runtime root next)) (.root bracket outer next)
  | wait {kind t next} : Pushes (.run (.wait kind t next)) (.joiner kind t next)

/-- How a thread goes on after a call: with the result of the body that it began, be that a value or a panic, or
with the outcome of the task. -/
inductive GoesOn (m : Machine σ) (endings : List (Except Payload Value)) : Control σ → Control σ → Prop
  | «begin» {t storage body result} : endings = [result] →
    GoesOn m endings (.begin t storage body) (.publish t (result.mapError (JoinError.panicked t)))
  | blockOn {runtime root next result} : endings = [result] →
    GoesOn m endings (.run (.blockOn runtime root next)) (.run (next result))
  | wait {kind t next cell outcome} : m.cell? t = some cell → cell.give kind = .ok outcome →
    GoesOn m endings (.run (.wait kind t next)) (.run (next outcome))

end Control

namespace Thread

variable {th th₀ : Thread σ} {bottom : Frame σ} {inner : List (Frame σ)}

/-- The call is not over: it has pushed a frame on those of the thread, or it waits. -/
def Away (depth : Nat) (th : Thread σ) : Prop :=
  depth < th.frames.length ∨ th.frames.length = depth ∧ ∃ kind t next, th.control = .wait kind t next

/-- The result of the body that ends next, if it runs on so many frames. -/
def ending? (th : Thread σ) (depth : Nat) : Option (Except Payload Value) :=
  if th.frames.length = depth then
    match th.control with
    | .run (.finish v) => some (.ok v)
    | .run (.panic payload) => some (.error payload)
    | _ => none
  else none

theorem ending?_eq_some {depth : Nat} {result : Except Payload Value} :
    th.ending? depth = some result ↔ th.frames.length = depth ∧ th.control = .run (.ofResult result) := by
  unfold ending?
  split
  · rename_i hlen
    cases result <;> split <;> simp_all [Body.ofResult]
  · rename_i hlen
    simp [hlen]

/-- The frames, the holder and the context are those of before. -/
structure Back (th₀ th : Thread σ) : Prop where
  frames : th.frames = th₀.frames
  holder : th.holder = th₀.holder
  context : th.context = th₀.context

/-- Above the frames of the call and the frame `bottom` that it pushed are others, which unwind. -/
structure Within (th₀ : Thread σ) (bottom : Frame σ) (inner : List (Frame σ)) (th : Thread σ) : Prop where
  frames : th.frames = inner ++ bottom :: th₀.frames
  unwinds : ∃ mark, Unwinds th₀.currentTask th₀.holder (inner ++ [bottom]) mark th.holder ∧
    th.context = (th₀.setTask mark).context

theorem currentTask_eq {mark : Option TaskId} (h : th.context = (th₀.setTask mark).context)
    (hw : th.context.isSome) : th.currentTask = mark := by
  simp only [setTask] at h
  rw [currentTask, h]
  rw [h, Option.isSome_map] at hw
  obtain ⟨c, hc⟩ := Option.isSome_iff_exists.1 hw
  rw [hc]
  rfl

variable {x : Thread σ} {frames : List (Frame σ)}

theorem Within.top (hw : th₀.Within bottom inner th) (hf : th.frames = frame :: frames) : frame.past? = none := by
  obtain ⟨mark, hu, _⟩ := hw.unwinds
  rw [hw.frames] at hf
  cases inner with
  | nil =>
    cases hf
    exact hu.past?
  | cons first inner =>
    cases hf
    exact hu.past?

theorem Within.push (hw : th₀.Within bottom inner th) (hf : x.frames = frame :: th.frames)
    (hpush : ∀ {above mark}, Unwinds th₀.currentTask th₀.holder above mark th.holder →
      th.context = (th₀.setTask mark).context → ∃ mark',
        Unwinds th₀.currentTask th₀.holder (frame :: above) mark' x.holder ∧
        x.context = (th₀.setTask mark').context) : th₀.Within bottom (frame :: inner) x := by
  obtain ⟨mark, hu, hc⟩ := hw.unwinds
  exact ⟨by rw [hf, hw.frames]; rfl, hpush hu hc⟩

/-- A frame is popped: it was pushed above that of the call, or the call is over. -/
theorem Within.pop (hw : th₀.Within bottom inner th) (hf : th.frames = frame :: x.frames)
    (hpop : ∀ {above mark}, Unwinds th₀.currentTask th₀.holder (frame :: above) mark th.holder →
      th.context = (th₀.setTask mark).context → ∃ mark',
        Unwinds th₀.currentTask th₀.holder above mark' x.holder ∧ x.context = (th₀.setTask mark').context) :
    (∃ inner', inner = frame :: inner' ∧ th₀.Within bottom inner' x) ∨
      inner = [] ∧ bottom = frame ∧ th₀.Back x := by
  obtain ⟨mark, hu, hc⟩ := hw.unwinds
  have hframes := hw.frames.symm.trans hf
  cases inner with
  | nil =>
    obtain ⟨rfl, hrest⟩ := List.cons.inj hframes
    obtain ⟨mark', hu', hc'⟩ := hpop hu hc
    generalize hholder : x.holder = holder at hu'
    cases hu'
    exact .inr ⟨rfl, rfl, hrest.symm, hholder, hc'.trans th₀.context_setTask_currentTask⟩
  | cons first inner =>
    obtain ⟨rfl, hrest⟩ := List.cons.inj hframes
    exact .inl ⟨inner, rfl, hrest.symm, hpop hu hc⟩

end Thread

namespace Machine

/-- The results of the bodies that end on so many frames of a thread. -/
def endings (id : ThreadId) (depth : Nat) (turns : Turns σ) : List (Except Payload Value) :=
  turns.filterMap fun turn =>
    if turn.act.1 = id then (turn.before.threads[id]?).bind fun th => th.ending? depth else none

/-- Where a thread is in a call: it waits, it runs what is above the frame of the call, the body of that frame
is over, or the call is over. The holder of the body is `own`. -/
inductive InCall (id : ThreadId) (th₀ : Thread σ) (own : Option HolderId) (turns : Turns σ) (m : Machine σ) :
    Thread σ → Prop
  | waiting {th kind t next} : th₀.control = .run (.wait kind t next) → own = none → th₀.Back th →
    th.control = .wait kind t next → InCall id th₀ own turns m th
  | running {th bottom inner} : th₀.control.Pushes bottom → bottom.body?.map (fun body => body.2.holder) = own →
    th₀.Within bottom inner th → endings id (th₀.frames.length + 1) turns = [] →
    (∀ result, th.control = .leave result → inner ≠ []) → InCall id th₀ own turns m th
  | leaving {th bottom result} : th₀.control.Pushes bottom → bottom.body?.map (fun body => body.2.holder) = own →
    th₀.Within bottom [] th → endings id (th₀.frames.length + 1) turns = [result] →
    th.control = .leave result → InCall id th₀ own turns m th
  | back {th} : th₀.Back th → th₀.control.GoesOn m (endings id (th₀.frames.length + 1) turns) th.control →
    (∀ holder ∈ own, m.ledger.Emptied holder) → InCall id th₀ own turns m th

variable {m rest : Machine σ} {k : Nat} {es : TaskId → List Event} {id : ThreadId} {th th' th₀ : Thread σ}
  {bottom : Frame σ} {inner : List (Frame σ)} {result : Except Payload Value} {n : Nat} {space : SpaceId}
  {hist : History} {t : TaskId} {bracket : Bracket} {below : List (TaskId × Bracket)}

/-- A thread with frames is to leave a body exactly when that body has ended. -/
theorem Move.leaves_iff (hm : m.Move id th rest th') (hcrash : rest.crash = none) (hne : th.frames ≠ []) :
    th'.control = .leave result ↔ th.control = .run (.ofResult result) := by
  have hneither : ∀ {control control' : Control σ}, th.control = control → control ≠ .run (.ofResult result) →
      control' ≠ .leave result → (control' = .leave result ↔ th.control = .run (.ofResult result)) := by
    rintro _ _ rfl hrun hleave
    exact ⟨fun h => absurd h hleave, fun h => absurd h hrun⟩
  cases hm with
  | @returned found hctl =>
    rw [hctl]
    cases found <;> cases result <;> simp [Body.ofResult]
  | ended _ hf => exact absurd hf hne
  | answered hctl ha =>
    exact hneither hctl (by cases ha <;> cases result <;> simp [Body.ofResult]) (by simp [Thread.continueWith])
  | @idle _ _ leaving _ _ _ _ hctl => exact hneither hctl (by simp) (by cases leaving <;> simp)
  | @settled _ _ _ frame _ _ hctl _ _ _ hpast | @passed _ frame _ _ _ hctl _ hpast =>
    exact hneither hctl (by simp) (by cases frame <;> cases hpast <;> simp)
  | delivered ha =>
    rcases ha with hctl | hctl <;>
      exact hneither hctl (by cases result <;> simp [Body.ofResult]) (by simp [Thread.continueWith])
  | crashed => cases hcrash
  | _ => exact hneither (by assumption) (by cases result <;> simp [Body.ofResult]) (by simp [Thread.continueWith])

theorem Sound.emptied (h : m.Sound n space hist) (hth : m.threads[id]? = some th)
    (hbodies : th.bodies = (t, bracket) :: below) {ledger : Ledger}
    (hc : m.ledger.closeBracket id bracket = (.ok (), ledger)) : ledger.Emptied bracket.holder := by
  obtain ⟨_, g, roster, hg, hclosed, rfl⟩ := h.of_closeBracket hth hbodies hc
  exact ⟨_, (hclosed.holder g hg).1, rfl, rfl⟩

/-- What a step does above the frame of a call: it stays above it, or it pops it. -/
theorem Hosts.within (h : m.Hosts k es) (hth : m.threads[id]? = some th) (hm : m.Move id th rest th')
    (hcrash : rest.crash = none) (hw : th₀.Within bottom inner th) :
    (∃ inner', th₀.Within bottom inner' th' ∧ (∀ result, th'.control = .leave result → inner' = inner) ∧
        ∀ result, th.control = .leave result → inner ≠ []) ∨
      inner = [] ∧ th₀.Back th' ∧ bottom.Returns (rest.setThread id th') th.control th'.control := by
  obtain ⟨space, hist, hsound⟩ := h.sound
  have hstay : ∀ {control : Control σ} {x : Thread σ}, th.control = control →
      (∀ result, control ≠ .leave result) → x.frames = th.frames → x.holder = th.holder →
      x.context = th.context →
      ∃ inner', th₀.Within bottom inner' x ∧ (∀ result, x.control = .leave result → inner' = inner) ∧
        ∀ result, th.control = .leave result → inner ≠ [] := by
    rintro _ x rfl hleave hf hh hc
    exact ⟨inner, ⟨hf.trans hw.frames, by rw [hh, hc]; exact hw.unwinds⟩, fun _ _ => rfl,
      fun result he => absurd he (hleave result)⟩
  have hnil : th.frames ≠ [] := by simp [hw.frames]
  cases hm with
  | launched hctl => exact (h.controlFits hth hctl).2.elim
  | @rooted _ root next _ _ bracket _ hctl _ _ ho =>
    have hworks := h.works_of_opens hth (by rw [hctl]; rfl)
    refine .inl ⟨_, hw.push rfl fun hu hc => ⟨_, .root ?_, Thread.context_setTask hc⟩, fun _ he => (by cases he),
      fun _ he => by cases hctl.symm.trans he⟩
    rw [Thread.currentTask_eq hc hworks, Ledger.bracket_of_openBracket ho]
    exact hu
  | @began t _ body _ bracket _ hctl _ _ ho =>
    have hworks := h.works_of_opens hth (by rw [hctl]; rfl)
    refine .inl ⟨_, hw.push rfl fun hu hc => ⟨_, .task ?_, Thread.context_setTask hc⟩, fun _ he => (by cases he),
      fun _ he => by cases hctl.symm.trans he⟩
    rw [Thread.currentTask_eq hc hworks, Ledger.bracket_of_openBracket ho]
    exact hu
  | @left result t bracket outer frames ledger hctl hf hclose =>
    have hpop := hw.pop (x := { th.setTask outer with
      control := .publish t (result.mapError (JoinError.panicked t)), frames, holder := bracket.parent }) hf
      fun hu hc => ⟨outer, hu.of_task, Thread.context_setTask hc⟩
    rcases hpop with ⟨inner', rfl, hw'⟩ | ⟨rfl, rfl, hback⟩
    · exact .inl ⟨inner', hw', fun _ he => (by cases he), fun _ _ => List.cons_ne_nil _ _⟩
    · exact .inr ⟨rfl, hback, .task hctl (hsound.emptied hth (Thread.bodies_eq hf) hclose)⟩
  | @leftRoot result bracket outer next frames ledger hctl hf hclose =>
    have hpop := hw.pop (x := { th.setTask outer with
      control := .run (next result), frames, holder := bracket.parent }) hf
      fun hu hc => ⟨outer, hu.of_root, Thread.context_setTask hc⟩
    rcases hpop with ⟨inner', rfl, hw'⟩ | ⟨rfl, rfl, hback⟩
    · exact .inl ⟨inner', hw', fun _ he => (by cases he), fun _ _ => List.cons_ne_nil _ _⟩
    · exact .inr ⟨rfl, hback, .root hctl (hsound.emptied hth (Thread.bodies_eq hf) hclose)⟩
  | @resumed _ _ _ _ _ next frames _ outcome hctl _ _ hf hc hgive =>
    have hpop := hw.pop (x := { th with control := .run (next outcome), frames }) hf
      fun hu hc => ⟨_, hu.of_joiner, hc⟩
    rcases hpop with ⟨inner', rfl, hw'⟩ | ⟨rfl, rfl, hback⟩
    · exact .inl ⟨inner', hw', fun _ he => (by cases he), fun _ _ => List.cons_ne_nil _ _⟩
    · exact .inr ⟨rfl, hback, .joiner hc hgive⟩
  | nested hctl =>
    exact .inl ⟨_, hw.push rfl fun hu hc => ⟨_, .joiner hu, hc⟩, fun _ he => (by cases he),
      fun _ he => by cases hctl.symm.trans he⟩
  | found hctl hseeks =>
    cases hseeks with
    | loop hf => cases hw.top hf
    | drain hf => cases hw.top hf
  | idle hctl hf | drained hctl hf | ticked hctl hf => cases hw.top hf
  | exited hctl =>
    obtain ⟨_, _, _, hf⟩ := h.controlFits hth hctl
    cases hw.top hf
  | rang hctl | joinedPool hctl | closed hctl => exact absurd (h.of_stop hth hctl).2.1 hnil
  | delivered ha => rcases ha with hctl | hctl <;> exact .inl (hstay hctl (by simp) rfl rfl rfl)
  | crashed => cases hcrash
  | _ => exact .inl (hstay (by assumption) (by simp) rfl rfl rfl)

/-! ## A call from its first turn to its last -/

variable {own : Option HolderId} {turns : Turns σ} {other : ThreadId} {choice : Choice} {m' : Machine σ}

theorem endings_other (depth : Nat) (hne : other ≠ id) :
    endings id depth (turns ++ [⟨m, (other, choice), m'⟩]) = endings id depth turns := by
  simp [endings, hne]

theorem endings_self (depth : Nat) (hth : m.threads[id]? = some th) :
    endings id depth (turns ++ [⟨m, (id, choice), m'⟩]) = endings id depth turns ++ (th.ending? depth).toList := by
  cases he : th.ending? depth <;> simp [endings, hth, he]

/-- A thread that waits for a task goes on with the outcome. -/
theorem Move.of_wait {kind : WaitKind} {next : Outcome → Body σ} (hm : m.Move id th rest th')
    (hcrash : rest.crash = none) (hctl : th.control = .wait kind t next) :
    ∃ cell outcome, rest.cell? t = some cell ∧ cell.give kind = .ok outcome ∧
      th' = th.continueWith (next outcome) := by
  have hother : ∀ {control : Control σ}, th.control = control → control ≠ .wait kind t next → False :=
    fun he hne => hne (he.symm.trans hctl)
  cases hm with
  | delivered ha hc _ hgive =>
    rcases ha with he | he <;> cases hctl.symm.trans he
    exact ⟨_, _, hc, hgive, rfl⟩
  | crashed => cases hcrash
  | _ => exact (hother (by assumption) (by simp)).elim

theorem endings_first (hth : m.threads[id]? = some th) :
    endings id (th.frames.length + 1) [⟨m, (id, choice), m'⟩] = [] := by
  simp [endings, Thread.ending?, hth]

/-- The first turn of a call. A body that it begins gets the next holder. -/
theorem Move.calls (hm : m.Move id th rest th') (hth : m.threads[id]? = some th) (hcrash : rest.crash = none)
    (hcall : th.control.calls) (choice : Choice) :
    ∃ own, InCall id th own [⟨m, (id, choice), rest.setThread id th'⟩] (rest.setThread id th') th' ∧
      (th.control.opens → own = some (m.ledger.roster.holders.length + 1) ∧ th'.holder = own) := by
  have hother : ∀ {control : Control σ}, th.control = control → control.calls = false → False := by
    rintro _ rfl he
    cases he.symm.trans hcall
  have hpushed : ∀ {frame x mark}, th.control.Pushes frame → x.frames = frame :: th.frames →
      Unwinds th.currentTask th.holder [frame] mark x.holder → x.context = (th.setTask mark).context →
      (∀ result, x.control ≠ .leave result) → InCall id th (frame.body?.map fun body => body.2.holder)
        [⟨m, (id, choice), rest.setThread id th'⟩] (rest.setThread id th') x :=
    fun hp hf hu hc hleave => .running hp rfl (show th.Within _ [] _ from ⟨hf, _, hu, hc⟩) (endings_first hth)
      fun result he => absurd he (hleave result)
  cases hm with
  | @rooted _ _ next _ _ bracket _ hctl _ _ ho =>
    have hpush : th.control.Pushes (.root bracket th.currentTask next) := hctl ▸ .blockOn
    refine ⟨_, hpushed hpush rfl (.root ?_) rfl (by simp), fun _ => ?_⟩
    · rw [Ledger.bracket_of_openBracket ho]
      exact .nil
    · rw [Ledger.bracket_of_openBracket ho]
      exact ⟨rfl, rfl⟩
  | @began t _ _ _ bracket _ hctl _ _ ho =>
    have hpush : th.control.Pushes (.task t bracket th.currentTask) := hctl ▸ .begin
    refine ⟨_, hpushed hpush rfl (.task ?_) rfl (by simp), fun _ => ?_⟩
    · rw [Ledger.bracket_of_openBracket ho]
      exact .nil
    · rw [Ledger.bracket_of_openBracket ho]
      exact ⟨rfl, rfl⟩
  | @nested kind t next _ _ _ hctl =>
    have hpush : th.control.Pushes (.joiner kind t next) := hctl ▸ .wait
    refine ⟨_, hpushed hpush rfl (.joiner .nil) th.context_setTask_currentTask.symm (by simp), fun ho => ?_⟩
    rw [hctl] at ho
    cases ho
  | blocked hctl =>
    refine ⟨none, .waiting hctl rfl ⟨rfl, rfl, rfl⟩ rfl, fun ho => ?_⟩
    rw [hctl] at ho
    cases ho
  | delivered ha hc _ hgive =>
    rcases ha with hctl | hctl
    · refine ⟨none, .back ⟨rfl, rfl, rfl⟩ ?_ fun _ he => (by cases he), fun ho => ?_⟩
      · rw [hctl]
        exact .wait hc hgive
      · rw [hctl] at ho
        cases ho
    · exact (hother hctl rfl).elim
  | answered hctl ha => exact (hother hctl (by cases ha <;> rfl)).elim
  | @ended result hctl | @returned result hctl => exact (hother hctl (by cases result <;> rfl)).elim
  | crashed => cases hcrash
  | _ => exact (hother (by assumption) rfl).elim

/-- How a thread goes on whose call pushed a frame that was popped. -/
theorem goesOn_of_returns {results : List (Except Payload Value)} {frame : Frame σ}
    {call control control' : Control σ} (hp : call.Pushes frame) (hr : frame.Returns m control control')
    (hresults : ∀ result, control = .leave result → results = [result]) :
    call.GoesOn m results control' ∧ ∀ body ∈ frame.body?, m.ledger.Emptied body.2.holder := by
  cases hr with
  | task hl hempty =>
    cases hp
    exact ⟨.begin (hresults _ hl), fun body hin => by cases hin; exact hempty⟩
  | root hl hempty =>
    cases hp
    exact ⟨.blockOn (hresults _ hl), fun body hin => by cases hin; exact hempty⟩
  | joiner hc hgive =>
    cases hp
    exact ⟨.wait hc hgive, fun body hin => by cases hin⟩

theorem not_waits_of_goesOn {results : List (Except Payload Value)} {control control' : Control σ}
    (hg : control.GoesOn m results control') (kind : WaitKind) (t : TaskId) (next : Outcome → Body σ) :
    control' ≠ .wait kind t next := by
  rintro rfl
  cases hg

theorem not_away_of_back {results : List (Except Payload Value)} (hb : th₀.Back th)
    (hg : th₀.control.GoesOn m results th.control) : ¬th.Away th₀.frames.length := by
  rintro (hlt | ⟨_, kind, t, next, hctl⟩)
  · rw [hb.frames] at hlt
    exact Nat.lt_irrefl _ hlt
  · exact not_waits_of_goesOn hg kind t next hctl

/-- A call whose thread is back. -/
theorem InCall.returned (hc : InCall id th₀ own turns m th) (hback : ¬th.Away th₀.frames.length) :
    th₀.Back th ∧ th₀.control.GoesOn m (endings id (th₀.frames.length + 1) turns) th.control ∧
      ∀ holder ∈ own, m.ledger.Emptied holder := by
  have hwithin : ∀ {bottom inner}, th₀.Within bottom inner th → th.Away th₀.frames.length := fun hw => by
    refine .inl ?_
    rw [hw.frames, List.length_append, List.length_cons]
    omega
  cases hc with
  | waiting _ _ hb hctl => exact absurd (.inr ⟨by rw [hb.frames], _, _, _, hctl⟩) hback
  | running _ _ hw => exact absurd (hwithin hw) hback
  | leaving _ _ hw => exact absurd (hwithin hw) hback
  | back hb hg hempty => exact ⟨hb, hg, hempty⟩

/-- A turn of another thread changes nothing of a call. -/
theorem InCall.apart (hc : InCall id th₀ own turns m th) (haway : th.Away th₀.frames.length) (hne : other ≠ id)
    (choice : Choice) (m' : Machine σ) : InCall id th₀ own (turns ++ [⟨m, (other, choice), m'⟩]) m' th := by
  cases hc with
  | waiting hctl ho hb hwait => exact .waiting hctl ho hb hwait
  | running hp ho hw he hleave => exact .running hp ho hw ((endings_other _ hne).trans he) hleave
  | leaving hp ho hw he hleave => exact .leaving hp ho hw ((endings_other _ hne).trans he) hleave
  | back hb hg => exact absurd haway (not_away_of_back hb hg)

/-- A turn of the thread that is in a call. -/
theorem InCall.step (hc : InCall id th₀ own turns m th) (haway : th.Away th₀.frames.length) (h : m.Hosts k es)
    (hth : m.threads[id]? = some th) (hm : m.Move id th rest th') (hcrash : rest.crash = none) (choice : Choice) :
    InCall id th₀ own (turns ++ [⟨m, (id, choice), rest.setThread id th'⟩]) (rest.setThread id th') th' := by
  have hends : endings id (th₀.frames.length + 1) (turns ++ [⟨m, (id, choice), rest.setThread id th'⟩]) = _ :=
    endings_self _ hth
  have hback : ∀ {bottom}, th₀.control.Pushes bottom → bottom.body?.map (fun body => body.2.holder) = own →
      th₀.Back th' → bottom.Returns (rest.setThread id th') th.control th'.control →
      (∀ result, th.control = .leave result → endings id (th₀.frames.length + 1) turns = [result]) →
      InCall id th₀ own (turns ++ [⟨m, (id, choice), rest.setThread id th'⟩]) (rest.setThread id th') th' := by
    intro bottom hp ho hb hr hresults
    have hresults' : ∀ result, th.control = .leave result → endings id (th₀.frames.length + 1)
        (turns ++ [⟨m, (id, choice), rest.setThread id th'⟩]) = [result] := by
      intro result hl
      cases hend : th.ending? (th₀.frames.length + 1) with
      | some found => cases hl.symm.trans (Thread.ending?_eq_some.1 hend).2
      | none => rw [hends, hend, hresults result hl]; rfl
    obtain ⟨hgoes, hempty⟩ := goesOn_of_returns hp hr hresults'
    refine .back hb hgoes fun holder hin => ?_
    rw [← ho] at hin
    obtain ⟨body, hbody, rfl⟩ := Option.map_eq_some_iff.1 hin
    exact hempty body hbody
  cases hc with
  | waiting hctl ho hb hwait =>
    obtain ⟨cell, outcome, hcell, hgive, rfl⟩ := hm.of_wait hcrash hwait
    refine .back ⟨hb.frames, hb.holder, hb.context⟩ ?_ fun _ he => (by rw [ho] at he; cases he)
    rw [hctl]
    exact .wait hcell hgive
  | @running bottom inner hp ho hw he hleave =>
    have hne : th.frames ≠ [] := by simp [hw.frames]
    rcases h.within hth hm hcrash hw with ⟨inner', hw', hsame, hnot⟩ | ⟨rfl, hb, hr⟩
    · cases hend : th.ending? (th₀.frames.length + 1) with
      | some result =>
        obtain ⟨hlen, hrun⟩ := Thread.ending?_eq_some.1 hend
        have hl := (hm.leaves_iff hcrash hne).2 hrun
        obtain rfl := hsame result hl
        obtain rfl : inner' = [] := by
          rw [hw.frames, List.length_append, List.length_cons] at hlen
          exact List.length_eq_zero_iff.1 (by omega)
        exact .leaving hp ho hw' (by rw [hends, he, hend]; rfl) hl
      | none =>
        refine .running hp ho hw' (by rw [hends, he, hend]; rfl) fun result hl hover => ?_
        -- the body of the call itself would have ended
        have hrun := (hm.leaves_iff hcrash hne).1 hl
        obtain rfl := hsame result hl
        have hlen : th.frames.length = th₀.frames.length + 1 := by rw [hw.frames, hover]; rfl
        cases hend.symm.trans (Thread.ending?_eq_some.2 ⟨hlen, hrun⟩)
    · exact hback hp ho hb hr fun result hl => absurd rfl (hleave result hl)
  | @leaving bottom result hp ho hw he hleave =>
    rcases h.within hth hm hcrash hw with ⟨_, _, _, hnot⟩ | ⟨_, hb, hr⟩
    · exact absurd rfl (hnot result hleave)
    · refine hback hp ho hb hr fun found hl => ?_
      cases hleave.symm.trans hl
      exact he
  | back hb hg => exact absurd haway (not_away_of_back hb hg)

end Machine

end TaskSpace

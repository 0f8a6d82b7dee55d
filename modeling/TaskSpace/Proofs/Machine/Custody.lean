import TaskSpace.Proofs.Machine.Moves
import TaskSpace.Proofs.Machine.Trail

/-!
# Who has a task

Whoever takes the body of a task has the task until it is settled: the thread that is to begin it, on
which its body runs or is suspended, and which then publishes its outcome. A queue entry that is dropped
may take the body too. No body runs then, but there is an outcome to publish all the same.
-/

namespace TaskSpace

variable {σ : Type}

/-- How far whoever took the body of a task has come with it. -/
inductive Stage where
  | taken
  | running
  | returned (result : Except Payload Value)
  | publishing (outcome : Outcome)
  | settling (completed : Bool)

namespace Control

/-- What the control says of a task, but for the bodies on the frames. -/
def stages (t : TaskId) : Control σ → List Stage
  | .begin u _ _ => if u = t then [.taken] else []
  | .publish u outcome => if u = t then [.publishing outcome] else []
  | .settle u completed => if u = t then [.settling completed] else []
  | _ => []

/-- How far the body on top has come. -/
def top : Control σ → Stage
  | .leave result => .returned result
  | _ => .running

/-- The task that the thread has in its hands, outside of the frames. -/
def task? : Control σ → Option TaskId
  | .begin t _ _ | .publish t _ | .settle t _ => some t
  | _ => none

end Control

namespace Frame

def stages (top : Stage) (t : TaskId) : Frame σ → List Stage
  | .task u _ _ => if u = t then [top] else []
  | _ => []

/-- Every body that runs the task it waits for waits for the task above it, and an event loop is at the
bottom. -/
def Paired : Option TaskId → List (Frame σ) → Prop
  | _, [] => True
  | above, .joiner _ t _ :: frames => above = some t ∧ Paired none frames
  | _, .task t _ _ :: frames => Paired (some t) frames
  | _, .loop _ _ _ :: frames => frames = []
  | _, .root _ _ _ :: frames | _, .drain _ _ _ :: frames => Paired none frames

end Frame

/-- What the frames say of a task, when the body on top has come as far as `top`. -/
def hosted (top : Stage) (t : TaskId) : List (Frame σ) → List Stage
  | [] => []
  | frame :: frames => frame.stages top t ++ frames.flatMap (Frame.stages .running t)

@[simp] theorem hosted_running (t : TaskId) (frames : List (Frame σ)) :
    hosted .running t frames = frames.flatMap (Frame.stages .running t) := by
  cases frames <;> rfl

@[simp] theorem hosted_cons (top : Stage) (t : TaskId) (frame : Frame σ) (frames : List (Frame σ)) :
    hosted top t (frame :: frames) = frame.stages top t ++ frames.flatMap (Frame.stages .running t) := rfl

namespace Thread

/-- Each time that a thread has a task, and how far it has come with it. -/
def stages (th : Thread σ) (t : TaskId) : List Stage :=
  th.control.stages t ++ hosted th.control.top t th.frames

structure Paired (th : Thread σ) : Prop where
  frames : Frame.Paired th.control.task? th.frames
  exit : th.control = .exit → ∃ ticker force leaving, th.frames = [.loop ticker force leaving]

end Thread

/-- The thread has no task in its hands: what it has is on the frames. -/
def Control.free : Control σ → Bool
  | .begin _ _ _ | .publish _ _ | .settle _ _ | .leave _ | .exit => false
  | _ => true

namespace Thread

variable {th : Thread σ} {t : TaskId}

theorem stages_of_free (h : th.control.free) :
    th.stages t = th.frames.flatMap (Frame.stages .running t) := by
  have hctl : th.control.stages t = [] ∧ th.control.top = .running := by
    cases hc : th.control <;> simp_all [Control.free, Control.stages, Control.top]
  simp [stages, hctl]

theorem Paired.of_free (hp : th.Paired) (h : th.control.free) : Frame.Paired none th.frames := by
  have hctl : th.control.task? = none := by
    cases hc : th.control <;> simp_all [Control.free, Control.task?]
  exact hctl ▸ hp.frames

theorem paired_of_free (h : th.control.free) (hp : Frame.Paired none th.frames) : th.Paired := by
  have hctl : th.control.task? = none := by
    cases hc : th.control <;> simp_all [Control.free, Control.task?]
  exact ⟨hctl ▸ hp, fun he => by simp [he, Control.free] at h⟩

end Thread

namespace Frame

variable {frame : Frame σ} {frames : List (Frame σ)} {past : Control σ} {above other : Option TaskId} {t : TaskId}
  {bracket : Bracket}

theorem free_of_past (h : frame.past? = some past) : past.free := by
  cases frame <;> cases h <;> rfl

theorem Paired.of_past (h : Paired above (frame :: frames)) (hpast : frame.past? = some past) :
    Paired other (frame :: frames) := by
  cases frame <;> cases hpast <;> exact h

theorem stages_of_task (ht : t ≠ TaskId.root) (h : frame.body? = some (t, bracket)) (top : Stage) :
    frame.stages top t = [top] := by
  cases frame with
  | task => cases h; exact if_pos rfl
  | root => cases h; exact absurd rfl ht
  | _ => cases h

theorem flatMap_stages (ht : t ≠ TaskId.root) (h : (t, bracket) ∈ frames.filterMap Frame.body?) :
    frames.flatMap (Frame.stages .running t) ≠ [] := by
  obtain ⟨frame, hframe, hb⟩ := List.mem_filterMap.1 h
  have hin : Stage.running ∈ frame.stages .running t := by simp [stages_of_task ht hb]
  exact List.ne_nil_of_mem (List.mem_flatMap.2 ⟨frame, hframe, hin⟩)

end Frame

namespace Thread

variable {th : Thread σ} {t : TaskId} {bracket : Bracket}

/-- A thread has the tasks whose bodies are on its frames, but for the roots, which are no tasks. -/
theorem stages_of_body (ht : t ≠ TaskId.root) (h : (t, bracket) ∈ th.bodies) : th.stages t ≠ [] := by
  refine List.append_ne_nil_of_right_ne_nil _ ?_
  rw [Thread.bodies] at h
  cases hf : th.frames with
  | nil => rw [hf] at h; cases h
  | cons head below =>
    rw [hf, List.filterMap_cons] at h
    rw [hosted_cons]
    cases hb : head.body? with
    | none =>
      rw [hb] at h
      exact List.append_ne_nil_of_right_ne_nil _ (Frame.flatMap_stages ht h)
    | some body =>
      rw [hb] at h
      rcases List.mem_cons.1 h with rfl | h
      · rw [Frame.stages_of_task ht hb]
        exact List.cons_ne_nil _ _
      · exact List.append_ne_nil_of_right_ne_nil _ (Frame.flatMap_stages ht h)

theorem stages_of_hand (h : th.control.task? = some t) : th.stages t ≠ [] := by
  refine List.append_ne_nil_of_left_ne_nil ?_ _
  cases hc : th.control <;> rw [hc] at h <;> cases h <;> simp [Control.stages]

end Thread

/-- The queue entry of a task that is being dropped: it has the body, and its outcome may be written. -/
structure Drop where
  task : TaskId
  written : Bool
deriving DecidableEq

def Drop.stages (t : TaskId) (d : Drop) : List Stage :=
  if d.task = t then [if d.written then .settling false else .publishing (.error (.cancelled t))] else []

/-- A machine, and the entries that are being dropped. -/
structure Scene (σ : Type) where
  machine : Machine σ
  drops : List Drop

/-- A thread steps, or an entry is dropped: the first part of that takes the body if it is there, and the
other two follow when they may. -/
inductive Act where
  | step (id : ThreadId) (choice : Choice)
  | drop (t : TaskId)
  | finishDrop (place : Nat)

namespace Scene

/-- The three parts of a drop are those of `Cell.cancel`. -/
def drop (s : Scene σ) (t : TaskId) : Option (Scene σ) := do
  let cell ← s.machine.cell? t
  match cell.take with
  | none => return s
  | some (_, cell) => return ⟨s.machine.setCell cell, ⟨t, false⟩ :: s.drops⟩

def finishDrop (s : Scene σ) (place : Nat) : Option (Scene σ) := do
  let d ← s.drops[place]?
  let cell ← s.machine.cell? d.task
  if d.written then
    match cell.settle false with
    | .error violation => return { s with machine := s.machine.fail (.task violation) }
    | .ok cell => return ⟨s.machine.setCell cell, s.drops.eraseIdx place⟩
  else
    return ⟨s.machine.setCell (cell.publish (.error (.cancelled d.task))),
      s.drops.set place { d with written := true }⟩

/-- What a scene does while its machine has not crashed. -/
def act (s : Scene σ) (act : Act) : Option (Scene σ) :=
  if s.machine.crash.isSome then none
  else
    match act with
    | .step id choice => (s.machine.step id choice).map fun m => { s with machine := m }
    | .drop t => s.drop t
    | .finishDrop place => s.finishDrop place

/-- Each time that a thread, or that an entry which is being dropped, has a task. -/
def stages (s : Scene σ) (t : TaskId) : Option ThreadId → List Stage
  | some id => (s.machine.threads[id]?).elim [] (·.stages t)
  | none => s.drops.flatMap (Drop.stages t)

end Scene

end TaskSpace

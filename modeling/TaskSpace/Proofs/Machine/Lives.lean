import TaskSpace.Proofs.Machine.Attended
import TaskSpace.Proofs.Machine.Custody

/-!
# The life of a task

What is seen of a task in a run is a list of events, and `Life` says which lists there are. In each the
body is taken once, and the outcome is written once, before the state becomes terminal. A step adds to
the events of at most one task, and whoever has the task does it.
-/

namespace TaskSpace

variable {σ β : Type}

/-- What happens to a task. It is taken by a thread, or by its queue entry when that is dropped. -/
inductive Event where
  | spawned
  | taken (taker : Option ThreadId)
  | started (id : ThreadId)
  | returned (id : ThreadId) (result : Except Payload Value)
  | published (outcome : Outcome)
  | settled

/-- The outcome of a task whose body ended. -/
def outcomeOf (t : TaskId) (result : Except Payload Value) : Outcome :=
  result.mapError (JoinError.panicked t)

@[simp] theorem outcomeOf_ok (t : TaskId) (v : Value) : outcomeOf t (.ok v) = .ok v := rfl

@[simp] theorem outcomeOf_error (t : TaskId) (payload : Payload) :
    outcomeOf t (.error payload) = .error (.panicked t payload) := rfl

abbrev Hand := Option ThreadId × Stage

/-- The events of a task, the cell that they leave, and who has the task at which stage. -/
inductive Life (t : TaskId) : Option (Cell β) → List Event → Option Hand → Prop
  | unborn : Life t none [] none
  | queued {sticky name body} : Life t (some (.spawned t sticky name body)) [.spawned] none
  | taken {sticky name id} : Life t (some { id := t, sticky, name, body := none })
      [.spawned, .taken (some id)] (some (some id, .taken))
  | running {sticky name id} : Life t (some { id := t, sticky, name, body := none, state := .running })
      [.spawned, .taken (some id), .started id] (some (some id, .running))
  | returned {sticky name id result} :
    Life t (some { id := t, sticky, name, body := none, state := .running })
      [.spawned, .taken (some id), .started id, .returned id result] (some (some id, .returned result))
  /-- The bracket of the body is closed. -/
  | left {sticky name id result} :
    Life t (some { id := t, sticky, name, body := none, state := .running })
      [.spawned, .taken (some id), .started id, .returned id result]
      (some (some id, .publishing (outcomeOf t result)))
  | published {sticky name id result} :
    Life t (some { id := t, sticky, name, body := none, state := .running
                   outcome := some (outcomeOf t result), held := false })
      [.spawned, .taken (some id), .started id, .returned id result, .published (outcomeOf t result)]
      (some (some id, .settling (outcomeOf t result).isOk))
  | finished {sticky name id result} :
    Life t (some { id := t, sticky, name, body := none
                   state := if (outcomeOf t result).isOk then .completed else .failed
                   outcome := some (outcomeOf t result), held := false })
      [.spawned, .taken (some id), .started id, .returned id result, .published (outcomeOf t result),
        .settled] none
  | dropping {sticky name} : Life t (some { id := t, sticky, name, body := none })
      [.spawned, .taken none] (some (none, .publishing (.error (.cancelled t))))
  | cancelled {sticky name} :
    Life t (some { id := t, sticky, name, body := none
                   outcome := some (.error (.cancelled t)), held := false })
      [.spawned, .taken none, .published (.error (.cancelled t))] (some (none, .settling false))
  | dropped {sticky name} :
    Life t (some { id := t, sticky, name, body := none, state := .failed
                   outcome := some (.error (.cancelled t)), held := false })
      [.spawned, .taken none, .published (.error (.cancelled t)), .settled] none

/-- What somebody has of a task that is in some hand. -/
def Hand.of : Option Hand → Option ThreadId → List Stage
  | some (owner, stage), who => if owner = who then [stage] else []
  | none, _ => []

namespace Cell

/-- The body waits to be taken. -/
def waiting (c : Option (Cell β)) : Bool := (c.bind Cell.body).isSome

end Cell

/-- What the step of a thread does to a task, whose cell is given as it is before and after. -/
def Thread.events (th : Thread σ) (id : ThreadId) (t : TaskId) (before after : Option (Cell (Body σ))) :
    List Event :=
  match th.control with
  | .run (.spawn _ _ _ _) => if before.isNone ∧ after.isSome then [.spawned] else []
  | .run (.wait _ _ _) | .hold _ =>
    if Cell.waiting before ∧ ¬Cell.waiting after then [.taken (some id)] else []
  | .begin u _ _ => if u = t then [.started id] else []
  | .run (.finish v) => (th.frames.head?.elim [] (Frame.stages .running t)).map fun _ => .returned id (.ok v)
  | .run (.panic payload) =>
    (th.frames.head?.elim [] (Frame.stages .running t)).map fun _ => .returned id (.error payload)
  | .publish u outcome => if u = t then [.published outcome] else []
  | .settle u _ => if u = t then [.settled] else []
  | .stop _ .close _ =>
    if Cell.waiting before ∧ ¬Cell.waiting after then
      [.taken none, .published (.error (.cancelled t)), .settled]
    else []
  | _ => []

namespace Scene

/-- What an act does to a task. -/
def events (t : TaskId) (turn : Turn (Scene σ) Act) : List Event :=
  match turn.act with
  | .step id _ => (turn.before.machine.threads[id]?).elim [] fun th =>
    th.events id t (turn.before.machine.cell? t) (turn.after.machine.cell? t)
  | .drop u => if u = t ∧ Cell.waiting (turn.before.machine.cell? t) then [.taken none] else []
  | .finishDrop place =>
    (turn.before.drops[place]?).elim [] fun d =>
      (d.stages t).map fun _ => if d.written then .settled else .published (.error (.cancelled t))

end Scene

variable {t : TaskId} {c : Option (Cell β)} {es : List Event} {hand : Option Hand} {who : Option ThreadId}

theorem Hand.of_eq_cons {stage : Stage} {rest : List Stage} (h : Hand.of hand who = stage :: rest) :
    hand = some (who, stage) ∧ rest = [] := by
  cases hand with
  | none => cases h
  | some hand =>
    obtain ⟨owner, found⟩ := hand
    simp only [Hand.of] at h
    split at h
    · cases h
      simp_all
    · cases h

/-! ## What may happen to a task -/

namespace Life

variable {cell : Cell β} {id : ThreadId} {result : Except Payload Value} {outcome : Outcome}
  {completed : Bool} {body : β}

theorem hand_of_waiting (h : Life t (some cell) es hand) (hb : cell.body = some body) :
    es = [.spawned] ∧ hand = none ∧ cell = .spawned t cell.sticky cell.name body := by
  cases h <;> cases hb
  exact ⟨rfl, rfl, rfl⟩

/-- A task whose body was taken is in some hand until it is terminal. -/
theorem held (h : Life t (some cell) es hand) (hb : cell.body = none) (hlive : ¬cell.state.isTerminal) :
    ∃ owner stage, hand = some (owner, stage) := by
  cases h with
  | queued => cases hb
  | @finished _ _ _ result => exact absurd (by dsimp only; split <;> rfl) hlive
  | dropped => exact absurd rfl hlive
  | _ => exact ⟨_, _, rfl⟩

theorem id_eq (h : Life t (some cell) es hand) : cell.id = t := by
  cases h <;> rfl

theorem unseen (h : Life t (none : Option (Cell β)) es hand) : es = [] := by
  cases h
  rfl

theorem spawned_mem (h : Life t (some cell) es hand) : .spawned ∈ es := by
  cases h <;> exact List.mem_cons_self

theorem spawn (h : Life t (none : Option (Cell β)) es hand) (sticky : Bool) (name : Option String) (body : β) :
    Life t (some (.spawned t sticky name body)) (es ++ [.spawned]) none ∧ hand = none := by
  cases h
  exact ⟨.queued, rfl⟩

theorem take (h : Life t (some cell) es hand) (hb : cell.body = some body) (id : ThreadId) :
    Life t (some ({ cell with body := none } : Cell β)) (es ++ [.taken (some id)]) (some (some id, .taken)) ∧
      hand = none := by
  obtain ⟨rfl, rfl, hcell⟩ := h.hand_of_waiting hb
  rw [hcell]
  exact ⟨.taken, rfl⟩

theorem start (h : Life t (some cell) es (some (some id, .taken))) :
    cell.state = .created ∧ Life t (some { cell with state := .running }) (es ++ [.started id])
      (some (some id, .running)) := by
  cases h
  exact ⟨rfl, .running⟩

theorem «return» (h : Life t c es (some (some id, .running))) (result : Except Payload Value) :
    Life t c (es ++ [.returned id result]) (some (some id, .returned result)) := by
  cases h
  exact .returned

theorem leave (h : Life t c es (some (some id, .returned result))) :
    Life t c es (some (some id, .publishing (outcomeOf t result))) := by
  cases h
  exact .left

theorem publish (h : Life t (some cell) es (some (who, .publishing outcome))) :
    Life t (some (cell.publish outcome)) (es ++ [.published outcome])
      (some (who, .settling outcome.isOk)) := by
  cases h
  · exact .published
  · exact .cancelled

theorem settle (h : Life t (some cell) es (some (who, .settling completed))) :
    cell.state.isTerminal = false ∧ Life t (some (cell.settled completed)) (es ++ [.settled]) none := by
  cases h
  · exact ⟨rfl, .finished⟩
  · exact ⟨rfl, .dropped⟩

theorem unfinished (h : Life t (some cell) es (some (some id, .running))) :
    cell.body = none ∧ cell.outcome = none := by
  cases h
  exact ⟨rfl, rfl⟩

theorem running_of_settling (h : Life t (some cell) es (some (some id, .settling completed))) :
    cell.state = .running := by
  cases h
  rfl

/-- A task that is over and was not dropped has the outcome of its body. -/
theorem returned_of_kept (h : Life t (some cell) es hand) (ht : cell.state.isTerminal) (hkept : .taken none ∉ es) :
    ∃ result, cell.outcome = some (outcomeOf t result) := by
  cases h with
  | finished => exact ⟨_, rfl⟩
  | dropped => exact absurd (by simp) hkept
  | _ => cases ht

theorem drop (h : Life t (some cell) es hand) (hb : cell.body = some body) :
    Life t (some ({ cell with body := none } : Cell β)) (es ++ [.taken none])
        (some (none, .publishing (.error (.cancelled t)))) ∧
      hand = none := by
  obtain ⟨rfl, rfl, hcell⟩ := h.hand_of_waiting hb
  rw [hcell]
  exact ⟨.dropping, rfl⟩

/-- A terminal task gives its outcome to whoever asks. -/
theorem give (h : Life t (some cell) es hand) (ht : cell.state.isTerminal) (kind : WaitKind) :
    ∃ outcome, cell.outcome = some outcome ∧ cell.give kind = .ok outcome := by
  cases h with
  | finished => cases kind <;> exact ⟨_, rfl, rfl⟩
  | dropped => cases kind <;> exact ⟨_, rfl, rfl⟩
  | _ => cases ht

end Life

end TaskSpace

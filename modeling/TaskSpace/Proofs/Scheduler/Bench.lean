import TaskSpace.Proofs.Machine.Trail
import TaskSpace.Proofs.Registry.Brackets
import TaskSpace.Proofs.Scheduler.Priority
import TaskSpace.Scheduler.Bench

/-!
# What is done on a bench

Whatever is done on the bench of a worker, the bodies that run have their brackets, no body runs twice, and the
entry of each task is queued or was found, and then is held, or was run or dropped. What is allowed on a bench
is possible, so none of the promises that could be broken ever is.
-/

namespace TaskSpace

open Machine (queued)

theorem TaskState.ne_created {state : TaskState} (h : state.isTerminal) : state ≠ .created := by
  rintro rfl
  cases h

theorem TaskState.ne_running {state : TaskState} (h : state.isTerminal) : state ≠ .running := by
  rintro rfl
  cases h

/-- A task that is not over can be completed. -/
theorem Cell.complete_ok {β : Type} (cell : Cell β) (h : cell.state.isTerminal = false) (outcome : Outcome) :
    ∃ cell', cell.complete outcome = .ok cell' ∧ cell'.id = cell.id ∧ cell'.body = cell.body ∧
      cell'.state.isTerminal := by
  have hstate : (cell.publish outcome).state.isTerminal = false := h
  refine ⟨{ cell.publish outcome with state := if outcome.isOk then .completed else .failed },
    by simp [Cell.complete, Cell.settle, hstate], rfl, rfl, ?_⟩
  dsimp only
  split <;> rfl

namespace Bench

variable {β : Type} {n : Nat} {s : Searcher n} {b b' : Bench β} {t u : TaskId} {q' : Queues} {batch : Nat}
  {cell cell' : Cell β} {act : Act β}

/-! ## What happened -/

/-- What happened on a bench: the tasks that came to be, the entries that were found, run and dropped, and
the bodies that began and ended. -/
structure Log where
  created : List TaskId
  found : List TaskId
  spent : List TaskId
  dropped : List TaskId
  begun : List TaskId
  ended : List TaskId

def created (turn : Turn (Bench β) (Act β)) : List TaskId :=
  match turn.act with
  | .spawn _ _ _ => [turn.before.tasks.length + 1]
  | _ => []

def found (s : Searcher n) (turn : Turn (Bench β) (Act β)) : List TaskId :=
  match turn.act with
  | .find batch | .next batch => ((turn.before.search s batch).map Prod.fst).toList
  | _ => []

/-- A task that is run by hand was held; a drain runs what it finds. -/
def spent (s : Searcher n) (turn : Turn (Bench β) (Act β)) : List TaskId :=
  match turn.act with
  | .run task => [task]
  | .next _ => found s turn
  | _ => []

def dropped (turn : Turn (Bench β) (Act β)) : List TaskId :=
  match turn.act with
  | .drop task => [task]
  | _ => []

/-- The tasks whose bodies run, innermost first. -/
def running (b : Bench β) : List TaskId := b.bodies.map Prod.fst

/-- The tasks whose bodies run after the turn and did not before. -/
def begun (turn : Turn (Bench β) (Act β)) : List TaskId :=
  turn.after.running.take (turn.after.running.length - turn.before.running.length)

def ended (turn : Turn (Bench β) (Act β)) : List TaskId :=
  turn.before.running.take (turn.before.running.length - turn.after.running.length)

/-- The count that a drain returns, if it is over after the turn. -/
def returned (turn : Turn (Bench β) (Act β)) : Option Nat :=
  if turn.after.draining = none then turn.before.draining else none

def logOf (s : Searcher n) (turns : List (Turn (Bench β) (Act β))) : Log where
  created := turns.flatMap created
  found := turns.flatMap (found s)
  spent := turns.flatMap (spent s)
  dropped := turns.flatMap dropped
  begun := turns.flatMap begun
  ended := turns.flatMap ended

/-- The log after one more turn. -/
def Log.next (s : Searcher n) (log : Log) (turn : Turn (Bench β) (Act β)) : Log where
  created := log.created ++ Bench.created turn
  found := log.found ++ Bench.found s turn
  spent := log.spent ++ Bench.spent s turn
  dropped := log.dropped ++ Bench.dropped turn
  begun := log.begun ++ Bench.begun turn
  ended := log.ended ++ Bench.ended turn

theorem logOf_concat (turns : List (Turn (Bench β) (Act β))) (turn : Turn (Bench β) (Act β)) :
    logOf s (turns ++ [turn]) = (logOf s turns).next s turn := by
  simp [logOf, Log.next]

theorem begun_same (turn : Turn (Bench β) (Act β)) (h : turn.after.running = turn.before.running) :
    begun turn = [] ∧ ended turn = [] := by
  simp [begun, ended, h]

theorem begun_push (turn : Turn (Bench β) (Act β)) (h : turn.after.running = t :: turn.before.running) :
    begun turn = [t] ∧ ended turn = [] := by
  simp [begun, ended, h]

theorem begun_pop (turn : Turn (Bench β) (Act β)) (h : turn.before.running = t :: turn.after.running) :
    begun turn = [] ∧ ended turn = [t] := by
  simp [begun, ended, h]

/-! ## Cells -/

theorem isSome_cell? : (b.cell? t).isSome ↔ t ∈ List.range' 1 b.tasks.length := by
  rw [List.mem_range'_1]
  cases t with
  | zero => simp [cell?]
  | succ place =>
    simp only [cell?, isSome_getElem?]
    omega

theorem cell?_setCell (hc : b.cell? t = some cell) (hid : cell'.id = t) (u : TaskId) :
    (b.setCell cell').cell? u = if u = t then some cell' else b.cell? u := by
  cases t with
  | zero => cases hc
  | succ place =>
    have hlt := (List.getElem?_eq_some_iff.1 hc).1
    cases u with
    | zero => rfl
    | succ other =>
      have hplace : cell'.id - 1 = place := by rw [hid]; rfl
      simp only [cell?, setCell, hplace]
      by_cases he : other = place
      · subst he
        simp [hlt]
      · rw [if_neg fun h => he (Nat.succ.inj h), List.getElem?_set_ne (Ne.symm he)]

/-- What holds of the new cell, and of all others, holds of every cell. -/
theorem forall_setCell {P : TaskId → Cell β → Prop} (hc : b.cell? t = some cell) (cell' : Cell β)
    (hid : cell'.id = t) (hself : P t cell') (hothers : ∀ u found, u ≠ t → b.cell? u = some found → P u found) :
    ∀ u found, (b.setCell cell').cell? u = some found → P u found := by
  intro u found hu
  rw [cell?_setCell hc hid] at hu
  split at hu
  · rename_i he
    cases hu
    exact he ▸ hself
  · rename_i hne
    exact hothers u found hne hu

theorem isSome_setCell (b : Bench β) (cell : Cell β) (u : TaskId) :
    ((b.setCell cell).cell? u).isSome ↔ (b.cell? u).isSome := by
  rw [isSome_cell?, isSome_cell?, setCell, List.length_set]

theorem length_setCell (b : Bench β) (cell : Cell β) : (b.setCell cell).tasks.length = b.tasks.length :=
  List.length_set

theorem cell?_spawn (sticky : Bool) (target : Target) (body : β) (u : TaskId) :
    (b.spawn s sticky target body).cell? u =
      if u = b.tasks.length + 1 then some (.spawned u sticky none body) else b.cell? u := by
  cases u with
  | zero => rfl
  | succ place =>
    simp only [cell?, spawn, List.getElem?_append]
    rcases Nat.lt_trichotomy place b.tasks.length with hlt | rfl | hgt
    · have hne : ¬place + 1 = b.tasks.length + 1 := by omega
      rw [if_pos hlt, if_neg hne]
    · simp
    · have hne : ¬place + 1 = b.tasks.length + 1 := by omega
      have hge : ¬place < b.tasks.length := by omega
      have hpast : [Cell.spawned (b.tasks.length + 1) sticky none body][place - b.tasks.length]? = none :=
        List.getElem?_eq_none (Nat.sub_pos_of_lt hgt)
      rw [if_neg hge, if_neg hne, hpast, List.getElem?_eq_none (Nat.le_of_not_lt hge)]

/-! ## Bodies -/

section Parts

variable {begun ended dropped : List TaskId}

/-- A cell as it has to be: the body is there until it begins to run or the entry of the task is dropped. -/
structure Fits (running begun dropped : List TaskId) (t : TaskId) (cell : Cell β) : Prop where
  id : cell.id = t
  created : cell.state = .created ↔ cell.body.isSome
  running : cell.state = .running ↔ t ∈ running
  waiting : cell.body.isSome ↔ t ∉ begun ∧ t ∉ dropped

/-- A storage that has the holders of some bodies, and counted those that began and ended. -/
structure Serves (bodies : List (TaskId × Bracket)) (begun ended : List TaskId) (st : Storage) : Prop where
  stack : st.stack = bodies.map fun body => body.2.holder
  closed : st.closed = false
  owner : st.owner.getD thread = thread
  registered : st.counters.registered = begun.length
  deregistered : st.counters.deregistered = ended.length

/-- Bodies began at most once, and those that are not over run in their brackets. -/
structure Bodies (b : Bench β) (begun ended dropped : List TaskId) : Prop where
  open_ : begun.Perm (ended ++ b.running)
  once : begun.Nodup
  known : ∀ t, t ∈ begun ∨ t ∈ dropped → (b.cell? t).isSome
  cells : ∀ t cell, b.cell? t = some cell → Fits b.running begun dropped t cell
  roster : b.ledger.roster.Sound
  served : ∃ st, b.ledger.roster.storages[storage]? = some st ∧ Serves b.bodies begun ended st
  brackets : ∀ body ∈ b.bodies, body.2.storage = storage

/-- Queues and held entries do not change, no task comes to be, and no drain begins or gets further. -/
structure Settles (b b' : Bench β) : Prop where
  queues : b'.queues = b.queues
  tasks : b'.tasks.length = b.tasks.length
  held : b'.held = b.held
  draining : b'.draining = b.draining

/-- What comes to a task begins its body, or does nothing if that is gone. -/
theorem enter_cases (h : b.enter t = some b') :
    ∃ cell, b.cell? t = some cell ∧ (cell.body = none ∧ b' = b ∨
      ∃ body bracket, cell.body = some body ∧ b'.bodies = (t, bracket) :: b.bodies ∧ b.Settles b') := by
  obtain ⟨cell, hc, h⟩ := Option.bind_eq_some_iff.1 h
  refine ⟨cell, hc, ?_⟩
  simp only [Cell.take] at h
  split at h
  · rename_i hnone
    cases h
    exact .inl ⟨Option.map_eq_none_iff.1 hnone, rfl⟩
  · rename_i body taken hsome
    obtain ⟨body, hbody, -⟩ := Option.map_eq_some_iff.1 hsome
    split at h
    · cases h
      exact .inr ⟨body, _, hbody, rfl, rfl, length_setCell b _, rfl, rfl⟩
    · cases h

theorem enter_settles (h : b.enter t = some b') : b.Settles b' := by
  obtain ⟨cell, _, ⟨_, rfl⟩ | ⟨_, _, _, _, hsettles⟩⟩ := enter_cases h
  · exact ⟨rfl, rfl, rfl, rfl⟩
  · exact hsettles

theorem leave_frame {result : Except Payload Value} (h : b.leave result = some b') :
    b.Settles b' ∧ b'.bodies = b.bodies.tail := by
  obtain ⟨⟨t, bracket⟩, _, h⟩ := Option.bind_eq_some_iff.1 h
  obtain ⟨cell, _, h⟩ := Option.bind_eq_some_iff.1 h
  dsimp only at h
  split at h
  · cases h
    exact ⟨⟨rfl, length_setCell b _, rfl, rfl⟩, rfl⟩
  · cases h

theorem discard_frame (h : b.discard t = some b') : b.Settles b' ∧ b'.bodies = b.bodies := by
  obtain ⟨cell, _, h⟩ := Option.bind_eq_some_iff.1 h
  split at h
  · cases h
    exact ⟨⟨rfl, length_setCell b _, rfl, rfl⟩, rfl⟩
  · cases h

theorem Bodies.congr (h : b.Bodies begun ended dropped) (ht : b'.tasks = b.tasks) (hb : b'.bodies = b.bodies)
    (hl : b'.ledger = b.ledger) : b'.Bodies begun ended dropped := by
  have hcell : b'.cell? = b.cell? := by
    funext t
    cases t <;> simp only [cell?, ht]
  have hrunning : b'.running = b.running := by simp only [running, hb]
  exact ⟨hrunning ▸ h.open_, h.once, hcell ▸ h.known, hcell ▸ hrunning ▸ h.cells, hl ▸ h.roster,
    hl ▸ hb ▸ h.served, hb ▸ h.brackets⟩

theorem Bodies.spawn (h : b.Bodies begun ended dropped) (sticky : Bool) (target : Target) (body : β) :
    (b.spawn s sticky target body).Bodies begun ended dropped := by
  refine ⟨h.open_, h.once, fun t ht => ?_, fun t cell hc => ?_, h.roster, h.served, h.brackets⟩
  · rw [cell?_spawn]
    split
    · rfl
    · exact h.known t ht
  · rw [cell?_spawn] at hc
    split at hc
    · rename_i he
      cases hc
      -- nothing has happened to a task that is new
      have hnew : ¬(b.cell? t).isSome := by simp [he, isSome_cell?, List.mem_range'_1, Nat.add_comm]
      have hrunning : t ∉ (b.spawn s sticky target body).running := fun hin =>
        hnew (h.known t (.inl (h.open_.mem_iff.2 (List.mem_append_right _ hin))))
      refine ⟨rfl, by simp [Cell.spawned], ?_, ?_⟩
      · simpa [Cell.spawned] using hrunning
      · simp only [Cell.spawned, Option.isSome_some, true_iff]
        exact ⟨fun hin => hnew (h.known t (.inl hin)), fun hin => hnew (h.known t (.inr hin))⟩
    · exact h.cells t cell hc

/-- A joiner or a queue entry comes to a task: either its body is gone and nothing happens, or the body
begins. -/
theorem Bodies.enter (h : b.Bodies begun ended dropped) (hc : (b.cell? t).isSome) :
    ∃ b', b.enter t = some b' ∧ ((t ∈ begun ∨ t ∈ dropped) ∧ b' = b ∨
      b'.running = t :: b.running ∧ b'.Bodies (begun ++ [t]) ended dropped) := by
  obtain ⟨cell, hc⟩ := Option.isSome_iff_exists.1 hc
  have hfits := h.cells t cell hc
  cases hbody : cell.body with
  | none =>
    have hgone : t ∈ begun ∨ t ∈ dropped := by
      have hnone : ¬cell.body.isSome := by simp [hbody]
      rw [hfits.waiting, not_and_or, not_not, not_not] at hnone
      exact hnone
    refine ⟨b, ?_, .inl ⟨hgone, rfl⟩⟩
    simp [Bench.enter, hc, Cell.take, hbody]
  | some body =>
    have hwaits : cell.body.isSome := by simp [hbody]
    obtain ⟨hnew, hkept⟩ := hfits.waiting.1 hwaits
    have hcreated := hfits.created.2 hwaits
    obtain ⟨st, hst, hserves⟩ := h.served
    obtain ⟨roster, hopen, hopened⟩ := Ledger.openBracket_ok h.roster hst hserves.owner hserves.closed (some t)
      (b.bodies.head?.map fun body => body.2.holder)
    have hstart : ({ cell with body := none } : Cell β).start =
        .ok { cell with body := none, state := .running } := by
      simp [Cell.start, hcreated]
    have henter : b.enter t = some { b.setCell { cell with body := none, state := .running } with
        ledger := { b.ledger with roster }
        bodies := (t, ⟨storage, b.ledger.roster.holders.length + 1,
          b.bodies.head?.map fun body => body.2.holder⟩) :: b.bodies } := by
      simp only [Bench.enter, hc, Cell.take, hbody, hstart, hopen, Option.map_some, Option.bind_eq_bind,
        Option.bind_some, Option.pure_def]
    refine ⟨_, henter, .inr ⟨rfl, ?_⟩⟩
    obtain ⟨st', hst', hre⟩ := hopened.storage st hst
    obtain ⟨hregistered, hderegistered⟩ := hopened.counted st st' hst hst'
    refine ⟨?_, ?_, fun u hu => (isSome_setCell b _ u).2 ?_, ?_, hopened.sound, ⟨st', hst', ?_⟩, ?_⟩
    · exact (List.perm_append_singleton t begun).trans ((h.open_.cons t).trans List.perm_middle.symm)
    · exact (List.perm_append_singleton t begun).nodup_iff.2 (List.nodup_cons.2 ⟨hnew, h.once⟩)
    · rcases hu with hu | hu
      · rcases List.mem_append.1 hu with hu | hu
        · exact h.known u (.inl hu)
        · rw [List.mem_singleton.1 hu, hc]
          rfl
      · exact h.known u (.inr hu)
    · refine forall_setCell hc { cell with body := none, state := .running } hfits.id
        ⟨hfits.id, by simp, by simp [running], by simp⟩ fun u found hne hu => ?_
      have hfits := h.cells u found hu
      refine ⟨hfits.id, hfits.created, ?_, ?_⟩
      · simpa [running, hne] using hfits.running
      · simpa [hne] using hfits.waiting
    · refine ⟨?_, hre.closed.trans hserves.closed, by rw [hre.owner]; rfl, ?_, ?_⟩
      · rw [hre.stack, hserves.stack, List.map_cons]
      · rw [hregistered, hserves.registered, List.length_append, List.length_singleton]
      · rw [hderegistered, hserves.deregistered]
    · rintro body (_ | ⟨_, hin⟩)
      · rfl
      · exact h.brackets body hin

/-- The innermost body ends, whether it returns or panics. -/
theorem Bodies.leave (h : b.Bodies begun ended dropped) {bracket : Bracket} {below : List (TaskId × Bracket)}
    (hb : b.bodies = (t, bracket) :: below) (result : Except Payload Value) :
    ∃ b', b.leave result = some b' ∧ b'.bodies = below ∧ b'.Bodies begun (ended ++ [t]) dropped := by
  have hrunning : b.running = t :: below.map Prod.fst := by rw [running, hb, List.map_cons]
  have hbegun : t ∈ begun := h.open_.mem_iff.2 (List.mem_append_right _ (hrunning ▸ List.mem_cons_self))
  have honce := h.open_.nodup_iff.1 h.once
  rw [hrunning] at honce
  have hbelow : t ∉ below.map Prod.fst := (List.nodup_cons.1 (List.nodup_append.1 honce).2.1).1
  obtain ⟨cell, hc⟩ := Option.isSome_iff_exists.1 (h.known t (.inl hbegun))
  have hfits := h.cells t cell hc
  have hruns := hfits.running.2 (hrunning ▸ List.mem_cons_self)
  have hgone : ¬cell.body.isSome := fun hbody => (hfits.waiting.1 hbody).1 hbegun
  obtain ⟨cell', hcomplete, hid, hbody, hterminal⟩ := cell.complete_ok (by rw [hruns]; rfl)
    (result.mapError fun payload => .panicked t payload)
  obtain ⟨st, hst, hserves⟩ := h.served
  have hstorage := h.brackets (t, bracket) (hb ▸ List.mem_cons_self)
  obtain ⟨g, roster, _, hclose, hclosed⟩ := Ledger.closeBracket_ok h.roster (hstorage.symm ▸ hst) hserves.owner
    (by rw [hserves.stack, hb, List.map_cons])
  have hleave : b.leave result = some { b.setCell cell' with
      ledger := { b.ledger with roster }.release st.space g.handles, bodies := below } := by
    simp only [Bench.leave, hb, hc, hclose, hcomplete, List.head?_cons, List.tail_cons, Option.bind_eq_bind,
      Option.bind_some, Option.pure_def]
  obtain ⟨st', hst', hre⟩ := hclosed.storage st (hstorage.symm ▸ hst)
  obtain ⟨hregistered, hderegistered⟩ := hclosed.counted st st' (hstorage.symm ▸ hst) hst'
  refine ⟨_, hleave, rfl, ?_, h.once,
    fun u hu => (isSome_setCell b _ u).2 (h.known u hu), ?_, hclosed.sound, ⟨st', hstorage ▸ hst', ?_⟩,
    fun body hin => h.brackets body (hb ▸ List.mem_cons_of_mem _ hin)⟩
  · rw [List.append_assoc, List.singleton_append]
    exact hrunning ▸ h.open_
  · refine forall_setCell hc cell' (hid.trans hfits.id) ⟨hid.trans hfits.id, ?_, ?_, ?_⟩ fun u found hne hu => ?_
    · exact iff_of_false (TaskState.ne_created hterminal) (hbody ▸ hgone)
    · exact iff_of_false (TaskState.ne_running hterminal) hbelow
    · rw [hbody]
      exact hfits.waiting
    · have hfits := h.cells u found hu
      refine ⟨hfits.id, hfits.created, ?_, hfits.waiting⟩
      rw [hfits.running, hrunning, List.mem_cons]
      exact or_iff_right hne
  · refine ⟨hre.stack, hre.closed.trans hserves.closed, by rw [hre.owner]; rfl, ?_, ?_⟩
    · rw [hregistered, hserves.registered]
    · rw [hderegistered, hserves.deregistered, List.length_append, List.length_singleton]

/-- The entry of a task is dropped. A body that is still there never runs. -/
theorem Bodies.discard (h : b.Bodies begun ended dropped) (hc : (b.cell? t).isSome) :
    ∃ b', b.discard t = some b' ∧ b'.bodies = b.bodies ∧ b'.Bodies begun ended (dropped ++ [t]) := by
  obtain ⟨cell, hc⟩ := Option.isSome_iff_exists.1 hc
  have hfits := h.cells t cell hc
  -- whether the body was there or not, it is not there any more, and the task runs if it ran
  obtain ⟨cell', hcancel, hid, hbody, hcreated, hruns⟩ : ∃ cell', cell.cancel = .ok cell' ∧ cell'.id = cell.id ∧
      cell'.body = none ∧ cell'.state ≠ .created ∧ (cell'.state = .running ↔ cell.state = .running) := by
    cases hbody : cell.body with
    | none =>
      refine ⟨cell, by simp [Cell.cancel, Cell.take, hbody], rfl, hbody, fun he => ?_, Iff.rfl⟩
      simpa [hbody] using hfits.created.1 he
    | some body =>
      have hstate := hfits.created.2 (by rw [hbody]; rfl)
      obtain ⟨cell', hcomplete, hid, hgone, hterminal⟩ := ({ cell with body := none } : Cell β).complete_ok
        (by simp [hstate, TaskState.isTerminal]) (.error (.cancelled cell.id))
      refine ⟨cell', by simpa [Cell.cancel, Cell.take, hbody] using hcomplete, hid, hgone, (TaskState.ne_created hterminal),
        iff_of_false (TaskState.ne_running hterminal) ?_⟩
      rw [hstate]
      decide
  have hdiscard : b.discard t = some (b.setCell cell') := by
    simp only [Bench.discard, hc, hcancel, Option.bind_eq_bind, Option.bind_some, Option.pure_def]
  refine ⟨_, hdiscard, rfl, h.open_, h.once,
    fun u hu => (isSome_setCell b _ u).2 ?_, ?_, h.roster, h.served, h.brackets⟩
  · rcases hu with hu | hu
    · exact h.known u (.inl hu)
    · rcases List.mem_append.1 hu with hu | hu
      · exact h.known u (.inr hu)
      · rw [List.mem_singleton.1 hu, hc]
        rfl
  · refine forall_setCell hc cell' (hid.trans hfits.id) ⟨hid.trans hfits.id, ?_, hruns.trans hfits.running, ?_⟩
      fun u found hne hu => ?_
    · exact iff_of_false hcreated (by simp [hbody])
    · simp [hbody]
    · have hfits := h.cells u found hu
      exact ⟨hfits.id, hfits.created, hfits.running, by simpa [hne] using hfits.waiting⟩

/-! ## Entries -/

variable {created found spent : List TaskId}

/-- Each task has one entry. It is queued until it is found, and then it is held until it is run or dropped. -/
structure Entries (s : Searcher n) (b : Bench β) (created found spent dropped : List TaskId) : Prop where
  lanes : b.queues.lanes.length = n
  pinned : ∀ v, v ≠ s.worker → (b.queues.lane v).pinned = []
  tasks : created = List.range' 1 b.tasks.length
  known : created.Perm (queued b.queues ++ found)
  held : found.Perm (b.held ++ spent ++ dropped)

theorem Entries.congr (h : b.Entries s created found spent dropped) (hq : b'.queues = b.queues)
    (ht : b'.tasks.length = b.tasks.length) (hh : b'.held = b.held) : b'.Entries s created found spent dropped :=
  ⟨hq ▸ h.lanes, hq ▸ h.pinned, ht ▸ h.tasks, hq ▸ h.known, hh ▸ h.held⟩

theorem Entries.settle (h : b.Entries s created found spent dropped) (hs : b.Settles b') :
    b'.Entries s created found spent dropped :=
  h.congr hs.queues hs.tasks hs.held

theorem Entries.isSome (h : b.Entries s created found spent dropped) : (b.cell? t).isSome ↔ t ∈ created := by
  rw [isSome_cell?, h.tasks]

theorem Entries.nodup (h : b.Entries s created found spent dropped) : created.Nodup := by
  rw [h.tasks]
  exact List.nodup_range'

theorem Entries.nodup_found (h : b.Entries s created found spent dropped) : found.Nodup :=
  (List.nodup_append.1 (h.known.nodup_iff.1 h.nodup)).2.1

/-- A held entry is that of a task, and was neither run nor dropped. -/
theorem Entries.of_held (h : b.Entries s created found spent dropped) (ht : t ∈ b.held) :
    t ∈ created ∧ t ∉ spent ∧ t ∉ dropped := by
  have hin : t ∈ found := h.held.mem_iff.2 (List.mem_append_left _ (List.mem_append_left _ ht))
  have honce := h.held.nodup_iff.1 h.nodup_found
  obtain ⟨hleft, _, hdropped⟩ := List.nodup_append.1 honce
  exact ⟨h.known.mem_iff.2 (List.mem_append_right _ hin),
    fun hs => (List.nodup_append.1 hleft).2.2 t ht t hs rfl,
    fun hd => hdropped t (List.mem_append_left _ ht) t hd rfl⟩

/-- An entry that is found is that of a task, and was not found before. -/
theorem Entries.of_search (h : b.Entries s created found spent dropped)
    (hs : b.queues.search s batch = some (t, q')) : t ∈ created ∧ t ∉ found := by
  have hyields := (Queues.search_takes hs).yields (h.lanes.symm ▸ s.known)
  have hin : t ∈ queued b.queues := hyields.perm.mem_iff.2 List.mem_cons_self
  exact ⟨h.known.mem_iff.2 (List.mem_append_left _ hin),
    fun hf => (List.nodup_append.1 (h.known.nodup_iff.1 h.nodup)).2.2 t hin t hf rfl⟩

/-- A new task is queued, and pinned at most with the worker itself. -/
theorem exists_grows (hl : b.queues.lanes.length = n) {sticky : Bool} {target : Target} {body : β}
    (ha : b.Allows s (.spawn sticky target body)) :
    ∃ w, b.queues.Grows w (b.tasks.length + 1) (b.spawn s sticky target body).queues ∧
      ∀ v, v ≠ s.worker → ((b.spawn s sticky target body).queues.lane v).pinned = (b.queues.lane v).pinned := by
  cases target with
  | worker =>
    have hgrows := Queues.add_grows (hl.symm ▸ s.known : s.worker < b.queues.lanes.length) sticky (b.tasks.length + 1)
    exact ⟨_, hgrows, fun v hv =>
      congrArg Lane.pinned (hgrows.others v fun he => hv (Option.some.inj he).symm)⟩
  | injector => exact ⟨_, Queues.inject_grows _ _, fun _ _ => rfl⟩
  | other u =>
    have hu : u < b.queues.lanes.length := hl.symm ▸ ha.1
    refine ⟨_, Queues.add_grows hu false _, fun v _ => ?_⟩
    simp only [Bench.spawn, queue, Queues.add, Queues.lane_setLane hu]
    split
    · rename_i he
      rw [he]
      rfl
    · rfl

theorem Entries.spawn (h : b.Entries s created found spent dropped) {sticky : Bool} {target : Target} {body : β}
    (ha : b.Allows s (.spawn sticky target body)) :
    (b.spawn s sticky target body).Entries s (created ++ [b.tasks.length + 1]) found spent dropped := by
  obtain ⟨w, hgrows, hpinned⟩ := exists_grows h.lanes ha
  refine ⟨hgrows.lanes.trans h.lanes, fun v hv => (hpinned v hv).trans (h.pinned v hv), ?_, ?_, h.held⟩
  · rw [h.tasks, Bench.spawn, List.length_append, List.length_singleton, List.range'_concat, Nat.one_mul, Nat.add_comm 1]
  · refine (List.perm_append_singleton _ _).trans ((h.known.cons _).trans ?_)
    exact hgrows.perm.symm.append_right found

/-- What is found is held, or run at once. -/
theorem Entries.search (h : b.Entries s created found spent dropped)
    (hs : b.queues.search s batch = some (t, q')) (held spent' : List TaskId)
    (hheld : (held ++ spent').Perm (t :: (b.held ++ spent))) :
    ({ b with queues := q', held } : Bench β).Entries s created (found ++ [t]) spent' dropped := by
  have htakes := Queues.search_takes hs
  have hyields := htakes.yields (h.lanes.symm ▸ s.known)
  refine ⟨hyields.lanes.trans h.lanes, fun v hv => (htakes.pinned_eq hv).trans (h.pinned v hv), h.tasks, ?_, ?_⟩
  · refine h.known.trans ((hyields.perm.append_right found).trans ?_)
    rw [← List.append_assoc]
    exact (List.perm_append_singleton t _).symm
  · refine (List.perm_append_singleton t found).trans ((h.held.cons t).trans ?_)
    exact (hheld.append_right dropped).symm

/-- What was held is run or dropped. -/
theorem Entries.erase (h : b.Entries s created found spent dropped) (ht : t ∈ b.held)
    (spent' dropped' : List TaskId) (hgone : (spent' ++ dropped').Perm (t :: (spent ++ dropped))) :
    ({ b with held := b.held.erase t } : Bench β).Entries s created found spent' dropped' := by
  refine ⟨h.lanes, h.pinned, h.tasks, h.known, h.held.trans ?_⟩
  rw [List.append_assoc, List.append_assoc]
  refine ((List.perm_cons_erase ht).append_right _).trans ?_
  exact List.perm_middle.symm.trans (hgone.symm.append_left _)

/-! ## A step -/

/-- Whatever was done on a bench, its entries and bodies are accounted for, and every entry that was run had its
body run. -/
structure Conserved (s : Searcher n) (b : Bench β) (log : Log) : Prop where
  entries : b.Entries s log.created log.found log.spent log.dropped
  bodies : b.Bodies log.begun log.ended log.dropped
  ran : ∀ t ∈ log.spent, t ∈ log.begun

variable {log : Log}

/-- A joiner or a queue entry comes to a task. An entry that is run was not dropped. -/
theorem Bodies.conserved (h : b.Bodies begun ended dropped) (he : b.Entries s created found spent dropped)
    (ht : t ∈ created) (hran : ∀ u ∈ spent, u ∈ begun ∨ u = t ∧ t ∉ dropped) :
    ∃ b', b.enter t = some b' ∧ ∀ turn : Turn (Bench β) (Act β), turn.before.running = b.running →
      turn.after = b' →
      Conserved s b' ⟨created, found, spent, dropped, begun ++ Bench.begun turn, ended ++ Bench.ended turn⟩ := by
  obtain ⟨b', henter, ⟨hgone, rfl⟩ | ⟨hpush, hb⟩⟩ := h.enter (he.isSome.2 ht)
  · refine ⟨_, henter, fun turn hbefore hafter => ?_⟩
    have hsame : turn.after.running = turn.before.running := by rw [hbefore, hafter]
    obtain ⟨hbegun, hended⟩ := begun_same _ hsame
    rw [hbegun, hended, List.append_nil, List.append_nil]
    refine ⟨he, h, fun u hu => (hran u hu).elim id ?_⟩
    rintro ⟨rfl, hkept⟩
    exact hgone.resolve_right hkept
  · refine ⟨b', henter, fun turn hbefore hafter => ?_⟩
    have hgrown : turn.after.running = t :: turn.before.running := by rw [hbefore, hafter, hpush]
    obtain ⟨hbegun, hended⟩ := begun_push _ hgrown
    rw [hbegun, hended, List.append_nil]
    refine ⟨he.settle (enter_settles henter), hb, fun u hu => (hran u hu).elim (List.mem_append_left _) ?_⟩
    rintro ⟨rfl, _⟩
    exact List.mem_append_right _ List.mem_cons_self

end Parts

variable {log : Log}

namespace Conserved

/-- A turn that leaves the same bodies running adds no body to the log. -/
theorem of_quiet {turn : Turn (Bench β) (Act β)} (hsame : turn.after.running = turn.before.running)
    (h : Conserved s b' ⟨log.created ++ created turn, log.found ++ found s turn, log.spent ++ spent s turn,
      log.dropped ++ dropped turn, log.begun, log.ended⟩) : Conserved s b' (log.next s turn) := by
  obtain ⟨hbegun, hended⟩ := begun_same _ hsame
  simpa only [Log.next, hbegun, hended, List.append_nil] using h

theorem spawn (h : Conserved s b log) {sticky : Bool} {target : Target} {body : β}
    (ha : b.Allows s (.spawn sticky target body)) : Conserved s (b.spawn s sticky target body)
      (log.next s ⟨b, .spawn sticky target body, b.spawn s sticky target body⟩) := by
  refine of_quiet rfl ?_
  simp only [created, found, Bench.spent, Bench.dropped, List.append_nil]
  exact ⟨h.entries.spawn ha, h.bodies.spawn sticky target body, h.ran⟩

theorem find (h : Conserved s b log) (batch : Nat) :
    ∃ b', b.perform s (.find batch) = some b' ∧ Conserved s b' (log.next s ⟨b, .find batch, b'⟩) := by
  cases hs : b.queues.search s batch with
  | none =>
    refine ⟨b, by simp [perform, search, hs], ?_⟩
    refine of_quiet rfl ?_
    simpa [created, found, spent, dropped, search, hs] using h
  | some pair =>
    obtain ⟨t, q'⟩ := pair
    have hheld : (b.held ++ [t] ++ log.spent).Perm (t :: (b.held ++ log.spent)) := by
      rw [List.append_assoc]
      exact List.perm_middle
    refine ⟨{ b with queues := q', held := b.held ++ [t] }, by simp [perform, search, hs], ?_⟩
    refine of_quiet rfl ?_
    simp only [created, found, spent, dropped, search, hs, List.append_nil, Option.map_some, Option.toList_some]
    exact ⟨h.entries.search hs _ _ hheld, h.bodies.congr rfl rfl rfl, h.ran⟩

theorem run (h : Conserved s b log) (ht : t ∈ b.held) :
    ∃ b', b.perform s (.run t) = some b' ∧ Conserved s b' (log.next s ⟨b, .run t, b'⟩) := by
  obtain ⟨hknown, _, hkept⟩ := h.entries.of_held ht
  have hgone : (log.spent ++ [t] ++ log.dropped).Perm (t :: (log.spent ++ log.dropped)) := by
    rw [List.append_assoc]
    exact List.perm_middle
  have hbodies : ({ b with held := b.held.erase t } : Bench β).Bodies log.begun log.ended log.dropped :=
    h.bodies.congr rfl rfl rfl
  have hran : ∀ u ∈ log.spent ++ [t], u ∈ log.begun ∨ u = t ∧ t ∉ log.dropped := by
    intro u hu
    rcases List.mem_append.1 hu with hu | hu
    · exact .inl (h.ran u hu)
    · exact .inr ⟨List.mem_singleton.1 hu, hkept⟩
  obtain ⟨b', henter, hb'⟩ := hbodies.conserved (h.entries.erase ht _ _ hgone) hknown hran
  refine ⟨b', henter, ?_⟩
  simpa only [Log.next, created, found, spent, dropped, List.append_nil] using hb' ⟨b, .run t, b'⟩ rfl rfl

theorem drop (h : Conserved s b log) (ht : t ∈ b.held) :
    ∃ b', b.perform s (.drop t) = some b' ∧ Conserved s b' (log.next s ⟨b, .drop t, b'⟩) := by
  obtain ⟨hknown, _, _⟩ := h.entries.of_held ht
  have hgone : (log.spent ++ (log.dropped ++ [t])).Perm (t :: (log.spent ++ log.dropped)) := by
    rw [← List.append_assoc]
    exact List.perm_append_singleton t _
  have hbodies : ({ b with held := b.held.erase t } : Bench β).Bodies log.begun log.ended log.dropped :=
    h.bodies.congr rfl rfl rfl
  obtain ⟨b', hdiscard, hsame, hb'⟩ := hbodies.discard (h.entries.isSome.2 hknown)
  refine ⟨b', hdiscard, ?_⟩
  refine of_quiet (congrArg (List.map Prod.fst) hsame) ?_
  simp only [created, found, spent, dropped, List.append_nil]
  exact ⟨(h.entries.erase ht _ _ hgone).settle (discard_frame hdiscard).1, hb', h.ran⟩

theorem join (h : Conserved s b log) (ht : (b.cell? t).isSome) :
    ∃ b', b.perform s (.join t) = some b' ∧ Conserved s b' (log.next s ⟨b, .join t, b'⟩) := by
  simp only [perform]
  split
  · refine ⟨b, rfl, ?_⟩
    refine of_quiet rfl ?_
    simpa only [created, found, spent, dropped, List.append_nil] using h
  · obtain ⟨b', henter, hb'⟩ := h.bodies.conserved h.entries (h.entries.isSome.1 ht) fun u hu => .inl (h.ran u hu)
    refine ⟨b', henter, ?_⟩
    simpa only [Log.next, created, found, spent, dropped, List.append_nil] using hb' ⟨b, .join t, b'⟩ rfl rfl

theorem redrain (h : Conserved s b log) (draining : Option Nat) : Conserved s { b with draining } log :=
  ⟨h.entries.congr rfl rfl rfl, h.bodies.congr rfl rfl rfl, h.ran⟩

theorem drain (h : Conserved s b log) : ∃ b', b.perform s .drain = some b' ∧
    Conserved s b' (log.next s ⟨b, .drain, b'⟩) := by
  refine ⟨_, rfl, ?_⟩
  refine of_quiet rfl ?_
  simpa only [created, found, spent, dropped, List.append_nil] using h.redrain (some 0)

/-- What a drain finds is run at once. -/
theorem next (h : Conserved s b log) (batch : Nat) :
    ∃ b', b.perform s (.next batch) = some b' ∧ Conserved s b' (log.next s ⟨b, .next batch, b'⟩) := by
  cases hs : b.queues.search s batch with
  | none =>
    refine ⟨{ b with draining := none }, by simp [perform, search, hs], ?_⟩
    refine of_quiet rfl ?_
    simpa [created, found, spent, dropped, search, hs] using h.redrain none
  | some pair =>
    obtain ⟨t, q'⟩ := pair
    obtain ⟨hknown, hnew⟩ := h.entries.of_search hs
    have hkept : t ∉ log.dropped := fun hin => hnew (h.entries.held.mem_iff.2 (List.mem_append_right _ hin))
    have hheld : (b.held ++ (log.spent ++ [t])).Perm (t :: (b.held ++ log.spent)) := by
      rw [← List.append_assoc]
      exact List.perm_append_singleton t _
    have hentries : ({ b with queues := q', draining := b.draining.map (· + 1) } : Bench β).Entries s log.created
        (log.found ++ [t]) (log.spent ++ [t]) log.dropped := (h.entries.search hs _ _ hheld).congr rfl rfl rfl
    have hbodies : ({ b with queues := q', draining := b.draining.map (· + 1) } : Bench β).Bodies log.begun
        log.ended log.dropped := h.bodies.congr rfl rfl rfl
    have hran : ∀ u ∈ log.spent ++ [t], u ∈ log.begun ∨ u = t ∧ t ∉ log.dropped := by
      intro u hu
      rcases List.mem_append.1 hu with hu | hu
      · exact .inl (h.ran u hu)
      · exact .inr ⟨List.mem_singleton.1 hu, hkept⟩
    obtain ⟨b', henter, hb'⟩ := hbodies.conserved hentries hknown hran
    refine ⟨b', by simpa [perform, search, hs] using henter, ?_⟩
    simpa [Log.next, created, found, spent, dropped, search, hs] using hb' ⟨b, .next batch, b'⟩ rfl rfl

theorem finish (h : Conserved s b log) (hb : b.bodies ≠ []) (result : Except Payload Value) :
    ∃ b', b.perform s (.finish result) = some b' ∧ Conserved s b' (log.next s ⟨b, .finish result, b'⟩) := by
  obtain ⟨⟨t, bracket⟩, below, hb⟩ := List.exists_cons_of_ne_nil hb
  obtain ⟨b', hleave, hbelow, hb'⟩ := h.bodies.leave hb result
  have hpop : b.running = t :: b'.running := by simp only [running, hb, hbelow, List.map_cons]
  obtain ⟨hbegun, hended⟩ := begun_pop ⟨b, .finish result, b'⟩ hpop
  refine ⟨b', hleave, ?_⟩
  simp only [Log.next, created, found, spent, dropped, hbegun, hended, List.append_nil]
  exact ⟨h.entries.settle (leave_frame hleave).1, hb', h.ran⟩

/-- Whatever is allowed is possible, and what was accounted for still is. -/
theorem step (h : Conserved s b log) (ha : b.Allows s act) :
    ∃ b', b.step s act = some b' ∧ Conserved s b' (log.next s ⟨b, act, b'⟩) := by
  rw [Bench.step, if_pos ha]
  cases act with
  | spawn sticky target body => exact ⟨_, rfl, h.spawn ha⟩
  | find batch => exact h.find batch
  | run t => exact h.run ha.2
  | drop t => exact h.drop ha.2
  | join t =>
    obtain ⟨hknown, _⟩ := (Option.any_eq_true_iff_get _ _).1 ha.2
    exact h.join hknown
  | drain => exact h.drain
  | next batch => exact h.next batch
  | finish result => exact h.finish ha result

end Conserved

end Bench

end TaskSpace

import TaskSpace.Proofs.Machine.Lives

/-!
# Every step accounts for the tasks

What is seen of the tasks up to some point of a run tells where each of them is: which cell it has, and
in whose hands it is. A step of a thread keeps this up, and so do the parts of a drop.
-/

namespace TaskSpace

variable {σ : Type}

/-- The events of each task are those of a life, and who has a task is who should have it. -/
structure Scene.Accounted (s : Scene σ) (es : TaskId → List Event) : Prop where
  life : ∀ t, ∃ hand, Life t (s.machine.cell? t) (es t) hand ∧
    (s.machine.crash = none → ∀ who, s.stages t who = Hand.of hand who)
  paired : ∀ (id : ThreadId) (th : Thread σ), s.machine.threads[id]? = some th → th.Paired
  unbroken : ∀ violation, s.machine.crash ≠ some (.task violation)

namespace Cell

/-- The cell of a task whose queue entry was dropped. -/
def dropped {β : Type} (t : TaskId) (sticky : Bool) (name : Option String) : Cell β :=
  { id := t, sticky, name, body := none, state := .failed, outcome := some (.error (.cancelled t)), held := false }

end Cell

namespace Machine

variable {m : Machine σ} {t : TaskId}

/-- A task whose body waits to be taken is as it was spawned. -/
def Fresh (m : Machine σ) : Prop :=
  ∀ t cell, m.cell? t = some cell → cell.id = t ∧
    ∀ body, cell.body = some body → cell = .spawned t cell.sticky cell.name body

theorem cancel_spawned (sticky : Bool) (name : Option String) (body : Body σ) :
    (Cell.spawned t sticky name body).cancel = .ok (.dropped t sticky name) := rfl

theorem cancel_of_none {cell : Cell (Body σ)} (h : cell.body = none) : cell.cancel = .ok cell := by
  simp [Cell.cancel, Cell.take, h]

/-- Dropping entries cancels tasks that nobody took, and nothing else happens. -/
theorem dropQueues_cases (h : m.Fresh) (tasks : List TaskId) :
    (m.dropQueues tasks).crash = m.crash ∧ ∀ t, (m.dropQueues tasks).cell? t = m.cell? t ∨
      ∃ sticky name body, m.cell? t = some (.spawned t sticky name body) ∧
        (m.dropQueues tasks).cell? t = some (.dropped t sticky name) := by
  induction tasks generalizing m with
  | nil => exact ⟨rfl, fun t => .inl rfl⟩
  | cons u tasks ih =>
    unfold dropQueues
    cases hc : m.cell? u with
    | none => simpa using ih h
    | some cell =>
      cases hb : cell.body with
      | none =>
        have hset : (m.setCell cell).cell? = m.cell? := by
          funext t
          rw [cell?_setCell hc (h u cell hc).1]
          split
          · rename_i he
            rw [he, hc]
          · rfl
        simp only [Option.map_some, cancel_of_none hb]
        have hih := ih (m := m.setCell cell) (by unfold Fresh; rw [hset]; exact h)
        rw [hset] at hih
        exact hih
      | some body =>
        have he := (h u cell hc).2 body hb
        rw [he] at hc
        have hset : ∀ t, (m.setCell (.dropped u cell.sticky cell.name)).cell? t =
            if t = u then some (.dropped u cell.sticky cell.name) else m.cell? t :=
          cell?_setCell hc rfl
        rw [he]
        simp only [Option.map_some, cancel_spawned]
        obtain ⟨hcrash, hcells⟩ := ih (m := m.setCell (.dropped u cell.sticky cell.name))
          (fun t c hct => by
            rw [hset] at hct
            split at hct
            · rename_i heq
              cases hct
              exact ⟨heq.symm, fun _ hb => by cases hb⟩
            · exact h t c hct)
        refine ⟨hcrash, fun t => ?_⟩
        by_cases ht : t = u
        · subst ht
          refine .inr ⟨_, _, body, hc, ?_⟩
          rcases hcells t with hsame | ⟨_, _, _, hfound, _⟩
          · rw [hsame, hset, if_pos rfl]
          · rw [hset, if_pos rfl] at hfound
            cases hfound
        · have hkept := hcells t
          rwa [hset, if_neg ht] at hkept

end Machine
/-- A step that starts here does nothing to the task of a cell that it leaves alone. -/
def Control.aside : Control σ → Bool
  | .begin _ _ _ | .publish _ _ | .settle _ _ | .run (.finish _) | .run (.panic _) => false
  | _ => true

namespace Thread
variable {th : Thread σ} {id : ThreadId} {t : TaskId} {c : Option (Cell (Body σ))}

theorem events_same (h : th.control.aside) : th.events id t c c = [] := by
  unfold events
  split <;> rename_i hctl
  · cases c <;> simp
  · simp
  · simp
  · simp [hctl, Control.aside] at h
  · simp [hctl, Control.aside] at h
  · simp [hctl, Control.aside] at h
  · simp [hctl, Control.aside] at h
  · simp [hctl, Control.aside] at h
  · simp
  · rfl

end Thread

namespace Thread

variable {th th' x : Thread σ} {t : TaskId}

theorem stages_run {body : Body σ} (h : th.control = .run body) :
    th.stages t = th.frames.flatMap (Frame.stages .running t) := by
  simp [stages, h, Control.stages, Control.top]

theorem added_stages (h : Machine.Added th x) : x.stages t = [] := by
  rcases h with ⟨body, next, _, rfl⟩ | ⟨settings, space, next, runtime, worker, _, rfl⟩
  · rfl
  · rfl

theorem added_paired (h : Machine.Added th x) : x.Paired := by
  rcases h with ⟨body, next, _, rfl⟩ | ⟨settings, space, next, runtime, worker, _, rfl⟩
  · exact ⟨trivial, fun he => by cases he⟩
  · exact ⟨rfl, fun he => by cases he⟩

end Thread

namespace Life

variable {β : Type} {t : TaskId} {c c' : Option (Cell β)} {es es' : List Event} {hand : Option Hand}
  {who : Option ThreadId} {stage : Stage} {rest stages stages' : List Stage}

/-! What becomes of a task when `who` does something: nobody else gets it, or loses it. -/

theorem keep (hl : Life t c es hand) (hs : stages = Hand.of hand who) (hc : c' = c) (he : es' = es)
    (hst : stages' = stages) :
    ∃ hand', Life t c' es' hand' ∧ stages' = Hand.of hand' who ∧
      ∀ other, other ≠ who → Hand.of hand' other = Hand.of hand other := by
  subst hc he
  exact ⟨hand, hl, hst.trans hs, fun _ _ => rfl⟩

theorem advance (stage' : Stage) (hs : stages = Hand.of hand who) (hst : stages = stage :: rest)
    (hst' : stages' = stage' :: rest)
    (hl : hand = some (who, stage) → Life t c' es' (some (who, stage'))) :
    ∃ hand', Life t c' es' hand' ∧ stages' = Hand.of hand' who ∧
      ∀ other, other ≠ who → Hand.of hand' other = Hand.of hand other := by
  obtain ⟨rfl, rfl⟩ := Hand.of_eq_cons (hs.symm.trans hst)
  refine ⟨_, hl rfl, ?_, fun other hne => ?_⟩
  · simp [Hand.of, hst']
  · simp [Hand.of, hne.symm]

theorem finish (hs : stages = Hand.of hand who) (hst : stages = stage :: rest) (hst' : stages' = rest)
    (hl : hand = some (who, stage) → Life t c' es' none) :
    ∃ hand', Life t c' es' hand' ∧ stages' = Hand.of hand' who ∧
      ∀ other, other ≠ who → Hand.of hand' other = Hand.of hand other := by
  obtain ⟨rfl, rfl⟩ := Hand.of_eq_cons (hs.symm.trans hst)
  refine ⟨_, hl rfl, hst', fun other hne => ?_⟩
  simp [Hand.of, hne.symm]

theorem grasp (stage : Stage) (hs : stages = Hand.of none who) (hst : stages' = stage :: stages)
    (hl : Life t c' es' (some (who, stage))) :
    ∃ hand', Life t c' es' hand' ∧ stages' = Hand.of hand' who ∧
      ∀ other, other ≠ who → Hand.of hand' other = Hand.of none other := by
  refine ⟨_, hl, ?_, fun other hne => ?_⟩
  · simp [hst, hs, Hand.of]
  · simp [Hand.of, hne.symm]

end Life

namespace Scene

variable {s : Scene σ} {es : TaskId → List Event} {id : ThreadId} {th th' : Thread σ} {rest : Machine σ}
  {t : TaskId}

/-- A step of a thread is accounted for once it is known what becomes of each task, as far as the thread
has it. -/
theorem Accounted.turn (h : s.Accounted es) (hcrash : s.machine.crash = none)
    (hth : s.machine.threads[id]? = some th) (hm : s.machine.Move id th rest th')
    (hrest : rest.crash = none) (hpaired : th'.Paired) {es' : TaskId → List Event}
    (hlife : ∀ t hand, Life t (s.machine.cell? t) (es t) hand → th.stages t = Hand.of hand (some id) →
      ∃ hand', Life t (rest.cell? t) (es' t) hand' ∧ th'.stages t = Hand.of hand' (some id) ∧
        ∀ who, who ≠ some id → Hand.of hand' who = Hand.of hand who) :
    Accounted ⟨rest.setThread id th', s.drops⟩ es' where
  life t := by
    obtain ⟨hand, hl, hhand⟩ := h.life t
    have hown : th.stages t = Hand.of hand (some id) := by
      have hown := hhand hcrash (some id)
      simpa [stages, hth] using hown
    obtain ⟨hand', hl', hown', hrestWho⟩ := hlife t hand hl hown
    refine ⟨hand', hl', fun _ who => ?_⟩
    cases who with
    | none => exact (hhand hcrash none).trans (hrestWho none (by simp)).symm
    | some other =>
      by_cases hne : other = id
      · subst hne
        simpa [stages, hm.self hth] using hown'
      · rw [hrestWho (some other) (by simpa using hne), ← hhand hcrash (some other)]
        rcases hm.others hne with he | ⟨hnone, x, hx, hadded⟩
        · simp [stages, he]
        · simp [stages, hnone, hx, Thread.added_stages hadded]
  paired other x hx := by
    by_cases hne : other = id
    · subst hne
      cases (hm.self hth).symm.trans hx
      exact hpaired
    · rcases hm.others hne with he | ⟨_, y, hy, hadded⟩
      · exact h.paired other x (he ▸ hx)
      · cases hy.symm.trans hx
        exact Thread.added_paired hadded
  unbroken violation he := by
    have hnone : (rest.setThread id th').crash = none := hrest
    cases hnone.symm.trans he

/-- A step that has to do with no task. -/
theorem Accounted.aside (h : s.Accounted es) (hcrash : s.machine.crash = none)
    (hth : s.machine.threads[id]? = some th) (hm : s.machine.Move id th rest th')
    (hrest : rest.crash = none) (hpaired : th'.Paired)
    (hcell : ∀ t, rest.cell? t = s.machine.cell? t) (hst : ∀ t, th'.stages t = th.stages t)
    (hev : ∀ t c, th.events id t c c = []) :
    Accounted ⟨rest.setThread id th', s.drops⟩
      (fun t => es t ++ th.events id t (s.machine.cell? t) (rest.cell? t)) :=
  h.turn hcrash hth hm hrest hpaired fun t hand hl hs =>
    hl.keep hs (hcell t) (by rw [hcell, hev, List.append_nil]) (hst t)

/-- The events of the tasks after a step of a thread. -/
def next (es : TaskId → List Event) (id : ThreadId) (th : Thread σ) (m rest : Machine σ) : TaskId → List Event :=
  fun t => es t ++ th.events id t (m.cell? t) (rest.cell? t)

theorem next_of_eq (h : th.events id t (s.machine.cell? t) (rest.cell? t) = []) :
    next es id th s.machine rest t = es t := by
  rw [next, h, List.append_nil]

theorem Accounted.returned (h : s.Accounted es) (hcrash : s.machine.crash = none)
    (hth : s.machine.threads[id]? = some th) {result : Except Payload Value}
    (hctl : th.control = .run (.ofResult result)) (hframes : th.frames ≠ []) :
    Accounted ⟨s.machine.setThread id { th with control := .leave result }, s.drops⟩
      (next es id th s.machine s.machine) := by
  obtain ⟨frame, frames, hf⟩ := List.exists_cons_of_ne_nil hframes
  have hp := (h.paired id th hth).frames
  rw [hctl, hf] at hp
  refine h.turn hcrash hth (.returned hctl hframes) hcrash ⟨by rw [hf]; exact hp, fun he => by cases he⟩
    fun t hand hl hs => ?_
  have hst : th.stages t = frame.stages .running t ++ frames.flatMap (Frame.stages .running t) := by
    rw [Thread.stages_run hctl, hf, List.flatMap_cons]
  have hev : ∀ c, th.events id t c c = (frame.stages .running t).map fun _ => .returned id result := by
    intro c
    cases result <;> simp [Thread.events, hctl, hf, Body.ofResult]
  by_cases hin : ∃ bracket outer, frame = .task t bracket outer
  · obtain ⟨bracket, outer, rfl⟩ := hin
    have hgone : next es id th s.machine s.machine t = es t ++ [.returned id result] := by
      simp [next, hev, Frame.stages]
    refine Life.advance (.returned result) hs (by simpa [Frame.stages] using hst) ?_ fun hhand => ?_
    · simp [Thread.stages, Control.stages, Control.top, hf, Frame.stages]
    · rw [hgone]
      exact (hhand ▸ hl).return result
  · have hnone : ∀ top, frame.stages top t = [] := by
      intro top
      cases frame with
      | task u bracket outer =>
        exact if_neg fun he => hin ⟨bracket, outer, by rw [he]⟩
      | _ => rfl
    refine hl.keep hs rfl (next_of_eq (by simp [hev, hnone])) ?_
    rw [hst]
    simp [Thread.stages, Control.stages, Control.top, hf, hnone]

theorem cell?_enroll (m : Machine σ) (th : Thread σ) (runtime : RuntimeId) (sticky : Bool) (name : Option String)
    (child : Body σ) (t : TaskId) : (m.enroll th runtime sticky name child).cell? t =
      if t = m.tasks.length + 1 then some (.spawned t sticky name child) else m.cell? t := by
  refine (Machine.cell?_addTask m _ t).trans ?_
  split
  · rename_i he
    rw [he]
  · rfl

theorem Accounted.spawned (h : s.Accounted es) (hcrash : s.machine.crash = none)
    (hth : s.machine.threads[id]? = some th) {target : Option RuntimeId} {options : SpawnOptions}
    {child : Body σ} {answer : Except Payload TaskId → Body σ} {runtime : RuntimeId} {sticky : Bool}
    (hctl : th.control = .run (.spawn target options child answer)) {next : Body σ}
    (hm : s.machine.Move id th (s.machine.enroll th runtime sticky options.name child)
      { th with control := .wake runtime next }) :
    Accounted ⟨(s.machine.enroll th runtime sticky options.name child).setThread id
        { th with control := .wake runtime next }, s.drops⟩
      (Scene.next es id th s.machine (s.machine.enroll th runtime sticky options.name child)) := by
  have hp := (h.paired id th hth).frames
  rw [hctl] at hp
  refine h.turn hcrash hth hm hcrash ⟨hp, fun he => by cases he⟩ fun t hand hl hs => ?_
  have hst : ({ th with control := .wake runtime next } : Thread σ).stages t = th.stages t := by
    simp [Thread.stages, hctl, Control.stages, Control.top]
  have hcell := cell?_enroll s.machine th runtime sticky options.name child t
  by_cases ht : t = s.machine.tasks.length + 1
  · have hnone : s.machine.cell? t = none := ht ▸ s.machine.cell?_fresh
    rw [if_pos ht] at hcell
    rw [Scene.next, hcell, hnone]
    obtain ⟨hl', rfl⟩ := (hnone ▸ hl).spawn sticky options.name child
    exact ⟨none, by simpa [Thread.events, hctl] using hl', hst.trans hs, fun _ _ => rfl⟩
  · have hsame := hcell.trans (if_neg ht)
    refine hl.keep hs hsame (next_of_eq ?_) hst
    rw [hsame]
    exact Thread.events_same (by rw [hctl]; rfl)

/-- The body of a task is taken by a thread that is to begin it. -/
theorem Accounted.take (h : s.Accounted es) (hcrash : s.machine.crash = none)
    (hth : s.machine.threads[id]? = some th) {cell : Cell (Body σ)} {body : Body σ} {storage : StorageId}
    {frames : List (Frame σ)} (hc : s.machine.cell? t = some cell) (hb : cell.body = some body)
    (hctl : (∃ kind u next, th.control = .run (.wait kind u next)) ∨ ∃ u, th.control = .hold u)
    (hpaired : Frame.Paired (some t) frames)
    (hframes : ∀ u, frames.flatMap (Frame.stages .running u) = th.frames.flatMap (Frame.stages .running u))
    (hm : s.machine.Move id th (s.machine.setCell { cell with body := none })
      { th with control := .begin t storage body, frames }) :
    Accounted ⟨(s.machine.setCell { cell with body := none }).setThread id
        { th with control := .begin t storage body, frames }, s.drops⟩
      (next es id th s.machine (s.machine.setCell { cell with body := none })) := by
  refine h.turn hcrash hth hm hcrash ⟨hpaired, fun he => by cases he⟩ fun u hand hl hs => ?_
  have hid : cell.id = t := by
    obtain ⟨hand, hl, _⟩ := h.life t
    exact (hc ▸ hl).id_eq
  have hcell := Machine.cell?_setCell hc (show ({ cell with body := none } : Cell (Body σ)).id = t from hid) u
  have hold : th.stages u = th.frames.flatMap (Frame.stages .running u) := by
    rcases hctl with ⟨_, _, _, hctl⟩ | ⟨_, hctl⟩ <;> simp [Thread.stages, hctl, Control.stages, Control.top]
  have hnew : ({ th with control := .begin t storage body, frames } : Thread σ).stages u =
      (if t = u then [.taken] else []) ++ th.stages u := by
    rw [hold]
    simp [Thread.stages, Control.stages, Control.top, hframes]
  by_cases hu : u = t
  · subst hu
    rw [if_pos rfl] at hcell
    rw [Scene.next, hcell, hc]
    obtain ⟨hl', rfl⟩ := (hc ▸ hl).take hb id
    refine Life.grasp .taken hs (by simpa using hnew) ?_
    rcases hctl with ⟨_, _, _, hctl⟩ | ⟨_, hctl⟩ <;>
      simpa [Thread.events, hctl, Cell.waiting, hb] using hl'
  · have hsame := hcell.trans (if_neg hu)
    refine hl.keep hs hsame (next_of_eq ?_) (by simpa [Ne.symm hu] using hnew)
    rw [hsame]
    rcases hctl with ⟨_, _, _, hctl⟩ | ⟨_, hctl⟩ <;> simp [Thread.events, hctl]

theorem Accounted.began (h : s.Accounted es) (hcrash : s.machine.crash = none)
    (hth : s.machine.threads[id]? = some th) {cell : Cell (Body σ)} {body : Body σ} {storage : StorageId}
    {bracket : Bracket} {ledger : Ledger} (hctl : th.control = .begin t storage body)
    (hc : s.machine.cell? t = some cell)
    (hm : s.machine.Move id th { s.machine.setCell { cell with state := .running } with ledger }
      { th.setTask (some t) with
        control := .run body, frames := .task t bracket th.currentTask :: th.frames
        holder := some bracket.holder }) :
    Accounted ⟨{ s.machine.setCell { cell with state := .running } with ledger }.setThread id
        { th.setTask (some t) with
          control := .run body, frames := .task t bracket th.currentTask :: th.frames
          holder := some bracket.holder }, s.drops⟩
      (next es id th s.machine { s.machine.setCell { cell with state := .running } with ledger }) := by
  have hp := (h.paired id th hth).frames
  rw [hctl] at hp
  refine h.turn hcrash hth hm hcrash ⟨hp, fun he => by cases he⟩ fun u hand hl hs => ?_
  have hid : cell.id = t := by
    obtain ⟨hand, hl, _⟩ := h.life t
    exact (hc ▸ hl).id_eq
  have hcell : ({ s.machine.setCell { cell with state := .running } with ledger } : Machine σ).cell? u = _ :=
    Machine.cell?_setCell hc (show ({ cell with state := .running } : Cell (Body σ)).id = t from hid) u
  have hst : th.stages u = (if t = u then [.taken] else []) ++ th.frames.flatMap (Frame.stages .running u) := by
    simp [Thread.stages, hctl, Control.stages, Control.top]
  have hst' : ∀ x : Thread σ, x.control = .run body → x.frames = .task t bracket th.currentTask :: th.frames →
      x.stages u = (if t = u then [.running] else []) ++ th.frames.flatMap (Frame.stages .running u) := by
    intro x hx hf
    simp [Thread.stages, hx, hf, Control.stages, Control.top, Frame.stages]
  by_cases hu : u = t
  · subst hu
    rw [if_pos rfl] at hcell
    rw [Scene.next, hcell]
    refine Life.advance .running hs (by simpa using hst) (by simpa using hst' _ rfl rfl)
      fun hhand => ?_
    subst hhand
    simpa [Thread.events, hctl] using (hc ▸ hl).start.2
  · have hsame := hcell.trans (if_neg hu)
    refine hl.keep hs hsame (next_of_eq (by simp [Thread.events, hctl, Ne.symm hu])) ?_
    rw [hst, hst' _ rfl rfl]
    simp [Ne.symm hu]

theorem Accounted.left (h : s.Accounted es) (hcrash : s.machine.crash = none)
    (hth : s.machine.threads[id]? = some th) {result : Except Payload Value} {bracket : Bracket}
    {outer : Option TaskId} {frames : List (Frame σ)} {ledger : Ledger} (hctl : th.control = .leave result)
    (hframes : th.frames = .task t bracket outer :: frames)
    (hm : s.machine.Move id th { s.machine with ledger } { th.setTask outer with
      control := .publish t (outcomeOf t result), frames, holder := bracket.parent }) :
    Accounted ⟨({ s.machine with ledger } : Machine σ).setThread id { th.setTask outer with
        control := .publish t (outcomeOf t result), frames, holder := bracket.parent }, s.drops⟩
      (next es id th s.machine { s.machine with ledger }) := by
  have hp := (h.paired id th hth).frames
  rw [hctl, hframes] at hp
  refine h.turn hcrash hth hm hcrash ⟨hp, fun he => by cases he⟩ fun u hand hl hs => ?_
  have hst : th.stages u =
      (if t = u then [.returned result] else []) ++ frames.flatMap (Frame.stages .running u) := by
    simp [Thread.stages, hctl, hframes, Control.stages, Control.top, Frame.stages]
  have hev : next es id th s.machine { s.machine with ledger } u = es u :=
    next_of_eq (by simp [Thread.events, hctl])
  by_cases hu : u = t
  · subst hu
    rw [hev]
    refine Life.advance (.publishing (outcomeOf u result)) hs (by simpa using hst) ?_ fun hhand => ?_
    · simp [Thread.stages, Control.stages, Control.top]
    · exact (hhand ▸ hl).leave
  · refine hl.keep hs rfl hev ?_
    rw [hst]
    simp [Thread.stages, Control.stages, Control.top, Ne.symm hu]

theorem Accounted.published (h : s.Accounted es) (hcrash : s.machine.crash = none)
    (hth : s.machine.threads[id]? = some th) {outcome : Outcome} {cell : Cell (Body σ)}
    (hctl : th.control = .publish t outcome) (hc : s.machine.cell? t = some cell)
    (hm : s.machine.Move id th (s.machine.setCell (cell.publish outcome))
      { th with control := .settle t outcome.isOk }) :
    Accounted ⟨(s.machine.setCell (cell.publish outcome)).setThread id
        { th with control := .settle t outcome.isOk }, s.drops⟩
      (next es id th s.machine (s.machine.setCell (cell.publish outcome))) := by
  have hp := (h.paired id th hth).frames
  rw [hctl] at hp
  refine h.turn hcrash hth hm hcrash ⟨hp, fun he => by cases he⟩ fun u hand hl hs => ?_
  have hid : cell.id = t := by
    obtain ⟨hand, hl, _⟩ := h.life t
    exact (hc ▸ hl).id_eq
  have hcell := Machine.cell?_setCell hc (show (cell.publish outcome).id = t from hid) u
  have hst : th.stages u = (if t = u then [.publishing outcome] else []) ++
      th.frames.flatMap (Frame.stages .running u) := by
    simp [Thread.stages, hctl, Control.stages, Control.top]
  by_cases hu : u = t
  · subst hu
    rw [if_pos rfl] at hcell
    rw [next, hcell]
    refine Life.advance (.settling outcome.isOk) hs (by simpa using hst) ?_ fun hhand => ?_
    · simp [Thread.stages, Control.stages, Control.top]
    · subst hhand
      simpa [Thread.events, hctl] using (hc ▸ hl).publish
  · have hsame := hcell.trans (if_neg hu)
    refine hl.keep hs hsame (next_of_eq (by simp [Thread.events, hctl, Ne.symm hu])) ?_
    rw [hst]
    simp [Thread.stages, Control.stages, Control.top, Ne.symm hu]

/-- A task becomes terminal, and the thread goes back to the frames below it. -/
theorem Accounted.settled (h : s.Accounted es) (hcrash : s.machine.crash = none)
    (hth : s.machine.threads[id]? = some th) {completed : Bool} {cell : Cell (Body σ)} {control : Control σ}
    {frames : List (Frame σ)} (hctl : th.control = .settle t completed) (hc : s.machine.cell? t = some cell)
    (hpaired : Thread.Paired { th with control, frames })
    (hstages : ∀ u, ({ th with control, frames } : Thread σ).stages u =
      th.frames.flatMap (Frame.stages .running u))
    (hm : s.machine.Move id th (s.machine.setCell (cell.settled completed)) { th with control, frames }) :
    Accounted ⟨(s.machine.setCell (cell.settled completed)).setThread id { th with control, frames }, s.drops⟩
      (next es id th s.machine (s.machine.setCell (cell.settled completed))) := by
  refine h.turn hcrash hth hm hcrash hpaired fun u hand hl hs => ?_
  have hid : cell.id = t := by
    obtain ⟨hand, hl, _⟩ := h.life t
    exact (hc ▸ hl).id_eq
  have hcell := Machine.cell?_setCell hc (show (cell.settled completed).id = t from hid) u
  have hst : th.stages u = (if t = u then [.settling completed] else []) ++
      th.frames.flatMap (Frame.stages .running u) := by
    simp [Thread.stages, hctl, Control.stages, Control.top]
  by_cases hu : u = t
  · subst hu
    rw [if_pos rfl] at hcell
    rw [next, hcell]
    refine Life.finish hs (by simpa using hst) (hstages u) fun hhand => ?_
    subst hhand
    simpa [Thread.events, hctl] using (hc ▸ hl).settle.2
  · have hsame := hcell.trans (if_neg hu)
    refine hl.keep hs hsame (next_of_eq (by simp [Thread.events, hctl, Ne.symm hu])) ?_
    rw [hstages, hst]
    simp [Ne.symm hu]

theorem Accounted.fresh (h : s.Accounted es) : s.machine.Fresh := by
  intro t cell hc
  obtain ⟨hand, hl, _⟩ := h.life t
  rw [hc] at hl
  exact ⟨hl.id_eq, fun body hb => (hl.hand_of_waiting hb).2.2⟩

/-- The queue entries that a shutdown drops are accounted for, whatever they are. -/
theorem Accounted.closed (h : s.Accounted es) (hcrash : s.machine.crash = none)
    (hth : s.machine.threads[id]? = some th) {runtime : RuntimeId} {storage : StorageId} {tasks : List TaskId}
    {stop next : Body σ} {f : Runtime → Runtime} {context : Option Context}
    (hctl : th.control = .stop runtime .close stop)
    (hm : s.machine.Move id th (((s.machine.closeStorage storage).dropQueues tasks).updateRuntime runtime f)
      { th with control := .run next, context, active := false }) :
    Accounted ⟨(((s.machine.closeStorage storage).dropQueues tasks).updateRuntime runtime f).setThread id
        { th with control := .run next, context, active := false }, s.drops⟩
      (Scene.next es id th s.machine
        (((s.machine.closeStorage storage).dropQueues tasks).updateRuntime runtime f)) := by
  have hp := (h.paired id th hth).frames
  rw [hctl] at hp
  obtain ⟨hkept, hcells⟩ := Machine.dropQueues_cases
    (show (s.machine.closeStorage storage).Fresh from h.fresh) tasks
  refine h.turn hcrash hth hm (hkept.trans hcrash) ⟨hp, fun he => by cases he⟩ fun u hand hl hs => ?_
  have hst : ({ th with control := .run next, context, active := false } : Thread σ).stages u = th.stages u := by
    simp [Thread.stages, hctl, Control.stages, Control.top]
  rcases hcells u with hsame | ⟨sticky, name, body, hold, hnew⟩
  · have hsame : (((s.machine.closeStorage storage).dropQueues tasks).updateRuntime runtime f).cell? u =
        s.machine.cell? u := hsame
    refine hl.keep hs hsame (next_of_eq ?_) hst
    rw [hsame]
    simp [Thread.events, hctl]
  · have hold : s.machine.cell? u = some (.spawned u sticky name body) := hold
    have hnew : (((s.machine.closeStorage storage).dropQueues tasks).updateRuntime runtime f).cell? u =
        some (.dropped u sticky name) := hnew
    rw [Scene.next, hnew, hold]
    obtain ⟨hes, rfl, _⟩ := (hold ▸ hl).hand_of_waiting rfl
    refine ⟨none, ?_, hst.trans hs, fun _ _ => rfl⟩
    rw [hes]
    simpa [Thread.events, hctl, Cell.waiting, Cell.spawned, Cell.dropped] using Life.dropped

/-- What a thread has, a task knows of. -/
theorem Accounted.life_of_stages (h : s.Accounted es) (hcrash : s.machine.crash = none)
    (hth : s.machine.threads[id]? = some th) {stage : Stage} {rest : List Stage}
    (hst : th.stages t = stage :: rest) : Life t (s.machine.cell? t) (es t) (some (some id, stage)) := by
  obtain ⟨hand, hl, hhand⟩ := h.life t
  have hown := hhand hcrash (some id)
  simp only [stages, hth, Option.elim_some, hst] at hown
  exact (Hand.of_eq_cons hown.symm).1 ▸ hl

theorem Accounted.give (h : s.Accounted es) {cell : Cell (Body σ)} (hc : s.machine.cell? t = some cell)
    (ht : cell.state.isTerminal) (kind : WaitKind) :
    ∃ outcome, cell.outcome = some outcome ∧ cell.give kind = .ok outcome := by
  obtain ⟨hand, hl, _⟩ := h.life t
  exact (hc ▸ hl).give ht kind

/-- Whoever waits for the task that it has run is answered. -/
theorem Accounted.give_settled (h : s.Accounted es) (hcrash : s.machine.crash = none)
    (hth : s.machine.threads[id]? = some th) {completed : Bool} {cell waited : Cell (Body σ)} {kind : WaitKind}
    {u : TaskId} {next : Outcome → Body σ} {frames : List (Frame σ)} (hctl : th.control = .settle t completed)
    (hc : s.machine.cell? t = some cell) (hframes : th.frames = .joiner kind u next :: frames)
    (hw : (s.machine.setCell (cell.settled completed)).cell? u = some waited) :
    u = t ∧ waited = cell.settled completed ∧
      ∃ outcome, waited.outcome = some outcome ∧ waited.give kind = .ok outcome := by
  have hp := (h.paired id th hth).frames
  rw [hctl, hframes] at hp
  obtain rfl : t = u := Option.some.inj hp.1
  have hstages : th.stages t = .settling completed :: th.frames.flatMap (Frame.stages .running t) := by
    simp [Thread.stages, hctl, Control.stages, Control.top]
  have hl := h.life_of_stages hcrash hth hstages
  rw [hc] at hl
  rw [Machine.cell?_setCell_self hc (cell.settled completed) hl.id_eq] at hw
  cases hw
  exact ⟨rfl, rfl, hl.settle.2.give (by cases completed <;> rfl) kind⟩

theorem Accounted.crashed (h : s.Accounted es) (hcrash : s.machine.crash = none)
    (hth : s.machine.threads[id]? = some th) {before : Machine σ} {crash : Crash}
    (ha : s.machine.Aborts id th before crash) :
    Accounted ⟨(before.fail crash).setThread id th, s.drops⟩ (next es id th s.machine (before.fail crash)) := by
  -- the threads stay as they are, and nothing has to be known of hands any more
  have hcase : ∀ {before : Machine σ} {crash : Crash}, before.threads = s.machine.threads →
      (∀ violation, crash ≠ .task violation) →
      (∀ t, ∃ hand, Life t (before.cell? t) (next es id th s.machine before t) hand) →
      Accounted ⟨(before.fail crash).setThread id th, s.drops⟩
        (next es id th s.machine (before.fail crash)) := by
    intro before crash hthreads hviolation hlife
    refine ⟨fun t => ?_, fun other x hx => ?_, fun violation he => hviolation violation (Option.some.inj he)⟩
    · obtain ⟨hand, hl⟩ := hlife t
      exact ⟨hand, hl, fun he => by cases he⟩
    · rcases Machine.threads_setThread hx with ⟨_, rfl⟩ | ⟨_, hx⟩
      · exact h.paired id _ hth
      · exact h.paired other x (hthreads ▸ hx)
  have hsame : ∀ ledger : Ledger, th.control.aside → ∀ t, ∃ hand,
      Life t (({ s.machine with ledger } : Machine σ).cell? t)
        (next es id th s.machine { s.machine with ledger } t) hand := by
    intro ledger haside t
    obtain ⟨hand, hl, _⟩ := h.life t
    exact ⟨hand, (next_of_eq (Thread.events_same haside)).symm ▸ hl⟩
  have hfirst : ∀ t stage, th.control.stages t = [stage] → th.control.top = .running →
      Life t (s.machine.cell? t) (es t) (some (some id, stage)) := by
    intro t stage hctl htop
    have hstages : th.stages t = stage :: th.frames.flatMap (Frame.stages .running t) := by
      simp [Thread.stages, hctl, htop]
    exact h.life_of_stages hcrash hth hstages
  cases ha with
  | @ranTwice t storage body cell hctl hc hne =>
    have hl := hfirst t .taken (by simp [hctl, Control.stages]) (by rw [hctl]; rfl)
    exact absurd (hc ▸ hl).start.1 hne
  | @completedTwice t completed cell hctl hc ht =>
    have hl := hfirst t (.settling completed) (by simp [hctl, Control.stages]) (by rw [hctl]; rfl)
    have hlive := (hc ▸ hl).settle.1
    rw [hlive] at ht
    cases ht
  | undelivered _ hc ht hg =>
    obtain ⟨outcome, _, hok⟩ := h.give hc ht _
    cases hg.symm.trans hok
  | unresumed hctl hc _ hframes hw hg =>
    obtain ⟨_, _, outcome, _, hok⟩ := h.give_settled hcrash hth hctl hc hframes hw
    cases hg.symm.trans hok
  | @unopened t storage body cell error ledger hctl hc hstate =>
    refine hcase rfl (fun _ he => by cases he) fun u => ?_
    have hl := hfirst t .taken (by simp [hctl, Control.stages]) (by rw [hctl]; rfl)
    rw [hc] at hl
    have hcell : ({ s.machine.setCell { cell with state := .running } with ledger } : Machine σ).cell? u = _ :=
      Machine.cell?_setCell hc (show ({ cell with state := .running } : Cell (Body σ)).id = t from hl.id_eq) u
    rw [next, hcell]
    by_cases hu : u = t
    · subst hu
      exact ⟨_, by simpa [Thread.events, hctl] using hl.start.2⟩
    · obtain ⟨hand, hother, _⟩ := h.life u
      exact ⟨hand, by simpa [Thread.events, hctl, hu, Ne.symm hu] using hother⟩
  | rootUnopened hctl => exact hcase rfl (fun _ he => by cases he) (hsame _ (by rw [hctl]; rfl))
  | unclosed hctl => exact hcase rfl (fun _ he => by cases he) (hsame _ (by rw [hctl]; rfl))
  | noSlot _ hctl =>
    refine hcase rfl (fun _ he => by cases he) (hsame s.machine.ledger ?_)
    rcases hctl with ⟨_, _, hctl, _⟩ | ⟨hctl, _⟩ | ⟨_, _, _, hctl, _⟩ <;> rw [hctl] <;> rfl

/-- A thread that has no task in its hands goes on without one. -/
theorem Accounted.goOn (h : s.Accounted es) (hcrash : s.machine.crash = none)
    (hth : s.machine.threads[id]? = some th) {control : Control σ} (hctl : th.control = control)
    (hfree : control.free) (haside : control.aside) (hm : s.machine.Move id th rest th')
    (hrest : rest.crash = none) (hcell : ∀ t, rest.cell? t = s.machine.cell? t) (hfree' : th'.control.free)
    (hpaired : Frame.Paired none th.frames → Frame.Paired none th'.frames)
    (hframes : ∀ t, th'.frames.flatMap (Frame.stages .running t) = th.frames.flatMap (Frame.stages .running t)) :
    Accounted ⟨rest.setThread id th', s.drops⟩ (next es id th s.machine rest) := by
  subst hctl
  refine h.aside hcrash hth hm hrest ?_ hcell (fun t => ?_) fun t c => Thread.events_same haside
  · exact Thread.paired_of_free hfree' (hpaired ((h.paired id th hth).of_free hfree))
  · rw [Thread.stages_of_free hfree', Thread.stages_of_free hfree, hframes]

/-- Whatever a thread does, it is accounted for. -/
theorem Accounted.move (h : s.Accounted es) (hcrash : s.machine.crash = none)
    (hth : s.machine.threads[id]? = some th) (hm : s.machine.Move id th rest th') :
    Accounted ⟨rest.setThread id th', s.drops⟩ (next es id th s.machine rest) := by
  have hbelow : ∀ {control : Control σ} {frames : List (Frame σ)}, th.control = control →
      th.frames = frames → Frame.Paired control.task? frames := by
    rintro _ _ rfl rfl
    exact (h.paired id th hth).frames
  cases hm with
  | answered hctl ha =>
    exact h.goOn hcrash hth hctl rfl (by cases ha <;> rfl) (.answered hctl ha) hcrash (fun _ => rfl) rfl
      (fun hp => hp) fun _ => rfl
  | @ended result hctl hnil =>
    refine h.aside hcrash hth (.ended hctl hnil) hcrash ⟨by simp [hnil, Frame.Paired], fun he => by cases he⟩
      (fun _ => rfl) (fun t => ?_) fun t c => ?_
    · simp [Thread.stages, hctl, Control.stages, Control.top]
    · cases result <;> simp [Thread.events, hctl, hnil, Body.ofResult]
  | returned hctl hne => exact h.returned hcrash hth hctl hne
  | spawned hctl ht hrt hsticky => exact h.spawned hcrash hth hctl (.spawned hctl ht hrt hsticky)
  | launched hctl hactive hconfig =>
    exact h.goOn hcrash hth hctl rfl rfl (.launched hctl hactive hconfig) hcrash (fun _ => rfl) rfl
      (fun hp => hp) fun _ => rfl
  | rooted hctl hrt hstorage ho =>
    exact h.goOn hcrash hth hctl rfl rfl (.rooted hctl hrt hstorage ho) hcrash (fun _ => rfl) rfl
      (fun hp => hp) fun _ => rfl
  | began hctl hc hstate ho => exact h.began hcrash hth hctl hc (.began hctl hc hstate ho)
  | left hctl hf hclose => exact h.left hcrash hth hctl hf (.left hctl hf hclose)
  | leftRoot hctl hf hclose =>
    have hp : Frame.Paired none (.root _ _ _ :: _) := hbelow hctl hf
    refine h.aside hcrash hth (.leftRoot hctl hf hclose) hcrash ⟨hp, fun he => by cases he⟩ (fun _ => rfl)
      (fun t => ?_) fun t c => ?_
    · simp [Thread.stages, hctl, hf, Control.stages, Control.top, Frame.stages]
    · exact Thread.events_same (by rw [hctl]; rfl)
  | published hctl hc => exact h.published hcrash hth hctl hc (.published hctl hc)
  | resumed hctl hc hlive hf hw hg =>
    refine h.settled hcrash hth hctl hc ⟨(hbelow hctl hf).2, fun he => by cases he⟩ (fun u => ?_)
      (.resumed hctl hc hlive hf hw hg)
    simp [Thread.stages, hf, Control.stages, Control.top, Frame.stages]
  | @settled t completed cell frame frames past hctl hc hlive hf hpast =>
    have hfree := Frame.free_of_past hpast
    refine h.settled hcrash hth hctl hc (Thread.paired_of_free hfree ?_) (fun u => ?_)
      (.settled hctl hc hlive hf hpast)
    · rw [hf]
      exact (hbelow hctl hf).of_past hpast
    · exact Thread.stages_of_free hfree
  | delivered ha hc ht hg =>
    have hctl : th.control.free ∧ th.control.aside := by
      rcases ha with hctl | hctl <;> rw [hctl] <;> exact ⟨rfl, rfl⟩
    exact h.goOn hcrash hth rfl hctl.1 hctl.2 (.delivered ha hc ht hg) hcrash (fun _ => rfl) rfl
      (fun hp => hp) fun _ => rfl
  | blocked hctl hc hlive hwhy =>
    exact h.goOn hcrash hth hctl rfl rfl (.blocked hctl hc hlive hwhy) hcrash (fun _ => rfl) rfl
      (fun hp => hp) fun _ => rfl
  | nested hctl hc hstate hstorage hb =>
    exact h.take hcrash hth hc hb (.inl ⟨_, _, _, hctl⟩) ⟨rfl, hbelow hctl rfl⟩ (fun _ => rfl)
      (.nested hctl hc hstate hstorage hb)
  | woke hctl hrt hlot =>
    exact h.goOn hcrash hth hctl rfl rfl (.woke hctl hrt hlot) hcrash (fun _ => rfl) rfl
      (fun hp => hp) fun _ => rfl
  | found hctl hseeks hrt hchoose =>
    have hmove : s.machine.Move id th _ _ := .found hctl hseeks hrt hchoose
    cases hseeks with
    | loop hf =>
      exact h.goOn hcrash hth hctl rfl rfl hmove hcrash (fun _ => rfl) rfl (fun hp => by rw [hf] at hp; exact hp)
        fun t => by rw [hf]; rfl
    | drain =>
      exact h.goOn hcrash hth hctl rfl rfl hmove hcrash (fun _ => rfl) rfl (fun hp => hp) fun _ => rfl
  | @idle ticker force leaving frames c rt choice hctl hf hcontext hrt hchoose =>
    obtain rfl : frames = [] := hbelow hctl hf
    refine h.aside hcrash hth (.idle hctl hf hcontext hrt hchoose) hcrash ⟨?_, fun _ => ⟨_, _, _, rfl⟩⟩
      (fun _ => rfl) (fun t => ?_) fun t c => Thread.events_same (by rw [hctl]; rfl)
    · cases leaving <;> rfl
    · cases leaving <;> simp [Thread.stages, hctl, hf, Control.stages, Control.top, Frame.stages]
  | drained hctl hf hrt hchoose =>
    exact h.goOn hcrash hth hctl rfl rfl (.drained hctl hf hrt hchoose) hcrash (fun _ => rfl) rfl
      (fun hp => by rw [hf] at hp; exact hp) fun t => by rw [hf]; rfl
  | took hctl hf hpast hfinds hc hb =>
    obtain ⟨past, hpast'⟩ := Option.isSome_iff_exists.1 hpast
    refine h.take hcrash hth hc hb (.inr ⟨_, hctl⟩) ?_ (fun _ => rfl) (.took hctl hf hpast hfinds hc hb)
    rw [hf]
    exact (hbelow hctl hf).of_past hpast'
  | passed hctl hf hpast hc hb =>
    exact h.goOn hcrash hth hctl rfl rfl (.passed hctl hf hpast hc hb) hcrash (fun _ => rfl)
      (Frame.free_of_past hpast) (fun hp => hp) fun _ => rfl
  | parked hctl hcontext hrt hlot hstop hnone =>
    exact h.goOn hcrash hth hctl rfl rfl (.parked hctl hcontext hrt hlot hstop hnone) hcrash (fun _ => rfl) rfl
      (fun hp => hp) fun _ => rfl
  | awake hctl =>
    exact h.goOn hcrash hth hctl rfl rfl (.awake hctl) hcrash (fun _ => rfl) rfl (fun hp => hp) fun _ => rfl
  | unparked hctl hcontext hrt hsignalled =>
    exact h.goOn hcrash hth hctl rfl rfl (.unparked hctl hcontext hrt hsignalled) hcrash (fun _ => rfl) rfl
      (fun hp => hp) fun _ => rfl
  | ticked hctl hf hcontext hrt hleaving =>
    exact h.goOn hcrash hth hctl rfl rfl (.ticked hctl hf hcontext hrt hleaving) hcrash (fun _ => rfl) rfl
      (fun hp => by rw [hf] at hp; exact hp) fun t => by rw [hf]; rfl
  | exited hctl hstorage =>
    obtain ⟨ticker, force, leaving, hf⟩ := (h.paired id th hth).exit hctl
    refine h.aside hcrash hth (.exited hctl hstorage) hcrash ⟨trivial, fun he => by cases he⟩ (fun _ => rfl)
      (fun t => ?_) fun t c => Thread.events_same (by rw [hctl]; rfl)
    simp [Thread.stages, hctl, hf, Control.stages, Control.top, Frame.stages]
  | stopped hctl hrt hstop =>
    exact h.goOn hcrash hth hctl rfl rfl (.stopped hctl hrt hstop) hcrash (fun _ => rfl) rfl
      (fun hp => hp) fun _ => rfl
  | rang hctl hrt hlot =>
    exact h.goOn hcrash hth hctl rfl rfl (.rang hctl hrt hlot) hcrash (fun _ => rfl) rfl
      (fun hp => hp) fun _ => rfl
  | joinedPool hctl hrt hidle =>
    exact h.goOn hcrash hth hctl rfl rfl (.joinedPool hctl hrt hidle) hcrash (fun _ => rfl) rfl
      (fun hp => hp) fun _ => rfl
  | closed hctl hrt hstorage => exact h.closed hcrash hth hctl (.closed hctl hrt hstorage)
  | forked hctl =>
    exact h.goOn hcrash hth hctl rfl rfl (.forked hctl) hcrash (fun _ => rfl) rfl (fun hp => hp) fun _ => rfl
  | joinedThread hctl hother hresult =>
    exact h.goOn hcrash hth hctl rfl rfl (.joinedThread hctl hother hresult) hcrash (fun _ => rfl) rfl
      (fun hp => hp) fun _ => rfl
  | crashed ha => exact h.crashed hcrash hth ha

end Scene

end TaskSpace

import TaskSpace.Proofs.Machine.Footprint
import TaskSpace.Proofs.Machine.Orderly
import TaskSpace.Proofs.Scheduler.Sticky

/-!
# Tasks stay where they began

Whatever is done for the body of a task is done by the worker that took it: a body runs on one thread, its
holder is on the stack of that thread, and what the holder has recorded no other holder has. A sticky task is
queued as pinned with the worker that spawned it, where no other worker looks; another one gets the body only
by waiting for the task.
-/

namespace TaskSpace

variable {σ β : Type}

namespace Life

variable {t : TaskId} {c : Option (Cell β)} {es : List Event} {hand : Option Hand} {id v w : ThreadId}
  {stage : Stage}

/-- Who has a task in its hands took it. -/
theorem taken_mem (h : Life t c es (some (some id, stage))) : .taken (some id) ∈ es := by
  cases h <;> simp

theorem taker_unique (h : Life t c es hand) (hv : .taken (some v) ∈ es) (hw : .taken (some w) ∈ es) : v = w := by
  cases h <;> simp_all

end Life

/-! ## What a turn does for a task -/

namespace Turn

/-- Thread `w` takes the turn, as worker `w`. -/
def By (turn : Turn (Machine σ) (ThreadId × Choice)) (w : WorkerId) : Prop :=
  turn.act.1 = w ∧ ∃ th c, turn.before.threads[turn.act.1]? = some th ∧ th.context = some c ∧ c.worker = w

/-- The body of the task is taken. -/
def takes (turn : Turn (Machine σ) (ThreadId × Choice)) (t : TaskId) : Bool :=
  Cell.waiting (turn.before.cell? t) && !Cell.waiting (turn.after.cell? t)

/-- The holder comes on the stack of worker `w`. -/
def Registers (turn : Turn (Machine σ) (ThreadId × Choice)) (holder : HolderId) (w : WorkerId) : Prop :=
  ∃ (place : StorageId) (s s' : Storage), turn.before.ledger.roster.storages[place]? = some s ∧
    turn.after.ledger.roster.storages[place]? = some s' ∧ ¬s.contains holder ∧ s'.contains holder ∧ s'.worker = w

/-- The holder leaves the stack of worker `w`. -/
def Deregisters (turn : Turn (Machine σ) (ThreadId × Choice)) (holder : HolderId) (w : WorkerId) : Prop :=
  ∃ (place : StorageId) (s s' : Storage), turn.before.ledger.roster.storages[place]? = some s ∧
    turn.after.ledger.roster.storages[place]? = some s' ∧ s.contains holder ∧ ¬s'.contains holder ∧ s.worker = w

/-- Something is done for the body of the task; where that names a worker, it is the one that is given. -/
inductive Touches (turn : Turn (Machine σ) (ThreadId × Choice)) (t : TaskId) : Option WorkerId → Prop
  | takes : turn.takes t → Touches turn t none
  | registers {holder g w} : turn.Registers holder w → turn.after.ledger.roster.holder? holder = some g →
    g.owner = some t → Touches turn t (some w)
  | deregisters {holder g w} : turn.Deregisters holder w → turn.before.ledger.roster.holder? holder = some g →
    g.owner = some t → Touches turn t (some w)
  /-- The body is the innermost one of its thread, and maps something for a worker. -/
  | maps {th bracket below} {space : SpaceId} {a a' ptr worker} : turn.before.threads[turn.act.1]? = some th →
    th.bodies = (t, bracket) :: below → turn.before.ledger.spaces[space]? = some a →
    turn.after.ledger.spaces[space]? = some a' → (ptr, worker) ∈ a'.localized.drop a.localized.length →
    Touches turn t (some worker)
  /-- A mapping that is recorded for the body is released. -/
  | releases {rt holder g id} : rt ∈ turn.before.runtimes → turn.before.ledger.roster.holder? holder = some g →
    g.owner = some t → id ∈ g.handles → turn.before.ledger.Alive rt.space id →
    ¬turn.after.ledger.Alive rt.space id → Touches turn t none

/-- Worker `w` spawns the task as a sticky one, as are all tasks of a local runtime. -/
structure SpawnsSticky (turn : Turn (Machine σ) (ThreadId × Choice)) (t : TaskId) (w : WorkerId) : Prop where
  worker : turn.By w
  spawns : ∃ th target options child next, turn.before.threads[turn.act.1]? = some th ∧
    th.control = .run (.spawn target options child next) ∧
    (options.sticky ∨ ∀ rt ∈ turn.before.runtimes, rt.config.flavor = .localOnly)
  unborn : turn.before.cell? t = none
  born : (turn.after.cell? t).isSome

/-- The thread calls `get` or `join` on the task. -/
def Waits (turn : Turn (Machine σ) (ThreadId × Choice)) (t : TaskId) : Prop :=
  ∃ th kind next, turn.before.threads[turn.act.1]? = some th ∧ th.control = .run (.wait kind t next)

/-- The thread has found the queue entry of the task. -/
def Holds (turn : Turn (Machine σ) (ThreadId × Choice)) (t : TaskId) : Prop :=
  ∃ th, turn.before.threads[turn.act.1]? = some th ∧ th.control = .hold t

/-- The thread finds the queue entry of the task. -/
def Finds (turn : Turn (Machine σ) (ThreadId × Choice)) (t : TaskId) : Prop :=
  ¬turn.Holds t ∧ ∃ th, turn.after.threads[turn.act.1]? = some th ∧ th.control = .hold t

/-- The task is found by worker `w` alone, which has it pinned, and is taken by it or by a wait for it. -/
structure Guards (turn : Turn (Machine σ) (ThreadId × Choice)) (t : TaskId) (w : WorkerId) : Prop where
  taken : turn.takes t → turn.Waits t ∨ turn.By w ∧ turn.Holds t
  found : turn.Finds t → turn.By w ∧ ∃ rt ∈ turn.before.runtimes, t ∈ (rt.queues.lane w).pinned
  queued : ∀ rt ∈ turn.after.runtimes, rt.queues.Confines t (· = w)

end Turn

namespace Machine

variable {m rest : Machine σ} {k : Nat} {es : TaskId → List Event} {id other : ThreadId} {th th' x : Thread σ}
  {rt : Runtime} {t u : TaskId} {turns : Turns σ} {w : WorkerId} {holder : HolderId} {g : Holder}
  {bracket : Bracket} {choice : Choice} {s s' : Storage} {p : WorkerId → Prop}

/-! ## Where a body is -/

/-- Worker `w` took the task, or it built the runtime, and the task is the root. -/
def Houses (es : TaskId → List Event) (t : TaskId) (w : WorkerId) : Prop :=
  t = TaskId.root ∧ w = WorkerId.root ∨ .taken (some w) ∈ es t

theorem Houses.mono (h : Houses es t w) (more : TaskId → List Event) : Houses (fun t => es t ++ more t) t w :=
  h.imp_right (List.mem_append_left _)

theorem Hosts.houses_unique {v : WorkerId} (h : m.Hosts k es) (hv : Houses es t v) (hw : Houses es t w) : v = w := by
  obtain ⟨hand, hl, _⟩ := h.accounted.life t
  have hroot : ∀ {u : WorkerId}, t = TaskId.root → .taken (some u) ∉ es t := by
    rintro _ rfl hin
    have hnone : es TaskId.root = [] := (show Life _ (none : Option (Cell (Body σ))) _ hand from hl).unseen
    rw [hnone] at hin
    cases hin
  rcases hv with ⟨ht, rfl⟩ | hv <;> rcases hw with ⟨ht', rfl⟩ | hw
  · rfl
  · exact absurd hw (hroot ht)
  · exact absurd hv (hroot ht')
  · exact hl.taker_unique hv hw

/-- The thread that has a body on its frames took it. -/
theorem Hosts.houses (h : m.Hosts k es) (hth : m.threads[id]? = some th) (hin : (t, bracket) ∈ th.bodies) :
    Houses es t id := by
  by_cases ht : t = TaskId.root
  · subst ht
    exact .inl ⟨rfl, h.of_root hth hin⟩
  · obtain ⟨stage, stages, hst⟩ := List.exists_cons_of_ne_nil (Thread.stages_of_body ht hin)
    exact .inr (h.accounted.life_of_stages h.crash hth hst).taken_mem

/-- A holder on the stack of a thread is that of one of its bodies. -/
theorem Hosts.body_of_stack (h : m.Hosts k es) (hth : m.threads[id]? = some th) (hin : holder ∈ th.stack)
    (hg : m.ledger.roster.holder? holder = some g) (ho : g.owner = some t) : ∃ bracket, (t, bracket) ∈ th.bodies := by
  obtain ⟨space, hist, hsound⟩ := h.sound
  obtain ⟨⟨u, bracket⟩, hbody, rfl⟩ := List.mem_map.1 hin
  obtain ⟨g', hg', ho'⟩ := hsound.owners id th hth _ hbody
  cases hg.symm.trans hg'
  cases ho.symm.trans ho'
  exact ⟨bracket, hbody⟩

theorem Hosts.mem_stack (h : m.Hosts k es) (hth : m.threads[id]? = some th) (hh : th.holder = some holder) :
    holder ∈ th.stack :=
  List.mem_of_head? ((h.fits hth).nested.head?.symm.trans hh)

/-- The storage of each worker, and the thread that it serves. -/
theorem Hosts.exists_served (h : m.Hosts k es) {place : StorageId} (hs : m.ledger.roster.storages[place]? = some s) :
    ∃ th, m.threads[place]? = some th ∧ s.worker = place ∧ s.stack = th.stack := by
  obtain ⟨space, hist, hsound⟩ := h.sound
  have hlt : place < k + 1 := hsound.storages ▸ (List.getElem?_eq_some_iff.1 hs).1
  have hth := List.getElem?_eq_getElem (Nat.lt_of_lt_of_le hlt hsound.present)
  have hserves := hsound.serves place s _ hs hth
  exact ⟨_, hth, hserves.worker, hserves.stack⟩

/-- Only the storage of the thread that steps has other holders afterwards. -/
theorem Hosts.stack_kept (h : m.Hosts k es) {es' : TaskId → List Event} (h' : (rest.setThread id th').Hosts k es')
    (hm : m.Move id th rest th') {place : StorageId} (hs : m.ledger.roster.storages[place]? = some s)
    (hs' : rest.ledger.roster.storages[place]? = some s') (hne : place ≠ id) : s'.stack = s.stack := by
  obtain ⟨x, hx, _, hstack⟩ := h.exists_served hs
  obtain ⟨x', hx', _, hstack'⟩ := h'.exists_served hs'
  cases (hm.kept hx hne).symm.trans hx'
  exact hstack'.trans hstack.symm

/-- Holders come only on the stack of the thread that steps. -/
theorem Hosts.registers (h : m.Hosts k es) {es' : TaskId → List Event} (h' : (rest.setThread id th').Hosts k es')
    (hm : m.Move id th rest th') (hth : m.threads[id]? = some th)
    (hr : Turn.Registers ⟨m, (id, choice), rest.setThread id th'⟩ holder w) : w = id ∧ holder ∈ th'.stack := by
  obtain ⟨place, s, s', hs, hs', hbefore, hafter, rfl⟩ := hr
  simp only [Storage.contains_eq, decide_eq_true_eq] at hbefore hafter
  obtain rfl : place = id := by
    apply Classical.byContradiction
    intro hne
    rw [h.stack_kept h' hm hs hs' hne] at hafter
    exact hbefore hafter
  obtain ⟨x, hx, hworker, hstack⟩ := h'.exists_served hs'
  cases (hm.self hth).symm.trans hx
  exact ⟨hworker, hstack ▸ hafter⟩

/-- Holders leave only the stack of the thread that steps, and are on no stack then. -/
theorem Hosts.deregisters (h : m.Hosts k es) {es' : TaskId → List Event} (h' : (rest.setThread id th').Hosts k es')
    (hm : m.Move id th rest th') (hth : m.threads[id]? = some th)
    (hd : Turn.Deregisters ⟨m, (id, choice), rest.setThread id th'⟩ holder w) :
    w = id ∧ holder ∈ th.stack ∧ rest.ledger.roster.markOf holder = Holder.unregistered := by
  obtain ⟨place, s, s', hs, hs', hbefore, hafter, rfl⟩ := hd
  simp only [Storage.contains_eq, decide_eq_true_eq] at hbefore hafter
  obtain ⟨space, hist, hsound⟩ := h.sound
  obtain ⟨space', hist', hsound'⟩ := h'.sound
  obtain rfl : place = id := by
    apply Classical.byContradiction
    intro hne
    rw [h.stack_kept h' hm hs hs' hne] at hafter
    exact hafter hbefore
  obtain ⟨x, hx, hworker, hstack⟩ := h.exists_served hs
  cases hth.symm.trans hx
  refine ⟨hworker, hstack ▸ hbefore, Classical.byContradiction fun hmark => ?_⟩
  -- another stack that has the holder now had it before
  obtain ⟨other, o', ho', hin'⟩ := hsound'.roster.stacked holder hmark
  by_cases hne : other = place
  · subst hne
    cases hs'.symm.trans ho'
    exact hafter hin'
  · obtain ⟨o, ho⟩ := Roster.exists_storage (hsound.storages.trans hsound'.storages.symm ▸
      (List.getElem?_eq_some_iff.1 ho').1)
    rw [h.stack_kept h' hm ho ho' hne] at hin'
    exact hne (hsound.roster.disjoint other place o s ho hs holder hin' hbefore)

theorem Hosts.by_worker (h : m.Hosts k es) (hth : m.threads[id]? = some th) (hw : th.context.isSome) (m' : Machine σ) :
    Turn.By ⟨m, (id, choice), m'⟩ id := by
  obtain ⟨c, hc⟩ := Option.isSome_iff_exists.1 hw
  exact ⟨rfl, th, c, hth, hc, ((h.fits hth).works c hc).2.1⟩

/-! ## Who takes a body -/

theorem waiting_setCell {cell cell' : Cell (Body σ)} (hc : m.cell? u = some cell) (hid : cell'.id = u)
    (hb : cell'.body = cell.body) (t : TaskId) :
    Cell.waiting ((m.setCell cell').cell? t) = Cell.waiting (m.cell? t) := by
  rw [cell?_setCell hc hid]
  split
  · rename_i he
    rw [he, hc]
    simp [Cell.waiting, hb]
  · rfl

/-- A body is taken by a worker that waits for its task, or that has found its queue entry, unless the runtime
is closed. -/
theorem Move.taker (hm : m.Move id th rest th') (hfresh : m.Fresh) (hcrash : rest.crash = none)
    (hw : Cell.waiting (m.cell? t) = true) (hn : Cell.waiting (rest.cell? t) = false) :
    (∃ kind next, th.control = .run (.wait kind t next)) ∧ th.context.isSome ∨
      th.control = .hold t ∧ th.frames ≠ [] ∨ ∃ runtime next, th.control = .stop runtime .close next := by
  have hsame : ∀ {after : Machine σ}, Cell.waiting (after.cell? t) = Cell.waiting (m.cell? t) →
      Cell.waiting (after.cell? t) = false → False := fun he hn => by
    rw [he, hw] at hn
    cases hn
  have hself : ∀ {u cell}, m.cell? u = some cell →
      Cell.waiting ((m.setCell { cell with body := none }).cell? t) = false → t = u := by
    intro u cell hc hn
    apply Classical.byContradiction
    intro hne
    rw [cell?_setCell hc (show ({ cell with body := none } : Cell (Body σ)).id = u from (hfresh u cell hc).1),
      if_neg hne, hw] at hn
    cases hn
  cases hm with
  | spawned hctl _ hrt =>
    rw [Scene.cell?_enroll] at hn
    split at hn
    · cases hn
    · exact (hsame rfl hn).elim
  | began _ hc | resumed _ hc | settled _ hc | published _ hc =>
    exact (hsame (waiting_setCell hc (by exact (hfresh _ _ hc).1) (by rfl) t) hn).elim
  | nested hctl hc _ hs =>
    obtain rfl := hself hc hn
    obtain ⟨c, hcontext, _⟩ := Option.bind_eq_some_iff.1 hs
    exact .inl ⟨⟨_, _, hctl⟩, by rw [hcontext]; rfl⟩
  | took hctl hf _ _ hc =>
    obtain rfl := hself hc hn
    exact .inr (.inl ⟨hctl, by rw [hf]; exact List.cons_ne_nil _ _⟩)
  | closed hctl => exact .inr (.inr ⟨_, _, hctl⟩)
  | crashed => cases hcrash
  | _ => exact (hsame rfl hn).elim

theorem Hosts.takes (h : m.Hosts k es) (ho : m.Orderly k rt es) (hth : m.threads[id]? = some th)
    (hm : m.Move id th rest th') (hcrash : rest.crash = none)
    (ht : Turn.takes ⟨m, (id, choice), rest.setThread id th'⟩ t) :
    .taken (some id) ∈ Scene.next es id th m rest t ∧ th.context.isSome ∧
      ((∃ kind next, th.control = .run (.wait kind t next)) ∨ th.control = .hold t) := by
  obtain ⟨hw, hn⟩ := Bool.and_eq_true_iff.1 ht
  have hw : Cell.waiting (m.cell? t) = true := hw
  have hn : Cell.waiting (rest.cell? t) = false := Bool.not_eq_true' _ ▸ hn
  rcases hm.taker h.accounted.fresh hcrash hw hn with ⟨⟨kind, next, hctl⟩, hworks⟩ | ⟨hctl, hframes⟩ | ⟨_, _, hctl⟩
  · exact ⟨List.mem_append_right _ (by simp [Thread.events, hctl, hw, hn]), hworks, .inl ⟨kind, next, hctl⟩⟩
  · obtain ⟨frame, frames, hf⟩ := List.exists_cons_of_ne_nil hframes
    obtain ⟨c, hc, _⟩ := h.works hth hf
    exact ⟨List.mem_append_right _ (by simp [Thread.events, hctl, hw, hn]), by rw [hc]; rfl, .inr hctl⟩
  · obtain ⟨body, hbody⟩ := Option.isSome_iff_exists.1 hw
    obtain ⟨cell, hc, hbody⟩ := Option.bind_eq_some_iff.1 hbody
    cases (ho.all_taken h hth hctl hc).symm.trans hbody

/-- Whoever is seen to take a body does so. -/
theorem takes_of_events {c c' : Option (Cell (Body σ))} (h : .taken (some w) ∈ th.events id t c c') :
    (Cell.waiting c && !Cell.waiting c') = true := by
  unfold Thread.events at h
  split at h
  case h_2 | h_3 =>
    split at h
    · rename_i hw
      simpa using hw
    · cases h
  case h_9 =>
    split at h
    · simp at h
    · cases h
  case h_10 => cases h
  case h_5 | h_6 =>
    obtain ⟨_, _, he⟩ := List.mem_map.1 h
    cases he
  all_goals
    split at h
    · cases List.mem_singleton.1 h
    · cases h

/-! ## What is done for a body -/

theorem Hosts.apart (h : m.Hosts k es) (hth : m.threads[id]? = some th) (hm : m.Move id th rest th')
    (hcrash : rest.crash = none) (ha : m.ledger.Apart) : rest.ledger.Apart := by
  obtain ⟨rt, hone, _⟩ := h.runtime
  obtain ⟨space, hist, hsound⟩ := h.sound
  obtain ⟨a, hspace, htally⟩ := hsound.tally
  obtain rfl := (hsound.runtimes rt (by simp [hone])).2.1
  exact (h.footprint hth hm hcrash hone).apart hspace htally.valid ha

/-- Whatever a step does for the body of a task, the thread that steps took the body, and it does so as the
worker that it is. -/
theorem Hosts.touches (h : m.Hosts k es) (ho : m.Orderly k rt es) (hth : m.threads[id]? = some th)
    (hm : m.Move id th rest th') (h' : (rest.setThread id th').Hosts k (Scene.next es id th m rest))
    (ha : m.ledger.Apart) {named : Option WorkerId}
    (ht : Turn.Touches ⟨m, (id, choice), rest.setThread id th'⟩ t named) :
    Houses (Scene.next es id th m rest) t id ∧ th.context.isSome ∧ ∀ v ∈ named, v = id := by
  have hcrash : rest.crash = none := h'.crash
  obtain ⟨found, hone, _⟩ := h.runtime
  have hf := h.footprint hth hm hcrash hone
  -- a body that is on the thread before the step
  have hon : ∀ {bracket}, (t, bracket) ∈ th.bodies →
      Houses (Scene.next es id th m rest) t id ∧ th.context.isSome := fun hin =>
    ⟨(h.houses hth hin).mono _, (h.fits hth).isSome_of_bodies hin⟩
  cases ht with
  | takes ht =>
    obtain ⟨htaken, hworks, _⟩ := h.takes ho hth hm hcrash ht
    exact ⟨.inr htaken, hworks, fun _ hv => by cases hv⟩
  | @registers holder g w hregisters hg howner =>
    obtain ⟨rfl, hafter⟩ := h.registers h' hm hth hregisters
    obtain ⟨bracket, hin⟩ := h'.body_of_stack (hm.self hth) hafter hg howner
    refine ⟨h'.houses (hm.self hth) hin, h.worked hth hm ((h'.fits (hm.self hth)).isSome_of_bodies hin),
      fun v hv => ?_⟩
    cases hv
    rfl
  | @deregisters holder g w hderegisters hg howner =>
    obtain ⟨rfl, hbefore, _⟩ := h.deregisters h' hm hth hderegisters
    obtain ⟨bracket, hin⟩ := h.body_of_stack hth hbefore hg howner
    refine ⟨(hon hin).1, (hon hin).2, fun v hv => ?_⟩
    cases hv
    rfl
  | @maps x bracket below space a a' ptr worker hx hbodies hspace hspace' hmade =>
    cases hth.symm.trans hx
    have hin : (t, bracket) ∈ th.bodies := hbodies ▸ List.mem_cons_self
    refine ⟨(hon hin).1, (hon hin).2, fun v hv => ?_⟩
    obtain ⟨after, hafter, made, hlocalized, hworker⟩ := hf.mapped space a hspace
    cases hafter.symm.trans hspace'
    rw [hlocalized, List.drop_left] at hmade
    cases hv
    exact hworker _ hmade
  | @releases rt holder g handle hrt hg howner hin halive hdead =>
    obtain rfl : rt = found := List.mem_singleton.1 (hone ▸ hrt)
    rcases hf.released handle halive with hlive | ⟨mine, g', hmine, hg', hin'⟩
    · exact absurd hlive hdead
    · obtain rfl := ha holder mine g g' hg hg' handle hin hin'
      obtain ⟨bracket, hbody⟩ := h.body_of_stack hth (h.mem_stack hth hmine) hg howner
      exact ⟨(hon hbody).1, (hon hbody).2, fun _ hv => by cases hv⟩

/-- What is recorded in a holder that leaves its stack is released. -/
theorem Hosts.clears (h : m.Hosts k es) {es' : TaskId → List Event} (h' : (rest.setThread id th').Hosts k es')
    (hth : m.threads[id]? = some th) (hm : m.Move id th rest th')
    (hd : Turn.Deregisters ⟨m, (id, choice), rest.setThread id th'⟩ holder w) (hrt : rt ∈ m.runtimes)
    (hg : m.ledger.roster.holder? holder = some g) {handle : MappingId} (hin : handle ∈ g.handles) :
    ¬rest.ledger.Alive rt.space handle := by
  obtain ⟨found, hone, _⟩ := h.runtime
  obtain rfl : rt = found := List.mem_singleton.1 (hone ▸ hrt)
  obtain ⟨_, _, hmark⟩ := h.deregisters h' hm hth hd
  rcases (h.footprint hth hm h'.crash hone).cleared holder g hg handle hin with ⟨g', hg', hin'⟩ | hdead
  · obtain ⟨space, hist, hsound⟩ := h'.sound
    obtain ⟨a, _, htally⟩ := hsound.tally
    rw [htally.empty holder g' hg' ((Roster.markOf_eq hg').symm.trans hmark)] at hin'
    cases hin'
  · exact hdead

/-- What is done for a body up to some point of a run, one worker does; and it took the body. -/
structure Homed (turns : Turns σ) (es : TaskId → List Event) : Prop where
  takers : ∀ t w, .taken (some w) ∈ es t → ∃ turn ∈ turns, turn.takes t
  touched : ∀ turn ∈ turns, ∀ t named, turn.Touches t named →
    Houses es t turn.act.1 ∧ turn.By turn.act.1 ∧ ∀ v ∈ named, v = turn.act.1
  cleared : ∀ turn ∈ turns, ∀ rt ∈ turn.before.runtimes, ∀ holder w g, turn.Deregisters holder w →
    turn.before.ledger.roster.holder? holder = some g → ∀ handle ∈ g.handles,
    ¬turn.after.ledger.Alive rt.space handle

theorem Homed.move (hd : Homed turns es) (h : m.Hosts k es) (ho : m.Orderly k rt es)
    (hth : m.threads[id]? = some th) (hm : m.Move id th rest th')
    (h' : (rest.setThread id th').Hosts k (Scene.next es id th m rest)) (ha : m.ledger.Apart) (choice : Choice) :
    Homed (turns ++ [⟨m, (id, choice), rest.setThread id th'⟩]) (Scene.next es id th m rest) where
  takers t w hin := by
    rcases List.mem_append.1 hin with hin | hin
    · obtain ⟨turn, hturn, ht⟩ := hd.takers t w hin
      exact ⟨turn, List.mem_append_left _ hturn, ht⟩
    · exact ⟨_, List.mem_append_right _ List.mem_cons_self, takes_of_events hin⟩
  touched turn hturn t named ht := by
    rcases List.mem_append.1 hturn with hturn | hturn
    · obtain ⟨hhouses, hby⟩ := hd.touched turn hturn t named ht
      exact ⟨hhouses.mono _, hby⟩
    · cases List.mem_singleton.1 hturn
      obtain ⟨hhouses, hworks, hnamed⟩ := h.touches ho hth hm h' ha ht
      exact ⟨hhouses, h.by_worker hth hworks _, hnamed⟩
  cleared turn hturn rt hrt holder w g hderegisters hg handle hin := by
    rcases List.mem_append.1 hturn with hturn | hturn
    · exact hd.cleared turn hturn rt hrt holder w g hderegisters hg handle hin
    · cases List.mem_singleton.1 hturn
      exact h.clears h' hth hm hderegisters hrt hg hin

/-! ## Sticky tasks -/

/-- The task is queued as pinned with certain workers only, and no other has found it. -/
structure Confines (m : Machine σ) (t : TaskId) (p : WorkerId → Prop) : Prop where
  queues : ∀ rt ∈ m.runtimes, rt.queues.Confines t p
  held : ∀ (id : ThreadId) (th : Thread σ), m.threads[id]? = some th → th.control = .hold t → p id

theorem Confines.mono {p' : WorkerId → Prop} (h : m.Confines t p) (hp : ∀ v, p v → p' v) : m.Confines t p' :=
  ⟨fun rt hrt => (h.queues rt hrt).mono hp, fun id th hth hctl => hp id (h.held id th hth hctl)⟩

/-- A new task may be queued as pinned with the worker that spawns it. -/
theorem Hosts.confines_enqueue (h : m.Hosts k es) (hth : m.threads[id]? = some th) (hrt : rt.Staffed k)
    (hq : rt.queues.Confines t p) {sticky : Bool} {task : TaskId}
    (hnew : t = task → th.context.isSome ∧ sticky = true ∧ p id) :
    (th.enqueue 0 sticky task rt.queues).Confines t p := by
  unfold Thread.enqueue
  cases hc : th.context with
  | none =>
    refine hq.inject fun he => ?_
    have hworks := (hnew he).1
    rw [hc] at hworks
    cases hworks
  | some c =>
    obtain ⟨h0, hw, hlt⟩ := (h.fits hth).works c hc
    simp only [h0, hw, if_true]
    exact hq.add (hrt.lanes ▸ hlt) fun he => (hnew he).2

/-- The thread spawns a task that is to be confined, as a sticky one. -/
def Pins (m : Machine σ) (id : ThreadId) (th : Thread σ) (p : WorkerId → Prop) : Prop :=
  th.context.isSome ∧ p id ∧ ∀ target options child next, th.control = .run (.spawn target options child next) →
    ∀ rt ∈ m.runtimes, (options.sticky || rt.config.defaultSticky) = true

theorem Confines.queues_move (hf : m.Confines t p) (h : m.Hosts k es) (hth : m.threads[id]? = some th)
    (hm : m.Move id th rest th') (hcrash : rest.crash = none)
    (hnew : m.cell? t = none → (rest.cell? t).isSome → m.Pins id th p) (hin : rt ∈ rest.runtimes) :
    rt.queues.Confines t p := by
  obtain ⟨old, hone, hrt⟩ := h.runtime
  have hmem : old ∈ m.runtimes := by simp [hone]
  have hold : old.queues.Confines t p := hf.queues old hmem
  have hupdate : ∀ {runtime : RuntimeId} {found : Runtime} {f : Runtime → Runtime}, m.runtimes[runtime]? = some found →
      (found = old → (f found).queues.Confines t p) → rt ∈ (m.updateRuntime runtime f).runtimes →
      rt.queues.Confines t p := by
    intro runtime found f hrun hq hin
    obtain ⟨rfl, rfl⟩ := runtime_eq hone hrun
    rw [updateRuntime_eq hone, List.mem_singleton] at hin
    exact hin ▸ hq rfl
  cases hm with
  | @spawned target options child next _ found sticky hctl _ hrun hsticky =>
    obtain ⟨rfl, rfl, he⟩ := enroll_eq hone hrun
    rw [he, List.mem_singleton] at hin
    subst hin
    refine h.confines_enqueue hth hrt hold fun ht => ?_
    have hborn : ((m.enroll th 0 sticky options.name child).cell? t).isSome := by
      rw [Scene.cell?_enroll, if_pos ht]
      rfl
    obtain ⟨hworks, hp, hpins⟩ := hnew (ht ▸ m.cell?_fresh) hborn
    exact ⟨hworks, hsticky.trans (hpins _ _ _ _ hctl _ hmem), hp⟩
  | launched hctl => exact (h.controlFits hth hctl).2.elim
  | woke _ hrun | parked _ _ hrun | stopped _ hrun | rang _ hrun => exact hupdate hrun (fun he => he ▸ hold) hin
  | found hctl hseeks hrun hchoose =>
    obtain ⟨_, rfl, hlt⟩ := h.seeks hth hctl hseeks
    refine hupdate hrun (fun he => ?_) hin
    subst he
    exact (Queues.choose_sifts (hrt.lanes ▸ hlt) hchoose).confines hold
  | @closed _ found _ storage _ hrun =>
    obtain ⟨left, crash, he⟩ := dropQueues_eq (m.closeStorage storage) (queued found.queues)
    rw [he] at hin
    exact hupdate hrun (fun _ => Queues.confines_empty _ t p) hin
  | crashed => cases hcrash
  | _ => exact hf.queues rt hin

/-- Only a worker that has the task pinned finds it. -/
theorem Confines.found (hf : m.Confines t p) (h : m.Hosts k es) (hth : m.threads[id]? = some th)
    (hm : m.Move id th rest th') (hcrash : rest.crash = none) (hhold : th'.control = .hold t) :
    th.context.isSome ∧ p id ∧ ∃ rt ∈ m.runtimes, t ∈ (rt.queues.lane id).pinned := by
  obtain ⟨rt, hone, hrt⟩ := h.runtime
  have hmem : rt ∈ m.runtimes := by simp [hone]
  cases hm with
  | found hctl hseeks hrun hchoose =>
    cases hhold
    obtain ⟨_, rfl, hlt⟩ := h.seeks hth hctl hseeks
    obtain ⟨_, rfl⟩ := runtime_eq hone hrun
    have hpinned := (hf.queues _ hmem).found (Queues.choose_sifts (hrt.lanes ▸ hlt) hchoose)
    refine ⟨?_, (hf.queues _ hmem).pinned _ hpinned, _, hmem, hpinned⟩
    cases hseeks with
    | loop _ hc => exact Option.isSome_iff_exists.2 ⟨_, hc⟩
    | drain hframes =>
      obtain ⟨c, hc, _⟩ := h.works hth hframes
      exact Option.isSome_iff_exists.2 ⟨c, hc⟩
  | @idle _ _ leaving => cases leaving <;> cases hhold
  | @settled _ _ _ frame _ _ _ _ _ _ hpast | @passed _ frame _ _ _ _ _ hpast =>
    cases hhold
    cases frame <;> cases hpast
  | crashed => cases hcrash
  | _ => cases hhold

theorem Confines.move (hf : m.Confines t p) (h : m.Hosts k es) (hth : m.threads[id]? = some th)
    (hm : m.Move id th rest th') (hcrash : rest.crash = none)
    (hnew : m.cell? t = none → (rest.cell? t).isSome → m.Pins id th p) : (rest.setThread id th').Confines t p where
  queues _ hin := hf.queues_move h hth hm hcrash hnew hin
  held other x hx hhold := by
    rcases hm.thread_cases hth hx with ⟨rfl, rfl⟩ | ⟨_, hx⟩ | ⟨_, _, ha⟩
    · exact (hf.found h hth hm hcrash hhold).2.1
    · exact hf.held other x hx hhold
    · rcases ha with ⟨_, _, _, rfl⟩ | ⟨_, _, _, _, _, _, rfl⟩ <;> cases hhold

/-- A task that is not spawned yet is nowhere, and one that was spawned as sticky is guarded from then on. -/
structure Sticks (turns : Turns σ) (m : Machine σ) : Prop where
  unborn : ∀ t, m.cell? t = none → m.Confines t fun _ => False
  sticky : ∀ earlier spawning later t w, turns = earlier ++ spawning :: later → spawning.SpawnsSticky t w →
    (∀ turn ∈ later, turn.Guards t w) ∧ (m.cell? t).isSome ∧ m.Confines t (· = w)

/-- While a task is confined to a worker, a turn leaves it there. -/
theorem Confines.guards (hf : m.Confines t (· = w)) (h : m.Hosts k es) (ho : m.Orderly k rt es)
    (hth : m.threads[id]? = some th) (hm : m.Move id th rest th') (hcrash : rest.crash = none)
    (hborn : (m.cell? t).isSome) (choice : Choice) : Turn.Guards ⟨m, (id, choice), rest.setThread id th'⟩ t w where
  taken ht := by
    obtain ⟨_, hworks, ⟨kind, next, hctl⟩ | hctl⟩ := h.takes ho hth hm hcrash ht
    · exact .inl ⟨th, kind, next, hth, hctl⟩
    · obtain rfl := hf.held id th hth hctl
      exact .inr ⟨h.by_worker hth hworks _, th, hth, hctl⟩
  found := by
    rintro ⟨_, x, hx, hhold⟩
    cases (hm.self hth).symm.trans hx
    obtain ⟨hworks, rfl, hpinned⟩ := hf.found h hth hm hcrash hhold
    exact ⟨h.by_worker hth hworks _, hpinned⟩
  queued := (hf.move h hth hm hcrash fun hnone => by
    rw [hnone] at hborn
    cases hborn).queues

/-- A task that is not spawned yet is confined to the worker that spawns it as a sticky one. -/
theorem Sticks.spawn (hs : Sticks turns m) (h : m.Hosts k es) (hth : m.threads[id]? = some th)
    (hm : m.Move id th rest th') (hcrash : rest.crash = none)
    (hspawns : Turn.SpawnsSticky ⟨m, (id, choice), rest.setThread id th'⟩ t w) :
    (rest.setThread id th').Confines t (· = w) := by
  obtain ⟨⟨rfl, _, c, hx, hc, _⟩, ⟨_, target, options, child, next, hx', hctl, hsticky⟩, hunborn, _⟩ := hspawns
  cases hth.symm.trans hx
  cases hth.symm.trans hx'
  have hnowhere : m.Confines t (· = id) := (hs.unborn t hunborn).mono fun _ hv => hv.elim
  refine hnowhere.move h hth hm hcrash fun _ _ => ?_
  refine ⟨Option.isSome_iff_exists.2 ⟨c, hc⟩, rfl, fun _ _ _ _ he rt hrt => ?_⟩
  cases hctl.symm.trans he
  rcases hsticky with hsticky | hlocal
  · simp [hsticky]
  · simp [Config.defaultSticky, hlocal rt hrt]

theorem Sticks.move (hs : Sticks turns m) (h : m.Hosts k es) (ho : m.Orderly k rt es)
    (hth : m.threads[id]? = some th) (hm : m.Move id th rest th')
    (h' : (rest.setThread id th').Hosts k (Scene.next es id th m rest)) (choice : Choice) :
    Sticks (turns ++ [⟨m, (id, choice), rest.setThread id th'⟩]) (rest.setThread id th') := by
  have hcrash : rest.crash = none := h'.crash
  have hstays : ∀ {t}, (m.cell? t).isSome → (rest.cell? t).isSome := by
    intro t hborn
    obtain ⟨cell, hc⟩ := Option.isSome_iff_exists.1 hborn
    obtain ⟨cell', hc', _⟩ := h.moved hth h' hc
    exact Option.isSome_iff_exists.2 ⟨cell', hc'⟩
  refine ⟨fun t hnone => ?_, fun earlier spawning later t w heq hspawns => ?_⟩
  · have hnone : ¬(rest.cell? t).isSome := Option.not_isSome_iff_eq_none.2 hnone
    have hunborn := Option.not_isSome_iff_eq_none.1 fun hborn => hnone (hstays hborn)
    exact (hs.unborn t hunborn).move h hth hm hcrash fun _ hborn => absurd hborn hnone
  · rcases split_of_snoc heq with ⟨_, rfl, rfl⟩ | ⟨init, rfl, hold⟩
    · exact ⟨fun _ hin => absurd hin List.not_mem_nil, hspawns.born, hs.spawn h hth hm hcrash hspawns⟩
    · obtain ⟨hguards, hborn, hconfines⟩ := hs.sticky earlier spawning init t w hold hspawns
      refine ⟨fun turn hin => ?_, hstays hborn, hconfines.move h hth hm hcrash fun hnone => ?_⟩
      · rcases List.mem_append.1 hin with hin | hin
        · exact hguards turn hin
        · cases List.mem_singleton.1 hin
          exact hconfines.guards h ho hth hm hcrash hborn choice
      · rw [hnone] at hborn
        cases hborn

/-! ## Runs -/

variable {parallelism : Nat} {spaces : List Recorder} {shared : σ} {settings : Settings} {given : Option SpaceId}
  {answer : Except BuildError RuntimeId → Body σ} {config : Config} {schedule : List (ThreadId × Choice)}

theorem Launched.bodies (hl : Launched k answer m) (hth : m.threads[id]? = some th) : th.bodies = [] := by
  rcases hl.thread hth with ⟨_, rfl⟩ | ⟨_, rfl⟩ <;> rfl

/-- Without bodies no holder is registered, and none has recorded anything. -/
theorem handles_launched (h : m.Hosts k es) (hl : Launched k answer m)
    (hg : m.ledger.roster.holder? holder = some g) : g.handles = [] := by
  obtain ⟨space, hist, hsound⟩ := h.sound
  obtain ⟨a, _, htally⟩ := hsound.tally
  refine htally.empty holder g hg (Classical.byContradiction fun hne => ?_)
  obtain ⟨place, s, hs, hstack⟩ := hsound.roster.stacked holder (Roster.markOf_eq hg ▸ hne)
  obtain ⟨th, hth, _, he⟩ := h.exists_served hs
  rw [he, Thread.stack, hl.bodies hth] at hstack
  cases hstack

theorem apart_launched (h : m.Hosts k es) (hl : Launched k answer m) : m.ledger.Apart := by
  intro holder _ g _ hg _ id hin _
  rw [handles_launched h hl hg] at hin
  cases hin

/-- Launching a runtime does nothing for any task. -/
theorem homed_launched (choice : Choice) (m : Machine σ) :
    Homed [⟨start parallelism spaces shared (.build settings given answer), (0, choice), m⟩] (fun _ => []) := by
  refine ⟨fun _ _ hin => absurd hin List.not_mem_nil, fun turn hin t named ht => ?_, fun turn hin rt hrt => ?_⟩
  · cases List.mem_singleton.1 hin
    have hnone : (start parallelism spaces shared (.build settings given answer)).cell? t = none := by
      cases t <;> rfl
    cases ht with
    | takes ht =>
      obtain ⟨hw, _⟩ := Bool.and_eq_true_iff.1 ht
      rw [hnone] at hw
      cases hw
    | registers hr =>
      obtain ⟨_, _, _, hs, _⟩ := hr
      cases hs
    | deregisters hd =>
      obtain ⟨_, _, _, hs, _⟩ := hd
      cases hs
    | maps hth hbodies =>
      cases Option.some.inj hth
      cases hbodies
    | releases hrt => cases hrt
  · cases List.mem_singleton.1 hin
    cases hrt

theorem sticks_launched (hl : Launched k answer m) (choice : Choice) (before : Machine σ) :
    Sticks [⟨before, (0, choice), m⟩] m := by
  refine ⟨fun t _ => ⟨fun rt hrt => ?_, fun id th hth hctl => ?_⟩, fun earlier spawning later t w heq hspawns => ?_⟩
  · obtain ⟨found, hone, hqueues, _⟩ := hl.runtime
    rw [hone, List.mem_singleton] at hrt
    rw [hrt, hqueues]
    exact Queues.confines_empty _ _ _
  · rcases hl.thread hth with ⟨_, rfl⟩ | ⟨_, rfl⟩ <;> cases hctl
  · obtain ⟨rfl, rfl, rfl⟩ | ⟨init, _, hnil⟩ := split_of_snoc ((List.nil_append _).trans heq)
    · have hborn := hspawns.born
      rw [show m.cell? t = none from hl.cell t] at hborn
      cases hborn
    · cases earlier <;> cases hnil

/-- In a run whose tasks stay where they began, everything that is done for the body of a task is done by one
worker, which took it; only the thread that built the runtime does anything for roots; what a body has mapped
is released by the time it is deregistered; and a sticky task is guarded from its spawn on. -/
structure StaysHome (turns : Turns σ) : Prop where
  tasks : ∀ t ≠ TaskId.root, ∃ w, ∀ turn ∈ turns, ∀ named, turn.Touches t named →
    turn.By w ∧ (∀ v ∈ named, v = w) ∧ ∃ taking ∈ turns, taking.takes t
  roots : ∀ turn ∈ turns, ∀ named, turn.Touches TaskId.root named →
    turn.By WorkerId.root ∧ ∀ v ∈ named, v = WorkerId.root
  cleared : ∀ turn ∈ turns, ∀ rt ∈ turn.before.runtimes, ∀ holder w g, turn.Deregisters holder w →
    turn.before.ledger.roster.holder? holder = some g → ∀ handle ∈ g.handles,
    ¬turn.after.ledger.Alive rt.space handle
  sticky : ∀ earlier spawning later t w, turns = earlier ++ spawning :: later → spawning.SpawnsSticky t w →
    ∀ turn ∈ later, turn.Guards t w

theorem Homed.staysHome (hd : Homed turns es) (hs : Sticks turns m) (h : m.Hosts k es) : StaysHome turns where
  tasks t ht := by
    by_cases hany : ∃ turn ∈ turns, ∃ named, turn.Touches t named
    · obtain ⟨first, hfirst, named, htouches⟩ := hany
      refine ⟨first.act.1, fun turn hturn named' htouches' => ?_⟩
      have hhome := (hd.touched first hfirst t named htouches).1
      obtain ⟨hhouses, hby, hnamed⟩ := hd.touched turn hturn t named' htouches'
      rw [← h.houses_unique hhouses hhome]
      refine ⟨hby, hnamed, ?_⟩
      rcases hhouses with ⟨he, _⟩ | htaken
      · exact absurd he ht
      · exact hd.takers t _ htaken
    · exact ⟨WorkerId.root, fun turn hturn named htouches => absurd ⟨turn, hturn, named, htouches⟩ hany⟩
  roots turn hturn named htouches := by
    obtain ⟨hhouses, hby, hnamed⟩ := hd.touched turn hturn TaskId.root named htouches
    have hroot : Houses es TaskId.root WorkerId.root := .inl ⟨rfl, rfl⟩
    rw [h.houses_unique hhouses hroot] at hby hnamed
    exact ⟨hby, hnamed⟩
  cleared := hd.cleared
  sticky earlier spawning later t w heq hspawns := (hs.sticky earlier spawning later t w heq hspawns).1

/-- Whatever the tasks of a run do, however many workers there are and however they are scheduled, tasks stay
where they began. -/
theorem run_stays_home (h : Launches parallelism spaces settings given config)
    (hanswer : (answer (.ok 0)).Allowed .outside)
    (hrun : trail advance (start parallelism spaces shared (.build settings given answer)) schedule =
      some (turns, m)) : StaysHome turns := by
  have hinv := hosts_run
    (P := fun turns es m => (∃ rt, m.runtimes = [rt] ∧ m.Orderly config.poolSize rt es) ∧ m.ledger.Apart ∧
      Homed turns es ∧ Sticks turns m) h hanswer
    (fun before choice m _ hm hl hbefore => by
      obtain ⟨rt, hone, hqueues, _⟩ := hl.runtime
      subst hbefore
      exact ⟨⟨rt, hone, orderly_launched hl hqueues⟩, apart_launched hm hl, homed_launched choice m,
        sticks_launched hl choice _⟩)
    (fun turns es m id choice th rest th' hm ⟨⟨rt, hone, ho⟩, ha, hd, hs⟩ hth hmove hm' => by
      obtain ⟨rt', hone', _⟩ := hm'.runtime
      have ha' : rest.ledger.Apart := hm.apart hth hmove hm'.crash ha
      exact ⟨⟨rt', hone', ho.move hm hth hmove hm' hone hone'⟩, ha',
        hd.move hm ho hth hmove hm' ha choice, hs.move hm ho hth hmove hm' choice⟩) hrun
  rcases hinv with ⟨rfl, rfl⟩ | ⟨es, hm, _, _, hd, hs⟩
  · refine ⟨fun _ _ => ⟨WorkerId.root, fun _ hin => absurd hin List.not_mem_nil⟩,
      fun _ hin => absurd hin List.not_mem_nil, fun _ hin => absurd hin List.not_mem_nil,
      fun earlier _ _ _ _ heq => ?_⟩
    cases earlier <;> cases heq
  · exact hd.staysHome hs hm

/-- Maps some memory, and spawns a sticky task. -/
def mapping : Body Unit :=
  .call (.memory (.alloc 8 8)) fun
  | .ok ptr => .call (.memory (.localize ptr 8 .readOnly)) fun _ => .spawn none ⟨true, none⟩ (.finish .none) fun _ =>
    .finish .none
  | .error _ => .finish .none

/-- Spawns a task, and joins the sticky task that this one spawns. -/
def inviting : Body Unit :=
  .spawn none ⟨false, none⟩ mapping fun _ => .wait .get 1 fun _ => .wait .join 2 fun _ => .finish .none

/-- Worker `1` steals the first task, maps for itself and pins the second one; the root gets that by its join,
and worker `1` finds the queue entry that is left of it. -/
theorem run_stays_home_invited :
    let answer : Except BuildError RuntimeId → Body Unit := fun _ => .blockOn 0 inviting fun _ => .finish .none
    let schedule : List (ThreadId × Choice) :=
      (List.replicate 4 0 ++ List.replicate 11 1 ++ List.replicate 7 0 ++ List.replicate 3 1).map fun id =>
        (id, ⟨false, 0, .lane 0⟩)
    ∃ turns m, trail advance (start 1 [] () (.build (Settings.new .stealing) none answer)) schedule =
        some (turns, m) ∧
      (turns.filter (·.takes 1)).map (fun turn => turn.act.1) = [1] ∧
      (turns.filter (·.takes 2)).map (fun turn => turn.act.1) = [0] ∧
      m.ledger.spaces.map (fun a => a.localized.map Prod.snd) = [[1]] ∧ StaysHome turns := by
  intro answer schedule
  have hlaunches : Launches 1 [] (Settings.new .stealing) none
      { flavor := .stealing, workerThreads := 1, naming := .numbered, stackSize := none, interval := 31
        retries := 3, space := Space.new 2 } :=
    ⟨rfl, rfl, by simp, by simp, by simp [Settings.new]⟩
  have hanswer : (answer (.ok 0)).Allowed .outside := by
    refine ⟨by decide, rfl, ⟨fun reply => ?_, fun _ _ _ => trivial⟩, fun _ => trivial⟩
    cases reply with
    | ok ptr => exact fun _ => ⟨trivial, fun _ => trivial⟩
    | error fault => trivial
  have hshown : (trail advance (start 1 [] () (.build (Settings.new .stealing) none answer)) schedule).map
      (fun run => ((run.1.filter (·.takes 1)).map fun turn => turn.act.1,
        (run.1.filter (·.takes 2)).map fun turn => turn.act.1,
        run.2.ledger.spaces.map fun a => a.localized.map Prod.snd)) = some ([1], [0], [[1]]) := by
    decide
  obtain ⟨⟨turns, m⟩, hrun, hshown⟩ := Option.map_eq_some_iff.1 hshown
  obtain ⟨hfirst, hsecond⟩ := Prod.mk.injEq .. ▸ hshown
  obtain ⟨hsecond, hmapped⟩ := Prod.mk.injEq .. ▸ hsecond
  exact ⟨turns, m, hrun, hfirst, hsecond, hmapped, run_stays_home hlaunches hanswer hrun⟩

end Machine

end TaskSpace

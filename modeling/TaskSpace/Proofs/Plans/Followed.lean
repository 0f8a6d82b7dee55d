import TaskSpace.Proofs.Machine.Drained
import TaskSpace.Proofs.Plans.Points

/-!
# Runs follow plans

In every run of a program that carries out a plan, each body is at a point of the plan of its task, and
each outcome is one that the plan comes to. A step moves one body on, and leaves the others where they are.
-/

namespace TaskSpace

namespace Frame

/-- Each body on the frames of thread `id` is at a point of its plan, as `A` says; `C` says which results the
plans come to. -/
def Follows (A : TaskId → Body Handles → Prop) (C : TaskId → Except Payload Value → Prop) (id : ThreadId) :
    List (Frame Handles) → Prop
  | [] => True
  | .task _ _ _ :: frames => Follows A C id frames
  | .joiner kind t next :: frames => (∃ u, top? frames = some u ∧ A u (.wait kind t next)) ∧ Follows A C id frames
  | .root _ _ next :: frames => frames = [] ∧ next = Plan.finale
  | .loop _ _ _ :: _ => id ≠ 0
  | .drain _ _ next :: _ => id = 0 ∧ ∃ result, next = .ofResult result ∧ C TaskId.root result

end Frame

/-- What the thread that built the runtime may ask for outside of block-on calls. -/
def Body.outside {σ : Type} : Body σ → Bool
  | .finish _ | .panic _ | .blockOn _ _ _ | .shutdown _ _ => true
  | _ => false

/-- What the thread that built the runtime does outside of block-on calls. It comes to an end only when the
runtime is stopping, as `S` says. -/
inductive Plan.Outer (root : Plan) (S : Prop) (A : TaskId → Body Handles → Prop)
    (C : TaskId → Except Payload Value → Prop) : Body Handles → Prop
  | blockOn : A TaskId.root (root.body [] 0) → Outer root S A C (.blockOn 0 (root.body [] 0) Plan.finale)
  | shutdown {result} : C TaskId.root result → Outer root S A C (Plan.finale result)
  | finished {result} : S → C TaskId.root result → Outer root S A C (.ofResult result)

/-- What thread `id` does next is what the plans say. -/
def Control.Follows (root : Plan) (S : Prop) (A : TaskId → Body Handles → Prop)
    (C : TaskId → Except Payload Value → Prop) (id : ThreadId) (frames : List (Frame Handles)) : Control Handles → Prop
  | .run b => (∃ u, Frame.top? frames = some u ∧ A u b) ∨ frames = [] ∧ id = 0 ∧ root.Outer S A C b
  | .wake _ b => ∃ u, Frame.top? frames = some u ∧ A u b
  | .begin t _ b => A t b
  | .leave result => ∃ u, Frame.top? frames = some u ∧ C u result
  | .publish t outcome => ∃ result, outcome = outcomeOf t result ∧ C t result
  | .wait kind t next => ∃ u, Frame.top? frames = some u ∧ A u (.wait kind t next)
  | .stop _ _ next => id = 0 ∧ ∃ result, next = .ofResult result ∧ C TaskId.root result
  | .ended result => id = 0 → S ∧ C TaskId.root result
  | .joinThread _ _ => False
  | .settle _ _ | .search | .hold _ | .park | .parked | .tick | .exit => True

/-- The body that waits to be taken, and the outcome. -/
structure Cell.Follows (A : TaskId → Body Handles → Prop) (C : TaskId → Except Payload Value → Prop) (t : TaskId)
    (cell : Cell (Body Handles)) : Prop where
  body : ∀ b, cell.body = some b → A t b
  outcome : ∀ outcome, cell.outcome = some outcome → ∃ result, outcome = outcomeOf t result ∧ C t result

structure Thread.Follows (root : Plan) (S : Prop) (A : TaskId → Body Handles → Prop)
    (C : TaskId → Except Payload Value → Prop) (id : ThreadId) (th : Thread Handles) : Prop where
  frames : Frame.Follows A C id th.frames
  control : th.control.Follows root S A C id th.frames

namespace Machine

def Stopping {σ : Type} (m : Machine σ) : Prop := ∃ rt ∈ m.runtimes, rt.stopping

/-- The machine carries out a plan: `fam` is the spawn tree up to now. -/
structure Followed (root : Plan) (fam : Family) (m : Machine Handles) : Prop where
  grown : fam.Grown
  length : fam.length = m.tasks.length
  board : ∀ path t, (path, t) ∈ m.shared → fam.place? t = some path
  cells : ∀ t cell, m.cell? t = some cell → cell.Follows (Point root fam) (Concludes root fam) t
  threads : ∀ (id : ThreadId) (th : Thread Handles), m.threads[id]? = some th →
    th.Follows root m.Stopping (Point root fam) (Concludes root fam) id

end Machine

theorem Cell.Follows.mono {A A' : TaskId → Body Handles → Prop} {C C' : TaskId → Except Payload Value → Prop}
    {t : TaskId} {cell : Cell (Body Handles)} (h : cell.Follows A C t) (hA : ∀ b, A t b → A' t b)
    (hC : ∀ result, C t result → C' t result) : cell.Follows A' C' t where
  body b hb := hA b (h.body b hb)
  outcome outcome ho := by
    obtain ⟨result, he, hc⟩ := h.outcome outcome ho
    exact ⟨result, he, hC result hc⟩

/-! ## What a thread has to do with -/

/-- The body of a task is on the frames of thread `id`; thread `0` has to do with the root at any time. -/
def Frame.Within {σ : Type} (id : ThreadId) (frames : List (Frame σ)) (u : TaskId) : Prop :=
  (∃ bracket, (u, bracket) ∈ frames.filterMap Frame.body?) ∨ u = TaskId.root ∧ id = 0

namespace Frame

variable {id : ThreadId} {frames : List (Frame Handles)} {frame : Frame Handles} {u : TaskId}
  {A A' : TaskId → Body Handles → Prop} {C C' : TaskId → Except Payload Value → Prop}

theorem within_of_top (h : top? frames = some u) : Within id frames u := by
  obtain ⟨⟨_, bracket⟩, hb, rfl⟩ := Option.map_eq_some_iff.1 h
  exact .inl ⟨bracket, List.mem_of_mem_head? hb⟩

theorem Within.cons (h : Within id frames u) : Within id (frame :: frames) u := by
  rcases h with ⟨bracket, hin⟩ | h
  · refine .inl ⟨bracket, ?_⟩
    rw [List.filterMap_cons]
    split
    · exact hin
    · exact List.mem_cons_of_mem _ hin
  · exact .inr h

theorem Follows.mono (h : Follows A C id frames) (hA : ∀ u, Within id frames u → ∀ b, A u b → A' u b)
    (hC : ∀ u, Within id frames u → ∀ result, C u result → C' u result) : Follows A' C' id frames := by
  induction frames with
  | nil => trivial
  | cons frame frames ih =>
    have hbelow : Follows A C id frames → Follows A' C' id frames := fun h =>
      ih h (fun u hu => hA u hu.cons) fun u hu => hC u hu.cons
    cases frame with
    | task => exact hbelow h
    | joiner kind t next =>
      obtain ⟨⟨u, htop, hp⟩, h⟩ := h
      exact ⟨⟨u, htop, hA u (within_of_top htop).cons _ hp⟩, hbelow h⟩
    | root => exact h
    | loop => exact h
    | drain =>
      obtain ⟨rfl, result, hnext, hc⟩ := h
      exact ⟨rfl, result, hnext, hC _ (.inr ⟨rfl, rfl⟩) _ hc⟩

end Frame

namespace Plan

variable {root : Plan} {S S' : Prop} {A A' : TaskId → Body Handles → Prop}
  {C C' : TaskId → Except Payload Value → Prop} {b : Body Handles}

theorem Outer.mono (h : root.Outer S A C b) (hS : S → S') (hA : ∀ b, A TaskId.root b → A' TaskId.root b)
    (hC : ∀ result, C TaskId.root result → C' TaskId.root result) : root.Outer S' A' C' b := by
  cases h with
  | blockOn h => exact .blockOn (hA _ h)
  | shutdown h => exact .shutdown (hC _ h)
  | finished hs h => exact .finished (hS hs) (hC _ h)

theorem Outer.outside (h : root.Outer S A C b) : b.outside := by
  cases h with
  | @finished result => cases result <;> rfl
  | _ => rfl

theorem Outer.of_blockOn {runtime : RuntimeId} {next : Except Payload Value → Body Handles}
    (h : root.Outer S A C (.blockOn runtime b next)) : next = finale ∧ A TaskId.root b := by
  generalize hb : Body.blockOn runtime b next = b' at h
  cases h with
  | blockOn h =>
    cases hb
    exact ⟨rfl, h⟩
  | @finished result => cases result <;> cases hb
  | shutdown => cases hb

theorem Outer.of_shutdown {runtime : RuntimeId} {next : Body Handles} (h : root.Outer S A C (.shutdown runtime next)) :
    ∃ result, next = .ofResult result ∧ C TaskId.root result := by
  generalize hb : Body.shutdown runtime next = b' at h
  cases h with
  | shutdown h =>
    cases hb
    exact ⟨_, rfl, h⟩
  | @finished result => cases result <;> cases hb
  | blockOn => cases hb

theorem Outer.of_result {result : Except Payload Value} (h : root.Outer S A C (.ofResult result)) :
    S ∧ C TaskId.root result := by
  generalize hb : Body.ofResult result = b' at h
  cases h with
  | @finished result' hs h =>
    cases result <;> cases result' <;> cases hb <;> exact ⟨hs, h⟩
  | shutdown | blockOn => cases result <;> cases hb

end Plan

namespace Machine

/-- The thread has the task in its hands, or its body on the frames. -/
def Concerns {σ : Type} (id : ThreadId) (th : Thread σ) (u : TaskId) : Prop :=
  th.control.task? = some u ∨ Frame.Within id th.frames u

variable {m rest : Machine Handles} {k : Nat} {es : TaskId → List Event} {id other : ThreadId}
  {th th' x : Thread Handles} {rt rt' : Runtime} {t u : TaskId} {root : Plan} {fam : Family} {S S' : Prop}
  {A A' : TaskId → Body Handles → Prop} {C C' : TaskId → Except Payload Value → Prop}
  {frames : List (Frame Handles)}

theorem follows_mono (h : th.Follows root S A C id) (hS : S → S') (hA : ∀ u, Concerns id th u → ∀ b, A u b → A' u b)
    (hC : ∀ u, Concerns id th u → ∀ result, C u result → C' u result) : th.Follows root S' A' C' id := by
  refine ⟨h.frames.mono (fun u hu => hA u (.inr hu)) fun u hu => hC u (.inr hu), ?_⟩
  have hctl := h.control
  unfold Concerns at hA hC
  cases hc : th.control <;> rw [hc] at hctl hA hC <;> try exact hctl
  case run =>
    rcases hctl with ⟨u, ht, hp⟩ | ⟨hf, hid, ho⟩
    · exact .inl ⟨u, ht, hA u (.inr (Frame.within_of_top ht)) _ hp⟩
    · exact .inr ⟨hf, hid, ho.mono hS (hA _ (.inr (.inr ⟨rfl, hid⟩))) (hC _ (.inr (.inr ⟨rfl, hid⟩)))⟩
  case «begin» => exact hA _ (.inl rfl) _ hctl
  case leave =>
    obtain ⟨u, ht, hc⟩ := hctl
    exact ⟨u, ht, hC u (.inr (Frame.within_of_top ht)) _ hc⟩
  case publish =>
    obtain ⟨result, he, hc⟩ := hctl
    exact ⟨result, he, hC _ (.inl rfl) _ hc⟩
  case wait | wake =>
    obtain ⟨u, ht, hp⟩ := hctl
    exact ⟨u, ht, hA u (.inr (Frame.within_of_top ht)) _ hp⟩
  case stop =>
    obtain ⟨hid, result, he, hc⟩ := hctl
    exact ⟨hid, result, he, hC _ (.inr (.inr ⟨rfl, hid⟩)) _ hc⟩
  case ended => exact fun hid => ⟨hS (hctl hid).1, hC _ (.inr (.inr ⟨rfl, hid⟩)) _ (hctl hid).2⟩

/-! ## A task has one body -/

/-- A task whose body runs on top of a thread is nowhere else. -/
theorem Hosts.sole {σ : Type} {m : Machine σ} {th : Thread σ} {frames : List (Frame σ)} (h : m.Hosts k es) (hth : m.threads[id]? = some th) (hfree : th.control.free)
    {bracket : Bracket} {outer : Option TaskId} (hf : th.frames = .task u bracket outer :: frames)
    (hu : u ≠ TaskId.root) : ¬Frame.Within id frames u ∧
      (∀ (other : ThreadId) (x : Thread σ), other ≠ id → m.threads[other]? = some x → ¬Concerns other x u) ∧
      ∀ cell, m.cell? u = some cell → cell.body = none ∧ cell.outcome = none := by
  have hstages : th.stages u = .running :: frames.flatMap (Frame.stages .running u) := by
    rw [Thread.stages_of_free hfree, hf, List.flatMap_cons]
    simp [Frame.stages]
  obtain ⟨hand, hl, hhand⟩ := h.accounted.life u
  have hown : th.stages u = Hand.of hand (some id) := by
    simpa [Scene.stages, hth] using hhand h.crash (some id)
  obtain ⟨rfl, hrest⟩ := Hand.of_eq_cons (hown.symm.trans hstages)
  refine ⟨fun hin => ?_, fun other x hne hx hin => ?_, fun cell hc => ?_⟩
  · rcases hin with ⟨b, hin⟩ | ⟨he, _⟩
    · exact Frame.flatMap_stages hu hin hrest
    · exact hu he
  · have hnone : x.stages u = [] := by
      have hother := hhand h.crash (some other)
      simpa [Scene.stages, hx, Hand.of, hne.symm] using hother
    rcases hin with hin | ⟨b, hin⟩ | ⟨he, _⟩
    · exact Thread.stages_of_hand hin hnone
    · exact Thread.stages_of_body hu hin hnone
    · exact hu he
  · exact (show Life u (some cell) (es u) (some (some id, .running)) from hc ▸ hl).unfinished

/-- Only the thread that built the runtime has to do with the root. -/
theorem Hosts.root_sole {σ : Type} {m : Machine σ} {th : Thread σ} (h : m.Hosts k es)
    (hth : m.threads[id]? = some th) (hc : Concerns id th TaskId.root) : id = 0 := by
  obtain ⟨space, hist, hsound⟩ := h.sound
  rcases hc with hc | ⟨bracket, hin⟩ | ⟨_, hid⟩
  · have hkeeps := hsound.keeps id th hth
    have hfit := (h.fits hth).control
    cases hctl : th.control <;> rw [hctl] at hc hkeeps hfit <;> cases hc
    · exact absurd rfl hfit.2.1
    · obtain ⟨⟨_, hcell, _⟩, _⟩ := hkeeps.2 _ rfl
      cases hcell
    · obtain ⟨⟨_, hcell, _⟩, _⟩ := hkeeps.2 _ rfl
      cases hcell
  · exact h.of_root hth hin
  · exact hid

/-- A task whose body is on top of a thread has nothing to do with other threads, or with what is below. -/
theorem Followed.apart (h : m.Hosts k es) (hf : Followed root fam m) (hth : m.threads[id]? = some th)
    {b : Body Handles} (hctl : th.control = .run b) (htop : Frame.top? th.frames = some u) :
    (∀ (other : ThreadId) (x : Thread Handles), other ≠ id → m.threads[other]? = some x → ¬Concerns other x u) ∧
      (∀ cell, m.cell? u = some cell → cell.body = none ∧ cell.outcome = none) ∧
      ∀ A' C', (∀ v, v ≠ u → ∀ b, Point root fam v b → A' v b) →
        (∀ v, v ≠ u → ∀ result, Concludes root fam v result → C' v result) →
        Frame.Follows A' C' id th.frames := by
  have hfr := (hf.threads id th hth).frames
  have hst : Stacked (th.base id) false th.frames := (h.controlFits hth hctl).1
  generalize hframes : th.frames = frames at hst htop hfr ⊢
  cases hst with
  | nil => cases htop
  | root hbelow hrole _ =>
    obtain rfl := Option.some.inj htop
    obtain ⟨rfl, hnext⟩ := hfr
    obtain ⟨rfl, _⟩ := Thread.base_eq_outside.1 (Thread.base_of_ne hrole)
    refine ⟨fun other x hne hx hc => hne (h.root_sole hx hc), fun cell hc => ?_, fun A' C' _ _ => ⟨rfl, hnext⟩⟩
    cases hc
  | @task t bracket outer below ht =>
    obtain rfl : t = u := Option.some.inj htop
    obtain ⟨hwithin, hothers, hcell⟩ := h.sole hth (by rw [hctl]; rfl) hframes ht
    have hbelow : Frame.Follows (Point root fam) (Concludes root fam) id below := hfr
    refine ⟨hothers, hcell, fun A' C' hA hC => ?_⟩
    exact hbelow.mono (fun v hv => hA v fun he => hwithin (he ▸ hv)) fun v hv => hC v fun he => hwithin (he ▸ hv)

/-! ## Steps -/

/-- A body that asks for what only tasks ask for is at a point of a plan. -/
theorem Followed.planned (hf : Followed root fam m) (hth : m.threads[id]? = some th) {b : Body Handles}
    (hctl : th.control = .run b) (hb : b.outside = false) :
    ∃ u, Frame.top? th.frames = some u ∧ Point root fam u b := by
  have hfollows := (hf.threads id th hth).control
  rw [hctl] at hfollows
  rcases hfollows with hp | ⟨_, _, ho⟩
  · exact hp
  · rw [ho.outside] at hb
    cases hb

theorem Followed.outer (hf : Followed root fam m) (hth : m.threads[id]? = some th) {b : Body Handles}
    (hctl : th.control = .run b) (hb : b.planned = false) :
    th.frames = [] ∧ id = 0 ∧ root.Outer m.Stopping (Point root fam) (Concludes root fam) b := by
  have hfollows := (hf.threads id th hth).control
  rw [hctl] at hfollows
  rcases hfollows with ⟨_, _, hp⟩ | ho
  · rw [hp.planned] at hb
    cases hb
  · exact ho

theorem Followed.not_added (hf : Followed root fam m) (hth : m.threads[id]? = some th) (ha : Added th x) : False := by
  rcases ha with ⟨_, _, hctl, _⟩ | ⟨_, _, _, _, _, hctl, _⟩
  all_goals
    obtain ⟨_, _, ho⟩ := hf.outer hth hctl rfl
    cases ho.outside

/-- A task is spawned. -/
theorem Followed.spawned (h : m.Hosts k es) (hf : Followed root fam m) (hth : m.threads[id]? = some th)
    {target : Option RuntimeId} {options : SpawnOptions} {child : Body Handles}
    {next : Except Payload TaskId → Body Handles} {runtime : RuntimeId} {sticky : Bool}
    (hctl : th.control = .run (.spawn target options child next))
    (hrest : rest = m.enroll th runtime sticky options.name child)
    (hself : th' = { th with control := .wake runtime (next (.ok (m.tasks.length + 1))) })
    (hm : m.Move id th rest th') (hstop : m.Stopping → rest.Stopping) :
    Followed root (fam.after m (rest.setThread id th') id) (rest.setThread id th') := by
  obtain ⟨u, htop, hp⟩ := hf.planned hth hctl rfl
  obtain ⟨hothers, hcell, hframes⟩ := hf.apart h hth hctl htop
  obtain ⟨hgrown, hchild, hown⟩ := hp.spawn hf.grown
  rw [hf.length] at hchild hown
  have hlen : (rest.setThread id th').tasks.length = m.tasks.length + 1 := by simp [hrest, enroll, setThread]
  rw [after_of_lt fam (Nat.lt_of_lt_of_eq (Nat.lt_succ_self _) hlen.symm) hth htop]
  have hA : ∀ v, v ≠ u → ∀ b, Point root fam v b → Point root (fam.grow u) v b := fun v hne b hp => hp.grow hne.symm
  have hC : ∀ v, v ≠ u → ∀ result, Concludes root fam v result → Concludes root (fam.grow u) v result :=
    fun v hne result hc => hc.grow hne.symm
  refine ⟨hgrown, ?_, fun q t hin => ?_, fun t cell hc => ?_, fun other x hx => ?_⟩
  · rw [Family.grow, List.length_append, hf.length]
    exact hlen.symm
  · subst hrest
    exact Family.place?_append (hf.board q t hin) _
  · subst hrest
    rw [show ((m.enroll th runtime sticky options.name child).setThread id _).cell? t = _ from
      Scene.cell?_enroll m th runtime sticky options.name child t] at hc
    split at hc
    · rename_i he
      cases hc
      refine ⟨fun b hb => ?_, fun outcome ho => by cases ho⟩
      cases hb
      exact he ▸ hchild
    · by_cases he : t = u
      · obtain ⟨hb, ho⟩ := hcell cell (he ▸ hc)
        exact ⟨fun b hsome => (Option.some_ne_none b (hsome.symm.trans hb)).elim,
          fun outcome hsome => (Option.some_ne_none outcome (hsome.symm.trans ho)).elim⟩
      · exact (hf.cells t cell hc).mono (hA t he) (hC t he)
  · rcases hm.thread_cases hth hx with ⟨rfl, rfl⟩ | ⟨hne, hx⟩ | ⟨_, _, ha⟩
    · subst hself
      exact ⟨hframes _ _ hA hC, u, htop, hown⟩
    · exact follows_mono (hf.threads other x hx) hstop
        (fun v hv => hA v fun he => hothers other x hne hx (he ▸ hv))
        fun v hv => hC v fun he => hothers other x hne hx (he ▸ hv)
    · exact (hf.not_added hth ha).elim

/-- A step that spawns nothing. -/
theorem Followed.put (hf : Followed root fam m) (hth : m.threads[id]? = some th) (hm : m.Move id th rest th')
    (hstop : m.Stopping → rest.Stopping) (hlen : rest.tasks.length = m.tasks.length)
    (hboard : ∀ path t, (path, t) ∈ rest.shared → fam.place? t = some path)
    (hcells : ∀ t cell, rest.cell? t = some cell → cell.Follows (Point root fam) (Concludes root fam) t)
    (hself : th'.Follows root rest.Stopping (Point root fam) (Concludes root fam) id) :
    Followed root (fam.after m (rest.setThread id th') id) (rest.setThread id th') := by
  rw [after_of_le fam (show (rest.setThread id th').tasks.length ≤ m.tasks.length from Nat.le_of_eq hlen)]
  refine ⟨hf.grown, hf.length.trans hlen.symm, hboard, hcells, fun other x hx => ?_⟩
  rcases hm.thread_cases hth hx with ⟨rfl, rfl⟩ | ⟨_, hx⟩ | ⟨_, _, ha⟩
  · exact hself
  · exact follows_mono (hf.threads other x hx) hstop (fun _ _ _ hp => hp) fun _ _ _ hc => hc
  · exact (hf.not_added hth ha).elim

theorem Followed.setCell (h : m.Hosts k es) (hf : Followed root fam m) {cell cell' : Cell (Body Handles)}
    (hc : m.cell? t = some cell) (hid : cell'.id = cell.id)
    (hcell : cell'.Follows (Point root fam) (Concludes root fam) t)
    (u : TaskId) (found : Cell (Body Handles)) (hfound : (m.setCell cell').cell? u = some found) :
    found.Follows (Point root fam) (Concludes root fam) u := by
  rw [cell?_setCell hc (hid.trans (h.accounted.fresh _ _ hc).1)] at hfound
  split at hfound
  · rename_i he
    cases hfound
    exact he ▸ hcell
  · exact hf.cells u found hfound

/-- A cell whose body and outcome stay. -/
theorem Followed.kept (hf : Followed root fam m) {cell cell' : Cell (Body Handles)} (hc : m.cell? t = some cell)
    (hb : cell'.body = cell.body) (ho : cell'.outcome = cell.outcome) :
    cell'.Follows (Point root fam) (Concludes root fam) t where
  body b hsome := (hf.cells t cell hc).body b (hb ▸ hsome)
  outcome outcome hsome := (hf.cells t cell hc).outcome outcome (ho ▸ hsome)

theorem length_setCell (m : Machine Handles) (cell : Cell (Body Handles)) :
    (m.setCell cell).tasks.length = m.tasks.length := by
  simp [Machine.setCell]

theorem stopping_iff (hone : m.runtimes = [rt]) : m.Stopping ↔ rt.stopping := by
  simp [Stopping, hone]

/-- What a wait is told is what the plan of the task comes to. -/
theorem Followed.told (hf : Followed root fam m) {cell : Cell (Body Handles)} {outcome : Outcome} {kind : WaitKind}
    {next : Outcome → Body Handles} (hc : m.cell? t = some cell) (ho : cell.outcome = some outcome)
    (hp : Point root fam u (.wait kind t next)) : Point root fam u (next outcome) := by
  obtain ⟨result, rfl, hconcludes⟩ := (hf.cells t cell hc).outcome outcome ho
  exact hp.told hconcludes

theorem Control.follows_past {frame : Frame Handles} {past : Control Handles} (h : frame.past? = some past) :
    past.Follows root S A C id frames := by
  cases frame <;> cases h <;> trivial

theorem Followed.move (h : m.Hosts k es) (ho : m.Orderly k rt es) (hf : Followed root fam m)
    (hth : m.threads[id]? = some th) (hm : m.Move id th rest th') (hcrash : rest.crash = none)
    (hone : m.runtimes = [rt]) (hone' : rest.runtimes = [rt']) :
    Followed root (fam.after m (rest.setThread id th') id) (rest.setThread id th') := by
  have hfr := (hf.threads id th hth).frames
  have hfollows := (hf.threads id th hth).control
  -- a step that leaves the cells as they are, or changes one of them
  have hstop : m.Stopping → rest.Stopping := fun hs =>
    (stopping_iff hone').2 (h.still_stopping hth hm hcrash hone hone' ((stopping_iff hone).1 hs))
  have hput := hf.put hth hm hstop
  cases hm with
  | answered hctl ha =>
    cases ha with
    | share change next =>
      obtain ⟨u, htop, hp⟩ := hf.planned hth hctl rfl
      obtain ⟨path, t, hplace, hchange, hown⟩ := hp.share
      refine hput rfl (fun q t' hin => ?_) hf.cells ⟨hfr, .inl ⟨u, htop, hown⟩⟩
      rw [hchange] at hin
      rcases List.mem_cons.1 hin with he | hin
      · cases he
        exact hplace
      · exact hf.board q t' hin
    | await next hready =>
      obtain ⟨u, htop, hp⟩ := hf.planned hth hctl rfl
      exact hput rfl hf.board hf.cells ⟨hfr, .inl ⟨u, htop, hp.await hf.board hready⟩⟩
    | stranded next hnone =>
      obtain ⟨u, htop, _⟩ := hf.planned hth hctl rfl
      rw [h.idle id th hth hnone] at htop
      cases htop
    | stopping next hfound hstopping =>
      obtain ⟨hframes, hid, ho⟩ := hf.outer hth hctl rfl
      obtain ⟨result, rfl, hc⟩ := ho.of_shutdown
      have hstopping : m.Stopping := ⟨_, List.mem_of_getElem? hfound, hstopping⟩
      exact hput rfl hf.board hf.cells ⟨hfr, .inr ⟨hframes, hid, .finished hstopping hc⟩⟩
    | call | refused =>
      obtain ⟨_, _, ho⟩ := hf.outer hth hctl rfl
      cases ho.outside
  | ended hctl hframes =>
    refine hput rfl hf.board hf.cells ⟨hfr, fun hid => ?_⟩
    rw [hctl] at hfollows
    rcases hfollows with ⟨u, htop, _⟩ | ⟨_, _, ho⟩
    · rw [hframes] at htop
      cases htop
    · exact ho.of_result
  | returned hctl hne =>
    rw [hctl] at hfollows
    rcases hfollows with ⟨u, htop, hp⟩ | ⟨hframes, _⟩
    · exact hput rfl hf.board hf.cells ⟨hfr, u, htop, hp.conclude⟩
    · exact absurd hframes hne
  | spawned hctl htarget hfound hsticky => exact hf.spawned h hth hctl rfl rfl (.spawned hctl htarget hfound hsticky) hstop
  | launched hctl => exact (h.controlFits hth hctl).2.elim
  | rooted hctl =>
    obtain ⟨hframes, hid, ho⟩ := hf.outer hth hctl rfl
    obtain ⟨hnext, hp⟩ := ho.of_blockOn
    exact hput rfl hf.board hf.cells ⟨⟨hframes, hnext⟩, .inl ⟨_, rfl, hp⟩⟩
  | began hctl hc =>
    rw [hctl] at hfollows
    exact hput (length_setCell _ _) hf.board (hf.setCell h hc rfl (hf.kept hc rfl rfl)) ⟨hfr, .inl ⟨_, rfl, hfollows⟩⟩
  | left hctl hframes =>
    rw [hctl, hframes] at hfollows
    rw [hframes] at hfr
    obtain ⟨u, htop, hc⟩ := hfollows
    cases htop
    exact hput rfl hf.board hf.cells ⟨hfr, _, rfl, hc⟩
  | leftRoot hctl hframes =>
    have hst := h.controlFits hth hctl
    rw [hctl, hframes] at hfollows
    rw [hframes] at hfr hst
    obtain ⟨u, htop, hc⟩ := hfollows
    cases htop
    obtain ⟨rfl, rfl⟩ := hfr
    cases hst with
    | root _ hrole =>
      have hid := (Thread.base_eq_outside.1 (Thread.base_of_ne hrole)).1
      exact hput rfl hf.board hf.cells ⟨trivial, .inr ⟨rfl, hid, .shutdown hc⟩⟩
  | @published t outcome cell hctl hc =>
    rw [hctl] at hfollows
    obtain ⟨hbody, hold⟩ := hf.cells _ _ hc
    refine hput (length_setCell _ _) hf.board (hf.setCell h hc rfl ⟨hbody, fun found hfound => ?_⟩) ⟨hfr, trivial⟩
    have hfound : (cell.outcome <|> some outcome) = some found := hfound
    cases hwritten : cell.outcome with
    | none =>
      rw [hwritten] at hfound
      cases hfound
      exact hfollows
    | some written =>
      rw [hwritten] at hfound
      cases hfound
      exact hold _ hwritten
  | resumed hctl hc hlive hframes hw hg =>
    obtain ⟨rfl, rfl, outcome, houtcome, hgives⟩ := h.accounted.give_settled h.crash hth hctl hc hframes hw
    cases hgives.symm.trans hg
    rw [hframes] at hfr
    obtain ⟨⟨u, htop, hp⟩, hbelow⟩ := hfr
    exact hput (length_setCell _ _) hf.board (hf.setCell h hc rfl (hf.kept hc rfl rfl))
      ⟨hbelow, .inl ⟨u, htop, hf.told hc houtcome hp⟩⟩
  | settled hctl hc hlive hframes hpast =>
    exact hput (length_setCell _ _) hf.board (hf.setCell h hc rfl (hf.kept hc rfl rfl))
      ⟨hfr, Control.follows_past hpast⟩
  | delivered ha hc hterminal hg =>
    obtain ⟨outcome, houtcome, hgives⟩ := h.accounted.give hc hterminal _
    cases hgives.symm.trans hg
    obtain ⟨u, htop, hp⟩ : ∃ u, Frame.top? th.frames = some u ∧ Point root fam u (.wait _ _ _) := by
      rcases ha with hctl | hctl
      · exact hf.planned hth hctl rfl
      · rwa [hctl] at hfollows
    exact hput rfl hf.board hf.cells ⟨hfr, .inl ⟨u, htop, hf.told hc houtcome hp⟩⟩
  | blocked hctl => exact hput rfl hf.board hf.cells ⟨hfr, hf.planned hth hctl rfl⟩
  | nested hctl hc _ _ hb =>
    obtain ⟨hbody, hold⟩ := hf.cells _ _ hc
    exact hput (length_setCell _ _) hf.board (hf.setCell h hc rfl ⟨nofun, hold⟩)
      ⟨⟨hf.planned hth hctl rfl, hfr⟩, hbody _ hb⟩
  | woke hctl =>
    rw [hctl] at hfollows
    exact hput rfl hf.board hf.cells ⟨hfr, .inl hfollows⟩
  | found _ hseeks =>
    refine hput rfl hf.board hf.cells ⟨?_, trivial⟩
    cases hseeks with
    | loop hframes => rwa [hframes] at hfr
    | drain => exact hfr
  | @idle _ _ leaving _ _ _ _ _ hframes =>
    rw [hframes] at hfr
    refine hput rfl hf.board hf.cells ⟨hfr, ?_⟩
    cases leaving <;> trivial
  | drained hctl hframes =>
    obtain ⟨rfl, rfl, rfl⟩ := draining_of_stacked (h.controlFits hth hctl) hframes
    rw [hframes] at hfr
    exact hput rfl hf.board hf.cells ⟨trivial, hfr⟩
  | took _ _ _ _ hc hb =>
    obtain ⟨hbody, hold⟩ := hf.cells _ _ hc
    exact hput (length_setCell _ _) hf.board (hf.setCell h hc rfl ⟨nofun, hold⟩) ⟨hfr, hbody _ hb⟩
  | passed _ _ hpast => exact hput rfl hf.board hf.cells ⟨hfr, Control.follows_past hpast⟩
  | ticked _ hframes =>
    rw [hframes] at hfr
    exact hput rfl hf.board hf.cells ⟨hfr, trivial⟩
  | exited hctl =>
    obtain ⟨_, _, _, hframes⟩ := h.controlFits hth hctl
    rw [hframes] at hfr
    exact hput rfl hf.board hf.cells ⟨trivial, fun hid => absurd hid hfr⟩
  | stopped hctl =>
    obtain ⟨_, hid, ho⟩ := hf.outer hth hctl rfl
    exact hput rfl hf.board hf.cells ⟨hfr, hid, ho.of_shutdown⟩
  | rang hctl | joinedPool hctl =>
    rw [hctl] at hfollows
    exact hput rfl hf.board hf.cells ⟨hfollows, trivial⟩
  | closed hctl hfound =>
    obtain ⟨rfl, rfl⟩ := runtime_eq hone hfound
    have hframes := (h.controlFits hth hctl).1
    rw [hctl] at hfollows
    obtain ⟨hid, result, rfl, hc⟩ := hfollows
    have hstopping := hstop ((stopping_iff hone).2 (ho.stopping id th .close hth (.inl ⟨_, _, hctl⟩)))
    simp only [ho.emptied id th _ _ hth hctl, dropQueues] at hput hstopping ⊢
    exact hput rfl hf.board hf.cells ⟨hfr, .inr ⟨hframes, hid, .finished hstopping hc⟩⟩
  | forked hctl =>
    obtain ⟨_, _, ho⟩ := hf.outer hth hctl rfl
    cases ho.outside
  | joinedThread hctl =>
    rw [hctl] at hfollows
    exact hfollows.elim
  | crashed => cases hcrash
  | parked | awake | unparked => exact hput rfl hf.board hf.cells ⟨hfr, trivial⟩

end Machine

end TaskSpace

import TaskSpace.Machine.Run

/-!
# The shape of a thread

What a thread may do next, and the frames below it. A body may ask for what its role allows: only
the thread that built the runtime runs roots, and it shuts the runtime down outside of them. The
brackets on the frames are nested: each one remembers the holder of the next.
-/

namespace TaskSpace

variable {σ : Type}

/-- What runs as a body. -/
inductive Role where
  /-- A task, or a thread that works for no runtime. -/
  | task
  /-- The body of a block-on call. -/
  | root
  /-- The thread that built the runtime, between its block-on calls. -/
  | outside
deriving DecidableEq

namespace Body

/-- A body asks for what its role allows, whatever it is answered: no body builds a runtime, tasks
neither run roots nor shut down, and after a shutdown nobody does. -/
def Allowed : Body σ → Role → Prop
  | finish _, _ | panic _, _ => True
  | call _ next, p => ∀ reply, (next reply).Allowed p
  | share _ next, p | await _ next, p => ∀ s, (next s).Allowed p
  | spawn _ _ child next, p => child.Allowed .task ∧ ∀ answer, (next answer).Allowed p
  | wait _ _ next, p => ∀ outcome, (next outcome).Allowed p
  | build _ _ _, _ => False
  | blockOn runtime root next, p =>
    p ≠ .task ∧ runtime = 0 ∧ root.Allowed .root ∧ ∀ result, (next result).Allowed p
  | shutdown runtime next, p => p = .outside ∧ runtime = 0 ∧ next.Allowed .task
  | onThread body next, p => body.Allowed .task ∧ ∀ result, (next result).Allowed p

/-- What a task may do, every body may. -/
theorem Allowed.of_task {body : Body σ} (h : body.Allowed .task) (p : Role) : body.Allowed p := by
  induction body with
  | finish | panic => trivial
  | call r next ih => exact fun reply => ih reply (h reply)
  | share f next ih | await f next ih => exact fun s => ih s (h s)
  | spawn target options child next _ ih => exact ⟨h.1, fun answer => ih answer (h.2 answer)⟩
  | wait kind task next ih => exact fun outcome => ih outcome (h outcome)
  | build settings space next => exact h.elim
  | blockOn runtime root next => exact absurd rfl h.1
  | shutdown runtime next => cases h.1
  | onThread body next _ ih => exact ⟨h.1, fun result => ih result (h.2 result)⟩

end Body

namespace Frame

/-- The task and the bracket of a body that a frame belongs to. -/
def body? : Frame σ → Option (TaskId × Bracket)
  | task t bracket _ => some (t, bracket)
  | root bracket _ _ => some (TaskId.root, bracket)
  | joiner _ _ _ | loop _ _ _ | drain _ _ _ => none

end Frame

/-- The role of a body that runs on some frames; `base` is the role of one that runs on none. -/
def Role.on (base : Role) : List (Frame σ) → Role
  | [] => base
  | .root _ _ _ :: _ => .root
  | _ :: _ => .task

/-- The frames under a body, or, when `waiting`, under a task that is being run: such a task is run
by a body that waits for it, by the event loop, or by a shutdown. -/
inductive Stacked (base : Role) : (waiting : Bool) → List (Frame σ) → Prop
  | nil : Stacked base false []
  | root {bracket outer next frames} : Stacked base false frames → base.on frames ≠ .task →
    (∀ result, (next result).Allowed (base.on frames)) →
    Stacked base false (.root bracket outer next :: frames)
  | task {t bracket outer frames} : t ≠ TaskId.root → Stacked base true frames →
    Stacked base false (.task t bracket outer :: frames)
  | joiner {kind t next frames} : Stacked base false frames →
    (∀ outcome, (next outcome).Allowed (base.on frames)) →
    Stacked base true (.joiner kind t next :: frames)
  | loop {ticker force leaving} : Stacked base true [.loop ticker force leaving]
  | drain {stage next} : base = .outside → next.Allowed .task →
    Stacked base true [.drain 0 stage next]

/-- A body that is not a task runs where the runtime was built. -/
theorem Stacked.base_ne {base : Role} {frames : List (Frame σ)} (h : Stacked base false frames)
    (hr : base.on frames ≠ .task) : base ≠ .task := by
  generalize hw : false = waiting at h
  induction h with
  | nil => exact hr
  | root hfr hbelow _ ih => exact ih hbelow hw
  | task => exact absurd rfl hr
  | joiner | loop | drain => cases hw

theorem Stacked.base_of_root {base : Role} {waiting : Bool} {frames : List (Frame σ)} {bracket : Bracket}
    (h : Stacked base waiting frames) (hin : (TaskId.root, bracket) ∈ frames.filterMap Frame.body?) :
    base ≠ .task := by
  induction h with
  | nil | loop | drain => cases hin
  | root hbelow hrole => exact hbelow.base_ne hrole
  | task ht _ ih =>
    rcases List.mem_cons.1 hin with he | hin
    · cases he
      exact absurd rfl ht
    · exact ih hin
  | joiner _ _ ih => exact ih hin

/-- What a thread does next fits its frames. `works` says that it works for a runtime, `id` names its
storage. -/
def Control.Fits (base : Role) (works : Bool) (id : StorageId) (frames : List (Frame σ)) :
    Control σ → Prop
  | .run body => Stacked base false frames ∧ body.Allowed (base.on frames)
  | .begin t storage body =>
    Stacked base true frames ∧ t ≠ TaskId.root ∧ storage = id ∧ works = true ∧ body.Allowed .task
  | .leave _ => Stacked base false frames
  | .publish _ _ | .settle _ _ => Stacked base true frames
  | .wait _ _ next => Stacked base false frames ∧ ∀ outcome, (next outcome).Allowed (base.on frames)
  | .wake _ next => Stacked base false frames ∧ next.Allowed (base.on frames)
  | .search | .hold _ | .park | .parked | .tick => Stacked base true frames
  | .exit => ∃ ticker force leaving, frames = [.loop ticker force leaving]
  | .stop runtime _ next => frames = [] ∧ base = .outside ∧ runtime = 0 ∧ next.Allowed .task
  | .joinThread _ next => Stacked base false frames ∧ ∀ result, (next result).Allowed (base.on frames)
  | .ended _ => frames = []

/-- The holder of the body on top is the current one, and each bracket has the one below as its
parent; all are of one storage. -/
def Nested (id : StorageId) : Option HolderId → List (TaskId × Bracket) → Prop
  | holder, [] => holder = none
  | holder, (_, bracket) :: below =>
    holder = some bracket.holder ∧ bracket.storage = id ∧ Nested id bracket.parent below

theorem Nested.head? {id : StorageId} {holder : Option HolderId} {bodies : List (TaskId × Bracket)}
    (h : Nested id holder bodies) : holder = (bodies.map fun body => body.2.holder).head? := by
  cases bodies with
  | nil => exact h
  | cons body below => exact h.1

namespace Thread

variable {n : Nat} {id : ThreadId} {th : Thread σ}

/-- The bodies that run on a thread, innermost first. -/
def bodies (th : Thread σ) : List (TaskId × Bracket) := th.frames.filterMap Frame.body?

/-- The holders of the bodies, innermost first. -/
def stack (th : Thread σ) : List HolderId := th.bodies.map fun body => body.2.holder

/-- The role of a body that runs on no frame. -/
def base (th : Thread σ) (id : ThreadId) : Role :=
  if id = 0 ∧ th.context.isSome then .outside else .task

/-- A thread of a machine with one runtime of `n` workers: worker `id` is thread `id`. -/
structure Fits (n : Nat) (id : ThreadId) (th : Thread σ) : Prop where
  works : ∀ c, th.context = some c → c.runtime = 0 ∧ c.worker = id ∧ id < n
  idle : th.context = none → th.bodies = []
  nested : Nested id th.holder th.bodies
  control : th.control.Fits (th.base id) th.context.isSome id th.frames

theorem base_eq_outside : th.base id = .outside ↔ id = 0 ∧ th.context.isSome := by
  unfold base
  split <;> simp_all

theorem base_of_ne (h : th.base id ≠ .task) : th.base id = .outside := by
  unfold base at h ⊢
  split
  · rfl
  · rename_i hn
    exact absurd (if_neg hn) h

theorem Fits.isSome_of_bodies (h : th.Fits n id) {body : TaskId × Bracket} (hb : body ∈ th.bodies) :
    th.context.isSome := by
  cases hc : th.context with
  | none => rw [h.idle hc] at hb; cases hb
  | some c => rfl

theorem Fits.lt (h : th.Fits n id) (hc : th.context.isSome) : id < n := by
  obtain ⟨c, hc⟩ := Option.isSome_iff_exists.1 hc
  exact (h.works c hc).2.2

theorem bodies_eq {frames : List (Frame σ)} (hf : th.frames = frames) :
    th.bodies = frames.filterMap Frame.body? := congrArg _ hf

theorem bodies_of_cons {frame : Frame σ} {frames : List (Frame σ)} (hf : th.frames = frame :: frames)
    (hn : frame.body? = none) : th.bodies = frames.filterMap Frame.body? := by
  rw [bodies_eq hf, List.filterMap_cons, hn]

theorem Fits.goOn (h : th.Fits n id) {control : Control σ}
    (hc : control.Fits (th.base id) th.context.isSome id th.frames) :
    Fits n id { th with control } :=
  ⟨h.works, h.idle, h.nested, hc⟩

theorem Fits.reframe (h : th.Fits n id) {control : Control σ} {frames : List (Frame σ)}
    (hb : frames.filterMap Frame.body? = th.bodies)
    (hc : control.Fits (th.base id) th.context.isSome id frames) :
    Fits n id { th with control, frames } :=
  ⟨h.works, fun hn => hb.trans (h.idle hn), by
    have := h.nested
    rwa [← hb] at this, hc⟩

@[simp] theorem base_setTask (th : Thread σ) (t : Option TaskId) (id : ThreadId) :
    (th.setTask t).base id = th.base id := by
  simp [base, setTask]

/-- A body begins or ends on a thread that works for the runtime. -/
theorem Fits.rebracket (h : th.Fits n id) (hw : th.context.isSome) (t : Option TaskId)
    {control : Control σ} {frames : List (Frame σ)} {holder : Option HolderId}
    (hn : Nested id holder (frames.filterMap Frame.body?))
    (hc : control.Fits (th.base id) th.context.isSome id frames) :
    Fits n id { th.setTask t with control, frames, holder } where
  works c hc := by
    obtain ⟨old, ho, rfl⟩ := Option.map_eq_some_iff.1 hc
    exact h.works old ho
  idle hc := by
    rw [Option.map_eq_none_iff.1 hc] at hw
    cases hw
  nested := hn
  control := by
    have hsome : (th.setTask t).context.isSome = th.context.isSome := Option.isSome_map ..
    rw [← base_setTask th t id, ← hsome] at hc
    exact hc

theorem plain_fits {body : Body σ} (h : body.Allowed .task) : (plain body).Fits n id where
  works := by simp [plain]
  idle _ := rfl
  nested := rfl
  control := ⟨.nil, by simpa [plain, base, Role.on] using h⟩

end Thread

end TaskSpace

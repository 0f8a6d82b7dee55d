import TaskSpace.Proofs.Machine.Attended
import TaskSpace.Proofs.Machine.Launch

/-!
# Runs of a machine with one runtime

`Machine.Upholds` is what everybody may rely on between two steps: the holders of a storage are those
of the bodies nested on its worker, the space counts as live what the registered holders have recorded
and what was lost, and nothing is left of a task that is over. Every run upholds it, whoever steps next
and whatever the searches find.
-/

namespace TaskSpace

variable {σ : Type}

namespace Roster

/-- How many handles are recorded in the holders that are registered. -/
def registeredLen (r : Roster) : Nat :=
  Word.total ((r.holders.filter fun h => h.registeredOn.isSome).map Holder.len)

/-- When the other holders are empty, the registered ones have all that is recorded. -/
theorem registeredLen_eq {r : Roster}
    (hempty : ∀ holder h, r.holder? holder = some h → h.mark = Holder.unregistered → h.handles = []) :
    r.registeredLen = r.recorded := by
  have hlen : ∀ h ∈ r.holders, h.registeredOn.isSome = false → h.len = 0 := by
    intro h hm hnone
    obtain ⟨place, hp⟩ := List.mem_iff_getElem?.1 hm
    unfold Holder.registeredOn at hnone
    split at hnone
    · rename_i hmark
      rw [Holder.len, hempty (place + 1) h hp hmark]
      rfl
    · cases hnone
  unfold registeredLen recorded
  generalize r.holders = holders at hlen
  induction holders with
  | nil => rfl
  | cons h rest ih =>
    have hrest := ih fun other hm => hlen other (List.mem_cons_of_mem _ hm)
    cases hon : h.registeredOn.isSome with
    | true => simp only [List.filter_cons, hon, if_true, List.map_cons, Word.total_cons, hrest]
    | false =>
      have hzero := hlen h List.mem_cons_self hon
      simp [hon, hrest, hzero]

end Roster

namespace Machine

/-- The run of a machine under a schedule, which says for each step what thread takes it and what its
search finds. The history goes along. -/
def follow (m : Machine σ) (hist : History) : List (ThreadId × Choice) → Option (Machine σ × History)
  | [] => some (m, hist)
  | (id, choice) :: rest => do
    let th ← m.threads[id]?
    (← m.step id choice).follow (hist.next m th) rest

structure Upholds (m : Machine σ) (hist : History) : Prop where
  /-- No bracket of a body was refused. -/
  accepted : ∀ error, m.crash ≠ some (.registry error)
  /-- A body that runs has a holder, which is its task's and is registered with the worker. -/
  housed : ∀ (id : ThreadId) (th : Thread σ), m.threads[id]? = some th → ∀ body ∈ th.bodies,
    th.context.map Context.worker = some id ∧ ∃ s h, m.ledger.roster.storages[id]? = some s ∧
      s.worker = id ∧ s.contains body.2.holder ∧ m.ledger.roster.holder? body.2.holder = some h ∧
      h.owner = some body.1 ∧ h.registeredOn = some id
  /-- A task that is running has its body on a worker, or its body is over and it is being completed. -/
  attended : m.Attended
  /-- The task of a body on a worker is running. -/
  running : ∀ (id : ThreadId) (th : Thread σ), m.threads[id]? = some th → ∀ body ∈ th.bodies,
    body.1 = TaskId.root ∨ ∃ cell, m.cell? body.1 = some cell ∧ cell.state = .running
  /-- The holders of a storage are those of the bodies nested on its worker, innermost first. -/
  stacked : ∀ (id : StorageId) (s : Storage), m.ledger.roster.storages[id]? = some s →
    ∃ th, m.threads[id]? = some th ∧ s.worker = id ∧ s.active = th.stack ∧ th.holder = th.stack.head?
  /-- No two bodies have the same holder, and a task never has more than one. -/
  apart : (m.threads.flatMap Thread.stack).Nodup
  single : ∀ holder holder' h h' t, m.ledger.roster.holder? holder = some h →
    m.ledger.roster.holder? holder' = some h' → t ≠ TaskId.root → h.owner = some t →
    h'.owner = some t → holder = holder'
  /-- Nothing else is registered. -/
  registered : ∀ holder h worker, m.ledger.roster.holder? holder = some h →
    h.registeredOn = some worker → ∃ th, m.threads[worker]? = some th ∧ holder ∈ th.stack
  /-- What is live is what the registered holders have, but for what was lost. -/
  counted : ∀ rt ∈ m.runtimes, ∃ a, m.ledger.spaces[rt.space]? = some a ∧
    AddressSpace.liveMappings a = Word.wrap (m.ledger.roster.registeredLen + hist.lost) ∧
    (AddressSpace.liveMappings a = Word.wrap m.ledger.roster.registeredLen ↔ Word.bound ∣ hist.lost)
  /-- A task that is over has no holder registered, nothing recorded, and no reference that is good. -/
  released : ∀ t cell, m.cell? t = some cell → cell.state.isTerminal → ∀ holder h,
    m.ledger.roster.holder? holder = some h → h.owner = some t →
    h.registeredOn = none ∧ h.len = 0 ∧ (∀ s ∈ m.ledger.roster.storages, s.contains holder = false) ∧
      ∀ ref, (holder, ref) ∈ hist.obtained → ∃ mapping, m.ledger.mapping? ref = some mapping ∧
        mapping.live = false ∧ m.ledger.read ref = .error (.refused (.unlocalized mapping.start))

variable {m m' : Machine σ} {n : Nat} {space : SpaceId} {hist hist' : History} {id : ThreadId}
  {th : Thread σ} {holder : HolderId} {h : Holder}

/-! ## What a sound machine shows -/

theorem Sound.exists_storage_of_body (h : m.Sound n space hist) (hth : m.threads[id]? = some th)
    {body : TaskId × Bracket} (hb : body ∈ th.bodies) :
    ∃ s, m.ledger.roster.storages[id]? = some s ∧ s.Serves id space th :=
  h.exists_storage hth ((h.fits id th hth).isSome_of_bodies hb)

theorem Sound.housed (h : m.Sound n space hist) (hth : m.threads[id]? = some th)
    {body : TaskId × Bracket} (hb : body ∈ th.bodies) :
    th.context.map Context.worker = some id ∧ ∃ s h, m.ledger.roster.storages[id]? = some s ∧
      s.worker = id ∧ s.contains body.2.holder ∧ m.ledger.roster.holder? body.2.holder = some h ∧
      h.owner = some body.1 ∧ h.registeredOn = some id := by
  have hfits := h.fits id th hth
  obtain ⟨c, hc⟩ := Option.isSome_iff_exists.1 (hfits.isSome_of_bodies hb)
  obtain ⟨s, hs, hserves⟩ := h.exists_storage_of_body hth hb
  obtain ⟨g, hg, howner⟩ := h.owners id th hth body hb
  have hin : body.2.holder ∈ s.stack := by
    rw [hserves.stack]
    exact List.mem_map_of_mem hb
  have hmark : g.mark = id := by
    rw [← Roster.markOf_eq hg, h.roster.marked id s hs _ hin, hserves.worker]
  refine ⟨by rw [hc, Option.map_some, (hfits.works c hc).2.1], s, g, hs, hserves.worker, ?_, hg, howner, ?_⟩
  · rw [Storage.contains_eq]
    exact decide_eq_true hin
  · have hne := hserves.worker ▸ h.roster.worker id s hs
    rw [Holder.registeredOn, hmark, if_neg hne]

/-- A task whose body runs is neither to begin nor over. -/
theorem Sound.running (h : m.Sound n space hist) (hth : m.threads[id]? = some th)
    {body : TaskId × Bracket} (hb : body ∈ th.bodies) :
    body.1 = TaskId.root ∨ ∃ cell, m.cell? body.1 = some cell ∧ cell.state = .running := by
  obtain ⟨_, s, g, hs, hw, _, hg, howner, hon⟩ := h.housed hth hb
  obtain ⟨t, ht, hcell⟩ := h.owned _ g hg
  cases howner.symm.trans ht
  refine hcell.imp_right (Exists.imp fun cell hc => ⟨hc.1, ?_⟩)
  obtain ⟨hc, hne⟩ := hc
  have hlive : cell.state.isTerminal ≠ true := fun hterm => by
    have hmark := (h.cells _ cell hc).2.2 hterm _ g hg howner
    rw [Holder.registeredOn, if_pos hmark] at hon
    cases hon
  cases hstate : cell.state with
  | created => exact absurd hstate hne
  | running => rfl
  | completed => exact absurd (by rw [hstate]; rfl) hlive
  | failed => exact absurd (by rw [hstate]; rfl) hlive

theorem Sound.stacked (h : m.Sound n space hist) {s : Storage}
    (hs : m.ledger.roster.storages[id]? = some s) :
    ∃ th, m.threads[id]? = some th ∧ s.worker = id ∧ s.active = th.stack ∧ th.holder = th.stack.head? := by
  have hlt := (List.getElem?_eq_some_iff.1 hs).1
  have hth := List.getElem?_eq_getElem (Nat.lt_of_lt_of_le (h.storages ▸ hlt) h.present)
  have hserves := h.serves id s _ hs hth
  refine ⟨_, hth, hserves.worker, ?_, (h.fits id _ hth).nested.head?⟩
  rw [(h.roster.linked id s hs).active_eq, hserves.stack]

/-- Each stack names no holder twice, and no two stacks name the same. -/
theorem Sound.apart (h : m.Sound n space hist) : (m.threads.flatMap Thread.stack).Nodup := by
  have hstorage : ∀ {id : ThreadId} {th : Thread σ} {holder}, m.threads[id]? = some th →
      holder ∈ th.stack → ∃ s, m.ledger.roster.storages[id]? = some s ∧ s.stack = th.stack := by
    intro id th holder hth hin
    obtain ⟨body, hb, _⟩ := List.mem_map.1 hin
    obtain ⟨s, hs, hserves⟩ := h.exists_storage_of_body hth hb
    exact ⟨s, hs, hserves.stack⟩
  refine List.pairwise_flatMap.2 ⟨fun th hm => ?_, List.pairwise_iff_getElem.2 fun i j hi hj hlt => ?_⟩
  · obtain ⟨id, hth⟩ := List.mem_iff_getElem?.1 hm
    cases hst : th.stack with
    | nil => exact .nil
    | cons holder rest =>
      obtain ⟨s, hs, he⟩ := hstorage hth (hst ▸ List.mem_cons_self)
      rw [← hst, ← he]
      exact (h.roster.linked id s hs).nodup
  · rintro holder hin _ hin' rfl
    obtain ⟨s, hs, he⟩ := hstorage (List.getElem?_eq_getElem hi) hin
    obtain ⟨s', hs', he'⟩ := hstorage (List.getElem?_eq_getElem hj) hin'
    rw [← he] at hin
    rw [← he'] at hin'
    exact absurd (h.roster.disjoint i j s s' hs hs' holder hin hin') (Nat.ne_of_lt hlt)

theorem Sound.registered (hm : m.Sound n space hist) (hh : m.ledger.roster.holder? holder = some h)
    {worker : WorkerId} (hon : h.registeredOn = some worker) :
    ∃ th, m.threads[worker]? = some th ∧ holder ∈ th.stack := by
  unfold Holder.registeredOn at hon
  split at hon
  · cases hon
  · rename_i hmark
    cases hon
    rw [← Roster.markOf_eq hh] at hmark
    obtain ⟨id, s, hs, hin⟩ := hm.roster.stacked holder hmark
    obtain ⟨th, hth, hworker, hactive, _⟩ := hm.stacked hs
    rw [(hm.roster.linked id s hs).active_eq] at hactive
    have hid : h.mark = id := by
      rw [← Roster.markOf_eq hh, hm.roster.marked id s hs holder hin, hworker]
    exact ⟨th, hid ▸ hth, hactive ▸ hin⟩

theorem Sound.counted (h : m.Sound n space hist) {rt : Runtime} (hrt : rt ∈ m.runtimes) :
    ∃ a, m.ledger.spaces[rt.space]? = some a ∧
      AddressSpace.liveMappings a = Word.wrap (m.ledger.roster.registeredLen + hist.lost) ∧
      (AddressSpace.liveMappings a = Word.wrap m.ledger.roster.registeredLen ↔ Word.bound ∣ hist.lost) := by
  obtain ⟨a, ha, htally⟩ := h.tally
  have hlive : AddressSpace.liveMappings a = Word.wrap (m.ledger.roster.registeredLen + hist.lost) := by
    rw [Roster.registeredLen_eq htally.empty]
    exact htally.live
  refine ⟨a, by rw [(h.runtimes rt hrt).2.1]; exact ha, hlive, ?_⟩
  rw [hlive]
  simp only [Word.wrap, Word.bound]
  omega

/-- Nothing of a task that is over is left. -/
theorem Sound.released (hm : m.Sound n space hist) {t : TaskId} {cell : Cell (Body σ)}
    (hc : m.cell? t = some cell) (hterm : cell.state.isTerminal)
    (hh : m.ledger.roster.holder? holder = some h) (ho : h.owner = some t) :
    h.registeredOn = none ∧ h.len = 0 ∧ (∀ s ∈ m.ledger.roster.storages, s.contains holder = false) ∧
      ∀ ref, (holder, ref) ∈ hist.obtained → ∃ mapping, m.ledger.mapping? ref = some mapping ∧
        mapping.live = false ∧ m.ledger.read ref = .error (.refused (.unlocalized mapping.start)) := by
  have hmark := (hm.cells t cell hc).2.2 hterm holder h hh ho
  obtain ⟨a, ha, htally⟩ := hm.tally
  have hempty := htally.empty holder h hh hmark
  refine ⟨if_pos hmark, by rw [Holder.len, hempty]; rfl, fun s hs => ?_, fun ref href => ?_⟩
  · obtain ⟨id, hid⟩ := List.mem_iff_getElem?.1 hs
    have hnot := hm.roster.not_mem_stack ((Roster.markOf_eq hh).trans hmark) hid
    rw [Storage.contains_eq]
    exact decide_eq_false hnot
  · obtain ⟨hspace, g, hg, hin⟩ := htally.obtained _ href
    cases hh.symm.trans hg
    rw [hempty] at hin
    obtain ⟨mapping, hmapping, hdead⟩ := hin.resolve_left List.not_mem_nil
    dsimp only at hspace
    refine ⟨mapping, ?_, hdead, ?_⟩
    · simp [Ledger.mapping?, hspace, ha, hmapping]
    · simp [Ledger.read, hspace, ha, Space.read, hmapping, hdead]

theorem Sound.upholds (h : m.Sound n space hist) (ha : m.Attended) : m.Upholds hist where
  accepted := h.crash
  housed _ _ hth _ hb := h.housed hth hb
  attended := ha
  running _ _ hth _ hb := h.running hth hb
  stacked _ _ hs := h.stacked hs
  apart := h.apart
  single := h.unique
  registered _ _ _ hh hon := h.registered hh hon
  counted _ hrt := h.counted hrt
  released _ _ hc hterm _ _ hh ho := h.released hc hterm hh ho

/-! ## Runs -/

/-- Whatever the schedule, a sound machine stays sound, and its running tasks attended. -/
theorem Sound.follow (h : m.Sound n space hist) (ha : m.Attended) {schedule : List (ThreadId × Choice)}
    (hs : m.follow hist schedule = some (m', hist')) : m'.Sound n space hist' ∧ m'.Attended := by
  induction schedule generalizing m hist with
  | nil =>
    cases hs
    exact ⟨h, ha⟩
  | cons turn rest ih =>
    obtain ⟨id, choice⟩ := turn
    obtain ⟨th, hth, hs⟩ := Option.bind_eq_some_iff.1 hs
    obtain ⟨stepped, hstep, hs⟩ := Option.bind_eq_some_iff.1 hs
    exact ih (h.step hth hstep) (ha.step h hstep) hs

theorem step_of_firstStep {threads : List (Thread σ)} (hs : m.firstStep id threads = some m') :
    ∃ id choice, m.step id choice = some m' := by
  induction threads generalizing id with
  | nil => cases hs
  | cons th rest ih =>
    unfold firstStep at hs
    cases hstep : m.step id (m.undisturbed th) with
    | none =>
      rw [hstep] at hs
      exact ih hs
    | some stepped =>
      rw [hstep] at hs
      cases hs
      exact ⟨id, _, hstep⟩

/-- The run in which the first thread that can step does follows a schedule. -/
theorem exists_follow_run (m : Machine σ) (hist : History) (limit : Nat) :
    ∃ schedule hist', m.follow hist schedule = some (m.run limit, hist') := by
  induction limit generalizing m hist with
  | zero => exact ⟨[], hist, rfl⟩
  | succ limit ih =>
    unfold run
    cases hnext : m.next with
    | none => exact ⟨[], hist, rfl⟩
    | some stepped =>
      obtain ⟨id, choice, hstep⟩ := step_of_firstStep hnext
      obtain ⟨th, hth⟩ : ∃ th, m.threads[id]? = some th := by
        unfold step at hstep
        split at hstep
        · cases hstep
        · obtain ⟨th, hth, _⟩ := Option.bind_eq_some_iff.1 hstep
          exact ⟨th, hth⟩
      obtain ⟨schedule, hist', hrun⟩ := ih stepped (hist.next m th)
      refine ⟨(id, choice) :: schedule, hist', ?_⟩
      simp only [follow, hth, hstep, Option.bind_eq_bind, Option.bind_some]
      exact hrun

variable {parallelism : Nat} {spaces : List Recorder} {shared : σ} {settings : Settings}
  {given : Option SpaceId} {next : Except BuildError RuntimeId → Body σ} {config : Config}

/-- Before the runtime is built there is nothing to uphold. -/
theorem start_upholds (body : Body σ) : (start parallelism spaces shared body).Upholds .start := by
  have hbodies : ∀ (id : ThreadId) (th : Thread σ),
      (start parallelism spaces shared body).threads[id]? = some th → th.bodies = [] := by
    intro id th hth
    cases id with
    | zero => cases hth; rfl
    | succ id => cases hth
  have hholder : ∀ holder, (start parallelism spaces shared body).ledger.roster.holder? holder = none :=
    Roster.holder?_nil []
  have hcell : ∀ t, (start parallelism spaces shared body).cell? t = none := by
    intro t
    cases t <;> rfl
  refine ⟨fun _ he => (by cases he), fun id th hth body hb => ?_, fun t hr => ?_, fun id th hth body hb => ?_,
    fun id s hs => ?_, .nil, fun holder _ h _ _ hh => ?_, fun holder h _ hh => ?_, fun rt hm => ?_,
    fun t cell hc => ?_⟩
  · rw [hbodies id th hth] at hb
    cases hb
  · obtain ⟨cell, hc, _⟩ := hr
    cases (hcell t).symm.trans hc
  · rw [hbodies id th hth] at hb
    cases hb
  · cases hs
  · cases (hholder holder).symm.trans hh
  · cases (hholder holder).symm.trans hh
  · cases hm
  · cases (hcell t).symm.trans hc

/-- Every run of a machine that builds one runtime, up to any step: a body has one holder, on the stack
of its worker; the mappings that are live are those of the registered holders, and those that panics of
`localizeAll` left; a task that is over has nothing; and no bracket is refused. -/
theorem run_upholds (h : Launches parallelism spaces settings given config)
    (hnext : (next (.ok 0)).Allowed .outside) {schedule : List (ThreadId × Choice)}
    (hrun : (start parallelism spaces shared (.build settings given next)).follow .start schedule =
      some (m, hist)) : m.Upholds hist := by
  cases schedule with
  | nil =>
    cases hrun
    exact start_upholds _
  | cons turn rest =>
    obtain ⟨id, choice⟩ := turn
    obtain ⟨th, hth, hrun⟩ := Option.bind_eq_some_iff.1 hrun
    obtain ⟨launched, hstep, hrun⟩ := Option.bind_eq_some_iff.1 hrun
    -- the first step launches the runtime, before there is any task
    obtain ⟨space, hsound, htasks⟩ := step_start h hnext hth hstep
    obtain ⟨hsound, hattended⟩ := hsound.follow (attended_of_no_tasks htasks) hrun
    exact hsound.upholds hattended

/-- Maps two ranges at once, the second of which lies at the end of the addresses, and panics there. The
allocation in between is refused, but takes the addresses. -/
def leaking : Body Unit :=
  .call (.memory (.alloc 8 8)) fun
  | .ok first =>
    .call (.memory (.alloc 18446744073709527040 9223372036854775808)) fun _ =>
    .call (.memory (.alloc 8192 8192)) fun
    | .ok last =>
      .call (.memory (.localizeAll [⟨first, 8⟩, ⟨last, 8⟩] .readOnly)) fun
      | .ok _ => .finish .none
      | .error _ => .panic .addOverflow
    | .error _ => .finish .none
  | .error _ => .finish .none

theorem leaking_allowed : leaking.Allowed .root := by
  rintro (_ | first)
  · trivial
  · rintro _ (_ | last)
    · trivial
    · rintro (_ | _) <;> trivial

/-- After that body, one mapping is live and no holder is registered. -/
theorem run_upholds_leaking :
    let next : Except BuildError RuntimeId → Body Unit := fun _ => .blockOn 0 leaking fun _ => .finish .none
    let schedule : List (ThreadId × Choice) := List.replicate 8 (0, ⟨false, 0, .nothing⟩)
    ∃ m hist, (start 1 [] () (.build (Settings.new .localOnly) none next)).follow .start schedule =
        some (m, hist) ∧ m.Upholds hist ∧ hist.lost = 1 ∧ m.ledger.roster.registeredLen = 0 ∧
      m.ledger.spaces.map AddressSpace.liveMappings = [1] := by
  intro next schedule
  have hlaunches : Launches 1 [] (Settings.new .localOnly) none
      { flavor := .localOnly, workerThreads := 1, naming := .numbered, stackSize := none, interval := 31
        retries := 3, space := Space.new 1 } :=
    ⟨rfl, rfl, by simp, by simp, by simp [Settings.new]⟩
  have hnext : (next (.ok 0)).Allowed .outside := ⟨by decide, rfl, leaking_allowed, fun _ => trivial⟩
  have hshown : (((start 1 [] () (.build (Settings.new .localOnly) none next)).follow .start schedule).map
      fun run => (run.2.lost, run.1.ledger.roster.registeredLen,
        run.1.ledger.spaces.map AddressSpace.liveMappings)) = some (1, 0, [1]) := by decide
  obtain ⟨⟨m, hist⟩, hrun, hshown⟩ := Option.map_eq_some_iff.1 hshown
  simp only [Prod.mk.injEq] at hshown
  exact ⟨m, hist, hrun, run_upholds hlaunches hnext hrun, hshown⟩

end Machine

end TaskSpace

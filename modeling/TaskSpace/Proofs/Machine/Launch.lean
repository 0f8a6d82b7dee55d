import TaskSpace.Proofs.Machine.Steps

/-!
# A runtime is launched

The machine that a built runtime leaves is sound: a storage for each worker, a thread for each storage,
and nothing registered, mapped or lost.
-/

namespace TaskSpace

variable {σ : Type}

namespace Settings

variable {settings : Settings} {parallelism : Nat} {config : Config}

theorem space_of_toConfig (h : settings.toConfig parallelism = .ok config) :
    ∃ workers, config.space = settings.space.getD (Space.new workers) := by
  unfold toConfig at h
  dsimp only at h
  split at h
  · cases h
  · split at h
    · split at h <;> cases h
      exact ⟨_, rfl⟩
    · cases h
      exact ⟨_, rfl⟩

/-- The number of workers is a word, so no worker is named like the mark of none. -/
theorem numWorkers_of_toConfig (h : settings.toConfig parallelism = .ok config) :
    config.numWorkers ≤ Word.top := by
  have hconfig : ∃ workers, numWorkers config.flavor config.workerThreads = .ok workers := by
    unfold toConfig at h
    dsimp only at h
    split at h
    · cases h
    · rename_i workers hw
      split at h
      · split at h <;> cases h
        exact ⟨workers, hw⟩
      · cases h
        exact ⟨workers, hw⟩
  obtain ⟨workers, hw⟩ := hconfig
  unfold Config.numWorkers Config.poolSize
  unfold numWorkers at hw
  cases hf : config.flavor with
  | localOnly => exact (by decide : 0 + 1 ≤ Word.top)
  | stealing =>
    simp only [hf] at hw
    split at hw
    · rename_i k hk
      exact Nat.le_sub_one_of_lt (Word.add?_eq_some.1 hk).1
    · cases hw

end Settings

theorem Roster.holder?_nil (storages : List Storage) (holder : HolderId) :
    (⟨[], storages⟩ : Roster).holder? holder = none := by
  cases holder <;> rfl

namespace Machine

variable {parallelism n : Nat} {spaces : List Recorder} {shared : σ} {settings : Settings}
  {given : Option SpaceId} {next : Except BuildError RuntimeId → Body σ} {config : Config}
  {space : SpaceId} {m m' : Machine σ} {id : ThreadId} {choice : Choice}

/-- New storages come behind those that are there. -/
theorem addStorages_append (l : Ledger) (space : SpaceId) (n : Nat) :
    addStorages l space n = ((List.range n).map (l.roster.storages.length + ·), { l with roster :=
      { l.roster with storages := l.roster.storages ++ (List.range n).map (Storage.fresh · space) } }) := by
  induction n with
  | zero => simp [addStorages]
  | succ n ih =>
    unfold addStorages at ih ⊢
    rw [List.range_succ, List.foldl_append, ih]
    simp [Ledger.addStorage, Roster.addStorage]

theorem addStorages_eq (l : Ledger) (hl : l.roster.storages = []) (space : SpaceId) (n : Nat) :
    addStorages l space n = (List.range n, { l with roster :=
      { l.roster with storages := (List.range n).map (Storage.fresh · space) } }) := by
  rw [addStorages_append, hl]
  simp

/-- The thread that builds a runtime, once the runtime is there. -/
def builder (next : Except BuildError RuntimeId → Body σ) : Thread σ :=
  { control := .run (next (.ok 0)), frames := [], context := some ⟨0, WorkerId.root, none⟩
    holder := none, active := true }

/-- The threads of a pool, whose workers are numbered from `1`. -/
def workers (k : Nat) : List (Thread σ) := (List.range k).map fun i => .pooled 0 (i + 1)

theorem builder_fits (hn : 0 < n) (hnext : (next (.ok 0)).Allowed .outside) :
    (builder next).Fits n 0 where
  works c hc := by
    cases hc
    exact ⟨rfl, rfl, hn⟩
  idle hc := by cases hc
  nested := rfl
  control := ⟨.nil, hnext⟩

theorem pooled_fits {i : Nat} (hlt : i < n) : (Thread.pooled 0 i : Thread σ).Fits n i where
  works c hc := by
    cases hc
    exact ⟨rfl, rfl, hlt⟩
  idle hc := by cases hc
  nested := rfl
  control := .loop

/-- Every thread is idle: it runs no body, and neither begins nor completes a task. -/
theorem threads_launched {k : Nat} {th : Thread σ} (hnext : (next (.ok 0)).Allowed .outside)
    (hth : (builder next :: workers k)[id]? = some th) :
    th.Fits (k + 1) id ∧ th.bodies = [] ∧ th.control.beginning = none ∧ th.control.completing = none := by
  cases id with
  | zero =>
    cases hth
    exact ⟨builder_fits (Nat.succ_pos k) hnext, rfl, rfl, rfl⟩
  | succ i =>
    rw [List.getElem?_cons_succ, workers, List.getElem?_map] at hth
    obtain ⟨place, hp, rfl⟩ := Option.map_eq_some_iff.1 hth
    obtain ⟨hlt, rfl⟩ := List.getElem?_eq_some_iff.1 hp
    rw [List.length_range] at hlt
    rw [List.getElem_range]
    exact ⟨pooled_fits (Nat.succ_lt_succ hlt), rfl, rfl, rfl⟩

theorem storages_launched {s : Storage}
    (hs : ((List.range n).map (Storage.fresh · space))[id]? = some s) : s = .fresh id space := by
  rw [List.getElem?_map] at hs
  obtain ⟨place, hp, rfl⟩ := Option.map_eq_some_iff.1 hs
  obtain ⟨_, rfl⟩ := List.getElem?_eq_some_iff.1 hp
  rw [List.getElem_range]

/-- A machine whose runtime was just launched: nothing ran, and nothing is mapped in the space. -/
theorem sound_launched {k : Nat} {rt : Runtime} {spaces : List Recorder} {a : Recorder}
    (hnext : (next (.ok 0)).Allowed .outside) (hk : k + 1 ≤ Word.top)
    (hrt : rt.storages = List.range (k + 1) ∧ rt.space = space ∧ rt.outer = none)
    (ha : spaces[space]? = some a) (hlive : a.space.live = 0) :
    ({ shared, tasks := [], runtimes := [rt], threads := builder next :: workers k, crash := none
       parallelism, ledger := { spaces, roster :=
         ⟨[], (List.range (k + 1)).map (Storage.fresh · space)⟩ } } : Machine σ).Sound
      (k + 1) space .start where
  crash _ he := by cases he
  runtimes other hm := by
    obtain rfl := List.mem_singleton.1 hm
    exact hrt
  present := by simp [workers]
  fits id th hth := (threads_launched hnext hth).1
  keeps id th hth := .idle (threads_launched hnext hth).2.2.1 (threads_launched hnext hth).2.2.2
  roster := by
    have hworkers : ∀ w ∈ (List.range (k + 1)).map (·, space), w.1 ≠ Holder.unregistered := by
      intro w hw
      obtain ⟨i, hi, rfl⟩ := List.mem_map.1 hw
      exact Nat.ne_of_lt (Nat.lt_of_lt_of_le (List.mem_range.1 hi) hk)
    simpa [Function.comp_def] using Roster.sound_fresh [] hworkers
  storages := by simp
  serves id s th hs hth := by
    obtain rfl := storages_launched hs
    refine ⟨rfl, rfl, ?_, rfl, fun _ => rfl⟩
    rw [Thread.stack, (threads_launched hnext hth).2.1]
    rfl
  owners id th hth body hm := by
    rw [(threads_launched hnext hth).2.1] at hm
    cases hm
  owned holder h hh := by simp [Roster.holder?_nil] at hh
  unique holder _ h _ _ hh := by simp [Roster.holder?_nil] at hh
  cells t cell hc := by cases t <;> cases hc
  tally := ⟨a, ha, hlive, fun holder h hh => by simp [Roster.holder?_nil] at hh,
    fun holder h hh => by simp [Roster.holder?_nil] at hh, fun e he => by cases he⟩

/-- What a built runtime needs: settings that are accepted, and a space with nothing mapped. -/
structure Launches (parallelism : Nat) (spaces : List Recorder) (settings : Settings)
    (given : Option SpaceId) (config : Config) : Prop where
  accepted : settings.toConfig parallelism = .ok config
  pool : config.checkPool = .ok ()
  unmapped : ∀ a ∈ spaces, a.space.live = 0
  named : ∀ space, given = some space → space < spaces.length
  own : ∀ s, settings.space = some s → s.live = 0

/-- The space of a configuration has nothing mapped, be it a new one or that of the settings. -/
theorem Launches.live_config (h : Launches parallelism spaces settings given config) :
    config.space.live = 0 := by
  obtain ⟨workers, he⟩ := Settings.space_of_toConfig h.accepted
  rw [he]
  cases hs : settings.space with
  | none => rfl
  | some s => exact h.own s hs

theorem launch_sound (h : Launches parallelism spaces settings given config)
    (hnext : (next (.ok 0)).Allowed .outside) (shared : σ) (body : Body σ) :
    ∃ space, ((start parallelism spaces shared body).launch 0 (.plain body) config given next).Sound
      config.numWorkers space .start := by
  have hbound := Settings.numWorkers_of_toConfig h.accepted
  cases given with
  | some space =>
    have ha := List.getElem?_eq_getElem (h.named space rfl)
    have hlive := h.unmapped _ (List.getElem_mem (h.named space rfl))
    refine ⟨space, ?_⟩
    simp only [launch, start, addStorages_eq { spaces, roster := .empty } rfl]
    exact sound_launched hnext hbound ⟨rfl, rfl, rfl⟩ ha hlive
  | none =>
    refine ⟨spaces.length, ?_⟩
    simp only [launch, start, Ledger.addSpace]
    rw [addStorages_eq _ rfl]
    exact sound_launched hnext hbound ⟨rfl, rfl, rfl⟩ List.getElem?_concat_length h.live_config

/-- The one thread of the machine at its start builds the runtime. -/
theorem step_launch (h : Launches parallelism spaces settings given config)
    (hs : (start parallelism spaces shared (.build settings given next)).step id choice = some m') :
    id = 0 ∧ m' = (start parallelism spaces shared (.build settings given next)).launch 0
      (.plain (.build settings given next)) config given next := by
  have hbuild : (start parallelism spaces shared (.build settings given next)).step 0 choice =
      some ((start parallelism spaces shared (.build settings given next)).launch 0
        (.plain (.build settings given next)) config given next) := by
    simp only [Machine.step, start, stepThread, runBody, build, Thread.plain]
    simp [h.accepted, h.pool]
  cases id with
  | zero => exact ⟨rfl, Option.some.inj (hs.symm.trans hbuild)⟩
  | succ id => simp [Machine.step, start] at hs

theorem step_start (h : Launches parallelism spaces settings given config)
    (hnext : (next (.ok 0)).Allowed .outside) {th : Thread σ}
    (hth : (start parallelism spaces shared (.build settings given next)).threads[id]? = some th)
    (hs : (start parallelism spaces shared (.build settings given next)).step id choice = some m') :
    ∃ space, m'.Sound config.numWorkers space (History.start.next
      (start parallelism spaces shared (.build settings given next)) th) ∧ m'.tasks = [] := by
  obtain ⟨rfl, rfl⟩ := step_launch h hs
  cases hth
  obtain ⟨space, hsound⟩ := launch_sound h hnext shared (.build settings given next)
  exact ⟨space, hsound, rfl⟩

end Machine

end TaskSpace

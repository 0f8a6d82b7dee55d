import TaskSpace.Proofs.Machine.Upkeep
import TaskSpace.Proofs.Scheduler.Settings

/-!
# The workers of a runtime are the homes of its space

A runtime is launched with a worker, a slot and a storage for each number below that of its workers, and a
space that it makes itself has as many homes. It keeps them whatever runs on it or next to it, so every home
is a worker, and a worker that maps a range with ownership is the home of what it mapped. All of this goes
through for any number of runtimes, on any threads, that share spaces, tasks and memory in any way.
-/

namespace TaskSpace

variable {σ : Type}

/-- A runtime has a storage for each worker, in the slot of that worker. -/
structure Runtime.Manned (l : Ledger) (rt : Runtime) : Prop where
  table : rt.lot.slots.table = rt.storages.map some
  workers : rt.storages.map (l.roster.workers[·]?) = (List.range rt.config.numWorkers).map some

/-- The space of a runtime has a home for each worker. -/
def Runtime.Housed (l : Ledger) (rt : Runtime) : Prop :=
  ∃ a, l.spaces[rt.space]? = some a ∧ a.space.Homed rt.config.numWorkers

theorem Runtime.Manned.keeps {rt rt' : Runtime} {l l' : Ledger} (h : rt.Manned l) (hk : l.Keeps l')
    (hr : rt.Keeps rt') : rt'.Manned l' where
  table := by rw [hr.table, hr.storages, h.table]
  workers := by
    rw [hr.storages, hr.config, ← h.workers]
    refine List.map_congr_left fun id hid => ?_
    have hin : l.roster.workers[id]? ∈ rt.storages.map (l.roster.workers[·]?) := List.mem_map_of_mem hid
    rw [h.workers] at hin
    obtain ⟨worker, _, hw⟩ := List.mem_map.1 hin
    obtain ⟨more, hmore⟩ := hk.workers
    rw [← hmore, List.getElem?_append_left (List.getElem?_eq_some_iff.1 hw.symm).1]

theorem Runtime.Housed.keeps {rt rt' : Runtime} {l l' : Ledger} (h : rt.Housed l) (hk : l.Keeps l')
    (hr : rt.Keeps rt') : rt'.Housed l' := by
  obtain ⟨a, ha, hhomed⟩ := h
  obtain ⟨a', ha', hkeeps⟩ := hk.spaces _ a ha
  exact ⟨a', hr.space ▸ ha', hr.config ▸ hkeeps _ hhomed⟩

/-- A worker owns a range of a space. -/
def Ledger.Owned (l : Ledger) (space : SpaceId) (ptr : Pointer) (len : Nat) (worker : WorkerId) : Prop :=
  ∃ a, l.spaces[space]? = some a ∧ a.space.Owned ptr len worker

theorem Ledger.localize_owned {l l' : Ledger} {space : SpaceId} {a : Recorder} {worker : WorkerId}
    {holder : HolderId} {ptr : Pointer} {len : Nat} {access : Access} {ref : LocalRef} (ha : l.spaces[space]? = some a)
    (hown : access.takesOwnership) (hw : worker < a.space.numHomes)
    (h : l.localize space worker holder ptr len access = (.ok ref, l')) : l'.Owned space ptr len worker := by
  simp only [Ledger.localize, ha, Recorder.localize_eq, Recorder.localize] at h
  split at h
  · rename_i id a' he
    cases h
    split at he <;> cases he
    rename_i s hl
    exact ⟨_, spaces_updateSpace ha _, Space.localize_owned hl hown hw⟩
  · cases h

theorem Ledger.localizeAll_owned {l l' : Ledger} {space : SpaceId} {a : Recorder} {worker : WorkerId}
    {holder : HolderId} {ranges : List Range} {access : Access} {refs : List LocalRef}
    (ha : l.spaces[space]? = some a) (hown : access.takesOwnership) (hw : worker < a.space.numHomes)
    (h : l.localizeAll space worker holder ranges access = (.ok refs, l')) :
    ∀ range ∈ ranges, l'.Owned space range.start range.len worker := by
  obtain ⟨hids, hspace⟩ := a.localizeRest_space access worker [] ranges
  simp only [Ledger.localizeAll, ha, AddressSpace.localizeAll, foldl_record] at h
  split at h
  · rename_i ids a' he
    cases h
    rw [he] at hids hspace
    have hl : AddressSpace.localizeRest access worker [] ranges a.space = (.ok ids, a'.space) :=
      Prod.ext hids.symm hspace.symm
    exact fun range hrange => ⟨a', spaces_updateSpace ha _, (Space.localizeRest_owned hl hown hw).2 range hrange⟩
  · cases h

namespace Machine

variable {m m' rest : Machine σ} {id : ThreadId} {th th' : Thread σ} {config : Config} {rt rt' : Runtime}
  {l l' : Ledger}

/-! ## Launching -/

theorem keeps_addStorages (l : Ledger) (space : SpaceId) (n : Nat) : l.Keeps (addStorages l space n).2 := by
  rw [addStorages_append]
  exact ⟨fun _ a ha => ⟨a, ha, fun _ h => h⟩, by simp [Roster.workers]⟩

theorem workers_addStorages (l : Ledger) (space : SpaceId) (n : Nat) :
    (addStorages l space n).1.map ((addStorages l space n).2.roster.workers[·]?) = (List.range n).map some := by
  rw [addStorages_append, List.map_map]
  refine List.map_congr_left fun worker hw => ?_
  simp [Roster.workers, Storage.fresh, List.mem_range.1 hw]

/-- A launch keeps what is there, and adds a runtime that is manned. -/
theorem launch_manned (m : Machine σ) (id : ThreadId) (th : Thread σ) (config : Config)
    (given : Option SpaceId) (next : Except BuildError RuntimeId → Body σ) (hlt : id < m.threads.length) :
    m.ledger.Keeps (m.launch id th config given next).ledger ∧
      ∃ rt, (m.launch id th config given next).runtimes = m.runtimes ++ [rt] ∧ rt.config = config ∧
        rt.outer = th.context ∧ rt.queues = .empty config.numWorkers ∧
        rt.Manned (m.launch id th config given next).ledger ∧
        (given = none → ∃ a, (m.launch id th config given next).ledger.spaces[rt.space]? = some a ∧
          a.space = config.space) := by
  have hdistinct : (id :: (List.range config.poolSize).map (m.threads.length + ·)).Nodup := by
    refine List.nodup_cons.2 ⟨fun hin => ?_, List.Pairwise.map _ (fun i j hne he => ?_) List.nodup_range⟩
    · obtain ⟨i, _, rfl⟩ := List.mem_map.1 hin
      exact Nat.not_lt_of_le (Nat.le_add_right _ i) hlt
    · exact hne (Nat.add_left_cancel he)
  have htable : ∀ (l : Ledger) (space : SpaceId),
      (registerAll (.empty config.numWorkers) id (addStorages l space config.numWorkers).1
        ((List.range config.poolSize).map (m.threads.length + ·))).table =
      (addStorages l space config.numWorkers).1.map some := fun l space => by
    have hlen : (addStorages l space config.numWorkers).1.length =
        ((List.range config.poolSize).map (m.threads.length + ·)).length + 1 := by
      simp [addStorages_append, Config.numWorkers]
    simpa [Config.numWorkers] using Slots.table_registerAll hdistinct hlen
  cases given with
  | some space =>
    refine ⟨keeps_addStorages m.ledger space config.numWorkers, _, rfl, rfl, rfl, rfl, ⟨htable _ _, ?_⟩,
      fun h => by cases h⟩
    exact workers_addStorages m.ledger space config.numWorkers
  | none =>
    let own : Recorder := { space := config.space, localized := [], released := [] }
    have hadd := keeps_addStorages (m.ledger.addSpace own).2 m.ledger.spaces.length config.numWorkers
    refine ⟨(m.ledger.keeps_addSpace own).trans hadd, _, rfl, rfl, rfl, rfl, ⟨htable _ _, ?_⟩,
      fun _ => ⟨own, ?_, rfl⟩⟩
    · exact workers_addStorages (m.ledger.addSpace own).2 m.ledger.spaces.length config.numWorkers
    · simp only [launch, addStorages_append]
      exact List.getElem?_concat_length

/-! ## Every context is that of a worker -/

/-- The runtimes that are there stay what they were launched as. -/
structure Retains (m m' : Machine σ) : Prop where
  ledger : m.ledger.Keeps m'.ledger
  runtimes : ∀ (r : RuntimeId) (rt : Runtime), m.runtimes[r]? = some rt →
    ∃ rt', m'.runtimes[r]? = some rt' ∧ rt.Keeps rt'

theorem Tends.retains (h : m.Tends m') : m.Retains m' := by
  obtain ⟨runtime, f, hf, hruntimes, hk⟩ := h
  refine ⟨hk, fun r rt hrt => ?_⟩
  by_cases he : runtime = r
  · subst he
    exact ⟨f rt, by rw [hruntimes, List.getElem?_modify_eq, hrt]; rfl, hf rt hrt⟩
  · exact ⟨rt, by rw [hruntimes, List.getElem?_modify_ne _ _ he, hrt], .refl rt⟩

theorem Move.retains (hm : m.Move id th rest th') (hcrash : rest.crash = none) (hth : m.threads[id]? = some th) :
    m.Retains rest := by
  rcases hm.tends hcrash with ht | ⟨settings, space, next, config, _, hruntimes, hledger⟩
  · exact ht.retains
  · obtain ⟨hk, rt', hadded, _⟩ := m.launch_manned id th config space next (List.getElem?_eq_some_iff.1 hth).1
    refine ⟨hledger ▸ hk, fun r rt hrt => ⟨rt, ?_, .refl rt⟩⟩
    rw [hruntimes, hadded, List.getElem?_append_left (List.getElem?_eq_some_iff.1 hrt).1, hrt]

/-- A context names a worker of a runtime that is there. -/
def Places (m : Machine σ) (c : Context) : Prop :=
  ∃ rt, m.runtimes[c.runtime]? = some rt ∧ c.worker < rt.config.numWorkers

theorem Retains.places {c : Context} (hk : m.Retains m') (h : m.Places c) : m'.Places c := by
  obtain ⟨rt, hrt, hlt⟩ := h
  obtain ⟨rt', hrt', hr⟩ := hk.runtimes _ rt hrt
  exact ⟨rt', hrt', hr.config ▸ hlt⟩

/-- Every runtime is manned, and whoever works for a runtime, or did before it built another one, is one of its
workers. -/
structure Manned (m : Machine σ) : Prop where
  runtimes : ∀ rt ∈ m.runtimes, rt.Manned m.ledger
  threads : ∀ th ∈ m.threads, ∀ c, th.context = some c → m.Places c
  outers : ∀ rt ∈ m.runtimes, ∀ c, rt.outer = some c → m.Places c

/-- The runtimes after a step are those of before, but for one that it launches. -/
theorem Move.runtime_cases (hm : m.Move id th rest th') (hcrash : rest.crash = none)
    (hth : m.threads[id]? = some th) (hrt' : rt' ∈ rest.runtimes) :
    (∃ rt ∈ m.runtimes, rt.Keeps rt') ∨ rt'.outer = th.context ∧ rt'.Manned rest.ledger := by
  rcases hm.tends hcrash with ⟨runtime, f, hf, hruntimes, _⟩ |
    ⟨settings, space, next, config, _, hruntimes, hledger⟩
  · obtain ⟨r, hr⟩ := List.mem_iff_getElem?.1 hrt'
    rw [hruntimes, List.getElem?_modify] at hr
    obtain ⟨rt, hrt, hr⟩ := Option.map_eq_some_iff.1 hr
    refine .inl ⟨rt, List.mem_of_getElem? hrt, ?_⟩
    split at hr <;> subst hr
    · rename_i he
      exact hf rt (he ▸ hrt)
    · exact .refl rt
  · obtain ⟨_, rt, hadded, _, houter, _, hmanned, _⟩ :=
      m.launch_manned id th config space next (List.getElem?_eq_some_iff.1 hth).1
    rw [hruntimes, hadded] at hrt'
    rcases List.mem_append.1 hrt' with hin | hin
    · exact .inl ⟨rt', hin, .refl rt'⟩
    · rw [List.mem_singleton.1 hin, hledger]
      exact .inr ⟨houter, hmanned⟩

/-- Whoever works for a runtime after a step is one of its workers. -/
theorem Manned.places_move (h : m.Manned) (hm : m.Move id th rest th') (hcrash : rest.crash = none)
    (hth : m.threads[id]? = some th) : (∀ c, th'.context = some c → rest.Places c) ∧
      ∀ x ∈ rest.threads, ∀ c, x.context = some c → rest.Places c := by
  have hk := hm.retains hcrash hth
  have hold : ∀ x ∈ m.threads, ∀ c, x.context = some c → rest.Places c :=
    fun x hx c hc => hk.places (h.threads x hx c hc)
  have hmine : ∀ c, th.context = some c → rest.Places c := hold th (List.mem_of_getElem? hth)
  have hretask : ∀ task c, (th.setTask task).context = some c → rest.Places c := fun task c hc => by
    obtain ⟨old, hc', rfl⟩ := Option.map_eq_some_iff.1 hc
    exact hmine old hc'
  cases hm with
  | @launched settings space next config hctl =>
    obtain ⟨_, rt, hadded, rfl, _⟩ := m.launch_manned id th config space next (List.getElem?_eq_some_iff.1 hth).1
    have hnew : ∀ worker, worker < rt.config.numWorkers → ∀ task, (m.launch id th rt.config space next).Places
        ⟨m.runtimes.length, worker, task⟩ := fun worker hlt _ =>
      ⟨rt, by rw [hadded]; exact List.getElem?_concat_length, hlt⟩
    refine ⟨fun c hc => ?_, fun x hx c hc => ?_⟩
    · cases hc
      exact hnew _ (Nat.succ_pos _) _
    · rcases List.mem_append.1 hx with hx | hx
      · exact hold x hx c hc
      · obtain ⟨i, hi, rfl⟩ := List.mem_map.1 hx
        cases hc
        exact hnew _ (Nat.succ_lt_succ (List.mem_range.1 hi)) _
  | rooted | began | left | leftRoot => exact ⟨hretask _, hold⟩
  | exited => exact ⟨fun _ hc => (by cases hc), hold⟩
  | forked =>
    refine ⟨hmine, fun x hx c hc => ?_⟩
    rcases List.mem_append.1 hx with hx | hx
    · exact hold x hx c hc
    · rw [List.mem_singleton.1 hx] at hc
      cases hc
  | @closed runtime rt _ storage _ hrt =>
    refine ⟨fun c hc => hk.places (h.outers rt (List.mem_of_getElem? hrt) c hc), fun x hx => hold x ?_⟩
    exact threads_dropQueues (m.closeStorage storage) _ ▸ hx
  | crashed => cases hcrash
  | _ => exact ⟨hmine, hold⟩

theorem Manned.move (h : m.Manned) (hm : m.Move id th rest th') (hcrash : rest.crash = none)
    (hth : m.threads[id]? = some th) : (rest.setThread id th').Manned := by
  have hk := hm.retains hcrash hth
  obtain ⟨hself, hthreads⟩ := h.places_move hm hcrash hth
  refine ⟨fun rt' hrt' => ?_, fun x hx c hc => ?_, fun rt' hrt' c hc => ?_⟩
  · rcases hm.runtime_cases hcrash hth hrt' with ⟨rt, hrt, hr⟩ | ⟨_, hmanned⟩
    · exact (h.runtimes rt hrt).keeps hk.ledger hr
    · exact hmanned
  · rcases List.mem_or_eq_of_mem_set hx with hx | rfl
    · exact hthreads x hx c hc
    · exact hself c hc
  · rcases hm.runtime_cases hcrash hth hrt' with ⟨rt, hrt, hr⟩ | ⟨houter, _⟩
    · exact hk.places (h.outers rt hrt c (hr.outer ▸ hc))
    · exact hk.places (h.threads th (List.mem_of_getElem? hth) c (houter ▸ hc))

/-! ## Runs -/

/-- A turn builds a runtime that makes its own space. -/
structure Builds (turn : Turn (Machine σ) (ThreadId × Choice)) (settings : Settings) (config : Config) : Prop where
  thread : ∃ th next, turn.before.threads[turn.act.1]? = some th ∧ th.control = .run (.build settings none next) ∧
    th.active = false
  accepted : settings.toConfig turn.before.parallelism = .ok config
  pool : config.checkPool = .ok ()

theorem Move.parallelism (hm : m.Move id th rest th') : rest.parallelism = m.parallelism := by
  cases hm with
  | @closed _ rt _ storage =>
    obtain ⟨left, crash, he⟩ := dropQueues_eq (m.closeStorage storage) (queued rt.queues)
    rw [he]
    rfl
  | crashed ha => cases ha <;> rfl
  | _ => rfl

theorem step_build {turn : Turn (Machine σ) (ThreadId × Choice)} {settings : Settings}
    (h : Builds turn settings config) (hs : advance turn.before turn.act = some turn.after) :
    ∃ th next, turn.act.1 < turn.before.threads.length ∧
      turn.after = turn.before.launch turn.act.1 th config none next := by
  obtain ⟨⟨th, next, hth, hctl, hactive⟩, haccepted, hpool⟩ := h
  refine ⟨th, next, (List.getElem?_eq_some_iff.1 hth).1, ?_⟩
  unfold advance Machine.step at hs
  split at hs
  · cases hs
  · have hlaunch : turn.before.stepThread turn.act.1 th turn.act.2 =
        some (turn.before.launch turn.act.1 th config none next) := by
      simp [stepThread, hctl, runBody, build, hactive, haccepted, hpool]
    rw [hth] at hs
    exact (Option.some.inj (hlaunch.symm.trans hs)).symm

/-- What is so after a run: every runtime is manned, and those that were built on a space of their own are
housed. -/
structure Kept (parallelism : Nat) (turns : Turns σ) (m : Machine σ) : Prop where
  cores : m.parallelism = parallelism
  manned : m.Manned
  befores : ∀ turn ∈ turns, turn.before.parallelism = parallelism
  housed : ∀ turn ∈ turns, ∀ settings config, Builds turn settings config → config.space.Homed config.numWorkers →
    ∃ rt, m.runtimes[turn.before.runtimes.length]? = some rt ∧ rt.config = config ∧ rt.Housed m.ledger

variable {parallelism : Nat} {turns : Turns σ}

theorem Kept.step (h : Kept parallelism turns m) {act : ThreadId × Choice} (hs : advance m act = some m')
    (hcrash : m'.crash = none) : Kept parallelism (turns ++ [⟨m, act, m'⟩]) m' := by
  obtain ⟨th, rest, th', hth, _, hm, rfl⟩ := exists_move hs
  have hk : m.Retains rest := hm.retains hcrash hth
  refine ⟨hm.parallelism.trans h.cores, h.manned.move hm hcrash hth, fun turn hturn => ?_,
    fun turn hturn settings config hbuilds hhomed => ?_⟩
  · rcases List.mem_append.1 hturn with hturn | hturn
    · exact h.befores turn hturn
    · rw [List.mem_singleton.1 hturn]
      exact h.cores
  · rcases List.mem_append.1 hturn with hturn | hturn
    · obtain ⟨rt, hrt, rfl, hhoused⟩ := h.housed turn hturn settings config hbuilds hhomed
      obtain ⟨rt', hrt', hr⟩ := hk.runtimes _ rt hrt
      exact ⟨rt', hrt', hr.config, hhoused.keeps hk.ledger hr⟩
    · obtain rfl := List.mem_singleton.1 hturn
      obtain ⟨builder, next, hlt, hafter⟩ := step_build hbuilds hs
      obtain ⟨_, rt, hadded, rfl, _, _, _, hspace⟩ := m.launch_manned act.1 builder config none next hlt
      obtain ⟨a, ha, he⟩ := hspace rfl
      rw [show rest.setThread act.1 th' = _ from hafter]
      exact ⟨rt, by rw [hadded]; exact List.getElem?_concat_length, rfl, a, ha, he ▸ hhomed⟩

theorem kept_of_run {spaces : List Recorder} {shared : σ} {body : Body σ} {schedule : List (ThreadId × Choice)}
    (hrun : trail advance (start parallelism spaces shared body) schedule = some (turns, m))
    (hcrash : m.crash = none) : Kept parallelism turns m := by
  refine trail_induction (P := fun turns m => m.crash = none → Kept parallelism turns m)
    (fun turns m act after ih hs hafter => ?_) (fun _ => ?_) hrun hcrash
  · obtain ⟨_, _, _, _, hnone, _⟩ := exists_move hs
    exact (ih hnone).step hs hafter
  · refine ⟨rfl, ⟨fun _ hrt => ?_, fun th hth c hc => ?_, fun _ hrt => ?_⟩, fun _ hturn => ?_, fun _ hturn => ?_⟩
    · cases hrt
    · rw [List.mem_singleton.1 hth] at hc
      cases hc
    · cases hrt
    · cases hturn
    · cases hturn

/-! ## Homes are workers -/

/-- Runtime `r` has as many slots, storages and homes as workers. Those who work for it are among its workers,
every home in its space is one of them, and whatever they map with ownership is their own. -/
structure AtHome (m : Machine σ) (r : RuntimeId) (rt : Runtime) : Prop where
  present : m.runtimes[r]? = some rt
  view : ∀ th : Thread σ,
    (m.answer th (.runtime r)).1 = some ⟨rt.config.numWorkers, List.range rt.config.numWorkers⟩
  space : ∃ a, m.ledger.spaces[rt.space]? = some a ∧ a.space.numHomes = rt.config.numWorkers ∧
    ∀ ptr home, a.space.homeOf ptr = .ok home → home < rt.config.numWorkers
  workers : ∀ th ∈ m.threads, ∀ c, th.context = some c → c.runtime = r → c.worker < rt.config.numWorkers
  homes : ∀ th ∈ m.threads, ∀ c, th.context = some c → c.runtime = r → ∀ ptr home,
    (m.answer th (.memory (.homeOf ptr))).1 = .ok home → home < rt.config.numWorkers
  owned : ∀ th ∈ m.threads, ∀ c, th.context = some c → c.runtime = r → ∀ ptr len (access : Access) ref,
    access.takesOwnership → (m.answer th (.memory (.localize ptr len access))).1 = .ok ref →
    (m.answer th (.memory (.localize ptr len access))).2.Owned rt.space ptr len c.worker
  allOwned : ∀ th ∈ m.threads, ∀ c, th.context = some c → c.runtime = r → ∀ ranges (access : Access) refs,
    access.takesOwnership → (m.answer th (.memory (.localizeAll ranges access))).1 = .ok refs →
    ∀ range ∈ ranges,
      (m.answer th (.memory (.localizeAll ranges access))).2.Owned rt.space range.start range.len c.worker

theorem view_of_manned {r : RuntimeId} (h : rt.Manned m.ledger) (hrt : m.runtimes[r]? = some rt) (th : Thread σ) :
    (m.answer th (.runtime r)).1 = some ⟨rt.config.numWorkers, List.range rt.config.numWorkers⟩ := by
  have hlen : rt.storages.length = rt.config.numWorkers := by simpa using congrArg List.length h.workers
  have hnamed : rt.storages.filterMap (m.ledger.roster.workers[·]?) = List.range rt.config.numWorkers := by
    have hall := congrArg (List.filterMap id) h.workers
    simpa [List.filterMap_map, Function.comp_def] using hall
  simp only [answer, hrt, Option.map_some, Slots.len_eq_table, Slots.storages_eq_table, h.table,
    List.length_map, hlen]
  rw [← hnamed]
  simp [List.filterMap_map, Roster.workers]

theorem Manned.atHome {r : RuntimeId} (h : m.Manned) (hrt : m.runtimes[r]? = some rt)
    (hhoused : rt.Housed m.ledger) : m.AtHome r rt := by
  obtain ⟨a, ha, hhomed⟩ := hhoused
  have hworkers : ∀ th ∈ m.threads, ∀ c, th.context = some c → c.runtime = r →
      c.worker < rt.config.numWorkers := by
    rintro th hth c hc rfl
    obtain ⟨found, hfound, hlt⟩ := h.threads th hth c hc
    cases hrt.symm.trans hfound
    exact hlt
  have hsite : ∀ th c, th.context = some c → c.runtime = r → m.site th = some ⟨rt.space, c.worker, th.holder⟩ := by
    rintro th c hc rfl
    simp [site, hc, hrt]
  refine ⟨hrt, fun th => view_of_manned (h.runtimes rt (List.mem_of_getElem? hrt)) hrt th,
    ⟨a, ha, hhomed.numHomes, fun ptr home ho => hhomed.homeOf_lt ho⟩, hworkers,
    fun th _ c hc hr ptr home ho => ?_, fun th hth c hc hr ptr len access ref hown hl => ?_,
    fun th hth c hc hr ranges access refs hown hl => ?_⟩
  · simp only [answer, Ledger.perform, hsite th c hc hr, Ledger.performIn, Ledger.look, ha] at ho
    exact hhomed.homeOf_lt ho
  · simp only [answer, Ledger.perform, hsite th c hc hr, Ledger.performIn] at hl ⊢
    cases hholder : th.holder with
    | none =>
      rw [hholder] at hl
      cases hl
    | some holder =>
      simp only [hholder] at hl ⊢
      exact Ledger.localize_owned ha hown (hhomed.numHomes ▸ hworkers th hth c hc hr) (Prod.ext hl rfl)
  · simp only [answer, Ledger.perform, hsite th c hc hr, Ledger.performIn] at hl ⊢
    cases hholder : th.holder with
    | none =>
      rw [hholder] at hl
      cases hl
    | some holder =>
      simp only [hholder] at hl ⊢
      exact Ledger.localizeAll_owned ha hown (hhomed.numHomes ▸ hworkers th hth c hc hr) (Prod.ext hl rfl)

/-- With settings that name no space, a configuration is refused for its stack alone, it makes a space with a
home for each worker, and a runtime that is built with it is at home in its space in every later state: whatever
the calls for settings were, whatever runs on the runtime and next to it, and however it is scheduled. -/
theorem homes_are_workers {flavor : Flavor} {calls : List Setting} {settings : Settings} {parallelism : Nat}
    (hset : (Settings.new flavor).setAll calls = .ok settings) (hspace : ∀ call ∈ calls, call.knob ≠ .addressSpace)
    (hthreads : flavor = .stealing → settings.workerThreads.getD parallelism < Word.top) :
    settings.ComesFrom flavor calls ∧
      (∀ error, settings.toConfig parallelism = .error error ↔ ∃ size,
        Setting.last .stackSize calls = some (.stackSize size) ∧ size < minStack ∧ error = .stackTooSmall size) ∧
      ∀ config, settings.toConfig parallelism = .ok config →
        config.numWorkers = (if flavor = .localOnly then 1 else settings.workerThreads.getD parallelism + 1) ∧
        config.space = Space.new config.numWorkers ∧ config.space.numHomes = config.numWorkers ∧
        ∀ (spaces : List Recorder) (shared : σ) (body : Body σ) (schedule : List (ThreadId × Choice))
          (turns : Turns σ) (m : Machine σ),
          trail advance (start parallelism spaces shared body) schedule = some (turns, m) → m.crash = none →
          ∀ turn ∈ turns, Builds turn settings config →
            ∃ rt, rt.config = config ∧ m.AtHome turn.before.runtimes.length rt := by
  have hcomes := Settings.comesFrom hset
  refine ⟨hcomes, fun error => ?_, fun config hconfig => ?_⟩
  · rw [Settings.toConfig_error_iff (hcomes.kind.symm ▸ hthreads)]
    simp only [hcomes.stackSize_eq_some]
  · obtain ⟨hflavor, hworkers, hnew⟩ := Settings.space_eq_of_toConfig hconfig (hcomes.space_eq_none hspace)
    have hhomed : config.space.Homed config.numWorkers := hnew ▸ Space.homed_new (Nat.succ_pos _)
    refine ⟨?_, hnew, hhomed.numHomes,
      fun spaces shared body schedule turns m hrun hcrash turn hturn hbuilds => ?_⟩
    · rw [Config.numWorkers, Config.poolSize, hflavor, hcomes.kind, hworkers]
      cases flavor <;> simp
    · have hkept := kept_of_run hrun hcrash
      obtain ⟨rt, hrt, hsame, hhoused⟩ := hkept.housed turn hturn settings config hbuilds hhomed
      exact ⟨rt, hsame, hkept.manned.atHome hrt hhoused⟩

/-- Allocates two blocks, and maps them with ownership. -/
def owning : Body Unit :=
  .call (.memory (.alloc 8 4)) fun
  | .ok ptr => .call (.memory (.localize ptr 8 ⟨9⟩)) fun _ => .finish .none
  | .error _ => .finish .none

/-- Of the calls for the number of threads the last one counts; worker `1`, the only one of the pool, steals a
task that maps two blocks with ownership, the first of which was at home at the root. -/
theorem homes_are_workers_stolen :
    let calls : List Setting := [.workerThreads 3, .stackSize 65536, .workerThreads 1]
    let settings : Settings := { Settings.new .stealing with workerThreads := some 1, stackSize := some 65536 }
    let schedule : List (ThreadId × Choice) :=
      (List.replicate 4 0 ++ List.replicate 5 1).map fun id => (id, ⟨false, 0, .lane 0⟩)
    ∃ config turns m, (Settings.new .stealing).setAll calls = .ok settings ∧
      settings.toConfig 8 = .ok config ∧ config.numWorkers = 2 ∧
      trail advance (start 8 [] () (.build settings none fun _ =>
        .blockOn 0 (.spawn none ⟨false, none⟩ owning fun _ => .finish .none) fun _ => .finish .none)) schedule =
        some (turns, m) ∧
      m.ledger.spaces.map (fun a => a.space.segments.map Segment.homes) = [[[1, 1]]] ∧
      ∃ rt, rt.config = config ∧ m.AtHome 0 rt := by
  intro calls settings schedule
  let config : Config :=
    { flavor := .stealing, workerThreads := 1, naming := .numbered, stackSize := some 65536, interval := 31
      retries := 3, space := Space.new 2 }
  have hset : (Settings.new .stealing).setAll calls = .ok settings := rfl
  have hconfig : settings.toConfig 8 = .ok config := rfl
  have hshown : (trail advance (start 8 [] () (.build settings none fun _ =>
      .blockOn 0 (.spawn none ⟨false, none⟩ owning fun _ => .finish .none) fun _ => .finish .none)) schedule).map
      (fun run => (run.2.crash, run.2.ledger.spaces.map fun a => a.space.segments.map Segment.homes)) =
        some (none, [[[1, 1]]]) := by
    decide
  obtain ⟨⟨turns, m⟩, hrun, hshown⟩ := Option.map_eq_some_iff.1 hshown
  obtain ⟨hcrash, hhomes⟩ := Prod.mk.injEq .. ▸ hshown
  obtain ⟨after, rest, _, _, hturns⟩ := trail_cons hrun
  have hthreads : Flavor.stealing = .stealing → settings.workerThreads.getD 8 < Word.top := by decide
  obtain ⟨_, _, hall⟩ := homes_are_workers (σ := Unit) hset (by decide) hthreads
  obtain ⟨_, _, _, hhome⟩ := hall config hconfig
  refine ⟨config, turns, m, hset, hconfig, rfl, hrun, hhomes, ?_⟩
  exact hhome [] () _ schedule turns m hrun hcrash _ (hturns ▸ List.mem_cons_self)
    ⟨⟨_, _, rfl, rfl, rfl⟩, hconfig, rfl⟩

end Machine

end TaskSpace

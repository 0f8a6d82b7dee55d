import TaskSpace.Scheduler.Settings

/-!
# Settings and what they come to

Each call sets one knob, and the last call for a knob is the one that counts; calls for different knobs
do not see each other. A configuration is refused for a stack that is too small and for nothing else, and
the space that it makes has a home for each worker.
-/

namespace TaskSpace

namespace Setting

/-- What a call is about. -/
inductive Knob where
  | workerThreads
  | naming
  | stackSize
  | interval
  | retries
  | addressSpace
deriving DecidableEq, Repr

/-- What a knob may be set to. -/
inductive KnobValue where
  | number (n : Option Nat)
  | naming (naming : Naming)
  | space (space : Option Space)
deriving DecidableEq, Repr

def knob : Setting → Knob
  | workerThreads _ => .workerThreads
  | naming _ => .naming
  | stackSize _ => .stackSize
  | interval _ => .interval
  | retries _ => .retries
  | addressSpace _ => .addressSpace

def value : Setting → KnobValue
  | workerThreads n | stackSize n | interval n | retries n => .number (some n)
  | naming name => .naming name
  | addressSpace homes => .space (some (Space.new homes))

/-- The last of some calls for a knob. -/
def last (knob : Knob) (calls : List Setting) : Option Setting :=
  (calls.filter fun call => call.knob = knob).getLast?

/-- The value of a call makes sense, whatever was set before. -/
def Passes (call : Setting) : Prop := ∀ s : Settings, ∃ s', s.set call = .ok s'

theorem last_cons (k : Knob) (call : Setting) (rest : List Setting) :
    last k (call :: rest) = (last k rest).or (if call.knob = k then some call else none) := by
  unfold last
  rw [List.filter_cons]
  by_cases hk : call.knob = k
  · simp only [hk, decide_true, if_true, List.getLast?_cons]
    cases (rest.filter fun call => call.knob = k).getLast? <;> rfl
  · simp [hk]

end Setting

namespace Settings

open Setting (Knob KnobValue Passes last)

variable {s s' : Settings} {call : Setting} {calls calls' : List Setting} {parallelism : Nat} {config : Config}

def value (s : Settings) : Knob → KnobValue
  | .workerThreads => .number s.workerThreads
  | .naming => .naming s.naming
  | .stackSize => .number s.stackSize
  | .interval => .number (some s.interval)
  | .retries => .number (some s.retries)
  | .addressSpace => .space s.space

/-- Settings are what their knobs are set to. -/
theorem ext_value (hf : s'.flavor = s.flavor) (hv : ∀ knob, s'.value knob = s.value knob) : s' = s := by
  have hthreads := hv .workerThreads
  have hnaming := hv .naming
  have hstack := hv .stackSize
  have hinterval := hv .interval
  have hretries := hv .retries
  have hspace := hv .addressSpace
  cases s
  cases s'
  simp_all [value]

/-- A call sets its knob, and leaves the others. -/
theorem set_value (h : s.set call = .ok s') : call.Passes ∧ s'.flavor = s.flavor ∧
    ∀ knob, s'.value knob = if call.knob = knob then call.value else s.value knob := by
  have hrefused : ∀ {p : Prop} [Decidable p] {payload : Payload} {t : Settings},
      (if p then .error payload else .ok t) = Except.ok s' → ¬p ∧ s' = t := by
    intro p _ payload t h
    split at h
    · cases h
    · exact ⟨‹_›, (Except.ok.inj h).symm⟩
  cases call with
  | naming name =>
    cases h
    exact ⟨fun t => ⟨_, rfl⟩, rfl, fun knob => by cases knob <;> rfl⟩
  | addressSpace homes =>
    cases h
    exact ⟨fun t => ⟨_, rfl⟩, rfl, fun knob => by cases knob <;> rfl⟩
  | stackSize n =>
    by_cases hn : isPowerOfTwo n = true
    · cases (if_pos hn).symm.trans h
      exact ⟨fun t => ⟨_, if_pos hn⟩, rfl, fun knob => by cases knob <;> rfl⟩
    · cases (if_neg hn).symm.trans h
  | workerThreads n | interval n | retries n =>
    obtain ⟨hn, rfl⟩ := hrefused h
    exact ⟨fun t => ⟨_, if_neg hn⟩, rfl, fun knob => by cases knob <;> rfl⟩

theorem setAll_value (h : s.setAll calls = .ok s') : (∀ call ∈ calls, call.Passes) ∧ s'.flavor = s.flavor ∧
    ∀ knob, s'.value knob = ((last knob calls).map Setting.value).getD (s.value knob) := by
  induction calls generalizing s with
  | nil =>
    cases h
    exact ⟨by simp, rfl, fun _ => rfl⟩
  | cons call rest ih =>
    rw [setAll] at h
    cases hset : s.set call with
    | error payload => rw [hset] at h; cases h
    | ok t =>
      rw [hset] at h
      obtain ⟨hpasses, hflavor, hvalue⟩ := set_value hset
      obtain ⟨hrest, hflavor', hvalue'⟩ := ih h
      refine ⟨List.forall_mem_cons.2 ⟨hpasses, hrest⟩, hflavor'.trans hflavor, fun knob => ?_⟩
      rw [hvalue', Setting.last_cons]
      cases last knob rest with
      | some later => rfl
      | none =>
        rw [hvalue]
        by_cases hk : call.knob = knob <;> simp [hk]

/-- Calls that all make sense go through. -/
theorem exists_setAll (s : Settings) (h : ∀ call ∈ calls, call.Passes) : ∃ s', s.setAll calls = .ok s' := by
  induction calls generalizing s with
  | nil => exact ⟨s, rfl⟩
  | cons call rest ih =>
    obtain ⟨t, ht⟩ := h call List.mem_cons_self s
    obtain ⟨s', hs'⟩ := ih t fun call hc => h call (List.mem_cons_of_mem _ hc)
    exact ⟨s', by rw [setAll, ht]; exact hs'⟩

/-- Calls for different knobs may come in any order. -/
theorem setAll_reorder (h : s.setAll calls = .ok s')
    (hsame : ∀ knob, (calls'.filter fun call => call.knob = knob) = calls.filter fun call => call.knob = knob) :
    s.setAll calls' = .ok s' := by
  obtain ⟨hpasses, hflavor, hvalue⟩ := setAll_value h
  have hpasses' : ∀ call ∈ calls', call.Passes := fun call hc => by
    have hin : call ∈ calls'.filter fun other => other.knob = call.knob := List.mem_filter.2 ⟨hc, by simp⟩
    rw [hsame] at hin
    exact hpasses call (List.mem_filter.1 hin).1
  obtain ⟨t, ht⟩ := exists_setAll s hpasses'
  obtain ⟨_, hflavor', hvalue'⟩ := setAll_value ht
  rw [ht, ext_value (hflavor'.trans hflavor.symm) fun knob => ?_]
  rw [hvalue', hvalue, last, last, hsame]

/-- What the settings are after some calls: the last call for a knob wins, and calls for different knobs may come
in any order. -/
structure ComesFrom (flavor : Flavor) (calls : List Setting) (s : Settings) : Prop where
  kind : s.flavor = flavor
  last : ∀ knob, s.value knob = ((last knob calls).map Setting.value).getD ((new flavor).value knob)
  reordered : ∀ calls' : List Setting,
    (∀ knob, (calls'.filter fun call => call.knob = knob) = calls.filter fun call => call.knob = knob) →
    (new flavor).setAll calls' = .ok s

theorem comesFrom {flavor : Flavor} (h : (new flavor).setAll calls = .ok s) : s.ComesFrom flavor calls :=
  ⟨(setAll_value h).2.1, (setAll_value h).2.2, fun _ hsame => setAll_reorder h hsame⟩

theorem ComesFrom.space_eq_none {flavor : Flavor} (h : s.ComesFrom flavor calls)
    (hspace : ∀ call ∈ calls, call.knob ≠ .addressSpace) : s.space = none := by
  have hnone : Setting.last .addressSpace calls = none := by
    rw [Setting.last, List.getLast?_eq_none_iff, List.filter_eq_nil_iff]
    simpa using hspace
  have hvalue := h.last .addressSpace
  rw [hnone] at hvalue
  exact KnobValue.space.inj hvalue

/-- The stack that is set is that of the last call for it. -/
theorem ComesFrom.stackSize_eq_some {flavor : Flavor} (h : s.ComesFrom flavor calls) (size : Nat) :
    s.stackSize = some size ↔ Setting.last .stackSize calls = some (.stackSize size) := by
  have hvalue := h.last .stackSize
  cases hlast : Setting.last .stackSize calls with
  | none =>
    rw [hlast] at hvalue
    simp [KnobValue.number.inj hvalue, new]
  | some call =>
    have hknob : call.knob = .stackSize := by
      simpa using (List.mem_filter.1 (List.mem_of_getLast? hlast)).2
    rw [hlast] at hvalue
    cases call <;> cases hknob
    simp [KnobValue.number.inj hvalue]

/-! ## Configurations -/

/-- The workers are counted in one way before there is a configuration, and in another afterwards. -/
theorem numWorkers_eq {workers : Nat} (h : numWorkers config.flavor config.workerThreads = .ok workers) :
    config.numWorkers = workers := by
  unfold Config.numWorkers Config.poolSize
  unfold numWorkers at h
  cases hf : config.flavor with
  | localOnly =>
    rw [hf] at h
    cases h
    rfl
  | stealing =>
    simp only [hf] at h
    split at h
    · rename_i n hn
      cases h
      exact (Word.add?_eq_some.1 hn).2
    · cases h

/-- The workers can be counted, unless their number is the last word. -/
theorem exists_numWorkers {flavor : Flavor} {threads : Nat} (h : flavor = .stealing → threads < Word.top) :
    ∃ workers, numWorkers flavor threads = .ok workers := by
  cases flavor with
  | localOnly => exact ⟨1, rfl⟩
  | stealing =>
    have hlt : threads + 1 < Word.bound := Nat.add_lt_of_lt_sub (h rfl)
    exact ⟨threads + 1, by simp [numWorkers, Word.add?, hlt]⟩

/-- A configuration is refused for a stack that is too small, and for nothing else. -/
theorem toConfig_error_iff (hthreads : s.flavor = .stealing → s.workerThreads.getD parallelism < Word.top)
    (error : ConfigError) :
    s.toConfig parallelism = .error error ↔
      ∃ size, s.stackSize = some size ∧ size < minStack ∧ error = .stackTooSmall size := by
  obtain ⟨workers, hw⟩ := exists_numWorkers hthreads
  simp only [toConfig, hw]
  cases hs : s.stackSize with
  | none => simp
  | some size =>
    by_cases hsize : size < minStack
    · simp [hsize, eq_comm]
    · simp [hsize]

/-- The space that a configuration makes has a home for each worker. -/
theorem space_eq_of_toConfig (h : s.toConfig parallelism = .ok config) (hspace : s.space = none) :
    config.flavor = s.flavor ∧ config.workerThreads = s.workerThreads.getD parallelism ∧
      config.space = Space.new config.numWorkers := by
  unfold toConfig at h
  dsimp only at h
  split at h
  · cases h
  · rename_i workers hw
    split at h
    · split at h <;> cases h
      exact ⟨rfl, rfl, by rw [numWorkers_eq hw, hspace]; rfl⟩
    · cases h
      exact ⟨rfl, rfl, by rw [numWorkers_eq hw, hspace]; rfl⟩

end Settings

end TaskSpace

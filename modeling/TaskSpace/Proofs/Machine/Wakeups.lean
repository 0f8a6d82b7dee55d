import TaskSpace.Proofs.Machine.Orderly

/-!
# No wake-up is lost

A worker parks only after it found the runtime up and nothing to take, both under the lock of the list of
parked threads, and whoever queues a task or shuts the runtime down goes on to that list. So a task that
another worker could take is never left to a pool that is all parked, unless somebody is still on the way
to wake a worker, and after a shutdown nobody stays parked.
-/

namespace TaskSpace

variable {σ : Type}

open Machine (choose)

namespace Queues

variable {q q' : Queues} {w : WorkerId} {task : TaskId}

/-- A task is queued that its own worker is not the only one to take. -/
def Shared (q : Queues) : Prop := q.injector ≠ [] ∨ ∃ w, (q.lane w).own ≠ []

theorem not_shared (hnone : q.hasStealable w = false) (hlane : q.lane w = bare) : ¬ q.Shared := by
  rintro (hinjected | ⟨v, hown⟩)
  · simp [hasStealable, hinjected] at hnone
  · by_cases hv : v = w
    · rw [hv, hlane] at hown
      exact hown rfl
    · exact hown (lane_of_hasStealable hnone hv)

/-- A find leaves nothing to take where there was nothing before. -/
theorem shared_of_choose {force contended : Bool} {choice : Choice}
    (h : choose q w force contended choice = some (some (task, q'))) (hs : q'.Shared) : q.Shared := by
  cases choose_takes h with
  | injected hi _ => exact .inl (by rw [hi]; exact List.cons_ne_nil _ _)
  | pinned hp =>
    have hw : w < q.lanes.length := lt_of_lane fun he => by simp [he] at hp
    refine hs.imp_right fun ⟨v, hown⟩ => ⟨v, ?_⟩
    rw [lane_setLane hw] at hown
    split at hown
    · rename_i he
      rw [he]
      exact hown
    · exact hown
  | own ho => exact .inr ⟨w, by rw [ho]; exact List.cons_ne_nil _ _⟩
  | stolen v ho => exact .inr ⟨v, by rw [ho]; exact List.append_ne_nil_of_right_ne_nil _ (List.cons_ne_nil _ _)⟩

end Queues

namespace Control

/-- The thread parks, or is parked. -/
def Rests : Control σ → Prop
  | .park | .parked => True
  | _ => False

/-- The thread is on the way to wake a worker, or all of them. -/
def Rings : Control σ → Prop
  | .wake _ _ | .stop _ .wakeAll _ => True
  | _ => False

end Control

/-- The thread runs an event loop, or is what only an event loop comes to. -/
def Thread.Loops (th : Thread σ) : Prop :=
  th.control.Rests ∨ ∃ ticker force leaving, .loop ticker force leaving ∈ th.frames

namespace Machine

variable {m rest : Machine σ} {k : Nat} {es : TaskId → List Event} {id other : ThreadId} {th th' x : Thread σ}
  {rt rt' : Runtime} {n : Nat} {lot lot' : Lot} {es' : TaskId → List Event}

/-- The thread is blocked until it is signalled. -/
def Asleep (m : Machine σ) (id : ThreadId) : Prop :=
  ∃ th, m.threads[id]? = some th ∧ th.control = .parked

/-- A task was queued, and the worker that this is to wake is not woken yet. -/
def Waking (m : Machine σ) : Prop :=
  ∃ (id : ThreadId) (th : Thread σ) (runtime : RuntimeId) (next : Body σ),
    m.threads[id]? = some th ∧ th.control = .wake runtime next

/-- A runtime is stopping, and its workers are not woken yet. -/
def Ringing (m : Machine σ) : Prop :=
  ∃ (id : ThreadId) (th : Thread σ) (runtime : RuntimeId) (next : Body σ),
    m.threads[id]? = some th ∧ th.control = .stop runtime .wakeAll next

/-! ## What a move does to the parked threads -/

/-- What becomes of a runtime in a move, as far as parking is concerned. -/
inductive Shifts (id : ThreadId) (th th' : Thread σ) (rt : Runtime) : Runtime → Prop
  | plain {queues} : ¬ th.control.Rings → th.control ≠ .parked → ¬ th'.control.Rests →
    (queues.Shared → rt.queues.Shared ∨ ∃ runtime next, th'.control = .wake runtime next) →
    Shifts id th th' rt { rt with queues }
  | tired : th.control = .search → th'.control = .park → rt.queues.lane id = Queues.bare → Shifts id th th' rt rt
  | parked {lot : Lot} : th.control = .park → th'.control = .parked → rt.lot.park id = some lot →
    rt.stopping = false → rt.queues.hasStealable id = false → Shifts id th th' rt { rt with lot }
  | unparked : th.control = .parked → th'.control = .tick → rt.lot.signalled id → Shifts id th th' rt rt
  | woke {runtime next} {lot : Lot} : th.control = .wake runtime next → ¬ th'.control.Rests →
    rt.lot.unparkOne = some lot → Shifts id th th' rt { rt with lot }
  | stopped {runtime body next} : th.control = .run body → th'.control = .stop runtime .wakeAll next →
    Shifts id th th' rt { rt with stopping := true }
  | rang {runtime next} {lot : Lot} : th.control = .stop runtime .wakeAll next → ¬ th'.control.Rests →
    rt.lot.unparkAll = some lot → Shifts id th th' rt { rt with lot }

theorem Hosts.shifts (h : m.Hosts k es) (hth : m.threads[id]? = some th) (hm : m.Move id th rest th')
    (hcrash : rest.crash = none) (hone : m.runtimes = [rt]) (hone' : rest.runtimes = [rt']) :
    Shifts id th th' rt rt' := by
  have hplain : rest.runtimes = m.runtimes → ¬ th.control.Rings → th.control ≠ .parked → ¬ th'.control.Rests →
      Shifts id th th' rt rt' := fun hsame hrings hparked hrests => by
    rw [List.singleton_inj.1 (hone'.symm.trans (hsame.trans hone))]
    exact .plain hrings hparked hrests .inl
  have hupdate : ∀ {runtime : RuntimeId} {found : Runtime} {f : Runtime → Runtime}, m.runtimes[runtime]? = some found →
      (m.updateRuntime runtime f).runtimes = [rt'] → found = rt ∧ rt' = f rt := by
    intro runtime found f hrun he
    obtain ⟨rfl, rfl⟩ := runtime_eq hone hrun
    exact ⟨rfl, List.singleton_inj.1 (he.symm.trans (updateRuntime_eq hone f))⟩
  cases hm with
  | spawned hctl _ hrun =>
    obtain ⟨rfl, rfl, he⟩ := enroll_eq hone hrun
    obtain rfl := List.singleton_inj.1 (hone'.symm.trans he)
    exact .plain (by rw [hctl]; exact not_false) (by rw [hctl]; nofun) not_false fun _ => .inr ⟨_, _, rfl⟩
  | launched hctl => exact (h.controlFits hth hctl).2.elim
  | woke hctl hrun hlot =>
    obtain ⟨rfl, rfl⟩ := hupdate hrun hone'
    exact .woke hctl not_false hlot
  | found hctl _ hrun hchoose =>
    obtain ⟨rfl, rfl⟩ := hupdate hrun hone'
    exact .plain (by rw [hctl]; exact not_false) (by rw [hctl]; nofun) not_false fun hs =>
      .inl (Queues.shared_of_choose hchoose hs)
  | @idle _ _ leaving _ _ _ _ hctl _ hc hrun hchoose =>
    cases leaving with
    | true => exact hplain rfl (by rw [hctl]; exact not_false) (by rw [hctl]; nofun) not_false
    | false =>
      obtain ⟨_, rfl⟩ := runtime_eq hone hrun
      obtain rfl := List.singleton_inj.1 (hone'.symm.trans hone)
      rw [((h.fits hth).works _ hc).2.1] at hchoose
      exact .tired hctl rfl (Queues.choose_none hchoose).1
  | parked hctl hc hrun hlot hstop hnone =>
    obtain ⟨rfl, rfl⟩ := hupdate hrun hone'
    rw [((h.fits hth).works _ hc).2.1] at hnone
    exact .parked hctl rfl hlot hstop hnone
  | unparked hctl _ hrun hsignalled =>
    obtain ⟨_, rfl⟩ := runtime_eq hone hrun
    obtain rfl := List.singleton_inj.1 (hone'.symm.trans hone)
    exact .unparked hctl rfl hsignalled
  | stopped hctl hrun =>
    obtain ⟨_, rfl⟩ := hupdate hrun hone'
    exact .stopped hctl rfl
  | rang hctl hrun hlot =>
    obtain ⟨rfl, rfl⟩ := hupdate hrun hone'
    exact .rang hctl not_false hlot
  | @closed _ found _ storage hctl hrun =>
    obtain ⟨left, crash, he⟩ := dropQueues_eq (m.closeStorage storage) (Machine.queued found.queues)
    rw [he] at hone'
    obtain ⟨rfl, rfl⟩ := hupdate hrun hone'
    refine .plain (by rw [hctl]; exact not_false) (by rw [hctl]; nofun) not_false ?_
    rintro (hinjected | ⟨w, hown⟩)
    · exact absurd rfl hinjected
    · rw [Queues.lane_empty] at hown
      exact absurd rfl hown
  | crashed => cases hcrash
  | @settled _ _ _ frame _ _ hctl _ _ _ hpast | @passed _ frame _ _ _ hctl _ hpast =>
    refine hplain rfl (by rw [hctl]; exact not_false) (by rw [hctl]; nofun) ?_
    cases frame <;> cases hpast <;> exact not_false
  | delivered ha =>
    rcases ha with hctl | hctl <;> exact hplain rfl (by rw [hctl]; exact not_false) (by rw [hctl]; nofun) not_false
  | _ =>
    have hctl := ‹th.control = _›
    exact hplain rfl (by rw [hctl]; exact not_false) (by rw [hctl]; nofun) not_false

/-! ## Who is parked -/

/-- No thread comes to run an event loop. -/
theorem Hosts.loops (h : m.Hosts k es) (hth : m.threads[id]? = some th) (hm : m.Move id th rest th')
    (hl : th'.Loops) : th.Loops := by
  have hframe : ∀ {ticker force leaving frames}, th.frames = .loop ticker force leaving :: frames → th.Loops :=
    fun hf => .inr ⟨_, _, _, hf ▸ List.mem_cons_self⟩
  have htail : ∀ {frame : Frame σ} {frames : List (Frame σ)}, th.frames = frame :: frames →
      (∃ ticker force leaving, .loop ticker force leaving ∈ frames) → th.Loops :=
    fun hf ⟨_, _, _, hin⟩ => .inr ⟨_, _, _, hf ▸ List.mem_cons_of_mem _ hin⟩
  have hpush : ∀ {frame : Frame σ}, (∀ ticker force leaving, .loop ticker force leaving ≠ frame) →
      (∃ ticker force leaving, .loop ticker force leaving ∈ frame :: th.frames) → th.Loops :=
    fun hne ⟨_, _, _, hin⟩ => .inr ⟨_, _, _, (List.mem_cons.1 hin).resolve_left (hne _ _ _)⟩
  cases hm with
  | launched hctl => exact (h.controlFits hth hctl).2.elim
  | rooted | began | nested | rang | joinedPool => exact hpush (by rintro _ _ _ ⟨⟩) (hl.resolve_left not_false)
  | left _ hf | leftRoot _ hf | resumed _ _ _ hf => exact htail hf (hl.resolve_left not_false)
  | drained _ hf => exact htail hf (hl.resolve_left not_false)
  | idle _ hf | ticked _ hf => exact hframe hf
  | found _ hseeks =>
    cases hseeks with
    | loop hf => exact hframe hf
    | drain => exact .inr (hl.resolve_left not_false)
  | @settled _ _ _ frame _ _ _ _ _ _ hpast | @passed _ frame _ _ _ _ _ hpast =>
    refine .inr (hl.resolve_left ?_)
    cases frame <;> cases hpast <;> exact not_false
  | parked hctl | unparked hctl => exact .inl (by rw [hctl]; trivial)
  | awake hctl => exact .inl (by rw [hctl]; trivial)
  | exited => exact (hl.resolve_left not_false).elim nofun
  | crashed => exact hl
  | _ => exact .inr (hl.resolve_left not_false)

theorem asleep_move (hth : m.threads[id]? = some th) (hm : m.Move id th rest th') :
    (rest.setThread id th').Asleep other ↔ other = id ∧ th'.control = .parked ∨ other ≠ id ∧ m.Asleep other := by
  constructor
  · rintro ⟨x, hx, hctl⟩
    rcases hm.thread_cases hth hx with ⟨rfl, rfl⟩ | ⟨hne, hx⟩ | ⟨_, _, ha⟩
    · exact .inl ⟨rfl, hctl⟩
    · exact .inr ⟨hne, x, hx, hctl⟩
    · rcases ha with ⟨_, _, _, rfl⟩ | ⟨_, _, _, _, _, _, rfl⟩ <;> cases hctl
  · rintro (⟨rfl, hctl⟩ | ⟨hne, x, hx, hctl⟩)
    · exact ⟨th', hm.self hth, hctl⟩
    · exact ⟨x, hm.kept hx hne, hctl⟩

theorem Waking.move (hw : m.Waking) (hth : m.threads[id]? = some th) (hm : m.Move id th rest th')
    (hne : ∀ runtime next, th.control ≠ .wake runtime next) : (rest.setThread id th').Waking := by
  obtain ⟨other, x, runtime, next, hx, hctl⟩ := hw
  refine ⟨other, x, runtime, next, hm.kept hx ?_, hctl⟩
  rintro rfl
  cases hth.symm.trans hx
  exact hne _ _ hctl

theorem Ringing.move (hr : m.Ringing) (hth : m.threads[id]? = some th) (hm : m.Move id th rest th')
    (hne : ∀ runtime next, th.control ≠ .stop runtime .wakeAll next) : (rest.setThread id th').Ringing := by
  obtain ⟨other, x, runtime, next, hx, hctl⟩ := hr
  refine ⟨other, x, runtime, next, hm.kept hx ?_, hctl⟩
  rintro rfl
  cases hth.symm.trans hx
  exact hne _ _ hctl

theorem Hosts.asleep_lt (h : m.Hosts k es) (hb : m.Asleep id) : id < k + 1 := by
  obtain ⟨th, hth, hctl⟩ := hb
  have hst : Stacked (th.base id) true th.frames := h.controlFits hth hctl
  cases hf : th.frames with
  | nil =>
    rw [hf] at hst
    cases hst
  | cons frame frames =>
    obtain ⟨_, _, _, _, hlt⟩ := h.works hth hf
    exact hlt

/-- The list of a lot has the blocked threads that are not signalled, each of them once. -/
structure Lists (m : Machine σ) (lot : Lot) : Prop where
  distinct : lot.parked.Nodup
  asleep : ∀ id ∈ lot.parked, m.Asleep id ∧ lot.signalled id = false
  listed : ∀ id, m.Asleep id → id ∈ lot.parked ∨ lot.signalled id

theorem Lists.not_mem (hl : m.Lists lot) (hth : m.threads[id]? = some th) (hctl : th.control ≠ .parked) :
    id ∉ lot.parked := fun hin => by
  obtain ⟨⟨x, hx, hparked⟩, _⟩ := hl.asleep id hin
  cases hth.symm.trans hx
  exact hctl hparked

/-- A move of a thread that is not in the list, and does not park. -/
theorem Lists.move (hl : m.Lists lot) (hth : m.threads[id]? = some th) (hm : m.Move id th rest th')
    (hout : id ∉ lot.parked) (hctl : th'.control ≠ .parked) : (rest.setThread id th').Lists lot := by
  refine ⟨hl.distinct, fun other hin => ?_, fun other hb => ?_⟩
  · obtain ⟨hb, hsign⟩ := hl.asleep other hin
    exact ⟨(asleep_move hth hm).2 (.inr ⟨ne_of_mem_of_not_mem hin hout, hb⟩), hsign⟩
  · rcases (asleep_move hth hm).1 hb with ⟨_, he⟩ | ⟨_, hb⟩
    · exact absurd he hctl
    · exact hl.listed other hb

theorem Lists.park (hl : m.Lists lot) (hth : m.threads[id]? = some th) (hm : m.Move id th rest th')
    (hctl : th.control = .park) (hctl' : th'.control = .parked) (hsound : lot.Sound n)
    (hlt : ∀ other, (rest.setThread id th').Asleep other → other < n) (hpark : lot.park id = some lot') :
    (rest.setThread id th').Lists lot' := by
  have hself := (asleep_move hth hm).2 (.inl ⟨rfl, hctl'⟩)
  have hnew := hl.not_mem hth (by rw [hctl]; nofun)
  have hlist := Lot.parked_park hpark
  have hsign := fun other hj => hsound.signalled_park (hlt id hself) hpark (j := other) hj
  refine ⟨?_, fun other hin => ?_, fun other hb => ?_⟩
  · rw [hlist]
    exact List.nodup_cons.2 ⟨hnew, hl.distinct⟩
  · rw [hlist] at hin
    rcases List.mem_cons.1 hin with rfl | hin
    · exact ⟨hself, by rw [hsign other (hlt other hself), if_pos rfl]⟩
    · have hne := ne_of_mem_of_not_mem hin hnew
      obtain ⟨hb, hclear⟩ := hl.asleep other hin
      refine ⟨(asleep_move hth hm).2 (.inr ⟨hne, hb⟩), ?_⟩
      rw [hsign other (hsound.parked other hin), if_neg hne, hclear]
  · rcases (asleep_move hth hm).1 hb with ⟨rfl, _⟩ | ⟨hne, hbefore⟩
    · exact .inl (by rw [hlist]; exact List.mem_cons_self)
    · rw [hlist, hsign other (hlt other hb), if_neg hne]
      exact (hl.listed other hbefore).imp_left (List.mem_cons_of_mem id)

theorem Lists.unparkOne (hl : m.Lists lot) (hsound : lot.Sound n) (hlt : ∀ id, m.Asleep id → id < n)
    (hunpark : lot.unparkOne = some lot') : m.Lists lot' := by
  have hlist := Lot.parked_unparkOne hunpark
  refine ⟨hlist ▸ hl.distinct.tail, fun id hin => ?_, fun id hb => ?_⟩
  · rw [hlist] at hin
    obtain ⟨hb, hclear⟩ := hl.asleep id (List.mem_of_mem_tail hin)
    refine ⟨hb, ?_⟩
    -- the list has no thread twice, so the woken one is not in what is left
    have hother : lot.parked.head? ≠ some id := fun he => by
      obtain ⟨rest, hrest⟩ := List.head?_eq_some_iff.1 he
      rw [hrest, List.tail_cons] at hin
      exact (List.nodup_cons.1 (hrest ▸ hl.distinct)).1 hin
    rw [hsound.signalled_unparkOne hunpark (hlt id hb), hclear, decide_eq_false hother, Bool.or_false]
  · rw [hlist, hsound.signalled_unparkOne hunpark (hlt id hb), Bool.or_eq_true, decide_eq_true_eq]
    rcases hl.listed id hb with hin | hsignalled
    · cases hparked : lot.parked with
      | nil =>
        rw [hparked] at hin
        cases hin
      | cons woken rest =>
        rw [hparked] at hin
        rcases List.mem_cons.1 hin with rfl | hin
        · exact .inr (.inl rfl)
        · exact .inl hin
    · exact .inr (.inr hsignalled)

theorem Lists.unparkAll (hl : m.Lists lot) (hsound : lot.Sound n) (hlt : ∀ id, m.Asleep id → id < n)
    (hunpark : lot.unparkAll = some lot') : m.Lists lot' := by
  have hlist := Lot.parked_unparkAll hunpark
  refine ⟨hlist ▸ List.nodup_nil, fun id hin => ?_, fun id hb => .inr ?_⟩
  · rw [hlist] at hin
    cases hin
  · rw [hsound.signalled_unparkAll hunpark (hlt id hb), Bool.or_eq_true, decide_eq_true_eq]
    exact hl.listed id hb

/-! ## What is kept -/

/-- What holds of the parked threads at any time. -/
structure Watched (m : Machine σ) (rt : Runtime) : Prop where
  lists : m.Lists rt.lot
  /-- Event loops run in the pool only. -/
  loops : ∀ (id : ThreadId) (th : Thread σ), m.threads[id]? = some th → th.Loops → 1 ≤ id
  /-- A worker that is to park has an empty lane, which the check before it parks leaves out. -/
  bare : ∀ (id : ThreadId) (th : Thread σ), m.threads[id]? = some th → th.control = .park →
    rt.queues.lane id = Queues.bare
  shared : rt.queues.Shared → m.Waking ∨ rt.pool = [] ∨ ∃ id ∈ rt.pool, id ∉ rt.lot.parked
  stopped : rt.stopping → m.Ringing ∨ rt.lot.parked = []

theorem Watched.mem_pool (hw : m.Watched rt) (h : m.Hosts k es) (hone : m.runtimes = [rt]) (hb : m.Asleep id) :
    id ∈ rt.pool := by
  obtain ⟨th, hth, hctl⟩ := hb
  exact (Machine.mem_pool (h.staff hone)).2
    ⟨hw.loops id th hth (.inl (by rw [hctl]; trivial)), h.asleep_lt ⟨th, hth, hctl⟩⟩

section Move

variable (hw : m.Watched rt) (hth : m.threads[id]? = some th) (hm : m.Move id th rest th') (h : m.Hosts k es)
  (hone : m.runtimes = [rt])

include hw hth hm

/-- The runtime stops: then somebody is about to wake all workers, or none is parked. -/
theorem Watched.stopped_move (hs : Shifts id th th' rt rt') (hstop : rt'.stopping) :
    (rest.setThread id th').Ringing ∨ rt'.lot.parked = [] := by
  cases hs with
  | plain hrings => exact (hw.stopped hstop).imp_left (Ringing.move · hth hm fun _ _ he => hrings (by rw [he]; trivial))
  | tired hctl | unparked hctl => exact (hw.stopped hstop).imp_left (Ringing.move · hth hm (by rw [hctl]; nofun))
  | parked _ _ _ hup =>
    cases hup.symm.trans hstop
  | woke hctl _ hunpark =>
    rw [Lot.parked_unparkOne hunpark]
    refine (hw.stopped hstop).imp (Ringing.move · hth hm (by rw [hctl]; nofun)) fun hlist => ?_
    rw [hlist, List.tail_nil]
  | stopped _ hctl' => exact .inl ⟨id, th', _, _, hm.self hth, hctl'⟩
  | rang _ _ hunpark => exact .inr (Lot.parked_unparkAll hunpark)

include h

theorem Watched.loops_move (hx : (rest.setThread id th').threads[other]? = some x) (hl : x.Loops) :
    1 ≤ other := by
  rcases hm.thread_cases hth hx with ⟨rfl, rfl⟩ | ⟨_, hx⟩ | ⟨_, hnone, _⟩
  · exact hw.loops other th hth (h.loops hth hm hl)
  · exact hw.loops other x hx hl
  · have hlt := (List.getElem?_eq_some_iff.1 hth).1
    exact Nat.lt_of_le_of_lt (Nat.zero_le id) (Nat.lt_of_lt_of_le hlt (List.getElem?_eq_none_iff.1 hnone))

include hone

theorem Watched.lists_move (h' : (rest.setThread id th').Hosts k es') (hs : Shifts id th th' rt rt') :
    (rest.setThread id th').Lists rt'.lot := by
  have hlot := (h.staff hone).lot
  have hout := fun hctl => hw.lists.not_mem hth hctl
  cases hs with
  | plain _ hparked hrests => exact hw.lists.move hth hm (hout hparked) fun he => hrests (by rw [he]; trivial)
  | tired hctl hctl' => exact hw.lists.move hth hm (hout (by rw [hctl]; nofun)) (by rw [hctl']; nofun)
  | parked hctl hctl' hpark => exact hw.lists.park hth hm hctl hctl' hlot (fun _ => h'.asleep_lt) hpark
  | unparked _ hctl' hsignalled =>
    refine hw.lists.move hth hm (fun hin => ?_) (by rw [hctl']; nofun)
    rw [(hw.lists.asleep id hin).2] at hsignalled
    cases hsignalled
  | woke hctl hrests hunpark =>
    have hkept := hw.lists.move hth hm (hout (by rw [hctl]; nofun)) fun he => hrests (by rw [he]; trivial)
    exact hkept.unparkOne hlot (fun _ => h'.asleep_lt) hunpark
  | stopped hctl hctl' => exact hw.lists.move hth hm (hout (by rw [hctl]; nofun)) (by rw [hctl']; nofun)
  | rang hctl hrests hunpark =>
    have hkept := hw.lists.move hth hm (hout (by rw [hctl]; nofun)) fun he => hrests (by rw [he]; trivial)
    exact hkept.unparkAll hlot (fun _ => h'.asleep_lt) hunpark

/-- A task that others may take is queued: then somebody is about to wake a worker, or one is not parked. -/
theorem Watched.shared_move (hs : Shifts id th th' rt rt') (hq : rt'.queues.Shared) :
    (rest.setThread id th').Waking ∨ rt'.pool = [] ∨ ∃ w ∈ rt'.pool, w ∉ rt'.lot.parked := by
  cases hs with
  | plain hrings _ _ hqueues =>
    rcases hqueues hq with hq | ⟨_, _, hctl⟩
    · exact (hw.shared hq).imp_left (Waking.move · hth hm fun _ _ he => hrings (by rw [he]; trivial))
    · exact .inl ⟨id, th', _, _, hm.self hth, hctl⟩
  | tired hctl | unparked hctl | stopped hctl =>
    exact (hw.shared hq).imp_left (Waking.move · hth hm (by rw [hctl]; nofun))
  | parked hctl _ _ _ hnone => exact absurd hq (Queues.not_shared hnone (hw.bare id th hth hctl))
  | woke hctl _ hunpark =>
    refine .inr (Classical.or_iff_not_imp_left.2 fun hpool => ?_)
    rw [Lot.parked_unparkOne hunpark]
    cases hlist : rt.lot.parked with
    | nil =>
      obtain ⟨w, hin⟩ := List.exists_mem_of_ne_nil _ hpool
      exact ⟨w, hin, List.not_mem_nil⟩
    | cons woken left =>
      have hb := (hw.lists.asleep woken (hlist ▸ List.mem_cons_self)).1
      exact ⟨woken, hw.mem_pool h hone hb, (List.nodup_cons.1 (hlist ▸ hw.lists.distinct)).1⟩
  | rang _ _ hunpark =>
    refine .inr (Classical.or_iff_not_imp_left.2 fun hpool => ?_)
    obtain ⟨w, hin⟩ := List.exists_mem_of_ne_nil _ hpool
    exact ⟨w, hin, by rw [Lot.parked_unparkAll hunpark]; exact List.not_mem_nil⟩

theorem Watched.move (hcrash : rest.crash = none) (hone' : rest.runtimes = [rt'])
    (h' : (rest.setThread id th').Hosts k es') : (rest.setThread id th').Watched rt' := by
  have hs := h.shifts hth hm hcrash hone hone'
  refine ⟨hw.lists_move hth hm h hone h' hs, fun other x hx => hw.loops_move hth hm h hx, fun other x hx hctl => ?_,
    hw.shared_move hth hm h hone hs, hw.stopped_move hth hm hs⟩
  have hrequeues := (h.requeues hth hm hcrash hone hone').1
  rcases hm.thread_cases hth hx with ⟨rfl, rfl⟩ | ⟨hne, hx⟩ | ⟨_, _, ha⟩
  · cases hs with
    | plain _ _ hrests => exact (hrests (by rw [hctl]; trivial)).elim
    | tired _ _ hlane => exact hlane
    | parked _ hctl' | unparked _ hctl' | stopped _ hctl' => cases hctl.symm.trans hctl'
    | woke _ hrests | rang _ hrests => exact (hrests (by rw [hctl]; trivial)).elim
  · exact hrequeues.lane (hw.bare other x hx hctl) fun he => absurd he hne
  · rcases ha with ⟨_, _, _, rfl⟩ | ⟨_, _, _, _, _, _, rfl⟩ <;> cases hctl

end Move

theorem watched_launched {next : Except BuildError RuntimeId → Body σ} (hl : Launched k next m)
    (hone : m.runtimes = [rt]) : m.Watched rt := by
  obtain ⟨found, hfound, hqueues, hup, hparked⟩ := hl.runtime
  obtain rfl := List.singleton_inj.1 (hfound.symm.trans hone)
  have hruns : ∀ {id : ThreadId} {th : Thread σ}, m.threads[id]? = some th →
      th.control = .run (next (.ok 0)) ∧ th.frames = [] ∨ 1 ≤ id ∧ th.control = .search := fun hth => by
    rcases hl.thread hth with ⟨_, rfl⟩ | ⟨h1, rfl⟩
    · exact .inl ⟨rfl, rfl⟩
    · exact .inr ⟨h1, rfl⟩
  refine ⟨⟨hparked ▸ List.nodup_nil, fun id hin => ?_, fun id ⟨th, hth, hctl⟩ => ?_⟩, fun id th hth hloops => ?_,
    fun id th _ _ => hqueues ▸ Queues.lane_empty _, fun hs => ?_, fun hs => ?_⟩
  · rw [hparked] at hin
    cases hin
  · rcases hruns hth with ⟨he, _⟩ | ⟨_, he⟩ <;> cases hctl.symm.trans he
  · rcases hruns hth with ⟨hctl, hf⟩ | ⟨h1, _⟩
    · rcases hloops with hrests | ⟨_, _, _, hin⟩
      · rw [hctl] at hrests
        exact hrests.elim
      · rw [hf] at hin
        cases hin
    · exact h1
  · rw [hqueues] at hs
    rcases hs with hi | ⟨w, hown⟩
    · exact absurd rfl hi
    · rw [Queues.lane_empty] at hown
      exact absurd rfl hown
  · rw [hup] at hs
    cases hs

/-! ## No wake-up is lost -/

/-- How the workers of a runtime park and are woken. -/
structure Attentive (m : Machine σ) (rt : Runtime) : Prop where
  /-- No worker is in the list of parked threads twice. -/
  distinct : rt.lot.parked.Nodup
  /-- Who is in the list is a worker of the pool, is blocked, and was not signalled since it parked. -/
  parked : ∀ id ∈ rt.lot.parked, id ∈ rt.pool ∧ m.Asleep id ∧ rt.lot.signalled id = false
  /-- Who is blocked is in the list, or was signalled. -/
  asleep : ∀ id, m.Asleep id → id ∈ rt.pool ∧ (id ∈ rt.lot.parked ∨ rt.lot.signalled id)
  /-- The slots are there, whoever parks and whoever is woken. -/
  slots : (∀ id ∈ rt.pool, (rt.lot.park id).isSome) ∧ rt.lot.unparkOne.isSome ∧ rt.lot.unparkAll.isSome
  /-- When a task is queued that others may take, and nobody is about to wake a worker, one is up. -/
  shared : rt.queues.Shared → ¬ m.Waking → rt.pool ≠ [] →
    ∃ id ∈ rt.pool, id ∉ rt.lot.parked ∧ (m.Asleep id → rt.lot.signalled id)
  /-- When the runtime stops, and nobody is about to wake all workers, all are up. -/
  stopped : rt.stopping → ¬ m.Ringing → rt.lot.parked = [] ∧ ∀ id, m.Asleep id → rt.lot.signalled id

theorem Watched.attentive (hw : m.Watched rt) (h : m.Hosts k es) (hone : m.runtimes = [rt]) : m.Attentive rt := by
  have hrt := h.staff hone
  have hsignalled : ∀ id, id ∉ rt.lot.parked → m.Asleep id → rt.lot.signalled id := fun id hout hb =>
    (hw.lists.listed id hb).resolve_left hout
  refine ⟨hw.lists.distinct, fun id hin => ?_, fun id hb => ⟨hw.mem_pool h hone hb, hw.lists.listed id hb⟩,
    ⟨fun id hin => ?_, ?_, ?_⟩, fun hq hwaking hpool => ?_, fun hs hringing => ?_⟩
  · obtain ⟨hb, hclear⟩ := hw.lists.asleep id hin
    exact ⟨hw.mem_pool h hone hb, hb, hclear⟩
  · obtain ⟨_, hpark, _⟩ := hrt.lot.park ((Machine.mem_pool hrt).1 hin).2
    rw [hpark]
    rfl
  · obtain ⟨_, hunpark, _⟩ := hrt.lot.unparkOne
    rw [hunpark]
    rfl
  · obtain ⟨_, hunpark, _⟩ := hrt.lot.unparkAll
    rw [hunpark]
    rfl
  · obtain ⟨id, hin, hout⟩ := ((hw.shared hq).resolve_left hwaking).resolve_left hpool
    exact ⟨id, hin, hout, hsignalled id hout⟩
  · have hlist := (hw.stopped hs).resolve_left hringing
    exact ⟨hlist, fun id => hsignalled id (hlist ▸ List.not_mem_nil)⟩

variable {parallelism : Nat} {spaces : List Recorder} {shared : σ} {settings : Settings} {given : Option SpaceId}
  {next : Except BuildError RuntimeId → Body σ} {config : Config}

/-- Whatever runs on the runtime, and however its workers, the thread that built it and those that work for
none take turns: no thread that parks or is woken lacks its slot, and no wake-up is lost. -/
theorem no_wakeup_lost (h : Launches parallelism spaces settings given config)
    (hnext : (next (.ok 0)).Allowed .outside) {schedule : List (ThreadId × Choice)} {turns : Turns σ}
    (hrun : trail advance (start parallelism spaces shared (.build settings given next)) schedule =
      some (turns, m)) :
    m.crash = none ∧ ∀ rt ∈ m.runtimes, m.Attentive rt := by
  have hkept := hosts_run h hnext (P := fun _ _ m => ∀ rt, m.runtimes = [rt] → m.Watched rt)
    (fun _ _ _ _ _ hl _ _ hone => watched_launched hl hone)
    (fun _ _ m id _ th rest th' hm hp hth hmove h' rt' hone' => by
      obtain ⟨rt, hone, _⟩ := hm.runtime
      exact (hp rt hone).move hth hmove hm hone h'.crash hone' h') hrun
  rcases hkept with ⟨_, rfl⟩ | ⟨es, hhosts, hwatched⟩
  · exact ⟨rfl, fun rt hin => by cases hin⟩
  · obtain ⟨rt, hone, _⟩ := hhosts.runtime
    refine ⟨hhosts.crash, fun found hin => ?_⟩
    rw [hone, List.mem_singleton] at hin
    exact hin ▸ (hwatched rt hone).attentive hhosts hone

/-- The one worker of a pool has parked when a task is spawned, which is queued still when the worker was
signalled. -/
theorem no_wakeup_lost_parked :
    let answer : Except BuildError RuntimeId → Body Unit := fun _ =>
      .blockOn 0 (.spawn none ⟨false, none⟩ (.finish .none) fun _ => .finish .none) fun _ => .finish .none
    let settings : Settings := { Settings.new .stealing with workerThreads := some 1 }
    let schedule : List (ThreadId × Choice) := [0, 1, 1, 0, 0, 0].map (·, ⟨false, 0, .nothing⟩)
    ∃ turns m rt, trail advance (start 1 [] () (.build settings none answer)) schedule = some (turns, m) ∧
      m.crash = none ∧ m.runtimes = [rt] ∧ (rt.queues.lane 0).own = [1] ∧ rt.lot.signalled 1 ∧
      m.Attentive rt := by
  intro answer settings schedule
  have hlaunches : Launches 1 [] settings none
      { flavor := .stealing, workerThreads := 1, naming := .numbered, stackSize := none, interval := 31
        retries := 3, space := Space.new 2 } :=
    ⟨rfl, rfl, by simp, by simp, by simp [settings, Settings.new]⟩
  have hanswer : (answer (.ok 0)).Allowed .outside :=
    ⟨by decide, rfl, ⟨trivial, fun _ => trivial⟩, fun _ => trivial⟩
  have hshown : (trail advance (start 1 [] () (.build settings none answer)) schedule).map
      (fun run => run.2.runtimes.map fun rt => ((rt.queues.lane 0).own, rt.lot.signalled 1)) =
        some [([1], true)] := by
    decide
  obtain ⟨⟨turns, m⟩, hrun, hshown⟩ := Option.map_eq_some_iff.1 hshown
  obtain ⟨rt, hone, hrt⟩ := List.map_eq_singleton_iff.1 hshown
  obtain ⟨hqueued, hsignalled⟩ := Prod.mk.injEq .. ▸ hrt
  obtain ⟨hcrash, hall⟩ := no_wakeup_lost hlaunches hanswer hrun
  exact ⟨turns, m, rt, hrun, hcrash, hone, hqueued, hsignalled, hall rt (hone ▸ List.mem_singleton_self rt)⟩

end Machine

end TaskSpace

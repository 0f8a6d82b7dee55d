import TaskSpace.Proofs.Machine.Shape
import TaskSpace.Proofs.Machine.Tally

/-!
# The invariant of a machine with one runtime

`Machine.Sound` ties together what is spread over a machine: the frames of the threads, the stacks of
the storages, the owners and marks of the holders, the states of the tasks and the tally of mappings.
Each way in which a step changes a machine keeps it.
-/

namespace TaskSpace

variable {σ : Type}

/-- The storage of a worker, which is a thread: its stack is the thread's bodies, and it is open as
long as the thread works. -/
structure Storage.Serves (s : Storage) (id : ThreadId) (space : SpaceId) (th : Thread σ) : Prop where
  worker : s.worker = id
  space : s.space = space
  stack : s.stack = th.stack
  owner : s.owner.getD id = id
  closed : th.context.isSome → s.closed = false

/-- No holder of the task is registered any more. -/
def Roster.Released (r : Roster) (t : TaskId) : Prop :=
  ∀ holder h, r.holder? holder = some h → h.owner = some t → h.mark = Holder.unregistered

namespace Control

/-- The task that is to begin. -/
def beginning : Control σ → Option TaskId
  | .begin t _ _ => some t
  | _ => none

/-- The task that is being completed. -/
def completing : Control σ → Option TaskId
  | .publish t _ | .settle t _ => some t
  | _ => none

end Control

namespace Machine

/-- A task that is to begin was taken by this thread; one that is being completed has run, and its
bracket is closed. -/
def Keeps (m : Machine σ) (control : Control σ) : Prop :=
  (∀ t, control.beginning = some t → ∃ cell, m.cell? t = some cell ∧ cell.body = none) ∧
  ∀ t, control.completing = some t →
    (∃ cell, m.cell? t = some cell ∧ cell.state ≠ .created) ∧ m.ledger.roster.Released t

structure Sound (n : Nat) (space : SpaceId) (hist : History) (m : Machine σ) : Prop where
  crash : ∀ error, m.crash ≠ some (.registry error)
  runtimes : ∀ rt ∈ m.runtimes, rt.storages = List.range n ∧ rt.space = space ∧ rt.outer = none
  present : n ≤ m.threads.length
  fits : ∀ (id : ThreadId) (th : Thread σ), m.threads[id]? = some th → th.Fits n id
  keeps : ∀ (id : ThreadId) (th : Thread σ), m.threads[id]? = some th → m.Keeps th.control
  roster : m.ledger.roster.Sound
  storages : m.ledger.roster.storages.length = n
  serves : ∀ (id : ThreadId) (s : Storage) (th : Thread σ), m.ledger.roster.storages[id]? = some s →
    m.threads[id]? = some th → s.Serves id space th
  owners : ∀ (id : ThreadId) (th : Thread σ), m.threads[id]? = some th → ∀ body ∈ th.bodies,
    ∃ h, m.ledger.roster.holder? body.2.holder = some h ∧ h.owner = some body.1
  owned : ∀ holder h, m.ledger.roster.holder? holder = some h → ∃ t, h.owner = some t ∧
    (t = TaskId.root ∨ ∃ cell, m.cell? t = some cell ∧ cell.state ≠ .created)
  unique : ∀ holder holder' h h' t, m.ledger.roster.holder? holder = some h →
    m.ledger.roster.holder? holder' = some h' → t ≠ TaskId.root → h.owner = some t →
    h'.owner = some t → holder = holder'
  cells : ∀ t cell, m.cell? t = some cell → cell.id = t ∧
    (∀ body, cell.body = some body → body.Allowed .task ∧ cell.state = .created) ∧
    (cell.state.isTerminal → m.ledger.roster.Released t)
  tally : m.ledger.Tallied space hist

variable {m : Machine σ} {n : Nat} {space : SpaceId} {hist : History} {id : ThreadId} {th th' : Thread σ}
  {t : TaskId} {cell cell' : Cell (Body σ)}

theorem Keeps.idle {control : Control σ} (hb : control.beginning = none) (hc : control.completing = none) :
    m.Keeps control := by
  constructor
  · intro t he
    cases hb.symm.trans he
  · intro t he
    cases hc.symm.trans he

/-! ## Threads -/

theorem threads_setThread {other : ThreadId} {x : Thread σ}
    (hx : (m.setThread id th').threads[other]? = some x) :
    (other = id ∧ x = th') ∨ (other ≠ id ∧ m.threads[other]? = some x) := by
  simp only [setThread, List.getElem?_set] at hx
  by_cases he : id = other
  · subst he
    rw [if_pos rfl] at hx
    split at hx
    · exact .inl ⟨rfl, (Option.some.inj hx).symm⟩
    · cases hx
  · rw [if_neg he] at hx
    exact .inr ⟨fun h => he h.symm, hx⟩

theorem Sound.setThread (h : m.Sound n space hist) (hth : m.threads[id]? = some th)
    (hb : th'.bodies = th.bodies) (hc : th'.context.isSome → th.context.isSome) (hf : th'.Fits n id)
    (hk : m.Keeps th'.control) : (m.setThread id th').Sound n space hist :=
  { h with
    present := by
      simp only [Machine.setThread, List.length_set]
      exact h.present
    fits := fun other x hx => by
      rcases threads_setThread hx with ⟨rfl, rfl⟩ | ⟨_, hx⟩
      · exact hf
      · exact h.fits other x hx
    keeps := fun other x hx => by
      rcases threads_setThread hx with ⟨rfl, rfl⟩ | ⟨_, hx⟩
      · exact hk
      · exact h.keeps other x hx
    serves := fun other s x hs hx => by
      rcases threads_setThread hx with ⟨rfl, rfl⟩ | ⟨_, hx⟩
      · have hserves := h.serves other s th hs hth
        exact ⟨hserves.worker, hserves.space, hserves.stack.trans (by simp only [Thread.stack, hb]),
          hserves.owner, fun hw => hserves.closed (hc hw)⟩
      · exact h.serves other s x hs hx
    owners := fun other x hx => by
      rcases threads_setThread hx with ⟨rfl, rfl⟩ | ⟨_, hx⟩
      · rw [hb]
        exact h.owners other th hth
      · exact h.owners other x hx }

theorem Sound.goOn (h : m.Sound n space hist) (hth : m.threads[id]? = some th) (control : Control σ)
    (hc : control.Fits (th.base id) th.context.isSome id th.frames) (hk : m.Keeps control) :
    (m.setThread id { th with control }).Sound n space hist :=
  h.setThread hth rfl (fun hw => hw) ((h.fits id th hth).goOn hc) hk

theorem Sound.reframe (h : m.Sound n space hist) (hth : m.threads[id]? = some th)
    (control : Control σ) {frames : List (Frame σ)}
    (hb : frames.filterMap Frame.body? = th.bodies)
    (hc : control.Fits (th.base id) th.context.isSome id frames) (hk : m.Keeps control) :
    (m.setThread id { th with control, frames }).Sound n space hist :=
  h.setThread hth hb (fun hw => hw) ((h.fits id th hth).reframe hb hc) hk

theorem Sound.addThread (h : m.Sound n space hist) {body : Body σ} (hb : body.Allowed .task) :
    ({ m with threads := m.threads ++ [.plain body] } : Machine σ).Sound n space hist := by
  have hcase : ∀ {other : ThreadId} {x : Thread σ}, (m.threads ++ [.plain body])[other]? = some x →
      m.threads[other]? = some x ∨ (other = m.threads.length ∧ x = .plain body) := by
    intro other x hx
    rcases Nat.lt_or_ge other m.threads.length with hlt | hge
    · exact .inl (by rwa [List.getElem?_append_left hlt] at hx)
    · rw [List.getElem?_append_right hge, List.getElem?_singleton] at hx
      split at hx
      · rename_i h0
        exact .inr ⟨Nat.le_antisymm (Nat.sub_eq_zero_iff_le.1 h0) hge, (Option.some.inj hx).symm⟩
      · cases hx
  exact { h with
    present := by
      simp only [List.length_append, List.length_singleton]
      exact Nat.le_succ_of_le h.present
    fits := fun other x hx => by
      rcases hcase hx with hx | ⟨rfl, rfl⟩
      · exact h.fits other x hx
      · exact Thread.plain_fits hb
    keeps := fun other x hx => by
      rcases hcase hx with hx | ⟨rfl, rfl⟩
      · exact h.keeps other x hx
      · exact .idle rfl rfl
    serves := fun other s x hs hx => by
      rcases hcase hx with hx | ⟨rfl, rfl⟩
      · exact h.serves other s x hs hx
      · have hlt := (List.getElem?_eq_some_iff.1 hs).1
        rw [h.storages] at hlt
        exact absurd h.present (Nat.not_le_of_lt hlt)
    owners := fun other x hx => by
      rcases hcase hx with hx | ⟨rfl, rfl⟩
      · exact h.owners other x hx
      · exact fun body hm => by cases hm }

/-! ## Runtimes, tasks and the shared state -/

theorem Sound.failTask (h : m.Sound n space hist) (violation : Violation) :
    (m.fail (.task violation)).Sound n space hist :=
  { h with crash := fun error he => by cases he }

theorem Sound.failSlot (h : m.Sound n space hist) : (m.fail .noSlot).Sound n space hist :=
  { h with crash := fun error he => by cases he }

theorem Sound.share (h : m.Sound n space hist) (shared : σ) :
    ({ m with shared } : Machine σ).Sound n space hist :=
  { h with }

theorem Sound.updateRuntime (h : m.Sound n space hist) (runtime : RuntimeId) {f : Runtime → Runtime}
    (hf : ∀ rt, (f rt).storages = rt.storages ∧ (f rt).space = rt.space ∧ (f rt).outer = rt.outer) :
    (m.updateRuntime runtime f).Sound n space hist :=
  { h with
    runtimes := fun rt hm => by
      obtain ⟨place, hp⟩ := List.mem_iff_getElem?.1 hm
      simp only [Machine.updateRuntime, List.getElem?_modify] at hp
      obtain ⟨old, ho, rfl⟩ := Option.map_eq_some_iff.1 hp
      have hold := h.runtimes old (List.mem_of_getElem? ho)
      split
      · rw [(hf old).1, (hf old).2.1, (hf old).2.2]
        exact hold
      · exact hold }

theorem cell?_setCell (ht : m.cell? t = some cell) (hid : cell'.id = t) (other : TaskId) :
    (m.setCell cell').cell? other = if other = t then some cell' else m.cell? other := by
  cases t with
  | zero => cases ht
  | succ place =>
    obtain ⟨spawned, hs, rfl⟩ := Option.map_eq_some_iff.1 ht
    have hs : m.tasks[place]? = some spawned := hs
    cases other with
    | zero => rfl
    | succ other =>
      have hplace : cell'.id - 1 = place := by rw [hid]; rfl
      simp only [cell?, task?, setCell, hplace, List.getElem?_modify]
      by_cases he : place = other
      · subst he
        simp [hs]
      · rw [if_neg (fun h => he (Nat.succ.inj h).symm)]
        cases m.tasks[other]? <;> simp [he]

theorem cell?_setCell_self (ht : m.cell? t = some cell) (cell' : Cell (Body σ)) (hid : cell'.id = t) :
    (m.setCell cell').cell? t = some cell' :=
  (cell?_setCell ht hid t).trans (if_pos rfl)

theorem Sound.setCell (h : m.Sound n space hist) (ht : m.cell? t = some cell) (cell' : Cell (Body σ))
    (hid : cell'.id = t)
    (hbody : ∀ body, cell'.body = some body → cell.body = some body ∧ cell'.state = .created)
    (hcreated : cell'.state = .created → cell.state = .created)
    (hterm : cell'.state.isTerminal → m.ledger.roster.Released t) :
    (m.setCell cell').Sound n space hist := by
  have hcase : ∀ {other c}, (m.setCell cell').cell? other = some c →
      (other = t ∧ c = cell') ∨ (other ≠ t ∧ m.cell? other = some c) := by
    intro other c hc
    rw [cell?_setCell ht hid] at hc
    split at hc
    · rename_i he
      exact .inl ⟨he, (Option.some.inj hc).symm⟩
    · rename_i he
      exact .inr ⟨he, hc⟩
  have hexists : ∀ {other}, (∃ c, m.cell? other = some c ∧ c.state ≠ .created) →
      ∃ c, (m.setCell cell').cell? other = some c ∧ c.state ≠ .created := by
    rintro other ⟨c, hc, hs⟩
    rw [cell?_setCell ht hid]
    by_cases he : other = t
    · subst he
      cases ht.symm.trans hc
      exact ⟨cell', if_pos rfl, fun hs' => hs (hcreated hs')⟩
    · exact ⟨c, (if_neg he).trans hc, hs⟩
  exact { h with
    keeps := fun id th hth => by
      have hk := h.keeps id th hth
      refine ⟨fun other hb => ?_, fun other hc => ⟨hexists (hk.2 other hc).1, (hk.2 other hc).2⟩⟩
      obtain ⟨c, hcell, hnone⟩ := hk.1 other hb
      by_cases he : other = t
      · subst he
        cases ht.symm.trans hcell
        refine ⟨cell', cell?_setCell_self ht cell' hid, ?_⟩
        cases hb : cell'.body with
        | none => rfl
        | some body => exact (hbody body hb).1.symm.trans hnone
      · exact ⟨c, (cell?_setCell ht hid _).trans ((if_neg he).trans hcell), hnone⟩
    owned := fun holder g hg => by
      obtain ⟨owner, ho, hcell⟩ := h.owned holder g hg
      exact ⟨owner, ho, hcell.imp_right hexists⟩
    cells := fun other c hc => by
      rcases hcase hc with ⟨rfl, rfl⟩ | ⟨_, hc⟩
      · obtain ⟨_, hold, _⟩ := h.cells other cell ht
        exact ⟨hid, fun body hb => ⟨(hold body (hbody body hb).1).1, (hbody body hb).2⟩, hterm⟩
      · exact h.cells other c hc }

theorem cell?_addTask (m : Machine σ) (spawned : Spawned σ) (other : TaskId) :
    ({ m with tasks := m.tasks ++ [spawned] } : Machine σ).cell? other =
      if other = m.tasks.length + 1 then some spawned.cell else m.cell? other := by
  cases other with
  | zero => rfl
  | succ place =>
    simp only [cell?, task?]
    rcases Nat.lt_trichotomy place m.tasks.length with hlt | rfl | hgt
    · have hne := Nat.ne_of_lt hlt
      simp [List.getElem?_append_left hlt, hne]
    · simp
    · have hne := Nat.ne_of_gt hgt
      have hle := Nat.le_of_lt hgt
      have hlen : (m.tasks ++ [spawned]).length ≤ place := by simpa using Nat.succ_le_of_lt hgt
      rw [if_neg (fun he => hne (Nat.succ.inj he)), List.getElem?_eq_none hlen, List.getElem?_eq_none hle]

theorem cell?_fresh (m : Machine σ) : m.cell? (m.tasks.length + 1) = none := by
  simp [cell?, task?]

theorem Sound.addTask (h : m.Sound n space hist) {sticky : Bool} {name : Option String} {child : Body σ}
    (hb : child.Allowed .task) (runtime : RuntimeId) :
    ({ m with tasks := m.tasks ++ [⟨.spawned (m.tasks.length + 1) sticky name child, runtime⟩] } :
      Machine σ).Sound n space hist := by
  have hkept : ∀ {other c}, m.cell? other = some c → ({ m with tasks := m.tasks ++
      [⟨.spawned (m.tasks.length + 1) sticky name child, runtime⟩] } : Machine σ).cell? other = some c := by
    intro other c hc
    rw [cell?_addTask, if_neg, hc]
    rintro rfl
    rw [cell?_fresh] at hc
    cases hc
  exact { h with
    keeps := fun id th hth => by
      have hk := h.keeps id th hth
      refine ⟨fun other hb => ?_, fun other hc => ?_⟩
      · exact (hk.1 other hb).imp fun _ hcell => ⟨hkept hcell.1, hcell.2⟩
      · obtain ⟨hcell, hr⟩ := hk.2 other hc
        exact ⟨hcell.imp fun _ hcell => ⟨hkept hcell.1, hcell.2⟩, hr⟩
    owned := fun holder g hg => by
      obtain ⟨owner, ho, hcell⟩ := h.owned holder g hg
      exact ⟨owner, ho, hcell.imp_right (Exists.imp fun _ hc => ⟨hkept hc.1, hc.2⟩)⟩
    cells := fun other c hc => by
      rw [cell?_addTask] at hc
      split at hc
      · rename_i he
        cases hc
        exact ⟨he.symm, fun body hbody => ⟨Option.some.inj hbody ▸ hb, rfl⟩, fun ht => by cases ht⟩
      · exact h.cells other c hc }

/-! ## Memory -/

/-- What is recorded and mapped changes, but no body begins or ends. -/
theorem Sound.setLedger (h : m.Sound n space hist) {ledger : Ledger} {hist' : History}
    (hb : m.ledger.roster.SameBodies ledger.roster) (ht : ledger.Tallied space hist') :
    ({ m with ledger } : Machine σ).Sound n space hist' := by
  have hreleased : ∀ {t}, m.ledger.roster.Released t → ledger.roster.Released t := by
    intro t hr holder g hg ho
    obtain ⟨old, hold, howner, hmark⟩ := hb.exists_holder hg
    exact hmark ▸ hr holder old hold (howner.trans ho)
  exact { h with
    keeps := fun id th hth => by
      have hk := h.keeps id th hth
      exact ⟨hk.1, fun t hc => ⟨(hk.2 t hc).1, hreleased (hk.2 t hc).2⟩⟩
    roster := hb.sound h.roster
    storages := (congrArg List.length hb.storages).trans h.storages
    serves := fun id s th hs hth => h.serves id s th (hb.storages ▸ hs) hth
    owners := fun id th hth body hm => by
      obtain ⟨old, hold, howner⟩ := h.owners id th hth body hm
      obtain ⟨g, hg, ho, _⟩ := hb.symm.exists_holder hold
      exact ⟨g, hg, ho.trans howner⟩
    owned := fun holder g hg => by
      obtain ⟨old, hold, howner, _⟩ := hb.exists_holder hg
      exact howner ▸ h.owned holder old hold
    unique := fun holder holder' g g' t hg hg' ht ho ho' => by
      obtain ⟨old, hold, howner, _⟩ := hb.exists_holder hg
      obtain ⟨old', hold', howner', _⟩ := hb.exists_holder hg'
      exact h.unique holder holder' old old' t hold hold' ht (howner.trans ho) (howner'.trans ho')
    cells := fun t cell hc => by
      obtain ⟨hid, hbody, hterm⟩ := h.cells t cell hc
      exact ⟨hid, hbody, fun ht => hreleased (hterm ht)⟩
    tally := ht }

end Machine

end TaskSpace

import TaskSpace.Proofs.Machine.Hosts

/-!
# Registrations are counted

Each body that begins is registered once, with the storage of its thread, and deregistered once when it
ends. So the counters of the storages tell how many bodies there were.
-/

namespace TaskSpace

variable {σ : Type}

namespace Control

def begins : Control σ → Bool
  | .begin _ _ _ => true
  | _ => false

def roots : Control σ → Bool
  | .run (.blockOn _ _ _) => true
  | _ => false

/-- A body is to begin, be it that of a task or of a block-on call. -/
def opens (control : Control σ) : Bool := control.begins || control.roots

theorem toNat_opens (control : Control σ) :
    control.opens.toNat = control.begins.toNat + control.roots.toNat := by
  cases control <;> simp [opens, begins, roots]

/-- A body is over, and its bracket is to be closed. -/
def closes : Control σ → Bool
  | .leave _ => true
  | _ => false

/-- The storage of the thread is to be closed. -/
def shuts : Control σ → Bool
  | .exit | .stop _ .close _ => true
  | _ => false

end Control

/-- What a step that starts with `control` does to the storage of its thread. -/
structure Storage.Marks (control : Control σ) (s s' : Storage) : Prop where
  registered : s'.counters.registered = s.counters.registered + control.opens.toNat
  deregistered : s'.counters.deregistered = s.counters.deregistered + control.closes.toNat
  closed : s'.closed = (s.closed || control.shuts)

namespace Roster

def registered (r : Roster) : Nat := Word.total (r.storages.map fun s => s.counters.registered)

def deregistered (r : Roster) : Nat := Word.total (r.storages.map fun s => s.counters.deregistered)

end Roster

namespace Machine

variable {m rest : Machine σ} {n k : Nat} {space : SpaceId} {hist : History} {es : TaskId → List Event}
  {id : ThreadId} {th th' : Thread σ} {t : TaskId} {bracket : Bracket} {below : List (TaskId × Bracket)}
  {ledger : Ledger} {turns : Turns σ}

/-! ## Brackets -/

theorem Sound.storages_openBracket (h : m.Sound n space hist) (hth : m.threads[id]? = some th)
    (hw : th.context.isSome) {parent : Option HolderId}
    (ho : m.ledger.openBracket id id (some t) parent = (.ok bracket, ledger)) :
    ledger.roster.storages = m.ledger.roster.storages.modify id fun s =>
      (s.bind id).push (m.ledger.roster.holders.length + 1) := by
  obtain ⟨s, hs, hserves⟩ := h.exists_storage hth hw
  have hh : (m.ledger.roster.addHolder (some t)).2.holder? (m.ledger.roster.holders.length + 1) =
      some (Holder.fresh (some t)) := by
    rw [Roster.holder?_addHolder, if_pos rfl]
  have hreg := Roster.register_eq (r := (m.ledger.roster.addHolder (some t)).2) hs hh rfl hserves.owner
    (hserves.closed hw)
  cases (Ledger.openBracket_eq parent hreg).symm.trans ho
  simp only [Roster.updateStorage, Roster.storages_updateHolder]
  rfl

theorem Sound.storages_closeBracket (h : m.Sound n space hist) (hth : m.threads[id]? = some th)
    (hbodies : th.bodies = (t, bracket) :: below)
    (hc : m.ledger.closeBracket id bracket = (.ok (), ledger)) :
    ∃ s s', m.ledger.roster.storages[id]? = some s ∧
      ledger.roster.storages = m.ledger.roster.storages.modify id (fun _ => s') ∧
      s'.counters.registered = s.counters.registered ∧
      s'.counters.deregistered = s.counters.deregistered + 1 ∧ s'.closed = s.closed := by
  have hfit := h.fits id th hth
  obtain ⟨_, hstorage, _⟩ := hbodies ▸ hfit.nested
  obtain ⟨s, hs, hserves⟩ := h.exists_storage hth (hfit.isSome_of_bodies (hbodies ▸ List.mem_cons_self))
  have hstack : s.stack = bracket.holder :: below.map fun body => body.2.holder := by
    rw [hserves.stack, Thread.stack, hbodies, List.map_cons]
  obtain ⟨hb, hsb, _⟩ := h.roster.bound hs hserves.owner
  have hstb : (s.bind id).stack = bracket.holder :: below.map fun body => body.2.holder := hstack
  obtain ⟨current, entries, hpop, _⟩ := (hb.linked id _ hsb).pop_cons hstb
  obtain ⟨g, hg⟩ := h.roster.exists_holder hs (hstack ▸ List.mem_cons_self)
  have hd := Roster.deregister_eq hs hserves.owner hpop hg
  subst hstorage
  cases (Ledger.closeBracket_eq hs hd).symm.trans hc
  refine ⟨s, ({ s.bind bracket.storage with current, entries } : Storage).countReleased g.handles.length, hs, ?_, rfl, rfl, rfl⟩
  simp only [Ledger.release, Ledger.updateSpace, Roster.updateStorage, Roster.storages_updateHolder]

theorem Sound.storages_answer (h : m.Sound n space hist) (hth : m.threads[id]? = some th) (r : Request) :
    (m.answer th r).2.roster.storages = m.ledger.roster.storages := by
  cases r with
  | memory op => exact (h.tally.perform h.site (h.holder hth) op).2.storages
  | write ref off bytes => exact congrArg Roster.storages (m.ledger.write_roster ref off bytes)
  | _ => rfl

/-- A step changes the storage of its thread, if it is a worker, and no other. -/
theorem Hosts.storages (h : m.Hosts k es) (hth : m.threads[id]? = some th) (hm : m.Move id th rest th')
    (hcrash : rest.crash = none) : ∃ f, rest.ledger.roster.storages = m.ledger.roster.storages.modify id f ∧
      ∀ s, m.ledger.roster.storages[id]? = some s → s.Marks th.control (f s) := by
  obtain ⟨space, hist, hsound⟩ := h.sound
  have hkept : ∀ {control : Control σ}, th.control = control → control.opens = false → control.closes = false →
      control.shuts = false → rest.ledger.roster.storages = m.ledger.roster.storages →
      ∃ f, rest.ledger.roster.storages = m.ledger.roster.storages.modify id f ∧
        ∀ s, m.ledger.roster.storages[id]? = some s → s.Marks th.control (f s) := by
    rintro _ rfl ho hc hs he
    refine ⟨fun s => s, by rw [he]; exact (List.modify_id id _).symm, fun s _ => ⟨?_, ?_, ?_⟩⟩ <;>
      simp [ho, hc, hs]
  have hopened : ∀ {control : Control σ} {storage t parent bracket ledger}, th.control = control →
      control.opens → control.closes = false → control.shuts = false → storage = id → th.context.isSome →
      m.ledger.openBracket storage id (some t) parent = (.ok bracket, ledger) →
      ∃ f, ledger.roster.storages = m.ledger.roster.storages.modify id f ∧
        ∀ s, m.ledger.roster.storages[id]? = some s → s.Marks th.control (f s) := by
    rintro _ _ _ _ _ _ rfl ho hc hs rfl hw hopen
    refine ⟨_, hsound.storages_openBracket hth hw hopen, fun s _ => ⟨?_, ?_, ?_⟩⟩ <;>
      simp [ho, hc, hs, Storage.push, Storage.bind]
  have hclosed : ∀ {result t bracket below ledger}, th.control = .leave result →
      th.bodies = (t, bracket) :: below → m.ledger.closeBracket id bracket = (.ok (), ledger) →
      ∃ f, ledger.roster.storages = m.ledger.roster.storages.modify id f ∧
        ∀ s, m.ledger.roster.storages[id]? = some s → s.Marks th.control (f s) := by
    intro result t bracket below ledger hctl hbodies hclose
    obtain ⟨s, s', hs, he, hreg, hdereg, hcl⟩ := hsound.storages_closeBracket hth hbodies hclose
    refine ⟨_, he, fun found hfound => ?_⟩
    cases hs.symm.trans hfound
    rw [hctl]
    exact ⟨hreg, hdereg, by rw [hcl]; exact (Bool.or_false _).symm⟩
  have hshut : ∀ {control : Control σ} {ledger : Ledger}, th.control = control → control.shuts →
      control.opens = false → control.closes = false →
      ledger.roster.storages = m.ledger.roster.storages.modify id Storage.close →
      ∃ f, ledger.roster.storages = m.ledger.roster.storages.modify id f ∧
        ∀ s, m.ledger.roster.storages[id]? = some s → s.Marks th.control (f s) := by
    rintro _ _ rfl hs ho hc he
    refine ⟨_, he, fun s _ => ⟨?_, ?_, ?_⟩⟩ <;> simp [ho, hc, hs, Storage.close]
  cases hm with
  | answered hctl ha =>
    refine hkept hctl ?_ rfl rfl ?_
    · cases ha <;> rfl
    · cases ha with
      | call r next => exact hsound.storages_answer hth r
      | _ => rfl
  | @ended result hctl | @returned result hctl => cases result <;> exact hkept hctl rfl rfl rfl rfl
  | launched hctl => exact (h.controlFits hth hctl).2.elim
  | rooted hctl hrt hstorage ho =>
    obtain ⟨hst, hrole, _⟩ := h.controlFits hth hctl
    obtain ⟨rfl, hw⟩ := Thread.base_eq_outside.1 (Thread.base_of_ne (hst.base_ne hrole))
    exact hopened hctl rfl rfl rfl (hsound.rootStorage hrt hstorage) hw ho
  | began hctl _ _ ho =>
    obtain ⟨_, _, hstorage, hw, _⟩ := h.controlFits hth hctl
    exact hopened hctl rfl rfl rfl hstorage hw ho
  | left hctl hf hclose => exact hclosed hctl (Thread.bodies_eq hf) hclose
  | leftRoot hctl hf hclose => exact hclosed hctl (Thread.bodies_eq hf) hclose
  | delivered ha =>
    rcases ha with hctl | hctl <;> exact hkept hctl rfl rfl rfl rfl
  | exited hctl hstorage =>
    obtain ⟨rfl, _⟩ := h.storageOf hth hstorage
    exact hshut hctl rfl rfl rfl rfl
  | closed hctl hrt hstorage =>
    obtain ⟨rfl, _⟩ := h.of_stop hth hctl
    obtain rfl := hsound.rootStorage hrt hstorage
    refine hshut hctl rfl rfl rfl ?_
    obtain ⟨left, crash, he⟩ := dropQueues_eq (m.closeStorage 0) (queued _)
    rw [he]
    rfl
  | @stopped _ _ _ hctl | @rang _ _ _ _ hctl | @joinedPool _ _ _ hctl => exact hkept hctl rfl rfl rfl rfl
  | crashed => cases hcrash
  | _ => exact hkept (by assumption) rfl rfl rfl rfl

/-! ## Bodies that began -/

/-- How many tasks have left the state they were spawned in. -/
def begun (m : Machine σ) : Nat :=
  Word.total (m.tasks.map fun task => if task.cell.state = .created then 0 else 1)

/-- How many block-on calls a run begins. -/
def blockOns (turns : Turns σ) : Nat :=
  turns.countP fun turn => (turn.before.threads[turn.act.1]?).any fun th => th.control.roots

theorem begun_setCell {cell : Cell (Body σ)} (hc : m.cell? t = some cell) (cell' : Cell (Body σ)) (hid : cell'.id = t) :
    (m.setCell cell').begun + (if cell.state = .created then 0 else 1) =
      m.begun + (if cell'.state = .created then 0 else 1) := by
  cases t with
  | zero => cases hc
  | succ place =>
    obtain ⟨spawned, hs, rfl⟩ := Option.map_eq_some_iff.1 hc
    have hs : m.tasks[place]? = some spawned := hs
    have hplace : cell'.id - 1 = place := by rw [hid]; rfl
    simp only [begun, setCell, hplace]
    exact Roster.total_modify hs (fun t => { t with cell := cell' }) fun task =>
      if task.cell.state = .created then 0 else 1

/-- One more task has begun when a thread begins one, as long as no queue entry is dropped. -/
theorem Hosts.begun (h : m.Hosts k es) (hth : m.threads[id]? = some th) (hm : m.Move id th rest th')
    (hcrash : rest.crash = none)
    (hempty : ∀ runtime next rt, th.control = .stop runtime .close next → m.runtimes = [rt] →
      queued rt.queues = []) : rest.begun = m.begun + th.control.begins.toNat := by
  have hkept : ∀ {control : Control σ}, th.control = control → control.begins = false →
      rest.begun = m.begun → rest.begun = m.begun + th.control.begins.toNat := by
    rintro _ rfl hb he
    simp [hb, he]
  have hid : ∀ {t cell}, m.cell? t = some cell → cell.id = t := fun hc => (h.accounted.fresh _ _ hc).1
  have hsame : ∀ {t} {cell cell' : Cell (Body σ)}, m.cell? t = some cell → cell'.id = cell.id →
      cell'.state = cell.state → (m.setCell cell').begun = m.begun := by
    intro t cell cell' hc hid' hstate
    have hcount := begun_setCell hc cell' (hid'.trans (hid hc))
    rw [hstate] at hcount
    exact Nat.add_right_cancel hcount
  have hsettled : ∀ {t completed} {cell : Cell (Body σ)}, th.control = .settle t completed →
      m.cell? t = some cell → (m.setCell (cell.settled completed)).begun = m.begun := by
    intro t completed cell hctl hc
    have hstages : th.stages t = .settling completed :: th.frames.flatMap (Frame.stages .running t) := by
      simp [Thread.stages, hctl, Control.stages, Control.top]
    have hl : Life t (some cell) (es t) _ := hc ▸ h.accounted.life_of_stages h.crash hth hstages
    have hover : (cell.settled completed).state ≠ .created := by
      unfold Cell.settled
      split <;> simp
    have hcell := hid hc
    have hcount := begun_setCell hc (cell.settled completed) hcell
    rw [hl.running_of_settling, if_neg (by decide), if_neg hover] at hcount
    exact Nat.add_right_cancel hcount
  cases hm with
  | spawned hctl =>
    refine hkept hctl rfl ?_
    simp only [Machine.begun, enroll, List.map_append, Word.total_append]
    rfl
  | launched hctl => exact (h.controlFits hth hctl).2.elim
  | @began t _ _ cell _ _ hctl hc hstate =>
    have hcell := hid hc
    have hcount := begun_setCell hc { cell with state := .running } hcell
    rw [if_pos hstate, if_neg (by simp)] at hcount
    rw [hctl]
    exact hcount
  | published hctl hc => exact hkept hctl rfl (hsame hc rfl rfl)
  | resumed hctl hc => exact hkept hctl rfl (hsettled hctl hc)
  | settled hctl hc => exact hkept hctl rfl (hsettled hctl hc)
  | nested hctl hc => exact hkept hctl rfl (hsame hc rfl rfl)
  | took hctl _ _ _ hc => exact hkept hctl rfl (hsame hc rfl rfl)
  | delivered ha => rcases ha with hctl | hctl <;> exact hkept hctl rfl rfl
  | closed hctl hrt =>
    obtain ⟨found, hone, _⟩ := h.runtime
    obtain ⟨_, rfl⟩ := runtime_eq hone hrt
    refine hkept hctl rfl ?_
    rw [hempty _ _ _ hctl hone]
    rfl
  | crashed => cases hcrash
  | _ => exact hkept (by assumption) rfl rfl

/-! ## The tally -/

/-- The bodies on a worker are those registered with its storage and not deregistered. -/
def BodiesCounted (m : Machine σ) : Prop :=
  ∀ (id : ThreadId) (s : Storage) (th : Thread σ), m.ledger.roster.storages[id]? = some s →
    m.threads[id]? = some th → s.counters.registered = s.counters.deregistered + th.bodies.length

/-- The bodies on a worker are those registered with its storage and not deregistered; together, as many
were registered as tasks and block-on calls began. A worker that has stopped has closed its storage. -/
structure Counted (turns : Turns σ) (m : Machine σ) : Prop where
  bodies : ∀ (id : ThreadId) (s : Storage) (th : Thread σ), m.ledger.roster.storages[id]? = some s →
    m.threads[id]? = some th → s.counters.registered = s.counters.deregistered + th.bodies.length
  begun : m.ledger.roster.registered = m.begun + blockOns turns
  closed : ∀ (id : ThreadId) (s : Storage) (th : Thread σ), m.ledger.roster.storages[id]? = some s →
    m.threads[id]? = some th → th.context = none → s.closed

/-- The bodies on a thread are one more when one begins, and one less when one ends. -/
theorem Move.bodies_length (hm : m.Move id th rest th') (hcrash : rest.crash = none)
    (hexit : th.control = .exit → th.bodies = []) :
    th'.bodies.length + th.control.closes.toNat = th.bodies.length + th.control.opens.toNat := by
  have hkept : ∀ {control : Control σ}, th.control = control → control.closes = false → control.opens = false →
      th'.bodies = th.bodies →
      th'.bodies.length + th.control.closes.toNat = th.bodies.length + th.control.opens.toNat := by
    rintro _ rfl hc ho he
    rw [he, hc, ho]
  have hloop : ∀ {ticker force leaving ticker' force' leaving'} {frames : List (Frame σ)},
      th.frames = .loop ticker force leaving :: frames →
      (.loop ticker' force' leaving' :: frames).filterMap Frame.body? = th.bodies := fun hf =>
    (Thread.bodies_of_cons hf rfl).symm
  cases hm with
  | rooted hctl | began hctl =>
    rw [hctl]
    rfl
  | left hctl hf | leftRoot hctl hf =>
    rw [hctl, Thread.bodies_eq hf]
    rfl
  | resumed hctl _ _ hf => exact hkept hctl rfl rfl (Thread.bodies_of_cons hf rfl).symm
  | delivered ha => rcases ha with hctl | hctl <;> exact hkept hctl rfl rfl rfl
  | found hctl hseeks =>
    cases hseeks with
    | loop hf => exact hkept hctl rfl rfl (hloop hf)
    | drain => exact hkept hctl rfl rfl rfl
  | drained hctl hf => exact hkept hctl rfl rfl (Thread.bodies_of_cons hf rfl).symm
  | idle hctl hf | ticked hctl hf => exact hkept hctl rfl rfl (hloop hf)
  | exited hctl => exact hkept hctl rfl rfl (hexit hctl).symm
  | @answered body _ _ _ hctl ha => exact hkept hctl rfl (by cases ha <;> rfl) rfl
  | @ended result hctl | @returned result hctl => cases result <;> exact hkept hctl rfl rfl rfl
  | crashed => cases hcrash
  | _ => exact hkept (by assumption) rfl rfl rfl

/-- A thread that works no more for the runtime did not before, or has just stopped. -/
theorem Move.context_none (hm : m.Move id th rest th') (hnone : th'.context = none) :
    th.context = none ∨ th.control.shuts := by
  have hmarked : ∀ {t}, (th.setTask t).context = none → th.context = none := fun hn =>
    Option.map_eq_none_iff.1 hn
  cases hm with
  | launched => cases hnone
  | rooted | began | left | leftRoot => exact .inl (hmarked hnone)
  | exited hctl | closed hctl => exact .inr (by rw [hctl]; rfl)
  | _ => exact .inl hnone

theorem Hosts.works_of_opens (h : m.Hosts k es) (hth : m.threads[id]? = some th) (ho : th.control.opens) :
    th.context.isSome := by
  have hfit := (h.fits hth).control
  cases hctl : th.control <;> rw [hctl] at ho hfit <;> try cases ho
  case «begin» => exact hfit.2.2.2.1
  case run body =>
    cases body <;> try cases ho
    case blockOn =>
      obtain ⟨hst, hrole, _⟩ := hfit
      exact (Thread.base_eq_outside.1 (Thread.base_of_ne (hst.base_ne hrole))).2

/-- The storage of another thread is as it was, and so is that thread. -/
theorem Hosts.other_storage (h : m.Hosts k es) (hth : m.threads[id]? = some th) (hm : m.Move id th rest th')
    (hcrash : rest.crash = none) {other : ThreadId} {s : Storage} {x : Thread σ} (hne : other ≠ id)
    (hs : rest.ledger.roster.storages[other]? = some s) (hx : (rest.setThread id th').threads[other]? = some x) :
    m.ledger.roster.storages[other]? = some s ∧ m.threads[other]? = some x := by
  obtain ⟨f, hf, _⟩ := h.storages hth hm hcrash
  rw [hf] at hs
  have hs : m.ledger.roster.storages[other]? = some s := (Roster.storage_updateStorage_ne hne f).symm.trans hs
  refine ⟨hs, ?_⟩
  rcases hm.others hne with he | ⟨hnone, _⟩
  · exact he ▸ hx
  · obtain ⟨space, hist, hsound⟩ := h.sound
    have hlt := (List.getElem?_eq_some_iff.1 hs).1
    rw [hsound.storages] at hlt
    exact absurd (List.getElem?_eq_none_iff.1 hnone) (Nat.not_le_of_lt (Nat.lt_of_lt_of_le hlt hsound.present))

theorem Hosts.own_storage (h : m.Hosts k es) (hth : m.threads[id]? = some th) (hm : m.Move id th rest th')
    (hcrash : rest.crash = none) {s : Storage} {x : Thread σ} (hs : rest.ledger.roster.storages[id]? = some s)
    (hx : (rest.setThread id th').threads[id]? = some x) :
    x = th' ∧ ∃ old, m.ledger.roster.storages[id]? = some old ∧ old.Marks th.control s := by
  obtain ⟨f, hf, hmarks⟩ := h.storages hth hm hcrash
  rw [hf, List.getElem?_modify_eq] at hs
  obtain ⟨old, hold, rfl⟩ := Option.map_eq_some_iff.1 hs
  exact ⟨Option.some.inj (hx.symm.trans (hm.self hth)), old, hold, hmarks old hold⟩

theorem BodiesCounted.move (hc : m.BodiesCounted) (h : m.Hosts k es) (hth : m.threads[id]? = some th)
    (hm : m.Move id th rest th') (hcrash : rest.crash = none) : (rest.setThread id th').BodiesCounted := by
  intro other s x hs hx
  by_cases hne : other = id
  · subst hne
    obtain ⟨rfl, old, hold, hmark⟩ := h.own_storage hth hm hcrash hs hx
    have hlen := hm.bodies_length hcrash fun hctl => by
      obtain ⟨_, _, _, hf⟩ := h.controlFits hth hctl
      exact Thread.bodies_eq hf
    have hbodies := hc other old th hold hth
    have hreg := hmark.registered
    have hdereg := hmark.deregistered
    omega
  · obtain ⟨hs, hx⟩ := h.other_storage hth hm hcrash hne hs hx
    exact hc other s x hs hx

theorem Counted.move (h : m.Hosts k es) (hc : Counted turns m) (hth : m.threads[id]? = some th)
    (hm : m.Move id th rest th') (h' : (rest.setThread id th').Hosts k (Scene.next es id th m rest))
    (hempty : ∀ runtime next rt, th.control = .stop runtime .close next → m.runtimes = [rt] →
      queued rt.queues = []) (choice : Choice) :
    Counted (turns ++ [⟨m, (id, choice), rest.setThread id th'⟩]) (rest.setThread id th') := by
  have hcrash : rest.crash = none := h'.crash
  refine ⟨BodiesCounted.move hc.bodies h hth hm hcrash, ?_, fun other s x hs hx hnone => ?_⟩
  · obtain ⟨f, hf, hmarks⟩ := h.storages hth hm hcrash
    have hstorages : (rest.setThread id th').ledger.roster.storages = m.ledger.roster.storages.modify id f := hf
    have hreg : (rest.setThread id th').ledger.roster.registered =
        m.ledger.roster.registered + th.control.opens.toNat := by
      unfold Roster.registered
      rw [hstorages]
      cases hs : m.ledger.roster.storages[id]? with
      | none =>
        obtain ⟨space, hist, hsound⟩ := h.sound
        have hclosed : th.control.opens = false := by
          rw [Bool.eq_false_iff]
          intro ho
          have hlt := (h.fits hth).lt (h.works_of_opens hth ho)
          rw [← hsound.storages] at hlt
          exact Nat.not_le_of_lt hlt (List.getElem?_eq_none_iff.1 hs)
        rw [List.modify_eq_self (List.getElem?_eq_none_iff.1 hs), hclosed]
        rfl
      | some s =>
        have hsum := Roster.total_modify hs f fun s => s.counters.registered
        have hmark := (hmarks s hs).registered
        omega
    have hroots : blockOns (turns ++ [⟨m, (id, choice), rest.setThread id th'⟩]) =
        blockOns turns + th.control.roots.toNat := by
      unfold blockOns
      rw [List.countP_append, List.countP_singleton]
      cases hr : th.control.roots <;> simp [hth, hr]
    have hbegun := h.begun hth hm hcrash hempty
    have hsame : (rest.setThread id th').begun = rest.begun := rfl
    rw [hreg, hroots, hsame, hbegun, hc.begun, Control.toNat_opens]
    omega
  · by_cases hne : other = id
    · subst hne
      obtain ⟨rfl, old, hold, hmark⟩ := h.own_storage hth hm hcrash hs hx
      rw [hmark.closed]
      rcases hm.context_none hnone with hnone | hshut
      · rw [hc.closed other old th hold hth hnone]
        rfl
      · rw [hshut, Bool.or_true]
    · obtain ⟨hs, hx⟩ := h.other_storage hth hm hcrash hne hs hx
      exact hc.closed other s x hs hx hnone

theorem bodies_counted_launched {next : Except BuildError RuntimeId → Body σ} (hl : Launched k next m) :
    m.BodiesCounted := by
  obtain ⟨space, hstorages⟩ := hl.storages
  intro id s th hs hth
  obtain rfl : s = .fresh id space := storages_launched (hstorages ▸ hs)
  rcases hl.thread hth with ⟨_, rfl⟩ | ⟨_, rfl⟩ <;> rfl

theorem counted_launched {next : Except BuildError RuntimeId → Body σ} (hl : Launched k next m)
    {turn : Turn (Machine σ) (ThreadId × Choice)}
    (hbuild : ∀ th, turn.before.threads[turn.act.1]? = some th → th.control.roots = false) :
    Counted [turn] m := by
  obtain ⟨space, hstorages⟩ := hl.storages
  refine ⟨bodies_counted_launched hl, ?_, fun id s th _ hth hnone => ?_⟩
  · have hroots : blockOns [turn] = 0 := by
      unfold blockOns
      rw [List.countP_singleton]
      cases hth : turn.before.threads[turn.act.1]? with
      | none => rfl
      | some th => simp [hbuild th hth]
    rw [hroots, Machine.begun, hl.tasks, Roster.registered, hstorages, List.map_map]
    induction List.range (k + 1) with
    | nil => rfl
    | cons i rest ih => exact (Nat.zero_add _).trans ih
  · rcases hl.thread hth with ⟨_, rfl⟩ | ⟨_, rfl⟩ <;> cases hnone

end Machine

end TaskSpace

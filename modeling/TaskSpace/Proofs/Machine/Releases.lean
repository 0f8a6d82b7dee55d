import TaskSpace.Proofs.Machine.Restoring
import TaskSpace.Proofs.Machine.Runs

/-!
# What a body releases

What a body has mapped is recorded with its holder until it releases it: all at once when it asks for that, or
else when it ends. `pending` reads off a run what that is. Either way exactly those mappings die, whatever bodies
wait below and whatever other workers do, and each mapping that was given is counted once: as released by a
storage, as released by request, or as recorded.
-/

namespace TaskSpace

variable {σ : Type}

/-! ## What is recorded -/

namespace Roster

variable {r r' : Roster} {holder other : HolderId} {h : Holder} {id : StorageId} {s s' : Storage}
  {ids : List MappingId}

/-- What is recorded with a holder, if there is one. -/
def handlesOf (r : Roster) (holder : HolderId) : List MappingId := ((r.holder? holder).map Holder.handles).getD []

/-- How many mappings the storages have counted as released. -/
def unlocalized (r : Roster) : Nat := Word.total (r.storages.map fun s => s.counters.unlocalized)

/-- The holder, if there is one, is emptied or not, and then gets some handles. -/
def enter (r : Roster) (mine : Option HolderId) (clears : Bool) (ids : List MappingId) : Roster :=
  mine.elim r fun holder =>
    r.updateHolder holder fun h => { h with handles := (if clears then [] else h.handles) ++ ids }

theorem handlesOf_eq (hh : r.holder? holder = some h) : r.handlesOf holder = h.handles := by
  rw [handlesOf, hh]
  rfl

theorem handlesOf_congr (hh : r'.holder? holder = r.holder? holder) : r'.handlesOf holder = r.handlesOf holder := by
  rw [handlesOf, hh, handlesOf]

theorem enter_nil (r : Roster) (mine : Option HolderId) : r.enter mine false [] = r := by
  cases mine with
  | none => rfl
  | some holder =>
    cases holder with
    | zero => rfl
    | succ place =>
      simp only [enter, Option.elim_some, updateHolder, Bool.false_eq_true, if_false, List.append_nil]
      exact congrArg (fun holders => (⟨holders, r.storages⟩ : Roster)) (List.modify_id _ _)

theorem handlesOf_enter {clears : Bool} (hh : r.holder? holder = some h) (other : HolderId) :
    (r.enter (some holder) clears ids).handlesOf other =
      if some holder = some other then (if clears then [] else r.handlesOf other) ++ ids
      else r.handlesOf other := by
  unfold handlesOf enter
  rw [Option.elim_some, holder?_updateHolder]
  by_cases he : holder = other
  · subst he
    simp [hh]
  · simp [he]

theorem recorded_enter (hh : r.holder? holder = some h) (clears : Bool) (ids : List MappingId) :
    (r.enter (some holder) clears ids).recorded + (if clears then h.len else 0) = r.recorded + ids.length := by
  have hsum := recorded_updateHolder hh fun h => { h with handles := (if clears then [] else h.handles) ++ ids }
  cases clears <;> simp [enter, Holder.len] at hsum ⊢ <;> omega

theorem recorded_eq_zero (hempty : ∀ holder h, r.holder? holder = some h → h.handles = []) : r.recorded = 0 := by
  have hall : ∀ h ∈ r.holders, h.len = 0 := by
    intro h hm
    obtain ⟨place, hp⟩ := List.mem_iff_getElem?.1 hm
    exact congrArg List.length (hempty (place + 1) h hp)
  unfold recorded
  generalize r.holders = holders at hall
  induction holders with
  | nil => rfl
  | cons h rest ih =>
    rw [List.map_cons, Word.total_cons, hall h List.mem_cons_self,
      ih fun other hm => hall other (List.mem_cons_of_mem _ hm)]

theorem unlocalized_enter (r : Roster) (mine : Option HolderId) (clears : Bool) (ids : List MappingId) :
    (r.enter mine clears ids).unlocalized = r.unlocalized := by
  cases mine with
  | none => rfl
  | some holder => rw [unlocalized, enter, Option.elim_some, storages_updateHolder, unlocalized]

theorem unlocalized_modify (hs : r.storages[id]? = some s) {f : Storage → Storage}
    (hr : r'.storages = r.storages.modify id f) :
    r'.unlocalized + s.counters.unlocalized = r.unlocalized + (f s).counters.unlocalized := by
  rw [unlocalized, hr]
  exact total_modify hs f fun s => s.counters.unlocalized

/-- Only one storage is another than before. -/
theorem storages_eq_modify (hs' : r'.storages[id]? = some s')
    (hrest : ∀ other : StorageId, other ≠ id → r'.storages[other]? = r.storages[other]?)
    (hs : r.storages[id]? = some s) : r'.storages = r.storages.modify id fun _ => s' := by
  refine List.ext_getElem? fun place => ?_
  by_cases he : id = place
  · subst he
    rw [hs', List.getElem?_modify_eq, hs]
    rfl
  · rw [hrest place (Ne.symm he), List.getElem?_modify_ne _ _ he]

variable {thread : ThreadId} {owner : Option TaskId} {top : HolderId} {rest : List HolderId}

theorem Opened.unlocalized (ho : r.Opened id thread owner r') (hs : r.storages[id]? = some s) :
    r'.unlocalized = r.unlocalized := by
  obtain ⟨s', hs', _⟩ := ho.storage s hs
  have hsum := unlocalized_modify hs (storages_eq_modify hs' ho.rest hs)
  rw [ho.unreleased s s' hs hs'] at hsum
  exact Nat.add_right_cancel hsum

theorem Closed.unlocalized (hc : r.Closed id thread top rest r') (hs : r.storages[id]? = some s)
    (hh : r.holder? top = some h) : r'.unlocalized = r.unlocalized + h.len := by
  obtain ⟨s', hs', _⟩ := hc.storage s hs
  have hsum := unlocalized_modify hs (storages_eq_modify hs' hc.rest hs)
  have hgrown := hc.released s s' h hs hs' hh
  omega

end Roster

/-! ## What operations do to the books -/

/-- Everything that is recorded is to be released. -/
def MemoryOp.clears : MemoryOp → Bool
  | .unlocalize => true
  | _ => false

namespace Ledger

variable {l l' : Ledger} {space : SpaceId} {worker : WorkerId} {mine : Option HolderId} {holder : HolderId}
  {h : Holder} {ids : List MappingId} {clears : Bool} {count : Nat}

/-- How many mappings an operation of a body says that it has released. -/
def returned (l : Ledger) (site : Option Site) : MemoryOp → Nat
  | .unlocalize => (l.perform site .unlocalize).1.toOption.getD 0
  | _ => 0

/-- All that an operation does to the roster is to record what it gives, or to empty the current holder. -/
theorem roster_perform (l : Ledger) (site : Option Site) (op : MemoryOp) :
    (l.perform site op).2.roster = l.roster.enter (site.bind Site.holder) op.clears
      ((l.given site op).map LocalRef.mapping) := by
  have hquiet : ∀ {l' : Ledger} {mine}, l'.roster = l.roster → l'.roster = l.roster.enter mine false [] :=
    fun he => he.trans (l.roster.enter_nil _).symm
  cases site with
  | none => cases op <;> rfl
  | some site =>
    obtain ⟨space, worker, mine⟩ := site
    cases op with
    | alloc size blockSize =>
      refine hquiet ?_
      simp only [perform, performIn]
      split <;> rfl
    | dealloc ptr | put ptr bytes | fill ptr value len => exact hquiet (l.change_roster ..)
    | rmw ptr len update =>
      refine hquiet ?_
      simp only [perform, performIn]
      split <;> rfl
    | get ptr len | homeOf ptr => exact hquiet rfl
    | commit ref => exact hquiet (l.commit_roster space ref)
    | commitAll refs => exact hquiet (l.commitAll_roster space refs)
    | localize ptr len access =>
      cases mine with
      | none => rfl
      | some holder =>
        simp only [given, perform, performIn, Ledger.localize]
        split
        · exact hquiet rfl
        · split
          · rfl
          · exact hquiet rfl
    | localizeAll ranges access =>
      cases mine with
      | none => rfl
      | some holder =>
        simp only [given, perform, performIn, Ledger.localizeAll]
        split
        · exact hquiet rfl
        · split
          · rw [foldl_record]
            simp [Except.toOption, Roster.enter, MemoryOp.clears, Function.comp_def]
          · exact hquiet rfl
    | unlocalize =>
      cases mine with
      | none => rfl
      | some holder =>
        simp [perform, performIn, Ledger.unlocalize, Roster.drain, Ledger.release, given, MemoryOp.clears,
          Roster.enter]

/-- Where no body runs, nothing is given or released. -/
theorem unhoused (l : Ledger) {site : Option Site} (hs : site.bind Site.holder = none) (op : MemoryOp) :
    l.given site op = [] ∧ l.returned site op = 0 := by
  cases site with
  | none => cases op <;> exact ⟨rfl, rfl⟩
  | some site =>
    obtain ⟨space, worker, holder⟩ := site
    obtain rfl : holder = none := hs
    cases op <;> exact ⟨rfl, rfl⟩

/-- What a step does to what is recorded: the current holder is emptied or not, and gets what was given, and of
all that was there or given each is still recorded, or counted as released. -/
structure Booked (mine : Option HolderId) (clears : Bool) (ids : List MappingId) (count : Nat) (l l' : Ledger) :
    Prop where
  handles : ∀ holder, l'.roster.handlesOf holder =
    if mine = some holder then (if clears then [] else l.roster.handlesOf holder) ++ ids
    else l.roster.handlesOf holder
  total : l'.roster.recorded + l'.roster.unlocalized + count = l.roster.recorded + l.roster.unlocalized + ids.length

theorem Booked.of_eq (hr : l'.roster = l.roster) : Booked mine false [] 0 l l' where
  handles holder := by simp [hr]
  total := by rw [hr]; rfl

theorem Booked.perform {site : Option Site} (hh : ∀ holder, site.bind Site.holder = some holder →
    ∃ h, l.roster.holder? holder = some h) (op : MemoryOp) :
    Booked (site.bind Site.holder) op.clears ((l.given site op).map LocalRef.mapping) (l.returned site op) l
      (l.perform site op).2 := by
  have hr := l.roster_perform site op
  cases hmine : site.bind Site.holder with
  | none =>
    obtain ⟨hgiven, hreturned⟩ := l.unhoused hmine op
    rw [hmine] at hr
    rw [hgiven, hreturned]
    exact ⟨fun holder => by rw [hr]; rfl, by rw [hr]; rfl⟩
  | some holder =>
    obtain ⟨h, hholder⟩ := hh holder hmine
    rw [hmine] at hr
    refine ⟨fun other => ?_, ?_⟩
    · rw [hr, Roster.handlesOf_enter hholder]
    · -- only a release by request answers with a count, and that is what was recorded
      have hcount : l.returned site op = if op.clears then h.len else 0 := by
        obtain ⟨site, rfl, hsite⟩ := Option.bind_eq_some_iff.1 hmine
        obtain ⟨space, worker, mine⟩ := site
        obtain rfl : mine = some holder := hsite
        cases op with
        | unlocalize => exact congrArg List.length (Roster.handlesOf_eq hholder)
        | _ => rfl
      have hsum := Roster.recorded_enter hholder op.clears ((l.given site op).map LocalRef.mapping)
      rw [hr, hcount, Roster.unlocalized_enter]
      omega

@[simp] theorem roster_release (l : Ledger) (space : SpaceId) (ids : List MappingId) :
    (l.release space ids).roster = l.roster := rfl

theorem Booked.opened {id : StorageId} {thread : ThreadId} {owner : Option TaskId} {roster : Roster} {s : Storage}
    (ho : l.roster.Opened id thread owner roster) (hs : l.roster.storages[id]? = some s) :
    Booked mine false [] 0 l { l with roster } where
  handles holder := by
    have hsame : roster.handlesOf holder = l.roster.handlesOf holder := by
      obtain ⟨fresh, hfresh, _, hempty, _⟩ := ho.fresh
      by_cases he : holder = l.roster.holders.length + 1
      · subst he
        rw [Roster.handlesOf_eq hfresh, hempty, Roster.handlesOf, l.roster.holder?_fresh]
        rfl
      · exact Roster.handlesOf_congr (ho.holders holder he)
    simp [hsame]
  total := by
    rw [ho.recorded, ho.unlocalized hs]
    rfl

theorem Booked.closed {id : StorageId} {thread : ThreadId} {rest : List HolderId} {roster : Roster} {s : Storage}
    (hc : l.roster.Closed id thread holder rest roster) (hs : l.roster.storages[id]? = some s)
    (hh : l.roster.holder? holder = some h) :
    Booked (some holder) true [] 0 l ({ l with roster }.release space ids) where
  handles other := by
    by_cases he : holder = other
    · subst he
      simp [Roster.handlesOf_eq (hc.holder h hh).1]
    · rw [if_neg fun hsome => he (Option.some.inj hsome)]
      exact Roster.handlesOf_congr (hc.holders other (Ne.symm he))
  total := by
    have hsum := (hc.holder h hh).2
    have hcount := hc.unlocalized hs hh
    simp only [roster_release, List.length_nil]
    omega

theorem Booked.restored (hholders : ∀ holder, l'.roster.holder? holder = l.roster.holder? holder)
    (hrec : l'.roster.recorded = l.roster.recorded) (hcount : l'.roster.unlocalized = l.roster.unlocalized) :
    Booked mine false [] 0 l l' where
  handles holder := by simp [Roster.handlesOf_congr (hholders holder)]
  total := by
    rw [hrec, hcount]
    rfl

end Ledger

/-! ## What steps do to the books -/

/-- The step releases everything that the innermost body of the thread has mapped. -/
def Control.clears : Control σ → Bool
  | .run (.call (.memory op) _) => op.clears
  | .leave _ => true
  | _ => false

/-- The innermost body asks for what it has mapped to be released. -/
def Control.asksRelease : Control σ → Bool
  | .run (.call (.memory .unlocalize) _) => true
  | _ => false

namespace Machine

variable {m m' rest : Machine σ} {k : Nat} {es : TaskId → List Event} {id : ThreadId} {th th' : Thread σ}
  {space : SpaceId} {holder : HolderId} {turns : Turns σ} {choice : Choice}

/-- What the step of a thread gives to its innermost body. -/
def gives (m : Machine σ) (th : Thread σ) : List MappingId :=
  match th.control with
  | .run (.call (.memory op) _) => (m.ledger.given (m.site th) op).map LocalRef.mapping
  | _ => []

/-- How many mappings a body is told that it has released. -/
def returns (m : Machine σ) (th : Thread σ) : Nat :=
  match th.control with
  | .run (.call (.memory op) _) => m.ledger.returned (m.site th) op
  | _ => 0

theorem still_of_touches (ht : th.control.touches = false) :
    th.control.clears = false ∧ m.gives th = [] ∧ m.returns th = 0 := by
  unfold gives returns
  cases hc : th.control with
  | run body =>
    rw [hc] at ht
    cases body <;> first | exact ⟨rfl, rfl, rfl⟩ | cases ht
  | leave => rw [hc] at ht; cases ht
  | _ => exact ⟨rfl, rfl, rfl⟩

/-- A thread works with the holder of its innermost body. -/
theorem Hosts.site (h : m.Hosts k es) (hth : m.threads[id]? = some th) :
    (m.site th).bind Site.holder = th.holder := by
  obtain ⟨rt, hone, _⟩ := h.runtime
  cases hc : th.context with
  | none =>
    have hnested := (h.fits hth).nested
    rw [(h.fits hth).idle hc] at hnested
    simp [Machine.site, hc, show th.holder = none from hnested]
  | some c =>
    obtain ⟨hzero, _⟩ := (h.fits hth).works c hc
    simp [Machine.site, hc, hzero, hone]

theorem closeStorage_booked (m : Machine σ) (storage : StorageId) (mine : Option HolderId) :
    m.ledger.Booked mine false [] 0 (m.closeStorage storage).ledger := by
  refine .restored (fun holder => Roster.holder?_updateStorage ..) rfl ?_
  cases hs : m.ledger.roster.storages[storage]? with
  | none =>
    have hsame : (m.closeStorage storage).ledger.roster.storages = m.ledger.roster.storages :=
      List.modify_eq_self (List.getElem?_eq_none_iff.1 hs)
    rw [Roster.unlocalized, hsame, Roster.unlocalized]
  | some s =>
    have hsum : (m.closeStorage storage).ledger.roster.unlocalized + s.counters.unlocalized =
        m.ledger.roster.unlocalized + s.counters.unlocalized :=
      Roster.unlocalized_modify (f := Storage.close) hs rfl
    exact Nat.add_right_cancel hsum

/-- Each step enters what it gives and what it releases. -/
theorem Hosts.booked (h : m.Hosts k es) (hth : m.threads[id]? = some th) (hm : m.Move id th rest th')
    (hcrash : rest.crash = none) :
    m.ledger.Booked th.holder th.control.clears (m.gives th) (m.returns th) rest.ledger := by
  obtain ⟨space, hist, hsound⟩ := h.sound
  have hkept : ∀ {control : Control σ}, th.control = control → control.touches = false →
      m.ledger.Booked th.holder false [] 0 rest.ledger →
      m.ledger.Booked th.holder th.control.clears (m.gives th) (m.returns th) rest.ledger := by
    rintro _ rfl ht hb
    obtain ⟨hclears, hgives, hreturns⟩ := still_of_touches (m := m) ht
    rwa [hclears, hgives, hreturns]
  have hopened : ∀ {t parent bracket ledger}, th.context.isSome →
      m.ledger.openBracket id id (some t) parent = (.ok bracket, ledger) →
      m.ledger.Booked th.holder false [] 0 ledger := by
    intro t parent bracket ledger hw ho
    obtain ⟨s, hs, hserves⟩ := hsound.exists_storage hth hw
    obtain ⟨roster, hopen, hopened⟩ :=
      Ledger.openBracket_ok hsound.roster hs hserves.owner (hserves.closed hw) (some t) parent
    cases hopen.symm.trans ho
    exact .opened hopened hs
  have hclosed : ∀ {result t bracket below ledger}, th.control = .leave result →
      th.bodies = (t, bracket) :: below → m.ledger.closeBracket id bracket = (.ok (), ledger) →
      m.ledger.Booked th.holder th.control.clears (m.gives th) (m.returns th) ledger := by
    intro result t bracket below ledger hctl hbodies hclose
    obtain ⟨hholder, g, roster, hg, hclosed, rfl⟩ := hsound.of_closeBracket hth hbodies hclose
    obtain ⟨s, hs, _⟩ := hsound.exists_storage_of_body hth (hbodies ▸ List.mem_cons_self)
    simp only [gives, returns, hctl, hholder]
    exact .closed hclosed hs hg
  cases hm with
  | answered hctl ha =>
    cases ha with
    | call r next =>
      cases r with
      | memory op =>
        have hholder : ∀ holder, (m.site th).bind Site.holder = some holder →
            ∃ g, m.ledger.roster.holder? holder = some g := fun holder hh =>
          (hsound.holder hth holder hh).imp fun _ hg => hg.1
        have hb := Ledger.Booked.perform hholder op
        rw [h.site hth] at hb
        simp only [gives, returns, hctl]
        exact hb
      | write ref off bytes =>
        simp only [gives, returns, hctl]
        exact .of_eq (m.ledger.write_roster ref off bytes)
      | _ =>
        simp only [gives, returns, hctl]
        exact .of_eq rfl
    | _ => exact hkept hctl rfl (.of_eq rfl)
  | @ended result hctl | @returned result hctl => cases result <;> exact hkept hctl rfl (.of_eq rfl)
  | launched hctl => exact (h.controlFits hth hctl).2.elim
  | rooted hctl hrt hstorage ho =>
    obtain ⟨hst, hrole, _⟩ := h.controlFits hth hctl
    obtain ⟨rfl, hw⟩ := Thread.base_eq_outside.1 (Thread.base_of_ne (hst.base_ne hrole))
    obtain rfl := hsound.rootStorage hrt hstorage
    exact hkept hctl rfl (hopened hw ho)
  | began hctl _ _ ho =>
    obtain ⟨_, _, rfl, hw, _⟩ := h.controlFits hth hctl
    exact hkept hctl rfl (hopened hw ho)
  | left hctl hf hclose | leftRoot hctl hf hclose => exact hclosed hctl (Thread.bodies_eq hf) hclose
  | delivered ha => rcases ha with hctl | hctl <;> exact hkept hctl rfl (.of_eq rfl)
  | exited hctl => exact hkept hctl rfl (m.closeStorage_booked ..)
  | @closed _ found _ storage hctl =>
    refine hkept hctl rfl ?_
    obtain ⟨left, crash, he⟩ := dropQueues_eq (m.closeStorage storage) (queued found.queues)
    rw [he]
    exact m.closeStorage_booked storage _
  | crashed => cases hcrash
  | _ => exact hkept (by assumption) rfl (.of_eq rfl)

/-! ## The books of a run -/

/-- The thread that takes a turn, as it is before. -/
def taker (turn : Turn (Machine σ) (ThreadId × Choice)) : Option (Thread σ) := turn.before.threads[turn.act.1]?

/-- What the body with a holder has mapped since it began or last asked to release everything. -/
def pending (holder : HolderId) (turns : Turns σ) : List MappingId :=
  turns.foldl (fun ids turn => (taker turn).elim ids fun th =>
    if th.holder = some holder then (if th.control.clears then [] else ids) ++ turn.before.gives th else ids) []

/-- What bodies were told that they had released, all together. -/
def returned (turns : Turns σ) : Nat := Word.total (turns.map fun turn => (taker turn).elim 0 turn.before.returns)

/-- What bodies were given in a run, and what was lost. -/
def historyOf (turns : Turns σ) : History :=
  turns.foldl (fun hist turn => (taker turn).elim hist (hist.next turn.before)) .start

theorem pending_snoc (hth : m.threads[id]? = some th) (holder : HolderId) :
    pending holder (turns ++ [⟨m, (id, choice), m'⟩]) = if th.holder = some holder then
      (if th.control.clears then [] else pending holder turns) ++ m.gives th else pending holder turns := by
  rw [pending, List.foldl_append, List.foldl_cons, List.foldl_nil, taker, hth]
  rfl

theorem returned_snoc (hth : m.threads[id]? = some th) :
    returned (turns ++ [⟨m, (id, choice), m'⟩]) = returned turns + m.returns th := by
  simp [returned, taker, hth, Word.total_append]

theorem historyOf_snoc (hth : m.threads[id]? = some th) :
    historyOf (turns ++ [⟨m, (id, choice), m'⟩]) = (historyOf turns).next m th := by
  rw [historyOf, List.foldl_append, List.foldl_cons, List.foldl_nil, taker, hth]
  rfl

/-- Each reference that is given is obtained by the innermost body. -/
theorem obtained_next (hist : History) (m : Machine σ) (th : Thread σ) :
    (hist.next m th).obtained.length = hist.obtained.length + (m.gives th).length := by
  unfold History.next gives
  cases th.control with
  | run body =>
    cases body with
    | call r next =>
      cases r with
      | memory op =>
        simp only [History.after]
        cases hs : (m.site th).bind Site.holder with
        | none => simp [(m.ledger.unhoused hs op).1]
        | some holder => simp
      | _ => rfl
    | _ => rfl
  | _ => rfl

/-- What is known of the books after some turns. -/
structure Audited (turns : Turns σ) (m : Machine σ) : Prop where
  handles : ∀ holder, m.ledger.roster.handlesOf holder = pending holder turns
  total : m.ledger.roster.recorded + m.ledger.roster.unlocalized + returned turns =
    (historyOf turns).obtained.length

theorem Audited.move (ha : Audited turns m) (h : m.Hosts k es) (hth : m.threads[id]? = some th)
    (hm : m.Move id th rest th') (hcrash : rest.crash = none) (choice : Choice) :
    Audited (turns ++ [⟨m, (id, choice), rest.setThread id th'⟩]) (rest.setThread id th') where
  handles holder := by
    rw [pending_snoc hth, ← ha.handles]
    exact (h.booked hth hm hcrash).handles holder
  total := by
    have hstep : rest.ledger.roster.recorded + rest.ledger.roster.unlocalized + m.returns th =
        m.ledger.roster.recorded + m.ledger.roster.unlocalized + (m.gives th).length :=
      (h.booked hth hm hcrash).total
    have hbefore := ha.total
    rw [returned_snoc hth, historyOf_snoc hth, obtained_next]
    show rest.ledger.roster.recorded + rest.ledger.roster.unlocalized + _ = _
    omega

theorem audited_launched {next : Except BuildError RuntimeId → Body σ} (h : m.Hosts k es) (hl : Launched k next m)
    {turn : Turn (Machine σ) (ThreadId × Choice)}
    (hidle : ∀ th, taker turn = some th → th.control.touches = false) : Audited [turn] m := by
  have hempty : ∀ holder g, m.ledger.roster.holder? holder = some g → g.handles = [] :=
    fun _ _ hg => handles_launched h hl hg
  have hnothing : (∀ holder, pending holder [turn] = []) ∧ returned [turn] = 0 ∧
      (historyOf [turn]).obtained.length = 0 := by
    simp only [pending, returned, historyOf, List.foldl_cons, List.foldl_nil, List.map_cons, List.map_nil]
    cases hth : taker turn with
    | none => exact ⟨fun _ => rfl, rfl, rfl⟩
    | some th =>
      obtain ⟨hclears, hgives, hreturns⟩ := still_of_touches (m := turn.before) (hidle th hth)
      simp only [Option.elim_some, obtained_next, hclears, hgives, hreturns]
      exact ⟨fun holder => by simp, rfl, rfl⟩
  obtain ⟨hpending, hreturned, hobtained⟩ := hnothing
  refine ⟨fun holder => ?_, ?_⟩
  · rw [hpending, Roster.handlesOf]
    cases hg : m.ledger.roster.holder? holder with
    | none => rfl
    | some g => exact hempty holder g hg
  · obtain ⟨space, hstorages⟩ := hl.storages
    have hcount : m.ledger.roster.unlocalized = 0 := by
      rw [Roster.unlocalized, hstorages, List.map_map]
      induction List.range (k + 1) with
      | nil => rfl
      | cons i rest ih => exact (Nat.zero_add _).trans ih
    rw [Roster.recorded_eq_zero hempty, hcount, hreturned, hobtained]

end Machine

/-! ## What is released -/

namespace Ledger

variable {l l' : Ledger} {space : SpaceId} {holder : HolderId} {h : Holder} {ids : List MappingId}

/-- Some mappings of a holder are released: the references to them are refused from now on, nothing else dies, and
what the other holders have is recorded and alive. -/
structure Frees (space : SpaceId) (holder : HolderId) (ids : List MappingId) (l l' : Ledger) : Prop where
  dead : ∀ id ∈ ids, l.Alive space id ∧ ∃ mapping, l'.mapping? ⟨space, id⟩ = some mapping ∧
    mapping.live = false ∧ l'.read ⟨space, id⟩ = .error (.refused (.unlocalized mapping.start))
  spared : ∀ id, id ∉ ids → (l'.Alive space id ↔ l.Alive space id)
  elsewhere : ∀ other : SpaceId, other ≠ space → l'.spaces[other]? = l.spaces[other]?
  emptied : ∃ g, l'.roster.holder? holder = some g ∧ g.handles = []
  kept : ∀ other g, other ≠ holder → l.roster.holder? other = some g →
    l'.roster.holder? other = some g ∧ ∀ id ∈ g.handles, l'.Alive space id

theorem alive_release {roster : Roster} {id : MappingId} :
    ({ l with roster }.release space ids).Alive space id ↔ l.Alive space id ∧ id ∉ ids := by
  constructor
  · rintro ⟨a', ha', halive⟩
    simp only [release, updateSpace, List.getElem?_modify_eq] at ha'
    obtain ⟨a, ha, rfl⟩ := Option.map_eq_some_iff.1 ha'
    rw [Recorder.unlocalizeAll_space, Space.alive_unlocalizeAll] at halive
    exact ⟨⟨a, ha, halive.1⟩, halive.2⟩
  · rintro ⟨⟨a, ha, halive⟩, hnot⟩
    refine ⟨_, spaces_updateSpace ha _, ?_⟩
    rw [Recorder.unlocalizeAll_space]
    exact (a.space.alive_unlocalizeAll ids id).2 ⟨halive, hnot⟩

theorem Frees.release {roster : Roster} (hapart : l.Apart) (hheld : ∀ other, l.Held space other)
    (hh : l.roster.holder? holder = some h) (hself : ∃ g, roster.holder? holder = some g ∧ g.handles = [])
    (hrest : ∀ other, other ≠ holder → roster.holder? other = l.roster.holder? other) :
    Frees space holder h.handles l ({ l with roster }.release space h.handles) where
  dead id hin := by
    obtain ⟨hnodup, halive⟩ := hheld holder h hh
    obtain ⟨a, ha, mapping, hm, hl⟩ := halive id hin
    have htidy := Recorder.tidy_unlocalizeAll (a := a) hnodup fun other hother => by
      obtain ⟨b, hb, hlive⟩ := halive other hother
      cases ha.symm.trans hb
      exact hlive
    obtain ⟨mapping', hm', _⟩ := htidy.fades id mapping hm
    have ha' : ({ l with roster }.release space h.handles).spaces[space]? = some _ := spaces_updateSpace ha _
    have hdead : mapping'.live = false := Bool.eq_false_iff.2 fun hlive =>
      (alive_release.1 ⟨_, ha', mapping', hm', hlive⟩).2 hin
    refine ⟨⟨a, ha, mapping, hm, hl⟩, mapping', ?_, hdead, ?_⟩
    · simp [Ledger.mapping?, ha', hm']
    · simp [Ledger.read, ha', Space.read, hm', hdead]
  spared id hnot := alive_release.trans (and_iff_left hnot)
  elsewhere other hne := by
    rw [Ledger.release, updateSpace, List.getElem?_modify_ne _ _ hne.symm]
  emptied := hself
  kept other g hne hg := by
    refine ⟨(hrest other hne).trans hg, fun id hin => alive_release.2 ⟨(hheld other g hg).2 id hin, fun hin' => ?_⟩⟩
    exact hne (hapart other holder g h hg hh id hin hin')

end Ledger

namespace Machine

variable {m m' rest : Machine σ} {k : Nat} {es : TaskId → List Event} {id : ThreadId} {th th' : Thread σ}
  {space : SpaceId} {holder : HolderId} {turns : Turns σ} {choice : Choice}

/-- The holder is that of the innermost body of a thread, and of no body that waits below it or runs elsewhere. -/
structure Innermost (m : Machine σ) (id : ThreadId) (th : Thread σ) (holder : HolderId) : Prop where
  current : th.holder = some holder
  top : ∃ below, th.stack = holder :: below ∧ holder ∉ below
  alone : ∀ (other : ThreadId) (x : Thread σ), other ≠ id → m.threads[other]? = some x → holder ∉ x.stack

theorem Hosts.innermost (h : m.Hosts k es) (hth : m.threads[id]? = some th) (hh : th.holder = some holder) :
    m.Innermost id th holder := by
  have hhead := (h.fits hth).nested.head?.symm.trans hh
  obtain ⟨below, hstack⟩ := List.head?_eq_some_iff.1 hhead
  have hnodup := h.nodup_stack hth
  refine ⟨hh, ⟨below, hstack, ?_⟩, fun other x hne hx hin => hne ?_⟩
  · rw [show th.stack = _ from hstack] at hnodup
    exact (List.nodup_cons.1 hnodup).1
  · exact h.stacks_apart hth hx (h.mem_stack hth hh) hin

theorem Hosts.advance_eq (h : m.Hosts k es) (hth : m.threads[id]? = some th) (choice : Choice) :
    advance m (id, choice) = m.stepThread id th choice := by
  simp [advance, Machine.step, h.crash, hth]

/-- What a step releases, of all that was given to its thread's innermost body. -/
structure Releasing (turns : Turns σ) (m : Machine σ) (id : ThreadId) (th : Thread σ) (holder : HolderId)
    (m' : Machine σ) : Prop where
  innermost : m.Innermost id th holder
  frees : ∃ rt, m.runtimes = [rt] ∧ m.ledger.Frees rt.space holder (pending holder turns) m'.ledger

/-- A body that asks for it releases what it has, and is told how much that was; it stays registered. -/
theorem Hosts.unlocalize (h : m.Hosts k es) (hn : m.Neat space) (ha : Audited turns m)
    (hth : m.threads[id]? = some th) {next : Except Fault Nat → Body σ}
    (hctl : th.control = .run (.call (.memory .unlocalize) next)) (hh : th.holder = some holder)
    (choice : Choice) :
    ∃ m', advance m (id, choice) = some m' ∧ Releasing turns m id th holder m' ∧
      m'.threads[id]? = some (th.continueWith (next (.ok (pending holder turns).length))) ∧
      m'.ledger.roster.storages = m.ledger.roster.storages ∧
      ∃ g, m'.ledger.roster.holder? holder = some g ∧ g.registeredOn = some id := by
  obtain ⟨rt, hone, _⟩ := h.runtime
  obtain ⟨space', hist, hsound⟩ := h.sound
  have hspace : rt.space = space := hn.spaces rt (by simp [hone])
  obtain ⟨body, hbody, rfl⟩ := List.mem_map.1 (h.mem_stack hth hh)
  obtain ⟨_, s, g, hs, _, _, hg, _, hon⟩ := hsound.housed hth hbody
  have hhandles : g.handles = pending body.2.holder turns := (Roster.handlesOf_eq hg).symm.trans (ha.handles _)
  obtain ⟨site, hsite, hmine⟩ := Option.bind_eq_some_iff.1 ((h.site hth).trans hh)
  obtain ⟨other, worker, mine⟩ := site
  obtain rfl : mine = some body.2.holder := hmine
  obtain rfl : other = space := (hsound.site _ hsite).trans
    ((hsound.runtimes rt (by simp [hone])).2.1.symm.trans hspace)
  have hanswer : m.answer th (.memory .unlocalize) = (.ok (pending body.2.holder turns).length,
      { m.ledger with roster := m.ledger.roster.updateHolder body.2.holder fun h => { h with handles := [] } }.release
        other (pending body.2.holder turns)) := by
    simp only [answer, hsite, Ledger.perform, Ledger.performIn, Ledger.unlocalize, Roster.drain, hg, Option.map_some,
      Option.getD_some, hhandles]
  have hself : (m.ledger.roster.updateHolder body.2.holder fun h => { h with handles := [] }).holder? body.2.holder =
      some { g with handles := [] } := by
    rw [Roster.holder?_updateHolder, if_pos rfl, hg]
    rfl
  have hstep : advance m (id, choice) =
      some ({ m with ledger := (m.answer th (.memory .unlocalize)).2 }.setThread id
        (th.continueWith (next (m.answer th (.memory .unlocalize)).1))) := by
    rw [h.advance_eq hth]
    simp only [stepThread, hctl, runBody]
  rw [hanswer] at hstep
  refine ⟨_, hstep, ⟨h.innermost hth hh, rt, hone, ?_⟩, ?_, ?_, ?_⟩
  · rw [hspace, ← hhandles]
    exact .release hn.apart hn.held hg ⟨_, hself, rfl⟩ fun other hne =>
      (Roster.holder?_updateHolder ..).trans (if_neg hne.symm)
  · exact List.getElem?_set_self (List.getElem?_eq_some_iff.1 hth).1
  · exact Roster.storages_updateHolder ..
  · exact ⟨_, hself, hon⟩

/-- A body that ends releases what it has, and its storage counts that. -/
theorem Hosts.leave (h : m.Hosts k es) (hn : m.Neat space) (ha : Audited turns m)
    (hth : m.threads[id]? = some th) {result : Except Payload Value} (hctl : th.control = .leave result)
    (hh : th.holder = some holder) (choice : Choice) :
    ∃ m', advance m (id, choice) = some m' ∧ Releasing turns m id th holder m' ∧
      m'.ledger.Emptied holder ∧ (∀ other : StorageId, other ≠ id →
        m'.ledger.roster.storages[other]? = m.ledger.roster.storages[other]?) ∧
      ∃ s s', m.ledger.roster.storages[id]? = some s ∧ m'.ledger.roster.storages[id]? = some s' ∧
        s'.counters.unlocalized = s.counters.unlocalized + (pending holder turns).length := by
  obtain ⟨rt, hone, _⟩ := h.runtime
  obtain ⟨space', hist, hsound⟩ := h.sound
  have hspace : rt.space = space' := (hsound.runtimes rt (by simp [hone])).2.1
  obtain rfl : space' = space := hspace.symm.trans (hn.spaces rt (by simp [hone]))
  have hclosing : ∀ {t bracket below outer frames control}, th.bodies = (t, bracket) :: below →
      advance m (id, choice) = some (m.closeBracket id th bracket outer frames control) →
      ∃ m', advance m (id, choice) = some m' ∧ Releasing turns m id th holder m' ∧
        m'.ledger.Emptied holder ∧ (∀ other : StorageId, other ≠ id →
          m'.ledger.roster.storages[other]? = m.ledger.roster.storages[other]?) ∧
        ∃ s s', m.ledger.roster.storages[id]? = some s ∧ m'.ledger.roster.storages[id]? = some s' ∧
          s'.counters.unlocalized = s.counters.unlocalized + (pending holder turns).length := by
    intro t bracket below outer frames control hbodies hstep
    obtain ⟨hholder, g, roster, hg, hclosed, hclose⟩ := hsound.closeBracket_ok hth hbodies
    obtain rfl := Option.some.inj (hholder.symm.trans hh)
    obtain ⟨s, hs, _⟩ := hsound.exists_storage_of_body hth (hbodies ▸ List.mem_cons_self)
    obtain ⟨s', hs', _⟩ := hclosed.storage s hs
    have hhandles : g.handles = pending bracket.holder turns := (Roster.handlesOf_eq hg).symm.trans (ha.handles _)
    simp only [Machine.closeBracket, hclose] at hstep
    refine ⟨_, hstep, ⟨h.innermost hth hh, rt, hone, ?_⟩, ⟨_, (hclosed.holder g hg).1, rfl, rfl⟩, hclosed.rest,
      s, s', hs, hs', ?_⟩
    · rw [hspace, ← hhandles]
      exact .release hn.apart hn.held hg ⟨_, (hclosed.holder g hg).1, rfl⟩ hclosed.holders
    · rw [hclosed.released s s' g hs hs' hg, Holder.len, hhandles]
  have hst : Stacked (th.base id) false th.frames := h.controlFits hth hctl
  have hbodies : th.bodies ≠ [] := fun he => by
    have hin := h.mem_stack hth hh
    rw [Thread.stack, he] at hin
    cases hin
  cases hf : th.frames with
  | nil => exact absurd (Thread.bodies_eq hf) hbodies
  | cons frame frames =>
    have hstep := h.advance_eq hth choice
    simp only [stepThread, hctl, hf] at hstep
    rw [hf] at hst
    cases hst <;> exact hclosing (Thread.bodies_eq hf) hstep

/-! ## Runs -/

variable {hist : History} {e : HolderId × LocalRef}

theorem mem_obtained_next (he : e ∈ (hist.next m th).obtained) :
    e ∈ hist.obtained ∨ (m.site th).bind Site.holder = some e.1 ∧ e.2.mapping ∈ m.gives th := by
  unfold History.next at he
  unfold gives
  generalize th.control = control at he ⊢
  split at he
  · rename_i op _
    unfold History.after at he
    refine (List.mem_append.1 he).imp_right fun he => ?_
    cases hs : (m.site th).bind Site.holder with
    | none => rw [hs] at he; cases he
    | some holder =>
      rw [hs] at he
      obtain ⟨ref, href, rfl⟩ := List.mem_map.1 he
      exact ⟨rfl, List.mem_map_of_mem href⟩
  · exact .inl he

/-- What is known after some turns of a run, from its launch on. -/
structure Balancing (k : Nat) (space : SpaceId) (turns : Turns σ) (m : Machine σ) : Prop where
  hosts : ∃ es, m.Hosts k es
  sound : ∃ space, m.Sound (k + 1) space (historyOf turns)
  neat : m.Neat space
  audited : Audited turns m
  spends : Spends space turns m
  /-- What was given is recorded still, or it was released once. -/
  owed : ∀ e ∈ (historyOf turns).obtained,
    e.2.mapping ∈ m.ledger.roster.handlesOf e.1 ∨ ReleasedOnce turns space e.2.mapping

theorem Balancing.step {act : ThreadId × Choice} (hb : Balancing k space turns m) (hs : advance m act = some m') :
    Balancing k space (turns ++ [⟨m, act, m'⟩]) m' := by
  obtain ⟨es, h⟩ := hb.hosts
  obtain ⟨space', hsound⟩ := hb.sound
  obtain ⟨id, choice⟩ := act
  obtain ⟨th, rest, th', hth, hm, rfl, h'⟩ := h.step hs
  have hcrash : rest.crash = none := h'.crash
  have hspends := hb.spends.move hb.neat h hth hm hcrash choice
  have haudited := hb.audited.move h hth hm hcrash choice
  refine ⟨⟨_, h'⟩, ⟨space', ?_⟩, hb.neat.move h hth hm hcrash, haudited, hspends, fun e he => ?_⟩
  · rw [historyOf_snoc hth]
    exact hsound.step hth hs
  · rw [historyOf_snoc hth] at he
    rcases mem_obtained_next he with he | ⟨hmine, hgiven⟩
    · rcases hb.owed e he with hin | honce
      · -- what was recorded before this turn is recorded after it, or this turn has released it
        obtain ⟨g, hg, hin⟩ : ∃ g, m.ledger.roster.holder? e.1 = some g ∧ e.2.mapping ∈ g.handles := by
          unfold Roster.handlesOf at hin
          cases hg : m.ledger.roster.holder? e.1 with
          | none => rw [hg] at hin; cases hin
          | some g => exact ⟨g, rfl, by rwa [hg] at hin⟩
        refine (hspends.spent _ (List.mem_append_right _ List.mem_cons_self) e.1 g hg _ hin).imp_left ?_
        rintro ⟨g', hg', hin'⟩
        rwa [Roster.handlesOf_eq hg']
      · exact .inr (hb.spends.once honce _ _)
    · left
      rw [haudited.handles, pending_snoc hth, if_pos ((h.site hth).symm.trans hmine)]
      exact List.mem_append_right _ hgiven

variable {parallelism : Nat} {spaces : List Recorder} {shared : σ} {settings : Settings} {given : Option SpaceId}
  {next : Except BuildError RuntimeId → Body σ} {config : Config}

theorem balancing_launched (h : Launches parallelism spaces settings given config)
    (hnext : (next (.ok 0)).Allowed .outside)
    (hs : advance (start parallelism spaces shared (.build settings given next)) (0, choice) = some m)
    (hm : m = (start parallelism spaces shared (.build settings given next)).launch 0
      (.plain (.build settings given next)) config given next) :
    ∃ space, Balancing config.poolSize space
      [⟨start parallelism spaces shared (.build settings given next), (0, choice), m⟩] m := by
  have hhosts := hosts_launch h hnext shared (.build settings given next)
  rw [← hm] at hhosts
  have hlaunched : Launched config.poolSize next m := hm ▸ (launched_launch ..).1
  obtain ⟨space, hneat⟩ := neat_launched hhosts hlaunched
  have hth : (start parallelism spaces shared (.build settings given next)).threads[0]? =
      some (.plain (.build settings given next)) := rfl
  have hkept : ∀ (other : SpaceId) a, spaces[other]? = some a → m.ledger.spaces[other]? = some a := by
    intro other a ha
    have hlt := (List.getElem?_eq_some_iff.1 ha).1
    subst hm
    cases given with
    | some space => simpa only [launch, start, addStorages_append] using ha
    | none =>
      simp only [launch, start, Ledger.addSpace, addStorages_append]
      rw [List.getElem?_append_left hlt, ha]
  refine ⟨space, ⟨_, hhosts⟩, (step_start h hnext hth hs).imp fun _ hs => hs.1, hneat,
    audited_launched hhosts hlaunched fun th ht => ?_, ⟨?_, ?_, ?_⟩, fun e he => ?_⟩
  · cases hth.symm.trans ht
    rfl
  · rintro turn hturn handle ⟨⟨a, ha, halive⟩, hgone⟩
    cases List.mem_singleton.1 hturn
    exact (hgone ⟨a, hkept space a ha, halive⟩).elim
  · intro turn hturn holder g hg
    cases List.mem_singleton.1 hturn
    cases (Roster.holder?_nil [] holder).symm.trans hg
  · intro turn hturn a ha
    cases List.mem_singleton.1 hturn
    exact ⟨a, hkept space a ha, .refl a⟩
  · cases he

/-- The balance of a run: each mapping that was given is counted as released by a storage, was counted by a body that
asked to release what it had, or is recorded, and none of them is released twice. What a space counts as live is what is
recorded and what was lost, so together they make up what was given just when nothing was lost. -/
structure Balanced (turns : Turns σ) (m : Machine σ) : Prop where
  given : (historyOf turns).obtained.length =
    m.ledger.roster.unlocalized + returned turns + m.ledger.roster.registeredLen
  live : ∀ rt ∈ m.runtimes, ∃ a, m.ledger.spaces[rt.space]? = some a ∧
    AddressSpace.liveMappings a = Word.wrap (m.ledger.roster.registeredLen + (historyOf turns).lost) ∧
    ((historyOf turns).obtained.length < Word.bound → ((historyOf turns).obtained.length =
      m.ledger.roster.unlocalized + returned turns + AddressSpace.liveMappings a ↔
        Word.bound ∣ (historyOf turns).lost))
  once : ∀ rt ∈ m.runtimes, ∀ e ∈ (historyOf turns).obtained,
    e.2.mapping ∈ pending e.1 turns ∨ ReleasedOnce turns rt.space e.2.mapping

theorem Balancing.balanced (hb : Balancing k space turns m) : Balanced turns m := by
  obtain ⟨space', hsound⟩ := hb.sound
  obtain ⟨a, ha, htally⟩ := hsound.tally
  have hlen := Roster.registeredLen_eq htally.empty
  have htotal := hb.audited.total
  have hgiven : (historyOf turns).obtained.length =
      m.ledger.roster.unlocalized + returned turns + m.ledger.roster.registeredLen := by omega
  refine ⟨hgiven, fun rt hrt => ?_, fun rt hrt e he => ?_⟩
  · obtain ⟨a, ha, hlive, hiff⟩ := hsound.counted hrt
    refine ⟨a, ha, hlive, fun hroom => ?_⟩
    have hsmall : Word.wrap m.ledger.roster.registeredLen = m.ledger.roster.registeredLen :=
      Nat.mod_eq_of_lt (by omega)
    rw [← hiff, hsmall]
    omega
  · rw [hb.neat.spaces rt hrt, ← hb.audited.handles]
    exact hb.owed e he

/-- Whatever bodies there are in a run, and however workers take turns: a body that asks for it releases just what it
was given since it began or last asked, and is told how much that is; a body that ends releases just what it has left;
and the books balance. -/
theorem run_releases (h : Launches parallelism spaces settings given config) (hnext : (next (.ok 0)).Allowed .outside)
    {schedule : List (ThreadId × Choice)} {turns : Turns σ}
    (hrun : trail advance (start parallelism spaces shared (.build settings given next)) schedule = some (turns, m)) :
    (∀ holder, m.ledger.roster.holder? holder = none → pending holder turns = []) ∧
    (∀ (id : ThreadId) (th : Thread σ) (holder : HolderId) (goesOn : Except Fault Nat → Body σ) (choice : Choice),
      m.threads[id]? = some th → th.control = .run (.call (.memory .unlocalize) goesOn) → th.holder = some holder →
      ∃ m', advance m (id, choice) = some m' ∧ Releasing turns m id th holder m' ∧
        m'.threads[id]? = some (th.continueWith (goesOn (.ok (pending holder turns).length))) ∧
        m'.ledger.roster.storages = m.ledger.roster.storages ∧
        ∃ g, m'.ledger.roster.holder? holder = some g ∧ g.registeredOn = some id) ∧
    (∀ (id : ThreadId) (th : Thread σ) (holder : HolderId) (result : Except Payload Value) (choice : Choice),
      m.threads[id]? = some th → th.control = .leave result → th.holder = some holder →
      ∃ m', advance m (id, choice) = some m' ∧ Releasing turns m id th holder m' ∧ m'.ledger.Emptied holder ∧
        (∀ other : StorageId, other ≠ id →
          m'.ledger.roster.storages[other]? = m.ledger.roster.storages[other]?) ∧
        ∃ s s', m.ledger.roster.storages[id]? = some s ∧ m'.ledger.roster.storages[id]? = some s' ∧
          s'.counters.unlocalized = s.counters.unlocalized + (pending holder turns).length) ∧
    Balanced turns m := by
  rcases launch_run h hrun with ⟨rfl, rfl⟩ | ⟨choice, launched, rest, later, hlaunched, hstep, hrest, rfl⟩
  · have hcontrol : ∀ (id : ThreadId) (th : Thread σ),
        (start parallelism spaces shared (.build settings given next)).threads[id]? = some th →
        th.control = .run (.build settings given next) := by
      intro id th hth
      cases id with
      | zero =>
        cases hth
        rfl
      | succ id => cases hth
    refine ⟨fun _ _ => rfl, fun id th _ _ _ hth hctl => ?_, fun id th _ _ _ hth hctl => ?_, rfl, fun rt hrt => ?_,
      fun rt hrt => ?_⟩
    · cases (hcontrol id th hth).symm.trans hctl
    · cases (hcontrol id th hth).symm.trans hctl
    · cases hrt
    · cases hrt
  · obtain ⟨space, hfirst⟩ := balancing_launched h hnext hstep hlaunched
    have hb : Balancing config.poolSize space _ m :=
      trail_induction_from (P := Balancing config.poolSize space) (fun _ _ _ _ hb hs => hb.step hs) hfirst hrest
    obtain ⟨es, hhosts⟩ := hb.hosts
    refine ⟨fun holder hnone => ?_, fun id th holder goesOn choice hth hctl hh => ?_,
      fun id th holder result choice hth hctl hh => ?_, hb.balanced⟩
    · rw [← List.singleton_append, ← hb.audited.handles, Roster.handlesOf, hnone]
      rfl
    · exact hhosts.unlocalize hb.neat hb.audited hth hctl hh choice
    · exact hhosts.leave hb.neat hb.audited hth hctl hh choice

/-- Maps two ranges at once, which panics at the second, then one range, releases what it has, and maps again. -/
def forgetting : Body Unit :=
  .call (.memory (.alloc 8 8)) fun
  | .ok first =>
    .call (.memory (.alloc 18446744073709527040 9223372036854775808)) fun _ =>
    .call (.memory (.alloc 8192 8192)) fun
    | .ok last =>
      .call (.memory (.localizeAll [⟨first, 8⟩, ⟨last, 8⟩] .readOnly)) fun _ =>
      .call (.memory (.localize first 8 .readOnly)) fun _ =>
      .call (.memory .unlocalize) fun _ =>
      .call (.memory (.localize first 8 .readOnly)) fun _ => .finish .none
    | .error _ => .finish .none
  | .error _ => .finish .none

theorem forgetting_allowed : forgetting.Allowed .root := by
  rintro (_ | first)
  · trivial
  · rintro _ (_ | last)
    · trivial
    · exact fun _ _ _ _ => trivial

/-- That body is told that it has released one mapping, and its end releases one. The mapping that the panic left is
forgotten: two were given, and one is live. -/
theorem run_releases_forgetting :
    let next : Except BuildError RuntimeId → Body Unit := fun _ => .blockOn 0 forgetting fun _ => .finish .none
    let schedule (n : Nat) : List (ThreadId × Choice) := List.replicate n (0, ⟨false, 0, .nothing⟩)
    (∃ turns m th m', trail advance (start 1 [] () (.build (Settings.new .localOnly) none next)) (schedule 7) =
        some (turns, m) ∧ m.threads[0]? = some th ∧ pending 1 turns = [1] ∧
      advance m (0, ⟨false, 0, .nothing⟩) = some m' ∧ Releasing turns m 0 th 1 m') ∧
    ∃ turns m, trail advance (start 1 [] () (.build (Settings.new .localOnly) none next)) (schedule 11) =
        some (turns, m) ∧ Balanced turns m ∧ (historyOf turns).obtained.length = 2 ∧ returned turns = 1 ∧
      m.ledger.roster.unlocalized = 1 ∧ m.ledger.spaces.map AddressSpace.liveMappings = [1] := by
  intro next schedule
  have hlaunches : Launches 1 [] (Settings.new .localOnly) none
      { flavor := .localOnly, workerThreads := 1, naming := .numbered, stackSize := none, interval := 31
        retries := 3, space := Space.new 1 } :=
    ⟨rfl, rfl, by simp, by simp, by simp [Settings.new]⟩
  have hnext : (next (.ok 0)).Allowed .outside := ⟨by decide, rfl, forgetting_allowed, fun _ => trivial⟩
  refine ⟨?_, ?_⟩
  · have hshown : ((trail advance (start 1 [] () (.build (Settings.new .localOnly) none next)) (schedule 7)).map
        fun run => (run.2.threads[0]?.map fun th => (th.holder, th.control.asksRelease), pending 1 run.1)) =
          some (some (some 1, true), [1]) := by decide
    obtain ⟨⟨turns, m⟩, hrun, hshown⟩ := Option.map_eq_some_iff.1 hshown
    simp only [Prod.mk.injEq] at hshown
    obtain ⟨hthread, hpending⟩ := hshown
    obtain ⟨th, hth, hthread⟩ := Option.map_eq_some_iff.1 hthread
    simp only [Prod.mk.injEq] at hthread
    obtain ⟨hholder, hcontrol⟩ := hthread
    unfold Control.asksRelease at hcontrol
    split at hcontrol
    · rename_i goesOn hctl
      obtain ⟨m', hs, hreleasing, _⟩ :=
        (run_releases hlaunches hnext hrun).2.1 0 th 1 goesOn ⟨false, 0, .nothing⟩ hth hctl hholder
      exact ⟨turns, m, th, m', hrun, hth, hpending, hs, hreleasing⟩
    · cases hcontrol
  · have hshown : ((trail advance (start 1 [] () (.build (Settings.new .localOnly) none next)) (schedule 11)).map
        fun run => ((historyOf run.1).obtained.length, returned run.1, run.2.ledger.roster.unlocalized,
          run.2.ledger.spaces.map AddressSpace.liveMappings)) = some (2, 1, 1, [1]) := by decide
    obtain ⟨⟨turns, m⟩, hrun, hshown⟩ := Option.map_eq_some_iff.1 hshown
    simp only [Prod.mk.injEq] at hshown
    exact ⟨turns, m, hrun, (run_releases hlaunches hnext hrun).2.2.2, hshown⟩

end Machine

end TaskSpace

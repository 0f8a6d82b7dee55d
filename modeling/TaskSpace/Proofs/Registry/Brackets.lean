import TaskSpace.Proofs.Registry.Stacks

/-!
# What brackets do to the registries

Opening a bracket puts a fresh holder on the stack of a storage, and closing it takes the holder on
top away and empties it. Neither touches another holder or another storage.
-/

namespace TaskSpace

variable {id : StorageId} {thread : ThreadId} {owner : Option TaskId} {s : Storage} {h : Holder}
  {holder top : HolderId}

structure Storage.Restacked (s : Storage) (thread : ThreadId) (stack : List HolderId) (s' : Storage) :
    Prop where
  worker : s'.worker = s.worker
  space : s'.space = s.space
  closed : s'.closed = s.closed
  owner : s'.owner = some thread
  stack : s'.stack = stack

theorem Storage.owner_bind (ho : s.owner.getD thread = thread) : (s.bind thread).owner = some thread := by
  unfold Storage.bind
  cases hs : s.owner with
  | none => rfl
  | some owner => rw [hs] at ho; exact congrArg some ho

namespace Roster

variable {r r' : Roster}

/-- How many handles are recorded, in all holders together. -/
def recorded (r : Roster) : Nat := Word.total (r.holders.map Holder.len)

theorem total_modify {α : Type} {l : List α} {place : Nat} {a : α} (ha : l[place]? = some a)
    (f : α → α) (g : α → Nat) :
    Word.total ((l.modify place f).map g) + g a = Word.total (l.map g) + g (f a) := by
  induction l generalizing place with
  | nil => cases ha
  | cons head rest ih =>
    cases place with
    | zero =>
      simp only [List.getElem?_cons_zero, Option.some.injEq] at ha
      subst ha
      simp only [List.modify_zero_cons, List.map_cons, Word.total_cons]
      omega
    | succ place =>
      rw [List.getElem?_cons_succ] at ha
      have := ih ha
      simp only [List.modify_succ_cons, List.map_cons, Word.total_cons]
      omega

theorem recorded_updateHolder (hh : r.holder? holder = some h) (f : Holder → Holder) :
    (r.updateHolder holder f).recorded + h.len = r.recorded + (f h).len := by
  cases holder with
  | zero => cases hh
  | succ place => exact total_modify hh f Holder.len

@[simp] theorem recorded_updateStorage (r : Roster) (id : StorageId) (f : Storage → Storage) :
    (r.updateStorage id f).recorded = r.recorded := rfl

/-! ## A fresh holder -/

theorem holder?_addHolder (r : Roster) (owner : Option TaskId) (other : HolderId) :
    (r.addHolder owner).2.holder? other =
      if other = r.holders.length + 1 then some (Holder.fresh owner) else r.holder? other := by
  cases other with
  | zero => rfl
  | succ place =>
    simp only [addHolder, holder?]
    rcases Nat.lt_trichotomy place r.holders.length with hlt | rfl | hgt
    · have hne := Nat.ne_of_lt hlt
      simp [List.getElem?_append_left hlt, hne]
    · simp
    · have hne := Nat.ne_of_gt hgt
      have hle := Nat.le_of_lt hgt
      have hlen : (r.holders ++ [Holder.fresh owner]).length ≤ place := by simpa using Nat.succ_le_of_lt hgt
      rw [if_neg (fun he => hne (Nat.succ.inj he)), List.getElem?_eq_none hlen,
        List.getElem?_eq_none hle]

theorem holder?_fresh (r : Roster) : r.holder? (r.holders.length + 1) = none :=
  List.getElem?_eq_none (Nat.le_refl _)

theorem ne_fresh (hh : r.holder? holder = some h) : holder ≠ r.holders.length + 1 := by
  rintro rfl
  cases r.holder?_fresh.symm.trans hh

theorem markOf_addHolder (r : Roster) (owner : Option TaskId) (other : HolderId) :
    (r.addHolder owner).2.markOf other = r.markOf other := by
  unfold markOf
  rw [holder?_addHolder]
  split
  · rename_i he
    rw [he, holder?_fresh]
    rfl
  · rfl

theorem recorded_addHolder (r : Roster) (owner : Option TaskId) :
    (r.addHolder owner).2.recorded = r.recorded := by
  unfold Roster.recorded
  rw [addHolder, List.map_append, Word.total_append]
  rfl

theorem Sound.addHolder (hr : r.Sound) (owner : Option TaskId) : (r.addHolder owner).2.Sound := by
  refine ⟨hr.worker, hr.linked, ?_, ?_, hr.disjoint⟩ <;> simp only [markOf_addHolder]
  · exact hr.marked
  · exact hr.stacked

/-! ## Registering and deregistering -/

theorem updateHolder_updateHolder (r : Roster) (id : HolderId) (f g : Holder → Holder) :
    (r.updateHolder id f).updateHolder id g = r.updateHolder id (g ∘ f) := by
  cases id with
  | zero => rfl
  | succ place => simp only [updateHolder, List.modify_modify_eq]

theorem storage_bind_updateStorage (r : Roster) (id : StorageId) (thread : ThreadId) (holder : HolderId)
    (f : Holder → Holder) (g : Storage → Storage) :
    ((r.updateStorage id (·.bind thread)).updateHolder holder f).updateStorage id g =
      (r.updateHolder holder f).updateStorage id fun s => g (s.bind thread) := by
  rw [updateHolder_updateStorage]
  simp only [updateStorage, List.modify_modify_eq]
  rfl

/-- A holder that is on no stack is put on one that the thread may use and that is not closed. -/
theorem register_eq (hs : r.storages[id]? = some s) (hh : r.holder? holder = some h)
    (hm : h.mark = Holder.unregistered) (ho : s.owner.getD thread = thread) (hc : s.closed = false) :
    r.register id thread holder = (.ok (), (r.updateHolder holder fun h =>
      { h with mark := s.worker }).updateStorage id fun s => (s.bind thread).push holder) := by
  simp only [Roster.register, hs, hh, checkThread_eq hs, ho, if_true, hc, hm, ne_eq, not_true_eq_false,
    Bool.false_eq_true, if_false]
  rw [storage_bind_updateStorage]

/-- The roster after a fresh holder was put on the stack of a storage. -/
structure Opened (r : Roster) (id : StorageId) (thread : ThreadId) (owner : Option TaskId)
    (r' : Roster) : Prop where
  sound : r'.Sound
  storage : ∀ s, r.storages[id]? = some s → ∃ s', r'.storages[id]? = some s' ∧
    s.Restacked thread ((r.holders.length + 1) :: s.stack) s'
  counted : ∀ s s', r.storages[id]? = some s → r'.storages[id]? = some s' →
    s'.counters.registered = s.counters.registered + 1 ∧ s'.counters.deregistered = s.counters.deregistered
  unreleased : ∀ s s', r.storages[id]? = some s → r'.storages[id]? = some s' →
    s'.counters.unlocalized = s.counters.unlocalized
  rest : ∀ other : StorageId, other ≠ id → r'.storages[other]? = r.storages[other]?
  storages : r'.storages.length = r.storages.length
  fresh : ∃ h, r'.holder? (r.holders.length + 1) = some h ∧ h.owner = owner ∧ h.handles = [] ∧
    h.mark ≠ Holder.unregistered
  holders : ∀ other, other ≠ r.holders.length + 1 → r'.holder? other = r.holder? other
  recorded : r'.recorded = r.recorded

/-- The roster after the holder on top of the stack of a storage was taken away. -/
structure Closed (r : Roster) (id : StorageId) (thread : ThreadId) (top : HolderId)
    (rest : List HolderId) (r' : Roster) : Prop where
  sound : r'.Sound
  storage : ∀ s, r.storages[id]? = some s → ∃ s', r'.storages[id]? = some s' ∧
    s.Restacked thread rest s'
  counted : ∀ s s', r.storages[id]? = some s → r'.storages[id]? = some s' →
    s'.counters.registered = s.counters.registered ∧ s'.counters.deregistered = s.counters.deregistered + 1
  released : ∀ s s' h, r.storages[id]? = some s → r'.storages[id]? = some s' → r.holder? top = some h →
    s'.counters.unlocalized = s.counters.unlocalized + h.len
  rest : ∀ other : StorageId, other ≠ id → r'.storages[other]? = r.storages[other]?
  storages : r'.storages.length = r.storages.length
  holder : ∀ h, r.holder? top = some h →
    r'.holder? top = some { h with mark := Holder.unregistered, handles := [] } ∧
      r'.recorded + h.len = r.recorded
  holders : ∀ other, other ≠ top → r'.holder? other = r.holder? other

/-- Every holder is one of before, with its owner, and as registered as before or not any more. -/
theorem Closed.exists_before {rest : List HolderId} {g : Holder} (hc : r.Closed id thread top rest r')
    (ht : r.holder? top = some h) (hg : r'.holder? holder = some g) :
    ∃ old, r.holder? holder = some old ∧ old.owner = g.owner ∧
      (old.mark = Holder.unregistered → g.mark = Holder.unregistered) := by
  by_cases he : holder = top
  · subst he
    cases (hc.holder h ht).1.symm.trans hg
    exact ⟨h, ht, rfl, fun _ => rfl⟩
  · exact ⟨g, hc.holders holder he ▸ hg, rfl, fun hm => hm⟩

theorem Closed.exists_after {rest : List HolderId} {old : Holder} (hc : r.Closed id thread top rest r')
    (ht : r.holder? top = some h) (ho : r.holder? holder = some old) :
    ∃ g, r'.holder? holder = some g ∧ g.owner = old.owner := by
  by_cases he : holder = top
  · subst he
    cases ht.symm.trans ho
    exact ⟨_, (hc.holder h ht).1, rfl⟩
  · exact ⟨old, (hc.holders holder he).trans ho, rfl⟩

theorem Sound.opened (hr : r.Sound) (hs : r.storages[id]? = some s) (owner : Option TaskId)
    (ho : s.owner.getD thread = thread) (hc : s.closed = false) :
    ∃ r', (r.addHolder owner).2.register id thread (r.holders.length + 1) = (.ok (), r') ∧
      r.Opened id thread owner r' := by
  have hadd := hr.addHolder owner
  have hs' : (r.addHolder owner).2.storages[id]? = some s := hs
  have hh : (r.addHolder owner).2.holder? (r.holders.length + 1) = some (Holder.fresh owner) := by
    rw [holder?_addHolder, if_pos rfl]
  obtain ⟨hb, hsb, _⟩ := hadd.bound hs' ho
  have hpushed := Sound.push (s := s.bind thread) hb hsb ((holder?_updateStorage ..).trans hh) rfl
  rw [storage_bind_updateStorage] at hpushed
  have hafter := storage_updateStorage (r := ((r.addHolder owner).2.updateHolder (r.holders.length + 1)
    fun h => { h with mark := s.worker })) (by rw [storages_updateHolder]; exact hs')
    fun s => (s.bind thread).push (r.holders.length + 1)
  refine ⟨_, register_eq hs' hh rfl ho hc, hpushed, fun s₀ hs₀ => ?_, fun s₀ s₁ hs₀ hs₁ => ?_,
    fun s₀ s₁ hs₀ hs₁ => ?_, fun other hne => ?_, ?_, ?_, fun other hne => ?_, ?_⟩
  · cases hs.symm.trans hs₀
    refine ⟨_, hafter, rfl, rfl, rfl, Storage.owner_bind ho, ?_⟩
    have hnot : (r.holders.length + 1) ∉ (s.bind thread).stack :=
      hb.not_mem_stack (markOf_eq hh) hsb
    exact ((hb.linked id _ hsb).push hnot).2
  · cases hs.symm.trans hs₀
    cases hafter.symm.trans hs₁
    exact ⟨rfl, rfl⟩
  · cases hs.symm.trans hs₀
    cases hafter.symm.trans hs₁
    rfl
  · rw [storage_updateStorage_ne hne, storages_updateHolder]
    rfl
  · exact (List.length_modify ..).trans (by rw [storages_updateHolder]; rfl)
  · refine ⟨{ Holder.fresh owner with mark := s.worker }, ?_, rfl, rfl, hr.worker id s hs⟩
    rw [holder?_updateStorage, holder?_updateHolder, if_pos rfl, hh]
    rfl
  · rw [holder?_updateStorage, holder?_updateHolder, if_neg hne.symm, holder?_addHolder, if_neg hne]
  · have hsame := recorded_updateHolder hh fun h => { h with mark := s.worker }
    rw [recorded_updateStorage, ← recorded_addHolder r owner]
    exact Nat.add_right_cancel hsame

/-- The holder on top is taken away by a thread that may use the storage, closed or not. -/
theorem deregister_eq (hs : r.storages[id]? = some s) (ho : s.owner.getD thread = thread)
    {rest : Storage} (hp : (s.bind thread).pop = some (top, rest)) (hh : r.holder? top = some h) :
    r.deregister id thread = (.ok (top, h.handles), (r.updateHolder top fun h =>
      { h with mark := Holder.unregistered, handles := [] }).updateStorage id fun _ =>
        rest.countReleased h.handles.length) := by
  simp only [Roster.deregister, hs, checkThread_eq hs, ho, if_true, hp, drain, holder?_updateHolder,
    holder?_updateStorage, hh, Option.map_some, Option.getD_some]
  rw [updateHolder_updateHolder, storage_bind_updateStorage]
  rfl

theorem Sound.closed (hr : r.Sound) (hs : r.storages[id]? = some s) {rest : List HolderId}
    (ho : s.owner.getD thread = thread) (hst : s.stack = top :: rest) :
    ∃ h r', r.holder? top = some h ∧ r.deregister id thread = (.ok (top, h.handles), r') ∧
      r.Closed id thread top rest r' := by
  obtain ⟨hb, hsb, _⟩ := hr.bound hs ho
  have hstb : (s.bind thread).stack = top :: rest := hst
  obtain ⟨current, entries, hpop, hl, hst'⟩ := (hb.linked id _ hsb).pop_cons hstb
  obtain ⟨h, hh⟩ := hr.exists_holder hs (hst ▸ List.mem_cons_self)
  have hworker : (({ s.bind thread with current, entries } : Storage).countReleased
      h.handles.length).worker = s.worker := rfl
  have hgone := hb.pop hsb hst hworker (hl.congr rfl rfl) hst'
  have hempty : ∀ h : Holder, { h with handles := [] }.mark = h.mark := fun _ => rfl
  have hsound := hgone.updateHolder top hempty
  rw [updateHolder_updateStorage, updateHolder_updateHolder, storage_bind_updateStorage] at hsound
  have hafter := storage_updateStorage (r := r.updateHolder top fun h =>
    { h with mark := Holder.unregistered, handles := [] }) (by rw [storages_updateHolder]; exact hs) fun _ =>
      ({ s.bind thread with current, entries } : Storage).countReleased h.handles.length
  refine ⟨h, _, hh, deregister_eq hs ho hpop hh, hsound, fun s₀ hs₀ => ?_, fun s₀ s₁ hs₀ hs₁ => ?_,
    fun s₀ s₁ h₀ hs₀ hs₁ hh₀ => ?_, fun other hne => ?_, ?_, fun h₀ hh₀ => ?_, fun other hne => ?_⟩
  · cases hs.symm.trans hs₀
    exact ⟨_, hafter, rfl, rfl, rfl, Storage.owner_bind ho, hst'⟩
  · cases hs.symm.trans hs₀
    cases hafter.symm.trans hs₁
    exact ⟨rfl, rfl⟩
  · cases hs.symm.trans hs₀
    cases hafter.symm.trans hs₁
    cases hh.symm.trans hh₀
    rfl
  · rw [storage_updateStorage_ne hne, storages_updateHolder]
  · exact (List.length_modify ..).trans (by rw [storages_updateHolder])
  · cases hh.symm.trans hh₀
    rw [holder?_updateStorage, holder?_updateHolder, if_pos rfl, hh, recorded_updateStorage]
    exact ⟨rfl, recorded_updateHolder hh _⟩
  · rw [holder?_updateStorage, holder?_updateHolder, if_neg hne.symm]

end Roster

namespace Ledger

variable {l : Ledger} {roster : Roster}

theorem openBracket_eq {owner : Option TaskId} (parent : Option HolderId)
    (hr : (l.roster.addHolder owner).2.register id thread (l.roster.holders.length + 1) = (.ok (), roster)) :
    l.openBracket id thread owner parent =
      (.ok ⟨id, l.roster.holders.length + 1, parent⟩, { l with roster }) := by
  have hreg : (l.addHolder owner).2.register id thread (l.addHolder owner).1 =
      (.ok (), { l with roster }) := by
    simp only [Ledger.register, Ledger.addHolder, Roster.addHolder] at hr ⊢
    rw [hr]
  simp only [openBracket, hreg]
  rfl

theorem bracket_of_openBracket {ledger : Ledger} {owner : Option TaskId} {parent : Option HolderId}
    {bracket : Bracket} (ho : l.openBracket id thread owner parent = (.ok bracket, ledger)) :
    bracket = ⟨id, l.roster.holders.length + 1, parent⟩ := by
  simp only [openBracket] at ho
  split at ho <;> cases ho
  rfl

theorem closeBracket_eq {b : Bracket} (hs : l.roster.storages[b.storage]? = some s)
    (hd : l.roster.deregister b.storage thread = (.ok (b.holder, h.handles), roster)) :
    l.closeBracket thread b = (.ok (), { l with roster }.release s.space h.handles) := by
  simp only [closeBracket, deregisterOwn, Ledger.deregister, hs, hd, Option.map_some, Option.getD_some,
    if_true]

/-- A bracket opens on a storage that the thread may use and that is not closed. -/
theorem openBracket_ok (hl : l.roster.Sound) (hs : l.roster.storages[id]? = some s)
    (ho : s.owner.getD thread = thread) (hc : s.closed = false) (owner : Option TaskId)
    (parent : Option HolderId) :
    ∃ roster, l.openBracket id thread owner parent =
        (.ok ⟨id, l.roster.holders.length + 1, parent⟩, { l with roster }) ∧
      l.roster.Opened id thread owner roster := by
  obtain ⟨roster, hreg, hopened⟩ := hl.opened hs owner ho hc
  exact ⟨roster, openBracket_eq parent hreg, hopened⟩

/-- The bracket of the holder on top of a storage that the thread may use closes. -/
theorem closeBracket_ok {b : Bracket} (hl : l.roster.Sound) (hs : l.roster.storages[b.storage]? = some s)
    (ho : s.owner.getD thread = thread) {rest : List HolderId} (hst : s.stack = b.holder :: rest) :
    ∃ h roster, l.roster.holder? b.holder = some h ∧
      l.closeBracket thread b = (.ok (), { l with roster }.release s.space h.handles) ∧
      l.roster.Closed b.storage thread b.holder rest roster := by
  obtain ⟨h, roster, hh, hd, hclosed⟩ := hl.closed hs ho hst
  exact ⟨h, roster, hh, closeBracket_eq hs hd, hclosed⟩

end Ledger

end TaskSpace

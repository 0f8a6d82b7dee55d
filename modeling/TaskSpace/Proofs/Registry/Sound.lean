import TaskSpace.Proofs.Registry.Chain

/-!
# Holders, marks and stacks agree

`Roster.Sound`: the registries are stacks, a holder is marked with the worker of the stack that it is
on and with no worker when it is on none, and it is on one stack at most. Every operation changes
the stack of one storage and the marks that go with it (`Sound.replace`).
-/

namespace TaskSpace.Roster

variable {r r' : Roster} {id : StorageId} {holder top : HolderId} {thread : ThreadId}
  {s s' : Storage} {h : Holder}

/-! ## Looking up after a change -/

theorem holder?_updateHolder (r : Roster) (id other : HolderId) (f : Holder → Holder) :
    (r.updateHolder id f).holder? other =
      if id = other then (r.holder? other).map f else r.holder? other := by
  unfold updateHolder holder?
  cases id with
  | zero => cases other <;> simp
  | succ place =>
    cases other with
    | zero => rfl
    | succ other =>
      simp only [List.getElem?_modify, Option.map_eq_map]
      by_cases he : place = other
      · subst he; simp
      · simp [he]

@[simp] theorem storages_updateHolder (r : Roster) (id : HolderId) (f : Holder → Holder) :
    (r.updateHolder id f).storages = r.storages := by
  cases id <;> rfl

@[simp] theorem holder?_updateStorage (r : Roster) (id : StorageId) (f : Storage → Storage)
    (other : HolderId) : (r.updateStorage id f).holder? other = r.holder? other := rfl

theorem storage_updateStorage (hs : r.storages[id]? = some s) (f : Storage → Storage) :
    (r.updateStorage id f).storages[id]? = some (f s) := by
  simp [updateStorage, hs]

theorem storage_updateStorage_ne {other : StorageId} (hne : other ≠ id) (f : Storage → Storage) :
    (r.updateStorage id f).storages[other]? = r.storages[other]? := by
  simp only [updateStorage, List.getElem?_modify_ne _ _ hne.symm]

theorem updateHolder_updateStorage (r : Roster) (id : StorageId) (f : Storage → Storage)
    (holder : HolderId) (g : Holder → Holder) :
    (r.updateStorage id f).updateHolder holder g = (r.updateHolder holder g).updateStorage id f := by
  cases holder <;> rfl

/-- The mark of a holder; one that does not exist is registered nowhere. -/
def markOf (r : Roster) (holder : HolderId) : Nat :=
  ((r.holder? holder).map Holder.mark).getD Holder.unregistered

theorem markOf_eq (hh : r.holder? holder = some h) : r.markOf holder = h.mark := by
  simp [markOf, hh]

@[simp] theorem markOf_updateStorage (r : Roster) (id : StorageId) (f : Storage → Storage)
    (other : HolderId) : (r.updateStorage id f).markOf other = r.markOf other := rfl

theorem markOf_updateHolder_of_mark {f : Holder → Holder} (hf : ∀ h, (f h).mark = h.mark)
    (other : HolderId) : (r.updateHolder holder f).markOf other = r.markOf other := by
  unfold markOf
  rw [holder?_updateHolder]
  split
  · rw [Option.map_map, show Holder.mark ∘ f = Holder.mark from funext hf]
  · rfl

theorem markOf_setMark (hh : r.holder? holder = some h) (mark : Nat) (other : HolderId) :
    (r.updateHolder holder fun h => { h with mark }).markOf other =
      if other = holder then mark else r.markOf other := by
  unfold markOf
  rw [holder?_updateHolder]
  by_cases he : holder = other
  · subst he; simp [hh]
  · rw [if_neg he, if_neg (fun h => he h.symm)]

def SameSize (r r' : Roster) : Prop :=
  r'.storages.length = r.storages.length ∧ r'.holders.length = r.holders.length

theorem SameSize.trans {r'' : Roster} (h : SameSize r r') (h' : SameSize r' r'') : SameSize r r'' :=
  ⟨h'.1.trans h.1, h'.2.trans h.2⟩

theorem updateStorage_sameSize (r : Roster) (id : StorageId) (f : Storage → Storage) :
    SameSize r (r.updateStorage id f) :=
  ⟨List.length_modify .., rfl⟩

theorem updateHolder_sameSize (r : Roster) (id : HolderId) (f : Holder → Holder) :
    SameSize r (r.updateHolder id f) := by
  cases id with
  | zero => exact ⟨rfl, rfl⟩
  | succ place => exact ⟨rfl, List.length_modify ..⟩

theorem exists_storage (hlt : id < r.storages.length) : ∃ s, r.storages[id]? = some s :=
  ⟨_, List.getElem?_eq_getElem hlt⟩

theorem exists_holder (hpos : 0 < holder) (hle : holder ≤ r.holders.length) :
    ∃ h, r.holder? holder = some h := by
  cases holder with
  | zero => exact absurd hpos (Nat.lt_irrefl 0)
  | succ place => exact ⟨_, List.getElem?_eq_getElem hle⟩

/-! ## The invariant -/

structure Sound (r : Roster) : Prop where
  worker : ∀ (id : StorageId) (s : Storage), r.storages[id]? = some s →
    s.worker ≠ Holder.unregistered
  linked : ∀ (id : StorageId) (s : Storage), r.storages[id]? = some s → s.Linked
  marked : ∀ (id : StorageId) (s : Storage), r.storages[id]? = some s →
    ∀ holder ∈ s.stack, r.markOf holder = s.worker
  stacked : ∀ holder, r.markOf holder ≠ Holder.unregistered →
    ∃ (id : StorageId) (s : Storage), r.storages[id]? = some s ∧ holder ∈ s.stack
  disjoint : ∀ (id id' : StorageId) (s s' : Storage), r.storages[id]? = some s →
    r.storages[id']? = some s' → ∀ holder, holder ∈ s.stack → holder ∈ s'.stack → id = id'

/-- A holder that is marked with no worker is on no stack. -/
theorem Sound.not_mem_stack (hr : r.Sound) (hm : r.markOf holder = Holder.unregistered)
    (hs : r.storages[id]? = some s) : holder ∉ s.stack := fun hin =>
  hr.worker id s hs ((hr.marked id s hs holder hin).symm.trans hm)

theorem Sound.exists_holder (hr : r.Sound) (hs : r.storages[id]? = some s) (hin : holder ∈ s.stack) :
    ∃ h, r.holder? holder = some h := by
  have hm := hr.marked id s hs holder hin
  cases hh : r.holder? holder with
  | none =>
    simp only [markOf, hh, Option.map_none, Option.getD_none] at hm
    exact absurd hm.symm (hr.worker id s hs)
  | some h => exact ⟨h, rfl⟩

/-- One storage changes, and the marks of the holders that come to its stack or leave it. -/
theorem Sound.replace (hr : r.Sound) (hs : r.storages[id]? = some s)
    (hs' : r'.storages[id]? = some s')
    (hrest : ∀ other : StorageId, other ≠ id → r'.storages[other]? = r.storages[other]?)
    (hw : s'.worker = s.worker) (hl : s'.Linked)
    (hcome : ∀ holder ∈ s'.stack, r'.markOf holder = s.worker ∧
      (holder ∈ s.stack ∨ r.markOf holder = Holder.unregistered))
    (hleave : ∀ holder ∈ s.stack, holder ∉ s'.stack → r'.markOf holder = Holder.unregistered)
    (hstay : ∀ holder, holder ∉ s.stack → holder ∉ s'.stack → r'.markOf holder = r.markOf holder) :
    r'.Sound := by
  -- a holder on another stack is not touched
  have hother : ∀ {other : StorageId} {o : Storage} {holder}, other ≠ id → r.storages[other]? = some o → holder ∈ o.stack →
      holder ∉ s.stack ∧ holder ∉ s'.stack := by
    intro other o holder hne ho hin
    have hnot : holder ∉ s.stack := fun hin' => hne (hr.disjoint _ _ _ _ ho hs holder hin hin')
    refine ⟨hnot, fun hin' => ?_⟩
    rcases (hcome holder hin').2 with hin' | hm
    · exact hnot hin'
    · exact hr.not_mem_stack hm ho hin
  refine ⟨fun other o ho => ?_, fun other o ho => ?_, fun other o ho holder hin => ?_,
    fun holder hm => ?_, fun i j a b ha hb holder hina hinb => ?_⟩
  · by_cases he : other = id
    · subst he
      rw [hs', Option.some.injEq] at ho; subst ho
      rw [hw]; exact hr.worker _ s hs
    · exact hr.worker other o (hrest other he ▸ ho)
  · by_cases he : other = id
    · subst he
      rw [hs', Option.some.injEq] at ho; subst ho
      exact hl
    · exact hr.linked other o (hrest other he ▸ ho)
  · by_cases he : other = id
    · subst he
      rw [hs', Option.some.injEq] at ho; subst ho
      rw [hw]; exact (hcome holder hin).1
    · rw [hrest other he] at ho
      obtain ⟨hn, hn'⟩ := hother he ho hin
      rw [hstay holder hn hn']
      exact hr.marked other o ho holder hin
  · by_cases hin' : holder ∈ s'.stack
    · exact ⟨id, s', hs', hin'⟩
    · by_cases hin : holder ∈ s.stack
      · exact absurd (hleave holder hin hin') hm
      · rw [hstay holder hin hin'] at hm
        obtain ⟨other, o, ho, hino⟩ := hr.stacked holder hm
        have hne : other ≠ id := by
          rintro rfl
          rw [hs, Option.some.injEq] at ho; subst ho
          exact hin hino
        exact ⟨other, o, by rw [hrest other hne, ho], hino⟩
  · by_cases hi : i = id <;> by_cases hj : j = id
    · rw [hi, hj]
    · subst hi
      rw [hs', Option.some.injEq] at ha; subst ha
      exact absurd hina (hother hj (hrest j hj ▸ hb) hinb).2
    · subst hj
      rw [hs', Option.some.injEq] at hb; subst hb
      exact absurd hinb (hother hi (hrest i hi ▸ ha) hina).2
    · exact hr.disjoint i j a b (hrest i hi ▸ ha) (hrest j hj ▸ hb) holder hina hinb

/-- A storage may change in whatever has to do with neither its worker nor its stack. -/
theorem Sound.updateStorage (hr : r.Sound) (hs : r.storages[id]? = some s) {f : Storage → Storage}
    (hw : (f s).worker = s.worker) (hc : (f s).current = s.current)
    (he : (f s).entries = s.entries) : (r.updateStorage id f).Sound := by
  have hstack : (f s).stack = s.stack := by unfold Storage.stack; rw [he]
  refine hr.replace hs (storage_updateStorage hs f) (fun _ hne => storage_updateStorage_ne hne f) hw
    ((hr.linked id s hs).congr hc he) ?_ ?_ fun _ _ _ => rfl <;> rw [hstack]
  · exact fun holder hin => ⟨hr.marked id s hs holder hin, .inl hin⟩
  · exact fun holder hin hn => absurd hin hn

/-- A holder may change in whatever has nothing to do with its mark. -/
theorem Sound.updateHolder (hr : r.Sound) (holder : HolderId) {f : Holder → Holder}
    (hf : ∀ h, (f h).mark = h.mark) : (r.updateHolder holder f).Sound := by
  refine ⟨?_, ?_, ?_, ?_, ?_⟩ <;> simp only [storages_updateHolder, markOf_updateHolder_of_mark hf]
  · exact hr.worker
  · exact hr.linked
  · exact hr.marked
  · exact hr.stacked
  · exact hr.disjoint

theorem Sound.push (hr : r.Sound) (hs : r.storages[id]? = some s) (hh : r.holder? holder = some h)
    (hm : h.mark = Holder.unregistered) :
    ((r.updateHolder holder fun h => { h with mark := s.worker }).updateStorage id
      (·.push holder)).Sound := by
  have hfree : r.markOf holder = Holder.unregistered := (markOf_eq hh).trans hm
  have hnot := hr.not_mem_stack hfree hs
  obtain ⟨hlinked, hstack⟩ := (hr.linked id s hs).push hnot
  refine hr.replace hs (storage_updateStorage (by rw [storages_updateHolder, hs]) _)
    (fun other hne => by rw [storage_updateStorage_ne hne, storages_updateHolder]) rfl hlinked ?_ ?_ ?_
    <;> intro other <;> rw [markOf_updateStorage, markOf_setMark hh, hstack]
  · intro hin
    rcases List.mem_cons.1 hin with rfl | hold
    · exact ⟨if_pos rfl, .inr hfree⟩
    · refine ⟨?_, .inl hold⟩
      rw [if_neg (by rintro rfl; exact hnot hold)]
      exact hr.marked id s hs other hold
  · exact fun hin hn => absurd (List.mem_cons_of_mem _ hin) hn
  · intro _ hn
    rw [if_neg (by rintro rfl; exact hn List.mem_cons_self)]

theorem Sound.pop (hr : r.Sound) (hs : r.storages[id]? = some s) {rest : List HolderId}
    (hst : s.stack = top :: rest) (hw : s'.worker = s.worker) (hl : s'.Linked)
    (hst' : s'.stack = rest) :
    ((r.updateHolder top fun h => { h with mark := Holder.unregistered }).updateStorage id
      fun _ => s').Sound := by
  have hnodup := (hr.linked id s hs).nodup
  rw [hst, List.nodup_cons] at hnodup
  obtain ⟨h, hh⟩ := hr.exists_holder hs (hst ▸ List.mem_cons_self)
  refine hr.replace hs (storage_updateStorage (by rw [storages_updateHolder, hs]) _)
    (fun other hne => by rw [storage_updateStorage_ne hne, storages_updateHolder]) hw hl ?_ ?_ ?_
    <;> intro other <;> rw [markOf_updateStorage, markOf_setMark hh, hst', hst]
  · intro hin
    have hin' := List.mem_cons_of_mem top hin
    rw [if_neg (by rintro rfl; exact hnodup.1 hin)]
    exact ⟨hr.marked id s hs other (hst ▸ hin'), .inl hin'⟩
  · intro hin hn
    rw [if_pos ((List.mem_cons.1 hin).resolve_right hn)]
  · intro hn _
    rw [if_neg (by rintro rfl; exact hn List.mem_cons_self)]

end TaskSpace.Roster

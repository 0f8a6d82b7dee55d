import TaskSpace.Proofs.Memory.Recording
import TaskSpace.Proofs.Memory.Rollback

/-!
# What is refused changes nothing

Every call of one range makes its checks before it changes anything. Those of mapping a range are
read here off the segments alone, in the order in which they are made; when all of them pass, the
range is mapped, unless its blocks have as many users as a word can count.
-/

namespace TaskSpace

/-! ## One mode of access -/

theorem countP_eq_one_iff {α : Type} {l : List α} (hl : l.Nodup) (p : α → Bool) :
    l.countP p = 1 ↔ ∃! a, a ∈ l ∧ p a := by
  simp only [List.countP_eq_length_filter, ← List.mem_filter]
  constructor
  · intro hone
    obtain ⟨a, ha⟩ := List.length_eq_one_iff.1 hone
    simp only [ha, List.mem_singleton]
    exact ⟨a, rfl, fun _ h => h⟩
  · rintro ⟨a, ha, hunique⟩
    have hperm : (l.filter p).Perm [a] := by
      refine (List.perm_ext_iff_of_nodup (hl.filter p) (List.nodup_singleton a)).2 fun b => ?_
      rw [List.mem_singleton]
      exact ⟨hunique b, fun hb => hb ▸ ha⟩
    exact hperm.length_eq

namespace Access

/-- Exactly one of the modes is among the flags, whatever the other bits are. -/
def OneMode (access : Access) : Prop := ∃! mode, mode ∈ modes ∧ access.contains mode

theorem isValid_iff (access : Access) : access.isValid ↔ access.OneMode := by
  rw [isValid, decide_eq_true_eq, countP_eq_one_iff (by decide), OneMode]

instance (access : Access) : Decidable access.OneMode := decidable_of_iff _ access.isValid_iff

end Access

/-! ## The checks of a mapping -/

namespace Space

variable {s s' : Space} {handles : List MappingId} {reach : Nat} {ptr : Pointer} {len : Nat}
  {access : Access} {worker : WorkerId} {error : AccessError}

/-- Why a range cannot be mapped, the first reason before the others, or `none` if it can. -/
def objection (s : Space) (ptr : Pointer) (len : Nat) (access : Access) : Option AccessError :=
  if ¬ access.OneMode then some (.invalidFlags access)
  else if len = 0 then some .zeroSized
  else s.flat.refusal ptr len

/-- A range has no place for the reason that is objected to it. -/
theorem Placed.place_eq_error (hp : s.Placed reach) :
    s.place ptr len access = .error (.refused error) ↔ s.objection ptr len access = some error := by
  unfold place Access.validate objection
  simp only [access.isValid_iff]
  by_cases hone : access.OneMode
  · by_cases h0 : len = 0
    · simp [hone, h0]
    · simp only [hone, h0, if_true, if_false, not_true]
      cases hr : s.flat.refusal ptr len with
      | some found => simp [hp.locate_of_refusal hr]
      | none =>
        obtain ⟨seg, off, hl⟩ := hp.locate_of_granted hr
        simp [hl]
  · simp [hone]

theorem Placed.localize_eq_refused (hp : s.Placed reach) :
    (s.localize ptr len access worker).1 = .error (.refused error) ↔
      s.objection ptr len access = some error := by
  rw [← hp.place_eq_error]
  rcases he : s.localize ptr len access worker with ⟨answer, s'⟩
  constructor
  · rintro rfl
    exact (localize_refused he).1
  · intro hplace
    simp only [localize, hplace, Prod.mk.injEq] at he
    exact he.1.symm

/-- A range that nothing is objected to is mapped, unless its blocks are crowded. -/
theorem Shared.localize_of_granted (h : s.Shared handles) (hp : s.Placed reach) (hf : s.BlocksFit)
    (hnone : s.objection ptr len access = none) (worker : WorkerId) :
    (∃ id, (s.localize ptr len access worker).1 = .ok id) ∨
      ∃ key, s.Touches ptr len key ∧ s.Crowded key ∧
        (s.localize ptr len access worker).1 = .error (.panicked .addOverflow) := by
  cases hplace : s.place ptr len access with
  | error fault =>
    obtain ⟨error, rfl⟩ := hp.place_refused hplace
    cases hnone.symm.trans (hp.place_eq_error.1 hplace)
  | ok placement =>
    obtain ⟨seg, first, last⟩ := placement
    by_cases hfull : s.Crowded ⟨seg.base, first, last⟩
    · exact .inr ⟨_, (hp.touches hplace).2, hfull, h.localize_crowded hp hplace hfull worker⟩
    · obtain ⟨id, s', he⟩ := h.localize_ok hp hf hplace hfull worker
      exact .inl ⟨id, congrArg Prod.fst he⟩

end Space

/-! ## Calls that are refused -/

/-- Addresses are refused before any is reserved. -/
theorem Space.alloc_refused {s : Space} {size blockSize : Nat} {error : AccessError}
    (he : (s.alloc size blockSize).1 = .error (.refused error)) : (s.alloc size blockSize).2 = s := by
  unfold alloc at he ⊢
  split
  · rfl
  · rename_i hsized
    rw [if_neg hsized] at he
    cases hreserve : reserve size with
    | error fault => rfl
    | ok reserved =>
      simp only [hreserve] at he
      split at he <;> cases he

namespace AddressSpace.Caller

variable {c : Caller Space} {error : AccessError}

theorem keep_refused {outcome : Except Fault Space}
    (h : (c.keep outcome).1 = .error (.refused error)) : (c.keep outcome).2 = c := by
  cases outcome with
  | ok space => cases h
  | error fault => rfl

/-- A call that is refused changes nothing, but for mapping several ranges. -/
theorem perform_refused {call : Call}
    (hone : ∀ ranges access worker, call ≠ .localizeAll ranges access worker)
    (h : (c.perform call).1 = .error (.refused error)) : (c.perform call).2 = c := by
  cases call with
  | alloc size blockSize =>
    exact congrArg (fun space => Caller.mk space c.handles) (Space.alloc_refused h)
  | dealloc base => exact keep_refused h
  | put ptr new => exact keep_refused h
  | get ptr len => rfl
  | fill ptr value len => exact keep_refused h
  | rmw ptr len update =>
    simp only [perform] at h ⊢
    split at h
    · cases h
    · rfl
  | localize ptr len access worker =>
    simp only [perform] at h ⊢
    split at h <;> rename_i he
    · cases h
    · cases h
      obtain ⟨-, rfl⟩ := Space.localize_refused he
      rfl
  | localizeAll ranges access worker => exact absurd rfl (hone ranges access worker)
  | commit ptr new => exact keep_refused h
  | unlocalize handle => cases h
  | homeOf ptr => rfl
  | liveMappings => rfl

end AddressSpace.Caller

/-! ## Runs -/

open AddressSpace (Call Caller)

/-- What the calls of one range say of a space: they are done or refused as a whole, and a mapping is
refused for what is objected to its range. -/
structure Space.Guarded (s : Space) : Prop where
  unchanged : ∀ (handles : List MappingId) (call : Call) (error : AccessError),
    (∀ ranges access worker, call ≠ .localizeAll ranges access worker) →
      ((Caller.mk s handles).perform call).1 = .error (.refused error) →
        ((Caller.mk s handles).perform call).2 = ⟨s, handles⟩
  refused : ∀ ptr len access worker error,
    (s.localize ptr len access worker).1 = .error (.refused error) ↔
      s.objection ptr len access = some error
  mapped : ∀ ptr len access worker, s.objection ptr len access = none →
    (∃ id, (s.localize ptr len access worker).1 = .ok id) ∨
      ∃ key, s.Touches ptr len key ∧ s.Crowded key ∧
        (s.localize ptr len access worker).1 = .error (.panicked .addOverflow)

namespace Client

/-- As long as the address counter has not wrapped, a call of one range that is refused changes nothing
at all, and a range is refused exactly for the first of the reasons that there are against it. -/
theorem run_guarded (numHomes : Nat) (ops : List SpaceOp) (hw : ∀ op ∈ ops, op.Worded)
    (hr : SpaceOp.addresses ops ≤ Word.bound) : ((start numHomes).run ops).space.Guarded := by
  have hp := run_placed numHomes ops hr
  have hf := run_blocksFit (c := start numHomes) (Space.blocksFit_new numHomes) (Space.placed_new numHomes) ops hw hr
  obtain ⟨ids, h⟩ := run_current numHomes ops hr
  exact {
    unchanged := fun _ _ _ hone he => Caller.perform_refused hone he
    refused := fun _ _ _ _ _ => hp.localize_eq_refused
    mapped := fun _ _ _ worker hnone => h.shared.localize_of_granted hp hf hnone worker }

/-- Flags with two modes are refused before the length and the null pointer are looked at, and a range
that ends at the last address of a segment is not one that passes it. -/
theorem run_guarded_order :
    let ops : List SpaceOp := [.alloc 8 4]
    let s := ((start 2).run ops).space
    (∀ op ∈ ops, op.Worded) ∧ SpaceOp.addresses ops ≤ Word.bound ∧ s.Guarded ∧
      s.objection ⟨0⟩ 0 ⟨3⟩ = some (.invalidFlags ⟨3⟩) ∧ s.objection ⟨0⟩ 0 ⟨0xf1⟩ = some .zeroSized ∧
      s.objection ⟨4100⟩ 4 .readOnly = none ∧
      s.objection ⟨4100⟩ 5 .readOnly = some (.outOfBounds ⟨4100⟩ 5) :=
  ⟨by decide, by decide, run_guarded 2 _ (by decide) (by decide), by decide, by decide, by decide,
    by decide⟩

end Client

end TaskSpace

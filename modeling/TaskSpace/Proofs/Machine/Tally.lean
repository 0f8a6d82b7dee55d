import TaskSpace.Machine.Memory
import TaskSpace.Proofs.Memory.Fading
import TaskSpace.Proofs.Registry.Brackets

/-!
# The tally of mappings

What a space counts as live is what the holders have recorded, and what was lost: the mappings that a
call of `localizeAll` had made when it ended in a panic, which no holder records and nobody releases.
A `History` keeps what was lost, and the references that bodies were given.
-/

namespace TaskSpace

structure History where
  /-- The references that were given, each with the holder of the body that got it. -/
  obtained : List (HolderId × LocalRef)
  /-- How many mappings were made and not recorded. -/
  lost : Nat

namespace Ledger

/-- The references that an operation gives. -/
def given (l : Ledger) (site : Option Site) : MemoryOp → List LocalRef
  | .localize ptr len access => (l.perform site (.localize ptr len access)).1.toOption.toList
  | .localizeAll ranges access => (l.perform site (.localizeAll ranges access)).1.toOption.getD []
  | _ => []

/-- The mappings that a list of ranges has got when its call panics. -/
def leak (l : Ledger) (space : SpaceId) (worker : WorkerId) (holder : HolderId) (ranges : List Range)
    (access : Access) : Nat :=
  match (l.localizeAll space worker holder ranges access).1 with
  | .error (.panicked _) =>
    ((l.spaces[space]?).map fun a => a.space.mappedBefore access worker ranges).getD 0
  | _ => 0

/-- The mappings that an operation makes and that no holder records. -/
def leaked (l : Ledger) (site : Option Site) : MemoryOp → Nat
  | .localizeAll ranges access =>
    match site with
    | some ⟨space, worker, some holder⟩ => l.leak space worker holder ranges access
    | _ => 0
  | _ => 0

end Ledger

namespace History

def start : History := ⟨[], 0⟩

/-- What an operation adds. -/
def after (hist : History) (l : Ledger) (site : Option Site) (op : MemoryOp) : History where
  obtained := hist.obtained ++ (site.bind Site.holder).elim [] fun holder =>
    (l.given site op).map fun ref => (holder, ref)
  lost := hist.lost + l.leaked site op

end History

variable {r r' : Roster} {s s' : Space} {space : SpaceId} {hist : History} {holder : HolderId}
  {h h' : Holder} {ids : List MappingId}

/-! ## Rosters with the same bodies -/

/-- The stacks, and the owners and marks of the holders; not what is recorded in them. -/
structure Roster.SameBodies (r r' : Roster) : Prop where
  storages : r'.storages = r.storages
  holders : ∀ holder, (r'.holder? holder).map (fun h => (h.owner, h.mark)) =
    (r.holder? holder).map fun h => (h.owner, h.mark)

namespace Roster

theorem SameBodies.refl (r : Roster) : r.SameBodies r := ⟨rfl, fun _ => rfl⟩

theorem SameBodies.markOf (hb : r.SameBodies r') (holder : HolderId) : r'.markOf holder = r.markOf holder := by
  have hm := congrArg (Option.map Prod.snd) (hb.holders holder)
  rw [Option.map_map, Option.map_map] at hm
  exact congrArg (fun mark : Option Nat => mark.getD Holder.unregistered) hm

theorem SameBodies.sound (hb : r.SameBodies r') (hr : r.Sound) : r'.Sound := by
  refine ⟨?_, ?_, ?_, ?_, ?_⟩ <;> simp only [hb.storages, hb.markOf]
  · exact hr.worker
  · exact hr.linked
  · exact hr.marked
  · exact hr.stacked
  · exact hr.disjoint

theorem SameBodies.exists_holder (hb : r.SameBodies r') (hh : r'.holder? holder = some h') :
    ∃ h, r.holder? holder = some h ∧ h.owner = h'.owner ∧ h.mark = h'.mark := by
  have he := hb.holders holder
  rw [hh, Option.map_some] at he
  obtain ⟨h, hr, hpair⟩ := Option.map_eq_some_iff.1 he.symm
  exact ⟨h, hr, congrArg Prod.fst hpair, congrArg Prod.snd hpair⟩

theorem SameBodies.symm (hb : r.SameBodies r') : r'.SameBodies r :=
  ⟨hb.storages.symm, fun holder => (hb.holders holder).symm⟩

theorem updateHolder_sameBodies (r : Roster) (holder : HolderId) {f : Holder → Holder}
    (ho : ∀ h, (f h).owner = h.owner) (hm : ∀ h, (f h).mark = h.mark) :
    r.SameBodies (r.updateHolder holder f) := by
  refine ⟨storages_updateHolder .., fun other => ?_⟩
  rw [holder?_updateHolder]
  split
  · rw [Option.map_map]
    exact congrArg (fun g => (r.holder? other).map g) (funext fun h => Prod.ext (ho h) (hm h))
  · rfl

end Roster

/-! ## The tally -/

/-- What the holders of a roster have recorded, and what a space says of its mappings. -/
structure Tally (r : Roster) (s : Space) (space : SpaceId) (hist : History) : Prop where
  live : s.live = Word.wrap (r.recorded + hist.lost)
  valid : ∀ holder h, r.holder? holder = some h → ∀ id ∈ h.handles, id < s.mappings.length
  empty : ∀ holder h, r.holder? holder = some h → h.mark = Holder.unregistered → h.handles = []
  obtained : ∀ e ∈ hist.obtained, e.2.space = space ∧ ∃ h, r.holder? e.1 = some h ∧
    (e.2.mapping ∈ h.handles ∨ s.Dead e.2.mapping)

namespace Tally

theorem still (ht : Tally r s space hist) (hs : Space.Still s s') : Tally r s' space hist where
  live := hs.live.trans ht.live
  valid holder h hh id hm := hs.fades.lt (ht.valid holder h hh id hm)
  empty := ht.empty
  obtained e he := by
    obtain ⟨hsp, h, hh, hm⟩ := ht.obtained e he
    exact ⟨hsp, h, hh, hm.imp_right hs.fades.dead⟩

theorem lose (ht : Tally r s space hist) (hf : Space.Fades s s') {n : Nat}
    (hl : s'.live = Word.wrap (r.recorded + hist.lost + n)) :
    Tally r s' space { hist with lost := hist.lost + n } where
  live := by rw [hl, Nat.add_assoc]
  valid holder h hh id hm := hf.lt (ht.valid holder h hh id hm)
  empty := ht.empty
  obtained e he := by
    obtain ⟨hsp, h, hh, hm⟩ := ht.obtained e he
    exact ⟨hsp, h, hh, hm.imp_right hf.dead⟩

theorem record (ht : Tally r s space hist) (ids : List MappingId) (hh : r.holder? holder = some h)
    (hm : h.mark ≠ Holder.unregistered) (hf : Space.Fades s s')
    (hv : ∀ id ∈ ids, id < s'.mappings.length)
    (hl : s'.live = Word.wrap (r.recorded + hist.lost + ids.length)) :
    Tally (r.updateHolder holder fun h => { h with handles := h.handles ++ ids }) s' space
      { hist with obtained := hist.obtained ++ ids.map fun id => (holder, ⟨space, id⟩) } := by
  have hself : (r.updateHolder holder fun h => { h with handles := h.handles ++ ids }).holder? holder =
      some { h with handles := h.handles ++ ids } := by
    rw [Roster.holder?_updateHolder, if_pos rfl, hh]
    rfl
  have hrest : ∀ other, other ≠ holder →
      (r.updateHolder holder fun h => { h with handles := h.handles ++ ids }).holder? other =
        r.holder? other := fun other hne => by
    rw [Roster.holder?_updateHolder, if_neg hne.symm]
  have hrec := Roster.recorded_updateHolder hh fun h => { h with handles := h.handles ++ ids }
  simp only [Holder.len, List.length_append] at hrec
  refine ⟨?_, fun other g hg id hid => ?_, fun other g hg hu => ?_, fun e he => ?_⟩
  · rw [hl]
    congr 1
    dsimp only
    omega
  · by_cases ho : other = holder
    · subst ho
      cases hself.symm.trans hg
      rcases List.mem_append.1 hid with hid | hid
      · exact hf.lt (ht.valid _ h hh id hid)
      · exact hv id hid
    · rw [hrest other ho] at hg
      exact hf.lt (ht.valid other g hg id hid)
  · by_cases ho : other = holder
    · subst ho
      cases hself.symm.trans hg
      exact absurd hu hm
    · rw [hrest other ho] at hg
      exact ht.empty other g hg hu
  · rcases List.mem_append.1 he with he | he
    · obtain ⟨hsp, g, hg, hin⟩ := ht.obtained e he
      refine ⟨hsp, ?_⟩
      by_cases ho : e.1 = holder
      · rw [ho, hh, Option.some.injEq] at hg
        subst hg
        exact ⟨_, (congrArg _ ho).trans hself, hin.imp (List.mem_append_left _) hf.dead⟩
      · exact ⟨g, (hrest _ ho).trans hg, hin.imp_right hf.dead⟩
    · obtain ⟨id, hid, rfl⟩ := List.mem_map.1 he
      exact ⟨rfl, _, hself, .inl (List.mem_append_right _ hid)⟩

theorem release (ht : Tally r s space hist) (hh : r.holder? holder = some h)
    (hh' : r'.holder? holder = some h') (he : h'.handles = [])
    (hrest : ∀ other, other ≠ holder → r'.holder? other = r.holder? other)
    (hrec : r'.recorded + h.len = r.recorded) :
    Tally r' (AddressSpace.unlocalizeAll s h.handles) space hist := by
  have hlive : s.live = Word.wrap (r'.recorded + hist.lost + h.handles.length) := by
    rw [ht.live, ← hrec]
    congr 1
    simp only [Holder.len]
    omega
  obtain ⟨hf, hd, hl⟩ := Space.unlocalizeAll_counts (ht.valid holder h hh) hlive
  refine ⟨hl, fun other g hg id hid => ?_, fun other g hg hu => ?_, fun e hm => ?_⟩
  · by_cases ho : other = holder
    · subst ho
      cases hh'.symm.trans hg
      rw [he] at hid
      cases hid
    · rw [hrest other ho] at hg
      exact hf.lt (ht.valid other g hg id hid)
  · by_cases ho : other = holder
    · subst ho
      cases hh'.symm.trans hg
      exact he
    · rw [hrest other ho] at hg
      exact ht.empty other g hg hu
  · obtain ⟨hsp, g, hg, hin⟩ := ht.obtained e hm
    refine ⟨hsp, ?_⟩
    by_cases ho : e.1 = holder
    · rw [ho, hh, Option.some.injEq] at hg
      subst hg
      refine ⟨h', ho ▸ hh', .inr ?_⟩
      rcases hin with hin | hin
      · exact hd _ hin
      · exact hf.dead hin
    · exact ⟨g, (hrest _ ho).trans hg, hin.imp_right hf.dead⟩

theorem opened (ht : Tally r s space hist) {owner : Option TaskId} {id : StorageId} {thread : ThreadId}
    (ho : r.Opened id thread owner r') : Tally r' s space hist := by
  obtain ⟨fresh, hfresh, _, hempty, _⟩ := ho.fresh
  refine ⟨by rw [ht.live, ho.recorded], fun other g hg id hid => ?_, fun other g hg hu => ?_,
    fun e he => ?_⟩
  · by_cases hn : other = r.holders.length + 1
    · subst hn
      cases hfresh.symm.trans hg
      rw [hempty] at hid
      cases hid
    · exact ht.valid other g (ho.holders other hn ▸ hg) id hid
  · by_cases hn : other = r.holders.length + 1
    · subst hn
      cases hfresh.symm.trans hg
      exact hempty
    · exact ht.empty other g (ho.holders other hn ▸ hg) hu
  · obtain ⟨hsp, g, hg, hin⟩ := ht.obtained e he
    exact ⟨hsp, g, (ho.holders _ (Roster.ne_fresh hg)).trans hg, hin⟩

end Tally

namespace Ledger

variable {l : Ledger} {a a' : Recorder} {other : SpaceId}

def Tallied (l : Ledger) (space : SpaceId) (hist : History) : Prop :=
  ∃ a, l.spaces[space]? = some a ∧ Tally l.roster a.space space hist

@[simp] theorem roster_updateSpace (l : Ledger) (other : SpaceId) (f : Recorder → Recorder) :
    (l.updateSpace other f).roster = l.roster := rfl

theorem spaces_updateSpace (hs : l.spaces[space]? = some a) (f : Recorder → Recorder) :
    (l.updateSpace space f).spaces[space]? = some (f a) := by
  simp [updateSpace, hs]

theorem updateSpace_some (hs : l.spaces[space]? = some a) (f : Recorder → Recorder) :
    l.updateSpace space f = l.updateSpace space fun _ => f a := by
  unfold updateSpace
  congr 1
  refine List.ext_getElem? fun other => ?_
  by_cases he : space = other
  · subst he
    simp [hs]
  · rw [List.getElem?_modify_ne _ _ he, List.getElem?_modify_ne _ _ he]

theorem updateSpace_none (hs : l.spaces[space]? = none) (f : Recorder → Recorder) : l.updateSpace space f = l := by
  unfold updateSpace
  rw [List.modify_eq_self (List.getElem?_eq_none_iff.1 hs)]

theorem write_eq {ref : LocalRef} (hs : l.spaces[ref.space]? = some a) (off : Nat) (new : Bytes) :
    l.write ref off new = match a.space.write ref.mapping off new with
      | .ok s => (.ok (), l.updateSpace ref.space fun _ => { a with space := s })
      | .error fault => (.error fault, l) := by
  simp only [Ledger.write, change, hs, Recorder.keep]
  cases a.space.write ref.mapping off new <;> rfl

theorem Tallied.updateSpace (ht : l.Tallied space hist) (ho : l.spaces[other]? = some a)
    (a' : Recorder) (hs : Space.Still a.space a'.space) :
    (l.updateSpace other fun _ => a').Tallied space hist := by
  obtain ⟨b, hb, ht⟩ := ht
  by_cases he : other = space
  · subst he
    cases ho.symm.trans hb
    exact ⟨a', spaces_updateSpace ho _, ht.still hs⟩
  · refine ⟨b, ?_, ht⟩
    rw [Ledger.updateSpace, List.getElem?_modify_ne _ _ he, hb]

theorem Tallied.change (ht : l.Tallied space hist) {op : Recorder → Except Fault Recorder}
    (hs : ∀ a a', op a = .ok a' → Space.Still a.space a'.space) :
    (l.change other op).2.Tallied space hist := by
  unfold Ledger.change
  split
  · exact ht
  · rename_i a ho
    split
    · rename_i a' he
      exact ht.updateSpace ho a' (hs a a' he)
    · exact ht

theorem change_roster (l : Ledger) (other : SpaceId) (op : Recorder → Except Fault Recorder) :
    (l.change other op).2.roster = l.roster := by
  unfold Ledger.change
  repeat' split
  all_goals rfl

theorem keep_still {answer : Except Fault Space} (hs : ∀ s, answer = .ok s → Space.Still a.space s)
    (hk : a.keep answer = .ok a') : Space.Still a.space a'.space := by
  cases answer with
  | error fault => cases hk
  | ok s => cases hk; exact hs s rfl

theorem write_roster (l : Ledger) (ref : LocalRef) (off : Nat) (bytes : Bytes) :
    (l.write ref off bytes).2.roster = l.roster := l.change_roster _ _

theorem Tallied.write (ht : l.Tallied space hist) (ref : LocalRef) (off : Nat) (bytes : Bytes) :
    (l.write ref off bytes).2.Tallied space hist :=
  ht.change fun _ _ he => keep_still (fun _ hw => Space.write_still hw) he

theorem commit_roster (l : Ledger) (other : SpaceId) (ref : LocalRef) :
    (l.commit other ref).2.roster = l.roster := by
  unfold Ledger.commit
  split
  · rfl
  · exact l.change_roster _ _
  · rfl

theorem Tallied.commit (ht : l.Tallied space hist) (other : SpaceId) (ref : LocalRef) :
    (l.commit other ref).2.Tallied space hist := by
  unfold Ledger.commit
  split
  · exact ht
  · exact ht.change fun _ _ he => keep_still (fun _ hw => Space.put_still hw) he
  · exact ht

theorem commitAll_roster (l : Ledger) (other : SpaceId) (refs : List LocalRef) :
    (l.commitAll other refs).2.roster = l.roster := by
  induction refs generalizing l with
  | nil => rfl
  | cons ref rest ih =>
    have hone := l.commit_roster other ref
    unfold Ledger.commitAll
    split <;> rename_i he <;> rw [he] at hone
    · exact hone
    · exact (ih _).trans hone

theorem Tallied.commitAll (ht : l.Tallied space hist) (other : SpaceId) (refs : List LocalRef) :
    (l.commitAll other refs).2.Tallied space hist := by
  induction refs generalizing l with
  | nil => exact ht
  | cons ref rest ih =>
    have hone := ht.commit other ref
    unfold Ledger.commitAll
    split <;> rename_i he <;> rw [he] at hone
    · exact hone
    · exact ih hone

/-! ## Operations of bodies -/

theorem foldl_record (l : Ledger) (holder : HolderId) (ids : List MappingId) :
    ids.foldl (fun l id => l.record holder id) l =
      { l with roster := l.roster.updateHolder holder fun h => { h with handles := h.handles ++ ids } } := by
  induction ids generalizing l with
  | nil =>
    simp only [List.foldl_nil, List.append_nil]
    cases holder with
    | zero => rfl
    | succ place => exact congrArg (fun holders => { l with roster := ⟨holders, l.roster.storages⟩ }) (List.modify_id _ _).symm
  | cons id rest ih =>
    rw [List.foldl_cons, ih]
    simp only [Ledger.record, Roster.record, Roster.updateHolder_updateHolder]
    congr 2
    funext h
    simp

theorem handles_sameBodies (r : Roster) (holder : HolderId) (f : List MappingId → List MappingId) :
    r.SameBodies (r.updateHolder holder fun h => { h with handles := f h.handles }) :=
  r.updateHolder_sameBodies holder (by exact fun _ => rfl) (by exact fun _ => rfl)

variable {worker : WorkerId} {access : Access}

theorem Tallied.localize (ht : l.Tallied space hist) (hh : l.roster.holder? holder = some h)
    (hm : h.mark ≠ Holder.unregistered) (worker : WorkerId) (ptr : Pointer) (len : Nat)
    (access : Access) :
    (l.localize space worker holder ptr len access).2.Tallied space { hist with
      obtained := hist.obtained ++
        (l.localize space worker holder ptr len access).1.toOption.toList.map fun ref => (holder, ref) } ∧
      l.roster.SameBodies (l.localize space worker holder ptr len access).2.roster := by
  obtain ⟨a, ha, ht⟩ := ht
  have hrec : AddressSpace.localize a = a.localize := rfl
  simp only [Ledger.localize, ha, hrec, Recorder.localize]
  rcases a.space.localize_counts ptr len access worker with ⟨fault, s, he, hs⟩ |
    ⟨id, s, he, hf, hlt, hl⟩
  · rw [he]
    refine ⟨⟨_, spaces_updateSpace ha _, ?_⟩, .refl _⟩
    simpa [Except.toOption] using ht.still hs
  · rw [he]
    rw [ht.live, Word.wrap_succ] at hl
    exact ⟨⟨_, spaces_updateSpace ha _, ht.record [id] hh hm hf (by simpa using hlt) hl⟩,
      handles_sameBodies l.roster holder (· ++ [id])⟩

/-- Mapping all or none gives every reference to the holder, or leaves what a panic cut off. -/
theorem Tallied.localizeAll (ht : l.Tallied space hist) (hh : l.roster.holder? holder = some h)
    (hm : h.mark ≠ Holder.unregistered) (worker : WorkerId) (ranges : List Range) (access : Access) :
    (l.localizeAll space worker holder ranges access).2.Tallied space
      { obtained := hist.obtained ++
          ((l.localizeAll space worker holder ranges access).1.toOption.getD []).map fun ref => (holder, ref)
        lost := hist.lost + l.leak space worker holder ranges access } ∧
      l.roster.SameBodies (l.localizeAll space worker holder ranges access).2.roster := by
  obtain ⟨a, ha, ht⟩ := ht
  obtain ⟨hfst, hsnd⟩ := a.localizeRest_space access worker [] ranges
  simp only [leak, Ledger.localizeAll, ha, AddressSpace.localizeAll]
  generalize AddressSpace.localizeRest access worker [] ranges a = out at hfst hsnd
  obtain ⟨answer, a'⟩ := out
  have hl : a.space.live = Word.wrap (l.roster.recorded + hist.lost + ([] : List MappingId).length) := ht.live
  rcases Space.localizeRest_counts access worker ranges (by simp) hl with ⟨ids, s, he, hf, hv, hl⟩ |
    ⟨error, s, he, hf, hl⟩ | ⟨payload, s, he, hf, _, hl⟩ <;>
    rw [he] at hfst hsnd <;> cases hfst <;> cases hsnd <;> dsimp only
  · rw [foldl_record]
    refine ⟨⟨a', spaces_updateSpace ha _, ?_⟩, handles_sameBodies l.roster holder (· ++ ids)⟩
    simpa [Except.toOption, Function.comp_def] using ht.record ids hh hm hf hv hl
  · refine ⟨⟨a', spaces_updateSpace ha _, ?_⟩, .refl _⟩
    simpa [Except.toOption] using ht.lose hf (n := 0) hl
  · refine ⟨⟨a', spaces_updateSpace ha _, ?_⟩, .refl _⟩
    simpa [Except.toOption] using ht.lose hf hl

theorem Tallied.unlocalize (ht : l.Tallied space hist) (hh : l.roster.holder? holder = some h) :
    (l.unlocalize space holder).2.Tallied space hist ∧
      l.roster.SameBodies (l.unlocalize space holder).2.roster := by
  obtain ⟨a, ha, ht⟩ := ht
  have hself : (l.roster.updateHolder holder fun h => { h with handles := [] }).holder? holder =
      some { h with handles := [] } := by
    rw [Roster.holder?_updateHolder, if_pos rfl, hh]
    rfl
  simp only [Ledger.unlocalize, Roster.drain, hh, Option.map_some, Option.getD_some, Ledger.release]
  refine ⟨⟨_, spaces_updateSpace ha _, ?_⟩, handles_sameBodies l.roster holder fun _ => []⟩
  rw [Recorder.unlocalizeAll_space]
  refine ht.release hh hself rfl (fun other hne => ?_) (Roster.recorded_updateHolder hh _)
  exact (Roster.holder?_updateHolder ..).trans (if_neg hne.symm)

/-- The history changes with the operations that map, and only where a body runs. -/
theorem after_eq (hist : History) (l : Ledger) (op : MemoryOp) {site : Option Site}
    (hg : l.given site op = []) (hl : l.leaked site op = 0) : hist.after l site op = hist := by
  unfold History.after
  rw [hg, hl]
  cases site.bind Site.holder <;> simp

theorem Tallied.unmapped {l' : Ledger} {site : Option Site} {op : MemoryOp} (ht : l'.Tallied space hist)
    (hg : l.given site op = []) (hl : l.leaked site op = 0) (hr : l'.roster = l.roster) :
    l'.Tallied space (hist.after l site op) ∧ l.roster.SameBodies l'.roster := by
  rw [after_eq hist l op hg hl, hr]
  exact ⟨ht, .refl _⟩

theorem Tallied.rmw (ht : l.Tallied space hist) (worker : WorkerId) (current : Option HolderId)
    (ptr : Pointer) (len : Nat) (update : Update) :
    (l.performIn space worker current (.rmw ptr len update)).2.Tallied space hist ∧
      (l.performIn space worker current (.rmw ptr len update)).2.roster = l.roster := by
  obtain ⟨a, ha, _⟩ := id ht
  simp only [performIn, look, ha, AddressSpace.rmw]
  cases hw : a.space.rmw ptr len update with
  | error fault => exact ⟨ht, rfl⟩
  | ok result => exact ⟨ht.updateSpace ha _ (Space.rmw_still hw), rfl⟩

/-- Whatever a body does, the tally is kept: what it was given is recorded, and what leaked is lost. -/
theorem Tallied.perform (ht : l.Tallied space hist) {site : Option Site}
    (hspace : ∀ w, site = some w → w.space = space)
    (hholder : ∀ holder, site.bind Site.holder = some holder →
      ∃ h, l.roster.holder? holder = some h ∧ h.mark ≠ Holder.unregistered) (op : MemoryOp) :
    (l.perform site op).2.Tallied space (hist.after l site op) ∧
      l.roster.SameBodies (l.perform site op).2.roster := by
  cases site with
  | none => exact ht.unmapped (by cases op <;> rfl) (by cases op <;> rfl) rfl
  | some site =>
    obtain ⟨other, worker, current⟩ := site
    obtain rfl : other = space := hspace _ rfl
    cases op with
    -- what only touches home memory leaves the mappings alone
    | alloc size blockSize =>
      obtain ⟨a, ha, _⟩ := id ht
      have hstill := ht.updateSpace ha { a with space := (a.space.alloc size blockSize).2 }
        (Space.alloc_still a.space size blockSize)
      refine Tallied.unmapped ?_ rfl rfl ?_ <;> simp only [Ledger.perform, performIn, ha]
      · exact hstill
      · rfl
    | dealloc ptr =>
      refine (ht.change fun a a' he => ?_).unmapped rfl rfl (l.change_roster _ _)
      exact keep_still (fun _ hd => Space.dealloc_still hd) he
    | put ptr bytes =>
      refine (ht.change fun a a' he => ?_).unmapped rfl rfl (l.change_roster _ _)
      exact keep_still (fun _ hw => Space.put_still hw) he
    | get ptr len => exact ht.unmapped rfl rfl rfl
    | fill ptr value len =>
      refine (ht.change fun a a' he => ?_).unmapped rfl rfl (l.change_roster _ _)
      exact keep_still (fun _ hw => Space.put_still (Space.fill_eq_put _ _ _ _ ▸ hw)) he
    | rmw ptr len update =>
      obtain ⟨ht, hr⟩ := ht.rmw worker current ptr len update
      exact ht.unmapped rfl rfl hr
    | homeOf ptr => exact ht.unmapped rfl rfl rfl
    | localize ptr len access =>
      cases current with
      | none => exact ht.unmapped rfl rfl rfl
      | some holder =>
        obtain ⟨h, hh, hm⟩ := hholder holder rfl
        exact ht.localize hh hm worker ptr len access
    | localizeAll ranges access =>
      cases current with
      | none => exact ht.unmapped rfl rfl rfl
      | some holder =>
        obtain ⟨h, hh, hm⟩ := hholder holder rfl
        exact ht.localizeAll hh hm worker ranges access
    | commit ref => exact (ht.commit other ref).unmapped rfl rfl (l.commit_roster other ref)
    | commitAll refs => exact (ht.commitAll other refs).unmapped rfl rfl (l.commitAll_roster other refs)
    | unlocalize =>
      cases current with
      | none => exact ht.unmapped rfl rfl rfl
      | some holder =>
        obtain ⟨h, hh, _⟩ := hholder holder rfl
        rw [after_eq hist l _ rfl rfl]
        exact ht.unlocalize hh

end Ledger

end TaskSpace

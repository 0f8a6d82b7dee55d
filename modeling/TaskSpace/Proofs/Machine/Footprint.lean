import TaskSpace.Proofs.Machine.Hosts

/-!
# What a step changes in the ledger

A step of a thread reaches only what its innermost body has: it records and releases mappings of the
current holder alone, and maps for its own worker alone. So the mappings of different holders stay
different.
-/

namespace TaskSpace

variable {σ : Type} {s s' : Space} {a a' : Recorder} {ids : List MappingId}

/-! ## Live mappings -/

namespace Space

def Alive (s : Space) (id : MappingId) : Prop :=
  ∃ mapping, s.mappings[id]? = some mapping ∧ mapping.live = true

/-- The mappings that are live stay so, but for some. -/
def Spares (ids : List MappingId) (s s' : Space) : Prop :=
  ∀ id, s.Alive id → id ∉ ids → s'.Alive id

theorem Alive.lt {id : MappingId} (h : s.Alive id) : id < s.mappings.length := by
  obtain ⟨mapping, hm, _⟩ := h
  exact (List.getElem?_eq_some_iff.1 hm).1

theorem Still.spares (h : Still s s') (ids : List MappingId) : Spares ids s s' := fun id ⟨mapping, hm, hl⟩ _ =>
  ⟨mapping, by rw [h.mappings, hm], hl⟩

theorem alive_unlocalize (s : Space) (first id : MappingId) :
    (s.unlocalize first).Alive id ↔ s.Alive id ∧ id ≠ first := by
  unfold Alive
  rw [mappings_unlocalize]
  by_cases he : first = id
  · subst he
    simp only [List.getElem?_modify_eq, ne_eq, not_true_eq_false, and_false, iff_false]
    rintro ⟨_, hm, hl⟩
    obtain ⟨_, _, rfl⟩ := Option.map_eq_some_iff.1 hm
    cases hl
  · rw [List.getElem?_modify_ne _ _ he]
    exact ⟨fun h => ⟨h, Ne.symm he⟩, fun h => h.1⟩

/-- Exactly what is asked for is released. -/
theorem alive_unlocalizeAll (s : Space) (ids : List MappingId) (id : MappingId) :
    Alive (AddressSpace.unlocalizeAll s ids) id ↔ s.Alive id ∧ id ∉ ids := by
  induction ids generalizing s with
  | nil => exact ⟨fun h => ⟨h, List.not_mem_nil⟩, fun h => h.1⟩
  | cons first rest ih =>
    have hfirst : AddressSpace.unlocalizeAll s (first :: rest) = AddressSpace.unlocalizeAll (s.unlocalize first) rest :=
      rfl
    rw [hfirst, ih, alive_unlocalize, List.mem_cons, not_or, and_assoc]

/-- How many mappings are dead. -/
def gone (s : Space) : Nat := Word.total (s.mappings.map fun mapping => (!mapping.live).toNat)

theorem gone_unlocalize {id : MappingId} (h : s.Alive id) : (s.unlocalize id).gone = s.gone + 1 := by
  obtain ⟨mapping, hm, hl⟩ := h
  have htotal := Roster.total_modify hm (fun old => { old with live := false }) fun mapping => (!mapping.live).toNat
  rw [← mappings_unlocalize, hl] at htotal
  exact htotal

/-- A new mapping is alive, and no mapping dies. -/
theorem localize_gone (s : Space) (ptr : Pointer) (len : Nat) (access : Access) (worker : WorkerId) :
    Fades s (s.localize ptr len access worker).2 ∧ (s.localize ptr len access worker).2.gone = s.gone ∧
      ∀ id, (s.localize ptr len access worker).1 = .ok id → (s.localize ptr len access worker).2.Alive id := by
  rcases s.localize_cases ptr len access worker with ⟨fault, he⟩ | ⟨_, _, _, moved, _, _, _, he⟩
  · rw [he]
    exact ⟨.refl s, rfl, fun _ hid => by cases hid⟩
  · have hacq := fun key => acquire_still (s.storeSegment moved) moved key access.refreshes
    rcases he with ⟨fault, t, ha, he⟩ | ⟨region, t, ha, he⟩ <;> rw [he]
    · have hm : t.mappings = s.mappings := (ha ▸ hacq _).mappings
      exact ⟨fun id mapping hid => ⟨mapping, by rw [hm, hid], fun hl => hl⟩, by rw [gone, hm, gone],
        fun _ hid => by cases hid⟩
    · have hm : t.mappings = s.mappings := (ha ▸ hacq _).mappings
      refine ⟨fun id mapping hid => ⟨mapping, ?_, fun hl => hl⟩, ?_, fun id hid => ?_⟩
      · have hlt := (List.getElem?_eq_some_iff.1 hid).1
        simp only [hm, List.getElem?_append_left hlt, hid]
      · simp [gone, hm, Word.total_append]
      · cases hid
        exact ⟨_, List.getElem?_concat_length, rfl⟩

/-- A new mapping gets a place of its own. -/
theorem localize_spares (s : Space) (ptr : Pointer) (len : Nat) (access : Access) (worker : WorkerId) :
    Spares [] s (s.localize ptr len access worker).2 ∧
      s.mappings.length ≤ (s.localize ptr len access worker).2.mappings.length ∧
      ∀ id, (s.localize ptr len access worker).1 = .ok id → id = s.mappings.length := by
  rcases s.localize_cases ptr len access worker with ⟨fault, he⟩ | ⟨_, _, _, moved, _, _, _, he⟩
  · rw [he]
    exact ⟨fun _ h _ => h, Nat.le_refl _, fun _ hid => by cases hid⟩
  · have hacq := fun key => acquire_still (s.storeSegment moved) moved key access.refreshes
    rcases he with ⟨fault, t, ha, he⟩ | ⟨region, t, ha, he⟩ <;> rw [he]
    · have hm : t.mappings = s.mappings := (ha ▸ hacq _).mappings
      exact ⟨Still.spares ⟨hm, (ha ▸ hacq _).live⟩ [], Nat.le_of_eq (congrArg List.length hm).symm, fun _ hid => by cases hid⟩
    · have hm : t.mappings = s.mappings := (ha ▸ hacq _).mappings
      refine ⟨fun id halive _ => ?_, by simp [hm], fun id hid => ?_⟩
      · have hlt := halive.lt
        obtain ⟨mapping, hmapping, hl⟩ := halive
        exact ⟨mapping, by simpa [hm, List.getElem?_append_left hlt] using hmapping, hl⟩
      · rw [← hm]
        exact (Except.ok.inj hid).symm

/-- What a call of `localizeAll` releases again it has made itself. -/
theorem localizeRest_spares (access : Access) (worker : WorkerId) (made : List MappingId) (ranges : List Range)
    (s : Space) :
    Spares made s (AddressSpace.localizeRest access worker made ranges s).2 ∧
      ∀ ids, (AddressSpace.localizeRest access worker made ranges s).1 = .ok ids →
        ∀ id ∈ ids, id ∈ made ∨ s.mappings.length ≤ id := by
  induction ranges generalizing s made with
  | nil => exact ⟨fun _ h _ => h, fun ids he id hid => .inl (Except.ok.inj he ▸ hid)⟩
  | cons range rest ih =>
    have hclass : AddressSpace.localize s = s.localize := rfl
    obtain ⟨hspares, hlen, hnew⟩ := s.localize_spares range.start range.len access worker
    simp only [AddressSpace.localizeRest, hclass]
    generalize s.localize range.start range.len access worker = out at hspares hlen hnew
    obtain ⟨answer, s'⟩ := out
    cases answer with
    | error fault =>
      cases fault with
      | refused error =>
        refine ⟨fun id halive hnot => ?_, fun _ he => by cases he⟩
        exact (s'.alive_unlocalizeAll made id).2 ⟨hspares id halive List.not_mem_nil, hnot⟩
      | panicked payload => exact ⟨fun id halive _ => hspares id halive List.not_mem_nil, fun _ he => by cases he⟩
    | ok new =>
      obtain rfl := hnew new rfl
      obtain ⟨hrest, hids⟩ := ih (made ++ [s.mappings.length]) s'
      refine ⟨fun id halive hnot => ?_, fun ids he id hid => ?_⟩
      · refine hrest id (hspares id halive List.not_mem_nil) fun hin => ?_
        rcases List.mem_append.1 hin with hin | hin
        · exact hnot hin
        · exact Nat.ne_of_lt halive.lt (List.mem_singleton.1 hin)
      · rcases hids ids he id hid with hin | hle
        · rcases List.mem_append.1 hin with hin | hin
          · exact .inl hin
          · exact .inr (Nat.le_of_eq (List.mem_singleton.1 hin).symm)
        · exact .inr (Nat.le_trans hlen hle)

end Space

/-! ## Recorders -/

namespace Recorder

/-- The mappings that were made, with their worker, are those of before and some for one worker. -/
def MapsFor (worker : WorkerId) (a a' : Recorder) : Prop :=
  ∃ made, a'.localized = a.localized ++ made ∧ ∀ e ∈ made, e.2 = worker

theorem MapsFor.of_eq {worker : WorkerId} (h : a'.localized = a.localized) : MapsFor worker a a' :=
  ⟨[], by rw [h, List.append_nil], fun _ he => by cases he⟩

theorem localizeRest_mapsFor (access : Access) (worker : WorkerId) (made : List MappingId) (ranges : List Range)
    (a : Recorder) : MapsFor worker a (AddressSpace.localizeRest access worker made ranges a).2 := by
  induction ranges generalizing a made with
  | nil => exact .of_eq rfl
  | cons range rest ih =>
    have hclass : AddressSpace.localize a = a.localize := rfl
    simp only [AddressSpace.localizeRest, hclass, Recorder.localize]
    rcases a.space.localize range.start range.len access worker with ⟨fault | id, space⟩
    · cases fault with
      | refused error => exact .of_eq (unlocalizeAll_localized _ made)
      | panicked payload => exact .of_eq rfl
    · obtain ⟨more, hmore, hworker⟩ := ih (made ++ [id])
        { a with space, localized := a.localized ++ [(range.start, worker)] }
      refine ⟨(range.start, worker) :: more, by rw [hmore, List.append_assoc]; rfl, fun e he => ?_⟩
      rcases List.mem_cons.1 he with rfl | he
      · rfl
      · exact hworker e he

/-- What is dead stays dead, and no mapping is released twice: as many died as releases were recorded. -/
structure Tidy (a a' : Recorder) : Prop where
  fades : Space.Fades a.space a'.space
  released : a'.released.length + a.space.gone = a.released.length + a'.space.gone

theorem Tidy.refl (a : Recorder) : a.Tidy a := ⟨.refl _, rfl⟩

theorem Tidy.trans {a'' : Recorder} (h : a.Tidy a') (h' : a'.Tidy a'') : a.Tidy a'' where
  fades := h.fades.trans h'.fades
  released := by
    have hfirst := h.released
    have hsecond := h'.released
    omega

theorem tidy_unlocalize {id : MappingId} (h : a.space.Alive id) : a.Tidy (a.unlocalize id) where
  fades := a.space.fades_unlocalize id
  released := by
    have hgone := Space.gone_unlocalize h
    obtain ⟨mapping, hm, _⟩ := h
    have hlog : (a.unlocalize id).released.length = a.released.length + 1 := by simp [Recorder.unlocalize, hm]
    have hspace : (a.unlocalize id).space = a.space.unlocalize id := rfl
    rw [hlog, hspace, hgone]
    omega

theorem tidy_unlocalizeAll (hn : ids.Nodup) (halive : ∀ id ∈ ids, a.space.Alive id) :
    a.Tidy (AddressSpace.unlocalizeAll a ids) := by
  induction ids generalizing a with
  | nil => exact .refl a
  | cons id rest ih =>
    obtain ⟨hnot, hn⟩ := List.nodup_cons.1 hn
    refine (tidy_unlocalize (halive id List.mem_cons_self)).trans (ih hn fun other hin => ?_)
    exact (a.space.alive_unlocalize id other).2
      ⟨halive other (List.mem_cons_of_mem _ hin), fun he => hnot (he ▸ hin)⟩

theorem tidy_localize (a : Recorder) (ptr : Pointer) (len : Nat) (access : Access) (worker : WorkerId) :
    a.Tidy (a.localize ptr len access worker).2 := by
  obtain ⟨hf, hgone, _⟩ := a.space.localize_gone ptr len access worker
  unfold Recorder.localize
  generalize a.space.localize ptr len access worker = out at hf hgone
  obtain ⟨fault | id, space⟩ := out <;> exact ⟨hf, by rw [hgone]⟩

/-- What a call of `localizeAll` has made is alive, be it released again or given. -/
theorem tidy_localizeRest (access : Access) (worker : WorkerId) {made : List MappingId} (ranges : List Range)
    (hn : made.Nodup) (halive : ∀ id ∈ made, a.space.Alive id) :
    a.Tidy (AddressSpace.localizeRest access worker made ranges a).2 ∧
      ∀ ids, (AddressSpace.localizeRest access worker made ranges a).1 = .ok ids → ids.Nodup ∧
        ∀ id ∈ ids, (AddressSpace.localizeRest access worker made ranges a).2.space.Alive id := by
  induction ranges generalizing a made with
  | nil => exact ⟨.refl a, fun ids he => Except.ok.inj he ▸ ⟨hn, halive⟩⟩
  | cons range rest ih =>
    have htidy := a.tidy_localize range.start range.len access worker
    obtain ⟨hspares, _, hnew⟩ := a.space.localize_spares range.start range.len access worker
    obtain ⟨_, _, hcame⟩ := a.space.localize_gone range.start range.len access worker
    simp only [AddressSpace.localizeRest, localize_eq, Recorder.localize] at htidy ⊢
    generalize a.space.localize range.start range.len access worker = out at htidy hspares hnew hcame
    obtain ⟨answer, space⟩ := out
    have hstays : ∀ id ∈ made, space.Alive id := fun id hin => hspares id (halive id hin) List.not_mem_nil
    cases answer with
    | error fault =>
      refine ⟨?_, fun ids he => ?_⟩
      · cases fault with
        | refused error => exact htidy.trans (tidy_unlocalizeAll hn hstays)
        | panicked payload => exact htidy
      · cases fault <;> cases he
    | ok new =>
      have hnodup : (made ++ [new]).Nodup := by
        rw [List.nodup_append]
        refine ⟨hn, List.pairwise_singleton _ new, fun id hin other hother he => ?_⟩
        rw [List.mem_singleton.1 hother, hnew new rfl] at he
        exact Nat.ne_of_lt (halive id hin).lt he
      have hmade : ∀ id ∈ made ++ [new],
          ({ a with space, localized := a.localized ++ [(range.start, worker)] } : Recorder).space.Alive id := by
        intro id hin
        rcases List.mem_append.1 hin with hin | hin
        · exact hstays id hin
        · exact List.mem_singleton.1 hin ▸ hcame new rfl
      obtain ⟨hrest, hids⟩ := ih hnodup hmade
      exact ⟨htidy.trans hrest, hids⟩

/-- Nothing is mapped, and nothing is released. -/
structure Quiet (a a' : Recorder) : Prop where
  still : Space.Still a.space a'.space
  localized : a'.localized = a.localized
  released : a'.released = a.released

theorem Quiet.refl (a : Recorder) : Quiet a a := ⟨.refl _, rfl, rfl⟩

theorem Quiet.trans {a'' : Recorder} (h : Quiet a a') (h' : Quiet a' a'') : Quiet a a'' where
  still := ⟨h'.still.mappings.trans h.still.mappings, h'.still.live.trans h.still.live⟩
  localized := h'.localized.trans h.localized
  released := h'.released.trans h.released

theorem Quiet.tidy (h : Quiet a a') : a.Tidy a' where
  fades := h.still.fades
  released := by rw [h.released, Space.gone, Space.gone, h.still.mappings]

theorem keep_quiet {answer : Except Fault Space} (hs : ∀ s, answer = .ok s → Space.Still a.space s)
    (hk : a.keep answer = .ok a') : Quiet a a' := by
  cases answer with
  | error fault => cases hk
  | ok s =>
    cases hk
    exact ⟨hs s rfl, rfl, rfl⟩

end Recorder

/-! ## Ledgers -/

namespace Ledger

variable {l l' : Ledger} {space : SpaceId} {worker : WorkerId} {mine : Option HolderId} {holder : HolderId}
  {g : Holder}

/-- The mapping is live in its space. -/
def Alive (l : Ledger) (space : SpaceId) (id : MappingId) : Prop :=
  ∃ a, l.spaces[space]? = some a ∧ a.space.Alive id

/-- The mappings that a holder has recorded are different, and all alive. -/
def Held (l : Ledger) (space : SpaceId) (holder : HolderId) : Prop :=
  ∀ g, l.roster.holder? holder = some g → g.handles.Nodup ∧ ∀ id ∈ g.handles, l.Alive space id

/-- What a thread that works in a space for a worker may do while `mine` is its current holder. -/
structure Footprint (space : SpaceId) (worker : WorkerId) (mine : Option HolderId) (l l' : Ledger) : Prop where
  kept : ∀ holder g, l.roster.holder? holder = some g → mine ≠ some holder → l'.roster.holder? holder = some g
  fresh : ∀ holder g, l.roster.holder? holder = none → l'.roster.holder? holder = some g → g.handles = []
  /-- What is recorded was recorded before, or it was mapped just now. -/
  grown : ∀ a holder g, l.spaces[space]? = some a → l'.roster.holder? holder = some g → ∀ id ∈ g.handles,
    a.space.mappings.length ≤ id ∨ ∃ old, l.roster.holder? holder = some old ∧ id ∈ old.handles
  mapped : ∀ (other : SpaceId) a, l.spaces[other]? = some a →
    ∃ a', l'.spaces[other]? = some a' ∧ Recorder.MapsFor worker a a'
  /-- What is released was recorded with the current holder. -/
  released : ∀ id, l.Alive space id → l'.Alive space id ∨
    ∃ holder g, mine = some holder ∧ l.roster.holder? holder = some g ∧ id ∈ g.handles
  /-- What is not recorded any more was released. -/
  cleared : ∀ holder g, l.roster.holder? holder = some g → ∀ id ∈ g.handles,
    (∃ g', l'.roster.holder? holder = some g' ∧ id ∈ g'.handles) ∨ ¬l'.Alive space id
  held : (∀ holder ∈ mine, l.Held space holder) → ∀ holder ∈ mine, l'.Held space holder
  tidy : (∀ holder ∈ mine, l.Held space holder) → ∀ a, l.spaces[space]? = some a →
    ∃ a', l'.spaces[space]? = some a' ∧ a.Tidy a'

/-- Nothing is mapped or released, and the holders are the same. -/
structure Quiet (l l' : Ledger) : Prop where
  holders : ∀ holder, l'.roster.holder? holder = l.roster.holder? holder
  spaces : ∀ (other : SpaceId) a, l.spaces[other]? = some a →
    ∃ a', l'.spaces[other]? = some a' ∧ Recorder.Quiet a a'

theorem Quiet.refl (l : Ledger) : l.Quiet l := ⟨fun _ => rfl, fun _ a ha => ⟨a, ha, .refl a⟩⟩

theorem Quiet.trans {l'' : Ledger} (h : l.Quiet l') (h' : l'.Quiet l'') : l.Quiet l'' where
  holders holder := (h'.holders holder).trans (h.holders holder)
  spaces other a ha := by
    obtain ⟨a', ha', hq⟩ := h.spaces other a ha
    obtain ⟨a'', ha'', hq'⟩ := h'.spaces other a' ha'
    exact ⟨a'', ha'', hq.trans hq'⟩

theorem Quiet.footprint (h : l.Quiet l') : Footprint space worker mine l l' where
  kept holder g hg _ := (h.holders holder).trans hg
  fresh holder g hnone hg := by
    rw [h.holders, hnone] at hg
    cases hg
  grown a holder g _ hg id hid := .inr ⟨g, h.holders holder ▸ hg, hid⟩
  mapped other a ha := by
    obtain ⟨a', ha', hq⟩ := h.spaces other a ha
    exact ⟨a', ha', .of_eq hq.localized⟩
  released id := by
    rintro ⟨a, ha, halive⟩
    obtain ⟨a', ha', hq⟩ := h.spaces space a ha
    exact .inl ⟨a', ha', hq.still.spares [] id halive List.not_mem_nil⟩
  cleared holder g hg _ hid := .inl ⟨g, (h.holders holder).trans hg, hid⟩
  held hheld holder hin g hg := by
    obtain ⟨hn, halive⟩ := hheld holder hin g ((h.holders holder).symm.trans hg)
    refine ⟨hn, fun id hid => ?_⟩
    obtain ⟨a, ha, hlive⟩ := halive id hid
    obtain ⟨a', ha', hq⟩ := h.spaces space a ha
    exact ⟨a', ha', hq.still.spares [] id hlive List.not_mem_nil⟩
  tidy _ a ha := by
    obtain ⟨a', ha', hq⟩ := h.spaces space a ha
    exact ⟨a', ha', hq.tidy⟩

theorem updateSpace_cases {other : SpaceId} {b : Recorder} (a' : Recorder) (ha : l.spaces[space]? = some a)
    (hb : l.spaces[other]? = some b) : (other = space ∧ b = a ∧ (l.updateSpace space fun _ => a').spaces[other]? = some a') ∨
      (l.updateSpace space fun _ => a').spaces[other]? = some b := by
  by_cases he : space = other
  · subst he
    cases ha.symm.trans hb
    exact .inl ⟨rfl, rfl, spaces_updateSpace ha _⟩
  · refine .inr ?_
    rw [Ledger.updateSpace, List.getElem?_modify_ne _ _ he, hb]

theorem quiet_updateSpace (ha : l.spaces[space]? = some a) (hq : Recorder.Quiet a a') :
    l.Quiet (l.updateSpace space fun _ => a') where
  holders _ := rfl
  spaces other b hb := by
    rcases updateSpace_cases a' ha hb with ⟨_, rfl, hs⟩ | hs
    · exact ⟨a', hs, hq⟩
    · exact ⟨b, hs, .refl b⟩

theorem quiet_change {op : Recorder → Except Fault Recorder} (hs : ∀ a a', op a = .ok a' → Recorder.Quiet a a') :
    l.Quiet (l.change space op).2 := by
  unfold Ledger.change
  split
  · exact .refl l
  · rename_i a ha
    split
    · rename_i a' he
      exact quiet_updateSpace ha (hs a a' he)
    · exact .refl l

theorem quiet_write (l : Ledger) (ref : LocalRef) (off : Nat) (bytes : Bytes) :
    l.Quiet (l.write ref off bytes).2 :=
  quiet_change fun _ _ he => Recorder.keep_quiet (fun _ hw => Space.write_still hw) he

theorem quiet_commit (l : Ledger) (space : SpaceId) (ref : LocalRef) : l.Quiet (l.commit space ref).2 := by
  unfold Ledger.commit
  split
  · exact .refl l
  · exact quiet_change fun _ _ he => Recorder.keep_quiet (fun _ hw => Space.put_still hw) he
  · exact .refl l

theorem quiet_commitAll (l : Ledger) (space : SpaceId) (refs : List LocalRef) :
    l.Quiet (l.commitAll space refs).2 := by
  induction refs generalizing l with
  | nil => exact .refl l
  | cons ref rest ih =>
    have hone := l.quiet_commit space ref
    unfold Ledger.commitAll
    split <;> rename_i he <;> rw [he] at hone
    · exact hone
    · exact hone.trans (ih _)

theorem quiet_rmw (l : Ledger) (space : SpaceId) (worker : WorkerId) (ptr : Pointer) (len : Nat) (update : Update) :
    l.Quiet (l.performIn space worker mine (.rmw ptr len update)).2 := by
  simp only [performIn, look]
  cases ha : l.spaces[space]? with
  | none => exact .refl l
  | some a =>
    simp only [AddressSpace.rmw]
    cases hw : a.space.rmw ptr len update with
    | error fault => exact .refl l
    | ok result => exact quiet_updateSpace ha ⟨Space.rmw_still hw, rfl, rfl⟩

/-! ### Mapping and releasing -/

theorem alive_updateSpace {id : MappingId} (ha : l.spaces[space]? = some a) (hs : Space.Spares [] a.space a'.space)
    (h : l.Alive space id) : (l.updateSpace space fun _ => a').Alive space id := by
  obtain ⟨b, hb, halive⟩ := h
  cases ha.symm.trans hb
  exact ⟨a', spaces_updateSpace ha _, hs id halive List.not_mem_nil⟩

/-- A call that maps nothing for good. -/
theorem Footprint.spare (ha : l.spaces[space]? = some a) (hs : Space.Spares [] a.space a'.space)
    (hm : Recorder.MapsFor worker a a') (htidy : a.Tidy a') :
    Footprint space worker mine l (l.updateSpace space fun _ => a') where
  kept _ _ hg _ := hg
  fresh _ _ hnone hg := by cases hnone.symm.trans hg
  grown _ _ g _ hg id hid := .inr ⟨g, hg, hid⟩
  mapped other b hb := by
    rcases updateSpace_cases a' ha hb with ⟨_, rfl, hspace⟩ | hspace
    · exact ⟨a', hspace, hm⟩
    · exact ⟨b, hspace, .of_eq rfl⟩
  released _ halive := .inl (alive_updateSpace ha hs halive)
  cleared _ g hg _ hid := .inl ⟨g, hg, hid⟩
  held hheld holder hin g hg := by
    obtain ⟨hn, halive⟩ := hheld holder hin g hg
    exact ⟨hn, fun id hid => alive_updateSpace ha hs (halive id hid)⟩
  tidy _ b hb := by
    cases ha.symm.trans hb
    exact ⟨a', spaces_updateSpace ha _, htidy⟩

/-- New mappings are recorded with the current holder. -/
theorem Footprint.record (ha : l.spaces[space]? = some a) (hs : Space.Spares [] a.space a'.space)
    (hm : Recorder.MapsFor worker a a') (htidy : a.Tidy a') (hnew : ∀ id ∈ ids, a.space.mappings.length ≤ id)
    (hn : ids.Nodup) (hcame : ∀ id ∈ ids, a'.space.Alive id) :
    Footprint space worker (some holder) l { l.updateSpace space fun _ => a' with
      roster := l.roster.updateHolder holder fun h => { h with handles := h.handles ++ ids } } where
  kept other g hg hne := by
    rw [Roster.holder?_updateHolder, if_neg fun he => hne (by rw [he]), hg]
  fresh other g hnone hg := by
    rw [Roster.holder?_updateHolder, hnone] at hg
    split at hg <;> cases hg
  grown b other g hb hg id hid := by
    cases ha.symm.trans hb
    rw [Roster.holder?_updateHolder] at hg
    split at hg
    · obtain ⟨old, hold, rfl⟩ := Option.map_eq_some_iff.1 hg
      rcases List.mem_append.1 hid with hid | hid
      · exact .inr ⟨old, hold, hid⟩
      · exact .inl (hnew id hid)
    · exact .inr ⟨g, hg, hid⟩
  mapped := (show Footprint space worker none l _ from .spare ha hs hm htidy).mapped
  released _ halive := .inl (alive_updateSpace ha hs halive)
  cleared other g hg id hid := by
    refine .inl ?_
    rw [Roster.holder?_updateHolder, hg]
    split
    · exact ⟨_, rfl, List.mem_append_left _ hid⟩
    · exact ⟨g, rfl, hid⟩
  held hheld other hin g hg := by
    cases hin
    rw [Roster.holder?_updateHolder, if_pos rfl] at hg
    obtain ⟨old, hold, rfl⟩ := Option.map_eq_some_iff.1 hg
    obtain ⟨hnold, halive⟩ := hheld holder rfl old hold
    refine ⟨List.nodup_append.2 ⟨hnold, hn, fun id hid id' hid' he => ?_⟩, fun id hid => ?_⟩
    · obtain ⟨b, hb, hlive⟩ := halive id hid
      cases ha.symm.trans hb
      exact Nat.not_le_of_lt hlive.lt (he ▸ hnew id' hid')
    · rcases List.mem_append.1 hid with hid | hid
      · exact alive_updateSpace ha hs (halive id hid)
      · exact ⟨a', spaces_updateSpace ha _, hcame id hid⟩
  tidy := (show Footprint space worker (some holder) l _ from .spare ha hs hm htidy).tidy

/-- The current holder is emptied, and what it had recorded is released. -/
theorem Footprint.release {roster : Roster}
    (hids : ∀ id, id ∈ ids ↔ ∃ g, l.roster.holder? holder = some g ∧ id ∈ g.handles)
    (hnodup : (∀ g, l.roster.holder? holder = some g → g.handles.Nodup) → ids.Nodup)
    (hself : ∀ g, roster.holder? holder = some g → g.handles = [])
    (hrest : ∀ other, other ≠ holder → roster.holder? other = l.roster.holder? other) :
    Footprint space worker (some holder) l ({ l with roster }.release space ids) where
  kept other g hg hne := (hrest other fun he => hne (by rw [he])).trans hg
  fresh other g hnone hg := by
    by_cases he : other = holder
    · exact hself g (he ▸ hg)
    · cases hnone.symm.trans ((hrest other he).symm.trans hg)
  grown _ other g _ hg id hid := by
    by_cases he : other = holder
    · rw [hself g (he ▸ hg)] at hid
      cases hid
    · exact .inr ⟨g, (hrest other he).symm.trans hg, hid⟩
  mapped other b hb := by
    by_cases he : space = other
    · subst he
      exact ⟨_, spaces_updateSpace hb _, .of_eq (Recorder.unlocalizeAll_localized ..)⟩
    · refine ⟨b, ?_, .of_eq rfl⟩
      simp only [Ledger.release, Ledger.updateSpace]
      rw [List.getElem?_modify_ne _ _ he, hb]
  released id := by
    rintro ⟨b, hb, halive⟩
    by_cases hin : id ∈ ids
    · obtain ⟨g, hg, hid⟩ := (hids id).1 hin
      exact .inr ⟨holder, g, rfl, hg, hid⟩
    · refine .inl ⟨_, spaces_updateSpace hb _, ?_⟩
      rw [Recorder.unlocalizeAll_space]
      exact (b.space.alive_unlocalizeAll ids id).2 ⟨halive, hin⟩
  cleared other g hg id hid := by
    by_cases he : other = holder
    · refine .inr ?_
      rintro ⟨a, ha, halive⟩
      simp only [Ledger.release, Ledger.updateSpace, List.getElem?_modify_eq] at ha
      obtain ⟨b, _, rfl⟩ := Option.map_eq_some_iff.1 ha
      rw [Recorder.unlocalizeAll_space, Space.alive_unlocalizeAll] at halive
      exact halive.2 ((hids id).2 ⟨g, he ▸ hg, hid⟩)
    · exact .inl ⟨g, (hrest other he).trans hg, hid⟩
  held _ other hin g hg := by
    cases hin
    rw [hself g hg]
    exact ⟨List.nodup_nil, fun id hid => by cases hid⟩
  tidy hheld b hb := by
    refine ⟨_, spaces_updateSpace hb _, Recorder.tidy_unlocalizeAll (hnodup fun g hg => (hheld holder rfl g hg).1)
      fun id hin => ?_⟩
    obtain ⟨g, hg, hid⟩ := (hids id).1 hin
    obtain ⟨a, ha, halive⟩ := (hheld holder rfl g hg).2 id hid
    cases hb.symm.trans ha
    exact halive

theorem localize_footprint (l : Ledger) (space : SpaceId) (worker : WorkerId) (holder : HolderId) (ptr : Pointer)
    (len : Nat) (access : Access) :
    Footprint space worker (some holder) l (l.localize space worker holder ptr len access).2 := by
  unfold Ledger.localize
  split
  · exact (Quiet.refl l).footprint
  · rename_i a ha
    obtain ⟨hs, _, hnew⟩ := a.space.localize_spares ptr len access worker
    obtain ⟨_, _, hcame⟩ := a.space.localize_gone ptr len access worker
    have htidy := a.tidy_localize ptr len access worker
    simp only [Recorder.localize_eq, Recorder.localize] at htidy ⊢
    generalize a.space.localize ptr len access worker = out at hs hnew hcame htidy
    obtain ⟨answer, s⟩ := out
    cases answer with
    | error fault => exact .spare ha hs (.of_eq rfl) htidy
    | ok id =>
      have hid : ∀ other ∈ [id], a.space.mappings.length ≤ other := fun other hin => by
        rw [List.mem_singleton.1 hin]
        exact Nat.le_of_eq (hnew id rfl).symm
      refine .record ha hs ⟨[(ptr, worker)], rfl, fun e he => ?_⟩ htidy hid (List.pairwise_singleton _ id) fun other hin => ?_
      · rw [List.mem_singleton.1 he]
      · exact List.mem_singleton.1 hin ▸ hcame id rfl

theorem localizeAll_footprint (l : Ledger) (space : SpaceId) (worker : WorkerId) (holder : HolderId)
    (ranges : List Range) (access : Access) :
    Footprint space worker (some holder) l (l.localizeAll space worker holder ranges access).2 := by
  unfold Ledger.localizeAll
  split
  · exact (Quiet.refl l).footprint
  · rename_i a ha
    obtain ⟨hs, hnew⟩ := a.space.localizeRest_spares access worker [] ranges
    obtain ⟨hfst, hsnd⟩ := a.localizeRest_space access worker [] ranges
    have hm := a.localizeRest_mapsFor access worker [] ranges
    obtain ⟨htidy, hcame⟩ := a.tidy_localizeRest access worker ranges List.nodup_nil fun _ hid => by cases hid
    rw [← hfst] at hnew
    rw [← hsnd] at hs
    simp only [AddressSpace.localizeAll]
    generalize AddressSpace.localizeRest access worker [] ranges a = out at hs hnew hm htidy hcame
    obtain ⟨answer, a'⟩ := out
    cases answer with
    | error fault => exact .spare ha hs hm htidy
    | ok ids =>
      dsimp only
      rw [foldl_record]
      exact .record ha hs hm htidy (fun id hin => (hnew ids rfl id hin).resolve_left List.not_mem_nil)
        (hcame ids rfl).1 (hcame ids rfl).2

theorem unlocalize_footprint (l : Ledger) (space : SpaceId) (worker : WorkerId) (holder : HolderId) :
    Footprint space worker (some holder) l (l.unlocalize space holder).2 := by
  refine .release (fun id => ?_) (fun hn => ?_) (fun g hg => ?_) fun other hne => ?_
  · cases l.roster.holder? holder <;> simp
  · cases hg : l.roster.holder? holder with
    | none => exact List.nodup_nil
    | some g => exact hn g hg
  · rw [Roster.holder?_updateHolder, if_pos rfl] at hg
    obtain ⟨_, _, rfl⟩ := Option.map_eq_some_iff.1 hg
    rfl
  · rw [Roster.holder?_updateHolder, if_neg hne.symm]

theorem performIn_footprint (l : Ledger) (space : SpaceId) (worker : WorkerId) (mine : Option HolderId)
    (op : MemoryOp) : Footprint space worker mine l (l.performIn space worker mine op).2 := by
  have hquiet : ∀ {l' : Ledger}, l.Quiet l' → Footprint space worker mine l l' := fun h => h.footprint
  cases op with
  | alloc size blockSize =>
    refine hquiet ?_
    simp only [performIn]
    cases ha : l.spaces[space]? with
    | none => exact .refl l
    | some a => exact quiet_updateSpace ha ⟨Space.alloc_still a.space size blockSize, rfl, rfl⟩
  | dealloc ptr =>
    exact hquiet (quiet_change fun _ _ he => Recorder.keep_quiet (fun _ hd => Space.dealloc_still hd) he)
  | put ptr bytes =>
    exact hquiet (quiet_change fun _ _ he => Recorder.keep_quiet (fun _ hw => Space.put_still hw) he)
  | fill ptr value len =>
    exact hquiet (quiet_change fun _ _ he =>
      Recorder.keep_quiet (fun _ hw => Space.put_still (Space.fill_eq_put _ _ _ _ ▸ hw)) he)
  | rmw ptr len update => exact hquiet (l.quiet_rmw space worker ptr len update)
  | get ptr len => exact hquiet (.refl l)
  | homeOf ptr => exact hquiet (.refl l)
  | commit ref => exact hquiet (l.quiet_commit space ref)
  | commitAll refs => exact hquiet (l.quiet_commitAll space refs)
  | localize ptr len access =>
    cases mine with
    | none => exact hquiet (.refl l)
    | some holder => exact l.localize_footprint space worker holder ptr len access
  | localizeAll ranges access =>
    cases mine with
    | none => exact hquiet (.refl l)
    | some holder => exact l.localizeAll_footprint space worker holder ranges access
  | unlocalize =>
    cases mine with
    | none => exact hquiet (.refl l)
    | some holder => exact l.unlocalize_footprint space worker holder

/-- A fresh holder is registered. -/
theorem Footprint.opened {id : StorageId} {thread : ThreadId} {owner : Option TaskId} {roster : Roster}
    (ho : l.roster.Opened id thread owner roster) : Footprint space worker mine l { l with roster } where
  kept other g hg _ := (ho.holders other (Roster.ne_fresh hg)).trans hg
  fresh other g hnone hg := by
    obtain ⟨h, hh, _, hempty, _⟩ := ho.fresh
    by_cases he : other = l.roster.holders.length + 1
    · subst he
      cases hh.symm.trans hg
      exact hempty
    · cases hnone.symm.trans ((ho.holders other he).symm.trans hg)
  grown _ other g _ hg id hid := by
    obtain ⟨h, hh, _, hempty, _⟩ := ho.fresh
    by_cases he : other = l.roster.holders.length + 1
    · subst he
      cases hh.symm.trans hg
      rw [hempty] at hid
      cases hid
    · exact .inr ⟨g, (ho.holders other he).symm.trans hg, hid⟩
  mapped other a ha := ⟨a, ha, .of_eq rfl⟩
  released _ halive := .inl halive
  cleared other g hg _ hid := .inl ⟨g, (ho.holders other (Roster.ne_fresh hg)).trans hg, hid⟩
  held hheld other hin g hg := by
    obtain ⟨h, hh, _, hempty, _⟩ := ho.fresh
    by_cases he : other = l.roster.holders.length + 1
    · subst he
      cases hh.symm.trans hg
      rw [hempty]
      exact ⟨List.nodup_nil, fun id hid => by cases hid⟩
    · exact hheld other hin g ((ho.holders other he).symm.trans hg)
  tidy _ a ha := ⟨a, ha, .refl a⟩

/-- The holder on top of a storage is deregistered, and what it has is released. -/
theorem Footprint.closed {id : StorageId} {thread : ThreadId} {rest : List HolderId} {roster : Roster}
    (hg : l.roster.holder? holder = some g) (hc : l.roster.Closed id thread holder rest roster) :
    Footprint space worker (some holder) l ({ l with roster }.release space g.handles) :=
  .release (fun id => by simp [hg]) (fun hn => hn g hg)
    (fun g' hg' => by
      cases (hc.holder g hg).1.symm.trans hg'
      rfl)
    hc.holders

/-! ### No mapping has two holders -/

def Apart (l : Ledger) : Prop :=
  ∀ holder holder' g g', l.roster.holder? holder = some g → l.roster.holder? holder' = some g' →
    ∀ id ∈ g.handles, id ∈ g'.handles → holder = holder'

theorem Footprint.apart (hf : Footprint space worker mine l l') (ha : l.spaces[space]? = some a)
    (hvalid : ∀ holder g, l.roster.holder? holder = some g → ∀ id ∈ g.handles, id < a.space.mappings.length)
    (h : l.Apart) : l'.Apart := by
  -- one of two holders is not the current one, so it has what it had before
  have hother : ∀ {holder other g x id}, other ≠ holder → mine ≠ some other → l'.roster.holder? holder = some g →
      l'.roster.holder? other = some x → id ∈ g.handles → id ∈ x.handles → False := by
    intro holder other g x id hne hnot hg hx hid hid'
    cases hold : l.roster.holder? other with
    | none =>
      rw [hf.fresh other x hold hx] at hid'
      cases hid'
    | some old =>
      cases (hf.kept other old hold hnot).symm.trans hx
      rcases hf.grown a holder g ha hg id hid with hle | ⟨before, hbefore, hin⟩
      · exact Nat.not_le_of_lt (hvalid other _ hold id hid') hle
      · exact hne (h other holder _ before hold hbefore id hid' hin)
  intro holder holder' g g' hg hg' id hid hid'
  apply Classical.byContradiction
  intro hne
  by_cases hmine : mine = some holder'
  · refine hother hne (fun he => hne ?_) hg' hg hid' hid
    exact Option.some.inj (he.symm.trans hmine)
  · exact hother (Ne.symm hne) hmine hg hg' hid hid'

end Ledger

/-! ## Moves -/

namespace Machine

open Ledger (Footprint)

variable {m rest : Machine σ} {n k : Nat} {space : SpaceId} {hist : History} {es : TaskId → List Event}
  {id : ThreadId} {th th' : Thread σ} {t : TaskId} {bracket : Bracket} {below : List (TaskId × Bracket)}
  {ledger : Ledger} {rt : Runtime}

theorem Sound.footprint_openBracket (h : m.Sound n space hist) (hth : m.threads[id]? = some th)
    (hw : th.context.isSome) {parent : Option HolderId}
    (ho : m.ledger.openBracket id id (some t) parent = (.ok bracket, ledger)) :
    Footprint space id mine m.ledger ledger := by
  obtain ⟨s, hs, hserves⟩ := h.exists_storage hth hw
  obtain ⟨roster, hopen, hopened⟩ :=
    Ledger.openBracket_ok h.roster hs hserves.owner (hserves.closed hw) (some t) parent
  cases hopen.symm.trans ho
  exact .opened hopened

theorem Sound.footprint_closeBracket (h : m.Sound n space hist) (hth : m.threads[id]? = some th)
    (hbodies : th.bodies = (t, bracket) :: below)
    (hc : m.ledger.closeBracket id bracket = (.ok (), ledger)) :
    Footprint space id th.holder m.ledger ledger := by
  obtain ⟨hholder, g, roster, hg, hclosed, rfl⟩ := h.of_closeBracket hth hbodies hc
  rw [hholder]
  exact .closed hg hclosed

theorem Sound.footprint_answer (h : m.Sound n space hist) (hth : m.threads[id]? = some th) (r : Request) :
    Footprint space id th.holder m.ledger (m.answer th r).2 := by
  cases r with
  | memory op =>
    show Footprint space id th.holder m.ledger (m.ledger.perform (m.site th) op).2
    cases hsite : m.site th with
    | none => exact (Ledger.Quiet.refl _).footprint
    | some site =>
      obtain rfl := h.site site hsite
      obtain ⟨c, hc, hfound⟩ := Option.bind_eq_some_iff.1 hsite
      obtain ⟨rt, _, hfound⟩ := Option.bind_eq_some_iff.1 hfound
      cases hfound
      obtain ⟨_, rfl, _⟩ := (h.fits id th hth).works c hc
      exact m.ledger.performIn_footprint rt.space c.worker th.holder op
  | write ref off bytes => exact (m.ledger.quiet_write ref off bytes).footprint
  | _ => exact (Ledger.Quiet.refl _).footprint

theorem closeStorage_quiet (m : Machine σ) (storage : StorageId) :
    m.ledger.Quiet (m.closeStorage storage).ledger where
  holders _ := Roster.holder?_updateStorage ..
  spaces _ a ha := ⟨a, ha, .refl a⟩

/-- A step changes the ledger as its thread may. -/
theorem Hosts.footprint (h : m.Hosts k es) (hth : m.threads[id]? = some th) (hm : m.Move id th rest th')
    (hcrash : rest.crash = none) (hone : m.runtimes = [rt]) :
    Footprint rt.space id th.holder m.ledger rest.ledger := by
  obtain ⟨space, hist, hsound⟩ := h.sound
  have hspace : rt.space = space := (hsound.runtimes rt (by simp [hone])).2.1
  have hquiet : ∀ {ledger}, m.ledger.Quiet ledger → Footprint rt.space id th.holder m.ledger ledger :=
    fun hq => hq.footprint
  cases hm with
  | answered hctl ha =>
    cases ha with
    | call r next => exact hspace ▸ hsound.footprint_answer hth r
    | _ => exact hquiet (.refl _)
  | launched hctl => exact (h.controlFits hth hctl).2.elim
  | rooted hctl hrt hstorage ho =>
    obtain ⟨hst, hrole, _⟩ := h.controlFits hth hctl
    obtain ⟨rfl, hw⟩ := Thread.base_eq_outside.1 (Thread.base_of_ne (hst.base_ne hrole))
    obtain rfl := hsound.rootStorage hrt hstorage
    exact hspace ▸ hsound.footprint_openBracket hth hw ho
  | began hctl _ _ ho =>
    obtain ⟨_, _, rfl, hw, _⟩ := h.controlFits hth hctl
    exact hspace ▸ hsound.footprint_openBracket hth hw ho
  | left _ hf hclose => exact hspace ▸ hsound.footprint_closeBracket hth (Thread.bodies_eq hf) hclose
  | leftRoot _ hf hclose => exact hspace ▸ hsound.footprint_closeBracket hth (Thread.bodies_eq hf) hclose
  | exited => exact hquiet (m.closeStorage_quiet _)
  | @closed _ found _ storage =>
    obtain ⟨left, crash, he⟩ := dropQueues_eq (m.closeStorage storage) (queued found.queues)
    rw [he]
    exact hquiet (m.closeStorage_quiet storage)
  | crashed => cases hcrash
  | _ => exact hquiet (.refl _)

end Machine

end TaskSpace

import TaskSpace.Proofs.Machine.Sound

/-!
# Bodies begin and end

A bracket that a sound machine opens or closes is never refused: the storage belongs to the thread,
it is open as long as the thread works, and its stack is the thread's bodies.
-/

namespace TaskSpace

variable {σ : Type}

namespace Thread

variable {th th₀ : Thread σ}

theorem context_setTask_currentTask (th : Thread σ) : (th.setTask th.currentTask).context = th.context := by
  unfold setTask currentTask
  cases th.context <;> rfl

/-- A mark that was set in between does not matter. -/
theorem context_setTask {mark t : Option TaskId} (h : th.context = (th₀.setTask mark).context) :
    (th.setTask t).context = (th₀.setTask t).context := by
  simp only [setTask] at h ⊢
  rw [h, Option.map_map]
  rfl

end Thread

namespace Machine

variable {m : Machine σ} {n : Nat} {space : SpaceId} {hist : History} {id : ThreadId} {th : Thread σ}
  {t : TaskId} {bracket : Bracket} {below : List (TaskId × Bracket)}

/-- A thread that works for the runtime has the storage of its number. -/
theorem Sound.exists_storage (h : m.Sound n space hist) (hth : m.threads[id]? = some th)
    (hw : th.context.isSome) : ∃ s, m.ledger.roster.storages[id]? = some s ∧ s.Serves id space th := by
  have hlt := (h.fits id th hth).lt hw
  obtain ⟨s, hs⟩ := Roster.exists_storage (h.storages.symm ▸ hlt)
  exact ⟨s, hs, h.serves id s th hs hth⟩

/-- The bracket of the body on top of a thread closes: its holder leaves the stack of the thread's storage, and what
it has is released. -/
theorem Sound.closeBracket_ok (h : m.Sound n space hist) (hth : m.threads[id]? = some th)
    (hbodies : th.bodies = (t, bracket) :: below) :
    th.holder = some bracket.holder ∧ ∃ g roster, m.ledger.roster.holder? bracket.holder = some g ∧
      m.ledger.roster.Closed id id bracket.holder (below.map fun body => body.2.holder) roster ∧
      m.ledger.closeBracket id bracket = (.ok (), { m.ledger with roster }.release space g.handles) := by
  have hfit := h.fits id th hth
  obtain ⟨hholder, hstorage, _⟩ := hbodies ▸ hfit.nested
  obtain ⟨s, hs, hserves⟩ := h.exists_storage hth (hfit.isSome_of_bodies (hbodies ▸ List.mem_cons_self))
  have hstack : s.stack = bracket.holder :: below.map fun body => body.2.holder := by
    rw [hserves.stack, Thread.stack, hbodies, List.map_cons]
  subst hstorage
  obtain ⟨g, roster, hg, hclose, hclosed⟩ := Ledger.closeBracket_ok h.roster hs hserves.owner hstack
  exact ⟨hholder, g, roster, hg, hclosed, by rw [hclose, hserves.space]⟩

/-- The bracket that a thread closes is that of the body on top. -/
theorem Sound.of_closeBracket (h : m.Sound n space hist) (hth : m.threads[id]? = some th)
    (hbodies : th.bodies = (t, bracket) :: below) {ledger : Ledger}
    (hc : m.ledger.closeBracket id bracket = (.ok (), ledger)) :
    th.holder = some bracket.holder ∧ ∃ g roster, m.ledger.roster.holder? bracket.holder = some g ∧
      m.ledger.roster.Closed id id bracket.holder (below.map fun body => body.2.holder) roster ∧
      ledger = { m.ledger with roster }.release space g.handles := by
  obtain ⟨hholder, g, roster, hg, hclosed, hclose⟩ := h.closeBracket_ok hth hbodies
  cases hclose.symm.trans hc
  exact ⟨hholder, g, roster, hg, hclosed, rfl⟩

/-- One thread and the stack of its storage change together. What the new roster says of the owners of
holders, and of the holders that are released, is left to the bracket. -/
theorem Sound.rebracket (h : m.Sound n space hist) (hth : m.threads[id]? = some th) {th' : Thread σ}
    {ledger : Ledger} (hroster : ledger.roster.Sound)
    (hstorage : ∀ s, m.ledger.roster.storages[id]? = some s →
      ∃ s', ledger.roster.storages[id]? = some s' ∧ s.Restacked id th'.stack s')
    (hrest : ∀ other : StorageId, other ≠ id →
      ledger.roster.storages[other]? = m.ledger.roster.storages[other]?)
    (hlen : ledger.roster.storages.length = m.ledger.roster.storages.length)
    (hw : th'.context.isSome → th.context.isSome) (hf : th'.Fits n id)
    (hk : ({ m with ledger } : Machine σ).Keeps th'.control)
    (hkept : ∀ holder g, m.ledger.roster.holder? holder = some g →
      ∃ g', ledger.roster.holder? holder = some g' ∧ g'.owner = g.owner)
    (howners : ∀ body ∈ th'.bodies,
      ∃ g, ledger.roster.holder? body.2.holder = some g ∧ g.owner = some body.1)
    (howned : ∀ holder g, ledger.roster.holder? holder = some g → ∃ t, g.owner = some t ∧
      (t = TaskId.root ∨ ∃ cell, m.cell? t = some cell ∧ cell.state ≠ .created))
    (hunique : ∀ holder holder' g g' t, ledger.roster.holder? holder = some g →
      ledger.roster.holder? holder' = some g' → t ≠ TaskId.root → g.owner = some t →
      g'.owner = some t → holder = holder')
    (hdone : ∀ (other : ThreadId) (x : Thread σ), m.threads[other]? = some x → ∀ t,
      x.control.completing = some t → ledger.roster.Released t)
    (hterm : ∀ t cell, m.cell? t = some cell → cell.state.isTerminal → ledger.roster.Released t)
    (ht : ledger.Tallied space hist) :
    ({ m with ledger }.setThread id th').Sound n space hist where
  crash := h.crash
  runtimes := h.runtimes
  present := by
    simp only [Machine.setThread, List.length_set]
    exact h.present
  fits other x hx := by
    rcases threads_setThread hx with ⟨rfl, rfl⟩ | ⟨_, hx⟩
    · exact hf
    · exact h.fits other x hx
  keeps other x hx := by
    rcases threads_setThread hx with ⟨rfl, rfl⟩ | ⟨_, hx⟩
    · exact hk
    · have hkeeps := h.keeps other x hx
      exact ⟨hkeeps.1, fun t hc => ⟨(hkeeps.2 t hc).1, hdone other x hx t hc⟩⟩
  roster := hroster
  storages := hlen.trans h.storages
  serves other s' x hs' hx := by
    rcases threads_setThread hx with ⟨rfl, rfl⟩ | ⟨hne, hx⟩
    · obtain ⟨s, hs⟩ := Roster.exists_storage (hlen ▸ (List.getElem?_eq_some_iff.1 hs').1)
      obtain ⟨found, hfound, hre⟩ := hstorage s hs
      cases hfound.symm.trans hs'
      have hserves := h.serves other s th hs hth
      exact ⟨hre.worker.trans hserves.worker, hre.space.trans hserves.space, hre.stack,
        by rw [hre.owner]; rfl, fun hwork => hre.closed.trans (hserves.closed (hw hwork))⟩
    · exact h.serves other s' x (hrest other hne ▸ hs') hx
  owners other x hx := by
    rcases threads_setThread hx with ⟨rfl, rfl⟩ | ⟨_, hx⟩
    · exact howners
    · intro body hm
      obtain ⟨g, hg, ho⟩ := h.owners other x hx body hm
      obtain ⟨g', hg', ho'⟩ := hkept _ g hg
      exact ⟨g', hg', ho'.trans ho⟩
  owned := howned
  unique := hunique
  cells t cell hc := ⟨(h.cells t cell hc).1, (h.cells t cell hc).2.1, hterm t cell hc⟩
  tally := ht

/-- A body begins. A task has no holder before; `hcell` and `hdone` say that it runs and that nobody
completes it. -/
theorem Sound.openBracket (h : m.Sound n space hist) (hth : m.threads[id]? = some th)
    (hw : th.context.isSome) {frame : Bracket → Frame σ} {body : Body σ}
    (hframe : ∀ b, (frame b).body? = some (t, b))
    (hfits : ∀ b, Control.Fits (th.base id) th.context.isSome id (frame b :: th.frames) (.run body))
    (hnone : t ≠ TaskId.root → ∀ holder g, m.ledger.roster.holder? holder = some g → g.owner ≠ some t)
    (hcell : t = TaskId.root ∨ ∃ cell, m.cell? t = some cell ∧ cell.state = .running)
    (hdone : ∀ (other : ThreadId) (x : Thread σ), m.threads[other]? = some x →
      x.control.completing ≠ some t) :
    (m.openBracket id th id t frame body).Sound n space hist := by
  obtain ⟨s, hs, hserves⟩ := h.exists_storage hth hw
  obtain ⟨roster, hopen, ho⟩ :=
    Ledger.openBracket_ok h.roster hs hserves.owner (hserves.closed hw) (some t) th.holder
  obtain ⟨fresh, hfresh, howner, _, _⟩ := ho.fresh
  simp only [Machine.openBracket, hopen]
  have hbodies : (frame ⟨id, m.ledger.roster.holders.length + 1, th.holder⟩ :: th.frames).filterMap
      Frame.body? = (t, ⟨id, m.ledger.roster.holders.length + 1, th.holder⟩) :: th.bodies := by
    rw [List.filterMap_cons, hframe]
    rfl
  have hfit := h.fits id th hth
  have hreleased : ∀ other, other ≠ t → m.ledger.roster.Released other → roster.Released other := by
    intro other hne hr holder g hg hown
    by_cases hn : holder = m.ledger.roster.holders.length + 1
    · subst hn
      cases hfresh.symm.trans hg
      exact absurd (Option.some.inj (hown.symm.trans howner)) hne
    · exact hr holder g (ho.holders holder hn ▸ hg) hown
  -- the task has no other holder
  have hclash : ∀ {t' holder g}, t' ≠ TaskId.root → fresh.owner = some t' →
      m.ledger.roster.holder? holder = some g → g.owner ≠ some t' := by
    intro t' holder g hne hown hg
    cases howner.symm.trans hown
    exact hnone hne holder g hg
  refine h.rebracket hth ho.sound (fun s₀ hs₀ => ?_) ho.rest ho.storages (fun _ => hw) ?_
    (.idle rfl rfl) (fun holder g hg => ⟨g, (ho.holders holder (Roster.ne_fresh hg)).trans hg, rfl⟩)
    (fun body hm => ?_) (fun holder g hg => ?_) (fun holder holder' g g' t' hg hg' hne hown hown' => ?_)
    (fun other x hx t' hc => ?_) (fun t' cell hc hterm => ?_) ?_
  · cases hs.symm.trans hs₀
    obtain ⟨s', hs', hre⟩ := ho.storage s hs
    refine ⟨s', hs', { hre with stack := hre.stack.trans ?_ }⟩
    simp only [Thread.stack, Thread.bodies, hbodies, List.map_cons, hserves.stack]
  · refine hfit.rebracket hw (some t) ?_ (hfits _)
    rw [hbodies]
    exact ⟨rfl, rfl, hfit.nested⟩
  · simp only [Thread.bodies, hbodies, List.mem_cons] at hm
    rcases hm with rfl | hm
    · exact ⟨fresh, hfresh, howner⟩
    · obtain ⟨g, hg, hown⟩ := h.owners id th hth body hm
      exact ⟨g, (ho.holders _ (Roster.ne_fresh hg)).trans hg, hown⟩
  -- a holder is the fresh one, or one of before
  · by_cases hn : holder = m.ledger.roster.holders.length + 1
    · subst hn
      cases hfresh.symm.trans hg
      refine ⟨t, howner, hcell.imp_right (Exists.imp fun cell hc => ⟨hc.1, ?_⟩)⟩
      rw [hc.2]
      decide
    · exact h.owned holder g (ho.holders holder hn ▸ hg)
  · by_cases hn : holder = m.ledger.roster.holders.length + 1 <;>
      by_cases hn' : holder' = m.ledger.roster.holders.length + 1
    · rw [hn, hn']
    · subst hn
      cases hfresh.symm.trans hg
      exact (hclash hne hown (ho.holders holder' hn' ▸ hg') hown').elim
    · subst hn'
      cases hfresh.symm.trans hg'
      exact (hclash hne hown' (ho.holders holder hn ▸ hg) hown).elim
    · exact h.unique holder holder' g g' t' (ho.holders holder hn ▸ hg) (ho.holders holder' hn' ▸ hg')
        hne hown hown'
  · refine hreleased t' ?_ ((h.keeps other x hx).2 t' hc).2
    rintro rfl
    exact hdone other x hx hc
  · refine hreleased t' ?_ ((h.cells t' cell hc).2.2 hterm)
    rintro rfl
    rcases hcell with rfl | ⟨running, hc', hrun⟩
    · cases hc
    · cases hc.symm.trans hc'
      rw [hrun] at hterm
      cases hterm
  · obtain ⟨a, ha, ht⟩ := h.tally
    exact ⟨a, ha, ht.opened ho⟩

/-- The body on top ends: its holder is deregistered, and what it left mapped is released. -/
theorem Sound.closeBracket (h : m.Sound n space hist) (hth : m.threads[id]? = some th)
    (hbodies : th.bodies = (t, bracket) :: below) {outer : Option TaskId} {frames : List (Frame σ)}
    {control : Control σ} (hframes : frames.filterMap Frame.body? = below)
    (hc : control.Fits (th.base id) th.context.isSome id frames) (hb : control.beginning = none)
    (hdone : ∀ t', control.completing = some t' → t' = t ∧ t ≠ TaskId.root) :
    (m.closeBracket id th bracket outer frames control).Sound n space hist := by
  have hfit := h.fits id th hth
  have hmem : (t, bracket) ∈ th.bodies := hbodies ▸ List.mem_cons_self
  have hw := hfit.isSome_of_bodies hmem
  obtain ⟨_, hstorage, hnested⟩ := hbodies ▸ hfit.nested
  obtain ⟨s, hs, hserves⟩ := h.exists_storage hth hw
  have hstack : s.stack = bracket.holder :: below.map fun body => body.2.holder := by
    rw [hserves.stack, Thread.stack, hbodies, List.map_cons]
  subst hstorage
  obtain ⟨g, roster, hg, hclose, hcl⟩ := Ledger.closeBracket_ok h.roster hs hserves.owner hstack
  obtain ⟨hself, hrec⟩ := hcl.holder g hg
  obtain ⟨top, htop, hown⟩ := h.owners _ th hth _ hmem
  cases hg.symm.trans htop
  simp only [Machine.closeBracket, hclose]
  have hreleased : ∀ {other}, m.ledger.roster.Released other → roster.Released other := by
    intro other hr holder g' hg' ho
    obtain ⟨old, hold, howner, hmark⟩ := hcl.exists_before hg hg'
    exact hmark (hr holder old hold (howner.trans ho))
  refine h.rebracket hth hcl.sound
    (fun s₀ hs₀ => ?_) hcl.rest hcl.storages (fun _ => hw)
    (hfit.rebracket hw outer (hframes ▸ hnested) hc) ⟨fun t' he => ?_, fun t' he => ?_⟩
    (fun _ _ hold => hcl.exists_after hg hold)
    (fun body hm => ?_) (fun holder g' hg' => ?_)
    (fun holder holder' g₁ g₂ t' hg₁ hg₂ hne ho₁ ho₂ => ?_)
    (fun other x hx t' he => hreleased ((h.keeps other x hx).2 t' he).2)
    (fun t' cell hcell hterm => hreleased ((h.cells t' cell hcell).2.2 hterm)) ?_
  · cases hs.symm.trans hs₀
    obtain ⟨s', hs', hre⟩ := hcl.storage s hs
    refine ⟨s', hs', { hre with stack := hre.stack.trans ?_ }⟩
    simp only [Thread.stack, Thread.bodies, hframes]
  · cases hb.symm.trans he
  · obtain ⟨rfl, hne⟩ := hdone t' he
    obtain ⟨t', ho, hcell⟩ := h.owned _ g hg
    cases ho.symm.trans hown
    refine ⟨hcell.resolve_left hne, fun holder g' hg' ho => ?_⟩
    -- any other holder of the task would be a second one
    obtain ⟨old, hold, howner, _⟩ := hcl.exists_before hg hg'
    obtain rfl := h.unique holder bracket.holder old g _ hold hg hne (howner.trans ho) hown
    cases hself.symm.trans hg'
    rfl
  · have hm : body ∈ th.bodies := by
      rw [hbodies]
      exact List.mem_cons_of_mem _ (hframes ▸ hm)
    obtain ⟨old, hold, howner⟩ := h.owners _ th hth body hm
    obtain ⟨g', hg', ho⟩ := hcl.exists_after hg hold
    exact ⟨g', hg', ho.trans howner⟩
  · obtain ⟨old, hold, howner, _⟩ := hcl.exists_before hg hg'
    exact howner ▸ h.owned holder old hold
  · obtain ⟨old₁, hold₁, howner₁, _⟩ := hcl.exists_before hg hg₁
    obtain ⟨old₂, hold₂, howner₂, _⟩ := hcl.exists_before hg hg₂
    exact h.unique holder holder' old₁ old₂ t' hold₁ hold₂ hne (howner₁.trans ho₁) (howner₂.trans ho₂)
  · obtain ⟨a, ha, ht⟩ := h.tally
    rw [hserves.space]
    refine ⟨_, Ledger.spaces_updateSpace ha _, ?_⟩
    rw [Recorder.unlocalizeAll_space]
    exact ht.release hg hself rfl hcl.holders hrec

/-- A thread that works for no runtime any more closes its storage. -/
theorem Sound.closeStorage (h : m.Sound n space hist) (hth : m.threads[id]? = some th)
    (hn : th.context = none) : (m.closeStorage id).Sound n space hist := by
  have hcase : ∀ {other : StorageId} {s' : Storage},
      (m.ledger.roster.updateStorage id Storage.close).storages[other]? = some s' →
      ∃ s, m.ledger.roster.storages[other]? = some s ∧ ((other ≠ id ∧ s' = s) ∨ (other = id ∧ s' = s.close)) := by
    intro other s' hs'
    by_cases he : other = id
    · subst he
      simp only [Roster.updateStorage, List.getElem?_modify_eq] at hs'
      obtain ⟨s, hs, rfl⟩ := Option.map_eq_some_iff.1 hs'
      exact ⟨s, hs, .inr ⟨rfl, rfl⟩⟩
    · rw [Roster.storage_updateStorage_ne he] at hs'
      exact ⟨s', hs', .inl ⟨he, rfl⟩⟩
  have hsound : (m.ledger.roster.updateStorage id Storage.close).Sound := by
    cases hs : m.ledger.roster.storages[id]? with
    | none =>
      have hsame : m.ledger.roster.updateStorage id Storage.close = m.ledger.roster := by
        simp only [Roster.updateStorage]
        rw [List.modify_eq_self (List.getElem?_eq_none_iff.1 hs)]
      rw [hsame]
      exact h.roster
    | some s => exact h.roster.updateStorage hs rfl rfl rfl
  exact { h with
    roster := hsound
    storages := (List.length_modify ..).trans h.storages
    serves := fun other s' x hs' hx => by
      obtain ⟨s, hs, ⟨_, rfl⟩ | ⟨rfl, rfl⟩⟩ := hcase hs'
      · exact h.serves other s' x hs hx
      · cases hth.symm.trans hx
        have hserves := h.serves other s th hs hth
        exact { hserves with closed := fun hw => by rw [hn] at hw; cases hw }
    tally := by
      obtain ⟨a, ha, ht⟩ := h.tally
      exact ⟨a, ha, ht.live, ht.valid, ht.empty, ht.obtained⟩ }

end Machine

end TaskSpace

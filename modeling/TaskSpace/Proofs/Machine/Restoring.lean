import TaskSpace.Proofs.Machine.Homes
import TaskSpace.Proofs.Machine.Nesting
import TaskSpace.Proofs.Machine.Unwinding
import TaskSpace.Proofs.Machine.Upkeep

/-!
# Calls leave everything below them as it was

While a call of a thread is on, the thread touches only what the bodies above the call have, and no other thread
touches its holders. So the holders below have what they had when the call is over, and what the body of the call
had recorded was released once.
-/

namespace TaskSpace

variable {σ : Type}

/-- What the step of a thread may change is what its current holder has recorded. -/
def Control.touches : Control σ → Bool
  | .run (.call _ _) | .leave _ => true
  | _ => false

theorem Control.touches_of_calls {control : Control σ} (h : control.calls) : control.touches = false := by
  cases control with
  | run body => cases body <;> first | rfl | cases h
  | leave => cases h
  | _ => rfl

/-- The mapping dies in this turn. -/
def Turn.Releases (turn : Turn (Machine σ) (ThreadId × Choice)) (space : SpaceId) (handle : MappingId) : Prop :=
  turn.before.ledger.Alive space handle ∧ ¬turn.after.ledger.Alive space handle

namespace Ledger

/-- The mapping was released, and is still there. -/
def Dead (l : Ledger) (space : SpaceId) (id : MappingId) : Prop := ∃ a, l.spaces[space]? = some a ∧ a.space.Dead id

theorem Dead.not_alive {l : Ledger} {space : SpaceId} {id : MappingId} (h : l.Dead space id) : ¬l.Alive space id := by
  obtain ⟨a, ha, mapping, hm, hl⟩ := h
  rintro ⟨a', ha', mapping', hm', hl'⟩
  cases ha.symm.trans ha'
  cases hm.symm.trans hm'
  cases hl.symm.trans hl'

end Ledger

namespace Machine

/-- The mapping dies in exactly one of the turns. -/
def ReleasedOnce (turns : Turns σ) (space : SpaceId) (handle : MappingId) : Prop :=
  ∃ earlier turn later, turns = earlier ++ turn :: later ∧ turn.Releases space handle ∧
    ∀ other ∈ earlier ++ later, ¬other.Releases space handle

variable {m rest : Machine σ} {k : Nat} {es : TaskId → List Event} {id other : ThreadId}
  {th th' th₀ x : Thread σ} {space : SpaceId} {holder : HolderId} {g : Holder} {own : Option HolderId}
  {turns : Turns σ} {rt : Runtime} {choice : Choice}

/-! ## What a step keeps of the holders -/

/-- A step that neither asks for anything nor leaves a body keeps all holders. -/
theorem Hosts.keeps_holders (h : m.Hosts k es) (hth : m.threads[id]? = some th) (hm : m.Move id th rest th')
    (hcrash : rest.crash = none) (hidle : th.control.touches = false)
    (hg : m.ledger.roster.holder? holder = some g) : rest.ledger.roster.holder? holder = some g := by
  obtain ⟨space, hist, hsound⟩ := h.sound
  have hopened : ∀ {t parent bracket ledger}, th.context.isSome →
      m.ledger.openBracket id id (some t) parent = (.ok bracket, ledger) → ledger.roster.holder? holder = some g :=
    fun hw ho => (show Ledger.Footprint space id none _ _ from hsound.footprint_openBracket hth hw ho).kept holder g hg
      (by simp)
  have htouches : ∀ {control : Control σ}, th.control = control → control.touches = true → False := by
    rintro _ rfl ht
    cases hidle.symm.trans ht
  cases hm with
  | answered hctl ha =>
    cases ha with
    | call => exact (htouches hctl rfl).elim
    | _ => exact hg
  | launched hctl => exact (h.controlFits hth hctl).2.elim
  | rooted hctl hrt hstorage ho =>
    obtain rfl := hsound.rootStorage hrt hstorage
    obtain ⟨hst, hrole, _⟩ := h.controlFits hth hctl
    obtain ⟨rfl, hw⟩ := Thread.base_eq_outside.1 (Thread.base_of_ne (hst.base_ne hrole))
    exact hopened hw ho
  | began hctl _ _ ho =>
    obtain ⟨_, _, rfl, hw, _⟩ := h.controlFits hth hctl
    exact hopened hw ho
  | left hctl | leftRoot hctl => exact (htouches hctl rfl).elim
  | @closed _ found _ storage =>
    obtain ⟨left, crash, he⟩ := dropQueues_eq (m.closeStorage storage) (queued found.queues)
    rw [he]
    exact hg
  | crashed => cases hcrash
  | _ => exact hg

/-- No holder is on the stacks of two threads. -/
theorem Hosts.stacks_apart (h : m.Hosts k es) (hth : m.threads[id]? = some th) (hx : m.threads[other]? = some x)
    (hin : holder ∈ th.stack) (hin' : holder ∈ x.stack) : other = id := by
  obtain ⟨space, hist, hsound⟩ := h.sound
  have hserved : ∀ {id : ThreadId} {th : Thread σ}, m.threads[id]? = some th → holder ∈ th.stack →
      ∃ s, m.ledger.roster.storages[id]? = some s ∧ holder ∈ s.stack := by
    intro id th hth hin
    obtain ⟨body, hbody, _⟩ := List.mem_map.1 hin
    obtain ⟨s, hs, hserves⟩ := hsound.exists_storage hth ((h.fits hth).isSome_of_bodies hbody)
    exact ⟨s, hs, hserves.stack ▸ hin⟩
  obtain ⟨s, hs, hstack⟩ := hserved hth hin
  obtain ⟨s', hs', hstack'⟩ := hserved hx hin'
  exact hsound.roster.disjoint other id s' s hs' hs holder hstack' hstack

theorem Hosts.nodup_stack (h : m.Hosts k es) (hth : m.threads[id]? = some th) : th.stack.Nodup := by
  obtain ⟨space, hist, hsound⟩ := h.sound
  cases hb : th.bodies with
  | nil =>
    rw [Thread.stack, hb]
    exact .nil
  | cons body below =>
    obtain ⟨s, hs, hserves⟩ := hsound.exists_storage hth ((h.fits hth).isSome_of_bodies (hb ▸ List.mem_cons_self))
    exact hserves.stack ▸ (hsound.roster.linked id s hs).nodup

theorem Hosts.stacked_of_touches (h : m.Hosts k es) (hth : m.threads[id]? = some th) (ht : th.control.touches) :
    Stacked (th.base id) false th.frames := by
  have hfit := (h.fits hth).control
  cases hc : th.control <;> rw [hc] at ht hfit
  case run body => exact hfit.1
  case leave => exact hfit
  all_goals cases ht

/-- Where a thread touches its current holder, that is the holder of the frame on top. -/
theorem Hosts.head_of_touches (h : m.Hosts k es) (hth : m.threads[id]? = some th) (ht : th.control.touches)
    {frame : Frame σ} {frames : List (Frame σ)} (hf : th.frames = frame :: frames) :
    ∃ holder, th.holder = some holder ∧
      th.stack = holder :: (frames.filterMap Frame.body?).map fun body => body.2.holder := by
  have hst := hf ▸ h.stacked_of_touches hth ht
  have hnested := (h.fits hth).nested
  have hstack : ∀ {t bracket}, frame.body? = some (t, bracket) → ∃ holder, th.holder = some holder ∧
      th.stack = holder :: (frames.filterMap Frame.body?).map fun body => body.2.holder := by
    intro t bracket hb
    have hbodies : th.bodies = (t, bracket) :: frames.filterMap Frame.body? := by
      rw [Thread.bodies_eq hf, List.filterMap_cons, hb]
    rw [hbodies] at hnested
    exact ⟨bracket.holder, hnested.1, by rw [Thread.stack, hbodies, List.map_cons]⟩
  cases hst with
  | root => exact hstack rfl
  | task => exact hstack rfl

/-- In a call, the holders below it are not the current one when the thread touches that. -/
theorem InCall.not_below (hc : InCall id th₀ own turns m th) (haway : th.Away th₀.frames.length) (h : m.Hosts k es)
    (hth : m.threads[id]? = some th) (ht : th.control.touches) (hin : holder ∈ th₀.stack) :
    th.holder ≠ some holder := by
  have habove : ∀ {bottom inner}, th₀.Within bottom inner th → th.holder ≠ some holder := by
    intro bottom inner hw he
    have hcons : ∃ frame above, th.frames = frame :: (above ++ th₀.frames) := by
      rw [hw.frames]
      cases inner with
      | nil => exact ⟨bottom, [], rfl⟩
      | cons frame inner => exact ⟨frame, inner ++ [bottom], by simp⟩
    obtain ⟨frame, above, hf⟩ := hcons
    obtain ⟨top, htop, hstack⟩ := h.head_of_touches hth ht hf
    obtain rfl := Option.some.inj (htop.symm.trans he)
    have hnodup := h.nodup_stack hth
    rw [hstack, List.nodup_cons, List.filterMap_append, List.map_append] at hnodup
    exact hnodup.1 (List.mem_append_right _ hin)
  cases hc with
  | waiting _ _ _ hctl =>
    rw [hctl] at ht
    cases ht
  | running _ _ hw => exact habove hw
  | leaving _ _ hw => exact habove hw
  | back hb hg => exact absurd haway (not_away_of_back hb hg)

/-- In a call, the holders below it are on the stack of the thread. -/
theorem InCall.below (hc : InCall id th₀ own turns m th) (hin : holder ∈ th₀.stack) : holder ∈ th.stack := by
  have habove : ∀ {above : List (Frame σ)}, th.frames = above ++ th₀.frames → holder ∈ th.stack := by
    intro above hf
    rw [Thread.stack, Thread.bodies_eq hf, List.filterMap_append, List.map_append]
    exact List.mem_append_right _ hin
  cases hc with
  | waiting _ _ hb => exact habove (show th.frames = [] ++ th₀.frames from hb.frames)
  | @running bottom inner _ _ hw => exact habove (hw.frames.trans (List.append_cons ..))
  | @leaving bottom _ _ _ hw => exact habove (hw.frames.trans (List.append_cons ..))
  | back hb => exact habove (show th.frames = [] ++ th₀.frames from hb.frames)

/-! ## What is recorded is alive, and released once -/

/-- The mappings that are recorded are alive, and no two records are of one mapping. -/
structure Neat (space : SpaceId) (m : Machine σ) : Prop where
  spaces : ∀ rt ∈ m.runtimes, rt.space = space
  apart : m.ledger.Apart
  held : ∀ holder, m.ledger.Held space holder

theorem Neat.footprint (hn : m.Neat space) (h : m.Hosts k es) (hth : m.threads[id]? = some th)
    (hm : m.Move id th rest th') (hcrash : rest.crash = none) :
    Ledger.Footprint space id th.holder m.ledger rest.ledger := by
  obtain ⟨rt, hone, _⟩ := h.runtime
  exact hn.spaces rt (by simp [hone]) ▸ h.footprint hth hm hcrash hone

theorem Neat.move (hn : m.Neat space) (h : m.Hosts k es) (hth : m.threads[id]? = some th)
    (hm : m.Move id th rest th') (hcrash : rest.crash = none) : (rest.setThread id th').Neat space where
  spaces rt (hrt : rt ∈ rest.runtimes) := by
    rcases hm.tends hcrash with ⟨runtime, f, hf, hruntimes, _⟩ | ⟨_, _, _, _, hctl, _⟩
    · rw [hruntimes] at hrt
      obtain ⟨place, hplace⟩ := List.mem_iff_getElem?.1 hrt
      by_cases he : runtime = place
      · subst he
        rw [List.getElem?_modify_eq] at hplace
        obtain ⟨old, hold, rfl⟩ := Option.map_eq_some_iff.1 hplace
        exact (hf old hold).space.trans (hn.spaces old (List.mem_of_getElem? hold))
      · rw [List.getElem?_modify_ne _ _ he] at hplace
        exact hn.spaces rt (List.mem_of_getElem? hplace)
    · exact (h.controlFits hth hctl).2.elim
  apart := show rest.ledger.Apart from h.apart hth hm hcrash hn.apart
  held holder g hg := by
    have hf := hn.footprint h hth hm hcrash
    by_cases hmine : th.holder = some holder
    · exact hf.held (fun other _ => hn.held other) holder hmine g hg
    · cases hold : m.ledger.roster.holder? holder with
      | none =>
        rw [hf.fresh holder g hold hg]
        exact ⟨.nil, fun _ hid => by cases hid⟩
      | some old =>
        obtain rfl := Option.some.inj ((hf.kept holder old hold hmine).symm.trans hg)
        obtain ⟨hnodup, halive⟩ := hn.held holder old hold
        refine ⟨hnodup, fun handle hin => ?_⟩
        rcases hf.released handle (halive handle hin) with hlive | ⟨mine, g', hm', hg', hin'⟩
        · exact hlive
        · cases hn.apart holder mine old g' hold hg' handle hin hin'
          exact absurd hm' hmine

/-- What is known of releases after some turns: what died is dead, what was recorded is so or was released once,
and no mapping was released that was dead. -/
structure Spends (space : SpaceId) (turns : Turns σ) (m : Machine σ) : Prop where
  dead : ∀ turn ∈ turns, ∀ handle, turn.Releases space handle → m.ledger.Dead space handle
  spent : ∀ turn ∈ turns, ∀ holder g, turn.before.ledger.roster.holder? holder = some g →
    ∀ handle ∈ g.handles, (∃ g', m.ledger.roster.holder? holder = some g' ∧ handle ∈ g'.handles) ∨
      ReleasedOnce turns space handle
  tidy : ∀ turn ∈ turns, ∀ a, turn.before.ledger.spaces[space]? = some a →
    ∃ a', turn.after.ledger.spaces[space]? = some a' ∧ a.Tidy a'

theorem Spends.nil (space : SpaceId) (m : Machine σ) : Spends space [] m where
  dead _ hin := by cases hin
  spent _ hin := by cases hin
  tidy _ hin := by cases hin

/-- What was released once is not released by a later turn. -/
theorem Spends.once (hs : Spends space turns m) {handle : MappingId} (h : ReleasedOnce turns space handle)
    (act : ThreadId × Choice) (m' : Machine σ) : ReleasedOnce (turns ++ [⟨m, act, m'⟩]) space handle := by
  obtain ⟨earlier, releasing, later, rfl, hr, hno⟩ := h
  have hdead := hs.dead releasing (by simp) handle hr
  refine ⟨earlier, releasing, later ++ [⟨m, act, m'⟩], by simp, hr, fun other hother => ?_⟩
  rw [← List.append_assoc] at hother
  rcases List.mem_append.1 hother with hother | hother
  · exact hno other hother
  · cases List.mem_singleton.1 hother
    exact fun hreleases => hdead.not_alive hreleases.1

theorem Spends.move (hs : Spends space turns m) (hn : m.Neat space) (h : m.Hosts k es)
    (hth : m.threads[id]? = some th) (hm : m.Move id th rest th') (hcrash : rest.crash = none) (choice : Choice) :
    Spends space (turns ++ [⟨m, (id, choice), rest.setThread id th'⟩]) (rest.setThread id th') := by
  have hf := hn.footprint h hth hm hcrash
  have htidy := hf.tidy fun holder _ => hn.held holder
  have hkeeps : ∀ {handle}, m.ledger.Dead space handle → rest.ledger.Dead space handle := by
    rintro handle ⟨a, ha, hdead⟩
    obtain ⟨a', ha', ht⟩ := htidy a ha
    exact ⟨a', ha', ht.fades.dead hdead⟩
  -- what is recorded before the turn is recorded after it, or the turn is the one that releases it
  have hrecorded : ∀ {holder g handle}, m.ledger.roster.holder? holder = some g → handle ∈ g.handles →
      (∃ g', rest.ledger.roster.holder? holder = some g' ∧ handle ∈ g'.handles) ∨
        ReleasedOnce (turns ++ [⟨m, (id, choice), rest.setThread id th'⟩]) space handle := by
    intro holder g handle hg hin
    have halive := (hn.held holder g hg).2 handle hin
    refine (hf.cleared holder g hg handle hin).imp_right fun hgone => ?_
    refine ⟨turns, _, [], rfl, ⟨halive, hgone⟩, fun other hother hreleases => ?_⟩
    rw [List.append_nil] at hother
    exact (hs.dead other hother handle hreleases).not_alive halive
  refine ⟨fun turn hturn handle hr => ?_, fun turn hturn holder g hg handle hin => ?_, fun turn hturn => ?_⟩
  · rcases List.mem_append.1 hturn with hturn | hturn
    · exact hkeeps (hs.dead turn hturn handle hr)
    · cases List.mem_singleton.1 hturn
      obtain ⟨⟨a, ha, mapping, hmapping, _⟩, hgone⟩ := hr
      obtain ⟨a', ha', ht⟩ := htidy a ha
      obtain ⟨mapping', hmapping', _⟩ := ht.fades handle mapping hmapping
      exact ⟨a', ha', mapping', hmapping',
        Bool.eq_false_iff.2 fun hl => hgone ⟨a', ha', mapping', hmapping', hl⟩⟩
  · rcases List.mem_append.1 hturn with hturn | hturn
    · rcases hs.spent turn hturn holder g hg handle hin with ⟨g', hg', hin'⟩ | honce
      · exact hrecorded hg' hin'
      · exact .inr (hs.once honce _ _)
    · cases List.mem_singleton.1 hturn
      exact hrecorded hg hin
  · rcases List.mem_append.1 hturn with hturn | hturn
    · exact hs.tidy turn hturn
    · cases List.mem_singleton.1 hturn
      exact htidy

theorem neat_launched {next : Except BuildError RuntimeId → Body σ} (h : m.Hosts k es) (hl : Launched k next m) :
    ∃ space, m.Neat space := by
  obtain ⟨rt, hone, _⟩ := h.runtime
  refine ⟨rt.space, fun found hin => ?_, apart_launched h hl, fun holder g hg => ?_⟩
  · rw [hone, List.mem_singleton] at hin
    rw [hin]
  · rw [handles_launched h hl hg]
    exact ⟨.nil, fun _ hin => by cases hin⟩

/-! ## What is below a call -/

/-- The holders below a call are as they were. -/
def Undisturbed (before : Machine σ) (th₀ : Thread σ) (m : Machine σ) : Prop :=
  ∀ holder ∈ th₀.stack, m.ledger.roster.holder? holder = before.ledger.roster.holder? holder

theorem Hosts.exists_stacked (h : m.Hosts k es) (hth : m.threads[id]? = some th) (hin : holder ∈ th.stack) :
    ∃ g, m.ledger.roster.holder? holder = some g := by
  obtain ⟨space, hist, hsound⟩ := h.sound
  obtain ⟨body, hbody, rfl⟩ := List.mem_map.1 hin
  obtain ⟨g, hg, _⟩ := hsound.owners id th hth body hbody
  exact ⟨g, hg⟩

/-- The first turn of a call leaves the holders alone. -/
theorem Hosts.undisturbed_first (h : m.Hosts k es) (hth : m.threads[id]? = some th) (hm : m.Move id th rest th')
    (hcrash : rest.crash = none) (hcall : th.control.calls) : m.Undisturbed th (rest.setThread id th') := by
  intro holder hin
  obtain ⟨g, hg⟩ := h.exists_stacked hth hin
  exact (h.keeps_holders hth hm hcrash (Control.touches_of_calls hcall) hg).trans hg.symm

/-- So does every turn before the call is over, whatever thread takes it. -/
theorem InCall.undisturbed (hc : InCall id th₀ own turns m th) (haway : th.Away th₀.frames.length)
    (h : m.Hosts k es) (hn : m.Neat space) (hth : m.threads[id]? = some th) (hx : m.threads[other]? = some x)
    (hm : m.Move other x rest th') (hcrash : rest.crash = none) (hin : holder ∈ th₀.stack) :
    rest.ledger.roster.holder? holder = m.ledger.roster.holder? holder := by
  obtain ⟨g, hg⟩ := h.exists_stacked hth (hc.below hin)
  refine Eq.trans ?_ hg.symm
  have hf := hn.footprint h hx hm hcrash
  -- the thread itself may change the holder on top only, and another thread one that is on its own stack
  by_cases hne : other = id
  · subst hne
    cases hth.symm.trans hx
    cases ht : th.control.touches with
    | false => exact h.keeps_holders hth hm hcrash ht hg
    | true => exact hf.kept holder g hg (hc.not_below haway h hth ht hin)
  · exact hf.kept holder g hg fun hmine => hne (h.stacks_apart hth hx (hc.below hin) (h.mem_stack hx hmine))

/-- What holds while a call of a thread is on, that began in `before`. -/
structure Calling (k : Nat) (space : SpaceId) (id : ThreadId) (before : Machine σ) (th₀ : Thread σ)
    (own : Option HolderId) (turns : Turns σ) (m : Machine σ) : Prop where
  hosts : ∃ es, m.Hosts k es
  neat : m.Neat space
  counted : m.BodiesCounted
  thread : ∃ th, m.threads[id]? = some th ∧ InCall id th₀ own turns m th
  undisturbed : before.Undisturbed th₀ m
  spends : Spends space turns m

theorem Calling.step {before : Machine σ} {m' : Machine σ} {act : ThreadId × Choice}
    (hc : Calling k space id before th₀ own turns m)
    (haway : ∀ th, m.threads[id]? = some th → th.Away th₀.frames.length) (hs : advance m act = some m') :
    Calling k space id before th₀ own (turns ++ [⟨m, act, m'⟩]) m' := by
  obtain ⟨es, h⟩ := hc.hosts
  obtain ⟨th, hth, hin⟩ := hc.thread
  obtain ⟨other, choice⟩ := act
  obtain ⟨x, rest, x', hx, hm, rfl, h'⟩ := h.step hs
  have hcrash : rest.crash = none := h'.crash
  refine ⟨⟨_, h'⟩, hc.neat.move h hx hm hcrash, hc.counted.move h hx hm hcrash, ?_, fun holder hstack => ?_,
    hc.spends.move hc.neat h hx hm hcrash choice⟩
  · by_cases hne : other = id
    · subst hne
      cases hth.symm.trans hx
      exact ⟨x', hm.self hx, hin.step (haway _ hth) h hth hm hcrash choice⟩
    · exact ⟨th, hm.kept hth (Ne.symm hne), hin.apart (haway th hth) hne choice _⟩
  · exact (hin.undisturbed (haway th hth) h hc.neat hth hx hm hcrash hstack).trans (hc.undisturbed holder hstack)

/-! ## Calls -/

/-- The turns of a call, from the one in which a thread makes it until the thread is back. -/
structure Call (id : ThreadId) (m : Machine σ) (th : Thread σ) (turns : Turns σ) (m' : Machine σ) : Prop where
  thread : m.threads[id]? = some th
  calls : th.control.calls
  away : ∃ first later, turns = first :: later ∧ first.act.1 = id ∧
    ∀ turn ∈ later, ∀ x, turn.before.threads[id]? = some x → x.Away th.frames.length
  back : ∀ x, m'.threads[id]? = some x → ¬x.Away th.frames.length

/-- What the body of a call had for itself: a new holder, which was the current one from the first turn on, and all
that was recorded with it was released once. -/
structure Own (id : ThreadId) (m : Machine σ) (turns : Turns σ) (m' : Machine σ) (own : HolderId) : Prop where
  fresh : m.ledger.roster.holder? own = none
  current : ∃ first ∈ turns.head?, ∃ x, first.after.threads[id]? = some x ∧ x.holder = some own
  emptied : m'.ledger.Emptied own
  released : ∀ turn ∈ turns, ∀ g, turn.before.ledger.roster.holder? own = some g → ∀ handle ∈ g.handles,
    ∀ rt ∈ m.runtimes, ReleasedOnce turns rt.space handle

/-- A call is over, and everything below it is as it was. -/
structure Restored (id : ThreadId) (m : Machine σ) (th : Thread σ) (turns : Turns σ) (m' : Machine σ) : Prop where
  calm : m'.crash = none
  /-- The thread has the frames, the holder and the mark from before, and goes on with the result. -/
  thread : ∃ th', m'.threads[id]? = some th' ∧ th.Back th' ∧
    th.control.GoesOn m' (endings id (th.frames.length + 1) turns) th'.control
  /-- The storage of the thread has its stack back, and as many holders went as came. -/
  storage : ∀ s, m.ledger.roster.storages[id]? = some s → ∃ s', m'.ledger.roster.storages[id]? = some s' ∧
    s'.active = s.active ∧
    s'.counters.registered + s.counters.deregistered = s'.counters.deregistered + s.counters.registered ∧
    ∀ holder ∈ s.active, m'.ledger.roster.holder? holder = m.ledger.roster.holder? holder
  body : th.control.opens → ∃ own, Own id m turns m' own
  /-- As many mappings died in each turn as were released. -/
  tidy : ∀ turn ∈ turns, ∀ rt ∈ m.runtimes, ∀ a, turn.before.ledger.spaces[rt.space]? = some a →
    ∃ a', turn.after.ledger.spaces[rt.space]? = some a' ∧ a.Tidy a'

variable {m' : Machine σ} {schedule : List (ThreadId × Choice)}

theorem Calling.first (h : m.Hosts k es) (hn : m.Neat space) (hb : m.BodiesCounted) (hth : m.threads[id]? = some th)
    (hcall : th.control.calls) (hs : advance m (id, choice) = some m') :
    ∃ own, Calling k space id m th own [⟨m, (id, choice), m'⟩] m' ∧
      (th.control.opens → own = some (m.ledger.roster.holders.length + 1) ∧
        ∃ x, m'.threads[id]? = some x ∧ x.holder = own) := by
  obtain ⟨found, rest, th', hfound, hm, rfl, h'⟩ := h.step hs
  cases hth.symm.trans hfound
  have hcrash : rest.crash = none := h'.crash
  obtain ⟨own, hin, hopens⟩ := hm.calls hth hcrash hcall choice
  refine ⟨own, ⟨⟨_, h'⟩, hn.move h hth hm hcrash, hb.move h hth hm hcrash, ⟨th', hm.self hth, hin⟩,
    h.undisturbed_first hth hm hcrash hcall, (Spends.nil space m).move hn h hth hm hcrash choice⟩, fun ho => ?_⟩
  obtain ⟨hown, hholder⟩ := hopens ho
  exact ⟨hown, th', hm.self hth, hholder⟩

/-- What the run of a call comes to. -/
theorem Call.calling (hc : Call id m th turns m') (h : m.Hosts k es) (hn : m.Neat space) (hb : m.BodiesCounted)
    (hrun : trail advance m schedule = some (turns, m')) :
    ∃ own, Calling k space id m th own turns m' ∧
      (th.control.opens → own = some (m.ledger.roster.holders.length + 1) ∧
        ∃ first ∈ turns.head?, ∃ x, first.after.threads[id]? = some x ∧ x.holder = own) := by
  obtain ⟨first, later, rfl, rfl, haway⟩ := hc.away
  cases schedule with
  | nil => cases hrun
  | cons act schedule =>
    obtain ⟨after, rest, hstep, hrest, he⟩ := trail_cons hrun
    obtain ⟨rfl, rfl⟩ := List.cons.inj he
    obtain ⟨own, hfirst, hopens⟩ := Calling.first h hn hb hc.thread hc.calls hstep
    refine ⟨own, ?_, fun ho => ⟨(hopens ho).1, _, rfl, (hopens ho).2⟩⟩
    -- by induction on the turns after the first one, as long as the thread is away
    have hlater := trail_induction_from (P := fun turns m' => ∃ later, turns = ⟨m, act, after⟩ :: later ∧
        ((∀ turn ∈ later, ∀ x, turn.before.threads[act.1]? = some x → x.Away th.frames.length) →
          Calling k space act.1 m th own turns m'))
      (fun turns m₁ act₁ m₂ ⟨later, he, hp⟩ hs => by
        refine ⟨later ++ [⟨m₁, act₁, m₂⟩], by rw [he]; rfl, fun hall => ?_⟩
        refine (hp fun turn hturn => hall turn (List.mem_append_left _ hturn)).step ?_ hs
        exact hall ⟨m₁, act₁, m₂⟩ (List.mem_append_right _ List.mem_cons_self))
      ⟨[], rfl, fun _ => hfirst⟩ hrest
    obtain ⟨later', he', hp⟩ := hlater
    obtain rfl := (List.cons.inj he').2
    exact hp haway

theorem Call.restored (hc : Call id m th turns m') (h : m.Hosts k es) (hn : m.Neat space) (hb : m.BodiesCounted)
    (hrun : trail advance m schedule = some (turns, m')) : Restored id m th turns m' := by
  obtain ⟨own, hcalling, hopens⟩ := hc.calling h hn hb hrun
  obtain ⟨es', h'⟩ := hcalling.hosts
  obtain ⟨th', hth', hin⟩ := hcalling.thread
  obtain ⟨hback, hgoes, hempty⟩ := hin.returned (hc.back th' hth')
  refine ⟨h'.crash, ⟨th', hth', hback, hgoes⟩, fun s hs => ?_, fun ho => ?_, fun turn hturn rt hrt => ?_⟩
  · obtain ⟨space, hist, hsound⟩ := h.sound
    obtain ⟨space', hist', hsound'⟩ := h'.sound
    obtain ⟨s', hs'⟩ := Roster.exists_storage (hsound'.storages.trans hsound.storages.symm ▸
      (List.getElem?_eq_some_iff.1 hs).1)
    have hbodies : th'.bodies = th.bodies := congrArg (List.filterMap Frame.body?) hback.frames
    have hbefore : s.active = th.stack :=
      (hsound.roster.linked id s hs).active_eq.trans (hsound.serves id s th hs hc.thread).stack
    have hafter : s'.active = th'.stack :=
      (hsound'.roster.linked id s' hs').active_eq.trans (hsound'.serves id s' th' hs' hth').stack
    refine ⟨s', hs', ?_, ?_, fun holder hholder => hcalling.undisturbed holder (hbefore ▸ hholder)⟩
    · rw [hafter, hbefore, Thread.stack, hbodies, Thread.stack]
    · have hcame := hb id s th hs hc.thread
      have hwent := hcalling.counted id s' th' hs' hth'
      rw [hbodies] at hwent
      omega
  · obtain ⟨hown, hfirst⟩ := hopens ho
    subst hown
    refine ⟨_, m.ledger.roster.holder?_fresh, hfirst, hempty _ rfl, fun turn hturn g hg handle hhandle rt hrt => ?_⟩
    rw [hn.spaces rt hrt]
    rcases hcalling.spends.spent turn hturn _ g hg handle hhandle with ⟨g', hg', hrecorded⟩ | honce
    · -- nothing is recorded with the holder any more
      obtain ⟨left, hleft, _, hnil⟩ := hempty _ rfl
      cases hg'.symm.trans hleft
      rw [hnil] at hrecorded
      cases hrecorded
    · exact honce
  · rw [hn.spaces rt hrt]
    exact hcalling.spends.tidy turn hturn

variable {parallelism : Nat} {spaces : List Recorder} {shared : σ} {settings : Settings} {given : Option SpaceId}
  {config : Config} {answer : Except BuildError RuntimeId → Body σ} {first : List (ThreadId × Choice)}
  {before : Turns σ}

/-- Every call that is over in a run has restored what is below it. -/
theorem Call.restored_run (hl : Launches parallelism spaces settings given config)
    (hanswer : (answer (.ok 0)).Allowed .outside)
    (hfirst : trail advance (start parallelism spaces shared (.build settings given answer)) first = some (before, m))
    (hrun : trail advance m schedule = some (turns, m')) (hc : Call id m th turns m') : Restored id m th turns m' := by
  have hinv := hosts_run (P := fun _ _ m => (∃ space, m.Neat space) ∧ m.BodiesCounted) hl hanswer
    (fun _ _ _ _ h hlaunched _ => ⟨neat_launched h hlaunched, bodies_counted_launched hlaunched⟩)
    (fun _ _ _ _ _ _ _ _ h ⟨⟨space, hn⟩, hb⟩ hth hm h' =>
      ⟨⟨space, hn.move h hth hm h'.crash⟩, hb.move h hth hm h'.crash⟩) hfirst
  rcases hinv with ⟨_, rfl⟩ | ⟨es, h, ⟨space, hn⟩, hb⟩
  · -- nothing was called before the runtime was there
    have hbuilds := hc.thread
    cases id with
    | zero =>
      cases hbuilds
      cases hc.calls
    | succ id => cases hbuilds
  · exact hc.restored h hn hb hrun

/-- Brackets restore what is around them, whatever is done between. A thread of any machine, that begins a body on
an open storage of its own, has back what it had, however much was done that left the stack and the others' handles
alone. And whatever bodies there are in a run, however many workers there are and however they take turns, every call
that is over leaves the thread, its storage and the holders below it as they were. -/
theorem brackets_restore :
    (∀ (m : Machine σ) (thread : ThreadId) (th : Thread σ) (id : StorageId) (s : Storage) (task : TaskId)
      (frame : Bracket → Frame σ) (body : Body σ) (goesOn : Except Payload Value → Control σ),
      m.Entering thread th id s task frame body goesOn → m.Bracketed thread th id s task frame body goesOn) ∧
    ∀ (parallelism : Nat) (spaces : List Recorder) (shared : σ) (settings : Settings) (given : Option SpaceId)
      (config : Config) (answer : Except BuildError RuntimeId → Body σ) (first schedule : List (ThreadId × Choice))
      (before turns : Turns σ) (m m' : Machine σ) (id : ThreadId) (th : Thread σ),
      Launches parallelism spaces settings given config → (answer (.ok 0)).Allowed .outside →
      trail advance (start parallelism spaces shared (.build settings given answer)) first = some (before, m) →
      trail advance m schedule = some (turns, m') → Call id m th turns m' → Restored id m th turns m' :=
  ⟨fun _ _ _ _ _ _ _ _ _ he => he.bracketed, fun _ _ _ _ _ _ _ _ _ _ _ _ _ _ _ hl hanswer hfirst hrun hc =>
    hc.restored_run hl hanswer hfirst hrun⟩

/-- Maps some memory, and panics. -/
def failing (ptr : Pointer) : Body Unit :=
  .call (.memory (.localize ptr 8 .readOnly)) fun _ => .panic (.number 1)

/-- Maps some memory, joins a task that does too and panics, and panics itself. -/
def nesting : Body Unit :=
  .call (.memory (.alloc 8 8)) fun
  | .ok ptr => .call (.memory (.localize ptr 8 .readOnly)) fun _ =>
    .spawn none ⟨false, none⟩ (failing ptr) fun _ => .wait .join 1 fun _ => .panic (.number 2)
  | .error _ => .finish .none

/-- A body that ends with a value, on a thread that works for no runtime. And a block-on call whose body joins a task
that panics, and panics itself: the two mappings that the bodies had are released. -/
theorem brackets_restore_nested :
    (let th : Thread Unit := { Thread.plain (.finish .none) with control := .begin 1 0 (.finish .none) }
     let m : Machine Unit :=
       { start 1 [] () (.finish .none) with
         ledger := (Ledger.addStorage ⟨[], .empty⟩ 0 0).2
         tasks := [⟨.spawned 1 false none (.finish .none), 0⟩], threads := [th] }
     ∃ bracket opened after x closed, m.step 0 ⟨false, 0, .nothing⟩ = some opened ∧
       m.Leaving opened 0 th 0 (.fresh 0 0) (.task 1 · none) bracket after x (.ok .none) ∧
       after.step 0 ⟨false, 0, .nothing⟩ = some closed ∧
       m.ledger.Restores after.ledger closed.ledger 0 (.fresh 0 0) bracket.holder) ∧
    let answer : Except BuildError RuntimeId → Body Unit := fun _ => .blockOn 0 nesting fun _ => .finish .none
    let schedule (n : Nat) : List (ThreadId × Choice) := List.replicate n (0, ⟨false, 0, .nothing⟩)
    ∃ before m th turns m', trail advance (start 1 [] () (.build (Settings.new .stealing) none answer)) (schedule 1) =
        some (before, m) ∧ trail advance m (schedule 14) = some (turns, m') ∧
      (endings 0 1 turns).map Except.isOk = [false] ∧
      m'.ledger.spaces.map (fun a => (a.localized.length, a.released.length)) = [(2, 2)] ∧
      Restored 0 m th turns m' := by
  refine ⟨?_, ?_⟩
  · intro th m
    have hentering : m.Entering 0 th 0 (.fresh 0 0) 1 (.task 1 · th.currentTask) (.finish .none) fun result =>
        .publish 1 (result.mapError (JoinError.panicked 1)) :=
      { reached := ⟨[], .single (.storage 0 0 (by decide))⟩
        calm := rfl
        self := rfl
        storage := rfl
        owner := rfl
        closed := rfl
        begins := .task rfl rfl rfl }
    obtain ⟨bracket, opened, hopened, _, hself, hleave⟩ :=
      brackets_restore.1 m 0 th 0 (.fresh 0 0) 1 _ _ _ hentering ⟨false, 0, .nothing⟩
    let ended : Thread Unit := { th with
      control := .leave (.ok .none), frames := [.task 1 bracket none], holder := some bracket.holder }
    have hleaving : m.Leaving opened 0 th 0 (.fresh 0 0) (.task 1 · none) bracket
        { opened with threads := [ended] } ended (.ok .none) := by
      cases hopened
      cases hself
      exact ⟨.refl, ⟨rfl, fun _ hin => by cases hin⟩, rfl, rfl, rfl, rfl, some 1, rfl⟩
    obtain ⟨closed, hclosed, _, _, hrestores⟩ := hleave _ ended (.ok .none) ⟨false, 0, .nothing⟩ hleaving
    exact ⟨bracket, opened, _, ended, closed, hopened, hleaving, hclosed, hrestores⟩
  · intro answer schedule
    have hlaunches : Launches 1 [] (Settings.new .stealing) none
        { flavor := .stealing, workerThreads := 1, naming := .numbered, stackSize := none, interval := 31
          retries := 3, space := Space.new 2 } :=
      ⟨rfl, rfl, by simp, by simp, by simp [Settings.new]⟩
    have hanswer : (answer (.ok 0)).Allowed .outside := by
      refine ⟨by decide, rfl, fun reply => ?_, fun _ => trivial⟩
      cases reply with
      | ok ptr => exact fun _ => ⟨fun _ => trivial, fun _ _ => trivial⟩
      | error fault => trivial
    have hshown : ((trail advance (start 1 [] () (.build (Settings.new .stealing) none answer)) (schedule 1)).bind
        fun opening => (trail advance opening.2 (schedule 14)).map fun call =>
          ((opening.2.threads[0]?.any fun th => th.control.calls && th.frames.isEmpty) &&
            (call.1.head?.any fun turn => turn.act.1 == 0) &&
            (call.1.tail.all fun turn => turn.before.threads[0]?.all fun x => !x.frames.isEmpty) &&
            (call.2.threads[0]?.all fun x => (x.ending? 0).isSome),
            (endings 0 1 call.1).map Except.isOk,
            call.2.ledger.spaces.map fun a => (a.localized.length, a.released.length))) =
        some (true, [false], [(2, 2)]) := by
      decide
    obtain ⟨⟨before, m⟩, hfirst, hshown⟩ := Option.bind_eq_some_iff.1 hshown
    obtain ⟨⟨turns, m'⟩, hrun, hshown⟩ := Option.map_eq_some_iff.1 hshown
    obtain ⟨hchecks, hshown⟩ := Prod.mk.injEq .. ▸ hshown
    obtain ⟨hends, hspaces⟩ := Prod.mk.injEq .. ▸ hshown
    simp only [Bool.and_eq_true, Option.any_eq_true, List.isEmpty_iff] at hchecks
    obtain ⟨⟨⟨⟨th, hth, hcalls, hframes⟩, first, hhead, hid⟩, haway⟩, hback⟩ := hchecks
    obtain ⟨later, rfl⟩ := List.head?_eq_some_iff.1 hhead
    have hcall : Call 0 m th (first :: later) m' := by
      refine ⟨hth, hcalls, ⟨first, later, rfl, eq_of_beq hid, fun turn hturn x hx => .inl ?_⟩, fun x hx => ?_⟩
      · have hon := List.all_eq_true.1 haway turn hturn
        rw [hx] at hon
        rw [hframes]
        exact List.length_pos_iff.2 (by simpa using hon)
      · rw [hx] at hback
        obtain ⟨result, hends⟩ := Option.isSome_iff_exists.1 hback
        obtain ⟨hlen, hctl⟩ := Thread.ending?_eq_some.1 hends
        rw [hframes]
        rintro (hlt | ⟨_, _, _, _, hwaits⟩)
        · exact absurd hlen (Nat.ne_of_gt hlt)
        · cases result <;> cases hctl.symm.trans hwaits
    exact ⟨before, m, th, first :: later, m', hfirst, hrun, hends, hspaces,
      brackets_restore.2 1 [] () _ none _ answer _ _ before _ m m' 0 th hlaunches hanswer hfirst hrun hcall⟩

end Machine

end TaskSpace

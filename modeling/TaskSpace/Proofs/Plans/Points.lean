import TaskSpace.Proofs.Machine.Lives
import TaskSpace.Proofs.Machine.Shape
import TaskSpace.Proofs.Plans.Tree

/-!
# Plans as bodies

The bodies that carry plans out share a board, on which each task puts the handles of those that it
spawns, and from which a task takes the handle of one that it waits for. `Point` says which bodies are
points of a plan, that is, what is left of it at some time.
-/

namespace TaskSpace

/-- The handles that are known, by the places of their tasks. -/
abbrev Handles := List (Path × TaskId)

namespace Plan

/-- The body of the task at `path` when it has spawned `k` tasks and `plan` is left. -/
def body : Plan → Path → (k : Nat) → Body Handles
  | finish v, _, _ => .finish v
  | panic payload, _, _ => .panic payload
  | spawn options child next, path, k =>
    .spawn none options (child.body (path ++ [k]) 0) fun
    | .ok t => .share (fun known => (path ++ [k], t) :: known) fun _ => next.body path (k + 1)
    | .error payload => .panic payload
  | wait kind task next, path, k =>
    .await (fun known => (known.lookup task).isSome) fun known =>
      .wait kind ((known.lookup task).getD TaskId.root) fun outcome =>
        (next (outcome.mapError JoinError.cause)).body path k

/-- What is left to do on the thread that built the runtime when the block-on call gave a result. -/
def finale (result : Except Payload Value) : Body Handles := .shutdown 0 (.ofResult result)

/-- Runs the plan in a block-on call on a new runtime, and shuts the runtime down. -/
def main (root : Plan) : Except BuildError RuntimeId → Body Handles
  | .ok runtime => .blockOn runtime (root.body [] 0) fun result => .shutdown runtime (.ofResult result)
  | .error _ => .finish .none

theorem allowed_body (plan : Plan) (path : Path) (k : Nat) (role : Role) : (plan.body path k).Allowed role := by
  refine Body.Allowed.of_task ?_ role
  induction plan generalizing path k with
  | finish | panic => trivial
  | spawn options child next ihc ihn =>
    refine ⟨ihc _ _, fun answer => ?_⟩
    cases answer with
    | ok t => exact fun _ => ihn _ _
    | error => trivial
  | wait kind task next ih => exact fun known outcome => ih _ _ _

theorem allowed_main (root : Plan) : (root.main (.ok 0)).Allowed .outside := by
  refine ⟨by decide, rfl, root.allowed_body [] 0 .root, fun result => ⟨rfl, rfl, ?_⟩⟩
  cases result <;> trivial

end Plan

/-- What the body of a plan may ask for next. -/
def Body.planned {σ : Type} : Body σ → Bool
  | .finish _ | .panic _ | .share _ _ | .await _ _ | .spawn _ _ _ _ | .wait _ _ _ => true
  | .call _ _ | .build _ _ _ | .blockOn _ _ _ | .shutdown _ _ | .onThread _ _ => false

/-! ## Points of a plan -/

/-- What may be left of the plan of task `u`. -/
inductive Point (root : Plan) (fam : Family) (u : TaskId) : Body Handles → Prop
  | plan {path n plan} : fam.place? u = some path → root.Reaches path n (fam.born u) plan →
    Point root fam u (plan.body path (fam.born u))
  /-- A task was spawned, and its handle is to be put on the board. -/
  | publish {path n k options child next t} : fam.place? u = some path →
    root.Reaches path n k (.spawn options child next) → fam.born u = k + 1 →
    fam.entry? t = some (u, path ++ [k]) →
    Point root fam u (.share (fun known => (path ++ [k], t) :: known) fun _ => next.body path (k + 1))
  | wait {path other n kind next t} : fam.place? u = some path →
    root.Reaches path n (fam.born u) (.wait kind other next) → fam.place? t = some other →
    Point root fam u (.wait kind t fun outcome => (next (outcome.mapError JoinError.cause)).body path (fam.born u))

/-- Task `u` has come to the end of its plan with a result. -/
def Concludes (root : Plan) (fam : Family) (u : TaskId) (result : Except Payload Value) : Prop :=
  ∃ path n, fam.place? u = some path ∧ root.Reaches path n (fam.born u) (.ofResult result)

variable {root : Plan} {fam : Family} {board : Handles} {t u v : TaskId} {b : Body Handles}
  {result : Except Payload Value} {path : Path}

/-! A task that is spawned leaves the points of those that did not spawn it as they are. -/

theorem born_grow (hne : v ≠ u) : Family.born (fam ++ [(v, path)]) u = fam.born u := by
  rw [Family.born_append, if_neg hne, Nat.add_zero]

theorem Point.grow (h : Point root fam u b) (hne : v ≠ u) : Point root (fam.grow v) u b := by
  have hborn : (fam.grow v).born u = fam.born u := born_grow hne
  cases h with
  | plan hp hr =>
    rw [← hborn] at hr ⊢
    exact .plan (Family.place?_append hp _) hr
  | publish hp hr hk he => exact .publish (Family.place?_append hp _) hr (hborn.trans hk) (Family.entry?_append he _)
  | wait hp hr ht =>
    rw [← hborn] at hr ⊢
    exact .wait (Family.place?_append hp _) hr (Family.place?_append ht _)

theorem Concludes.grow (h : Concludes root fam u result) (hne : v ≠ u) : Concludes root (fam.grow v) u result := by
  obtain ⟨path, n, hp, hr⟩ := h
  have hborn : (fam.grow v).born u = fam.born u := born_grow hne
  exact ⟨path, n, Family.place?_append hp _, hborn.symm ▸ hr⟩

/-! What becomes of a point when the body takes a step. -/

namespace Point

theorem planned (h : Point root fam u b) : b.planned := by
  cases h with
  | @plan _ _ plan => cases plan <;> rfl
  | publish | wait => rfl

/-- A spawn adds to the spawn tree. Both the new task and the one that spawned it are at points of their plans. -/
theorem spawn {target : Option RuntimeId} {options : SpawnOptions} {child : Body Handles}
    {next : Except Payload TaskId → Body Handles} (hg : fam.Grown)
    (h : Point root fam u (.spawn target options child next)) :
    (fam.grow u).Grown ∧ Point root (fam.grow u) (fam.length + 1) child ∧
      Point root (fam.grow u) u (next (.ok (fam.length + 1))) := by
  generalize hb : Body.spawn target options child next = b at h
  cases h with
  | @plan path n plan hp hr =>
    cases plan with
    | spawn options' plan' rest =>
      cases hb
      have hu : u ≠ fam.length + 1 := Nat.ne_of_lt (Nat.lt_succ_of_le (Family.le_of_place hp))
      rw [Family.grow_eq hp]
      refine ⟨hg.child hp, ?_, ?_⟩
      · have hborn : Family.born (fam ++ [(u, path ++ [fam.born u])]) (fam.length + 1) = 0 := by
          rw [born_grow hu, hg.born_new]
        rw [← hborn]
        exact .plan (Family.place?_of_entry (Family.entry?_new fam _)) (hborn.symm ▸ hr.child)
      · refine .publish (Family.place?_append hp _) hr ?_ (Family.entry?_new fam _)
        rw [Family.born_append, if_pos rfl]
    | _ => cases hb
  | _ => cases hb

theorem share {change : Handles → Handles} {next : Handles → Body Handles}
    (h : Point root fam u (.share change next)) :
    ∃ path t, fam.place? t = some path ∧ change board = (path, t) :: board ∧ Point root fam u (next board) := by
  generalize hb : Body.share change next = b at h
  cases h with
  | @plan _ _ plan => cases plan <;> cases hb
  | @publish path n k options child rest t hp hr hk he =>
    cases hb
    refine ⟨path ++ [k], t, Family.place?_of_entry he, rfl, ?_⟩
    rw [← hk]
    exact .plan hp (hk ▸ hr.spawn)
  | wait => cases hb

theorem await {ready : Handles → Bool} {next : Handles → Body Handles}
    (hboard : ∀ path t, (path, t) ∈ board → fam.place? t = some path)
    (h : Point root fam u (.await ready next)) (hready : ready board) : Point root fam u (next board) := by
  generalize hb : Body.await ready next = b at h
  cases h with
  | @plan path n plan hp hr =>
    cases plan with
    | wait kind other rest =>
      cases hb
      obtain ⟨t, ht⟩ := Option.isSome_iff_exists.1 hready
      obtain ⟨before, after, he, _⟩ := List.lookup_eq_some_iff.1 ht
      have hplace : fam.place? t = some other :=
        hboard other t (he ▸ List.mem_append_right before List.mem_cons_self)
      simp only [ht, Option.getD_some]
      exact .wait hp hr hplace
    | _ => cases hb
  | _ => cases hb

theorem told {kind : WaitKind} {next : Outcome → Body Handles} (h : Point root fam u (.wait kind t next))
    (ht : Concludes root fam t result) : Point root fam u (next (outcomeOf t result)) := by
  generalize hb : Body.wait kind t next = b at h
  cases h with
  | @plan _ _ plan => cases plan <;> cases hb
  | publish => cases hb
  | @wait path other n kind rest t hp hr hplace =>
    cases hb
    obtain ⟨q, l, hq, hresult⟩ := ht
    cases hplace.symm.trans hq
    have htold : (outcomeOf t result).mapError JoinError.cause = Plan.told result := by
      cases result <;> rfl
    have hnext := Point.plan hp (hr.wait hresult)
    rwa [← htold] at hnext

theorem conclude (h : Point root fam u (.ofResult result)) : Concludes root fam u result := by
  generalize hb : Body.ofResult result = b at h
  cases h with
  | @plan path n plan hp hr =>
    have hplan : plan = .ofResult result := by
      cases plan <;> cases result <;> cases hb <;> rfl
    exact ⟨path, n, hp, hplan ▸ hr⟩
  | publish | wait => cases result <;> cases hb

end Point

end TaskSpace

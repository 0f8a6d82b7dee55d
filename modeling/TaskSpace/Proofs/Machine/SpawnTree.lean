import Mathlib.Tactic.ByContra
import TaskSpace.Proofs.Machine.Hosts

/-!
# The spawn tree of a run

Each task of a run was spawned by some body, and was the first, second or later task that it spawned. These
numbers, from the root on, are its place. The name of a task depends on what else was spawned before it in the
run, its place does not.
-/

namespace TaskSpace

/-- The place of a task: the number of the spawn of each of its ancestors that leads to it, from the root on. -/
abbrev Path := List Nat

/-- The tasks in the order in which they were spawned: for each, who spawned it and its place. -/
abbrev Family := List (TaskId × Path)

namespace Family

variable {fam : Family} {t u : TaskId} {path q : Path} {i : Nat}

/-- The parent and the place of a task. -/
def entry? (fam : Family) : TaskId → Option (TaskId × Path)
  | 0 => none
  | place + 1 => fam[place]?

/-- The place of a task, or of the root. -/
def place? (fam : Family) (t : TaskId) : Option Path :=
  if t = TaskId.root then some [] else (fam.entry? t).map Prod.snd

/-- How many tasks a task has spawned. -/
def born (fam : Family) (u : TaskId) : Nat := fam.countP fun entry => entry.1 = u

/-- Task `u` spawns a task. -/
def grow (fam : Family) (u : TaskId) : Family := fam ++ [(u, (fam.place? u).getD [] ++ [fam.born u])]

/-- The task at a place. -/
def taskAt (fam : Family) (path : Path) : Option TaskId := (fam.findIdx? fun e => e.2 = path).map (· + 1)

/-- The places are those of a spawn tree. -/
inductive Grown : Family → Prop
  | nil : Grown []
  | child {fam : Family} {u path} : Grown fam → fam.place? u = some path → Grown (fam ++ [(u, path ++ [fam.born u])])

theorem entry?_append {e : TaskId × Path} (h : fam.entry? t = some e) (e' : TaskId × Path) :
    Family.entry? (fam ++ [e']) t = some e := by
  cases t with
  | zero => cases h
  | succ place => exact (List.getElem?_append_left (List.getElem?_eq_some_iff.1 h).1).trans h

theorem entry?_new (fam : Family) (e : TaskId × Path) : Family.entry? (fam ++ [e]) (fam.length + 1) = some e :=
  List.getElem?_concat_length

theorem entry?_cases {e e' : TaskId × Path} (h : Family.entry? (fam ++ [e']) t = some e) :
    fam.entry? t = some e ∨ t = fam.length + 1 ∧ e = e' := by
  cases t with
  | zero => cases h
  | succ place =>
    have h : (fam ++ [e'])[place]? = some e := h
    rcases Nat.lt_or_ge place fam.length with hlt | hge
    · exact .inl ((List.getElem?_append_left hlt).symm.trans h)
    · have hbound := (List.getElem?_eq_some_iff.1 h).1
      rw [List.length_append, List.length_singleton] at hbound
      obtain rfl := Nat.le_antisymm (Nat.le_of_lt_succ hbound) hge
      rw [List.getElem?_concat_length] at h
      exact .inr ⟨rfl, (Option.some.inj h).symm⟩

theorem place?_of_entry (h : fam.entry? t = some (u, path)) : fam.place? t = some path := by
  unfold place?
  rw [if_neg (by rintro rfl; cases h), h]
  rfl

theorem place?_cases (h : fam.place? t = some path) :
    t = TaskId.root ∧ path = [] ∨ ∃ u, fam.entry? t = some (u, path) := by
  unfold place? at h
  split at h
  · cases h
    exact .inl ⟨by assumption, rfl⟩
  · obtain ⟨⟨u, _⟩, he, rfl⟩ := Option.map_eq_some_iff.1 h
    exact .inr ⟨u, he⟩

theorem place?_append (h : fam.place? t = some path) (e : TaskId × Path) :
    Family.place? (fam ++ [e]) t = some path := by
  rcases place?_cases h with ⟨rfl, rfl⟩ | ⟨u, he⟩
  · rfl
  · exact place?_of_entry (entry?_append he e)

theorem born_append (fam : Family) (e : TaskId × Path) (u : TaskId) :
    Family.born (fam ++ [e]) u = fam.born u + if e.1 = u then 1 else 0 := by
  simp [born, List.countP_append, List.countP_singleton]

theorem grow_eq (h : fam.place? u = some path) : fam.grow u = fam ++ [(u, path ++ [fam.born u])] := by
  rw [grow, h]
  rfl

theorem entry?_of_taskAt (h : fam.taskAt path = some t) : ∃ u, fam.entry? t = some (u, path) := by
  obtain ⟨place, hfound, rfl⟩ := Option.map_eq_some_iff.1 h
  obtain ⟨hlt, he, _⟩ := List.findIdx?_eq_some_iff_getElem.1 hfound
  refine ⟨fam[place].1, ?_⟩
  rw [← of_decide_eq_true he]
  exact List.getElem?_eq_getElem hlt

theorem le_of_place (h : fam.place? t = some path) : t ≤ fam.length := by
  rcases place?_cases h with ⟨rfl, _⟩ | ⟨u, he⟩
  · exact Nat.zero_le _
  · cases t with
    | zero => exact Nat.zero_le _
    | succ place => exact (List.getElem?_eq_some_iff.1 he).1

namespace Grown

/-- The place of a task is that of its parent and the number of the spawn. -/
theorem entry (h : Grown fam) (he : fam.entry? t = some (u, q)) :
    ∃ path i, fam.place? u = some path ∧ q = path ++ [i] ∧ i < fam.born u := by
  induction h with
  | nil => cases t <;> cases he
  | @child fam u' path' hg hp ih =>
    rcases entry?_cases he with hold | ⟨_, hnew⟩
    · obtain ⟨path, i, hplace, hq, hlt⟩ := ih hold
      refine ⟨path, i, place?_append hplace _, hq, Nat.lt_of_lt_of_le hlt ?_⟩
      rw [born_append]
      exact Nat.le_add_right _ _
    · cases hnew
      refine ⟨path', _, place?_append hp _, rfl, ?_⟩
      rw [born_append, if_pos rfl]
      exact Nat.lt_succ_self _

/-- There is one task at a place. -/
theorem place_inj (h : Grown fam) (ht : fam.place? t = some path) (hu : fam.place? u = some path) : t = u := by
  induction h generalizing t u path with
  | nil =>
    have hroot : ∀ {t : TaskId}, Family.place? [] t = some path → t = TaskId.root := by
      intro t ht
      rcases place?_cases ht with ⟨rfl, _⟩ | ⟨_, he⟩
      · rfl
      · cases t <;> cases he
    rw [hroot ht, hroot hu]
  | @child fam u' path' hg hp ih =>
    -- a task that is there already has another place than the new one
    have hfresh : ∀ {v : TaskId} {e}, fam.entry? v = some (e, path' ++ [fam.born u']) → False := by
      intro v e he
      obtain ⟨path, i, hplace, hq, hlt⟩ := hg.entry he
      obtain ⟨rfl, hi⟩ := List.append_inj' hq rfl
      obtain rfl := List.singleton_inj.1 hi
      rw [ih hplace hp] at hlt
      exact Nat.lt_irrefl _ hlt
    have hcases : ∀ {v : TaskId}, Family.place? (fam ++ [(u', path' ++ [fam.born u'])]) v = some path →
        fam.place? v = some path ∨ v = fam.length + 1 ∧ path = path' ++ [fam.born u'] := by
      intro v hv
      rcases place?_cases hv with ⟨rfl, rfl⟩ | ⟨_, he⟩
      · exact .inl rfl
      · rcases entry?_cases he with hold | ⟨rfl, hnew⟩
        · exact .inl (place?_of_entry hold)
        · cases hnew
          exact .inr ⟨rfl, rfl⟩
    have hclash : ∀ {v : TaskId}, fam.place? v = some (path' ++ [fam.born u']) → False := by
      intro v hv
      rcases place?_cases hv with ⟨_, he⟩ | ⟨_, he⟩
      · simp at he
      · exact hfresh he
    rcases hcases ht with ht | ⟨rfl, rfl⟩
    · rcases hcases hu with hu | ⟨rfl, rfl⟩
      · exact ih ht hu
      · exact (hclash ht).elim
    · rcases hcases hu with hu | ⟨rfl, _⟩
      · exact (hclash hu).elim
      · rfl

/-- A task that was just spawned has spawned none. -/
theorem born_new (h : Grown fam) : fam.born (fam.length + 1) = 0 := by
  refine List.countP_eq_zero.2 fun e he => ?_
  obtain ⟨place, hplace⟩ := List.mem_iff_getElem?.1 he
  obtain ⟨path, i, hp, _⟩ := h.entry (t := place + 1) (u := e.1) (q := e.2) hplace
  have hle := le_of_place hp
  simp only [decide_eq_true_eq]
  exact Nat.ne_of_lt (Nat.lt_succ_of_le hle)

/-- Every spawn of a task is there. -/
theorem exists_child (h : Grown fam) (hp : fam.place? u = some path) (hi : i < fam.born u) :
    ∃ t, fam.entry? t = some (u, path ++ [i]) := by
  induction h with
  | nil => cases hi
  | @child fam u' path' hg hp' ih =>
    rw [born_append] at hi
    by_cases hold : fam.place? u = some path ∧ i < fam.born u
    · obtain ⟨t, ht⟩ := ih hold.1 hold.2
      exact ⟨t, entry?_append ht _⟩
    -- the spawn is the one that was just made
    · have hparent : u' = u := by
        by_contra hne
        rw [if_neg hne, Nat.add_zero] at hi
        rcases place?_cases hp with ⟨rfl, rfl⟩ | ⟨_, he⟩
        · exact hold ⟨rfl, hi⟩
        · rcases entry?_cases he with he | ⟨rfl, _⟩
          · exact hold ⟨place?_of_entry he, hi⟩
          · rw [hg.born_new] at hi
            cases hi
      subst hparent
      obtain rfl := Option.some.inj ((place?_append hp' _).symm.trans hp)
      rw [if_pos rfl] at hi
      obtain rfl : i = fam.born u' :=
        Nat.le_antisymm (Nat.le_of_lt_succ hi) (Nat.le_of_not_lt fun hlt => hold ⟨hp', hlt⟩)
      exact ⟨fam.length + 1, entry?_new fam _⟩

theorem taskAt_of_entry (h : Grown fam) (he : fam.entry? t = some (u, path)) : fam.taskAt path = some t := by
  cases hfound : fam.taskAt path with
  | some v =>
    obtain ⟨_, hv⟩ := entry?_of_taskAt hfound
    exact congrArg some (h.place_inj (place?_of_entry hv) (place?_of_entry he))
  | none =>
    cases t with
    | zero => cases he
    | succ place =>
      have hnone := List.findIdx?_eq_none_iff.1 (Option.map_eq_none_iff.1 hfound)
      simpa using hnone _ (List.mem_of_getElem? he)

end Grown

end Family

/-- The task of the innermost body. -/
def Frame.top? {σ : Type} (frames : List (Frame σ)) : Option TaskId :=
  (frames.filterMap Frame.body?).head?.map Prod.fst

namespace Machine

variable {σ : Type}

/-- The task whose body spawns a task when thread `id` takes a step. -/
def spawner? (m m' : Machine σ) (id : ThreadId) : Option TaskId :=
  if m.tasks.length < m'.tasks.length then
    some (((m.threads[id]?).bind fun th => Frame.top? th.frames).getD TaskId.root)
  else none

end Machine

/-- The spawn tree after a step. -/
def Family.after {σ : Type} (fam : Family) (m m' : Machine σ) (id : ThreadId) : Family :=
  match m.spawner? m' id with
  | some u => fam.grow u
  | none => fam

namespace Machine

variable {σ : Type} {m m' : Machine σ} {id : ThreadId} {th : Thread σ} {u : TaskId}

theorem after_of_le (fam : Family) (h : m'.tasks.length ≤ m.tasks.length) : fam.after m m' id = fam := by
  rw [Family.after, spawner?, if_neg (Nat.not_lt_of_le h)]

theorem after_of_lt (fam : Family) (h : m.tasks.length < m'.tasks.length) (hth : m.threads[id]? = some th)
    (htop : Frame.top? th.frames = some u) : fam.after m m' id = fam.grow u := by
  rw [Family.after, spawner?, if_pos h, hth, Option.bind_some, htop]
  rfl

def spawnTree (turns : Turns σ) : Family :=
  turns.foldl (fun fam turn => fam.after turn.before turn.after turn.act.1) []

theorem spawnTree_append (turns : Turns σ) (turn : Turn (Machine σ) (ThreadId × Choice)) :
    spawnTree (turns ++ [turn]) = (spawnTree turns).after turn.before turn.after turn.act.1 := by
  rw [spawnTree, List.foldl_append]
  rfl

/-- The result of the task at a place: what a wait for it is told. -/
def resultAt (turns : Turns σ) (m : Machine σ) (path : Path) : Option (Except JoinCause Value) :=
  ((((spawnTree turns).taskAt path).bind m.cell?).bind Cell.outcome).map (Except.mapError JoinError.cause)

end Machine

end TaskSpace

import TaskSpace.Proofs.Memory.Operations

/-!
# Every use of one address space

A client calls the operations of a space one after the other, with any arguments, and holds the
handles that it was given and has not released. Releasing takes the handle away, so that a client
releases each of them once.
-/

namespace TaskSpace

/-- A call of a space. `localizeAll` maps ranges all or none, and `write` goes through any reference
to a mapping, released or not. -/
inductive SpaceOp where
  | alloc (size blockSize : Nat)
  | dealloc (base : Pointer)
  | put (ptr : Pointer) (new : Bytes)
  | get (ptr : Pointer) (len : Nat)
  | fill (ptr : Pointer) (value : UInt8) (len : Nat)
  | rmw (ptr : Pointer) (len : Nat) (update : Update)
  | commit (ptr : Pointer) (new : Bytes)
  | localize (ptr : Pointer) (len : Nat) (access : Access) (worker : WorkerId)
  | localizeAll (ranges : List Range) (access : Access) (worker : WorkerId)
  | unlocalize (handle : MappingId)
  | write (handle : MappingId) (off : Nat) (new : Bytes)

namespace SpaceOp

@[reducible] def Result : SpaceOp → Type
  | alloc .. => Pointer
  | get .. => Bytes
  | rmw .. => Bytes
  | localize .. => MappingId
  | localizeAll .. => List MappingId
  | _ => Unit

@[reducible] def Answer (op : SpaceOp) : Type := Except Fault op.Result

def span : SpaceOp → Nat
  | alloc size blockSize => Space.span size blockSize
  | _ => 0

/-- The block size that a call names is a word. -/
def Worded : SpaceOp → Prop
  | alloc _ blockSize => blockSize < Word.bound
  | _ => True

instance : (op : SpaceOp) → Decidable op.Worded
  | alloc _ blockSize => inferInstanceAs (Decidable (blockSize < Word.bound))
  | dealloc .. | put .. | get .. | fill .. | rmw .. | commit .. | localize .. | localizeAll ..
  | unlocalize .. | write .. => .isTrue trivial

/-- Where the address counter of a new space would stand after some calls, were it not a word. -/
def addresses (ops : List SpaceOp) : Nat := Space.page + Word.total (ops.map span)

end SpaceOp

/-- The number of ranges that `localizeAll` comes to: those that it maps, and the one that ends it. -/
def Space.reached (access : Access) (worker : WorkerId) : List Range → Space → Nat
  | [], _ => 0
  | range :: rest, s =>
    match s.localize range.start range.len access worker with
    | (.ok _, s) => reached access worker rest s + 1
    | (.error _, _) => 1

structure Client where
  space : Space
  /-- The handles given and not released. -/
  handles : List MappingId

namespace Client

def start (numHomes : Nat) : Client := ⟨Space.new numHomes, []⟩

def keep (c : Client) : Except Fault Space → Except Fault Unit × Client
  | .ok s => (.ok (), { c with space := s })
  | .error fault => (.error fault, c)

def perform (c : Client) : (op : SpaceOp) → op.Answer × Client
  | .alloc size blockSize =>
    ((c.space.alloc size blockSize).1, { c with space := (c.space.alloc size blockSize).2 })
  | .dealloc base => c.keep (c.space.dealloc base)
  | .put ptr new => c.keep (c.space.put ptr new)
  | .get ptr len => (c.space.get ptr len, c)
  | .fill ptr value len => c.keep (c.space.fill ptr value len)
  | .rmw ptr len update =>
    match c.space.rmw ptr len update with
    | .ok (old, s) => (.ok old, { c with space := s })
    | .error fault => (.error fault, c)
  | .commit ptr new => c.keep (c.space.commit ptr new)
  | .localize ptr len access worker =>
    match c.space.localize ptr len access worker with
    | (.ok id, s) => (.ok id, ⟨s, c.handles ++ [id]⟩)
    | (.error fault, s) => (.error fault, { c with space := s })
  | .localizeAll ranges access worker =>
    match AddressSpace.localizeAll c.space ranges access worker with
    | (.ok ids, s) => (.ok ids, ⟨s, c.handles ++ ids⟩)
    | (.error fault, s) => (.error fault, { c with space := s })
  | .unlocalize handle =>
    (.ok (), if handle ∈ c.handles then ⟨c.space.unlocalize handle, c.handles.erase handle⟩ else c)
  | .write handle off new => c.keep (c.space.write handle off new)

def run (c : Client) (ops : List SpaceOp) : Client := ops.foldl (fun c op => (c.perform op).2) c

def answers (c : Client) : List SpaceOp → List ((op : SpaceOp) × op.Answer)
  | [] => []
  | op :: rest => ⟨op, (c.perform op).1⟩ :: (c.perform op).2.answers rest

@[simp] theorem run_nil (c : Client) : c.run [] = c := rfl

@[simp] theorem run_cons (c : Client) (op : SpaceOp) (rest : List SpaceOp) :
    c.run (op :: rest) = (c.perform op).2.run rest := rfl

variable {c : Client} {reach : Nat}

theorem keep_sameShape {answer : Except Fault Space}
    (h : ∀ s, answer = .ok s → Space.SameShape c.space s) :
    Space.SameShape c.space (c.keep answer).2.space := by
  cases answer with
  | ok s => exact h s rfl
  | error fault => exact ⟨rfl, rfl⟩

/-- A call allocates a segment, frees one, or leaves every segment its place and its shape. -/
theorem perform_shape (h : c.space.Placed reach) (op : SpaceOp) :
    (∃ size blockSize, op = .alloc size blockSize ∧
      (c.perform op).2.space = (c.space.alloc size blockSize).2) ∨
    (∃ base, op = .dealloc base ∧ c.space.dealloc base = .ok (c.perform op).2.space) ∨
    Space.SameShape c.space (c.perform op).2.space := by
  cases op with
  | alloc size blockSize => exact .inl ⟨size, blockSize, rfl, rfl⟩
  | dealloc base =>
    simp only [perform]
    cases hd : c.space.dealloc base with
    | ok s => exact .inr (.inl ⟨base, rfl, hd⟩)
    | error fault => exact .inr (.inr ⟨rfl, rfl⟩)
  | put ptr new => exact .inr (.inr (keep_sameShape fun s he => h.put_sameShape he))
  | get ptr len => exact .inr (.inr ⟨rfl, rfl⟩)
  | fill ptr value len =>
    exact .inr (.inr (keep_sameShape fun s he => h.put_sameShape (Space.fill_eq_put _ _ _ _ ▸ he)))
  | rmw ptr len update =>
    refine .inr (.inr ?_)
    simp only [perform, Space.rmw_eq]
    cases c.space.get ptr len with
    | error fault => exact ⟨rfl, rfl⟩
    | ok old =>
      simp only [Except.bind]
      cases hp : c.space.put ptr (update.run old) with
      | error fault => exact ⟨rfl, rfl⟩
      | ok s => exact h.put_sameShape hp
  | commit ptr new => exact .inr (.inr (keep_sameShape fun s he => h.put_sameShape he))
  | localize ptr len access worker =>
    have hs := (h.localize_sameHome ptr len access worker).sameShape
    refine .inr (.inr ?_)
    simp only [perform]
    split <;> rename_i he <;> rw [he] at hs <;> exact hs
  | localizeAll ranges access worker =>
    have hs := (h.localizeRest_sameHome access worker [] ranges).sameShape
    refine .inr (.inr ?_)
    simp only [perform, AddressSpace.localizeAll]
    split <;> rename_i he <;> rw [he] at hs <;> exact hs
  | unlocalize handle =>
    refine .inr (.inr ?_)
    simp only [perform]
    split
    · exact (Space.unlocalize_sameHome _ _).sameShape
    · exact ⟨rfl, rfl⟩
  | write handle off new =>
    exact .inr (.inr (keep_sameShape fun s he => (Space.write_sameHome he).sameShape))

/-- A call leaves the segments apart, as long as the addresses last. -/
theorem perform_placed (h : c.space.Placed reach) (op : SpaceOp)
    (hr : reach + op.span ≤ Word.bound) : (c.perform op).2.space.Placed (reach + op.span) := by
  rcases perform_shape h op with ⟨size, blockSize, rfl, he⟩ | ⟨base, rfl, he⟩ | hs
  · rw [he]
    exact h.alloc hr
  · exact h.dealloc he
  · cases op with
    | alloc size blockSize => exact h.alloc hr
    | _ => exact h.of_sameShape hs

/-- What every call preserves while the addresses last, every run preserves. -/
theorem run_induction {P : Nat → Client → Prop}
    (step : ∀ reach c op, P reach c → reach + op.span ≤ Word.bound →
      P (reach + op.span) (c.perform op).2)
    (h : P reach c) (ops : List SpaceOp) (hr : reach + Word.total (ops.map SpaceOp.span) ≤ Word.bound) :
    P (reach + Word.total (ops.map SpaceOp.span)) (c.run ops) := by
  induction ops generalizing reach c with
  | nil => exact h
  | cons op rest ih =>
    rw [List.map_cons, Word.total_cons, ← Nat.add_assoc] at hr ⊢
    exact ih (step reach c op h (by omega)) hr

/-- What every call preserves while the addresses last, together with the calls so far and their
answers, every run preserves. -/
theorem answers_induction {P : Nat → Client → List ((op : SpaceOp) × op.Answer) → Prop}
    (step : ∀ reach c log op, P reach c log → reach + op.span ≤ Word.bound →
      P (reach + op.span) (c.perform op).2 (log ++ [⟨op, (c.perform op).1⟩]))
    {log : List ((op : SpaceOp) × op.Answer)} (h : P reach c log) (ops : List SpaceOp)
    (hr : reach + Word.total (ops.map SpaceOp.span) ≤ Word.bound) :
    P (reach + Word.total (ops.map SpaceOp.span)) (c.run ops) (log ++ c.answers ops) := by
  induction ops generalizing reach c log with
  | nil => rwa [answers, List.append_nil]
  | cons op rest ih =>
    rw [List.map_cons, Word.total_cons, ← Nat.add_assoc] at hr ⊢
    rw [answers, List.append_cons]
    exact ih (step reach c log op h (by omega)) hr

theorem run_placed (numHomes : Nat) (ops : List SpaceOp) (hr : SpaceOp.addresses ops ≤ Word.bound) :
    ((start numHomes).run ops).space.Placed (SpaceOp.addresses ops) :=
  run_induction (P := fun reach c => c.space.Placed reach)
    (fun _ _ op h hr => perform_placed h op hr) (Space.placed_new numHomes) ops hr

end Client

end TaskSpace

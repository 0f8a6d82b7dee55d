import TaskSpace.Word

/-!
Applying a function to a tuple of arguments.
-/
namespace TaskSpace

/-- Functions of `n` arguments from `α`. -/
def Curried (α β : Type) : Nat → Type
  | 0 => β
  | n + 1 => α → Curried α β n

namespace Curried

variable {α β : Type}

/-- Applies a function to as many arguments as it takes, in order. -/
def apply : (args : List α) → Curried α β args.length → β
  | [], f => f
  | a :: args, f => apply args (f a)

/-- The function that folds its `n` arguments, in order. -/
def folding (step : β → α → β) (init : β) : (n : Nat) → Curried α β n
  | 0 => init
  | n + 1 => fun a => folding step (step init a) n

theorem apply_folding (step : β → α → β) (init : β) (args : List α) :
    apply args (folding step init args.length) = args.foldl step init := by
  induction args generalizing init with
  | nil => rfl
  | cons a args ih => exact ih (step init a)

end Curried

/-- A checksum of words: each one is added to 31 times what came before. -/
def checksum (args : List Nat) : Nat :=
  Curried.apply args (Curried.folding (fun acc a => Word.wrap (acc * 31 + a)) 17 args.length)

end TaskSpace

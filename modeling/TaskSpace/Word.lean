/-!
Machine words: natural numbers below `2 ^ 64`. Sums and products are checked, and answer `none`
when they leave the word; `wrap` is the arithmetic that goes round instead.
-/
namespace TaskSpace.Word

/-- The number of words. -/
def bound : Nat := 0x10000000000000000

def top : Nat := bound - 1

/-- The greatest length of a block of memory: half the words. -/
def maxLength : Nat := 0x7FFFFFFFFFFFFFFF

def wrap (n : Nat) : Nat := n % bound

def add? (a b : Nat) : Option Nat := if a + b < bound then some (a + b) else none

def mul? (a b : Nat) : Option Nat := if a * b < bound then some (a * b) else none

/-- The sum of any numbers, which need not be a word. -/
def total : List Nat → Nat
  | [] => 0
  | n :: rest => n + total rest

/-- Quotient rounded up. -/
def divUp (n d : Nat) : Nat := if n % d = 0 then n / d else n / d + 1

theorem add?_eq_some {a b c : Nat} : add? a b = some c ↔ a + b < bound ∧ a + b = c := by
  simp [add?]

theorem mul?_eq_some {a b c : Nat} : mul? a b = some c ↔ a * b < bound ∧ a * b = c := by
  simp [mul?]

@[simp] theorem total_nil : total [] = 0 := rfl

@[simp] theorem total_cons (n : Nat) (rest : List Nat) : total (n :: rest) = n + total rest := rfl

theorem total_append (l l' : List Nat) : total (l ++ l') = total l + total l' := by
  induction l with
  | nil => exact (Nat.zero_add _).symm
  | cons n rest ih => rw [List.cons_append, total_cons, total_cons, ih, Nat.add_assoc]

theorem le_total {n : Nat} {l : List Nat} (h : n ∈ l) : n ≤ total l := by
  induction l with
  | nil => cases h
  | cons m rest ih =>
    rcases List.mem_cons.1 h with rfl | h
    · exact Nat.le_add_right n _
    · exact Nat.le_trans (ih h) (Nat.le_add_left _ m)

theorem wrap_of_lt {n : Nat} (h : n < bound) : wrap n = n := Nat.mod_eq_of_lt h

theorem le_divUp_mul {d : Nat} (hd : 0 < d) (n : Nat) : n ≤ divUp n d * d := by
  have h := Nat.div_add_mod n d
  have hm := Nat.mod_lt n hd
  rw [Nat.mul_comm] at h
  unfold divUp
  split
  · omega
  · rw [Nat.succ_mul]; omega

theorem lt_divUp_of_mul_lt {d i n : Nat} (hd : 0 < d) (h : i * d < n) : i < divUp n d := by
  have hle := le_divUp_mul hd n
  exact Nat.lt_of_mul_lt_mul_right (Nat.lt_of_lt_of_le h hle)

end TaskSpace.Word

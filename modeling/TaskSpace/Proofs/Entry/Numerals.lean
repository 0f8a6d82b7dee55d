import Mathlib.Data.List.Basic
import Mathlib.Data.Nat.Digits.Defs
import TaskSpace.Text.Digits
import TaskSpace.Text.Letter

/-!
# Whole numbers as they are written

A whole number is the sign of its base, digits with lines among them, and a suffix. It stands for the value of
its digits, whatever its suffix is. Written in base ten without more, a number that is a word is read back, and a
greater one is refused.
-/

namespace TaskSpace.Entry

open Text (isDigit isHexDigit digitValue isIdentStart isIdentContinue addDigit)

variable {base value n : Nat} {c : Char} {text : String} {chars : List Char}

/-! ## Numerals -/

/-- A digit of a base. -/
def DigitOf (base : Nat) (c : Char) : Prop := isHexDigit c = true ∧ digitValue c < base

/-- The value of digits in a base, the lines among them left out. -/
def valueOf (base : Nat) (marks : List Char) : Nat :=
  Nat.ofDigits base ((marks.filter (· ≠ '_')).map digitValue).reverse

/-- Behind the letter of an exponent comes a digit or a sign, perhaps with lines before it. -/
def exponentAhead (chars : List Char) : Bool :=
  (chars.dropWhile (· = '_')).head?.any fun c => c = '+' || c = '-' || isDigit c

/-- What stands behind the digits of a base goes on with no digit, point or exponent. -/
def Stops (base : Nat) : List Char → Prop
  | [] => True
  | c :: rest => isDigit c = false ∧ (10 < base → isHexDigit c = false) ∧ c ≠ '_' ∧
      (base = 10 → c ≠ '.' ∧ (c = 'e' ∨ c = 'E' → exponentAhead rest = false))

/-- A base, and how it is announced. -/
inductive Radix : List Char → Nat → Prop
  | decimal : Radix [] 10
  | hexadecimal : Radix ['0', 'x'] 16
  | octal : Radix ['0', 'o'] 8
  | binary : Radix ['0', 'b'] 2

/-- A number has the base of the longest sign that it begins with. -/
def Announced (sign chars : List Char) : Prop :=
  sign <+: chars ∧ ∀ sign' base', Radix sign' base' → sign' <+: chars → sign' <+: sign

/-- The characters of a name. -/
def IsName (chars : List Char) : Prop :=
  ∃ first rest, chars = first :: rest ∧ isIdentStart first = true ∧ ∀ c ∈ rest, isIdentContinue c = true

/-- A whole number as it is written, with its value and its suffix. -/
inductive Numeral (text : String) : Nat → String → Prop
  | mk {sign marks : List Char} {base : Nat} {suffix : String}
    (radix : Radix sign base)
    (announced : Announced sign text.toList)
    (text_eq : text.toList = sign ++ marks ++ suffix.toList)
    (marks_of : ∀ c ∈ marks, c = '_' ∨ DigitOf base c)
    (digit : ∃ c ∈ marks, c ≠ '_')
    (suffix_eq : suffix = "" ∨ IsName suffix.toList)
    (stops : Stops base suffix.toList) : Numeral text (valueOf base marks) suffix

theorem ten_le_digitValue (h : isDigit c = false) : 10 ≤ digitValue c := by
  rw [digitValue, h, if_neg Bool.false_ne_true]
  split <;> omega

theorem digitOf_iff :
    DigitOf base c ↔ (isDigit c || (base > 10 && isHexDigit c)) = true ∧ digitValue c < base := by
  refine and_congr_left fun hlt => ?_
  cases hd : isDigit c with
  | true => simp [isHexDigit, hd]
  | false =>
    have hbase : 10 < base := (ten_le_digitValue hd).trans_lt hlt
    simp [hbase]

theorem DigitOf.ne_line (h : DigitOf base c) : c ≠ '_' := by
  rintro rfl
  exact absurd h.1 (by decide)

theorem Radix.length_le {sign : List Char} (h : Radix sign base) : sign.length ≤ 2 := by cases h <;> decide

theorem valueOf_eq (base : Nat) (marks : List Char) : valueOf base marks =
    (marks.filter (· ≠ '_')).foldl (fun value c => value * base + digitValue c) 0 := by
  rw [valueOf, Nat.ofDigits_eq_foldr, List.foldr_reverse, List.foldl_map]
  congr
  funext value c
  simp [Nat.mul_comm, Nat.add_comm]

/-! ## Base ten -/

theorem isDigit_of_mem_toDigits (h : c ∈ Nat.toDigits 10 n) : isDigit c = true := by
  have hc : c.isDigit = true := Nat.isDigit_of_mem_toDigits (by decide) le_rfl h
  rw [Char.isDigit, Bool.and_eq_true, decide_eq_true_eq, decide_eq_true_eq] at hc
  exact Bool.and_eq_true_iff.2 ⟨decide_eq_true hc.1, decide_eq_true hc.2⟩

theorem foldl_toDigits (n : Nat) :
    (Nat.toDigits 10 n).foldl (fun value c => value * 10 + digitValue c) 0 = n := by
  have hdigits : (Nat.toDigits 10 n).foldl (fun value c => value * 10 + digitValue c) 0 =
      Nat.ofDigitChars 10 (Nat.toDigits 10 n) 0 := by
    refine List.foldl_ext _ _ 0 fun value c hc => ?_
    rw [digitValue, if_pos (isDigit_of_mem_toDigits hc), Nat.mul_comm]
  rw [hdigits, Nat.ofDigitChars_toDigits (by decide) le_rfl]

theorem valueOf_toDigits (n : Nat) : valueOf 10 (Nat.toDigits 10 n) = n := by
  have hlines : (Nat.toDigits 10 n).filter (· ≠ '_') = Nat.toDigits 10 n := by
    refine List.filter_eq_self.2 fun c hc => decide_eq_true ?_
    rintro rfl
    exact absurd (isDigit_of_mem_toDigits hc) (by decide)
  rw [valueOf_eq, hlines, foldl_toDigits]

theorem toList_toString (n : Nat) : (toString n).toList = Nat.toDigits 10 n := by
  rw [Nat.toString_eq_repr, Nat.toList_repr]

theorem digitOf_of_isDigit (h : isDigit c = true) : DigitOf 10 c := by
  have hbounds := Bool.and_eq_true_iff.1 h
  have hzero : '0'.toNat ≤ c.toNat := of_decide_eq_true hbounds.1
  have hnine : c.toNat ≤ '9'.toNat := of_decide_eq_true hbounds.2
  have hten : '9'.toNat < '0'.toNat + 10 := by decide
  refine digitOf_iff.2 ⟨by rw [h, Bool.true_or], ?_⟩
  rw [digitValue, if_pos h]
  omega

/-- Without the letter of another base a number is in base ten. -/
theorem announced_nil (hx : 'x' ∉ chars) (ho : 'o' ∉ chars) (hb : 'b' ∉ chars) : Announced [] chars := by
  refine ⟨List.nil_prefix, fun sign base hradix hsign => ?_⟩
  cases hradix with
  | decimal => exact List.nil_prefix
  | hexadecimal => exact absurd (hsign.subset (by decide)) hx
  | octal => exact absurd (hsign.subset (by decide)) ho
  | binary => exact absurd (hsign.subset (by decide)) hb

/-- A number in base ten with its type behind it is read back. -/
theorem numeral_usize (n : Nat) : Numeral (toString n ++ "usize") n "usize" := by
  have htext : (toString n ++ "usize").toList = [] ++ Nat.toDigits 10 n ++ "usize".toList := by
    rw [String.toList_append, toList_toString, List.nil_append]
  have hchars : ∀ c ∈ (toString n ++ "usize").toList, isDigit c = true ∨ c ∈ "usize".toList := by
    intro c hc
    rw [htext, List.nil_append, List.mem_append] at hc
    exact hc.imp_left isDigit_of_mem_toDigits
  have hannounced : Announced [] (toString n ++ "usize").toList :=
    announced_nil (fun h => absurd (hchars _ h) (by decide)) (fun h => absurd (hchars _ h) (by decide))
      fun h => absurd (hchars _ h) (by decide)
  have hmarks : ∀ c ∈ Nat.toDigits 10 n, DigitOf 10 c :=
    fun c hc => digitOf_of_isDigit (isDigit_of_mem_toDigits hc)
  have hname : IsName "usize".toList := ⟨'u', ['s', 'i', 'z', 'e'], rfl, rfl, by simp [isIdentContinue]⟩
  have hnumeral : Numeral (toString n ++ "usize") (valueOf 10 (Nat.toDigits 10 n)) "usize" := by
    refine .mk .decimal hannounced htext (fun c hc => .inr (hmarks c hc)) ?_ (.inr hname) ?_
    · obtain ⟨c, hc⟩ := List.exists_mem_of_ne_nil _ Nat.toDigits_ne_nil
      exact ⟨c, hc, (hmarks c hc).ne_line⟩
    · exact ⟨by decide, by decide, by decide, by decide⟩
  rwa [valueOf_toDigits] at hnumeral

/-! ## Words -/

theorem le_foldl_digits (digits : List Char) (value : Nat) :
    value ≤ digits.foldl (fun value c => value * 10 + digitValue c) value := by
  induction digits generalizing value with
  | nil => exact le_rfl
  | cons c digits ih =>
    have hstep : value ≤ value * 10 + digitValue c := by omega
    exact hstep.trans (ih _)

/-- Digits are read up to where their value is no word any more. -/
theorem foldlM_addDigit (hdigits : ∀ c ∈ chars, isDigit c = true) (hvalue : value < Word.bound) :
    chars.foldlM addDigit value =
      if chars.foldl (fun value c => value * 10 + digitValue c) value < Word.bound then
        .ok (chars.foldl (fun value c => value * 10 + digitValue c) value)
      else .error .tooLarge := by
  induction chars generalizing value with
  | nil => rw [List.foldl_nil, if_pos hvalue]; rfl
  | cons c digits ih =>
    rw [List.forall_mem_cons] at hdigits
    rw [List.foldlM_cons, List.foldl_cons, addDigit, if_pos hdigits.1]
    split
    · rename_i hnext
      exact ih hdigits.2 hnext
    · rename_i hnext
      rw [if_neg fun hlt => hnext (lt_of_le_of_lt (le_foldl_digits digits _) hlt)]
      rfl

/-- A number in base ten is read if it is a word, and it is refused if it is too large. -/
theorem word_toString (n : Nat) :
    Text.word (toString n) = if n < Word.bound then .ok n else .error .tooLarge := by
  have hdigits : ∀ c ∈ Nat.toDigits 10 n, isDigit c = true := fun c hc => isDigit_of_mem_toDigits hc
  have hfold := foldlM_addDigit hdigits (show 0 < Word.bound by decide)
  rw [foldl_toDigits] at hfold
  rw [Text.word, toList_toString]
  split
  · rename_i hnil
    exact absurd hnil Nat.toDigits_ne_nil
  · rename_i hplus
    rw [hplus] at hdigits
    exact absurd (hdigits '+' (by decide)) (by decide)
  · rename_i digits hplus
    rw [hplus] at hdigits
    exact absurd (hdigits '+' List.mem_cons_self) (by decide)
  · exact hfold

/-- A number with a minus sign is none. -/
theorem word_of_minus (h : text.toList.head? = some '-') : Text.word text = .error .invalidDigit := by
  obtain ⟨rest, htext⟩ : ∃ rest, text.toList = '-' :: rest := by
    cases hlist : text.toList with
    | nil => rw [hlist] at h; cases h
    | cons c rest => rw [hlist] at h; cases h; exact ⟨rest, rfl⟩
  rw [Text.word, htext]
  rfl

theorem head?_toString_ne_minus (n : Nat) : (toString n).toList.head? ≠ some '-' := by
  intro h
  rw [toList_toString] at h
  exact absurd (isDigit_of_mem_toDigits (List.mem_of_head? h)) (by decide)

end TaskSpace.Entry

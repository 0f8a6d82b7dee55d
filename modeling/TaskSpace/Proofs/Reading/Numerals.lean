import Mathlib.Data.List.TakeWhile
import TaskSpace.Proofs.Entry.Laws
import TaskSpace.Reading.Literal

/-!
# Whole numbers as they are read

The digits of a number are read up to where they stop, in the base that the number announces. What is read as a
whole number is what is written as one.
-/

namespace TaskSpace.Reading.Literal

open Entry (DigitOf valueOf valueOf_eq exponentAhead Stops Radix Announced IsName Numeral digitOf_iff)
open Lexer (Chars)
open Text (isDigit isHexDigit digitValue)

variable {base value n : Nat} {seen : Bool} {c : Char} {input marks rest sign behind : Chars}

/-! ## Digits -/

theorem hasExponent_seen (input : Chars) : hasExponent true input = true := by
  induction input with
  | nil => rfl
  | cons c rest ih =>
    rw [hasExponent]
    repeat' split
    all_goals first | rfl | exact ih

theorem hasExponent_eq (input : Chars) : hasExponent false input = exponentAhead input := by
  induction input with
  | nil => rfl
  | cons c rest ih =>
    rw [hasExponent]
    split
    · rename_i hline
      rw [ih, hline]
      rfl
    · rename_i hline
      have hdrop : (c :: rest).dropWhile (· = '_') = c :: rest := List.dropWhile_cons_of_neg (by simpa using hline)
      rw [exponentAhead, hdrop]
      split
      · rename_i hsign
        have hsign : c = '-' ∨ c = '+' := by simpa using hsign
        rcases hsign with rfl | rfl <;> rfl
      · rename_i hsign
        have hsign : c ≠ '-' ∧ c ≠ '+' := by simpa using hsign
        cases hdigit : isDigit c <;> simp [hsign, hdigit, hasExponent_seen]

theorem stops_cons_iff : Stops base (c :: rest) ↔
    ¬(isDigit c || (base > 10 && isHexDigit c)) = true ∧ c ≠ '_' ∧ ¬(base = 10 && c = '.') = true ∧
      ¬(base = 10 && (c = 'e' || c = 'E') && hasExponent false rest) = true := by
  simp only [Stops, hasExponent_eq, Bool.or_eq_true, Bool.and_eq_true, decide_eq_true_eq, not_or, not_and,
    Bool.not_eq_true, and_imp]
  tauto

/-- Digits are read up to where they stop. -/
theorem digits_complete (hmarks : ∀ c ∈ marks, c = '_' ∨ DigitOf base c)
    (hdigit : seen = true ∨ ∃ c ∈ marks, c ≠ '_') (hrest : Stops base rest) :
    digits base seen value (marks ++ rest) =
      some ((marks.filter (· ≠ '_')).foldl (fun value c => value * base + digitValue c) value, rest) := by
  induction marks generalizing seen value with
  | nil =>
    obtain rfl : seen = true := by simpa using hdigit
    cases rest with
    | nil => rfl
    | cons c rest =>
      obtain ⟨hmore, hline, hpoint, hexponent⟩ := stops_cons_iff.1 hrest
      rw [List.nil_append, digits, if_neg hmore, if_neg hline, if_neg hpoint, if_neg hexponent]
      rfl
  | cons c marks ih =>
    rw [List.forall_mem_cons] at hmarks
    rcases hmarks.1 with rfl | hc
    · have hdigit : seen = true ∨ ∃ c ∈ marks, c ≠ '_' := by simpa using hdigit
      have hline : ¬(isDigit '_' || (base > 10 && isHexDigit '_')) = true := by
        rw [show isDigit '_' = false from rfl, show isHexDigit '_' = false from rfl, Bool.and_false]
        exact Bool.false_ne_true
      rw [List.cons_append, digits, if_neg hline, if_pos rfl]
      exact ih hmarks.2 hdigit
    · obtain ⟨hmore, hlt⟩ := digitOf_iff.1 hc
      rw [List.cons_append, digits, if_pos hmore, if_pos hlt, ih hmarks.2 (.inl rfl)]
      simp [hc.ne_line]

/-- What is read as digits is digits, and they stop behind it. -/
theorem digits_sound (h : digits base seen value input = some (n, rest)) :
    ∃ marks, input = marks ++ rest ∧ (∀ c ∈ marks, c = '_' ∨ DigitOf base c) ∧
      (seen = true ∨ ∃ c ∈ marks, c ≠ '_') ∧ Stops base rest := by
  induction input generalizing seen value with
  | nil =>
    rw [digits] at h
    split at h <;> cases h
    exact ⟨[], rfl, nofun, .inl ‹_›, trivial⟩
  | cons c input ih =>
    rw [digits] at h
    split at h
    · rename_i hmore
      split at h
      · rename_i hlt
        obtain ⟨marks, rfl, hmarks, -, hrest⟩ := ih h
        have hc : DigitOf base c := digitOf_iff.2 ⟨hmore, hlt⟩
        exact ⟨c :: marks, rfl, List.forall_mem_cons.2 ⟨.inr hc, hmarks⟩,
          .inr ⟨c, List.mem_cons_self, hc.ne_line⟩, hrest⟩
      · cases h
    · rename_i hmore
      split at h
      · rename_i hline
        obtain ⟨marks, rfl, hmarks, hdigit, hrest⟩ := ih h
        refine ⟨c :: marks, rfl, List.forall_mem_cons.2 ⟨.inl hline, hmarks⟩, hdigit.imp_right ?_, hrest⟩
        exact fun ⟨d, hd, hne⟩ => ⟨d, List.mem_cons_of_mem c hd, hne⟩
      · rename_i hline
        split at h
        · cases h
        · rename_i hpoint
          split at h
          · cases h
          · rename_i hexponent
            split at h <;> cases h
            exact ⟨[], rfl, nofun, .inl ‹_›, stops_cons_iff.2 ⟨hmore, hline, hpoint, hexponent⟩⟩

/-! ## Bases -/

theorem exists_announced (input : Chars) : ∃ sign base, Radix sign base ∧ Announced sign input := by
  by_cases h : ∃ sign base, Radix sign base ∧ sign.length = 2 ∧ sign <+: input
  · obtain ⟨sign, base, hradix, hlength, hsign⟩ := h
    refine ⟨sign, base, hradix, hsign, fun sign' base' hradix' hsign' => ?_⟩
    exact List.prefix_of_prefix_length_le hsign' hsign (hlength ▸ hradix'.length_le)
  · refine ⟨[], 10, .decimal, List.nil_prefix, fun sign' base' hradix' hsign' => ?_⟩
    cases hradix' with
    | decimal => exact List.nil_prefix
    | hexadecimal => exact absurd ⟨_, _, .hexadecimal, rfl, hsign'⟩ h
    | octal => exact absurd ⟨_, _, .octal, rfl, hsign'⟩ h
    | binary => exact absurd ⟨_, _, .binary, rfl, hsign'⟩ h

/-- A number is read in the base that it announces. -/
theorem natural?_eq (hradix : Radix sign base) (hsign : Announced sign (sign ++ behind)) :
    natural? (sign ++ behind) = (digits base false 0 behind).bind fun (value, rest) =>
      if rest.isEmpty || Lexer.name rest = some [] then some (value, String.ofList rest) else none := by
  cases hradix with
  | hexadecimal | octal | binary => rfl
  | decimal =>
    have hshort : ∀ {sign base rest}, Radix sign base → behind = sign ++ rest → sign = [] :=
      fun hradix hrest => List.prefix_nil.1 (hsign.2 _ _ hradix ⟨_, hrest.symm⟩)
    unfold natural?
    split
    · exact absurd (hshort .hexadecimal ‹_›) nofun
    · exact absurd (hshort .octal ‹_›) nofun
    · exact absurd (hshort .binary ‹_›) nofun
    · rfl

/-! ## Numbers -/

theorem name_eq_nil_iff : Lexer.name input = some [] ↔ IsName input := by
  cases input with
  | nil => simp [Lexer.name, IsName]
  | cons first rest =>
    rw [Lexer.name]
    constructor
    · intro h
      split at h
      · rename_i hfirst
        exact ⟨first, rest, rfl, hfirst, List.dropWhile_eq_nil_iff.1 (Option.some.inj h)⟩
      · cases h
    · rintro ⟨_, _, heq, hfirst, hrest⟩
      cases heq
      rw [if_pos hfirst, List.dropWhile_eq_nil_iff.2 hrest]

theorem head_ne_of_numeral {text suffix : String} (h : Numeral text value suffix) :
    text.toList.head? ≠ some '"' ∧ text.toList.head? ≠ some 'r' := by
  obtain ⟨radix, announced, text_eq, marks_of, ⟨c, hc, -⟩, -, -⟩ := h
  rw [text_eq]
  cases radix with
  | hexadecimal | octal | binary => exact ⟨by simp, by simp⟩
  | decimal =>
    obtain ⟨c, marks, rfl⟩ := List.exists_cons_of_ne_nil (List.ne_nil_of_mem hc)
    have hne : c ≠ '"' ∧ c ≠ 'r' := by
      rcases marks_of c List.mem_cons_self with rfl | hdigit
      · decide
      · refine ⟨?_, ?_⟩ <;> rintro rfl <;> exact absurd hdigit.1 (by decide)
    simpa using hne

theorem natural?_eq_some {text suffix : String} :
    natural? text.toList = some (value, suffix) ↔ Numeral text value suffix := by
  constructor
  · intro h
    obtain ⟨sign, base, hradix, hsign⟩ := exists_announced text.toList
    obtain ⟨behind, htext⟩ := hsign.1
    rw [← htext, natural?_eq hradix (htext.symm ▸ hsign), Option.bind_eq_some_iff] at h
    obtain ⟨⟨n, rest⟩, hdigits, h⟩ := h
    dsimp only at h
    split at h <;> cases h
    rename_i hname
    obtain ⟨marks, rfl, hmarks, hdigit, hstops⟩ := digits_sound hdigits
    have hdigit : ∃ c ∈ marks, c ≠ '_' := hdigit.resolve_left Bool.false_ne_true
    rw [digits_complete hmarks (.inr hdigit) hstops, ← valueOf_eq] at hdigits
    cases hdigits
    refine .mk hradix hsign ?_ hmarks hdigit ?_ ?_
    · rw [← htext, List.append_assoc, String.toList_ofList]
    · rw [String.toList_ofList]
      simpa [name_eq_nil_iff] using hname
    · rwa [String.toList_ofList]
  · rintro ⟨hradix, hsign, htext, hmarks, hdigit, hsuffix, hstops⟩
    rw [List.append_assoc] at htext
    rw [htext] at hsign ⊢
    rw [natural?_eq hradix hsign, digits_complete hmarks (.inr hdigit) hstops, ← valueOf_eq]
    have hname : ((suffix.toList).isEmpty || Lexer.name suffix.toList = some []) = true := by
      rcases hsuffix with rfl | hname
      · rfl
      · simp [name_eq_nil_iff, hname]
    rw [Option.bind_some]
    dsimp only
    rw [if_pos hname, String.ofList_toList]

/-- What stands for a whole number is a whole number as it is written. -/
theorem ofText_eq_int {text suffix : String} {negative : Bool} :
    ofText text = .int negative value suffix ↔ negative = false ∧ Numeral text value suffix := by
  have hnumber : ofNumber false text.toList = .int negative value suffix ↔
      negative = false ∧ Numeral text value suffix := by
    rw [← natural?_eq_some, ofNumber]
    cases natural? text.toList with
    | none => simp
    | some found => simp [Prod.ext_iff, eq_comm]
  constructor
  · intro h
    rw [ofText] at h
    split at h
    · cases h
    · cases h
    · exact hnumber.1 h
  · intro h
    obtain ⟨hquote, hraw⟩ := head_ne_of_numeral h.2
    rw [ofText]
    split
    · rename_i htext
      rw [htext] at hquote
      exact absurd rfl hquote
    · rename_i htext
      rw [htext] at hraw
      exact absurd rfl hraw
    · exact hnumber.2 h

end TaskSpace.Reading.Literal

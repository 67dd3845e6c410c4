import Mathlib.Data.Rat.Defs
import Mac3am.LandmarkTextProofs

/-! # Rationals as text

    A concrete way of printing coordinates, to run the landmark text with: a
    whole number prints as `12.0`, as it does in the code; what is not whole
    prints as a fraction, `-3/2`, so that nothing is rounded.  What is printed
    reads back. -/

namespace Mac3amLandmarks

def rationalDescription (q : ℚ) : Text :=
  (if q.num < 0 then ['-'] else []) ++
    (Nat.toDigits 10 q.num.natAbs ++
      if q.den = 1 then ['.', '0'] else '/' :: Nat.toDigits 10 q.den)

/-- The denominator from what stands behind the numerator. -/
def denominatorOf : Text → Option Nat
  | ['.', '0'] => some 1
  | '/' :: denominator =>
      if denominator.all Char.isDigit then some (Nat.ofDigitChars 10 denominator 0) else none
  | _ => none

/-- Numerator and denominator of a text without sign. -/
def unsignedParts (text : Text) : Option (Nat × Nat) :=
  let numerator := text.takeWhile Char.isDigit
  if numerator.isEmpty then none
  else (denominatorOf (text.dropWhile Char.isDigit)).map
    fun denominator => (Nat.ofDigitChars 10 numerator 0, denominator)

def rationalDouble (text : Text) : Option ℚ :=
  match text with
  | '-' :: rest => (unsignedParts rest).map fun p => mkRat (-p.1) p.2
  | text => (unsignedParts text).map fun p => mkRat p.1 p.2

/-- The digits of a number are digits. -/
theorem toDigits_isDigit (n : Nat) : ∀ c ∈ Nat.toDigits 10 n, c.isDigit = true :=
  fun _ hc => Nat.isDigit_of_mem_toDigits (by decide) (by decide) hc

theorem unsignedParts_digits (numerator : Nat) {tail : Text}
    (htail : ∀ c ∈ tail.head?, c.isDigit = false) :
    unsignedParts (Nat.toDigits 10 numerator ++ tail)
      = (denominatorOf tail).map fun denominator => (numerator, denominator) := by
  have htake : tail.takeWhile Char.isDigit = [] := by
    cases tail with
    | nil => rfl
    | cons c tail => rw [List.takeWhile_cons, htail c rfl]; rfl
  have hdrop : tail.dropWhile Char.isDigit = tail := by
    cases tail with
    | nil => rfl
    | cons c tail => rw [List.dropWhile_cons, htail c rfl]; rfl
  have hne : (Nat.toDigits 10 numerator).isEmpty = false := by
    rw [List.isEmpty_eq_false_iff]
    exact Nat.toDigits_ne_nil
  rw [unsignedParts, List.takeWhile_append_of_pos (toDigits_isDigit numerator),
    List.dropWhile_append_of_pos (toDigits_isDigit numerator), htake, hdrop, List.append_nil,
    Nat.ofDigitChars_ten_toDigits, hne]
  rfl

/-- What is printed behind the sign reads back. -/
theorem unsignedParts_description (q : ℚ) :
    unsignedParts (Nat.toDigits 10 q.num.natAbs ++
      if q.den = 1 then ['.', '0'] else '/' :: Nat.toDigits 10 q.den)
      = some (q.num.natAbs, q.den) := by
  by_cases hden : q.den = 1
  · rw [if_pos hden, unsignedParts_digits, hden]
    · rfl
    · intro c hc
      cases hc
      rfl
  · have hall : (Nat.toDigits 10 q.den).all Char.isDigit = true :=
      List.all_eq_true.mpr (toDigits_isDigit q.den)
    rw [if_neg hden, unsignedParts_digits]
    · rw [denominatorOf, if_pos hall, Nat.ofDigitChars_ten_toDigits]
      rfl
    · intro c hc
      cases hc
      rfl

theorem rationalDouble_description (q : ℚ) : rationalDouble (rationalDescription q) = some q := by
  have hparts := unsignedParts_description q
  by_cases hneg : q.num < 0
  · have hnum : -(q.num.natAbs : Int) = q.num := by omega
    rw [rationalDescription, if_pos hneg]
    show (unsignedParts (Nat.toDigits 10 q.num.natAbs ++
        if q.den = 1 then ['.', '0'] else '/' :: Nat.toDigits 10 q.den)).map
      (fun p : Nat × Nat => mkRat (-p.1) p.2) = some q
    rw [hparts]
    show some (mkRat (-(q.num.natAbs : Int)) q.den) = some q
    rw [hnum, Rat.mkRat_self]
  · have hnum : (q.num.natAbs : Int) = q.num := by omega
    rw [rationalDescription, if_neg hneg, List.nil_append]
    -- a digit in front is not read as a sign
    cases hdigits : Nat.toDigits 10 q.num.natAbs with
    | nil => exact absurd hdigits Nat.toDigits_ne_nil
    | cons c rest =>
        have hsign : c ≠ '-' := by
          intro hc
          have hdigit := toDigits_isDigit q.num.natAbs c (by rw [hdigits]; exact List.mem_cons_self)
          rw [hc] at hdigit
          exact absurd hdigit (by decide)
        rw [hdigits] at hparts
        rw [List.cons_append] at hparts ⊢
        rw [rationalDouble]
        · rw [hparts]
          show some (mkRat (q.num.natAbs : Int) q.den) = some q
          rw [hnum, Rat.mkRat_self]
        · intro rest' heq
          exact hsign (List.cons.inj heq).1

theorem rationalDescription_characters (q : ℚ) :
    ∀ c ∈ rationalDescription q, c.isDigit = true ∨ c ∈ ['-', '.', '/'] := by
  intro c hc
  rw [rationalDescription, List.mem_append, List.mem_append] at hc
  rcases hc with hsign | hnum | htail
  · split at hsign
    · exact Or.inr (by rw [List.mem_singleton.mp hsign]; decide)
    · cases hsign
  · exact Or.inl (toDigits_isDigit _ c hnum)
  · split at htail
    · rcases List.mem_cons.mp htail with rfl | hzero
      · exact Or.inr (by decide)
      · exact Or.inl (by rw [List.mem_singleton.mp hzero]; decide)
    · rcases List.mem_cons.mp htail with rfl | hden
      · exact Or.inr (by decide)
      · exact Or.inl (toDigits_isDigit _ c hden)

/-- A digit is none of the separators. -/
theorem isDigit_separators {c : Char} (h : c.isDigit = true) :
    c ≠ ',' ∧ c ≠ '\n' ∧ isWhitespace c = false := by
  have hrange : 48 ≤ c.toNat ∧ c.toNat ≤ 57 := Char.isDigit_iff_toNat.mp h
  refine ⟨?_, ?_, ?_⟩
  · rintro rfl
    exact absurd h (by decide)
  · rintro rfl
    exact absurd h (by decide)
  · rw [Bool.eq_false_iff]
    intro hblank
    simp only [isWhitespace, Bool.or_eq_true, Bool.and_eq_true, decide_eq_true_eq] at hblank
    omega

def rationalPrinting : Printing ℚ where
  description := rationalDescription
  double := rationalDouble
  description_ne_nil q := by
    rw [rationalDescription]
    simp [Nat.toDigits_ne_nil]
  separators q c hc := by
    rcases rationalDescription_characters q c hc with hdigit | hmark
    · exact isDigit_separators hdigit
    · simp only [List.mem_cons, List.not_mem_nil, or_false] at hmark
      rcases hmark with rfl | rfl | rfl <;> decide
  double_description := rationalDouble_description

end Mac3amLandmarks

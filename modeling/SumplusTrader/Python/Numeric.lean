import SumplusTrader.Json.Text
import Mathlib.Data.Rat.Floor
import Mathlib.Data.Int.ConditionallyCompleteOrder
import Mathlib.Algebra.Order.Floor.Ring
import Mathlib.Tactic.Linarith
import Mathlib.Tactic.Positivity
import Mathlib.Tactic.FieldSimp
import Mathlib.Tactic.Ring

/-!
# Rounding and number formatting

This file gives rounding to a number of decimal digits, with ties to the even
neighbour, and the formatting of numbers as text with a fixed number of digits,
with six significant digits, and as the literal that is stored in a document.

Numbers are exact rationals. Rounding moves a number by at most half a unit of
its last digit, is monotone, and leaves numbers on the grid alone; proofs about
programs use only these facts. A binary floating point number next to a tie may
fall on either side of it.
-/

namespace Py

/-- The nearest integer, ties going to the even one. -/
def roundHalfEven (q : ℚ) : ℤ :=
  if q - ⌊q⌋ < 1 / 2 then ⌊q⌋
  else if 1 / 2 < q - ⌊q⌋ then ⌊q⌋ + 1
  else if ⌊q⌋ % 2 = 0 then ⌊q⌋
  else ⌊q⌋ + 1

/-- Rounds to a number of digits after the point. -/
def roundTo (digits : ℕ) (q : ℚ) : ℚ :=
  (roundHalfEven (q * 10 ^ digits) : ℚ) / 10 ^ digits

theorem roundHalfEven_cases (q : ℚ) :
    (roundHalfEven q = ⌊q⌋ ∧ q - ⌊q⌋ ≤ 1 / 2) ∨
      (roundHalfEven q = ⌊q⌋ + 1 ∧ 1 / 2 ≤ q - ⌊q⌋) := by
  unfold roundHalfEven
  split_ifs with below above even
  · exact Or.inl ⟨rfl, below.le⟩
  · exact Or.inr ⟨rfl, above.le⟩
  · exact Or.inl ⟨rfl, not_lt.1 above⟩
  · exact Or.inr ⟨rfl, not_lt.1 below⟩

theorem roundHalfEven_le (q : ℚ) : (roundHalfEven q : ℚ) ≤ q + 1 / 2 := by
  have low := Int.floor_le q
  rcases roundHalfEven_cases q with ⟨value, -⟩ | ⟨value, far⟩
  · rw [value]
    linarith
  · rw [value]
    push_cast
    linarith

theorem le_roundHalfEven (q : ℚ) : q - 1 / 2 ≤ (roundHalfEven q : ℚ) := by
  have high := Int.lt_floor_add_one q
  rcases roundHalfEven_cases q with ⟨value, near⟩ | ⟨value, -⟩
  · rw [value]
    linarith
  · rw [value]
    push_cast
    linarith

theorem roundHalfEven_intCast (n : ℤ) : roundHalfEven n = n := by
  simp [roundHalfEven]

theorem roundHalfEven_mono : Monotone roundHalfEven := by
  intro p q le
  have floors := Int.floor_le_floor le
  rcases lt_or_eq_of_le floors with apart | same
  · have pHigh : roundHalfEven p ≤ ⌊p⌋ + 1 := by
      rcases roundHalfEven_cases p with ⟨value, -⟩ | ⟨value, -⟩ <;> omega
    have qLow : ⌊q⌋ ≤ roundHalfEven q := by
      rcases roundHalfEven_cases q with ⟨value, -⟩ | ⟨value, -⟩ <;> omega
    omega
  · have shifted : p - ⌊p⌋ ≤ q - ⌊q⌋ := by
      rw [same]
      linarith
    unfold roundHalfEven
    rw [same] at shifted ⊢
    split_ifs <;> first | omega | linarith

theorem roundTo_mono (digits : ℕ) : Monotone (roundTo digits) := by
  intro p q le
  have scale : (0 : ℚ) < 10 ^ digits := by positivity
  unfold roundTo
  apply div_le_div_of_nonneg_right _ scale.le
  exact_mod_cast roundHalfEven_mono (mul_le_mul_of_nonneg_right le scale.le)

theorem roundTo_le (digits : ℕ) (q : ℚ) : roundTo digits q ≤ q + 1 / (2 * 10 ^ digits) := by
  have scale : (0 : ℚ) < 10 ^ digits := by positivity
  have near := roundHalfEven_le (q * 10 ^ digits)
  unfold roundTo
  rw [div_le_iff₀ scale]
  calc (roundHalfEven (q * 10 ^ digits) : ℚ) ≤ q * 10 ^ digits + 1 / 2 := near
    _ = (q + 1 / (2 * 10 ^ digits)) * 10 ^ digits := by field_simp

theorem le_roundTo (digits : ℕ) (q : ℚ) : q ≤ roundTo digits q + 1 / (2 * 10 ^ digits) := by
  have scale : (0 : ℚ) < 10 ^ digits := by positivity
  have near := le_roundHalfEven (q * 10 ^ digits)
  unfold roundTo
  rw [← sub_le_iff_le_add, le_div_iff₀ scale]
  calc (q - 1 / (2 * 10 ^ digits)) * 10 ^ digits = q * 10 ^ digits - 1 / 2 := by field_simp
    _ ≤ roundHalfEven (q * 10 ^ digits) := near

@[simp]
theorem roundTo_roundTo (digits : ℕ) (q : ℚ) :
    roundTo digits (roundTo digits q) = roundTo digits q := by
  have scale : (10 : ℚ) ^ digits ≠ 0 := by positivity
  simp only [roundTo, div_mul_cancel₀ _ scale, roundHalfEven_intCast]

theorem roundTo_zero (digits : ℕ) : roundTo digits 0 = 0 := by
  have := roundHalfEven_intCast 0
  simp only [Int.cast_zero] at this
  simp [roundTo, this]

theorem roundTo_nonneg (digits : ℕ) {q : ℚ} (nonneg : 0 ≤ q) : 0 ≤ roundTo digits q := by
  rw [← roundTo_zero digits]
  exact roundTo_mono digits nonneg

/-- A number rounds to a positive one exactly when it exceeds half a unit of the last digit. -/
theorem roundTo_pos_iff (digits : ℕ) (q : ℚ) : 0 < roundTo digits q ↔ 1 / (2 * 10 ^ digits) < q := by
  have scale : (0 : ℚ) < 10 ^ digits := by positivity
  constructor
  · intro positive
    by_contra small
    have le : roundTo digits q ≤ roundTo digits (1 / (2 * 10 ^ digits)) :=
      roundTo_mono digits (not_lt.1 small)
    have unit : 1 / (2 * 10 ^ digits) * (10 : ℚ) ^ digits = 1 / 2 := by field_simp
    have half : roundHalfEven (1 / 2) = 0 := by decide +kernel
    rw [roundTo, roundTo, unit, half, Int.cast_zero, zero_div] at le
    exact absurd positive (not_lt.2 le)
  · intro large
    have near := le_roundHalfEven (q * 10 ^ digits)
    rw [div_lt_iff₀ (by positivity)] at large
    have units : (0 : ℚ) < roundHalfEven (q * 10 ^ digits) := by linarith
    exact div_pos units scale

/-- A number rounds to a negative one exactly when it is below minus half a unit. -/
theorem roundTo_neg_iff (digits : ℕ) (q : ℚ) :
    roundTo digits q < 0 ↔ q < -(1 / (2 * 10 ^ digits)) := by
  have scale : (0 : ℚ) < 10 ^ digits := by positivity
  constructor
  · intro negative
    by_contra large
    have le : roundTo digits (-(1 / (2 * 10 ^ digits))) ≤ roundTo digits q :=
      roundTo_mono digits (not_lt.1 large)
    have unit : -(1 / (2 * 10 ^ digits)) * (10 : ℚ) ^ digits = -(1 / 2) := by field_simp
    have half : roundHalfEven (-(1 / 2)) = 0 := by decide +kernel
    rw [roundTo, roundTo, unit, half, Int.cast_zero, zero_div] at le
    exact absurd negative (not_lt.2 le)
  · intro small
    have near := roundHalfEven_le (q * 10 ^ digits)
    have bound : q * 10 ^ digits < -(1 / 2) := by
      calc q * 10 ^ digits < -(1 / (2 * 10 ^ digits)) * 10 ^ digits :=
            mul_lt_mul_of_pos_right small scale
        _ = -(1 / 2) := by field_simp
    have units : (roundHalfEven (q * 10 ^ digits) : ℚ) < 0 := by linarith
    exact div_neg_of_neg_of_pos units scale

theorem roundTo_two_pos_iff (q : ℚ) : 0 < roundTo 2 q ↔ 1 / 200 < q := by
  rw [roundTo_pos_iff]
  norm_num

open Json (natText natDigits digitChar)

/-- The digits of a number, padded with zeros on the left. -/
def paddedText (width n : ℕ) : List Char :=
  List.replicate (width - (natText n).length) '0' ++ natText n

/-- A magnitude given in units of its last digit, with a point before the last
`digits` digits. -/
def pointText (digits units : ℕ) : List Char :=
  if digits = 0 then natText units
  else natText (units / 10 ^ digits) ++ '.' :: paddedText digits (units % 10 ^ digits)

/-- A number with a fixed number of digits after the point. -/
def fixedText (digits : ℕ) (q : ℚ) : String :=
  String.ofList ((if q < 0 then ['-'] else []) ++
    pointText digits (roundHalfEven (|q| * 10 ^ digits)).natAbs)

/-- As `fixedText`, with a plus sign in front of a number that has no minus sign. -/
def signedText (digits : ℕ) (q : ℚ) : String :=
  if q < 0 then fixedText digits q else "+" ++ fixedText digits q

/-- The exponent of the first significant digit of a positive number. -/
def leadingExponent (q : ℚ) : ℤ :=
  if 1 ≤ q then ((natDigits ⌊q⌋.natAbs).length : ℤ) - 1
  else -((((List.range ((natDigits q.den).length + 1)).find? fun k =>
    1 ≤ q * 10 ^ k).getD 0 : ℕ) : ℤ)

/-- The significant digits of a positive number, at most `precision` of them and
without trailing zeros, and the exponent of the first. -/
def significantDigits (precision : ℕ) (q : ℚ) : List (Fin 10) × ℤ :=
  let first := leadingExponent q
  let units := (roundHalfEven (q * (10 : ℚ) ^ ((precision : ℤ) - 1 - first))).natAbs
  let digits := natDigits units
  let trimmed := (digits.reverse.dropWhile (· = 0)).reverse
  (trimmed, if digits.length = precision then first else first + 1)

/-- Significant digits in positional notation: the integer part and the fraction. -/
def positional (digits : List (Fin 10)) (first : ℤ) : List (Fin 10) × List (Fin 10) :=
  if first < 0 then ([0], List.replicate (first.natAbs - 1) 0 ++ digits)
  else
    let width := first.toNat + 1
    (digits.take width ++ List.replicate (width - digits.length) 0, digits.drop width)

/-- A number with six significant digits, in scientific notation when the
exponent is below `-4` or at least six. -/
def generalText (q : ℚ) : String :=
  let sign := if q < 0 then ['-'] else []
  if q = 0 then "0"
  else
    let (digits, first) := significantDigits 6 |q|
    let point : List (Fin 10) → List Char := fun frac =>
      if frac = [] then [] else '.' :: frac.map digitChar
    if first < -4 ∨ 6 ≤ first then
      String.ofList (sign ++ (digits.take 1).map digitChar ++ point (digits.drop 1) ++
        Json.expText first)
    else
      let (whole, frac) := positional digits first
      String.ofList (sign ++ whole.map digitChar ++ point frac)

/-- The literal that stores a floating-point number: its significant digits, in
scientific notation when the exponent is below `-4` or at least sixteen. -/
def floatLit (q : ℚ) : Json.FloatLit :=
  if q = 0 then ⟨false, 0, [0], none, by simp⟩
  else
    let (digits, first) := significantDigits 17 |q|
    if first < -4 ∨ 16 ≤ first then
      ⟨q < 0, Json.ofDigits (digits.take 1), digits.drop 1, some first, by simp⟩
    else
      let (whole, frac) := positional digits first
      if fractional : frac = [] then ⟨q < 0, Json.ofDigits whole, [0], none, by simp⟩
      else ⟨q < 0, Json.ofDigits whole, frac, none, Or.inl fractional⟩

/-- The JSON number that stores a floating-point number. -/
def floatJson (q : ℚ) : Json := .num (.float (floatLit q))

example : fixedText 2 (-3 / 8) = "-0.38" ∧ generalText 12.5 = "12.5" := by decide +kernel

/-- The year, month and day of a number of days since 1970-01-01. -/
def civilFromDays (days : ℤ) : ℤ × ℤ × ℤ :=
  let shifted := days + 719468
  let era := shifted / 146097
  let dayOfEra := shifted % 146097
  let yearOfEra := (dayOfEra - dayOfEra / 1460 + dayOfEra / 36524 - dayOfEra / 146096) / 365
  let dayOfYear := dayOfEra - (365 * yearOfEra + yearOfEra / 4 - yearOfEra / 100)
  let monthFromMarch := (5 * dayOfYear + 2) / 153
  let day := dayOfYear - (153 * monthFromMarch + 2) / 5 + 1
  let month := if monthFromMarch < 10 then monthFromMarch + 3 else monthFromMarch - 9
  (yearOfEra + era * 400 + (if month ≤ 2 then 1 else 0), month, day)

/-- The UTC time stamp of a number of seconds, as `%Y-%m-%dT%H:%M:%SZ`. -/
def isoText (ts : ℚ) : String :=
  let seconds : ℤ := if ts < 0 then ⌈ts⌉ else ⌊ts⌋
  let (year, month, day) := civilFromDays (seconds / 86400)
  let inDay := seconds % 86400
  let two : ℤ → List Char := fun n => paddedText 2 n.natAbs
  String.ofList (paddedText 4 year.natAbs ++ '-' :: two month ++ '-' :: two day ++ 'T' ::
    two (inDay / 3600) ++ ':' :: two (inDay % 3600 / 60) ++ ':' :: two (inDay % 60) ++ ['Z'])

example : isoText 1767225600 = "2026-01-01T00:00:00Z" := by decide +kernel

end Py

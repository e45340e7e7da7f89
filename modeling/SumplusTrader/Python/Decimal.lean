import SumplusTrader.Python.Numeric
import SumplusTrader.Python.Text
import SumplusTrader.Json.RoundTrip

/-!
# Decimal numbers as text

This file reads a decimal number back from a text. A text denotes the number whose digits
it shows, scaled by its exponent and by the place of its point. Only finite numbers in plain
digits are read.

A number that is printed with six significant digits does not read back as itself but as
its rounding to these digits, `roundSignificant`. The proof fixes the digits of the printed
number first, between two powers of ten, and then follows them through both notations.
-/

namespace Py

open Json (ofDigits natDigits natText digitChar spanDigits readExp)

/-- The fraction of a decimal number: the digits after a point. -/
def decimalFraction : List Char → List (Fin 10) × List Char
  | '.' :: cs => spanDigits cs
  | cs => ([], cs)

/-- A decimal number without a sign. -/
def unsignedDecimal (cs : List Char) : Option ℚ :=
  let (whole, rest) := spanDigits cs
  let (frac, rest) := decimalFraction rest
  if whole ++ frac = [] then none
  else
    match readExp rest with
    | some (exp, []) => some (ofDigits (whole ++ frac) * 10 ^ (exp.getD 0 - frac.length))
    | _ => none

/-- The decimal number that a text denotes, with white space around it ignored. -/
def decimal (text : String) : Option ℚ :=
  match strip text.toList with
  | '-' :: cs => (unsignedDecimal cs).map fun magnitude => -magnitude
  | '+' :: cs => unsignedDecimal cs
  | cs => unsignedDecimal cs

example : decimal " -12.5e1" = some (-125) ∧ decimal ".5" = some (1 / 2) ∧ decimal "1e" = none := by
  decide +kernel

/-- Rounds to a number of significant digits. -/
def roundSignificant (precision : ℕ) (q : ℚ) : ℚ :=
  if q = 0 then 0
  else
    let scale := (10 : ℚ) ^ ((precision : ℤ) - 1 - leadingExponent |q|)
    let magnitude := roundHalfEven (|q| * scale) / scale
    if q < 0 then -magnitude else magnitude

theorem ofDigits_append (digits more : List (Fin 10)) :
    ofDigits (digits ++ more) = ofDigits digits * 10 ^ more.length + ofDigits more := by
  induction more using List.reverseRecOn with
  | nil => simp [ofDigits]
  | append_singleton more d ih =>
      rw [← List.append_assoc, Json.ofDigits_append_singleton, ih,
        Json.ofDigits_append_singleton, List.length_append, List.length_singleton, pow_succ]
      ring

theorem ofDigits_replicate_zero (count : ℕ) : ofDigits (List.replicate count 0) = 0 := by
  induction count with
  | zero => rfl
  | succ count ih =>
      rw [List.replicate_succ', Json.ofDigits_append_singleton, ih]
      rfl

theorem ofDigits_lt (digits : List (Fin 10)) : ofDigits digits < 10 ^ digits.length := by
  induction digits using List.reverseRecOn with
  | nil => simp [ofDigits]
  | append_singleton digits d ih =>
      rw [Json.ofDigits_append_singleton, List.length_append, List.length_singleton, pow_succ]
      have small := d.isLt
      omega

/-- A positive number reaches the power of ten of its first digit. -/
theorem le_of_natDigits {n : ℕ} (positive : 0 < n) : 10 ^ ((natDigits n).length - 1) ≤ n := by
  have value := Json.ofDigits_natDigits n
  rcases shape : natDigits n with _ | ⟨d, ds⟩
  · exact absurd shape (Json.natDigits_ne_nil n)
  · rw [shape] at value
    have split : d :: ds = [d] ++ ds := rfl
    have nonzero : d ≠ 0 := by
      rintro rfl
      have single := Json.natDigitsFuel_head_zero (by omega) shape
      subst single
      have zero : ofDigits [(0 : Fin 10)] = 0 := rfl
      omega
    have one : 1 ≤ ofDigits [d] := by
      have digit : ofDigits [d] = d := by simp [ofDigits]
      rw [digit]
      exact Nat.one_le_iff_ne_zero.2 fun zero => nonzero (Fin.ext zero)
    rw [split, ofDigits_append] at value
    simp only [List.length_cons, Nat.add_sub_cancel]
    calc 10 ^ ds.length ≤ ofDigits [d] * 10 ^ ds.length := Nat.le_mul_of_pos_left _ one
      _ ≤ n := by omega

theorem lt_of_natDigits (n : ℕ) : n < 10 ^ (natDigits n).length := by
  have bound := ofDigits_lt (natDigits n)
  rwa [Json.ofDigits_natDigits] at bound

theorem length_natDigits_pos (n : ℕ) : 0 < (natDigits n).length :=
  List.length_pos_iff.2 (Json.natDigits_ne_nil n)

/-- A fraction reaches one after as many shifts as its denominator has digits. -/
theorem one_le_shifted {q : ℚ} (positive : 0 < q) : 1 ≤ q * 10 ^ (natDigits q.den).length := by
  have numPositive : 1 ≤ q.num := Rat.num_pos.2 positive
  have small : (q.den : ℚ) < 10 ^ (natDigits q.den).length := by
    exact_mod_cast lt_of_natDigits q.den
  have product : q * q.den = q.num := Rat.mul_den_eq_num q
  calc (1 : ℚ) ≤ q.num := by exact_mod_cast numPositive
    _ = q * q.den := product.symm
    _ ≤ q * 10 ^ (natDigits q.den).length := mul_le_mul_of_nonneg_left small.le positive.le

theorem leadingExponent_of_one_le {q : ℚ} (large : 1 ≤ q) :
    (10 : ℚ) ^ leadingExponent q ≤ q ∧ q < (10 : ℚ) ^ (leadingExponent q + 1) := by
  have nonneg : 0 ≤ ⌊q⌋ := Int.floor_nonneg.2 (by linarith)
  have positive : 0 < ⌊q⌋.natAbs := by
    have one : 1 ≤ ⌊q⌋ := Int.le_floor.2 (by exact_mod_cast large)
    omega
  have digits := length_natDigits_pos ⌊q⌋.natAbs
  have cast : ((⌊q⌋.natAbs : ℕ) : ℚ) = ⌊q⌋ := by
    rw [Nat.cast_natAbs, abs_of_nonneg nonneg]
  rw [leadingExponent, if_pos large]
  constructor
  · have low : ((10 ^ ((natDigits ⌊q⌋.natAbs).length - 1) : ℕ) : ℚ) ≤ ⌊q⌋.natAbs := by
      exact_mod_cast le_of_natDigits positive
    have exponent : ((natDigits ⌊q⌋.natAbs).length : ℤ) - 1 =
        ((natDigits ⌊q⌋.natAbs).length - 1 : ℕ) := by omega
    rw [exponent, zpow_natCast]
    push_cast at low
    exact le_trans (low.trans cast.le) (Int.floor_le q)
  · have high : ((⌊q⌋.natAbs + 1 : ℕ) : ℚ) ≤ ((10 ^ (natDigits ⌊q⌋.natAbs).length : ℕ) : ℚ) := by
      exact_mod_cast lt_of_natDigits ⌊q⌋.natAbs
    push_cast [cast] at high
    rw [sub_add_cancel, zpow_natCast]
    exact lt_of_lt_of_le (Int.lt_floor_add_one q) high

theorem leadingExponent_of_lt_one {q : ℚ} (positive : 0 < q) (small : q < 1) :
    (10 : ℚ) ^ leadingExponent q ≤ q ∧ q < (10 : ℚ) ^ (leadingExponent q + 1) := by
  rw [leadingExponent, if_neg (not_le.2 small)]
  rcases found : (List.range ((natDigits q.den).length + 1)).find?
    (fun k => 1 ≤ q * 10 ^ k) with _ | k
  · exfalso
    have all := List.find?_eq_none.1 found (natDigits q.den).length (by simp)
    simp [one_le_shifted positive] at all
  · rw [List.find?_range_eq_some] at found
    rcases found with ⟨reached, -, earlier⟩
    simp only [decide_eq_true_eq] at reached
    rcases k with _ | k
    · simp only [pow_zero, mul_one] at reached
      linarith
    · have before := earlier k (by omega)
      simp only [Bool.not_eq_true', decide_eq_false_iff_not, not_le] at before
      have scale : (0 : ℚ) < 10 ^ (k + 1) := by positivity
      have scale' : (0 : ℚ) < 10 ^ k := by positivity
      rw [Option.getD_some]
      constructor
      · rw [zpow_neg, zpow_natCast, inv_le_iff_one_le_mul₀ scale]
        exact reached
      · have next : -((k + 1 : ℕ) : ℤ) + 1 = -(k : ℤ) := by
          push_cast
          ring
        rw [next, zpow_neg, zpow_natCast, lt_inv_comm₀ positive scale', inv_eq_one_div,
          lt_div_iff₀ positive, mul_comm]
        exact before

/-- A positive number lies between the power of ten of its first digit and the next. -/
theorem leadingExponent_spec {q : ℚ} (positive : 0 < q) :
    (10 : ℚ) ^ leadingExponent q ≤ q ∧ q < (10 : ℚ) ^ (leadingExponent q + 1) := by
  rcases le_or_gt 1 q with large | small
  · exact leadingExponent_of_one_le large
  · exact leadingExponent_of_lt_one positive small

theorem leadingExponent_eq {q : ℚ} {exponent : ℤ} (low : (10 : ℚ) ^ exponent ≤ q)
    (high : q < (10 : ℚ) ^ (exponent + 1)) : leadingExponent q = exponent := by
  have ten : (1 : ℚ) < 10 := by norm_num
  rcases leadingExponent_spec (lt_of_lt_of_le (zpow_pos (by norm_num) _) low) with ⟨low', high'⟩
  have above := (zpow_lt_zpow_iff_right₀ ten).1 (lt_of_le_of_lt low high')
  have below := (zpow_lt_zpow_iff_right₀ ten).1 (lt_of_le_of_lt low' high)
  omega

theorem leadingExponent_natCast {n : ℕ} (positive : 0 < n) :
    leadingExponent n = ((natDigits n).length : ℤ) - 1 := by
  have digits := length_natDigits_pos n
  apply leadingExponent_eq
  · have exponent : ((natDigits n).length : ℤ) - 1 = ((natDigits n).length - 1 : ℕ) := by omega
    rw [exponent, zpow_natCast]
    exact_mod_cast le_of_natDigits positive
  · rw [sub_add_cancel, zpow_natCast]
    exact_mod_cast lt_of_natDigits n

theorem leadingExponent_mul_zpow {q : ℚ} (positive : 0 < q) (shift : ℤ) :
    leadingExponent (q * (10 : ℚ) ^ shift) = leadingExponent q + shift := by
  rcases leadingExponent_spec positive with ⟨low, high⟩
  have ten : (10 : ℚ) ≠ 0 := by norm_num
  have scale : (0 : ℚ) < 10 ^ shift := zpow_pos (by norm_num) _
  apply leadingExponent_eq
  · rw [zpow_add₀ ten]
    exact mul_le_mul_of_nonneg_right low scale.le
  · rw [add_right_comm, zpow_add₀ ten]
    exact mul_lt_mul_of_pos_right high scale

/-- The number has at most so many digits, not counting the zeros at its end. -/
def FitsDigits (precision n : ℕ) : Prop :=
  ∃ digits zeros : ℕ, digits < 10 ^ precision ∧ n = digits * 10 ^ zeros

section Significant

variable {precision : ℕ} {q : ℚ}

theorem significantUnits_bounds (digits : 0 < precision) (positive : 0 < q) :
    10 ^ (precision - 1) ≤
        roundHalfEven (q * (10 : ℚ) ^ ((precision : ℤ) - 1 - leadingExponent q)) ∧
      roundHalfEven (q * (10 : ℚ) ^ ((precision : ℤ) - 1 - leadingExponent q)) ≤
        10 ^ precision := by
  rcases leadingExponent_spec positive with ⟨low, high⟩
  have ten : (10 : ℚ) ≠ 0 := by norm_num
  have scale : (0 : ℚ) ≤ (10 : ℚ) ^ ((precision : ℤ) - 1 - leadingExponent q) :=
    (zpow_pos (by norm_num) _).le
  have least : (10 : ℚ) ^ leadingExponent q * 10 ^ ((precision : ℤ) - 1 - leadingExponent q) =
      ((10 ^ (precision - 1) : ℤ) : ℚ) := by
    have exponent : leadingExponent q + ((precision : ℤ) - 1 - leadingExponent q) =
        (precision - 1 : ℕ) := by omega
    rw [← zpow_add₀ ten, exponent, zpow_natCast]
    push_cast
    rfl
  have most : (10 : ℚ) ^ (leadingExponent q + 1) *
      10 ^ ((precision : ℤ) - 1 - leadingExponent q) = ((10 ^ precision : ℤ) : ℚ) := by
    have exponent : leadingExponent q + 1 + ((precision : ℤ) - 1 - leadingExponent q) =
        (precision : ℕ) := by omega
    rw [← zpow_add₀ ten, exponent, zpow_natCast]
    push_cast
    rfl
  constructor
  · rw [← roundHalfEven_intCast (10 ^ (precision - 1))]
    apply roundHalfEven_mono
    rw [← least]
    exact mul_le_mul_of_nonneg_right low scale
  · rw [← roundHalfEven_intCast (10 ^ precision)]
    apply roundHalfEven_mono
    rw [← most]
    exact mul_le_mul_of_nonneg_right high.le scale

/-- A number between two neighbouring powers of ten has the digits of one of them. -/
theorem length_natDigits_of_bounds {n : ℕ} (digits : 0 < precision)
    (low : 10 ^ (precision - 1) ≤ n) (high : n ≤ 10 ^ precision) :
    (natDigits n).length = precision ∨ (natDigits n).length = precision + 1 := by
  have positive : 0 < n := lt_of_lt_of_le (by positivity) low
  have reaches := le_of_natDigits positive
  have below := lt_of_natDigits n
  have atLeast : precision - 1 < (natDigits n).length := by
    apply (Nat.pow_lt_pow_iff_right (a := 10) (by norm_num)).1
    exact lt_of_le_of_lt low below
  have atMost : (natDigits n).length - 1 ≤ precision := by
    apply (Nat.pow_le_pow_iff_right (a := 10) (by norm_num)).1
    exact reaches.trans high
  omega

/-- Trailing zeros are what trimming removes. -/
theorem trimmed_append_zeros (digits : List (Fin 10)) :
    digits = (digits.reverse.dropWhile (· = 0)).reverse ++
      List.replicate (digits.reverse.takeWhile (· = 0)).length 0 := by
  have zeros : digits.reverse.takeWhile (· = 0) =
      List.replicate (digits.reverse.takeWhile (· = 0)).length 0 := by
    rw [List.eq_replicate_iff]
    refine ⟨rfl, ?_⟩
    intro d mem
    simpa using List.mem_takeWhile_imp mem
  have whole := List.takeWhile_append_dropWhile (p := (· = (0 : Fin 10))) (l := digits.reverse)
  have back := congrArg List.reverse whole
  rw [List.reverse_append, List.reverse_reverse] at back
  rw [← List.reverse_replicate, ← zeros]
  exact back.symm

/-- The digits of a number without their trailing zeros, and the number of the zeros. -/
theorem trimmed_natDigits (n : ℕ) :
    ∃ zeros, (natDigits n).length =
        ((natDigits n).reverse.dropWhile (· = 0)).reverse.length + zeros ∧
      ofDigits ((natDigits n).reverse.dropWhile (· = 0)).reverse * 10 ^ zeros = n := by
  have trimmed := trimmed_append_zeros (natDigits n)
  have value : ofDigits (natDigits n) = n := Json.ofDigits_natDigits n
  refine ⟨((natDigits n).reverse.takeWhile (· = 0)).length, ?_, ?_⟩
  · conv_lhs => rw [trimmed, List.length_append, List.length_replicate]
  · rw [trimmed, ofDigits_append, ofDigits_replicate_zero, List.length_replicate, add_zero] at value
    exact value

theorem roundSignificant_of_pos (positive : 0 < q) :
    roundSignificant precision q =
      roundHalfEven (q * (10 : ℚ) ^ ((precision : ℤ) - 1 - leadingExponent q)) /
        (10 : ℚ) ^ ((precision : ℤ) - 1 - leadingExponent q) := by
  have absolute : |q| = q := abs_of_pos positive
  rw [roundSignificant, if_neg positive.ne', absolute, if_neg (not_lt.2 positive.le)]

/-- The significant digits of a number are not empty, and they denote its rounding. -/
theorem significantDigits_spec (digits : 0 < precision) (positive : 0 < q) :
    (significantDigits precision q).1 ≠ [] ∧
      (ofDigits (significantDigits precision q).1 : ℚ) *
        10 ^ ((significantDigits precision q).2 + 1 - (significantDigits precision q).1.length) =
          roundSignificant precision q := by
  rcases significantUnits_bounds digits positive with ⟨low, high⟩
  rw [roundSignificant_of_pos positive]
  simp only [significantDigits]
  generalize roundHalfEven (q * (10 : ℚ) ^ ((precision : ℤ) - 1 - leadingExponent q)) =
    units at low high ⊢
  generalize leadingExponent q = first
  have one : (1 : ℤ) ≤ 10 ^ (precision - 1) := one_le_pow₀ (by norm_num)
  have cast : ((units.natAbs : ℕ) : ℤ) = units := Int.natAbs_of_nonneg (by omega)
  have low' : 10 ^ (precision - 1) ≤ units.natAbs := by
    zify
    rw [abs_of_nonneg (by omega)]
    exact low
  have high' : units.natAbs ≤ 10 ^ precision := by
    zify
    rw [abs_of_nonneg (by omega)]
    exact high
  have count := length_natDigits_of_bounds digits low' high'
  rcases trimmed_natDigits units.natAbs with ⟨zeros, length, value⟩
  generalize ((natDigits units.natAbs).reverse.dropWhile (· = 0)).reverse = kept at length value ⊢
  constructor
  · rintro rfl
    simp [ofDigits] at value
    omega
  · have exponent : (if (natDigits units.natAbs).length = precision then first else first + 1) + 1 -
        (kept.length : ℤ) + ((precision : ℤ) - 1 - first) = zeros := by
      rcases count with exact | longer
      · rw [if_pos exact]
        omega
      · rw [if_neg (by omega)]
        omega
    have magnitude : (units : ℚ) = ofDigits kept * 10 ^ zeros := by
      exact_mod_cast cast.symm.trans (congrArg Nat.cast value.symm)
    rw [eq_div_iff (zpow_ne_zero _ (by norm_num)), mul_assoc, ← zpow_add₀ (by norm_num), exponent,
      zpow_natCast, magnitude]

/-- A number keeps its value exactly when its significant digits fit. -/
theorem roundSignificant_eq_self_iff (positive : 0 < q) :
    roundSignificant precision q = q ↔
      ∃ (units : ℕ) (exponent : ℤ), units < 10 ^ precision ∧ q = units * (10 : ℚ) ^ exponent := by
  rcases leadingExponent_spec positive with ⟨low, high⟩
  rw [roundSignificant_of_pos positive]
  generalize leadingExponent q = first at low high ⊢
  have ten : (10 : ℚ) ≠ 0 := by norm_num
  have scale : (0 : ℚ) < (10 : ℚ) ^ ((precision : ℤ) - 1 - first) := zpow_pos (by norm_num) _
  rw [div_eq_iff scale.ne']
  constructor
  · intro whole
    have below : q * (10 : ℚ) ^ ((precision : ℤ) - 1 - first) < ((10 ^ precision : ℕ) : ℚ) := by
      have exponent : first + 1 + ((precision : ℤ) - 1 - first) = precision := by omega
      calc q * (10 : ℚ) ^ ((precision : ℤ) - 1 - first)
          < 10 ^ (first + 1) * (10 : ℚ) ^ ((precision : ℤ) - 1 - first) :=
            mul_lt_mul_of_pos_right high scale
        _ = ((10 ^ precision : ℕ) : ℚ) := by
            rw [← zpow_add₀ ten, exponent, zpow_natCast]
            push_cast
            rfl
    have nonneg : 0 ≤ roundHalfEven (q * (10 : ℚ) ^ ((precision : ℤ) - 1 - first)) := by
      have := mul_pos positive scale
      rw [← whole] at this
      exact_mod_cast this.le
    generalize roundHalfEven (q * (10 : ℚ) ^ ((precision : ℤ) - 1 - first)) = units at whole nonneg
    lift units to ℕ using nonneg
    rw [← whole] at below
    refine ⟨units, -((precision : ℤ) - 1 - first), by exact_mod_cast below, ?_⟩
    rw [zpow_neg, ← div_eq_mul_inv, eq_div_iff scale.ne', ← whole, Int.cast_natCast]
  · rintro ⟨units, exponent, fits, rfl⟩
    have room : first < precision + exponent := by
      rw [← zpow_lt_zpow_iff_right₀ (a := (10 : ℚ)) (by norm_num), zpow_add₀ ten, zpow_natCast]
      refine lt_of_le_of_lt low (mul_lt_mul_of_pos_right ?_ (zpow_pos (by norm_num) _))
      exact_mod_cast fits
    have whole : (units : ℚ) * 10 ^ exponent * 10 ^ ((precision : ℤ) - 1 - first) =
        ((units * 10 ^ (exponent + precision - 1 - first).toNat : ℤ) : ℚ) := by
      have sum : exponent + ((precision : ℤ) - 1 - first) =
          ((exponent + precision - 1 - first).toNat : ℤ) := by omega
      rw [mul_assoc, ← zpow_add₀ ten, sum, zpow_natCast]
      push_cast
      rfl
    rw [whole, roundHalfEven_intCast]

theorem roundSignificant_neg (precision : ℕ) (q : ℚ) :
    roundSignificant precision (-q) = -roundSignificant precision q := by
  unfold roundSignificant
  rcases lt_trichotomy q 0 with negative | rfl | positive
  · have other : ¬ -q < 0 := by linarith
    simp [negative, other, negative.ne]
  · simp
  · have other : ¬ q < 0 := by linarith
    simp [positive, other, positive.ne']

/-- Two odd functions agree when they agree on the positive numbers. -/
theorem eq_of_odd {f g : ℚ → ℚ} (oddF : ∀ q, f (-q) = -f q) (oddG : ∀ q, g (-q) = -g q)
    (agree : ∀ q, 0 < q → f q = g q) (q : ℚ) : f q = g q := by
  rcases lt_trichotomy q 0 with negative | rfl | positive
  · have mirrored := agree (-q) (neg_pos.2 negative)
    rw [oddF, oddG, neg_inj] at mirrored
    exact mirrored
  · have zeroF := oddF 0
    have zeroG := oddG 0
    rw [neg_zero] at zeroF zeroG
    linarith
  · exact agree q positive

/-- A shift of the point commutes with the rounding. -/
theorem roundSignificant_mul_zpow (precision : ℕ) (q : ℚ) (shift : ℤ) :
    roundSignificant precision (q * (10 : ℚ) ^ shift) =
      roundSignificant precision q * (10 : ℚ) ^ shift := by
  have ten : (10 : ℚ) ≠ 0 := by norm_num
  have scale : (0 : ℚ) < 10 ^ shift := zpow_pos (by norm_num) _
  revert q
  apply eq_of_odd
  · intro q
    rw [neg_mul, roundSignificant_neg]
  · intro q
    rw [roundSignificant_neg, neg_mul]
  · intro q positive
    rw [roundSignificant_of_pos positive, roundSignificant_of_pos (mul_pos positive scale),
      leadingExponent_mul_zpow positive]
    have moved : q * (10 : ℚ) ^ shift *
        10 ^ ((precision : ℤ) - 1 - (leadingExponent q + shift)) =
          q * 10 ^ ((precision : ℤ) - 1 - leadingExponent q) := by
      rw [mul_assoc, ← zpow_add₀ ten]
      congr 2
      omega
    have rest : (10 : ℚ) ^ ((precision : ℤ) - 1 - leadingExponent q) =
        10 ^ ((precision : ℤ) - 1 - (leadingExponent q + shift)) * 10 ^ shift := by
      rw [← zpow_add₀ ten]
      congr 1
      omega
    rw [moved, rest, div_mul_eq_mul_div, mul_div_mul_right _ _ scale.ne']

/-- A number that fits keeps its value, wherever its point is. -/
theorem roundSignificant_natCast_iff (precision n : ℕ) :
    roundSignificant precision n = n ↔ FitsDigits precision n := by
  rcases Nat.eq_zero_or_pos n with rfl | positive
  · constructor
    · exact fun _ => ⟨0, 0, by positivity, by simp⟩
    · exact fun _ => by simp [roundSignificant]
  rw [roundSignificant_eq_self_iff (by exact_mod_cast positive)]
  constructor
  · rintro ⟨units, exponent, fits, value⟩
    rcases le_or_gt 0 exponent with whole | part
    · refine ⟨units, exponent.toNat, fits, ?_⟩
      rw [← Int.toNat_of_nonneg whole, zpow_natCast] at value
      exact_mod_cast value
    · have shrinks : (10 : ℚ) ^ exponent ≤ 1 := zpow_le_one_of_nonpos₀ (by norm_num) part.le
      have le : (n : ℚ) ≤ units := by
        rw [value]
        exact mul_le_of_le_one_right (Nat.cast_nonneg _) shrinks
      exact ⟨n, 0, lt_of_le_of_lt (by exact_mod_cast le) fits, by simp⟩
  · rintro ⟨digits, zeros, fits, rfl⟩
    refine ⟨digits, zeros, fits, ?_⟩
    rw [zpow_natCast]
    push_cast
    rfl

theorem fitsDigits_of_le {n : ℕ} (digits : 0 < precision) (le : n ≤ 10 ^ precision) :
    FitsDigits precision n := by
  rcases Nat.lt_or_eq_of_le le with below | rfl
  · exact ⟨n, 0, below, by simp⟩
  · exact ⟨1, precision, Nat.one_lt_pow digits.ne' (by norm_num), by simp⟩

@[simp]
theorem roundSignificant_roundSignificant (digits : 0 < precision) (q : ℚ) :
    roundSignificant precision (roundSignificant precision q) = roundSignificant precision q := by
  revert q
  apply eq_of_odd
  · intro q
    rw [roundSignificant_neg, roundSignificant_neg]
  · exact roundSignificant_neg precision
  · intro q positive
    rcases significantUnits_bounds digits positive with ⟨low, high⟩
    rw [roundSignificant_of_pos positive]
    generalize roundHalfEven (q * (10 : ℚ) ^ ((precision : ℤ) - 1 - leadingExponent q)) =
      units at low high ⊢
    lift units to ℕ using le_trans (by positivity) low
    have fits : roundSignificant precision units = units :=
      (roundSignificant_natCast_iff precision units).2
        (fitsDigits_of_le digits (by exact_mod_cast high))
    rw [div_eq_mul_inv, ← zpow_neg, roundSignificant_mul_zpow, Int.cast_natCast, fits]

end Significant

section ReadBack

variable {whole frac : List (Fin 10)} {exp : Option ℤ}

theorem decimalFraction_fracText {rest : List Char} (ends : Json.NoDigitHead rest)
    (noPoint : ∀ c ∈ rest.head?, c ≠ '.') :
    decimalFraction (Json.fracText frac ++ rest) = (frac, rest) := by
  cases frac with
  | nil =>
      cases rest with
      | nil => rfl
      | cons c cs =>
          have other := noPoint c (by simp)
          simp only [Json.fracText, List.nil_append]
          unfold decimalFraction
          split
          · simp_all
          · rfl
  | cons d digits => exact Json.spanDigits_map_append (d :: digits) ends

theorem optExpText_head {c : Char} (head : c ∈ (Json.optExpText exp).head?) :
    Json.digit? c = none ∧ c ≠ '.' := by
  cases exp with
  | none => simp [Json.optExpText] at head
  | some e =>
      simp only [Json.optExpText, Json.expText, List.head?_cons, Option.mem_def,
        Option.some.injEq] at head
      subst head
      decide

theorem unsignedDecimal_text (nonempty : whole ++ frac ≠ []) :
    unsignedDecimal (whole.map digitChar ++ (Json.fracText frac ++ Json.optExpText exp)) =
      some ((ofDigits (whole ++ frac) : ℚ) * 10 ^ (exp.getD 0 - frac.length)) := by
  have read := Json.readExp_optExpText exp Json.numberEnd_nil
  rw [List.append_nil] at read
  unfold unsignedDecimal
  rw [Json.spanDigits_map_append whole (Json.noDigitHead_fracText frac fun c head =>
    (optExpText_head head).1)]
  simp only
  rw [decimalFraction_fracText (fun c head => (optExpText_head head).1)
    (fun c head => (optExpText_head head).2)]
  simp only [nonempty, if_false, read]

theorem strip_eq_self {cs : List Char} (visible : ∀ c ∈ cs, isSpace c = false) : strip cs = cs := by
  have keep : ∀ text : List Char, (∀ c ∈ text, isSpace c = false) →
      text.dropWhile isSpace = text := by
    intro text shown
    cases text with
    | nil => rfl
    | cons c text =>
        apply List.dropWhile_cons_of_neg
        simp [shown c (by simp)]
  have backwards : ∀ c ∈ cs.reverse, isSpace c = false := by
    intro c mem
    exact visible c (List.mem_reverse.1 mem)
  rw [strip, keep cs visible, keep cs.reverse backwards, List.reverse_reverse]

theorem isSpace_digitChar (d : Fin 10) : isSpace (digitChar d) = false := by
  revert d
  decide

theorem isSpace_natText {n : ℕ} {c : Char} (mem : c ∈ natText n) : isSpace c = false := by
  rcases List.mem_map.1 mem with ⟨d, -, rfl⟩
  exact isSpace_digitChar d

theorem isSpace_fracText {c : Char} (mem : c ∈ Json.fracText frac) : isSpace c = false := by
  cases frac with
  | nil => simp [Json.fracText] at mem
  | cons d ds =>
      rcases List.mem_cons.1 mem with rfl | digit
      · decide
      · rcases List.mem_map.1 digit with ⟨e, -, rfl⟩
        exact isSpace_digitChar e

theorem isSpace_optExpText {c : Char} (mem : c ∈ Json.optExpText exp) : isSpace c = false := by
  cases exp with
  | none => simp [Json.optExpText] at mem
  | some e =>
      simp only [Json.optExpText, Json.expText, List.mem_cons] at mem
      rcases mem with rfl | rfl | digit
      · decide
      · split <;> decide
      · split at digit
        · rcases List.mem_cons.1 digit with rfl | digit
          · decide
          · exact isSpace_natText digit
        · exact isSpace_natText digit

theorem digitChar_ne_sign (d : Fin 10) : digitChar d ≠ '-' ∧ digitChar d ≠ '+' := by
  revert d
  decide

/-- No character of a number is white space. -/
theorem isSpace_number {neg : Bool} {rest : List Char}
    (visible : ∀ c ∈ rest, isSpace c = false) {c : Char}
    (mem : c ∈ (if neg then ['-'] else []) ++ (whole.map digitChar ++
      (Json.fracText frac ++ rest))) : isSpace c = false := by
  simp only [List.mem_append] at mem
  rcases mem with sign | digit | point | exponent
  · cases neg with
    | false => simp at sign
    | true =>
        rw [if_pos rfl, List.mem_singleton] at sign
        subst sign
        decide
  · rcases List.mem_map.1 digit with ⟨e, -, rfl⟩
    exact isSpace_digitChar e
  · exact isSpace_fracText point
  · exact visible c exponent

/-- A number in decimal notation reads back as what its digits denote. -/
theorem decimal_text (neg : Bool) (d : Fin 10) (whole frac : List (Fin 10)) (exp : Option ℤ) :
    decimal (String.ofList ((if neg then ['-'] else []) ++
        ((d :: whole).map digitChar ++ (Json.fracText frac ++ Json.optExpText exp)))) =
      some (if neg then -((ofDigits (d :: whole ++ frac) : ℚ) * 10 ^ (exp.getD 0 - frac.length))
        else (ofDigits (d :: whole ++ frac) : ℚ) * 10 ^ (exp.getD 0 - frac.length)) := by
  have visible : ∀ c ∈ (if neg then ['-'] else []) ++
      ((d :: whole).map digitChar ++ (Json.fracText frac ++ Json.optExpText exp)),
      isSpace c = false := by
    intro c mem
    exact isSpace_number (fun c => isSpace_optExpText) mem
  have digits : unsignedDecimal ((d :: whole).map digitChar ++
      (Json.fracText frac ++ Json.optExpText exp)) = _ := unsignedDecimal_text (by simp)
  rw [decimal, String.toList_ofList, strip_eq_self visible]
  cases neg with
  | true =>
      simp only [if_true, List.singleton_append, digits, Option.map_some]
  | false =>
      have notSign := digitChar_ne_sign d
      simp only [Bool.false_eq_true, if_false, List.nil_append, List.map_cons, List.cons_append]
        at digits ⊢
      split
      · simp_all
      · simp_all
      · exact digits

end ReadBack

/-- Positional notation keeps the number. -/
theorem positional_spec {digits : List (Fin 10)} (nonempty : digits ≠ []) (first : ℤ) :
    (positional digits first).1 ≠ [] ∧
      (ofDigits ((positional digits first).1 ++ (positional digits first).2) : ℚ) *
          10 ^ (0 - ((positional digits first).2.length : ℤ)) =
        ofDigits digits * 10 ^ (first + 1 - digits.length) := by
  have count := List.length_pos_iff.2 nonempty
  unfold positional
  by_cases small : first < 0
  · rw [if_pos small]
    refine ⟨by simp, ?_⟩
    have zeros : [(0 : Fin 10)] ++ (List.replicate (first.natAbs - 1) 0 ++ digits) =
        List.replicate (first.natAbs - 1 + 1) 0 ++ digits := by
      rw [List.replicate_succ]
      rfl
    rw [zeros, ofDigits_append, ofDigits_replicate_zero, zero_mul, zero_add, List.length_append,
      List.length_replicate]
    congr 2
    omega
  · rw [if_neg small]
    simp only
    rcases le_or_gt digits.length (first.toNat + 1) with short | long
    · rw [List.take_of_length_le short, List.drop_eq_nil_of_le short, List.append_nil,
        ofDigits_append, ofDigits_replicate_zero, List.length_replicate, List.length_nil, add_zero]
      refine ⟨by simp [nonempty], ?_⟩
      have exponent : first + 1 - digits.length = (first.toNat + 1 - digits.length : ℕ) := by omega
      rw [exponent, zpow_natCast]
      push_cast
      simp
    · have padding : first.toNat + 1 - digits.length = 0 := by omega
      rw [padding, List.replicate_zero, List.append_nil, List.take_append_drop, List.length_drop]
      constructor
      · intro empty
        rcases List.take_eq_nil_iff.1 empty with zero | none
        · omega
        · exact nonempty none
      · congr 2
        omega

theorem roundSignificant_abs (precision : ℕ) (q : ℚ) :
    roundSignificant precision q =
      if q < 0 then -roundSignificant precision |q| else roundSignificant precision |q| := by
  rcases eq_or_ne q 0 with rfl | nonzero
  · simp [roundSignificant]
  · have nonneg : ¬|q| < 0 := not_lt.2 (abs_nonneg q)
    simp only [roundSignificant, nonzero, abs_eq_zero, abs_abs, if_false, if_neg nonneg]

theorem decimal_scientific (neg : Bool) {digits : List (Fin 10)} (nonempty : digits ≠ [])
    (first : ℤ) :
    decimal (String.ofList ((if neg then ['-'] else []) ++ (digits.take 1).map digitChar ++
        Json.fracText (digits.drop 1) ++ Json.expText first)) =
      some (if neg then -((ofDigits digits : ℚ) * 10 ^ (first + 1 - digits.length))
        else (ofDigits digits : ℚ) * 10 ^ (first + 1 - digits.length)) := by
  rcases digits with _ | ⟨d, ds⟩
  · exact absurd rfl nonempty
  · have read := decimal_text neg d [] ds (some first)
    have exponent : first + 1 - ((d :: ds).length : ℤ) = first - ds.length := by
      rw [List.length_cons]
      omega
    rw [exponent]
    simpa [Json.optExpText] using read

theorem decimal_positional (neg : Bool) {digits : List (Fin 10)} (nonempty : digits ≠ [])
    (first : ℤ) :
    decimal (String.ofList ((if neg then ['-'] else []) ++
        (positional digits first).1.map digitChar ++
        Json.fracText (positional digits first).2)) =
      some (if neg then -((ofDigits digits : ℚ) * 10 ^ (first + 1 - digits.length))
        else (ofDigits digits : ℚ) * 10 ^ (first + 1 - digits.length)) := by
  rcases positional_spec nonempty first with ⟨nonempty', value⟩
  rw [← value]
  rcases shape : positional digits first with ⟨_ | ⟨d, whole⟩, frac⟩
  · simp [shape] at nonempty'
  · have read := decimal_text neg d whole frac none
    simp only [Json.optExpText, Option.getD_none, List.append_nil] at read
    rw [List.append_assoc]
    exact read

/-- A number that is printed with six significant digits reads back as its rounding. -/
theorem decimal_generalText (q : ℚ) : decimal (generalText q) = some (roundSignificant 6 q) := by
  rcases eq_or_ne q 0 with rfl | nonzero
  · decide +kernel
  · have positive : 0 < |q| := abs_pos.2 nonzero
    have six : 0 < 6 := by norm_num
    rcases significantDigits_spec six positive with ⟨nonempty, value⟩
    have point : ∀ frac : List (Fin 10),
        (if frac = [] then [] else '.' :: frac.map digitChar) = Json.fracText frac := by
      intro frac
      cases frac <;> rfl
    have sign : (if q < 0 then ['-'] else []) = if decide (q < 0) then ['-'] else [] := by
      simp
    rw [roundSignificant_abs, ← value]
    unfold generalText
    simp only [nonzero, if_false, point, sign]
    split
    · rw [decimal_scientific _ nonempty]
      simp
    · rw [decimal_positional _ nonempty]
      simp

end Py

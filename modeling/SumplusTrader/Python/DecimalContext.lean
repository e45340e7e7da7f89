import SumplusTrader.Python.Decimal

/-!
# Decimal numbers in a context

This file gives the finite numbers of Python's `decimal` and their arithmetic in a context of a
given precision, with ties to the even neighbour. A number has a sign, a coefficient and an
exponent; an operation computes on these and then rounds to the digits of the context. Its result
is the exact one, rounded to so many significant digits (`value_mul`, `value_div`).

A quotient is computed with one more digit than the precision, at least, and its last digit is
moved off the ties when a remainder is left. A number reads back from its text as it was
(`ofText_str`). The limits of the exponent are left out: only numbers with hundreds of thousands
of digits reach them.
-/

namespace Py

open Json (ofDigits natDigits natText digitChar spanDigits readExp)

structure Decimal where
  neg : Bool
  int : ℕ
  exp : ℤ
deriving DecidableEq

namespace Decimal

/-- The number of digits of a coefficient. -/
def len (n : ℕ) : ℕ := (natDigits n).length

def value (x : Decimal) : ℚ :=
  if x.neg then -(x.int * (10 : ℚ) ^ x.exp) else x.int * (10 : ℚ) ^ x.exp

/-- `Decimal(n)`. -/
def ofInt (n : ℤ) : Decimal := ⟨n < 0, n.natAbs, 0⟩

/-- `_fix`: rounds a coefficient with too many digits. -/
def fix (prec : ℕ) (x : Decimal) : Decimal :=
  let expMin := (len x.int : ℤ) + x.exp - prec
  if x.exp < expMin then
    let coeff := (roundHalfEven ((x.int : ℚ) / 10 ^ (len x.int - prec))).natAbs
    if prec < len coeff then ⟨x.neg, coeff / 10, expMin + 1⟩ else ⟨x.neg, coeff, expMin⟩
  else x

def mul (prec : ℕ) (x y : Decimal) : Decimal :=
  fix prec ⟨x.neg != y.neg, x.int * y.int, x.exp + y.exp⟩

/-- Drops zeros at the end of a coefficient, at most so many. -/
def dropZeros : ℕ → ℕ → ℤ → ℕ × ℤ
  | 0, coeff, exp => (coeff, exp)
  | count + 1, coeff, exp =>
      if coeff % 10 = 0 then dropZeros count (coeff / 10) (exp + 1) else (coeff, exp)

/-- Moves the last digit off the ties. -/
def unTie (coeff : ℕ) : ℕ := if coeff % 5 = 0 then coeff + 1 else coeff

/-- The quotient; nothing when the divisor is zero. -/
def div (prec : ℕ) (x y : Decimal) : Option Decimal :=
  if y.int = 0 then none
  else if x.int = 0 then some (fix prec ⟨x.neg != y.neg, 0, x.exp - y.exp⟩)
  else
    let shift : ℤ := (len y.int : ℤ) - len x.int + prec + 1
    let exp := x.exp - y.exp - shift
    let dividend := x.int * 10 ^ shift.toNat
    let divisor := y.int * 10 ^ (-shift).toNat
    let coeff := dividend / divisor
    if dividend % divisor ≠ 0 then some (fix prec ⟨x.neg != y.neg, unTie coeff, exp⟩)
    else
      let kept := dropZeros shift.toNat coeff exp
      some (fix prec ⟨x.neg != y.neg, kept.1, kept.2⟩)

/-- `int(x)`, which drops the fraction. -/
def toInt (x : Decimal) : ℤ :=
  let magnitude := if 0 ≤ x.exp then x.int * 10 ^ x.exp.toNat else x.int / 10 ^ (-x.exp).toNat
  if x.neg then -(magnitude : ℤ) else magnitude

/-- An exponent with its marker and its sign. -/
def exponentText (e : ℤ) : List Char := 'E' :: (if e < 0 then '-' else '+') :: natText e.natAbs

/-- `str(x)`. -/
def str (x : Decimal) : String :=
  let digits := natDigits x.int
  let leftdigits := x.exp + digits.length
  let sign := if x.neg then ['-'] else []
  if x.exp ≤ 0 ∧ -6 < leftdigits then
    let (whole, frac) := positional digits (leftdigits - 1)
    String.ofList (sign ++ (whole.map digitChar ++ Json.fracText frac))
  else
    String.ofList (sign ++ ((digits.take 1).map digitChar ++
      (Json.fracText (digits.drop 1) ++ exponentText (leftdigits - 1))))

/-- The coefficient and the exponent that a text without a sign shows. -/
def parts (cs : List Char) : Option (ℕ × ℤ) :=
  let (whole, rest) := spanDigits cs
  let (frac, rest) := decimalFraction rest
  if whole ++ frac = [] then none
  else
    match readExp rest with
    | some (exp, []) => some (ofDigits (whole ++ frac), exp.getD 0 - frac.length)
    | _ => none

/-- `Decimal(text)` of a finite number in plain digits. -/
def ofText (text : String) : Option Decimal :=
  match strip text.toList with
  | '-' :: cs => (parts cs).map fun read => ⟨true, read.1, read.2⟩
  | '+' :: cs => (parts cs).map fun read => ⟨false, read.1, read.2⟩
  | cs => (parts cs).map fun read => ⟨false, read.1, read.2⟩

example : (ofInt 1).div 5 (ofInt 3) = some ⟨false, 33333, -5⟩ ∧
    ((ofInt 10000019).div 5 (ofInt 100)).map str = some "1.0000E+5" ∧
    ofText " -1.50e3 " = some ⟨true, 150, 1⟩ := by
  decide +kernel

variable {prec : ℕ} {x y z : Decimal} {neg : Bool}

theorem lt_len_iff (digits : 0 < prec) {n : ℕ} : prec < len n ↔ 10 ^ prec ≤ n := by
  constructor
  · intro long
    have positive : 0 < n := by
      rcases Nat.eq_zero_or_pos n with rfl | positive
      · have single : len 0 = 1 := rfl
        omega
      · exact positive
    calc 10 ^ prec ≤ 10 ^ (len n - 1) := Nat.pow_le_pow_right (by norm_num) (by omega)
      _ ≤ n := le_of_natDigits positive
  · intro large
    apply (Nat.pow_lt_pow_iff_right (a := 10) (by norm_num)).1
    exact lt_of_le_of_lt large (lt_of_natDigits n)

/-- The rounding of a coefficient with too many digits. -/
theorem roundSignificant_of_long (digits : 0 < prec) {n : ℕ} (long : prec < len n) :
    roundSignificant prec n =
      roundHalfEven ((n : ℚ) / 10 ^ (len n - prec)) * 10 ^ (len n - prec) := by
  have positive : 0 < n := lt_of_lt_of_le (by positivity) ((lt_len_iff digits).1 long)
  have exponent : (prec : ℤ) - 1 - (((natDigits n).length : ℤ) - 1) =
      -((len n - prec : ℕ) : ℤ) := by
    rw [len] at long ⊢
    omega
  rw [roundSignificant_of_pos (by exact_mod_cast positive), leadingExponent_natCast positive,
    exponent, zpow_neg, zpow_natCast, div_inv_eq_mul, div_eq_mul_inv]

/-- A whole number is rounded to a whole number. -/
theorem roundSignificant_whole (digits : 0 < prec) (n : ℕ) :
    ∃ m : ℤ, roundSignificant prec n = m := by
  by_cases long : prec < len n
  · rw [roundSignificant_of_long digits long]
    exact ⟨_ * 10 ^ (len n - prec), by push_cast; rfl⟩
  · rw [lt_len_iff digits, not_le] at long
    rw [(roundSignificant_natCast_iff prec n).2 (fitsDigits_of_le digits long.le)]
    exact ⟨n, rfl⟩

/-- The rounded coefficient has the digits of the context, or is the next power of ten. -/
theorem roundHalfEven_of_long {n : ℕ} (long : prec < len n) :
    0 ≤ roundHalfEven ((n : ℚ) / 10 ^ (len n - prec)) ∧
      roundHalfEven ((n : ℚ) / 10 ^ (len n - prec)) ≤ 10 ^ prec := by
  have scale : (0 : ℚ) < 10 ^ (len n - prec) := by positivity
  constructor
  · rw [← roundHalfEven_intCast 0]
    apply roundHalfEven_mono
    rw [Int.cast_zero]
    positivity
  · rw [← roundHalfEven_intCast (10 ^ prec)]
    apply roundHalfEven_mono
    rw [div_le_iff₀ scale]
    have below : n ≤ 10 ^ prec * 10 ^ (len n - prec) := by
      rw [← pow_add, Nat.add_sub_cancel' long.le]
      exact (lt_of_natDigits n).le
    exact_mod_cast below

/-- **A number is rounded to the significant digits of the context.** -/
theorem value_fix (digits : 0 < prec) (x : Decimal) :
    (fix prec x).value = roundSignificant prec x.value := by
  have magnitude : (fix prec x).neg = x.neg ∧ ((fix prec x).int : ℚ) * 10 ^ (fix prec x).exp =
      roundSignificant prec (x.int * (10 : ℚ) ^ x.exp) := by
    rw [roundSignificant_mul_zpow]
    unfold fix
    dsimp only
    split
    · next lower =>
      have long : prec < len x.int := by omega
      have ten : (10 : ℚ) ≠ 0 := by norm_num
      rcases roundHalfEven_of_long long with ⟨nonneg, high⟩
      rw [roundSignificant_of_long digits long]
      generalize roundHalfEven ((x.int : ℚ) / 10 ^ (len x.int - prec)) = coeff at nonneg high ⊢
      lift coeff to ℕ using nonneg
      rw [Int.natAbs_natCast, Int.cast_natCast]
      have exponent : (len x.int : ℤ) + x.exp - prec = (len x.int - prec : ℕ) + x.exp := by omega
      split
      · next carried =>
        -- The rounding has carried into one more digit.
        have power : coeff = 10 ^ prec := by
          apply le_antisymm (by exact_mod_cast high)
          exact (lt_len_iff digits).1 carried
        have tenth : coeff = coeff / 10 * 10 := by
          symm
          apply Nat.div_mul_cancel
          rw [power]
          exact dvd_pow_self 10 digits.ne'
        generalize coeff / 10 = kept at tenth ⊢
        refine ⟨rfl, ?_⟩
        dsimp only
        rw [tenth, exponent, zpow_add_one₀ ten, zpow_add₀ ten, zpow_natCast]
        push_cast
        ring
      · refine ⟨rfl, ?_⟩
        dsimp only
        rw [exponent, zpow_add₀ ten, zpow_natCast, mul_assoc]
    · next fits =>
      have short : ¬ prec < len x.int := by omega
      rw [lt_len_iff digits, not_le] at short
      refine ⟨rfl, ?_⟩
      rw [(roundSignificant_natCast_iff prec x.int).2 (fitsDigits_of_le digits short.le)]
  unfold value
  rw [magnitude.1, magnitude.2]
  split
  · rw [roundSignificant_neg]
  · rfl

theorem value_ofInt (n : ℤ) : (ofInt n).value = n := by
  unfold ofInt value
  rcases lt_or_ge n 0 with negative | nonneg
  · have cast : ((n.natAbs : ℕ) : ℤ) = -n := by omega
    simp only [negative, decide_true, if_true, zpow_zero, mul_one]
    rw [← Int.cast_natCast, cast]
    push_cast
    ring
  · have cast : ((n.natAbs : ℕ) : ℤ) = n := by omega
    simp only [not_lt.2 nonneg, decide_false, Bool.false_eq_true, if_false, zpow_zero, mul_one]
    rw [← Int.cast_natCast, cast]

/-- **A product is the exact one, rounded to the context.** -/
theorem value_mul (digits : 0 < prec) (x y : Decimal) :
    (mul prec x y).value = roundSignificant prec (x.value * y.value) := by
  have ten : (10 : ℚ) ≠ 0 := by norm_num
  have scaled : ((x.int * y.int : ℕ) : ℚ) * (10 : ℚ) ^ (x.exp + y.exp) =
      x.int * (10 : ℚ) ^ x.exp * (y.int * (10 : ℚ) ^ y.exp) := by
    rw [zpow_add₀ ten]
    push_cast
    ring
  rw [mul, value_fix digits]
  congr 1
  unfold value
  dsimp only
  rw [scaled]
  cases x.neg <;> cases y.neg <;> simp

theorem dropZeros_spec (count coeff : ℕ) (exp : ℤ) :
    ((dropZeros count coeff exp).1 : ℚ) * 10 ^ (dropZeros count coeff exp).2 =
      coeff * 10 ^ exp := by
  induction count generalizing coeff exp with
  | zero => rfl
  | succ count ih =>
      unfold dropZeros
      split
      · next zero =>
        have tenth : coeff = coeff / 10 * 10 := by omega
        rw [ih, zpow_add_one₀ (by norm_num)]
        conv_rhs => rw [tenth]
        push_cast
        ring
      · rfl

theorem roundHalfEven_eq_floor {q : ℚ} (noTie : ∀ m : ℤ, q ≠ m + 1 / 2) :
    roundHalfEven q = ⌊q + 1 / 2⌋ := by
  symm
  rw [Int.floor_eq_iff]
  have low := roundHalfEven_le q
  have high := le_roundHalfEven q
  have apart : q ≠ roundHalfEven q + 1 / 2 := noTie _
  have apart' : q ≠ (roundHalfEven q - 1 : ℤ) + 1 / 2 := noTie _
  push_cast at apart'
  constructor
  · exact low
  · apply lt_of_le_of_ne
    · linarith
    · intro same
      apply apart
      linarith

/-- A tie and its comparison with a number are those of a multiple of five. -/
theorem exists_five_mul {k : ℕ} (positive : 0 < k) (m : ℤ) :
    ∃ t : ℤ, ∀ q : ℚ, ((m : ℚ) + 1 / 2 ≤ q / 10 ^ k ↔ ((5 * t : ℤ) : ℚ) ≤ q) ∧
      (q / 10 ^ k = m + 1 / 2 ↔ q = (5 * t : ℤ)) := by
  refine ⟨(2 * m + 1) * 10 ^ (k - 1), ?_⟩
  intro q
  have scale : (0 : ℚ) < 10 ^ k := by positivity
  have power : (10 : ℚ) ^ k = 10 ^ (k - 1) * 10 := by
    rw [← pow_succ, Nat.sub_add_cancel positive]
  have bound : ((m : ℚ) + 1 / 2) * 10 ^ k = (5 * ((2 * m + 1) * 10 ^ (k - 1)) : ℤ) := by
    rw [power]
    push_cast
    ring
  constructor
  · rw [le_div_iff₀ scale, bound]
  · rw [div_eq_iff scale.ne', bound]

section UnTie

variable {q : ℚ} {coeff : ℕ}

theorem unTie_mod (coeff : ℕ) : unTie coeff % 5 ≠ 0 := by
  unfold unTie
  split <;> omega

/-- A number strictly above its floor, and the floor moved off the ties, are on the same side of
every multiple of five. -/
theorem five_mul_le_iff (low : (coeff : ℚ) < q) (high : q < coeff + 1) (t : ℤ) :
    ((5 * t : ℤ) : ℚ) ≤ q ↔ ((5 * t : ℤ) : ℚ) ≤ unTie coeff := by
  have floor : ((5 * t : ℤ) : ℚ) ≤ q ↔ 5 * t ≤ (coeff : ℤ) := by
    constructor
    · intro le
      have below : ((5 * t : ℤ) : ℚ) < ((coeff + 1 : ℤ) : ℚ) := by
        push_cast at le ⊢
        linarith
      have below' : 5 * t < (coeff + 1 : ℤ) := by exact_mod_cast below
      omega
    · intro le
      have le' : ((5 * t : ℤ) : ℚ) ≤ ((coeff : ℤ) : ℚ) := by exact_mod_cast le
      push_cast at le' ⊢
      linarith
  have moved : ((5 * t : ℤ) : ℚ) ≤ unTie coeff ↔ 5 * t ≤ (unTie coeff : ℤ) := by
    exact_mod_cast Iff.rfl
  rw [floor, moved]
  unfold unTie
  split <;> omega

/-- What a remainder decides, the moved digit decides. -/
theorem roundHalfEven_unTie (low : (coeff : ℚ) < q) (high : q < coeff + 1) {k : ℕ}
    (positive : 0 < k) :
    roundHalfEven (q / 10 ^ k) = roundHalfEven ((unTie coeff : ℚ) / 10 ^ k) := by
  have noTie : ∀ m : ℤ, q / 10 ^ k ≠ m + 1 / 2 := by
    intro m
    rcases exists_five_mul positive m with ⟨t, tie⟩
    rw [Ne, (tie q).2]
    intro same
    have above : (coeff : ℤ) < 5 * t := by
      rw [same] at low
      exact_mod_cast low
    have below : 5 * t < (coeff : ℤ) + 1 := by
      rw [same] at high
      exact_mod_cast high
    omega
  have noTie' : ∀ m : ℤ, (unTie coeff : ℚ) / 10 ^ k ≠ m + 1 / 2 := by
    intro m
    rcases exists_five_mul positive m with ⟨t, tie⟩
    rw [Ne, (tie _).2]
    intro same
    have same' : (unTie coeff : ℤ) = 5 * t := by exact_mod_cast same
    have apart := unTie_mod coeff
    omega
  rw [roundHalfEven_eq_floor noTie, roundHalfEven_eq_floor noTie']
  have sides : ∀ m : ℤ, m ≤ ⌊q / 10 ^ k + 1 / 2⌋ ↔
      m ≤ ⌊(unTie coeff : ℚ) / 10 ^ k + 1 / 2⌋ := by
    intro m
    rcases exists_five_mul positive (m - 1) with ⟨t, tie⟩
    have shifted : ∀ p : ℚ, (m : ℚ) ≤ p + 1 / 2 ↔ ((m - 1 : ℤ) : ℚ) + 1 / 2 ≤ p := by
      intro p
      push_cast
      constructor <;> intro le <;> linarith
    rw [Int.le_floor, Int.le_floor, shifted, shifted, (tie q).1, (tie _).1]
    exact five_mul_le_iff low high t
  apply le_antisymm
  · exact (sides _).1 le_rfl
  · exact (sides _).2 le_rfl

theorem leadingExponent_unTie (positive : 0 < coeff) (low : (coeff : ℚ) < q)
    (high : q < coeff + 1) :
    leadingExponent q = (len coeff : ℤ) - 1 ∧ len (unTie coeff) = len coeff := by
  have some : 0 < len coeff := length_natDigits_pos coeff
  have least : 10 ^ (len coeff - 1) ≤ coeff := le_of_natDigits positive
  have most : coeff < 10 ^ len coeff := lt_of_natDigits coeff
  constructor
  · have exponent : (len coeff : ℤ) - 1 = (len coeff - 1 : ℕ) := by omega
    apply leadingExponent_eq
    · rw [exponent, zpow_natCast]
      have least' : ((10 ^ (len coeff - 1) : ℕ) : ℚ) ≤ coeff := by exact_mod_cast least
      push_cast at least'
      linarith
    · rw [sub_add_cancel, zpow_natCast]
      have most' : ((coeff + 1 : ℕ) : ℚ) ≤ ((10 ^ len coeff : ℕ) : ℚ) := by exact_mod_cast most
      push_cast at most'
      linarith
  · have near : coeff ≤ unTie coeff ∧ unTie coeff ≤ coeff + 1 := by
      unfold unTie
      split <;> omega
    have five : 10 ^ len coeff % 5 = 0 := by
      apply Nat.mod_eq_zero_of_dvd
      exact dvd_trans (by norm_num) (dvd_pow_self 10 some.ne')
    have apart := unTie_mod coeff
    have short : ¬ len coeff < len (unTie coeff) := by
      rw [lt_len_iff some]
      intro reached
      have power : unTie coeff = 10 ^ len coeff := by omega
      rw [power] at apart
      exact apart five
    have long : len coeff ≤ len (unTie coeff) := by
      rcases Nat.lt_or_eq_of_le some with more | single
      · have reached : len coeff - 1 < len (unTie coeff) := by
          apply (lt_len_iff (by omega)).2
          exact least.trans near.1
        omega
      · have some' : 0 < len (unTie coeff) := length_natDigits_pos _
        omega
    omega

/-- A quotient with a remainder is rounded as its coefficient with the moved digit. -/
theorem roundSignificant_unTie (digits : 0 < prec) (large : 10 ^ prec ≤ coeff)
    (low : (coeff : ℚ) < q) (high : q < coeff + 1) :
    roundSignificant prec q = roundSignificant prec (unTie coeff) := by
  have positive : 0 < coeff := lt_of_lt_of_le (by positivity) large
  rcases leadingExponent_unTie positive low high with ⟨leading, same⟩
  have long : prec < len coeff := (lt_len_iff digits).2 large
  have long' : prec < len (unTie coeff) := by omega
  rw [roundSignificant_of_long digits long', same, roundSignificant_of_pos (by
    exact lt_trans (by exact_mod_cast positive) low), leading]
  have exponent : (prec : ℤ) - 1 - ((len coeff : ℤ) - 1) = -((len coeff - prec : ℕ) : ℤ) := by
    omega
  rw [exponent, zpow_neg, zpow_natCast, div_inv_eq_mul, ← div_eq_mul_inv,
    roundHalfEven_unTie low high (by omega)]

end UnTie

/-- The scaled quotient has more digits than the context. -/
theorem pow_mul_divisor_le {m : ℕ} (mPos : m ≠ 0) (n prec : ℕ) :
    10 ^ prec * (n * 10 ^ (-((len n : ℤ) - len m + prec + 1)).toNat) ≤
      m * 10 ^ ((len n : ℤ) - len m + prec + 1).toNat := by
  have mSome : 0 < len m := length_natDigits_pos m
  have low := le_of_natDigits (Nat.pos_of_ne_zero mPos)
  have high := (lt_of_natDigits n).le
  rcases le_or_gt 0 ((len n : ℤ) - len m + prec + 1) with up | down
  · have zero : (-((len n : ℤ) - len m + prec + 1)).toNat = 0 := by omega
    have sum : prec + len n = len m - 1 + ((len n : ℤ) - len m + prec + 1).toNat := by omega
    rw [zero, pow_zero, mul_one]
    calc 10 ^ prec * n ≤ 10 ^ prec * 10 ^ len n := Nat.mul_le_mul_left _ high
      _ = 10 ^ (len m - 1) * 10 ^ ((len n : ℤ) - len m + prec + 1).toNat := by
          rw [← pow_add, ← pow_add, sum]
      _ ≤ m * 10 ^ ((len n : ℤ) - len m + prec + 1).toNat := Nat.mul_le_mul_right _ low
  · have zero : ((len n : ℤ) - len m + prec + 1).toNat = 0 := by omega
    have sum : prec + (len n + (-((len n : ℤ) - len m + prec + 1)).toNat) = len m - 1 := by omega
    rw [zero, pow_zero, mul_one]
    calc 10 ^ prec * (n * 10 ^ (-((len n : ℤ) - len m + prec + 1)).toNat)
        ≤ 10 ^ prec * (10 ^ len n * 10 ^ (-((len n : ℤ) - len m + prec + 1)).toNat) :=
          Nat.mul_le_mul_left _ (Nat.mul_le_mul_right _ high)
      _ = 10 ^ (len m - 1) := by rw [← pow_add, ← pow_add, sum]
      _ ≤ m := low

/-- The scaled quotient is the exact one. -/
theorem scaled_quotient {m n : ℕ} (nPos : n ≠ 0) (shift exp exp' : ℤ) :
    ((m * 10 ^ shift.toNat : ℕ) : ℚ) / ((n * 10 ^ (-shift).toNat : ℕ) : ℚ) *
        (10 : ℚ) ^ (exp - exp' - shift) =
      m * (10 : ℚ) ^ exp / (n * (10 : ℚ) ^ exp') := by
  have ten : (10 : ℚ) ≠ 0 := by norm_num
  have power : (10 : ℚ) ^ shift = 10 ^ shift.toNat / 10 ^ (-shift).toNat := by
    rw [← zpow_natCast, ← zpow_natCast, ← zpow_sub₀ ten]
    congr 1
    omega
  have nonzero : (n : ℚ) ≠ 0 := by exact_mod_cast nPos
  rw [zpow_sub₀ ten, zpow_sub₀ ten, power]
  push_cast
  field_simp

/-- A quotient is rounded as its magnitude. -/
theorem value_fix_quotient (digits : 0 < prec) {int : ℕ} {exp : ℤ}
    (same : roundSignificant prec (int * (10 : ℚ) ^ exp) =
      roundSignificant prec (x.int * (10 : ℚ) ^ x.exp / (y.int * (10 : ℚ) ^ y.exp))) :
    (fix prec ⟨x.neg != y.neg, int, exp⟩).value = roundSignificant prec (x.value / y.value) := by
  rw [value_fix digits]
  unfold value
  cases x.neg <;> cases y.neg <;> simp [roundSignificant_neg, neg_div, div_neg, same]

/-- **A quotient is the exact one, rounded to the context.** -/
theorem value_div (digits : 0 < prec) (divided : div prec x y = some z) :
    z.value = roundSignificant prec (x.value / y.value) := by
  unfold div at divided
  split at divided
  · cases divided
  · next yNonzero =>
    split at divided
    · next zero =>
      cases divided
      apply value_fix_quotient digits
      rw [zero]
      simp
    · next xNonzero =>
      have quotient := scaled_quotient yNonzero (m := x.int)
        ((len y.int : ℤ) - len x.int + prec + 1) x.exp y.exp
      have large := pow_mul_divisor_le xNonzero y.int prec
      have positive : 0 < y.int * 10 ^ (-((len y.int : ℤ) - len x.int + prec + 1)).toNat := by
        have yPos := Nat.pos_of_ne_zero yNonzero
        positivity
      dsimp only at divided
      generalize x.int * 10 ^ ((len y.int : ℤ) - len x.int + prec + 1).toNat = dividend
        at divided quotient large
      generalize y.int * 10 ^ (-((len y.int : ℤ) - len x.int + prec + 1)).toNat = divisor
        at divided quotient large positive
      generalize x.exp - y.exp - ((len y.int : ℤ) - len x.int + prec + 1) = exp
        at divided quotient
      have positive' : (0 : ℚ) < divisor := by exact_mod_cast positive
      split at divided
      · next remains =>
        cases divided
        apply value_fix_quotient digits
        rw [← quotient, roundSignificant_mul_zpow, roundSignificant_mul_zpow]
        congr 1
        symm
        apply roundSignificant_unTie digits
        · rw [Nat.le_div_iff_mul_le positive]
          exact large
        · rw [lt_div_iff₀ positive']
          have below : dividend / divisor * divisor < dividend := by
            have split := Nat.div_add_mod' dividend divisor
            omega
          exact_mod_cast below
        · rw [div_lt_iff₀ positive']
          have above : dividend < (dividend / divisor + 1) * divisor := by
            have split := Nat.div_add_mod' dividend divisor
            have small := Nat.mod_lt dividend positive
            rw [add_mul, one_mul]
            omega
          exact_mod_cast above
      · next exact =>
        cases divided
        apply value_fix_quotient digits
        rw [dropZeros_spec, ← quotient]
        have whole : dividend / divisor * divisor = dividend :=
          Nat.div_mul_cancel (Nat.dvd_of_mod_eq_zero (not_not.1 exact))
        have whole' : ((dividend / divisor : ℕ) : ℚ) = dividend / divisor := by
          rw [eq_div_iff positive'.ne']
          exact_mod_cast whole
        rw [whole']

theorem div_isSome (nonzero : y.int ≠ 0) : ∃ z, div prec x y = some z := by
  unfold div
  rw [if_neg nonzero]
  split
  · exact ⟨_, rfl⟩
  · dsimp only
    split
    · exact ⟨_, rfl⟩
    · exact ⟨_, rfl⟩

theorem floor_magnitude (int : ℕ) (exp : ℤ) :
    ⌊(int : ℚ) * 10 ^ exp⌋ =
      ((if 0 ≤ exp then int * 10 ^ exp.toNat else int / 10 ^ (-exp).toNat : ℕ) : ℤ) := by
  split
  · next up =>
    have whole : (int : ℚ) * 10 ^ exp = ((int * 10 ^ exp.toNat : ℕ) : ℤ) := by
      conv_lhs => rw [← Int.toNat_of_nonneg up, zpow_natCast]
      push_cast
      rfl
    rw [whole, Int.floor_intCast]
  · next down =>
    have power : (10 : ℚ) ^ exp = (10 ^ (-exp).toNat)⁻¹ := by
      rw [← zpow_natCast, ← zpow_neg]
      congr 1
      omega
    have quotient : (int : ℚ) * 10 ^ exp = ((int : ℤ) : ℚ) / ((10 ^ (-exp).toNat : ℕ) : ℚ) := by
      rw [power, ← div_eq_mul_inv]
      push_cast
      rfl
    rw [quotient, Rat.floor_intCast_div_natCast]
    push_cast
    rfl

/-- The conversion to an integer drops the fraction. -/
theorem toInt_eq (x : Decimal) :
    x.toInt = if x.value < 0 then ⌈x.value⌉ else ⌊x.value⌋ := by
  have nonneg : (0 : ℚ) ≤ x.int * 10 ^ x.exp :=
    mul_nonneg (Nat.cast_nonneg _) (zpow_nonneg (by norm_num) _)
  unfold toInt
  dsimp only
  rw [← floor_magnitude]
  unfold value
  cases x.neg with
  | false =>
      simp only [Bool.false_eq_true, if_false]
      rw [if_neg (not_lt.2 nonneg)]
  | true =>
      simp only [if_true]
      split
      · rw [Int.ceil_neg]
      · next zero =>
        have none : (x.int : ℚ) * 10 ^ x.exp = 0 := by linarith
        rw [none]
        simp

/-- Positional notation keeps the digits, and shows the exponent as the length of the fraction. -/
theorem positional_exact {digits : List (Fin 10)} (nonempty : digits ≠ []) {exp : ℤ}
    (small : exp ≤ 0) :
    (positional digits (exp + digits.length - 1)).1 ≠ [] ∧
      ofDigits ((positional digits (exp + digits.length - 1)).1 ++
        (positional digits (exp + digits.length - 1)).2) = ofDigits digits ∧
      ((positional digits (exp + digits.length - 1)).2.length : ℤ) = -exp := by
  have count := List.length_pos_iff.2 nonempty
  unfold positional
  split
  · next below =>
    have zeros : [(0 : Fin 10)] ++ (List.replicate ((exp + digits.length - 1).natAbs - 1) 0 ++
        digits) = List.replicate ((exp + digits.length - 1).natAbs - 1 + 1) 0 ++ digits := by
      rw [List.replicate_succ]
      rfl
    refine ⟨by simp, ?_, ?_⟩
    · rw [zeros, ofDigits_append, ofDigits_replicate_zero, zero_mul, zero_add]
    · rw [List.length_append, List.length_replicate]
      omega
  · next above =>
    have padding : (exp + digits.length - 1).toNat + 1 - digits.length = 0 := by omega
    dsimp only
    rw [padding, List.replicate_zero, List.append_nil]
    refine ⟨?_, ?_, ?_⟩
    · intro empty
      rcases List.take_eq_nil_iff.1 empty with zero | none
      · omega
      · exact nonempty none
    · rw [List.take_append_drop]
    · rw [List.length_drop]
      omega

theorem readExp_exponentText (e : ℤ) : readExp (exponentText e) = some (some e, []) := by
  have read := fun negative => @Json.readExpDigits_text negative (natDigits e.natAbs) []
    (Json.natDigits_ne_nil _) (by simp [Json.NoDigitHead])
  simp only [List.append_nil, Json.ofDigits_natDigits] at read
  unfold exponentText
  rcases lt_or_ge e 0 with negative | nonneg
  · have back : -((e.natAbs : ℕ) : ℤ) = e := by omega
    have digits := read true
    rw [if_pos rfl, back] at digits
    rw [if_pos negative]
    exact digits
  · have back : ((e.natAbs : ℕ) : ℤ) = e := by omega
    have digits := read false
    rw [if_neg (by simp), back] at digits
    rw [if_neg (not_lt.2 nonneg)]
    exact digits

/-- The parts of a text are those that it is made of. -/
theorem parts_text {whole frac : List (Fin 10)} {rest : List Char} {exp : Option ℤ}
    (nonempty : whole ++ frac ≠ []) (head : ∀ c ∈ rest.head?, Json.digit? c = none ∧ c ≠ '.')
    (read : readExp rest = some (exp, [])) :
    parts (whole.map digitChar ++ (Json.fracText frac ++ rest)) =
      some (ofDigits (whole ++ frac), exp.getD 0 - frac.length) := by
  have ends : Json.NoDigitHead (Json.fracText frac ++ rest) := by
    apply Json.noDigitHead_fracText
    exact fun c first => (head c first).1
  unfold parts
  rw [Json.spanDigits_map_append whole ends]
  dsimp only
  rw [decimalFraction_fracText (fun c first => (head c first).1) (fun c first => (head c first).2)]
  dsimp only
  rw [if_neg nonempty, read]

theorem ofText_text (neg : Bool) {whole frac : List (Fin 10)} {rest : List Char} {exp : Option ℤ}
    (nonempty : whole ≠ []) (head : ∀ c ∈ rest.head?, Json.digit? c = none ∧ c ≠ '.')
    (visible : ∀ c ∈ rest, isSpace c = false) (read : readExp rest = some (exp, [])) :
    ofText (String.ofList ((if neg then ['-'] else []) ++
        (whole.map digitChar ++ (Json.fracText frac ++ rest)))) =
      some ⟨neg, ofDigits (whole ++ frac), exp.getD 0 - frac.length⟩ := by
  have filled : whole ++ frac ≠ [] := by simp [nonempty]
  have shown := parts_text filled head read
  have kept : strip ((if neg then ['-'] else []) ++
      (whole.map digitChar ++ (Json.fracText frac ++ rest))) =
        (if neg then ['-'] else []) ++ (whole.map digitChar ++ (Json.fracText frac ++ rest)) := by
    apply strip_eq_self
    intro c mem
    exact isSpace_number visible mem
  rw [ofText, String.toList_ofList, kept]
  cases neg with
  | true =>
      simp only [if_true, List.singleton_append, shown, Option.map_some]
  | false =>
      rcases whole with _ | ⟨d, whole⟩
      · exact absurd rfl nonempty
      · have notSign := digitChar_ne_sign d
        rw [if_neg (by simp), List.nil_append]
        split
        · simp_all
        · simp_all
        · rw [shown]
          rfl

theorem isSpace_exponentText {e : ℤ} {c : Char} (mem : c ∈ exponentText e) :
    isSpace c = false := by
  rcases List.mem_cons.1 mem with rfl | mem
  · decide
  · rcases List.mem_cons.1 mem with rfl | digit
    · split <;> decide
    · exact isSpace_natText digit

/-- **A number reads back from its text as it was.** -/
theorem ofText_str (x : Decimal) : ofText x.str = some x := by
  have nonempty := Json.natDigits_ne_nil x.int
  have value := Json.ofDigits_natDigits x.int
  unfold str
  dsimp only
  split
  · next plain =>
    rcases positional_exact nonempty plain.1 with ⟨shown, digits, exponent⟩
    have read := @ofText_text x.neg _
      (positional (natDigits x.int) (x.exp + (natDigits x.int).length - 1)).2 [] none shown
      (by simp) (by simp) rfl
    rw [List.append_nil, digits, value, exponent] at read
    rw [read]
    simp
  · next scientific =>
    rcases shape : natDigits x.int with _ | ⟨d, ds⟩
    · exact absurd shape nonempty
    · have head : ∀ c ∈ (exponentText (x.exp + (natDigits x.int).length - 1)).head?,
          Json.digit? c = none ∧ c ≠ '.' := by
        intro c first
        simp only [exponentText, List.head?_cons, Option.mem_def, Option.some.injEq] at first
        subst first
        decide
      have read := @ofText_text x.neg [d] ds _ _ (by simp) head (fun c => isSpace_exponentText)
        (readExp_exponentText _)
      rw [shape] at value read
      rw [List.singleton_append, value] at read
      have exponent : x.exp + (((d :: ds).length : ℕ) : ℤ) - 1 - ds.length = x.exp := by
        rw [List.length_cons]
        omega
      rw [Option.getD_some, exponent] at read
      exact read

theorem unsignedDecimal_eq_parts (cs : List Char) :
    unsignedDecimal cs = (parts cs).map fun read => (read.1 : ℚ) * 10 ^ read.2 := by
  unfold unsignedDecimal parts
  dsimp only
  split
  · rfl
  · rcases readExp (decimalFraction (spanDigits cs).2).2 with _ | ⟨exp, _ | ⟨c, cs⟩⟩
    · rfl
    · rfl
    · rfl

/-- The number that a text denotes is the value of the one that is read from it. -/
theorem decimal_eq_ofText (text : String) : decimal text = (ofText text).map value := by
  have negative : ∀ cs : List Char,
      ((parts cs).map fun read => (⟨true, read.1, read.2⟩ : Decimal)).map value =
        (unsignedDecimal cs).map fun magnitude => -magnitude := by
    intro cs
    rw [unsignedDecimal_eq_parts, Option.map_map, Option.map_map]
    rfl
  have positive : ∀ cs : List Char,
      ((parts cs).map fun read => (⟨false, read.1, read.2⟩ : Decimal)).map value =
        unsignedDecimal cs := by
    intro cs
    rw [unsignedDecimal_eq_parts, Option.map_map]
    rfl
  rcases shape : strip text.toList with _ | ⟨c, cs⟩
  · rw [decimal, ofText, shape]
    exact (positive []).symm
  · by_cases minus : c = '-'
    · subst minus
      rw [decimal, ofText, shape]
      exact (negative cs).symm
    · by_cases plus : c = '+'
      · subst plus
        rw [decimal, ofText, shape]
        exact (positive cs).symm
      · have unsigned : decimal text = unsignedDecimal (c :: cs) := by
          rw [decimal, shape]
          split
          · next same => exact absurd (List.cons.inj same).1 minus
          · next same => exact absurd (List.cons.inj same).1 plus
          · rfl
        have unsigned' : ofText text =
            (parts (c :: cs)).map fun read => ⟨false, read.1, read.2⟩ := by
          rw [ofText, shape]
          split
          · next same => exact absurd (List.cons.inj same).1 minus
          · next same => exact absurd (List.cons.inj same).1 plus
          · rfl
        rw [unsigned, unsigned']
        exact (positive (c :: cs)).symm

theorem decimal_str (x : Decimal) : decimal x.str = some x.value := by
  rw [decimal_eq_ofText, ofText_str]
  rfl

end Decimal

end Py

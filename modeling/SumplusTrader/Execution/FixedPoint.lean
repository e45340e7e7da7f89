import SumplusTrader.Execution.InjectiveMarket
import SumplusTrader.Python.DecimalContext

/-!
# Fixed-point conversions

This file models `to_ufixed`, `from_ufixed`, `to_chain_amount` and `from_chain_amount` of
`agent/ops/injective_market.py` on the numbers of `decimal`, in the default context: every
product and every quotient is rounded to 28 significant digits. `InjectiveMarket` has the same
conversions on exact numbers.

An amount of the chain is taken to a human value, printed, and taken back. The text loses
nothing, but both operations round. What comes back is the amount with its first 28 significant
digits (`roundTripChainAmount_eq`), so an amount survives exactly when it has no more of them.
-/

namespace SumplusTrader

namespace FixedPoint

open Py (Decimal FitsDigits roundSignificant)

/-- The precision of the default context. -/
def prec : ℕ := 28

/-- `Decimal(text)`. -/
def decimalOf (text : String) : Except PyError Decimal :=
  match Decimal.ofText text with
  | some x => .ok x
  | none => .error (.raised "[<class 'decimal.ConversionSyntax'>]")

/-- `x / y`. -/
def divide (x y : Decimal) : Except PyError Decimal :=
  match Decimal.div prec x y with
  | some quotient => .ok quotient
  | none => .error .zeroDivision

/-- The value comes as its text, `str(value)`. -/
def toUfixed (value : String) : Except PyError ℤ := do
  let x ← decimalOf value
  return (x.mul prec (.ofInt (10 ^ 18))).toInt

def fromUfixed (raw : ℤ) : Except PyError Decimal := divide (.ofInt raw) (.ofInt (10 ^ 18))

def toChainAmount (human : String) (decimals : ℕ) : Except PyError ℤ := do
  let x ← decimalOf human
  return (x.mul prec (.ofInt (10 ^ decimals))).toInt

def fromChainAmount (raw : ℤ) (decimals : ℕ) : Except PyError Decimal :=
  divide (.ofInt raw) (.ofInt (10 ^ decimals))

/-- An amount in the format of the exchange, to a human value and back. -/
def roundTripUfixed (raw : ℤ) : Except PyError ℤ := do
  let human ← fromUfixed raw
  toUfixed human.str

/-- An amount of a token, to a human value and back. -/
def roundTripChainAmount (raw : ℤ) (decimals : ℕ) : Except PyError ℤ := do
  let human ← fromChainAmount raw decimals
  toChainAmount human.str decimals

theorem prec_pos : 0 < prec := by decide

theorem value_pow (decimals : ℕ) : (Decimal.ofInt (10 ^ decimals)).value = 10 ^ decimals := by
  rw [Decimal.value_ofInt]
  push_cast
  rfl

/-- An amount of the chain becomes the exact human value, rounded. -/
theorem fromChainAmount_eq (raw : ℤ) (decimals : ℕ) :
    ∃ human, fromChainAmount raw decimals = .ok human ∧
      human.value = roundSignificant prec (InjectiveMarket.fromChainAmount raw decimals) := by
  have nonzero : (Decimal.ofInt (10 ^ decimals)).int ≠ 0 := by
    simp [Decimal.ofInt]
  rcases Decimal.div_isSome nonzero with ⟨human, divided⟩
  refine ⟨human, ?_, ?_⟩
  · rw [fromChainAmount, divide, divided]
  · rw [Decimal.value_div prec_pos divided, Decimal.value_ofInt, value_pow]
    rfl

/-- A human value becomes the exact amount, rounded before the fraction is dropped. -/
theorem toChainAmount_eq {human : String} {q : ℚ} (read : Py.decimal human = some q)
    (decimals : ℕ) :
    toChainAmount human decimals =
      .ok (InjectiveMarket.truncate (roundSignificant prec (q * 10 ^ decimals))) := by
  rw [Decimal.decimal_eq_ofText] at read
  rcases Option.map_eq_some_iff.1 read with ⟨x, text, value⟩
  have product := Decimal.value_mul prec_pos x (.ofInt (10 ^ decimals))
  rw [value, value_pow] at product
  rw [toChainAmount, decimalOf, text]
  dsimp only [bind, Except.bind, pure, Except.pure]
  rw [Decimal.toInt_eq, product]
  rfl

/-- What comes back is the amount, rounded. -/
theorem roundTripChainAmount_eq (raw : ℤ) (decimals : ℕ) :
    roundTripChainAmount raw decimals =
      .ok (InjectiveMarket.truncate (roundSignificant prec raw)) := by
  rcases fromChainAmount_eq raw decimals with ⟨human, converted, value⟩
  have ten : (10 : ℚ) ≠ 0 := by norm_num
  have shifted : InjectiveMarket.fromChainAmount raw decimals =
      raw * (10 : ℚ) ^ (-decimals : ℤ) := by
    rw [InjectiveMarket.fromChainAmount, zpow_neg, zpow_natCast, div_eq_mul_inv]
  have back : human.value * 10 ^ decimals = roundSignificant prec raw := by
    rw [value, shifted, Py.roundSignificant_mul_zpow, ← zpow_natCast, mul_assoc, ← zpow_add₀ ten,
      neg_add_cancel, zpow_zero, mul_one]
  rw [roundTripChainAmount, converted]
  dsimp only [bind, Except.bind]
  rw [toChainAmount_eq (Decimal.decimal_str human), back,
    Py.roundSignificant_roundSignificant prec_pos]

theorem roundTripUfixed_eq_roundTripChainAmount (raw : ℤ) :
    roundTripUfixed raw = roundTripChainAmount raw 18 := rfl

/-- The rounded amount is the amount exactly when its significant digits fit. -/
theorem truncate_roundSignificant_iff (raw : ℕ) :
    InjectiveMarket.truncate (roundSignificant prec raw) = raw ↔ FitsDigits prec raw := by
  rw [← Py.roundSignificant_natCast_iff]
  rcases Decimal.roundSignificant_whole prec_pos raw with ⟨whole, rounded⟩
  rw [rounded, InjectiveMarket.truncate, Int.ceil_intCast, Int.floor_intCast, ite_self]
  exact_mod_cast Iff.rfl

/-- **An amount survives both conversions** exactly when it has at most 28 significant digits,
not counting the zeros at its end. -/
theorem roundTrip_iff (raw decimals : ℕ) :
    (roundTripUfixed raw = .ok (raw : ℤ) ↔ FitsDigits prec raw) ∧
      (roundTripChainAmount raw decimals = .ok (raw : ℤ) ↔ FitsDigits prec raw) := by
  have survives : ∀ decimals : ℕ,
      roundTripChainAmount raw decimals = .ok (raw : ℤ) ↔ FitsDigits prec raw := by
    intro decimals
    rw [roundTripChainAmount_eq, Except.ok.injEq, Int.cast_natCast]
    exact truncate_roundSignificant_iff raw
  constructor
  · rw [roundTripUfixed_eq_roundTripChainAmount]
    exact survives 18
  · exact survives decimals

/-- An amount of 29 digits comes back without its last one. -/
theorem roundTrip_loses_digit :
    (10 ^ 28 + 1 : ℤ) < 2 ^ 256 ∧
      roundTripUfixed (10 ^ 28 + 1) = .ok (10 ^ 28) ∧
        roundTripChainAmount (10 ^ 28 + 1) 18 = .ok (10 ^ 28) := by
  refine ⟨by norm_num, by decide +kernel, by decide +kernel⟩

end FixedPoint

end SumplusTrader

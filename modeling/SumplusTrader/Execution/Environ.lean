import SumplusTrader.Types
import SumplusTrader.Python.Decimal

/-!
# The environment of the process

This file gives the environment variables, and the reads of a variable as a text, an integer
or a floating-point number. A variable that is not set is read as its fallback; one that does
not denote a number makes a read of a number raise.
-/

namespace SumplusTrader

/-- The environment variables that are set. -/
abbrev Environ := String → Option String

/-- `int(text)`. -/
def intOfText (text : String) : Except PyError ℤ :=
  let natural : List Char → Option ℤ := fun cs =>
    match Json.spanDigits cs with
    | (d :: ds, []) => some (Json.ofDigits (d :: ds))
    | _ => none
  let read := match Py.strip text.toList with
    | '-' :: cs => (natural cs).map fun n => -n
    | '+' :: cs => natural cs
    | cs => natural cs
  match read with
  | some n => .ok n
  | none => .error (.raised ("invalid literal for int() with base 10: '" ++ text ++ "'"))

/-- `float(text)`. -/
def floatOfText (text : String) : Except PyError ℚ :=
  match Py.decimal text with
  | some q => .ok q
  | none => .error (.raised ("could not convert string to float: '" ++ text ++ "'"))

/-- Drops the underscores of a number, each of which stands between two digits. -/
def ungroup : List Char → Option (List Char)
  | [] => some []
  | [c] => if c = '_' then none else some [c]
  | '_' :: _ => none
  | c :: '_' :: d :: cs => if c.isDigit && d.isDigit then (ungroup (d :: cs)).map (c :: ·) else none
  | c :: cs => (ungroup cs).map (c :: ·)

/-- The text names an infinity, or no number at all. -/
def isNonFinite (text : String) : Bool :=
  let unsigned := match Py.strip text.toList with
    | '-' :: cs => cs
    | '+' :: cs => cs
    | cs => cs
  Py.lower (String.ofList unsigned) ∈ ["nan", "inf", "infinity"]

/-- `float(text)` of every literal. Numbers are exact here, and one that is not finite is read as
zero. -/
def floatOfLiteral (text : String) : Except PyError ℚ :=
  if isNonFinite text then .ok 0
  else floatOfText (((ungroup text.toList).map String.ofList).getD text)

/-- `Decimal(text)`. -/
def decimalOfText (text : String) : Except PyError ℚ :=
  match Py.decimal text with
  | some q => .ok q
  | none => .error (.raised "[<class 'decimal.ConversionSyntax'>]")

namespace Environ

variable (env : Environ)

def text (key fallback : String) : String := (env key).getD fallback

def int (key fallback : String) : Except PyError ℤ := intOfText (env.text key fallback)

def float (key fallback : String) : Except PyError ℚ := floatOfText (env.text key fallback)

def floatLiteral (key fallback : String) : Except PyError ℚ :=
  floatOfLiteral (env.text key fallback)

end Environ

example : Environ.int (fun _ => none) "INJ_CHAIN_ID" "1776" = .ok 1776 := by decide +kernel

example : (floatOfLiteral "1_000.5").toOption = some (2001 / 2) ∧
    (floatOfLiteral " -Infinity").toOption = some 0 ∧ (floatOfLiteral "1__0").toOption = none := by
  decide +kernel

end SumplusTrader

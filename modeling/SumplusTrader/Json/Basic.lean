import Mathlib.Data.List.Sort
import Mathlib.Data.Rat.Defs
import Mathlib.Algebra.Order.Field.Rat

/-!
# JSON values

This file gives the JSON data type shared by every reader and writer of the
development, the numbers it contains, and the operations on objects that do not
depend on a concrete text: lookup, the recursive sorting of keys, and the
recursive removal of selected keys.

An object is an insertion-ordered list of entries, because programs observe the
order in which they iterate over one. Programs that build objects as
dictionaries never hold a key twice; `Json.DistinctKeys` states that of every
object inside a value, and `JsonValue` bundles it.

Integers are unbounded. A fractional literal is kept as it is written, with its
digits and exponent, so that two literals are equal exactly when their texts
are; `Number.value` is the rational number a literal denotes.
-/

namespace Json

/-- A number literal with a fractional part or an exponent. -/
structure FloatLit where
  neg : Bool
  whole : ℕ
  frac : List (Fin 10)
  exp : Option ℤ
  /-- Without a fractional part or an exponent the literal is an integer. -/
  fractional : frac ≠ [] ∨ exp ≠ none
deriving DecidableEq

/-- The number written by a list of decimal digits. -/
def ofDigits (digits : List (Fin 10)) : ℕ :=
  digits.foldl (fun acc d => acc * 10 + d) 0

/-- The rational number denoted by a fractional literal. -/
def FloatLit.value (lit : FloatLit) : ℚ :=
  let magnitude : ℚ := lit.whole + (ofDigits lit.frac : ℚ) / (10 : ℚ) ^ lit.frac.length
  let scaled : ℚ := magnitude * (10 : ℚ) ^ (lit.exp.getD 0)
  if lit.neg then -scaled else scaled

/-- A JSON number: an unbounded integer or a fractional literal. -/
inductive Number where
  | int (n : ℤ)
  | float (lit : FloatLit)
deriving DecidableEq

/-- The rational number denoted by a JSON number. -/
def Number.value : Number → ℚ
  | .int n => n
  | .float lit => lit.value

end Json

/-- A JSON value. -/
inductive Json where
  | null
  | bool (b : Bool)
  | num (n : Json.Number)
  | str (s : String)
  | arr (items : List Json)
  | obj (fields : List (String × Json))

namespace Json

/-- The value stored under a key of an object; other values have no keys. -/
def get? : Json → String → Option Json
  | .obj fields, key => fields.lookup key
  | _, _ => none

/-- Truth of a value where a condition is expected: `null`, `false`, zero and
everything empty are false. -/
def truthy : Json → Bool
  | .null => false
  | .bool b => b
  | .num n => n.value ≠ 0
  | .str s => s ≠ ""
  | .arr items => !items.isEmpty
  | .obj fields => !fields.isEmpty

/-- Orders object entries by their keys, as code point sequences. -/
def keyLe (f g : String × Json) : Prop := f.1 ≤ g.1

instance : DecidableRel keyLe := fun f g => inferInstanceAs (Decidable (f.1 ≤ g.1))

mutual

/-- Every object inside the value has its entries sorted by key. -/
def sortKeys : Json → Json
  | .arr items => .arr (sortKeysItems items)
  | .obj fields => .obj ((sortKeysFields fields).insertionSort keyLe)
  | value => value

/-- `sortKeys` on the items of an array. -/
def sortKeysItems : List Json → List Json
  | [] => []
  | item :: items => item.sortKeys :: sortKeysItems items

/-- `sortKeys` inside the entries of an object, which stay in place. -/
def sortKeysFields : List (String × Json) → List (String × Json)
  | [] => []
  | (key, value) :: fields => (key, value.sortKeys) :: sortKeysFields fields

end

mutual

/-- Removes, at every depth, the object entries whose key satisfies `drop`. -/
def dropKeys (drop : String → Bool) : Json → Json
  | .arr items => .arr (dropKeysItems drop items)
  | .obj fields => .obj (dropKeysFields drop fields)
  | value => value

/-- `dropKeys` on the items of an array. -/
def dropKeysItems (drop : String → Bool) : List Json → List Json
  | [] => []
  | item :: items => item.dropKeys drop :: dropKeysItems drop items

/-- `dropKeys` on the entries of an object. -/
def dropKeysFields (drop : String → Bool) : List (String × Json) → List (String × Json)
  | [] => []
  | (key, value) :: fields =>
      if drop key then dropKeysFields drop fields
      else (key, value.dropKeys drop) :: dropKeysFields drop fields

end

mutual

/-- No object inside the value holds a key twice. -/
def DistinctKeys : Json → Prop
  | .arr items => DistinctKeysItems items
  | .obj fields => (fields.map Prod.fst).Nodup ∧ DistinctKeysFields fields
  | _ => True

/-- `DistinctKeys` for the items of an array. -/
def DistinctKeysItems : List Json → Prop
  | [] => True
  | item :: items => item.DistinctKeys ∧ DistinctKeysItems items

/-- `DistinctKeys` for the values stored in an object. -/
def DistinctKeysFields : List (String × Json) → Prop
  | [] => True
  | (_, value) :: fields => value.DistinctKeys ∧ DistinctKeysFields fields

end

mutual

/-- Equality of values up to the order of the entries of their objects. -/
inductive SameUpToOrder : Json → Json → Prop
  | null : SameUpToOrder .null .null
  | bool (b : Bool) : SameUpToOrder (.bool b) (.bool b)
  | num (n : Number) : SameUpToOrder (.num n) (.num n)
  | str (s : String) : SameUpToOrder (.str s) (.str s)
  | arr {items others : List Json} (pointwise : SameItems items others) :
      SameUpToOrder (.arr items) (.arr others)
  | obj {fields reordered others : List (String × Json)}
      (perm : fields.Perm reordered) (pointwise : SameFields reordered others) :
      SameUpToOrder (.obj fields) (.obj others)

/-- Pointwise `SameUpToOrder` on arrays. -/
inductive SameItems : List Json → List Json → Prop
  | nil : SameItems [] []
  | cons {item other : Json} {items others : List Json}
      (head : SameUpToOrder item other) (tail : SameItems items others) :
      SameItems (item :: items) (other :: others)

/-- Pointwise `SameUpToOrder` on entries with equal keys. -/
inductive SameFields : List (String × Json) → List (String × Json) → Prop
  | nil : SameFields [] []
  | cons {key : String} {value other : Json} {fields others : List (String × Json)}
      (head : SameUpToOrder value other) (tail : SameFields fields others) :
      SameFields ((key, value) :: fields) ((key, other) :: others)

end

end Json

/-- A JSON value built from dictionaries, whose objects have distinct keys. -/
structure JsonValue where
  tree : Json
  distinctKeys : tree.DistinctKeys

/-- A string as a JSON value. -/
def JsonValue.ofString (s : String) : JsonValue := ⟨.str s, trivial⟩

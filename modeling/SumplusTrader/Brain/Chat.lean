import SumplusTrader.Brain.Runtime
import SumplusTrader.Python.Text

/-!
# Setting a cap through the chat

This file models the branch of `handle` in `agent/chat.py` for the message
`set cap <field> <value>`, which stores an override of a risk cap in the runtime state.
Fields and values are made of ASCII characters.

The branch accepts every field of the risk section and every value that a row of digits
and points can denote, so `0` is accepted as well.
-/

namespace SumplusTrader

namespace Chat

/-- `\w`. -/
def isWord (c : Char) : Bool := c.isAlphanum || c = '_'

/-- `[\d.]`. -/
def isNumeral (c : Char) : Bool := c.isDigit || c = '.'

/-- What follows a prefix. -/
def behind? : List Char → List Char → Option (List Char)
  | [], cs => some cs
  | _ :: _, [] => none
  | c :: cs, d :: ds => if c = d then behind? cs ds else none

/-- The field and the value of a message, if it matches `set cap (\w+)\s+([\d.]+)`. -/
def capMessage? (msg : List Char) : Option (List Char × List Char) :=
  match behind? "set cap ".toList msg with
  | none => none
  | some rest =>
      let field := rest.takeWhile isWord
      let gap := (rest.dropWhile isWord).takeWhile Py.isSpace
      let value := ((rest.dropWhile isWord).dropWhile Py.isSpace).takeWhile isNumeral
      if field = [] ∨ gap = [] ∨ value = [] then none else some (field, value)

/-- `float` of a row of digits and points. -/
def floatOf (value : List Char) : Except PyError ℚ :=
  let invalid := PyError.raised ("could not convert string to float: '" ++
    String.ofList value ++ "'")
  match Json.spanDigits value with
  | (whole, []) => if whole = [] then .error invalid else .ok (Json.ofDigits whole)
  | (whole, point :: cs) =>
      match Json.spanDigits cs with
      | (frac, []) =>
          if point = '.' ∧ whole ++ frac ≠ [] then
            .ok ((Json.ofDigits (whole ++ frac) : ℚ) / 10 ^ frac.length)
          else .error invalid
      | (_, _ :: _) => .error invalid

/-- The runtime state after a message of this form; other messages are not handled here. -/
def setCap (cfg : Json) (state : RuntimeState) (message : String) :
    Except PyError RuntimeState := do
  match capMessage? ((Py.strip message.toList).map Py.lowerChar) with
  | none => return state
  | some (field, value) =>
      let value ← floatOf value
      match ← index cfg "risk" with
      | .obj risk =>
          let field := String.ofList field
          if field ∈ risk.map Prod.fst then
            return { state with overrides := state.overrides.set field (Py.floatJson value) }
          else return state
      | _ => .error .typeError

end Chat

end SumplusTrader

import SumplusTrader.Json.Basic

/-!
# JSON text

This file renders a JSON value as text and reads it back.

Rendering follows the two layouts in common use: `compact` puts nothing after a
comma or a colon, `spaced` puts one blank there. Strings are rendered in ASCII:
quotes, backslashes and everything outside the printable range are escaped, a
code point beyond the basic plane as a pair of surrogates.

The reader is a recursive descent over the characters with white space allowed
between tokens. Its recursion is bounded by a fuel argument; `parse` supplies
more fuel than any accepted text can use. An object text may repeat a key; the
dictionary built from it keeps the first position and the last value
(`dedupe`). A text with an unpaired surrogate escape is not accepted, since
Lean strings consist of Unicode scalar values; nor are `NaN` and the infinities.
A number keeps the digits that it is written with.
-/

namespace Json

/-- The layout of a rendered value. -/
inductive Layout where
  | compact
  | spaced
deriving DecidableEq

/-- What a layout writes after a comma or a colon. -/
def Layout.gap : Layout → List Char
  | .compact => []
  | .spaced => [' ']

/-- There is a digit zero. -/
instance neZeroTen : NeZero 10 := ⟨by decide⟩

def digitChar (d : Fin 10) : Char := Char.ofNat (48 + d)

def digit? (c : Char) : Option (Fin 10) :=
  if h : 48 ≤ c.toNat ∧ c.toNat < 58 then some ⟨c.toNat - 48, by omega⟩ else none

/-- The decimal digits of a number, computed with fuel. -/
def natDigitsFuel : ℕ → ℕ → List (Fin 10)
  | 0, _ => []
  | fuel + 1, n =>
      if n < 10 then [Fin.ofNat 10 n]
      else natDigitsFuel fuel (n / 10) ++ [Fin.ofNat 10 n]

/-- The decimal digits of a number, without leading zeros. -/
def natDigits (n : ℕ) : List (Fin 10) := natDigitsFuel (n + 1) n

def natText (n : ℕ) : List Char := (natDigits n).map digitChar

def intText (n : ℤ) : List Char :=
  if n < 0 then '-' :: natText n.natAbs else natText n.natAbs

/-- The exponent of a fractional literal, signed and with at least two digits. -/
def expText (e : ℤ) : List Char :=
  let digits := if e.natAbs < 10 then '0' :: natText e.natAbs else natText e.natAbs
  'e' :: (if e < 0 then '-' else '+') :: digits

/-- The fractional part of a literal, with its point; nothing when there is none. -/
def fracText : List (Fin 10) → List Char
  | [] => []
  | digits => '.' :: digits.map digitChar

/-- The exponent of a literal; nothing when there is none. -/
def optExpText : Option ℤ → List Char
  | none => []
  | some e => expText e

def FloatLit.text (lit : FloatLit) : List Char :=
  (if lit.neg then ['-'] else []) ++
    (natText lit.whole ++ (fracText lit.frac ++ optExpText lit.exp))

def Number.text : Number → List Char
  | .int n => intText n
  | .float lit => lit.text

def hexChar (d : Fin 16) : Char := "0123456789abcdef".toList.getD d '0'

def hex? (c : Char) : Option (Fin 16) :=
  if h : 48 ≤ c.toNat ∧ c.toNat < 58 then some ⟨c.toNat - 48, by omega⟩
  else if h : 97 ≤ c.toNat ∧ c.toNat < 103 then some ⟨c.toNat - 87, by omega⟩
  else if h : 65 ≤ c.toNat ∧ c.toNat < 71 then some ⟨c.toNat - 55, by omega⟩
  else none

/-- The escape of one UTF-16 code unit. -/
def unitEscape (n : ℕ) : List Char :=
  ['\\', 'u', hexChar (Fin.ofNat 16 (n / 4096)), hexChar (Fin.ofNat 16 (n / 256)),
    hexChar (Fin.ofNat 16 (n / 16)), hexChar (Fin.ofNat 16 n)]

def charText (c : Char) : List Char :=
  if c = '"' then ['\\', '"']
  else if c = '\\' then ['\\', '\\']
  else if c = '\n' then ['\\', 'n']
  else if c = '\r' then ['\\', 'r']
  else if c = '\t' then ['\\', 't']
  else if c.toNat = 8 then ['\\', 'b']
  else if c.toNat = 12 then ['\\', 'f']
  else if 32 ≤ c.toNat ∧ c.toNat < 127 then [c]
  else if c.toNat < 65536 then unitEscape c.toNat
  else
    unitEscape (55296 + (c.toNat - 65536) / 1024) ++
      unitEscape (56320 + (c.toNat - 65536) % 1024)

def stringText (s : String) : List Char :=
  '"' :: s.toList.flatMap charText ++ ['"']

mutual

/-- The text of a value. -/
def render (layout : Layout) : Json → List Char
  | .null => ['n', 'u', 'l', 'l']
  | .bool true => ['t', 'r', 'u', 'e']
  | .bool false => ['f', 'a', 'l', 's', 'e']
  | .num n => n.text
  | .str s => stringText s
  | .arr [] => ['[', ']']
  | .arr (item :: items) => '[' :: (render layout item ++ renderItems layout items)
  | .obj [] => ['{', '}']
  | .obj ((key, value) :: fields) =>
      '{' :: (stringText key ++ ':' :: (layout.gap ++
        (render layout value ++ renderFields layout fields)))

/-- The text of the remaining items of an array and its closing bracket. -/
def renderItems (layout : Layout) : List Json → List Char
  | [] => [']']
  | item :: items => ',' :: (layout.gap ++ (render layout item ++ renderItems layout items))

/-- The text of the remaining entries of an object and its closing brace. -/
def renderFields (layout : Layout) : List (String × Json) → List Char
  | [] => ['}']
  | (key, value) :: fields =>
      ',' :: (layout.gap ++ (stringText key ++ ':' :: (layout.gap ++
        (render layout value ++ renderFields layout fields))))

end

/-- Renders a value as a string. -/
def dumps (layout : Layout) (value : Json) : String :=
  String.ofList (render layout value)

def isSpace (c : Char) : Bool := c = ' ' || c = '\n' || c = '\r' || c = '\t'

def skipSpace : List Char → List Char
  | [] => []
  | c :: cs => if isSpace c then skipSpace cs else c :: cs

/-- Splits off the longest prefix of decimal digits. -/
def spanDigits : List Char → List (Fin 10) × List Char
  | [] => ([], [])
  | c :: cs =>
      match digit? c with
      | some d => (d :: (spanDigits cs).1, (spanDigits cs).2)
      | none => ([], c :: cs)

/-- The fractional part of a number literal: a point and at least one digit. -/
def readFrac : List Char → Option (List (Fin 10) × List Char)
  | '.' :: cs => if (spanDigits cs).1 = [] then none else some (spanDigits cs)
  | cs => some ([], cs)

/-- The digits of an exponent, after its sign. -/
def readExpDigits (negative : Bool) (cs : List Char) : Option (Option ℤ × List Char) :=
  if (spanDigits cs).1 = [] then none
  else
    let magnitude : ℤ := ofDigits (spanDigits cs).1
    some (some (if negative then -magnitude else magnitude), (spanDigits cs).2)

/-- The exponent of a number literal: a marker, an optional sign and at least one digit. -/
def readExp : List Char → Option (Option ℤ × List Char)
  | c :: cs =>
      if c = 'e' ∨ c = 'E' then
        match cs with
        | '-' :: ds => readExpDigits true ds
        | '+' :: ds => readExpDigits false ds
        | ds => readExpDigits false ds
      else some (none, c :: cs)
  | [] => some (none, [])

/-- The number written by a sign, an integer part, a fraction and an exponent. -/
def mkNumber (neg : Bool) (whole : ℕ) (frac : List (Fin 10)) (exp : Option ℤ) : Number :=
  if h : frac ≠ [] ∨ exp ≠ none then .float ⟨neg, whole, frac, exp, h⟩
  else .int (if neg then -(whole : ℤ) else whole)

/-- A number literal after its sign. A leading zero stands alone. -/
def readUnsigned (neg : Bool) (cs : List Char) : Option (Number × List Char) :=
  match spanDigits cs with
  | ([], _) => none
  | (d :: ds, rest) =>
      if d = 0 ∧ ds ≠ [] then none
      else do
        let (frac, rest) ← readFrac rest
        let (exp, rest) ← readExp rest
        return (mkNumber neg (ofDigits (d :: ds)) frac exp, rest)

def readNumber : List Char → Option (Number × List Char)
  | '-' :: cs => readUnsigned true cs
  | cs => readUnsigned false cs

/-- The UTF-16 code unit written by four hexadecimal digits. -/
def readUnit : List Char → Option (ℕ × List Char)
  | a :: b :: c :: d :: cs => do
      let a ← hex? a
      let b ← hex? b
      let c ← hex? c
      let d ← hex? d
      return (((a.val * 16 + b.val) * 16 + c.val) * 16 + d.val, cs)
  | _ => none

/-- The character written after `\u`, which takes two units beyond the basic plane. -/
def readUnicode (cs : List Char) : Option (Char × List Char) :=
  match readUnit cs with
  | none => none
  | some (high, rest) =>
      if 55296 ≤ high ∧ high < 56320 then
        match rest with
        | '\\' :: 'u' :: rest =>
            match readUnit rest with
            | none => none
            | some (low, rest) =>
                if 56320 ≤ low ∧ low < 57344 then
                  some (Char.ofNat (65536 + (high - 55296) * 1024 + (low - 56320)), rest)
                else none
        | _ => none
      else if 56320 ≤ high ∧ high < 57344 then none
      else some (Char.ofNat high, rest)

/-- The character written by a one-letter escape. -/
def unescape? (c : Char) : Option Char :=
  if c = '"' ∨ c = '\\' ∨ c = '/' then some c
  else if c = 'n' then some '\n'
  else if c = 'r' then some '\r'
  else if c = 't' then some '\t'
  else if c = 'b' then some (Char.ofNat 8)
  else if c = 'f' then some (Char.ofNat 12)
  else none

/-- The characters of a string up to its closing quote, read with fuel. -/
def readString : ℕ → List Char → Option (List Char × List Char)
  | 0, _ => none
  | _ + 1, '"' :: cs => some ([], cs)
  | fuel + 1, '\\' :: 'u' :: cs =>
      match readUnicode cs with
      | none => none
      | some (c, rest) => (readString fuel rest).map fun p => (c :: p.1, p.2)
  | fuel + 1, '\\' :: c :: cs =>
      match unescape? c with
      | none => none
      | some decoded => (readString fuel cs).map fun p => (decoded :: p.1, p.2)
  | fuel + 1, c :: cs =>
      if c = '\\' ∨ c.toNat < 32 then none
      else (readString fuel cs).map fun p => (c :: p.1, p.2)
  | _ + 1, [] => none

/-- A string literal, starting after its opening quote. -/
def readQuoted (cs : List Char) : Option (String × List Char) :=
  (readString (cs.length + 1) cs).map fun p => (String.ofList p.1, p.2)

/-- A key, the colon after it, and what follows. -/
def readKey (cs : List Char) : Option (String × List Char) :=
  match skipSpace cs with
  | '"' :: cs =>
      match readQuoted cs with
      | none => none
      | some (key, rest) =>
          match skipSpace rest with
          | ':' :: rest => some (key, rest)
          | _ => none
  | _ => none

mutual

/-- A value and what follows it. -/
def readValue : ℕ → List Char → Option (Json × List Char)
  | 0, _ => none
  | fuel + 1, cs =>
      match skipSpace cs with
      | 'n' :: 'u' :: 'l' :: 'l' :: rest => some (.null, rest)
      | 't' :: 'r' :: 'u' :: 'e' :: rest => some (.bool true, rest)
      | 'f' :: 'a' :: 'l' :: 's' :: 'e' :: rest => some (.bool false, rest)
      | '"' :: rest => (readQuoted rest).map fun p => (.str p.1, p.2)
      | '[' :: rest =>
          match skipSpace rest with
          | ']' :: rest => some (.arr [], rest)
          | rest => (readItems fuel rest).map fun p => (.arr p.1, p.2)
      | '{' :: rest =>
          match skipSpace rest with
          | '}' :: rest => some (.obj [], rest)
          | rest => (readFields fuel rest).map fun p => (.obj p.1, p.2)
      | rest => (readNumber rest).map fun p => (.num p.1, p.2)

/-- The items of a non-empty array and its closing bracket. -/
def readItems : ℕ → List Char → Option (List Json × List Char)
  | 0, _ => none
  | fuel + 1, cs =>
      match readValue fuel cs with
      | none => none
      | some (item, rest) =>
          match skipSpace rest with
          | ']' :: rest => some ([item], rest)
          | ',' :: rest => (readItems fuel rest).map fun p => (item :: p.1, p.2)
          | _ => none

/-- The entries of a non-empty object and its closing brace. -/
def readFields : ℕ → List Char → Option (List (String × Json) × List Char)
  | 0, _ => none
  | fuel + 1, cs =>
      match readKey cs with
      | none => none
      | some (key, rest) =>
          match readValue fuel rest with
          | none => none
          | some (value, rest) =>
              match skipSpace rest with
              | '}' :: rest => some ([(key, value)], rest)
              | ',' :: rest => (readFields fuel rest).map fun p => ((key, value) :: p.1, p.2)
              | _ => none

end

/-- The value written by a whole text. -/
def parse (cs : List Char) : Option Json :=
  match readValue (cs.length + 1) cs with
  | none => none
  | some (value, rest) => if skipSpace rest = [] then some value else none

/-- Stores a value under a key: in place when the key is present, else at the end. -/
def setField (fields : List (String × Json)) (key : String) (value : Json) :
    List (String × Json) :=
  if key ∈ fields.map Prod.fst then
    fields.map fun field => if field.1 = key then (key, value) else field
  else fields ++ [(key, value)]

mutual

/-- The value a dictionary reader builds: a repeated key keeps its last value. -/
def dedupe : Json → Json
  | .arr items => .arr (dedupeItems items)
  | .obj fields =>
      .obj ((dedupeFields fields).foldl (fun acc field => setField acc field.1 field.2) [])
  | value => value

/-- `dedupe` on the items of an array. -/
def dedupeItems : List Json → List Json
  | [] => []
  | item :: items => item.dedupe :: dedupeItems items

/-- `dedupe` inside the entries of an object. -/
def dedupeFields : List (String × Json) → List (String × Json)
  | [] => []
  | (key, value) :: fields => (key, value.dedupe) :: dedupeFields fields

end

/-- Reads a string as a value. -/
def loads (text : String) : Option Json :=
  (parse text.toList).map dedupe

end Json

import SumplusTrader.Json.Text
import Mathlib.Data.Fintype.Basic
import Mathlib.Tactic.FinCases

/-!
# Reading back rendered JSON

This file proves that the reader inverts the renderer in both layouts. It
follows that a rendered text determines its value, and that a dictionary-built
value survives being written and read again.

The proof goes through the tokens: digits and numbers, then strings with their
escapes, then values by induction on their structure. A number is the only token
without a closing character, so its lemma asks that what follows cannot extend
it (`NumberEnd`); every character the renderer puts after a value qualifies.
-/

namespace Json

@[simp]
theorem digit?_digitChar (d : Fin 10) : digit? (digitChar d) = some d := by
  revert d
  decide

@[simp]
theorem ofDigits_append_singleton (digits : List (Fin 10)) (d : Fin 10) :
    ofDigits (digits ++ [d]) = ofDigits digits * 10 + d := by
  simp [ofDigits]

theorem ofDigits_natDigitsFuel (fuel n : ℕ) (enough : n < fuel) :
    ofDigits (natDigitsFuel fuel n) = n := by
  induction fuel generalizing n with
  | zero => omega
  | succ fuel ih =>
      simp only [natDigitsFuel]
      by_cases small : n < 10
      · simp [small, ofDigits, Fin.ofNat, Nat.mod_eq_of_lt small]
      · rw [if_neg small, ofDigits_append_singleton, ih (n / 10) (by omega)]
        simp only [Fin.ofNat]
        omega

@[simp]
theorem ofDigits_natDigits (n : ℕ) : ofDigits (natDigits n) = n :=
  ofDigits_natDigitsFuel (n + 1) n (by omega)

theorem natDigitsFuel_ne_nil (fuel n : ℕ) : natDigitsFuel (fuel + 1) n ≠ [] := by
  simp only [natDigitsFuel]
  split <;> simp

theorem natDigits_ne_nil (n : ℕ) : natDigits n ≠ [] := natDigitsFuel_ne_nil n n

/-- A rendered number starts with a zero only when it is the single digit zero. -/
theorem natDigitsFuel_head_zero {fuel n : ℕ} {digits : List (Fin 10)} (enough : n < fuel)
    (headZero : natDigitsFuel fuel n = 0 :: digits) : digits = [] := by
  induction fuel generalizing n digits with
  | zero => omega
  | succ fuel ih =>
      simp only [natDigitsFuel] at headZero
      by_cases small : n < 10
      · rw [if_pos small] at headZero
        exact (List.cons.inj headZero).2.symm
      · rw [if_neg small] at headZero
        cases shape : natDigitsFuel fuel (n / 10) with
        | nil =>
            rcases fuel with _ | fuel
            · omega
            · exact absurd shape (natDigitsFuel_ne_nil fuel (n / 10))
        | cons d ds =>
            rw [shape, List.cons_append] at headZero
            rcases List.cons.inj headZero with ⟨rfl, -⟩
            have noMore := ih (n := n / 10) (by omega) shape
            subst noMore
            have value := ofDigits_natDigitsFuel fuel (n / 10) (by omega)
            have isZero : ofDigits [(0 : Fin 10)] = 0 := rfl
            rw [shape, isZero] at value
            omega

/-- What follows does not start with a digit. -/
def NoDigitHead (rest : List Char) : Prop := ∀ c ∈ rest.head?, digit? c = none

/-- What follows cannot extend a number literal. -/
def NumberEnd (rest : List Char) : Prop :=
  ∀ c ∈ rest.head?, digit? c = none ∧ c ≠ '.' ∧ c ≠ 'e' ∧ c ≠ 'E'

theorem NumberEnd.noDigitHead {rest : List Char} (ends : NumberEnd rest) : NoDigitHead rest :=
  fun c head => (ends c head).1

theorem numberEnd_nil : NumberEnd [] := by simp [NumberEnd]

/-- A fraction starts with its point. -/
theorem noDigitHead_fracText (frac : List (Fin 10)) {rest : List Char} (ends : NoDigitHead rest) :
    NoDigitHead (fracText frac ++ rest) := by
  cases frac with
  | nil => exact ends
  | cons d ds =>
      intro c head
      simp only [fracText, List.cons_append, List.head?_cons, Option.mem_def,
        Option.some.injEq] at head
      subst head
      decide

theorem spanDigits_map_append (digits : List (Fin 10)) {rest : List Char}
    (ends : NoDigitHead rest) : spanDigits (digits.map digitChar ++ rest) = (digits, rest) := by
  induction digits with
  | nil =>
      cases rest with
      | nil => rfl
      | cons c cs => simp [spanDigits, ends c (by simp)]
  | cons d digits ih => simp [spanDigits, ih]

theorem readFrac_fracText (frac : List (Fin 10)) {rest : List Char} (ends : NoDigitHead rest)
    (noPoint : ∀ c ∈ rest.head?, c ≠ '.') :
    readFrac (fracText frac ++ rest) = some (frac, rest) := by
  cases frac with
  | nil =>
      cases rest with
      | nil => rfl
      | cons c cs =>
          have := noPoint c (by simp)
          simp only [fracText, List.nil_append]
          unfold readFrac
          split
          · simp_all
          · rfl
  | cons d digits =>
      simp only [fracText, List.cons_append]
      unfold readFrac
      simp only
      rw [spanDigits_map_append (d :: digits) ends]
      simp

theorem readExpDigits_text (negative : Bool) (digits : List (Fin 10)) {rest : List Char}
    (nonempty : digits ≠ []) (ends : NoDigitHead rest) :
    readExpDigits negative (digits.map digitChar ++ rest) =
      some (some (if negative then -(ofDigits digits : ℤ) else ofDigits digits), rest) := by
  simp [readExpDigits, spanDigits_map_append digits ends, nonempty]

/-- The digits of an exponent, padded to two. -/
theorem exists_expDigits (n : ℕ) : ∃ digits : List (Fin 10), digits ≠ [] ∧
    ofDigits digits = n ∧
    (if n < 10 then '0' :: natText n else natText n) = digits.map digitChar := by
  by_cases small : n < 10
  · refine ⟨0 :: natDigits n, by simp, ?_, by simp [small, natText, digitChar]⟩
    have := ofDigits_natDigits n
    simpa [ofDigits] using this
  · exact ⟨natDigits n, natDigits_ne_nil n, ofDigits_natDigits n, by simp [small, natText]⟩

theorem readExp_optExpText (exp : Option ℤ) {rest : List Char} (ends : NumberEnd rest) :
    readExp (optExpText exp ++ rest) = some (exp, rest) := by
  cases exp with
  | none =>
      cases rest with
      | nil => rfl
      | cons c cs =>
          rcases ends c (by simp) with ⟨-, -, notSmall, notLarge⟩
          simp [optExpText, readExp, notSmall, notLarge]
  | some e =>
      rcases exists_expDigits e.natAbs with ⟨digits, nonempty, value, text⟩
      simp only [optExpText, expText, text, List.cons_append, readExp, true_or, if_true]
      by_cases negative : e < 0
      · simp only [negative, if_true]
        rw [readExpDigits_text true digits nonempty ends.noDigitHead, value]
        simp only [if_true, Option.some.injEq, Prod.mk.injEq, and_true]
        omega
      · simp only [negative, if_false]
        rw [readExpDigits_text false digits nonempty ends.noDigitHead, value]
        simp only [Bool.false_eq_true, if_false, Option.some.injEq, Prod.mk.injEq, and_true]
        omega

theorem readUnsigned_text (neg : Bool) (whole : ℕ) (frac : List (Fin 10)) (exp : Option ℤ)
    {rest : List Char} (ends : NumberEnd rest) :
    readUnsigned neg (natText whole ++ (fracText frac ++ (optExpText exp ++ rest))) =
      some (mkNumber neg whole frac exp, rest) := by
  have expHead : ∀ c ∈ (optExpText exp ++ rest).head?, digit? c = none ∧ c ≠ '.' := by
    cases exp with
    | none => exact fun c head => ⟨(ends c head).1, (ends c head).2.1⟩
    | some e =>
        intro c head
        simp only [optExpText, expText, List.cons_append, List.head?_cons, Option.mem_def,
          Option.some.injEq] at head
        subst head
        decide
  have fracHead : NoDigitHead (fracText frac ++ (optExpText exp ++ rest)) := by
    apply noDigitHead_fracText
    exact fun c head => (expHead c head).1
  unfold readUnsigned natText
  rw [spanDigits_map_append (natDigits whole) fracHead]
  cases shape : natDigits whole with
  | nil => exact absurd shape (natDigits_ne_nil whole)
  | cons d ds =>
      have noLeadingZero : ¬(d = 0 ∧ ds ≠ []) := by
        rintro ⟨rfl, more⟩
        exact more (natDigitsFuel_head_zero (by omega) shape)
      have value : ofDigits (d :: ds) = whole := by
        rw [← shape]
        exact ofDigits_natDigits whole
      simp only [noLeadingZero, if_false, value]
      rw [readFrac_fracText frac (fun c head => (expHead c head).1)
        (fun c head => (expHead c head).2)]
      simp only [Option.bind_eq_bind, Option.bind_some]
      rw [readExp_optExpText exp ends]
      rfl

/-- The first character of a number literal. -/
theorem Number.text_head (n : Number) :
    ∃ c cs, n.text = c :: cs ∧ (c = '-' ∨ ∃ d, c = digitChar d) := by
  have natHead : ∀ m : ℕ, ∃ d ds, natText m = digitChar d :: ds := by
    intro m
    cases shape : natDigits m with
    | nil => exact absurd shape (natDigits_ne_nil m)
    | cons d ds => exact ⟨d, ds.map digitChar, by simp [natText, shape]⟩
  cases n with
  | int n =>
      rcases natHead n.natAbs with ⟨d, ds, head⟩
      by_cases negative : n < 0
      · exact ⟨'-', natText n.natAbs, by simp [Number.text, intText, negative], Or.inl rfl⟩
      · exact ⟨digitChar d, ds, by simp [Number.text, intText, negative, head], Or.inr ⟨d, rfl⟩⟩
  | float lit =>
      rcases natHead lit.whole with ⟨d, ds, head⟩
      cases negative : lit.neg with
      | true =>
          exact ⟨'-', natText lit.whole ++ (fracText lit.frac ++ optExpText lit.exp),
            by simp [Number.text, FloatLit.text, negative], Or.inl rfl⟩
      | false =>
          exact ⟨digitChar d, ds ++ (fracText lit.frac ++ optExpText lit.exp),
            by simp [Number.text, FloatLit.text, negative, head], Or.inr ⟨d, rfl⟩⟩

/-- A literal without a sign is read by `readUnsigned`. -/
theorem readNumber_natText (whole : ℕ) (rest : List Char) :
    readNumber (natText whole ++ rest) = readUnsigned false (natText whole ++ rest) := by
  have notMinus : ∀ d, digitChar d ≠ '-' := by decide
  cases shape : natDigits whole with
  | nil => exact absurd shape (natDigits_ne_nil whole)
  | cons d ds =>
      simp only [natText, shape, List.map_cons, List.cons_append]
      unfold readNumber
      split
      · next same => exact absurd (List.cons.inj same).1 (notMinus d)
      · rfl

theorem readNumber_text (n : Number) {rest : List Char} (ends : NumberEnd rest) :
    readNumber (n.text ++ rest) = some (n, rest) := by
  cases n with
  | int n =>
      have unsigned := fun neg => readUnsigned_text neg n.natAbs [] none ends
      simp only [fracText, optExpText, List.nil_append, mkNumber, ne_eq, not_true_eq_false,
        or_self, dif_neg, not_false_eq_true] at unsigned
      by_cases negative : n < 0
      · simp only [Number.text, intText, negative, if_true, List.cons_append, readNumber]
        rw [unsigned true]
        simp only [if_true, Option.some.injEq, Prod.mk.injEq, Number.int.injEq, and_true]
        omega
      · simp only [Number.text, intText, negative, if_false]
        rw [readNumber_natText, unsigned false]
        simp only [Bool.false_eq_true, if_false, Option.some.injEq, Prod.mk.injEq,
          Number.int.injEq, and_true]
        omega
  | float lit =>
      have unsigned := fun neg => readUnsigned_text neg lit.whole lit.frac lit.exp ends
      simp only [mkNumber, lit.fractional, dif_pos] at unsigned
      rcases lit with ⟨neg, whole, frac, exp, fractional⟩
      cases neg with
      | true =>
          simp only [Number.text, FloatLit.text, if_true, List.cons_append, List.nil_append,
            List.append_assoc, readNumber]
          exact unsigned true
      | false =>
          simp only [Number.text, FloatLit.text, Bool.false_eq_true, if_false, List.nil_append,
            List.append_assoc]
          rw [readNumber_natText]
          exact unsigned false

@[simp]
theorem hex?_hexChar (d : Fin 16) : hex? (hexChar d) = some d := by
  revert d
  decide

/-- Four hexadecimal digits are read back as the code unit they write. -/
theorem readUnit_hex {n : ℕ} (small : n < 65536) (rest : List Char) :
    readUnit (hexChar (Fin.ofNat 16 (n / 4096)) :: hexChar (Fin.ofNat 16 (n / 256)) ::
      hexChar (Fin.ofNat 16 (n / 16)) :: hexChar (Fin.ofNat 16 n) :: rest) = some (n, rest) := by
  simp only [readUnit, hex?_hexChar, Option.bind_eq_bind, Option.bind_some, Fin.ofNat]
  rw [show ((n / 4096 % 16 * 16 + n / 256 % 16) * 16 + n / 16 % 16) * 16 + n % 16 = n by omega]
  rfl

theorem toNat_lt (c : Char) : c.toNat < 1114112 := by
  rcases c.valid with low | high
  · exact Nat.lt_trans low (by decide)
  · exact high.2

theorem toNat_not_surrogate (c : Char) : c.toNat < 55296 ∨ 57344 ≤ c.toNat := by
  rcases c.valid with low | high
  · exact Or.inl low
  · exact Or.inr high.1

theorem readUnicode_unit (c : Char) (small : c.toNat < 65536) (rest : List Char) :
    readUnicode (hexChar (Fin.ofNat 16 (c.toNat / 4096)) ::
      hexChar (Fin.ofNat 16 (c.toNat / 256)) :: hexChar (Fin.ofNat 16 (c.toNat / 16)) ::
      hexChar (Fin.ofNat 16 c.toNat) :: rest) = some (c, rest) := by
  have scalar := toNat_not_surrogate c
  have notHigh : ¬(55296 ≤ c.toNat ∧ c.toNat < 56320) := by omega
  have notLow : ¬(56320 ≤ c.toNat ∧ c.toNat < 57344) := by omega
  unfold readUnicode
  rw [readUnit_hex small]
  simp only [notHigh, notLow, if_false, Char.ofNat_toNat]

/-- A pair of surrogates is read back as the character beyond the basic plane. -/
theorem readUnicode_pair {high low : ℕ} (isHigh : 55296 ≤ high ∧ high < 56320)
    (isLow : 56320 ≤ low ∧ low < 57344) (rest : List Char) :
    readUnicode (hexChar (Fin.ofNat 16 (high / 4096)) ::
      hexChar (Fin.ofNat 16 (high / 256)) :: hexChar (Fin.ofNat 16 (high / 16)) ::
      hexChar (Fin.ofNat 16 high) :: (unitEscape low ++ rest)) =
        some (Char.ofNat (65536 + (high - 55296) * 1024 + (low - 56320)), rest) := by
  unfold readUnicode
  rw [readUnit_hex (by omega)]
  simp only [isHigh, and_self, if_true, unitEscape, List.cons_append, List.nil_append]
  rw [readUnit_hex (by omega)]
  simp only [isLow, and_self, if_true]

/-- Reading consumes exactly the escape of one character. -/
theorem readString_charText (fuel : ℕ) (c : Char) (rest : List Char) :
    readString (fuel + 1) (charText c ++ rest) =
      (readString fuel rest).map fun p => (c :: p.1, p.2) := by
  unfold charText
  by_cases isQuote : c = '"'
  · subst c
    simp [readString, unescape?]
  by_cases isBackslash : c = '\\'
  · subst c
    simp [readString, unescape?]
  by_cases isNewline : c = '\n'
  · subst c
    simp [readString, unescape?]
  by_cases isReturn : c = '\r'
  · subst c
    simp [readString, unescape?]
  by_cases isTab : c = '\t'
  · subst c
    simp [readString, unescape?]
  simp only [isQuote, isBackslash, isNewline, isReturn, isTab, if_false]
  by_cases isBackspace : c.toNat = 8
  · have : c = Char.ofNat 8 := by rw [← isBackspace, Char.ofNat_toNat]
    subst this
    simp [readString, unescape?]
  by_cases isFormFeed : c.toNat = 12
  · have : c = Char.ofNat 12 := by rw [← isFormFeed, Char.ofNat_toNat]
    subst this
    simp [readString, unescape?]
  simp only [isBackspace, isFormFeed, if_false]
  by_cases isPlain : 32 ≤ c.toNat ∧ c.toNat < 127
  · have printable : ¬(c = '\\' ∨ c.toNat < 32) := by
      rintro (same | low)
      · exact isBackslash same
      · omega
    simp only [isPlain, and_self, if_true, List.cons_append, List.nil_append]
    rw [readString.eq_def]
    split <;> simp_all
  simp only [isPlain, if_false]
  by_cases isSmall : c.toNat < 65536
  · simp only [isSmall, if_true, unitEscape, List.cons_append, List.nil_append, readString]
    rw [readUnicode_unit c isSmall]
  · have bound := toNat_lt c
    have isHigh : 55296 ≤ 55296 + (c.toNat - 65536) / 1024 ∧
        55296 + (c.toNat - 65536) / 1024 < 56320 := by omega
    have isLow : 56320 ≤ 56320 + (c.toNat - 65536) % 1024 ∧
        56320 + (c.toNat - 65536) % 1024 < 57344 := by omega
    generalize high_eq : 55296 + (c.toNat - 65536) / 1024 = high at isHigh ⊢
    generalize low_eq : 56320 + (c.toNat - 65536) % 1024 = low at isLow ⊢
    have whole : 65536 + (high - 55296) * 1024 + (low - 56320) = c.toNat := by omega
    simp only [isSmall, if_false, List.append_assoc]
    rw [show unitEscape high = ['\\', 'u', _, _, _, _] from rfl]
    simp only [List.cons_append, List.nil_append, readString]
    rw [readUnicode_pair isHigh isLow, whole, Char.ofNat_toNat]

theorem readString_flatMap (chars : List Char) {fuel : ℕ} (enough : chars.length < fuel)
    (rest : List Char) :
    readString fuel (chars.flatMap charText ++ '"' :: rest) = some (chars, rest) := by
  induction chars generalizing fuel with
  | nil =>
      rcases fuel with _ | fuel
      · omega
      · simp [readString]
  | cons c chars ih =>
      rcases fuel with _ | fuel
      · omega
      · simp only [List.length_cons] at enough
        rw [List.flatMap_cons, List.append_assoc, readString_charText, ih (by omega)]
        rfl

theorem charText_ne_nil (c : Char) : charText c ≠ [] := by
  unfold charText
  split_ifs <;> simp [unitEscape]

theorem length_le_length_flatMap (chars : List Char) :
    chars.length ≤ (chars.flatMap charText).length := by
  induction chars with
  | nil => simp
  | cons c chars ih =>
      have := List.length_pos_iff.2 (charText_ne_nil c)
      simp only [List.flatMap_cons, List.length_cons, List.length_append]
      omega

theorem stringText_cons (s : String) :
    stringText s = '"' :: (s.toList.flatMap charText ++ ['"']) := rfl

theorem readQuoted_stringText (s : String) (rest : List Char) :
    readQuoted (s.toList.flatMap charText ++ '"' :: rest) = some (s, rest) := by
  have longEnough := length_le_length_flatMap s.toList
  unfold readQuoted
  rw [readString_flatMap s.toList
    (by simp only [List.length_append, List.length_cons]; omega) rest]
  simp

mutual

/-- The fuel `readValue` needs for a value. -/
def size : Json → ℕ
  | .arr items => 1 + sizeItems items
  | .obj fields => 1 + sizeFields fields
  | _ => 1

def sizeItems : List Json → ℕ
  | [] => 0
  | item :: items => 1 + item.size + sizeItems items

def sizeFields : List (String × Json) → ℕ
  | [] => 0
  | (_, value) :: fields => 1 + value.size + sizeFields fields

end

theorem numberEnd_renderItems (layout : Layout) (items : List Json) (rest : List Char) :
    NumberEnd (renderItems layout items ++ rest) := by
  intro c head
  cases items <;>
    simp only [renderItems, List.cons_append, List.head?_cons, Option.mem_def,
      Option.some.injEq] at head <;>
    subst head <;> decide

theorem numberEnd_renderFields (layout : Layout) (fields : List (String × Json))
    (rest : List Char) : NumberEnd (renderFields layout fields ++ rest) := by
  intro c head
  cases fields with
  | nil =>
      simp only [renderFields, List.cons_append, List.head?_cons, Option.mem_def,
        Option.some.injEq] at head
      subst head
      decide
  | cons field fields =>
      simp only [renderFields, List.cons_append, List.head?_cons, Option.mem_def,
        Option.some.injEq] at head
      subst head
      decide

/-- The text of a value starts with a character that is neither white space nor
a closing bracket. -/
theorem render_head (layout : Layout) (value : Json) : ∃ c cs, render layout value = c :: cs ∧
    isSpace c = false ∧ c ≠ ']' ∧ c ≠ '}' := by
  have digitHead : ∀ d, isSpace (digitChar d) = false ∧ digitChar d ≠ ']' ∧
      digitChar d ≠ '}' := by decide
  cases value with
  | null => exact ⟨_, _, rfl, by decide⟩
  | bool b => cases b <;> exact ⟨_, _, rfl, by decide⟩
  | num n =>
      rcases n.text_head with ⟨c, cs, text, rfl | ⟨d, rfl⟩⟩
      · exact ⟨_, _, text, by decide⟩
      · exact ⟨_, _, text, digitHead d⟩
  | str s => exact ⟨_, _, rfl, by decide⟩
  | arr items => cases items <;> exact ⟨_, _, rfl, by decide⟩
  | obj fields =>
      rcases fields with _ | ⟨⟨key, value⟩, fields⟩ <;> exact ⟨_, _, rfl, by decide⟩

theorem skipSpace_gap (layout : Layout) (cs : List Char) :
    skipSpace (layout.gap ++ cs) = skipSpace cs := by
  cases layout <;> simp [Layout.gap, skipSpace, isSpace]

theorem readValue_gap (layout : Layout) (fuel : ℕ) (cs : List Char) :
    readValue fuel (layout.gap ++ cs) = readValue fuel cs := by
  cases fuel with
  | zero => simp [readValue]
  | succ fuel => simp only [readValue, skipSpace_gap]

theorem readItems_gap (layout : Layout) (fuel : ℕ) (cs : List Char) :
    readItems fuel (layout.gap ++ cs) = readItems fuel cs := by
  cases fuel with
  | zero => simp [readItems]
  | succ fuel => simp only [readItems, readValue_gap]

theorem readKey_stringText (layout : Layout) (key : String) (rest : List Char) :
    readKey (layout.gap ++ (stringText key ++ ':' :: rest)) = some (key, rest) := by
  unfold readKey
  rw [skipSpace_gap, stringText_cons]
  simp only [List.cons_append, List.append_assoc, List.nil_append]
  rw [show ∀ cs, skipSpace ('"' :: cs) = '"' :: cs from fun _ => rfl]
  simp only [readQuoted_stringText]
  rfl

theorem readValue_number (fuel : ℕ) {c : Char} {cs : List Char}
    (starts : c = '-' ∨ ∃ d, c = digitChar d) :
    readValue (fuel + 1) (c :: cs) = (readNumber (c :: cs)).map fun p => (.num p.1, p.2) := by
  rcases starts with rfl | ⟨d, rfl⟩
  · simp [readValue, skipSpace, isSpace]
  · fin_cases d <;> simp [readValue, skipSpace, isSpace, digitChar]

theorem skipSpace_render (layout : Layout) (value : Json) (rest : List Char) :
    skipSpace (render layout value ++ rest) = render layout value ++ rest := by
  rcases render_head layout value with ⟨c, cs, text, notSpace, -⟩
  simp [text, skipSpace, notSpace]

/-- An array text whose first item is rendered is read by `readItems`. -/
theorem readValue_openBracket (layout : Layout) (fuel : ℕ) (item : Json) (rest : List Char) :
    readValue (fuel + 1) ('[' :: (render layout item ++ rest)) =
      (readItems fuel (render layout item ++ rest)).map fun p => (.arr p.1, p.2) := by
  rcases render_head layout item with ⟨c, cs, text, notSpace, notBracket, -⟩
  simp only [readValue, skipSpace, isSpace]
  simp only [show (('[' = ' ' : Bool) || ('[' = '\n' : Bool) || ('[' = '\r' : Bool) ||
    ('[' = '\t' : Bool)) = false by decide, Bool.false_eq_true, if_false]
  rw [skipSpace_render, text]
  split
  · next same => exact absurd (List.cons.inj same).1 notBracket
  · rfl

/-- An object text whose first key is rendered is read by `readFields`. -/
theorem readValue_openBrace (fuel : ℕ) (key : String) (rest : List Char) :
    readValue (fuel + 1) ('{' :: (stringText key ++ rest)) =
      (readFields fuel (stringText key ++ rest)).map fun p => (.obj p.1, p.2) := by
  simp [readValue, skipSpace, isSpace, stringText_cons]

mutual

theorem readValue_render (layout : Layout) : ∀ (value : Json) {fuel : ℕ} {rest : List Char},
    value.size ≤ fuel → NumberEnd rest →
    readValue fuel (render layout value ++ rest) = some (value, rest)
  | value, 0, rest, enough, ends => by
      cases value <;> simp [size] at enough
  | .null, fuel + 1, rest, enough, ends => by simp [render, readValue, skipSpace, isSpace]
  | .bool true, fuel + 1, rest, enough, ends => by
      simp [render, readValue, skipSpace, isSpace]
  | .bool false, fuel + 1, rest, enough, ends => by
      simp [render, readValue, skipSpace, isSpace]
  | .num n, fuel + 1, rest, enough, ends => by
      rcases n.text_head with ⟨c, cs, text, starts⟩
      have literal := readNumber_text n ends
      simp only [render]
      rw [text, List.cons_append] at literal ⊢
      rw [readValue_number fuel starts, literal]
      rfl
  | .str s, fuel + 1, rest, enough, ends => by
      simp only [render, stringText_cons, List.cons_append, List.append_assoc, List.nil_append]
      simp [readValue, skipSpace, isSpace, readQuoted_stringText]
  | .arr [], fuel + 1, rest, enough, ends => by simp [render, readValue, skipSpace, isSpace]
  | .arr (item :: items), fuel + 1, rest, enough, ends => by
      simp only [size] at enough
      simp only [render, List.cons_append, List.append_assoc]
      rw [readValue_openBracket, readItems_render layout item items (by omega)]
      rfl
  | .obj [], fuel + 1, rest, enough, ends => by simp [render, readValue, skipSpace, isSpace]
  | .obj ((key, value) :: fields), fuel + 1, rest, enough, ends => by
      simp only [size] at enough
      have entries := @readFields_render layout .compact key value fields fuel rest (by omega)
      rw [show Layout.compact.gap = [] from rfl, List.nil_append] at entries
      simp only [render, List.cons_append, List.append_assoc]
      rw [readValue_openBrace, entries]
      rfl

theorem readItems_render (layout : Layout) : ∀ (item : Json) (items : List Json)
    {fuel : ℕ} {rest : List Char}, sizeItems (item :: items) ≤ fuel →
    readItems fuel (render layout item ++ (renderItems layout items ++ rest)) =
      some (item :: items, rest)
  | item, items, 0, rest, enough => by simp [sizeItems] at enough
  | item, [], fuel + 1, rest, enough => by
      simp only [sizeItems] at enough
      simp only [readItems]
      rw [readValue_render layout item (by omega) (numberEnd_renderItems layout [] rest)]
      simp [renderItems, skipSpace, isSpace]
  | item, next :: items, fuel + 1, rest, enough => by
      simp only [sizeItems] at enough
      simp only [readItems]
      rw [readValue_render layout item (by omega)
        (numberEnd_renderItems layout (next :: items) rest)]
      simp only [renderItems, List.cons_append, List.append_assoc]
      rw [show ∀ cs, skipSpace (',' :: cs) = ',' :: cs from fun _ => rfl]
      simp only [readItems_gap]
      rw [readItems_render layout next items (by simp only [sizeItems]; omega)]
      rfl

theorem readFields_render (layout : Layout) : ∀ (before : Layout) (key : String) (value : Json)
    (fields : List (String × Json)) {fuel : ℕ} {rest : List Char},
    sizeFields ((key, value) :: fields) ≤ fuel →
    readFields fuel (before.gap ++ (stringText key ++ ':' :: (layout.gap ++
      (render layout value ++ (renderFields layout fields ++ rest))))) =
      some ((key, value) :: fields, rest)
  | before, key, value, fields, 0, rest, enough => by simp [sizeFields] at enough
  | before, key, value, [], fuel + 1, rest, enough => by
      simp only [sizeFields] at enough
      simp only [readFields, readKey_stringText, readValue_gap]
      rw [readValue_render layout value (by omega) (numberEnd_renderFields layout [] rest)]
      simp [renderFields, skipSpace, isSpace]
  | before, key, value, (nextKey, next) :: fields, fuel + 1, rest, enough => by
      simp only [sizeFields] at enough
      simp only [readFields, readKey_stringText, readValue_gap]
      rw [readValue_render layout value (by omega)
        (numberEnd_renderFields layout ((nextKey, next) :: fields) rest)]
      simp only [renderFields, List.cons_append, List.append_assoc]
      rw [show ∀ cs, skipSpace (',' :: cs) = ',' :: cs from fun _ => rfl]
      simp only
      rw [readFields_render layout layout nextKey next fields
        (by simp only [sizeFields]; omega)]
      rfl

end

theorem length_text_pos (n : Number) : 1 ≤ n.text.length := by
  rcases n.text_head with ⟨c, cs, text, -⟩
  simp [text]

mutual

theorem size_le_length_render (layout : Layout) : ∀ value : Json,
    value.size ≤ (render layout value).length
  | .null => by simp [size, render]
  | .bool true => by simp [size, render]
  | .bool false => by simp [size, render]
  | .num n => by simpa [size, render] using length_text_pos n
  | .str s => by simp [size, render, stringText_cons]
  | .arr [] => by simp [size, sizeItems, render]
  | .arr (item :: items) => by
      have head := size_le_length_render layout item
      have tail := sizeItems_le_length layout items
      simp only [size, sizeItems, render, List.length_cons, List.length_append]
      omega
  | .obj [] => by simp [size, sizeFields, render]
  | .obj ((key, value) :: fields) => by
      have head := size_le_length_render layout value
      have tail := sizeFields_le_length layout fields
      simp only [size, sizeFields, render, List.length_cons, List.length_append]
      omega

theorem sizeItems_le_length (layout : Layout) : ∀ items : List Json,
    sizeItems items + 1 ≤ (renderItems layout items).length
  | [] => by simp [sizeItems, renderItems]
  | item :: items => by
      have head := size_le_length_render layout item
      have tail := sizeItems_le_length layout items
      simp only [sizeItems, renderItems, List.length_cons, List.length_append]
      omega

theorem sizeFields_le_length (layout : Layout) : ∀ fields : List (String × Json),
    sizeFields fields + 1 ≤ (renderFields layout fields).length
  | [] => by simp [sizeFields, renderFields]
  | (key, value) :: fields => by
      have head := size_le_length_render layout value
      have tail := sizeFields_le_length layout fields
      simp only [sizeFields, renderFields, List.length_cons, List.length_append]
      omega

end

/-- The reader inverts the renderer. -/
theorem parse_render (layout : Layout) (value : Json) :
    parse (render layout value) = some value := by
  have fits := size_le_length_render layout value
  have whole := @readValue_render layout value _ [] (Nat.le_succ_of_le fits) numberEnd_nil
  rw [List.append_nil] at whole
  unfold parse
  rw [whole]
  rfl

/-- A rendered text determines its value. -/
theorem render_injective (layout : Layout) : Function.Injective (render layout) := by
  intro value other same
  have left := parse_render layout value
  rw [same, parse_render layout other] at left
  exact (Option.some.inj left).symm

theorem dumps_injective (layout : Layout) : Function.Injective (dumps layout) := by
  intro value other same
  apply render_injective layout
  have := congrArg String.toList same
  simpa [dumps] using this

theorem foldl_setField_eq (fields acc : List (String × Json))
    (distinct : ((acc ++ fields).map Prod.fst).Nodup) :
    fields.foldl (fun acc field => setField acc field.1 field.2) acc = acc ++ fields := by
  induction fields generalizing acc with
  | nil => simp
  | cons field fields ih =>
      have fresh : field.1 ∉ acc.map Prod.fst := by
        intro present
        rw [List.map_append, List.nodup_append] at distinct
        exact distinct.2.2 field.1 present field.1 (by simp) rfl
      rw [List.foldl_cons, setField, if_neg fresh, ih _ (by simpa using distinct)]
      simp

mutual

/-- A dictionary reader leaves a value with distinct keys as it is. -/
theorem dedupe_eq_self : ∀ value : Json, value.DistinctKeys → value.dedupe = value
  | .null, _ => rfl
  | .bool _, _ => rfl
  | .num _, _ => rfl
  | .str _, _ => rfl
  | .arr items, distinct => by
      simp only [DistinctKeys] at distinct
      simp only [dedupe, dedupeItems_eq_self items distinct]
  | .obj fields, distinct => by
      simp only [DistinctKeys] at distinct
      simp only [dedupe, dedupeFields_eq_self fields distinct.2]
      rw [foldl_setField_eq fields [] (by simpa using distinct.1), List.nil_append]

theorem dedupeItems_eq_self : ∀ items : List Json, DistinctKeysItems items →
    dedupeItems items = items
  | [], _ => rfl
  | item :: items, distinct => by
      simp only [DistinctKeysItems] at distinct
      simp only [dedupeItems, dedupe_eq_self item distinct.1,
        dedupeItems_eq_self items distinct.2]

theorem dedupeFields_eq_self : ∀ fields : List (String × Json), DistinctKeysFields fields →
    dedupeFields fields = fields
  | [], _ => rfl
  | (key, value) :: fields, distinct => by
      simp only [DistinctKeysFields] at distinct
      simp only [dedupeFields, dedupe_eq_self value distinct.1,
        dedupeFields_eq_self fields distinct.2]

end

/-- A dictionary-built value survives being written and read again. -/
theorem loads_dumps (layout : Layout) {value : Json} (distinct : value.DistinctKeys) :
    loads (dumps layout value) = some value := by
  simp [loads, dumps, parse_render, dedupe_eq_self value distinct]

theorem distinctKeysFields_iff {fields : List (String × Json)} :
    DistinctKeysFields fields ↔ ∀ field ∈ fields, field.2.DistinctKeys := by
  induction fields with
  | nil => simp [DistinctKeysFields]
  | cons field fields ih => simp [DistinctKeysFields, ih]

/-- Storing a value keeps a dictionary with distinct keys. -/
theorem distinctKeys_setField {fields : List (String × Json)} {key : String} {value : Json}
    (distinct : (Json.obj fields).DistinctKeys) (valueDistinct : value.DistinctKeys) :
    (Json.obj (setField fields key value)).DistinctKeys := by
  simp only [DistinctKeys, distinctKeysFields_iff] at distinct ⊢
  rcases distinct with ⟨nodup, values⟩
  unfold setField
  split
  · have keys : (fields.map fun field => if field.1 = key then (key, value) else field).map
        Prod.fst = fields.map Prod.fst := by
      rw [List.map_map]
      apply List.map_congr_left
      intro field _
      by_cases same : field.1 = key
      · simp [same]
      · simp [same]
    refine ⟨keys ▸ nodup, ?_⟩
    intro field mem
    rcases List.mem_map.1 mem with ⟨old, oldMem, rfl⟩
    split
    · exact valueDistinct
    · exact values old oldMem
  · next fresh =>
    constructor
    · rw [List.map_append, List.map_singleton, List.nodup_append]
      refine ⟨nodup, List.nodup_singleton _, ?_⟩
      rintro other mem last single rfl
      rw [List.mem_singleton] at single
      rw [single] at mem
      exact fresh mem
    · intro field mem
      rcases List.mem_append.1 mem with old | new
      · exact values field old
      · rw [List.mem_singleton] at new
        exact new ▸ valueDistinct

theorem distinctKeys_foldl_setField {fields acc : List (String × Json)}
    (distinct : (Json.obj acc).DistinctKeys) (values : DistinctKeysFields fields) :
    (Json.obj (fields.foldl (fun acc field => setField acc field.1 field.2) acc)).DistinctKeys := by
  induction fields generalizing acc with
  | nil => exact distinct
  | cons field fields ih =>
      simp only [DistinctKeysFields] at values
      exact ih (distinctKeys_setField distinct values.1) values.2

mutual

/-- What a dictionary reader builds has distinct keys. -/
theorem distinctKeys_dedupe : ∀ value : Json, value.dedupe.DistinctKeys
  | .null => trivial
  | .bool _ => trivial
  | .num _ => trivial
  | .str _ => trivial
  | .arr items => distinctKeys_dedupeItems items
  | .obj fields =>
      distinctKeys_foldl_setField (by simp [DistinctKeys, DistinctKeysFields])
        (distinctKeys_dedupeFields fields)

theorem distinctKeys_dedupeItems : ∀ items : List Json, DistinctKeysItems (dedupeItems items)
  | [] => trivial
  | item :: items => ⟨distinctKeys_dedupe item, distinctKeys_dedupeItems items⟩

theorem distinctKeys_dedupeFields : ∀ fields : List (String × Json),
    DistinctKeysFields (dedupeFields fields)
  | [] => trivial
  | (_, value) :: fields => ⟨distinctKeys_dedupe value, distinctKeys_dedupeFields fields⟩

end

end Json

/-- The dictionary that a literal with repeated keys builds. -/
def JsonValue.ofLiteral (value : Json) : JsonValue := ⟨value.dedupe, value.distinctKeys_dedupe⟩

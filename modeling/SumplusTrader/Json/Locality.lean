import SumplusTrader.Json.RoundTrip

/-!
# Locality of the reader

This file proves that the reader looks at nothing behind the text of the value it
returns. Whatever follows that text may be replaced, with one exception: behind a
number, only by something that cannot extend the literal.

The result for a whole value is `readValue_local`. It also records that the text
of a value begins and ends with visible characters, so that the white space
around a value can be stripped by any rule that removes blanks only, and that
fuel of the length of the text suffices.
-/

namespace Json

/-- A printable character other than the blank. -/
def Visible (c : Char) : Prop := 32 < c.toNat ∧ c.toNat < 127

instance (c : Char) : Decidable (Visible c) := inferInstanceAs (Decidable (_ ∧ _))

/-- The last character of a text is visible. -/
def EndsVisible (used : List Char) : Prop := ∃ init c, used = init ++ [c] ∧ Visible c

/-- The first character of a text is visible. -/
def StartsVisible (used : List Char) : Prop := ∃ c tail, used = c :: tail ∧ Visible c

theorem EndsVisible.cons {used : List Char} (ends : EndsVisible used) (c : Char) :
    EndsVisible (c :: used) := by
  rcases ends with ⟨init, last, rfl, visible⟩
  exact ⟨c :: init, last, rfl, visible⟩

theorem EndsVisible.append {used : List Char} (ends : EndsVisible used) (before : List Char) :
    EndsVisible (before ++ used) := by
  rcases ends with ⟨init, last, rfl, visible⟩
  exact ⟨before ++ init, last, by simp, visible⟩

theorem EndsVisible.length_pos {used : List Char} (ends : EndsVisible used) :
    0 < used.length := by
  rcases ends with ⟨init, last, rfl, -⟩
  simp

theorem endsVisible_singleton {c : Char} (visible : Visible c) : EndsVisible [c] :=
  ⟨[], c, rfl, visible⟩

theorem endsVisible_of_forall {used : List Char} (nonempty : used ≠ [])
    (all : ∀ c ∈ used, Visible c) : EndsVisible used := by
  rcases List.eq_nil_or_concat used with rfl | ⟨init, last, rfl⟩
  · exact absurd rfl nonempty
  · rw [List.concat_eq_append] at all ⊢
    exact ⟨init, last, rfl, all last (by simp)⟩

theorem eq_digitChar {c : Char} {d : Fin 10} (isDigit : digit? c = some d) : c = digitChar d := by
  unfold digit? at isDigit
  split at isDigit
  · next range =>
      have value := congrArg Fin.val (Option.some.inj isDigit)
      simp only at value
      rw [digitChar, ← value, show 48 + (c.toNat - 48) = c.toNat by omega, Char.ofNat_toNat]
  · simp at isDigit

theorem visible_digitChar (d : Fin 10) : Visible (digitChar d) := by
  revert d
  decide

theorem visible_of_mem_map_digitChar {digits : List (Fin 10)} {c : Char}
    (mem : c ∈ digits.map digitChar) : Visible c := by
  rcases List.mem_map.1 mem with ⟨d, -, rfl⟩
  exact visible_digitChar d

theorem spanDigits_local {cs rest : List Char} {digits : List (Fin 10)}
    (read : spanDigits cs = (digits, rest)) :
    cs = digits.map digitChar ++ rest ∧ NoDigitHead rest := by
  induction cs generalizing digits with
  | nil =>
      simp only [spanDigits, Prod.mk.injEq] at read
      rcases read with ⟨rfl, rfl⟩
      exact ⟨rfl, by simp [NoDigitHead]⟩
  | cons c cs ih =>
      simp only [spanDigits] at read
      cases isDigit : digit? c with
      | none =>
          simp only [isDigit, Prod.mk.injEq] at read
          rcases read with ⟨rfl, rfl⟩
          exact ⟨rfl, by simp [NoDigitHead, isDigit]⟩
      | some d =>
          simp only [isDigit, Prod.mk.injEq] at read
          rcases read with ⟨rfl, rfl⟩
          rcases ih rfl with ⟨text, ends⟩
          refine ⟨?_, ends⟩
          rw [List.map_cons, List.cons_append, ← text, eq_digitChar isDigit]

theorem readFrac_local {cs rest : List Char} {frac : List (Fin 10)}
    (read : readFrac cs = some (frac, rest)) : cs = fracText frac ++ rest := by
  unfold readFrac at read
  split at read
  · next cs =>
      split at read
      · simp at read
      · next nonempty =>
          have span := Option.some.inj read
          rcases spanDigits_local span with ⟨text, -⟩
          rw [span] at nonempty
          cases frac with
          | nil => exact absurd rfl nonempty
          | cons d ds => simp [fracText, text]
  · simp only [Option.some.injEq, Prod.mk.injEq] at read
    rcases read with ⟨rfl, rfl⟩
    rfl

theorem visible_of_mem_fracText {frac : List (Fin 10)} {c : Char} (mem : c ∈ fracText frac) :
    Visible c := by
  cases frac with
  | nil => simp [fracText] at mem
  | cons d ds =>
      rcases List.mem_cons.1 mem with rfl | mem
      · decide
      · exact visible_of_mem_map_digitChar mem

/-- An exponent reader on what it used, followed by anything that is no digit. -/
theorem readExpDigits_local {negative : Bool} {cs rest : List Char} {exp : Option ℤ}
    (read : readExpDigits negative cs = some (exp, rest)) :
    ∃ digits : List (Fin 10), digits ≠ [] ∧ cs = digits.map digitChar ++ rest ∧
      ∀ more, NoDigitHead more →
        readExpDigits negative (digits.map digitChar ++ more) = some (exp, more) := by
  unfold readExpDigits at read
  split at read
  · simp at read
  · next nonempty =>
      rcases span : spanDigits cs with ⟨digits, tail⟩
      simp only [span, Option.some.injEq, Prod.mk.injEq] at read nonempty
      rcases read with ⟨rfl, rfl⟩
      refine ⟨digits, nonempty, (spanDigits_local span).1, ?_⟩
      intro more ends
      rw [readExpDigits_text negative digits nonempty ends]

/-- An exponent that was read, or its absence, is read again before any end of a number. -/
def ExpLocal (cs rest : List Char) (exp : Option ℤ) : Prop :=
  ∃ used, cs = used ++ rest ∧ (∀ c ∈ used, Visible c) ∧
    ∀ more, NumberEnd more → readExp (used ++ more) = some (exp, more) ∧
      ∀ c ∈ (used ++ more).head?, digit? c = none ∧ c ≠ '.'

theorem expLocal_absent (rest : List Char) : ExpLocal rest rest none := by
  refine ⟨[], rfl, by simp, ?_⟩
  intro more ends
  exact ⟨readExp_optExpText none ends, fun c head => ⟨(ends c head).1, (ends c head).2.1⟩⟩

/-- A marker and a sign are followed by the digits of the exponent. -/
theorem expLocal_signed {marker : Char} (isMarker : marker = 'e' ∨ marker = 'E')
    {sign ds rest : List Char} {negative : Bool} {exp : Option ℤ}
    (signVisible : ∀ c ∈ sign, Visible c) (read : readExpDigits negative ds = some (exp, rest))
    (agrees : ∀ digits : List (Fin 10), digits ≠ [] → ∀ more,
      readExp (marker :: (sign ++ (digits.map digitChar ++ more))) =
        readExpDigits negative (digits.map digitChar ++ more)) :
    ExpLocal (marker :: (sign ++ ds)) rest exp := by
  have markerHead : Visible marker ∧ digit? marker = none ∧ marker ≠ '.' := by
    rcases isMarker with rfl | rfl <;> decide
  rcases readExpDigits_local read with ⟨digits, nonempty, rfl, again⟩
  refine ⟨marker :: (sign ++ digits.map digitChar), by simp, ?_, ?_⟩
  · intro c mem
    rcases List.mem_cons.1 mem with rfl | mem
    · exact markerHead.1
    · rcases List.mem_append.1 mem with mem | mem
      · exact signVisible c mem
      · exact visible_of_mem_map_digitChar mem
  · intro more ends
    constructor
    · rw [List.cons_append, List.append_assoc, agrees digits nonempty more]
      exact again more ends.noDigitHead
    · intro c head
      simp only [List.cons_append, List.head?_cons, Option.mem_def, Option.some.injEq] at head
      subst head
      exact markerHead.2

/-- A digit behind the marker is not a sign. -/
theorem readExp_unsigned {marker : Char} (isMarker : marker = 'e' ∨ marker = 'E')
    {digits : List (Fin 10)} (nonempty : digits ≠ []) (more : List Char) :
    readExp (marker :: (digits.map digitChar ++ more)) =
      readExpDigits false (digits.map digitChar ++ more) := by
  cases digits with
  | nil => exact absurd rfl nonempty
  | cons d ds =>
      have notSign : ∀ d, digitChar d ≠ '-' ∧ digitChar d ≠ '+' := by decide
      simp only [readExp, isMarker, if_true, List.map_cons, List.cons_append]
      split
      · next same => exact absurd (List.cons.inj same).1 (notSign d).1
      · next same => exact absurd (List.cons.inj same).1 (notSign d).2
      · rfl

theorem readExp_local {cs rest : List Char} {exp : Option ℤ}
    (read : readExp cs = some (exp, rest)) : ExpLocal cs rest exp := by
  cases cs with
  | nil =>
      simp only [readExp, Option.some.injEq, Prod.mk.injEq] at read
      rcases read with ⟨rfl, rfl⟩
      exact expLocal_absent []
  | cons marker cs =>
      simp only [readExp] at read
      split_ifs at read with isMarker
      · split at read
        · next ds =>
            apply expLocal_signed isMarker (List.forall_mem_singleton.2 (by decide)) read
            intro digits _ more
            simp [readExp, isMarker]
        · next ds =>
            apply expLocal_signed isMarker (List.forall_mem_singleton.2 (by decide)) read
            intro digits _ more
            simp [readExp, isMarker]
        · apply @expLocal_signed marker isMarker [] cs rest false exp (by simp) read
          intro digits nonempty more
          exact readExp_unsigned isMarker nonempty more
      · simp only [Option.some.injEq, Prod.mk.injEq] at read
        rcases read with ⟨rfl, rfl⟩
        exact expLocal_absent _

theorem readUnsigned_local {neg : Bool} {cs rest : List Char} {n : Number}
    (read : readUnsigned neg cs = some (n, rest)) :
    ∃ used, cs = used ++ rest ∧ (∀ c ∈ used, Visible c) ∧
      (∃ d tail, used = digitChar d :: tail) ∧
      ∀ more, NumberEnd more → readUnsigned neg (used ++ more) = some (n, more) := by
  unfold readUnsigned at read
  split at read
  · simp at read
  · next d ds tail span =>
      rcases spanDigits_local span with ⟨text, -⟩
      split_ifs at read with leadingZero
      rcases Option.bind_eq_some_iff.1 read with ⟨⟨frac, afterFrac⟩, fracRead, read⟩
      rcases Option.bind_eq_some_iff.1 read with ⟨⟨exp, afterExp⟩, expRead, read⟩
      simp only [pure, Option.some.injEq, Prod.mk.injEq] at read
      rcases read with ⟨rfl, rfl⟩
      have fracText_eq := readFrac_local fracRead
      rcases readExp_local expRead with ⟨expUsed, expText_eq, expVisible, expAgain⟩
      refine ⟨(d :: ds).map digitChar ++ (fracText frac ++ expUsed),
        by simp [text, fracText_eq, expText_eq], ?_, ⟨d, _, rfl⟩, ?_⟩
      · intro c mem
        rcases List.mem_append.1 mem with mem | mem
        · exact visible_of_mem_map_digitChar mem
        · rcases List.mem_append.1 mem with mem | mem
          · exact visible_of_mem_fracText mem
          · exact expVisible c mem
      · intro more ends
        rcases expAgain more ends with ⟨expRead', expHead⟩
        have fracHead : NoDigitHead (fracText frac ++ (expUsed ++ more)) := by
          apply noDigitHead_fracText
          exact fun c head => (expHead c head).1
        unfold readUnsigned
        rw [List.append_assoc, List.append_assoc, spanDigits_map_append (d :: ds) fracHead]
        simp only [leadingZero, if_false]
        rw [readFrac_fracText frac (fun c head => (expHead c head).1)
          (fun c head => (expHead c head).2)]
        simp only [Option.bind_eq_bind, Option.bind_some, expRead']
        rfl

theorem readNumber_local {cs rest : List Char} {n : Number}
    (read : readNumber cs = some (n, rest)) :
    ∃ used, cs = used ++ rest ∧ (∀ c ∈ used, Visible c) ∧
      (∃ c tail, used = c :: tail ∧ (c = '-' ∨ ∃ d, c = digitChar d)) ∧
      ∀ more, NumberEnd more → readNumber (used ++ more) = some (n, more) := by
  unfold readNumber at read
  split at read
  · next cs =>
      rcases readUnsigned_local read with ⟨used, rfl, visible, -, again⟩
      refine ⟨'-' :: used, rfl, ?_, ⟨'-', used, rfl, Or.inl rfl⟩, again⟩
      intro c mem
      rcases List.mem_cons.1 mem with rfl | mem
      · decide
      · exact visible c mem
  · rcases readUnsigned_local read with ⟨used, text, visible, ⟨d, tail, rfl⟩, again⟩
    refine ⟨digitChar d :: tail, text, visible, ⟨_, tail, rfl, Or.inr ⟨d, rfl⟩⟩, ?_⟩
    intro more ends
    have notMinus : digitChar d ≠ '-' := by
      clear text visible again
      revert d
      decide
    unfold readNumber
    split
    · next same => exact absurd (List.cons.inj same).1 notMinus
    · exact again more ends

theorem readUnit_local {cs rest : List Char} {n : ℕ} (read : readUnit cs = some (n, rest)) :
    ∃ used, cs = used ++ rest ∧ ∀ more, readUnit (used ++ more) = some (n, more) := by
  unfold readUnit at read
  split at read
  · next a b c d cs =>
      rcases Option.bind_eq_some_iff.1 read with ⟨x, first, read⟩
      rcases Option.bind_eq_some_iff.1 read with ⟨y, second, read⟩
      rcases Option.bind_eq_some_iff.1 read with ⟨z, third, read⟩
      rcases Option.bind_eq_some_iff.1 read with ⟨w, fourth, read⟩
      simp only [pure, Option.some.injEq, Prod.mk.injEq] at read
      rcases read with ⟨rfl, rfl⟩
      refine ⟨[a, b, c, d], rfl, ?_⟩
      intro more
      simp [readUnit, first, second, third, fourth]
  · simp at read

theorem readUnicode_local {cs rest : List Char} {decoded : Char}
    (read : readUnicode cs = some (decoded, rest)) :
    ∃ used, cs = used ++ rest ∧ ∀ more, readUnicode (used ++ more) = some (decoded, more) := by
  unfold readUnicode at read
  split at read
  · simp at read
  · next high tail highRead =>
      rcases readUnit_local highRead with ⟨used, text, again⟩
      split_ifs at read with isHigh isLow
      · split at read
        · next tail =>
            split at read
            · simp at read
            · next low lowTail lowRead =>
                rcases readUnit_local lowRead with ⟨lowUsed, rfl, lowAgain⟩
                split_ifs at read with inRange
                simp only [Option.some.injEq, Prod.mk.injEq] at read
                rcases read with ⟨rfl, rfl⟩
                refine ⟨used ++ ('\\' :: 'u' :: lowUsed), by simp [text], ?_⟩
                intro more
                unfold readUnicode
                rw [List.append_assoc, again]
                simp only [isHigh, and_self, if_true, List.cons_append, lowAgain, inRange]
        · simp at read
      · simp only [Option.some.injEq, Prod.mk.injEq] at read
        rcases read with ⟨rfl, rfl⟩
        refine ⟨used, text, ?_⟩
        intro more
        unfold readUnicode
        rw [again]
        simp only [isHigh, isLow, if_false]

theorem readString_escape {e : Char} (notUnicode : e ≠ 'u') (fuel : ℕ) (cs : List Char) :
    readString (fuel + 1) ('\\' :: e :: cs) =
      (unescape? e).bind fun decoded =>
        (readString fuel cs).map fun p => (decoded :: p.1, p.2) := by
  rw [readString]
  · cases unescape? e <;> rfl
  · exact notUnicode

theorem readString_plain {c : Char} (notQuote : c ≠ '"') (notBackslash : c ≠ '\\') (fuel : ℕ)
    (cs : List Char) :
    readString (fuel + 1) (c :: cs) =
      if c.toNat < 32 then none
      else (readString fuel cs).map fun p => (c :: p.1, p.2) := by
  rw [readString]
  · simp [notBackslash]
  · exact notQuote
  · exact fun _ same => absurd same notBackslash
  · exact fun _ _ same => absurd same notBackslash

/-- A string that was read is read again whatever follows it, with enough fuel. -/
def StringLocal (cs rest chars : List Char) : Prop :=
  ∃ used, cs = used ++ rest ∧ EndsVisible used ∧ ∀ enough, used.length ≤ enough → ∀ more,
    readString enough (used ++ more) = some (chars, more)

theorem stringLocal_quote (rest : List Char) : StringLocal ('"' :: rest) rest [] := by
  refine ⟨['"'], rfl, endsVisible_singleton (by decide), ?_⟩
  intro enough large more
  rcases enough with _ | enough
  · simp at large
  · simp [readString]

/-- One more character in front, as it is or escaped. -/
theorem StringLocal.extend {step tail rest chars : List Char} {decoded : Char}
    (readsTail : StringLocal tail rest chars) (nonempty : step ≠ [])
    (agrees : ∀ n more, readString (n + 1) (step ++ more) =
      (readString n more).map fun p => (decoded :: p.1, p.2)) :
    StringLocal (step ++ tail) rest (decoded :: chars) := by
  rcases readsTail with ⟨used, rfl, ends, again⟩
  refine ⟨step ++ used, by simp, ends.append step, ?_⟩
  intro enough large more
  have stepLength := List.length_pos_iff.2 nonempty
  rw [List.length_append] at large
  rcases enough with _ | enough
  · omega
  · rw [List.append_assoc, agrees, again enough (by omega) more]
    rfl

theorem readString_local {fuel : ℕ} {cs rest chars : List Char}
    (read : readString fuel cs = some (chars, rest)) : StringLocal cs rest chars := by
  induction fuel generalizing cs chars with
  | zero => simp [readString] at read
  | succ fuel ih =>
      have extend : ∀ (step tail : List Char) (decoded : Char), step ≠ [] → cs = step ++ tail →
          (∀ n more, readString (n + 1) (step ++ more) =
            (readString n more).map fun p => (decoded :: p.1, p.2)) →
          StringLocal cs rest chars := by
        rintro step tail decoded nonempty rfl agrees
        rw [agrees] at read
        rcases Option.map_eq_some_iff.1 read with ⟨⟨inner, innerRest⟩, innerRead, same⟩
        cases same
        exact (ih innerRead).extend nonempty agrees
      cases cs with
      | nil => simp [readString] at read
      | cons c cs =>
          by_cases isQuote : c = '"'
          · subst isQuote
            simp only [readString, Option.some.injEq, Prod.mk.injEq] at read
            rcases read with ⟨rfl, rfl⟩
            exact stringLocal_quote cs
          by_cases isBackslash : c = '\\'
          · subst isBackslash
            cases cs with
            | nil => simp [readString] at read
            | cons e cs =>
                by_cases isUnicode : e = 'u'
                · subst isUnicode
                  cases unicode : readUnicode cs with
                  | none => simp [readString, unicode] at read
                  | some p =>
                      rcases p with ⟨decoded, tail⟩
                      rcases readUnicode_local unicode with ⟨escape, rfl, escapeAgain⟩
                      apply extend ('\\' :: 'u' :: escape) tail decoded (by simp) (by simp)
                      intro n more
                      simp only [List.cons_append, readString, escapeAgain]
                · rw [readString_escape isUnicode] at read
                  rcases Option.bind_eq_some_iff.1 read with ⟨decoded, decodes, -⟩
                  rw [← readString_escape isUnicode] at read
                  apply extend ['\\', e] cs decoded (by simp) (by simp)
                  intro n more
                  simp [readString_escape isUnicode, decodes]
          · have printable : ¬c.toNat < 32 := by
              intro control
              simp [readString_plain isQuote isBackslash, control] at read
            apply extend [c] cs c (by simp) (by simp)
            intro n more
            simp [readString_plain isQuote isBackslash, printable]

theorem readQuoted_local {cs rest : List Char} {s : String}
    (read : readQuoted cs = some (s, rest)) :
    ∃ used, cs = used ++ rest ∧ EndsVisible used ∧
      ∀ more, readQuoted (used ++ more) = some (s, more) := by
  unfold readQuoted at read
  rcases Option.map_eq_some_iff.1 read with ⟨⟨chars, tail⟩, stringRead, same⟩
  simp only [Prod.mk.injEq] at same
  rcases same with ⟨rfl, rfl⟩
  rcases readString_local stringRead with ⟨used, rfl, ends, again⟩
  refine ⟨used, rfl, ends, ?_⟩
  intro more
  rw [readQuoted, again _ (by rw [List.length_append]; omega) more]
  rfl

/-- A text that is white space only. -/
def Blank (cs : List Char) : Prop := ∀ c ∈ cs, isSpace c = true

theorem blank_nil : Blank [] := by
  intro c mem
  simp at mem

theorem exists_blank_skipSpace (cs : List Char) :
    ∃ lead, Blank lead ∧ cs = lead ++ skipSpace cs := by
  induction cs with
  | nil => exact ⟨[], blank_nil, rfl⟩
  | cons c cs ih =>
      by_cases space : isSpace c = true
      · rcases ih with ⟨lead, blank, text⟩
        refine ⟨c :: lead, ?_, ?_⟩
        · intro d mem
          rcases List.mem_cons.1 mem with rfl | mem
          · exact space
          · exact blank d mem
        · rw [skipSpace, if_pos space, List.cons_append, ← text]
      · exact ⟨[], blank_nil, by simp [skipSpace, space]⟩

theorem skipSpace_append {lead : List Char} (blank : Blank lead) (cs : List Char) :
    skipSpace (lead ++ cs) = skipSpace cs := by
  induction lead with
  | nil => rfl
  | cons c lead ih =>
      rw [List.cons_append, skipSpace, if_pos (blank c (by simp))]
      exact ih fun d mem => blank d (List.mem_cons_of_mem _ mem)

theorem skipSpace_visible {c : Char} (visible : Visible c) (cs : List Char) :
    skipSpace (c :: cs) = c :: cs := by
  have notSpace : isSpace c = false := by
    rw [isSpace]
    rcases visible with ⟨low, -⟩
    have far : ∀ d : Char, d.toNat ≤ 32 → c ≠ d := by
      rintro d small rfl
      omega
    simp [far ' ' (by decide), far '\n' (by decide), far '\r' (by decide), far '\t' (by decide)]
  simp [skipSpace, notSpace]

/-- A value reader skips the white space in front of a value. -/
theorem readValue_append {lead : List Char} (blank : Blank lead) (fuel : ℕ) (cs : List Char) :
    readValue fuel (lead ++ cs) = readValue fuel cs := by
  cases fuel with
  | zero => simp [readValue]
  | succ fuel => simp only [readValue, skipSpace_append blank]

/-- The text of a value: it begins and ends with visible characters, and the
reader with fuel of its length stops behind it. Behind a number nothing may extend
the literal. -/
structure ReadsAs (used : List Char) (value : Json) : Prop where
  starts : StartsVisible used
  ends : EndsVisible used
  again : ∀ enough, used.length ≤ enough → ∀ more, ((∃ n, value = .num n) → NumberEnd more) →
    readValue enough (used ++ more) = some (value, more)

/-- The text of the items of an array or of the entries of an object, with the
closing character. -/
structure ClosedBy {α : Type} (read : ℕ → List Char → Option (α × List Char))
    (used : List Char) (parts : α) : Prop where
  ends : EndsVisible used
  again : ∀ enough, used.length ≤ enough → ∀ more, read enough (used ++ more) = some (parts, more)

theorem startsVisible_cons {c : Char} (visible : Visible c) (tail : List Char) :
    StartsVisible (c :: tail) := ⟨c, tail, rfl, visible⟩

/-- White space and a visible delimiter cannot extend a number. -/
theorem numberEnd_delimited {lead : List Char} (blank : Blank lead) {c : Char}
    (delimits : digit? c = none ∧ c ≠ '.' ∧ c ≠ 'e' ∧ c ≠ 'E') (more : List Char) :
    NumberEnd (lead ++ c :: more) := by
  cases lead with
  | nil =>
      intro d head
      simp only [List.nil_append, List.head?_cons, Option.mem_def, Option.some.injEq] at head
      subst head
      exact delimits
  | cons space lead =>
      intro d head
      simp only [List.cons_append, List.head?_cons, Option.mem_def, Option.some.injEq] at head
      subst head
      have isSpaceHead := blank space (by simp)
      simp only [isSpace, Bool.or_eq_true, decide_eq_true_eq] at isSpaceHead
      rcases isSpaceHead with ((rfl | rfl) | rfl) | rfl <;> decide

theorem readKey_local {cs rest : List Char} {key : String}
    (read : readKey cs = some (key, rest)) :
    ∃ used, cs = used ++ rest ∧ 0 < used.length ∧
      ∀ more, readKey (used ++ more) = some (key, more) := by
  rcases exists_blank_skipSpace cs with ⟨lead, blank, text⟩
  unfold readKey at read
  split at read
  · next inner innerText =>
      split at read
      · simp at read
      · next found tail quoted =>
          split at read
          · next behind colon =>
              simp only [Option.some.injEq, Prod.mk.injEq] at read
              rcases read with ⟨rfl, rfl⟩
              rcases readQuoted_local quoted with ⟨used, rfl, -, again⟩
              rcases exists_blank_skipSpace tail with ⟨gap, gapBlank, tailText⟩
              rw [colon] at tailText
              refine ⟨lead ++ '"' :: (used ++ (gap ++ [':'])), ?_, by simp, ?_⟩
              · rw [text, innerText, tailText]
                simp
              · intro more
                unfold readKey
                rw [List.append_assoc, skipSpace_append blank]
                rw [List.cons_append, skipSpace_visible (by decide)]
                simp only [List.append_assoc, again]
                rw [skipSpace_append gapBlank, List.cons_append,
                  skipSpace_visible (by decide)]
                rfl
          · simp at read
  · simp at read

theorem isSpace_head_skipSpace {cs tail : List Char} {c : Char} (shape : skipSpace cs = c :: tail) :
    isSpace c = false := by
  induction cs with
  | nil => simp [skipSpace] at shape
  | cons d cs ih =>
      rw [skipSpace] at shape
      split at shape
      · exact ih shape
      · next notSpace =>
          rcases List.cons.inj shape with ⟨rfl, -⟩
          simpa using notSpace

/-- A reader of parts that started behind white space starts there again. -/
theorem skipSpace_again {cs used rest : List Char} (shape : skipSpace cs = used ++ rest)
    (nonempty : 0 < used.length) (more : List Char) :
    skipSpace (used ++ more) = used ++ more ∧ ∃ c tail, used = c :: tail := by
  cases used with
  | nil => simp at nonempty
  | cons c tail =>
      have notSpace := isSpace_head_skipSpace shape
      exact ⟨by simp [skipSpace, notSpace], c, tail, rfl⟩

theorem readValue_bracket (fuel : ℕ) (cs : List Char)
    (nonempty : ∀ tail, skipSpace cs ≠ ']' :: tail) :
    readValue (fuel + 1) ('[' :: cs) =
      (readItems fuel (skipSpace cs)).map fun p => (.arr p.1, p.2) := by
  simp only [readValue, skipSpace_visible (show Visible '[' by decide)]

theorem readValue_brace (fuel : ℕ) (cs : List Char)
    (nonempty : ∀ tail, skipSpace cs ≠ '}' :: tail) :
    readValue (fuel + 1) ('{' :: cs) =
      (readFields fuel (skipSpace cs)).map fun p => (.obj p.1, p.2) := by
  simp only [readValue, skipSpace_visible (show Visible '{' by decide)]

/-- A value that is written by fixed characters. -/
theorem readsAs_constant {c last : Char} (init : List Char) {value : Json} (visible : Visible c)
    (lastVisible : Visible last)
    (again : ∀ fuel more, readValue (fuel + 1) (c :: (init ++ last :: more)) = some (value, more)) :
    ReadsAs (c :: (init ++ [last])) value where
  starts := startsVisible_cons visible _
  ends := ⟨c :: init, last, rfl, lastVisible⟩
  again := by
    intro enough large more _
    rcases enough with _ | enough
    · simp at large
    · simpa using again enough more

theorem readsAs_string {used : List Char} {s : String} (ends : EndsVisible used)
    (again : ∀ more, readQuoted (used ++ more) = some (s, more)) :
    ReadsAs ('"' :: used) (.str s) where
  starts := startsVisible_cons (by decide) _
  ends := ends.cons '"'
  again := by
    intro enough large more _
    rcases enough with _ | enough
    · simp at large
    · simp [readValue, skipSpace, isSpace, again]

theorem readsAs_number {used : List Char} {n : Number} (visible : ∀ c ∈ used, Visible c)
    (head : ∃ c tail, used = c :: tail ∧ (c = '-' ∨ ∃ d, c = digitChar d))
    (again : ∀ more, NumberEnd more → readNumber (used ++ more) = some (n, more)) :
    ReadsAs used (.num n) where
  starts := by
    rcases head with ⟨c, tail, rfl, -⟩
    exact ⟨c, tail, rfl, visible c (by simp)⟩
  ends := by
    apply endsVisible_of_forall _ visible
    rcases head with ⟨c, tail, rfl, -⟩
    simp
  again := by
    rcases head with ⟨c, tail, rfl, first⟩
    intro enough large more ends
    rcases enough with _ | enough
    · simp at large
    · have literal := again more (ends ⟨n, rfl⟩)
      rw [List.cons_append] at literal ⊢
      rw [readValue_number enough first, literal]
      rfl

/-- An array or an object around its parts. -/
theorem readsAs_parts {α : Type} {read : ℕ → List Char → Option (α × List Char)} {wrap : α → Json}
    {opening closing : Char} {gap used rest cs : List Char} {parts : α}
    (visible : Visible opening)
    (opens : ∀ fuel cs, (∀ tail, skipSpace cs ≠ closing :: tail) →
      readValue (fuel + 1) (opening :: cs) =
        (read fuel (skipSpace cs)).map fun p => (wrap p.1, p.2))
    (blank : Blank gap) (shape : skipSpace cs = used ++ rest)
    (open_ : ∀ tail, skipSpace cs ≠ closing :: tail) (closed : ClosedBy read used parts) :
    ReadsAs (opening :: (gap ++ used)) (wrap parts) where
  starts := startsVisible_cons visible _
  ends := (closed.ends.append gap).cons opening
  again := by
    intro enough large more _
    rcases enough with _ | enough
    · simp at large
    · rcases skipSpace_again shape closed.ends.length_pos more with ⟨stays, c, tail, rfl⟩
      have skipped : skipSpace (gap ++ (c :: tail ++ more)) = c :: tail ++ more := by
        rw [skipSpace_append blank, stays]
      have stillOpen : ∀ other, skipSpace (gap ++ (c :: tail ++ more)) ≠ closing :: other := by
        rw [skipped]
        intro other same
        rcases List.cons.inj same with ⟨rfl, -⟩
        exact open_ _ shape
      rw [List.cons_append, List.append_assoc, opens enough _ stillOpen, skipped,
        closed.again enough (by simp at large ⊢; omega) more]
      rfl

/-- An array or an object without parts. -/
theorem readsAs_empty {opening closing : Char} {gap : List Char} {value : Json}
    (visible : Visible opening) (closes : Visible closing) (blank : Blank gap)
    (again : ∀ fuel cs tail, skipSpace cs = closing :: tail →
      readValue (fuel + 1) (opening :: cs) = some (value, tail)) :
    ReadsAs (opening :: (gap ++ [closing])) value := by
  apply readsAs_constant gap visible closes
  intro fuel more
  apply again
  rw [skipSpace_append blank, skipSpace_visible closes]

/-- A value in front of a delimiter is read again. -/
theorem ReadsAs.again_delimited {used lead gap : List Char} {value : Json}
    (readsAs : ReadsAs used value) (leadBlank : Blank lead) (gapBlank : Blank gap) {c : Char}
    (delimits : digit? c = none ∧ c ≠ '.' ∧ c ≠ 'e' ∧ c ≠ 'E') {enough : ℕ}
    (large : used.length ≤ enough) (more : List Char) :
    readValue enough (lead ++ (used ++ (gap ++ c :: more))) = some (value, gap ++ c :: more) := by
  rw [readValue_append leadBlank]
  exact readsAs.again enough large _ fun _ => numberEnd_delimited gapBlank delimits more

/-- What the readers of values return depends on the text they used alone. -/
def ValuesLocal (fuel : ℕ) : Prop :=
  ∀ cs value rest, readValue fuel cs = some (value, rest) →
    ∃ lead used, Blank lead ∧ cs = lead ++ (used ++ rest) ∧ ReadsAs used value

/-- What a reader of parts returns depends on the text it used alone. -/
def PartsLocal {α : Type} (read : ℕ → List Char → Option (α × List Char)) (fuel : ℕ) : Prop :=
  ∀ cs parts rest, read fuel cs = some (parts, rest) →
    ∃ used, cs = used ++ rest ∧ ClosedBy read used parts

section

variable {α : Type} {read : ℕ → List Char → Option (α × List Char)} {wrap : α → Json}
  {opening closing : Char} {fuel : ℕ} {cs tail rest : List Char} {parts : α} {value : Json}

theorem exists_of_map_read {β : Type} {found : Option (α × List Char)} {wrap : α → β} {whole : β}
    (read : (found.map fun p => (wrap p.1, p.2)) = some (whole, rest)) :
    ∃ part, found = some (part, rest) ∧ wrap part = whole := by
  rcases Option.map_eq_some_iff.1 read with ⟨⟨part, behind⟩, isFound, same⟩
  simp only [Prod.mk.injEq] at same
  rcases same with ⟨rfl, rfl⟩
  exact ⟨part, isFound, rfl⟩

theorem exists_used_of_parts (visible : Visible opening)
    (opens : ∀ fuel cs, (∀ tail, skipSpace cs ≠ closing :: tail) →
      readValue (fuel + 1) (opening :: cs) =
        (read fuel (skipSpace cs)).map fun p => (wrap p.1, p.2))
    (locals : PartsLocal read fuel) (shape : skipSpace cs = opening :: tail)
    (open_ : ∀ other, skipSpace tail ≠ closing :: other)
    (found : read fuel (skipSpace tail) = some (parts, rest)) :
    ∃ used, skipSpace cs = used ++ rest ∧ ReadsAs used (wrap parts) := by
  rcases exists_blank_skipSpace tail with ⟨gap, gapBlank, tailText⟩
  rcases locals _ _ _ found with ⟨used, usedText, closed⟩
  refine ⟨opening :: (gap ++ used), ?_, ?_⟩
  · rw [shape, tailText, usedText]
    simp
  · exact readsAs_parts visible opens gapBlank usedText open_ closed

theorem exists_used_of_empty (visible : Visible opening) (closes : Visible closing)
    (again : ∀ fuel cs tail, skipSpace cs = closing :: tail →
      readValue (fuel + 1) (opening :: cs) = some (value, tail))
    (shape : skipSpace cs = opening :: tail) (closed : skipSpace tail = closing :: rest) :
    ∃ used, skipSpace cs = used ++ rest ∧ ReadsAs used value := by
  rcases exists_blank_skipSpace tail with ⟨gap, gapBlank, tailText⟩
  refine ⟨opening :: (gap ++ [closing]), ?_, readsAs_empty visible closes gapBlank again⟩
  rw [shape, tailText, closed]
  simp

theorem exists_used_of_constant {c last : Char} (init : List Char) (visible : Visible c)
    (lastVisible : Visible last)
    (again : ∀ fuel more, readValue (fuel + 1) (c :: (init ++ last :: more)) = some (value, more))
    (shape : skipSpace cs = c :: (init ++ last :: rest)) :
    ∃ used, skipSpace cs = used ++ rest ∧ ReadsAs used value :=
  ⟨c :: (init ++ [last]), by simp [shape], readsAs_constant init visible lastVisible again⟩

/-- A value is read from the text behind white space. -/
theorem exists_used_of_readValue (items : PartsLocal readItems fuel)
    (fields : PartsLocal readFields fuel) (read : readValue (fuel + 1) cs = some (value, rest)) :
    ∃ used, skipSpace cs = used ++ rest ∧ ReadsAs used value := by
  unfold readValue at read
  split at read
  · next tail shape =>
      simp only [Option.some.injEq, Prod.mk.injEq] at read
      rcases read with ⟨rfl, rfl⟩
      refine exists_used_of_constant ['u', 'l'] (by decide) (by decide) ?_ shape
      simp [readValue, skipSpace, isSpace]
  · next tail shape =>
      simp only [Option.some.injEq, Prod.mk.injEq] at read
      rcases read with ⟨rfl, rfl⟩
      refine exists_used_of_constant ['r', 'u'] (by decide) (by decide) ?_ shape
      simp [readValue, skipSpace, isSpace]
  · next tail shape =>
      simp only [Option.some.injEq, Prod.mk.injEq] at read
      rcases read with ⟨rfl, rfl⟩
      refine exists_used_of_constant ['a', 'l', 's'] (by decide) (by decide) ?_ shape
      simp [readValue, skipSpace, isSpace]
  · next tail shape =>
      rcases exists_of_map_read read with ⟨s, quoted, rfl⟩
      rcases readQuoted_local quoted with ⟨used, rfl, ends, again⟩
      exact ⟨'"' :: used, shape, readsAs_string ends again⟩
  · next tail shape =>
      split at read
      · next behind closed =>
          simp only [Option.some.injEq, Prod.mk.injEq] at read
          rcases read with ⟨rfl, rfl⟩
          refine exists_used_of_empty (by decide) (by decide) ?_ shape closed
          intro fuel cs tail closes
          simp only [readValue, skipSpace_visible (show Visible '[' by decide), closes]
      · next notClosed =>
          rcases exists_of_map_read read with ⟨parts, found, rfl⟩
          exact exists_used_of_parts (by decide) readValue_bracket items shape notClosed found
  · next tail shape =>
      split at read
      · next behind closed =>
          simp only [Option.some.injEq, Prod.mk.injEq] at read
          rcases read with ⟨rfl, rfl⟩
          refine exists_used_of_empty (by decide) (by decide) ?_ shape closed
          intro fuel cs tail closes
          simp only [readValue, skipSpace_visible (show Visible '{' by decide), closes]
      · next notClosed =>
          rcases exists_of_map_read read with ⟨parts, found, rfl⟩
          exact exists_used_of_parts (by decide) readValue_brace fields shape notClosed found
  · rcases exists_of_map_read read with ⟨n, literal, rfl⟩
    rcases readNumber_local literal with ⟨used, usedText, visible, head, again⟩
    exact ⟨used, usedText, readsAs_number visible head again⟩

theorem valuesLocal_succ (items : PartsLocal readItems fuel) (fields : PartsLocal readFields fuel) :
    ValuesLocal (fuel + 1) := by
  intro cs value rest read
  rcases exists_blank_skipSpace cs with ⟨lead, blank, text⟩
  rcases exists_used_of_readValue items fields read with ⟨used, shape, readsAs⟩
  exact ⟨lead, used, blank, by rw [← shape, ← text], readsAs⟩

theorem itemsLocal_succ (values : ValuesLocal fuel) (items : PartsLocal readItems fuel) :
    PartsLocal readItems (fuel + 1) := by
  intro cs parts rest read
  simp only [readItems] at read
  split at read
  · simp at read
  · next item behind itemRead =>
    rcases values _ _ _ itemRead with ⟨lead, used, leadBlank, rfl, readsAs⟩
    rcases exists_blank_skipSpace behind with ⟨gap, gapBlank, behindText⟩
    split at read
    · next tail closes =>
      simp only [Option.some.injEq, Prod.mk.injEq] at read
      rcases read with ⟨rfl, rfl⟩
      rw [closes] at behindText
      refine ⟨lead ++ (used ++ (gap ++ [']'])), by simp [behindText], ?_, ?_⟩
      · exact (((endsVisible_singleton (by decide)).append gap).append used).append lead
      · intro enough large more
        rcases enough with _ | enough
        · simp at large
        · simp only [List.length_append] at large
          simp only [List.append_assoc, List.cons_append, List.nil_append, readItems]
          rw [readsAs.again_delimited leadBlank gapBlank (by decide)
            (by simp at large; omega) more]
          simp only [skipSpace_append gapBlank, skipSpace_visible (show Visible ']' by decide)]
    · next tail continues =>
      rcases exists_of_map_read read with ⟨others, othersRead, rfl⟩
      rcases items _ _ _ othersRead with ⟨othersUsed, rfl, closed⟩
      rw [continues] at behindText
      refine ⟨lead ++ (used ++ (gap ++ ',' :: othersUsed)), by simp [behindText], ?_, ?_⟩
      · exact (((closed.ends.cons ',').append gap).append used).append lead
      · intro enough large more
        rcases enough with _ | enough
        · simp at large
        · simp only [List.length_append, List.length_cons] at large
          simp only [List.append_assoc, List.cons_append, readItems]
          rw [readsAs.again_delimited leadBlank gapBlank (by decide) (by omega)]
          simp only [skipSpace_append gapBlank, skipSpace_visible (show Visible ',' by decide)]
          rw [closed.again enough (by omega) more]
          rfl
    · simp at read

theorem fieldsLocal_succ (values : ValuesLocal fuel) (fields : PartsLocal readFields fuel) :
    PartsLocal readFields (fuel + 1) := by
  intro cs parts rest read
  simp only [readFields] at read
  split at read
  · simp at read
  · next key afterKey keyRead =>
    rcases readKey_local keyRead with ⟨keyUsed, rfl, keyLength, keyAgain⟩
    split at read
    · simp at read
    · next value behind valueRead =>
      rcases values _ _ _ valueRead with ⟨lead, used, leadBlank, rfl, readsAs⟩
      rcases exists_blank_skipSpace behind with ⟨gap, gapBlank, behindText⟩
      split at read
      · next tail closes =>
        simp only [Option.some.injEq, Prod.mk.injEq] at read
        rcases read with ⟨rfl, rfl⟩
        rw [closes] at behindText
        refine ⟨keyUsed ++ (lead ++ (used ++ (gap ++ ['}']))), by simp [behindText], ?_, ?_⟩
        · exact ((((endsVisible_singleton (by decide)).append gap).append used).append
            lead).append keyUsed
        · intro enough large more
          rcases enough with _ | enough
          · simp at large
          · simp only [List.length_append] at large
            simp only [List.append_assoc, List.cons_append, List.nil_append, readFields, keyAgain]
            rw [readsAs.again_delimited leadBlank gapBlank (by decide)
              (by simp at large; omega) more]
            simp only [skipSpace_append gapBlank, skipSpace_visible (show Visible '}' by decide)]
      · next tail continues =>
        rcases exists_of_map_read read with ⟨others, othersRead, rfl⟩
        rcases fields _ _ _ othersRead with ⟨othersUsed, rfl, closed⟩
        rw [continues] at behindText
        refine ⟨keyUsed ++ (lead ++ (used ++ (gap ++ ',' :: othersUsed))), by simp [behindText],
          ?_, ?_⟩
        · exact ((((closed.ends.cons ',').append gap).append used).append lead).append keyUsed
        · intro enough large more
          rcases enough with _ | enough
          · simp at large
          · simp only [List.length_append, List.length_cons] at large
            simp only [List.append_assoc, List.cons_append, readFields, keyAgain]
            rw [readsAs.again_delimited leadBlank gapBlank (by decide) (by omega)]
            simp only [skipSpace_append gapBlank, skipSpace_visible (show Visible ',' by decide)]
            rw [closed.again enough (by omega) more]
            rfl
      · simp at read

end

/-- What the three readers return depends on the text they used alone. -/
theorem read_local (fuel : ℕ) :
    ValuesLocal fuel ∧ PartsLocal readItems fuel ∧ PartsLocal readFields fuel := by
  induction fuel with
  | zero => simp [ValuesLocal, PartsLocal, readValue, readItems, readFields]
  | succ fuel ih =>
      rcases ih with ⟨values, items, fields⟩
      refine ⟨valuesLocal_succ items fields, itemsLocal_succ values items, ?_⟩
      exact fieldsLocal_succ values fields

theorem blank_of_skipSpace_nil {cs : List Char} (empty : skipSpace cs = []) : Blank cs := by
  rcases exists_blank_skipSpace cs with ⟨lead, blank, text⟩
  rw [empty, List.append_nil] at text
  rw [text]
  exact blank

theorem skipSpace_of_blank {cs : List Char} (blank : Blank cs) : skipSpace cs = [] := by
  simpa [skipSpace] using skipSpace_append blank []

/-- An accepted text is the text of its value between white space. -/
theorem parse_local {cs : List Char} {value : Json} (read : parse cs = some value) :
    ∃ lead used trail, Blank lead ∧ Blank trail ∧ cs = lead ++ (used ++ trail) ∧
      ReadsAs used value := by
  unfold parse at read
  split at read
  · simp at read
  · next found rest valueRead =>
      split_ifs at read with finished
      rw [Option.some.injEq] at read
      subst read
      rcases (read_local _).1 _ _ _ valueRead with ⟨lead, used, blank, text, readsAs⟩
      exact ⟨lead, used, rest, blank, blank_of_skipSpace_nil finished, text, readsAs⟩

theorem numberEnd_of_blank {cs : List Char} (blank : Blank cs) : NumberEnd cs := by
  cases cs with
  | nil => exact numberEnd_nil
  | cons c cs =>
      intro d head
      have := numberEnd_delimited blank (c := ' ') (by decide) []
      exact this d (by simpa using head)

/-- The text of a value between white space is accepted. -/
theorem ReadsAs.parse {used lead trail : List Char} {value : Json} (readsAs : ReadsAs used value)
    (leadBlank : Blank lead) (trailBlank : Blank trail) :
    Json.parse (lead ++ (used ++ trail)) = some value := by
  unfold Json.parse
  rw [readValue_append leadBlank, readsAs.again _ (by simp only [List.length_append]; omega) trail
    fun _ => numberEnd_of_blank trailBlank]
  simp [skipSpace_of_blank trailBlank]

/-- The text of a value that is no number is not accepted with more behind it. -/
theorem ReadsAs.parse_extended {used lead more : List Char} {value : Json}
    (readsAs : ReadsAs used value) (leadBlank : Blank lead) (notNumber : ∀ n, value ≠ .num n)
    (extra : skipSpace more ≠ []) : Json.parse (lead ++ (used ++ more)) = none := by
  unfold Json.parse
  rw [readValue_append leadBlank, readsAs.again _ (by simp only [List.length_append]; omega) more
    fun isNumber => absurd isNumber.choose_spec (notNumber _)]
  simp [extra]

end Json

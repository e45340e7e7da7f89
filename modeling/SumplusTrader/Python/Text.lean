import Mathlib.Data.String.Basic
import Mathlib.Data.List.Basic
import Mathlib.Data.List.TakeWhile
import Mathlib.Data.List.DropRight

/-!
# Text operations

This file gives the string operations of a scripting language that programs
over line-oriented logs use: upper case, substring search, stripping of white
space, and the splitting of a text into lines.

A text is split by `breakLines` into the lines that are closed by a line break
and the open line that follows the last one. Appending a line to a text extends
the open line before it closes it, which is what `breakLines_append` states.

Texts are taken as they are after a file has been read with universal newlines,
so a carriage return and a newline never form one break together. Upper and
lower case are those of ASCII symbols.
-/

namespace Py

def upperChar (c : Char) : Char :=
  if 97 ≤ c.toNat ∧ c.toNat ≤ 122 then Char.ofNat (c.toNat - 32) else c

/-- Upper case of a symbol. -/
def upper (s : String) : String := String.ofList (s.toList.map upperChar)

def lowerChar (c : Char) : Char :=
  if 65 ≤ c.toNat ∧ c.toNat ≤ 90 then Char.ofNat (c.toNat + 32) else c

/-- Lower case of a symbol. -/
def lower (s : String) : String := String.ofList (s.toList.map lowerChar)

theorem upperChar_upperChar (c : Char) : upperChar (upperChar c) = upperChar c := by
  have ascii : ∀ n < 128, (Char.ofNat n).toNat = n := by decide
  by_cases lower : 97 ≤ c.toNat ∧ c.toNat ≤ 122
  · have small := ascii (c.toNat - 32) (by omega)
    rw [upperChar, upperChar, if_pos lower, if_neg (by omega)]
  · rw [upperChar, upperChar, if_neg lower, if_neg lower]

@[simp]
theorem upper_upper (s : String) : upper (upper s) = upper s := by
  simp only [upper, String.toList_ofList, List.map_map]
  congr 1
  apply List.map_congr_left
  intro c _
  exact upperChar_upperChar c

/-- One text occurs inside another. -/
def occursIn (needle : List Char) : List Char → Bool
  | [] => needle.isEmpty
  | c :: cs => needle.isPrefixOf (c :: cs) || occursIn needle cs

def contains (text needle : String) : Bool := occursIn needle.toList text.toList

/-- White space, as stripping understands it. -/
def isSpace (c : Char) : Bool :=
  (9 ≤ c.toNat && c.toNat ≤ 13) || (28 ≤ c.toNat && c.toNat ≤ 32) || c.toNat = 133 ||
    c.toNat = 160 || c.toNat = 5760 || (8192 ≤ c.toNat && c.toNat ≤ 8202) ||
    c.toNat = 8232 || c.toNat = 8233 || c.toNat = 8239 || c.toNat = 8287 || c.toNat = 12288

/-- Removes white space at both ends. -/
def strip (cs : List Char) : List Char :=
  (((cs.dropWhile isSpace).reverse).dropWhile isSpace).reverse

theorem strip_eq_nil_iff (cs : List Char) : strip cs = [] ↔ ∀ c ∈ cs, isSpace c = true := by
  rw [strip, List.reverse_eq_nil_iff, List.dropWhile_eq_nil_iff]
  constructor
  · intro stripped c mem
    by_contra visible
    rw [← List.takeWhile_append_dropWhile (p := isSpace) (l := cs)] at mem
    rcases List.mem_append.1 mem with before | behind
    · exact visible (List.mem_takeWhile_imp before)
    · exact visible (stripped c (List.mem_reverse.2 behind))
  · intro blank c mem
    exact blank c ((List.dropWhile_sublist _).subset (List.mem_reverse.1 mem))

/-- Stripping removes the white space around a text that begins and ends without. -/
theorem strip_between {lead trail init tail : List Char} {first last : Char}
    (leadBlank : ∀ c ∈ lead, isSpace c = true) (trailBlank : ∀ c ∈ trail, isSpace c = true)
    (starts : isSpace first = false) (ends : isSpace last = false)
    (shape : first :: tail = init ++ [last]) :
    strip (lead ++ (first :: tail ++ trail)) = first :: tail := by
  have front : (lead ++ (first :: tail ++ trail)).dropWhile isSpace = first :: tail ++ trail := by
    rw [List.dropWhile_append_of_pos leadBlank, List.cons_append, List.dropWhile_cons_of_neg]
    simp [starts]
  have back : ∀ c ∈ trail.reverse, isSpace c = true := by
    intro c mem
    exact trailBlank c (List.mem_reverse.1 mem)
  rw [strip, front, List.reverse_append, List.dropWhile_append_of_pos back, shape,
    List.reverse_append, List.reverse_singleton, List.singleton_append,
    List.dropWhile_cons_of_neg (by simp [ends])]
  simp

/-- Stripping leaves a non-empty beginning of a text that starts without white space. -/
theorem strip_prefix {lead tail : List Char} {first : Char}
    (leadBlank : ∀ c ∈ lead, isSpace c = true) (starts : isSpace first = false) :
    strip (lead ++ first :: tail) <+: first :: tail ∧ strip (lead ++ first :: tail) ≠ [] := by
  constructor
  · rw [strip, List.dropWhile_append_of_pos leadBlank, List.dropWhile_cons_of_neg (by simp [starts])]
    exact List.rdropWhile_prefix isSpace _
  · rw [Ne, strip_eq_nil_iff]
    intro blank
    have space := blank first (by simp)
    rw [starts] at space
    cases space

/-- A character that ends a line. -/
def isLineBreak (c : Char) : Bool :=
  (10 ≤ c.toNat && c.toNat ≤ 13) || (28 ≤ c.toNat && c.toNat ≤ 30) || c.toNat = 133 ||
    c.toNat = 8232 || c.toNat = 8233

/-- Puts a character in front of the first line. -/
def consLine (c : Char) : List (List Char) × List Char → List (List Char) × List Char
  | ([], openLine) => ([], c :: openLine)
  | (line :: lines, openLine) => ((c :: line) :: lines, openLine)

/-- The lines closed by a line break, and the open line after the last one. -/
def breakLines : List Char → List (List Char) × List Char
  | [] => ([], [])
  | c :: cs =>
      if isLineBreak c then ([] :: (breakLines cs).1, (breakLines cs).2)
      else consLine c (breakLines cs)

/-- The lines of a text; an empty open line is not one. -/
def splitlines (cs : List Char) : List (List Char) :=
  if (breakLines cs).2 = [] then (breakLines cs).1
  else (breakLines cs).1 ++ [(breakLines cs).2]

theorem splitlines_of_open_nil {cs : List Char} (closed : (breakLines cs).2 = []) :
    splitlines cs = (breakLines cs).1 := if_pos closed

theorem splitlines_of_open_ne_nil {cs : List Char} (unclosed : (breakLines cs).2 ≠ []) :
    splitlines cs = (breakLines cs).1 ++ [(breakLines cs).2] := if_neg unclosed

/-- A text without a break is one open line. -/
theorem breakLines_unbroken {line : List Char} (unbroken : ∀ c ∈ line, isLineBreak c = false) :
    breakLines line = ([], line) := by
  induction line with
  | nil => rfl
  | cons c line ih =>
      have notBreak : isLineBreak c = false := unbroken c (by simp)
      have rest := ih (fun c mem => unbroken c (List.mem_cons_of_mem _ mem))
      simp only [breakLines, notBreak, Bool.false_eq_true, if_false, rest, consLine]

/-- Text without a break extends the open line. -/
theorem breakLines_append_unbroken (cs : List Char) {more : List Char}
    (unbroken : ∀ c ∈ more, isLineBreak c = false) :
    breakLines (cs ++ more) = ((breakLines cs).1, (breakLines cs).2 ++ more) := by
  induction cs with
  | nil => simp [breakLines, breakLines_unbroken unbroken]
  | cons c cs ih =>
      simp only [List.cons_append, breakLines, ih]
      by_cases isBreak : isLineBreak c
      · simp only [isBreak, if_true]
      · simp only [isBreak, Bool.false_eq_true, if_false]
        rcases breakLines cs with ⟨_ | ⟨line, lines⟩, openLine⟩ <;> rfl

/-- A line without a break inside stays in one piece. -/
theorem breakLines_line {line : List Char} (unbroken : ∀ c ∈ line, isLineBreak c = false) :
    breakLines (line ++ ['\n']) = ([line], []) := by
  induction line with
  | nil => decide
  | cons c line ih =>
      have notBreak : isLineBreak c = false := unbroken c (by simp)
      have rest := ih (fun c mem => unbroken c (List.mem_cons_of_mem _ mem))
      simp only [List.cons_append, breakLines, notBreak, Bool.false_eq_true, if_false, rest,
        consLine]

/-- Appending a line to a text extends the open line of the text and closes it. -/
theorem breakLines_append (cs : List Char) {line : List Char}
    (unbroken : ∀ c ∈ line, isLineBreak c = false) :
    breakLines (cs ++ (line ++ ['\n'])) =
      ((breakLines cs).1 ++ [(breakLines cs).2 ++ line], []) := by
  induction cs with
  | nil => simpa [breakLines] using breakLines_line unbroken
  | cons c cs ih =>
      simp only [List.cons_append, breakLines, ih]
      by_cases isBreak : isLineBreak c
      · simp only [isBreak, if_true, List.cons_append]
      · simp only [isBreak, Bool.false_eq_true, if_false]
        rcases breakLines cs with ⟨_ | ⟨line, lines⟩, openLine⟩ <;> rfl

end Py

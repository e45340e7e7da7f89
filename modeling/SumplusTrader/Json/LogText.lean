import SumplusTrader.Json.Lines

/-!
# Whole logs, and what is left of a torn one

This file gives the text of a log that is written in one piece, and says what its beginnings
read as. A beginning that stops within a line cannot be read, and one that stops behind a line
reads as the values up to there. So a log that lost a part of its text and can still be read has
fewer values, or has only lost its last newline (`readLines_take`).
-/

namespace Json

/-- The text of a log with one line for each value. -/
def logText (values : List Json) : List Char :=
  values.flatMap fun value => render .spaced value ++ ['\n']

/-- The value is an object without repeated keys. -/
def IsRecord (value : Json) : Prop := (∃ fields, value = .obj fields) ∧ value.DistinctKeys

variable {values kept : List Json} {value : Json} {cut : ℕ}

@[simp]
theorem logText_nil : logText [] = [] := rfl

theorem logText_concat (values : List Json) (value : Json) :
    logText (values ++ [value]) = appendLine (logText values) value := by
  simp [logText, appendLine]

@[simp]
theorem openLine_logText (values : List Json) : openLine (logText values) = [] := by
  rcases List.eq_nil_or_concat' values with rfl | ⟨values, value, rfl⟩
  · rfl
  · rw [logText_concat, openLine_appendLine]

theorem blank_openLine_logText (values : List Json) : Blank (openLine (logText values)) := by
  rw [openLine_logText]
  exact blank_nil

/-- A log reads as the values that were written. -/
theorem readLines_logText (records : ∀ value ∈ values, IsRecord value) :
    readLines (logText values) = some values := by
  induction values using List.reverseRecOn with
  | nil => rfl
  | append_singleton values value ih =>
      rw [logText_concat]
      apply readLines_appendLine
      · apply ih
        intro other mem
        exact records other (List.mem_append_left _ mem)
      · exact blank_openLine_logText values
      · exact (records value (by simp)).2

/-- A beginning of a log ends within a line, or right before its newline. -/
theorem exists_torn_line (short : cut < (logText values).length) :
    ∃ before value after torn, values = before ++ value :: after ∧
      torn <+: render .spaced value ∧ (logText values).take cut = logText before ++ torn ∧
      cut = (logText before).length + torn.length := by
  induction values using List.reverseRecOn with
  | nil => simp at short
  | append_singleton values value ih =>
      rw [logText_concat, appendLine] at short ⊢
      rcases Nat.lt_or_ge cut (logText values).length with inside | behind
      · rcases ih inside with ⟨before, other, after, torn, rfl, begins, taken, length⟩
        refine ⟨before, other, after ++ [value], torn, by simp, begins, ?_, length⟩
        rw [List.take_append_of_le_length inside.le, taken]
      · rw [List.length_append, List.length_append, List.length_singleton] at short
        refine ⟨values, value, [], (render .spaced value).take (cut - (logText values).length), rfl,
          List.take_prefix _ _, ?_, ?_⟩
        · rw [List.take_append, List.take_of_length_le behind,
            List.take_append_of_le_length (by omega)]
        · rw [List.length_take]
          omega

/-- A proper beginning of a line hides the log. -/
theorem readLines_torn {torn : List Char} (isRecord : IsRecord value) (nonempty : torn ≠ [])
    (begins : torn <+: render .spaced value) (proper : torn ≠ render .spaced value) :
    readLines (logText values ++ torn) = none := by
  rcases isRecord.1 with ⟨fields, rfl⟩
  cases read : readLines (logText values ++ torn) with
  | none => rfl
  | some kept =>
      have hidden := lastLine_torn (blank_openLine_logText values) nonempty begins proper
      rw [lastLine_of_readLines read] at hidden
      cases hidden

/-- A log whose last line only lacks its newline is read in full. -/
theorem readLines_unclosed {text : List Char} (read : readLines text = some values)
    (blank : Blank (openLine text)) {fields : List (String × Json)}
    (distinct : (Json.obj fields).DistinctKeys) :
    readLines (text ++ render .spaced (.obj fields)) = some (values ++ [.obj fields]) := by
  have unbroken := render_unbroken .spaced (.obj fields)
  rcases render_obj_head .spaced fields with ⟨body, shape⟩
  have nonblank : Py.strip (openLine text ++ render .spaced (.obj fields)) ≠ [] := by
    rw [shape]
    exact (Py.strip_prefix (isSpace_of_blank blank) (by decide)).2
  rw [readLines, nonblankLines_eq, if_pos ((Py.strip_eq_nil_iff _).2 (isSpace_of_blank blank)),
    List.append_nil] at read
  rw [readLines, nonblankLines_eq, closedNonblank_append unbroken, openLine_append unbroken,
    if_neg nonblank]
  apply mapM_append_eq_some read
  simp [loadsLine_render blank distinct]

/-- **What is left of a torn log**: if it can be read, it has fewer values, or it has lost its last
newline only. -/
theorem readLines_take (records : ∀ value ∈ values, IsRecord value)
    (short : cut < (logText values).length)
    (read : readLines ((logText values).take cut) = some kept) :
    kept.length < values.length ∨
      kept = values ∧ ¬Blank (openLine ((logText values).take cut)) := by
  rcases exists_torn_line short with ⟨before, value, after, torn, rfl, begins, taken, -⟩
  have isRecord : IsRecord value := records value (by simp)
  have earlier : ∀ other ∈ before, IsRecord other := by
    intro other mem
    exact records other (List.mem_append_left _ mem)
  rw [taken] at read ⊢
  rcases eq_or_ne torn [] with rfl | nonempty
  · left
    rw [List.append_nil, readLines_logText earlier, Option.some.injEq] at read
    rw [← read]
    simp
  · by_cases whole : torn = render .spaced value
    · rcases isRecord with ⟨⟨fields, rfl⟩, distinct⟩
      rw [whole, readLines_unclosed (readLines_logText earlier) (blank_openLine_logText before)
        distinct, Option.some.injEq] at read
      rw [← read]
      rcases after with _ | ⟨next, after⟩
      · right
        refine ⟨rfl, ?_⟩
        rcases render_obj_head .spaced fields with ⟨body, shape⟩
        rw [whole, openLine_append (render_unbroken .spaced _), openLine_logText, shape]
        intro blank
        exact absurd (blank '{' (by simp)) (by decide)
      · left
        simp
    · rw [readLines_torn isRecord nonempty begins whole] at read
      cases read

end Json

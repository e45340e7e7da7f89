import SumplusTrader.Json.Locality
import SumplusTrader.Python.Each
import SumplusTrader.Python.Text

/-!
# Logs of JSON lines

This file models a log file that holds one JSON value a line. Appending writes
the text of a value and a newline behind whatever the file ends with; reading
parses every line that is not blank.

Appending is faithful when the file ends with a line break, or with an open line
of JSON white space (`readLines_appendLine`). Behind any other open line an
object spoils the log (`unreadable_appendLine_of_open`), and it stays unreadable
whatever else is appended.
-/

namespace Json

def loadsLine (line : List Char) : Option Json := (parse line).map dedupe

def nonblankLines (text : List Char) : List (List Char) :=
  (Py.splitlines text).filter fun line => Py.strip line ≠ []

/-- The values of all lines, when every line that is not blank is readable. -/
def readLines (text : List Char) : Option (List Json) := (nonblankLines text).mapM loadsLine

/-- The value of the last line, read after stripping the lines one by one. -/
def lastLine (text : List Char) : Option (Option Json) :=
  (nonblankLines text).foldlM (fun _ line => (loadsLine (Py.strip line)).map some) none

/-- The text after a value has been appended in a line of its own. -/
def appendLine (text : List Char) (value : Json) : List Char :=
  text ++ (render .spaced value ++ ['\n'])

def Printable (c : Char) : Prop := 32 ≤ c.toNat ∧ c.toNat < 127

instance (c : Char) : Decidable (Printable c) := inferInstanceAs (Decidable (_ ∧ _))

def AllPrintable (cs : List Char) : Prop := ∀ c ∈ cs, Printable c

instance (cs : List Char) : Decidable (AllPrintable cs) :=
  decidable_of_iff (cs.all (fun c => decide (Printable c)) = true) (by simp [AllPrintable])

theorem AllPrintable.append {cs ds : List Char} (left : AllPrintable cs)
    (right : AllPrintable ds) : AllPrintable (cs ++ ds) := by
  intro c mem
  rcases List.mem_append.1 mem with mem | mem
  · exact left c mem
  · exact right c mem

theorem AllPrintable.cons {cs : List Char} {c : Char} (head : Printable c)
    (tail : AllPrintable cs) : AllPrintable (c :: cs) := by
  intro d mem
  rcases List.mem_cons.1 mem with rfl | mem
  · exact head
  · exact tail d mem

theorem Visible.printable {c : Char} (visible : Visible c) : Printable c :=
  ⟨visible.1.le, visible.2⟩

theorem allPrintable_natText (n : ℕ) : AllPrintable (natText n) :=
  fun _ mem => (visible_of_mem_map_digitChar mem).printable

theorem allPrintable_intText (n : ℤ) : AllPrintable (intText n) := by
  unfold intText
  split
  · exact (allPrintable_natText _).cons (by decide)
  · exact allPrintable_natText _

theorem allPrintable_expText (e : ℤ) : AllPrintable (expText e) := by
  simp only [expText]
  apply AllPrintable.cons (by decide)
  apply AllPrintable.cons
  · split <;> decide
  · split
    · exact (allPrintable_natText _).cons (by decide)
    · exact allPrintable_natText _

theorem allPrintable_number (n : Number) : AllPrintable n.text := by
  cases n with
  | int n => exact allPrintable_intText n
  | float lit =>
      rcases lit with ⟨neg, whole, frac, exp, fractional⟩
      simp only [Number.text, FloatLit.text]
      apply AllPrintable.append
      · cases neg with
        | true =>
            intro c mem
            rw [if_pos rfl, List.mem_singleton] at mem
            subst mem
            decide
        | false => simp [AllPrintable]
      · apply (allPrintable_natText whole).append
        apply AllPrintable.append
        · exact fun _ mem => (visible_of_mem_fracText mem).printable
        · cases exp with
          | none => simp [optExpText, AllPrintable]
          | some e => exact allPrintable_expText e

theorem allPrintable_unitEscape (n : ℕ) : AllPrintable (unitEscape n) := by
  have hex : ∀ d : Fin 16, Printable (hexChar d) := by decide
  simp [AllPrintable, unitEscape, hex, show Printable '\\' by decide, show Printable 'u' by decide]

theorem allPrintable_charText (c : Char) : AllPrintable (charText c) := by
  have fixed : AllPrintable ['\\', '"'] ∧ AllPrintable ['\\', '\\'] ∧
      AllPrintable ['\\', 'n'] ∧ AllPrintable ['\\', 'r'] ∧ AllPrintable ['\\', 't'] ∧
      AllPrintable ['\\', 'b'] ∧ AllPrintable ['\\', 'f'] := by
    decide
  unfold charText
  split_ifs with _ _ _ _ _ _ _ plain small
  · exact fixed.1
  · exact fixed.2.1
  · exact fixed.2.2.1
  · exact fixed.2.2.2.1
  · exact fixed.2.2.2.2.1
  · exact fixed.2.2.2.2.2.1
  · exact fixed.2.2.2.2.2.2
  · intro d mem
    rw [List.mem_singleton] at mem
    subst mem
    exact plain
  · exact allPrintable_unitEscape _
  · exact (allPrintable_unitEscape _).append (allPrintable_unitEscape _)

theorem allPrintable_stringText (s : String) : AllPrintable (stringText s) := by
  rw [stringText_cons]
  apply AllPrintable.cons (by decide)
  apply AllPrintable.append
  · intro c mem
    rcases List.mem_flatMap.1 mem with ⟨d, -, inside⟩
    exact allPrintable_charText d c inside
  · exact AllPrintable.cons (by decide) (by simp [AllPrintable])

theorem allPrintable_gap (layout : Layout) : AllPrintable layout.gap := by
  cases layout with
  | compact => simp [Layout.gap, AllPrintable]
  | spaced => exact AllPrintable.cons (by decide) (by simp [AllPrintable])

mutual

theorem allPrintable_render (layout : Layout) : ∀ value : Json, AllPrintable (render layout value)
  | .null => by
      simp only [render]
      decide
  | .bool true => by
      simp only [render]
      decide
  | .bool false => by
      simp only [render]
      decide
  | .num n => allPrintable_number n
  | .str s => allPrintable_stringText s
  | .arr [] => by
      simp only [render]
      decide
  | .arr (item :: items) =>
      ((allPrintable_render layout item).append
        (allPrintable_renderItems layout items)).cons (by decide)
  | .obj [] => by
      simp only [render]
      decide
  | .obj ((key, value) :: fields) =>
      ((allPrintable_stringText key).append (((allPrintable_gap layout).append
        ((allPrintable_render layout value).append
          (allPrintable_renderFields layout fields))).cons (by decide))).cons (by decide)

theorem allPrintable_renderItems (layout : Layout) :
    ∀ items : List Json, AllPrintable (renderItems layout items)
  | [] => by
      simp only [renderItems]
      decide
  | item :: items =>
      ((allPrintable_gap layout).append ((allPrintable_render layout item).append
        (allPrintable_renderItems layout items))).cons (by decide)

theorem allPrintable_renderFields (layout : Layout) :
    ∀ fields : List (String × Json), AllPrintable (renderFields layout fields)
  | [] => by
      simp only [renderFields]
      decide
  | (key, value) :: fields =>
      ((allPrintable_gap layout).append ((allPrintable_stringText key).append
        (((allPrintable_gap layout).append ((allPrintable_render layout value).append
          (allPrintable_renderFields layout fields))).cons (by decide)))).cons (by decide)

end

theorem Printable.not_isLineBreak {c : Char} (printable : Printable c) :
    Py.isLineBreak c = false := by
  rcases printable with ⟨low, high⟩
  simp [Py.isLineBreak]
  omega

theorem Visible.not_isSpace {c : Char} (visible : Visible c) : Py.isSpace c = false := by
  rcases visible with ⟨low, high⟩
  simp [Py.isSpace]
  omega

/-- A rendered text stays in one line. -/
theorem render_unbroken (layout : Layout) (value : Json) :
    ∀ c ∈ render layout value, Py.isLineBreak c = false :=
  fun c mem => (allPrintable_render layout value c mem).not_isLineBreak

theorem isSpace_of_blank {cs : List Char} (blank : Blank cs) :
    ∀ c ∈ cs, Py.isSpace c = true := by
  intro c mem
  have space := blank c mem
  simp only [isSpace, Bool.or_eq_true, decide_eq_true_eq] at space
  rcases space with ((rfl | rfl) | rfl) | rfl <;> decide

theorem ReadsAs.strip {used lead trail : List Char} {value : Json} (readsAs : ReadsAs used value)
    (leadBlank : Blank lead) (trailBlank : Blank trail) :
    Py.strip (lead ++ (used ++ trail)) = used := by
  rcases readsAs.starts with ⟨first, tail, rfl, firstVisible⟩
  rcases readsAs.ends with ⟨init, last, shape, lastVisible⟩
  exact Py.strip_between (isSpace_of_blank leadBlank) (isSpace_of_blank trailBlank)
    firstVisible.not_isSpace lastVisible.not_isSpace shape

/-- Stripping a readable line does not change its value. -/
theorem loadsLine_strip {line : List Char} {value : Json} (read : loadsLine line = some value) :
    loadsLine (Py.strip line) = some value := by
  rcases Option.map_eq_some_iff.1 read with ⟨raw, parsed, rfl⟩
  rcases parse_local parsed with ⟨lead, used, trail, leadBlank, trailBlank, rfl, readsAs⟩
  have bare := @ReadsAs.parse used [] [] raw readsAs blank_nil blank_nil
  rw [List.nil_append, List.append_nil] at bare
  rw [readsAs.strip leadBlank trailBlank, loadsLine, bare]
  rfl

theorem foldlM_last_of_mapM {lines : List (List Char)} {values : List Json}
    (read : lines.mapM loadsLine = some values) (initial : Option Json) :
    lines.foldlM (fun _ line => (loadsLine (Py.strip line)).map some) initial =
      some (values.getLast?.or initial) := by
  induction lines generalizing values initial with
  | nil =>
      simp only [List.mapM_nil, pure, Option.some.injEq] at read
      subst read
      rfl
  | cons line lines ih =>
      rcases exists_cons_of_mapM read with ⟨value, rest, first, others, rfl⟩
      rw [List.foldlM_cons, loadsLine_strip first]
      simp only [Option.map_some, Option.bind_eq_bind, Option.bind_some]
      rw [ih others, List.getLast?_cons]
      cases rest.getLast? <;> rfl

/-- The last line of a readable log is its last value. -/
theorem lastLine_of_readLines {text : List Char} {values : List Json}
    (read : readLines text = some values) : lastLine text = some values.getLast? := by
  rw [lastLine, foldlM_last_of_mapM read]
  simp

@[simp]
theorem readLines_nil : readLines [] = some [] := rfl

/-- The part of a text behind its last line break. -/
def openLine (text : List Char) : List Char := (Py.breakLines text).2

/-- The lines of a text that are closed by a line break. -/
def closedLines (text : List Char) : List (List Char) := (Py.breakLines text).1

theorem breakLines_appendLine (text : List Char) (value : Json) :
    Py.breakLines (appendLine text value) =
      (closedLines text ++ [openLine text ++ render .spaced value], []) :=
  Py.breakLines_append text (render_unbroken .spaced value)

@[simp]
theorem openLine_appendLine (text : List Char) (value : Json) :
    openLine (appendLine text value) = [] := by
  rw [openLine, breakLines_appendLine]

theorem splitlines_eq (text : List Char) :
    Py.splitlines text = closedLines text ++ if openLine text = [] then [] else [openLine text] := by
  by_cases closed : openLine text = []
  · rw [Py.splitlines_of_open_nil closed, if_pos closed, List.append_nil, closedLines]
  · rw [Py.splitlines_of_open_ne_nil closed, if_neg closed, closedLines, openLine]

/-- The closed lines that are not blank. -/
def closedNonblank (text : List Char) : List (List Char) :=
  (closedLines text).filter fun line => Py.strip line ≠ []

theorem nonblankLines_eq (text : List Char) :
    nonblankLines text = closedNonblank text ++
      if Py.strip (openLine text) = [] then [] else [openLine text] := by
  rw [nonblankLines, splitlines_eq, List.filter_append, closedNonblank]
  congr 1
  by_cases closed : openLine text = []
  · simp [closed, Py.strip]
  · by_cases blank : Py.strip (openLine text) = []
    · simp [closed, blank]
    · simp [closed, blank]

theorem closedNonblank_appendLine (text : List Char) (value : Json) :
    closedNonblank (appendLine text value) =
      closedNonblank text ++ [openLine text ++ render .spaced value] := by
  rcases render_head .spaced value with ⟨c, cs, shape, notSpace, -⟩
  have visible : ¬Py.isSpace c = true := by
    have printable := allPrintable_render .spaced value c (by simp [shape])
    rcases printable with ⟨low, high⟩
    have notBlank : c.toNat ≠ 32 := by
      intro blank
      have : c = ' ' := by
        rw [← Char.ofNat_toNat c, blank]
      subst this
      exact absurd notSpace (by decide)
    rw [Visible.not_isSpace ⟨by omega, high⟩]
    simp
  have nonblank : Py.strip (openLine text ++ render .spaced value) ≠ [] := by
    intro stripped
    exact visible ((Py.strip_eq_nil_iff _).1 stripped c (by simp [shape]))
  rw [closedNonblank, closedLines, breakLines_appendLine, List.filter_append,
    List.filter_cons_of_pos (by simpa using nonblank)]
  rfl

theorem nonblankLines_appendLine (text : List Char) (value : Json) :
    nonblankLines (appendLine text value) =
      closedNonblank text ++ [openLine text ++ render .spaced value] := by
  rw [nonblankLines_eq, openLine_appendLine, closedNonblank_appendLine]
  simp [Py.strip]

theorem loadsLine_render {lead : List Char} (blank : Blank lead) {value : Json}
    (distinct : value.DistinctKeys) : loadsLine (lead ++ render .spaced value) = some value := by
  rcases parse_local (parse_render .spaced value) with
    ⟨front, used, trail, frontBlank, trailBlank, shape, readsAs⟩
  have together : Blank (lead ++ front) := by
    intro c mem
    rcases List.mem_append.1 mem with mem | mem
    · exact blank c mem
    · exact frontBlank c mem
  rw [loadsLine, shape, ← List.append_assoc, readsAs.parse together trailBlank, Option.map_some,
    dedupe_eq_self value distinct]

theorem mapM_append_eq_some {lines others : List (List Char)} {values moreValues : List Json}
    (read : lines.mapM loadsLine = some values) (readMore : others.mapM loadsLine = some moreValues) :
    (lines ++ others).mapM loadsLine = some (values ++ moreValues) := by
  simp [List.mapM_append, read, readMore]

/-- A value appended behind a blank open line is read back as the last one. -/
theorem readLines_appendLine {text : List Char} {values : List Json} {value : Json}
    (read : readLines text = some values) (blank : Blank (openLine text))
    (distinct : value.DistinctKeys) :
    readLines (appendLine text value) = some (values ++ [value]) := by
  rw [readLines, nonblankLines_eq, if_pos ((Py.strip_eq_nil_iff _).2 (isSpace_of_blank blank)),
    List.append_nil] at read
  rw [readLines, nonblankLines_appendLine]
  apply mapM_append_eq_some read
  simp [loadsLine_render blank distinct]

/-- A closed line of the log cannot be read. -/
def Unreadable (text : List Char) : Prop := (closedNonblank text).mapM loadsLine = none

theorem mapM_append_eq_none {lines : List (List Char)} (spoiled : lines.mapM loadsLine = none)
    (others : List (List Char)) : (lines ++ others).mapM loadsLine = none := by
  simp [List.mapM_append, spoiled]

theorem Unreadable.readLines {text : List Char} (unreadable : Unreadable text) :
    Json.readLines text = none := by
  rw [Json.readLines, nonblankLines_eq]
  exact mapM_append_eq_none unreadable _

theorem Unreadable.appendLine {text : List Char} (unreadable : Unreadable text) (value : Json) :
    Unreadable (Json.appendLine text value) := by
  rw [Unreadable, closedNonblank_appendLine]
  exact mapM_append_eq_none unreadable _

/-- No JSON value starts with a character that is white space elsewhere only. -/
theorem parse_foreign_space {lead : List Char} (blank : Blank lead) {c : Char}
    (foreign : isSpace c = false) (space : Py.isSpace c = true) (cs : List Char) :
    parse (lead ++ c :: cs) = none := by
  have notVisible : ∀ d, Visible d → c ≠ d := by
    rintro d visible rfl
    rw [visible.not_isSpace] at space
    exact absurd space (by decide)
  have noDigit : digit? c = none := by
    cases isDigit : digit? c with
    | none => rfl
    | some d => exact absurd (eq_digitChar isDigit) (notVisible _ (visible_digitChar d))
  have noNumber : readNumber (c :: cs) = none := by
    unfold readNumber
    split
    · next same => exact absurd (List.cons.inj same).1 (notVisible '-' (by decide))
    · simp [readUnsigned, spanDigits, noDigit]
  have noValue : ∀ fuel, readValue (fuel + 1) (c :: cs) = none := by
    intro fuel
    have stays : skipSpace (c :: cs) = c :: cs := by simp [skipSpace, foreign]
    unfold readValue
    rw [stays]
    split
    · next same => exact absurd (List.cons.inj same).1 (notVisible 'n' (by decide))
    · next same => exact absurd (List.cons.inj same).1 (notVisible 't' (by decide))
    · next same => exact absurd (List.cons.inj same).1 (notVisible 'f' (by decide))
    · next same => exact absurd (List.cons.inj same).1 (notVisible '"' (by decide))
    · next same => exact absurd (List.cons.inj same).1 (notVisible '[' (by decide))
    · next same => exact absurd (List.cons.inj same).1 (notVisible '{' (by decide))
    · rw [noNumber]
      rfl
  unfold parse
  rw [readValue_append blank, noValue]

/-- Nothing can be written behind an open line that is not white space, unless it
begins with white space. -/
theorem loadsLine_open_append_eq_none {text : List Char} {values : List Json}
    (read : readLines text = some values) (noNumbers : ∀ value ∈ values, ∀ n, value ≠ .num n)
    (notBlank : ¬Blank (openLine text)) {first : Char} (notSpace : isSpace first = false)
    (more : List Char) : loadsLine (openLine text ++ first :: more) = none := by
  by_cases stripped : Py.strip (openLine text) = []
  · rcases exists_blank_skipSpace (openLine text) with ⟨lead, leadBlank, shape⟩
    cases rest : skipSpace (openLine text) with
    | nil => exact absurd (blank_of_skipSpace_nil rest) notBlank
    | cons c cs =>
        have space := (Py.strip_eq_nil_iff _).1 stripped c (by rw [shape, rest]; simp)
        rw [rest] at shape
        rw [shape, List.append_assoc, List.cons_append, loadsLine,
          parse_foreign_space leadBlank (isSpace_head_skipSpace rest) space]
        rfl
  · rw [readLines, nonblankLines_eq, if_neg stripped, List.mapM_append] at read
    rcases Option.bind_eq_some_iff.1 read with ⟨closedValues, -, read⟩
    rcases Option.bind_eq_some_iff.1 read with ⟨openValues, openRead, read⟩
    simp only [pure, Option.some.injEq] at read
    rcases exists_cons_of_mapM openRead with ⟨last, rest, lastRead, -, rfl⟩
    have mem : last ∈ values := by
      rw [← read]
      simp
    rcases Option.map_eq_some_iff.1 lastRead with ⟨raw, parsed, rfl⟩
    rcases parse_local parsed with ⟨lead, used, trail, leadBlank, trailBlank, shape, readsAs⟩
    have notNumber : ∀ n, raw ≠ .num n := by
      rintro n rfl
      exact noNumbers _ mem n rfl
    have extra : skipSpace (trail ++ first :: more) ≠ [] := by
      rw [skipSpace_append trailBlank]
      simp [skipSpace, notSpace]
    rw [shape, List.append_assoc, List.append_assoc, loadsLine,
      readsAs.parse_extended leadBlank notNumber extra]
    rfl

theorem unreadable_appendLine_of_open {text : List Char} {values : List Json}
    (read : readLines text = some values) (noNumbers : ∀ value ∈ values, ∀ n, value ≠ .num n)
    (notBlank : ¬Blank (openLine text)) (value : Json) :
    Unreadable (appendLine text value) := by
  rcases render_head .spaced value with ⟨first, more, shape, notSpace, -⟩
  have spoiled := loadsLine_open_append_eq_none read noNumbers notBlank notSpace more
  rw [← shape] at spoiled
  rw [Unreadable, closedNonblank_appendLine, List.mapM_append]
  cases (closedNonblank text).mapM loadsLine <;> simp [spoiled]

theorem render_obj_head (layout : Layout) (fields : List (String × Json)) :
    ∃ body, render layout (.obj fields) = '{' :: body := by
  cases fields with
  | nil => exact ⟨['}'], by simp [render]⟩
  | cons field fields => exact ⟨_, by rw [render]⟩

/-- Behind an opening brace no number is read. -/
theorem readValue_brace_ne_num (fuel : ℕ) (cs rest : List Char) (n : Number) :
    readValue fuel ('{' :: cs) ≠ some (.num n, rest) := by
  intro read
  cases fuel with
  | zero => simp [readValue] at read
  | succ fuel =>
      simp only [readValue, skipSpace_visible (show Visible '{' by decide)] at read
      split at read
      · simp at read
      · rcases Option.map_eq_some_iff.1 read with ⟨found, -, same⟩
        simp at same

/-- An accepted text that begins an object text is the whole object text. -/
theorem parse_of_prefix_object {layout : Layout} {fields : List (String × Json)}
    {first : Char} {tail : List Char} {value : Json}
    (torn : first :: tail <+: render layout (.obj fields))
    (read : parse (first :: tail) = some value) :
    first :: tail = render layout (.obj fields) := by
  rcases torn with ⟨rest, whole⟩
  rcases render_obj_head layout fields with ⟨body, shape⟩
  have brace : first = '{' := by
    rw [shape] at whole
    exact (List.cons.inj whole).1
  subst brace
  rcases parse_local read with ⟨lead, used, trail, leadBlank, -, text, readsAs⟩
  rcases readsAs.starts with ⟨c, behind, rfl, -⟩
  have noLead : lead = [] := by
    cases lead with
    | nil => rfl
    | cons d lead =>
        have space := leadBlank d (by simp)
        rw [← (List.cons.inj text).1] at space
        exact absurd space (by decide)
  subst noLead
  rw [List.nil_append, List.cons_append, List.cons.injEq] at text
  rcases text with ⟨rfl, rfl⟩
  have notNumber : ¬∃ n, value = .num n := by
    rintro ⟨n, rfl⟩
    have again := readsAs.again _ (Nat.le_succ _) [] fun _ => numberEnd_nil
    exact readValue_brace_ne_num _ _ _ _ again
  have enough := size_le_length_render layout (.obj fields)
  have again := readsAs.again (('{' :: behind).length + (render layout (.obj fields)).length)
    (by omega) (trail ++ rest) fun isNumber => absurd isNumber notNumber
  have direct := @readValue_render layout (.obj fields)
    (('{' :: behind).length + (render layout (.obj fields)).length) [] (by omega) numberEnd_nil
  have split : '{' :: behind ++ (trail ++ rest) = render layout (.obj fields) := by
    rw [← whole]
    simp
  rw [List.append_nil] at direct
  rw [split] at again
  have same := again.symm.trans direct
  simp only [Option.some.injEq, Prod.mk.injEq, List.append_eq_nil_iff] at same
  rw [← whole, same.2.2, List.append_nil]

theorem openLine_append {text more : List Char}
    (unbroken : ∀ c ∈ more, Py.isLineBreak c = false) :
    openLine (text ++ more) = openLine text ++ more := by
  rw [openLine, Py.breakLines_append_unbroken text unbroken, openLine]

theorem closedNonblank_append {text more : List Char}
    (unbroken : ∀ c ∈ more, Py.isLineBreak c = false) :
    closedNonblank (text ++ more) = closedNonblank text := by
  rw [closedNonblank, closedLines, Py.breakLines_append_unbroken text unbroken, closedNonblank,
    closedLines]

/-- An open line that cannot be read hides every value of the log. -/
theorem lastLine_eq_none {text : List Char} (nonblank : Py.strip (openLine text) ≠ [])
    (torn : loadsLine (Py.strip (openLine text)) = none) : lastLine text = none := by
  rw [lastLine, nonblankLines_eq, if_neg nonblank, List.foldlM_append]
  rw [Option.bind_eq_bind, Option.bind_eq_none_iff]
  intro closed _
  simp [torn]

/-- Behind a blank open line, a proper beginning of an object text hides the log. -/
theorem lastLine_torn {text : List Char} (blank : Blank (openLine text)) {layout : Layout}
    {fields : List (String × Json)} {torn : List Char} (nonempty : torn ≠ [])
    (begins : torn <+: render layout (.obj fields)) (proper : torn ≠ render layout (.obj fields)) :
    lastLine (text ++ torn) = none := by
  have unbroken : ∀ c ∈ torn, Py.isLineBreak c = false :=
    fun c mem => render_unbroken layout _ c (begins.subset mem)
  rcases render_obj_head layout fields with ⟨body, shape⟩
  rcases List.exists_cons_of_ne_nil nonempty with ⟨first, tail, rfl⟩
  have brace : first = '{' := by
    rw [shape, List.cons_prefix_cons] at begins
    exact begins.1
  subst brace
  rcases @Py.strip_prefix _ tail '{' (isSpace_of_blank blank) (by decide) with ⟨stripped, left⟩
  apply lastLine_eq_none
  · rw [openLine_append unbroken]
    exact left
  · rw [openLine_append unbroken]
    rcases List.exists_cons_of_ne_nil left with ⟨first, rest, whole⟩
    rw [whole] at stripped ⊢
    cases read : parse (first :: rest) with
    | none => rw [loadsLine, read, Option.map_none]
    | some value =>
        have all := parse_of_prefix_object (stripped.trans begins) read
        rw [all] at stripped
        exact absurd (begins.eq_of_length (le_antisymm begins.length_le stripped.length_le)) proper

/-- A beginning of an object text behind an open line that is not white space is
spoiled by the next value. -/
theorem unreadable_of_torn {text : List Char} {values : List Json}
    (read : readLines text = some values) (noNumbers : ∀ value ∈ values, ∀ n, value ≠ .num n)
    (notBlank : ¬Blank (openLine text)) {layout : Layout} {fields : List (String × Json)}
    {torn : List Char} (begins : torn <+: render layout (.obj fields)) (value : Json) :
    Unreadable (appendLine (text ++ torn) value) := by
  have unbroken : ∀ c ∈ torn, Py.isLineBreak c = false :=
    fun c mem => render_unbroken layout _ c (begins.subset mem)
  have continues : ∃ first more, torn ++ render .spaced value = first :: more ∧
      isSpace first = false := by
    cases torn with
    | nil =>
        rcases render_head .spaced value with ⟨first, more, shape, notSpace, -⟩
        exact ⟨first, more, shape, notSpace⟩
    | cons first more =>
        rcases render_obj_head layout fields with ⟨body, shape⟩
        rw [shape, List.cons_prefix_cons] at begins
        rcases begins with ⟨rfl, -⟩
        exact ⟨'{', _, rfl, by decide⟩
  rcases continues with ⟨first, more, shape, notSpace⟩
  have spoiled := loadsLine_open_append_eq_none read noNumbers notBlank notSpace more
  rw [Unreadable, closedNonblank_appendLine, openLine_append unbroken, List.append_assoc, shape,
    List.mapM_append]
  cases (closedNonblank (text ++ torn)).mapM loadsLine <;> simp [spoiled]

end Json

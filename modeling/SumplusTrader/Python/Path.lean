import Mathlib.Data.List.Basic

/-!
# Paths as text

This file gives the lexical operations on absolute paths: normalising one, and naming one
relative to another. A path is walked part by part; a single dot stays where it is, and two dots
go back by one part, which at the root changes nothing.

A relative name leads back: walked from its start it ends where the path does
(`normParts_relpath`). Links between directories are not part of this.
-/

namespace Py

abbrev PathPart := List Char

def dot : PathPart := ['.']

def dotDot : PathPart := ['.', '.']

/-- One turn of the loop of `os.path.normpath` over the parts of an absolute path. -/
def enter (place : List PathPart) (part : PathPart) : List PathPart :=
  if part = [] ∨ part = dot then place
  else if part = dotDot then place.dropLast
  else place ++ [part]

/-- The parts of `os.path.normpath` of an absolute path. -/
def normParts (path : List Char) : List PathPart := (path.splitOn '/').foldl enter []

/-- `len(os.path.commonprefix([parts, others]))`. -/
def sharedLength : List PathPart → List PathPart → ℕ
  | part :: parts, other :: others =>
      if part = other then sharedLength parts others + 1 else 0
  | _, _ => 0

/-- `os.path.relpath` of an absolute path. -/
def relpath (path start : List Char) : List Char :=
  let startParts := normParts start
  let pathParts := normParts path
  let shared := sharedLength startParts pathParts
  let relParts := List.replicate (startParts.length - shared) dotDot ++ pathParts.drop shared
  if relParts = [] then dot else ['/'].intercalate relParts

/-- `os.path.isabs`. -/
def isAbs (path : List Char) : Bool := path.head? = some '/'

/-- A part that leads into a directory. -/
structure Ordinary (part : PathPart) : Prop where
  nonempty : part ≠ []
  not_dot : part ≠ dot
  not_dotDot : part ≠ dotDot
  unbroken : '/' ∉ part

variable {place parts : List PathPart} {part : PathPart}

theorem enter_ordinary (ordinary : Ordinary part) : enter place part = place ++ [part] := by
  rw [enter, if_neg, if_neg ordinary.not_dotDot]
  rintro (empty | same)
  · exact ordinary.nonempty empty
  · exact ordinary.not_dot same

theorem foldl_enter_ordinary (place : List PathPart) (ordinary : ∀ part ∈ parts, Ordinary part) :
    parts.foldl enter place = place ++ parts := by
  induction parts generalizing place with
  | nil => rw [List.foldl_nil, List.append_nil]
  | cons part parts ih =>
      rw [List.foldl_cons, enter_ordinary (ordinary part List.mem_cons_self),
        ih _ fun other mem => ordinary other (List.mem_cons_of_mem _ mem)]
      simp

theorem foldl_enter_dotDot (place : List PathPart) (count : ℕ) :
    (List.replicate count dotDot).foldl enter place = place.take (place.length - count) := by
  induction count generalizing place with
  | zero => simp
  | succ count ih =>
      have back : enter place dotDot = place.dropLast := rfl
      rw [List.replicate_succ, List.foldl_cons, back, ih, List.dropLast_eq_take, List.take_take,
        List.length_take]
      congr 1
      omega

theorem unbroken_of_mem_splitOn {path : List Char} (mem : part ∈ path.splitOn '/') :
    '/' ∉ part := by
  induction path generalizing part with
  | nil =>
      rw [List.splitOn_nil, List.mem_singleton] at mem
      simp [mem]
  | cons c path ih =>
      rw [List.splitOn_cons_eq_if_modifyHead] at mem
      split at mem
      · rcases List.mem_cons.1 mem with rfl | later
        · simp
        · exact ih later
      · next other =>
        rcases split : path.splitOn '/' with _ | ⟨first, rest⟩
        · exact absurd split (List.splitOn_ne_nil '/' path)
        · rw [split, List.modifyHead_cons] at mem
          rcases List.mem_cons.1 mem with rfl | later
          · have clean : '/' ∉ first := ih (by simp [split])
            intro inside
            rcases List.mem_cons.1 inside with rfl | inside
            · simp at other
            · exact clean inside
          · exact ih (by simp [split, later])

theorem ordinary_enter (ordinary : ∀ part ∈ place, Ordinary part) (unbroken : '/' ∉ part) :
    ∀ other ∈ enter place part, Ordinary other := by
  intro other mem
  unfold enter at mem
  split at mem
  · exact ordinary other mem
  · next visible =>
    rw [not_or] at visible
    split at mem
    · exact ordinary other (List.dropLast_subset place mem)
    · next forward =>
      rcases List.mem_append.1 mem with earlier | last
      · exact ordinary other earlier
      · rw [List.mem_singleton.1 last]
        exact ⟨visible.1, visible.2, forward, unbroken⟩

/-- A normal path has ordinary parts only. -/
theorem ordinary_normParts (path : List Char) : ∀ part ∈ normParts path, Ordinary part := by
  have walk : ∀ parts : List PathPart, (∀ part ∈ parts, '/' ∉ part) → ∀ place : List PathPart,
      (∀ part ∈ place, Ordinary part) → ∀ part ∈ parts.foldl enter place, Ordinary part := by
    intro parts
    induction parts with
    | nil => exact fun _ place ordinary => ordinary
    | cons part parts ih =>
        intro unbroken place ordinary
        apply ih fun other mem => unbroken other (List.mem_cons_of_mem _ mem)
        exact ordinary_enter ordinary (unbroken part List.mem_cons_self)
  apply walk
  · intro part mem
    exact unbroken_of_mem_splitOn mem
  · simp

theorem take_sharedLength (parts others : List PathPart) :
    parts.take (sharedLength parts others) = others.take (sharedLength parts others) ∧
      sharedLength parts others ≤ parts.length := by
  induction parts generalizing others with
  | nil => cases others <;> simp [sharedLength]
  | cons part parts ih =>
      cases others with
      | nil => simp [sharedLength]
      | cons other others =>
          rw [sharedLength]
          split
          · next same =>
            rw [same, List.take_succ_cons, List.take_succ_cons, (ih others).1]
            exact ⟨rfl, Nat.succ_le_succ (ih others).2⟩
          · simp

/-- **A relative name leads back** to the path, from where it starts. -/
theorem normParts_relpath (path start : List Char) :
    normParts (start ++ '/' :: relpath path start) = normParts path := by
  have walked : normParts (start ++ '/' :: relpath path start) =
      ((relpath path start).splitOn '/').foldl enter (normParts start) := by
    rw [normParts, List.splitOn_append_cons_self, List.foldl_append, normParts]
  rcases take_sharedLength (normParts start) (normParts path) with ⟨agree, within⟩
  rw [walked, relpath]
  set shared := sharedLength (normParts start) (normParts path)
  split
  · next empty =>
    rw [List.append_eq_nil_iff, List.replicate_eq_nil_iff, List.drop_eq_nil_iff] at empty
    have stays : (dot.splitOn '/').foldl enter (normParts start) = normParts start := rfl
    rw [stays, ← List.take_of_length_le (show (normParts start).length ≤ shared by omega), agree,
      List.take_of_length_le empty.2]
  · next nonempty =>
    have unbroken : ∀ part ∈ List.replicate ((normParts start).length - shared) dotDot ++
        (normParts path).drop shared, '/' ∉ part := by
      intro part mem
      rcases List.mem_append.1 mem with up | down
      · rw [List.eq_of_mem_replicate up]
        decide
      · exact (ordinary_normParts path part (List.mem_of_mem_drop down)).unbroken
    rw [List.splitOn_intercalate '/' unbroken nonempty, List.foldl_append, foldl_enter_dotDot,
      foldl_enter_ordinary _ fun part mem =>
        ordinary_normParts path part (List.mem_of_mem_drop mem)]
    have kept : (normParts start).length - ((normParts start).length - shared) = shared := by
      omega
    rw [kept, agree, List.take_append_drop]

/-- A relative name is no absolute path. -/
theorem isAbs_relpath (path start : List Char) : isAbs (relpath path start) = false := by
  rw [relpath]
  split
  · rfl
  · next nonempty =>
    rcases List.exists_cons_of_ne_nil nonempty with ⟨part, rest, shape⟩
    have first : part ∈ List.replicate ((normParts start).length -
        sharedLength (normParts start) (normParts path)) dotDot ++
          (normParts path).drop (sharedLength (normParts start) (normParts path)) := by
      rw [shape]
      exact List.mem_cons_self
    have begins : part ≠ [] ∧ '/' ∉ part := by
      rcases List.mem_append.1 first with up | down
      · rw [List.eq_of_mem_replicate up]
        decide
      · have ordinary := ordinary_normParts path part (List.mem_of_mem_drop down)
        exact ⟨ordinary.nonempty, ordinary.unbroken⟩
    rcases List.exists_cons_of_ne_nil begins.1 with ⟨c, cs, rfl⟩
    have visible : c ≠ '/' := by
      rintro rfl
      exact begins.2 List.mem_cons_self
    rw [shape]
    cases rest with
    | nil => simpa [isAbs] using visible
    | cons other rest => simpa [isAbs, List.intercalate_cons_cons] using visible

example : relpath "/srv/agent/config/live.json".toList "/srv/agent".toList =
    "config/live.json".toList ∧ relpath "/etc/./live.json".toList "/srv/agent".toList =
      "../../etc/live.json".toList := by
  decide +kernel

end Py

import Mathlib.Data.List.Nodup
import Mathlib.Data.List.Induction
import Mathlib.Algebra.BigOperators.Group.List.Basic
import Mathlib.Algebra.Order.BigOperators.Group.List
import Mathlib.Tactic.Abel

/-!
# Insertion-ordered dictionaries

This file gives the dictionary of a scripting language: a finite map that
remembers the order in which its keys were first stored. Storing under a present
key keeps the key's position; removing a key closes the gap.

The entries carry the proof that no key occurs twice, so every operation returns
a dictionary again. Totals over the entries are the only aggregate needed here:
storing or removing a key changes a total by the contribution of that key alone.
-/

/-- A dictionary: entries in insertion order, with distinct keys. -/
structure Dict (κ β : Type) where
  entries : List (κ × β)
  nodup : (entries.map Prod.fst).Nodup

namespace Dict

variable {κ β : Type} [DecidableEq κ]

def empty : Dict κ β := ⟨[], List.nodup_nil⟩

def get? (d : Dict κ β) (key : κ) : Option β := d.entries.lookup key

def keys (d : Dict κ β) : List κ := d.entries.map Prod.fst

def values (d : Dict κ β) : List β := d.entries.map Prod.snd

/-- Replaces the value stored under a key, in place. -/
def replaceEntry (key : κ) (value : β) (entry : κ × β) : κ × β :=
  if entry.1 = key then (key, value) else entry

theorem fst_replaceEntry (key : κ) (value : β) (entry : κ × β) :
    (replaceEntry key value entry).1 = entry.1 := by
  unfold replaceEntry
  split
  · next same => exact same.symm
  · rfl

theorem map_fst_replaceEntry (key : κ) (value : β) (entries : List (κ × β)) :
    (entries.map (replaceEntry key value)).map Prod.fst = entries.map Prod.fst := by
  rw [List.map_map]
  apply List.map_congr_left
  intro entry _
  exact fst_replaceEntry key value entry

theorem map_replaceEntry_of_notMem {key : κ} (value : β) {entries : List (κ × β)}
    (absent : key ∉ entries.map Prod.fst) : entries.map (replaceEntry key value) = entries := by
  conv_rhs => rw [← List.map_id entries]
  apply List.map_congr_left
  intro entry mem
  apply if_neg
  rintro rfl
  exact absent (List.mem_map_of_mem mem)

/-- Stores a value: in place when the key is present, else at the end. -/
def set (d : Dict κ β) (key : κ) (value : β) : Dict κ β :=
  if present : key ∈ d.entries.map Prod.fst then
    ⟨d.entries.map (replaceEntry key value), by
      rw [map_fst_replaceEntry]
      exact d.nodup⟩
  else
    ⟨d.entries ++ [(key, value)], by
      rw [List.map_append]
      exact List.Nodup.append d.nodup (List.nodup_singleton key)
        (List.disjoint_singleton.2 present)⟩

/-- Removes a key. -/
def pop (d : Dict κ β) (key : κ) : Dict κ β :=
  ⟨d.entries.filter fun entry => entry.1 ≠ key,
    d.nodup.sublist (List.filter_sublist.map Prod.fst)⟩

/-- The dictionary built by storing entries one after the other. -/
def ofList (entries : List (κ × β)) : Dict κ β :=
  entries.foldl (fun d entry => d.set entry.1 entry.2) empty

/-- Stores the entries of another dictionary one after the other. -/
def update (d other : Dict κ β) : Dict κ β :=
  other.entries.foldl (fun d entry => d.set entry.1 entry.2) d

omit [DecidableEq κ] in
theorem fst_mem {key : κ} {value : β} {entries : List (κ × β)} (mem : (key, value) ∈ entries) :
    key ∈ entries.map Prod.fst := List.mem_map_of_mem (f := Prod.fst) mem

omit [DecidableEq κ] in
theorem fst_ne_of_mem {entry other : κ × β} {entries : List (κ × β)}
    (nodup : ((entry :: entries).map Prod.fst).Nodup) (mem : other ∈ entries) :
    other.1 ≠ entry.1 := by
  rw [List.map_cons, List.nodup_cons] at nodup
  intro same
  apply nodup.1
  rw [← same]
  exact List.mem_map_of_mem mem

theorem lookup_eq_none_iff (key : κ) (entries : List (κ × β)) :
    entries.lookup key = none ↔ key ∉ entries.map Prod.fst := by
  induction entries with
  | nil => simp
  | cons entry entries ih =>
      rcases entry with ⟨entryKey, entryValue⟩
      rw [List.lookup_cons, List.map_cons, List.mem_cons, not_or]
      by_cases hits : key = entryKey
      · simp [hits]
      · have misses : (key == entryKey) = false := by simpa using hits
        simp only [misses, hits, not_false_eq_true, true_and]
        exact ih

theorem get?_eq_none_iff (d : Dict κ β) (key : κ) :
    d.get? key = none ↔ key ∉ d.entries.map Prod.fst := lookup_eq_none_iff key d.entries

theorem mem_of_lookup {key : κ} {value : β} {entries : List (κ × β)}
    (found : entries.lookup key = some value) : (key, value) ∈ entries := by
  induction entries with
  | nil => simp at found
  | cons entry entries ih =>
      rcases entry with ⟨entryKey, entryValue⟩
      rw [List.lookup_cons] at found
      by_cases hits : key = entryKey
      · subst hits
        simp only [beq_self_eq_true, Option.some.injEq] at found
        subst found
        exact List.mem_cons_self
      · have misses : (key == entryKey) = false := by simpa using hits
        rw [misses] at found
        exact List.mem_cons_of_mem _ (ih found)

theorem lookup_of_mem {key : κ} {value : β} {entries : List (κ × β)}
    (nodup : (entries.map Prod.fst).Nodup) (mem : (key, value) ∈ entries) :
    entries.lookup key = some value := by
  induction entries with
  | nil => simp at mem
  | cons entry entries ih =>
      rcases entry with ⟨entryKey, entryValue⟩
      rw [List.lookup_cons]
      rcases List.mem_cons.1 mem with same | tail
      · rcases Prod.mk.inj same with ⟨rfl, rfl⟩
        simp
      · have misses : (key == entryKey) = false := by
          rw [beq_eq_false_iff_ne]
          exact fst_ne_of_mem nodup tail
        rw [misses]
        exact ih (List.nodup_cons.1 nodup).2 tail

theorem get?_eq_some_iff (d : Dict κ β) (key : κ) (value : β) :
    d.get? key = some value ↔ (key, value) ∈ d.entries :=
  ⟨mem_of_lookup, lookup_of_mem d.nodup⟩

theorem lookup_replaceEntry (key other : κ) (value : β) (entries : List (κ × β)) :
    (entries.map (replaceEntry key value)).lookup other =
      if other = key then (entries.lookup key).map fun _ => value else entries.lookup other := by
  induction entries with
  | nil => simp
  | cons entry entries ih =>
      rcases entry with ⟨entryKey, entryValue⟩
      by_cases hits : entryKey = key
      · subst hits
        simp only [List.map_cons, replaceEntry, if_true, List.lookup_cons]
        by_cases same : other = entryKey
        · simp [same]
        · have misses : (other == entryKey) = false := by simpa using same
          simp only [misses, ih, same, if_false]
      · have keyMisses : (key == entryKey) = false := by simpa using Ne.symm hits
        simp only [List.map_cons, replaceEntry, hits, if_false, List.lookup_cons, keyMisses, ih]
        by_cases same : other = entryKey
        · subst same
          simp [hits]
        · have misses : (other == entryKey) = false := by simpa using same
          simp only [misses]

theorem get?_set (d : Dict κ β) (key other : κ) (value : β) :
    (d.set key value).get? other = if other = key then some value else d.get? other := by
  unfold set
  split
  · next present =>
      have found : ∃ old, d.get? key = some old := by
        rw [← Option.ne_none_iff_exists']
        intro missing
        exact (get?_eq_none_iff d key).1 missing present
      rcases found with ⟨old, found⟩
      unfold get? at found ⊢
      simp only [lookup_replaceEntry, found, Option.map_some]
  · next absent =>
      have missing : d.entries.lookup key = none := (get?_eq_none_iff d key).2 absent
      unfold get?
      simp only [List.lookup_append, List.lookup_cons, List.lookup_nil]
      by_cases same : other = key
      · simp [same, missing]
      · have misses : (other == key) = false := by simpa using same
        simp [misses, same]

theorem get?_set_self (d : Dict κ β) (key : κ) (value : β) :
    (d.set key value).get? key = some value := by simp [get?_set]

theorem get?_set_of_ne (d : Dict κ β) {key other : κ} (value : β) (distinct : other ≠ key) :
    (d.set key value).get? other = d.get? other := by simp [get?_set, distinct]

theorem lookup_filter_ne (key other : κ) (entries : List (κ × β)) :
    (entries.filter fun entry => entry.1 ≠ key).lookup other =
      if other = key then none else entries.lookup other := by
  induction entries with
  | nil => simp
  | cons entry entries ih =>
      rcases entry with ⟨entryKey, entryValue⟩
      by_cases removed : entryKey = key
      · subst removed
        simp only [ne_eq, not_true_eq_false, decide_false, Bool.false_eq_true,
          not_false_eq_true, List.filter_cons_of_neg, List.lookup_cons] at ih ⊢
        rw [ih]
        by_cases same : other = entryKey
        · simp [same]
        · have misses : (other == entryKey) = false := by simpa using same
          simp [misses]
      · simp only [ne_eq, removed, not_false_eq_true, decide_true, List.filter_cons_of_pos,
          List.lookup_cons] at ih ⊢
        rw [ih]
        by_cases same : other = entryKey
        · subst same
          simp [removed]
        · have misses : (other == entryKey) = false := by simpa using same
          simp only [misses]

theorem keys_set (d : Dict κ β) (key : κ) (value : β) :
    (d.set key value).keys = if key ∈ d.keys then d.keys else d.keys ++ [key] := by
  unfold keys set
  split
  · exact map_fst_replaceEntry key value d.entries
  · rw [List.map_append, List.map_singleton]

theorem keys_pop (d : Dict κ β) (key : κ) : (d.pop key).keys = d.keys.filter fun k => k ≠ key := by
  rw [keys, keys, pop, List.filter_map]
  rfl

theorem get?_pop (d : Dict κ β) (key other : κ) :
    (d.pop key).get? other = if other = key then none else d.get? other :=
  lookup_filter_ne key other d.entries

/-- The last entry of a key counts. -/
theorem get?_ofList (entries : List (κ × β)) (key : κ) :
    (ofList entries).get? key = entries.reverse.lookup key := by
  unfold ofList
  induction entries using List.reverseRecOn with
  | nil => rfl
  | append_singleton entries entry ih =>
      rcases entry with ⟨entryKey, value⟩
      rw [List.foldl_append, List.foldl_cons, List.foldl_nil, get?_set, List.reverse_append,
        List.reverse_singleton, List.singleton_append, List.lookup_cons, ih]
      by_cases same : key = entryKey
      · simp [same]
      · have misses : (key == entryKey) = false := by simpa using same
        simp [same, misses]

/-- After an update the keys of the other dictionary find its values. -/
theorem get?_update (d other : Dict κ β) (key : κ) :
    (d.update other).get? key = (other.get? key).or (d.get? key) := by
  rcases other with ⟨entries, nodup⟩
  simp only [update, get?]
  induction entries using List.reverseRecOn with
  | nil => rfl
  | append_singleton entries entry ih =>
      rcases entry with ⟨entryKey, value⟩
      rw [List.map_append, List.nodup_append] at nodup
      have before := ih nodup.1
      rw [List.foldl_append, List.foldl_cons, List.foldl_nil]
      have stored := get?_set (entries.foldl (fun d entry => d.set entry.1 entry.2) d) entryKey key
        value
      simp only [get?] at stored
      rw [stored, List.lookup_append]
      by_cases same : key = entryKey
      · subst same
        have fresh : entries.lookup key = none := by
          rw [lookup_eq_none_iff]
          intro mem
          exact nodup.2.2 key mem key (by simp) rfl
        simp [fresh]
      · have misses : (key == entryKey) = false := by simpa using same
        rw [if_neg same, before, List.lookup_cons, misses]
        simp

/-- A dictionary of entries with distinct keys holds them as they are. -/
theorem entries_ofList {entries : List (κ × β)} (nodup : (entries.map Prod.fst).Nodup) :
    (ofList entries).entries = entries := by
  unfold ofList
  induction entries using List.reverseRecOn with
  | nil => rfl
  | append_singleton entries entry ih =>
      rw [List.map_append, List.nodup_append] at nodup
      have before := ih nodup.1
      have fresh : entry.1 ∉ (entries.foldl (fun d entry => d.set entry.1 entry.2)
          (empty : Dict κ β)).entries.map Prod.fst := by
        rw [before]
        intro mem
        exact nodup.2.2 entry.1 mem entry.1 (by simp) rfl
      rw [List.foldl_append, List.foldl_cons, List.foldl_nil, set, dif_neg fresh]
      simp only [before]

/-- Entries stored under the last keys of a dictionary, in their order, take the places there. -/
theorem entries_foldl_set (kept old entries : List (κ × β)) {d : Dict κ β}
    (before : d.entries = kept ++ old) (same : old.map Prod.fst = entries.map Prod.fst) :
    (entries.foldl (fun d entry => d.set entry.1 entry.2) d).entries = kept ++ entries := by
  induction entries generalizing d kept old with
  | nil =>
      rw [List.map_nil, List.map_eq_nil_iff] at same
      rw [List.foldl_nil, before, same]
  | cons entry entries ih =>
      rcases old with _ | ⟨⟨key, value⟩, old⟩
      · cases same
      · rw [List.map_cons, List.map_cons, List.cons.injEq] at same
        rcases same with ⟨rfl, same⟩
        have nodup := d.nodup
        rw [before, List.map_append, List.map_cons, List.nodup_append, List.nodup_cons] at nodup
        rcases nodup with ⟨-, ⟨fresh, -⟩, apart⟩
        have absent : entry.1 ∉ kept.map Prod.fst := fun mem =>
          apart _ mem _ List.mem_cons_self rfl
        have present : entry.1 ∈ d.entries.map Prod.fst := by
          rw [before]
          simp
        have stored : (d.set entry.1 entry.2).entries = (kept ++ [entry]) ++ old := by
          rw [set, dif_pos present]
          dsimp only
          rw [before, List.map_append, List.map_cons, map_replaceEntry_of_notMem _ absent,
            map_replaceEntry_of_notMem _ fresh, replaceEntry, if_pos rfl, List.append_assoc]
          rfl
        rw [List.foldl_cons, ih (kept ++ [entry]) old stored same, List.append_assoc]
        rfl

variable {M : Type} [AddCommGroup M]

/-- The total of a quantity over all entries. -/
def total (f : κ → β → M) (d : Dict κ β) : M :=
  (d.entries.map fun entry => f entry.1 entry.2).sum

theorem sum_replaceEntry (f : κ → β → M) {key : κ} {old : β} (value : β)
    {entries : List (κ × β)} (nodup : (entries.map Prod.fst).Nodup)
    (mem : (key, old) ∈ entries) :
    ((entries.map (replaceEntry key value)).map fun entry => f entry.1 entry.2).sum =
      (entries.map fun entry => f entry.1 entry.2).sum - f key old + f key value := by
  induction entries with
  | nil => simp at mem
  | cons entry entries ih =>
      rcases entry with ⟨entryKey, entryValue⟩
      rcases List.mem_cons.1 mem with same | tail
      · rcases Prod.mk.inj same with ⟨rfl, rfl⟩
        have untouched := map_replaceEntry_of_notMem value (List.nodup_cons.1 nodup).1
        simp only [List.map_cons, List.sum_cons, untouched, replaceEntry, if_true]
        abel
      · have distinct : entryKey ≠ key := (fst_ne_of_mem nodup tail).symm
        simp only [List.map_cons, List.sum_cons, ih (List.nodup_cons.1 nodup).2 tail,
          replaceEntry, distinct, if_false]
        abel

/-- Storing under a present key changes a total by that key's contribution. -/
theorem total_set_of_some (f : κ → β → M) {d : Dict κ β} {key : κ} {old : β} (value : β)
    (found : d.get? key = some old) :
    (d.set key value).total f = d.total f - f key old + f key value := by
  have mem := (get?_eq_some_iff d key old).1 found
  have present : key ∈ d.entries.map Prod.fst := fst_mem mem
  unfold total set
  rw [dif_pos present]
  exact sum_replaceEntry f value d.nodup mem

/-- Storing under a fresh key adds that key's contribution to a total. -/
theorem total_set_of_none (f : κ → β → M) {d : Dict κ β} {key : κ} (value : β)
    (missing : d.get? key = none) :
    (d.set key value).total f = d.total f + f key value := by
  have absent := (get?_eq_none_iff d key).1 missing
  unfold total set
  rw [dif_neg absent]
  simp

theorem sum_filter_ne (f : κ → β → M) {key : κ} {value : β} {entries : List (κ × β)}
    (nodup : (entries.map Prod.fst).Nodup) (mem : (key, value) ∈ entries) :
    ((entries.filter fun entry => entry.1 ≠ key).map fun entry => f entry.1 entry.2).sum =
      (entries.map fun entry => f entry.1 entry.2).sum - f key value := by
  induction entries with
  | nil => simp at mem
  | cons entry entries ih =>
      rcases entry with ⟨entryKey, entryValue⟩
      rcases List.mem_cons.1 mem with same | tail
      · rcases Prod.mk.inj same with ⟨rfl, rfl⟩
        have untouched : (entries.filter fun entry => entry.1 ≠ key) = entries := by
          rw [List.filter_eq_self]
          intro other otherMem
          simpa using fst_ne_of_mem nodup otherMem
        rw [List.filter_cons_of_neg (by simp), untouched, List.map_cons, List.sum_cons]
        abel
      · have distinct : entryKey ≠ key := (fst_ne_of_mem nodup tail).symm
        rw [List.filter_cons_of_pos (by simpa using distinct), List.map_cons, List.sum_cons,
          ih (List.nodup_cons.1 nodup).2 tail, List.map_cons, List.sum_cons]
        abel

/-- Removing a key takes its contribution out of a total. -/
theorem total_pop_of_some (f : κ → β → M) {d : Dict κ β} {key : κ} {value : β}
    (found : d.get? key = some value) : (d.pop key).total f = d.total f - f key value :=
  sum_filter_ne f d.nodup ((get?_eq_some_iff d key value).1 found)

end Dict

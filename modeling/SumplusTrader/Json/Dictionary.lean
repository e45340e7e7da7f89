import SumplusTrader.Json.Normal
import SumplusTrader.Python.Dict

/-!
# Dictionaries of JSON values

This file relates the dictionaries of a program to the objects it writes and
reads. A dictionary is written with sorted keys and without blanks; the text read
back is a dictionary with the same keys, whose values are the same up to the order
of the entries inside them.
-/

/-- A dictionary whose values are JSON values with distinct keys. -/
abbrev JsonDict := Dict String JsonValue

namespace JsonDict

def fields (d : JsonDict) : List (String × Json) :=
  d.entries.map fun entry => (entry.1, entry.2.tree)

/-- A dictionary as an object. -/
def toJson (d : JsonDict) : Json := .obj d.fields

/-- An object as a dictionary. -/
def ofJson? : JsonValue → Option JsonDict
  | ⟨.obj fields, distinct⟩ =>
      some {
        entries := fields.pmap (fun field inner => (field.1, ⟨field.2, inner⟩))
          (Json.distinctKeysFields_iff.1 distinct.2)
        nodup := by
          rw [List.map_pmap, List.pmap_eq_map]
          exact distinct.1 }
  | _ => none

/-- The text with sorted keys and without blanks. -/
def dumps (d : JsonDict) : List Char := Json.render .compact d.toJson.sortKeys

def loads (text : List Char) : Option JsonValue := (Json.parse text).map JsonValue.ofLiteral

/-- Equality of dictionaries: the same keys find the same values, up to the order of
entries. -/
def Same (d other : JsonDict) : Prop :=
  ∀ key, Option.Rel (fun value other => value.tree.SameUpToOrder other.tree) (d.get? key)
    (other.get? key)

theorem get?_toJson (d : JsonDict) (key : String) :
    d.toJson.get? key = (d.get? key).map JsonValue.tree := by
  rcases d with ⟨entries, nodup⟩
  simp only [toJson, Json.get?, fields, Dict.get?]
  clear nodup
  induction entries with
  | nil => rfl
  | cons entry entries ih =>
      rcases entry with ⟨entryKey, value⟩
      rw [List.map_cons, List.lookup_cons, List.lookup_cons, ih]
      cases key == entryKey <;> rfl

theorem distinctKeys_toJson (d : JsonDict) : d.toJson.DistinctKeys := by
  constructor
  · rw [fields, List.map_map]
    exact d.nodup
  · rw [Json.distinctKeysFields_iff]
    intro field mem
    rcases List.mem_map.1 mem with ⟨entry, -, rfl⟩
    exact entry.2.distinctKeys

/-- The dictionary of an object has the entries of the object. -/
theorem toJson_of_ofJson? {value : JsonValue} {d : JsonDict} (read : ofJson? value = some d) :
    value.tree = d.toJson := by
  rcases value with ⟨tree, distinct⟩
  cases tree with
  | obj fields =>
      rw [ofJson?, Option.some.injEq] at read
      subst read
      simp only [toJson, JsonDict.fields, List.map_pmap, Json.obj.injEq]
      rw [List.pmap_eq_map, List.map_id']
  | _ => simp [ofJson?] at read

theorem exists_ofJson? {value : JsonValue} {fields : List (String × Json)}
    (isObject : value.tree = .obj fields) : ∃ d, ofJson? value = some d := by
  rcases value with ⟨tree, distinct⟩
  subst isObject
  exact ⟨_, rfl⟩

/-- What a dictionary is written as is read back as the same dictionary. -/
theorem loads_dumps (d : JsonDict) :
    ∃ value read, loads d.dumps = some value ∧ ofJson? value = some read ∧ d.Same read := by
  have distinct := Json.distinctKeys_sortKeys _ d.distinctKeys_toJson
  have parsed : loads d.dumps = some (JsonValue.ofLiteral d.toJson.sortKeys) := by
    rw [loads, dumps, Json.parse_render, Option.map_some]
  have tree : (JsonValue.ofLiteral d.toJson.sortKeys).tree = d.toJson.sortKeys :=
    Json.dedupe_eq_self _ distinct
  rcases exists_ofJson? (tree.trans (by rw [toJson, Json.sortKeys])) with ⟨read, converted⟩
  refine ⟨_, read, parsed, converted, ?_⟩
  intro key
  have stored : read.toJson.get? key = d.toJson.sortKeys.get? key := by
    rw [← tree, toJson_of_ofJson? converted]
  rw [Json.get?_sortKeys, get?_toJson, get?_toJson] at stored
  cases found : d.get? key with
  | none =>
      rw [found] at stored
      simp only [Option.map_none, Option.map_eq_none_iff] at stored
      rw [stored]
      exact .none
  | some value =>
      rw [found] at stored
      simp only [Option.map_some, Option.map_eq_some_iff] at stored
      rcases stored with ⟨other, otherFound, same⟩
      rw [otherFound]
      refine .some ?_
      rw [same]
      exact Json.sameUpToOrder_sortKeys value.tree

theorem Same.refl (d : JsonDict) : d.Same d := by
  intro key
  cases d.get? key with
  | none => exact .none
  | some value => exact .some (Json.sameUpToOrder_of_sortKeys_eq _ _ rfl)

/-- Updating with the same dictionary gives the same dictionary. -/
theorem Same.update {d other : JsonDict} (same : d.Same other) (base : JsonDict) :
    Same (base.update d) (base.update other) := by
  intro key
  rw [Dict.get?_update, Dict.get?_update]
  have reads := same key
  cases found : d.get? key with
  | none =>
      rw [found] at reads
      cases otherFound : other.get? key with
      | none =>
          simp only [Option.none_or]
          exact Same.refl base key
      | some value =>
          rw [otherFound] at reads
          cases reads
  | some value =>
      rw [found] at reads
      cases otherFound : other.get? key with
      | none =>
          rw [otherFound] at reads
          cases reads
      | some otherValue =>
          rw [otherFound] at reads
          exact reads

end JsonDict

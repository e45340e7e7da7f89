import SumplusTrader.Types
import SumplusTrader.Json.RoundTrip
import SumplusTrader.Json.Normal
import SumplusTrader.Crypto.Sha256

/-!
# Canonical form and the committed policy hash

This file models `agent/policy/canonical.py`. The canonical form of a value drops
every object entry whose key starts with an underscore and sorts the rest by key;
its compact ASCII text is hashed.

Equal canonical bytes mean equal canonical forms, because the text of a value
determines it. A read at a key that is not a comment sees only the canonical
form. Two values whose objects hold no key twice have one canonical form exactly
when they are the same up to comments and the order of their entries, so as far
as the digests tell their inputs apart, the policy hash stands for that class.
-/

namespace SumplusTrader

/-- A key that annotates its object. -/
def isComment (key : String) : Bool := ['_'].isPrefixOf key.toList

def stripComments (value : Json) : Json := value.dropKeys isComment

/-- The value that `canonical_bytes` serialises. -/
def canonicalForm (value : Json) : Json := (stripComments value).sortKeys

/-- The bytes of an encoded string. -/
def encode (text : String) : List UInt8 := text.toByteArray.data.toList

def canonicalBytes (value : Json) : List UInt8 :=
  encode (Json.dumps .compact (canonicalForm value))

def sha256Hex (bytes : List UInt8) : String := String.ofList (Sha256.hexdigest bytes)

/-- A digest with the prefix that names the hash function. -/
def prefixedHash (bytes : List UInt8) : String := "sha256:" ++ sha256Hex bytes

def policyHash (config : Json) : String := prefixedHash (canonicalBytes config)

def digest (value : Json) : String := prefixedHash (canonicalBytes value)

/-- The configuration read from the text of its file, if there is one. -/
def loadConfig : Option String → Except PyError Json
  | none => .error .osError
  | some text =>
      match Json.loads text with
      | none => .error .jsonDecode
      | some config => .ok config

def committedPolicyHash (file : Option String) : Except PyError String :=
  (loadConfig file).map policyHash

theorem encode_injective : Function.Injective encode := by
  intro text other same
  apply String.toByteArray_inj.1
  apply ByteArray.ext
  apply Array.toList_inj.1
  exact same

theorem encode_append (text other : String) : encode (text ++ other) = encode text ++ encode other := by
  simp [encode, String.toByteArray_append]

theorem prefixedHash_inj {bytes others : List UInt8} :
    prefixedHash bytes = prefixedHash others ↔ sha256Hex bytes = sha256Hex others := by
  simp [prefixedHash]

theorem length_prefixedHash (bytes : List UInt8) : (prefixedHash bytes).toList.length = 71 := by
  simp [prefixedHash, sha256Hex, Sha256.length_hexdigest]

theorem canonicalForm_eq_of_bytes_eq {value other : Json}
    (same : canonicalBytes value = canonicalBytes other) :
    canonicalForm value = canonicalForm other :=
  Json.dumps_injective .compact (encode_injective same)

/-- Equality up to keys that start with an underscore and the order of entries. -/
def SameUpToComments (value other : Json) : Prop :=
  (stripComments value).SameUpToOrder (stripComments other)

theorem sameUpToComments_of_canonicalForm_eq {value other : Json}
    (same : canonicalForm value = canonicalForm other) : SameUpToComments value other :=
  Json.sameUpToOrder_of_sortKeys_eq _ _ same

theorem canonicalForm_eq_iff {value other : Json} (distinct : value.DistinctKeys) :
    canonicalForm value = canonicalForm other ↔ SameUpToComments value other :=
  Json.sortKeys_eq_iff (Json.distinctKeys_dropKeys isComment value distinct)

theorem canonicalBytes_eq_iff {value other : Json} (distinct : value.DistinctKeys) :
    canonicalBytes value = canonicalBytes other ↔ SameUpToComments value other := by
  rw [← canonicalForm_eq_iff distinct]
  constructor
  · exact canonicalForm_eq_of_bytes_eq
  · intro same
    rw [canonicalBytes, same, canonicalBytes]

/-- **The canonical form is faithful.** Two values have the same canonical bytes
exactly when they are the same up to comments and the order of entries, and so do
their policy hashes wherever the digest tells the two inputs apart. -/
theorem canonical_form_faithful (value other : JsonValue) :
    (canonicalBytes value.tree = canonicalBytes other.tree ↔
        SameUpToComments value.tree other.tree) ∧
      ((sha256Hex (canonicalBytes value.tree) = sha256Hex (canonicalBytes other.tree) →
          canonicalBytes value.tree = canonicalBytes other.tree) →
        (policyHash value.tree = policyHash other.tree ↔
          SameUpToComments value.tree other.tree)) := by
  have bytes : canonicalBytes value.tree = canonicalBytes other.tree ↔
      SameUpToComments value.tree other.tree := canonicalBytes_eq_iff value.distinctKeys
  refine ⟨bytes, ?_⟩
  intro apart
  rw [← bytes, policyHash, policyHash, prefixedHash_inj]
  constructor
  · exact apart
  · intro same
    rw [same]

/-- A configuration with a comment in it, and the same one reordered without it. -/
def annotatedConfig : JsonValue :=
  ⟨.obj [("_comment", .str "hard cap"), ("risk", .obj [("stop_loss_pct", .num (.int 5)),
      ("max_open_positions", .num (.int 3))]), ("cadence_hours", .num (.int 1))],
    by simp [Json.DistinctKeys, Json.DistinctKeysFields]⟩

def plainConfig : JsonValue :=
  ⟨.obj [("cadence_hours", .num (.int 1)), ("risk", .obj [("max_open_positions", .num (.int 3)),
      ("stop_loss_pct", .num (.int 5))])],
    by simp [Json.DistinctKeys, Json.DistinctKeysFields]⟩

theorem canonical_form_faithful_annotatedConfig :
    SameUpToComments annotatedConfig.tree plainConfig.tree ∧
      policyHash annotatedConfig.tree = policyHash plainConfig.tree := by
  have bytes : canonicalBytes annotatedConfig.tree = canonicalBytes plainConfig.tree := by
    decide +kernel
  have same := (canonical_form_faithful annotatedConfig plainConfig).1.1 bytes
  exact ⟨same, ((canonical_form_faithful annotatedConfig plainConfig).2 fun _ => bytes).2 same⟩

theorem get?_canonicalForm (value : Json) {key : String} (kept : isComment key = false) :
    (canonicalForm value).get? key = (value.get? key).map canonicalForm := by
  rw [canonicalForm, Json.get?_sortKeys, stripComments, Json.get?_dropKeys isComment value kept,
    Option.map_map]
  rfl

theorem canonicalForm_arr (items : List Json) :
    canonicalForm (.arr items) = .arr (items.map canonicalForm) := by
  simp only [canonicalForm, stripComments, Json.dropKeys, Json.sortKeys,
    Json.dropKeysItems_eq_map, Json.sortKeysItems_eq_map, List.map_map]
  rfl

end SumplusTrader

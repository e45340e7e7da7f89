import SumplusTrader.Config
import SumplusTrader.Policy.Canonical

/-!
# Reads of a committed configuration

This file proves that the reads of a configuration see only its canonical form.
`CanonicalRead` says that a read cannot tell a value from its canonical form. The
reads of strings, numbers and lists have this property, a read at a key that is
not a comment keeps it, and so do the sections of the configuration.

The `chains` object is the one part that is read as it stands. A configuration
and its canonical form therefore agree on every value except the entries of
`chains`, which the canonical form sorts and strips.
-/

namespace SumplusTrader

/-- A read that sees only the canonical form of a value. -/
def CanonicalRead {α : Type} (read : Json → Option α) : Prop :=
  ∀ value, read (canonicalForm value) = read value

namespace Read

theorem canonical_asString : CanonicalRead asString := by
  intro value
  cases value <;> rfl

theorem canonical_asNumber : CanonicalRead asNumber := by
  intro value
  cases value <;> rfl

theorem canonical_map {α β : Type} {read : Json → Option α} (canonical : CanonicalRead read)
    (f : α → β) : CanonicalRead fun value => (read value).map f := by
  intro value
  exact congrArg (Option.map f) (canonical value)

theorem canonical_asRat : CanonicalRead asRat :=
  canonical_map canonical_asNumber Json.Number.value

theorem canonical_asList {α : Type} {read : Json → Option α} (canonical : CanonicalRead read) :
    CanonicalRead (asList read) := by
  intro value
  cases value with
  | arr items =>
      rw [canonicalForm_arr]
      simp only [asList]
      induction items with
      | nil => rfl
      | cons item items ih =>
          rw [List.map_cons, List.mapM_cons, List.mapM_cons, canonical item, ih]
  | _ => rfl

theorem item_canonicalForm {α : Type} {read : Json → Option α} (canonical : CanonicalRead read)
    {key : String} (kept : isComment key = false) (fields : Json) :
    item read (canonicalForm fields) key = item read fields key := by
  rw [item, get?_canonicalForm fields kept, item]
  cases fields.get? key with
  | none => rfl
  | some value => exact canonical value

theorem itemD_canonicalForm {α : Type} {read : Json → Option α} (canonical : CanonicalRead read)
    {key : String} (kept : isComment key = false) (fields : Json) (default : α) :
    itemD read (canonicalForm fields) key default = itemD read fields key default := by
  rw [itemD, get?_canonicalForm fields kept, itemD]
  cases fields.get? key with
  | none => rfl
  | some value => exact canonical value

theorem section?_canonicalForm {key : String} (kept : isComment key = false) (cfg : Json) :
    Read.section? (canonicalForm cfg) key = (section? cfg key).map canonicalForm := by
  rw [section?, get?_canonicalForm cfg kept, section?]
  cases cfg.get? key with
  | none => rfl
  | some value => cases value <;> rfl

end Read

open Read

theorem canonical_riskOfJson : CanonicalRead Risk.ofJson := by
  intro value
  simp (disch := decide) only [Risk.ofJson, item_canonicalForm canonical_asRat,
    item_canonicalForm canonical_asNumber, itemD_canonicalForm canonical_asRat]

theorem canonical_rungOfJson : CanonicalRead Rung.ofJson := by
  intro value
  simp (disch := decide) only [Rung.ofJson, item_canonicalForm canonical_asRat,
    item_canonicalForm canonical_asString]

theorem canonical_pairOfJson : CanonicalRead Pair.ofJson := by
  intro value
  simp (disch := decide) only [Pair.ofJson, item_canonicalForm canonical_asString]

theorem canonical_minTradesOfJson : CanonicalRead MinTrades.ofJson := by
  intro value
  simp (disch := decide) only [MinTrades.ofJson, itemD_canonicalForm canonical_asRat]

/-- The entries that the canonical form of an object keeps, in its order. -/
def canonicalEntries (entries : List (String × Json)) : List (String × Json) :=
  match canonicalForm (.obj entries) with
  | .obj sorted => sorted
  | _ => []

theorem chainEntries_canonicalForm (cfg : Json) :
    chainEntries (canonicalForm cfg) = (chainEntries cfg).map canonicalEntries := by
  rw [chainEntries, section?_canonicalForm (by decide), chainEntries]
  cases section? cfg "chains" with
  | none => rfl
  | some value => cases value <;> rfl

section Agree

variable {α β γ : Type} {k : α → Option β} {k' : α → Option γ} {g : γ → β}

theorem agree_bind (read : Option α) (agree : ∀ x, k x = (k' x).map g) :
    (read >>= k) = (read >>= k').map g := by
  cases read with
  | none => rfl
  | some x => exact agree x

theorem agree_mapped (read : Option α) {f : α → α} (agree : ∀ x, k (f x) = (k' x).map g) :
    (read.map f >>= k) = (read >>= k').map g := by
  cases read with
  | none => rfl
  | some x => exact agree x

theorem agree_section {key : String} (kept : isComment key = false) (cfg : Json)
    {read : Json → Option α} (canonical : CanonicalRead read)
    (agree : ∀ x, k x = (k' x).map g) :
    (Read.section? (canonicalForm cfg) key >>= fun fields => read fields >>= k) =
      (section? cfg key >>= fun fields => read fields >>= k').map g := by
  rw [section?_canonicalForm kept]
  cases section? cfg key with
  | none => rfl
  | some fields =>
      have step := agree_bind (read fields) agree
      rw [← canonical fields] at step
      simpa [canonical fields] using step

end Agree

/-- Apart from the chains, a configuration is read as its canonical form is. -/
theorem Config.ofJson_canonicalForm (cfg : Json) :
    Config.ofJson (canonicalForm cfg) = (Config.ofJson cfg).map fun config =>
      { config with chains := canonicalEntries config.chains } := by
  have strings := canonical_asList canonical_asString
  have riskRead : ((canonicalForm cfg).get? "risk").bind Risk.ofJson =
      (cfg.get? "risk").bind Risk.ofJson :=
    item_canonicalForm canonical_riskOfJson (by decide) cfg
  simp only [Config.ofJson, chainEntries_canonicalForm, riskRead]
  rw [itemD_canonicalForm strings (by decide),
    itemD_canonicalForm (canonical_map strings some) (by decide),
    itemD_canonicalForm strings (by decide),
    itemD_canonicalForm (canonical_asList canonical_pairOfJson) (by decide),
    itemD_canonicalForm (canonical_asList canonical_rungOfJson) (by decide)]
  have volRead : CanonicalRead fun signal => itemD asRat signal "vol_enter_max_pct" 4 :=
    fun signal => itemD_canonicalForm canonical_asRat (by decide) signal 4
  have ageRead : CanonicalRead fun data =>
      itemD asNumber data "max_data_age_seconds" (.int 600) :=
    fun data => itemD_canonicalForm canonical_asNumber (by decide) data (.int 600)
  refine agree_mapped _ fun _ => agree_bind _ fun _ => agree_bind _ fun _ => ?_
  refine agree_bind _ fun _ => agree_bind _ fun _ => ?_
  refine agree_section (by decide) cfg volRead fun _ => ?_
  refine agree_bind _ fun _ => agree_bind _ fun _ => ?_
  refine agree_section (by decide) cfg canonical_minTradesOfJson fun _ => ?_
  exact agree_section (by decide) cfg ageRead fun _ => rfl

/-- Configurations with one canonical form differ in their chains alone. -/
theorem Config.exists_ofJson_of_canonicalForm_eq {cfg other : Json} {config : Config}
    (same : canonicalForm cfg = canonicalForm other) (read : Config.ofJson cfg = some config) :
    ∃ chains, Config.ofJson other = some { config with chains := chains } := by
  have readCanonical := Config.ofJson_canonicalForm cfg
  rw [same, Config.ofJson_canonicalForm other, read, Option.map_some,
    Option.map_eq_some_iff] at readCanonical
  rcases readCanonical with ⟨config', readOther, agree⟩
  refine ⟨config'.chains, readOther.trans (congrArg some ?_)⟩
  cases config
  cases config'
  simp only [Config.mk.injEq] at agree ⊢
  exact ⟨trivial, agree.2⟩

end SumplusTrader

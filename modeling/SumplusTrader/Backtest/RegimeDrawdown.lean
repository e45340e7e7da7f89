import Mathlib.Order.Bounds.Image
import SumplusTrader.Backtest.Metrics
import SumplusTrader.Python.Dict
import SumplusTrader.Python.Numeric

/-!
# Drawdowns of a curve and of its regimes

This file compares the two loops that measure the drawdown of a curve of net asset values with
what a drawdown is. `maxDrawdownPct` walks over the curve once and keeps the peak so far, while
`drops` collects the drop between every two of its values. `perRegimeDrawdown` of
`backtest/run.py` cuts the curve at the regime boundaries: the peak is carried over a boundary,
and the largest drop is counted anew in every window.

Both loops take the same step on positive values, so the windows of a curve are one walk over it,
interrupted where a regime ends.
-/

namespace SumplusTrader

namespace Backtest

/-- The drops of a curve from an earlier value to a later one, in percent. -/
def drops (nav : List ℚ) : Set ℚ :=
  {d | ∃ (i j : ℕ) (high low : ℚ),
    i ≤ j ∧ nav[i]? = some high ∧ nav[j]? = some low ∧ d = dropPct high low}

/-- The names of `REGIMES`. -/
def regimeNames : List String := ["calm_uptrend", "choppy_range", "sharp_crash", "recovery"]

/-- `REGIME_BOUNDS`. -/
def regimeBounds : List ℕ := [0, 240, 540, 732, 1008]

/-- A regime with its boundaries, as the loop over `REGIMES` reads them. -/
def regimes : List (String × ℕ × ℕ) :=
  regimeNames.zip (regimeBounds.zip regimeBounds.tail)

/-- The values from one hour up to another, as far as the curve goes. -/
def window (nav : List ℚ) (lo hi : ℕ) : List ℚ := (nav.take hi).drop lo

/-- One turn of the inner loop of `_per_regime_drawdown`. -/
def windowStep (acc : ℚ × ℚ) (n : ℚ) : ℚ × ℚ :=
  let globalHwm := if acc.1 < n then n else acc.1
  (globalHwm,
    if 0 < globalHwm then
      if acc.2 < dropPct globalHwm n then dropPct globalHwm n else acc.2
    else acc.2)

/-- One turn of the outer loop: the high-water mark stays, the drawdown starts at zero. -/
def regimeStep (nav : List ℚ) (acc : ℚ × Dict String ℚ) (regime : String × ℕ × ℕ) :
    ℚ × Dict String ℚ :=
  let ran := (window nav regime.2.1 regime.2.2).foldl windowStep (acc.1, 0)
  (ran.1, acc.2.set regime.1 (Py.roundTo 4 ran.2))

/-- `_per_regime_drawdown`, of the curve of a portfolio. -/
def perRegimeDrawdown (nav : List ℚ) : Dict String ℚ :=
  (regimes.foldl (regimeStep nav)
    (-10 ^ 18, Dict.ofList (regimeNames.map fun name => (name, 0)))).2

variable {nav : List ℚ} {n hwm dd : ℚ}

/-- One more value adds the drops to this value. -/
theorem drops_concat (nav : List ℚ) (n : ℚ) :
    drops (nav ++ [n]) = drops nav ∪ (fun high => dropPct high n) '' {high | high ∈ nav ++ [n]} := by
  ext d
  constructor
  · rintro ⟨i, j, high, low, le, atI, atJ, rfl⟩
    rcases lt_or_ge j nav.length with inside | last
    · left
      rw [List.getElem?_append_left (le.trans_lt inside)] at atI
      rw [List.getElem?_append_left inside] at atJ
      exact ⟨i, j, high, low, le, atI, atJ, rfl⟩
    · right
      rw [List.getElem?_append_right last, List.getElem?_singleton] at atJ
      have same : n = low := by
        split at atJ
        · exact Option.some.inj atJ
        · cases atJ
      exact ⟨high, List.mem_of_getElem? atI, by rw [same]⟩
  · rintro (⟨i, j, high, low, le, atI, atJ, rfl⟩ | ⟨high, mem, rfl⟩)
    · have insideI := (List.getElem?_eq_some_iff.1 atI).1
      have insideJ := (List.getElem?_eq_some_iff.1 atJ).1
      exact ⟨i, j, high, low, le, by rw [List.getElem?_append_left insideI, atI],
        by rw [List.getElem?_append_left insideJ, atJ], rfl⟩
    · obtain ⟨i, inside, atI⟩ := List.mem_iff_getElem.1 mem
      refine ⟨i, nav.length, high, n, ?_, ?_, ?_, rfl⟩
      · rw [List.length_append, List.length_singleton] at inside
        omega
      · exact List.getElem?_eq_some_iff.2 ⟨inside, atI⟩
      · rw [List.getElem?_append_right le_rfl, Nat.sub_self]
        rfl

/-- The largest drop to a value is the drop from the peak. -/
theorem isGreatest_dropPct {values : Set ℚ} (nonneg : 0 ≤ n) (positive : ∀ high ∈ values, 0 < high)
    (peak : IsGreatest values hwm) :
    IsGreatest ((fun high => dropPct high n) '' values) (dropPct hwm n) := by
  constructor
  · exact ⟨hwm, peak.1, rfl⟩
  · rintro _ ⟨high, mem, rfl⟩
    exact dropPct_le nonneg (positive high mem) (peak.2 mem)

/-- Between positive values no drop reaches the whole. -/
theorem lt_of_mem_drops (positive : ∀ n ∈ nav, 0 < n) (mem : dd ∈ drops nav) : dd < 100 := by
  obtain ⟨i, j, high, low, -, atI, atJ, rfl⟩ := mem
  have highPositive := positive high (List.mem_of_getElem? atI)
  have lowPositive := positive low (List.mem_of_getElem? atJ)
  have share : 0 < low / high := div_pos lowPositive highPositive
  rw [dropPct, sub_div, div_self highPositive.ne']
  linarith

/-- A curve drops by nothing from a value to itself. -/
theorem zero_mem_drops (nonempty : nav ≠ []) : (0 : ℚ) ∈ drops nav := by
  have inside := List.length_pos_of_ne_nil nonempty
  refine ⟨0, 0, nav[0], nav[0], le_rfl, ?_, ?_, by simp [dropPct]⟩
  · exact List.getElem?_eq_getElem inside
  · exact List.getElem?_eq_getElem inside

theorem windowStep_eq (positive : 0 < n) (hwm dd : ℚ) :
    windowStep (hwm, dd) n = (max hwm n, max dd (dropPct (max hwm n) n)) := by
  have mark : (if hwm < n then n else hwm) = max hwm n := (max_def_lt hwm n).symm
  have high : 0 < max hwm n := lt_max_of_lt_right positive
  rw [windowStep]
  dsimp only
  rw [mark, if_pos high, ← max_def_lt]

/-- A walk keeps the peak of the curve and its largest drop. -/
theorem walk_isGreatest (low : hwm ≤ 0) (positive : ∀ n ∈ nav, 0 < n) (nonempty : nav ≠ []) :
    IsGreatest {n | n ∈ nav} (nav.foldl windowStep (hwm, 0)).1 ∧
      IsGreatest (drops nav) (nav.foldl windowStep (hwm, 0)).2 := by
  induction nav using List.reverseRecOn with
  | nil => exact absurd rfl nonempty
  | append_singleton nav n ih =>
      have here : 0 < n := positive n (by simp)
      rw [List.foldl_append, List.foldl_cons, List.foldl_nil]
      rcases eq_or_ne nav [] with rfl | earlier
      · rw [List.foldl_nil, windowStep_eq here, max_eq_right (low.trans here.le)]
        have peak : IsGreatest {high | high ∈ [] ++ [n]} n := by simp
        have drop : dropPct n n = 0 := by simp [dropPct]
        refine ⟨peak, ?_⟩
        rw [drops_concat]
        have none : drops [] = ∅ := by simp [drops]
        rw [none, Set.empty_union, drop, max_self, ← drop]
        exact isGreatest_dropPct here.le positive peak
      · obtain ⟨peak, largest⟩ := ih (fun n mem => positive n (by simp [mem])) earlier
        set ran := nav.foldl windowStep (hwm, 0)
        rw [windowStep_eq here]
        have raised : IsGreatest {high | high ∈ nav ++ [n]} (max ran.1 n) := by
          have members : {high | high ∈ nav ++ [n]} = {high | high ∈ nav} ∪ {n} := by
            ext high
            simp [or_comm]
          rw [members]
          exact peak.union isGreatest_singleton
        refine ⟨raised, ?_⟩
        rw [drops_concat]
        exact largest.union (isGreatest_dropPct here.le positive raised)

/-- With a mark on record both loops take the same steps. -/
theorem foldl_drawdownStep_some (nav : List ℚ) (hwm dd : ℚ) :
    nav.foldl drawdownStep (some hwm, dd) =
      (some (nav.foldl windowStep (hwm, dd)).1, (nav.foldl windowStep (hwm, dd)).2) := by
  induction nav generalizing hwm dd with
  | nil => rfl
  | cons n nav ih =>
      rw [List.foldl_cons, List.foldl_cons]
      exact ih (windowStep (hwm, dd) n).1 (windowStep (hwm, dd) n).2

/-- A mark that is not positive stands for no mark. -/
theorem maxDrawdownPct_eq_walk (low : hwm ≤ 0) (positive : ∀ n ∈ nav, 0 < n) :
    maxDrawdownPct nav = (nav.foldl windowStep (hwm, 0)).2 := by
  cases nav with
  | nil => rfl
  | cons n nav =>
      have here : 0 < n := positive n (by simp)
      have first : drawdownStep (none, 0) n = (some n, max 0 (dropPct n n)) := by
        rw [max_def_lt]
        exact Prod.ext rfl (if_pos here)
      rw [maxDrawdownPct, List.foldl_cons, List.foldl_cons, first, windowStep_eq here,
        max_eq_right (low.trans here.le), foldl_drawdownStep_some]

/-- The drop a walk starts from is kept as long as no larger one is met. -/
theorem foldl_windowStep_max (positive : ∀ n ∈ nav, 0 < n) (hwm dd dd' : ℚ) :
    nav.foldl windowStep (hwm, max dd dd') =
      ((nav.foldl windowStep (hwm, dd')).1, max dd (nav.foldl windowStep (hwm, dd')).2) := by
  induction nav generalizing hwm dd' with
  | nil => rfl
  | cons n nav ih =>
      have here : 0 < n := positive n (by simp)
      rw [List.foldl_cons, List.foldl_cons, windowStep_eq here, windowStep_eq here, max_assoc]
      exact ih (fun n mem => positive n (by simp [mem])) _ _

/-- The largest drops of the windows of a curve, under a mark that is carried along. -/
def windowDrawdowns (hwm : ℚ) : List (List ℚ) → List ℚ
  | [] => []
  | values :: windows =>
      let ran := values.foldl windowStep (hwm, 0)
      ran.2 :: windowDrawdowns ran.1 windows

theorem walk_nonneg (positive : ∀ n ∈ nav, 0 < n) (hwm : ℚ) :
    0 ≤ (nav.foldl windowStep (hwm, 0)).2 := by
  have kept := foldl_windowStep_max positive hwm 0 0
  rw [max_self] at kept
  rw [kept]
  exact le_max_left _ _

/-- The largest of the windows' drops is the largest drop of the walk over all of them. -/
theorem windowDrawdowns_isGreatest (hwm : ℚ) (values : List ℚ) (windows : List (List ℚ))
    (positive : ∀ n ∈ (values :: windows).flatten, 0 < n) :
    IsGreatest {dd | dd ∈ windowDrawdowns hwm (values :: windows)}
      ((values :: windows).flatten.foldl windowStep (hwm, 0)).2 := by
  induction windows generalizing hwm values with
  | nil => simp [windowDrawdowns]
  | cons next windows ih =>
      have inside : ∀ n ∈ values, 0 < n := fun n mem =>
        positive n (List.mem_flatten.2 ⟨values, by simp, mem⟩)
      have after : ∀ n ∈ (next :: windows).flatten, 0 < n := by
        intro n mem
        apply positive n
        rw [List.flatten_cons]
        exact List.mem_append_right values mem
      have carried := foldl_windowStep_max after (values.foldl windowStep (hwm, 0)).1
        (values.foldl windowStep (hwm, 0)).2 0
      rw [max_eq_left (walk_nonneg inside hwm)] at carried
      rw [List.flatten_cons, List.foldl_append, carried]
      have members : {dd | dd ∈ windowDrawdowns hwm (values :: next :: windows)} =
          insert (values.foldl windowStep (hwm, 0)).2 {dd | dd ∈
            windowDrawdowns (values.foldl windowStep (hwm, 0)).1 (next :: windows)} := by
        ext dd
        rw [windowDrawdowns]
        exact List.mem_cons
      rw [members]
      exact (ih _ _ after).insert _

/-- The windows between the boundaries make up the curve as far as the last boundary. -/
theorem flatten_windows (nav : List ℚ) (within : nav.length ≤ 1008) :
    (regimes.map fun regime => window nav regime.2.1 regime.2.2).flatten = nav := by
  have next : ∀ lo hi, lo ≤ hi → nav.take lo ++ window nav lo hi = nav.take hi := by
    intro lo hi le
    have start : nav.take lo = (nav.take hi).take lo := by
      rw [List.take_take, min_eq_left le]
    rw [start, window, List.take_append_drop]
  calc (regimes.map fun regime => window nav regime.2.1 regime.2.2).flatten
      = nav.take 0 ++ window nav 0 240 ++ window nav 240 540 ++ window nav 540 732 ++
          window nav 732 1008 := by
        simp [regimes, regimeNames, regimeBounds]
    _ = nav.take 1008 := by
        rw [next 0 240 (by omega), next 240 540 (by omega), next 540 732 (by omega),
          next 732 1008 (by omega)]
    _ = nav := List.take_of_length_le within

/-- The regimes are stored one after the other, each with the rounded drop of its window. -/
theorem foldl_regimeStep (nav : List ℚ) (regimes : List (String × ℕ × ℕ)) (hwm : ℚ)
    (out : Dict String ℚ) :
    (regimes.foldl (regimeStep nav) (hwm, out)).2 =
      ((regimes.map Prod.fst).zip ((windowDrawdowns hwm
        (regimes.map fun regime => window nav regime.2.1 regime.2.2)).map
          (Py.roundTo 4))).foldl (fun d entry => d.set entry.1 entry.2) out := by
  induction regimes generalizing hwm out with
  | nil => rfl
  | cons regime regimes ih =>
      rw [List.foldl_cons, regimeStep, ih]
      rfl

theorem length_windowDrawdowns (hwm : ℚ) (windows : List (List ℚ)) :
    (windowDrawdowns hwm windows).length = windows.length := by
  induction windows generalizing hwm with
  | nil => rfl
  | cons values windows ih => rw [windowDrawdowns, List.length_cons, List.length_cons, ih]

/-- What the regimes are reported with: the rounded drops of the windows. -/
theorem values_perRegimeDrawdown (nav : List ℚ) :
    (perRegimeDrawdown nav).values = (windowDrawdowns (-10 ^ 18)
      (regimes.map fun regime => window nav regime.2.1 regime.2.2)).map (Py.roundTo 4) := by
  set drawdowns := (windowDrawdowns (-10 ^ 18)
    (regimes.map fun regime => window nav regime.2.1 regime.2.2)).map (Py.roundTo 4) with reported
  have lengths : drawdowns.length = (regimes.map Prod.fst).length := by
    rw [reported, List.length_map, length_windowDrawdowns, List.length_map, List.length_map]
  have names : ((regimes.map Prod.fst).zip drawdowns).map Prod.fst = regimeNames := by
    rw [List.map_fst_zip lengths.ge]
    rfl
  have zeros : (Dict.ofList (regimeNames.map fun name => (name, (0 : ℚ)))).entries =
      regimeNames.map fun name => (name, 0) := by
    apply Dict.entries_ofList
    rw [List.map_map]
    decide
  have stored := Dict.entries_foldl_set [] _ ((regimes.map Prod.fst).zip drawdowns) zeros
    names.symm
  rw [Dict.values, perRegimeDrawdown, foldl_regimeStep, stored, List.nil_append,
    List.map_snd_zip lengths.le]

/-- The drawdown of one walk is the largest drop of the curve, and the regimes agree with it. -/
theorem maxDrawdownPct_isGreatest (nav : List ℚ) (nonempty : nav ≠ [])
    (positive : ∀ n ∈ nav, 0 < n) :
    IsGreatest (drops nav) (maxDrawdownPct nav) ∧
      0 ≤ maxDrawdownPct nav ∧ maxDrawdownPct nav < 100 ∧
      (nav.length ≤ regimeBounds.getLast (by decide) →
        IsGreatest {dd | dd ∈ (perRegimeDrawdown nav).values}
          (Py.roundTo 4 (maxDrawdownPct nav))) := by
  have low : (-10 ^ 18 : ℚ) ≤ 0 := by norm_num
  have walked := maxDrawdownPct_eq_walk low positive
  obtain ⟨-, largest⟩ := walk_isGreatest low positive nonempty
  rw [← walked] at largest
  refine ⟨largest, largest.2 (zero_mem_drops nonempty), lt_of_mem_drops positive largest.1, ?_⟩
  intro within
  have cut := flatten_windows nav within
  have windows : regimes.map (fun regime => window nav regime.2.1 regime.2.2) =
      window nav 0 240 :: [window nav 240 540, window nav 540 732, window nav 732 1008] := rfl
  have rounded : {dd | dd ∈ (perRegimeDrawdown nav).values} = Py.roundTo 4 '' {dd | dd ∈
      windowDrawdowns (-10 ^ 18)
        (regimes.map fun regime => window nav regime.2.1 regime.2.2)} := by
    ext dd
    rw [values_perRegimeDrawdown]
    exact List.mem_map
  rw [rounded, walked]
  apply (Py.roundTo_mono 4).map_isGreatest
  rw [windows] at cut ⊢
  have whole := windowDrawdowns_isGreatest (-10 ^ 18) _ _ (by rwa [cut])
  rwa [cut] at whole

theorem maxDrawdownPct_isGreatest_dip :
    IsGreatest (drops [100, 80, 90]) 20 ∧
      IsGreatest {dd | dd ∈ (perRegimeDrawdown [100, 80, 90]).values} 20 := by
  have measured : maxDrawdownPct [100, 80, 90] = 20 := by decide +kernel
  have rounded : Py.roundTo 4 (20 : ℚ) = 20 := by decide +kernel
  obtain ⟨largest, -, -, regimes⟩ :=
    maxDrawdownPct_isGreatest [100, 80, 90] (by decide) (by decide +kernel)
  rw [measured] at largest regimes
  rw [rounded] at regimes
  exact ⟨largest, regimes (by decide)⟩

end Backtest

end SumplusTrader

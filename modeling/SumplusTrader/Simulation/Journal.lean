import SumplusTrader.Accounting.Journal
import SumplusTrader.Backtest.Metrics
import SumplusTrader.Core.Conservation
import SumplusTrader.Core.SimulatedTick
import SumplusTrader.Simulation.PolicyView

/-!
# The journal of a replay

This file keeps the books of the replays by double entry. A tick posts at most one trade, at the
price of its views. Unlike the backtest engine the replays know no fee and no slippage: a trade
loses nothing but the dust that a closing sale drops.

The logs on disk do not enter into it. `lastBook` replays the judgements alone, and
`replayHours_lastBook` finds the same book at the end whatever the logs hold, as long as a receipt
can be appended to them.
-/

namespace SumplusTrader

open Accounting (Entry)

/-- The value of the book at a quotation. -/
def State.worth (state : State) (quote : String → ℚ) : ℚ :=
  state.stable + state.positions.total fun sym pos => pos.qty * quote sym

/-- A trade at a price that loses at most the dust of a sale. -/
structure DustOnly (price : Dict String ℚ) (entry : Entry String ℚ) : Prop where
  quoted : entry.price = priceOrZero price entry.asset
  priced : 0 < entry.price
  loses : 0 ≤ entry.friction
  bounded : entry.friction ≤ 1 / 1000000000 * entry.price

/-- One book becomes another by at most one trade. -/
structure Posts (price : Dict String ℚ) (state after : State) (entries : List (Entry String ℚ)) :
    Prop where
  atMostOne : entries.length ≤ 1
  dustOnly : ∀ entry ∈ entries, DustOnly price entry
  worth : ∀ quote, after.worth quote = state.worth quote + Accounting.worth quote entries

section Fills

variable {state : State} {decision : Decision} {amountUsd : ℚ} {price : Dict String ℚ}

theorem FillBuys.posts (fill : FillBuys state decision amountUsd price) (nowTs : ℚ) :
    Posts price state (applyFill state decision amountUsd price nowTs)
      [⟨decision.tradedSymbol, priceOrZero price decision.tradedSymbol,
        amountUsd / priceOrZero price decision.tradedSymbol, -amountUsd⟩] := by
  have paid := div_mul_cancel₀ amountUsd fill.priced.ne'
  refine ⟨le_refl 1, ?_, ?_⟩
  · intro entry mem
    rw [List.mem_singleton] at mem
    subst mem
    have friction : Entry.friction ⟨decision.tradedSymbol,
        priceOrZero price decision.tradedSymbol,
        amountUsd / priceOrZero price decision.tradedSymbol, -amountUsd⟩ = 0 := by
      simp only [Entry.friction, paid]
      ring
    refine ⟨rfl, fill.priced, friction.ge, ?_⟩
    rw [friction]
    exact mul_nonneg (by norm_num) fill.priced.le
  · intro quote
    rw [fill.applyFill_eq, Accounting.worth_singleton]
    simp only [State.worth, State.stable, Option.getD_some, Entry.worth]
    rcases held : state.positions.get? decision.tradedSymbol with _ | old
    · rw [Dict.total_set_of_none _ _ held]
      simp only [boughtPosition]
      ring
    · rw [Dict.total_set_of_some _ _ held]
      simp only [boughtPosition, addToPosition]
      ring

theorem FillSells.posts {old : HeldPosition} (fill : FillSells state decision price old)
    (amountUsd nowTs : ℚ) :
    Posts price state (applyFill state decision amountUsd price nowTs)
      [⟨decision.tradedSymbol, priceOrZero price decision.tradedSymbol,
        -(min old.qty (amountUsd / priceOrZero price decision.tradedSymbol) +
          old.dust amountUsd (priceOrZero price decision.tradedSymbol)),
        min old.qty (amountUsd / priceOrZero price decision.tradedSymbol) *
          priceOrZero price decision.tradedSymbol⟩] := by
  have kept := old.left_nonneg amountUsd (priceOrZero price decision.tradedSymbol)
  have drops : 0 ≤ old.dust amountUsd (priceOrZero price decision.tradedSymbol) ∧
      old.dust amountUsd (priceOrZero price decision.tradedSymbol) ≤ 1 / 1000000000 := by
    unfold HeldPosition.dust
    split
    · next small => exact ⟨kept, small⟩
    · exact ⟨le_refl 0, by norm_num⟩
  refine ⟨le_refl 1, ?_, ?_⟩
  · intro entry mem
    rw [List.mem_singleton] at mem
    subst mem
    have friction : Entry.friction ⟨decision.tradedSymbol,
        priceOrZero price decision.tradedSymbol,
        -(min old.qty (amountUsd / priceOrZero price decision.tradedSymbol) +
          old.dust amountUsd (priceOrZero price decision.tradedSymbol)),
        min old.qty (amountUsd / priceOrZero price decision.tradedSymbol) *
          priceOrZero price decision.tradedSymbol⟩ =
        old.dust amountUsd (priceOrZero price decision.tradedSymbol) *
          priceOrZero price decision.tradedSymbol := by
      simp only [Entry.friction]
      ring
    refine ⟨rfl, fill.priced, ?_, ?_⟩
    · rw [friction]
      exact mul_nonneg drops.1 fill.priced.le
    · rw [friction]
      exact mul_le_mul_of_nonneg_right drops.2 fill.priced.le
  · intro quote
    rw [fill.applyFill_eq, Accounting.worth_singleton]
    simp only [State.worth, State.stable, Option.getD_some, Entry.worth, soldPositions,
      HeldPosition.dust]
    split
    · rw [Dict.total_pop_of_some _ fill.held]
      simp only [HeldPosition.left]
      ring
    · rw [Dict.total_set_of_some _ _ fill.held]
      simp only [HeldPosition.left]
      ring

/-- A fill posts at most one trade. -/
theorem applyFill_posts (state : State) (decision : Decision) (amountUsd : ℚ)
    (price : Dict String ℚ) (nowTs : ℚ) :
    ∃ entries, Posts price state (applyFill state decision amountUsd price nowTs) entries := by
  rcases applyFill_cases state decision amountUsd price nowTs with
    fill | ⟨old, fill⟩ | ⟨-, -, same⟩
  · exact ⟨_, fill.posts nowTs⟩
  · exact ⟨_, fill.posts amountUsd nowTs⟩
  · refine ⟨[], by simp, by simp, ?_⟩
    intro quote
    rw [same, Accounting.worth_nil, add_zero]
    rfl

end Fills

namespace Simulation

/-- A tick of a replay is executed. -/
def ReplayTick.executed (t : ReplayTick) : Bool :=
  match (Core.tick t.world t.state t.input).2 with
  | .ok (result, _) => result.executed
  | .error _ => false

/-- What a tick that completes posts, and what it counts. -/
theorem tick_posts {world : World} {state newState : State} {input : TickInput} {fx : Effects}
    {result : TickResult} {views : List TokenView} {dataTs : ℚ}
    (market : input.market = some (views, dataTs))
    (ticked : Core.tick world state input = (fx, .ok (result, newState))) :
    (∃ entries, Posts (priceMap views) state newState entries) ∧
      newState.tradesThisWeek = state.tradesThisWeek + if result.executed then 1 else 0 := by
  rcases Core.tick_state ticked with ⟨ph, j, seq, prepared, -, rfl, -⟩
  have viewed : j.views = views := by
    rcases Core.prepare_eq_ok_iff.1 prepared with ⟨_, _, views', _, -, -, -, found, judged⟩
    rw [Core.marketData, market, Except.ok.injEq, Prod.mk.injEq] at found
    rcases Core.judge_eq_ok_iff.1 judged with ⟨_, _, _, -, -, -, rfl⟩
    exact found.1.symm
  cases result.executed with
  | false =>
      refine ⟨⟨[], by simp, by simp, ?_⟩, by simp [Core.settle]⟩
      intro quote
      rw [Accounting.worth_nil, add_zero]
      rfl
  | true =>
      rcases applyFill_posts { state with pendingIntent := none, intentSeq := seq } j.decision
        j.verdict.finalAmountUsd (priceMap views) j.nowTs with ⟨entries, posts⟩
      refine ⟨⟨entries, posts.atMostOne, posts.dustOnly, ?_⟩, ?_⟩
      · intro quote
        have worth := posts.worth quote
        rw [← viewed] at worth
        exact worth
      · simp only [Core.settle, if_true]

/-- The quotation that marking a book uses: a position without a price is kept at its entry. -/
def markQuote (state : State) (price : Dict String ℚ) (sym : String) : ℚ :=
  markPrice price sym (((state.positions.get? sym).map HeldPosition.entryPrice).getD 0)

theorem markNav_eq_worth (state : State) (price : Dict String ℚ) :
    (markNav state price).1 = state.worth (markQuote state price) := by
  rw [markNav_fst_eq, State.worth, markedUsd, Dict.total, Dict.total]
  congr 2
  apply List.map_congr_left
  intro entry mem
  have found := (Dict.get?_eq_some_iff state.positions entry.1 entry.2).2 mem
  rw [markQuote, found, Option.map_some, Option.getD_some]

theorem worth_markNav {state : State} (cash : ∃ stable, state.stableUsd = some stable)
    (price : Dict String ℚ) : (markNav state price).2.worth = state.worth := by
  rcases cash with ⟨stable, cash⟩
  funext quote
  simp [State.worth, markNav, State.stable, cash]

/-- A book that the journal keeps, and that was marked at the prices of some views. -/
structure KeptAt (nav0 : ℚ) (journal : List (Entry String ℚ)) (views : Option (List TokenView))
    (state : State) : Prop where
  kept : Accounting.Kept nav0 journal state.worth
  marked : ∀ old, views = some old → state.navOrDefault = nav0 +
    Accounting.gains (markQuote state (priceMap old)) journal - Accounting.friction journal

/-- The ticks of a replay start from books that the journals before them keep, and each posts at
most one trade at its prices. -/
structure Journalled (nav0 : ℚ) (before : List (Entry String ℚ)) (ticks : List ReplayTick)
    (journals : List (List (Entry String ℚ))) : Prop where
  length : journals.length = ticks.length
  keptAt : ∀ (i : ℕ) t, ticks[i]? = some t →
    KeptAt nav0 (before ++ (journals.take i).flatten) t.previous t.state
  posted : ∀ (i : ℕ) t entries, ticks[i]? = some t → journals[i]? = some entries →
    entries.length ≤ 1 ∧ ∀ entry ∈ entries, DustOnly (priceMap t.views) entry

variable {pstdev : List ℚ → ℚ} {replay : Replay} {config : Config} {world : World} {nav0 : ℚ}
  {previous views : Option (List TokenView)} {state last : State} {tally ended : Tally}
  {hours : List ℕ} {ticks : List ReplayTick} {before entries : List (Entry String ℚ)}

theorem Kept.keptAt_markNav (kept : Accounting.Kept nav0 before state.worth)
    (cash : ∃ stable, state.stableUsd = some stable) (views : List TokenView) :
    KeptAt nav0 before (some views) (markNav state (priceMap views)).2 := by
  have same := worth_markNav cash (priceMap views)
  refine ⟨same ▸ kept, ?_⟩
  intro old seen
  rw [Option.some.injEq] at seen
  subst seen
  have nav := markNav_eq_worth state (priceMap views)
  rw [kept.attribution] at nav
  exact nav

theorem Journalled.cons {journals : List (List (Entry String ℚ))} {t : ReplayTick}
    (keptAt : KeptAt nav0 before t.previous t.state)
    (posted : entries.length ≤ 1 ∧ ∀ entry ∈ entries, DustOnly (priceMap t.views) entry)
    (rest : Journalled nav0 (before ++ entries) ticks journals) :
    Journalled nav0 before (t :: ticks) (entries :: journals) where
  length := by simp [rest.length]
  keptAt := by
    intro i other found
    cases i with
    | zero =>
        rw [List.getElem?_cons_zero, Option.some.injEq] at found
        rw [← found]
        simpa using keptAt
    | succ i =>
        rw [List.getElem?_cons_succ] at found
        rw [List.take_succ_cons, List.flatten_cons, ← List.append_assoc]
        exact rest.keptAt i other found
  posted := by
    intro i other entered found entries
    cases i with
    | zero =>
        rw [List.getElem?_cons_zero, Option.some.injEq] at found entries
        rw [← found, ← entries]
        exact posted
    | succ i =>
        rw [List.getElem?_cons_succ] at found entries
        exact rest.posted i other entered found entries

/-- What one hour of a replay does, when the replay goes on. -/
theorem replayHours_cons {h : ℕ} (ran : replayHours pstdev replay config world previous state tally
      (h :: hours) = (ticks, .ok (views, last, ended))) :
    ∃ seen fx result newState gate rest, replay.gatePct = .ok gate ∧
      Core.tick world state (inputAt replay h seen) = (fx, .ok (result, newState)) ∧
      ticks = ⟨world, previous, state, seen, inputAt replay h seen⟩ :: rest ∧
      replayHours pstdev replay config fx.world (some seen) (markNav newState (priceMap seen)).2
        (tallyHour tally gate h (markNav newState (priceMap seen)).1
          (markNav newState (priceMap seen)).2.highWater) hours =
        (rest, .ok (views, last, ended)) := by
  rw [replayHours] at ran
  rcases viewed : viewsAt pstdev replay.series h (timeAt replay h) config with e | seen
  · simp [viewed] at ran
  · simp only [viewed] at ran
    rcases ticked : Core.tick world state (inputAt replay h seen) with ⟨fx, e | ⟨result, newState⟩⟩
    · simp [ticked] at ran
    · simp only [ticked] at ran
      rcases gated : replay.gatePct with e | gate
      · simp [gated] at ran
      · simp only [gated, Prod.mk.injEq] at ran
        rcases ran with ⟨rfl, done⟩
        exact ⟨seen, fx, result, newState, gate, _, rfl, ticked, rfl, Prod.ext rfl done⟩

theorem replayHours_journalled (keptAt : KeptAt nav0 before previous state)
    (cash : ∃ stable, state.stableUsd = some stable)
    (ran : replayHours pstdev replay config world previous state tally hours =
      (ticks, .ok (views, last, ended))) :
    ∃ journals, Journalled nav0 before ticks journals ∧
      KeptAt nav0 (before ++ journals.flatten) views last := by
  induction hours generalizing world previous state tally before ticks with
  | nil =>
      simp only [replayHours, Prod.mk.injEq, Except.ok.injEq] at ran
      rcases ran with ⟨rfl, rfl, rfl, rfl⟩
      refine ⟨[], ⟨rfl, by simp, by simp⟩, ?_⟩
      simpa using keptAt
  | cons h hours ih =>
      rcases replayHours_cons ran with ⟨seen, fx, result, newState, gate, rest, -, ticked, rfl, on⟩
      rcases (tick_posts rfl ticked).1 with ⟨entries, posts⟩
      have cash' := cash_of_tick cash ticked
      have next := Kept.keptAt_markNav (keptAt.kept.append posts.worth) cash' seen
      rcases ih next cash' on with ⟨journals, journalled, kept⟩
      refine ⟨entries :: journals,
        journalled.cons keptAt ⟨posts.atMostOne, posts.dustOnly⟩, ?_⟩
      rw [List.flatten_cons, ← List.append_assoc]
      exact kept

theorem keptAt_initialState (nav : ℚ) : KeptAt nav [] none (initialState nav) where
  kept := by
    intro quote
    simp [State.worth, State.stable, initialState, Dict.total, Dict.empty]
  marked := by simp

/-- **A replay is its journal.** In every replay that completes, each tick starts from the initial
cash with the gains of the trades before it, less their friction; every tick posts at most one
trade at its own price, and a trade costs nothing but the dust of a closing sale. -/
theorem startReplay_journal (pstdev : List ℚ → ℚ) (replay : Replay) (world : World) (nav0 : ℚ)
    (hours : List ℕ) (ran : startReplay pstdev replay world nav0 hours =
      (ticks, .ok (views, last, ended))) :
    ∃ journals, Journalled nav0 [] ticks journals ∧ KeptAt nav0 journals.flatten views last ∧
      0 ≤ Accounting.friction journals.flatten ∧
      Accounting.friction journals.flatten ≤
        1 / 1000000000 * (journals.flatten.map Entry.price).sum := by
  unfold startReplay at ran
  rcases read : Core.readConfig replay.cfg with e | config
  · simp [read] at ran
  · simp only [read] at ran
    rcases replayHours_journalled (keptAt_initialState nav0) ⟨nav0, rfl⟩ ran with
      ⟨journals, journalled, kept⟩
    have dustOnly : ∀ entry ∈ journals.flatten, ∃ price, DustOnly price entry := by
      intro entry mem
      rcases List.mem_flatten.1 mem with ⟨entries, listed, mem⟩
      rcases List.mem_iff_getElem?.1 listed with ⟨i, found⟩
      have within : i < ticks.length := by
        rw [← journalled.length]
        exact (List.getElem?_eq_some_iff.1 found).1
      exact ⟨_, (journalled.posted i ticks[i] entries (List.getElem?_eq_getElem within)
        found).2 entry mem⟩
    refine ⟨journals, journalled, by simpa using kept, ?_, ?_⟩
    · apply Accounting.friction_nonneg
      intro entry mem
      rcases dustOnly entry mem with ⟨price, fair⟩
      exact fair.loses
    · have bound : Accounting.friction journals.flatten ≤
          0 * Accounting.turnover journals.flatten +
            1 / 1000000000 * (journals.flatten.map Entry.price).sum := by
        apply Accounting.friction_le
        intro entry mem
        rcases dustOnly entry mem with ⟨price, fair⟩
        rw [zero_mul, zero_add]
        exact fair.bounded
      rwa [zero_mul, zero_add] at bound

/-- The book at the end of a replay, from the judgements of its ticks alone. -/
def lastBook (pstdev : List ℚ → ℚ) (replay : Replay) (config : Config)
    (configFile : Option String) (state : State) : List ℕ → Except PyError State
  | [] => .ok state
  | h :: hours => do
      let views ← viewsAt pstdev replay.series h (timeAt replay h) config
      let prepared ← Core.prepare configFile state (inputAt replay h views)
      let _ ← replay.gatePct
      lastBook pstdev replay config configFile
        (markNav (Core.simulated state prepared.2).2 (priceMap views)).2 hours

/-- The logs on disk do not matter to a replay, as long as its receipts can be appended. -/
theorem replayHours_lastBook (appendable : Core.Appendable world) :
    (replayHours pstdev replay config world previous state tally hours).2.map
        (fun ended => ended.2.1) =
      lastBook pstdev replay config world.configFile state hours := by
  induction hours generalizing world previous state tally with
  | nil => rfl
  | cons h hours ih =>
      rw [replayHours, lastBook]
      rcases viewed : viewsAt pstdev replay.series h (timeAt replay h) config with e | seen
      · rfl
      · have kept := Core.tick_of_no_executor (show (inputAt replay h seen).executor = none from rfl)
          appendable state
        have configFile := Core.configFile_tick world state (inputAt replay h seen)
        simp only [bind, Except.bind]
        rcases prepared : Core.prepare world.configFile state (inputAt replay h seen) with
          e | ⟨ph, j⟩
        · rcases ticked : Core.tick world state (inputAt replay h seen) with ⟨fx, e' | made⟩
          · rw [ticked, prepared] at kept
            simpa [Except.map] using kept.2
          · simp [ticked, prepared, Except.map] at kept
        · rcases ticked : Core.tick world state (inputAt replay h seen) with
            ⟨fx, e' | ⟨result, newState⟩⟩
          · simp [ticked, prepared, Except.map] at kept
          · rw [ticked, prepared] at kept
            rw [ticked] at configFile
            have booked : newState = (Core.simulated state j).2 :=
              congrArg Prod.snd (Except.ok.inj kept.2)
            subst booked
            rcases gated : replay.gatePct with e | gate
            · rfl
            · have appendable' : Core.Appendable fx.world := kept.1
              have configFile' : fx.world.configFile = world.configFile := configFile
              rw [← configFile']
              exact ih appendable'

/-- The replayed profile is enforced, and of the file only the hash is taken. -/
theorem lastBook_of_loadConfig {file other : Option String} {committed committed' : Json}
    (truthy : replay.cfg.truthy = true) (loaded : loadConfig file = .ok committed)
    (loaded' : loadConfig other = .ok committed') :
    lastBook pstdev replay config file state hours =
      lastBook pstdev replay config other state hours := by
  induction hours generalizing state with
  | nil => rfl
  | cons h hours ih =>
      simp only [lastBook, Core.prepare, inputAt, Core.enforcedConfig, truthy, if_true,
        committedPolicyHash, loaded, loaded', Except.map, bind_assoc, pure_bind, ih]
      rfl

/-- A replay completes when its judgements do. -/
theorem startReplay_of_lastBook (appendable : Core.Appendable world)
    (read : Core.readConfig replay.cfg = .ok config)
    (judged : lastBook pstdev replay config world.configFile (initialState nav0) hours = .ok last) :
    ∃ ticks views ended,
      startReplay pstdev replay world nav0 hours = (ticks, .ok (views, last, ended)) := by
  have kept : (replayHours pstdev replay config world none (initialState nav0) ⟨0, none⟩ hours).2.map
      (fun ended => ended.2.1) =
        lastBook pstdev replay config world.configFile (initialState nav0) hours :=
    replayHours_lastBook appendable
  rw [judged] at kept
  rcases ran : replayHours pstdev replay config world none (initialState nav0) ⟨0, none⟩ hours with
    ⟨ticks, e | ⟨views, book, ended⟩⟩
  · rw [ran] at kept
    cases kept
  · rw [ran] at kept
    cases kept
    refine ⟨ticks, views, ended, ?_⟩
    unfold startReplay
    simp only [read]
    exact ran

/-- Over two hours of prices that double, the position is bought at sixteen dollars. -/
theorem startReplay_journal_doubling : ∃ ticks views last ended journals,
    startReplay (fun _ => 0) doublingReplay Core.bareWorld 500 [4, 5] =
        (ticks, .ok (views, last, ended)) ∧
      Journalled 500 [] ticks journals ∧ KeptAt 500 journals.flatten views last ∧
      last.navOrDefault = 550 := by
  have read : (Config.ofJson (Core.hourlyProfile 1)).isSome := rfl
  rcases Option.isSome_iff_exists.1 read with ⟨config, found⟩
  have judged : (Config.ofJson (Core.hourlyProfile 1)).map (fun config =>
      (lastBook (fun _ => 0) doublingReplay config Core.bareWorld.configFile (initialState 500)
        [4, 5]).toOption.map State.navOrDefault) = some (some 550) := by
    decide +kernel
  rw [found, Option.map_some, Option.some.injEq] at judged
  rcases book : lastBook (fun _ => 0) doublingReplay config Core.bareWorld.configFile
    (initialState 500) [4, 5] with e | last
  · simp [book, Except.toOption] at judged
  · rw [book, Except.toOption, Option.map_some, Option.some.injEq] at judged
    have read : Core.readConfig doublingReplay.cfg = .ok config := by
      simp only [Core.readConfig, doublingReplay, found]
    rcases startReplay_of_lastBook (Core.appendable_of_empty rfl) read book with
      ⟨ticks, views, ended, ran⟩
    rcases startReplay_journal _ _ _ _ _ ran with ⟨journals, journalled, kept, -, -⟩
    exact ⟨ticks, views, last, ended, journals, ran, journalled, kept, judged⟩

end Simulation

end SumplusTrader

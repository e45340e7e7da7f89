import SumplusTrader.Core.LiveTick
import SumplusTrader.Core.ExposureCap
import SumplusTrader.Data.TokenViews

/-!
# The age of the quotes that a tick trades on

This file follows the time of a quote through a tick. A response gives each quote the
time at which it was last updated. `get_token_views` does not read it: it stamps all
views with the time of the fetch, and the policy engine compares that stamp with the
cap on the age of the data. The time for which a quote was already standing when it
was fetched is counted nowhere.

What the cap bounds is the time since the fetch (`fetch_recent`). So a tick trades on no
old quote when the fetch is too old to trade at all, or when the response holds no old quote
of a committed token (`no_old_trade`).
-/

namespace SumplusTrader

/-- A quote with the time at which it was last updated. -/
structure StampedQuote extends UsdQuote where
  lastUpdated : ℚ

/-- The quotes of a response, by symbol. -/
def Response : Type := String → Option StampedQuote

/-- What `get_token_views` reads of a response. -/
def Response.feed (response : Response) : Feed :=
  .live fun symbol => (response symbol).map StampedQuote.toUsdQuote

/-- The time at which the quote of a token was last updated. -/
def Response.lastUpdated (response : Response) (symbols : List String) (token : String) :
    Option ℚ :=
  (Feed.requested symbols (Py.upper token)).bind fun symbol =>
    (response symbol).map StampedQuote.lastUpdated

def Decision.Involves (decision : Decision) (token : String) : Prop :=
  token = decision.fromToken ∨ token = decision.toToken

namespace Core

/-- How a tick comes by the views: they were fetched for some symbols and handed in, or the
tick fetches them itself. -/
inductive Feeding where
  | handed (symbols : List String)
  | fetched

def Feeding.symbols (cfg : Config) : Feeding → List String
  | .handed symbols => symbols
  | .fetched => cfg.universeTokens ++ cfg.quoteTokens.getD []

/-- The arguments of a tick that is fed by `get_token_views` in live mode, with a response and
the reading of the clock at the fetch. -/
def fedInput (input : TickInput) (response : Response) (fetchedAt : ℚ) : Feeding → TickInput
  | .handed symbols => { input with
      market := some (response.feed.getTokenViews symbols fetchedAt) }
  | .fetched => { input with
      market := none
      fetch := fun symbols => .ok (response.feed.getTokenViews symbols fetchedAt) }

/-- A tick sends an order in a token, or books a trade in it. -/
inductive TradesIn (world : World) (state : State) (input : TickInput) (token : String) : Prop where
  | sent (decision : Decision) (amount : ℚ) (cid : String)
      (mem : .orderSent decision amount cid ∈ (tick world state input).1.events)
      (involves : decision.Involves token)
  | booked (result : TickResult) (newState : State)
      (ended : (tick world state input).2 = .ok (result, newState))
      (executed : result.executed = true) (involves : result.decision.Involves token)

/-- Every quote that a tick trades on was updated within the cap. -/
def NoOldTrade (world : World) (state : State) (input : TickInput) (response : Response)
    (fetchedAt : ℚ) (feeding : Feeding) : Prop :=
  ∀ cfg, Enforces world (fedInput input response fetchedAt feeding) cfg → ∀ token ts,
    TradesIn world state (fedInput input response fetchedAt feeding) token →
      response.lastUpdated (feeding.symbols cfg) token = some ts →
        enforcedNow input.nowTs input.clock - ts ≤ cfg.maxDataAgeSeconds.value

/-- The quotes of the committed tokens were updated within the cap. -/
def QuotesWithinCap (cfg : Config) (response : Response) (symbols : List String) (now : ℚ) : Prop :=
  ∀ token ts, Py.upper token ∈ cfg.allowedTokens.map Py.upper →
    response.lastUpdated symbols token = some ts → now - ts ≤ cfg.maxDataAgeSeconds.value

variable {world : World} {state : State} {input : TickInput} {j : Judgement} {token : String}
  {cfg : Config} {response : Response} {fetchedAt : ℚ} {feeding : Feeding}

/-- A tick trades in the tokens of a decision that it has approved. -/
theorem approved_of_tradesIn (trades : TradesIn world state input token) :
    ∃ ph j, prepare world.configFile state input = .ok (ph, j) ∧ j.approved ∧
      j.decision.Involves token := by
  cases trades with
  | sent decision amount cid mem involves =>
      rcases mem_events_of_tick mem with ⟨ph, j, log, receipt, prepared, -, same | permitted⟩
      · cases same
      · exact ⟨ph, j, prepared, permitted.1, permitted.2.1 ▸ involves⟩
  | booked result newState ended executed involves =>
      rcases tick_state (Prod.ext rfl ended) with ⟨ph, j, seq, prepared, decision, -, approved⟩
      exact ⟨ph, j, prepared, approved executed, decision ▸ involves⟩

theorem marketData_fedInput (cfg : Config) (input : TickInput) (response : Response)
    (fetchedAt : ℚ) (feeding : Feeding) :
    marketData cfg (fedInput input response fetchedAt feeding) =
      .ok (response.feed.getTokenViews (feeding.symbols cfg) fetchedAt) := by
  cases feeding <;> rfl

theorem enforcedNow_fedInput (input : TickInput) (response : Response) (fetchedAt : ℚ)
    (feeding : Feeding) :
    enforcedNow (fedInput input response fetchedAt feeding).nowTs
      (fedInput input response fetchedAt feeding).clock = enforcedNow input.nowTs input.clock := by
  cases feeding <;> rfl

/-- What an approved decision has passed, with the time of the fetch for that of the data. -/
theorem passed_of_approved {ph : String}
    (enforces : Enforces world (fedInput input response fetchedAt feeding) cfg)
    (prepared : prepare world.configFile state (fedInput input response fetchedAt feeding) =
      .ok (ph, j)) (approved : j.approved) :
    max 0 (enforcedNow input.nowTs input.clock - fetchedAt) ≤ cfg.maxDataAgeSeconds.value ∧
      Py.upper j.decision.fromToken ∈ cfg.allowedTokens.map Py.upper ∧
      Py.upper j.decision.toToken ∈ cfg.allowedTokens.map Py.upper := by
  rcases judgement_of_prepare enforces prepared with
    ⟨views, dataTs, chain, quote, intent, market, -, -, rfl⟩
  rw [marketData_fedInput, Except.ok.injEq] at market
  have stamped : dataTs = fetchedAt := congrArg Prod.snd market.symm
  have passed := PolicyEngine.passed_of_allowed approved.2 approved.1
  refine ⟨?_, passed.fromCommitted, passed.toCommitted⟩
  rw [← stamped, ← enforcedNow_fedInput input response fetchedAt feeding]
  exact passed.fresh

/-- What the cap does bound is the time since the fetch. -/
theorem fetch_recent (enforces : Enforces world (fedInput input response fetchedAt feeding) cfg)
    (trades : TradesIn world state (fedInput input response fetchedAt feeding) token) :
    enforcedNow input.nowTs input.clock - fetchedAt ≤ cfg.maxDataAgeSeconds.value := by
  rcases approved_of_tradesIn trades with ⟨ph, j, prepared, approved, -⟩
  exact (le_max_right _ _).trans (passed_of_approved enforces prepared approved).1

/-- A tick trades in committed tokens alone. -/
theorem committed_of_tradesIn
    (enforces : Enforces world (fedInput input response fetchedAt feeding) cfg)
    (trades : TradesIn world state (fedInput input response fetchedAt feeding) token) :
    Py.upper token ∈ cfg.allowedTokens.map Py.upper := by
  rcases approved_of_tradesIn trades with ⟨ph, j, prepared, approved, involves⟩
  rcases passed_of_approved enforces prepared approved with ⟨-, fromCommitted, toCommitted⟩
  rcases involves with rfl | rfl
  · exact fromCommitted
  · exact toCommitted

/-- **No trade on old quotes** when the fetch is too old to trade at all, or the response holds no
old quote of a committed token. -/
theorem no_old_trade (world : World) (state : State) (input : TickInput) (response : Response)
    (fetchedAt : ℚ) (feeding : Feeding)
    (young : ∀ cfg, Enforces world (fedInput input response fetchedAt feeding) cfg →
      cfg.maxDataAgeSeconds.value < enforcedNow input.nowTs input.clock - fetchedAt ∨
        QuotesWithinCap cfg response (feeding.symbols cfg)
          (enforcedNow input.nowTs input.clock)) :
    NoOldTrade world state input response fetchedAt feeding := by
  intro cfg enforces token ts trades updated
  rcases young cfg enforces with stale | within
  · exact absurd (fetch_recent enforces trades) (not_le.2 stale)
  · exact within token ts (committed_of_tradesIn enforces trades) updated

/-- A response in which INJ was last updated at some time, and USDT at the time of the fetch. -/
def stampedResponse (updated : ℚ) : Response := fun symbol =>
  if symbol = "INJ" then some ⟨⟨some 20, some 0.9, some 1.7⟩, updated⟩
  else some ⟨⟨some 1, some 0, some 0⟩, 10000⟩

def stampedInput : TickInput := { rebalanceInput "USDT" with nowTs := some 10000 }

/-- A tick right after the fetch. -/
def fedTick (updated : ℚ) : TickInput :=
  fedInput stampedInput (stampedResponse updated) 10000 (.handed ["INJ", "USDT"])

/-- The time of a quote is not read. -/
theorem fedTick_eq (updated : ℚ) : fedTick updated = fedTick 0 := by
  have feed : (stampedResponse updated).feed = (stampedResponse 0).feed := by
    unfold Response.feed
    congr 1
    funext symbol
    unfold stampedResponse
    split <;> rfl
  simp only [fedTick, fedInput, feed]

/-- The tick buys INJ, whatever the time of its quote. -/
theorem tradesIn_fedTick (updated : ℚ) :
    TradesIn bareWorld (hundredBook Dict.empty 100) (fedTick updated) "INJ" := by
  rw [fedTick_eq]
  have booked : (tick bareWorld (hundredBook Dict.empty 100) (fedTick 0)).2.toOption.map
      (fun ended => (ended.1.executed, ended.1.decision.toToken)) = some (true, "INJ") := by
    decide +kernel
  rcases Option.map_eq_some_iff.1 booked with ⟨⟨result, newState⟩, ended, values⟩
  rw [toOption_eq_some_iff] at ended
  rw [Prod.mk.injEq] at values
  exact .booked result newState ended values.1 (.inr values.2.symm)

theorem enforces_fedTick (updated : ℚ) :
    ∃ cfg, Enforces bareWorld (fedTick updated) cfg ∧ cfg.maxDataAgeSeconds.value = 600 := by
  have read : (Config.ofJson (rebalanceProfile "USDT")).map
      (fun cfg => cfg.maxDataAgeSeconds.value) = some 600 := by
    decide +kernel
  rcases Option.map_eq_some_iff.1 read with ⟨cfg, found, cap⟩
  exact ⟨cfg, ⟨rebalanceProfile "USDT", rfl, found⟩, cap⟩

/-- A quote of INJ that was updated a hundred seconds before the fetch. -/
theorem no_old_trade_recent :
    TradesIn bareWorld (hundredBook Dict.empty 100) (fedTick 9900) "INJ" ∧
      NoOldTrade bareWorld (hundredBook Dict.empty 100) stampedInput (stampedResponse 9900) 10000
        (.handed ["INJ", "USDT"]) := by
  refine ⟨tradesIn_fedTick 9900, no_old_trade _ _ _ _ _ _ ?_⟩
  rintro cfg ⟨json, enforced, found⟩
  rcases enforces_fedTick 9900 with ⟨cfg', ⟨json', enforced', found'⟩, cap⟩
  cases enforced.symm.trans enforced'
  cases found.symm.trans found'
  right
  intro token ts _ updated
  rw [cap]
  have now : enforcedNow stampedInput.nowTs stampedInput.clock = 10000 := by decide +kernel
  rw [now]
  rcases Option.bind_eq_some_iff.1 updated with ⟨symbol, -, stamped⟩
  by_cases inj : symbol = "INJ"
  · simp only [stampedResponse, inj, if_true, Option.map_some, Option.some.injEq] at stamped
    linarith
  · simp only [stampedResponse, inj, if_false, Option.map_some, Option.some.injEq] at stamped
    linarith

/-- A buy of INJ is booked on a quote that is 10000 seconds old, with a cap of 600. -/
theorem frozen_quote_traded :
    (∃ cfg, Enforces bareWorld (fedTick 0) cfg ∧ cfg.maxDataAgeSeconds.value = 600) ∧
      TradesIn bareWorld (hundredBook Dict.empty 100) (fedTick 0) "INJ" ∧
      ¬NoOldTrade bareWorld (hundredBook Dict.empty 100) stampedInput (stampedResponse 0) 10000
        (.handed ["INJ", "USDT"]) := by
  rcases enforces_fedTick 0 with ⟨cfg, enforces, cap⟩
  refine ⟨⟨cfg, enforces, cap⟩, tradesIn_fedTick 0, fun fresh => ?_⟩
  have updated : (stampedResponse 0).lastUpdated ["INJ", "USDT"] "INJ" = some 0 := by
    decide +kernel
  have young := fresh cfg enforces "INJ" 0 (tradesIn_fedTick 0) updated
  rw [cap] at young
  exact absurd young (by decide +kernel)

end Core

end SumplusTrader

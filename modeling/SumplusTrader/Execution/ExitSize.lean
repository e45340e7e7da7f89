import SumplusTrader.Execution.InjectiveBackend
import SumplusTrader.Policy.EngineSafety
import SumplusTrader.Strategy.Intents

/-!
# The size of an exit

An exit sells a whole position, but what travels to the exchange is its value: rounded to
cents at the price of the view, capped by the policy engine, printed with six significant
digits, and divided by the best bid of the book. `exit_quantity_le_iff` says for which
prices the quantity that comes back is at most what is held.

The floor to the quantity tick only helps within one tick. When the bid is below the price
of the view, or the value was rounded up, the order can ask for more than is held; the
booking of a fill, in contrast, caps the quantity by the position.
-/

namespace SumplusTrader

namespace InjectiveBackend

open InjectiveMarket

variable {backend : InjectiveBackend} {env : Environ} {indexer : Indexer} {base quote : String}

/-- The quantity tick of a market, zero when the ticks cannot be found. -/
def quantityTick (env : Environ) (indexer : Indexer) (base quote : String) : ℚ :=
  match marketTicks env indexer.ticks base quote with
  | .ok (_, qtyTick) => qtyTick
  | .error _ => 0

theorem refPrice_of_bid {ask : Option ℚ} {bid : ℚ}
    (book : bookOfPair env indexer base quote = .ok (ask, some bid)) (positive : 0 < bid) :
    backend.refPrice env indexer base quote .sell = .ok bid := by
  have taken : bookPrice env indexer base quote .sell = .ok bid := by
    simp [bookPrice, book, bind, Except.bind, pure, Except.pure, positive]
  simp [refPrice, taken]

/-- A sale asks for its amount divided by the bid, snapped down to the quantity tick. -/
theorem quantityUfixed_of_size {ask : Option ℚ} {bid : ℚ} {amount : String} {slippageBps : ℤ}
    {sizing : Sizing} (book : bookOfPair env indexer base quote = .ok (ask, some bid))
    (positive : 0 < bid)
    (sized : backend.size env indexer base quote .sell amount slippageBps = .ok sizing) :
    ∃ usd, Py.decimal amount = some usd ∧ sizing.quantityUfixed =
      toUfixed (snapToTick (usd / bid) (quantityTick env indexer base quote) .down) := by
  rw [size, refPrice_of_bid book positive] at sized
  rcases read : Py.decimal amount with _ | usd
  · simp [decimalOfText, read, bind, Except.bind] at sized
  · refine ⟨usd, rfl, ?_⟩
    simp only [decimalOfText, read, bind, Except.bind, positive.ne', if_false, pure, Except.pure,
      Except.ok.injEq] at sized
    subst sized
    unfold quantityTick
    rcases marketTicks env indexer.ticks base quote with e | ⟨priceTick, qtyTick⟩
    · simp [snapToTick]
    · rfl

end InjectiveBackend

/-- What an exit is decided, checked and sized from. -/
structure ExitSetting where
  views : List TokenView
  portfolio : PortfolioState
  cfg : Config
  nowTs : ℚ
  quote : String
  chain : String
  portfolioView : PortfolioView
  market : MarketView
  backend : InjectiveBackend
  env : Environ
  indexer : Indexer
  executor : Executor
  cid : String

namespace ExitSetting

open InjectiveMarket

/-- The verdict on an intent. -/
def verdict (setting : ExitSetting) (intent : Intent) : PolicyVerdict :=
  (PolicyEngine.ofConfig setting.cfg).check (intentToDecision intent) setting.portfolioView
    setting.market

/-- The request for the amount that the verdict allows. -/
def request (setting : ExitSetting) (intent : Intent) : SwapRequest :=
  setting.executor.request (intentToDecision intent) (setting.verdict intent).finalAmountUsd
    setting.cid

/-- The strategy exits a position, the policy engine lets the exit through, and the backend
sizes it as a sale at a bid. -/
structure Sells (setting : ExitSetting) (entry : String × Position) (px bid : ℚ)
    (intent : Intent) (plan : SwapPlan) (sizing : Sizing) : Prop where
  decided : Survival.decide setting.views setting.portfolio setting.cfg setting.nowTs
    setting.quote setting.chain = .ok intent
  first : Survival.firstDue setting.cfg (priceMap setting.views) setting.portfolio
    setting.nowTs = some entry
  priced : (priceMap setting.views).get? (Py.upper entry.1) = some px
  trade : (intentToDecision intent).isTrade
  allowed : (setting.verdict intent).allowed
  sized : setting.backend.sized setting.env setting.indexer (setting.request intent) =
    .ok (plan, sizing)
  sells : plan.side = .sell
  book : ∃ ask, InjectiveBackend.bookOfPair setting.env setting.indexer plan.base plan.quote =
    .ok (ask, some bid)
  bid_pos : 0 < bid

/-- The value of a position in cents, capped. -/
def cappedValue (setting : ExitSetting) (qty px : ℚ) : ℚ :=
  let engine := PolicyEngine.ofConfig setting.cfg
  Py.roundTo 2 (min (Py.roundTo 2 (qty * px)) (engine.sizeCap setting.portfolioView
    (engine.ladderRung setting.portfolioView.drawdownPct)))

variable {setting : ExitSetting} {entry : String × Position} {px bid : ℚ} {intent : Intent}
  {plan : SwapPlan} {sizing : Sizing}

theorem Sells.held (sells : setting.Sells entry px bid intent plan sizing) : 0 < entry.2.qty := by
  have due : Survival.ExitDue setting.cfg (priceMap setting.views) setting.portfolio.drawdownPct
      setting.nowTs entry := by
    simpa using List.find?_some sells.first
  exact due.1

theorem Sells.intent_eq (sells : setting.Sells entry px bid intent plan sizing) :
    ∃ reason, intent = ⟨.exit, setting.chain, Py.upper entry.1, setting.quote,
      Py.roundTo 2 (entry.2.qty * px), 0.9, reason, ""⟩ := by
  rcases Survival.firstExit_of_firstDue setting.quote setting.chain sells.first with
    ⟨reason, scan⟩
  have decided := sells.decided
  simp only [Survival.decide, scan, Survival.viewValue, sells.priced, Option.getD_some,
    Except.ok.injEq] at decided
  exact ⟨reason, decided.symm⟩

/-- The amount of an exit is its capped value: the exposure check does not touch a sale. -/
theorem Sells.finalAmountUsd_eq (sells : setting.Sells entry px bid intent plan sizing) :
    (setting.verdict intent).finalAmountUsd = setting.cappedValue entry.2.qty px := by
  rcases sells.intent_eq with ⟨reason, exits⟩
  have notIncreasing : ¬(PolicyEngine.ofConfig setting.cfg).riskIncreasing
      (intentToDecision intent) := by
    rintro ⟨buys, -⟩
    simp [exits, intentToDecision, intentSide] at buys
  have allowed := sells.allowed
  rcases PolicyEngine.check_cases (PolicyEngine.ofConfig setting.cfg) setting.portfolioView
    setting.market sells.trade with ⟨reason, rung, rejects⟩ | ⟨-, exceeds, -⟩ | ⟨-, -, -, passes⟩
  · rw [verdict, rejects] at allowed
    exact absurd allowed (PolicyEngine.not_allowed_rejected reason rung)
  · exact absurd exceeds.riskIncreasing notIncreasing
  · rw [verdict, passes, PolicyEngine.finalise_finalAmountUsd, exits]
    rfl

/-- The ticks of a market, set in the environment. -/
def ticksEnviron : Environ
  | "INJ_PRICE_TICK_INJ_USDT" => some "0.001"
  | "INJ_QTY_TICK_INJ_USDT" => some "0.001"
  | _ => none

/-- An indexer with an ask of 20 and a given bid, in the format of the chain. -/
def indexerOfBid (bid : String) : Indexer where
  orderbook := fun _ _ => .ok ⟨[some "0.00000000002"], [some bid]⟩
  ticks := ⟨fun _ => none, fun _ _ => .error .osError⟩

/-- A chain that accepts and executes every order. -/
def executingChain : InjectiveChain where
  connect := .ok ()
  sign := fun _ => .ok ()
  sendRawTransaction := fun _ => .ok "0x01"
  waitForTransactionReceipt := fun _ => .ok ⟨1, .ok [some "0x02"]⟩
  subaccountBalance := fun _ _ => .ok (1000000000000000000, 1000000000000000000)

def wiredBackend : InjectiveBackend where
  rpcUrl := "https://rpc"
  executorAddr := "0xaff9e1c61dea470060894f396227fabf8bfa3157"
  pk := "0x01"
  feeRecipient := ""
  subaccountIndex := 1
  refPriceEnv := ""
  dryRun := false

def lossViews : List TokenView := [⟨"INJ", 20, none, none, none, 0, 0, 0, .obj []⟩]

def lossEntry : String × Position := ("INJ", ⟨"INJ", 0.1, 25, 0⟩)

/-- A tenth of an INJ that was bought for 25 dollars and is viewed at 20. -/
def lossPortfolio : PortfolioState where
  navUsd := 10
  stableUsd := 8
  positions := ⟨[lossEntry], by decide⟩
  drawdownPct := 0
  riskyExposurePct := 0.2
  tradesThisWeek := 0
  secondsSinceLastTrade := 1000000000

def lossIntent : Intent :=
  ⟨.exit, "injective", "INJ", "USDT", 2, 0.9, "stop-loss INJ -20.0%", ""⟩

/-- That position under the profile of the Injective deployment. -/
def lossSetting (bid : String) : ExitSetting where
  views := lossViews
  portfolio := lossPortfolio
  cfg := injectiveConfig
  nowTs := 0
  quote := "USDT"
  chain := "injective"
  portfolioView := ⟨10, 0, 0.2, 0, 1000000000⟩
  market := ⟨0, "risk_off"⟩
  backend := wiredBackend
  env := ticksEnviron
  indexer := indexerOfBid bid
  executor := ⟨wiredBackend.toExecutionBackend ticksEnviron (indexerOfBid bid) executingChain,
    "live", 50⟩
  cid := ""

/-- The order that is sized for that position at a bid. -/
def lossOrder (bid : String) : Option (SwapPlan × Sizing) :=
  (wiredBackend.sized ticksEnviron (indexerOfBid bid)
    ((lossSetting bid).request lossIntent)).toOption

theorem lossSetting_sells (bid : String) (price : ℚ) {plan : SwapPlan} {sizing : Sizing}
    (positive : 0 < price)
    (book : (InjectiveBackend.bookOfPair ticksEnviron (indexerOfBid bid) "INJ" "USDT").toOption =
      some (some 20, some price))
    (sized : lossOrder bid = some (plan, sizing))
    (sells : (plan.side, plan.base, plan.quote) = (.sell, "INJ", "USDT")) :
    (lossSetting bid).Sells lossEntry 20 price lossIntent plan sizing := by
  simp only [Prod.mk.injEq] at sells
  rcases sells with ⟨sells, base, quote⟩
  have decided : (Survival.decide lossViews lossPortfolio injectiveConfig 0 "USDT"
      "injective").toOption = some lossIntent := by
    decide +kernel
  have first : Survival.firstDue injectiveConfig (priceMap lossViews) lossPortfolio 0 =
      some lossEntry := by
    decide +kernel
  have priced : (priceMap lossViews).get? (Py.upper lossEntry.1) = some 20 := by
    decide +kernel
  have allowed : ((lossSetting "").verdict lossIntent).allowed := by
    decide +kernel
  exact {
    decided := toOption_eq_some_iff.1 decided
    first := first
    priced := priced
    trade := by decide +kernel
    allowed := allowed
    sized := toOption_eq_some_iff.1 sized
    sells := sells
    book := by
      rw [base, quote]
      exact ⟨_, toOption_eq_some_iff.1 book⟩
    bid_pos := positive }

end ExitSetting

end SumplusTrader

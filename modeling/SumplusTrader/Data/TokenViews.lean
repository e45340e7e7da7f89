import SumplusTrader.Strategy.Signals

/-!
# The market feed

This file models `agent/data/cmc.py`: the quotes of CoinMarketCap, or of a fixed scenario when
there is no key, and the token views made of them. A number that the feed does not give is `none`
in a raw quote. A view has no way to say so of its price, which is zero then.

The receipts for paid data are left out, and so is a request that fails: it gives no views.
-/

namespace SumplusTrader

/-- The quote of a token in USD, as far as the feed gives it. -/
structure UsdQuote where
  price : Option ℚ
  percentChange1h : Option ℚ
  percentChange24h : Option ℚ

structure RawQuote where
  price : Option ℚ
  pct1h : Option ℚ
  pct4h : Option ℚ
  vol24hPct : Option ℚ

/-- The offline scenario. -/
def mockScenario : List (String × RawQuote) :=
  [("WBNB", ⟨some 632, some 0.8, some 1.6, some 2.4⟩),
    ("BTCB", ⟨some 68000, some 0.3, some (-0.2), some 1.8⟩),
    ("ETH", ⟨some 3550, some (-1.4), some 2.1, some 5.6⟩),
    ("CAKE", ⟨some 2.35, some 0.5, some 0.9, some 3.2⟩),
    ("INJ", ⟨some 20, some 0.9, some 1.7, some 2.5⟩),
    ("USDT", ⟨some 1, some 0, some 0, some 0.1⟩),
    ("USDC", ⟨some 1, some 0, some 0, some 0.1⟩)]

/-- Where quotes come from: the data of a response, or the scenario. -/
inductive Feed where
  | live (data : String → Option UsdQuote)
  | mock

namespace Feed

/-- `_cmc_live`, for one symbol. -/
def cmcLive (data : String → Option UsdQuote) (symbol : String) : RawQuote :=
  let q := (data symbol).getD ⟨none, none, none⟩
  ⟨q.price, q.percentChange1h, q.percentChange24h, some |q.percentChange24h.getD 0|⟩

def raw (feed : Feed) (symbol : String) : RawQuote :=
  match feed with
  | live data => cmcLive data symbol
  | mock => (mockScenario.lookup (Py.upper symbol)).getD ⟨none, none, none, none⟩

/-- The view made of a raw quote. A price that is missing becomes zero. -/
def viewOf (feed : Feed) (now : ℚ) (symbol : String) : TokenView where
  symbol := Py.upper symbol
  price := (feed.raw symbol).price.getD 0
  pct1h := (feed.raw symbol).pct1h
  pct4h := (feed.raw symbol).pct4h
  vol24hPct := (feed.raw symbol).vol24hPct
  liquidityUsd := 0
  spreadBps := 0
  ts := now
  extra := .obj []

/-- The views of the symbols, and their time stamp. -/
def getTokenViews (feed : Feed) (symbols : List String) (now : ℚ) : List TokenView × ℚ :=
  (symbols.map (feed.viewOf now), now)

/-- The symbol whose view is the last of a token. -/
def requested (symbols : List String) (token : String) : Option String :=
  symbols.reverse.find? fun symbol => Py.upper symbol = token

/-- The price that the feed gives for a token. -/
def quoteOf (feed : Feed) (symbols : List String) (token : String) : Option ℚ :=
  (requested symbols token).bind fun symbol => (feed.raw symbol).price

theorem lookup_map {α β κ : Type} [DecidableEq κ] (key : α → κ) (value : α → β) (items : List α)
    (sought : κ) : (items.map fun item => (key item, value item)).lookup sought =
      (items.find? fun item => key item = sought).map value := by
  induction items with
  | nil => rfl
  | cons item items ih =>
      rw [List.map_cons, List.lookup_cons, List.find?_cons, ih]
      by_cases same : key item = sought
      · simp [same]
      · have misses : (sought == key item) = false := by simpa using Ne.symm same
        simp [same, misses]

/-- A token has a price when it was asked for, and it is zero when the feed gives none. -/
theorem get?_priceMap (feed : Feed) (symbols : List String) (now : ℚ) (token : String) :
    (priceMap (feed.getTokenViews symbols now).1).get? token =
      (requested symbols token).map fun symbol => (feed.raw symbol).price.getD 0 := by
  have entries : (symbols.map (feed.viewOf now)).map (fun view =>
      (Py.upper view.symbol, view.price)) =
      symbols.map fun symbol => (Py.upper symbol, (feed.raw symbol).price.getD 0) := by
    rw [List.map_map]
    apply List.map_congr_left
    intro symbol _
    simp [viewOf]
  rw [priceMap, Dict.get?_ofList, getTokenViews, entries, ← List.map_reverse, lookup_map,
    requested]

end Feed

end SumplusTrader

import TradingBot.Backtest.Conservation
import Mathlib.Data.List.Sort

/-!
# Round trips

The report pairs a run's trades into round trips at average cost: a buy adds
its cost and fee to the position, a sell realises its proceeds against the
average cost of what it closes. Where no sell exceeds the position, what was
realised less what the open positions cost is what the trades moved of quote.
-/

namespace TradingBot.Backtest

open InsertionMap

/-- What is open of a symbol, and what it cost with and without the buy fees. -/
structure Position where
  qty : ℚ
  cost : ℚ
  priceCost : ℚ
  openTsMs : ℤ

structure ClosedTrade where
  symbol : String
  pnl : ℚ
  returnFraction : ℚ
  durationMs : ℤ
  openTsMs : ℤ
  closeTsMs : ℤ
  entryPrice : ℚ
  exitPrice : ℚ
  qty : ℚ
  feeQuote : ℚ
  exitReason : String

/-- The positions and the round trips of the trades so far. -/
structure Pairing where
  positions : List (String × Position)
  closed : List ClosedTrade

namespace Position

def buy (pos : Position) (t : BacktestTrade) : Position where
  qty := pos.qty + t.qty
  cost := pos.cost + (t.price * t.qty + t.feeQuote)
  priceCost := pos.priceCost + t.price * t.qty
  openTsMs := if pos.qty ≤ 0 then t.tsMs else pos.openTsMs

def soldQty (pos : Position) (t : BacktestTrade) : ℚ := min t.qty pos.qty

def costOfSold (pos : Position) (t : BacktestTrade) : ℚ := pos.cost / pos.qty * pos.soldQty t

def priceOfSold (pos : Position) (t : BacktestTrade) : ℚ :=
  pos.priceCost / pos.qty * pos.soldQty t

def sell (pos : Position) (t : BacktestTrade) : Position where
  qty := pos.qty - pos.soldQty t
  cost := pos.cost - pos.costOfSold t
  priceCost := pos.priceCost - pos.priceOfSold t
  openTsMs := pos.openTsMs

def pnl (pos : Position) (t : BacktestTrade) : ℚ :=
  t.price * pos.soldQty t - t.feeQuote - pos.costOfSold t

/-- The round trip a sell closes. -/
def close (pos : Position) (t : BacktestTrade) : ClosedTrade where
  symbol := t.symbol
  pnl := pos.pnl t
  returnFraction := if pos.costOfSold t ≤ 0 then 0 else pos.pnl t / pos.costOfSold t
  durationMs := t.tsMs - pos.openTsMs
  openTsMs := pos.openTsMs
  closeTsMs := t.tsMs
  entryPrice := pos.priceCost / pos.qty
  exitPrice := t.price
  qty := pos.soldQty t
  feeQuote := pos.costOfSold t - pos.priceOfSold t + t.feeQuote
  exitReason := t.reason

end Position

namespace Pairing

def positionAt (p : Pairing) (t : BacktestTrade) : Position :=
  (get t.symbol p.positions).getD ⟨0, 0, 0, t.tsMs⟩

def pairTrade (p : Pairing) (t : BacktestTrade) : Pairing :=
  let pos := p.positionAt t
  match t.side with
  | .buy => { p with positions := set t.symbol (pos.buy t) p.positions }
  | .sell =>
      if pos.qty ≤ 0 then p
      else
        { positions := set t.symbol (pos.sell t) p.positions
          closed := p.closed ++ [pos.close t] }

/-- What is left open of a symbol. -/
def openQty (p : Pairing) (symbol : String) : ℚ := ((get symbol p.positions).map (·.qty)).getD 0

/-- What is left open of a symbol cost this, buy fees included. -/
def openCost (p : Pairing) (symbol : String) : ℚ := ((get symbol p.positions).map (·.cost)).getD 0

def pnlOf (p : Pairing) (symbol : String) : ℚ :=
  ((p.closed.filter (·.symbol = symbol)).map (·.pnl)).sum

end Pairing

def pairTrades (trades : List BacktestTrade) : Pairing := trades.foldl Pairing.pairTrade ⟨[], []⟩

structure BacktestPerSymbol where
  symbol : String
  tradeCount : ℕ
  pnlQuote : ℚ

/-- The profit of each symbol, added up in the order the round trips closed. -/
def pnlBySymbol (closed : List ClosedTrade) : List (String × ℚ) :=
  closed.foldl (fun m c => set c.symbol ((get c.symbol m).getD 0 + c.pnl) m) []

def countBySymbol (trades : List BacktestTrade) : List (String × ℕ) :=
  trades.foldl (fun m t => set t.symbol ((get t.symbol m).getD 0 + 1) m) []

/-- The symbols that traded, in the order of their UTF-16 code units. -/
def tradedSymbols (trades : List BacktestTrade) : List String :=
  (keys (countBySymbol trades)).insertionSort fun a b => charCodes a ≤ charCodes b

def computePerSymbol (closed : List ClosedTrade) (trades : List BacktestTrade) :
    List BacktestPerSymbol :=
  (tradedSymbols trades).map fun symbol =>
    { symbol
      tradeCount := (get symbol (countBySymbol trades)).getD 0
      pnlQuote := (get symbol (pnlBySymbol closed)).getD 0 }

/-! ### What the round trips and the open positions add up to -/

def baseMoves (symbol : String) (trades : List BacktestTrade) : ℚ :=
  ((trades.filter (·.symbol = symbol)).map BacktestTrade.baseMove).sum

def quoteMoves (symbol : String) (trades : List BacktestTrade) : ℚ :=
  ((trades.filter (·.symbol = symbol)).map BacktestTrade.quoteMove).sum

/-- No sell exceeds what the trades before it left of its symbol. -/
def SellsHeld (trades : List BacktestTrade) : Prop :=
  ∀ earlier t, earlier ++ [t] <+: trades → 0 < t.qty ∧
    (t.side = .sell → t.qty ≤ baseMoves t.symbol earlier)

section Pairing

variable {trades : List BacktestTrade} {t : BacktestTrade} {symbol : String} {p : Pairing}

theorem baseMoves_append_singleton :
    baseMoves symbol (trades ++ [t]) =
      baseMoves symbol trades + if t.symbol = symbol then t.baseMove else 0 := by
  by_cases heq : t.symbol = symbol
  · simp [baseMoves, heq]
  · simp [baseMoves, heq]

theorem quoteMoves_append_singleton :
    quoteMoves symbol (trades ++ [t]) =
      quoteMoves symbol trades + if t.symbol = symbol then t.quoteMove else 0 := by
  by_cases heq : t.symbol = symbol
  · simp [quoteMoves, heq]
  · simp [quoteMoves, heq]

/-- The pairing stands for the trades: the quantities are what they moved, and what was realised
less what is open cost is what they moved of quote. -/
structure Pairing.StandsFor (p : Pairing) (trades : List BacktestTrade) : Prop where
  qty : ∀ symbol, p.openQty symbol = baseMoves symbol trades
  worth : ∀ symbol, p.pnlOf symbol - p.openCost symbol = quoteMoves symbol trades

theorem Pairing.openQty_self : p.openQty t.symbol = (p.positionAt t).qty := by
  unfold openQty positionAt
  cases get t.symbol p.positions with
  | none => rfl
  | some pos => rfl

theorem Pairing.openCost_self : p.openCost t.symbol = (p.positionAt t).cost := by
  unfold openCost positionAt
  cases get t.symbol p.positions with
  | none => rfl
  | some pos => rfl

theorem Pairing.pairTrade_other (hother : symbol ≠ t.symbol) :
    (p.pairTrade t).openQty symbol = p.openQty symbol ∧
      (p.pairTrade t).openCost symbol = p.openCost symbol ∧
      (p.pairTrade t).pnlOf symbol = p.pnlOf symbol := by
  unfold Pairing.pairTrade
  cases t.side with
  | buy => simp [Pairing.openQty, Pairing.openCost, Pairing.pnlOf, get_set_other hother]
  | sell =>
      dsimp only
      split
      · exact ⟨rfl, rfl, rfl⟩
      · simp [Pairing.openQty, Pairing.openCost, Pairing.pnlOf, get_set_other hother,
          Position.close, hother.symm]

/-- A trade that sells only what is open moves its own symbol by its base and its quote. -/
theorem Pairing.pairTrade_self
    (hsell : t.side = .sell → 0 < t.qty ∧ t.qty ≤ p.openQty t.symbol) :
    (p.pairTrade t).openQty t.symbol = p.openQty t.symbol + t.baseMove ∧
      (p.pairTrade t).pnlOf t.symbol - (p.pairTrade t).openCost t.symbol =
        p.pnlOf t.symbol - p.openCost t.symbol + t.quoteMove := by
  rw [Pairing.openQty_self (p := p), Pairing.openCost_self (p := p)]
  unfold Pairing.pairTrade
  cases hside : t.side with
  | buy =>
      simp only [Pairing.openQty, Pairing.openCost, Pairing.pnlOf, get_set_self, Option.map_some,
        Option.getD_some, Position.buy, BacktestTrade.baseMove, BacktestTrade.quoteMove, hside]
      exact ⟨trivial, by ring⟩
  | sell =>
      obtain ⟨hpos, hle⟩ := hsell hside
      rw [Pairing.openQty_self] at hle
      have hheld : ¬ (p.positionAt t).qty ≤ 0 := not_le.mpr (hpos.trans_le hle)
      have hsold : (p.positionAt t).soldQty t = t.qty := min_eq_left hle
      dsimp only
      rw [if_neg hheld]
      simp only [Pairing.openQty, Pairing.openCost, Pairing.pnlOf, get_set_self, Option.map_some,
        Option.getD_some, Position.sell, Position.close, Position.pnl, hsold,
        BacktestTrade.baseMove, BacktestTrade.quoteMove, hside, List.filter_append,
        List.map_append, List.sum_append]
      refine ⟨by ring, ?_⟩
      simp
      ring

theorem Pairing.StandsFor.pairTrade (h : p.StandsFor trades)
    (hsell : t.side = .sell → 0 < t.qty ∧ t.qty ≤ p.openQty t.symbol) :
    (p.pairTrade t).StandsFor (trades ++ [t]) := by
  obtain ⟨hqty, hworth⟩ := Pairing.pairTrade_self hsell
  refine ⟨fun symbol => ?_, fun symbol => ?_⟩
  · rw [baseMoves_append_singleton, ← h.qty symbol]
    by_cases heq : t.symbol = symbol
    · rw [if_pos heq, ← heq, hqty]
    · rw [if_neg heq, add_zero, (Pairing.pairTrade_other (Ne.symm heq)).1]
  · rw [quoteMoves_append_singleton, ← h.worth symbol]
    by_cases heq : t.symbol = symbol
    · rw [if_pos heq, ← heq, hworth]
    · obtain ⟨-, hcost, hpnl⟩ := Pairing.pairTrade_other (p := p) (t := t) (Ne.symm heq)
      rw [if_neg heq, add_zero, hcost, hpnl]

theorem pairTrades_append_singleton :
    pairTrades (trades ++ [t]) = (pairTrades trades).pairTrade t := by
  rw [pairTrades, List.foldl_append]
  rfl

theorem pairTrades_standsFor (hheld : SellsHeld trades) :
    (pairTrades trades).StandsFor trades := by
  induction trades using List.reverseRecOn with
  | nil => exact ⟨fun _ => rfl, fun _ => sub_zero _⟩
  | append_singleton trades t ih =>
      have hbefore := ih fun earlier s hs => hheld earlier s (hs.trans (List.prefix_append _ _))
      obtain ⟨hpos, hsell⟩ := hheld trades t List.prefix_rfl
      rw [pairTrades_append_singleton]
      refine hbefore.pairTrade ?_
      intro hside
      rw [hbefore.qty]
      exact ⟨hpos, hsell hside⟩

end Pairing

end TradingBot.Backtest

import TradingBot.Backtest.Executor
import TradingBot.TrailingTrade.FillResolution

/-!
# The backtest run

The replay of a candle stream: each candle moves the simulated market, the
fills and refusals it brings are folded into the strategy's state, and past the
warm-up the strategy ticks and its decisions reach the executor. A strategy is
any function of the whole run so far, which is where everything a real one
reads comes from: the windows and the indicators over them, the account and the
book, the key-value store, the clock and the random draws. `none` stands for a
run that throws.
-/

namespace TradingBot.Backtest

open InsertionMap
open TradingBot.TrailingTrade (PositionView AdoptedFill RawFill resolveFill)

/-- How the engine reads and moves the position in a strategy's state. -/
structure PositionStateAdapter (S : Type) where
  readPosition : S → Option PositionView
  applyFill : S → AdoptedFill → Option S
  setHeldQuantity : S → Option DecimalString → Option S
  setAvgEntryPrice : S → DecimalString → Option S

structure MarketTick where
  symbol : String
  interval : CandleInterval
  candle : Candle
  detailCandles : Option (List Candle)

inductive TickTrigger where
  | tick
  | candleClose (interval : CandleInterval) (openTimeMs : ℤ)

/-- What one tick is run for. -/
structure TickArgs where
  symbol : String
  interval : CandleInterval
  price : ℚ
  asOfMs : ℤ
  trigger : TickTrigger

structure EquityPoint where
  tsMs : ℤ
  equity : ℚ

/-- The replay between two of its steps. `streamed` is the stream up to here. -/
structure Run (S : Type) where
  executor : BacktestExecutor
  nowMs : ℤ
  intervalOf : List (String × CandleInterval)
  windows : List ((String × CandleInterval) × List Candle)
  states : List (String × S)
  seen : List (String × ℕ)
  equityCurve : List EquityPoint
  startingBalance : Option ℚ
  lastCloseMs : Option ℤ
  positionLedger : List (String × Option PositionView)
  preSellStates : List (String × S)
  pendingBars : List (String × List Candle)
  streamed : List MarketTick

structure Strategy (S : Type) where
  initialState : S
  position : Option (PositionStateAdapter S)
  tick : Run S → TickArgs → Option (S × List Decision)

structure RunBacktestOptions (S : Type) where
  strategy : Strategy S
  exchange : Exchange
  initialBalances : List (String × ℚ)
  quoteAsset : String
  fromMs : ℤ
  benchmarkSymbol : Option String
  startupCandleCount : ℕ
  windowCap : ℕ
  intraCandle : Option CandleInterval

namespace Run

variable {S : Type}

def start (opts : RunBacktestOptions S) : Run S where
  executor := .create opts.initialBalances
  nowMs := opts.fromMs
  intervalOf := []
  windows := []
  states := []
  seen := []
  equityCurve := []
  startingBalance := none
  lastCloseMs := none
  positionLedger := []
  preSellStates := []
  pendingBars := []
  streamed := []

def stateOf (opts : RunBacktestOptions S) (run : Run S) (symbol : String) : S :=
  (get symbol run.states).getD opts.strategy.initialState

/-- The position the symbol's fills have built, without what its state says. -/
def ledgerOf (run : Run S) (symbol : String) : Option PositionView :=
  (get symbol run.positionLedger).join

/-! ### Adopting fills and refusals -/

/-- The position a fill leaves in the ledger. -/
def nextPrior (prior : Option PositionView) : AdoptedFill → Option PositionView
  | .buy avgEntryPrice heldQuantity => some ⟨some avgEntryPrice, some heldQuantity⟩
  | .sellReduce heldQuantity => some ⟨prior.bind (·.avgEntryPrice), some heldQuantity⟩
  | .empty => none

/-- Fold one fill onto the state and the ledger. -/
def adoptOne (position : PositionStateAdapter S) (carried : S × Option PositionView)
    (fill : DrainedFill) : Option (S × Option PositionView) := do
  let adopted ←
    (resolveFill carried.2 ⟨fill.side, .num fill.price, .num fill.qty⟩ none none).toOption
  return ((position.applyFill carried.1 adopted).getD carried.1, nextPrior carried.2 adopted)

def holdsPosition (opts : RunBacktestOptions S) (run : Run S) (symbol : String) : Bool :=
  match opts.strategy.position, get symbol run.states with
  | some position, some state =>
      match (position.readPosition state).bind (·.heldQuantity) with
      | none => false
      | some held => held.toDecimal.any fun quantity => quantity.gt (.num 0)
  | _, _ => false

/-- Whether two texts are the same; two printed numbers have one text exactly if they are equal. -/
def sameText : Option DecimalString → Option DecimalString → Bool
  | some (.printed a), some (.printed b) => a = b
  | a, b => a.map DecimalString.text = b.map DecimalString.text

/-- Put the position of the ledger into a state. -/
def pin (position : PositionStateAdapter S)
    (avgEntryPrice heldQuantity : DecimalString) (base : S) :
    S :=
  let held := (position.setHeldQuantity base (some heldQuantity)).getD base
  (position.setAvgEntryPrice held avgEntryPrice).getD held

/-- The state a refused sell leaves: the one its tick started from, pinned to the ledger, where the
ledger has a position the state does not show. -/
def restored (position : PositionStateAdapter S) (before : Option S) (state : S)
    (prior : Option PositionView) : Option S :=
  match prior with
  | some ⟨some avgEntryPrice, some heldQuantity⟩ =>
      let view := position.readPosition state
      if sameText (view.bind (·.heldQuantity)) (some heldQuantity) &&
          sameText (view.bind (·.avgEntryPrice)) (some avgEntryPrice) then none
      else some (pin position avgEntryPrice heldQuantity (before.getD state))
  | _ => none

/-- A refused buy leaves no claim in the state that no fill backs. -/
def flattenRefusedBuy (opts : RunBacktestOptions S) (position : PositionStateAdapter S)
    (symbol : String) (buyRejected : Bool) (state : S) (prior : Option PositionView) (run : Run S) :
    Run S :=
  if buyRejected && prior.isNone && run.holdsPosition opts symbol then
    { run with states := set symbol ((position.applyFill state .empty).getD state) run.states }
  else run

/-- A refused sell leaves the state its tick started from, and forgets it. -/
def restoreRefusedSell (position : PositionStateAdapter S) (symbol : String) (sellRejected : Bool)
    (state : S) (prior : Option PositionView) (run : Run S) : Run S :=
  if !sellRejected then run
  else
    { run with
      preSellStates := delete symbol run.preSellStates
      states :=
        match restored position (get symbol run.preSellStates) state prior with
        | none => run.states
        | some state => set symbol state run.states }

def adoptFills (opts : RunBacktestOptions S) (symbol : String) (run : Run S) : Option (Run S) :=
  match opts.strategy.position with
  | none => some run
  | some position => do
      let (drained, executor) := run.executor.drainFills symbol
      let (buyRejected, executor) := executor.drainRejected symbol .buy
      let (sellRejected, executor) := executor.drainRejected symbol .sell
      let run := { run with executor }
      if drained.isEmpty && !buyRejected && !sellRejected then return run
      let (state, prior) ← drained.foldlM (adoptOne position)
        (run.stateOf opts symbol, run.ledgerOf symbol)
      let run :=
        { run with
          positionLedger := set symbol prior run.positionLedger
          states := set symbol state run.states }
      return (run.flattenRefusedBuy opts position symbol buyRejected state prior).restoreRefusedSell
        position symbol sellRejected state prior

/-! ### Ticks -/

/-- The decision places a sell on its own, rather than in place of another order. -/
def placesSell : Decision → Bool
  | .placeOrder intent _ => intent.side = .sell
  | _ => false

def applyDecisions (opts : RunBacktestOptions S) (decisions : List Decision) (run : Run S) :
    Option (Run S) := do
  let executor ← decisions.foldlM
    (fun executor decision => (executor.apply opts.exchange run.nowMs decision).map Prod.fst)
    run.executor
  return { run with executor }

def runTick (opts : RunBacktestOptions S) (args : TickArgs) (run : Run S) : Option (Run S) := do
  let _ ← opts.exchange.symbols args.symbol
  let state := run.stateOf opts args.symbol
  let (nextState, decisions) ← opts.strategy.tick run args
  let run :=
    if opts.intraCandle.isSome then { run with pendingBars := set args.symbol [] run.pendingBars }
    else run
  let run :=
    { run with
      states := set args.symbol nextState run.states
      preSellStates :=
        if decisions.any placesSell then set args.symbol state run.preSellStates
        else delete args.symbol run.preSellStates }
  let run ← run.applyDecisions opts decisions
  run.adoptFills opts args.symbol

/-- The market moves to a candle of the symbol, and what that brings is adopted. -/
def advance (opts : RunBacktestOptions S) (symbol : String) (ctx : MarketContext) (run : Run S) :
    Option (Run S) := do
  let executor ← run.executor.setMarketContext opts.exchange symbol ctx
  { run with executor }.adoptFills opts symbol

/-! ### The stream -/

def addPendingBar (symbol : String) (bar : Candle) (run : Run S) : Run S :=
  { run with
    pendingBars := set symbol ((get symbol run.pendingBars).getD [] ++ [bar]) run.pendingBars }

/-- The detail bars tile the candle with no gap. -/
def coversCandle (bars : List Candle) (candle : Candle) : Bool :=
  bars.head?.map (·.openTimeMs) == some candle.openTimeMs &&
    bars.getLast?.map (·.closeTimeMs) == some candle.closeTimeMs &&
    (bars.zip bars.tail).all fun pair => pair.2.openTimeMs == pair.1.closeTimeMs + 1

/-- A bar within the candle: the market moves, and a held position ticks. -/
def replayBar (opts : RunBacktestOptions S) (tick : MarketTick) (run : Run S) (bar : Candle) :
    Option (Run S) := do
  let run ← { run with nowMs := bar.closeTimeMs }.advance opts tick.symbol
    ⟨bar.close, bar, some [bar]⟩
  let run := run.addPendingBar tick.symbol bar
  if run.holdsPosition opts tick.symbol then
    run.runTick opts ⟨tick.symbol, tick.interval, bar.close, bar.closeTimeMs, .tick⟩
  else return run

/-- The bars within the candle, where the strategy ticks on them; the bars left for the close. -/
def replayBars (opts : RunBacktestOptions S) (tick : MarketTick) (run : Run S) :
    Option (Run S × Option (List Candle)) :=
  match opts.intraCandle, tick.detailCandles with
  | some _, some (first :: rest) =>
      let bars := first :: rest
      if opts.benchmarkSymbol ≠ some tick.symbol then none
      else if !coversCandle bars tick.candle then
        some (bars.foldl (fun run bar => run.addPendingBar tick.symbol bar) run, none)
      else do
        let run ← bars.dropLast.foldlM (replayBar opts tick) run
        let last := bars.getLast?.toList
        return (last.foldl (fun run bar => run.addPendingBar tick.symbol bar) run, some last)
  | _, detailCandles => some (run, detailCandles)

/-- The closed candle joins its window. -/
def pushCandle (opts : RunBacktestOptions S) (tick : MarketTick) (run : Run S) : Run S :=
  let window := (get (tick.symbol, tick.interval) run.windows).getD [] ++ [tick.candle]
  let window := if window.length > opts.windowCap then window.tail else window
  { run with windows := set (tick.symbol, tick.interval) window run.windows }

def seenOf (run : Run S) (symbol : String) : ℕ := (get symbol run.seen).getD 0

/-- The close of the candle: the market moves, and past the warm-up the strategy ticks. -/
def closeCandle (opts : RunBacktestOptions S) (tick : MarketTick) (closeBars : Option (List Candle))
    (run : Run S) : Option (Run S) := do
  let run ← { run.pushCandle opts tick with nowMs := tick.candle.closeTimeMs }.advance opts
    tick.symbol ⟨tick.candle.close, tick.candle, closeBars⟩
  let run :=
    { run with
      startingBalance := some
        (run.startingBalance.getD (run.executor.equityInQuote opts.quoteAsset))
      seen := set tick.symbol (run.seenOf tick.symbol + 1) run.seen }
  if run.seenOf tick.symbol ≤ opts.startupCandleCount then
    return { run with pendingBars := set tick.symbol [] run.pendingBars }
  let run ← run.runTick opts
    { symbol := tick.symbol
      interval := tick.interval
      price := tick.candle.close
      asOfMs := tick.candle.closeTimeMs
      trigger := .candleClose tick.interval tick.candle.openTimeMs }
  let point : EquityPoint := ⟨run.nowMs, run.executor.equityInQuote opts.quoteAsset⟩
  return { run with equityCurve := run.equityCurve ++ [point] }

/-- One candle of the stream. -/
def replay (opts : RunBacktestOptions S) (run : Run S) (tick : MarketTick) : Option (Run S) := do
  if run.lastCloseMs.any (tick.candle.closeTimeMs < ·) then none
  else if (get tick.symbol run.intervalOf).any (· ≠ tick.interval) then none
  else do
    let run :=
      { run with
        lastCloseMs := some tick.candle.closeTimeMs
        intervalOf := set tick.symbol tick.interval run.intervalOf
        streamed := run.streamed ++ [tick] }
    let (run, closeBars) ← run.replayBars opts tick
    run.closeCandle opts tick closeBars

/-- The whole stream. -/
def replayAll (opts : RunBacktestOptions S) (stream : List MarketTick) : Option (Run S) :=
  stream.foldlM (replay opts) (start opts)

end Run

end TradingBot.Backtest

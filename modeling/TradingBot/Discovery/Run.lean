import TradingBot.Discovery.Chain
import TradingBot.Lib.GreedyFill

/-!
# The rotation of a discovery cycle

The current symbols fall into four classes: those that still qualify, the faded
ones that are protected, the faded ones that can still be traded and yield
their slot to a candidate, and the rest, which are taken out. New symbols fill
the slots that the first two leave. A backtest replays such cycles one after
the other.
-/

namespace TradingBot.Discovery

open Decimal

structure CurrentAutoSymbol where
  symbol : String
  addedAtMs : ℤ

structure DiscoveryDiff where
  add : List String
  remove : List String
  desired : List String
deriving DecidableEq

/-- What the caller knows that candles do not say. -/
structure DiscoveryOverlay where
  keepable : List String
  unremovable : List String
  blocked : List String

/-- The arguments of one resolution. -/
structure ResolveInput where
  shortlist : List String
  klinesBySymbol : Klines
  currentAuto : List CurrentAutoSymbol
  lastFlattenAtMsBySymbol : String → Option ℤ
  cfg : DiscoveryConfig
  nowMs : ℤ
  pinnedMembers : List String
  allowAdds : Bool
  overlay : DiscoveryOverlay

namespace ResolveInput

variable (env : Environment) (i : ResolveInput)

def eligible : List String :=
  i.shortlist.filter fun symbol =>
    let klines := (i.klinesBySymbol symbol).getD []
    oldEnough klines i.cfg i.nowMs && trendConfirmed env klines i.cfg

def isEligible (c : CurrentAutoSymbol) : Bool := (i.eligible env).contains c.symbol

def currentSet : List String := i.currentAuto.map (·.symbol)

def kept : List CurrentAutoSymbol := i.currentAuto.filter (i.isEligible env)

def faded : List CurrentAutoSymbol := i.currentAuto.filter fun c => !i.isEligible env c

/-- Held long enough, and nothing keeps the caller from unbinding it. -/
def reapable (c : CurrentAutoSymbol) : Bool :=
  heldLongEnough c.addedAtMs i.cfg i.nowMs && !i.overlay.unremovable.contains c.symbol

def isKeepable (c : CurrentAutoSymbol) : Bool := i.overlay.keepable.contains c.symbol

def protectedFaded : List CurrentAutoSymbol := (i.faded env).filter fun c => !i.reapable c

/-- The faded symbols that give up their slot to an add, the longest held first. -/
def yielding : List CurrentAutoSymbol :=
  ((i.faded env).filter fun c => i.reapable c && i.isKeepable c).insertionSort
    fun a b => a.addedAtMs ≤ b.addedAtMs

def reaped : List String :=
  ((i.faded env).filter fun c => i.reapable c && !i.isKeepable c).map (·.symbol)

def rawSlots : ℤ :=
  if i.allowAdds then
    i.cfg.maxAutoSymbols - (i.kept env).length - (i.protectedFaded env).length
  else 0

def availableSlots : ℕ := (i.rawSlots env).toNat

/-- The slots that are open without taking one from a yielding symbol. -/
def freeSlots : ℕ := (i.rawSlots env - (i.yielding env).length).toNat

/-- The correlation settings, where the cap is armed. -/
def armedCorrelation : Option CorrelationConfig :=
  i.cfg.correlation.filter fun c => c.maxPairwise.gt (num 0)

def stayingPeers : List String :=
  match i.armedCorrelation with
  | none => []
  | some _ => i.currentSet.filter fun s => !(i.reaped env).contains s

/-- A candidate moves too much like a symbol that would be held beside it. -/
def correlated (add : List String) (symbol : String) : Bool :=
  match i.armedCorrelation with
  | none => false
  | some corr =>
      (maxPeerCorrelation symbol (i.stayingPeers env ++ add) i.klinesBySymbol
        corr.lookbackCandles).any (·.gte corr.maxPairwise)

/-- One round of the loop over the eligible symbols. -/
def considerAdd (add : List String) (symbol : String) : List String :=
  if i.currentSet.contains symbol then add
  else if i.pinnedMembers.contains symbol then add
  else if i.overlay.blocked.contains symbol then add
  else if i.availableSlots env ≤ add.length then add
  else if inCooldown (i.lastFlattenAtMsBySymbol symbol) i.cfg i.nowMs then add
  else if i.correlated env add symbol then add
  else add ++ [symbol]

def add : List String := (i.eligible env).foldl (i.considerAdd env) []

def evicted : List CurrentAutoSymbol :=
  (i.yielding env).take ((i.add env).length - i.freeSlots env)

def remove : List String := i.reaped env ++ (i.evicted env).map (·.symbol)

def desired : List String :=
  ((i.eligible env).filter fun s => i.currentSet.contains s || (i.add env).contains s) ++
    ((i.currentAuto.filter fun c => !i.isEligible env c && i.isKeepable c).filter fun c =>
      !((i.evicted env).map (·.symbol)).contains c.symbol).map (·.symbol)

end ResolveInput

def resolveDiscovery (env : Environment) (i : ResolveInput) : DiscoveryDiff :=
  { add := i.add env, remove := i.remove env, desired := i.desired env }

structure DiscoveryInput where
  tickers : List DiscoveryTicker
  klinesBySymbol : Klines
  currentAuto : List CurrentAutoSymbol
  lastFlattenAtMsBySymbol : String → Option ℤ
  pinnedMembers : List String
  config : DiscoveryConfig
  nowMs : ℤ

/-- What a cycle resolves, with what the caller knows of conflicts and refusals. -/
def DiscoveryInput.resolving (env : Environment) (input : DiscoveryInput)
    (unremovable blocked : List String) : ResolveInput where
  shortlist := shortlistByTicker env input.tickers input.config
  klinesBySymbol := input.klinesBySymbol
  currentAuto := input.currentAuto
  lastFlattenAtMsBySymbol := input.lastFlattenAtMsBySymbol
  cfg := input.config
  nowMs := input.nowMs
  pinnedMembers := input.pinnedMembers
  allowAdds := marketBreadthOk input.tickers input.config
  overlay := ⟨keepableSymbols env input.tickers input.config, unremovable, blocked⟩

def runDiscovery (env : Environment) (input : DiscoveryInput) : DiscoveryDiff :=
  resolveDiscovery env (input.resolving env [] [])

/-! ### The backtest -/

structure DiscoveryBacktestStep where
  tickers : List DiscoveryTicker
  klinesBySymbol : Klines
  nowMs : ℤ

/-- A symbol of the replayed set, with what it was entered at. -/
structure OpenAuto extends CurrentAutoSymbol where
  entryPrice : Decimal
  entrySpread : Decimal

def spreadFraction (t : DiscoveryTicker) : Decimal :=
  if t.bidPrice.lte (num 0) || t.askPrice.lte (num 0) || t.askPrice.lt t.bidPrice then num 0
  else (t.askPrice.sub t.bidPrice).div ((t.askPrice.add t.bidPrice).div (num 2))

structure BacktestState where
  currentAuto : List OpenAuto
  lastFlattenAtMsBySymbol : String → Option ℤ
  grossReturn : Decimal
  totalCost : Decimal
  trades : ℕ

def initialBacktest : BacktestState where
  currentAuto := []
  lastFlattenAtMsBySymbol := fun _ => none
  grossReturn := num 0
  totalCost := num 0
  trades := 0

/-- The last ticker of a symbol in the step's feed. -/
def tickerOf (tickers : List DiscoveryTicker) (symbol : String) : Option DiscoveryTicker :=
  (tickers.filter (·.symbol = symbol)).getLast?

/-- A removed position is stamped, and valued where its ticker is still listed. -/
def closePosition (fee : Decimal) (step : DiscoveryBacktestStep) (s : BacktestState)
    (pos : OpenAuto) : BacktestState :=
  let stamped :=
    { s with
      lastFlattenAtMsBySymbol :=
        Function.update s.lastFlattenAtMsBySymbol pos.symbol (some step.nowMs) }
  match tickerOf step.tickers pos.symbol with
  | none => stamped
  | some t =>
      { stamped with
        grossReturn := s.grossReturn.add ((t.lastPrice.sub pos.entryPrice).div pos.entryPrice)
        totalCost := ((s.totalCost.add (fee.mul (num 2))).add pos.entrySpread).add
          (spreadFraction t)
        trades := s.trades + 1 }

def backtestInput (cfg : DiscoveryConfig) (s : BacktestState) (step : DiscoveryBacktestStep) :
    DiscoveryInput where
  tickers := step.tickers
  klinesBySymbol := step.klinesBySymbol
  currentAuto := s.currentAuto.map (·.toCurrentAutoSymbol)
  lastFlattenAtMsBySymbol := s.lastFlattenAtMsBySymbol
  pinnedMembers := []
  config := cfg
  nowMs := step.nowMs

def openPosition (step : DiscoveryBacktestStep) (t : DiscoveryTicker) : OpenAuto where
  symbol := t.symbol
  addedAtMs := step.nowMs
  entryPrice := t.lastPrice
  entrySpread := spreadFraction t

/-- What a diff leaves of the replayed set: the adds at the end, the removed ones gone. -/
def applyDiff (fee : Decimal) (step : DiscoveryBacktestStep) (diff : DiscoveryDiff)
    (s : BacktestState) : BacktestState :=
  let opened := s.currentAuto ++
    (step.tickers.filter fun t => diff.add.contains t.symbol).map (openPosition step)
  let closed := (opened.filter fun pos => diff.remove.contains pos.symbol).foldl
    (closePosition fee step) s
  { closed with currentAuto := opened.filter fun pos => !diff.remove.contains pos.symbol }

def backtestStep (env : Environment) (cfg : DiscoveryConfig) (fee : Decimal) (s : BacktestState)
    (step : DiscoveryBacktestStep) : BacktestState :=
  applyDiff fee step (runDiscovery env (backtestInput cfg s step)) s

structure DiscoveryBacktestResult where
  trades : ℕ
  grossReturn : Decimal
  totalCost : Decimal
  netReturn : Decimal
  meanEdge : Decimal
  netPositive : Bool

def backtestDiscovery (env : Environment) (steps : List DiscoveryBacktestStep)
    (cfg : DiscoveryConfig) (fee : Decimal) : DiscoveryBacktestResult :=
  let final := steps.foldl (backtestStep env cfg fee) initialBacktest
  let netReturn := final.grossReturn.sub final.totalCost
  { trades := final.trades
    grossReturn := final.grossReturn
    totalCost := final.totalCost
    netReturn
    meanEdge := if final.trades > 0 then netReturn.div (num final.trades) else num 0
    netPositive := netReturn.gt (num 0) }

end TradingBot.Discovery

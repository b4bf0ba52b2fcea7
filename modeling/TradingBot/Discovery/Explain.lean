import TradingBot.Discovery.Rotation

/-!
# Explaining a cycle

The dashboard shows why each symbol is in or out of the set. The decision is
resolved once; the labels are read back from its diff, from the reasons the loop
over the candidates left behind, and from a second walk of each candidate
through the filters. The funnel counts how many symbols each stage let through.
-/

namespace TradingBot.Discovery

open Decimal

/-- The filters of the whole chain, the two that read candles last. -/
inductive DiscoveryFilterName where
  | stage (name : TickerStageName)
  | age
  | trend
deriving DecidableEq

inductive DiscoverySkipReason where
  | cooldown
  | slotCapped
  | correlationHigh
deriving DecidableEq

/-- A sibling profile on the same wallet trades the coin, or settles in it. -/
inductive SiblingConflictDisposition where
  | siblingOwnsBase
  | siblingQuotesBase
deriving DecidableEq

inductive DiscoveryDisposition where
  | added
  | kept
  | fadedHeld
  | fadedRemoved
  | skipped (reason : DiscoverySkipReason)
  | conflict (verdict : SiblingConflictDisposition)
  | rejected
deriving DecidableEq

structure CandidateExplain where
  symbol : String
  gainerScore : Option Decimal
  passed : List DiscoveryFilterName
  failedAt : Option DiscoveryFilterName
  disposition : DiscoveryDisposition

structure DiscoveryExplain where
  diff : DiscoveryDiff
  candidates : List CandidateExplain

/-! ### The trace of the loop -/

/-- The loop over the candidates with the reasons it leaves behind. -/
structure AddTrace where
  add : List String
  skipReasons : String → Option DiscoverySkipReason

def AddTrace.skip (trace : AddTrace) (symbol : String) (reason : DiscoverySkipReason) : AddTrace :=
  { trace with skipReasons := Function.update trace.skipReasons symbol (some reason) }

namespace ResolveInput

variable (env : Environment) (i : ResolveInput)

/-- One round of the loop: current, pinned and blocked symbols get no reason. -/
def traceAdd (trace : AddTrace) (symbol : String) : AddTrace :=
  if i.currentSet.contains symbol then trace
  else if i.pinnedMembers.contains symbol then trace
  else if i.overlay.blocked.contains symbol then trace
  else if i.availableSlots env ≤ trace.add.length then trace.skip symbol .slotCapped
  else if inCooldown (i.lastFlattenAtMsBySymbol symbol) i.cfg i.nowMs then
    trace.skip symbol .cooldown
  else if i.correlated env trace.add symbol then trace.skip symbol .correlationHigh
  else { trace with add := trace.add ++ [symbol] }

def skipReasons : String → Option DiscoverySkipReason :=
  ((i.eligible env).foldl (i.traceAdd env) ⟨[], fun _ => none⟩).skipReasons

end ResolveInput

/-! ### The walk through the filters -/

/-- The filters of a candidate in their order, each with its verdict. -/
def filterChecks (env : Environment) (t : DiscoveryTicker) (klines : List DiscoveryCandle)
    (cfg : DiscoveryConfig) (ctx : RankContext) (nowMs : ℤ) : List (DiscoveryFilterName × Bool) :=
  tickerStageChain.map (fun stage => (.stage stage.1, stage.2 t cfg ctx)) ++
    [(.age, oldEnough klines cfg nowMs), (.trend, trendConfirmed env klines cfg)]

/-- The filters passed before the first that failed, and that one. -/
def evalFilters (env : Environment) (t : DiscoveryTicker) (klines : List DiscoveryCandle)
    (cfg : DiscoveryConfig) (ctx : RankContext) (nowMs : ℤ) :
    List DiscoveryFilterName × Option DiscoveryFilterName :=
  let checks := filterChecks env t klines cfg ctx nowMs
  ((checks.takeWhile (·.2)).map (·.1), (checks.find? (!·.2)).map (·.1))

/-! ### The labels -/

/-- What a label is read from. -/
structure Standing where
  eligible : Bool
  keeps : Bool
  inCurrent : Bool
  inAdd : Bool
  inRemove : Bool
  notAddedReason : DiscoverySkipReason
  siblingConflict : Option SiblingConflictDisposition

def dispositionOf (s : Standing) : DiscoveryDisposition :=
  match s.siblingConflict with
  | some verdict => .conflict verdict
  | none =>
      if s.inAdd then .added
      else if s.inRemove then .fadedRemoved
      else if s.inCurrent then if s.keeps then .kept else .fadedHeld
      else if !s.eligible then .rejected
      else .skipped s.notAddedReason

/-- The bigger gain first, then the lesser symbol; candidates without a gain by their symbol. -/
def ranksBefore (env : Environment) (a b : CandidateExplain) : Bool :=
  match a.gainerScore, b.gainerScore with
  | some x, some y =>
      if y.eq x then env.localeCompare a.symbol b.symbol ≠ .gt else !y.gt x
  | _, _ => env.localeCompare a.symbol b.symbol ≠ .gt

def sortCandidates (env : Environment) (candidates : List CandidateExplain) :
    List CandidateExplain :=
  candidates.insertionSort fun a b => ranksBefore env a b = true

section Explain

variable (env : Environment) (input : DiscoveryInput)
  (siblingConflictBySymbol : List (String × SiblingConflictDisposition))
  (unremovable : List String)

/-- The resolution the explanation is of: a conflicted symbol is blocked inside its loop. -/
def DiscoveryInput.explained : ResolveInput :=
  input.resolving env unremovable (siblingConflictBySymbol.map (·.1))

/-- The row of one symbol. -/
def explainCandidate (symbol : String) : CandidateExplain :=
  let i := input.explained env siblingConflictBySymbol unremovable
  let diff := resolveDiscovery env i
  let t := tickerOf input.tickers symbol
  let walk := t.map fun t =>
    evalFilters env t ((input.klinesBySymbol symbol).getD []) input.config
      (buildRankContext env input.tickers input.config) input.nowMs
  let eligible := walk.any fun walk => walk.2.isNone
  { symbol
    gainerScore := t.map (·.priceChangePercent)
    passed := (walk.map (·.1)).getD []
    failedAt := walk.bind (·.2)
    disposition := dispositionOf
      { eligible
        keeps := eligible || i.overlay.keepable.contains symbol
        inCurrent := i.currentSet.contains symbol
        inAdd := diff.add.contains symbol
        inRemove := diff.remove.contains symbol
        notAddedReason := (i.skipReasons env symbol).getD .slotCapped
        siblingConflict := siblingConflictBySymbol.lookup symbol } }

/-- The symbols explained: the shortlist and the current set, without the pinned ones. -/
def candidateSymbols : List String :=
  let i := input.explained env siblingConflictBySymbol unremovable
  (i.shortlist ++ i.currentSet).eraseDups.filter fun s => !i.pinnedMembers.contains s

def explainDiscovery : DiscoveryExplain :=
  let candidates := (candidateSymbols env input siblingConflictBySymbol unremovable).map
    (explainCandidate env input siblingConflictBySymbol unremovable)
  { diff := resolveDiscovery env (input.explained env siblingConflictBySymbol unremovable)
    candidates := sortCandidates env (candidates.filter (·.gainerScore.isSome)) ++
      sortCandidates env (candidates.filter (·.gainerScore.isNone)) }

end Explain

/-! ### The funnel -/

/-- How many tickers came in, and how many were left after each stage. -/
structure TickerStageCounts where
  universeSize : ℕ
  survivors : TickerStageName → ℕ

/-- The stages of a ticker before its first failure. -/
def stagesPassed (t : DiscoveryTicker) (cfg : DiscoveryConfig) (ctx : RankContext) :
    List TickerStageName :=
  (tickerStageChain.takeWhile fun stage => stage.2 t cfg ctx).map (·.1)

def countStage (counts : TickerStageName → ℕ) (name : TickerStageName) : TickerStageName → ℕ :=
  Function.update counts name (counts name + 1)

def tickerStageCounts (env : Environment) (tickers : List DiscoveryTicker) (cfg : DiscoveryConfig) :
    TickerStageCounts :=
  let ctx := buildRankContext env tickers cfg
  { universeSize := tickers.length
    survivors := tickers.foldl
      (fun counts t => (stagesPassed t cfg ctx).foldl countStage counts) fun _ => 0 }

/-- Every filter, in the order of the walk. -/
def filterStages : List DiscoveryFilterName :=
  tickerStageChain.map (fun stage => .stage stage.1) ++ [.age, .trend]

structure DiscoveryFunnel where
  ticker : TickerStageCounts
  probed : ℕ
  age : ℕ
  trend : ℕ
  eligible : ℕ
  added : ℕ
  kept : ℤ
  removed : ℕ
  breadthOk : Bool

def projectFunnel (candidates : List CandidateExplain) (diff : DiscoveryDiff) (breadthOk : Bool)
    (ticker : TickerStageCounts) (probed : ℕ) : DiscoveryFunnel :=
  let survived := fun stage => (candidates.filter (·.passed.contains stage)).length
  { ticker
    probed
    age := survived .age
    trend := survived .trend
    eligible := (candidates.filter fun c =>
      c.failedAt.isNone && c.passed.length == filterStages.length).length
    added := diff.add.length
    kept := diff.desired.length - diff.add.length
    removed := diff.remove.length
    breadthOk }

end TradingBot.Discovery

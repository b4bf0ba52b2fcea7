import Mathlib.Algebra.Order.Field.Rat
import Mathlib.Data.List.Sort
import TradingBot.Lib.Grouping

/-!
# Archive rollups

The closed cycles of a profile by the reason they closed, by where their symbol
came from, and in one summary. A row always counts towards the recorded result;
towards the net figures it counts only with evidence of its fees. Which texts
state an instant, and which one, is the schema library's and the runtime's.
-/

namespace TradingBot.Contracts

open Grouping

/-! ### One cycle -/

section Cycle

variable (isoInstant : String → Option ℤ)

/-- An archived order as the rollups read it. -/
structure RollupOrder where
  side : String
  intent : Option String
  closedAt : Option String

/-- The stamp of an order, where it is an instant the wire can carry. -/
def RollupOrder.stamp (order : RollupOrder) : Option ℤ := order.closedAt.bind isoInstant

def untrackedSep : String := ":untracked:"

/-- The characters before the first occurrence of a separator; all of them if it does not occur. -/
def before (sep : List Char) : List Char → List Char
  | [] => []
  | c :: cs => if sep.isPrefixOf (c :: cs) then [] else c :: before sep cs

/-- The intent the strategy meant: a recovered order carries its exchange id behind it. -/
def baseIntent (intent : String) : String :=
  String.ofList (before untrackedSep.toList intent.toList)

/-- The SELL that closed the cycle so far, with its instant where it is stamped. -/
def closingStep (closing : Option RollupOrder × Option ℤ) (order : RollupOrder) :
    Option RollupOrder × Option ℤ :=
  if order.side ≠ "SELL" then closing
  else
    match order.stamp isoInstant with
    -- unstamped orders only compete with each other
    | none => if closing.2.isNone then (some order, none) else closing
    | some at_ => if closing.2.all (· ≤ at_) then (some order, some at_) else closing

/-- The intent an order reports. -/
def RollupOrder.label (order : RollupOrder) : String :=
  match order.intent with
  | some intent => if intent = "" then "unknown" else baseIntent intent
  | none => "unknown"

def deriveExitIntent (orders : List RollupOrder) : String :=
  (orders.foldl (closingStep isoInstant) (none, none)).1.elim "unknown" RollupOrder.label

inductive Pick where
  | earliest
  | latest

def Pick.improves (pick : Pick) (at_ best : ℤ) : Bool :=
  match pick with
  | earliest => at_ < best
  | latest => best < at_

def extremeStep (side : String) (pick : Pick) (best : Option (String × ℤ)) (order : RollupOrder) :
    Option (String × ℤ) :=
  if order.side ≠ side then best
  else
    match order.closedAt with
    | none => best
    | some closedAt =>
        match isoInstant closedAt with
        | none => best
        | some at_ => if best.all (pick.improves at_ ·.2) then some (closedAt, at_) else best

/-- The earliest or latest stamp on a side, as it is spelled. -/
def extremeAt (orders : List RollupOrder) (side : String) (pick : Pick) : Option (String × ℤ) :=
  orders.foldl (extremeStep isoInstant side pick) none

def deriveEntryAt (orders : List RollupOrder) : Option (String × ℤ) :=
  extremeAt isoInstant orders "BUY" .earliest

def deriveExitAt (orders : List RollupOrder) : Option (String × ℤ) :=
  extremeAt isoInstant orders "SELL" .latest

/-- How long a cycle was held; a span that runs backwards is no span. -/
def holdMsOf (orders : List RollupOrder) : Option ℤ :=
  match deriveEntryAt isoInstant orders, deriveExitAt isoInstant orders with
  | some entry, some exit => if 0 ≤ exit.2 - entry.2 then some (exit.2 - entry.2) else none
  | _, _ => none

end Cycle

/-! ### Fee tiers -/

inductive FeeBasis where
  | exact
  | estimated
  | unknown
deriving DecidableEq

def FeeBasis.rank : FeeBasis → ℕ
  | unknown => 0
  | estimated => 1
  | exact => 2

/-- The tier of a text; one this build does not know ranks as unknown. -/
def feeBasisOf (raw : String) : FeeBasis :=
  if raw = "exact" then .exact else if raw = "estimated" then .estimated else .unknown

/-- The weaker of two tiers. -/
def weakestFeeBasis (a b : FeeBasis) : FeeBasis := if a.rank ≤ b.rank then a else b

/-! ### Buckets -/

structure ArchiveRollupItem where
  quoteAsset : String
  source : String
  profit : ℚ
  feesQuote : Option ℚ
  feeBasis : Option String
  orders : List RollupOrder

structure RollupBucket where
  quoteAsset : String
  dimension : String
  tradeCount : ℕ
  netTradeCount : ℕ
  wins : ℕ
  losses : ℕ
  profitSum : ℚ
  netProfitSum : ℚ
  grossProfit : ℚ
  grossLoss : ℚ
  totalFees : ℚ
  holdMsSum : ℤ
  holdCount : ℕ
  feeBasis : FeeBasis

namespace ArchiveRollupItem

variable (item : ArchiveRollupItem)

/-- The tier of a row, an absent one read as unknown. -/
def basis : FeeBasis := weakestFeeBasis (feeBasisOf (item.feeBasis.getD "unknown")) .exact

def fees : ℚ := item.feesQuote.getD 0

def net : ℚ := item.profit - item.fees

end ArchiveRollupItem

/-- An empty bucket at the strongest tier, which its rows can only weaken. -/
def emptyBucket (dimensionOf : ArchiveRollupItem → String) (item : ArchiveRollupItem) :
    RollupBucket where
  quoteAsset := item.quoteAsset
  dimension := dimensionOf item
  tradeCount := 0
  netTradeCount := 0
  wins := 0
  losses := 0
  profitSum := 0
  netProfitSum := 0
  grossProfit := 0
  grossLoss := 0
  totalFees := 0
  holdMsSum := 0
  holdCount := 0
  feeBasis := .exact

/-- The recorded leg, which every row has. -/
def RollupBucket.record (isoInstant : String → Option ℤ) (b : RollupBucket)
    (item : ArchiveRollupItem) : RollupBucket :=
  { b with
    tradeCount := b.tradeCount + 1
    profitSum := b.profitSum + item.profit
    holdMsSum := b.holdMsSum + (holdMsOf isoInstant item.orders).getD 0
    holdCount := b.holdCount + (if (holdMsOf isoInstant item.orders).isSome then 1 else 0) }

/-- The net leg of a valued row. -/
def RollupBucket.value (b : RollupBucket) (item : ArchiveRollupItem) : RollupBucket :=
  { b with
    netTradeCount := b.netTradeCount + 1
    netProfitSum := b.netProfitSum + item.profit
    feeBasis := weakestFeeBasis b.feeBasis item.basis
    totalFees := b.totalFees + item.fees
    wins := b.wins + (if 0 < item.net then 1 else 0)
    grossProfit := b.grossProfit + (if 0 < item.net then item.net else 0)
    losses := b.losses + (if item.net < 0 then 1 else 0)
    grossLoss := b.grossLoss + (if item.net < 0 then |item.net| else 0) }

def accumulate (isoInstant : String → Option ℤ) (b : RollupBucket) (item : ArchiveRollupItem) :
    RollupBucket :=
  let recorded := b.record isoInstant item
  -- a row without evidence of its fees stays out of every net figure
  if item.basis = .unknown then recorded else recorded.value item

def bucketKey (dimensionOf : ArchiveRollupItem → String) (item : ArchiveRollupItem) : String :=
  item.quoteAsset ++ " " ++ dimensionOf item

/-- Buckets by their quote asset, then their label. -/
def bucketLe (localeCompare : String → String → Ordering) (a b : RollupBucket) : Prop :=
  ((localeCompare a.quoteAsset b.quoteAsset).then (localeCompare a.dimension b.dimension)) ≠ .gt

instance (localeCompare : String → String → Ordering) (a b : RollupBucket) :
    Decidable (bucketLe localeCompare a b) :=
  inferInstanceAs (Decidable (_ ≠ _))

def accumulateBuckets (isoInstant : String → Option ℤ)
    (localeCompare : String → String → Ordering) (items : List ArchiveRollupItem)
    (dimensionOf : ArchiveRollupItem → String) : List RollupBucket :=
  let buckets :=
    (group (bucketKey dimensionOf) (emptyBucket dimensionOf)
      (accumulate isoInstant) items).map (·.2)
  buckets.insertionSort (bucketLe localeCompare)

/-- A bucket as the wire carries it. -/
structure BucketMetrics where
  quoteAsset : String
  tradeCount : ℕ
  netTradeCount : ℕ
  wins : ℕ
  losses : ℕ
  profitSum : ℚ
  netProfit : ℚ
  grossProfit : ℚ
  grossLoss : ℚ
  totalFees : ℚ
  feeBasis : FeeBasis
  avgHoldMs : Option ℚ

def bucketMetrics (b : RollupBucket) : BucketMetrics where
  quoteAsset := b.quoteAsset
  tradeCount := b.tradeCount
  netTradeCount := b.netTradeCount
  wins := b.wins
  losses := b.losses
  profitSum := b.profitSum
  netProfit := b.netProfitSum - b.totalFees
  grossProfit := b.grossProfit
  grossLoss := b.grossLoss
  totalFees := b.totalFees
  feeBasis := if b.netTradeCount = 0 then .unknown else b.feeBasis
  avgHoldMs := if b.holdCount = 0 then none else some (b.holdMsSum / b.holdCount)

/-- A row of a rollup: the metrics of a bucket under its label. -/
structure RollupRow extends BucketMetrics where
  label : String

def rollupRow (b : RollupBucket) : RollupRow :=
  { bucketMetrics b with label := b.dimension }

section Rollups

variable (isoInstant : String → Option ℤ) (localeCompare : String → String → Ordering)
  (items : List ArchiveRollupItem)

def rollupByExitIntent : List RollupRow :=
  (accumulateBuckets isoInstant localeCompare items fun item =>
    deriveExitIntent isoInstant item.orders).map rollupRow

def rollupBySource : List RollupRow :=
  (accumulateBuckets isoInstant localeCompare items (·.source)).map rollupRow

structure ClosedTradesSummary where
  tradeCount : ℕ
  netTradeCount : ℕ
  wins : ℕ
  losses : ℕ
  grossProfit : ℚ
  grossLoss : ℚ
  netProfit : ℚ
  totalFees : ℚ
  feeBasis : FeeBasis

def emptyClosedTradesSummary : ClosedTradesSummary := ⟨0, 0, 0, 0, 0, 0, 0, 0, .exact⟩

/-- One summary of all rows: the first bucket, the label being the same for all. -/
def summarizeClosedTrades : ClosedTradesSummary :=
  match (accumulateBuckets isoInstant localeCompare items fun _ => "all").head? with
  | none => emptyClosedTradesSummary
  | some bucket =>
      let m := bucketMetrics bucket
      { tradeCount := m.tradeCount
        netTradeCount := m.netTradeCount
        wins := m.wins
        losses := m.losses
        grossProfit := m.grossProfit
        grossLoss := m.grossLoss
        netProfit := m.netProfit
        totalFees := m.totalFees
        feeBasis := m.feeBasis }

end Rollups

end TradingBot.Contracts

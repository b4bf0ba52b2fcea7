import TradingBot.Contracts.Archive
import TradingBot.Worker.RefusalCircuit

/-!
# Resolving fees from trades

The fees of an archived cycle are added up from the trades of the account, which
arrive as untyped payloads. What cannot be read of a payload that names an
expected order, or not be priced, is counted, as is an order whose trades do not
add up to what it executed; the counts decide how well the fee is known.
-/

namespace TradingBot.Worker

open Decimal Grid InsertionMap
open Contracts (FeeBasis)

/-! ### Numbers of the language -/

/-- The exponent of the largest power of two that a positive number reaches. -/
def binaryExponent (q : ℚ) : ℤ :=
  let e : ℤ := (q.num.natAbs.log2 : ℤ) - q.den.log2
  if (2 : ℚ) ^ e ≤ q then e else e - 1

/-- The nearest integer, the even one of two that are. -/
def roundHalfEven (q : ℚ) : ℤ :=
  let rest := q - ⌊q⌋
  if rest < 1 / 2 ∨ rest = 1 / 2 ∧ ⌊q⌋ % 2 = 0 then ⌊q⌋ else ⌊q⌋ + 1

/-- The double a literal denotes; one past the largest double is left as it is. -/
def nearestDouble (q : ℚ) : ℚ :=
  if q = 0 then 0
  else
    let unit : ℚ := 2 ^ max (binaryExponent |q| - 52) (-1074)
    roundHalfEven (q / unit) * unit

def isNumberSpace (c : Char) : Bool :=
  let n := c.toNat
  (9 ≤ n && n ≤ 13) || (8192 ≤ n && n ≤ 8202) ||
    [32, 160, 5760, 8232, 8233, 8239, 8287, 12288, 65279].contains n

/-- An integer literal with a radix; it has no sign. -/
def radixLiteral : List Char → Option ℚ
  | '0' :: mark :: digits =>
      let radix := match mark with
        | 'x' | 'X' => 16
        | 'o' | 'O' => 8
        | 'b' | 'B' => 2
        | _ => 0
      match takeDigits radix digits with
      | (d :: ds, []) => some (digitsValue radix (d :: ds))
      | _ => none
  | _ => none

/-- `Number` of a text, where it is finite; the empty text is zero. -/
def numberOf (text : String) : Option ℚ :=
  let trimmed := ((text.toList.dropWhile isNumberSpace).reverse.dropWhile isNumberSpace).reverse
  let literal := match trimmed with
    | [] => some 0
    | '-' :: cs => (parseLiteral 10 10 'e' cs).map (- ·)
    | '+' :: cs => parseLiteral 10 10 'e' cs
    | cs => (parseLiteral 10 10 'e' cs).or (radixLiteral cs)
  literal.map nearestDouble

def maxSafeInteger : ℕ := 2 ^ 53 - 1

/-- `Number.isSafeInteger`. -/
def safeInteger (q : ℚ) : Option ℤ :=
  if q.den = 1 ∧ q.num.natAbs ≤ maxSafeInteger then some q.num else none

def asSafeInteger : Json → Option ℤ
  | .num q => safeInteger q
  | _ => none

def asFlag : Json → Option Bool
  | .bool flag => some flag
  | _ => none

/-- A text that is a finite number, not negative, and not zero where it has to be positive. -/
def decimalString (raw : Json) (positive : Bool) : Option ℚ :=
  match (asText raw).bind parse with
  | some (.num q) => if (if positive then decide (q ≤ 0) else decide (q < 0)) then none else some q
  | _ => none

theorem decimalString_eq_some {raw : Json} {positive : Bool} {q : ℚ}
    (h : decimalString raw positive = some q) : 0 ≤ q ∧ Terminating q := by
  unfold decimalString at h
  cases hread : (asText raw).bind parse with
  | none =>
      rw [hread] at h
      cases h
  | some d =>
      rw [hread] at h
      obtain ⟨text, -, hparse⟩ := Option.bind_eq_some_iff.mp hread
      clear hread
      cases d with
      | nan => cases h
      | inf s => cases h
      | num read =>
          obtain ⟨hsign, hread⟩ := Option.ite_none_left_eq_some.mp h
          obtain rfl := Option.some.inj hread
          refine ⟨?_, parse_terminating hparse⟩
          cases positive with
          | false => simpa using hsign
          | true => exact (by simpa using hsign : 0 < read).le

/-! ### Commission rates -/

/-- A rate of the exchange. -/
structure Share where
  value : ℚ
  nonneg : 0 ≤ value
  le_one : value ≤ 1
  terminating : Terminating value

structure CommissionLegs where
  maker : Share
  taker : Share
  buyer : Share
  seller : Share

structure QuoteCommissionRates where
  standard : CommissionLegs
  tax : CommissionLegs
  special : CommissionLegs
  discountAsset : String
  discountMultiplier : Share

def commissionRate (raw : Json) : Option Share :=
  match h : decimalString raw false with
  | none => none
  | some q =>
      let read := decimalString_eq_some h
      if hle : q ≤ 1 then some ⟨q, read.1, hle, read.2⟩ else none

def parseCommissionLegs (raw : Json) : Option CommissionLegs := do
  let table ← recordOf raw
  let maker ← commissionRate (fieldOf "maker" table)
  let taker ← commissionRate (fieldOf "taker" table)
  let buyer ← commissionRate (fieldOf "buyer" table)
  let seller ← commissionRate (fieldOf "seller" table)
  return { maker, taker, buyer, seller }

/-- The rates of a payload that states all of them. -/
def parseCommissionRates (raw : Json) : Option QuoteCommissionRates := do
  let payload ← recordOf raw
  let standard ← parseCommissionLegs (fieldOf "standardCommission" payload)
  let tax ← parseCommissionLegs (fieldOf "taxCommission" payload)
  let special ← parseCommissionLegs (fieldOf "specialCommission" payload)
  let discount ← recordOf (fieldOf "discount" payload)
  let discountAsset ← (asText (fieldOf "discountAsset" discount)).filter (· ≠ "")
  let discountMultiplier ← commissionRate (fieldOf "discount" discount)
  return { standard, tax, special, discountAsset, discountMultiplier }

def selectedLegs (legs : CommissionLegs) (isMaker isBuyer : Bool) : ℚ :=
  (if isMaker then legs.maker else legs.taker).value +
    (if isBuyer then legs.buyer else legs.seller).value

/-- The share of the quote notional charged on a fill; the discount scales the standard part. -/
def effectiveCommissionRate (rates : QuoteCommissionRates) (isMaker isBuyer : Bool)
    (commissionAsset : String) : ℚ :=
  let discount :=
    if commissionAsset = rates.discountAsset then rates.discountMultiplier.value else 1
  selectedLegs rates.standard isMaker isBuyer * discount + selectedLegs rates.tax isMaker isBuyer +
    selectedLegs rates.special isMaker isBuyer

/-! ### Payloads -/

/-- What is known of an order whose fees are asked for. -/
structure FeeOrderEvidence where
  binanceOrderId : String
  side : Option OrderSide
  executedQty : Option String
  cummulativeQuoteQty : Option String
  baseCommissionNetted : Option String

structure ExpectedOrder where
  side : Option OrderSide
  executedQty : Option ℚ
  cummulativeQuoteQty : Option ℚ
  baseCommissionNetted : Option ℚ

/-- The id of an order, where its text is that of one. -/
def FeeOrderEvidence.orderId (order : FeeOrderEvidence) : Option ℤ :=
  ((numberOf order.binanceOrderId).bind safeInteger).filter (0 ≤ ·)

def FeeOrderEvidence.expected (order : FeeOrderEvidence) : ExpectedOrder where
  side := order.side
  executedQty := decimalString (textOrNull order.executedQty) true
  cummulativeQuoteQty := decimalString (textOrNull order.cummulativeQuoteQty) false
  baseCommissionNetted := decimalString (textOrNull order.baseCommissionNetted) true

/-- The evidence lacks a side or a quantity, or states a commission that is none. -/
def FeeOrderEvidence.isMalformed (order : FeeOrderEvidence) : Bool :=
  order.side.isNone || order.expected.executedQty.isNone ||
    order.baseCommissionNetted.isSome && order.expected.baseCommissionNetted.isNone

structure ExpectedOrders where
  byId : List (ℤ × ExpectedOrder)
  malformedOrders : ℕ

def ExpectedOrders.add (e : ExpectedOrders) (order : FeeOrderEvidence) : ExpectedOrders :=
  match order.orderId with
  | none => { e with malformedOrders := e.malformedOrders + 1 }
  | some id =>
      if id ∈ keys e.byId then { e with malformedOrders := e.malformedOrders + 1 }
      else
        { byId := set id order.expected e.byId
          malformedOrders :=
            if order.isMalformed then e.malformedOrders + 1 else e.malformedOrders }

def expectedOrders (orders : List FeeOrderEvidence) : ExpectedOrders :=
  orders.foldl ExpectedOrders.add ⟨[], 0⟩

/-- What a fee is resolved against. -/
structure FeeTerms where
  symbol : String
  baseAsset : String
  quoteAsset : String
  rates : Option QuoteCommissionRates

/-- A trade whose commission can be read; its prices may be missing. -/
structure FeeTrade where
  tradeId : ℤ
  commission : ℚ
  commissionAsset : String
  isBuyer : Bool
  isMaker : Option Bool
  price : Option ℚ
  qty : Option ℚ
  quoteQty : Option ℚ

/-- The expected order that a payload names, and the fields of the payload. -/
def namedOrder (byId : List (ℤ × ExpectedOrder)) (candidate : Json) :
    Option (ℤ × ExpectedOrder × List (String × Json)) := do
  let trade ← recordOf candidate
  let orderId ← asSafeInteger (fieldOf "orderId" trade)
  let order ← get orderId byId
  return (orderId, order, trade)

def readTrade (symbol : String) (expected : ExpectedOrder) (trade : List (String × Json)) :
    Option FeeTrade := do
  let named ← asText (fieldOf "symbol" trade)
  let tradeId ← asSafeInteger (fieldOf "id" trade)
  let commission ← decimalString (fieldOf "commission" trade) false
  let commissionAsset ← asText (fieldOf "commissionAsset" trade)
  let isBuyer ← asFlag (fieldOf "isBuyer" trade)
  let side ← expected.side
  if named ≠ symbol ∨ commissionAsset = "" ∨ isBuyer ≠ decide (side = .buy) then none
  else
    return {
      tradeId, commission, commissionAsset, isBuyer
      isMaker := asFlag (fieldOf "isMaker" trade)
      price := decimalString (fieldOf "price" trade) true
      qty := decimalString (fieldOf "qty" trade) true
      quoteQty := decimalString (fieldOf "quoteQty" trade) false }

/-- The commission of a fill in the quote asset, where the fill or the rates tell it. -/
def FeeTerms.valueCommissionInQuote (terms : FeeTerms) (fill : FeeTrade) : Option ℚ :=
  if fill.commission = 0 then some 0
  else if fill.commissionAsset = terms.quoteAsset then some fill.commission
  else if fill.commissionAsset = terms.baseAsset then
    -- the order's whole base commission is checked against its cost basis later
    if fill.isBuyer then some 0 else fill.price.map (fill.commission * ·)
  else do
    let rates ← terms.rates
    let quoteQty ← fill.quoteQty
    let isMaker ← fill.isMaker
    let rate := effectiveCommissionRate rates isMaker fill.isBuyer fill.commissionAsset
    if rate = 0 then none else return quoteQty * rate

/-! ### The totals -/

structure OrderTotals where
  qty : ℚ
  quoteQty : ℚ
  baseBuyCommission : ℚ

structure FeeTally where
  sums : List (String × ℚ)
  matched : List ℤ
  seenTradeIds : List ℤ
  actualByOrder : List (ℤ × OrderTotals)
  feesQuote : ℚ
  unpricedTrades : ℕ
  malformedTrades : ℕ

def FeeTally.start : FeeTally := ⟨[], [], [], [], 0, 0, 0⟩

def FeeTally.malformed (t : FeeTally) : FeeTally :=
  { t with malformedTrades := t.malformedTrades + 1 }

def FeeTally.charge (t : FeeTally) (terms : FeeTerms) (fill : FeeTrade) : FeeTally :=
  let t :=
    { t with
      seenTradeIds := fill.tradeId :: t.seenTradeIds
      sums := set fill.commissionAsset
        ((get fill.commissionAsset t.sums).getD 0 + fill.commission) t.sums }
  match terms.valueCommissionInQuote fill with
  | none => { t with unpricedTrades := t.unpricedTrades + 1 }
  | some value => { t with feesQuote := t.feesQuote + value }

def OrderTotals.add (a : OrderTotals) (qty quoteQty baseBuyCommission : ℚ) : OrderTotals :=
  ⟨a.qty + qty, a.quoteQty + quoteQty, a.baseBuyCommission + baseBuyCommission⟩

/-- The base coin a trade's commission took from what it bought. -/
def FeeTerms.baseBuyCommission (terms : FeeTerms) (isBuyer : Bool) (commissionAsset : String)
    (commission : ℚ) : ℚ :=
  if isBuyer ∧ commissionAsset = terms.baseAsset then commission else 0

def FeeTally.add (terms : FeeTerms) (byId : List (ℤ × ExpectedOrder)) (t : FeeTally)
    (candidate : Json) : FeeTally :=
  match namedOrder byId candidate with
  | none => t
  | some (orderId, expected, trade) =>
      let t := { t with matched := t.matched.insert orderId }
      match readTrade terms.symbol expected trade with
      | none => t.malformed
      | some fill =>
          if fill.tradeId ∈ t.seenTradeIds then t.malformed
          else
            let t := t.charge terms fill
            match fill.price, fill.qty, fill.quoteQty with
            | some _, some qty, some quoteQty =>
                { t with
                  actualByOrder := set orderId
                    (((get orderId t.actualByOrder).getD ⟨0, 0, 0⟩).add qty quoteQty
                      (terms.baseBuyCommission fill.isBuyer fill.commissionAsset fill.commission))
                    t.actualByOrder }
            | _, _, _ => t.malformed

def feeTally (terms : FeeTerms) (byId : List (ℤ × ExpectedOrder)) (trades : List Json) : FeeTally :=
  trades.foldl (FeeTally.add terms byId) .start

structure OrderChecks where
  missingOrderIds : ℕ
  mismatchedOrders : ℕ
  unprovenBaseBuyOrders : ℕ

/-- Whether the trades of an order add up to what it executed. -/
def ExpectedOrder.Matches (expected : ExpectedOrder) (actual : OrderTotals) : Prop :=
  expected.executedQty = some actual.qty ∧
    ∀ quoteQty ∈ expected.cummulativeQuoteQty, actual.quoteQty = quoteQty

instance (expected : ExpectedOrder) (actual : OrderTotals) : Decidable (expected.Matches actual) :=
  inferInstanceAs (Decidable (_ ∧ _))

/-- The base commission of a purchase is the one its cost basis was netted by. -/
def ExpectedOrder.Proves (expected : ExpectedOrder) (actual : OrderTotals) : Prop :=
  expected.side = some .buy → actual.baseBuyCommission = expected.baseCommissionNetted.getD 0

instance (expected : ExpectedOrder) (actual : OrderTotals) : Decidable (expected.Proves actual) :=
  inferInstanceAs (Decidable (_ → _))

def OrderChecks.add (t : FeeTally) (k : OrderChecks) (entry : ℤ × ExpectedOrder) : OrderChecks :=
  if entry.1 ∉ t.matched then { k with missingOrderIds := k.missingOrderIds + 1 }
  else
    match get entry.1 t.actualByOrder with
    | none => { k with mismatchedOrders := k.mismatchedOrders + 1 }
    | some actual =>
        if ¬ entry.2.Matches actual then { k with mismatchedOrders := k.mismatchedOrders + 1 }
        else if ¬ entry.2.Proves actual then
          { k with unprovenBaseBuyOrders := k.unprovenBaseBuyOrders + 1 }
        else k

def orderChecks (t : FeeTally) (byId : List (ℤ × ExpectedOrder)) : OrderChecks :=
  byId.foldl (OrderChecks.add t) ⟨0, 0, 0⟩

structure FeeResolutionDetails where
  fees : List (String × Json)
  feesQuote : String
  feeBasis : FeeBasis
  matchedOrderIds : ℕ
  missingOrderIds : ℕ
  mismatchedOrders : ℕ
  unprovenBaseBuyOrders : ℕ
  malformedOrders : ℕ
  unpricedTrades : ℕ
  malformedTrades : ℕ

/-- A plain object does not take a text as its prototype. -/
def setFee (fields : List (String × Json)) (fee : String × ℚ) : List (String × Json) :=
  if fee.1 = "__proto__" then fields else Json.setField fee.1 (.str (num fee.2).toFixed) fields

def resolveFeesFromTrades (trades : List Json) (orders : List FeeOrderEvidence) (terms : FeeTerms) :
    FeeResolutionDetails :=
  let expected := expectedOrders orders
  let t := feeTally terms expected.byId trades
  let k := orderChecks t expected.byId
  let accountedFor := !orders.isEmpty && k.missingOrderIds == 0 && k.mismatchedOrders == 0 &&
    k.unprovenBaseBuyOrders == 0 && expected.malformedOrders == 0 && t.unpricedTrades == 0 &&
    t.malformedTrades == 0
  { fees := t.sums.foldl setFee []
    feesQuote := (num t.feesQuote).toFixed
    feeBasis :=
      if !accountedFor then .unknown else if terms.rates.isNone then .exact else .estimated
    matchedOrderIds := t.matched.length
    missingOrderIds := k.missingOrderIds
    mismatchedOrders := k.mismatchedOrders
    unprovenBaseBuyOrders := k.unprovenBaseBuyOrders
    malformedOrders := expected.malformedOrders
    unpricedTrades := t.unpricedTrades
    malformedTrades := t.malformedTrades }

/-- The rates are fetched only if a fee could not be priced without them. -/
def resolveFeesFromTradesWithRates {σ : Type} (trades : List Json) (orders : List FeeOrderEvidence)
    (terms : FeeTerms) (fetchRates : σ → Option QuoteCommissionRates × σ) (s : σ) :
    FeeResolutionDetails × σ :=
  let withoutRates := resolveFeesFromTrades trades orders { terms with rates := none }
  if withoutRates.unpricedTrades = 0 then (withoutRates, s)
  else
    match fetchRates s with
    | (none, s) => (withoutRates, s)
    | (some rates, s) => (resolveFeesFromTrades trades orders { terms with rates := some rates }, s)

/-- What a job has asked for commission rates, and what it made of the answers. -/
structure CommissionRateMemo where
  memo : List (String × Option QuoteCommissionRates)
  calls : List String

/-- `createCommissionRateResolver`: a symbol is asked for once, also where it had no answer. -/
def CommissionRateMemo.fetch (answer : Option Json) (symbol : String) (m : CommissionRateMemo) :
    Option QuoteCommissionRates × CommissionRateMemo :=
  match get symbol m.memo with
  | some rates => (rates, m)
  | none =>
      let rates := answer.bind parseCommissionRates
      (rates, ⟨set symbol rates m.memo, symbol :: m.calls⟩)

end TradingBot.Worker

import TradingBot.Core.Contract

/-!
# Preview and drift gate

A strategy projects the levels it would act on as rows of a preview. The drift
gate replays a tick against that projection: every decision whose reason has
trigger rows must have been taken with the price on the actionable side of one
of them, and a disagreement is an error.
-/

namespace TradingBot

open Decimal

inductive PreviewTone where
  | buy
  | sell
  | stop
  | trail
  | neutral

inductive TriggerWhen where
  | above
  | below

def TriggerWhen.text : TriggerWhen → String
  | above => "above"
  | below => "below"

structure PreviewRow where
  code : String
  label : String
  tone : PreviewTone
  price : Option DecimalString := none
  quantity : Option DecimalString := none
  trigger : Bool := false
  triggerWhen : Option TriggerWhen := none
  note : Option String := none
  chartLine : Bool := false

structure PreviewSection where
  title : String
  rows : List PreviewRow

structure PreviewInput (Config State : Type) where
  config : Config
  state : Option State
  entryPrice : Option DecimalString
  currentPrice : Option String
  candles : Option (List Candle)
  filters : Option SymbolFilters

/-- What the drift gate needs of a strategy. -/
structure PreviewSeams (Config State : Type) where
  candleInterval : Config → CandleInterval
  readAvgEntryPrice : State → Option DecimalString
  previewLevels : PreviewInput Config State → List PreviewSection

/-- The reason the gate keys on; the decisions without one are not checked. -/
def reasonOf : Decision → Option String
  | .placeOrder intent _ => some intent.reason
  | .replaceOrder _ _ intent _ => some intent.reason
  | .cancelOrder _ reason _ => some reason
  | _ => none

def onActionableSide (cur price : Decimal) : TriggerWhen → Bool
  | .above => cur.gte price
  | .below => cur.lte price

/-- A row the gate can hold a decision to: it triggers, at a price, on a side. -/
def PreviewRow.triggerAt (row : PreviewRow) (reason : String) :
    Option (DecimalString × TriggerWhen) :=
  if row.code = reason && row.trigger then
    match row.price, row.triggerWhen with
    | some price, some side => some (price, side)
    | _, _ => none
  else none

def newDecimalString (raw : DecimalString) : Except String Decimal :=
  match raw.toDecimal with
  | some d => .ok d
  | none => .error ("[DecimalError] Invalid argument: " ++ raw.text)

/-- Whether some row has the price on its side; rows after the first that agrees are not read. -/
def anyActionable (cur : Decimal) : List (DecimalString × TriggerWhen) → Except String Bool
  | [] => .ok false
  | (price, side) :: rest => do
      let level ← newDecimalString price
      if onActionableSide cur level side then return true else anyActionable cur rest

section Gate

variable {Config State Bundle : Type}

/-- The preview as the gate asks for it: from the tick's own input. -/
def previewInput (seams : PreviewSeams Config State) (input : TickInput Config State Bundle) :
    PreviewInput Config State where
  config := input.config
  state := some input.state
  entryPrice := seams.readAvgEntryPrice input.state
  currentPrice := some input.market.currentPrice
  candles := input.market.candlesByInterval (seams.candleInterval input.config)
  filters := some input.market.symbolInfo.filters

def previewRows (seams : PreviewSeams Config State) (input : TickInput Config State Bundle) :
    List PreviewRow :=
  (seams.previewLevels (previewInput seams input)).flatMap (·.rows)

/-- Hold one decision to the rows of its reason; a reason without rows is exempt. -/
def checkDecision (rows : List PreviewRow) (currentPrice : String) (decision : Decision) :
    Except String Unit :=
  match reasonOf decision with
  | none => .ok ()
  | some reason =>
      match rows.filterMap (·.triggerAt reason) with
      | [] => .ok ()
      | first :: rest => do
          let cur ← newDecimalString (.raw currentPrice)
          if ← anyActionable cur (first :: rest) then return ()
          else
            .error ("preview disagrees about where '" ++ reason ++ "' acts: currentPrice " ++
              currentPrice ++ " not " ++ first.2.text ++ " " ++ first.1.text)

def assertPreviewTickAgreement (seams : PreviewSeams Config State)
    (input : TickInput Config State Bundle) (output : TickOutput State) : Except String Unit :=
  output.decisions.forM (checkDecision (previewRows seams input) input.market.currentPrice)

end Gate

end TradingBot

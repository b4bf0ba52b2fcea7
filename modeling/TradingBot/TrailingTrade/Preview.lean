import TradingBot.Core.PreviewDrift
import TradingBot.TrailingTrade.PositionAdapter

/-!
# The preview

The levels trailing-trade projects for the operator and for the drift gate: the
grid ladder, the sell side and the daily regime. The stop-loss row of a held
position is the one row the gate holds a tick to.
-/

namespace TradingBot.TrailingTrade

open Decimal

/-! ### The grid ladder -/

/-- The running totals of the projected ladder. -/
structure LadderTotals where
  prevFill : Decimal
  cumQuote : Decimal
  cumBase : Decimal
  rows : List PreviewRow

/-- One rung further down: it fills at its trigger below the rung before. -/
def projectRung (totals : LadderTotals) (i : ℕ) (lvl : GridLevel) : Option LadderTotals := do
  let quoteSpent ← (decOrNull (some (.raw lvl.maxPurchaseAmount))).filter (!·.lte (num 0))
  let fillPrice ←
    if i = 0 then some totals.prevFill
    else
      ((decOrNull (some (.raw lvl.triggerPercentage))).filter (!·.lte (num 0))).map
        totals.prevFill.mul
  let baseQty := quoteSpent.div fillPrice
  some
    { prevFill := fillPrice
      cumQuote := totals.cumQuote.add quoteSpent
      cumBase := totals.cumBase.add baseQty
      rows := totals.rows ++
        [{ code := "grid-buy", label := "Buy #" ++ toString (i + 1), tone := .buy
           price := some (.printed fillPrice), quantity := some (.printed baseQty)
           chartLine := i ≥ 1 }] }

def projectRungs (totals : LadderTotals) (i : ℕ) : List GridLevel → Option LadderTotals
  | [] => some totals
  | lvl :: rest => do
      let totals ← projectRung totals i lvl
      projectRungs totals (i + 1) rest

def projectLadder (config : TTConfig) (entryPrice : Decimal) : List PreviewRow :=
  if config.buy.gridLevels.isEmpty then []
  else
    match projectRungs ⟨entryPrice, num 0, num 0, []⟩ 0 config.buy.gridLevels with
    | none => []
    | some totals =>
        totals.rows ++
          [{ code := "avg-cost", label := "Average cost", tone := .neutral
             price := some (.printed (totals.cumQuote.div totals.cumBase)) }]

/-! ### The sell side -/

def unarmedTrailNote (trailPct : Decimal) (sellArm : Option Decimal) : String :=
  let giveBack := (((num 1).sub trailPct).mul (num 100)).toText
  let armsAt := (sellArm.map toText).getD "the first new high"
  "Not armed yet — arms at " ++ armsAt ++ ", then exits " ++ giveBack ++ "% below the peak"

def sellArmOf (config : TTConfig) (lbp : Decimal) : Option Decimal :=
  ((decOrNull (some (.raw config.sell.triggerPercentage))).filter (·.gt (num 1))).map lbp.mul

def sellArmRow (sellArm : Decimal) : PreviewRow :=
  { code := "technicals-force-sell", label := "Sell arm", tone := .sell
    price := some (.printed sellArm), triggerWhen := some .above, chartLine := true }

/-- The stop-loss row; only a held position is triggered by it. -/
def stopLossRow (stop : Decimal) (held : Bool) : PreviewRow :=
  { code := "grid-stop-loss", label := "Stop-loss", tone := .stop
    price := some (.printed stop), triggerWhen := some .below, chartLine := true
    trigger := held }

/-- The backup order that rests as an exchange trail instead of at the stop's price. -/
def nativeTrailRows (protectiveStop : Option ProtectiveStopConfig) (stop stopPct : Decimal)
    (band : StopBandContext) (trailingFilter : Option TrailingDeltaFilter) (tick : Option Decimal) :
    List PreviewRow :=
  match protectiveStop with
  | none => []
  | some ps =>
      if !ps.enabled || ps.onBandBlock ≠ some .nativeTrail then []
      else
        match decOrNull (some (.raw (ps.limitOffsetPercentage.getD defaultLimitOffset))) with
        | none => []
        | some offset =>
            if !(offset.gt (num 0) && offset.lte (num 1)) then []
            else
              ((nativeTrailPreviewNote stop (stop.mul offset) tick band.reference
                ((num 1).sub stopPct) band.band trailingFilter).map fun note =>
                  { code := "protective-stop", label := "Backup stop at Binance (exchange trail)"
                    tone := .stop, note := some note : PreviewRow }).toList

/-- The trail's row: its level once a high exists, and until then what it waits for. -/
def trailRow (trailPct : Decimal) (positionHigh sellArm : Option Decimal) : PreviewRow :=
  let row : PreviewRow :=
    { code := "grid-sell", label := "Trailing stop", tone := .trail, triggerWhen := some .below }
  match positionHigh with
  | some high => { row with price := some (.printed (high.mul trailPct)), chartLine := true }
  | none => { row with note := some (unarmedTrailNote trailPct sellArm) }

/-- A fraction of the configuration that must lie in `(0, 1]`. -/
def unitFraction (raw : String) : Option Decimal :=
  (decOrNull (some (.raw raw))).filter fun d => d.gt (num 0) && d.lte (num 1)

def projectSells (config : TTConfig) (state : Option TTState) (lbp : Decimal)
    (band : StopBandContext) (trailingFilter : Option TrailingDeltaFilter) (tick : Option Decimal) :
    List PreviewRow :=
  let held := state.any fun s => (decOrNull s.avgEntryPrice).isSome
  let sellArm := sellArmOf config lbp
  let stopRows :=
    match unitFraction config.sell.stopLossPercentage with
    | none => []
    | some stopPct =>
        let level := resolveTTStopLevel lbp stopPct config.sell.protectiveStop band
        stopLossRow level.stop held ::
          nativeTrailRows config.sell.protectiveStop level.stop stopPct band trailingFilter tick
  let trailRows :=
    match unitFraction config.sell.trailingStopPercentage with
    | none => []
    | some trailPct =>
        [trailRow trailPct (state.bind fun s => decOrNull s.highSinceBuy) sellArm]
  (sellArm.map sellArmRow).toList ++ stopRows ++ trailRows

/-! ### The regime -/

/-- Whether the daily trend drives anything in this configuration. -/
def regimeActive (r : TTRegime) : Bool :=
  r.exposure.any (·.enabled) || r.onBear.any (·.exitToCash) || r.onBear.any (·.blockEntry) ||
    r.onBear.any (·.suppressPromotion) || (r.onBear.bind (·.rearm)).any (·.enabled) ||
    (r.onBull.bind (·.hold)).any (·.enabled) || (r.onBull.bind (·.pyramid)).any (·.enabled) ||
    r.onBull.any (·.requireEntry)

/-- The candles of a mixed window that span a day. -/
def dailyWindow (candles : Option (List Candle)) : List Candle :=
  (candles.getD []).filter fun c => c.closeTimeMs - c.openTimeMs = 86400000

def contextInt (context : Detail) (key : String) : ℤ :=
  match context.lookup key with
  | some (.int n) => n
  | _ => 0

def regimeVerdictNote (regime : TTRegime) (reading : Option RegimeReading) : String :=
  let average := toString regime.period ++ "-day " ++ regime.ma.text
  let lastCloses := "last " ++ toString regime.confirmBars ++ " daily closes "
  match reading with
  | none => "Pick a symbol to check the daily regime"
  | some reading =>
      match reading.regime with
      | .bull => "Bull — " ++ lastCloses ++ "above the " ++ average
      | .bear => "Bear — " ++ lastCloses ++ "below the " ++ average
      | .neutral => "Watching — daily closes straddle the " ++ average
      | .unavailable =>
          "Warming up — " ++ toString (contextInt reading.context "have") ++ "/" ++
            toString (contextInt reading.context "need") ++ " daily candles"

def bullHoldRoomText : BullHoldRoom → String
  | .tight => "tight"
  | .normal => "normal"
  | .loose => "loose"

def pyramidRows (pyramid : BullPyramid) (anchor : Decimal) : List PreviewRow :=
  match (decOrNull (some (.raw pyramid.stepPercentage))).filter (·.gt (num 0)) with
  | none => []
  | some step =>
      let prices :=
        (List.range pyramid.maxAdds).map fun i =>
          (List.replicate (i + 1) ((num 1).add step)).foldl Decimal.mul anchor
      prices.zipIdx.map fun (price, i) =>
        { code := "regime-pyramid-add", label := "Add #" ++ toString (i + 1), tone := .buy
          price := some (.printed price)
          note := some ("+" ++ (step.mul (num 100)).toText ++ "% each") }

def projectRegime (config : TTConfig) (dailyCandles : List Candle) (currentPrice : Option String)
    (anchor : Decimal) : List PreviewRow :=
  match config.regime with
  | none => []
  | some regime =>
      if !regimeActive regime || regime.period = 0 || regime.confirmBars = 0 then []
      else
        let reading :=
          if (dailyCandles.filter (·.isClosed)).isEmpty then none
          else some (classifyRegimeFromDaily dailyCandles (currentPrice.getD "") regime.params)
        let verdict : PreviewRow :=
          { code := "regime-verdict", label := "Daily regime", tone := .neutral
            note := some (regimeVerdictNote regime reading) }
        let hold :=
          ((regime.onBull.bind (·.hold)).filter (·.enabled)).map fun hold =>
            let bull := reading.any (·.regime == .bull)
            ({ code := "regime-bull-hold", label := "Bull hold", tone := .neutral
               note := some ((if bull then "Active now — room: " else "Idle — room: ") ++
                 bullHoldRoomText hold.room) } : PreviewRow)
        let pyramid := (regime.onBull.bind (·.pyramid)).filter (·.enabled)
        [verdict] ++ hold.toList ++ pyramid.elim [] (pyramidRows · anchor)

/-! ### The model -/

/-- The sections with anything in them, over the cost basis or a projected entry price. -/
def ttPreviewLevels (input : PreviewInput TTConfig TTState) : List PreviewSection :=
  match decOrNull input.entryPrice with
  | none => []
  | some lbp =>
      if lbp.lte (num 0) then []
      else
        let band : StopBandContext :=
          { reference := input.currentPrice, band := input.filters.bind (·.percentPriceBySide) }
        let sells := projectSells input.config input.state lbp band
          (input.filters.bind (·.trailingDelta))
          (decOrNull (input.filters.map fun f => DecimalString.raw f.tickSize))
        [ ⟨"Grid ladder", projectLadder input.config lbp⟩,
          ⟨"Sell targets", sells⟩,
          ⟨"Regime", projectRegime input.config (dailyWindow input.candles) input.currentPrice lbp⟩
        ].filter fun (s : PreviewSection) => !s.rows.isEmpty

def ttPreviewSeams : PreviewSeams TTConfig TTState where
  candleInterval := (·.candleInterval)
  readAvgEntryPrice := fun state => (readPosition state).bind (·.avgEntryPrice)
  previewLevels := ttPreviewLevels

end TradingBot.TrailingTrade

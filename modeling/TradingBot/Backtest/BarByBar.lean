import TradingBot.Backtest.FillCover

/-!
# Crossing bar by bar

The candle model meets a resting order with the bars of one evaluation. Meeting
it with the bars one at a time, the armed flag passed back, comes to the same
outcome as meeting it with all of them.
-/

namespace TradingBot.Backtest

open Grid

/-- The outcome without the dates of its fills. -/
def FillOutcome.undated : FillOutcome → FillOutcome
  | .filled fills => .filled (fills.map ({ · with tsMs := 0 }))
  | .partialFill fills remainingQty => .partialFill (fills.map ({ · with tsMs := 0 })) remainingQty
  | .rejected reason => .rejected reason
  | .rest armed => .rest armed

/-- The input with the bars of the evaluation. -/
def FillInput.onBars (bars : List Candle) (input : FillInput) : FillInput :=
  { input with market := { input.market with detailCandles := some bars } }

/-- The input as a bar within the candle brings it. -/
def FillInput.onBar (bar : Candle) (armed : Bool) (input : FillInput) : FillInput :=
  { input with market := ⟨bar.close, bar, some [bar]⟩, nowMs := bar.closeTimeMs, armed }

/-- The bars an order is evaluated against. -/
def MarketContext.bars (ctx : MarketContext) : List Candle :=
  match ctx.detailCandles with
  | some (bar :: rest) => bar :: rest
  | _ => [ctx.lastCandle]

theorem MarketContext.bars_ne_nil (ctx : MarketContext) : ctx.bars ≠ [] := by
  unfold MarketContext.bars
  split
  · exact List.cons_ne_nil _ _
  · exact List.cons_ne_nil _ _

/-- A price on the first bar, or else the price on the others with the flag the first left. -/
def FillPrice.orOn (first : FillPrice) (later : Bool → Option FillPrice) (armed : Bool) :
    Option FillPrice :=
  match first with
  | .uncrossed => later armed
  | .armed => later true
  | .priced fill => some (.priced fill)

namespace OhlcvFillModelOptions

variable {opts : OhlcvFillModelOptions} {side : OrderSide} {params : OrderParams}
  {bar : Candle} {rest bars : List Candle} {tick limit stop feeBps : ℚ} {armed : Bool}
  {input : FillInput}

/-- The outcome of the bars one at a time, up to the first on which the order does not rest. -/
def fillBarByBar (opts : OhlcvFillModelOptions) (input : FillInput) (armed : Bool) :
    List Candle → Option FillOutcome
  | [] => some (.rest armed)
  | [bar] => opts.fill (input.onBar bar armed)
  | bar :: rest => do
      match ← opts.fill (input.onBar bar armed) with
      | .rest nowArmed => fillBarByBar opts input (armed || nowArmed) rest
      | outcome => return outcome

/-! ### Prices -/

theorem limitFill_cons :
    opts.limitFill side limit feeBps (bar :: rest) =
      (opts.limitFill side limit feeBps [bar]).or (opts.limitFill side limit feeBps rest) := by
  cases hcross : crossesLimit side limit bar with
  | true => simp [limitFill, firstCrossBar, hcross]
  | false => simp [limitFill, firstCrossBar, hcross]

theorem limit_orOn {other : FillPrice} {later : Bool → Option FillPrice}
    (hlater : FillPrice.orOn other later armed =
      some ((opts.limitFill side limit feeBps rest).elim other .priced)) :
    some ((opts.limitFill side limit feeBps (bar :: rest)).elim other .priced) =
      FillPrice.orOn ((opts.limitFill side limit feeBps [bar]).elim other .priced) later armed := by
  rw [limitFill_cons]
  cases opts.limitFill side limit feeBps [bar] with
  | none => exact hlater.symm
  | some priced => rfl

/-- The price of a stop-limit whose stop and limit are rounded. -/
def stopLimitPrice (opts : OhlcvFillModelOptions) (side : OrderSide) (stop limit : ℚ)
    (bars : List Candle) (armed : Bool) : FillPrice :=
  if stop ≤ 0 ∨ limit ≤ 0 then .uncrossed
  else if armed then (opts.limitFill side limit opts.takerBps bars).elim .armed .priced
  else
    match firstStopBar side stop bars with
    | none => .uncrossed
    | some armBar =>
        let trigger := stopTrigger side stop armBar
        if isMarketable side trigger limit then
          .priced ⟨opts.triggerPrice side trigger limit, opts.takerBps, armBar⟩
        else
          (opts.limitFill side limit opts.takerBps
            (bars.dropWhile fun bar => !reachesStop side stop bar)).elim .armed .priced

theorem resolveFillPrice_stopLimit (htype : params.type = .stopLossLimit) (bars : List Candle)
    (armed : Bool) :
    opts.resolveFillPrice side params bars tick armed =
      (roundToTick ((params.stopPrice.or params.price).getD 0) tick).bind fun stop =>
        (roundToTick ((params.price.or params.stopPrice).getD 0) tick).bind fun limit =>
          some (opts.stopLimitPrice side stop limit bars armed) := by
  unfold resolveFillPrice
  rw [htype]
  dsimp only
  refine congrArg _ (funext fun stop => congrArg _ (funext fun limit => ?_))
  unfold stopLimitPrice
  split
  · rfl
  split
  · rfl
  cases firstStopBar side stop bars with
  | none => rfl
  | some armBar =>
      dsimp only
      split
      · rfl
      · rfl

theorem stopLimitPrice_cons :
    some (opts.stopLimitPrice side stop limit (bar :: rest) armed) =
      (opts.stopLimitPrice side stop limit [bar] armed).orOn
        (fun armed => some (opts.stopLimitPrice side stop limit rest armed)) armed := by
  by_cases hpos : stop ≤ 0 ∨ limit ≤ 0
  · simp [stopLimitPrice, hpos, FillPrice.orOn]
  -- once armed, the order is its limit alone
  have hwaits := @limit_orOn opts side bar rest limit opts.takerBps armed .armed
    (fun armed => some (opts.stopLimitPrice side stop limit rest armed))
    (by simp [stopLimitPrice, hpos, FillPrice.orOn])
  cases armed with
  | true => simpa [stopLimitPrice, hpos] using hwaits
  | false =>
      cases hreach : reachesStop side stop bar with
      | false => simp [stopLimitPrice, hpos, firstStopBar, hreach, FillPrice.orOn]
      | true =>
          cases hmarketable : isMarketable side (stopTrigger side stop bar) limit with
          | true => simp [stopLimitPrice, hpos, firstStopBar, hreach, hmarketable, FillPrice.orOn]
          | false => simpa [stopLimitPrice, hpos, firstStopBar, hreach, hmarketable] using hwaits

theorem resolveFillPrice_cons (htype : params.type ≠ .stopLoss) (hopen : 0 < bar.openPrice) :
    opts.resolveFillPrice side params (bar :: rest) tick armed =
      (opts.resolveFillPrice side params [bar] tick armed).bind fun first =>
        first.orOn (opts.resolveFillPrice side params rest tick) armed := by
  cases hkind : params.type with
  | market => simp [resolveFillPrice, hkind, not_le.mpr hopen, FillPrice.orOn]
  | stopLoss => exact absurd hkind htype
  | stopLossLimit =>
      have hrest :=
        funext fun armed => @resolveFillPrice_stopLimit opts side params tick hkind rest armed
      rw [hrest, resolveFillPrice_stopLimit hkind, resolveFillPrice_stopLimit hkind]
      cases roundToTick ((params.stopPrice.or params.price).getD 0) tick with
      | none => rfl
      | some stop =>
          cases roundToTick ((params.price.or params.stopPrice).getD 0) tick with
          | none => rfl
          | some limit => exact stopLimitPrice_cons
  | limit =>
      cases hlimit : roundToTick (params.price.getD 0) tick with
      | none => simp [resolveFillPrice, hkind, hlimit]
      | some limit =>
          by_cases hpos : limit ≤ 0
          · simp [resolveFillPrice, hkind, hlimit, hpos, FillPrice.orOn]
          · have hwaits := @limit_orOn opts side bar rest limit opts.makerBps armed .uncrossed
              (opts.resolveFillPrice side params rest tick)
              (by simp [resolveFillPrice, hkind, hlimit, hpos, FillPrice.orOn])
            simpa [resolveFillPrice, hkind, hlimit, hpos] using hwaits

/-! ### Outcomes -/

variable {requestedQty step : ℚ} {priced : Priced} {market : MarketContext} {nowMs : ℤ}
  {first : FillPrice}

/-- Sizing an order reads neither the market nor the clock, but for the date of the fill. -/
theorem settle_undated :
    (opts.settle { input with market, nowMs, armed } requestedQty step priced).map
        FillOutcome.undated =
      (opts.settle input requestedQty step priced).map FillOutcome.undated := by
  unfold settle
  dsimp only
  split
  · rfl
  cases affordableQty input.intent.side requestedQty priced.price priced.feeBps input.account
    input.symbolInfo step with
  | none => rfl
  | some affordable =>
  simp only [bind, Option.bind_some]
  split
  · rfl
  cases opts.volumeCapped affordable priced.bar step with
  | none => rfl
  | some fillable =>
  simp only [Option.bind_some]
  split
  · rfl
  split
  · rfl
  split
  · rfl
  split
  · rfl
  · rfl

/-- What a price comes to. -/
def outcomeOf (opts : OhlcvFillModelOptions) (input : FillInput) (requestedQty : ℚ) :
    FillPrice → Option FillOutcome
  | .uncrossed => some (.rest false)
  | .armed => some (.rest true)
  | .priced fill => opts.settle input requestedQty input.symbolInfo.filters.stepSize fill

theorem fill_resting (htype : input.params.type ≠ .stopLoss) (hphase : input.phase = .resting)
    (hbars : input.market.detailCandles = some (bar :: rest)) :
    opts.fill input =
      (roundToStep input.params.quantity input.symbolInfo.filters.stepSize).bind fun requestedQty =>
        if requestedQty ≤ 0 then some (.rejected .stepSize)
        else (opts.resolveFillPrice input.intent.side input.params (bar :: rest)
          input.symbolInfo.filters.tickSize input.armed).bind
            (opts.outcomeOf input requestedQty) := by
  unfold fill
  rw [if_neg htype, hphase, hbars]
  rfl

theorem outcomeOf_undated :
    (opts.outcomeOf { input with market, nowMs, armed } requestedQty first).map
        FillOutcome.undated =
      (opts.outcomeOf input requestedQty first).map FillOutcome.undated := by
  cases first with
  | uncrossed => rfl
  | armed => rfl
  | priced fill => exact settle_undated

/-- Sizing an order never leaves it resting. -/
theorem settle_ne_rest (hsettle : opts.settle input requestedQty step priced = some (.rest armed)) :
    False := by
  unfold settle at hsettle
  dsimp only at hsettle
  split at hsettle
  · cases hsettle
  obtain ⟨affordable, -, hsettle⟩ := Option.bind_eq_some_iff.mp hsettle
  split at hsettle
  · cases hsettle
  obtain ⟨fillable, -, hsettle⟩ := Option.bind_eq_some_iff.mp hsettle
  split at hsettle
  · cases hsettle
  split at hsettle
  · cases hsettle
  split at hsettle
  · cases hsettle
  split at hsettle
  · cases hsettle
  · cases hsettle

theorem settle_partialFill {remainingQty : ℚ} {fills : List Fill}
    (h : opts.settle input requestedQty step priced = some (.partialFill fills remainingQty)) :
    ∃ fill, fills = [fill] ∧ 0 < fill.qty ∧ fill.qty < requestedQty ∧
      remainingQty = requestedQty - fill.qty := by
  unfold settle at h
  dsimp only at h
  split at h
  · cases h
  obtain ⟨affordable, -, h⟩ := Option.bind_eq_some_iff.mp h
  split at h
  · cases h
  obtain ⟨fillable, -, h⟩ := Option.bind_eq_some_iff.mp h
  split at h
  · cases h
  next hpositive =>
  split at h
  · cases h
  split at h
  · cases h
  split at h
  · next hless =>
      cases h
      exact ⟨_, rfl, not_le.mp hpositive, hless, rfl⟩
  · cases h

/-- An evaluation rests the order, rounds it to nothing, or prices it and sizes it. -/
theorem fill_cases {outcome : FillOutcome} (h : opts.fill input = some outcome) :
    (∃ armed, outcome = .rest armed) ∨
      (outcome = .rejected .stepSize ∧ ∃ requestedQty,
        roundToStep input.params.quantity input.symbolInfo.filters.stepSize = some requestedQty ∧
        requestedQty ≤ 0) ∨
      ∃ requestedQty priced,
        roundToStep input.params.quantity input.symbolInfo.filters.stepSize = some requestedQty ∧
        0 < requestedQty ∧
        opts.resolveFillPrice input.intent.side input.params input.market.bars
          input.symbolInfo.filters.tickSize input.armed = some (.priced priced) ∧
        opts.settle input requestedQty input.symbolInfo.filters.stepSize priced = some outcome := by
  unfold fill at h
  split at h
  · cases h
  split at h
  · cases h
    exact .inl ⟨false, rfl⟩
  obtain ⟨requestedQty, hround, h⟩ := Option.bind_eq_some_iff.mp h
  split at h
  · next hempty =>
      cases h
      exact .inr (.inl ⟨rfl, requestedQty, hround, hempty⟩)
  next hpositive =>
  obtain ⟨price, hprice, h⟩ := Option.bind_eq_some_iff.mp h
  cases price with
  | uncrossed =>
      cases h
      exact .inl ⟨false, rfl⟩
  | armed =>
      cases h
      exact .inl ⟨true, rfl⟩
  | priced priced =>
      exact .inr (.inr ⟨requestedQty, priced, hround, not_le.mp hpositive, hprice, h⟩)

/-- What an order priced on some bars comes to, undated. -/
def comesTo (opts : OhlcvFillModelOptions) (input : FillInput) (price : Option FillPrice) :
    Option FillOutcome :=
  (roundToStep input.params.quantity input.symbolInfo.filters.stepSize).bind fun requestedQty =>
    if requestedQty ≤ 0 then some (.rejected .stepSize)
    else (price.bind (opts.outcomeOf input requestedQty)).map FillOutcome.undated

theorem fill_comesTo (htype : input.params.type ≠ .stopLoss) (hphase : input.phase = .resting)
    (hbars : market.detailCandles = some (bar :: rest)) :
    (opts.fill { input with market, nowMs, armed }).map FillOutcome.undated =
      opts.comesTo input (opts.resolveFillPrice input.intent.side input.params (bar :: rest)
        input.symbolInfo.filters.tickSize armed) := by
  have hfill := @fill_resting opts bar rest { input with market, nowMs, armed } htype hphase hbars
  rw [hfill, comesTo]
  cases roundToStep input.params.quantity input.symbolInfo.filters.stepSize with
  | none => rfl
  | some requestedQty =>
  rw [Option.bind_some, Option.bind_some]
  split
  · rfl
  cases opts.resolveFillPrice input.intent.side input.params (bar :: rest)
    input.symbolInfo.filters.tickSize armed with
  | none => rfl
  | some first => exact outcomeOf_undated

/-- The outcome on a first bar, or else the one on the others with the flag the first left. -/
def orOn (first : Option FillOutcome) (later : Bool → Option FillOutcome) (armed : Bool) :
    Option FillOutcome :=
  first.bind fun
    | .rest nowArmed => later (armed || nowArmed)
    | outcome => some outcome

theorem orOn_undated {first : Option FillOutcome} {later : Bool → Option FillOutcome} :
    (orOn first later armed).map FillOutcome.undated =
      orOn (first.map FillOutcome.undated) (fun armed => (later armed).map FillOutcome.undated)
        armed := by
  cases first with
  | none => rfl
  | some outcome =>
      cases outcome with
      | rest nowArmed => rfl
      | rejected reason => rfl
      | filled fills => rfl
      | partialFill fills remainingQty => rfl

theorem comesTo_orOn {first : Option FillPrice} {later : Bool → Option FillPrice} :
    opts.comesTo input (first.bind fun first => first.orOn later armed) =
      orOn (opts.comesTo input first) (fun armed => opts.comesTo input (later armed)) armed := by
  cases hround : roundToStep input.params.quantity input.symbolInfo.filters.stepSize with
  | none => simp [comesTo, hround, orOn]
  | some requestedQty =>
  by_cases hpositive : requestedQty ≤ 0
  · simp [comesTo, hround, hpositive, orOn]
  cases first with
  | none => simp [comesTo, hround, hpositive, orOn]
  | some first =>
  cases first with
  | uncrossed =>
      simp [comesTo, hround, hpositive, orOn, FillPrice.orOn, outcomeOf, FillOutcome.undated]
  | armed =>
      simp [comesTo, hround, hpositive, orOn, FillPrice.orOn, outcomeOf, FillOutcome.undated]
  | priced fill =>
      cases hsettle : opts.settle input requestedQty input.symbolInfo.filters.stepSize fill with
      | none => simp [comesTo, hround, hpositive, orOn, FillPrice.orOn, outcomeOf, hsettle]
      | some outcome =>
          cases outcome with
          | rest armed => exact (settle_ne_rest hsettle).elim
          | rejected reason =>
              simp [comesTo, hround, hpositive, orOn, FillPrice.orOn, outcomeOf, hsettle,
                FillOutcome.undated]
          | filled fills =>
              simp [comesTo, hround, hpositive, orOn, FillPrice.orOn, outcomeOf, hsettle,
                FillOutcome.undated]
          | partialFill fills remainingQty =>
              simp [comesTo, hround, hpositive, orOn, FillPrice.orOn, outcomeOf, hsettle,
                FillOutcome.undated]

/-- The outcome on a list of bars is the one on its first, or else the one on the others. -/
theorem fill_cons {next : Candle} (htype : input.params.type ≠ .stopLoss)
    (hphase : input.phase = .resting) (hopen : 0 < bar.openPrice) :
    (opts.fill { input.onBars (bar :: next :: rest) with armed }).map FillOutcome.undated =
      orOn ((opts.fill (input.onBar bar armed)).map FillOutcome.undated)
        (fun armed =>
          (opts.fill { input.onBars (next :: rest) with armed }).map FillOutcome.undated)
        armed := by
  have hlist := @fill_comesTo opts bar (next :: rest) armed input
    (input.onBars (bar :: next :: rest)).market input.nowMs htype hphase rfl
  have hlater := fun armed => @fill_comesTo opts next rest armed input
    (input.onBars (next :: rest)).market input.nowMs htype hphase rfl
  have hbar := @fill_comesTo opts bar [] armed input ⟨bar.close, bar, some [bar]⟩ bar.closeTimeMs
    htype hphase rfl
  calc (opts.fill { input.onBars (bar :: next :: rest) with armed }).map FillOutcome.undated
      = opts.comesTo input (opts.resolveFillPrice input.intent.side input.params
          (bar :: next :: rest) input.symbolInfo.filters.tickSize armed) := hlist
    _ = orOn (opts.comesTo input (opts.resolveFillPrice input.intent.side input.params [bar]
          input.symbolInfo.filters.tickSize armed))
        (fun armed => opts.comesTo input (opts.resolveFillPrice input.intent.side input.params
          (next :: rest) input.symbolInfo.filters.tickSize armed)) armed := by
      rw [resolveFillPrice_cons htype hopen, comesTo_orOn]
    _ = _ := by
      rw [← hbar, ← funext hlater]
      rfl

theorem fillBarByBar_cons {next : Candle} :
    opts.fillBarByBar input armed (bar :: next :: rest) =
      orOn (opts.fill (input.onBar bar armed))
        (fun armed => opts.fillBarByBar input armed (next :: rest)) armed := by
  rw [fillBarByBar, orOn]
  refine congrArg _ (funext fun outcome => ?_)
  cases outcome with
  | rest nowArmed => rfl
  | rejected reason => rfl
  | filled fills => rfl
  | partialFill fills remainingQty => rfl
  -- the list goes on
  exact List.cons_ne_nil next rest

theorem fillBarByBar_resting (htype : input.params.type ≠ .stopLoss)
    (hphase : input.phase = .resting) (hopen : ∀ other ∈ bar :: rest, 0 < other.openPrice) :
    (opts.fillBarByBar input armed (bar :: rest)).map FillOutcome.undated =
      (opts.fill { input.onBars (bar :: rest) with armed }).map FillOutcome.undated := by
  induction rest generalizing bar armed with
  | nil =>
      have hbar := @fill_comesTo opts bar [] armed input ⟨bar.close, bar, some [bar]⟩
        bar.closeTimeMs htype hphase rfl
      have hlist := @fill_comesTo opts bar [] armed input (input.onBars [bar]).market input.nowMs
        htype hphase rfl
      exact hbar.trans hlist.symm
  | cons next rest ih =>
      obtain ⟨hfirst, hothers⟩ := List.forall_mem_cons.mp hopen
      rw [fillBarByBar_cons, orOn_undated, fill_cons htype hphase hfirst]
      exact congrArg (orOn _ · armed) (funext fun armed => ih hothers)

theorem fillBarByBar_place (htype : input.params.type ≠ .stopLoss) (hphase : input.phase = .place) :
    opts.fillBarByBar input armed (bar :: rest) = some (.rest false) := by
  have hplace : ∀ armed bar, opts.fill (input.onBar bar armed) = some (.rest false) := by
    intro armed bar
    simp [fill, FillInput.onBar, htype, hphase]
  induction rest generalizing bar armed with
  | nil => exact hplace armed bar
  | cons next rest ih =>
      rw [fillBarByBar_cons, hplace, orOn, Option.bind_some]
      exact ih

theorem fillBarByBar_eq (hbars : bars ≠ []) (hopen : ∀ bar ∈ bars, 0 < bar.openPrice) :
    (opts.fillBarByBar input armed bars).map FillOutcome.undated =
      (opts.fill { input.onBars bars with armed }).map FillOutcome.undated := by
  obtain ⟨bar, rest, rfl⟩ := List.exists_cons_of_ne_nil hbars
  by_cases htype : input.params.type = .stopLoss
  · have hbar : ∀ armed, opts.fill (input.onBar bar armed) = none := fun _ => if_pos htype
    have hlist : opts.fill { input.onBars (bar :: rest) with armed } = none := if_pos htype
    rw [hlist]
    cases rest with
    | nil => rw [fillBarByBar, hbar]
    | cons next rest => rw [fillBarByBar_cons, hbar, orOn, Option.bind_none]
  · cases hphase : input.phase with
    | place =>
        rw [fillBarByBar_place htype hphase]
        simp [fill, FillInput.onBars, htype, hphase]
    | resting => exact fillBarByBar_resting htype hphase hopen

end OhlcvFillModelOptions

end TradingBot.Backtest

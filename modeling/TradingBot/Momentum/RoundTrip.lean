import TradingBot.Momentum.PositionAdapter
import TradingBot.Momentum.ProfitMark
import TradingBot.Momentum.RequiredWindow
import TradingBot.Momentum.RiskCap
import TradingBot.TrailingTrade.StopLoss

/-!
# The tick after an entry

An entry is judged by its trigger and undone by the exit rules, which do not
know of each other. On the tick after the entry, over the same candles at the
same price, the marks are all at the entry, the profit leg is not armed, the
Friday close lies above the price and no hour has passed. What can still sell is
an average that crossed down on the very candle that was bought, and an exit
level that rests on a range of zero.
-/

namespace TradingBot.Momentum

open Decimal Grid
open TradingBot.TrailingTrade (AdoptedFill lte_clampStopToExchangeFloor)

def buys (d : Decision) : Bool := d.order.any fun (intent, _) => intent.side == .buy

/-- A decision that closes the position, as against one that rests a stop under it. -/
def exits (d : Decision) : Bool :=
  d.order.any fun (intent, _) => intent.side == .sell && intent.reason == "exit"

/-! ### What a tick that buys did -/

section Entry

variable {input : MomentumInput} {state : MomentumState} {out : MomentumOutput}

theorem decisions_keepPosition {config : MomentumConfig} {entryPrice : DecimalString}
    {r : HeldReading} (h : keepPosition input state config entryPrice r = some out) :
    ∀ d ∈ out.decisions, buys d = false ∧ exits d = false := by
  obtain ⟨arm, harm, h⟩ := Option.bind_eq_some_iff.mp h
  obtain ⟨nativeHigh, -, h⟩ := Option.bind_eq_some_iff.mp h
  obtain ⟨restingHigh, -, harm⟩ := Option.bind_eq_some_iff.mp harm
  cases harm
  cases h
  intro d hd
  dsimp only at hd
  split at hd
  · obtain rfl := List.mem_singleton.mp hd
    exact ⟨rfl, rfl⟩
  · refine decisions_of_builders (P := fun d => buys d = false ∧ exits d = false) ?_ ?_ ?_ ?_ d hd
    · intro desired rearm
      exact ⟨rfl, rfl⟩
    · intro trail htrail desired rearm
      obtain ⟨distance, -, rfl⟩ := Option.map_eq_some_iff.mp htrail
      exact ⟨rfl, rfl⟩
    · intro resting place hplace
      show buys (replaceDecision resting place) = false ∧
        exits (replaceDecision resting place) = false
      unfold replaceDecision
      split
      · exact hplace
      · exact hplace
    · intro resting
      exact ⟨rfl, rfl⟩

theorem decisions_exitPosition {lastCandle : Candle} {reason : String} :
    ∀ d ∈ (exitPosition input state lastCandle reason).decisions, buys d = false := by
  intro d hd
  unfold exitPosition at hd
  split at hd
  · obtain rfl := List.mem_singleton.mp hd
    rfl
  · split at hd
    · obtain rfl := List.mem_singleton.mp hd
      rfl
    · dsimp only at hd
      unfold closingSellDecisions at hd
      split at hd
      · obtain rfl := List.mem_singleton.mp hd
        rfl
      · obtain rfl := List.mem_singleton.mp hd
        rfl

/-- The way a tick came to buy: flat, with both averages read, a signal, and a size. -/
structure Bought (input : MomentumInput) (out : MomentumOutput) (quantity : DecimalString)
    (lastCandle : Candle) (x : Crossing) (layer : Option EntryLayer) : Prop where
  last : input.closedCandles.getLast? = some lastCandle
  need : input.config.need ≤ input.closedCandles.length
  averages : crossing input.config input.closedCandles = some x
  sized : sizeEntry (configForEntryLayer input.config layer) input.account
    input.market.symbolInfo.quoteAsset input.market.currentPrice input.market.symbolInfo.filters
    input.closedCandles = some (.ok quantity)
  signal : layer = none →
    entrySignal input.config x input.closedCandles lastCandle input.market.currentPrice = some true
  next : out.nextState = enteredState input quantity lastCandle.closeTimeMs layer
  layered : layer = none ∨ layer = some .belowTrend
  published : ∃ publish, relativeStrengthPublish input.closedCandles input.config.relativeStrength
    input.market.symbol input.profileKv = some publish

theorem entered_of_placeEntry {candles : List Candle} {lastCandle : Candle}
    {layer : Option EntryLayer} {d : Decision} {intent : OrderIntent} {params : OrderParams}
    (h : placeEntry input state candles lastCandle layer = some out) (hd : d ∈ out.decisions)
    (horder : d.order = some (intent, params)) :
    sizeEntry (configForEntryLayer input.config layer) input.account
        input.market.symbolInfo.quoteAsset input.market.currentPrice
        input.market.symbolInfo.filters candles = some (.ok params.quantity) ∧
      out.nextState = enteredState input params.quantity lastCandle.closeTimeMs layer := by
  obtain ⟨sized, hsized, h⟩ := Option.bind_eq_some_iff.mp h
  cases sized with
  | error reason =>
      cases h
      obtain rfl := List.mem_singleton.mp hd
      cases horder
  | ok quantity =>
      cases h
      obtain rfl := List.mem_singleton.mp hd
      cases horder
      exact ⟨hsized, rfl⟩

theorem bought_of_buys {d : Decision} {intent : OrderIntent} {params : OrderParams}
    (h : computeTick input = some out) (hd : d ∈ out.decisions)
    (horder : d.order = some (intent, params)) (hside : intent.side = .buy) :
    ∃ lastCandle x layer, Bought input out params.quantity lastCandle x layer := by
  have hbuys : buys d = true := by simp [buys, horder, hside]
  obtain ⟨decided, hdecided, h⟩ := Option.bind_eq_some_iff.mp h
  obtain ⟨publish, hpublish, h⟩ := Option.bind_eq_some_iff.mp h
  cases h
  dsimp only at hd
  unfold decideTick at hdecided
  dsimp only at hdecided
  split at hdecided
  · cases hdecided
    obtain rfl := List.mem_singleton.mp hd
    cases horder
  · next lastCandle hlast =>
      split at hdecided
      · cases hdecided
        obtain rfl := List.mem_singleton.mp hd
        cases horder
      · next hneed =>
          obtain ⟨x, hx, hdecided⟩ := Option.bind_eq_some_iff.mp hdecided
          split at hdecided
          · unfold evaluateEntry at hdecided
            split at hdecided
            · cases hdecided
              obtain rfl := List.mem_singleton.mp hd
              cases horder
            · obtain ⟨entry, hentry, hdecided⟩ := Option.bind_eq_some_iff.mp hdecided
              obtain ⟨gate, -, hdecided⟩ := Option.bind_eq_some_iff.mp hdecided
              obtain ⟨below, -, hdecided⟩ := Option.bind_eq_some_iff.mp hdecided
              dsimp only at hdecided
              split at hdecided
              · next hsignal =>
                  obtain ⟨veto, -, hdecided⟩ := Option.bind_eq_some_iff.mp hdecided
                  cases veto with
                  | some reason =>
                      cases hdecided
                      obtain rfl := List.mem_singleton.mp hd
                      cases horder
                  | none =>
                      obtain ⟨hsized, hnext⟩ := entered_of_placeEntry hdecided hd horder
                      refine ⟨lastCandle, x, signalledLayer entry below gate, hlast,
                        not_lt.mp hneed, hx, hsized, ?_, hnext, ?_, publish, hpublish⟩
                      · intro hlayer
                        rw [hentry]
                        unfold signalledLayer at hlayer
                        cases entry with
                        | true => rfl
                        | false => simp_all
                      · unfold signalledLayer
                        split
                        · exact .inr rfl
                        · exact .inl rfl
              · cases hdecided
                obtain rfl := List.mem_singleton.mp hd
                cases horder
          · obtain ⟨r, -, hdecided⟩ := Option.bind_eq_some_iff.mp hdecided
            split at hdecided
            · cases hdecided
              rw [decisions_exitPosition d hd] at hbuys
              cases hbuys
            · rw [(decisions_keepPosition hdecided d hd).1] at hbuys
              cases hbuys

end Entry

/-! ### What the next tick reads -/

section Averages

variable {w : CandleWindow} {period : ℕ} {d : Decimal}

theorem parse_of_closes {cs : List Decimal} (h : closes w = some cs) :
    ∀ c ∈ w, ∃ v, parse c.close = some v := by
  induction w generalizing cs with
  | nil => simp
  | cons candle rest ih =>
      rw [closes, List.mapM_cons] at h
      obtain ⟨v, hv, h⟩ := Option.bind_eq_some_iff.mp h
      obtain ⟨vs, hvs, -⟩ := Option.bind_eq_some_iff.mp h
      intro c hc
      rcases List.mem_cons.mp hc with rfl | hc
      · exact ⟨v, hv⟩
      · exact ih hvs c hc

/-- An average that has a value read the close of every candle. -/
theorem parse_of_ema (h : ema w period = some d) : ∀ c ∈ w, ∃ v, parse c.close = some v := by
  obtain ⟨_, hperiod, h⟩ := Option.bind_eq_some_iff.mp h
  obtain ⟨seed, hseed, h⟩ := Option.bind_eq_some_iff.mp h
  obtain ⟨cs, hcs, -⟩ := Option.bind_eq_some_iff.mp h
  obtain ⟨_, -, hseed⟩ := Option.bind_eq_some_iff.mp hseed
  obtain ⟨seeds, hseeds, -⟩ := Option.bind_eq_some_iff.mp hseed
  have hlength : period ≤ w.length := by
    unfold requirePeriod at hperiod
    split at hperiod
    · cases hperiod
    · omega
  have htake : lastCandles (w.take period) period = w.take period := by
    unfold lastCandles
    rw [List.length_take, min_eq_left hlength, Nat.sub_self, List.drop_zero]
  rw [htake] at hseeds
  intro c hc
  rw [← List.take_append_drop period w] at hc
  rcases List.mem_append.mp hc with hc | hc
  · exact parse_of_closes hseeds c hc
  · exact parse_of_closes hcs c hc

theorem parse_of_crossing {config : MomentumConfig} {x : Crossing}
    (h : crossing config w = some x) : ∀ c ∈ w, ∃ v, parse c.close = some v := by
  obtain ⟨fastNow, hfastNow, -⟩ := Option.bind_eq_some_iff.mp h
  exact parse_of_ema hfastNow

end Averages

theorem le_profitTrailEpoch {minutes : List Candle} {epoch : ℤ}
    (h : profitTrailEpoch minutes = some epoch) :
    ∀ c ∈ minutes, c.isClosed = true → c.openTimeMs + minuteMs ≤ epoch := by
  have hgrows : ∀ (minutes : List Candle) (newest : Option ℤ),
      minutes.foldl epochStep newest = some epoch →
        (∀ e, newest = some e → e ≤ epoch) ∧
          ∀ c ∈ minutes, c.isClosed = true → c.openTimeMs + minuteMs ≤ epoch := by
    intro minutes
    induction minutes with
    | nil =>
        rintro newest rfl
        exact ⟨fun e he => (Option.some.inj he).ge, by simp⟩
    | cons candle rest ih =>
        intro newest hfold
        obtain ⟨hstep, hrest⟩ := ih (epochStep newest candle) hfold
        unfold epochStep at hstep
        dsimp only at hstep
        refine ⟨?_, ?_⟩
        · rintro e rfl
          split at hstep
          · next hnewer =>
              simp only [Option.all_some, Bool.and_eq_true, decide_eq_true_eq] at hnewer
              exact hnewer.2.le.trans (hstep _ rfl)
          · exact hstep e rfl
        · intro c hc hclosed
          rcases List.mem_cons.mp hc with rfl | hc
          · split at hstep
            · exact hstep _ rfl
            · next holder =>
                simp only [hclosed, Bool.true_and] at holder
                cases newest with
                | none => simp at holder
                | some e =>
                    simp only [Option.all_some, decide_eq_true_eq, not_lt] at holder
                    exact holder.trans (hstep e rfl)
          · exact hrest c hc hclosed
  exact (hgrows minutes none h).2

/-- A position with no mark and no epoch starts its mark at its own price. -/
theorem advanceProfitMark_fresh {config : MomentumConfig} {entry : ℚ} (minutes : List Candle) :
    ∃ mark, advanceProfitMark config (num entry) ⟨none, none⟩ minutes = some mark ∧
      (mark.high = none ∨ mark.high = some (num entry)) := by
  unfold advanceProfitMark
  dsimp only
  rw [Option.none_or]
  unfold ratchetProfitHigh
  cases config.profitLeg with
  | none => exact ⟨_, rfl, .inl rfl⟩
  | some cfg =>
      dsimp only
      rw [Option.getD_none, max_num, max_self]
      cases hepoch : profitTrailEpoch minutes with
      | none => exact ⟨_, rfl, .inr rfl⟩
      | some epoch =>
          have hquiet : ∀ c ∈ minutes,
              ratchets (ratchetMinutes cfg.ratchetMinutes) epoch c = false := by
            intro c hc
            cases hclosed : c.isClosed with
            | false => simp [ratchets, hclosed]
            | true =>
                have hle := le_profitTrailEpoch hepoch c hc hclosed
                have hbefore : c.openTimeMs < epoch := by
                  have : minuteMs = 60000 := rfl
                  omega
                simp [ratchets, hbefore]
          have hfold : minutes.foldlM (ratchetStep (ratchetMinutes cfg.ratchetMinutes) epoch)
              (num entry) = some (num entry) := by
            clear hepoch
            induction minutes with
            | nil => rfl
            | cons candle rest ih =>
                rw [List.foldlM_cons]
                have hstep : ratchetStep (ratchetMinutes cfg.ratchetMinutes) epoch (num entry)
                    candle = some (num entry) :=
                  if_neg (by rw [hquiet candle List.mem_cons_self]; exact Bool.false_ne_true)
                rw [hstep]
                exact ih fun c hc => hquiet c (List.mem_cons_of_mem _ hc)
          dsimp only
          rw [hfold]
          exact ⟨_, rfl, .inr rfl⟩

/-! ### The exit level at the entry -/

section Level

variable {config : MomentumConfig} {candles : List Candle} {layer : Option EntryLayer} {p : ℚ}

/-- The period of the volatility-scaled stop, where it is on. -/
def MomentumConfig.atrPeriod (config : MomentumConfig) : Option ℕ :=
  config.atrStop.map fun cfg => atrStopPeriod cfg.period

/-- The volatility-scaled stop reads a range of zero. -/
def ZeroRange (config : MomentumConfig) (candles : List Candle) : Prop :=
  ∃ period range, config.atrPeriod = some period ∧ period + 1 ≤ candles.length ∧
    atr candles period = some range ∧ range.lte (num 0) = true

/-- The averages cross down on the last closed candle. -/
def CrossesDown (config : MomentumConfig) (candles : List Candle) : Prop :=
  ∃ x, crossing config candles = some x ∧ x.crossDown = true

/-- The multiples the schema admits: positive decimals, none of them infinite. -/
structure ValidMultiples (config : MomentumConfig) : Prop where
  main : ∀ block text, config.atrTrailingStop = some block → block.multiple = some text →
    ∃ m : ℚ, parse text = some (num m) ∧ 0 < m
  below : ∀ block text, config.belowTrendBreakout = some block → block.atrMultiple = some text →
    ∃ m : ℚ, parse text = some (num m) ∧ 0 < m

theorem coerceDec_parse {text : String} {m fallback : ℚ} (h : parse text = some (num m))
    (hm : 0 < m) : coerceDec (some text) fallback = num m := by
  unfold coerceDec
  rw [Option.bind_some, h]
  exact if_pos (by simpa using hm)

theorem atrStopMultiple_finite (raw : Option String)
    (h : ∀ text, raw = some text → ∃ m : ℚ, parse text = some (num m) ∧ 0 < m) :
    ∃ m : ℚ, atrStopMultiple raw = num m ∧ 0 < m := by
  cases raw with
  | none => exact ⟨3, rfl, by norm_num⟩
  | some text =>
      obtain ⟨m, hparse, hm⟩ := h text rfl
      exact ⟨m, coerceDec_parse hparse hm, hm⟩

theorem ValidMultiples.finite (h : ValidMultiples config) {cfg : MomentumAtrTrailingStop}
    (hcfg : (configForEntryLayer config layer).atrStop = some cfg) :
    ∃ m : ℚ, atrStopMultiple cfg.multiple = num m ∧ 0 < m := by
  obtain ⟨hblock, -⟩ := Option.filter_eq_some_iff.mp hcfg
  unfold configForEntryLayer at hblock
  split at hblock
  · next block hmain =>
      cases hblock
      dsimp only
      refine atrStopMultiple_finite _ ?_
      intro text htext
      have hread : (config.belowTrendBreakout.bind (·.atrMultiple)).getD "2" = text :=
        Option.some.inj htext
      cases hbelow : config.belowTrendBreakout.bind (·.atrMultiple) with
      | none =>
          rw [hbelow] at hread
          exact ⟨2, hread ▸ (by decide +kernel : parse "2" = some (num 2)), by norm_num⟩
      | some multiple =>
          rw [hbelow] at hread
          obtain ⟨block', hblock', hmultiple⟩ := Option.bind_eq_some_iff.mp hbelow
          obtain rfl : multiple = text := hread
          exact h.below block' multiple hblock' hmultiple
  · exact atrStopMultiple_finite _ fun text htext => h.main cfg text hblock htext

theorem atrPeriod_configForEntryLayer (config : MomentumConfig) (layer : Option EntryLayer) :
    (configForEntryLayer config layer).atrPeriod = config.atrPeriod := by
  unfold configForEntryLayer
  split
  · next block hblock =>
      unfold MomentumConfig.atrPeriod MomentumConfig.atrStop
      rw [hblock]
      dsimp only
      rw [Option.filter_some, Option.filter_some]
      split
      · rfl
      · rfl
  · rfl

theorem fixedStop_under (hp : 0 < p) :
    (fixedStop config (num p)).any (num p).lte = false := by
  unfold fixedStop
  cases hfraction : unitFraction (decOrNull (config.trailingStopPct.map .raw)) with
  | none => rfl
  | some d =>
      obtain ⟨δ, rfl, -, hpos, -⟩ := unitFraction_eq_some hfraction
      have hunder : p * (1 - δ) < p := by nlinarith [mul_pos hp hpos]
      simp [hunder]

/-- The hard leg meets the entry price exactly where its range is zero. -/
theorem hardLeg_met (hp : 0 < p) {chandelier : Option Decimal}
    (hfinite : ∀ cfg, config.atrStop = some cfg →
      ∃ m : ℚ, atrStopMultiple cfg.multiple = num m ∧ 0 < m)
    (h : atrTrailingStopPrice config candles (num p) = some chandelier) :
    (chandelier.or (fixedStop config (num p))).any (num p).lte = true ↔
      ZeroRange config candles := by
  have hfixed : (fixedStop config (num p)).any (num p).lte = false := fixedStop_under hp
  unfold atrTrailingStopPrice at h
  cases hatr : config.atrStop with
  | none =>
      rw [hatr] at h
      cases h
      rw [Option.none_or, hfixed]
      refine iff_of_false Bool.false_ne_true ?_
      rintro ⟨period, range, hperiod, -⟩
      unfold MomentumConfig.atrPeriod at hperiod
      rw [hatr] at hperiod
      cases hperiod
  | some cfg =>
      have hperiod : config.atrPeriod = some (atrStopPeriod cfg.period) := by
        unfold MomentumConfig.atrPeriod
        rw [hatr]
        rfl
      rw [hatr] at h
      dsimp only at h
      split at h
      · next hshort =>
          cases h
          rw [Option.none_or, hfixed]
          refine iff_of_false Bool.false_ne_true ?_
          rintro ⟨period, range, hperiod', hlength, -⟩
          cases hperiod.symm.trans hperiod'
          omega
      · next hlong =>
          obtain ⟨m, hm, hmpos⟩ := hfinite cfg hatr
          obtain ⟨range, hrange, h⟩ := Option.bind_eq_some_iff.mp h
          have hzero : ZeroRange config candles ↔ range.lte (num 0) = true := by
            refine ⟨?_, fun hle => ⟨_, range, hperiod, not_lt.mp hlong, hrange, hle⟩⟩
            rintro ⟨period, range', hperiod', -, hrange', hle⟩
            cases hperiod.symm.trans hperiod'
            cases hrange.symm.trans hrange'
            exact hle
          have hchandelier := Option.some.inj h
          rw [hzero, ← hchandelier, hm]
          cases range with
          | nan => simp [sub, neg, add, gt, hfixed]
          | inf s =>
              cases s with
              | false =>
                  simp [mul, hmpos.ne', negative, not_lt.mpr hmpos.le, sub, neg, add, gt, lt, lte,
                    hfixed]
              | true =>
                  simp [mul, hmpos.ne', negative, not_lt.mpr hmpos.le, sub, neg, add, gt, lt, lte]
          | num a =>
              simp only [mul_num, sub_num, gt_num, lte_num, decide_eq_true_eq]
              by_cases hle : a ≤ 0
              · have hraised : p ≤ p - m * a := by nlinarith
                have hpositive : 0 < p - m * a := hp.trans_le hraised
                simp [hpositive, hraised, hle]
              · have hlowered : p - m * a < p := by nlinarith [not_le.mp hle]
                by_cases hpositive : 0 < p - m * a
                · simp [hpositive, not_le.mpr hlowered, hle]
                · simp only [hpositive, if_false, Option.none_or, hfixed, hle, Bool.false_eq_true]

theorem floored_met {currentPrice : String} {price : Decimal}
    (hprice : parse currentPrice = some price)
    (band : Option PercentPriceBySideFilter) (stop : Option Decimal) :
    (floored config ⟨some currentPrice, band⟩ stop).1.any price.lte = stop.any price.lte := by
  unfold floored
  split
  · rfl
  · dsimp only
    split
    · rw [Option.any_some, Option.any_some]
      exact lte_clampStopToExchangeFloor hprice _ band _
    · rfl

theorem atrTrailingStopPrice_reads (hp : 0 < p) {distance : Option Decimal}
    (h : initialStopDistanceFraction config candles (num p) = some distance) :
    ∃ chandelier, atrTrailingStopPrice config candles (num p) = some chandelier := by
  unfold initialStopDistanceFraction at h
  rw [if_neg (by simp [hp])] at h
  unfold atrTrailingStopPrice
  cases hatr : config.atrStop with
  | none => exact ⟨none, rfl⟩
  | some cfg =>
      rw [hatr] at h
      dsimp only at h ⊢
      split at h
      · next hshort => exact ⟨none, if_pos hshort⟩
      · next hlong =>
          obtain ⟨range, hrange, -⟩ := Option.bind_eq_some_iff.mp h
          rw [if_neg hlong, hrange]
          exact ⟨_, rfl⟩

theorem initialDistance_of_sizeEntry {account : AccountSnapshot} {quoteAsset price : String}
    {filters : SymbolFilters} {quantity : DecimalString} (hprice : parse price = some (num p))
    (hp : 0 < p)
    (h : sizeEntry config account quoteAsset price filters candles = some (.ok quantity)) :
    ∃ distance, initialStopDistanceFraction config candles (num p) = some distance := by
  obtain ⟨budget, -, h⟩ := Option.bind_eq_some_iff.mp h
  cases budget with
  | error skip => cases h
  | ok budget =>
      obtain ⟨floor, hfloor, -⟩ := Option.bind_eq_some_iff.mp h
      unfold entryStopFloor at hfloor
      rw [decOrNull_raw hprice, Option.filter_some, if_pos (by simpa using hp)] at hfloor
      obtain ⟨distance, hdistance, -⟩ := Option.bind_eq_some_iff.mp hfloor
      exact ⟨distance, hdistance⟩

theorem resolveStopLevel_met (hp : 0 < p) {chandelier : Option Decimal}
    {profitHigh : Option Decimal}
    (hfinite : ∀ cfg, config.atrStop = some cfg →
      ∃ m : ℚ, atrStopMultiple cfg.multiple = num m ∧ 0 < m)
    (h : atrTrailingStopPrice config candles (num p) = some chandelier)
    (hhigh : profitHigh = none ∨ profitHigh = some (num p)) {currentPrice : String}
    (hprice : parse currentPrice = some (num p)) (band : Option PercentPriceBySideFilter) :
    ∃ level, resolveStopLevel config (num p) (num p) profitHigh candles ⟨some currentPrice, band⟩
        none = some level ∧
      (level.stop.any (num p).lte = true ↔ ZeroRange config candles) := by
  have hwider : ∀ hard : Option Decimal, widerLeg hard none = hard := by
    intro hard
    cases hard <;> rfl
  have hpinned : ∀ stop : Option Decimal, pinned config none stop = stop := by
    intro stop
    cases stop <;> rfl
  let stop := floored config ⟨some currentPrice, band⟩ (chandelier.or (fixedStop config (num p)))
  refine ⟨⟨num p, profitHigh, stop.1, stop.2⟩, ?_, ?_⟩
  · unfold resolveStopLevel
    rw [h, profitStop_at_entry hp hhigh]
    simp only [Option.bind_eq_bind, Option.bind_some, hwider, hpinned]
    rfl
  · exact (congrArg (· = true) (floored_met hprice band _)).to_iff.trans (hardLeg_met hp hfinite h)

end Level

/-! ### The next tick -/

/-- A tick of the same market over the body an entry's fill was adopted into, with nothing resting
and no request pending; the wallet is whatever the buy left. -/
def afterEntry (input : MomentumInput) (adopted : MomentumState) (account : AccountSnapshot)
    (nowMs : ℤ) : MomentumInput :=
  { input with nowMs, state := adopted, account, openOrders := [], bundle := ⟨none⟩ }

def HourlyClock (input : MomentumInput) : Prop :=
  input.config.candleInterval = .h1 →
    ∀ c ∈ input.closedCandles, c.closeTimeMs = c.openTimeMs + hourMs - 1

section Next

variable {input : MomentumInput} {out : MomentumOutput} {quantity avg : DecimalString}
  {lastCandle : Candle} {x : Crossing} {layer : Option EntryLayer} {p : ℚ}

theorem not_gte_of_lt {ref : Decimal} (h : (num p).lt ref = true) : (num p).gte ref = false := by
  cases ref with
  | nan => simp at h
  | inf s => cases s <;> simp_all [lt, gte, lte]
  | num q =>
      rw [lt_num, decide_eq_true_eq] at h
      simpa using h

/-- The Friday close an entry was bought under is above the price on the next tick too. -/
theorem gapTarget_after (hb : Bought input out quantity lastCandle x layer)
    (hclock : HourlyClock input) (hprice : parse input.market.currentPrice = some (num p))
    {stampMs : ℤ} (hstamp : gapStamp (configForEntryLayer input.config layer)
      (adoptedBuy out.nextState avg quantity) = some stampMs) :
    stampMs = lastCandle.closeTimeMs ∧ ∃ target,
      weekendGapTarget input.closedCandles stampMs = some target ∧
        target.any (num p).gte = false := by
  obtain ⟨stop, hconfig⟩ := configForEntryLayer_eq input.config layer
  have hfields : input.config.candleInterval = .h1 ∧
      stampedLayer input.config layer = some .weekendGap ∧ lastCandle.closeTimeMs = stampMs := by
    unfold gapStamp at hstamp
    rw [hconfig, hb.next] at hstamp
    split at hstamp
    · next hlegs => exact ⟨hlegs.1, hlegs.2, Option.some.inj hstamp⟩
    · cases hstamp
  obtain ⟨hinterval, hlayer, rfl⟩ := hfields
  refine ⟨rfl, ?_⟩
  have htrigger : layer = none ∧ input.config.entryTrigger = some .weekendGap := by
    rcases hb.layered with rfl | rfl
    · unfold stampedLayer at hlayer
      rw [Option.none_or] at hlayer
      split at hlayer
      · next htrigger => exact ⟨rfl, htrigger⟩
      · cases hlayer
    · cases hlayer
  obtain ⟨rfl, htrigger⟩ := htrigger
  have hsignal := hb.signal rfl
  unfold entrySignal at hsignal
  rw [htrigger] at hsignal
  obtain ⟨reading, hreading, hsignal⟩ := Option.bind_eq_some_iff.mp hsignal
  split at hsignal
  · cases hsignal
  · next refText hrefText =>
      obtain ⟨price, hprice', hsignal⟩ := Option.bind_eq_some_iff.mp hsignal
      obtain rfl := Option.some.inj (hprice.symm.trans hprice')
      obtain ⟨ref, href, hsignal⟩ := Option.bind_eq_some_iff.mp hsignal
      have hunder := Option.some.inj hsignal
      obtain ⟨reading', hfilter, hrefClose⟩ := Option.bind_eq_some_iff.mp hrefText
      obtain ⟨rfl, hfired⟩ := Option.filter_eq_some_iff.mp hfilter
      unfold weekendGapReading at hreading
      split at hreading
      · cases hreading
      · split at hreading
        · cases hreading
          cases hfired
        · next last hlast =>
            obtain ⟨hlast, -⟩ := Option.filter_eq_some_iff.mp hlast
            obtain rfl := Option.some.inj (hb.last.symm.trans hlast)
            split at hreading
            · cases hreading
              cases hfired
            · next friday hfriday =>
                obtain ⟨refClose, hparse, hreading⟩ := Option.bind_eq_some_iff.mp hreading
                obtain ⟨close, -, hreading⟩ := Option.bind_eq_some_iff.mp hreading
                cases hreading
                cases hrefClose
                obtain rfl := Option.some.inj (hparse.symm.trans href)
                have hclosing := hclock hinterval _ (List.mem_of_getLast? hb.last)
                have hopen : lastCandle.closeTimeMs + 1 - hourMs - fridayLeadMs =
                    lastCandle.openTimeMs - fridayLeadMs := by omega
                refine ⟨some refClose, ?_, not_gte_of_lt hunder⟩
                unfold weekendGapTarget
                rw [hopen, hfriday]
                dsimp only
                rw [hparse]
                rfl

/-- What the tick after an entry reads: only a zero range can have its price at the exit level. -/
theorem readHeld_after (hb : Bought input out quantity lastCandle x layer)
    (hclock : HourlyClock input) (hmultiples : ValidMultiples input.config)
    (hprice : parse input.market.currentPrice = some (num p)) (hp : 0 < p)
    (havg : avg.toDecimal = some (num p)) (account : AccountSnapshot) (nowMs : ℤ) :
    ∃ r, readHeld (afterEntry input (adoptedBuy out.nextState avg quantity) account nowMs)
        (adoptedBuy out.nextState avg quantity) (configForEntryLayer input.config layer) avg
        input.closedCandles lastCandle = some r ∧
      (r.trailHit = true ↔ ZeroRange input.config input.closedCandles) ∧
      r.gapFilled = false ∧ r.timeStop = false := by
  obtain ⟨closed, hclosed⟩ := parse_of_crossing hb.averages _ (List.mem_of_getLast? hb.last)
  obtain ⟨mark, hmark, hhigh⟩ := @advanceProfitMark_fresh
    (configForEntryLayer input.config layer) p input.oneMinuteCandles
  obtain ⟨distance, hdistance⟩ := initialDistance_of_sizeEntry hprice hp hb.sized
  obtain ⟨chandelier, hchandelier⟩ := atrTrailingStopPrice_reads hp hdistance
  obtain ⟨level, hlevel, hmet⟩ := resolveStopLevel_met hp
    (fun cfg hcfg => hmultiples.finite hcfg) hchandelier hhigh hprice
    input.market.symbolInfo.filters.percentPriceBySide
  have hperiod : ZeroRange (configForEntryLayer input.config layer) input.closedCandles ↔
      ZeroRange input.config input.closedCandles := by
    unfold ZeroRange
    rw [atrPeriod_configForEntryLayer]
  have hstamp : (adoptedBuy out.nextState avg quantity).lastEntryCandleMs =
      some lastCandle.closeTimeMs := by
    rw [hb.next]
    rfl
  have hlate : closedAfterEntry (adoptedBuy out.nextState avg quantity) lastCandle = false := by
    unfold closedAfterEntry
    rw [hstamp]
    simp
  have hold : 1 ≤
      (weekendGapSettings (configForEntryLayer input.config layer).weekendGap).maxHoldBars :=
    le_coerceInt _ (by decide)
  have hhigh' : (adoptedBuy out.nextState avg quantity).highSinceEntry = none := rfl
  have hmark' : (adoptedBuy out.nextState avg quantity).profitHigh = none ∧
      (adoptedBuy out.nextState avg quantity).profitTrailSinceMs = none := ⟨rfl, rfl⟩
  have hprev : previousStop (restingProtectiveStop
      (afterEntry input (adoptedBuy out.nextState avg quantity) account nowMs)) = none := rfl
  have hmarket : (afterEntry input (adoptedBuy out.nextState avg quantity) account nowMs).market =
      input.market := rfl
  have hminutes : (afterEntry input (adoptedBuy out.nextState avg quantity) account
      nowMs).oneMinuteCandles = input.oneMinuteCandles := rfl
  have hnone : decOrNull none = none := rfl
  unfold readHeld
  simp only [hlate, hhigh', hmark'.1, hmark'.2, hprev, hmarket, hminutes, hnone, Option.getD_none,
    Bool.false_and, Bool.false_eq_true, if_false, havg, hclosed, hmark, hlevel, hprice,
    Option.bind_eq_bind, Option.bind_some]
  cases hgap : gapStamp (configForEntryLayer input.config layer)
      (adoptedBuy out.nextState avg quantity) with
  | none =>
      refine ⟨_, rfl, ?_, rfl, rfl⟩
      exact hmet.trans hperiod
  | some stampMs =>
      obtain ⟨rfl, target, htarget, hfilled⟩ := gapTarget_after hb hclock hprice hgap
      dsimp only
      rw [htarget]
      refine ⟨_, rfl, hmet.trans hperiod, hfilled, ?_⟩
      have hpositive : (0 : ℤ) < hourMs := by decide
      have hlimit : (1 : ℤ) ≤
          (weekendGapSettings (configForEntryLayer input.config layer).weekendGap).maxHoldBars := by
        exact_mod_cast hold
      simp only [Option.any_some, sub_self, decide_eq_false_iff_not, not_le]
      exact mul_pos (by omega) hpositive

/-- A quantity the exchange's size check let through passes it again. -/
theorem finalise_resold {filters : SymbolFilters} {parsed : SizeFilters} {amount price : Decimal}
    (hparsed : parseFilters filters = some parsed)
    (h : finalise (roundToStep amount parsed.step) price parsed = .ok quantity) :
    ∃ held, quantity.toDecimal = some held ∧
      finalise (roundToStep held parsed.step) price parsed = .ok quantity := by
  cases amount with
  | num a =>
      obtain ⟨step, hstep, hparsedStep, rfl, -⟩ := toDecimal_of_finalise hparsed h
      refine ⟨num (floorTo step a), rfl, ?_⟩
      have hgrid : floorTo step (floorTo step a) = floorTo step a :=
        le_antisymm (floorTo_le hstep _) ((onGrid_floorTo step a).le_floorTo hstep le_rfl)
      rw [hparsedStep, roundToStep_num hstep] at h ⊢
      rw [hgrid]
      exact h
  | nan =>
      obtain ⟨-, -, hnotional, -⟩ := finalise_eq_ok h
      simp [roundToStep, roundDown, div, floor, mul, meetsMinNotional, gte] at hnotional
  | inf s =>
      obtain ⟨-, -, hnotional, rfl⟩ := finalise_eq_ok h
      have hpositive := parsed.step_pos
      have hinf : roundToStep (inf s) parsed.step = inf s := by
        cases hstep : parsed.step with
        | nan =>
            rw [hstep] at hnotional
            simp [roundToStep, roundDown, div, floor, mul, meetsMinNotional, gte] at hnotional
        | inf t =>
            rw [hstep] at hnotional
            simp [roundToStep, roundDown, div, floor, mul, meetsMinNotional, gte] at hnotional
        | num u =>
            rw [hstep] at hpositive
            have hu : 0 < u := by simpa using hpositive
            simp [roundToStep, roundDown, div, floor, mul, negative, hu.ne', not_lt.mpr hu.le]
      have hprinted : toFixedStep (inf s) parsed.step = .printed (inf s) := by
        unfold toFixedStep toDecimalPlaces
        cases parsed.step.decimalPlaces <;> rfl
      rw [hinf] at h ⊢
      exact ⟨inf s, by rw [hprinted]; rfl, by rw [hinf]; exact h⟩

/-- What an entry bought can be sold at the same price. -/
theorem computeExitQuantity_of_sizeEntry {config : MomentumConfig} {account : AccountSnapshot}
    {quoteAsset price : String} {filters : SymbolFilters} {candles : List Candle}
    (h : sizeEntry config account quoteAsset price filters candles = some (.ok quantity)) :
    computeExitQuantity quantity price filters = .ok quantity := by
  obtain ⟨budget, -, h⟩ := Option.bind_eq_some_iff.mp h
  cases budget with
  | error skip => cases h
  | ok budget =>
      obtain ⟨stop, -, h⟩ := Option.bind_eq_some_iff.mp h
      have hsized : computeEntryQuantity budget price filters stop = .ok quantity := by
        cases hquantity : computeEntryQuantity budget price filters stop with
        | error skip =>
            rw [hquantity] at h
            cases h
        | ok sized =>
            rw [hquantity] at h
            cases h
            rfl
      obtain ⟨parsed, p, amount, hparsed, hprice, -, hpositive, hfinal⟩ :=
        computeEntryQuantity_eq_ok hsized
      obtain ⟨held, hheld, hresold⟩ := finalise_resold hparsed hfinal
      unfold computeExitQuantity
      simp only [hparsed, hprice, hheld, hpositive, hresold, Bool.false_eq_true, if_false]

theorem keepPosition_bare {input : MomentumInput} (hbare : input.openOrders = [])
    (state : MomentumState) (config : MomentumConfig) (entryPrice : DecimalString)
    (r : HeldReading) : ∃ out, keepPosition input state config entryPrice r = some out := by
  have hresting : ∀ config, restingProtectiveStop { input with config } = none := by
    intro config
    unfold restingProtectiveStop
    dsimp only
    rw [hbare]
    rfl
  unfold keepPosition armProtectiveStop
  simp only [hresting input.config, hresting config, nativeTrailHigh, Option.bind_eq_bind,
    Option.bind_some]
  exact ⟨_, rfl⟩

theorem computeTick_afterEntry (hb : Bought input out quantity lastCandle x layer)
    (account : AccountSnapshot) (nowMs : ℤ) {decided : MomentumOutput}
    (h : evaluateExit (afterEntry input (adoptedBuy out.nextState avg quantity) account nowMs)
      (adoptedBuy out.nextState avg quantity) avg x.crossDown input.closedCandles lastCandle =
        some decided) :
    ∃ next, computeTick (afterEntry input (adoptedBuy out.nextState avg quantity) account nowMs) =
      some next ∧ next.decisions = decided.decisions := by
  have hlast : (afterEntry input (adoptedBuy out.nextState avg quantity) account
      nowMs).closedCandles.getLast? = some lastCandle := hb.last
  have haverages : crossing (afterEntry input (adoptedBuy out.nextState avg quantity) account
      nowMs).config (afterEntry input (adoptedBuy out.nextState avg quantity) account
      nowMs).closedCandles = some x := hb.averages
  have hdecided : decideTick (afterEntry input (adoptedBuy out.nextState avg quantity) account
      nowMs) = some decided := by
    unfold decideTick
    simp only [hlast]
    refine (if_neg (not_lt.mpr hb.need)).trans ?_
    rw [haverages]
    exact h
  obtain ⟨publish, hpublish⟩ := hb.published
  refine ⟨{ decided with publish }, ?_, rfl⟩
  unfold computeTick
  rw [hdecided]
  exact congrArg (Option.bind · fun publish => some { decided with publish }) hpublish

theorem exits_exitPosition (hb : Bought input out quantity lastCandle x layer)
    (account : AccountSnapshot) (nowMs : ℤ) (reason : String) :
    ∃ d ∈ (exitPosition (afterEntry input (adoptedBuy out.nextState avg quantity) account nowMs)
      (adoptedBuy out.nextState avg quantity) lastCandle reason).decisions, exits d = true := by
  have hsell : computeExitQuantity quantity input.market.currentPrice
      input.market.symbolInfo.filters = .ok quantity := computeExitQuantity_of_sizeEntry hb.sized
  unfold exitPosition
  have hheld : (adoptedBuy out.nextState avg quantity).heldQuantity = some quantity := rfl
  rw [hheld]
  dsimp only
  have hmarket : (afterEntry input (adoptedBuy out.nextState avg quantity) account nowMs).market =
      input.market := rfl
  rw [hmarket, hsell]
  exact ⟨_, List.mem_singleton_self _, rfl⟩

/-- The tick after an entry sells where a rule asks for it, and only the cross and the level can. -/
theorem exits_afterEntry (hb : Bought input out quantity lastCandle x layer)
    (hclock : HourlyClock input) (hmultiples : ValidMultiples input.config)
    (hprice : parse input.market.currentPrice = some (num p)) (hp : 0 < p)
    (havg : avg.toDecimal = some (num p)) (account : AccountSnapshot) (nowMs : ℤ) :
    ∃ next, computeTick (afterEntry input (adoptedBuy out.nextState avg quantity) account nowMs) =
        some next ∧
      ((∀ d ∈ next.decisions, exits d = false) ↔
        ¬CrossesDown input.config input.closedCandles ∧
          ¬ZeroRange input.config input.closedCandles) := by
  obtain ⟨r, hread, hhit, hfilled, htime⟩ :=
    readHeld_after hb hclock hmultiples hprice hp havg account nowMs
  have hcross : CrossesDown input.config input.closedCandles ↔ x.crossDown = true := by
    refine ⟨?_, fun hdown => ⟨x, hb.averages, hdown⟩⟩
    rintro ⟨x', hx', hdown⟩
    cases hb.averages.symm.trans hx'
    exact hdown
  have hlayer : (adoptedBuy out.nextState avg quantity).entryLayer =
      stampedLayer input.config layer := by
    rw [hb.next]
    rfl
  have hexit : evaluateExit (afterEntry input (adoptedBuy out.nextState avg quantity) account nowMs)
      (adoptedBuy out.nextState avg quantity) avg x.crossDown input.closedCandles lastCandle =
        (exitReason false x.crossDown r).elim
          (keepPosition (afterEntry input (adoptedBuy out.nextState avg quantity) account nowMs)
            (adoptedBuy out.nextState avg quantity) (configForEntryLayer input.config layer) avg r)
          fun reason => some (exitPosition
            (afterEntry input (adoptedBuy out.nextState avg quantity) account nowMs)
            (adoptedBuy out.nextState avg quantity) lastCandle reason) := by
    unfold evaluateExit
    have hconfig : configForEntryLayer (afterEntry input (adoptedBuy out.nextState avg quantity)
        account nowMs).config (adoptedBuy out.nextState avg quantity).entryLayer =
          configForEntryLayer input.config layer := by
      rw [hlayer]
      exact configForEntryLayer_stamped
    rw [hconfig]
    dsimp only
    rw [hread]
    dsimp only [Option.bind_eq_bind, Option.bind_some]
    have hforce :
        (afterEntry input (adoptedBuy out.nextState avg quantity) account nowMs).forceSell =
        false := rfl
    rw [hforce]
    cases exitReason false x.crossDown r with
    | none => rfl
    | some reason => rfl
  cases hreason : exitReason false x.crossDown r with
  | some reason =>
      rw [hreason] at hexit
      obtain ⟨next, hnext, hdecisions⟩ := computeTick_afterEntry hb account nowMs hexit
      refine ⟨next, hnext, iff_of_false ?_ ?_⟩
      · intro hquiet
        rw [hdecisions] at hquiet
        obtain ⟨d, hd, hsells⟩ := @exits_exitPosition _ _ _ avg _ _ _ hb account nowMs reason
        rw [hquiet d hd] at hsells
        cases hsells
      · rintro ⟨hup, hrange⟩
        rw [hcross, Bool.not_eq_true] at hup
        rw [← hhit, Bool.not_eq_true] at hrange
        simp [exitReason, hup, hrange, hfilled, htime] at hreason
  | none =>
      rw [hreason] at hexit
      have hbare : (afterEntry input (adoptedBuy out.nextState avg quantity) account
          nowMs).openOrders = [] := rfl
      obtain ⟨kept, hkept⟩ := keepPosition_bare hbare (adoptedBuy out.nextState avg quantity)
        (configForEntryLayer input.config layer) avg r
      obtain ⟨next, hnext, hdecisions⟩ :=
        computeTick_afterEntry hb account nowMs (hexit.trans hkept)
      refine ⟨next, hnext, iff_of_true ?_ ?_⟩
      · rw [hdecisions]
        exact fun d hd => (decisions_keepPosition hkept d hd).2
      · rw [hcross, ← hhit, Bool.not_eq_true, Bool.not_eq_true]
        unfold exitReason at hreason
        cases hmet : r.trailHit with
        | true => simp [hmet] at hreason
        | false =>
            cases hdown : x.crossDown with
            | true => simp [hmet, hdown] at hreason
            | false => exact ⟨rfl, rfl⟩

end Next

/-- A Sunday evening two percent under the Friday close, after a flat week: the price that fires the
weekend-gap rule takes the fast average under the slow one. -/
def sundayInput : MomentumInput :=
  { weekendInput with
    account := thousandQuote
    market :=
      { weekendInput.market with
        currentPrice := "98"
        candlesByInterval := fun _ => some (weekendFeed 151) } }

/-- A rising hour under short averages. -/
def risingInput : MomentumInput :=
  { weekendInput with
    config :=
      { defaultMomentumConfig with
        ema := ⟨2, 3⟩
        entryTrigger := some .trend
        entryExtension := none }
    account := thousandQuote
    market :=
      { weekendInput.market with
        currentPrice := "101"
        candlesByInterval := fun _ => some
          [{ hourlyBar 0 with close := "99" }, { hourlyBar 1 with close := "99.5" },
            { hourlyBar 2 with close := "100" }, { hourlyBar 3 with close := "100.5" },
            { hourlyBar 4 with close := "101" }] } }

end TradingBot.Momentum

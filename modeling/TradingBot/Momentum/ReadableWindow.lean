import TradingBot.Incremental
import TradingBot.Momentum.Gates

/-!
# Windows every field of which reads

An indicator over candles whose fields all read has a value once the window is
long enough for it; nothing else can fail. What follows from this for each entry
trigger is that a reading is missing for want of candles, or not at all.
-/

namespace TradingBot.Momentum

open Decimal

/-- A closed candle with positive prices and volume. -/
structure PositiveCandle (candle : Candle) : Prop where
  openPrice : ∃ q : ℚ, 0 < q ∧ parse candle.openPrice = some (num q)
  high : ∃ q : ℚ, 0 < q ∧ parse candle.high = some (num q)
  low : ∃ q : ℚ, 0 < q ∧ parse candle.low = some (num q)
  close : ∃ q : ℚ, 0 < q ∧ parse candle.close = some (num q)
  volume : ∃ q : ℚ, 0 < q ∧ parse candle.volume = some (num q)

theorem priced_of_positive {w : CandleWindow} (hw : ∀ c ∈ w, PositiveCandle c) :
    ∀ c ∈ w, Priced c := by
  intro c hc
  obtain ⟨q, -, hq⟩ := (hw c hc).close
  exact ⟨q, hq⟩

theorem mapM_reads {α β : Type} {f : α → Option β} {l : List α} (h : ∀ x ∈ l, ∃ y, f x = some y) :
    ∃ ys, l.mapM f = some ys ∧ ys.length = l.length := by
  induction l with
  | nil => exact ⟨[], rfl, rfl⟩
  | cons x rest ih =>
      obtain ⟨y, hy⟩ := h x List.mem_cons_self
      obtain ⟨ys, hys, hlength⟩ := ih fun z hz => h z (List.mem_cons_of_mem _ hz)
      refine ⟨y :: ys, ?_, by simp [hlength]⟩
      rw [List.mapM_cons, hy, hys]
      rfl

section Window

variable {w : CandleWindow} {period n : ℕ}

theorem mem_of_mem_lastCandles {c : Candle} (hc : c ∈ lastCandles w n) : c ∈ w :=
  List.mem_of_mem_drop hc

theorem length_lastCandles (h : n ≤ w.length) : (lastCandles w n).length = n := by
  rw [lastCandles, List.length_drop]
  omega

theorem mem_of_mem_priorCandles {c : Candle} (hc : c ∈ priorCandles w) : c ∈ w :=
  List.mem_of_mem_dropLast hc

@[simp] theorem length_priorCandles : (priorCandles w).length = w.length - 1 := List.length_dropLast

theorem requirePeriod_of_le (hpos : 0 < period) (h : period ≤ w.length) :
    requirePeriod w period = some () :=
  if_neg (by omega)

theorem exists_getLast? (h : 0 < w.length) : ∃ last ∈ w, w.getLast? = some last := by
  have hne : w ≠ [] := List.length_pos_iff.mp h
  exact ⟨w.getLast hne, List.getLast_mem hne, List.getLast?_eq_some_getLast hne⟩

/-! ### Averages and oscillators -/

theorem closes_reads (hw : ∀ c ∈ w, Priced c) :
    ∃ cs, closes w = some cs ∧ cs.length = w.length :=
  mapM_reads fun c hc => by
    obtain ⟨q, hq⟩ := hw c hc
    exact ⟨_, hq⟩

theorem sma_reads (hw : ∀ c ∈ w, Priced c) (hpos : 0 < period) (h : period ≤ w.length) :
    ∃ d, sma w period = some d := by
  obtain ⟨cs, hcs, -⟩ := closes_reads (w := lastCandles w period) fun c hc =>
    hw c (mem_of_mem_lastCandles hc)
  unfold sma
  rw [requirePeriod_of_le hpos h, hcs]
  exact ⟨_, rfl⟩

theorem ema_reads (hw : ∀ c ∈ w, Priced c) (hpos : 0 < period) (h : period ≤ w.length) :
    ∃ d, ema w period = some d := by
  have htake : ∀ c ∈ w.take period, Priced c := fun c hc => hw c (List.mem_of_mem_take hc)
  obtain ⟨seed, hseed⟩ := sma_reads htake hpos (by rw [List.length_take]; omega)
  obtain ⟨cs, hcs, -⟩ :=
    closes_reads (w := w.drop period) fun c hc => hw c (List.mem_of_mem_drop hc)
  unfold ema
  rw [requirePeriod_of_le hpos h, hseed, hcs]
  exact ⟨_, rfl⟩

theorem rsi_reads (hw : ∀ c ∈ w, Priced c) (h : period + 1 ≤ w.length) :
    ∃ d, rsi w period = some d := by
  obtain ⟨cs, hcs, -⟩ := closes_reads hw
  unfold rsi closeDeltas
  rw [requirePeriod_of_le (Nat.succ_pos _) h, hcs]
  exact ⟨_, rfl⟩

theorem trueRanges_reads (hw : ∀ c ∈ w, PositiveCandle c) :
    ∃ ranges, trueRanges w = some ranges := by
  induction w with
  | nil => exact ⟨[], rfl⟩
  | cons prev rest ih =>
      cases rest with
      | nil => exact ⟨[], rfl⟩
      | cons cur rest =>
          obtain ⟨ranges, hranges⟩ := ih fun c hc => hw c (List.mem_cons_of_mem _ hc)
          obtain ⟨high, -, hhigh⟩ := (hw cur (by simp)).high
          obtain ⟨low, -, hlow⟩ := (hw cur (by simp)).low
          obtain ⟨close, -, hclose⟩ := (hw prev (by simp)).close
          unfold trueRanges
          rw [hhigh, hlow, hclose, hranges]
          exact ⟨_, rfl⟩

theorem atr_reads (hw : ∀ c ∈ w, PositiveCandle c) (h : period + 1 ≤ w.length) :
    ∃ d, atr w period = some d := by
  obtain ⟨ranges, hranges⟩ := trueRanges_reads hw
  unfold atr
  rw [requirePeriod_of_le (Nat.succ_pos _) h, hranges]
  exact ⟨_, rfl⟩

theorem lastClose_reads (hw : ∀ c ∈ w, PositiveCandle c) (h : 0 < w.length) :
    ∃ d, lastClose w = some d := by
  obtain ⟨last, hmem, hlast⟩ := exists_getLast? h
  obtain ⟨q, -, hq⟩ := (hw last hmem).close
  unfold lastClose
  rw [hlast]
  exact ⟨_, hq⟩

theorem maxOf_reads {ds : List Decimal} (h : 0 < ds.length) : ∃ d, maxOf ds = some d := by
  obtain ⟨d, rest, rfl⟩ := List.exists_cons_of_length_pos h
  exact ⟨_, rfl⟩

theorem minOf_reads {ds : List Decimal} (h : 0 < ds.length) : ∃ d, minOf ds = some d := by
  obtain ⟨d, rest, rfl⟩ := List.exists_cons_of_length_pos h
  exact ⟨_, rfl⟩

/-! ### Choppiness -/

theorem clusterTrueRanges_reads (hw : ∀ c ∈ w, PositiveCandle c) :
    ∃ ranges, (w.zip w.tail).mapM (fun (prev, cur) => clusterTrueRange prev cur) = some ranges ∧
      ranges.length = w.length - 1 := by
  have hpairs : ∀ pair ∈ w.zip w.tail, ∃ d, clusterTrueRange pair.1 pair.2 = some d := by
    intro pair hpair
    obtain ⟨hprev, hcur⟩ := List.of_mem_zip hpair
    obtain ⟨high, -, hhigh⟩ := (hw pair.2 (List.mem_of_mem_tail hcur)).high
    obtain ⟨low, -, hlow⟩ := (hw pair.2 (List.mem_of_mem_tail hcur)).low
    obtain ⟨close, -, hclose⟩ := (hw pair.1 hprev).close
    unfold clusterTrueRange
    rw [hhigh, hlow, hclose]
    exact ⟨_, rfl⟩
  obtain ⟨ranges, hranges, hlength⟩ := mapM_reads hpairs
  exact ⟨ranges, hranges, by simp [hlength]⟩

theorem choppiness_reads (hw : ∀ c ∈ w, PositiveCandle c) (h : maClusterChopPeriod < w.length) :
    ∃ d, choppiness w = some d := by
  have hlast : ∀ c ∈ lastCandles w (maClusterChopPeriod + 1), PositiveCandle c := fun c hc =>
    hw c (mem_of_mem_lastCandles hc)
  have hlength : (lastCandles w (maClusterChopPeriod + 1)).tail.length = maClusterChopPeriod := by
    rw [List.length_tail, length_lastCandles h]
    rfl
  obtain ⟨ranges, hranges, -⟩ := clusterTrueRanges_reads hlast
  obtain ⟨highs, hhighs, hhighsLength⟩ := mapM_reads (f := fun c : Candle => parse c.high)
    (l := (lastCandles w (maClusterChopPeriod + 1)).tail) fun c hc => by
      obtain ⟨q, -, hq⟩ := (hlast c (List.mem_of_mem_tail hc)).high
      exact ⟨_, hq⟩
  obtain ⟨lows, hlows, hlowsLength⟩ := mapM_reads (f := fun c : Candle => parse c.low)
    (l := (lastCandles w (maClusterChopPeriod + 1)).tail) fun c hc => by
      obtain ⟨q, -, hq⟩ := (hlast c (List.mem_of_mem_tail hc)).low
      exact ⟨_, hq⟩
  have hpos : 0 < maClusterChopPeriod := by decide
  obtain ⟨hi, hhi⟩ := maxOf_reads (by rw [hhighsLength, hlength]; exact hpos : 0 < highs.length)
  obtain ⟨lo, hlo⟩ := minOf_reads (by rw [hlowsLength, hlength]; exact hpos : 0 < lows.length)
  unfold choppiness
  simp only [hranges, hhighs, hlows, hhi, hlo, Option.bind_eq_bind, Option.bind_some]
  split
  · exact ⟨_, rfl⟩
  · exact ⟨_, rfl⟩

/-! ### Entry triggers -/

theorem breakoutLevel_reads (hw : ∀ c ∈ w, PositiveCandle c) {lookback : ℕ} (hpos : 0 < lookback)
    (h : lookback ≤ w.length) : ∃ level, breakoutLevel w lookback = some (some level) := by
  obtain ⟨highs, hhighs, hlength⟩ := mapM_reads (f := fun c : Candle => parse c.high)
    (l := lastCandles w lookback) fun c hc => by
      obtain ⟨q, -, hq⟩ := (hw c (mem_of_mem_lastCandles hc)).high
      exact ⟨_, hq⟩
  rw [length_lastCandles h] at hlength
  obtain ⟨level, rest, rfl⟩ := List.exists_cons_of_length_pos (hlength ▸ hpos)
  unfold breakoutLevel
  rw [if_neg (not_lt.mpr h), hhighs]
  exact ⟨_, rfl⟩

theorem volumes_reads (hw : ∀ c ∈ w, PositiveCandle c) :
    ∃ volumes : List ℚ, w.mapM (fun c => parse c.volume) = some (volumes.map num) ∧
      volumes.length = w.length ∧ ∀ v ∈ volumes, 0 < v := by
  induction w with
  | nil => exact ⟨[], rfl, rfl, by simp⟩
  | cons candle rest ih =>
      obtain ⟨volumes, hvolumes, hlength, hpos⟩ := ih fun c hc => hw c (List.mem_cons_of_mem _ hc)
      obtain ⟨v, hv, hparse⟩ := (hw candle List.mem_cons_self).volume
      refine ⟨v :: volumes, ?_, by simp [hlength], ?_⟩
      · rw [List.mapM_cons, hparse, hvolumes]
        rfl
      · intro u hu
        rcases List.mem_cons.mp hu with rfl | hu
        · exact hv
        · exact hpos u hu

/-- The impulse is measured, unless nothing moved in the candles before the judged one. -/
theorem impulseReading_reads (hw : ∀ c ∈ w, PositiveCandle c) {raw : Option MomentumImpulse}
    (h : impulseNeed raw ≤ w.length) :
    ∃ reading, impulseReading w raw = some reading ∧
      (reading = none → ∃ range, atr (priorCandles w) impulseAtrPeriod = some range ∧
        range.gt (num 0) = false) := by
  have hlookback : 0 < (impulseSettings raw).volumeLookback := by
    unfold impulseSettings coerceInt
    dsimp only
    split
    · split <;> omega
    · omega
  have hneeds : (impulseSettings raw).volumeLookback + 1 ≤ w.length ∧
      impulseAtrPeriod + 1 + 1 ≤ w.length := by
    unfold impulseNeed at h
    dsimp only at h
    split at h <;> omega
  have hprior : ∀ c ∈ priorCandles w, PositiveCandle c :=
    fun c hc => hw c (mem_of_mem_priorCandles hc)
  have hvolumeWindow : ∀ c ∈ lastCandles (priorCandles w) (impulseSettings raw).volumeLookback,
      PositiveCandle c := fun c hc => hprior c (mem_of_mem_lastCandles hc)
  obtain ⟨last, hmem, hlast⟩ := exists_getLast? (by omega : 0 < w.length)
  obtain ⟨volumes, hvolumes, hlength, hpos⟩ := volumes_reads hvolumeWindow
  have hatr : ∃ range, atr (priorCandles w) impulseAtrPeriod = some range :=
    atr_reads hprior (by rw [length_priorCandles]; omega)
  obtain ⟨range, hrange⟩ := hatr
  obtain ⟨volume, -, hvolume⟩ := (hw last hmem).volume
  obtain ⟨close, -, hclose⟩ := (hw last hmem).close
  obtain ⟨openPrice, -, hopen⟩ := (hw last hmem).openPrice
  have hne : volumes ≠ [] := by
    rw [← List.length_pos_iff, hlength,
      length_lastCandles (by rw [length_priorCandles]; omega)]
    exact hlookback
  have haverage : (((volumes.map num).foldl Decimal.add (num 0)).div
      (num ((impulseSettings raw).volumeLookback : ℚ))).gt (num 0) = true := by
    have hpositive : (0 : ℚ) < (impulseSettings raw).volumeLookback := Nat.cast_pos.mpr hlookback
    rw [foldl_add_num, div_num hpositive.ne', gt_num, decide_eq_true_eq, zero_add]
    exact div_pos (List.sum_pos volumes hpos hne) hpositive
  unfold impulseReading
  dsimp only
  rw [if_neg (not_lt.mpr h), hlast]
  simp only [Option.bind_eq_bind, Option.bind_some, hvolumes, hrange, haverage, Bool.not_true,
    Bool.false_or]
  by_cases hmoved : range.gt (num 0) = true
  · simp only [hmoved, Bool.not_true, Bool.false_eq_true, if_false, hvolume, hclose, hopen,
      Option.bind_some]
    exact ⟨_, rfl, nofun⟩
  · rw [Bool.not_eq_true] at hmoved
    simp only [hmoved, Bool.not_false, if_true]
    exact ⟨none, rfl, fun _ => ⟨range, rfl, hmoved⟩⟩

/-! ### Averages that have bunched -/

theorem averages_reads (hw : ∀ c ∈ w, PositiveCandle c) (h : 200 ≤ w.length) :
    ∃ ds, averages w = some ds ∧ 0 < ds.length := by
  have hperiods : ∀ p ∈ maClusterPeriods, ∃ d, sma w p = some d := by
    intro p hp
    have hbounds : 0 < p ∧ p ≤ 200 := by
      revert p
      decide
    exact sma_reads (priced_of_positive hw) hbounds.1 (hbounds.2.trans h)
  obtain ⟨ds, hds, hlength⟩ := mapM_reads hperiods
  exact ⟨ds, hds, by rw [hlength]; decide⟩

theorem relativeAtrs_reads (hw : ∀ c ∈ w, PositiveCandle c) (h : maClusterAtrPeriod < w.length) :
    ∃ rel, relativeAtrs w = some rel ∧ 0 < rel.length := by
  obtain ⟨ranges, hranges, hrangesLength⟩ := clusterTrueRanges_reads hw
  obtain ⟨cs, hcs, hcsLength⟩ := closes_reads (w := w.drop maClusterAtrPeriod) fun c hc =>
    priced_of_positive hw c (List.mem_of_mem_drop hc)
  unfold relativeAtrs
  simp only [hranges, hcs, Option.bind_eq_bind, Option.bind_some]
  refine ⟨_, rfl, ?_⟩
  simp only [List.length_map, List.length_zip, List.length_scanl, List.length_drop, hcsLength]
  omega

theorem atrPercentile_reads (hw : ∀ c ∈ w, PositiveCandle c)
    (h : maClusterAtrPeriod + maClusterAtrLookback + 1 ≤ w.length) :
    ∃ d, atrPercentile w = some d := by
  have hlength := length_lastCandles h
  have hlast : ∀ c ∈ lastCandles w (maClusterAtrPeriod + maClusterAtrLookback + 1),
      PositiveCandle c := fun c hc => hw c (mem_of_mem_lastCandles hc)
  obtain ⟨rel, hrel, hpos⟩ := relativeAtrs_reads hlast (by rw [hlength]; decide)
  have hne : rel ≠ [] := List.length_pos_iff.mp hpos
  unfold atrPercentile
  simp only [hrel, List.getLast?_eq_some_getLast hne, Option.bind_eq_bind, Option.bind_some]
  exact ⟨_, rfl⟩

/-- The candles the break itself reads; the percentile ceiling reads further back. -/
def breakNeed (raw : Option MomentumMaCluster) : ℕ :=
  if (maClusterMaxAtrPercentile raw).isNone then 200 + 1
  else maClusterAtrPeriod + maClusterAtrLookback + 1

theorem breakReading_reads (hw : ∀ c ∈ w, PositiveCandle c) {raw : Option MomentumMaCluster}
    (h : breakNeed raw ≤ w.length) : ∃ reading, breakReading w raw = some reading := by
  have hlength : 200 + 1 ≤ w.length := by
    refine le_trans ?_ h
    unfold breakNeed
    split <;> decide
  have hprior : ∀ c ∈ priorCandles w, PositiveCandle c :=
    fun c hc => hw c (mem_of_mem_priorCandles hc)
  obtain ⟨close, hclose⟩ := lastClose_reads hw (by omega)
  obtain ⟨now, hnow, hnowPos⟩ := averages_reads hw (by omega)
  obtain ⟨top, htop⟩ := maxOf_reads hnowPos
  obtain ⟨bottom, hbottom⟩ := minOf_reads hnowPos
  obtain ⟨before, hbefore, hbeforePos⟩ := averages_reads hprior (by rw [length_priorCandles]; omega)
  obtain ⟨prevTop, hprevTop⟩ := maxOf_reads hbeforePos
  obtain ⟨prevClose, hprevClose⟩ := lastClose_reads hprior (by rw [length_priorCandles]; omega)
  have hchopLength : maClusterChopPeriod < w.length := lt_of_lt_of_le (by decide) hlength
  obtain ⟨chop, hchop⟩ := choppiness_reads hw hchopLength
  have hpercentile : ∃ pct, (maClusterMaxAtrPercentile raw).mapM (fun _ => atrPercentile w) =
      some pct := by
    cases hceiling : maClusterMaxAtrPercentile raw with
    | none => exact ⟨none, rfl⟩
    | some ceiling =>
        have hneed : maClusterAtrPeriod + maClusterAtrLookback + 1 ≤ w.length := by
          unfold breakNeed at h
          rwa [hceiling] at h
        obtain ⟨pct, hpct⟩ := atrPercentile_reads hw hneed
        exact ⟨some pct, by rw [Option.mapM_some, hpct]; rfl⟩
  obtain ⟨pct, hpct⟩ := hpercentile
  unfold breakReading
  simp only [hclose, hnow, htop, hbottom, hbefore, hprevTop, hprevClose, hchop, hpct,
    Option.bind_eq_bind, Option.bind_some]
  exact ⟨_, rfl⟩

theorem maClusterReading_reads (hw : ∀ c ∈ w, PositiveCandle c) {raw : Option MomentumMaCluster}
    (h : maClusterNeed raw ≤ w.length) :
      ∃ reading, maClusterReading w raw = some (some reading) := by
  have hneed : maClusterNeed raw = breakNeed raw + if maClusterConfirmBreak raw then 1 else 0 := rfl
  obtain ⟨now, hnow⟩ := breakReading_reads hw (by rw [hneed] at h; omega : breakNeed raw ≤ w.length)
  unfold maClusterReading
  rw [if_neg (not_lt.mpr h), hnow]
  simp only [Option.bind_eq_bind, Option.bind_some]
  by_cases hconfirm : maClusterConfirmBreak raw = true
  · have hprior : ∀ c ∈ priorCandles w, PositiveCandle c := fun c hc =>
      hw c (mem_of_mem_priorCandles hc)
    rw [hneed, if_pos hconfirm] at h
    obtain ⟨prev, hprev⟩ := breakReading_reads hprior (by
      rw [length_priorCandles]
      omega : breakNeed raw ≤ (priorCandles w).length)
    obtain ⟨close, hclose⟩ := lastClose_reads hw (by omega)
    simp only [hconfirm, hprev, hclose, Bool.not_true, Bool.false_eq_true, if_false,
      Option.bind_some]
    exact ⟨_, rfl⟩
  · rw [Bool.not_eq_true] at hconfirm
    simp only [hconfirm, Bool.not_false, if_true]
    exact ⟨_, rfl⟩

/-! ### Exhaustion and leading volume -/

theorem exhaustionReading_reads (hw : ∀ c ∈ w, PositiveCandle c) {raw : Option MomentumExhaustion}
    (h : exhaustionNeed ≤ w.length) : ∃ reading, exhaustionReading w raw = some (some reading) := by
  have hlength : 401 ≤ w.length := h
  obtain ⟨close, hclose⟩ := lastClose_reads hw (by omega)
  have hchopLength : maClusterChopPeriod < w.length := lt_of_lt_of_le (by decide) hlength
  obtain ⟨chop, hchop⟩ := choppiness_reads hw hchopLength
  have haverage : ∃ d, sma w exhaustionTrendPeriod = some d :=
    sma_reads (priced_of_positive hw) (by decide) (le_trans (by decide) hlength)
  have hstrength : ∃ d, rsi w exhaustionRsiPeriod = some d :=
    rsi_reads (priced_of_positive hw) (le_trans (by decide) hlength)
  obtain ⟨average, haverage⟩ := haverage
  obtain ⟨strength, hstrength⟩ := hstrength
  unfold exhaustionReading
  rw [if_neg (not_lt.mpr h)]
  simp only [hclose, hchop, haverage, hstrength, Option.bind_eq_bind, Option.bind_some]
  exact ⟨_, rfl⟩

theorem obvLeadReading_reads (hw : ∀ c ∈ w, PositiveCandle c) {raw : Option MomentumObvLead}
    (h : (obvLeadSettings raw).lookback + 1 ≤ w.length) :
    ∃ reading, obvLeadReading w raw = some (some reading) := by
  have hlookback : maClusterChopPeriod ≤ (obvLeadSettings raw).lookback := by
    unfold obvLeadSettings coerceInt
    dsimp only
    split
    · split
      · omega
      · decide
    · decide
  have hlast : ∀ c ∈ lastCandles w ((obvLeadSettings raw).lookback + 1), PositiveCandle c :=
    fun c hc => hw c (mem_of_mem_lastCandles hc)
  have hlength := length_lastCandles h
  obtain ⟨cs, hcs, hcsLength⟩ := closes_reads (priced_of_positive hlast)
  obtain ⟨volumes, hvolumes, hvolumesLength⟩ := mapM_reads (f := fun c : Candle => parse c.volume)
    (l := (lastCandles w ((obvLeadSettings raw).lookback + 1)).tail) fun c hc => by
      obtain ⟨q, -, hq⟩ := (hlast c (List.mem_of_mem_tail hc)).volume
      exact ⟨_, hq⟩
  rw [hlength] at hcsLength
  rw [List.length_tail, hlength] at hvolumesLength
  have hchop : 14 ≤ (obvLeadSettings raw).lookback := hlookback
  have hcsNe : cs ≠ [] := List.length_pos_iff.mp (by omega)
  have hobvLength : ((((cs.zip cs.tail).zip volumes).scanl obvStep (num 0))).length =
      (obvLeadSettings raw).lookback + 1 := by
    simp only [List.length_scanl, List.length_zip, List.length_tail, hcsLength, hvolumesLength]
    omega
  obtain ⟨priorObv, hpriorObv⟩ := maxOf_reads (by rw [List.length_dropLast, hobvLength]; omega :
    0 < (((cs.zip cs.tail).zip volumes).scanl obvStep (num 0)).dropLast.length)
  obtain ⟨priorClose, hpriorClose⟩ := maxOf_reads (by rw [List.length_dropLast, hcsLength]; omega :
    0 < cs.dropLast.length)
  have hobvNe : ((cs.zip cs.tail).zip volumes).scanl obvStep (num 0) ≠ [] :=
    List.length_pos_iff.mp (by omega)
  obtain ⟨chop, hchoppy⟩ := choppiness_reads hw (by
    show 14 < w.length
    omega)
  unfold obvLeadReading
  dsimp only
  rw [if_neg (not_lt.mpr h)]
  simp only [hcs, hvolumes, hpriorObv, hpriorClose, List.getLast?_eq_some_getLast hcsNe,
    List.getLast?_eq_some_getLast hobvNe, hchoppy, Option.bind_eq_bind, Option.bind_some]
  exact ⟨_, rfl⟩

/-! ### The rank gate -/

theorem candleReturns_reads (hw : ∀ c ∈ w, PositiveCandle c) :
    ∃ returns, candleReturns w = some (some returns) := by
  induction w with
  | nil => exact ⟨[], rfl⟩
  | cons prev rest ih =>
      cases rest with
      | nil => exact ⟨[], rfl⟩
      | cons cur rest =>
          obtain ⟨returns, hreturns⟩ := ih fun c hc => hw c (List.mem_cons_of_mem _ hc)
          obtain ⟨base, hpos, hbase⟩ := (hw prev (by simp)).close
          obtain ⟨close, -, hclose⟩ := (hw cur (by simp)).close
          unfold candleReturns
          simp only [hbase, hclose, hreturns, gt_num, hpos, Option.bind_eq_bind, Option.bind_some,
            decide_true, Bool.not_true, Bool.false_eq_true, if_false]
          exact ⟨_, rfl⟩

theorem relativeStrengthScore_reads (hw : ∀ c ∈ w, PositiveCandle c) {lookbackBars : ℕ}
    (h : lookbackBars + 1 ≤ w.length) :
    ∃ score, relativeStrengthScore w lookbackBars = some (some score) := by
  obtain ⟨returns, hreturns⟩ := candleReturns_reads (w := lastCandles w (lookbackBars + 1))
    fun c hc => hw c (mem_of_mem_lastCandles hc)
  unfold relativeStrengthScore
  rw [if_neg (not_lt.mpr h), hreturns]
  exact ⟨_, rfl⟩

end Window

end TradingBot.Momentum

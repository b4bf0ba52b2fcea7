import TradingBot.Lib.ExponentialAverage
import TradingBot.Momentum.RequiredWindow

/-!
# What a tick takes for the candle before

A tick reads both averages twice from its own window, with its newest candle and
without it. While the window still grows, the second reading is what the tick of
the candle before computed. Once it is full, the oldest candle has left it: the
averages start from another mean, and a cross is judged over the candles that
both windows hold.
-/

namespace TradingBot.Momentum

open Decimal

/-- The two averages over a window. -/
structure EmaPair where
  fast : Decimal
  slow : Decimal

def emaPair (config : MomentumConfig) (candles : List Candle) : Option EmaPair := do
  return ⟨← ema candles config.ema.fast, ← ema candles config.ema.slow⟩

/-- The longest window a tick of the profile is given. -/
def windowCap (config : MomentumConfig) : ℕ :=
  resolveCandleWindow (some (momentumRequiredWindow config))

/-- The window a tick is given after some closed candles. -/
def windowAfter (config : MomentumConfig) (history : List Candle) : List Candle :=
  lastCandles history (windowCap config)

/-- The candles of a window that the next one still holds. -/
def carried (config : MomentumConfig) (history : List Candle) : List Candle :=
  if history.length < windowCap config then windowAfter config history
  else (windowAfter config history).tail

section Windows

variable {config : MomentumConfig} {history : List Candle} {next : Candle}

theorem length_windowAfter :
    (windowAfter config history).length = min history.length (windowCap config) := by
  rw [windowAfter, lastCandles, List.length_drop]
  omega

theorem mem_of_mem_windowAfter {c : Candle} (hc : c ∈ windowAfter config history) : c ∈ history :=
  mem_of_mem_lastCandles hc

theorem mem_of_mem_carried {c : Candle} (hc : c ∈ carried config history) : c ∈ history := by
  unfold carried at hc
  split at hc
  · exact mem_of_mem_windowAfter hc
  · exact mem_of_mem_windowAfter (List.mem_of_mem_tail hc)

theorem windowCap_pos : 0 < windowCap config := by
  unfold windowCap
  generalize momentumRequiredWindow config = need
  unfold resolveCandleWindow defaultCandleWindow maxCandleWindow
  dsimp only
  split
  · omega
  · split <;> omega

theorem priorCandles_windowAfter :
    priorCandles (windowAfter config (history ++ [next])) = carried config history := by
  have hcap : 0 < windowCap config := windowCap_pos
  unfold priorCandles carried windowAfter lastCandles
  generalize windowCap config = cap at hcap ⊢
  rw [List.length_append, List.length_singleton, List.drop_append_of_le_length (by omega),
    List.dropLast_concat]
  split
  · congr 1
    omega
  · rw [List.tail_drop]
    congr 1
    omega

theorem need_le_windowCap (hslow : config.ema.slow < maxCandleWindow) :
    config.need ≤ windowCap config := by
  have hneed := (needs_le_momentumRequiredWindow config).1
  unfold windowCap MomentumConfig.need at *
  generalize momentumRequiredWindow config = need at hneed ⊢
  unfold resolveCandleWindow
  rw [Option.getD_some]
  dsimp only
  split
  · omega
  · split <;> omega

theorem slow_le_length_carried (hslow : config.ema.slow < maxCandleWindow)
    (hwarm : config.need ≤ history.length) : config.ema.slow ≤ (carried config history).length := by
  have hcap := need_le_windowCap hslow
  unfold MomentumConfig.need at *
  unfold carried
  split
  · rw [length_windowAfter]
    omega
  · rw [List.length_tail, length_windowAfter]
    omega

end Windows

/-! ### The averages of a tick -/

section Averages

variable {config : MomentumConfig} {candles : List Candle}

theorem emaPair_reads (hpriced : ∀ c ∈ candles, Priced c) (hfast : 0 < config.ema.fast)
    (hslow : config.ema.fast < config.ema.slow) (hlength : config.ema.slow ≤ candles.length) :
    ∃ a, emaPair config candles = some a := by
  obtain ⟨fast, hfastReads⟩ := ema_reads hpriced hfast (by omega)
  obtain ⟨slow, hslowReads⟩ := ema_reads hpriced (hfast.trans hslow) hlength
  exact ⟨⟨fast, slow⟩, by rw [emaPair, hfastReads, hslowReads]; rfl⟩

/-- The four readings of a tick are the averages of its window and of the window without its
newest candle. -/
theorem crossing_of_emaPair {now prior : EmaPair} (hnow : emaPair config candles = some now)
    (hprior : emaPair config (priorCandles candles) = some prior) :
    crossing config candles = some ⟨now.fast, now.slow, prior.fast, prior.slow⟩ := by
  obtain ⟨fastNow, hfastNow, hnow⟩ := Option.bind_eq_some_iff.mp hnow
  obtain ⟨slowNow, hslowNow, hnow⟩ := Option.bind_eq_some_iff.mp hnow
  obtain ⟨fastPrev, hfastPrev, hprior⟩ := Option.bind_eq_some_iff.mp hprior
  obtain ⟨slowPrev, hslowPrev, hprior⟩ := Option.bind_eq_some_iff.mp hprior
  obtain rfl := Option.some.inj hnow
  obtain rfl := Option.some.inj hprior
  unfold crossing
  dsimp only
  rw [hfastNow, hslowNow, hfastPrev, hslowPrev]
  rfl

end Averages

/-! ### Crosses -/

/-- The fast average stands below the slow one. -/
def EmaPair.below (a : EmaPair) : Bool := a.fast.lt a.slow

def EmaPair.atOrAbove (a : EmaPair) : Bool := a.fast.gte a.slow

/-- The fast average has cleared the threshold that an entry asks for. -/
def EmaPair.clears (a : EmaPair) (band : Decimal) : Bool := a.fast.gt (a.slow.mul band)

def EmaPair.short (a : EmaPair) (band : Decimal) : Bool := a.fast.lte (a.slow.mul band)

section Crosses

variable {config : MomentumConfig} {input : MomentumInput} {x : Crossing}
  {entryPrice : DecimalString}

theorem scopedState_of_held (hheld : input.state.entryPrice = some entryPrice) :
    scopedState input.state = input.state := by
  unfold scopedState positionFree
  rw [hheld]
  rfl

/-- A held position whose averages cross down leaves by its exit, whatever else asks for one. -/
theorem computeTick_crossDown {out : MomentumOutput}
    (hheld : input.state.entryPrice = some entryPrice)
    (hwarm : input.config.need ≤ input.closedCandles.length)
    (hcrossing : crossing input.config input.closedCandles = some x) (hdown : x.crossDown = true)
    (hout : computeTick input = some out) :
    ∃ lastCandle reason, { out with publish := none } =
      exitPosition input input.state lastCandle reason := by
  obtain ⟨decided, hdecided, hout⟩ := Option.bind_eq_some_iff.mp hout
  obtain ⟨publish, -, hout⟩ := Option.bind_eq_some_iff.mp hout
  obtain rfl := Option.some.inj hout
  unfold decideTick at hdecided
  dsimp only at hdecided
  rw [scopedState_of_held hheld] at hdecided
  split at hdecided
  · next hnone =>
      rw [List.getLast?_eq_none_iff.mp hnone] at hwarm
      cases hwarm
  · next lastCandle _ =>
      rw [if_neg (not_lt.mpr hwarm), hcrossing, Option.bind_eq_bind, Option.bind_some,
        hheld] at hdecided
      obtain ⟨r, -, hdecided⟩ := Option.bind_eq_some_iff.mp hdecided
      have hreason : ∃ reason, exitReason input.forceSell x.crossDown r = some reason := by
        unfold exitReason
        rw [hdown]
        split
        · exact ⟨_, rfl⟩
        · split
          · exact ⟨_, rfl⟩
          · exact ⟨_, rfl⟩
      obtain ⟨reason, hreason⟩ := hreason
      rw [hreason] at hdecided
      obtain rfl := Option.some.inj hdecided
      refine ⟨lastCandle, reason, ?_⟩
      unfold exitPosition
      split
      · rfl
      · split
        · rfl
        · rfl

/-- The tick of the next candle judges a cross by its own averages and by those of the candles its
window still holds, which below the cap are all that the tick before had. So it reports what the
two ticks' own averages did exactly if dropping the oldest candle changes no side, and a held
position leaves at every cross that is reported. -/
theorem cross_judged_over_carried (config : MomentumConfig) (history : List Candle) (next : Candle)
    (hfast : 0 < config.ema.fast) (hslow : config.ema.fast < config.ema.slow)
    (hmax : config.ema.slow < maxCandleWindow) (hwarm : config.need ≤ history.length)
    (hpriced : ∀ c ∈ history ++ [next], Priced c) :
    ∃ before now kept x, emaPair config (windowAfter config history) = some before ∧
      emaPair config (windowAfter config (history ++ [next])) = some now ∧
      emaPair config (carried config history) = some kept ∧
      crossing config (windowAfter config (history ++ [next])) = some x ∧
      (history.length < windowCap config → kept = before) ∧
      (x.crossDown = true ↔ now.below = true ∧ kept.atOrAbove = true) ∧
      (x.crossUp (entryBand config) = true ↔
        now.clears (entryBand config) = true ∧ kept.short (entryBand config) = true) ∧
      ((x.crossDown = true ↔ now.below = true ∧ before.atOrAbove = true) ↔
        (now.below = true → kept.atOrAbove = before.atOrAbove)) ∧
      ((x.crossUp (entryBand config) = true ↔
          now.clears (entryBand config) = true ∧ before.short (entryBand config) = true) ↔
        (now.clears (entryBand config) = true →
          kept.short (entryBand config) = before.short (entryBand config))) ∧
      ∀ input entryPrice out, input.config = config →
        input.closedCandles = windowAfter config (history ++ [next]) →
        input.state.entryPrice = some entryPrice → x.crossDown = true →
        computeTick input = some out →
        ∃ lastCandle reason, { out with publish := none } =
          exitPosition input input.state lastCandle reason := by
  have hold : ∀ c ∈ history, Priced c := fun c hc => hpriced c (List.mem_append_left _ hc)
  have hcap := need_le_windowCap hmax
  have hlength : config.need ≤ (windowAfter config history).length := by
    rw [length_windowAfter]
    exact le_min hwarm hcap
  have hlength' : config.need ≤ (windowAfter config (history ++ [next])).length := by
    rw [length_windowAfter, List.length_append]
    exact le_min (hwarm.trans (Nat.le_add_right _ _)) hcap
  obtain ⟨before, hbefore⟩ := emaPair_reads
    (fun c hc => hold c (mem_of_mem_windowAfter hc)) hfast hslow (Nat.le_of_succ_le hlength)
  obtain ⟨now, hnow⟩ := emaPair_reads
    (fun c hc => hpriced c (mem_of_mem_windowAfter hc)) hfast hslow (Nat.le_of_succ_le hlength')
  obtain ⟨kept, hkept⟩ := emaPair_reads (fun c hc => hold c (mem_of_mem_carried hc)) hfast hslow
    (slow_le_length_carried hmax hwarm)
  have hcrossing := crossing_of_emaPair hnow (by rwa [priorCandles_windowAfter])
  have hdown : (⟨now.fast, now.slow, kept.fast, kept.slow⟩ : Crossing).crossDown = true ↔
      now.below = true ∧ kept.atOrAbove = true := by
    rw [Crossing.crossDown, Bool.and_eq_true, and_comm]
    exact Iff.rfl
  have hup : (⟨now.fast, now.slow, kept.fast, kept.slow⟩ : Crossing).crossUp (entryBand config) =
      true ↔ now.clears (entryBand config) = true ∧ kept.short (entryBand config) = true := by
    rw [Crossing.crossUp, Bool.and_eq_true, and_comm]
    exact Iff.rfl
  refine ⟨before, now, kept, _, hbefore, hnow, hkept, hcrossing, ?_, hdown, hup, ?_, ?_, ?_⟩
  · intro hgrows
    rw [carried, if_pos hgrows] at hkept
    exact Option.some.inj (hkept.symm.trans hbefore)
  · rw [hdown, and_congr_right_iff, Bool.coe_iff_coe]
  · rw [hup, and_congr_right_iff, Bool.coe_iff_coe]
  · rintro input entryPrice out rfl hwindow hheld hcrossed hout
    rw [← hwindow] at hcrossing hlength'
    exact computeTick_crossDown hheld hlength' hcrossing hcrossed hout

end Crosses

/-! ### How far the two readings lie apart -/

section Drift

open ExponentialAverage

variable {front back : CandleWindow} {xs ys : List ℚ}

theorem foldl_step_num (share seed : ℚ) (ys : List ℚ) :
    (ys.map num).foldl (fun value c => ((c.sub value).mul (num share)).add value) (num seed) =
      num (smooth share seed ys) := by
  induction ys generalizing seed with
  | nil => rfl
  | cons y ys ih =>
      rw [List.map_cons, List.foldl_cons, sub_num, mul_num, add_num, ih]
      rfl

theorem ema_eq_smooth (hpos : 0 < front.length) (hfront : closes front = some (xs.map num))
    (hback : closes back = some (ys.map num)) :
    ema (front ++ back) front.length =
      some (num (smooth (2 / (front.length + 1)) (mean xs) ys)) := by
  have hlength : xs.length = front.length := by
    rw [← closes_length hfront, List.length_map]
  have hseed : sma front front.length = some (num (mean xs)) := by
    have hne : (front.length : ℚ) ≠ 0 := by exact_mod_cast hpos.ne'
    unfold sma
    rw [requirePeriod_of_le hpos le_rfl, lastCandles_of_length rfl, hfront, mean, hlength]
    simp [foldl_add_num, div_num hne]
  have hne : (front.length : ℚ) + 1 ≠ 0 := by positivity
  unfold ema
  rw [requirePeriod_of_le hpos (by simp), List.take_left, List.drop_left, hseed, hback]
  simp only [Option.bind_eq_bind, Option.bind_some, Option.pure_def, div_num hne, foldl_step_num]

/-- What separates the average that the tick of the candle before computed over a full window from
the one over the candles the next window holds. It shrinks with every candle and never vanishes. -/
theorem ema_drift {oldest entering : Candle} {o e : ℚ} (holdest : closes [oldest] = some [num o])
    (hfront : closes front = some (xs.map num)) (hentering : closes [entering] = some [num e])
    (hback : closes back = some (ys.map num)) :
    ∃ a b : ℚ, ema (oldest :: (front ++ entering :: back)) (front.length + 1) = some (num a) ∧
      ema (front ++ entering :: back) (front.length + 1) = some (num b) ∧
      a - b = (1 - 2 / (front.length + 1 + 1)) ^ back.length *
        ((e - mean (o :: xs)) * (2 / (front.length + 1 + 1)) - (e - o) / (front.length + 1)) := by
  have hlength : xs.length = front.length := by
    rw [← closes_length hfront, List.length_map]
  have hlength' : ys.length = back.length := by
    rw [← closes_length hback, List.length_map]
  have hbefore := @ema_eq_smooth (oldest :: front) (entering :: back) (o :: xs) (e :: ys)
    (Nat.succ_pos _)
    (by rw [← List.singleton_append, closes_append, holdest, hfront]; rfl)
    (by rw [← List.singleton_append, closes_append, hentering, hback]; rfl)
  have hkept := @ema_eq_smooth (front ++ [entering]) back (xs ++ [e]) ys (by simp)
    (by rw [closes_append, hfront, hentering]; simp) hback
  rw [List.length_append, List.length_singleton, List.append_assoc, List.singleton_append] at hkept
  refine ⟨_, _, hbefore, hkept, ?_⟩
  have hdrift := @average_drop_oldest ℚ _ (2 / ((front.length : ℚ) + 1 + 1)) o e xs ys
    (front.length + 1) (by omega)
    (by exact_mod_cast Nat.succ_ne_zero front.length)
  rw [hlength'] at hdrift
  push_cast at hdrift ⊢
  rw [← hdrift]
  unfold average
  have htake := @take_append_length ℚ (o :: xs) (e :: ys) (front.length + 1)
    (by simpa using hlength)
  have htake' := @take_append_length ℚ (xs ++ [e]) ys (front.length + 1)
    (by simpa using hlength)
  rw [List.append_assoc, List.singleton_append] at htake'
  rw [List.cons_append] at htake
  rw [htake.1, htake.2, htake'.1, htake'.2, List.length_cons]
  push_cast
  rfl

end Drift

/-! ### A full window -/

def closedAt (close : String) (closeTimeMs : ℤ) : Candle where
  openTimeMs := closeTimeMs + 1 - hourMs
  closeTimeMs
  openPrice := "100"
  high := "101"
  low := "1"
  close
  volume := "10"
  isClosed := true

theorem two_hour_average_drifts :
    ∃ a b : ℚ,
      ema [closedAt "1" 0, closedAt "100" 1, closedAt "100" 2, closedAt "99" 3] 2 = some (num a) ∧
      ema [closedAt "100" 1, closedAt "100" 2, closedAt "99" 3] 2 = some (num b) ∧
      a - b = -(11 / 2) := by
  have holdest : closes [closedAt "1" 0] = some [num 1] := by decide +kernel
  have hfront : closes [closedAt "100" 1] = some ([100].map num) := by decide +kernel
  have hentering : closes [closedAt "100" 2] = some [num 100] := by decide +kernel
  have hback : closes [closedAt "99" 3] = some ([99].map num) := by decide +kernel
  obtain ⟨a, b, ha, hb, hdrift⟩ := ema_drift holdest hfront hentering hback
  refine ⟨a, b, ha, hb, hdrift.trans ?_⟩
  norm_num [ExponentialAverage.mean]

/-- Two hundred closed hours, the oldest at one and all but
the newest of the others at a hundred. -/
def fullHistory : List Candle :=
  closedAt "1" 0 :: (List.replicate 198 (closedAt "100" 1) ++ [closedAt "99.8" 2])

def slowConfig : MomentumConfig :=
  { defaultMomentumConfig with ema := ⟨1, 199⟩, protectiveStop := none }

/-- A position held since a hundred, an hour after the fast average stood above the slow one. -/
def heldInput : MomentumInput :=
  { weekendInput with
    config := slowConfig
    state := { initialMomentumState with
      entryPrice := some (.raw "100"), highSinceEntry := some (.raw "100"),
      heldQuantity := some (.raw "1") }
    market := { weekendInput.market with
      candlesByInterval :=
        fun _ => some (windowAfter slowConfig (fullHistory ++ [closedAt "99" 3])) } }

/-- The fast average falls below the slow one, and the position is kept. -/
theorem full_window_loses_cross :
    ((emaPair slowConfig (windowAfter slowConfig fullHistory)).any (·.atOrAbove) = true ∧
      (emaPair slowConfig (windowAfter slowConfig (fullHistory ++ [closedAt "99" 3]))).any
        (·.below) = true) ∧
      (computeTick heldInput).any (fun out => out.decisions == [.noop] &&
        out.nextState.entryPrice == some (.raw "100")) = true := by
  refine ⟨⟨by decide +kernel, by decide +kernel⟩, by decide +kernel⟩

theorem full_window_judges_carried : ∃ now kept x,
    emaPair slowConfig (windowAfter slowConfig (fullHistory ++ [closedAt "99" 3])) = some now ∧
      emaPair slowConfig (carried slowConfig fullHistory) = some kept ∧
      crossing slowConfig (windowAfter slowConfig (fullHistory ++ [closedAt "99" 3])) = some x ∧
      (x.crossDown = true ↔ now.below = true ∧ kept.atOrAbove = true) := by
  obtain ⟨_, now, kept, x, _, hnow, hkept, hcrossing, _, hdown, _⟩ :=
    cross_judged_over_carried slowConfig fullHistory (closedAt "99" 3) (by decide) (by decide)
      (by decide) (by decide +kernel) (by
        intro c hc
        simp only [fullHistory, List.cons_append, List.append_assoc, List.mem_cons, List.mem_append,
          List.mem_replicate, List.not_mem_nil, or_false, false_or] at hc
        rcases hc with rfl | ⟨-, rfl⟩ | rfl | rfl
        · exact ⟨1, by decide +kernel⟩
        · exact ⟨100, by decide +kernel⟩
        · exact ⟨499 / 5, by decide +kernel⟩
        · exact ⟨99, by decide +kernel⟩)
  exact ⟨now, kept, x, hnow, hkept, hcrossing, hdown⟩

end TradingBot.Momentum

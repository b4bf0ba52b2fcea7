import TradingBot.Core.ArmSettles
import TradingBot.Momentum.ProfitMark
import TradingBot.Momentum.RiskCap
import TradingBot.Momentum.Tick

/-!
# The exit level of a held position

A held tick tests its price against one level, saves the marks the level came
from and rests a stop at it. Without the volatility leg the level grows with the
marks, and a position that is kept never has it lowered; with it the level may
fall, but not below the priced stop that rests, nor does the order that replaces
that stop. A tick that has to put its exit off saves no marks.
-/

namespace TradingBot.Momentum

open Decimal Grid

variable {config : MomentumConfig} {e h p h' p' : ℚ}

/-! ### The level grows with its marks -/

/-- Where one level stands, the other stands at least as high. -/
def LevelLe (a b : Option Decimal) : Prop :=
  ∀ x : ℚ, a = some (num x) → ∃ y : ℚ, b = some (num y) ∧ x ≤ y

theorem LevelLe.refl (a : Option Decimal) : LevelLe a a := fun x hx => ⟨x, hx, le_rfl⟩

theorem LevelLe.trans {a b c : Option Decimal} (hab : LevelLe a b) (hbc : LevelLe b c) :
    LevelLe a c := by
  intro x hx
  obtain ⟨y, hy, hxy⟩ := hab x hx
  obtain ⟨z, hz, hyz⟩ := hbc y hy
  exact ⟨z, hz, hxy.trans hyz⟩

/-- A level that is a number where it stands at all. -/
def Finite (a : Option Decimal) : Prop := ∀ d, a = some d → ∃ x : ℚ, d = num x

theorem Finite.cases {a : Option Decimal} (ha : Finite a) :
    a = none ∨ ∃ x : ℚ, a = some (num x) := by
  cases a with
  | none => exact .inl rfl
  | some d =>
      obtain ⟨x, rfl⟩ := ha d rfl
      exact .inr ⟨x, rfl⟩

theorem fixedStop_finite : Finite (fixedStop config (num h)) := by
  intro d hd
  obtain ⟨pct, hpct, rfl⟩ := Option.map_eq_some_iff.mp hd
  obtain ⟨δ, rfl, -⟩ := unitFraction_eq_some hpct
  exact ⟨_, rfl⟩

theorem fixedStop_mono (hle : h ≤ h') :
    LevelLe (fixedStop config (num h)) (fixedStop config (num h')) := by
  intro x hx
  obtain ⟨pct, hpct, hx⟩ := Option.map_eq_some_iff.mp hx
  obtain ⟨δ, rfl, -, -, hlt⟩ := unitFraction_eq_some hpct
  rw [sub_num, mul_num] at hx
  obtain rfl := num.inj hx
  refine ⟨h' * (1 - δ), ?_, mul_le_mul_of_nonneg_right hle (sub_nonneg.mpr hlt.le)⟩
  unfold fixedStop
  rw [hpct, Option.map_some, sub_num, mul_num]

/-- What the profit leg makes of its mark; an infinite distance leaves the entry price. -/
theorem profitLevel (cfg : MomentumProfitTrail) :
    (∀ q : ℚ, 0 < q →
      (num e).max ((num q).mul ((num 1).sub (trailPct cfg.trailPct))) = num e) ∨
      ∃ t : ℚ, ∀ q : ℚ, (num e).max ((num q).mul ((num 1).sub (trailPct cfg.trailPct))) =
        num (max e (q * (1 - t))) := by
  unfold trailPct
  rcases coerceDec_pos cfg.trailPct (by norm_num : (0 : ℚ) < 3 / 100) with hinf | ⟨t, ht, -⟩
  · left
    intro q hq
    rw [hinf]
    simp [sub, neg, add, mul, negative, hq.ne', hq.le, Decimal.max, lt, isNaN]
  · right
    refine ⟨t, fun q => ?_⟩
    rw [ht, sub_num, mul_num, max_num]

/-- A mark that clears the activation still does when it is higher. -/
theorem activated_mono (he : 0 < e) (hle : p ≤ p') (raw : Option String)
    (h : (num p).gte ((num e).mul ((num 1).add (activationPct raw))) = true) :
    (num p').gte ((num e).mul ((num 1).add (activationPct raw))) = true := by
  unfold activationPct at *
  rcases coerceDec_pos raw (by norm_num : (0 : ℚ) < 5 / 100) with hinf | ⟨a, ha, -⟩
  · rw [hinf] at h
    simp [add, mul, negative, he.ne', he.not_gt, gte, lte] at h
  · rw [ha, add_num, mul_num, gte_num, decide_eq_true_eq] at h ⊢
    exact h.trans hle

/-- The mark the profit leg resolves against: none where the leg is off. -/
def markOf (config : MomentumConfig) (p : ℚ) : Option Decimal := config.profitLeg.map fun _ => num p

theorem profitStop_mono (he : 0 < e) (hp : e ≤ p) (hle : p ≤ p') :
    LevelLe (profitStop config (num e) (markOf config p))
      (profitStop config (num e) (markOf config p')) := by
  intro x hx
  unfold profitStop profitLegDistance markOf at *
  cases hleg : config.profitLeg with
  | none =>
      rw [hleg] at hx
      cases hx
  | some cfg =>
      rw [hleg] at hx
      dsimp only [Option.map_some] at hx ⊢
      split at hx
      · next high distance hhigh hdistance =>
          obtain rfl := Option.some.inj hhigh
          split at hdistance
          · next hactive =>
              obtain rfl := Option.some.inj hdistance
              rw [if_pos (activated_mono he hle _ hactive)]
              dsimp only
              rcases profitLevel (e := e) cfg with hconst | ⟨t, hlevel⟩
              · rw [hconst p (he.trans_le hp)] at hx
                rw [hconst p' (he.trans_le (hp.trans hle))]
                exact ⟨x, hx, le_rfl⟩
              · rw [hlevel] at hx
                obtain rfl := num.inj (Option.some.inj hx)
                refine ⟨_, congrArg some (hlevel p'), ?_⟩
                rcases le_total 0 (1 - t) with hshare | hshare
                · exact max_le_max le_rfl (mul_le_mul_of_nonneg_right hle hshare)
                · have hnegative : p * (1 - t) ≤ e :=
                    (mul_nonpos_of_nonneg_of_nonpos (he.le.trans hp) hshare).trans he.le
                  rw [max_eq_left hnegative]
                  exact le_max_left _ _
          · cases hdistance
      · cases hx

theorem profitStop_finite (he : 0 < e) (hp : e ≤ p) :
    Finite (profitStop config (num e) (markOf config p)) := by
  intro d hd
  unfold profitStop markOf at hd
  cases hleg : config.profitLeg with
  | none =>
      rw [hleg] at hd
      cases hd
  | some cfg =>
      rw [hleg] at hd
      split at hd
      · next high distance hhigh hdistance =>
          obtain rfl := Option.some.inj hhigh
          unfold profitLegDistance at hdistance
          rw [hleg] at hdistance
          dsimp only [Option.map_some] at hdistance
          split at hdistance
          · obtain rfl := Option.some.inj hdistance
            obtain rfl := Option.some.inj hd
            rcases profitLevel (e := e) cfg with hconst | ⟨t, hlevel⟩
            · exact ⟨_, hconst p (he.trans_le hp)⟩
            · exact ⟨_, hlevel p⟩
          · cases hdistance
      · cases hd

theorem widerLeg_finite {a b : Option Decimal} (ha : Finite a) (hb : Finite b) :
    Finite (widerLeg a b) := by
  rcases ha.cases with rfl | ⟨x, rfl⟩
  · exact hb
  · rcases hb.cases with rfl | ⟨y, rfl⟩
    · exact ha
    · rintro d hd
      obtain rfl := Option.some.inj hd
      exact ⟨_, max_num⟩

theorem widerLeg_mono {a b a' b' : Option Decimal} (hafin : Finite a) (hbfin : Finite b)
    (hafin' : Finite a') (hbfin' : Finite b') (ha : LevelLe a a') (hb : LevelLe b b') :
    LevelLe (widerLeg a b) (widerLeg a' b') := by
  intro x hx
  rcases hafin.cases with rfl | ⟨u, rfl⟩
  · obtain ⟨y, rfl, hy⟩ := hb x hx
    rcases hafin'.cases with rfl | ⟨u', rfl⟩
    · exact ⟨y, rfl, hy⟩
    · exact ⟨_, congrArg some max_num, hy.trans (le_max_right _ _)⟩
  · obtain ⟨u', rfl, hu⟩ := ha u rfl
    rcases hbfin.cases with rfl | ⟨v, rfl⟩
    · obtain rfl := num.inj (Option.some.inj hx)
      rcases hbfin'.cases with rfl | ⟨v', rfl⟩
      · exact ⟨u', rfl, hu⟩
      · exact ⟨_, congrArg some max_num, hu.trans (le_max_left _ _)⟩
    · obtain ⟨v', rfl, hv⟩ := hb v rfl
      obtain rfl := num.inj ((Option.some.inj hx).symm.trans max_num)
      exact ⟨_, congrArg some max_num, max_le_max hu hv⟩

/-! ### One level -/

/-- The level without the volatility leg, as the marks alone decide it. -/
def markLevel (config : MomentumConfig) (e h p : ℚ) : Option Decimal :=
  widerLeg (fixedStop config (num h)) (profitStop config (num e) (markOf config p))

theorem markLevel_finite (he : 0 < e) (hp : e ≤ p) : Finite (markLevel config e h p) :=
  widerLeg_finite fixedStop_finite (profitStop_finite he hp)

theorem markLevel_mono (he : 0 < e) (hp : e ≤ p) (hh : h ≤ h') (hle : p ≤ p') :
    LevelLe (markLevel config e h p) (markLevel config e h' p') :=
  widerLeg_mono fixedStop_finite (profitStop_finite he hp) fixedStop_finite
    (profitStop_finite he (hp.trans hle)) (fixedStop_mono hh) (profitStop_mono he hp hle)

/-- Outside clamp mode the volatility-free level is that of the
marks, kept at the stop that rests. -/
theorem resolveStopLevel_marks (hclamp : config.clampMode = false) (hatr : config.atrStop = none)
    {candles : List Candle} {band : StopBandContext} {previous : Option Decimal}
    {level : StopResolution}
    (hlevel : resolveStopLevel config (num e) (num h) (markOf config p) candles band previous =
      some level) :
    level.stop = pinned config previous (markLevel config e h p) ∧
      level.profitHigh = markOf config p := by
  unfold resolveStopLevel atrTrailingStopPrice floored at hlevel
  rw [hatr, hclamp] at hlevel
  obtain rfl := Option.some.inj hlevel
  exact ⟨rfl, rfl⟩

theorem decimalMax_eq_num {d : Decimal} {x y : ℚ} (h : d.max (num y) = num x) : y ≤ x := by
  cases d with
  | nan => cases h
  | inf s =>
      cases s with
      | false => cases h
      | true =>
          obtain rfl := num.inj (show num y = num x from h)
          exact le_rfl
  | num q =>
      obtain rfl := num.inj (max_num.symm.trans h)
      exact le_max_right _ _

theorem pinned_ge_resting (hclamp : config.clampMode = false) {stop : Option Decimal} {x y : ℚ}
    (h : pinned config (some (num y)) stop = some (num x)) : y ≤ x := by
  unfold pinned at h
  cases stop with
  | none => cases h
  | some d =>
      dsimp only at h
      rw [hclamp, if_neg Bool.false_ne_true] at h
      exact decimalMax_eq_num (Option.some.inj h)

theorem pinned_of_le (hclamp : config.clampMode = false) {stop previous : Option Decimal}
    (hfinite : Finite stop) (hle : ∀ y, previous = some y → LevelLe previous stop)
    (hprevious : Finite previous) : pinned config previous stop = stop := by
  unfold pinned
  rcases hfinite.cases with rfl | ⟨x, rfl⟩
  · rfl
  · rcases hprevious.cases with rfl | ⟨y, rfl⟩
    · rfl
    · obtain ⟨x', hx', hy⟩ := hle _ rfl y rfl
      obtain rfl := num.inj (Option.some.inj hx')
      dsimp only
      rw [hclamp, if_neg Bool.false_ne_true, max_num, max_eq_left hy]

/-! ### The stop that is sent -/

section Sent

variable {Config State Bundle : Type} {params : ProtectiveStopArmParams Config State Bundle}

theorem stopPrice_of_sent (hseams : LawfulSeams params)
    (hcancel : ∀ resting, (params.buildCancel resting).order = none) {d : Decision}
    {intent : OrderIntent} {order : OrderParams} {stopPrice : DecimalString}
    (hd : d ∈ (evaluateProtectiveStopArm params).decisions)
    (horder : d.order = some (intent, order))
    (hstop : order.stopPrice = some stopPrice) :
    ∃ level, params.level = some level ∧ stopPrice = toFixedStep level.stop level.tick := by
  cases henabled : params.enabled with
  | false =>
      unfold evaluateProtectiveStopArm at hd
      rw [henabled] at hd
      cases hd
  | true =>
      cases hlevel : params.level with
      | none =>
          unfold evaluateProtectiveStopArm at hd
          rw [henabled, hlevel] at hd
          obtain ⟨resting, -, rfl⟩ := Option.map_eq_some_iff.mp (Option.mem_toList.mp hd)
          rw [hcancel] at horder
          cases horder
      | some level =>
          refine ⟨level, rfl, ?_⟩
          have houtcome := arm_outcome henabled hlevel
          generalize evaluateProtectiveStopArm params = arm at houtcome hd
          cases houtcome with
          | refused blocker => cases hd
          | keptNative => cases hd
          | keptPriced => cases hd
          | sentNative _ hprimary =>
              obtain rfl := order_of_send hseams
                (fun rearm => hseams.native _ hprimary.native_eq _ rearm) hd horder
              cases hstop
          | rearmedNative _ hprimary =>
              obtain ⟨i, hbuild⟩ := hseams.native _ hprimary.native_eq _ true
              obtain ⟨reason, hreplace⟩ := hseams.replace _ i _
              rw [hbuild, hreplace] at hd
              obtain rfl := List.mem_singleton.mp hd
              obtain rfl := (Prod.mk.inj (Option.some.inj horder)).2.symm
              cases hstop
          | escaped _ _ hnative =>
              obtain rfl := order_of_send hseams (fun rearm => hseams.native _ hnative _ rearm)
                hd horder
              cases hstop
          | sentPriced =>
              obtain rfl := order_of_send hseams (fun rearm => hseams.place _ rearm) hd horder
              exact (Option.some.inj hstop).symm

end Sent

/-- A price rounds onto a tick grid to a number only if both are numbers. -/
theorem num_of_roundToTick {raw tick : Decimal} {places : ℕ} {z : ℚ}
    (htick : tick.lte (num 0) = false) (h : (roundToTick raw tick).toDecimalPlaces places = num z) :
    ∃ t x : ℚ, tick = num t ∧ 0 < t ∧ raw = num x := by
  unfold roundToTick roundDown at h
  cases tick with
  | nan => cases raw <;> cases h
  | inf s => cases raw <;> simp [div, Decimal.floor, mul, toDecimalPlaces] at h
  | num t =>
      have ht : 0 < t := by simpa using htick
      cases raw with
      | nan => cases h
      | inf s => simp [div, Decimal.floor, mul, toDecimalPlaces, ht.ne'] at h
      | num x => exact ⟨t, x, rfl, ht, rfl⟩

section Arm

variable {input : MomentumInput} {state : MomentumState} {level : StopResolution}
  {arm : MomentumProtectiveStopArm} {entry mark : Decimal} {d : Decision} {intent : OrderIntent}
  {order : OrderParams} {stopPrice : DecimalString}

theorem lawfulSeams_protectiveStopParams (restingHigh : Option Decimal) :
    LawfulSeams (protectiveStopParams input state level entry mark restingHigh) where
  place _ _ := ⟨_, rfl⟩
  native trail htrail _ _ := by
    obtain ⟨distance, -, rfl⟩ := Option.map_eq_some_iff.mp htrail
    exact ⟨_, rfl⟩
  replace _ _ _ := ⟨_, rfl⟩

/-- The trigger of a priced stop is the level of its tick, rounded down onto the tick grid. -/
theorem armProtectiveStop_stopPrice
    (harm : armProtectiveStop input state level entry mark = some arm)
    (hd : d ∈ arm.decisions) (horder : d.order = some (intent, order))
    (hstop : order.stopPrice = some stopPrice) {z : ℚ}
    (hz : stopPrice.toDecimal = some (num z)) :
    ∃ tick x : ℚ, parse input.market.symbolInfo.filters.tickSize = some (num tick) ∧ 0 < tick ∧
      level.stop = some (num x) ∧ z = floorTo tick x := by
  obtain ⟨restingHigh, -, harm⟩ := Option.bind_eq_some_iff.mp harm
  cases harm
  obtain ⟨lvl, hlvl, rfl⟩ := stopPrice_of_sent (lawfulSeams_protectiveStopParams restingHigh)
    (fun _ => rfl) hd horder hstop
  have harmed : (if input.config.armedProtectiveStop.isSome then
      level.stop.bind (computeProtectiveStopLevel input state) else none) = some lvl := hlvl
  split at harmed
  · obtain ⟨raw, hraw, hcompute⟩ := Option.bind_eq_some_iff.mp harmed
    unfold computeProtectiveStopLevel at hcompute
    split at hcompute
    · cases hcompute
    · dsimp only at hcompute
      split at hcompute
      · next held tick filters offset _ htick _ _ =>
          split at hcompute
          · cases hcompute
          · next hsigns =>
              split at hcompute
              · cases hcompute
              · obtain rfl := Option.some.inj hcompute
                have hroundTrip : (roundToTick raw tick).toDecimalPlaces
                    tick.decimalPlaces = num z :=
                  Option.some.inj hz
                simp only [Bool.or_eq_true, not_or, Bool.not_eq_true] at hsigns
                obtain ⟨t, x, rfl, ht, rfl⟩ := num_of_roundToTick hsigns.1.1.2 hroundTrip
                refine ⟨t, x, htick, ht, hraw, ?_⟩
                rw [roundToTick_num ht, toDecimalPlaces_onGrid (parse_terminating htick)
                  (onGrid_floorTo t x)] at hroundTrip
                exact (num.inj hroundTrip).symm
      · cases hcompute
  · cases harmed

end Arm

/-! ### A held tick -/

/-- What a tick reads of a held position, where its window is long enough for it. -/
def MomentumInput.heldReading (input : MomentumInput) : Option HeldReading :=
  match input.state.entryPrice, input.closedCandles.getLast? with
  | some entryPrice, some lastCandle =>
      if input.closedCandles.length < input.config.need then none
      else readHeld input input.state (configForEntryLayer input.config input.state.entryLayer)
        entryPrice input.closedCandles lastCandle
  | _, _ => none

/-- A rule of the tick asks for the position to be sold. -/
def MomentumInput.asksExit (input : MomentumInput) (r : HeldReading) : Prop :=
  ∃ x reason, crossing input.config input.closedCandles = some x ∧
    exitReason input.forceSell x.crossDown r = some reason

section Tick

variable {input : MomentumInput} {out : MomentumOutput} {entryPrice : DecimalString}

/-- What a tick that leaves its position open can do: change nothing, short of candles or unable to
carry its exit out, or save its marks and rest a stop at the level it tested. -/
theorem open_tick_cases (hheld : input.state.entryPrice = some entryPrice)
    (hout : computeTick input = some out) (hopen : out.nextState.entryPrice = some entryPrice) :
    (out.nextState = { input.state with entryBlocker := none } ∧ out.decisions = [.noop] ∧
        ∀ r, input.heldReading = some r → input.asksExit r) ∨
      ∃ r kept, input.heldReading = some r ∧
        keepPosition input input.state (configForEntryLayer input.config input.state.entryLayer)
          entryPrice r = some kept ∧
        out.nextState = kept.nextState ∧ out.decisions = kept.decisions := by
  obtain ⟨decided, hdecided, hout⟩ := Option.bind_eq_some_iff.mp hout
  obtain ⟨publish, -, hout⟩ := Option.bind_eq_some_iff.mp hout
  obtain rfl := Option.some.inj hout
  dsimp only at hopen
  unfold decideTick at hdecided
  dsimp only at hdecided
  have hscoped : scopedState input.state = input.state := by
    unfold scopedState positionFree
    rw [hheld]
    rfl
  rw [hscoped] at hdecided
  unfold MomentumInput.heldReading
  rw [hheld]
  split at hdecided
  · next hnone =>
      obtain rfl := Option.some.inj hdecided
      rw [hnone]
      refine .inl ⟨rfl, rfl, ?_⟩
      intro r hr
      cases hr
  · next lastCandle hlast =>
      rw [hlast]
      dsimp only
      split at hdecided
      · next hshort =>
          obtain rfl := Option.some.inj hdecided
          rw [if_pos hshort]
          refine .inl ⟨rfl, rfl, ?_⟩
          intro r hr
          cases hr
      · next hlong =>
          rw [if_neg hlong]
          obtain ⟨x, hx, hdecided⟩ := Option.bind_eq_some_iff.mp hdecided
          rw [hheld] at hdecided
          obtain ⟨r, hread, hdecided⟩ := Option.bind_eq_some_iff.mp hdecided
          rw [hread]
          split at hdecided
          · next reason hreason =>
              have hasks : ∀ r', some r = some r' → input.asksExit r' := by
                rintro r' hr
                obtain rfl := Option.some.inj hr
                exact ⟨x, reason, hx, hreason⟩
              obtain rfl := Option.some.inj hdecided
              unfold exitPosition at hopen ⊢
              split at hopen
              · exact .inl ⟨rfl, rfl, hasks⟩
              · split at hopen
                · exact .inl ⟨rfl, rfl, hasks⟩
                · cases hopen
          · exact .inr ⟨r, decided, rfl, hdecided, rfl, rfl⟩

end Tick

/-! ### The marks a body stores -/

/-- The high and the profit mark of a body, each at the entry price where it is not set. -/
structure Marks (config : MomentumConfig) (entryPrice : DecimalString) (state : MomentumState)
    (e h p : ℚ) : Prop where
  high : (state.highSinceEntry.getD entryPrice).toDecimal = some (num h)
  floor : e ≤ p
  profit : config.profitLeg.isSome = true →
    ((decOrNull state.profitHigh).getD (num e)).max (num e) = num p

/-- A tick whose exit has to wait has raised no mark it would have saved. -/
def MomentumInput.keepsMarks (input : MomentumInput) (entryPrice : DecimalString)
    (r : HeldReading) : Prop :=
  r.effectiveHigh = ((input.state.highSinceEntry.getD entryPrice).toDecimal).getD nan ∧
    ∀ mark, r.level.profitHigh = some mark →
      mark = ((decOrNull input.state.profitHigh).getD r.entry).max r.entry

/-- The candles of a tick are priced. -/
structure PricedInput (input : MomentumInput) : Prop where
  closed : ∀ c ∈ input.closedCandles, Priced c
  minutes : ∀ c ∈ input.oneMinuteCandles, Priced c

section Reading

variable {input : MomentumInput} {state : MomentumState} {entryPrice : DecimalString}
  {candles : List Candle} {lastCandle : Candle} {r : HeldReading}

theorem advanceProfitMark_mono (hmarks : Marks config entryPrice state e h p)
    {minutes : List Candle} (hpriced : ∀ c ∈ minutes, Priced c) {mark : ProfitMark}
    (hmark : advanceProfitMark config (num e)
      ⟨decOrNull state.profitHigh, state.profitTrailSinceMs⟩ minutes = some mark) :
    ∃ p' : ℚ, p ≤ p' ∧ mark.high = markOf config p' := by
  cases hleg : config.profitLeg with
  | none =>
      refine ⟨p, le_rfl, ?_⟩
      unfold advanceProfitMark ratchetProfitHigh at hmark
      rw [hleg] at hmark
      obtain rfl := Option.some.inj hmark
      rw [markOf, hleg]
      rfl
  | some cfg =>
      have hprofit := hmarks.profit (by rw [hleg]; rfl)
      obtain ⟨stored, hstored⟩ : ∃ stored : Option ℚ,
          decOrNull state.profitHigh = stored.map num := by
        cases hd : decOrNull state.profitHigh with
        | none => exact ⟨none, rfl⟩
        | some d =>
            obtain ⟨q, rfl⟩ := decOrNull_finite hd
            exact ⟨some q, rfl⟩
      obtain ⟨p', hadvance, -, hbound⟩ := @advanceProfitMark_eq _ _ e hleg stored
        state.profitTrailSinceMs _ hpriced
      rw [hstored] at hmark hprofit
      rw [hadvance] at hmark
      obtain rfl := Option.some.inj hmark
      refine ⟨p', ?_, by rw [markOf, hleg]; rfl⟩
      have hentry : e ≤ p' := hbound (.inl rfl)
      cases stored with
      | none =>
          rw [Option.map_none, Option.getD_none, max_num, max_self] at hprofit
          exact (num.inj hprofit) ▸ hentry
      | some q =>
          have hstoredLe : q ≤ p' := hbound (.inr (.inl rfl))
          rw [Option.map_some, Option.getD_some, max_num] at hprofit
          exact (num.inj hprofit) ▸ max_le hstoredLe hentry

theorem readHeld_level
    (hread : readHeld input state config entryPrice candles lastCandle = some r) :
    ∃ entry high profit band, resolveStopLevel config entry high profit candles band
      (previousStop (restingProtectiveStop input)) = some r.level := by
  obtain ⟨prevHigh, -, hread⟩ := Option.bind_eq_some_iff.mp hread
  obtain ⟨close, -, hread⟩ := Option.bind_eq_some_iff.mp hread
  dsimp only at hread
  obtain ⟨entry, -, hread⟩ := Option.bind_eq_some_iff.mp hread
  obtain ⟨mark, -, hread⟩ := Option.bind_eq_some_iff.mp hread
  obtain ⟨level, hlevel, hread⟩ := Option.bind_eq_some_iff.mp hread
  obtain ⟨price, -, hread⟩ := Option.bind_eq_some_iff.mp hread
  have hr : r.level = level := by
    generalize gapStamp config state = stamp at hread
    cases stamp with
    | none =>
        obtain ⟨target, -, hread⟩ := Option.bind_eq_some_iff.mp hread
        rw [← Option.some.inj hread]
    | some stampMs =>
        obtain ⟨target, -, hread⟩ := Option.bind_eq_some_iff.mp hread
        rw [← Option.some.inj hread]
  rw [hr]
  exact ⟨_, _, _, _, hlevel⟩

/-- What a held tick reads are its marks grown, and the level they resolve to. -/
theorem readHeld_marks (hentry : entryPrice.toDecimal = some (num e))
    (hmarks : Marks config entryPrice state e h p) (hlast : Priced lastCandle)
    (hminutes : ∀ c ∈ input.oneMinuteCandles, Priced c)
    (hread : readHeld input state config entryPrice candles lastCandle = some r) :
    ∃ h' p' : ℚ, h ≤ h' ∧ p ≤ p' ∧ r.entry = num e ∧ r.effectiveHigh = num h' ∧
      (if r.madeNewHigh then DecimalString.printed r.closedClose
        else state.highSinceEntry.getD entryPrice).toDecimal = some (num h') ∧
      ∃ band, resolveStopLevel config (num e) (num h') (markOf config p') candles band
        (previousStop (restingProtectiveStop input)) = some r.level := by
  obtain ⟨prevHigh, hprev, hread⟩ := Option.bind_eq_some_iff.mp hread
  obtain rfl := Option.some.inj (hmarks.high.symm.trans hprev)
  obtain ⟨closed, hclosed⟩ := hlast
  obtain ⟨close, hclose, hread⟩ := Option.bind_eq_some_iff.mp hread
  obtain rfl := Option.some.inj (hclosed.symm.trans hclose)
  dsimp only at hread
  obtain ⟨entry, hentry', hread⟩ := Option.bind_eq_some_iff.mp hread
  obtain rfl := Option.some.inj (hentry.symm.trans hentry')
  obtain ⟨mark, hmark, hread⟩ := Option.bind_eq_some_iff.mp hread
  obtain ⟨p', hp', hhigh⟩ := advanceProfitMark_mono hmarks hminutes hmark
  obtain ⟨level, hlevel, hread⟩ := Option.bind_eq_some_iff.mp hread
  obtain ⟨price, -, hread⟩ := Option.bind_eq_some_iff.mp hread
  obtain ⟨gapFilled, timeStop, rfl⟩ : ∃ gapFilled timeStop, r = HeldReading.mk (num e) price
      (num closed) (closedAfterEntry state lastCandle && (num closed).gt (num h))
      (if closedAfterEntry state lastCandle && (num closed).gt (num h) then num closed else num h)
      mark level gapFilled timeStop := by
    split at hread
    · obtain ⟨target, -, hread⟩ := Option.bind_eq_some_iff.mp hread
      exact ⟨_, _, (Option.some.inj hread).symm⟩
    · obtain ⟨target, -, hread⟩ := Option.bind_eq_some_iff.mp hread
      exact ⟨_, _, (Option.some.inj hread).symm⟩
  dsimp only
  rw [hhigh] at hlevel
  cases hnew : closedAfterEntry state lastCandle && (num closed).gt (num h) with
  | true =>
      rw [hnew, if_pos rfl] at hlevel
      rw [Bool.and_eq_true, gt_num, decide_eq_true_eq] at hnew
      exact ⟨closed, p', hnew.2.le, hp', rfl, if_pos rfl, rfl, _, hlevel⟩
  | false =>
      rw [hnew, if_neg Bool.false_ne_true] at hlevel
      exact ⟨h, p', le_rfl, hp', rfl, if_neg Bool.false_ne_true, hmarks.high, _, hlevel⟩

end Reading

/-! ### Runs -/

/-- What a run of held ticks carries: the body, the order sent last, and the level tested last. -/
structure Watch where
  state : MomentumState
  sent : Option OrderParams
  level : Option Decimal

/-- The order a list of decisions sends last. -/
def lastSent (decisions : List Decision) : Option OrderParams :=
  decisions.reverse.findSome? fun d => d.order.map (·.2)

/-- The open orders hold at most our own stop, as it was sent last. -/
inductive Shows (sent : Option OrderParams) : List OpenOrder → Prop
  | nothing : Shows sent []
  | stop {order : OpenOrder} {params : OrderParams} (hsent : sent = some params)
      (hstop : order.stopPrice = params.stopPrice)
      (htrail : order.trailingDelta = params.trailingDelta) : Shows sent [order]

/-- One tick of the position, which is still open after it. Between two ticks only the tracked
quantity may change. -/
structure HeldTick (config : MomentumConfig) (entryPrice : DecimalString) (w : Watch)
    (input : MomentumInput) (w' : Watch) : Prop where
  config_eq : input.config = config
  state_eq : ∃ quantity, input.state = { w.state with heldQuantity := quantity }
  shown : Shows w.sent input.openOrders
  priced : PricedInput input
  answered : ∃ out, computeTick input = some out ∧ out.nextState.entryPrice = some entryPrice ∧
    w' = ⟨out.nextState, (lastSent out.decisions).or w.sent,
      (input.heldReading.map (·.level.stop)).getD w.level⟩

/-- A tick that carries its exit out, or had no mark to save. -/
def MomentumInput.Calm (input : MomentumInput) (entryPrice : DecimalString) : Prop :=
  ∀ r, input.heldReading = some r → input.asksExit r → input.keepsMarks entryPrice r

/-- What a run of the position keeps: the level tested last, and the stop sent last, are no higher
than the marks now stored resolve to. -/
structure Kept (config : MomentumConfig) (entryPrice : DecimalString) (e : ℚ)
    (w : Watch) : Prop where
  open_ : w.state.entryPrice = some entryPrice
  marks : ∃ h p, Marks (configForEntryLayer config w.state.entryLayer) entryPrice w.state e h p ∧
    LevelLe w.level (markLevel (configForEntryLayer config w.state.entryLayer) e h p) ∧
    ∀ params stopPrice, w.sent = some params → params.stopPrice = some stopPrice →
      LevelLe (decOrNull (some stopPrice))
        (markLevel (configForEntryLayer config w.state.entryLayer) e h p)

theorem previousStop_shown {sent : Option OrderParams} {input : MomentumInput}
    (hshown : Shows sent input.openOrders) {stop : Decimal}
    (hstop : previousStop (restingProtectiveStop input) = some stop) :
    ∃ params stopPrice, sent = some params ∧ params.stopPrice = some stopPrice ∧
      decOrNull (some stopPrice) = some stop := by
  obtain ⟨order, hresting, hstop⟩ := Option.bind_eq_some_iff.mp hstop
  obtain ⟨hfound, -⟩ := Option.filter_eq_some_iff.mp hresting
  have hmem : order ∈ input.openOrders := List.mem_of_find?_eq_some hfound
  generalize input.openOrders = orders at hshown hmem
  cases hshown with
  | nothing => cases hmem
  | @stop shown params hsent hprice _ =>
      obtain rfl := List.mem_singleton.mp hmem
      cases hprice' : order.stopPrice with
      | none =>
          rw [hprice'] at hstop
          cases hstop
      | some stopPrice =>
          exact ⟨params, stopPrice, hsent, hprice.symm.trans hprice',
            by rw [← hprice']; exact hstop⟩

theorem order_of_lastSent {decisions : List Decision} {params : OrderParams}
    (h : lastSent decisions = some params) :
    ∃ d ∈ decisions, ∃ intent, d.order = some (intent, params) := by
  obtain ⟨d, hd, hparams⟩ := List.exists_of_findSome?_eq_some h
  obtain ⟨⟨intent, order⟩, horder, rfl⟩ := Option.map_eq_some_iff.mp hparams
  exact ⟨d, List.mem_reverse.mp hd, intent, horder⟩

theorem clampMode_configForEntryLayer (layer : Option EntryLayer) :
    (configForEntryLayer config layer).clampMode = config.clampMode := by
  obtain ⟨stop, hstop⟩ := configForEntryLayer_eq config layer
  rw [hstop]
  rfl

theorem atrStop_configForEntryLayer (hatr : config.atrStop = none) (layer : Option EntryLayer) :
    (configForEntryLayer config layer).atrStop = none := by
  unfold configForEntryLayer
  split
  · next block hblock =>
      unfold MomentumConfig.atrStop at hatr ⊢
      rw [hblock] at hatr
      dsimp only
      rw [Option.filter_some] at hatr ⊢
      dsimp only
      split at hatr
      · cases hatr
      · next hoff => exact if_neg hoff
  · exact hatr

theorem keepPosition_parts {input : MomentumInput} {state : MomentumState}
    {entryPrice : DecimalString} {r : HeldReading} {kept : MomentumOutput}
    (hkept : keepPosition input state config entryPrice r = some kept) :
    kept.nextState.entryPrice = state.entryPrice ∧ kept.nextState.entryLayer = state.entryLayer ∧
      kept.nextState.highSinceEntry = some (if r.madeNewHigh then .printed r.closedClose
        else state.highSinceEntry.getD entryPrice) ∧
      kept.nextState.profitHigh = r.level.profitHigh.map .printed ∧
      ∃ arm, armProtectiveStop { input with config } (heldState state entryPrice r) r.level r.entry
          r.price = some arm ∧
        kept.decisions = if arm.decisions.isEmpty then [.noop] else arm.decisions := by
  obtain ⟨arm, harm, hkept⟩ := Option.bind_eq_some_iff.mp hkept
  obtain ⟨nativeHigh, -, hkept⟩ := Option.bind_eq_some_iff.mp hkept
  obtain rfl := Option.some.inj hkept
  exact ⟨rfl, rfl, rfl, rfl, arm, harm, rfl⟩

theorem keepPosition_stopPrice {input : MomentumInput} {state : MomentumState}
    {entryPrice : DecimalString} {r : HeldReading} {kept : MomentumOutput}
    (hkept : keepPosition input state config entryPrice r = some kept) {d : Decision}
    {intent : OrderIntent} {order : OrderParams} {stopPrice : DecimalString} {z : ℚ}
    (hd : d ∈ kept.decisions) (horder : d.order = some (intent, order))
    (hstop : order.stopPrice = some stopPrice) (hz : stopPrice.toDecimal = some (num z)) :
    ∃ tick x : ℚ, parse input.market.symbolInfo.filters.tickSize = some (num tick) ∧ 0 < tick ∧
      r.level.stop = some (num x) ∧ z = floorTo tick x := by
  obtain ⟨-, -, -, -, arm, harm, hdecisions⟩ := keepPosition_parts hkept
  rw [hdecisions] at hd
  split at hd
  · obtain rfl := List.mem_singleton.mp hd
    cases horder
  · exact armProtectiveStop_stopPrice harm hd horder hstop hz

theorem markLevel_congr (h : ℚ) (hsame : config.profitLeg.isSome = true → p = p') :
    markLevel config e h p = markLevel config e h p' := by
  have hmark : markOf config p = markOf config p' := by
    unfold markOf
    cases hleg : config.profitLeg with
    | none => rfl
    | some cfg => rw [hsame (by rw [hleg]; rfl)]
  rw [markLevel, hmark, markLevel]

section Steps

variable {entryPrice : DecimalString} {w w' : Watch} {input : MomentumInput}

theorem heldReading_level (he : 0 < e) (hentry : entryPrice.toDecimal = some (num e))
    (hclamp : config.clampMode = false) (hatr : config.atrStop = none)
    (hkept : Kept config entryPrice e w) (htick : HeldTick config entryPrice w input w')
    {h p : ℚ}
    (hmarks : Marks (configForEntryLayer config w.state.entryLayer) entryPrice w.state e h p)
    (hsent : ∀ params stopPrice, w.sent = some params → params.stopPrice = some stopPrice →
      LevelLe (decOrNull (some stopPrice))
        (markLevel (configForEntryLayer config w.state.entryLayer) e h p))
    {r : HeldReading} (hr : input.heldReading = some r) :
    ∃ h' p' : ℚ, h ≤ h' ∧ p ≤ p' ∧ r.entry = num e ∧ r.effectiveHigh = num h' ∧
      (if r.madeNewHigh then DecimalString.printed r.closedClose
        else input.state.highSinceEntry.getD entryPrice).toDecimal = some (num h') ∧
      r.level.profitHigh = markOf (configForEntryLayer config w.state.entryLayer) p' ∧
      r.level.stop = markLevel (configForEntryLayer config w.state.entryLayer) e h' p' := by
  obtain ⟨quantity, hstate⟩ := htick.state_eq
  have hheld : input.state.entryPrice = some entryPrice := by
    rw [hstate]
    exact hkept.open_
  have hlayer : input.state.entryLayer = w.state.entryLayer := by rw [hstate]
  have hmarks' : Marks (configForEntryLayer config w.state.entryLayer) entryPrice
      input.state e h p := by
    rw [hstate]
    exact ⟨hmarks.high, hmarks.floor, hmarks.profit⟩
  unfold MomentumInput.heldReading at hr
  rw [hheld, htick.config_eq, hlayer] at hr
  cases hlast : input.closedCandles.getLast? with
  | none =>
      rw [hlast] at hr
      cases hr
  | some lastCandle =>
      rw [hlast] at hr
      dsimp only at hr
      split at hr
      · cases hr
      · obtain ⟨h', p', hh, hp, hentry', hhigh, hsaved, band, hlevel⟩ := readHeld_marks hentry
          hmarks' (htick.priced.closed _ (List.mem_of_getLast? hlast)) htick.priced.minutes hr
        have hclamp' := (clampMode_configForEntryLayer w.state.entryLayer).trans hclamp
        obtain ⟨hstop, hprofit⟩ := resolveStopLevel_marks hclamp'
          (atrStop_configForEntryLayer hatr w.state.entryLayer) hlevel
        have hgrown : LevelLe (markLevel (configForEntryLayer config w.state.entryLayer) e h p)
            (markLevel (configForEntryLayer config w.state.entryLayer) e h' p') :=
          markLevel_mono he hmarks.floor hh hp
        refine ⟨h', p', hh, hp, hentry', hhigh, hsaved, hprofit, hstop.trans ?_⟩
        refine pinned_of_le hclamp' (markLevel_finite he (hmarks.floor.trans hp)) ?_ ?_
        · intro y hy
          obtain ⟨params, stopPrice, hshown, hprice, hread⟩ := previousStop_shown htick.shown hy
          rw [hy, ← hread]
          exact (hsent params stopPrice hshown hprice).trans hgrown
        · intro y hy
          obtain ⟨params, stopPrice, -, -, hread⟩ := previousStop_shown htick.shown hy
          exact decOrNull_finite hread

/-- Without the volatility leg no tick tests a lower level than the one before it, and a tick that
carries its exit out, or had no mark to save, leaves none to lower it. -/
theorem kept_step (he : 0 < e) (hentry : entryPrice.toDecimal = some (num e))
    (hclamp : config.clampMode = false) (hatr : config.atrStop = none)
    (hkept : Kept config entryPrice e w) (htick : HeldTick config entryPrice w input w') :
    LevelLe w.level w'.level ∧ (input.Calm entryPrice → Kept config entryPrice e w') := by
  obtain ⟨h, p, hmarks, hlevel, hsent⟩ := hkept.marks
  have hreading := @heldReading_level config e entryPrice w w' input he hentry hclamp hatr hkept
    htick h p hmarks hsent
  obtain ⟨quantity, hstate⟩ := htick.state_eq
  have hheld : input.state.entryPrice = some entryPrice := by
    rw [hstate]
    exact hkept.open_
  have hlayer : input.state.entryLayer = w.state.entryLayer := by rw [hstate]
  obtain ⟨out, hout, hopen, rfl⟩ := htick.answered
  dsimp only
  rcases open_tick_cases hheld hout hopen with ⟨hnext, hdecisions, hasks⟩ |
    ⟨r, kept, hr, hkeep, hnext, hdecisions⟩
  · -- nothing is saved, so the marks are those the tick started from
    have hsent' : (lastSent out.decisions).or w.sent = w.sent := by
      rw [hdecisions]
      rfl
    have hmarks' : Marks (configForEntryLayer config out.nextState.entryLayer) entryPrice
        out.nextState e h p := by
      rw [hnext, hstate]
      exact ⟨hmarks.high, hmarks.floor, hmarks.profit⟩
    have hlayer' : out.nextState.entryLayer = w.state.entryLayer := by rw [hnext, hstate]
    rw [hsent']
    cases hr : input.heldReading with
    | none =>
        exact ⟨LevelLe.refl _, fun _ => ⟨hopen, h, p, hmarks', by rwa [hlayer'], by rwa [hlayer']⟩⟩
    | some r =>
        obtain ⟨h', p', hh, hp, hentry', hhigh, -, hprofit, hstop⟩ := hreading hr
        refine ⟨?_, fun hcalm => ⟨hopen, h, p, hmarks', ?_, by rwa [hlayer']⟩⟩
        · rw [Option.map_some, Option.getD_some, hstop]
          exact hlevel.trans (markLevel_mono he hmarks.floor hh hp)
        · obtain ⟨hsameHigh, hsameProfit⟩ := hcalm r hr (hasks r hr)
          rw [hhigh, hstate] at hsameHigh
          have hhigh' : h' = h := by
            rw [show ({ w.state with heldQuantity := quantity } : MomentumState).highSinceEntry =
              w.state.highSinceEntry from rfl, hmarks.high] at hsameHigh
            exact num.inj hsameHigh
          rw [Option.map_some, Option.getD_some, hstop, hlayer', hhigh', markLevel_congr h]
          · exact LevelLe.refl _
          · intro hleg
            have hmark := hsameProfit (num p') (by
              rw [hprofit, markOf]
              obtain ⟨cfg, hcfg⟩ := Option.isSome_iff_exists.mp hleg
              rw [hcfg]
              rfl)
            rw [hentry', hstate] at hmark
            exact num.inj (hmark.trans (hmarks.profit hleg))
  · obtain ⟨h', p', hh, hp, hentry', hhigh, hsaved, hprofit, hstop⟩ := hreading hr
    obtain ⟨-, hkeptLayer, hkeptHigh, hkeptProfit, -⟩ := keepPosition_parts hkeep
    have hlayer' : out.nextState.entryLayer = w.state.entryLayer := by
      rw [hnext, hkeptLayer, hlayer]
    have hlevel' : LevelLe w.level r.level.stop := by
      rw [hstop]
      exact hlevel.trans (markLevel_mono he hmarks.floor hh hp)
    rw [hr]
    refine ⟨hlevel', fun _ => ⟨hopen, h', p', ?_, ?_, ?_⟩⟩
    · rw [hlayer', hnext]
      refine ⟨by rw [hkeptHigh]; exact hsaved, hmarks.floor.trans hp, ?_⟩
      intro hleg
      obtain ⟨cfg, hcfg⟩ := Option.isSome_iff_exists.mp hleg
      rw [hkeptProfit, hprofit, markOf, hcfg]
      simp only [Option.map_some]
      have hread : decOrNull (some (.printed (num p'))) = some (num p') := rfl
      rw [hread, Option.getD_some, max_num, max_eq_left (hmarks.floor.trans hp)]
    · dsimp only
      rw [hlayer', Option.map_some, Option.getD_some, hstop]
      exact LevelLe.refl _
    · intro params stopPrice hlast hprice
      dsimp only at hlast hlayer' ⊢
      rw [hlayer']
      rcases Option.or_eq_some_iff.mp hlast with hnew | ⟨-, hold⟩
      · obtain ⟨d, hd, intent, horder⟩ := order_of_lastSent hnew
        rw [hdecisions] at hd
        intro z hz
        have hdec : stopPrice.toDecimal = some (num z) := (decOrNull_eq_some.mp hz).1
        obtain ⟨tick, x, -, htickPos, hx, rfl⟩ := keepPosition_stopPrice hkeep hd horder hprice hdec
        exact ⟨x, hstop.symm.trans hx, floorTo_le htickPos x⟩
      · exact (hsent params stopPrice hold hprice).trans (markLevel_mono he hmarks.floor hh hp)

theorem resolveStopLevel_pinned {entryPrice effectiveHigh : Decimal} {profitHigh : Option Decimal}
    {candles : List Candle} {band : StopBandContext} {previous : Option Decimal}
    {level : StopResolution}
    (h : resolveStopLevel config entryPrice effectiveHigh profitHigh candles band previous =
      some level) : ∃ stop, level.stop = pinned config previous stop := by
  obtain ⟨chandelier, -, h⟩ := Option.bind_eq_some_iff.mp h
  obtain rfl := Option.some.inj h
  exact ⟨_, rfl⟩

/-- With or without the volatility leg, no tick tests a level below the priced stop that rests. -/
theorem resting_le_level (hclamp : input.config.clampMode = false) {r : HeldReading}
    (hr : input.heldReading = some r) {x y : ℚ} (hx : r.level.stop = some (num x))
    (hy : previousStop (restingProtectiveStop input) = some (num y)) : y ≤ x := by
  unfold MomentumInput.heldReading at hr
  split at hr
  · split at hr
    · cases hr
    · obtain ⟨entry, high, profit, band, hlevel⟩ := readHeld_level hr
      obtain ⟨stop, hstop⟩ := resolveStopLevel_pinned hlevel
      rw [hstop, hy] at hx
      exact pinned_ge_resting ((clampMode_configForEntryLayer _).trans hclamp) hx
  · cases hr

/-- A priced stop that is sent rests on the tick grid, and no lower than the one it replaces does on
that grid. -/
theorem sent_ge_resting (hclamp : input.config.clampMode = false)
    (hheld : input.state.entryPrice = some entryPrice) {out : MomentumOutput}
    (hout : computeTick input = some out) (hopen : out.nextState.entryPrice = some entryPrice)
    {d : Decision} {intent : OrderIntent} {order : OrderParams} {stopPrice : DecimalString} {z : ℚ}
    (hd : d ∈ out.decisions) (horder : d.order = some (intent, order))
    (hstop : order.stopPrice = some stopPrice) (hz : stopPrice.toDecimal = some (num z)) :
    ∃ tick : ℚ, parse input.market.symbolInfo.filters.tickSize = some (num tick) ∧ OnGrid tick z ∧
      ∀ y : ℚ, previousStop (restingProtectiveStop input) = some (num y) →
        floorTo tick y ≤ z ∧ (OnGrid tick y → y ≤ z) := by
  rcases open_tick_cases hheld hout hopen with ⟨-, hdecisions, -⟩ |
    ⟨r, kept, hr, hkeep, -, hdecisions⟩
  · rw [hdecisions] at hd
    obtain rfl := List.mem_singleton.mp hd
    cases horder
  · rw [hdecisions] at hd
    obtain ⟨tick, x, htick, hpos, hx, rfl⟩ := keepPosition_stopPrice hkeep hd horder hstop hz
    refine ⟨tick, htick, onGrid_floorTo tick x, ?_⟩
    intro y hy
    have hle : y ≤ x := resting_le_level hclamp hr hx hy
    exact ⟨floorTo_mono hpos hle, fun hgrid => hgrid.le_floorTo hpos hle⟩

/-- A body whose position no tick has looked at yet. -/
structure Opened (entryPrice : DecimalString) (w : Watch) : Prop where
  open_ : w.state.entryPrice = some entryPrice
  high : ∃ h : ℚ, (w.state.highSinceEntry.getD entryPrice).toDecimal = some (num h)
  unsent : w.sent = none
  untested : w.level = none

theorem kept_of_opened (e : ℚ) (h : Opened entryPrice w) : Kept config entryPrice e w := by
  obtain ⟨high, hhigh⟩ := h.high
  obtain ⟨q, hq⟩ : ∃ q : ℚ, (decOrNull w.state.profitHigh).getD (num e) = num q := by
    cases hd : decOrNull w.state.profitHigh with
    | none => exact ⟨e, rfl⟩
    | some d =>
        obtain ⟨q, rfl⟩ := decOrNull_finite hd
        exact ⟨q, rfl⟩
  refine ⟨h.open_, high, max q e, ⟨hhigh, le_max_right _ _, fun _ => by rw [hq, max_num]⟩, ?_, ?_⟩
  · intro x hx
    rw [h.untested] at hx
    cases hx
  · intro params stopPrice hsent
    rw [h.unsent] at hsent
    cases hsent

/-- A position is kept from its opening on, over ticks each of which carries its exit out or had no
mark to save. The next tick tests no lower level than the last one did, where the volatility leg is
off; with it or without, the level is not below our own priced stop that rests, and the trigger of
the order that replaces that stop is not below it as floored to the tick of now. -/
theorem exit_level_never_loosens {start : Watch} (he : 0 < e)
    (hentry : entryPrice.toDecimal = some (num e)) (hclamp : config.clampMode = false)
    (hstart : Opened entryPrice start)
    (hrun : Relation.ReflTransGen (fun w w' => ∃ input, HeldTick config entryPrice w input w' ∧
      (config.atrStop = none → input.Calm entryPrice)) start w)
    (htick : HeldTick config entryPrice w input w') :
    (config.atrStop = none → LevelLe w.level w'.level) ∧
      (∀ r x y, input.heldReading = some r → r.level.stop = some (num x) →
        previousStop (restingProtectiveStop input) = some (num y) → y ≤ x) ∧
      ∀ out d intent order stopPrice z, computeTick input = some out → d ∈ out.decisions →
        d.order = some (intent, order) → order.stopPrice = some stopPrice →
        stopPrice.toDecimal = some (num z) →
        ∃ tick : ℚ, parse input.market.symbolInfo.filters.tickSize = some (num tick) ∧
          OnGrid tick z ∧ ∀ y, previousStop (restingProtectiveStop input) = some (num y) →
            floorTo tick y ≤ z ∧ (OnGrid tick y → y ≤ z) := by
  have hopen : w.state.entryPrice = some entryPrice := by
    induction hrun with
    | refl => exact hstart.open_
    | tail _ hstep _ =>
        obtain ⟨_, hstep, -⟩ := hstep
        obtain ⟨out, -, hopen, rfl⟩ := hstep.answered
        exact hopen
  have hclamp' : input.config.clampMode = false := by rw [htick.config_eq, hclamp]
  refine ⟨?_, ?_, ?_⟩
  · intro hatr
    have hkept : Kept config entryPrice e w := by
      clear htick hopen hclamp'
      induction hrun with
      | refl => exact kept_of_opened e hstart
      | tail _ hstep ih =>
          obtain ⟨_, hstep, hcalm⟩ := hstep
          exact (kept_step he hentry hclamp hatr ih hstep).2 (hcalm hatr)
    exact (kept_step he hentry hclamp hatr hkept htick).1
  · intro r x y hr hx hy
    exact resting_le_level hclamp' hr hx hy
  · intro out d intent order stopPrice z hout hd horder hstop hz
    obtain ⟨quantity, hstate⟩ := htick.state_eq
    obtain ⟨out', hout', hopen', -⟩ := htick.answered
    obtain rfl := Option.some.inj (hout.symm.trans hout')
    have hheld : input.state.entryPrice = some entryPrice := by
      rw [hstate]
      exact hopen
    exact sent_ge_resting hclamp' hheld hout hopen' hd horder hstop hz

end Steps

/-! ### Two ticks -/

def barAt (closeTimeMs : ℤ) (close : String) : Candle where
  openTimeMs := closeTimeMs - 3599999
  closeTimeMs
  openPrice := close
  high := close
  low := close
  close
  volume := "1"
  isClosed := true

/-- A coin held since a hundred, with a fixed retrace of five percent. -/
def tickAfter (state : MomentumState) (candles : List Candle) (currentPrice : String) :
    MomentumInput where
  nowMs := 0
  profile := ⟨"p"⟩
  config := { defaultMomentumConfig with ema := ⟨1, 2⟩ }
  state
  market :=
    { symbol := "BTCUSDT"
      currentPrice
      candlesByInterval := fun interval => if interval = .h1 then some candles else none
      indicatorsByInterval := fun _ => none
      symbolInfo :=
        ⟨"BTCUSDT", "BTC", "USDT", ⟨"10", "0.01", "0.01", "0.01", "0.01", none, none⟩⟩ }
  account := ⟨fun _ => none, true, none⟩
  openOrders := []
  bundle := ⟨none⟩
  profileKv := none

def heldBody : MomentumState :=
  { initialMomentumState with entryPrice := some (.raw "100"), heldQuantity := some (.raw "1") }

def flatBars : List Candle := [barAt 1 "100", barAt 2 "100", barAt 3 "100"]

def firstTick : MomentumInput := tickAfter heldBody flatBars "100"

def firstOut : MomentumOutput := (computeTick firstTick).get (by decide +kernel)

def secondTick : MomentumInput := tickAfter firstOut.nextState (flatBars ++ [barAt 4 "120"]) "118"

def secondOut : MomentumOutput := (computeTick secondTick).get (by decide +kernel)

/-- The watch after a tick. -/
def watchAfter (w : Watch) (input : MomentumInput) (out : MomentumOutput) : Watch :=
  ⟨out.nextState, (lastSent out.decisions).or w.sent,
    (input.heldReading.map (·.level.stop)).getD w.level⟩

theorem heldTick_tickAfter {w : Watch} {candles : List Candle} {currentPrice : String}
    {out : MomentumOutput} (hpriced : ∀ c ∈ candles, Priced c)
    (hout : computeTick (tickAfter w.state candles currentPrice) = some out)
    (hopen : out.nextState.entryPrice = some (.raw "100")) :
    HeldTick firstTick.config (.raw "100") w (tickAfter w.state candles currentPrice)
      (watchAfter w (tickAfter w.state candles currentPrice) out) where
  config_eq := rfl
  state_eq := ⟨w.state.heldQuantity, rfl⟩
  shown := .nothing
  priced := ⟨fun c hc => hpriced c (List.mem_of_mem_filter hc), fun c hc => by cases hc⟩
  answered := ⟨out, hout, hopen, rfl⟩

theorem priced_barAt {close : String} {q : ℚ} (hclose : parse close = some (num q)) (at_ : ℤ) :
    Priced (barAt at_ close) := ⟨q, hclose⟩

theorem second_level_no_lower : ∃ y : ℚ,
    (secondTick.heldReading.map (·.level.stop)).getD none = some (num y) ∧ 95 ≤ y := by
  have hflat : ∀ c ∈ flatBars, Priced c := by
    intro c hc
    simp only [flatBars, List.mem_cons, List.not_mem_nil, or_false] at hc
    rcases hc with rfl | rfl | rfl <;> exact priced_barAt (q := 100) (by decide +kernel) _
  have hfirst := @heldTick_tickAfter ⟨heldBody, none, none⟩ flatBars "100" firstOut hflat
    (Option.some_get _).symm (by decide +kernel)
  have hsecond := @heldTick_tickAfter (watchAfter ⟨heldBody, none, none⟩ firstTick firstOut)
    (flatBars ++ [barAt 4 "120"]) "118" secondOut (by
      intro c hc
      rcases List.mem_append.mp hc with hc | hc
      · exact hflat c hc
      · obtain rfl := List.mem_singleton.mp hc
        exact priced_barAt (q := 120) (by decide +kernel) _)
    (Option.some_get _).symm (by decide +kernel)
  have hcalm : firstTick.Calm (.raw "100") := by
    rintro r hr ⟨x, reason, hx, hreason⟩
    have hquiet : (do
        let x ← crossing firstTick.config firstTick.closedCandles
        let r ← firstTick.heldReading
        exitReason firstTick.forceSell x.crossDown r) = none := by decide +kernel
    rw [hx, hr] at hquiet
    exact absurd (hreason.symm.trans hquiet) (Option.some_ne_none reason)
  obtain ⟨hlevel, -⟩ :=
    @exit_level_never_loosens firstTick.config 100 _ _ _ _ ⟨heldBody, none, none⟩
    (by norm_num) (by decide +kernel) rfl ⟨rfl, ⟨100, by decide +kernel⟩, rfl, rfl⟩
    (.single ⟨_, hfirst, fun _ => hcalm⟩) hsecond
  obtain ⟨y, hy, hle⟩ := hlevel rfl 95 (by decide +kernel)
  refine ⟨y, ?_, hle⟩
  have hread : secondTick.heldReading.isSome = true := by decide +kernel
  obtain ⟨r, hr⟩ := Option.isSome_iff_exists.mp hread
  have hstop : (secondTick.heldReading.map (·.level.stop)).getD
      (watchAfter ⟨heldBody, none, none⟩ firstTick firstOut).level = some (num y) := hy
  rw [hr] at hstop ⊢
  exact hstop

end TradingBot.Momentum

import TradingBot.Momentum.Sizing

/-!
# What the first stop can lose

The size of an entry is divided by the distance of the first stop, and the stop
itself is placed by another function with its own fallbacks. The two agree on
the tick after the entry: a distance that resolves is the distance the hard leg
rests at, the profit leg is not armed yet, and the floor and the resting trigger
only raise the level. What remains is that every later clamp shrinks the budget.
-/

namespace TradingBot.Momentum

open Decimal Grid

variable {config : MomentumConfig} {account : AccountSnapshot} {quoteAsset price : String}
  {candles : List Candle} {p : ℚ}

/-! ### Coerced settings -/

theorem unitFraction_eq_some {raw : Option Decimal} {d : Decimal} (h : unitFraction raw = some d) :
    ∃ δ : ℚ, d = num δ ∧ raw = some (num δ) ∧ 0 < δ ∧ δ < 1 := by
  obtain ⟨hraw, hunit⟩ := Option.filter_eq_some_iff.mp h
  rw [Bool.and_eq_true] at hunit
  cases d with
  | nan => cases hunit.1
  | inf s => cases s <;> simp_all [gt, lt]
  | num δ => exact ⟨δ, rfl, hraw, by simpa using hunit.1, by simpa using hunit.2⟩

theorem unitFraction_num {δ : ℚ} (hpos : 0 < δ) (hlt : δ < 1) :
    unitFraction (some (num δ)) = some (num δ) :=
  Option.filter_eq_some_iff.mpr ⟨rfl, by simp [hpos, hlt]⟩

/-- A coerced decimal is positive, or the infinity the setting spells out. -/
theorem coerceDec_pos (raw : Option String) {fallback : ℚ} (hfallback : 0 < fallback) :
    coerceDec raw fallback = inf false ∨ ∃ q : ℚ, coerceDec raw fallback = num q ∧ 0 < q := by
  unfold coerceDec
  split
  · next d _ =>
      split
      · next hpos =>
          cases d with
          | nan => cases hpos
          | inf s =>
              cases s with
              | false => exact .inl rfl
              | true => cases hpos
          | num q => exact .inr ⟨q, rfl, by simpa using hpos⟩
      · exact .inr ⟨fallback, rfl, hfallback⟩
  · exact .inr ⟨fallback, rfl, hfallback⟩

/-- The risked fraction is a real one whatever the setting says. -/
theorem riskPct_unit (raw : Option String) : ∃ r : ℚ, riskPct raw = num r ∧ 0 < r ∧ r < 1 := by
  unfold riskPct
  dsimp only
  split
  · next hlt =>
      rcases coerceDec_pos raw (by norm_num : (0 : ℚ) < 1 / 100) with hinf | ⟨q, hq, hpos⟩
      · rw [hinf] at hlt
        cases hlt
      · rw [hq] at hlt ⊢
        exact ⟨q, rfl, hpos, by simpa using hlt⟩
  · exact ⟨1 / 100, rfl, by norm_num, by norm_num⟩

/-! ### The distance of the first stop -/

/-- The distance of the first stop as the settings define it: the volatility-scaled one where that
is on, else the fixed one. -/
def InitialDistance (config : MomentumConfig) (candles : List Candle) (p δ : ℚ) : Prop :=
  match config.atrStop with
  | none => decOrNull (config.trailingStopPct.map .raw) = some (num δ)
  | some cfg =>
      atrStopPeriod cfg.period + 1 ≤ candles.length ∧
        ∃ range, atr candles (atrStopPeriod cfg.period) = some range ∧
          ((atrStopMultiple cfg.multiple).mul range).div (num p) = num δ

theorem initialStopDistanceFraction_eq_some (hp : 0 < p) {d : Decimal}
    (h : initialStopDistanceFraction config candles (num p) = some (some d)) :
    ∃ δ : ℚ, d = num δ ∧ 0 < δ ∧ δ < 1 ∧ InitialDistance config candles p δ := by
  unfold initialStopDistanceFraction at h
  rw [if_neg (by simp [hp])] at h
  unfold InitialDistance
  cases hatr : config.atrStop with
  | none =>
      rw [hatr] at h
      obtain ⟨δ, hd, hraw, hunit⟩ := unitFraction_eq_some (Option.some.inj h)
      exact ⟨δ, hd, hunit.1, hunit.2, hraw⟩
  | some cfg =>
      simp only [hatr] at h ⊢
      split at h
      · cases h
      · next hlength =>
          obtain ⟨range, hrange, h⟩ := Option.bind_eq_some_iff.mp h
          obtain ⟨δ, hd, hraw, hunit⟩ := unitFraction_eq_some (Option.some.inj h)
          exact ⟨δ, hd, hunit.1, hunit.2, not_lt.mp hlength, range, hrange, Option.some.inj hraw⟩

theorem initialStopDistanceFraction_eq_none (hp : 0 < p)
    (h : initialStopDistanceFraction config candles (num p) = some none) :
    ¬∃ δ : ℚ, 0 < δ ∧ δ < 1 ∧ InitialDistance config candles p δ := by
  rintro ⟨δ, hpos, hlt, hdistance⟩
  unfold initialStopDistanceFraction at h
  rw [if_neg (by simp [hp])] at h
  unfold InitialDistance at hdistance
  cases hatr : config.atrStop with
  | none =>
      simp only [hatr] at h hdistance
      rw [hdistance, unitFraction_num hpos hlt] at h
      cases h
  | some cfg =>
      simp only [hatr] at h hdistance
      obtain ⟨hlength, range, hrange, hδ⟩ := hdistance
      rw [if_neg (not_lt.mpr hlength), hrange] at h
      simp only [Option.bind_eq_bind, Option.bind_some, hδ, unitFraction_num hpos hlt] at h
      cases h

/-! ### The first stop -/

/-- A quotient that is a number has a dividend that is one. -/
theorem num_of_div {x : Decimal} {p δ : ℚ} (hp : 0 < p) (h : x.div (num p) = num δ) :
    x = num (δ * p) := by
  cases x with
  | nan => cases h
  | inf s => cases h
  | num q =>
      rw [div_num hp.ne'] at h
      injection h with h
      rw [← h, div_mul_cancel₀ q hp.ne']

/-- The hard leg of a position just opened rests at the distance its size was divided by. -/
theorem hardLeg_of_initialDistance (hp : 0 < p) {δ : ℚ} (hpos : 0 < δ) (hlt : δ < 1)
    (h : InitialDistance config candles p δ) :
    ∃ chandelier, atrTrailingStopPrice config candles (num p) = some chandelier ∧
      chandelier.or (fixedStop config (num p)) = some (num (p * (1 - δ))) := by
  unfold InitialDistance at h
  unfold atrTrailingStopPrice
  cases hatr : config.atrStop with
  | none =>
      simp only [hatr] at h
      refine ⟨none, rfl, ?_⟩
      unfold fixedStop
      rw [h, unitFraction_num hpos hlt]
      simp
  | some cfg =>
      simp only [hatr] at h
      obtain ⟨hlength, range, hrange, hδ⟩ := h
      have hproduct := num_of_div hp hδ
      have hstop : p - δ * p = p * (1 - δ) := by ring
      have hlevel : 0 < p * (1 - δ) := mul_pos hp (sub_pos.mpr hlt)
      refine ⟨some (num (p * (1 - δ))), ?_, rfl⟩
      simp only [if_neg (not_lt.mpr hlength), hrange, Option.bind_eq_bind, Option.bind_some,
        hproduct, sub_num, hstop, gt_num, hlevel, decide_true, if_true]
      rfl

/-- The profit leg of a position just opened is not armed: its activation lies above the entry. -/
theorem profitStop_at_entry (hp : 0 < p) {profitHigh : Option Decimal}
    (hhigh : profitHigh = none ∨ profitHigh = some (num p)) :
    profitStop config (num p) profitHigh = none := by
  rcases hhigh with rfl | rfl
  · rfl
  · have hleg : profitLegDistance config (some (num p)) (num p) = none := by
      unfold profitLegDistance
      cases config.profitLeg with
      | none => rfl
      | some cfg =>
          dsimp only
          rw [if_neg]
          rcases coerceDec_pos cfg.activationPct (by norm_num : (0 : ℚ) < 5 / 100) with
            hinf | ⟨a, ha, hpos⟩
          · simp [activationPct, hinf, add, mul, hp.ne', gte, lte, negative, not_lt.mpr hp.le]
          · simp only [activationPct, ha, add_num, mul_num, gte_num, decide_eq_true_eq, not_le]
            nlinarith [mul_pos hp hpos]
    unfold profitStop
    rw [hleg]

theorem clampStopToExchangeFloor_ge (stop : ℚ) (reference : String)
    (band : Option PercentPriceBySideFilter) {limitOffset : ℚ} (hoffset : 0 < limitOffset) :
    ∃ level : ℚ, (clampStopToExchangeFloor (num stop) reference band (num limitOffset)).1 =
      num level ∧ stop ≤ level := by
  unfold clampStopToExchangeFloor
  split
  · exact ⟨stop, rfl, le_rfl⟩
  · split
    · exact ⟨stop, rfl, le_rfl⟩
    · split
      · next ref down href hdown =>
          obtain ⟨-, href⟩ := Option.filter_eq_some_iff.mp href
          obtain ⟨-, hdown⟩ := Option.filter_eq_some_iff.mp hdown
          rw [Bool.and_eq_true] at href hdown
          obtain ⟨r, rfl⟩ := isFinite_iff.mp href.1
          obtain ⟨d, rfl⟩ := isFinite_iff.mp hdown.1
          dsimp only
          rw [mul_num, div_num hoffset.ne']
          unfold exchangeFloorMargin
          rw [mul_num]
          split
          · exact ⟨stop, rfl, le_rfl⟩
          · next hraised =>
              simp only [Bool.or_eq_true, not_or, gte_num, decide_eq_true_eq, not_le] at hraised
              exact ⟨_, rfl, hraised.2.le⟩
      · exact ⟨stop, rfl, le_rfl⟩

theorem floored_ge {stop : ℚ} (bandContext : StopBandContext) :
    ∃ level : ℚ, (floored config bandContext (some (num stop))).1 = some (num level) ∧
      stop ≤ level := by
  unfold floored
  split
  · exact ⟨stop, rfl, le_rfl⟩
  · dsimp only
    split
    · next limitOffset level hoffset hlevel =>
        cases hlevel
        obtain ⟨o, rfl, -, hpos, -⟩ := unitFraction_eq_some hoffset
        obtain ⟨level, hlevel, hle⟩ := clampStopToExchangeFloor_ge stop
          (bandContext.reference.getD "") bandContext.band hpos
        exact ⟨level, congrArg some hlevel, hle⟩
    · exact ⟨stop, rfl, le_rfl⟩

theorem pinned_ge {stop : ℚ} (previousStop : Option ℚ) :
    ∃ level : ℚ, pinned config (previousStop.map num) (some (num stop)) = some (num level) ∧
      stop ≤ level := by
  cases previousStop with
  | none => exact ⟨stop, rfl, le_rfl⟩
  | some previous =>
      unfold pinned
      dsimp only [Option.map_some]
      split
      · exact ⟨stop, rfl, le_rfl⟩
      · exact ⟨max stop previous, by rw [max_num], le_max_left _ _⟩

/-- The first stop of a position rests no further below its
entry than the distance it was sized by. -/
theorem resolveStopLevel_at_entry (hp : 0 < p) {δ : ℚ} (hpos : 0 < δ) (hlt : δ < 1)
    (h : InitialDistance config candles p δ) {profitHigh : Option Decimal}
    (hhigh : profitHigh = none ∨ profitHigh = some (num p)) (bandContext : StopBandContext)
    (previousStop : Option ℚ) :
    ∃ s : ℚ, (resolveStopLevel config (num p) (num p) profitHigh candles bandContext
      (previousStop.map num)).bind (·.stop) = some (num s) ∧ p * (1 - δ) ≤ s := by
  obtain ⟨chandelier, hchandelier, hhard⟩ := hardLeg_of_initialDistance hp hpos hlt h
  obtain ⟨level, hlevel, hle⟩ := @floored_ge config (p * (1 - δ)) bandContext
  obtain ⟨s, hs, hles⟩ := @pinned_ge config level previousStop
  refine ⟨s, ?_, hle.trans hles⟩
  unfold resolveStopLevel
  rw [hchandelier]
  show pinned config _ (floored config bandContext
    (widerLeg (chandelier.or (fixedStop config (num p)))
      (profitStop config (num p) profitHigh))).1 = _
  rw [hhard, profitStop_at_entry hp hhigh]
  show pinned config _ (floored config bandContext (some (num (p * (1 - δ))))).1 = _
  rw [hlevel, hs]

/-! ### The size -/

/-- The wallet's line of an asset holds exact numbers. -/
def ExactLine (account : AccountSnapshot) (asset : String) : Prop :=
  ∀ bal, account.balances asset = some bal →
    ∃ free locked : ℚ, bal.free = num free ∧ bal.locked = num locked

theorem deployedQuote_num (account : AccountSnapshot) :
    ∃ deployed : ℚ, deployedQuote account = num deployed := by
  unfold deployedQuote
  cases hdeployed : decOrNull (account.deployedQuoteAcrossProfiles.map .raw) with
  | none => exact ⟨0, rfl⟩
  | some d => exact decOrNull_finite hdeployed

theorem accountEquity_num (hwallet : ExactLine account quoteAsset) :
    ∃ equity : ℚ, accountEquity account quoteAsset = num equity := by
  obtain ⟨deployed, hdeployed⟩ := deployedQuote_num account
  unfold deployedQuote at hdeployed
  unfold accountEquity
  dsimp only
  rw [hdeployed]
  cases hline : account.balances quoteAsset with
  | none => exact ⟨_, rfl⟩
  | some bal =>
      obtain ⟨free, locked, hfree, hlocked⟩ := hwallet bal hline
      exact ⟨free + locked + deployed, by simp [hfree, hlocked]⟩

theorem freeCash_num (hwallet : ExactLine account quoteAsset) :
    ∃ free : ℚ, freeCash account quoteAsset = num free := by
  unfold freeCash
  cases hline : account.balances quoteAsset with
  | none => exact ⟨0, rfl⟩
  | some bal =>
      obtain ⟨free, locked, hfree, -⟩ := hwallet bal hline
      dsimp only
      split
      · exact ⟨free, hfree⟩
      · exact ⟨0, rfl⟩

theorem desiredBudget_num {equity : ℚ} {desired : Decimal}
    (h : desiredBudget config (num equity) = some desired) : ∃ d : ℚ, desired = num d := by
  unfold desiredBudget at h
  split at h
  · cases h
  · split at h
    · exact decOrNull_finite h
    · obtain ⟨share, hshare, rfl⟩ := Option.map_eq_some_iff.mp h
      obtain ⟨s, rfl⟩ := decOrNull_finite hshare
      exact ⟨s * equity, rfl⟩

theorem riskCapped_eq_some {risk : MomentumRiskSizing} {desired equity r : ℚ} {capped : Decimal}
    (hon : config.riskCap = some risk) (hprice : parse price = some (num p)) (hp : 0 < p)
    (hrisk : riskPct risk.riskPct = num r)
    (h : riskCapped config (num equity) (num desired) candles price = some (some capped)) :
    ∃ δ : ℚ, 0 < δ ∧ δ < 1 ∧ InitialDistance config candles p δ ∧
      capped = num (min desired (r * equity / δ)) := by
  unfold riskCapped entryStopDistance at h
  rw [hon, decOrNull_raw hprice] at h
  obtain ⟨distance, hdistance, h⟩ := Option.bind_eq_some_iff.mp h
  cases distance with
  | none => cases h
  | some distance =>
      obtain ⟨δ, rfl, hpos, hlt, hinitial⟩ := initialStopDistanceFraction_eq_some hp hdistance
      refine ⟨δ, hpos, hlt, hinitial, ?_⟩
      have hcapped : (num desired).min (((riskPct risk.riskPct).mul (num equity)).div (num δ)) =
          capped := Option.some.inj (Option.some.inj h)
      rw [hrisk, mul_num, div_num hpos.ne', min_num] at hcapped
      exact hcapped.symm

theorem withinAccountCap_eq_ok {deployed equity b : ℚ} {budget : Decimal}
    (hdeployed : deployedQuote account = num deployed)
    (h : withinAccountCap config account (num equity) (num b) = .ok budget) :
    ∃ b' : ℚ, budget = num b' ∧ b' ≤ b ∧
      ∀ share : ℚ, config.capShare = some (num share) → deployed + b' ≤ share * equity := by
  unfold withinAccountCap at h
  cases hcap : config.capShare with
  | none =>
      rw [hcap] at h
      cases h
      exact ⟨b, rfl, le_rfl, nofun⟩
  | some share =>
      have hshare : ∃ s : ℚ, share = num s := by
        unfold MomentumConfig.capShare at hcap
        split at hcap
        · exact decOrNull_finite hcap
        · cases hcap
      obtain ⟨s, rfl⟩ := hshare
      simp only [hcap, mul_num, hdeployed, sub_num, min_num] at h
      split at h
      · cases h
      · cases h
        refine ⟨_, rfl, min_le_left _ _, ?_⟩
        intro share hshare
        cases hshare
        linarith [min_le_right b (s * equity - deployed)]

theorem resolveEntryBudget_eq_ok {risk : MomentumRiskSizing} {free deployed equity r : ℚ}
    {budget : DecimalString} (hon : config.riskCap = some risk)
    (hprice : parse price = some (num p)) (hp : 0 < p)
    (hfree : freeCash account quoteAsset = num free)
    (hdeployed : deployedQuote account = num deployed)
    (hequity : accountEquity account quoteAsset = num equity)
    (hrisk : riskPct risk.riskPct = num r)
    (h : resolveEntryBudget config account quoteAsset price candles = some (.ok budget)) :
    ∃ b δ : ℚ, budget = .printed (num b) ∧ 0 < δ ∧ δ < 1 ∧ InitialDistance config candles p δ ∧
      b ≤ 995 / 1000 * free ∧
      (∀ share : ℚ, config.capShare = some (num share) → deployed + b ≤ share * equity) ∧
      (0 < b → b * δ ≤ r * equity) := by
  unfold resolveEntryBudget at h
  dsimp only at h
  rw [hequity] at h
  split at h
  · cases h
  · next desired hdesired =>
      obtain ⟨d, rfl⟩ := desiredBudget_num hdesired
      obtain ⟨capped, hcapped, h⟩ := Option.bind_eq_some_iff.mp h
      cases capped with
      | none => cases h
      | some capped =>
          obtain ⟨δ, hpos, hlt, hinitial, rfl⟩ := riskCapped_eq_some hon hprice hp hrisk hcapped
          simp only [max_num, hfree, freeCashCushion, mul_num, min_num] at h
          cases hwithin : withinAccountCap config account (num equity)
              (num (min (max (min d (r * equity / δ)) 0) (free * (995 / 1000)))) with
          | error skip =>
              rw [hwithin] at h
              cases h
          | ok within =>
              rw [hwithin] at h
              cases h
              obtain ⟨b, rfl, hle, hcap⟩ := withinAccountCap_eq_ok hdeployed hwithin
              refine ⟨b, δ, rfl, hpos, hlt, hinitial, ?_, hcap, ?_⟩
              · exact (hle.trans (min_le_right _ _)).trans_eq (mul_comm _ _)
              · intro hbpos
                rcases le_max_iff.mp (hle.trans (min_le_left _ _)) with hrisked | hzero
                · exact (le_div_iff₀ hpos).mp (hrisked.trans (min_le_right _ _))
                · exact absurd hzero (not_le.mpr hbpos)

/-! ### Sized entries -/

/-- A layer moves the multiple of the volatility-scaled stop and nothing else. -/
theorem configForEntryLayer_eq (config : MomentumConfig) (layer : Option EntryLayer) :
    ∃ stop, configForEntryLayer config layer = { config with atrTrailingStop := stop } := by
  unfold configForEntryLayer
  split
  · exact ⟨_, rfl⟩
  · exact ⟨_, rfl⟩

/-- The layer a position is stamped with resolves the stop its size was measured with. -/
theorem configForEntryLayer_stamped {layer : Option EntryLayer} :
    configForEntryLayer config (stampedLayer config layer) = configForEntryLayer config layer := by
  unfold stampedLayer
  cases layer with
  | some layer => rfl
  | none =>
      rw [Option.none_or]
      split
      · rfl
      · rfl

/-- A size within the risk cap: what it spends, what the account then has deployed, and what its
first stop can lose, wherever the next tick rests it. -/
structure RiskBounded (config : MomentumConfig) (layer : Option EntryLayer)
    (account : AccountSnapshot) (quoteAsset : String) (candles : List Candle)
    (risk : MomentumRiskSizing) (p q : ℚ) : Prop where
  cash : ∃ free : ℚ, freeCash account quoteAsset = num free ∧ q * p ≤ 995 / 1000 * free
  reserve : ∀ share : ℚ, config.capShare = some (num share) →
    ∃ deployed equity : ℚ, deployedQuote account = num deployed ∧
      accountEquity account quoteAsset = num equity ∧ deployed + q * p ≤ share * equity
  loss : ∃ r equity : ℚ, riskPct risk.riskPct = num r ∧
    accountEquity account quoteAsset = num equity ∧
    ∀ profitHigh : Option Decimal, profitHigh = none ∨ profitHigh = some (num p) →
      ∀ (bandContext : StopBandContext) (previousStop : Option ℚ),
        ∃ s : ℚ, (resolveStopLevel (configForEntryLayer config (stampedLayer config layer)) (num p)
          (num p) profitHigh candles bandContext (previousStop.map num)).bind (·.stop) =
            some (num s) ∧ q * (p - s) ≤ r * equity

theorem riskBounded_of_sizeEntry {risk : MomentumRiskSizing} {layer : Option EntryLayer}
    {filters : SymbolFilters} {sized : DecimalString} (hon : config.riskCap = some risk)
    (hprice : parse price = some (num p)) (hp : 0 < p) (hwallet : ExactLine account quoteAsset)
    (h : sizeEntry (configForEntryLayer config layer) account quoteAsset price filters candles =
      some (.ok sized)) :
    ∃ q : ℚ, sized.toDecimal = some (num q) ∧ 0 < q ∧
      RiskBounded config layer account quoteAsset candles risk p q := by
  obtain ⟨stop, hlayer⟩ := configForEntryLayer_eq config layer
  have honLayer : (configForEntryLayer config layer).riskCap = some risk := by
    rw [hlayer]
    exact hon
  have hshareLayer : (configForEntryLayer config layer).capShare = config.capShare := by
    rw [hlayer]
    rfl
  obtain ⟨free, hfree⟩ := freeCash_num hwallet
  obtain ⟨deployed, hdeployed⟩ := deployedQuote_num account
  obtain ⟨equity, hequity⟩ := accountEquity_num hwallet
  obtain ⟨r, hrisk, -, -⟩ := riskPct_unit risk.riskPct
  obtain ⟨outcome, hbudget, h⟩ := Option.bind_eq_some_iff.mp h
  cases outcome with
  | error skip => cases h
  | ok budget =>
      obtain ⟨b, δ, rfl, hpos, hlt, hinitial, hcash, hcap, hloss⟩ :=
        resolveEntryBudget_eq_ok honLayer hprice hp hfree hdeployed hequity hrisk hbudget
      obtain ⟨floor, -, h⟩ := Option.bind_eq_some_iff.mp h
      have hsized : computeEntryQuantity (.printed (num b)) price filters floor = .ok sized := by
        cases hquantity : computeEntryQuantity (.printed (num b)) price filters floor with
        | error skip =>
            rw [hquantity] at h
            cases h
        | ok quantity =>
            rw [hquantity] at h
            cases h
            rfl
      obtain ⟨parsed, price', budget', hparsed, hprice', hbudget', -, hfinal⟩ :=
        computeEntryQuantity_eq_ok hsized
      obtain rfl := Option.some.inj (hprice.symm.trans hprice')
      cases hbudget'
      rw [div_num hp.ne'] at hfinal
      obtain ⟨step, hstep, -, rfl, hq⟩ := toDecimal_of_finalise hparsed hfinal
      have hspent : floorTo step (b / p) * p ≤ b := (le_div_iff₀ hp).mp (floorTo_le hstep _)
      have hb : 0 < b := (mul_pos hq hp).trans_le hspent
      refine ⟨_, rfl, hq, ⟨free, hfree, hspent.trans hcash⟩, ?_, r, equity, hrisk, hequity, ?_⟩
      · intro share hshare
        exact ⟨deployed, equity, hdeployed, hequity,
          (add_le_add_right hspent deployed).trans (hcap share (hshareLayer.trans hshare))⟩
      · intro profitHigh hhigh bandContext previousStop
        obtain ⟨s, hs, hlow⟩ :=
          resolveStopLevel_at_entry hp hpos hlt hinitial hhigh bandContext previousStop
        rw [configForEntryLayer_stamped]
        refine ⟨s, hs, ?_⟩
        calc floorTo step (b / p) * (p - s) ≤ floorTo step (b / p) * (p * δ) :=
              mul_le_mul_of_nonneg_left (by linarith) hq.le
          _ = floorTo step (b / p) * p * δ := (mul_assoc _ _ _).symm
          _ ≤ b * δ := mul_le_mul_of_nonneg_right hspent hpos.le
          _ ≤ r * equity := hloss hb

theorem withinAccountCap_eq_error {equity budget : Decimal} {skip : EntrySizingSkip}
    (h : withinAccountCap config account equity budget = .error skip) : skip = .capReached := by
  unfold withinAccountCap at h
  split at h
  · cases h
  · dsimp only at h
    split at h
    · cases h
      rfl
    · cases h

/-- Neither the reserve cap nor the exchange's filters refuse for risk. -/
theorem ne_riskSizingUnavailable {equity budget : Decimal} {filters : SymbolFilters}
    {outcome : Except EntryBlockerReason DecimalString}
    (h : (do
      match (withinAccountCap config account equity budget).map DecimalString.printed with
      | .error skip => return .error (.ofSizingSkip skip)
      | .ok budget =>
          let stop ← entryStopFloor config candles price
          return (computeEntryQuantity budget price filters stop).mapError .ofSizeSkip) =
        some outcome) :
    outcome ≠ .error .riskSizingUnavailable := by
  rintro rfl
  cases hwithin : withinAccountCap config account equity budget with
  | error skip =>
      rw [hwithin, withinAccountCap_eq_error hwithin] at h
      cases h
  | ok within =>
      rw [hwithin] at h
      obtain ⟨floor, -, h⟩ := Option.bind_eq_some_iff.mp h
      have hskip := Option.some.inj h
      cases hquantity : computeEntryQuantity (.printed within) price filters floor with
      | error skip =>
          rw [hquantity] at hskip
          cases skip <;> cases hskip
      | ok quantity =>
          rw [hquantity] at hskip
          cases hskip

/-- An entry is refused for risk exactly when its first stop has no distance to divide by. -/
theorem sizeEntry_riskSizingUnavailable {risk : MomentumRiskSizing} {filters : SymbolFilters}
    {outcome : Except EntryBlockerReason DecimalString} (hon : config.riskCap = some risk)
    (hprice : parse price = some (num p)) (hp : 0 < p)
    (h : sizeEntry config account quoteAsset price filters candles = some outcome) :
    outcome = .error .riskSizingUnavailable ↔
      desiredBudget config (accountEquity account quoteAsset) ≠ none ∧
        ¬∃ δ : ℚ, 0 < δ ∧ δ < 1 ∧ InitialDistance config candles p δ := by
  obtain ⟨budget, hbudget, h⟩ := Option.bind_eq_some_iff.mp h
  unfold resolveEntryBudget at hbudget
  dsimp only at hbudget
  split at hbudget
  · next hdesired =>
      cases hbudget
      cases h
      simp [EntryBlockerReason.ofSizingSkip, hdesired]
  · next desired hdesired =>
      obtain ⟨capped, hcapped, hbudget⟩ := Option.bind_eq_some_iff.mp hbudget
      unfold riskCapped entryStopDistance at hcapped
      rw [hon, decOrNull_raw hprice] at hcapped
      obtain ⟨distance, hdistance, hcapped⟩ := Option.bind_eq_some_iff.mp hcapped
      cases distance with
      | none =>
          cases hcapped
          cases hbudget
          cases h
          simp [EntryBlockerReason.ofSizingSkip, hdesired,
            initialStopDistanceFraction_eq_none hp hdistance]
      | some distance =>
          obtain ⟨δ, -, hpos, hlt, hinitial⟩ := initialStopDistanceFraction_eq_some hp hdistance
          have hresolves : ∃ δ : ℚ, 0 < δ ∧ δ < 1 ∧ InitialDistance config candles p δ :=
            ⟨δ, hpos, hlt, hinitial⟩
          cases hcapped
          cases hbudget
          simp [ne_riskSizingUnavailable h, hresolves]

/-- The risk cap bounds what the first stop of an entry can lose, for every layer and either kind of
stop, and an entry is refused for risk exactly when that stop has no distance. -/
theorem risk_cap_bounds_first_stop {risk : MomentumRiskSizing} {layer : Option EntryLayer}
    {filters : SymbolFilters} {outcome : Except EntryBlockerReason DecimalString}
    (hon : config.riskCap = some risk) (hprice : parse price = some (num p)) (hp : 0 < p)
    (hwallet : ExactLine account quoteAsset)
    (h : sizeEntry (configForEntryLayer config layer) account quoteAsset price filters candles =
      some outcome) :
    (∀ sized, outcome = .ok sized → ∃ q : ℚ, sized.toDecimal = some (num q) ∧ 0 < q ∧
      RiskBounded config layer account quoteAsset candles risk p q) ∧
    (outcome = .error .riskSizingUnavailable ↔
      desiredBudget config (accountEquity account quoteAsset) ≠ none ∧
        ¬∃ δ : ℚ, 0 < δ ∧ δ < 1 ∧
          InitialDistance (configForEntryLayer config layer) candles p δ) := by
  refine ⟨?_, ?_⟩
  · rintro sized rfl
    exact riskBounded_of_sizeEntry hon hprice hp hwallet h
  · obtain ⟨stop, hlayer⟩ := configForEntryLayer_eq config layer
    have honLayer : (configForEntryLayer config layer).riskCap = some risk := by
      rw [hlayer]
      exact hon
    have hdesired : desiredBudget (configForEntryLayer config layer)
        (accountEquity account quoteAsset) =
          desiredBudget config (accountEquity account quoteAsset) := by
      rw [hlayer]
      rfl
    rw [← hdesired]
    exact sizeEntry_riskSizingUnavailable honLayer hprice hp h

/-- Two hundredths of the account at risk, under a stop of
three ranges or of two below the trend. -/
def riskSizedConfig : MomentumConfig :=
  { defaultMomentumConfig with
    entrySizing := some ⟨.fixed, some "5000", none⟩
    accountCap := some ⟨.percentOfAccount, some "0.5"⟩
    atrTrailingStop := some ⟨true, some 2, some "3"⟩
    belowTrendBreakout := some ⟨true, none, some "2", none⟩
    riskSizing := some ⟨true, some "0.02"⟩ }

def thousandQuote : AccountSnapshot where
  balances := fun asset => if asset = "USDT" then some ⟨num 1000, num 0⟩ else none
  readable := true
  deployedQuoteAcrossProfiles := some "100"

def hourlyBar (hour : ℤ) : Candle :=
  ⟨hour * 3600000, (hour + 1) * 3600000 - 1, "100", "101", "99", "100", "10", true⟩

def lotFilters : SymbolFilters := ⟨"10", "0.01", "0.01", "0.01", "0.01", none, none⟩

theorem exactLine_thousandQuote : ExactLine thousandQuote "USDT" := by
  intro bal hbal
  cases hbal
  exact ⟨1000, 0, rfl, rfl⟩

theorem below_trend_entry_within_risk :
    ∃ q : ℚ, (DecimalString.printed (num (9 / 2))).toDecimal = some (num q) ∧ 0 < q ∧
      RiskBounded riskSizedConfig (some .belowTrend) thousandQuote "USDT"
        [hourlyBar 0, hourlyBar 1, hourlyBar 2] ⟨true, some "0.02"⟩ 100 q :=
  (risk_cap_bounds_first_stop rfl (by decide +kernel : parse "100" = some (num 100)) (by norm_num)
    exactLine_thousandQuote
    (by decide +kernel : sizeEntry (configForEntryLayer riskSizedConfig (some .belowTrend))
      thousandQuote "USDT" "100" lotFilters [hourlyBar 0, hourlyBar 1, hourlyBar 2] =
        some (.ok (.printed (num (9 / 2)))))).1 _ rfl

end TradingBot.Momentum

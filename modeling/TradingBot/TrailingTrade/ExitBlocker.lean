import TradingBot.TrailingTrade.StopLoss

/-!
# What the exit blocker says of other prices

The ladder notes a candidate wherever a rung waits for the price, and the
blocker names the first of them. Where it names none, or none but the
stop-loss, no rung that the price sets off is left: at another price the ladder
sells on the stop-loss or not at all. The average daily reading, the swing and
the bar counts a rung depends on come from the closed candles, which another
price leaves as they are.
-/

namespace TradingBot.TrailingTrade

open Decimal EarlyExit

/-- The tick at another price, all else as it was. -/
def TTInput.repriced (input : TTInput) (price : String) : TTInput :=
  { input with market := { input.market with currentPrice := price } }

def SellGateResult.blocker? : SellGateResult → Option ExitBlocker
  | .emit _ => none
  | .bumpHigh _ blocker => some blocker
  | .skip _ blocker => some blocker
  | .noop blocker => some blocker

/-- No protective stop lifts the stop-loss onto the band. -/
def SellConfig.Unclamped (sell : SellConfig) : Prop :=
  ∀ ps, sell.protectiveStop = some ps → ps.enabled = true → ps.onBandBlock ≠ some .clamp

/-- Nothing but the stop-loss and the bar counts is left to wait for. -/
structure Unarmed (cand : ExitCandidates) : Prop where
  configInvalid : cand.configInvalid = none
  trailHighRaised : cand.trailHighRaised = none
  armedTrail : cand.armedTrail = none
  awaitingArm : cand.awaitingArm = none
  breakEvenFloor : cand.breakEvenFloor = none
  breakEvenArm : cand.breakEvenArm = none

/-! ### The reason of a blocker -/

theorem reason_tail {reason : ExitBlockerReason} {head : Option ExitBlocker}
    {rest : List (Option ExitBlocker)} {last : ExitBlocker}
    (h : (((head :: rest).findSome? id).getD last).reason = reason)
    (hhead : ∀ blocker, head = some blocker → blocker.reason ≠ reason) :
    head = none ∧ ((rest.findSome? id).getD last).reason = reason := by
  cases head with
  | none => exact ⟨rfl, h⟩
  | some blocker => exact absurd h (hhead blocker rfl)

theorem reason_map {ctx : ExitBlockerContext} {α : Type} {candidate : Option α}
    {own reason : ExitBlockerReason} {threshold : α → Detail} (hreason : own ≠ reason) :
    ∀ blocker, candidate.map (fun a => exitBlockerAt ctx own (threshold a)) = some blocker →
      blocker.reason ≠ reason := by
  intro blocker hblocker
  obtain ⟨a, -, rfl⟩ := Option.map_eq_some_iff.mp hblocker
  exact hreason

theorem resolveExitBlocker_unarmed {ctx : ExitBlockerContext} {reason : ExitBlockerReason}
    (h : (resolveExitBlocker ctx).reason = reason)
    (hreason : reason = .stopLossNotHit ∨ reason = .noExitConfigured) :
    ctx.candidates.unsellable = none ∧ Unarmed ctx.candidates ∧
      (reason = .noExitConfigured → ctx.candidates.stopLoss = none) ∧
      (reason = .stopLossNotHit → ∃ stop, ctx.candidates.stopLoss = some stop ∧
        (resolveExitBlocker ctx).detail.lookup "stopPrice" = some (.decimal (.printed stop))) := by
  have hother : ∀ own, own ≠ ExitBlockerReason.stopLossNotHit →
      own ≠ ExitBlockerReason.noExitConfigured → own ≠ reason := by
    rintro own hstop hnone rfl
    exact hreason.elim hstop hnone
  unfold resolveExitBlocker at h ⊢
  dsimp only at h ⊢
  split at h
  · exact absurd h (hother .sellDisabled (by decide) (by decide))
  split at h
  · exact absurd h (hother .exitOrderOpen (by decide) (by decide))
  next hdisabled hopen =>
    obtain ⟨hunsellable, h⟩ := reason_tail h (reason_map (hother _ (by decide) (by decide)))
    obtain ⟨hinvalid, h⟩ := reason_tail h (reason_map (hother _ (by decide) (by decide)))
    obtain ⟨hinfeasible, h⟩ := reason_tail h (reason_map (hother _ (by decide) (by decide)))
    obtain ⟨hraised, h⟩ := reason_tail h (reason_map (hother _ (by decide) (by decide)))
    obtain ⟨htrail, h⟩ := reason_tail h (by
      intro blocker hblocker
      obtain ⟨trail, -, rfl⟩ := Option.map_eq_some_iff.mp hblocker
      cases trail.source
      · exact hother .atrTrailAbovePrice (by decide) (by decide)
      · exact hother .trailAbovePrice (by decide) (by decide))
    obtain ⟨hawaiting, h⟩ := reason_tail h (reason_map (hother _ (by decide) (by decide)))
    obtain ⟨hfloor, h⟩ := reason_tail h (reason_map (hother _ (by decide) (by decide)))
    obtain ⟨harm, h⟩ := reason_tail h (reason_map (hother _ (by decide) (by decide)))
    simp only [hdisabled, hopen, hunsellable, hinvalid, hinfeasible, hraised, htrail, hawaiting,
      hfloor, harm, Bool.false_eq_true, ↓reduceIte, List.findSome?_cons, id]
    simp only [Option.map_eq_none_iff] at hunsellable hinvalid hraised htrail hawaiting hfloor harm
    refine ⟨hunsellable, ⟨hinvalid, hraised, htrail, hawaiting, hfloor, harm⟩, ?_, ?_⟩
    · rintro rfl
      exact Option.map_eq_none_iff.mp (reason_tail h (reason_map (by decide))).1
    · rintro rfl
      cases hstop : ctx.candidates.stopLoss with
      | some stop => exact ⟨stop, rfl, by simp [exitBlockerAt]⟩
      | none =>
          rw [hstop] at h
          -- past the stop-loss only a bar count or nothing at all is left to name
          cases htime : ctx.candidates.timeStop <;> simp [htime, exitBlockerAt] at h

/-! ### The rungs at another price -/

/-- Whatever the rung does, it does not sell. -/
abbrev NeverSells (rung : Rung) : Prop :=
  RungStops (fun result => ∀ emission, result ≠ .emit emission) rung

/-- A ladder stops with a sale or with something for the blocker to name. -/
def Explained (stopped : LadderResult × ExitCandidates) : Prop :=
  match stopped.1 with
  | .emit _ => True
  | .skip _ skipReason field => skipReason.isSome = true ∨ field.isSome = true ∨ ¬Unarmed stopped.2
  | _ => ¬Unarmed stopped.2

namespace LadderContext

/-- The context of the same position at another price. -/
def repriced (ctx : LadderContext) (priceStr : String) (price ratchetPrice : Decimal) :
    LadderContext :=
  { ctx with input := ctx.input.repriced priceStr, price, ratchetPrice }

/-- A rung that leaves nothing to wait for sells at no other price. -/
def Silent (rung : LadderContext → ExitCandidates → Rung) : Prop :=
  ∀ (ctx : LadderContext) (cand : ExitCandidates),
    Ends Explained
      (fun noted => noted.stopLoss = cand.stopLoss ∧
        (Unarmed noted → Unarmed cand ∧ ∀ priceStr price ratchetPrice other,
          NeverSells (rung (ctx.repriced priceStr price ratchetPrice) other)))
      (rung ctx cand)

theorem Silent.bind {first second : LadderContext → ExitCandidates → Rung} (hfirst : Silent first)
    (hsecond : Silent second) : Silent fun ctx cand => first ctx cand >>= second ctx := by
  intro ctx cand
  refine (hfirst ctx cand).bind fun mid hmid => (hsecond ctx mid).mono (fun _ h => h) ?_
  rintro noted ⟨hkeeps, hnoted⟩
  refine ⟨hkeeps.trans hmid.1, fun hunarmed => ?_⟩
  obtain ⟨hunarmed, hlater⟩ := hnoted hunarmed
  obtain ⟨hunarmed, hearlier⟩ := hmid.2 hunarmed
  refine ⟨hunarmed, fun priceStr price ratchetPrice other => ?_⟩
  exact (hearlier _ _ _ _).bind fun other _ => hlater _ _ _ _

variable (ctx : LadderContext)

theorem parseFieldOrSkip_explained (value field : String) (cand : ExitCandidates) :
    Ends Explained (fun d => parse value = some d) (parseFieldOrSkip value field cand) := by
  unfold parseFieldOrSkip
  split
  · next d hd => exact hd
  · exact Or.inr (Or.inl rfl)

theorem parseFieldOrSkip_neverSells (value field : String) (cand : ExitCandidates) :
    Ends (fun stopped => ∀ emission, stopped.1 ≠ .emit emission) (fun d => parse value = some d)
      (parseFieldOrSkip value field cand) := by
  unfold parseFieldOrSkip
  split
  · next d hd => exact hd
  · exact fun _ h => nomatch h

theorem exit_explained (reason : SellEmissionReason) (messagePrefix seed : String)
    (extraLog : Detail) (cand : ExitCandidates) (Q : ExitCandidates → Prop) :
    Ends Explained Q (ctx.exit reason messagePrefix seed extraLog cand) := by
  unfold exit
  cases sellEmissionOrSkip ctx.input ctx.state reason messagePrefix seed extraLog with
  | ok emission => trivial
  | error refused => exact Or.inl rfl

theorem bumpHigh_explained (high : Decimal) (cand : ExitCandidates) (Q : ExitCandidates → Prop) :
    Ends Explained Q (ctx.bumpHigh high cand) :=
  fun h => nomatch h.trailHighRaised

/-- A break-even stop that is off, or that the trail has taken over from, does not sell. -/
theorem breakEvenRung_neverSells
    (h : ctx.sell.breakEven.any (·.enabled) = false ∨ ctx.state.highSinceBuy.isSome = true)
    (cand : ExitCandidates) : NeverSells (ctx.breakEvenRung cand) := by
  unfold breakEvenRung
  split
  · trivial
  · next breakEven hsome =>
      split
      · trivial
      · next henabled =>
          have hhigh : ctx.state.highSinceBuy.isSome = true := by
            refine h.resolve_left fun hoff => henabled ?_
            simpa [hsome] using hoff
          obtain ⟨high, hhigh⟩ := Option.isSome_iff_exists.mp hhigh
          refine (parseFieldOrSkip_neverSells _ _ cand).bind fun floor _ => ?_
          dsimp only
          split
          · unfold breakEvenArmedRung
            rw [hhigh]
            trivial
          · refine (parseFieldOrSkip_neverSells _ _ _).bind fun armAt _ => ?_
            split
            · dsimp only
              split
              · exact fun _ h => nomatch h
              · trivial
            · trivial

theorem breakEvenArmedRung_ends (floorPrice : Option Decimal) (cand : ExitCandidates) :
    Ends Explained
      (fun noted => noted.stopLoss = cand.stopLoss ∧
        (Unarmed noted → noted = cand ∧ (floorPrice = none ∨ ctx.state.highSinceBuy.isSome = true)))
      (ctx.breakEvenArmedRung floorPrice cand) := by
  unfold breakEvenArmedRung
  cases hhigh : ctx.state.highSinceBuy with
  | some high => exact ⟨rfl, fun _ => ⟨rfl, .inr rfl⟩⟩
  | none =>
      cases floorPrice with
      | none => exact ⟨rfl, fun _ => ⟨rfl, .inl rfl⟩⟩
      | some floorPrice =>
          dsimp only
          split
          · exact exit_explained ctx _ _ _ _ _ _
          · exact ⟨rfl, fun h => nomatch h.breakEvenFloor⟩

theorem breakEvenArmRung_ends (breakEven : BreakEven) {floorPrice : Option Decimal}
    {cand : ExitCandidates} (hfloor : floorPrice = none → cand.configInvalid ≠ none) :
    Ends Explained (fun noted => noted.stopLoss = cand.stopLoss ∧ ¬Unarmed noted)
      (ctx.breakEvenArmRung breakEven floorPrice cand) := by
  refine (parseFieldOrSkip_explained _ _ cand).bind fun armAt _ => ?_
  dsimp only
  split
  · split
    · cases floorPrice with
      | none => exact fun h => hfloor rfl h.configInvalid
      | some floorPrice => exact fun h => nomatch h.breakEvenFloor
    · exact ⟨rfl, fun h => nomatch h.breakEvenArm⟩
  · exact ⟨rfl, fun h => nomatch h.configInvalid⟩

theorem breakEvenRung_silent : Silent breakEvenRung := by
  intro ctx cand
  unfold breakEvenRung
  split
  · next hnone =>
      refine ⟨rfl, fun h => ⟨h, fun _ _ _ _ => breakEvenRung_neverSells _ (.inl ?_) _⟩⟩
      exact congrArg (Option.any _) hnone
  · next breakEven hsome =>
      split
      · next hdisabled =>
          refine ⟨rfl, fun h => ⟨h, fun _ _ _ _ => breakEvenRung_neverSells _ (.inl ?_) _⟩⟩
          exact (congrArg (Option.any _) hsome).trans (by simpa using hdisabled)
      · refine (parseFieldOrSkip_explained _ _ cand).bind fun floor _ => ?_
        dsimp only
        generalize
          (if floor.gte (num 1) = true then some (ctx.lbp.mul floor) else none) = floorPrice
        -- without a floor the fault is noted before either half of the stop runs
        generalize hnoted : (if floorPrice.isNone = true then
          { cand with configInvalid := some "breakEven.floorPercentage" } else cand) = noted
        have hstop : noted.stopLoss = cand.stopLoss := by
          rw [← hnoted]
          cases floorPrice <;> rfl
        have hfault : floorPrice = none → noted.configInvalid ≠ none := by
          rintro rfl
          rw [← hnoted]
          exact Option.some_ne_none _
        have hclean : Unarmed noted → noted = cand := by
          intro h
          cases floorPrice with
          | none => exact absurd h.configInvalid (hfault rfl)
          | some floorPrice => exact hnoted.symm
        split
        · refine (breakEvenArmedRung_ends ctx _ noted).mono (fun _ h => h) ?_
          rintro after ⟨hkeeps, hafter⟩
          refine ⟨hkeeps.trans hstop, fun h => ?_⟩
          obtain ⟨rfl, hidle⟩ := hafter h
          refine ⟨hclean h ▸ h, fun _ _ _ _ => breakEvenRung_neverSells _ (.inr ?_) _⟩
          exact hidle.resolve_left fun hnone => hfault hnone h.configInvalid
        · refine (breakEvenArmRung_ends ctx breakEven hfault).mono (fun _ h => h) ?_
          rintro after ⟨hkeeps, hafter⟩
          exact ⟨hkeeps.trans hstop, fun h => absurd h hafter⟩

theorem fromEntryRung_neverSells (cand : ExitCandidates) : NeverSells (ctx.fromEntryRung cand) := by
  unfold fromEntryRung
  split
  · trivial
  · split
    · exact fun _ h => nomatch h
    · split
      · trivial
      · split
        · exact fun _ h => nomatch h
        · trivial

theorem fromEntryRung_silent : Silent fromEntryRung := by
  intro ctx cand
  have hsame : cand.stopLoss = cand.stopLoss ∧
      (Unarmed cand → Unarmed cand ∧ ∀ priceStr price ratchetPrice other,
        NeverSells ((ctx.repriced priceStr price ratchetPrice).fromEntryRung other)) :=
    ⟨rfl, fun h => ⟨h, fun _ _ _ _ => fromEntryRung_neverSells _ _⟩⟩
  unfold fromEntryRung
  split
  · exact hsame
  · split
    · exact bumpHigh_explained ctx _ _ _
    · split
      · exact hsame
      · split
        · exact bumpHigh_explained ctx _ _ _
        · exact hsame

theorem triggerRung_neverSells (cand : ExitCandidates) : NeverSells (ctx.triggerRung cand) := by
  unfold triggerRung
  split
  · trivial
  · refine (parseFieldOrSkip_neverSells _ _ cand).bind fun trigger _ => ?_
    dsimp only
    split
    · split
      · exact fun _ h => nomatch h
      · split
        · exact fun _ h => nomatch h
        · trivial
    · trivial

/-- The trigger sets off no sale, and an arm it waits for is named. -/
theorem triggerRung_silent : Silent triggerRung := by
  intro ctx cand
  unfold triggerRung
  split
  · exact ⟨rfl, fun h => ⟨h, fun _ _ _ _ => triggerRung_neverSells _ _⟩⟩
  · refine (parseFieldOrSkip_explained _ _ cand).bind fun trigger _ => ?_
    dsimp only
    generalize ctx.lbp.mul (trigger.max ((num 1).add (roundTripFeeFraction ctx.input.config))) =
      armPrice
    generalize hnoted : (if (trigger.gt (num 1) && ctx.state.highSinceBuy.isNone &&
      ctx.price.lt armPrice && ctx.trailConfigured) = true then
        { cand with awaitingArm := some armPrice } else cand) = noted
    have hkept : noted.stopLoss = cand.stopLoss ∧
        (Unarmed noted → Unarmed cand ∧ ∀ priceStr price ratchetPrice other,
          NeverSells ((ctx.repriced priceStr price ratchetPrice).triggerRung other)) := by
      rw [← hnoted]
      split
      · exact ⟨rfl, fun h => nomatch h.awaitingArm⟩
      · exact ⟨rfl, fun h => ⟨h, fun _ _ _ _ => triggerRung_neverSells _ _⟩⟩
    split
    · split
      · exact bumpHigh_explained ctx _ _ _
      · split
        · exact bumpHigh_explained ctx _ _ _
        · exact hkept
    · exact hkept

/-- The reading of the daily candles quotes the price and does not depend on it. -/
theorem classifyRegime_repriced (input : TTInput) (price : String) (params : RegimeParams) :
    (classifyRegime (input.repriced price).market params).regime =
      (classifyRegime input.market params).regime := by
  unfold classifyRegime classifyRegimeFromDaily
  dsimp only [TTInput.repriced]
  generalize (if params.period > params.confirmBars then params.period
    else params.confirmBars) = need
  split_ifs
  · rfl
  · generalize closes _ = closes
    generalize movingAverage _ _ _ = average
    cases closes with
    | none => rfl
    | some closes =>
        cases average with
        | none => rfl
        | some maValue => dsimp only; split_ifs <;> rfl

theorem bullHoldMultiplier_repriced (config : TTConfig) (input : TTInput) (price : String) :
    bullHoldMultiplier config (input.repriced price).market =
      bullHoldMultiplier config input.market := by
  unfold bullHoldMultiplier
  simp only [classifyRegime_repriced]

/-- The swing-sized trail has no level to sell at: it is off or cold, or the swing is wider than
the high. -/
def AtrTrailIdle : Prop :=
  ∀ highStr high atrValue, ctx.state.highSinceBuy = some highStr →
    (ctx.sell.atrTrailing.enabled = true ∨
      (bullHoldMultiplier ctx.input.config ctx.input.market).isSome = true) →
    highStr.toDecimal = some high →
    computeAtr ctx.input.market ctx.input.config.candleInterval ctx.sell.atrTrailing.period =
      some atrValue →
    ∃ mult, selectTrailMultiplier ctx.sell.atrTrailing
        (bullHoldMultiplier ctx.input.config ctx.input.market) = some mult ∧
      (high.sub (mult.mul atrValue)).gt (num 0) = false

theorem AtrTrailIdle.repriced {ctx : LadderContext} (h : ctx.AtrTrailIdle) (priceStr : String)
    (price ratchetPrice : Decimal) : (ctx.repriced priceStr price ratchetPrice).AtrTrailIdle := by
  intro highStr high atrValue hhigh hon hread hatr
  have hbull : bullHoldMultiplier ctx.input.config (ctx.input.repriced priceStr).market =
      bullHoldMultiplier ctx.input.config ctx.input.market := bullHoldMultiplier_repriced _ _ _
  simp only [LadderContext.repriced, TTInput.repriced] at hon hbull ⊢
  rw [hbull] at hon ⊢
  exact h highStr high atrValue hhigh hon hread hatr

theorem atrTrailRung_of_idle (h : ctx.AtrTrailIdle) (cand : ExitCandidates) :
    ctx.atrTrailRung cand = .ok cand := by
  unfold atrTrailRung
  dsimp only
  split
  · rfl
  · next highStr hhigh =>
      split
      · rfl
      · next hon =>
          split
          · next high atrValue hread hatr =>
              have hon : ctx.sell.atrTrailing.enabled = true ∨
                  (bullHoldMultiplier ctx.input.config ctx.input.market).isSome = true := by
                simpa [or_iff_not_imp_left, Option.isSome_iff_ne_none] using hon
              obtain ⟨mult, hmult, hlevel⟩ := h highStr high atrValue hhigh hon hread hatr
              rw [hmult]
              dsimp only
              rw [hlevel]
              rfl
          · rfl

theorem atrTrailRung_ends (cand : ExitCandidates) :
    Ends Explained (fun noted => noted = cand ∧ ctx.AtrTrailIdle) (ctx.atrTrailRung cand) := by
  unfold atrTrailRung
  dsimp only
  split
  · next hflat => exact ⟨rfl, fun _ _ _ hhigh => nomatch hflat.symm.trans hhigh⟩
  · next highStr hhigh =>
      split
      · next hoff =>
          refine ⟨rfl, fun _ _ _ _ hon => ?_⟩
          simp_all
      · split
        · next high atrValue hread hatr =>
            split
            · exact Or.inr (Or.inr fun h => nomatch h.configInvalid)
            · next mult hmult =>
                split
                · next hlevel =>
                    refine ⟨rfl, fun highStr' high' atrValue' hhigh' _ hread' hatr' => ?_⟩
                    cases hhigh.symm.trans hhigh'
                    cases hread.symm.trans hread'
                    cases hatr.symm.trans hatr'
                    exact ⟨mult, hmult, by simpa using hlevel⟩
                · split
                  · exact exit_explained ctx _ _ _ _ _ _
                  · exact fun h => nomatch h.armedTrail
        · next hcold =>
            refine ⟨rfl, fun highStr' high atrValue hhigh' _ hread hatr => ?_⟩
            cases hhigh.symm.trans hhigh'
            exact absurd hatr (hcold high atrValue hread)

theorem atrTrailRung_silent : Silent atrTrailRung := by
  intro ctx cand
  refine (atrTrailRung_ends ctx cand).mono (fun _ h => h) ?_
  rintro noted ⟨rfl, hidle⟩
  refine ⟨rfl, fun h => ⟨h, fun priceStr price ratchetPrice other => ?_⟩⟩
  rw [atrTrailRung_of_idle _ (hidle.repriced priceStr price ratchetPrice)]
  trivial

/-- The fixed trail is off, or set outside the range it sells in. -/
def FixedTrailIdle : Prop :=
  ctx.state.highSinceBuy = none ∨ isCapArmed ctx.sell.trailingStopPercentage = false ∨
    ∃ trailing, parse ctx.sell.trailingStopPercentage = some trailing ∧
      (trailing.gt (num 0) && trailing.lte (num 1)) = false

theorem fixedTrailRung_neverSells (h : ctx.FixedTrailIdle) (cand : ExitCandidates) :
    NeverSells (ctx.fixedTrailRung cand) := by
  unfold fixedTrailRung
  split
  · trivial
  · next highStr hhigh =>
      split
      · trivial
      · next hon =>
          split
          · exact fun _ h => nomatch h
          · refine (parseFieldOrSkip_neverSells _ _ cand).bind fun trailing htrailing => ?_
            split
            · next hrange =>
                rcases h with hflat | hoff | ⟨trailing', htrailing', hout⟩
                · cases hhigh.symm.trans hflat
                · exact absurd hoff (by simpa using hon)
                · cases htrailing.symm.trans htrailing'
                  exact absurd hrange (by simp only [hout, Bool.false_eq_true, not_false_eq_true])
            · trivial

theorem fixedTrailRung_ends (cand : ExitCandidates) :
    Ends Explained
      (fun noted => noted.stopLoss = cand.stopLoss ∧
        (Unarmed noted → noted = cand ∧ ctx.FixedTrailIdle))
      (ctx.fixedTrailRung cand) := by
  unfold fixedTrailRung
  split
  · next hflat => exact ⟨rfl, fun _ => ⟨rfl, .inl hflat⟩⟩
  · split
    · next hoff => exact ⟨rfl, fun _ => ⟨rfl, .inr (.inl (by simpa using hoff))⟩⟩
    · split
      · exact Or.inr (Or.inr fun h => nomatch h.configInvalid)
      · refine (parseFieldOrSkip_explained _ _ cand).bind fun trailing htrailing => ?_
        split
        · dsimp only
          split
          · exact exit_explained ctx _ _ _ _ _ _
          · exact ⟨rfl, fun h => nomatch h.armedTrail⟩
        · next hrange =>
            exact ⟨rfl, fun _ => ⟨rfl, .inr (.inr ⟨trailing, htrailing, by simpa using hrange⟩)⟩⟩

theorem fixedTrailRung_silent : Silent fixedTrailRung := by
  intro ctx cand
  refine (fixedTrailRung_ends ctx cand).mono (fun _ h => h) ?_
  rintro noted ⟨hkeeps, hnoted⟩
  refine ⟨hkeeps, fun h => ?_⟩
  obtain ⟨rfl, hidle⟩ := hnoted h
  refine ⟨h, fun priceStr price ratchetPrice other => ?_⟩
  exact fixedTrailRung_neverSells (ctx.repriced priceStr price ratchetPrice) hidle other

/-- A time stop that is off or has candles left to wait for. -/
def TimeStopIdle (applies : Bool) (bars : ℕ) : Prop :=
  ∀ entryAtMs, ctx.state.entryAtMs = some entryAtMs → (!applies || bars = 0) = false →
    ¬closedBarsSinceEntry ctx.input.market ctx.input.config.candleInterval entryAtMs ≥ bars

theorem timeStopRung_neverSells {applies : Bool} {bars : ℕ} (h : ctx.TimeStopIdle applies bars)
    (reason : SellEmissionReason) (messagePrefix : String) (cand : ExitCandidates) :
    NeverSells (ctx.timeStopRung applies bars reason messagePrefix cand) := by
  unfold timeStopRung
  split
  · trivial
  · next entryAtMs hentry =>
      split
      · trivial
      · next happlies =>
          dsimp only
          rw [if_neg (h entryAtMs hentry (by simpa using happlies))]
          trivial

theorem timeStopRung_ends (applies : Bool) (bars : ℕ) (reason : SellEmissionReason)
    (messagePrefix : String) (cand : ExitCandidates) :
    Ends Explained
      (fun noted => noted.stopLoss = cand.stopLoss ∧ (Unarmed noted → Unarmed cand) ∧
        ctx.TimeStopIdle applies bars)
      (ctx.timeStopRung applies bars reason messagePrefix cand) := by
  unfold timeStopRung
  split
  · next hnone => exact ⟨rfl, id, fun _ hentry => nomatch hnone.symm.trans hentry⟩
  · next entryAtMs hentry =>
      split
      · next hoff => exact ⟨rfl, id, fun _ _ hon => nomatch hoff.symm.trans hon⟩
      · dsimp only
        split
        · exact exit_explained ctx _ _ _ _ _ _
        · next hpending =>
            refine ⟨rfl, fun h => ⟨h.1, h.2, h.3, h.4, h.5, h.6⟩, fun _ hentry' _ => ?_⟩
            cases hentry.symm.trans hentry'
            exact hpending

theorem timeStopRung_silent {applies : LadderContext → Bool} {bars : LadderContext → ℕ}
    (happlies : ∀ ctx priceStr price ratchetPrice,
      applies (repriced ctx priceStr price ratchetPrice) = applies ctx)
    (hbars : ∀ ctx priceStr price ratchetPrice,
      bars (repriced ctx priceStr price ratchetPrice) = bars ctx)
    (reason : SellEmissionReason) (messagePrefix : String) :
    Silent fun ctx cand => ctx.timeStopRung (applies ctx) (bars ctx) reason messagePrefix cand := by
  intro ctx cand
  refine (timeStopRung_ends ctx _ _ reason messagePrefix cand).mono (fun _ h => h) ?_
  rintro noted ⟨hkeeps, hunarmed, hidle⟩
  refine ⟨hkeeps, fun h => ⟨hunarmed h, fun priceStr price ratchetPrice other => ?_⟩⟩
  dsimp only
  rw [happlies, hbars]
  exact timeStopRung_neverSells (ctx.repriced priceStr price ratchetPrice) hidle _ _ other

/-- Below the stop-loss nothing is left that another price would set off, unless it was named. -/
theorem lowerRungs_silent : Silent lowerRungs :=
  breakEvenRung_silent.bind <| fromEntryRung_silent.bind <| triggerRung_silent.bind <|
    atrTrailRung_silent.bind <| fixedTrailRung_silent.bind <|
      (timeStopRung_silent (fun _ _ _ _ => rfl) (fun _ _ _ _ => rfl) _ _).bind <|
        timeStopRung_silent (fun _ _ _ _ => rfl) (fun _ _ _ _ => rfl) _ _

end LadderContext

/-! ### The ladder at another price -/

variable {input : TTInput} {state : TTState}

/-- The context the ladder judges a readable position in. -/
def ladderContext (input : TTInput) (state : TTState) (lbpStr : DecimalString)
    (lbp price : Decimal) : LadderContext :=
  { input, state, lbpStr, lbp, price
    ratchetPrice := (latestClosedClose input.market input.config.candleInterval).getD price }

/-- Without a positive cost basis the ladder has nothing to judge. -/
theorem runSellLadder_noBasis
    (hbasis : ∀ lbp, safeDecimal state.avgEntryPrice = some lbp → lbp.lte (num 0) = true)
    (cand : ExitCandidates) :
    (∀ emission, (runSellLadder input state cand).1 ≠ .emit emission) ∧
      (runSellLadder input state cand).2 = cand := by
  unfold runSellLadder
  dsimp only
  split
  · exact ⟨fun _ h => (nomatch h), rfl⟩
  · next lbpStr havg =>
      split
      · exact ⟨fun _ h => (nomatch h), rfl⟩
      · exact ⟨fun _ h => (nomatch h), rfl⟩
      · next lbp price' hlbp _ =>
          have hnone : lbp.lte (num 0) = true := hbasis lbp (by rw [havg]; exact hlbp)
          rw [hnone]
          exact ⟨fun _ h => (nomatch h), rfl⟩

theorem runSellLadder_readable {lbpStr : DecimalString} {lbp price : Decimal}
    (havg : state.avgEntryPrice = some lbpStr) (hlbp : lbpStr.toDecimal = some lbp)
    (hpos : lbp.lte (num 0) = false) (hprice : parse input.market.currentPrice = some price)
    (hprice_pos : price.lte (num 0) = false) (cand : ExitCandidates) :
    runSellLadder input state cand =
      match (ladderContext input state lbpStr lbp price).stopLossRung cand >>=
          (ladderContext input state lbpStr lbp price).lowerRungs with
      | .error stopped => stopped
      | .ok noted => (.noop, noted) := by
  simp only [runSellLadder, havg, hlbp, hprice, hpos, hprice_pos, Bool.or_self, Bool.false_eq_true,
    ↓reduceIte]
  rfl

/-- What the gate hands to the blocker of a ladder that did not sell. -/
def reported (stopped : LadderResult × ExitCandidates) : ExitCandidates :=
  match stopped.1 with
  | .skip _ skipReason field =>
      { stopped.2 with
        unsellable := skipReason.or stopped.2.unsellable
        configInvalid := field.or stopped.2.configInvalid }
  | _ => stopped.2

@[simp] theorem reported_stopLoss (stopped : LadderResult × ExitCandidates) :
    (reported stopped).stopLoss = stopped.2.stopLoss := by
  unfold reported
  split <;> rfl

theorem evaluateSellGate_blocker {blocker : ExitBlocker}
    (h : (evaluateSellGate input state).blocker? = some blocker) :
    (∀ emission, (runSellLadder input state noExitCandidates).1 ≠ .emit emission) ∧
      blocker = ladderBlocker input state
        (reported (runSellLadder input state noExitCandidates)) := by
  unfold evaluateSellGate at h
  rcases hladder : runSellLadder input state noExitCandidates with ⟨_ | _ | _ | _, cand⟩ <;>
    simp only [hladder, SellGateResult.blocker?] at h
  · cases h
  all_goals exact ⟨fun _ h => (nomatch h), (Option.some.inj h).symm⟩

/-- A ladder that stopped short without selling gave the blocker a reason of its own. -/
theorem Explained.named {stopped : LadderResult × ExitCandidates} (h : Explained stopped)
    (hsells : ∀ emission, stopped.1 ≠ .emit emission) :
    ¬((reported stopped).unsellable = none ∧ Unarmed (reported stopped)) := by
  rintro ⟨hunsellable, hunarmed⟩
  obtain ⟨result, cand⟩ := stopped
  cases result with
  | emit emission => exact hsells emission rfl
  | bumpHigh raised => exact h hunarmed
  | noop => exact h hunarmed
  | skip log skipReason field =>
      simp only [reported] at hunsellable hunarmed
      have hinvalid := hunarmed.configInvalid
      simp only [Option.or_eq_none_iff] at hunsellable hinvalid
      rcases h with hskip | hfield | hcand
      · simp [hunsellable.1] at hskip
      · simp [hinvalid.1] at hfield
      · exact hcand ⟨hinvalid.2, hunarmed.2, hunarmed.3, hunarmed.4, hunarmed.5, hunarmed.6⟩

/-- The tick sells from the ladder when its price is replaced. -/
def SellsAt (input : TTInput) (state : TTState) (price : String) : Prop :=
  ∃ emission, (runSellLadder (input.repriced price) state noExitCandidates).1 = .emit emission

/-- The sell of the tick at that price has a quantity. -/
def SizableAt (input : TTInput) (state : TTState) (price : String) : Prop :=
  ∃ quantity, computeSellQuantity (sellableBase (input.repriced price) state) price
    input.market.symbolInfo.filters = .ok quantity

theorem SellConfig.Unclamped.stopPrice_eq {ctx : LadderContext} (h : ctx.sell.Unclamped)
    (stopLoss : Decimal) : ctx.stopPrice stopLoss = ctx.lbp.mul stopLoss := by
  unfold LadderContext.stopPrice resolveTTStopLevel
  split
  · rfl
  · next ps hps =>
      rw [if_pos]
      by_cases henabled : ps.enabled = true
      · simp [h ps hps henabled]
      · simp [henabled]

theorem LadderContext.stopLossRung_ends (ctx : LadderContext) (cand : ExitCandidates) :
    Ends Explained
      (fun noted => Unarmed noted →
        (isCapArmed ctx.sell.stopLossPercentage = false ∧ noted = cand) ∨
        ∃ stopLoss, isCapArmed ctx.sell.stopLossPercentage = true ∧
          parse ctx.sell.stopLossPercentage = some stopLoss ∧
          (stopLoss.gt (num 0) && stopLoss.lte (num 1)) = true ∧
          noted = { cand with stopLoss := some (ctx.stopPrice stopLoss) })
      (ctx.stopLossRung cand) := by
  unfold stopLossRung
  split
  · next hoff => exact fun _ => .inl ⟨by simpa using hoff, rfl⟩
  · next harmed =>
      refine (parseFieldOrSkip_explained _ _ cand).bind fun stopLoss hparse => ?_
      split
      · next hrange =>
          split
          · exact exit_explained ctx _ _ _ _ _ _
          · exact fun _ => .inr ⟨stopLoss, by simpa using harmed, hparse, hrange, rfl⟩
      · exact fun h => nomatch h.configInvalid

theorem not_lte_zero {price : Decimal} (h : price.gt (num 0) = true) :
    price.lte (num 0) = false := by
  rcases price with _ | ⟨_ | _⟩ | p
  · rfl
  · rfl
  · cases h
  · simpa using h

section OtherPrices

variable {lbpStr : DecimalString} {lbp current price : Decimal} {priceStr : String}

theorem sells_of_rungs {cand : ExitCandidates} {ctx : LadderContext}
    (hlower : ∀ other, NeverSells (ctx.lowerRungs other)) {emission : SellEmission}
    (h : (match ctx.stopLossRung cand >>= ctx.lowerRungs with
      | .error stopped => stopped
      | .ok noted => (.noop, noted)).1 = .emit emission) :
    ∃ stopped, ctx.stopLossRung cand = .error stopped ∧ stopped.1 = .emit emission := by
  cases hstop : ctx.stopLossRung cand with
  | error stopped =>
      rw [hstop] at h
      exact ⟨stopped, rfl, h⟩
  | ok noted =>
      rw [hstop] at h
      have hnever : NeverSells (ctx.lowerRungs noted) := hlower noted
      change (match ctx.lowerRungs noted with
        | .error stopped => stopped
        | .ok noted => (.noop, noted)).1 = .emit emission at h
      cases hrungs : ctx.lowerRungs noted with
      | error stopped =>
          rw [hrungs] at h
          exact absurd h (hnever.raised hrungs emission)
      | ok noted =>
          rw [hrungs] at h
          cases h

theorem LadderContext.stopLossRung_passes {ctx : LadderContext}
    {stopped : LadderResult × ExitCandidates}
    {cand : ExitCandidates} (h : ctx.stopLossRung cand = .error stopped) :
    isCapArmed ctx.sell.stopLossPercentage = true ∧
      ∀ stopLoss, parse ctx.sell.stopLossPercentage = some stopLoss →
        ctx.price.lte (ctx.stopPrice stopLoss) = true := by
  unfold stopLossRung at h
  split at h
  · cases h
  · next harmed =>
      refine ⟨by simpa using harmed, fun stopLoss hparse => ?_⟩
      simp only [parseFieldOrSkip, hparse] at h
      change (if _ then _ else _) = _ at h
      split at h
      · split at h
        · assumption
        · cases h
      · cases h

/-- A ladder that went all the way down sells at another price if the stop-loss it noted does. -/
theorem sellsAt_iff {mid : ExitCandidates} (havg : state.avgEntryPrice = some lbpStr)
    (hlbp : lbpStr.toDecimal = some lbp) (hpos : lbp.lte (num 0) = false)
    (hprice : parse priceStr = some price) (hprice_pos : price.gt (num 0) = true)
    (hstop : (ladderContext input state lbpStr lbp current).stopLossRung noExitCandidates = .ok mid)
    (hmid : Unarmed mid)
    (hlower : ∀ priceStr price ratchetPrice other,
      NeverSells (((ladderContext input state lbpStr lbp current).repriced priceStr price
        ratchetPrice).lowerRungs other)) :
    (mid.stopLoss = none → ¬SellsAt input state priceStr) ∧
      ∀ stop, mid.stopLoss = some stop → input.config.sell.Unclamped →
        SizableAt input state priceStr →
          (SellsAt input state priceStr ↔ price.lte stop = true) := by
  let there := ladderContext (input.repriced priceStr) state lbpStr lbp price
  have hthere : ∀ other, NeverSells (there.lowerRungs other) :=
    hlower priceStr price there.ratchetPrice
  have hladder : runSellLadder (input.repriced priceStr) state noExitCandidates =
      match there.stopLossRung noExitCandidates >>= there.lowerRungs with
      | .error stopped => stopped
      | .ok noted => (.noop, noted) :=
    runSellLadder_readable havg hlbp hpos hprice (not_lte_zero hprice_pos) _
  unfold SellsAt
  rw [hladder]
  rcases ((ladderContext input state lbpStr lbp current).stopLossRung_ends _).returned
    hstop hmid with
    ⟨hoff, rfl⟩ | ⟨stopLoss, harmed, hparse, hrange, rfl⟩
  · refine ⟨fun _ => ?_, fun stop hnone => nomatch hnone⟩
    rintro ⟨emission, hemission⟩
    obtain ⟨stopped, hstopped, -⟩ := sells_of_rungs hthere hemission
    have harmed : isCapArmed input.config.sell.stopLossPercentage = true :=
      (LadderContext.stopLossRung_passes hstopped).1
    exact absurd (harmed.symm.trans hoff) (by decide)
  · refine ⟨fun hnone => (nomatch hnone), fun stop hsome hunclamped hsizable => ?_⟩
    cases hsome
    have hlevel : there.stopPrice stopLoss =
        (ladderContext input state lbpStr lbp current).stopPrice stopLoss := by
      rw [SellConfig.Unclamped.stopPrice_eq (by exact hunclamped),
        SellConfig.Unclamped.stopPrice_eq (by exact hunclamped)]
      rfl
    rw [← hlevel]
    constructor
    · rintro ⟨emission, hemission⟩
      obtain ⟨stopped, hstopped, -⟩ := sells_of_rungs hthere hemission
      exact (LadderContext.stopLossRung_passes hstopped).2 stopLoss hparse
    · intro hreached
      obtain ⟨quantity, hsized⟩ := hsizable
      have hsell : ∃ emission, sellEmissionOrSkip (input.repriced priceStr) state .gridStopLoss
          "tt-stop-loss" ("stop-" ++ lbpStr.text) [] = .ok emission := by
        simp only [sellEmissionOrSkip, TTInput.repriced] at hsized ⊢
        rw [hsized]
        exact ⟨_, rfl⟩
      obtain ⟨emission, hsell⟩ := hsell
      have hexit : there.stopLossRung noExitCandidates =
          there.exit .gridStopLoss "tt-stop-loss" ("stop-" ++ lbpStr.text) [] noExitCandidates :=
        @LadderContext.stopLossRung_exit there stopLoss harmed hparse hrange hreached _
      refine ⟨emission, ?_⟩
      rw [hexit]
      exact congrArg LadderResult.ofEmission hsell

/-- A blocker that names the stop-loss or nothing comes from a ladder that went all the way down. -/
theorem ladder_ran (havg : state.avgEntryPrice = some lbpStr) (hlbp : lbpStr.toDecimal = some lbp)
    (hpos : lbp.lte (num 0) = false) (hcurrent : parse input.market.currentPrice = some current)
    (hcurrent_pos : current.gt (num 0) = true)
    (hsells : ∀ emission, (runSellLadder input state noExitCandidates).1 ≠ .emit emission)
    (hunsellable : (reported (runSellLadder input state noExitCandidates)).unsellable = none)
    (hunarmed : Unarmed (reported (runSellLadder input state noExitCandidates))) :
    ∃ mid noted,
      (ladderContext input state lbpStr lbp current).stopLossRung noExitCandidates = .ok mid ∧
      (ladderContext input state lbpStr lbp current).lowerRungs mid = .ok noted ∧
      reported (runSellLadder input state noExitCandidates) = noted := by
  have hladder := runSellLadder_readable havg hlbp hpos hcurrent (not_lte_zero hcurrent_pos)
    noExitCandidates
  rw [hladder] at hsells hunsellable hunarmed ⊢
  generalize ladderContext input state lbpStr lbp current = ctx at *
  cases hstop : ctx.stopLossRung noExitCandidates with
  | error stopped =>
      rw [hstop] at hsells hunsellable hunarmed
      have hexplained : Explained stopped := (ctx.stopLossRung_ends _).raised hstop
      exact absurd ⟨hunsellable, hunarmed⟩ (hexplained.named hsells)
  | ok mid =>
      rw [hstop] at hsells hunsellable hunarmed
      dsimp only [bind, Except.bind] at hsells hunsellable hunarmed ⊢
      cases hlower : ctx.lowerRungs mid with
      | error stopped =>
          rw [hlower] at hsells hunsellable hunarmed
          have hexplained : Explained stopped :=
            (LadderContext.lowerRungs_silent ctx mid).raised hlower
          exact absurd ⟨hunsellable, hunarmed⟩ (hexplained.named hsells)
      | ok noted => exact ⟨mid, noted, rfl, hlower, rfl⟩

theorem ladder_tells {priceStr : String} {price : Decimal}
    (hcurrent : parse input.market.currentPrice = some current)
    (hcurrent_pos : current.gt (num 0) = true)
    (hsells : ∀ emission, (runSellLadder input state noExitCandidates).1 ≠ .emit emission)
    (hunsellable : (reported (runSellLadder input state noExitCandidates)).unsellable = none)
    (hunarmed : Unarmed (reported (runSellLadder input state noExitCandidates)))
    (hprice : parse priceStr = some price) (hprice_pos : price.gt (num 0) = true) :
    ((reported (runSellLadder input state noExitCandidates)).stopLoss = none →
      ¬SellsAt input state priceStr) ∧
    ∀ stop, (reported (runSellLadder input state noExitCandidates)).stopLoss = some stop →
      input.config.sell.Unclamped → SizableAt input state priceStr →
        (SellsAt input state priceStr ↔ price.lte stop = true) := by
  by_cases hbasis : ∃ lbp, safeDecimal state.avgEntryPrice = some lbp ∧ lbp.lte (num 0) = false
  · obtain ⟨lbp, hread, hpos⟩ := hbasis
    obtain ⟨lbpStr, havg, hlbp⟩ := Option.bind_eq_some_iff.mp hread
    obtain ⟨mid, noted, hstop, hlower, hreported⟩ := ladder_ran havg hlbp hpos hcurrent hcurrent_pos
      hsells hunsellable hunarmed
    rw [hreported] at hunarmed ⊢
    obtain ⟨hkeeps, hsilent⟩ := (LadderContext.lowerRungs_silent _ mid).returned hlower
    obtain ⟨hmid, hnever⟩ := hsilent hunarmed
    rw [hkeeps]
    exact sellsAt_iff havg hlbp hpos hprice hprice_pos hstop hmid hnever
  · have hnone : ∀ lbp, safeDecimal state.avgEntryPrice = some lbp → lbp.lte (num 0) = true := by
      intro lbp hread
      by_contra hpos
      exact hbasis ⟨lbp, hread, by simpa using hpos⟩
    refine ⟨fun _ => ?_, fun stop hstop => ?_⟩
    · rintro ⟨emission, hemission⟩
      exact (runSellLadder_noBasis hnone noExitCandidates).1 emission hemission
    · rw [reported_stopLoss, (runSellLadder_noBasis hnone noExitCandidates).2] at hstop
      cases hstop

/-- A blocker that names no exit means that no price sells, and one that names the stop-loss alone
means that a sizable position sells exactly at the prices down to its level: no other rung is left
to be set off. -/
theorem exit_blocker_truthful {blocker : ExitBlocker}
    (hcurrent : parse input.market.currentPrice = some current)
    (hcurrent_pos : current.gt (num 0) = true)
    (hblocked : (evaluateSellGate input state).blocker? = some blocker) :
    (blocker.reason = .noExitConfigured → ∀ priceStr price, parse priceStr = some price →
      price.gt (num 0) = true → ¬SellsAt input state priceStr) ∧
    (blocker.reason = .stopLossNotHit → input.config.sell.Unclamped →
      ∃ stop, blocker.detail.lookup "stopPrice" = some (.decimal (.printed stop)) ∧
        ∀ priceStr price, parse priceStr = some price → price.gt (num 0) = true →
          SizableAt input state priceStr →
            (SellsAt input state priceStr ↔ price.lte stop = true)) := by
  obtain ⟨hsells, rfl⟩ := evaluateSellGate_blocker hblocked
  constructor
  · intro hreason priceStr price hprice hprice_pos
    obtain ⟨hunsellable, hunarmed, hstop, -⟩ := resolveExitBlocker_unarmed hreason (.inr rfl)
    exact (ladder_tells hcurrent hcurrent_pos hsells hunsellable hunarmed hprice hprice_pos).1
      (hstop rfl)
  · intro hreason hunclamped
    obtain ⟨hunsellable, hunarmed, -, hstop⟩ := resolveExitBlocker_unarmed hreason (.inl rfl)
    obtain ⟨stop, hstop, hdetail⟩ := hstop rfl
    refine ⟨stop, hdetail, fun priceStr price hprice hprice_pos hsizable => ?_⟩
    exact (ladder_tells hcurrent hcurrent_pos hsells hunsellable hunarmed hprice hprice_pos).2
      stop hstop
      hunclamped hsizable

/-- A coin bought at a hundred with a stop at nine tenths and no other exit. -/
def stopOnlyInput : TTInput :=
  sampleInput { sampleConfig with
    sell := { sampleConfig.sell with trailingStopPercentage := "" } } sampleHeld "95" 1

theorem stop_only_sells_at_level :
    SellsAt stopOnlyInput sampleHeld "90" ∧ ¬SellsAt stopOnlyInput sampleHeld "91" := by
  have hblocked : ∃ blocker, (evaluateSellGate stopOnlyInput sampleHeld).blocker? = some blocker ∧
      blocker.reason = .stopLossNotHit ∧
      blocker.detail.lookup "stopPrice" = some (.decimal (.printed (num 90))) := by decide +kernel
  obtain ⟨blocker, hblocker, hreason, hdetail⟩ := hblocked
  have hcurrent : parse stopOnlyInput.market.currentPrice = some (num 95) := by decide +kernel
  obtain ⟨stop, hstop, hsells⟩ := (exit_blocker_truthful hcurrent (by decide +kernel) hblocker).2
    hreason (by rintro ps ⟨⟩)
  cases hstop.symm.trans hdetail
  constructor
  · have hsizable : SizableAt stopOnlyInput sampleHeld "90" := ⟨.printed (num 1), by decide +kernel⟩
    exact (hsells "90" (num 90) (by decide +kernel) (by decide +kernel) hsizable).mpr
      (by decide +kernel)
  · have hsizable : SizableAt stopOnlyInput sampleHeld "91" := ⟨.printed (num 1), by decide +kernel⟩
    intro hsold
    exact absurd ((hsells "91" (num 91) (by decide +kernel) (by decide +kernel) hsizable).mp hsold)
      (by decide +kernel)

end OtherPrices

end TradingBot.TrailingTrade

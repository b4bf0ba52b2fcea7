import TradingBot.Contracts.AccountExposure
import TradingBot.TrailingTrade.EntryProtection

/-!
# A total no tick reads

The account's deployed total is asked for only where the gate of the config
says that it is read. Everywhere else a tick decides the same for every total,
and so the same as a runner that always has one.
-/

namespace TradingBot.TrailingTrade

open Decimal BranchChain
open Contracts (CapBlock ExposureFields readAccountExposureCap
  needsAccountDeployedQuote tickAccount)

def AccountCapMode.text : AccountCapMode → String
  | off => "off"
  | amount => "amount"
  | percent => "percent"

def SizingMode.text : SizingMode → String
  | fixed => "fixed"
  | percentOfAccount => "percentOfAccount"

/-- What the gate sees of a config. -/
def TTConfig.exposureFields (config : TTConfig) : ExposureFields where
  buyAccountCap := config.buy.accountCap.map fun cap =>
    ⟨some cap.mode.text, some cap.amount, some cap.percent⟩
  accountCap := none
  buyEntrySizingMode := config.buy.entrySizing.map (·.mode.text)
  entrySizingMode := none

/-- A text that the schema admits as an amount: blank, or a positive decimal. -/
def BlankOrPositive (raw : String) : Prop := raw = "" ∨ ∃ q : ℚ, parse raw = some (num q) ∧ 0 < q

/-- The fields of the account cap are as the schema admits them. -/
def TTConfig.CapStated (config : TTConfig) : Prop :=
  ∀ cap ∈ config.buy.accountCap, BlankOrPositive cap.amount ∧ BlankOrPositive cap.percent

def TTInput.withTotal (input : TTInput) (total : Option String) : TTInput :=
  { input with account := { input.account with deployedQuoteAcrossProfiles := total } }

/-! ### The gate -/

section Gate

variable {config : TTConfig}

theorem BlankOrPositive.armed_iff {raw : String} (h : BlankOrPositive raw) :
    isCapArmed raw = true ↔ (decOrNull (some (.raw raw))).isSome = true := by
  rcases h with rfl | ⟨q, hraw, hq⟩
  · decide
  · have hread : decOrNull (some (.raw raw)) = some (num q) := decOrNull_raw hraw
    rw [hread]
    exact ⟨fun _ => rfl, fun _ => isCapArmed_of_pos hraw hq⟩

/-- The gate sees a cap exactly where the strategy applies one. -/
theorem capArmed_iff (hstated : config.CapStated) (equity : Decimal) :
    (readAccountExposureCap config.exposureFields).armed = true ↔
      (resolveAccountCapQuote config.buy.accountCap equity).isSome = true := by
  unfold readAccountExposureCap TTConfig.exposureFields resolveAccountCapQuote
  cases hcap : config.buy.accountCap with
  | none => exact Iff.rfl
  | some cap =>
      obtain ⟨hamount, hpercent⟩ := hstated cap hcap
      obtain ⟨mode, amount, percent⟩ := cap
      dsimp only at hamount hpercent
      cases mode with
      | off => simp [AccountCapMode.text, Contracts.AccountExposureCap.off]
      | amount =>
          rw [← hamount.armed_iff]
          by_cases harmed : isCapArmed amount = true
          · simp [AccountCapMode.text, harmed]
          · simp [AccountCapMode.text, harmed, Contracts.AccountExposureCap.off]
      | percent =>
          rw [Option.isSome_map, ← hpercent.armed_iff]
          by_cases harmed : isCapArmed percent = true
          · simp [AccountCapMode.text, harmed]
          · simp [AccountCapMode.text, harmed, Contracts.AccountExposureCap.off]

/-- A config that does not need the total has no cap to apply
and no share of the account to size. -/
structure TTConfig.Untold (config : TTConfig) : Prop where
  uncapped : ∀ equity, resolveAccountCapQuote config.buy.accountCap equity = none
  fixed : ∀ sizing ∈ config.buy.entrySizing, sizing.mode = .fixed

theorem untold_of_needs (hstated : config.CapStated)
    (hneeds : needsAccountDeployedQuote config.exposureFields = false) : config.Untold := by
  unfold needsAccountDeployedQuote at hneeds
  rw [Bool.or_eq_false_iff, Bool.or_eq_false_iff] at hneeds
  obtain ⟨⟨hcap, hsizing⟩, -⟩ := hneeds
  refine ⟨fun equity => ?_, fun sizing hmem => ?_⟩
  · rw [← Option.not_isSome_iff_eq_none, ← capArmed_iff hstated equity, hcap]
    exact Bool.false_ne_true
  · cases hmode : sizing.mode with
    | fixed => rfl
    | percentOfAccount =>
        unfold TTConfig.exposureFields at hsizing
        rw [Option.mem_def.mp hmem] at hsizing
        simp [hmode, SizingMode.text] at hsizing

end Gate

/-! ### What reads the account -/

section Readers

variable {input : TTInput} {total : Option String}

@[simp] theorem withTotal_config : (input.withTotal total).config = input.config := rfl

@[simp] theorem withTotal_market : (input.withTotal total).market = input.market := rfl

theorem evaluateRiskCaps_withTotal (h : input.config.Untold) (state : TTState)
    (quantity : DecimalString) (price : String) (quoteAsset : String) :
    evaluateRiskCaps input.config state quantity price (input.withTotal total).account quoteAsset =
      evaluateRiskCaps input.config state quantity price input.account quoteAsset := by
  unfold evaluateRiskCaps
  simp only [h.uncapped]

theorem resolveEntryBudget_withTotal (h : input.config.Untold) (quoteAsset : String) :
    resolveEntryBudget input.config (input.withTotal total).account quoteAsset =
      resolveEntryBudget input.config input.account quoteAsset := by
  unfold resolveEntryBudget
  cases hsizing : input.config.buy.entrySizing with
  | none => rfl
  | some sizing =>
      simp only [h.uncapped, desiredBudget, h.fixed sizing hsizing]
      rfl

/-! ### Buying -/

theorem emitGridBuy_withTotal (h : input.config.Untold) (state : TTState) (now : ℤ)
    (target : GridTarget) (level : GridLevel) (stopLimit : Option StopLimit) :
    emitGridBuy (input.withTotal total) state now target level stopLimit =
      emitGridBuy input state now target level stopLimit := by
  unfold emitGridBuy
  simp only [withTotal_config, withTotal_market, evaluateRiskCaps_withTotal h]
  rfl

theorem evaluateGridBuy_withTotal (h : input.config.Untold) (state : TTState) (now : ℤ)
    (forceTvOpen : Bool) :
    evaluateGridBuy (input.withTotal total) state now forceTvOpen =
      evaluateGridBuy input state now forceTvOpen := by
  unfold evaluateGridBuy gateGridBuy
  simp only [emitGridBuy_withTotal h]
  rfl

theorem emitForcedFirstEntry_withTotal (h : input.config.Untold) (state : TTState) (now : ℤ) :
    emitForcedFirstEntry (input.withTotal total) state now =
      emitForcedFirstEntry input state now := by
  unfold emitForcedFirstEntry emitFirstBuyTvForced
  simp only [evaluateGridBuy_withTotal h, withTotal_config, withTotal_market,
    resolveEntryBudget_withTotal h]
  rfl

theorem evaluateBullPyramid_withTotal (h : input.config.Untold) (state : TTState) :
    evaluateBullPyramid (input.withTotal total) state = evaluateBullPyramid input state := by
  unfold evaluateBullPyramid
  simp only [withTotal_config, withTotal_market, evaluateRiskCaps_withTotal h]
  rfl

theorem firstBuyEmit_withTotal (h : input.config.Untold) (notes : BuyNotes) :
    firstBuyEmit (input.withTotal total) notes = firstBuyEmit input notes := by
  unfold firstBuyEmit
  simp only [withTotal_config, withTotal_market, resolveEntryBudget_withTotal h]
  rfl

theorem buyStage_withTotal (h : input.config.Untold) (scalars : TickScalars)
    (block : Option RegimeBlock) (cooldowns : Cooldowns) (notes : BuyNotes) :
    buyStage (input.withTotal total) scalars block cooldowns notes =
      buyStage input scalars block cooldowns notes := by
  unfold buyStage gridStage firstBuyStage
  simp only [evaluateGridBuy_withTotal h, firstBuyEmit_withTotal h]
  rfl

/-! ### The branches -/

theorem overrideBranch_withTotal (h : input.config.Untold) (scalars : TickScalars) :
    overrideBranch (input.withTotal total) scalars = overrideBranch input scalars := by
  funext s
  unfold overrideBranch handleOverride overrideOutput triggerBuyOutput
  simp only [emitForcedFirstEntry_withTotal h]
  rfl

theorem autoTriggerBuyBranch_withTotal (h : input.config.Untold) (scalars : TickScalars) :
    autoTriggerBuyBranch (input.withTotal total) scalars = autoTriggerBuyBranch input scalars := by
  funext s
  unfold autoTriggerBuyBranch autoTriggerEntry
  simp only [emitForcedFirstEntry_withTotal h]
  rfl

theorem buyAndSnapshotBranch_withTotal (h : input.config.Untold) (scalars : TickScalars) :
    buyAndSnapshotBranch (input.withTotal total) scalars = buyAndSnapshotBranch input scalars := by
  funext s
  unfold buyAndSnapshotBranch pyramidStage
  simp only [evaluateBullPyramid_withTotal h, buyStage_withTotal h]
  rfl

theorem computeTick_withTotal (h : input.config.Untold) :
    computeTick (input.withTotal total) = computeTick input := by
  have hnormalized : (normalizedInput input).config.Untold := h
  have hbranches : branches ((normalizedInput input).withTotal total)
      (buildScalars (normalizedInput input)) =
        branches (normalizedInput input) (buildScalars (normalizedInput input)) := by
    unfold branches
    rw [overrideBranch_withTotal hnormalized, autoTriggerBuyBranch_withTotal hnormalized,
      buyAndSnapshotBranch_withTotal hnormalized]
    rfl
  exact congrArg
    (fun chain =>
      run fellThrough chain { state := (normalizedInput input).state, preambleLogs := [] })
    hbranches

end Readers

/-- The gate sees a cap exactly where the strategy applies one, a config that the gate passes over
decides the same for every total, and so the tick whose total is asked for only on demand decides as
one that always has it. -/
theorem unread_total_never_decides (input : TTInput) (hstated : input.config.CapStated) :
    (∀ equity, (readAccountExposureCap input.config.exposureFields).armed = true ↔
      (resolveAccountCapQuote input.config.buy.accountCap equity).isSome = true) ∧
    (needsAccountDeployedQuote input.config.exposureFields = false → ∀ total,
      computeTick (input.withTotal total) = computeTick input) ∧
    ∀ deployedTotal,
      computeTick
          { input with
            account := tickAccount (needsAccountDeployedQuote input.config.exposureFields)
              input.account deployedTotal } =
        computeTick { input with account := tickAccount true input.account deployedTotal } := by
  refine ⟨capArmed_iff hstated, fun hneeds total => ?_, fun deployedTotal => ?_⟩
  · exact computeTick_withTotal (untold_of_needs hstated hneeds)
  · cases hneeds : needsAccountDeployedQuote input.config.exposureFields with
    | true => rfl
    | false =>
        have hsame : computeTick (input.withTotal (some deployedTotal)) = computeTick input :=
          computeTick_withTotal (untold_of_needs hstated hneeds)
        exact hsame.symm

theorem capless_profile_needs_no_total :
    needsAccountDeployedQuote sampleConfig.exposureFields = false ∧ ∀ total,
      computeTick ((sampleInput sampleConfig initialTTState "100" 0).withTotal total) =
        computeTick (sampleInput sampleConfig initialTTState "100" 0) := by
  have hstated : sampleConfig.CapStated := by
    intro cap hcap
    cases hcap
  exact ⟨by decide, (unread_total_never_decides (sampleInput sampleConfig initialTTState "100" 0)
    hstated).2.1 (by decide)⟩

end TradingBot.TrailingTrade

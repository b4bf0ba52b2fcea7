import TradingBot.Contracts.AccountExposure
import TradingBot.Momentum.RequiredWindow
import TradingBot.Momentum.RiskCap

/-!
# A total no tick reads

With the risk cap off, a config that the gate passes over decides the same for
every deployed total of the account. The risk cap divides a share of the
account by the distance of the stop, and the gate does not look at it.
-/

namespace TradingBot.Momentum

open Decimal
open Contracts (CapBlock ExposureFields readAccountExposureCap
  needsAccountDeployedQuote tickAccount)

def AccountCapMode.text : AccountCapMode → String
  | off => "off"
  | percentOfAccount => "percentOfAccount"

def SizingMode.text : SizingMode → String
  | fixed => "fixed"
  | percentOfAccount => "percentOfAccount"

/-- What the gate sees of a config. -/
def MomentumConfig.exposureFields (config : MomentumConfig) : ExposureFields where
  buyAccountCap := none
  accountCap := config.accountCap.map fun cap => ⟨some cap.mode.text, none, cap.percent⟩
  buyEntrySizingMode := none
  entrySizingMode := config.entrySizing.map (·.mode.text)

/-- The share of the account cap is as the schema admits it: absent, blank or a positive decimal. -/
def MomentumConfig.CapStated (config : MomentumConfig) : Prop :=
  ∀ cap ∈ config.accountCap, ∀ percent ∈ cap.percent,
    percent = "" ∨ ∃ q : ℚ, parse percent = some (num q) ∧ 0 < q

def MomentumInput.withTotal (input : MomentumInput) (total : Option String) : MomentumInput :=
  { input with account := { input.account with deployedQuoteAcrossProfiles := total } }

/-! ### The gate -/

section Gate

variable {config : MomentumConfig}

/-- The gate sees a cap exactly where the strategy applies one. -/
theorem capArmed_iff (hstated : config.CapStated) :
    (readAccountExposureCap config.exposureFields).armed = true ↔
      config.capShare.isSome = true := by
  unfold readAccountExposureCap MomentumConfig.exposureFields MomentumConfig.capShare
  cases hcap : config.accountCap with
  | none => exact Iff.rfl
  | some cap =>
      obtain ⟨mode, percent⟩ := cap
      have hpercent := hstated ⟨mode, percent⟩ hcap
      dsimp only at hpercent
      cases mode with
      | off => simp [AccountCapMode.text, Contracts.AccountExposureCap.off]
      | percentOfAccount =>
          cases percent with
          | none => exact Iff.rfl
          | some raw =>
              rcases hpercent raw rfl with rfl | ⟨q, hraw, hq⟩
              · simp [AccountCapMode.text, isCapArmed, decOrNull, DecimalString.isEmpty,
                  Contracts.AccountExposureCap.off]
              · simp [AccountCapMode.text, isCapArmed_of_pos hraw hq, decOrNull_raw hraw]

/-- A config whose size is fixed and capped by no share of the account. -/
structure MomentumConfig.Untold (config : MomentumConfig) : Prop where
  uncapped : config.capShare = none
  unrisked : config.riskCap = none
  fixed : ∀ sizing ∈ config.entrySizing, sizing.mode = .fixed

theorem untold_of_needs (hstated : config.CapStated) (hrisk : config.riskCap = none)
    (hneeds : needsAccountDeployedQuote config.exposureFields = false) : config.Untold := by
  unfold needsAccountDeployedQuote at hneeds
  rw [Bool.or_eq_false_iff, Bool.or_eq_false_iff] at hneeds
  obtain ⟨⟨hcap, -⟩, hsizing⟩ := hneeds
  refine ⟨?_, hrisk, fun sizing hmem => ?_⟩
  · rw [← Option.not_isSome_iff_eq_none, ← capArmed_iff hstated, hcap]
    exact Bool.false_ne_true
  · cases hmode : sizing.mode with
    | fixed => rfl
    | percentOfAccount =>
        unfold MomentumConfig.exposureFields at hsizing
        rw [Option.mem_def.mp hmem] at hsizing
        simp [hmode, SizingMode.text] at hsizing

theorem MomentumConfig.Untold.layer (h : config.Untold) (layer : Option EntryLayer) :
    (configForEntryLayer config layer).Untold := by
  unfold configForEntryLayer
  split
  · exact ⟨h.uncapped, h.unrisked, h.fixed⟩
  · exact h

end Gate

/-! ### The tick -/

section Tick

variable {input : MomentumInput} {total : Option String}

@[simp] theorem withTotal_config : (input.withTotal total).config = input.config := rfl

theorem desiredBudget_untold {config : MomentumConfig} (h : config.Untold)
    (equity equity' : Decimal) :
    desiredBudget config equity = desiredBudget config equity' := by
  unfold desiredBudget
  cases hsizing : config.entrySizing with
  | none => rfl
  | some sizing => simp only [h.fixed sizing hsizing]

theorem sizeEntry_withTotal {config : MomentumConfig} (h : config.Untold)
    (quoteAsset price : String)
    (filters : SymbolFilters) (candles : List Candle) :
    sizeEntry config (input.withTotal total).account quoteAsset price filters candles =
      sizeEntry config input.account quoteAsset price filters candles := by
  unfold sizeEntry resolveEntryBudget riskCapped withinAccountCap
  dsimp only
  rw [desiredBudget_untold h (accountEquity (input.withTotal total).account quoteAsset)
    (accountEquity input.account quoteAsset)]
  simp only [h.unrisked, h.uncapped]
  rfl

theorem evaluateEntry_withTotal (h : input.config.Untold) (state : MomentumState) (x : Crossing)
    (candles : List Candle) (lastCandle : Candle) :
    evaluateEntry (input.withTotal total) state x candles lastCandle =
      evaluateEntry input state x candles lastCandle := by
  have hplace : ∀ layer, placeEntry (input.withTotal total) state candles lastCandle layer =
      placeEntry input state candles lastCandle layer := by
    intro layer
    unfold placeEntry
    simp only [withTotal_config, sizeEntry_withTotal (h.layer layer)]
    rfl
  unfold evaluateEntry
  simp only [hplace]
  rfl

theorem computeTick_withTotal (h : input.config.Untold) :
    computeTick (input.withTotal total) = computeTick input := by
  unfold computeTick decideTick
  simp only [evaluateEntry_withTotal h]
  rfl

end Tick

/-- The gate sees a cap exactly where the strategy applies one. With the risk cap off, a config that
the gate passes over decides the same for every total, and so the tick whose total is asked for only
on demand decides as one that always has it. -/
theorem unread_total_never_enters (input : MomentumInput) (hstated : input.config.CapStated)
    (hrisk : input.config.riskCap = none) :
    ((readAccountExposureCap input.config.exposureFields).armed = true ↔
      input.config.capShare.isSome = true) ∧
    (needsAccountDeployedQuote input.config.exposureFields = false → ∀ total,
      computeTick (input.withTotal total) = computeTick input) ∧
    ∀ deployedTotal,
      computeTick
          { input with
            account := tickAccount (needsAccountDeployedQuote input.config.exposureFields)
              input.account deployedTotal } =
        computeTick { input with account := tickAccount true input.account deployedTotal } := by
  refine ⟨capArmed_iff hstated, fun hneeds total => ?_, fun deployedTotal => ?_⟩
  · exact computeTick_withTotal (untold_of_needs hstated hrisk hneeds)
  · cases hneeds : needsAccountDeployedQuote input.config.exposureFields with
    | true => rfl
    | false =>
        have hsame : computeTick (input.withTotal (some deployedTotal)) = computeTick input :=
          computeTick_withTotal (untold_of_needs hstated hrisk hneeds)
        exact hsame.symm

theorem weekend_tick_needs_no_total :
    needsAccountDeployedQuote weekendInput.config.exposureFields = false ∧
      ∀ total, computeTick (weekendInput.withTotal total) = computeTick weekendInput := by
  have hstated : weekendInput.config.CapStated := by
    intro cap hcap
    cases hcap
  exact ⟨by decide, (unread_total_never_enters weekendInput hstated rfl).2.1 (by decide)⟩

/-- The gate does not look at the risk cap, whose size is a share of the account. -/
example :
    let config := { riskSizedConfig with accountCap := none }
    needsAccountDeployedQuote config.exposureFields = false ∧
      sizeEntry config thousandQuote "USDT" "100" lotFilters
          [hourlyBar 0, hourlyBar 1, hourlyBar 2] ≠
        sizeEntry config { thousandQuote with deployedQuoteAcrossProfiles := none } "USDT" "100"
          lotFilters [hourlyBar 0, hourlyBar 1, hourlyBar 2] := by
  decide +kernel

end TradingBot.Momentum

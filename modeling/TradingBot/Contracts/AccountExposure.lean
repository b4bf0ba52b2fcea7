import TradingBot.Core.Sizing

/-!
# The account's deployed total

A tick is given what all profiles of the account have deployed only if its
config is one that reads it. The gate may not import a strategy, so it reads
the caps and the sizing off the shape of the config, in both spellings.
-/

namespace TradingBot.Contracts

inductive AccountCapMode where
  | off
  | amount
  | percent

/-- A cap as the config spells it. -/
structure CapBlock where
  mode : Option String
  amount : Option String
  percent : Option String

/-- The fields of a config that the gate looks at. -/
structure ExposureFields where
  buyAccountCap : Option CapBlock
  accountCap : Option CapBlock
  buyEntrySizingMode : Option String
  entrySizingMode : Option String

structure AccountExposureCap where
  armed : Bool
  mode : AccountCapMode
  amount : Option String
  percent : Option String

def AccountExposureCap.off : AccountExposureCap := ⟨false, .off, none, none⟩

def readAccountExposureCap (config : ExposureFields) : AccountExposureCap :=
  match config.buyAccountCap.or config.accountCap with
  | none => .off
  | some cap =>
      if cap.mode = some "amount" ∧ cap.amount.any isCapArmed then ⟨true, .amount, cap.amount, none⟩
      else if (cap.mode = some "percent" ∨ cap.mode = some "percentOfAccount") ∧
          cap.percent.any isCapArmed then
        ⟨true, .percent, none, cap.percent⟩
      else .off

def needsAccountDeployedQuote (config : ExposureFields) : Bool :=
  (readAccountExposureCap config).armed ||
    config.buyEntrySizingMode == some "percentOfAccount" ||
    config.entrySizingMode == some "percentOfAccount"

/-- The account a tick is given: the total is asked for only where it is needed. -/
def tickAccount (needsTotal : Bool) (accountBalances : AccountSnapshot) (deployedTotal : String) :
    AccountSnapshot :=
  if needsTotal then { accountBalances with deployedQuoteAcrossProfiles := some deployedTotal }
  else accountBalances

end TradingBot.Contracts

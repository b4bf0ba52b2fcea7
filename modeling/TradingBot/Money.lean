import TradingBot.Lib.DecimalText

/-!
# Money

Quantising amounts onto the exchange's grids and printing them for the wire.
The source throws when a grid unit is not positive; every call is made with a
unit its caller has already checked, so the functions here are total.
-/

namespace TradingBot

open Decimal Grid

/-- Quantize a value down to a multiple of the lot step. -/
def roundToStep (value step : Decimal) : Decimal := roundDown value step

/-- Quantize a value up to a multiple of the lot step. -/
def ceilToStep (value step : Decimal) : Decimal := roundUp value step

/-- Quantize a price down to a multiple of the tick. -/
def roundToTick (price tickSize : Decimal) : Decimal := roundDown price tickSize

def meetsMinNotional (quantity price minNotional : Decimal) : Bool :=
  (quantity.mul price).gte minNotional

/-- The text of a value with exactly the decimal places carried by `step`. -/
def toFixedStep (value step : Decimal) : DecimalString :=
  .printed (value.toDecimalPlaces step.decimalPlaces)

section Finite

variable {step tick : ℚ}

theorem roundToStep_num (hstep : 0 < step) (value : ℚ) :
    roundToStep (num value) (num step) = num (floorTo step value) :=
  roundDown_num hstep.ne' value

theorem ceilToStep_num (hstep : 0 < step) (value : ℚ) :
    ceilToStep (num value) (num step) = num (ceilTo step value) :=
  roundUp_num hstep.ne' value

theorem roundToTick_num (htick : 0 < tick) (price : ℚ) :
    roundToTick (num price) (num tick) = num (floorTo tick price) :=
  roundDown_num htick.ne' price

@[simp] theorem meetsMinNotional_num (quantity price minNotional : ℚ) :
    meetsMinNotional (num quantity) (num price) (num minNotional) =
      decide (minNotional ≤ quantity * price) := rfl

theorem toFixedStep_onGrid {value : ℚ} (hstep : Terminating step) (hvalue : OnGrid step value) :
    toFixedStep (num value) (num step) = .printed (num value) := by
  rw [toFixedStep, toDecimalPlaces_onGrid hstep hvalue]

end Finite

end TradingBot

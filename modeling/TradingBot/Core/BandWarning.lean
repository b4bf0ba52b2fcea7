import TradingBot.Core.ArmSafety

/-!
# One band algebra

Three surfaces ask whether a symbol's price band can hold a stop: the warning
when a symbol is bound, the refusal of the tick, and the clamp that raises the
trigger. They invert one inequality in three ways, and agree: the warning is
given exactly for the stops the tick refuses at the floor, and it says that the
clamp is spent exactly where the clamp leaves such a stop alone.
-/

namespace TradingBot

open Decimal Grid

/-! ### The warning -/

inductive DiagnosticLevel where
  | warn
  | info
  | block

structure ConfigDiagnostic where
  level : DiagnosticLevel
  code : String
  message : String
  path : List String

def asPercent (value : Decimal) : String :=
  ((value.mul (num 100)).toDecimalPlaces 2).toText ++ "%"

/-- What the profile does when the exchange refuses the stop. -/
def onBandBlockConsequence : OnBandBlock → String
  | .notify => "\"If Binance rejects the backup stop\" is set to notify, so the bot will alert " ++
      "you and the position will sit with no resting stop behind it."
  | .clamp =>
      "\"If Binance rejects the backup stop\" is set to clamp, so the bot will raise the " ++
      "resting stop to the deepest level Binance accepts — closer to the market than you asked for."
  | .nativeTrail => "\"If Binance rejects the backup stop\" is set to native-trail, so the bot " ++
      "will rest a Binance trailing stop instead, which this price band does not apply to."

def clampSpent : String :=
  "\"If Binance rejects the backup stop\" is set to clamp, but there is no level to clamp to " ++
    "while the limit price sits this far under the trigger, so the bot will alert you and the " ++
    "position will sit with no resting stop behind it."

def nativeTrailUnavailable : String :=
  "\"If Binance rejects the backup stop\" is set to native-trail, but this symbol will not " ++
    "accept a trailing stop at this distance, so the bot will alert you and the position will " ++
    "sit with no resting stop behind it."

/-- The largest maximum at which the margin lifts the clamp's floor to the market. -/
def clampSpentAtOrBelow : Decimal := (num 1).sub ((num 1).div exchangeFloorMargin)

/-- The sentence for a selected escape that cannot run on the symbol. -/
def spentEscape (settings : ProtectiveStopBandSettings) (deepest : Decimal)
    (trailing : Option TrailingDeltaFilter) : Option String :=
  if settings.onBandBlock = .clamp ∧ deepest.lte clampSpentAtOrBelow = true then some clampSpent
  else if settings.onBandBlock = .nativeTrail ∧
      nativeTrailingDelta settings.stopDistancePct trailing = none then some nativeTrailUnavailable
  else none

/-- What the band accepts, in the words of the warning. -/
def bandCeiling (deepest : Decimal) : String :=
  if deepest.gt (num 0) then
    "accepts a resting stop no deeper than " ++ asPercent deepest ++ " below the market"
  else "accepts no resting stop at all while the limit price sits this far under the trigger"

/-- The first sentence of the warning. -/
def bandWarningLead (settings : ProtectiveStopBandSettings) (deepest : Decimal) : String :=
  "This backup stop sits " ++ asPercent settings.stopDistancePct ++
    " below the market, but Binance's price band for this symbol " ++ bandCeiling deepest ++ ". "

/-- The advice for a stop the symbol's band cannot hold; an unreadable band raises none. -/
def protectiveStopBandWarning (settings : Option ProtectiveStopBandSettings)
    (band : Option PercentPriceBySideFilter) (trailing : Option TrailingDeltaFilter) :
    Option ConfigDiagnostic :=
  match settings with
  | none => none
  | some settings =>
      match maxStopDistancePct band settings.limitOffsetPct with
      | none => none
      | some deepest =>
          if settings.stopDistancePct.lte deepest then none
          else
            some
              { level := .warn
                code := "stop-outside-exchange-band"
                message := bandWarningLead settings deepest ++
                  (spentEscape settings deepest trailing).getD
                    (onBandBlockConsequence settings.onBandBlock)
                path := settings.path }

/-! ### The band in numbers -/

section Figures

variable {symbol reference : String} {band : PercentPriceBySideFilter}
  {desired : DesiredProtectiveStop} {guarded : Bool} {ref stop price offset down : ℚ}

/-- The stop is refused, and for breaching the floor of the band. -/
def RefusedAtFloor (symbol reference : String) (band : Option PercentPriceBySideFilter)
    (desired : DesiredProtectiveStop) (guarded : Bool) : Prop :=
  ∃ blocker, percentPriceBySideRefusal symbol reference band desired guarded = some blocker ∧
    blocker.detail.lookup "bound" = some (.text "floor")

/-- A readable stop is refused at the floor exactly if its limit leg lies below it. -/
theorem refusedAtFloor_iff (href : positiveDecimal reference = some (num ref))
    (hstop : positiveDecimal desired.stopPrice = some (num stop))
    (hprice : positiveDecimal desired.price = some (num price)) :
    RefusedAtFloor symbol reference (some band) desired guarded ↔
      ∃ down, positiveDecimal band.askMultiplierDown = some (num down) ∧ price < ref * down := by
  unfold RefusedAtFloor percentPriceBySideRefusal
  simp only [href, hstop, hprice]
  cases hdown : positiveDecimal band.askMultiplierDown with
  | none =>
      simp only [Option.map_none, Option.any_none, Bool.not_false, Bool.true_and]
      refine iff_of_false ?_ (by simp)
      rintro ⟨blocker, hblocker, hbound⟩
      obtain ⟨-, hsome⟩ := Option.ite_none_left_eq_some.mp hblocker
      obtain rfl := Option.some.inj hsome
      simp [List.lookup_cons] at hbound
  | some d =>
      obtain ⟨q, rfl, -⟩ := positiveDecimal_eq hdown
      simp only [Option.map_some, Option.any_some, mul_num, lt_num, Option.some.injEq, num.injEq,
        exists_eq_left']
      by_cases hbelow : price < ref * q
      · simp [hbelow, List.lookup_cons]
      · refine iff_of_false ?_ hbelow
        rintro ⟨blocker, hblocker, hbound⟩
        obtain ⟨-, hsome⟩ := Option.ite_none_left_eq_some.mp hblocker
        obtain rfl := Option.some.inj hsome
        simp [hbelow, List.lookup_cons] at hbound

theorem maxStopDistancePct_num (hoffset : 0 < offset) :
    maxStopDistancePct (some band) (num offset) =
      (positiveDecimal band.askMultiplierDown).map fun down =>
        (num 1).sub (down.div (num offset)) := by
  simp [maxStopDistancePct, hoffset.not_ge]

theorem clampSpentAtOrBelow_eq : clampSpentAtOrBelow = num (1 / 101) := by
  decide +kernel

/-! ### The three surfaces -/

/-- The consequence a warning ends with. -/
def Says (warning : ConfigDiagnostic) (sentence : String) : Prop :=
  ∃ lead, warning.message = lead ++ sentence

theorem toList_written {text : String} {chars : List Char} (h : text = String.ofList chars) :
    text.toList = chars := by
  rw [h, String.toList_ofList]

theorem toList_joined {text more : String} {chars rest : List Char} (htext : text.toList = chars)
    (hmore : more.toList = rest) : (text ++ more).toList = chars ++ rest := by
  rw [String.toList_append, htext, hmore]

theorem not_suffix_of_chars {text other : String} {chars rest : List Char}
    (htext : text.toList = chars) (hother : other.toList = rest)
    (h : ¬(chars <:+ rest ∨ rest <:+ chars)) :
    ¬(text.toList <:+ other.toList ∨ other.toList <:+ text.toList) := by
  rw [htext, hother]
  exact h

/-- Of the sentences a warning can end with, only one is that the clamp is spent. -/
theorem consequence_eq_clampSpent {settings : ProtectiveStopBandSettings} {deepest : Decimal}
    {trailing : Option TrailingDeltaFilter} {lead lead' : String}
    (h : lead ++ (spentEscape settings deepest trailing).getD
      (onBandBlockConsequence settings.onBandBlock) = lead' ++ clampSpent) :
    settings.onBandBlock = .clamp ∧ deepest.lte clampSpentAtOrBelow = true := by
  have hends : ∀ sentence : String, lead ++ sentence = lead' ++ clampSpent →
      sentence.toList <:+ clampSpent.toList ∨ clampSpent.toList <:+ sentence.toList := by
    intro sentence heq
    have hown : sentence.toList <:+ (lead ++ sentence).toList :=
      ⟨lead.toList, by rw [String.toList_append]⟩
    have hspent : clampSpent.toList <:+ (lead ++ sentence).toList :=
      ⟨lead'.toList, by rw [heq, String.toList_append]⟩
    exact List.suffix_or_suffix_of_suffix hown hspent
  have hspent : clampSpent.toList = _ := toList_joined
    (toList_joined (toList_written rfl) (toList_written rfl)) (toList_written rfl)
  have hother : ∀ mode, ¬(lead ++ onBandBlockConsequence mode = lead' ++ clampSpent) := by
    intro mode heq
    refine absurd (hends _ heq) ?_
    cases mode with
    | notify =>
        exact not_suffix_of_chars (toList_joined (toList_written rfl) (toList_written rfl)) hspent
          (by decide +kernel)
    | clamp =>
        exact not_suffix_of_chars (toList_joined (toList_written rfl) (toList_written rfl)) hspent
          (by decide +kernel)
    | nativeTrail =>
        exact not_suffix_of_chars (toList_joined (toList_written rfl) (toList_written rfl)) hspent
          (by decide +kernel)
  unfold spentEscape at h
  split at h
  · next hclamp => exact hclamp
  · split at h
    · exact absurd (hends nativeTrailUnavailable h) (not_suffix_of_chars (toList_joined
        (toList_joined (toList_written rfl) (toList_written rfl)) (toList_written rfl)) hspent
        (by decide +kernel))
    · exact absurd h (hother _)

/-- The stop at a distance below the reference, its limit leg at an offset of it. -/
def stopAtDistance (ref distance offset : ℚ) (quantity : DecimalString) :
    DesiredProtectiveStop where
  stopPrice := .printed (num (ref * (1 - distance)))
  price := .printed (num (ref * (1 - distance) * offset))
  quantity

theorem positiveDecimal_printed {q : ℚ} (hq : 0 < q) :
    positiveDecimal (.printed (num q)) = some (num q) := by
  simp [positiveDecimal, hq]

end Figures

section Surfaces

variable {symbol reference : String} {band : Option PercentPriceBySideFilter}
  {trailing : Option TrailingDeltaFilter} {mode : OnBandBlock} {path : List String}
  {quantity : DecimalString} {guarded : Bool} {ref distance offset : ℚ}

/-- A readable band whose floor the limit leg lies below, in the terms of each surface. -/
def BelowFloor (band : Option PercentPriceBySideFilter) (distance offset : ℚ) : Prop :=
  ∃ filter down, band = some filter ∧ positiveDecimal filter.askMultiplierDown = some (num down) ∧
    0 < down ∧ (1 - distance) * offset < down

theorem refusedAtFloor_stopAtDistance (href : positiveDecimal reference = some (num ref))
    (hdistance : distance < 1) (hoffset : 0 < offset) :
    RefusedAtFloor symbol reference band (stopAtDistance ref distance offset quantity) guarded ↔
      BelowFloor band distance offset := by
  obtain ⟨r, hr, hpos⟩ := positiveDecimal_eq href
  obtain rfl := num.inj hr
  have hstop : 0 < ref * (1 - distance) := mul_pos hpos (sub_pos.mpr hdistance)
  have hprice : 0 < ref * (1 - distance) * offset := mul_pos hstop hoffset
  cases band with
  | none =>
      refine iff_of_false ?_ ?_
      · rintro ⟨blocker, hblocker, -⟩
        cases hblocker
      · rintro ⟨filter, down, hband, -⟩
        cases hband
  | some filter =>
      rw [refusedAtFloor_iff href (positiveDecimal_printed hstop) (positiveDecimal_printed hprice)]
      constructor
      · rintro ⟨down, hdown, hbelow⟩
        obtain ⟨d, hd, hdpos⟩ := positiveDecimal_eq hdown
        obtain rfl := num.inj hd
        rw [mul_assoc] at hbelow
        exact ⟨filter, down, rfl, hdown, hdpos, lt_of_mul_lt_mul_left hbelow hpos.le⟩
      · rintro ⟨filter, down, hband, hdown, -, hbelow⟩
        obtain rfl := Option.some.inj hband
        refine ⟨down, hdown, ?_⟩
        rw [mul_assoc]
        exact mul_lt_mul_of_pos_left hbelow hpos

variable {filter : PercentPriceBySideFilter} {down : ℚ}

/-- The two distances in a refusal's detail are the stop's own and the band's deepest, rounded. -/
theorem refusal_reports {blocker : ProtectiveStopBlocker}
    (href : positiveDecimal reference = some (num ref)) (hdistance : distance < 1)
    (hoffset : 0 < offset)
    (hrefused : percentPriceBySideRefusal symbol reference (some filter)
      (stopAtDistance ref distance offset quantity) guarded = some blocker) :
    blocker.detail.lookup "requiredStopDistancePct" =
        some (.decimal (.printed ((num distance).toDecimalPlaces 6))) ∧
      blocker.detail.lookup "maxStopDistancePct" = some (.ofDecimal?
        ((maxStopDistancePct (some filter) (num offset)).map
          (.printed <| ·.toDecimalPlaces 6))) := by
  obtain ⟨r, hr, hpos⟩ := positiveDecimal_eq href
  obtain rfl := num.inj hr
  have hstop : 0 < ref * (1 - distance) := mul_pos hpos (sub_pos.mpr hdistance)
  have hratio : (num (ref * (1 - distance) * offset)).div (num (ref * (1 - distance))) =
      num offset := by
    rw [div_num hstop.ne', mul_div_cancel_left₀ _ hstop.ne']
  have hrequired : (num 1).sub ((num (ref * (1 - distance))).div (num ref)) = num distance := by
    rw [div_num hpos.ne', mul_div_cancel_left₀ _ hpos.ne', sub_num, sub_sub_cancel]
  unfold percentPriceBySideRefusal at hrefused
  simp only [href, stopAtDistance, positiveDecimal_printed hstop,
    positiveDecimal_printed (mul_pos hstop hoffset), hratio, hrequired] at hrefused
  obtain ⟨-, hblocker⟩ := Option.ite_none_left_eq_some.mp hrefused
  obtain rfl := Option.some.inj hblocker
  simp [List.lookup_cons]

/-- A stop is deeper than the deepest distance exactly if its limit leg lies below the floor. -/
theorem deepest_lt_iff (hoffset : 0 < offset) :
    1 - down / offset < distance ↔ (1 - distance) * offset < down := by
  rw [sub_lt_comm, lt_div_iff₀ hoffset]

theorem warning_below (hoffset : 0 < offset)
    (hdown : positiveDecimal filter.askMultiplierDown = some (num down))
    (hbelow : (1 - distance) * offset < down) :
    ∃ warning lead, protectiveStopBandWarning (some ⟨num distance, num offset, mode, path⟩)
        (some filter) trailing = some warning ∧
      warning.message = lead ++ (spentEscape ⟨num distance, num offset, mode, path⟩
        (num (1 - down / offset)) trailing).getD (onBandBlockConsequence mode) := by
  have hdeeper : ¬distance ≤ 1 - down / offset := not_le.mpr ((deepest_lt_iff hoffset).mpr hbelow)
  have hdeepest : maxStopDistancePct (some filter) (num offset) =
      some (num (1 - down / offset)) := by
    simp [maxStopDistancePct_num hoffset, hdown, div_num hoffset.ne']
  refine ⟨⟨.warn, "stop-outside-exchange-band", _, path⟩,
    bandWarningLead ⟨num distance, num offset, mode, path⟩ (num (1 - down / offset)), ?_, rfl⟩
  rw [protectiveStopBandWarning]
  dsimp only
  rw [hdeepest]
  dsimp only
  rw [lte_num, if_neg (by simpa using hdeeper)]

theorem warning_isSome_iff (hoffset : 0 < offset) :
    (protectiveStopBandWarning (some ⟨num distance, num offset, mode, path⟩) band trailing).isSome ↔
      BelowFloor band distance offset := by
  constructor
  · intro hwarned
    cases band with
    | none => cases hwarned
    | some filter =>
        cases hdown : positiveDecimal filter.askMultiplierDown with
        | none =>
            simp [protectiveStopBandWarning, maxStopDistancePct_num hoffset, hdown] at hwarned
        | some d =>
            obtain ⟨down, rfl, hpos⟩ := positiveDecimal_eq hdown
            refine ⟨filter, down, rfl, hdown, hpos, (deepest_lt_iff hoffset).mp (not_le.mp ?_)⟩
            intro hle
            simp [protectiveStopBandWarning, maxStopDistancePct_num hoffset, hdown,
              div_num hoffset.ne', hle] at hwarned
  · rintro ⟨filter, down, rfl, hdown, -, hbelow⟩
    obtain ⟨warning, -, hwarned, -⟩ :=
      @warning_below trailing mode path distance offset filter down hoffset hdown hbelow
    rw [hwarned]
    rfl

/-- The margin lifts the floor of the clamp to the market
exactly where the clamp counts as spent. -/
theorem lifted_floor_iff (href : 0 < ref) :
    ref * down / offset * (101 / 100) < ref ↔ 1 / 101 < 1 - down / offset := by
  have hfactor : ref * down / offset * (101 / 100) = ref * (down / offset * (101 / 100)) := by ring
  rw [hfactor, mul_lt_iff_lt_one_right href]
  constructor
  · intro h
    linarith
  · intro h
    linarith

/-- The clamp leaves a stop below the floor alone exactly where it is spent. -/
theorem clamp_below (href : positiveDecimal reference = some (num ref)) (hoffset : 0 < offset)
    (hdown : positiveDecimal filter.askMultiplierDown = some (num down))
    (hbelow : (1 - distance) * offset < down) :
    clampStopToExchangeFloor (num (ref * (1 - distance))) reference (some filter) (num offset) =
        (num (ref * (1 - distance)), false) ↔
      (num (1 - down / offset)).lte clampSpentAtOrBelow = true := by
  obtain ⟨r, hr, hpos⟩ := positiveDecimal_eq href
  obtain rfl := num.inj hr
  have hdpos : 0 < down := by
    obtain ⟨d, hd, hdpos⟩ := positiveDecimal_eq hdown
    exact num.inj hd ▸ hdpos
  -- the stop lies below the unlifted floor, so below the lifted one
  have hstop : ref * (1 - distance) < ref * down / offset * (101 / 100) := by
    have hfloor : ref * (1 - distance) < ref * down / offset := by
      rw [lt_div_iff₀ hoffset, mul_assoc]
      exact mul_lt_mul_of_pos_left hbelow hpos
    have hlifted : 0 < ref * down / offset := div_pos (mul_pos hpos hdpos) hoffset
    linarith
  rw [clampSpentAtOrBelow_eq, lte_num, decide_eq_true_eq, ← not_lt, ← lifted_floor_iff hpos]
  simp only [clampStopToExchangeFloor, href, hdown, isFinite_num, Bool.not_true, lte_num,
    hoffset.not_ge, decide_false, Bool.or_self, Bool.false_eq_true, ↓reduceIte, mul_num,
    div_num hoffset.ne', exchangeFloorMargin, lt_num, gte_num, hstop.not_ge, Bool.or_false]
  by_cases hlifted : ref * down / offset * (101 / 100) < ref
  · simp [hlifted]
  · simp [hlifted]

/-- The bind-time warning, the tick-time refusal and the clamp invert one inequality: a stop is
warned about exactly if it is refused at the floor, the distance such a refusal reports is deeper
than the deepest one it reports, each before it is rounded, and the warning says that the clamp is
spent exactly if the clamp leaves a stop below the floor alone. -/
theorem band_surfaces_agree (href : positiveDecimal reference = some (num ref))
    (hdistance : 0 < distance ∧ distance < 1) (hoffset : 0 < offset ∧ offset ≤ 1) :
    ((protectiveStopBandWarning (some ⟨num distance, num offset, mode, path⟩) band
        trailing).isSome ↔
      RefusedAtFloor symbol reference band (stopAtDistance ref distance offset quantity) guarded) ∧
    (∀ blocker, percentPriceBySideRefusal symbol reference band
        (stopAtDistance ref distance offset quantity) guarded = some blocker →
      blocker.detail.lookup "bound" = some (.text "floor") →
      ∃ required deepest : ℚ, blocker.detail.lookup "requiredStopDistancePct" =
          some (.decimal (.printed ((num required).toDecimalPlaces 6))) ∧
        blocker.detail.lookup "maxStopDistancePct" =
          some (.decimal (.printed ((num deepest).toDecimalPlaces 6))) ∧
        required = distance ∧ maxStopDistancePct band (num offset) = some (num deepest) ∧
        deepest < required) ∧
    ((∃ warning, protectiveStopBandWarning (some ⟨num distance, num offset, mode, path⟩) band
        trailing = some warning ∧ Says warning clampSpent) ↔
      mode = .clamp ∧ BelowFloor band distance offset ∧
        clampStopToExchangeFloor (num (ref * (1 - distance))) reference band (num offset) =
          (num (ref * (1 - distance)), false)) := by
  refine ⟨?_, ?_, ?_⟩
  · rw [warning_isSome_iff hoffset.1, refusedAtFloor_stopAtDistance href hdistance.2 hoffset.1]
  · intro blocker hblocker hbound
    obtain ⟨filter, down, rfl, hdown, -, hbelow⟩ :=
      (refusedAtFloor_stopAtDistance href hdistance.2 hoffset.1).mp ⟨blocker, hblocker, hbound⟩
    have hdeepest : maxStopDistancePct (some filter) (num offset) =
        some (num (1 - down / offset)) := by
      rw [maxStopDistancePct_num hoffset.1, hdown, Option.map_some, div_num hoffset.1.ne', sub_num]
    obtain ⟨hrequired, hmax⟩ := refusal_reports href hdistance.2 hoffset.1 hblocker
    rw [hdeepest] at hmax
    exact ⟨distance, 1 - down / offset, hrequired, hmax, rfl, hdeepest,
      (deepest_lt_iff hoffset.1).mpr hbelow⟩
  · constructor
    · rintro ⟨warning, hwarned, lead', hsays⟩
      have hbelow : BelowFloor band distance offset := by
        rw [← warning_isSome_iff hoffset.1, hwarned]
        rfl
      obtain ⟨filter, down, rfl, hdown, -, hlimit⟩ := id hbelow
      obtain ⟨warning', lead, hwarned', hmessage⟩ :=
        @warning_below trailing mode path distance offset filter down hoffset.1 hdown hlimit
      obtain rfl := Option.some.inj (hwarned.symm.trans hwarned')
      obtain ⟨hmode, hspent⟩ := consequence_eq_clampSpent (hmessage.symm.trans hsays)
      exact ⟨hmode, hbelow, (clamp_below href hoffset.1 hdown hlimit).mpr hspent⟩
    · rintro ⟨rfl, ⟨filter, down, rfl, hdown, -, hlimit⟩, hclamp⟩
      have hspent := (clamp_below href hoffset.1 hdown hlimit).mp hclamp
      obtain ⟨warning, lead, hwarned, hmessage⟩ :=
        @warning_below trailing .clamp path distance offset filter down hoffset.1 hdown hlimit
      refine ⟨warning, hwarned, lead, ?_⟩
      rw [hmessage, spentEscape, if_pos ⟨rfl, hspent⟩, Option.getD_some]

/-- A stop of ten percent under a floor of ninety-five, its limit at the trigger. -/
theorem band_surfaces_example :
    (protectiveStopBandWarning (some ⟨num (1 / 10), num 1, .clamp, []⟩)
        (some ⟨"2", "0.95", 5⟩) none).isSome ∧
      RefusedAtFloor "BTCUSDT" "100" (some ⟨"2", "0.95", 5⟩)
        (stopAtDistance 100 (1 / 10) 1 (.raw "1")) false := by
  have hagree := @band_surfaces_agree "BTCUSDT" "100" (some ⟨"2", "0.95", 5⟩) none .clamp []
    (.raw "1") false 100 (1 / 10) 1 (by decide +kernel) (by norm_num) (by norm_num)
  have hwarned : (protectiveStopBandWarning (some ⟨num (1 / 10), num 1, .clamp, []⟩)
      (some ⟨"2", "0.95", 5⟩) none).isSome := by decide +kernel
  exact ⟨hwarned, hagree.1.mp hwarned⟩

end Surfaces

end TradingBot

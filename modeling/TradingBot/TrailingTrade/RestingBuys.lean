import TradingBot.TrailingTrade.EntryProtection
import TradingBot.TrailingTrade.SentOrders
import TradingBot.TrailingTrade.TickActs

/-!
# The price a resting buy carries

A buy is sized, and checked against the exchange's minimum, at the current
price; a maker entry and a stop-limit rung then carry another one. The order
meets the minimum at its own price exactly where the amount it was sized from
pays, at the current price, for the smallest quantity that does.
-/

namespace TradingBot.TrailingTrade

open Decimal Grid

variable {input : TTInput} {output : TTOutput} {intent : OrderIntent} {order : OrderParams}
  {d : Decision}

/-! ### What a resting buy is made from -/

/-- The share of the current price a passive entry is offset to. -/
def makerShare (offsetBps : Decimal) : Decimal := (num 1).sub (offsetBps.div (num 10000))

/-- The profile enters passively, at a share of the current price. -/
def EntersPassively (config : TTConfig) (share : Decimal) : Prop :=
  ∃ execution offsetBps, config.execution = some execution ∧ execution.entryMode = .maker ∧
    parse (execution.makerOffsetBps.getD "0") = some offsetBps ∧ share = makerShare offsetBps

/-- The amount a resting buy is sized from, and the share of the current price it is sent at. -/
inductive RestsAt (input : TTInput) : DecimalString → Decimal → Prop where
  /-- A rung that waits for the price to break out. -/
  | stopLimit (level : GridLevel) (share : Decimal)
      (level_mem : level ∈ input.config.buy.gridLevels)
      (share_eq : parse level.limitPricePercentage = some share) :
      RestsAt input (.raw level.maxPurchaseAmount) share
  /-- A rung that is entered passively. -/
  | makerRung (level : GridLevel) (share : Decimal)
      (level_mem : level ∈ input.config.buy.gridLevels)
      (passive : EntersPassively input.config share) :
      RestsAt input (.raw level.maxPurchaseAmount) share
  /-- The single entry, from the budget or the part of it the regime allows. -/
  | makerEntry (budget : Decimal) (amount : DecimalString) (share : Decimal)
      (budget_eq : resolveEntryBudget input.config input.account
        input.market.symbolInfo.quoteAsset = .ok budget)
      (amount_eq : amount = .printed budget ∨ ∃ exposure,
        regimeExposure input.config input.market = .ok exposure ∧
          amount = scaledBudget budget exposure)
      (passive : EntersPassively input.config share) :
      RestsAt input amount share

/-- The text is that share of the current price, floored to the tick. -/
def CarriesShare (input : TTInput) (share : Decimal) (text : DecimalString) : Prop :=
  ∃ price tick, parse input.market.currentPrice = some price ∧
    parse input.market.symbolInfo.filters.tickSize = some tick ∧
    text = toFixedStep (roundToStep (price.mul share) tick) tick

theorem gridStopLimit_carries {level : GridLevel} {stopLimit : StopLimit}
    (h : gridStopLimit input level = some stopLimit) :
    ∃ share, parse level.limitPricePercentage = some share ∧
      CarriesShare input share stopLimit.price := by
  unfold gridStopLimit at h
  split at h
  · cases h
  · split at h
    · next price stopPct limitPct tick hprice hstop hlimit htick =>
        split at h
        · cases h
          exact ⟨limitPct, hlimit, price, tick, hprice, htick, rfl⟩
        · cases h
    · cases h

theorem resolveMakerEntryLimit_carries {text : DecimalString}
    (h : resolveMakerEntryLimit input = some text) :
    ∃ share, EntersPassively input.config share ∧ CarriesShare input share text := by
  unfold resolveMakerEntryLimit at h
  split at h
  · cases h
  · next execution hexecution =>
      split at h
      · cases h
      · next hmaker =>
          dsimp only at h
          split at h
          · next price offsetBps tick hprice hoffset htick =>
              split at h
              · cases h
              · obtain ⟨-, hsome⟩ := Option.ite_none_left_eq_some.mp h
                cases hsome
                exact ⟨makerShare offsetBps,
                  ⟨execution, offsetBps, hexecution, not_not.mp hmaker, hoffset, rfl⟩,
                  price, tick, hprice, htick, rfl⟩
          · cases h

theorem entryParams_rests {quantity : DecimalString} {makerLimit : Option DecimalString}
    (hrests : (entryParams quantity makerLimit).type ≠ .market) :
    ∃ text, makerLimit = some text ∧ (entryParams quantity makerLimit).price = some text ∧
      (entryParams quantity makerLimit).quantity = quantity := by
  cases makerLimit with
  | none => exact absurd rfl hrests
  | some text => exact ⟨text, rfl, rfl, rfl⟩

theorem params_of_asSent {sender : Option String} {silent : List Decision} {placed : OrderIntent}
    {params : OrderParams} (hsilent : ∀ d ∈ silent, d.order = none)
    (hd : d ∈ asSent sender (silent ++ [.placeOrder placed params]))
    (horder : d.order = some (intent, order)) : order = params := by
  obtain ⟨d', hd', intent', horder', -⟩ := order_of_asSent hd horder
  rw [List.mem_append, List.mem_singleton] at hd'
  rcases hd' with hd' | rfl
  · rw [hsilent d' hd'] at horder'
    cases horder'
  · cases horder'
    rfl

/-- A buy a tick sends on its own account, other than at market, was sized from one of the
profile's amounts at the current price and carries a share of that price. -/
theorem resting_buy_sized (htick : computeTick input = .ok output) (hd : d ∈ output.decisions)
    (horder : d.order = some (intent, order)) (hside : intent.side = .buy)
    (hrests : order.type ≠ .market) (hmanual : intent.reason ≠ "manual") :
    ∃ amount share text, RestsAt input amount share ∧ SizedBuy input amount order.quantity ∧
      order.price = some text ∧ CarriesShare input share text := by
  have hacts := (computeTick_acts input).returned htick
  cases hacts with
  | rests silent latches =>
      rw [silent d hd] at horder
      cases horder
  | manual override payload quantity override_eq kind decisions latches =>
      rw [decisions] at hd
      have hreason := reasonOf_manual hd
      rw [reasonOf_of_order horder] at hreason
      exact absurd (Option.some.inj hreason) hmanual
  | liquidates override quantity seed override_eq kind decisions latches =>
      rw [decisions] at hd
      obtain ⟨d', hd', rfl⟩ := List.mem_map.mp hd
      rw [order_attribute, order_of_mem_closing hd', Option.map_some] at horder
      cases horder
      cases hside
  | arms at_ decisions latches =>
      rw [decisions] at hd
      cases hside.symm.trans (side_of_protectiveStop hd horder)
  | sells reason quantity seed unasked noForeignSell decisions latches =>
      rw [decisions] at hd
      cases hside.symm.trans (side_of_closing hd horder)
  | rung sender target level quantity unasked level_eq sized capped cooled decisions latches =>
      rw [decisions] at hd
      have hparams := params_of_asSent staleCancels_silent hd horder
      have hlevel : level ∈ input.config.buy.gridLevels := List.mem_of_getElem? level_eq
      cases hstop : gridStopLimit (normalizedInput input) level with
      | some stopLimit =>
          rw [hstop] at hparams
          obtain ⟨share, hshare, hcarries⟩ := gridStopLimit_carries hstop
          rw [hparams]
          exact ⟨_, share, _, .stopLimit level share hlevel hshare, sized, rfl, hcarries⟩
      | none =>
          rw [hstop] at hparams
          rw [hparams] at hrests ⊢
          obtain ⟨text, hlimit, hprice, hquantity⟩ := entryParams_rests hrests
          obtain ⟨share, hpassive, hcarries⟩ := resolveMakerEntryLimit_carries hlimit
          refine ⟨_, share, text, .makerRung level share hlevel hpassive, ?_, hprice, hcarries⟩
          rw [hquantity]
          exact sized
  | single sender quantity unasked noOpenBuy sized cooled decisions latches =>
      rw [decisions, ← List.nil_append [buildFirstBuyDecision _ quantity]] at hd
      have hparams := params_of_asSent (List.forall_mem_nil _) hd horder
      obtain ⟨budget, amount, hbudget, hamount, hsized⟩ := sized
      rw [hparams] at hrests ⊢
      obtain ⟨text, hlimit, hprice, hquantity⟩ := entryParams_rests hrests
      obtain ⟨share, hpassive, hcarries⟩ := resolveMakerEntryLimit_carries hlimit
      refine ⟨amount, share, text, .makerEntry budget amount share hbudget hamount hpassive, ?_,
        hprice, hcarries⟩
      rw [hquantity]
      exact hsized
  | adds quantity addIndex pyramid unasked noOpenBuy held sized capped decisions latches =>
      rw [decisions, List.mem_singleton] at hd
      rw [hd] at horder
      cases horder
      exact absurd rfl hrests

/-! ### The figures -/

section Figures

variable {step tick minQty minNotional budget price share quantity carried : ℚ}

/-- The amount pays, at the current price, for the smallest quantity on the lot grid that reaches
the minimum at the price the order carries. -/
def PaysAtCarried (step tick minNotional budget price share : ℚ) : Prop :=
  0 < floorTo tick (price * share) ∧
    price * ceilTo step (minNotional / floorTo tick (price * share)) ≤ budget

/-- Sizing succeeds only through the exchange's own size check. -/
theorem computeFirstBuyQuantity_finalised {filters : SymbolFilters} {parsed : SizeFilters}
    {amount sized : DecimalString} {priceStr minPurchase : String} {stop : Option EntryStopFloor}
    (hparsed : parseFilters filters = some parsed)
    (hbuy : computeFirstBuyQuantity amount priceStr filters minPurchase stop = .ok sized) :
    ∃ at_ spend, parse priceStr = some at_ ∧ amount.toDecimal = some spend ∧
      at_.lte (num 0) = false ∧
      finalise (roundToStep (spend.div at_) parsed.step) at_ parsed = .ok sized := by
  unfold computeFirstBuyQuantity at hbuy
  rw [hparsed] at hbuy
  dsimp only at hbuy
  split at hbuy
  · next at_ spend hprice hspend =>
      refine ⟨at_, spend, hprice, hspend, ?_⟩
      split at hbuy
      · cases hbuy
      · next hpos =>
          refine ⟨Bool.eq_false_iff.mpr hpos, ?_⟩
          split at hbuy
          · cases hbuy
          · next printed hfinal =>
              split at hbuy
              · cases hbuy
              · split at hbuy
                · cases hbuy
                  exact hfinal
                · split at hbuy
                  · cases hbuy
                  · split at hbuy
                    · cases hbuy
                    · cases hbuy
                      exact hfinal
  · cases hbuy

/-- A buy sized from a number was sized at a positive price, and is the floor of the quotient. -/
theorem sizedBuy_figures {amount sized : DecimalString}
    (hfilters : PositiveFilters input.market.symbolInfo.filters step tick minQty minNotional)
    (hsized : SizedBuy input amount sized) (hbudget : amount.toDecimal = some (num budget)) :
    ∃ price, parse input.market.currentPrice = some (num price) ∧ 0 < price ∧
      0 < floorTo step (budget / price) ∧
      sized.toDecimal = some (num (floorTo step (budget / price))) := by
  obtain ⟨parsed, hparsed, hstep, -⟩ := hfilters.parsed
  obtain ⟨minPurchase, stop, hbuy⟩ := hsized
  obtain ⟨at_, spend, hprice, hspend, hpos, hfinal⟩ :=
    computeFirstBuyQuantity_finalised hparsed hbuy
  rw [hbudget] at hspend
  cases hspend
  obtain ⟨hquantity, -, hnotional, hprinted⟩ := finalise_eq_ok hfinal
  rw [hstep] at hquantity hnotional hprinted
  cases at_ with
  | nan =>
      -- nothing compares with a price that is no number
      rw [meetsMinNotional, mul_nan, gte, lte_nan] at hnotional
      cases hnotional
  | inf sign =>
      cases sign with
      | true => exact absurd hpos (by decide)
      | false =>
          have hzero : roundToStep ((num budget).div (inf false)) (num step) = num 0 := by
            rw [show (num budget).div (inf false) = num 0 from rfl,
              roundToStep_num hfilters.step_pos, floorTo]
            simp
          rw [hzero] at hquantity
          exact absurd hquantity (by simp)
  | num price =>
      have hprice_pos : 0 < price := by simpa using hpos
      rw [div_num hprice_pos.ne', roundToStep_num hfilters.step_pos] at hquantity hprinted
      refine ⟨price, hprice, hprice_pos, by simpa using hquantity, ?_⟩
      rw [hprinted, toFixedStep_onGrid hfilters.step_terminating (onGrid_floorTo step _)]
      rfl

theorem carriesShare_figures {text : DecimalString}
    (hfilters : PositiveFilters input.market.symbolInfo.filters step tick minQty minNotional)
    (hprice : parse input.market.currentPrice = some (num price))
    (hcarries : CarriesShare input (num share) text) :
    text.toDecimal = some (num (floorTo tick (price * share))) := by
  obtain ⟨price', tick', hprice', htick', rfl⟩ := hcarries
  rw [hprice] at hprice'
  cases hprice'
  rw [hfilters.tick_eq] at htick'
  cases htick'
  rw [mul_num, roundToStep_num hfilters.tick_pos,
    toFixedStep_onGrid hfilters.tick_terminating (onGrid_floorTo tick _)]
  rfl

theorem minNotional_le_iff (hstep : 0 < step) (hmin : 0 < minNotional) (hprice : 0 < price)
    (hquantity : 0 < floorTo step (budget / price)) :
    minNotional ≤ floorTo step (budget / price) * carried ↔
      0 < carried ∧ price * ceilTo step (minNotional / carried) ≤ budget := by
  rcases lt_or_ge 0 carried with hcarried | hcarried
  · rw [← div_le_iff₀ hcarried, le_floorTo_iff hstep, le_div_iff₀ hprice,
      mul_comm (ceilTo step (minNotional / carried))]
    exact ⟨fun h => ⟨hcarried, h⟩, fun h => h.2⟩
  · have hworth : floorTo step (budget / price) * carried ≤ 0 :=
      mul_nonpos_of_nonneg_of_nonpos hquantity.le hcarried
    constructor
    · intro h
      linarith
    · rintro ⟨h, -⟩
      linarith

/-- Carried at or below the current price, a buy costs no more than it was sized from. -/
theorem floorTo_mul_le (hstep : 0 < step) (hprice : 0 < price)
    (hquantity : 0 < floorTo step (budget / price)) (hbelow : carried ≤ price) :
    floorTo step (budget / price) * carried ≤ budget := by
  calc floorTo step (budget / price) * carried
      ≤ floorTo step (budget / price) * price := mul_le_mul_of_nonneg_left hbelow hquantity.le
    _ ≤ budget / price * price := mul_le_mul_of_nonneg_right (floorTo_le hstep _) hprice.le
    _ = budget := div_mul_cancel₀ budget hprice.ne'

end Figures

/-! ### The price the order carries -/

/-- A flat profile at a price of 100 whose one rung spends 10, passively. -/
def samplePassive (offsetBps : String) : TTInput :=
  sampleInput
    { sampleConfig with
      buy := { sampleConfig.buy with
        gridLevels :=
          [{ triggerPercentage := "1", stopPricePercentage := "", limitPricePercentage := ""
             minPurchaseAmount := "", maxPurchaseAmount := "10" }] }
      sell := { sampleConfig.sell with stopLossPercentage := "0" }
      execution := some ⟨.maker, some offsetBps, none⟩ }
    initialTTState "100" 0

/-- The buy of the sample rung, a tenth of a coin. -/
def samplePassiveBuy (offsetBps : String) : Decision :=
  buildGridBuyDecision (samplePassive offsetBps) (.printed (num (1 / 10))) 0 none

theorem sampleMarket_filters :
    PositiveFilters sampleMarket.symbolInfo.filters (1 / 1000) (1 / 100) (1 / 1000) 10 :=
  ⟨by decide +kernel, by decide +kernel, by decide +kernel, by decide +kernel, by norm_num,
    by norm_num, by norm_num, by norm_num⟩

end TradingBot.TrailingTrade

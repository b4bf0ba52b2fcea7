import TradingBot.Core.ArmOutcome
import TradingBot.Lib.LabelledRun
import TradingBot.Rebalance.Tick

/-!
# The budget of a basket

The strategy counts free cash towards the basket only up to the headroom its
budget leaves, but a symbol then buys the whole shortfall against its weight. A
buy stays inside the headroom exactly where the siblings hold no more than the
weight leaves them; over a run of ticks that all do, the basket's value never
passes the larger of the budget and what it began with.
-/

namespace TradingBot.Rebalance

open Decimal Grid LabelledRun

/-! ### The figures of a plan -/

/-- What a plan is computed from, where everything reads as a number. -/
structure Figures where
  price : ℚ
  held : ℚ
  weight : ℚ
  siblings : List ℚ
  driftThreshold : ℚ
  minTrade : ℚ
  budget : ℚ
  available : ℚ
  lot : ℚ
  enabled : Bool
  exitWhenZeroWeight : Bool

namespace Figures

@[simps]
def input (f : Figures) : RebalanceInput where
  currentPrice := num f.price
  heldQty := num f.held
  targetWeight := num f.weight
  siblingValuesQuote := f.siblings.map num
  driftThreshold := num f.driftThreshold
  minTradeQuote := num f.minTrade
  basketBudgetQuote := num f.budget
  availableQuote := num f.available
  stepSize := num f.lot
  enabled := f.enabled
  exitWhenZeroWeight := f.exitWhenZeroWeight

def own (f : Figures) : ℚ := f.price * f.held

/-- What the symbol and its siblings are worth. -/
def basket (f : Figures) : ℚ := f.own + f.siblings.sum

def headroom (f : Figures) : ℚ := Max.max 0 (f.budget - f.basket)

def total (f : Figures) : ℚ := f.basket + Min.min f.available f.headroom

def shortfall (f : Figures) : ℚ := f.weight * f.total - f.own

/-- What the shortfall and the wallet let the symbol spend. -/
def notional (f : Figures) : ℚ := Min.min f.shortfall f.available

/-- A quantity the exchange's lot allows. -/
def Lot (f : Figures) (q : ℚ) : Prop := 0 < f.lot → OnGrid f.lot q

def floorLot (f : Figures) (x : ℚ) : ℚ := if f.lot ≤ 0 then x else floorTo f.lot x

/-- The guards a buy passes before it is sized. -/
structure BuyDue (f : Figures) : Prop where
  enabled : f.enabled = true
  weight_pos : 0 < f.weight
  total_pos : 0 < f.total
  price_pos : 0 < f.price
  drifted : f.driftThreshold ≤ |f.own / f.total - f.weight|
  worthwhile : f.minTrade ≤ f.notional

/-- A buy is due, and a lot worth more than the headroom fits both the wallet and what the
symbol's weight of the larger of budget and basket leaves it short of. -/
def Overspends (f : Figures) : Prop :=
  f.BuyDue ∧ ∃ q, f.Lot q ∧ f.headroom < q * f.price ∧ q * f.price ≤ f.available ∧
    q * f.price ≤ f.weight * Max.max f.budget f.basket - f.own

/-- A buy keeps the basket within the larger of its budget and its value, and is made only while
the budget is not reached. -/
def WithinBudget (f : Figures) : Prop :=
  ∀ quantity, (computeRebalance f.input).trade = some ⟨.buy, quantity⟩ →
    ∃ q, quantity.toDecimal = some (num q) ∧
      f.own + f.siblings.sum + q * f.price ≤ Max.max f.budget (f.own + f.siblings.sum) ∧
      f.own + f.siblings.sum < f.budget

variable {f : Figures} {q x : ℚ}

@[simp] theorem input_ownValue (f : Figures) : f.input.ownValue = num f.own := rfl

@[simp] theorem input_basketValue (f : Figures) : f.input.basketValue = num f.basket := by
  have hfold : ∀ (values : List ℚ) (acc : ℚ),
      (values.map num).foldl (·.add ·) (num acc) = num (acc + values.sum) := by
    intro values
    induction values with
    | nil => simp
    | cons v values ih =>
        intro acc
        rw [List.map_cons, List.foldl_cons, add_num, ih, List.sum_cons, add_assoc]
  exact hfold f.siblings f.own

@[simp] theorem input_total (f : Figures) : f.input.total = num f.total := by
  rw [RebalanceInput.total, input_basketValue]
  simp [total, headroom]

theorem floorToStep_num (f : Figures) (x : ℚ) :
    floorToStep (num x) (num f.lot) = num (f.floorLot x) := by
  unfold floorToStep floorLot
  by_cases hlot : f.lot ≤ 0
  · simp [hlot]
  · rw [if_neg (by simpa using hlot), if_neg hlot, roundDown_num (not_le.mp hlot).ne']

theorem floorLot_le (f : Figures) (x : ℚ) : f.floorLot x ≤ x := by
  unfold floorLot
  split
  · exact le_rfl
  · next hlot => exact floorTo_le (not_le.mp hlot) x

theorem lot_floorLot (f : Figures) (x : ℚ) : f.Lot (f.floorLot x) := by
  intro hlot
  rw [floorLot, if_neg (not_le.mpr hlot)]
  exact onGrid_floorTo _ _

theorem Lot.le_floorLot (hq : f.Lot q) (hqx : q ≤ x) : q ≤ f.floorLot x := by
  unfold floorLot
  split
  · exact hqx
  · next hlot => exact (hq (not_le.mp hlot)).le_floorTo (not_le.mp hlot) hqx

theorem headroom_nonneg (f : Figures) : 0 ≤ f.headroom := le_max_left _ _

theorem basket_add_headroom (f : Figures) : f.basket + f.headroom = Max.max f.budget f.basket := by
  rw [headroom, ← max_add_add_left, add_zero, add_sub_cancel, max_comm]

theorem total_of_headroom_le (h : f.headroom ≤ f.available) :
    f.total = Max.max f.budget f.basket := by
  rw [total, min_eq_right h, basket_add_headroom]

/-! ### When a plan trades -/

/-- What a plan does once its guards are passed. -/
theorem computeRebalance_of_drift (henabled : f.enabled = true) (hweight : 0 < f.weight)
    (htotal : 0 < f.total) (hprice : 0 < f.price)
    (hdrift : f.driftThreshold ≤ |f.own / f.total - f.weight|) :
    computeRebalance f.input = if 0 < f.shortfall then f.input.planBuy (num f.shortfall)
      else f.input.planSell (num f.shortfall) := by
  unfold computeRebalance
  dsimp only
  rw [input_total, input_ownValue, div_num htotal.ne']
  simp [shortfall, henabled, hweight.not_ge, htotal.not_ge, hprice.not_ge, hdrift.not_gt]

theorem planBuy_eq (hprice : 0 < f.price) :
    f.input.planBuy (num f.shortfall) =
      if f.notional < f.minTrade then
        f.input.hold (if f.available < f.minTrade then .noQuote else .belowMinTrade)
      else if f.floorLot (f.notional / f.price) ≤ 0 then f.input.hold .belowStep
      else f.input.trading .buy (num (f.floorLot (f.notional / f.price))) .rebalance := by
  have hsize : floorToStep ((num f.notional).div (num f.price)) (num f.lot) =
      num (f.floorLot (f.notional / f.price)) := by
    rw [div_num hprice.ne', floorToStep_num]
  have hmin : (num f.shortfall).min (num f.available) = num f.notional := min_num
  unfold RebalanceInput.planBuy
  dsimp only
  rw [input_availableQuote, input_currentPrice, input_stepSize, hmin, hsize]
  simp

/-- A plan that trades passed the guards, or sells a symbol that lost its weight. -/
theorem guards_of_trade {trade : Trade} (h : (computeRebalance f.input).trade = some trade) :
    (f.enabled = true ∧ 0 < f.weight ∧ 0 < f.total ∧ 0 < f.price ∧
      f.driftThreshold ≤ |f.own / f.total - f.weight|) ∨
    (f.weight ≤ 0 ∧ f.input.planWithoutTarget.trade = some trade) := by
  unfold computeRebalance at h
  split at h
  · cases h
  · next henabled =>
      split at h
      · next hweight => exact .inr ⟨by simpa using hweight, h⟩
      · next hweight =>
          dsimp only at h
          split at h
          · cases h
          · next hguard =>
              rw [Bool.or_eq_true, not_or] at hguard
              have htotal : 0 < f.total := by simpa using hguard.1
              split at h
              · cases h
              · next hdrift =>
                  rw [input_total, input_ownValue, div_num htotal.ne'] at hdrift
                  exact .inl ⟨by simpa using henabled, by simpa using hweight,
                    htotal, by simpa using hguard.2, by simpa using hdrift⟩

/-- A symbol without a weight is only ever sold, out of a holding worth a trade. -/
theorem planWithoutTarget_trade {trade : Trade}
    (h : f.input.planWithoutTarget.trade = some trade) :
    trade = ⟨.sell, .printed (num (f.floorLot f.held))⟩ ∧ 0 < f.held ∧ f.minTrade ≤ f.own ∧
      0 < f.floorLot f.held := by
  unfold RebalanceInput.planWithoutTarget at h
  split at h
  · next hheld =>
      split at h
      · cases h
      · next hworth =>
          dsimp only at h
          rw [input_heldQty, input_stepSize, floorToStep_num] at h
          split at h
          · cases h
          · next hqty =>
              cases h
              rw [Bool.and_eq_true] at hheld
              exact ⟨rfl, by simpa using hheld.2, by simpa using hworth,
                by simpa using hqty⟩
  · cases h

theorem trade_buy_iff {quantity : DecimalString} :
    (computeRebalance f.input).trade = some ⟨.buy, quantity⟩ ↔
      f.BuyDue ∧ 0 < f.shortfall ∧ 0 < f.floorLot (f.notional / f.price) ∧
        quantity = .printed (num (f.floorLot (f.notional / f.price))) := by
  constructor
  · intro h
    rcases guards_of_trade h with ⟨henabled, hweight, htotal, hprice, hdrift⟩ | ⟨-, hexit⟩
    · rw [computeRebalance_of_drift henabled hweight htotal hprice hdrift] at h
      split at h
      · next hshort =>
          rw [planBuy_eq hprice] at h
          split at h
          · cases h
          · next hworth =>
              split at h
              · cases h
              · next hqty =>
                  cases h
                  exact ⟨⟨henabled, hweight, htotal, hprice, hdrift, not_lt.mp hworth⟩, hshort,
                    not_le.mp hqty, rfl⟩
      · unfold RebalanceInput.planSell at h
        dsimp only at h
        split at h
        · cases h
        · split at h
          · cases h
          · cases h
    · cases (planWithoutTarget_trade hexit).1
  · rintro ⟨hdue, hshort, hqty, rfl⟩
    rw [computeRebalance_of_drift hdue.enabled hdue.weight_pos hdue.total_pos hdue.price_pos
      hdue.drifted, if_pos hshort, planBuy_eq hdue.price_pos, if_neg (not_lt.mpr hdue.worthwhile),
      if_neg (not_le.mpr hqty)]
    rfl

theorem trade_sell {quantity : DecimalString} (hmin : 0 < f.minTrade)
    (h : (computeRebalance f.input).trade = some ⟨.sell, quantity⟩) :
    ∃ q, quantity.toDecimal = some (num q) ∧ 0 ≤ q * f.price := by
  rcases guards_of_trade h with ⟨henabled, hweight, htotal, hprice, hdrift⟩ | ⟨-, hexit⟩
  · rw [computeRebalance_of_drift henabled hweight htotal hprice hdrift] at h
    split at h
    · rw [planBuy_eq hprice] at h
      split at h
      · cases h
      · split at h
        · cases h
        · cases h
    · unfold RebalanceInput.planSell at h
      dsimp only at h
      rw [input_currentPrice, input_heldQty, input_stepSize, abs_num, div_num hprice.ne', min_num,
        floorToStep_num] at h
      split at h
      · cases h
      · split at h
        · cases h
        · next hqty =>
            cases h
            have hpos : 0 < f.floorLot (Min.min (|f.shortfall| / f.price) f.held) := by
              simpa using hqty
            exact ⟨_, rfl, mul_nonneg hpos.le hprice.le⟩
  · obtain ⟨htrade, hheld, hworth, hqty⟩ := planWithoutTarget_trade hexit
    cases htrade
    have hprice : 0 < f.price := by
      by_contra hneg
      have hown : f.own ≤ 0 := mul_nonpos_of_nonpos_of_nonneg (not_lt.mp hneg) hheld.le
      linarith
    exact ⟨_, rfl, mul_nonneg hqty.le hprice.le⟩

/-! ### When a buy stays inside the budget -/

/-- What a buy spends passes the headroom exactly where some lot within its means does. -/
theorem headroom_lt_iff (hprice : 0 < f.price) :
    f.headroom < f.floorLot (f.notional / f.price) * f.price ↔
      ∃ q, f.Lot q ∧ f.headroom < q * f.price ∧ q * f.price ≤ f.available ∧
        q * f.price ≤ f.weight * Max.max f.budget f.basket - f.own := by
  constructor
  · intro h
    have hspend : f.floorLot (f.notional / f.price) * f.price ≤ f.notional := by
      rw [← le_div_iff₀ hprice]
      exact f.floorLot_le _
    have havailable : f.headroom ≤ f.available :=
      (h.trans_le (hspend.trans (min_le_right _ _))).le
    refine ⟨_, f.lot_floorLot _, h, hspend.trans (min_le_right _ _), ?_⟩
    rw [← total_of_headroom_le havailable]
    exact hspend.trans (min_le_left _ _)
  · rintro ⟨q, hlot, hpast, havailable, hshort⟩
    rw [← total_of_headroom_le (hpast.trans_le havailable).le] at hshort
    have hq : q ≤ f.notional / f.price := by
      rw [le_div_iff₀ hprice]
      exact le_min hshort havailable
    exact hpast.trans_le (mul_le_mul_of_nonneg_right (hlot.le_floorLot hq) hprice.le)

/-- A plan stays inside the budget exactly where it does not overspend. -/
theorem withinBudget_iff (f : Figures) : f.WithinBudget ↔ ¬ f.Overspends := by
  constructor
  · rintro hwithin ⟨hdue, hpast⟩
    have hspend := (headroom_lt_iff hdue.price_pos).mpr hpast
    have hqty : 0 < f.floorLot (f.notional / f.price) :=
      pos_of_mul_pos_left (f.headroom_nonneg.trans_lt hspend) hdue.price_pos.le
    have hshort : 0 < f.shortfall := by
      have hnotional := mul_le_mul_of_nonneg_right (f.floorLot_le (f.notional / f.price))
        hdue.price_pos.le
      rw [div_mul_cancel₀ _ hdue.price_pos.ne'] at hnotional
      have hle : f.notional ≤ f.shortfall := min_le_left _ _
      have hnonneg := f.headroom_nonneg
      linarith
    obtain ⟨q, hq, hkept, -⟩ := hwithin _ (trade_buy_iff.mpr ⟨hdue, hshort, hqty, rfl⟩)
    cases hq
    have hsum := f.basket_add_headroom
    rw [basket] at hsum
    linarith
  · intro hkeeps quantity htrade
    obtain ⟨hdue, -, hqty, rfl⟩ := trade_buy_iff.mp htrade
    have hspend : f.floorLot (f.notional / f.price) * f.price ≤ f.headroom := by
      by_contra hpast
      exact hkeeps ⟨hdue, (headroom_lt_iff hdue.price_pos).mp (not_le.mp hpast)⟩
    have hsum := f.basket_add_headroom
    rw [basket] at hsum
    refine ⟨_, rfl, by linarith, ?_⟩
    have hroom : 0 < f.headroom := (mul_pos hqty hdue.price_pos).trans_le hspend
    rcases lt_max_iff.mp hroom with h | h
    · exact absurd h (lt_irrefl 0)
    · exact sub_pos.mp h

end Figures

/-! ### Runs of a basket -/

/-- A text of the configuration within the bounds of its schema. -/
def accepts (raw : Option String) (bounds : ℚ → Bool) : Bool :=
  match raw.bind parse with
  | some (num q) => bounds q
  | _ => false

/-- The weight a target names, where it names one. -/
def weightOf (target : RebalanceTarget) : ℚ :=
  match parse target.weight with
  | some (num q) => q
  | _ => 0

/-- The configuration passed its schema. -/
def schemaAccepts (config : RebalanceConfig) : Bool :=
  config.targets.all (fun target => accepts (some target.weight) fun q => 0 < q && q ≤ 1) &&
    decide ((config.targets.map weightOf).sum ≤ 1) &&
    accepts config.driftThreshold (fun q => 0 < q && q < 1) &&
    accepts config.minTradeQuote (fun q => 0 < q) &&
    accepts config.basketBudgetQuote (fun q => 0 ≤ q) &&
    config.momentum.lookbackCandles.any (fun n => 2 ≤ n && n ≤ 500) &&
    config.momentum.topK.any (fun n => 1 ≤ n && n ≤ 50)

theorem exists_of_accepts {raw : Option String} {bounds : ℚ → Bool}
    (h : accepts raw bounds = true) (fallback : ℚ) :
    ∃ q, dec (raw.map .raw) fallback = num q ∧ bounds q = true := by
  unfold accepts at h
  split at h
  · next q hq =>
      obtain ⟨s, rfl, hs⟩ := Option.bind_eq_some_iff.mp hq
      refine ⟨q, ?_, h⟩
      rw [dec, Option.map_some, Option.bind_some]
      exact congrArg (Option.getD · (num fallback)) hs
  · cases h

/-- A profile's symbols at constant prices. -/
structure Basket where
  config : RebalanceConfig
  symbols : Finset String
  price : String → ℚ

abbrev Holdings := String → ℚ

/-- An entry of the store that a symbol reads as a sibling's value. -/
def siblingEntry (symbol : String) (entry : String × KvValue) : Bool :=
  (taggedSymbol kvValueTag entry.1).any (· ≠ symbol)

/-- An order filled as sent. -/
def fillOrder (held : Holdings) : Decision → Holdings
  | .placeOrder intent params =>
      match params.quantity.toDecimal with
      | some (num q) =>
          Function.update held intent.symbol
            (match intent.side with
              | .buy => held intent.symbol + q
              | .sell => held intent.symbol - q)
      | _ => held
  | _ => held

namespace Basket

def value (b : Basket) (held : Holdings) : ℚ := ∑ s ∈ b.symbols, b.price s * held s

/-- What the store holds for a symbol whose published value is up to date. -/
def publishedEntry (b : Basket) (held : Holdings) (s : String) : String × KvValue :=
  (kvValueTag ++ s, .text (.printed (num (b.price s * held s))))

/-- The tick of one of the basket's symbols sees the basket as it is. -/
structure Sees (b : Basket) (held : Holdings) (input : RebalanceTickInput) : Prop where
  config_eq : input.config = b.config
  symbol_mem : input.market.symbol ∈ b.symbols
  price_eq : parse input.market.currentPrice = some (num (b.price input.market.symbol))
  held_eq : dec input.state.heldQuantity 0 = num (held input.market.symbol)
  published : (input.profileKv.filter (siblingEntry input.market.symbol) : Multiset _) =
    (b.symbols.erase input.market.symbol).val.map (b.publishedEntry held)
  available : ∃ free, (rebalanceInput input (num 0)).availableQuote = num free
  lot : ∃ step, (rebalanceInput input (num 0)).stepSize = num step

/-- A tick whose orders fill as sent. -/
def step (held : Holdings) (input : RebalanceTickInput) : Option Holdings :=
  match computeTick input with
  | .ok output => some (output.decisions.foldl fillOrder held)
  | .error _ => none

/-- A tick that sees the basket as it is and whose figures do not overspend. -/
def Prudent (b : Basket) (held : Holdings) (input : RebalanceTickInput) : Prop :=
  b.Sees held input ∧ ∀ f : Figures,
    rebalanceInput input (num (b.price input.market.symbol)) = f.input → ¬ f.Overspends

end Basket

/-! ### What a tick reads -/

section Reads

variable {input : RebalanceTickInput}

theorem siblingValue_eq (symbol : String) (entry : String × KvValue) :
    siblingValue symbol entry =
      if siblingEntry symbol entry then some (storedValue entry.2) else none := by
  unfold siblingValue siblingEntry
  cases taggedSymbol kvValueTag entry.1 with
  | none => rfl
  | some sibling =>
      by_cases hself : sibling = symbol
      · simp [hself]
      · simp [hself]

theorem siblingValues_eq (profileKv : ProfileKv) (symbol : String) :
    siblingValues profileKv symbol =
      (profileKv.filter (siblingEntry symbol)).map (storedValue ·.2) := by
  unfold siblingValues
  induction profileKv with
  | nil => rfl
  | cons entry profileKv ih =>
      rw [List.filterMap_cons, siblingValue_eq, List.filter_cons]
      by_cases hentry : siblingEntry symbol entry = true
      · rw [if_pos hentry, if_pos hentry, List.map_cons, ih]
      · rw [if_neg hentry, if_neg hentry, ih]

theorem momentumTargetWeight_num (self : MomentumEntry) (siblings : List MomentumEntry)
    (topK : ℕ) : ∃ w, momentumTargetWeight self siblings topK = num w := by
  unfold momentumTargetWeight
  extract_lets ranked held rank
  by_cases hrank : held ≤ rank
  · exact ⟨0, if_pos hrank⟩
  · have hheld : (held : ℚ) ≠ 0 := by
      exact_mod_cast (Nat.zero_lt_of_lt (not_le.mp hrank)).ne'
    exact ⟨1 / held, (if_neg hrank).trans (div_num hheld)⟩

theorem exists_map_num {values : List Decimal} {numbers : Multiset ℚ}
    (h : (values : Multiset Decimal) = numbers.map num) :
    ∃ rationals : List ℚ, values = rationals.map num ∧ (rationals : Multiset ℚ) = numbers := by
  have hrange : values ∈ Set.range (List.map num) := by
    rw [Set.range_list_map]
    intro v hv
    have hmem : v ∈ numbers.map num := by
      rw [← h]
      exact hv
    obtain ⟨q, -, rfl⟩ := Multiset.mem_map.mp hmem
    exact ⟨q, rfl⟩
  obtain ⟨rationals, rfl⟩ := hrange
  refine ⟨rationals, rfl, Multiset.map_injective (fun _ _ => Decimal.num.inj) ?_⟩
  rw [Multiset.map_coe]
  exact h

/-- The weight a tick aims for is a number, in either mode. -/
theorem targetChoice_num (hconfig : schemaAccepts input.config = true) :
    ∃ w, (targetChoice input).targetWeight = num w := by
  unfold targetChoice
  split
  · unfold momentumChoice
    extract_lets symbol window key siblings universeSize topK needed
    cases momentumScore window (intField input.config.momentum.lookbackCandles 30) with
    | none => exact ⟨0, rfl⟩
    | some selfScore =>
        dsimp only
        by_cases hcold : siblings.length + 1 < needed
        · rw [if_pos hcold]
          exact ⟨0, rfl⟩
        · rw [if_neg hcold]
          exact momentumTargetWeight_num _ _ _
  · show ∃ w, targetWeightFor input.config input.market.symbol = num w
    unfold targetWeightFor
    split
    · next hit hfound =>
        simp only [schemaAccepts, Bool.and_eq_true, List.all_eq_true] at hconfig
        have haccepted := hconfig.1.1.1.1.1.1 hit (List.mem_of_find?_eq_some hfound)
        obtain ⟨w, hw, -⟩ := exists_of_accepts haccepted 0
        exact ⟨w, hw⟩
    · exact ⟨0, rfl⟩

end Reads

/-! ### One tick of a basket -/

namespace Basket

variable {b : Basket} {held held' : Holdings} {input : RebalanceTickInput} {budget : ℚ}

/-- The basket moves with the holding that changed. -/
theorem value_update {s : String} (hs : s ∈ b.symbols) (held : Holdings) (x : ℚ) :
    b.value (Function.update held s x) = b.value held + b.price s * (x - held s) := by
  unfold value
  rw [← Finset.add_sum_erase _ _ hs, ← Finset.add_sum_erase _ (fun s => b.price s * held s) hs]
  have hrest : ∀ t ∈ b.symbols.erase s,
      b.price t * Function.update held s x t = b.price t * held t := by
    intro t ht
    rw [Function.update_of_ne (Finset.ne_of_mem_erase ht)]
  rw [Finset.sum_congr rfl hrest, Function.update_self]
  ring

theorem Sees.figures (h : b.Sees held input) (hconfig : schemaAccepts b.config = true)
    (hbudget : dec (b.config.basketBudgetQuote.map .raw) 0 = num budget) :
    ∃ f : Figures, rebalanceInput input (num (b.price input.market.symbol)) = f.input ∧
      f.price = b.price input.market.symbol ∧ f.basket = b.value held ∧ f.budget = budget ∧
      0 < f.minTrade := by
  have haccepted := hconfig
  simp only [schemaAccepts, Bool.and_eq_true] at haccepted
  obtain ⟨drift, hdrift, -⟩ := exists_of_accepts haccepted.1.1.1.1.2 (5 / 100)
  obtain ⟨minTrade, hmin, hminPos⟩ := exists_of_accepts haccepted.1.1.1.2 10
  have haccepts : schemaAccepts input.config = true := by
    rw [h.config_eq]
    exact hconfig
  obtain ⟨weight, hweight⟩ := targetChoice_num haccepts
  obtain ⟨free, hfree⟩ := h.available
  obtain ⟨lot, hlot⟩ := h.lot
  have hsiblings : (siblingValues input.profileKv input.market.symbol : Multiset Decimal) =
      (b.symbols.erase input.market.symbol).val.map fun s => num (b.price s * held s) := by
    rw [siblingValues_eq, ← Multiset.map_coe, h.published, Multiset.map_map]
    rfl
  rw [← Function.comp_def num, ← Multiset.map_map] at hsiblings
  obtain ⟨values, hvalues, hvalues'⟩ := exists_map_num hsiblings
  have hsum : values.sum = ∑ s ∈ b.symbols.erase input.market.symbol, b.price s * held s := by
    rw [← Multiset.sum_coe, hvalues']
    rfl
  refine ⟨⟨b.price input.market.symbol, held input.market.symbol, weight, values, drift, minTrade,
    budget, free, lot, input.config.enabled, (targetChoice input).exitWhenZeroWeight⟩, ?_, rfl, ?_,
    rfl, by simpa using hminPos⟩
  · rw [← h.config_eq] at hdrift hmin hbudget
    unfold rebalanceInput at hfree hlot ⊢
    rw [h.held_eq, hweight, hvalues, hdrift, hmin, hbudget]
    dsimp only at hfree hlot
    rw [hfree, hlot]
    rfl
  · rw [Figures.basket, Figures.own, hsum, value]
    exact Finset.add_sum_erase _ (fun s => b.price s * held s) h.symbol_mem

/-- What the decisions of a tick fill: the trade of its plan, and nothing else. -/
theorem fills_eq
    (hprice : parse input.market.currentPrice = some (num (b.price input.market.symbol)))
    (hstep : step held input = some held') :
    held' = ((computeRebalance (rebalanceInput input (num (b.price input.market.symbol)))).trade.map
      fun trade => fillOrder held (rebalanceOrder input trade)).getD held := by
  have hsilent : (targetChoice input).decisions.foldl fillOrder held = held := by
    unfold targetChoice
    split
    · unfold momentumChoice
      extract_lets symbol window key siblings universeSize topK needed
      cases momentumScore window (intField input.config.momentum.lookbackCandles 30) with
      | none => rfl
      | some selfScore =>
          dsimp only
          by_cases hcold : siblings.length + 1 < needed
          · rw [if_pos hcold]
            rfl
          · rw [if_neg hcold]
            rfl
    · rfl
  unfold step computeTick newDecimal at hstep
  rw [hprice] at hstep
  cases hstep
  rw [List.foldl_append, hsilent, List.foldl_cons]
  cases (computeRebalance (rebalanceInput input (num (b.price input.market.symbol)))).trade with
  | none => rfl
  | some trade => rfl

theorem value_step (hconfig : schemaAccepts b.config = true)
    (hbudget : dec (b.config.basketBudgetQuote.map .raw) 0 = num budget)
    (hprudent : b.Prudent held input) (hstep : step held input = some held') :
    b.value held' ≤ Max.max budget (b.value held) := by
  obtain ⟨hsees, hkeeps⟩ := hprudent
  obtain ⟨f, hinput, hprice, hbasket, rfl, hmin⟩ := hsees.figures hconfig hbudget
  rw [fills_eq hsees.price_eq hstep, hinput]
  cases htrade : (computeRebalance f.input).trade with
  | none => exact le_max_right _ _
  | some trade =>
      obtain ⟨side, quantity⟩ := trade
      cases side with
      | buy =>
          have hwithin := f.withinBudget_iff.mpr (hkeeps f hinput)
          obtain ⟨q, hq, hkept, -⟩ := hwithin quantity htrade
          show b.value (fillOrder held (rebalanceOrder input ⟨.buy, quantity⟩)) ≤ _
          have hfill : fillOrder held (rebalanceOrder input ⟨.buy, quantity⟩) =
              Function.update held input.market.symbol (held input.market.symbol + q) := by
            simp [fillOrder, rebalanceOrder, hq]
          rw [hfill, value_update hsees.symbol_mem, ← hprice, ← hbasket]
          rw [← Figures.basket] at hkept
          linarith
      | sell =>
          obtain ⟨q, hq, hworth⟩ := Figures.trade_sell hmin htrade
          show b.value (fillOrder held (rebalanceOrder input ⟨.sell, quantity⟩)) ≤ _
          have hfill : fillOrder held (rebalanceOrder input ⟨.sell, quantity⟩) =
              Function.update held input.market.symbol (held input.market.symbol - q) := by
            simp [fillOrder, rebalanceOrder, hq]
          rw [hfill, value_update hsees.symbol_mem, ← hprice]
          refine le_max_of_le_right ?_
          linarith

end Basket

/-- A plan keeps to the budget exactly where it does not overspend, and over ticks that do not, the
basket never passes the larger of the budget and what it began with. -/
theorem rebalance_budget_iff (f : Figures) {b : Basket} {budget : ℚ} {start held : Holdings}
    (hconfig : schemaAccepts b.config = true)
    (hbudget : dec (b.config.basketBudgetQuote.map .raw) 0 = num budget)
    (hrun : Reach Basket.step b.Prudent start held) :
    (f.WithinBudget ↔ ¬ f.Overspends) ∧ b.value held ≤ Max.max budget (b.value start) := by
  refine ⟨f.withinBudget_iff, ?_⟩
  refine hrun.invariant (P := fun held => b.value held ≤ Max.max budget (b.value start))
    (le_max_right _ _) ?_
  intro held input held' hheld hprudent hstep
  calc b.value held' ≤ Max.max budget (b.value held) :=
        Basket.value_step hconfig hbudget hprudent hstep
    _ ≤ Max.max budget (b.value start) := max_le (le_max_left _ _) hheld

/-- A symbol at half weight that holds nothing, beside one worth a hundred. -/
def sampleFigures (budget : ℚ) : Figures where
  price := 100
  held := 0
  weight := 1 / 2
  siblings := [100]
  driftThreshold := 5 / 100
  minTrade := 10
  budget
  available := 1000
  lot := 1 / 1000
  enabled := true
  exitWhenZeroWeight := false

/-- The budget is reached, or there is none, and the symbol buys its half from free cash. -/
theorem overweight_sibling_overspends :
    (computeRebalance (sampleFigures 100).input).trade = some ⟨.buy, .printed (num (1 / 2))⟩ ∧
      ¬ (0 + 100 + 1 / 2 * 100 ≤ Max.max (100 : ℚ) (0 + 100)) ∧
    (computeRebalance (sampleFigures 0).input).trade = some ⟨.buy, .printed (num (1 / 2))⟩ ∧
      ¬ (0 + 100 + 1 / 2 * 100 ≤ Max.max (0 : ℚ) (0 + 100)) := by
  refine ⟨by decide +kernel, by norm_num, by decide +kernel, by norm_num⟩

/-- Two symbols at a hundred, half the basket each, with a budget of a hundred. -/
def sampleBasket : Basket where
  config :=
    { enabled := true, weightMode := .fixed, momentum := ⟨some 30, some 3⟩, candleInterval := .h1
      targets := [⟨"BTCUSDT", "0.5"⟩, ⟨"ETHUSDT", "0.5"⟩], driftThreshold := some "0.05"
      minTradeQuote := some "10", basketBudgetQuote := some "100" }
  symbols := {"BTCUSDT", "ETHUSDT"}
  price := fun _ => 100

/-- The first tick of the flat basket, over a wallet of a thousand. -/
def sampleTick : RebalanceTickInput where
  nowMs := 1000
  profile := ⟨"p"⟩
  config := sampleBasket.config
  state := ⟨none, none⟩
  market := sampleMarket
  account :=
    { balances := fun asset => if asset = "USDT" then some ⟨num 1000, num 0⟩ else none
      readable := true, deployedQuoteAcrossProfiles := none }
  openOrders := []
  bundle := ()
  profileKv := [("rebalance:value:ETHUSDT", .text (.printed (num 0)))]

theorem sampleTick_sees : sampleBasket.Sees (fun _ => 0) sampleTick where
  config_eq := rfl
  symbol_mem := by decide
  price_eq := by decide +kernel
  held_eq := rfl
  published := by decide +kernel
  available := ⟨1000, by decide +kernel⟩
  lot := ⟨1 / 1000, by decide +kernel⟩

/-- From a flat start the first symbol buys its half, and the basket stays within the budget. -/
theorem flat_basket_buys_in :
    ∃ held, Reach Basket.step sampleBasket.Prudent (fun _ => 0) held ∧
      held "BTCUSDT" = 1 / 2 ∧ sampleBasket.value held ≤ 100 := by
  have hplan : (computeRebalance (rebalanceInput sampleTick (num 100))).trade =
      some ⟨.buy, .printed (num (1 / 2))⟩ := by
    decide +kernel
  have hprudent : sampleBasket.Prudent (fun _ => 0) sampleTick := by
    refine ⟨sampleTick_sees, ?_⟩
    intro f hf
    change rebalanceInput sampleTick (num 100) = f.input at hf
    have hprice : num 100 = num f.price := congrArg RebalanceInput.currentPrice hf
    have hbudget : num 100 = num f.budget :=
      (by decide +kernel : num 100 = _).trans (congrArg RebalanceInput.basketBudgetQuote hf)
    have hvalue : num 0 = num f.basket := by
      rw [← f.input_basketValue, ← hf]
      decide +kernel
    rw [← f.withinBudget_iff]
    intro quantity htrade
    rw [← hf, hplan] at htrade
    cases htrade
    refine ⟨_, rfl, ?_⟩
    rw [← Figures.basket, ← num.inj hvalue, ← num.inj hbudget, ← num.inj hprice]
    norm_num
  obtain ⟨held, hstep⟩ : ∃ held, Basket.step (fun _ => 0) sampleTick = some held := by
    unfold Basket.step computeTick newDecimal
    rw [sampleTick_sees.price_eq]
    exact ⟨_, rfl⟩
  have hheld := Basket.fills_eq sampleTick_sees.price_eq hstep
  change held = ((computeRebalance (rebalanceInput sampleTick (num 100))).trade.map _).getD _
    at hheld
  rw [hplan] at hheld
  have hrun : Reach Basket.step sampleBasket.Prudent (fun _ => 0) held :=
    .single ⟨sampleTick, hprudent, hstep⟩
  refine ⟨held, hrun, ?_, ?_⟩
  · rw [hheld]
    decide +kernel
  · have hbound := (rebalance_budget_iff (sampleFigures 100) (b := sampleBasket) (by decide +kernel)
      (by decide +kernel : _ = num 100) hrun).2
    have hflat : sampleBasket.value (fun _ => 0) = 0 := by simp [Basket.value]
    rw [hflat] at hbound
    norm_num at hbound
    exact hbound

end TradingBot.Rebalance

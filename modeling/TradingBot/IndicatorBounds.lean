import TradingBot.IncrementalExact

/-!
# The oscillators stay in range

Where each candle closes between its low and its high, no directional movement
is more than the true range, and no close leaves the range of its rings; so the
oscillators read a percentage.
-/

namespace TradingBot

open Decimal Trailing

/-- A candle that closes between its low and its high. -/
def WellOrdered (candle : Candle) : Prop :=
  ∃ high low close : ℚ, readBar candle = some ⟨num high, num low, num close⟩ ∧
    low ≤ close ∧ close ≤ high

theorem WellOrdered.quoted {candle : Candle} (h : WellOrdered candle) : Quoted candle := by
  obtain ⟨high, low, close, hbar, -⟩ := h
  exact ⟨high, low, close, hbar⟩

def Bar.WellOrdered (bar : Bar) : Prop :=
  ∃ high low close : ℚ, bar = ⟨num high, num low, num close⟩ ∧ low ≤ close ∧ close ≤ high

/-- A number at or above zero. -/
def NonnegNum (d : Decimal) : Prop := ∃ q : ℚ, d = num q ∧ 0 ≤ q

/-- A number between zero and a bound. -/
def NumUpTo (bound : ℚ) (d : Decimal) : Prop := ∃ q : ℚ, d = num q ∧ 0 ≤ q ∧ q ≤ bound

abbrev Percentage (d : Decimal) : Prop := NumUpTo 100 d

theorem readBars_wellOrdered {w : CandleWindow} {bars : List Bar} (hw : ∀ c ∈ w, WellOrdered c)
    (h : readBars w = some bars) : ∀ b ∈ bars, b.WellOrdered := by
  have hpairs := readBars_forall₂ h
  clear h
  induction hpairs with
  | nil => simp
  | @cons candle bar rest bars hbar hrest ih =>
      intro b hb
      rcases List.mem_cons.mp hb with rfl | hb
      · obtain ⟨high, low, close, hread, hordered⟩ := hw candle List.mem_cons_self
        rw [hread] at hbar
        exact ⟨high, low, close, (Option.some.inj hbar).symm, hordered⟩
      · exact ih (fun c hc => hw c (List.mem_cons_of_mem _ hc)) b hb

/-! ### Sums and means -/

section Sums

variable {period : ℕ} {d e : Decimal} {ds : List Decimal}

theorem NonnegNum.add (hd : NonnegNum d) (he : NonnegNum e) : NonnegNum (d.add e) := by
  obtain ⟨p, rfl, hp⟩ := hd
  obtain ⟨q, rfl, hq⟩ := he
  exact ⟨p + q, rfl, add_nonneg hp hq⟩

theorem div_period (hpos : 0 < period) (q : ℚ) :
    (num q).div (num period) = num (q / period) :=
  div_num (Nat.cast_ne_zero.mpr hpos.ne')

theorem NonnegNum.mean (hpos : 0 < period) (hd : NonnegNum d) :
    NonnegNum (d.div (num period)) := by
  obtain ⟨p, rfl, hp⟩ := hd
  exact ⟨p / period, div_period hpos p, div_nonneg hp (Nat.cast_nonneg period)⟩

theorem nonnegNum_foldl (f : Decimal → Decimal) (hf : ∀ x ∈ ds, NonnegNum (f x))
    (hd : NonnegNum d) : NonnegNum (ds.foldl (fun acc x => acc.add (f x)) d) := by
  induction ds generalizing d with
  | nil => exact hd
  | cons x ds ih =>
      exact ih (fun y hy => hf y (List.mem_cons_of_mem _ hy)) (hd.add (hf x List.mem_cons_self))

/-- Smoothing towards a bounded value keeps the bound. -/
theorem NumUpTo.wilder {bound : ℚ} (hpos : 0 < period) (hd : NumUpTo bound d)
    (he : NumUpTo bound e) : NumUpTo bound (wilder period d e) := by
  obtain ⟨p, rfl, hp, hp'⟩ := hd
  obtain ⟨q, rfl, hq, hq'⟩ := he
  have hcast : (0 : ℚ) < period := Nat.cast_pos.mpr hpos
  have hless : (0 : ℚ) ≤ (period : ℚ) - 1 := by
    have : (1 : ℚ) ≤ period := Nat.one_le_cast.mpr hpos
    linarith
  refine ⟨(p * (period - 1) + q) / period, ?_, ?_, ?_⟩
  · rw [TradingBot.wilder, mul_num, add_num, div_period hpos]
  · exact div_nonneg (add_nonneg (mul_nonneg hp hless) hq) hcast.le
  · rw [div_le_iff₀ hcast]
    have hmul : p * (period - 1) ≤ bound * (period - 1) := mul_le_mul_of_nonneg_right hp' hless
    linarith

theorem NonnegNum.wilder (hpos : 0 < period) (hd : NonnegNum d) (he : NonnegNum e) :
    NonnegNum (wilder period d e) := by
  obtain ⟨p, rfl, hp⟩ := hd
  obtain ⟨q, rfl, hq⟩ := he
  obtain ⟨r, hr, hnonneg, -⟩ :=
    NumUpTo.wilder hpos ⟨p, rfl, hp, le_max_left p q⟩ ⟨q, rfl, hq, le_max_right p q⟩
  exact ⟨r, hr, hnonneg⟩

end Sums

/-! ### The relative strength index -/

section RelativeStrength

variable {period : ℕ} {w : CandleWindow}

theorem percentage_rsiValue {avgGain avgLoss : Decimal} (hgain : NonnegNum avgGain)
    (hloss : NonnegNum avgLoss) : Percentage (rsiValue avgGain avgLoss) := by
  obtain ⟨g, rfl, hg⟩ := hgain
  obtain ⟨l, rfl, hl⟩ := hloss
  by_cases hzero : num l = num 0
  · exact ⟨100, if_pos hzero, by norm_num, le_rfl⟩
  · have hne : l ≠ 0 := fun h => hzero (congrArg num h)
    have hratio : 0 ≤ g / l := div_nonneg hg hl
    have hpos : 0 < g / l + 1 := by linarith
    refine ⟨100 - 100 / (g / l + 1), ?_, ?_, ?_⟩
    · rw [rsiValue, if_neg hzero, div_num hne, add_num, div_num hpos.ne', sub_num]
    · have hle : 100 / (g / l + 1) ≤ 100 := by
        rw [div_le_iff₀ hpos]
        linarith
      linarith
    · have hshare : 0 ≤ 100 / (g / l + 1) := div_nonneg (by norm_num) hpos.le
      linarith

theorem nonnegNum_gainOf (q : ℚ) : NonnegNum (gainOf (num q)) := by
  by_cases h : 0 < q
  · exact ⟨q, by simp [gainOf, h], h.le⟩
  · exact ⟨0, by simp [gainOf, h], le_rfl⟩

theorem nonnegNum_lossOf (q : ℚ) : NonnegNum (lossOf (num q)) := by
  by_cases h : q < 0
  · exact ⟨-q, by simp [lossOf, h], by linarith⟩
  · exact ⟨0, by simp [lossOf, h], le_rfl⟩

/-- The changes of a priced window are numbers. -/
theorem closeDeltas_num {deltas : List Decimal} (hw : ∀ c ∈ w, Priced c)
    (h : closeDeltas w = some deltas) : ∀ d ∈ deltas, ∃ q : ℚ, d = num q := by
  obtain ⟨qs, -, hqs⟩ := closes_priced hw
  rw [closeDeltas, hqs] at h
  cases h
  intro d hd
  obtain ⟨⟨prev, cur⟩, hpair, rfl⟩ := List.mem_map.mp hd
  obtain ⟨hprev, hcur⟩ := List.of_mem_zip hpair
  obtain ⟨p, -, rfl⟩ := List.mem_map.mp hprev
  obtain ⟨q, -, rfl⟩ := List.mem_map.mp (List.mem_of_mem_tail hcur)
  exact ⟨q - p, sub_num⟩

/-- The averages start at or above zero, and stay there. -/
theorem percentage_rsi (hpos : 0 < period) (hw : ∀ c ∈ w, Priced c) {state : RSIState}
    (h : (incrementalRSI period).initFromWindow w = some state) :
    Percentage ((incrementalRSI period).currentValue state) := by
  simp only [incrementalRSI, Option.bind_eq_bind, Option.bind_eq_some_iff, Option.pure_def,
    Option.some.injEq] at h
  obtain ⟨⟨⟩, -, deltas, hdeltas, last, -, prev, -, rfl⟩ := h
  have hnum := closeDeltas_num hw hdeltas
  have hgains : NonnegNum (RSIState.seed period (deltas.take period)).1 := by
    refine NonnegNum.mean hpos (nonnegNum_foldl id (fun x hx => ?_) ⟨0, rfl, le_rfl⟩)
    obtain ⟨hmem, hgain⟩ := List.mem_filter.mp hx
    obtain ⟨q, rfl⟩ := hnum x (List.mem_of_mem_take hmem)
    exact ⟨q, rfl, by simpa using (of_decide_eq_true hgain).le⟩
  have hlosses : NonnegNum (RSIState.seed period (deltas.take period)).2 := by
    refine NonnegNum.mean hpos (nonnegNum_foldl Decimal.neg (fun x hx => ?_) ⟨0, rfl, le_rfl⟩)
    obtain ⟨hmem, hloss⟩ := List.mem_filter.mp hx
    obtain ⟨q, rfl⟩ := hnum x (List.mem_of_mem_take hmem)
    have hle : q ≤ 0 := by simpa using hloss
    exact ⟨-q, rfl, by linarith⟩
  have hrest : ∀ d ∈ deltas.drop period, ∃ q : ℚ, d = num q :=
    fun d hd => hnum d (List.mem_of_mem_drop hd)
  change Percentage (rsiValue _ _)
  generalize RSIState.seed period (deltas.take period) = averages at hgains hlosses
  generalize deltas.drop period = rest at hrest
  induction rest generalizing averages with
  | nil => exact percentage_rsiValue hgains hlosses
  | cons d rest ih =>
      obtain ⟨q, rfl⟩ := hrest d List.mem_cons_self
      exact ih (RSIState.smooth period averages (num q))
        (hgains.wilder hpos (nonnegNum_gainOf q)) (hlosses.wilder hpos (nonnegNum_lossOf q))
        fun e he => hrest e (List.mem_cons_of_mem _ he)

end RelativeStrength

/-! ### The directional index -/

section DirectionalIndex

variable {period : ℕ}

/-- Neither direction moves more than the range. -/
def Movement.Within (a : Movement) : Prop :=
  ∃ tr plus minus : ℚ, a = ⟨num tr, num plus, num minus⟩ ∧ 0 ≤ plus ∧ plus ≤ tr ∧ 0 ≤ minus ∧
    minus ≤ tr

theorem dmax_num (p q : ℚ) : dmax (num p) (num q) = num (max p q) := by
  by_cases h : q < p
  · simp [dmax, h, max_eq_left h.le]
  · simp [dmax, h, max_eq_right (not_lt.mp h)]

theorem dmin_num (p q : ℚ) : dmin (num p) (num q) = num (min p q) := by
  by_cases h : p < q
  · simp [dmin, h, min_eq_left h.le]
  · simp [dmin, h, min_eq_right (not_lt.mp h)]

theorem dabs_num (q : ℚ) : dabs (num q) = num |q| := by
  by_cases h : q < 0
  · simp [dabs, h, abs_of_neg h]
  · simp [dabs, h, abs_of_nonneg (not_lt.mp h)]

/-- A move is counted on the side it is further, and not below zero. -/
theorem move_num (a b : ℚ) :
    (if (num a).gt (num b) && (num a).gt (num 0) then num a else num 0) =
      num (if b < a ∧ 0 < a then a else 0) := by
  by_cases h : b < a ∧ 0 < a
  · simp [h]
  · rw [if_neg h, if_neg (by simpa using h)]

/-- The bar before closed under its high and above its low, so a move past them is in the range. -/
theorem within_of {prev cur : Bar} (hprev : prev.WellOrdered) (hcur : cur.WellOrdered) :
    (Movement.of prev cur).Within := by
  obtain ⟨high, low, close, rfl, hlow, hhigh⟩ := hprev
  obtain ⟨high', low', close', rfl, hlow', hhigh'⟩ := hcur
  have hrange : ∃ range : ℚ, trueRange (num high') (num low') (num close) = num range ∧
      high' - close ≤ range ∧ close - low' ≤ range ∧ 0 ≤ range := by
    refine ⟨max (high' - low') (max |high' - close| |low' - close|), ?_, ?_, ?_, ?_⟩
    · simp only [trueRange, sub_num, dabs_num, dmax_num]
    · exact ((le_abs_self _).trans (le_max_left _ _)).trans (le_max_right _ _)
    · have habs : close - low' ≤ |low' - close| := abs_sub_comm low' close ▸ le_abs_self _
      exact (habs.trans (le_max_right _ _)).trans (le_max_right _ _)
    · exact ((abs_nonneg _).trans (le_max_left _ _)).trans (le_max_right _ _)
  obtain ⟨range, hrange, hup, hdown, hzero⟩ := hrange
  refine ⟨range,
    if low - low' < high' - high ∧ 0 < high' - high then high' - high else 0,
    if high' - high < low - low' ∧ 0 < low - low' then low - low' else 0, ?_, ?_, ?_, ?_, ?_⟩
  · simp only [Movement.of, directionalMoves, sub_num, hrange, move_num]
  · split
    · next h => exact h.2.le
    · exact le_rfl
  · split
    · linarith
    · exact hzero
  · split
    · next h => exact h.2.le
    · exact le_rfl
  · split
    · linarith
    · exact hzero

theorem Movement.Within.add {a b : Movement} (ha : a.Within) (hb : b.Within) :
    (a.add b).Within := by
  obtain ⟨tr, plus, minus, rfl, hp, hp', hm, hm'⟩ := ha
  obtain ⟨tr', plus', minus', rfl, hq, hq', hn, hn'⟩ := hb
  exact ⟨tr + tr', plus + plus', minus + minus', rfl, add_nonneg hp hq, add_le_add hp' hq',
    add_nonneg hm hn, add_le_add hm' hn'⟩

/-- The share that stays is at or above zero, so smoothing keeps the order of two sums. -/
theorem Movement.Within.smooth (hpos : 0 < period) {a b : Movement} (ha : a.Within)
    (hb : b.Within) : (a.smooth period b).Within := by
  obtain ⟨tr, plus, minus, rfl, hp, hp', hm, hm'⟩ := ha
  obtain ⟨tr', plus', minus', rfl, hq, hq', hn, hn'⟩ := hb
  have hcast : (1 : ℚ) ≤ period := Nat.one_le_cast.mpr hpos
  have hstay : 0 ≤ 1 - 1 / (period : ℚ) := by
    rw [sub_nonneg, div_le_one (by linarith)]
    exact hcast
  have hsum : ∀ x y : ℚ, smoothSum period (num x) (num y) = num (x * (1 - 1 / period) + y) := by
    intro x y
    rw [smoothSum, div_period hpos, sub_num, add_num]
    congr 1
    ring
  refine ⟨_, _, _, by simp only [Movement.smooth, hsum]; rfl, ?_, ?_, ?_, ?_⟩
  · exact add_nonneg (mul_nonneg hp hstay) hq
  · exact add_le_add (mul_le_mul_of_nonneg_right hp' hstay) hq'
  · exact add_nonneg (mul_nonneg hm hstay) hn
  · exact add_le_add (mul_le_mul_of_nonneg_right hm' hstay) hn'

theorem percentage_share {part whole : ℚ} (hpart : 0 ≤ part) (hle : part ≤ whole)
    (hne : whole ≠ 0) : Percentage (((num part).div (num whole)).mul (num 100)) := by
  have hwhole : 0 < whole := lt_of_le_of_ne (hpart.trans hle) hne.symm
  refine ⟨part / whole * 100, by rw [div_num hne, mul_num], ?_, ?_⟩
  · exact mul_nonneg (div_nonneg hpart hwhole.le) (by norm_num)
  · have hone : part / whole ≤ 1 := (div_le_one hwhole).mpr hle
    linarith

theorem percentage_zero : Percentage (num 0) := ⟨0, rfl, le_rfl, by norm_num⟩

theorem Movement.Within.computeDIs {a : Movement} (ha : a.Within) :
    Percentage a.computeDIs.1 ∧ Percentage a.computeDIs.2 := by
  obtain ⟨tr, plus, minus, rfl, hp, hp', hm, hm'⟩ := ha
  by_cases hzero : num tr = num 0
  · rw [Movement.computeDIs, if_pos hzero]
    exact ⟨percentage_zero, percentage_zero⟩
  · have hne : tr ≠ 0 := fun h => hzero (congrArg num h)
    rw [Movement.computeDIs, if_neg hzero]
    exact ⟨percentage_share hp hp' hne, percentage_share hm hm' hne⟩

theorem Movement.Within.dx {a : Movement} (ha : a.Within) : Percentage a.dx := by
  obtain ⟨⟨p, hp, hp0, -⟩, ⟨m, hm, hm0, -⟩⟩ := ha.computeDIs
  rw [Movement.dx, hp, hm, computeDX, add_num, sub_num, dabs_num]
  by_cases hzero : num (p + m) = num 0
  · rw [if_pos hzero]
    exact percentage_zero
  · rw [if_neg hzero]
    refine percentage_share (abs_nonneg _) ?_ fun h => hzero (congrArg num h)
    rw [abs_le]
    constructor <;> linarith

theorem within_firstMovement {bars : List Bar} (h : ∀ b ∈ bars, b.WellOrdered) :
    (firstMovement bars).Within := by
  have hstart : Movement.Within ⟨num 0, num 0, num 0⟩ :=
    ⟨0, 0, 0, rfl, le_rfl, le_rfl, le_rfl, le_rfl⟩
  rw [firstMovement]
  generalize hmap : (neighbours bars).map _ = moves
  have hmoves : ∀ a ∈ moves, a.Within := by
    intro a ha
    rw [← hmap] at ha
    obtain ⟨⟨prev, cur⟩, hpair, rfl⟩ := List.mem_map.mp ha
    obtain ⟨hprev, hcur⟩ := List.of_mem_zip hpair
    exact within_of (h prev hprev) (h cur (List.mem_of_mem_tail hcur))
  clear hmap
  generalize (⟨num 0, num 0, num 0⟩ : Movement) = total at hstart
  induction moves generalizing total with
  | nil => exact hstart
  | cons a moves ih =>
      exact ih (fun b hb => hmoves b (List.mem_cons_of_mem _ hb)) _
        (hstart.add (hmoves a List.mem_cons_self))

/-- What the second walk keeps: the movement in the range, and the index a mean of percentages. -/
structure ADXSeed.Bounded (seed : ADXSeed) : Prop where
  smoothed : seed.state.smoothed.Within
  adx : Percentage seed.state.adx
  prev : seed.state.prev.WellOrdered
  dxSum : NumUpTo (100 * seed.dxCount) seed.dxSum

theorem ADXSeed.Bounded.step (hpos : 0 < period) {seed : ADXSeed} (h : seed.Bounded) {bar : Bar}
    (hbar : bar.WellOrdered) : (seed.step period bar).Bounded := by
  have hsmoothed := h.smoothed.smooth hpos (within_of h.prev hbar)
  have hdx := hsmoothed.dx
  by_cases hcount : seed.dxCount < period
  · obtain ⟨sum, hsum, hsum0, hsum'⟩ := h.dxSum
    obtain ⟨dx, hdx, hdx0, hdx'⟩ := hdx
    have hnext : NumUpTo (100 * (seed.dxCount + 1 : ℕ))
        (seed.dxSum.add (seed.state.smoothed.smooth period (.of seed.state.prev bar)).dx) := by
      rw [hsum, hdx, add_num]
      refine ⟨sum + dx, rfl, add_nonneg hsum0 hdx0, ?_⟩
      push_cast
      linarith
    rw [ADXSeed.step, if_pos hcount]
    refine ⟨hsmoothed, ?_, hbar, hnext⟩
    dsimp only
    split
    · next hfull =>
        rw [hfull] at hnext
        obtain ⟨total, htotal, htotal0, htotal'⟩ := hnext
        have hcast : (0 : ℚ) < period := Nat.cast_pos.mpr hpos
        rw [htotal, div_period hpos]
        exact ⟨total / period, rfl, div_nonneg htotal0 hcast.le, (div_le_iff₀ hcast).mpr htotal'⟩
    · exact h.adx
  · rw [ADXSeed.step, if_neg hcount]
    exact ⟨hsmoothed, h.adx.wilder hpos hdx, hbar, h.dxSum⟩

theorem percentage_adx (hpos : 0 < period) {w : CandleWindow} (hw : ∀ c ∈ w, WellOrdered c)
    {state : ADXState} (h : (incrementalADX period).initFromWindow w = some state) :
    Percentage state.value.adx ∧ Percentage state.value.plusDI ∧
      Percentage state.value.minusDI := by
  obtain ⟨bars, hbars, -⟩ := readBars_quoted fun c hc => (hw c hc).quoted
  have hordered := readBars_wellOrdered hw hbars
  rw [initFromWindow_incrementalADX hbars] at h
  obtain ⟨⟨⟩, -, hwalk⟩ := Option.bind_eq_some_iff.mp h
  obtain ⟨prev, hprev, rfl⟩ := Option.map_eq_some_iff.mp hwalk
  have hbounded : (ADXSeed.walk period bars prev).Bounded := by
    have hstart : ADXSeed.Bounded
        ⟨⟨firstMovement (bars.take (period + 1)), num 0, prev⟩, num 0, 0⟩ :=
      ⟨within_firstMovement fun b hb => hordered b (List.mem_of_mem_take hb), percentage_zero,
        hordered prev (List.mem_of_getElem? hprev), ⟨0, rfl, le_rfl, by simp⟩⟩
    have hrest : ∀ b ∈ bars.drop (period + 1), b.WellOrdered :=
      fun b hb => hordered b (List.mem_of_mem_drop hb)
    rw [ADXSeed.walk]
    generalize bars.drop (period + 1) = rest at hrest
    generalize (⟨⟨firstMovement (bars.take (period + 1)), num 0, prev⟩, num 0, 0⟩ : ADXSeed) = seed
      at hstart
    induction rest generalizing seed with
    | nil => exact hstart
    | cons bar rest ih =>
        exact ih (fun b hb => hrest b (List.mem_cons_of_mem _ hb)) (seed.step period bar)
          (hstart.step hpos (hrest bar List.mem_cons_self))
  exact ⟨hbounded.adx, hbounded.smoothed.computeDIs⟩

end DirectionalIndex

/-! ### The stochastic -/

section Stochastic

variable {period smoothK : ℕ}

/-- The largest of a list of numbers is one of them, and none is larger. -/
theorem ringMax_num (q : ℚ) (qs : List ℚ) :
    ∃ top : ℚ, ringMax ((q :: qs).map num) = num top ∧ ∀ p ∈ q :: qs, p ≤ top := by
  induction qs generalizing q with
  | nil => exact ⟨q, rfl, by simp⟩
  | cons r qs ih =>
      obtain ⟨top, htop, hle⟩ := ih (max r q)
      refine ⟨top, ?_, ?_⟩
      · simp only [List.map_cons, ringMax, List.foldl_cons, dmax_num] at htop ⊢
        exact htop
      · have hmax : max r q ≤ top := hle _ List.mem_cons_self
        intro p hp
        rcases List.mem_cons.mp hp with rfl | hp
        · exact (le_max_right r p).trans hmax
        · rcases List.mem_cons.mp hp with rfl | hp
          · exact (le_max_left p q).trans hmax
          · exact hle p (List.mem_cons_of_mem _ hp)

theorem ringMin_num (q : ℚ) (qs : List ℚ) :
    ∃ bottom : ℚ, ringMin ((q :: qs).map num) = num bottom ∧ ∀ p ∈ q :: qs, bottom ≤ p := by
  induction qs generalizing q with
  | nil => exact ⟨q, rfl, by simp⟩
  | cons r qs ih =>
      obtain ⟨bottom, hbottom, hle⟩ := ih (min r q)
      refine ⟨bottom, ?_, ?_⟩
      · simp only [List.map_cons, ringMin, List.foldl_cons, dmin_num] at hbottom ⊢
        exact hbottom
      · have hmin : bottom ≤ min r q := hle _ List.mem_cons_self
        intro p hp
        rcases List.mem_cons.mp hp with rfl | hp
        · exact hmin.trans (min_le_right r p)
        · rcases List.mem_cons.mp hp with rfl | hp
          · exact hmin.trans (min_le_left p q)
          · exact hle p (List.mem_cons_of_mem _ hp)

/-- The last bar of a run closes in the range of the run. -/
theorem percentage_sliceK {slice : List Bar} (h : ∀ b ∈ slice, b.WellOrdered) (hne : slice ≠ []) :
    Percentage (sliceK slice) := by
  have hfigures : ∀ f : Bar → Decimal, (∀ b ∈ slice, ∃ q : ℚ, f b = num q) →
      ∃ q qs, slice.map f = (q :: qs : List ℚ).map num := by
    intro f hf
    have hall : ∀ l : List Bar, (∀ b ∈ l, ∃ q : ℚ, f b = num q) →
        ∃ qs : List ℚ, l.map f = qs.map num := by
      intro l
      induction l with
      | nil => exact fun _ => ⟨[], rfl⟩
      | cons b l ih =>
          intro hl
          obtain ⟨q, hq⟩ := hl b List.mem_cons_self
          obtain ⟨qs, hqs⟩ := ih fun c hc => hl c (List.mem_cons_of_mem _ hc)
          exact ⟨q :: qs, by rw [List.map_cons, List.map_cons, hq, hqs]⟩
    obtain ⟨qs, hqs⟩ := hall slice hf
    cases qs with
    | nil => exact absurd (List.map_eq_nil_iff.mp hqs) hne
    | cons q qs => exact ⟨q, qs, hqs⟩
  obtain ⟨front, last, rfl⟩ := (List.eq_nil_or_concat' slice).resolve_left hne
  have hlastMem : last ∈ front ++ [last] := by simp
  obtain ⟨high, low, close, hlast, hlow, hhigh⟩ := h last hlastMem
  obtain ⟨top, tops, htops⟩ := hfigures (·.high) fun b hb => by
    obtain ⟨bh, bl, bc, rfl, -⟩ := h b hb
    exact ⟨bh, rfl⟩
  obtain ⟨bottom, bottoms, hbottoms⟩ := hfigures (·.low) fun b hb => by
    obtain ⟨bh, bl, bc, rfl, -⟩ := h b hb
    exact ⟨bl, rfl⟩
  obtain ⟨hi, hhi, hmax⟩ := ringMax_num top tops
  obtain ⟨lo, hlo, hmin⟩ := ringMin_num bottom bottoms
  have hhighLe : high ≤ hi := by
    have hmem : last.high ∈ (front ++ [last]).map (·.high) := List.mem_map_of_mem hlastMem
    rw [htops, hlast] at hmem
    obtain ⟨q, hq, heq⟩ := List.mem_map.mp hmem
    cases heq
    exact hmax high hq
  have hlowGe : lo ≤ low := by
    have hmem : last.low ∈ (front ++ [last]).map (·.low) := List.mem_map_of_mem hlastMem
    rw [hbottoms, hlast] at hmem
    obtain ⟨q, hq, heq⟩ := List.mem_map.mp hmem
    cases heq
    exact hmin low hq
  rw [sliceK, List.getLast?_concat, Option.elim_some, htops, hbottoms, rawK, hhi, hlo, hlast,
    sub_num, sub_num]
  by_cases hzero : num (hi - lo) = num 0
  · rw [if_pos hzero]
    exact ⟨50, rfl, by norm_num, by norm_num⟩
  · rw [if_neg hzero]
    exact percentage_share (by linarith) (by linarith) fun h => hzero (congrArg num h)

theorem percentage_smoothedK {ks : List Decimal} (h : ∀ k ∈ ks, Percentage k) (hne : ks ≠ []) :
    Percentage (smoothedK ks) := by
  have hsum : ∀ (ks : List Decimal) (total : ℚ) (n : ℕ), (∀ k ∈ ks, Percentage k) → 0 ≤ total →
      total ≤ 100 * n → NumUpTo (100 * (n + ks.length : ℕ)) (ks.foldl Decimal.add (num total)) := by
    intro ks
    induction ks with
    | nil => exact fun total n _ h0 hle => ⟨total, rfl, h0, by simpa using hle⟩
    | cons k ks ih =>
        intro total n hall h0 hle
        obtain ⟨q, rfl, hq, hq'⟩ := hall k List.mem_cons_self
        have hnext := ih (total + q) (n + 1) (fun k hk => hall k (List.mem_cons_of_mem _ hk))
          (add_nonneg h0 hq) (by push_cast; linarith)
        rw [List.length_cons, show n + (ks.length + 1) = n + 1 + ks.length by omega]
        exact hnext
  obtain ⟨total, htotal, h0, hle⟩ := hsum ks 0 0 h le_rfl (by simp)
  have hlength : 0 < ks.length := List.length_pos_of_ne_nil hne
  have hcast : (0 : ℚ) < ks.length := Nat.cast_pos.mpr hlength
  rw [Nat.zero_add] at hle
  refine ⟨total / ks.length, ?_, div_nonneg h0 hcast.le, (div_le_iff₀ hcast).mpr hle⟩
  rw [smoothedK, htotal, div_period hlength]

theorem percentage_stochastic (hpos : 0 < period) (hsmooth : 0 < smoothK) {w : CandleWindow}
    (hw : ∀ c ∈ w, WellOrdered c) {state : StochasticState}
    (h : (incrementalStochastic period smoothK).initFromWindow w = some state) :
    Percentage (smoothedK state.kRing) := by
  obtain ⟨bars, hbars, -⟩ := readBars_quoted fun c hc => (hw c hc).quoted
  have hordered := readBars_wellOrdered hw hbars
  have hlength := (length_rings_of_reached hpos hsmooth (.seeded h)).2.2
  rw [initFromWindow_incrementalStochastic hpos hsmooth hbars] at h
  obtain ⟨⟨⟩, -, rfl⟩ := Option.map_eq_some_iff.mp h
  refine percentage_smoothedK (fun k hk => ?_) (List.ne_nil_of_length_pos (by omega))
  obtain ⟨slice, hslice, rfl⟩ := List.mem_map.mp (mem_of_mem_rtake hk)
  refine percentage_sliceK (fun b hb => hordered b (mem_of_mem_slices hslice hb)) ?_
  exact List.ne_nil_of_length_pos ((length_of_mem_slices hslice).symm ▸ hpos)

end Stochastic

/-! ### Every indicator at once -/

/-- The laws of the seven indicators of a period. -/
structure IndicatorLaws (period smoothK : ℕ) (mult : Decimal) : Prop where
  sma : ((incrementalSMA period).valued period).Exact
  ema : ((incrementalEMA period).valued period).Exact
  rsi : ((incrementalRSI period).valued (period + 1)).Exact
  atr : ((incrementalATR period).valued (period + 1)).Exact
  adx : (incrementalADX period).Exact
  bollinger : (incrementalBollinger period mult).Exact
  stochastic : (incrementalStochastic period smoothK).Exact
  /-- The close and range indicators show what the full-window forms give. -/
  full : ∀ w, (∀ c ∈ w, Quoted c) →
    ((incrementalSMA period).initFromWindow w).map (incrementalSMA period).currentValue =
      TradingBot.sma w period ∧
    ((incrementalEMA period).initFromWindow w).map (incrementalEMA period).currentValue =
      TradingBot.ema w period ∧
    ((incrementalRSI period).initFromWindow w).map (incrementalRSI period).currentValue =
      TradingBot.rsi w period ∧
    ((incrementalATR period).initFromWindow w).map (incrementalATR period).currentValue =
      TradingBot.atr w period
  rsi_range : ∀ w state, (∀ c ∈ w, WellOrdered c) →
    (incrementalRSI period).initFromWindow w = some state →
    Percentage ((incrementalRSI period).currentValue state)
  adx_range : ∀ w state, (∀ c ∈ w, WellOrdered c) →
    (incrementalADX period).initFromWindow w = some state →
    let value := (incrementalADX period).currentValue state
    Percentage value.adx ∧ Percentage value.plusDI ∧ Percentage value.minusDI
  stochastic_range : ∀ w state, (∀ c ∈ w, WellOrdered c) →
    (incrementalStochastic period smoothK).initFromWindow w = some state →
    Percentage ((incrementalStochastic period smoothK).currentValue state)

theorem indicators_lawful (period smoothK : ℕ) (mult : Decimal) (hpos : 0 < period)
    (hsmooth : 0 < smoothK) : IndicatorLaws period smoothK mult where
  sma := incrementalSMA_exact hpos
  ema := incrementalEMA_exact hpos
  rsi := incrementalRSI_exact
  atr := incrementalATR_exact
  adx := incrementalADX_exact hpos
  bollinger := incrementalBollinger_exact hpos
  stochastic := incrementalStochastic_exact hpos hsmooth
  full w hw := ⟨incrementalSMA_mirrors.seeded w, incrementalEMA_mirrors.seeded w,
    incrementalRSI_mirrors.seeded w, incrementalATR_seeded hw⟩
  rsi_range _ _ hw hstate := percentage_rsi hpos (fun c hc => (hw c hc).quoted.priced) hstate
  adx_range _ _ hw hstate := percentage_adx hpos hw hstate
  stochastic_range _ _ hw hstate := percentage_stochastic hpos hsmooth hw hstate

theorem indicators_lawful_of_fourteen : IndicatorLaws 14 3 (num 2) :=
  indicators_lawful 14 3 (num 2) (by decide) (by decide)

end TradingBot

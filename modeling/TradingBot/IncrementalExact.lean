import TradingBot.IncrementalFolds

/-!
# The indicators are exact folds

Seeding from a window and folding the next candle gives what seeding from the
longer window gives. The close indicators have this from the full-window forms
they mirror; the others from what their seed is after each bar walked.
-/

namespace TradingBot

open Decimal Trailing

variable {S V B : Type}

/-- An indicator starts on every window it needs no more than, folds exactly, and reads back. -/
structure ValuedIndicator.Exact (ind : ValuedIndicator S V B) : Prop where
  starts : ∀ w, (∀ c ∈ w, Quoted c) → ind.minWindow ≤ w.length →
    ∃ state, ind.initFromWindow w = some state
  folds : ∀ w next state, (∀ c ∈ w ++ [next], Quoted c) → ind.initFromWindow w = some state →
    ∃ after, ind.update state next = some (after, ind.currentValue after) ∧
      ind.initFromWindow (w ++ [next]) = some after
  reads_back : ∀ state, ind.Reached state → ind.deserialize (ind.serialize state) = some state

/-! ### Quoted windows -/

section Quoted

variable {w : CandleWindow} {next : Candle} {bars : List Bar} {bar : Bar}

/-- The prices of the bar are numbers. -/
def Bar.IsNum (bar : Bar) : Prop := ∃ high low close : ℚ, bar = ⟨num high, num low, num close⟩

theorem readBar_eq_some : readBar next = some bar ↔
    parse next.high = some bar.high ∧ parse next.low = some bar.low ∧
      parse next.close = some bar.close := by
  simp only [readBar, Option.bind_eq_bind, Option.bind_eq_some_iff, Option.pure_def,
    Option.some.injEq]
  constructor
  · rintro ⟨high, hhigh, low, hlow, close, hclose, rfl⟩
    exact ⟨hhigh, hlow, hclose⟩
  · rintro ⟨hhigh, hlow, hclose⟩
    exact ⟨_, hhigh, _, hlow, _, hclose, rfl⟩

theorem Quoted.priced {candle : Candle} (h : Quoted candle) : Priced candle := by
  obtain ⟨high, low, close, hbar⟩ := h
  exact ⟨close, (readBar_eq_some.mp hbar).2.2⟩

theorem readBars_cons :
    readBars (next :: w) = (do return (← readBar next) :: (← readBars w)) := by
  rw [readBars, List.mapM_cons]
  rfl

theorem readBars_concat (hbars : readBars w = some bars) (hbar : readBar next = some bar) :
    readBars (w ++ [next]) = some (bars ++ [bar]) := by
  rw [readBars] at hbars ⊢
  rw [List.mapM_append, hbars, List.mapM_cons, List.mapM_nil, hbar]
  rfl

/-- The bars of a window, one for each candle. -/
theorem readBars_forall₂ (h : readBars w = some bars) :
    List.Forall₂ (fun c b => readBar c = some b) w bars := by
  induction w generalizing bars with
  | nil =>
      cases h
      exact .nil
  | cons candle rest ih =>
      rw [readBars_cons] at h
      simp only [Option.bind_eq_bind, Option.bind_eq_some_iff, Option.pure_def,
        Option.some.injEq] at h
      obtain ⟨bar, hbar, bars, hrest, rfl⟩ := h
      exact .cons hbar (ih hrest)

theorem readBars_quoted (h : ∀ c ∈ w, Quoted c) :
    ∃ bars, readBars w = some bars ∧ bars.length = w.length ∧ ∀ b ∈ bars, b.IsNum := by
  induction w with
  | nil => exact ⟨[], rfl, rfl, by simp⟩
  | cons candle rest ih =>
      obtain ⟨high, low, close, hbar⟩ := h candle List.mem_cons_self
      obtain ⟨bars, hbars, hlength, hnum⟩ := ih fun c hc => h c (List.mem_cons_of_mem _ hc)
      refine ⟨_ :: bars, by rw [readBars_cons, hbar, hbars]; rfl, by simp [hlength], ?_⟩
      intro b hb
      rcases List.mem_cons.mp hb with rfl | hb
      · exact ⟨high, low, close, rfl⟩
      · exact hnum b hb

theorem readBars_last (h : ∀ c ∈ w, Quoted c) (hlong : 0 < w.length) :
    ∃ front prev, readBars w = some (front ++ [prev]) ∧ front.length + 1 = w.length := by
  obtain ⟨bars, hbars, hlength, -⟩ := readBars_quoted h
  have hne : bars ≠ [] := List.ne_nil_of_length_pos (hlength ▸ hlong)
  obtain ⟨front, prev, rfl⟩ := (List.eq_nil_or_concat' bars).resolve_left hne
  exact ⟨front, prev, hbars, by simpa using hlength⟩

theorem closes_of_readBars (h : readBars w = some bars) : closes w = some (bars.map (·.close)) := by
  induction w generalizing bars with
  | nil =>
      cases h
      rfl
  | cons candle rest ih =>
      rw [readBars_cons] at h
      simp only [Option.bind_eq_bind, Option.bind_eq_some_iff, Option.pure_def,
        Option.some.injEq] at h
      obtain ⟨bar, hbar, bars, hrest, rfl⟩ := h
      have hclose := (readBar_eq_some.mp hbar).2.2
      have hcloses := ih hrest
      rw [closes] at hcloses ⊢
      rw [List.mapM_cons, hclose, hcloses]
      rfl

theorem readBars_drop (n : ℕ) (h : readBars w = some bars) :
    readBars (w.drop n) = some (bars.drop n) := by
  induction n generalizing w bars with
  | zero => exact h
  | succ n ih =>
      cases w with
      | nil =>
          cases h
          rfl
      | cons candle rest =>
          rw [readBars_cons] at h
          simp only [Option.bind_eq_bind, Option.bind_eq_some_iff, Option.pure_def,
            Option.some.injEq] at h
          obtain ⟨bar, hbar, bars, hrest, rfl⟩ := h
          exact ih hrest

theorem length_readBars (h : readBars w = some bars) : bars.length = w.length :=
  (readBars_forall₂ h).length_eq.symm

end Quoted

/-! ### The close indicators -/

section Closes

variable {period : ℕ}

theorem IncrementalIndicator.Mirrors.exact {ind : IncrementalIndicator S B}
    {full : CandleWindow → Option Decimal} {minWindow : ℕ} (h : ind.Mirrors full)
    (hstarts : ∀ w, (∀ c ∈ w, Priced c) → minWindow ≤ w.length →
      ∃ state, ind.initFromWindow w = some state)
    (hback : ∀ state, (ind.valued minWindow).Reached state →
      ind.deserialize (ind.serialize state) = some state) :
    (ind.valued minWindow).Exact where
  starts w hw := hstarts w fun c hc => (hw c hc).priced
  folds _ _ _ hw hstate := h.folds (fun c hc => (hw c hc).priced) hstate
  reads_back := hback

theorem length_ring_of_reached {state : SMAState}
    (h : ((incrementalSMA period).valued period).Reached state) : state.ring.length = period := by
  induction h with
  | @seeded w state hstate =>
      simp only [IncrementalIndicator.valued, incrementalSMA, Option.bind_eq_bind,
        Option.bind_eq_some_iff, Option.pure_def, Option.some.injEq] at hstate
      obtain ⟨⟨⟩, hperiod, ring, hring, rfl⟩ := hstate
      rw [closes_length hring, lastCandles_length (requirePeriod_eq_some.mp hperiod).2]
  | updated hreached hupdate ih =>
      simp only [IncrementalIndicator.valued, incrementalSMA, Option.bind_eq_bind,
        Option.bind_eq_some_iff, Option.pure_def, Option.some.injEq] at hupdate
      obtain ⟨close, -, oldest, holdest, heq⟩ := hupdate
      obtain ⟨rest, hrest⟩ := List.head?_eq_some_iff.mp holdest
      obtain ⟨rfl, -⟩ := Prod.mk.inj heq
      rw [hrest] at ih ⊢
      simpa using ih

theorem mapM_printed (ring : List Decimal) :
    ring.mapM ((·.toDecimal) ∘ DecimalString.printed) = some ring := by
  show ring.mapM (pure : Decimal → Option Decimal) = _
  rw [List.mapM_pure, List.map_id']
  rfl

theorem incrementalSMA_exact (hpos : 0 < period) :
    ((incrementalSMA period).valued period).Exact :=
  incrementalSMA_mirrors.exact (fun _ hw hle => incrementalSMA_starts hw hpos hle)
    fun state hstate => by
      have hlength := length_ring_of_reached hstate
      simp [incrementalSMA, hlength, mapM_printed]

theorem incrementalEMA_exact (hpos : 0 < period) :
    ((incrementalEMA period).valued period).Exact :=
  incrementalEMA_mirrors.exact (fun _ hw hle => incrementalEMA_starts hw hpos hle)
    fun _ _ => rfl

theorem incrementalRSI_exact : ((incrementalRSI period).valued (period + 1)).Exact :=
  incrementalRSI_mirrors.exact (fun _ hw hle => incrementalRSI_starts hw hle) fun _ _ => rfl

end Closes

/-! ### The average true range -/

section AverageTrueRange

variable {period : ℕ} {w : CandleWindow} {next : Candle} {bars : List Bar} {prev bar : Bar}

/-- The true range of each bar after the first. -/
def barRanges (bars : List Bar) : List Decimal :=
  (neighbours bars).map fun (prev, cur) => trueRange cur.high cur.low prev.close

theorem trueRanges_of_readBars (h : readBars w = some bars) :
    trueRanges w = some (barRanges bars) := by
  have hpairs := readBars_forall₂ h
  clear h
  induction hpairs with
  | nil => rfl
  | @cons candle bar rest bars hbar hrest ih =>
      cases hrest with
      | nil => rfl
      | @cons second bar' rest bars hbar' hrest =>
          have hprev := readBar_eq_some.mp hbar
          have hcur := readBar_eq_some.mp hbar'
          rw [trueRanges, hcur.1, hcur.2.1, hprev.2.2, ih]
          rfl

theorem barRanges_concat :
    barRanges (bars ++ [prev, bar]) =
      barRanges (bars ++ [prev]) ++ [trueRange bar.high bar.low prev.close] := by
  rw [barRanges, neighbours_concat, List.map_append]
  rfl

theorem length_barRanges : (barRanges bars).length = bars.length - 1 := by
  rw [barRanges, List.length_map, length_neighbours]

theorem initFromWindow_incrementalATR (h : readBars w = some (bars ++ [prev])) :
    (incrementalATR period).initFromWindow w =
      (requirePeriod w (period + 1)).map fun _ =>
        ⟨((barRanges (bars ++ [prev])).drop period).foldl (wilder period)
          ((((barRanges (bars ++ [prev])).take period).foldl Decimal.add (num 0)).div (num period)),
          prev.close⟩ := by
  have hlast := closes_getLast? (closes_of_readBars h)
  rw [List.map_append, List.map_singleton, List.getLast?_concat] at hlast
  obtain ⟨last, hlast, hclose⟩ := Option.bind_eq_some_iff.mp hlast
  simp only [incrementalATR, trueRanges_of_readBars h, hlast, hclose, Option.bind_eq_bind,
    Option.bind_some, Option.pure_def]
  cases requirePeriod w (period + 1) <;> rfl

theorem incrementalATR_seeded (hw : ∀ c ∈ w, Quoted c) :
    ((incrementalATR period).initFromWindow w).map (incrementalATR period).currentValue =
      atr w period := by
  cases hperiod : requirePeriod w (period + 1) with
  | none => simp [incrementalATR, atr, hperiod]
  | some _ =>
      have hlong := (requirePeriod_eq_some.mp hperiod).2
      obtain ⟨front, prev, hbars, -⟩ := readBars_last hw (by omega)
      rw [initFromWindow_incrementalATR hbars, atr, hperiod, trueRanges_of_readBars hbars]
      rfl

theorem incrementalATR_exact :
    ((incrementalATR period).valued (period + 1)).Exact where
  starts w hw hle := by
    have hlong : period + 1 ≤ w.length := hle
    obtain ⟨front, prev, hbars, -⟩ := readBars_last hw (by omega)
    have hinit := @initFromWindow_incrementalATR period w front prev hbars
    rw [requirePeriod_eq_some.mpr ⟨Nat.succ_pos period, hlong⟩, Option.map_some] at hinit
    exact ⟨_, hinit⟩
  folds w next state hw hstate := by
    obtain ⟨high, low, close, hnext⟩ := hw next (by simp)
    change (incrementalATR period).initFromWindow w = some state at hstate
    have hperiod : requirePeriod w (period + 1) = some () := by
      rw [incrementalATR] at hstate
      obtain ⟨⟨⟩, hperiod, -⟩ := Option.bind_eq_some_iff.mp hstate
      exact hperiod
    have hlong := (requirePeriod_eq_some.mp hperiod).2
    obtain ⟨front, prev, hbars, hlength⟩ :=
      readBars_last (fun c hc => hw c (List.mem_append_left _ hc)) (by omega)
    rw [initFromWindow_incrementalATR hbars, hperiod, Option.map_some, Option.some.injEq] at hstate
    have hlater := readBars_concat hbars hnext
    have hmore : (front ++ [prev]) ++ [⟨num high, num low, num close⟩] =
        front ++ [prev, ⟨num high, num low, num close⟩] := List.append_assoc _ _ _
    refine ⟨_, by simp only [IncrementalIndicator.valued, incrementalATR, hnext]; rfl, ?_⟩
    change (incrementalATR period).initFromWindow (w ++ [next]) = _
    have hranges : period ≤ (barRanges (front ++ [prev])).length := by
      rw [length_barRanges, List.length_append, List.length_singleton]
      omega
    rw [initFromWindow_incrementalATR hlater, requirePeriod_append hperiod, Option.map_some, hmore,
      barRanges_concat,
      List.take_append_of_le_length hranges, List.drop_append_of_le_length hranges,
      List.foldl_append, ← hstate]
    rfl
  reads_back _ _ := rfl

end AverageTrueRange

/-! ### The bands -/

section Bands

variable {period : ℕ} {mult : Decimal}

theorem foldl_addSq_num (total : ℚ) (qs : List ℚ) :
    (qs.map num).foldl (fun acc close => acc.add (close.mul close)) (num total) =
      num (total + (qs.map fun q => q * q).sum) := by
  induction qs generalizing total with
  | nil => simp
  | cons q qs ih => simp [ih, add_assoc]

theorem length_bandRing_of_reached {state : BollingerState}
    (h : (incrementalBollinger period mult).Reached state) : state.ring.length = period := by
  induction h with
  | @seeded w state hstate =>
      simp only [incrementalBollinger, Option.bind_eq_bind, Option.bind_eq_some_iff,
        Option.pure_def, Option.some.injEq] at hstate
      obtain ⟨⟨⟩, hperiod, ring, hring, rfl⟩ := hstate
      rw [closes_length hring, lastCandles_length (requirePeriod_eq_some.mp hperiod).2]
  | updated hreached hupdate ih =>
      simp only [incrementalBollinger, Option.bind_eq_bind, Option.bind_eq_some_iff,
        Option.pure_def, Option.some.injEq] at hupdate
      obtain ⟨close, -, oldest, holdest, heq⟩ := hupdate
      obtain ⟨rest, hrest⟩ := List.head?_eq_some_iff.mp holdest
      obtain ⟨rfl, -⟩ := Prod.mk.inj heq
      rw [hrest] at ih ⊢
      simpa using ih

theorem incrementalBollinger_exact (hpos : 0 < period) :
    (incrementalBollinger period mult).Exact where
  starts w hw hle := by
    obtain ⟨qs, -, hqs⟩ := closes_priced fun c (hc : c ∈ lastCandles w period) =>
      (hw c (List.mem_of_mem_drop hc)).priced
    have hperiod : requirePeriod w period = some () := requirePeriod_eq_some.mpr ⟨hpos, hle⟩
    simp [incrementalBollinger, hperiod, hqs]
  folds w next state hw hstate := by
    simp only [incrementalBollinger, Option.bind_eq_bind, Option.bind_eq_some_iff,
      Option.pure_def, Option.some.injEq] at hstate
    obtain ⟨⟨⟩, hperiod, ring, hring, rfl⟩ := hstate
    have hlater : requirePeriod (w ++ [next]) period = some () := requirePeriod_append hperiod
    obtain ⟨-, hle⟩ := requirePeriod_eq_some.mp hperiod
    obtain ⟨close, hclose⟩ := (hw next (by simp)).priced
    have hmember : ∀ c ∈ lastCandles w period, Priced c := fun c hc =>
      (hw c (List.mem_append_left _ (List.mem_of_mem_drop hc))).priced
    obtain ⟨qs, hlength, hqs⟩ := closes_priced hmember
    rw [lastCandles_length hle] at hlength
    rw [hqs] at hring
    cases hring
    simp only [foldl_add_num, foldl_addSq_num, zero_add]
    cases qs with
    | nil =>
        rw [List.length_nil] at hlength
        omega
    | cons oldest rest =>
        -- the oldest close leaves the ring and both sums together
        have hnext : closes ((lastCandles w period).tail ++ [next]) =
            some ((rest ++ [close]).map num) := by
          rw [closes_append, closes_singleton, hclose, closes_tail hqs]
          simp
        have hsum : ((num (oldest :: rest).sum).sub (num oldest)).add (num close) =
            num (rest ++ [close]).sum := by simp
        have hsumSq : ((num ((oldest :: rest).map fun q => q * q).sum).sub
            ((num oldest).mul (num oldest))).add ((num close).mul (num close)) =
            num ((rest ++ [close]).map fun q => q * q).sum := by simp
        refine ⟨⟨(rest ++ [close]).map num, num (rest ++ [close]).sum,
          num ((rest ++ [close]).map fun q => q * q).sum⟩, ?_, ?_⟩
        · simp only [incrementalBollinger, hclose, List.map_cons, List.head?_cons, List.tail_cons,
            Option.bind_eq_bind, Option.bind_some, Option.pure_def] at hsum hsumSq ⊢
          rw [hsum, hsumSq, List.map_append (f := num)]
          rfl
        · simp [incrementalBollinger, hlater, lastCandles_append hpos hle, hnext, foldl_add_num,
            foldl_addSq_num]
  reads_back state hstate := by
    have hlength := length_bandRing_of_reached hstate
    simp [incrementalBollinger, hlength, mapM_printed]

end Bands

/-! ### The directional index -/

section DirectionalIndex

variable {period : ℕ} {w : CandleWindow} {bars : List Bar}

theorem dxCount_foldl (seed : ADXSeed) (hseed : seed.dxCount ≤ period) (bars : List Bar) :
    (bars.foldl (ADXSeed.step period) seed).dxCount = min period (seed.dxCount + bars.length) := by
  induction bars generalizing seed with
  | nil => exact (min_eq_right hseed).symm
  | cons bar bars ih =>
      rw [List.foldl_cons, List.length_cons]
      by_cases h : seed.dxCount < period
      · have hstep : (seed.step period bar).dxCount = seed.dxCount + 1 := by
          rw [ADXSeed.step, if_pos h]
        rw [ih _ (by omega), hstep]
        omega
      · have hstep : (seed.step period bar).dxCount = seed.dxCount := by
          rw [ADXSeed.step, if_neg h]
        rw [ih _ (by omega), hstep]
        omega

/-- Where the seed of a window is, by its bars. -/
def ADXSeed.walk (period : ℕ) (bars : List Bar) (prev : Bar) : ADXSeed :=
  (bars.drop (period + 1)).foldl (ADXSeed.step period)
    ⟨⟨firstMovement (bars.take (period + 1)), num 0, prev⟩, num 0, 0⟩

theorem initFromWindow_incrementalADX (h : readBars w = some bars) :
    (incrementalADX period).initFromWindow w =
      (requirePeriod w (2 * period + 1)).bind fun _ =>
        bars[period]?.map fun prev => (ADXSeed.walk period bars prev).state := by
  simp only [incrementalADX, h, Option.bind_eq_bind, Option.bind_some, Option.pure_def]
  cases requirePeriod w (2 * period + 1) with
  | none => rfl
  | some _ => cases bars[period]? <;> rfl

theorem incrementalADX_exact (hpos : 0 < period) : (incrementalADX period).Exact where
  starts w hw hle := by
    have hlong : 2 * period + 1 ≤ w.length := hle
    obtain ⟨bars, hbars, hlength, -⟩ := readBars_quoted hw
    have hprev : bars[period]? = some bars[period] := List.getElem?_eq_getElem (by omega)
    refine ⟨(ADXSeed.walk period bars bars[period]).state, ?_⟩
    rw [initFromWindow_incrementalADX hbars,
      requirePeriod_eq_some.mpr ⟨Nat.succ_pos (2 * period), hlong⟩, hprev]
    rfl
  folds w next state hw hstate := by
    obtain ⟨bars, hbars, hlength, -⟩ :=
      readBars_quoted fun c hc => hw c (List.mem_append_left _ hc)
    obtain ⟨high, low, close, hnext⟩ := hw next (by simp)
    rw [initFromWindow_incrementalADX hbars] at hstate
    obtain ⟨⟨⟩, hperiod, hwalk⟩ := Option.bind_eq_some_iff.mp hstate
    obtain ⟨prev, hprev, rfl⟩ := Option.map_eq_some_iff.mp hwalk
    have hlong := (requirePeriod_eq_some.mp hperiod).2
    have hlater := readBars_concat hbars hnext
    refine ⟨_, by simp only [incrementalADX, hnext]; rfl, ?_⟩
    rw [initFromWindow_incrementalADX hlater, requirePeriod_append hperiod, Option.bind_some,
      List.getElem?_append_left (by omega), hprev, Option.map_some, Option.some.injEq]
    -- the window fills the second walk, so one more bar takes the step of an update
    have hfull : (ADXSeed.walk period bars prev).dxCount = period := by
      rw [ADXSeed.walk, dxCount_foldl _ (Nat.zero_le _), List.length_drop]
      omega
    have hwalk : ADXSeed.walk period (bars ++ [⟨num high, num low, num close⟩]) prev =
        (ADXSeed.walk period bars prev).step period ⟨num high, num low, num close⟩ := by
      rw [ADXSeed.walk, List.take_append_of_le_length (by omega),
        List.drop_append_of_le_length (by omega), List.foldl_append]
      rfl
    rw [hwalk, ADXSeed.step, if_neg hfull.ge.not_gt]
  reads_back _ _ := rfl

end DirectionalIndex

/-! ### The stochastic -/

section Stochastic

variable {period smoothK : ℕ} {w : CandleWindow} {bars : List Bar}

/-- The raw reading at the end of a run of bars. -/
def sliceK (slice : List Bar) : Decimal :=
  rawK (slice.getLast?.elim (num 0) (·.close)) (slice.map (·.high)) (slice.map (·.low))

/-- What the rings hold of the bars behind them. -/
def ringsOf (period smoothK : ℕ) (bars : List Bar) : StochasticState :=
  ⟨(bars.rtake period).map (·.high), (bars.rtake period).map (·.low),
    ((slices period bars).map sliceK).rtake smoothK⟩

theorem sliceK_concat (hpos : 0 < period) (bar : Bar) :
    sliceK ((bars ++ [bar]).rtake period) =
      rawK bar.close (((bars ++ [bar]).rtake period).map (·.high))
        (((bars ++ [bar]).rtake period).map (·.low)) := by
  obtain ⟨n, rfl⟩ := Nat.exists_eq_succ_of_ne_zero hpos.ne'
  rw [sliceK, List.rtake_concat_succ, List.getLast?_concat]
  rfl

theorem push_map_rtake (hpos : 0 < period) (f : Bar → Decimal) (bar : Bar) :
    push period ((bars.rtake period).map f) (f bar) = ((bars ++ [bar]).rtake period).map f := by
  rw [map_rtake, push_rtake hpos, map_rtake, List.map_append, List.map_singleton]

theorem foldl_seedStep (hpos : 0 < period) (hsmooth : 0 < smoothK) (bars : List Bar) :
    bars.foldl (StochasticState.seedStep period smoothK) ⟨[], [], []⟩ =
      ringsOf period smoothK bars := by
  induction bars using List.reverseRecOn with
  | nil =>
      have hnone : slices period ([] : List Bar) = [] := by
        refine List.eq_nil_of_length_eq_zero ?_
        rw [length_slices, List.length_nil]
        omega
      simp [ringsOf, hnone]
  | append_singleton bars bar ih =>
      rw [List.foldl_append, ih, List.foldl_cons, List.foldl_nil, StochasticState.seedStep]
      simp only [ringsOf, push_map_rtake hpos (·.high), push_map_rtake hpos (·.low)]
      simp only [List.length_map, length_rtake, List.length_append, List.length_singleton,
        slices_concat hpos, StochasticState.mk.injEq, true_and]
      by_cases h : period ≤ bars.length + 1
      · rw [if_pos (min_eq_left h), if_pos h, List.map_append, List.map_singleton,
          sliceK_concat hpos, push_rtake hsmooth]
      · have hnone : slices period bars = [] := by
          refine List.eq_nil_of_length_eq_zero ?_
          rw [length_slices]
          omega
        rw [if_neg (by omega), if_neg h, hnone]

theorem initFromWindow_incrementalStochastic (hpos : 0 < period) (hsmooth : 0 < smoothK)
    (h : readBars w = some bars) :
    (incrementalStochastic period smoothK).initFromWindow w =
      (requirePeriod w (period + smoothK - 1)).map fun _ => ringsOf period smoothK bars := by
  have hlast : readBars (lastCandles w (period + smoothK - 1)) =
      some (bars.rtake (period + smoothK - 1)) := by
    rw [lastCandles, List.rtake, length_readBars h]
    exact readBars_drop _ h
  have hrings : ringsOf period smoothK (bars.rtake (period + smoothK - 1)) =
      ringsOf period smoothK bars := by
    have hrtake : (bars.rtake (period + smoothK - 1)).rtake period = bars.rtake period := by
      rw [List.rtake, length_rtake, List.rtake, List.drop_drop, List.rtake]
      congr 1
      omega
    have hk : (((slices period bars).map sliceK).rtake smoothK).rtake smoothK =
        ((slices period bars).map sliceK).rtake smoothK :=
      rtake_of_length_le (length_rtake.trans_le (min_le_left _ _))
    rw [ringsOf, hrtake, slices_rtake hpos, map_rtake sliceK, hk, ringsOf]
  simp only [incrementalStochastic, hlast, foldl_seedStep hpos hsmooth, hrings,
    Option.bind_eq_bind, Option.bind_some, Option.pure_def]
  cases requirePeriod w (period + smoothK - 1) <;> rfl

theorem ringsOf_concat (hpos : 0 < period) (hsmooth : 0 < smoothK)
    (hlong : period + smoothK - 1 ≤ bars.length) (bar : Bar) :
    ringsOf period smoothK (bars ++ [bar]) =
      { highRing := (ringsOf period smoothK bars).highRing.tail ++ [bar.high]
        lowRing := (ringsOf period smoothK bars).lowRing.tail ++ [bar.low]
        kRing := (ringsOf period smoothK bars).kRing.tail ++
          [rawK bar.close ((ringsOf period smoothK bars).highRing.tail ++ [bar.high])
            ((ringsOf period smoothK bars).lowRing.tail ++ [bar.low])] } := by
  have hbars : (bars ++ [bar]).rtake period = (bars.rtake period).tail ++ [bar] :=
    rtake_concat hpos (by omega)
  have hslices : smoothK ≤ ((slices period bars).map sliceK).length := by
    rw [List.length_map, length_slices]
    omega
  have hk := @sliceK_concat period bars hpos bar
  rw [hbars, List.map_append, List.map_append, List.map_tail, List.map_tail] at hk
  rw [ringsOf, slices_concat hpos, if_pos (by omega), List.map_append, List.map_singleton,
    rtake_concat hsmooth hslices, hbars, hk, List.map_append, List.map_append, List.map_tail,
    List.map_tail]
  rfl

theorem length_rings_of_reached (hpos : 0 < period) (hsmooth : 0 < smoothK)
    {state : StochasticState} (h : (incrementalStochastic period smoothK).Reached state) :
    state.highRing.length = period ∧ state.lowRing.length = period ∧
      state.kRing.length = smoothK := by
  induction h with
  | @seeded w state hstate =>
      have hbars : ∃ bars, bars.length = period + smoothK - 1 ∧
          state = ringsOf period smoothK bars := by
        simp only [incrementalStochastic, Option.bind_eq_bind, Option.bind_eq_some_iff,
          Option.pure_def, Option.some.injEq, foldl_seedStep hpos hsmooth] at hstate
        obtain ⟨⟨⟩, hperiod, bars, hbars, rfl⟩ := hstate
        refine ⟨bars, ?_, rfl⟩
        rw [length_readBars hbars, lastCandles_length (requirePeriod_eq_some.mp hperiod).2]
      obtain ⟨bars, hlength, rfl⟩ := hbars
      simp only [ringsOf, List.length_map, length_rtake, length_slices, hlength]
      omega
  | updated hreached hupdate ih =>
      simp only [incrementalStochastic, Option.bind_eq_bind, Option.bind_eq_some_iff,
        Option.pure_def, Option.some.injEq] at hupdate
      obtain ⟨bar, -, heq⟩ := hupdate
      obtain ⟨rfl, -⟩ := Prod.mk.inj heq
      simp only [List.length_append, List.length_tail, List.length_singleton]
      omega

theorem incrementalStochastic_exact (hpos : 0 < period) (hsmooth : 0 < smoothK) :
    (incrementalStochastic period smoothK).Exact where
  starts w hw hle := by
    have hlong : period + smoothK - 1 ≤ w.length := hle
    obtain ⟨bars, hbars, -⟩ := readBars_quoted hw
    refine ⟨ringsOf period smoothK bars, ?_⟩
    rw [initFromWindow_incrementalStochastic hpos hsmooth hbars,
      requirePeriod_eq_some.mpr ⟨by omega, hlong⟩, Option.map_some]
  folds w next state hw hstate := by
    obtain ⟨bars, hbars, hlength, -⟩ :=
      readBars_quoted fun c hc => hw c (List.mem_append_left _ hc)
    obtain ⟨high, low, close, hnext⟩ := hw next (by simp)
    rw [initFromWindow_incrementalStochastic hpos hsmooth hbars] at hstate
    obtain ⟨⟨⟩, hperiod, rfl⟩ := Option.map_eq_some_iff.mp hstate
    have hlong := (requirePeriod_eq_some.mp hperiod).2
    refine ⟨_, by simp only [incrementalStochastic, hnext]; rfl, ?_⟩
    rw [initFromWindow_incrementalStochastic hpos hsmooth (readBars_concat hbars hnext),
      requirePeriod_append hperiod, Option.map_some, ringsOf_concat hpos hsmooth (by omega)]
  reads_back state hstate := by
    obtain ⟨hhigh, hlow, hk⟩ := length_rings_of_reached hpos hsmooth hstate
    simp [incrementalStochastic, hhigh, hlow, hk, mapM_printed]

end Stochastic

end TradingBot

import TradingBot.Discovery.Resolve

/-!
# Rotations over a run

A backtest's cycles, one after the other from an empty set. Every turn keeps
the set distinct and within its cap and takes symbols out by the rules; two
turns that move the same symbol in opposite directions lie at least the hold
time apart.
-/

namespace TradingBot.Discovery

open Decimal ResolveInput

/-! ### Turns -/

/-- One cycle of a replay: what it started from, what it saw and what it decided. -/
structure Turn where
  before : BacktestState
  step : DiscoveryBacktestStep
  diff : DiscoveryDiff
  after : BacktestState

section Replay

variable (env : Environment) (cfg : DiscoveryConfig) (fee : Decimal)

def turnOf (s : BacktestState) (step : DiscoveryBacktestStep) : Turn where
  before := s
  step := step
  diff := runDiscovery env (backtestInput cfg s step)
  after := backtestStep env cfg fee s step

/-- The turns of a backtest, in their order. -/
def replay : BacktestState → List DiscoveryBacktestStep → List Turn
  | _, [] => []
  | s, step :: rest => turnOf env cfg fee s step :: replay (backtestStep env cfg fee s step) rest

end Replay

/-- The hold time in milliseconds. -/
def holdMs (cfg : DiscoveryConfig) : ℤ := cfg.minHoldMinutes * msPerMinute

def BacktestState.symbols (s : BacktestState) : List String := s.currentAuto.map (·.symbol)

namespace Turn

/-- What the turn's cycle resolved. -/
def resolving (env : Environment) (cfg : DiscoveryConfig) (turn : Turn) : ResolveInput :=
  (backtestInput cfg turn.before turn.step).resolving env [] []

/-- A symbol of the set that a turn may take out though it can still be traded. -/
def Removable (env : Environment) (cfg : DiscoveryConfig) (turn : Turn) (c : OpenAuto) : Prop :=
  c ∈ turn.before.currentAuto ∧
    c.symbol ∉ (turn.resolving env cfg).eligible env ∧
    c.symbol ∈ keepableSymbols env turn.step.tickers cfg ∧
    turn.step.nowMs - c.addedAtMs ≥ holdMs cfg

/-- The rules of one turn. -/
structure Lawful (env : Environment) (cfg : DiscoveryConfig) (turn : Turn) : Prop where
  moves : ∀ s, s ∈ turn.after.symbols ↔
    (s ∈ turn.before.symbols ∧ s ∉ turn.diff.remove) ∨ s ∈ turn.diff.add
  distinct : turn.after.symbols.Nodup
  capped : turn.after.symbols.length ≤ cfg.maxAutoSymbols
  eligible_stays : ∀ s ∈ (turn.resolving env cfg).eligible env, s ∉ turn.diff.remove
  yields_to_add : ∀ s ∈ turn.diff.remove, s ∈ keepableSymbols env turn.step.tickers cfg →
    turn.diff.add ≠ [] ∧ turn.after.symbols.length = cfg.maxAutoSymbols
  oldest_first : ∀ c c', turn.Removable env cfg c → turn.Removable env cfg c' →
    c.symbol ∈ turn.diff.remove → c'.symbol ∉ turn.diff.remove → c.addedAtMs ≤ c'.addedAtMs
  risk_off : marketBreadthOk turn.step.tickers cfg = false → turn.diff.add = [] ∧
    ∀ s ∈ turn.diff.remove, s ∉ keepableSymbols env turn.step.tickers cfg

/-- A symbol that goes one way and then the other does so after the hold time. -/
def Spaced (cfg : DiscoveryConfig) (earlier later : Turn) : Prop :=
  ∀ s, (s ∈ earlier.diff.remove → s ∈ later.diff.add →
      earlier.step.nowMs + holdMs cfg ≤ later.step.nowMs) ∧
    (s ∈ earlier.diff.add → s ∈ later.diff.remove →
      earlier.step.nowMs + holdMs cfg ≤ later.step.nowMs)

end Turn

/-! ### Distinct symbols -/

section Distinct

variable {env : Environment} {tickers : List DiscoveryTicker} {cfg : DiscoveryConfig}

theorem perm_sortByGain (env : Environment) (tickers : List DiscoveryTicker) :
    (sortByGain env tickers).Perm tickers := List.perm_insertionSort _ _

theorem shortlist_subset : shortlistByTicker env tickers cfg ⊆ tickers.map (·.symbol) := by
  intro s hs
  obtain ⟨t, ht, rfl⟩ := List.mem_map.mp hs
  exact List.mem_map_of_mem (List.mem_of_mem_filter ((perm_sortByGain env _).mem_iff.mp ht))

theorem nodup_shortlist (h : (tickers.map (·.symbol)).Nodup) :
    (shortlistByTicker env tickers cfg).Nodup := by
  unfold shortlistByTicker
  rw [((perm_sortByGain env _).map _).nodup_iff]
  exact h.sublist (List.filter_sublist.map _)

end Distinct

/-! ### One step of a backtest -/

section Step

variable {env : Environment} {cfg : DiscoveryConfig} {fee : Decimal} {s : BacktestState}
  {step : DiscoveryBacktestStep}

theorem symbols_backtestInput (s : BacktestState) (step : DiscoveryBacktestStep) :
    ((backtestInput cfg s step).resolving env [] []).currentSet = s.symbols := by
  simp [currentSet, DiscoveryInput.resolving, backtestInput, BacktestState.symbols,
    Function.comp_def]

theorem symbols_applyDiff {diff : DiscoveryDiff} (hdisjoint : ∀ a ∈ diff.add, a ∉ diff.remove) :
    (applyDiff fee step diff s).symbols =
      (s.symbols.filter fun a => !diff.remove.contains a) ++
        (step.tickers.map (·.symbol)).filter fun a => diff.add.contains a := by
  unfold applyDiff BacktestState.symbols
  dsimp only
  rw [List.filter_append, List.map_append]
  congr 1
  · rw [List.filter_map]
    rfl
  · rw [List.filter_eq_self.mpr, List.map_map, List.filter_map]
    · rfl
    · intro pos hpos
      obtain ⟨t, ht, rfl⟩ := List.mem_map.mp hpos
      have hadd : t.symbol ∈ diff.add := by simpa using (List.mem_filter.mp ht).2
      simpa [openPosition] using hdisjoint t.symbol hadd

/-- Some of a list's distinct elements, found in it again. -/
theorem length_filter_mem {l r : List String} (hl : l.Nodup) (hr : r.Nodup) (hsub : r ⊆ l) :
    (l.filter fun a => r.contains a).length = r.length := by
  refine List.Perm.length_eq ((List.perm_ext_iff_of_nodup (hl.filter _) hr).mpr ?_)
  intro a
  rw [List.mem_filter, List.contains_eq_mem, decide_eq_true_iff]
  exact ⟨fun h => h.2, fun h => ⟨hsub h, h⟩⟩

/-- A turn from a distinct set within its cap keeps the rules. -/
theorem lawful_turnOf (hnodup : s.symbols.Nodup) (hcap : s.symbols.length ≤ cfg.maxAutoSymbols)
    (hfeed : (step.tickers.map (·.symbol)).Nodup) : (turnOf env cfg fee s step).Lawful env cfg := by
  set i := (backtestInput cfg s step).resolving env [] [] with hi
  have hcurrent : i.currentSet = s.symbols := symbols_backtestInput s step
  have hsize : i.currentAuto.length = s.symbols.length := by
    rw [← hcurrent, currentSet, List.length_map]
  have hadd : i.add env ⊆ step.tickers.map (·.symbol) := by
    intro a ha
    exact shortlist_subset (List.mem_of_mem_filter (mem_add ha).1)
  have haddNodup : (i.add env).Nodup :=
    ((nodup_shortlist hfeed).sublist List.filter_sublist).sublist (add_spec env i).1
  have hremoveNodup : (i.remove env).Nodup := nodup_remove (by rw [hcurrent]; exact hnodup)
  have hremove : i.remove env ⊆ s.symbols := by
    rw [← hcurrent]
    exact remove_subset env i
  have hnew : ∀ a ∈ i.add env, a ∉ s.symbols := by
    intro a ha
    rw [← hcurrent]
    exact (mem_add ha).2.1
  have hafter : (turnOf env cfg fee s step).after.symbols =
      (s.symbols.filter fun a => !(i.remove env).contains a) ++
        (step.tickers.map (·.symbol)).filter fun a => (i.add env).contains a :=
    symbols_applyDiff fun a ha hgone => hnew a ha (hremove hgone)
  have hlength : (turnOf env cfg fee s step).after.symbols.length =
      i.currentAuto.length - (i.remove env).length + (i.add env).length := by
    have hsplit := List.length_eq_length_filter_add (l := s.symbols) ((i.remove env).contains ·)
    rw [length_filter_mem hnodup hremoveNodup hremove] at hsplit
    rw [hafter, List.length_append, length_filter_mem hfeed haddNodup hadd]
    omega
  obtain ⟨-, hcapped, hfull⟩ := @rotation_size env i (by rw [hsize]; exact hcap)
  refine ⟨?_, ?_, ?_, ?_, ?_, ?_, ?_⟩
  · intro a
    rw [hafter, List.mem_append, List.mem_filter, List.mem_filter]
    simp only [List.contains_eq_mem, Bool.not_eq_true', decide_eq_false_iff_not, decide_eq_true_iff]
    exact or_congr Iff.rfl ⟨fun h => h.2, fun h => ⟨hadd h, h⟩⟩
  · rw [hafter]
    refine List.nodup_append.mpr ⟨hnodup.filter _, hfeed.filter _, ?_⟩
    rintro a ha _ hb rfl
    have hadded : a ∈ i.add env := by simpa using (List.mem_filter.mp hb).2
    exact hnew a hadded (List.mem_of_mem_filter ha)
  · rw [hlength]
    exact hcapped
  · intro a ha
    exact eligible_not_removed ha
  · intro a ha hkeep
    rw [hlength]
    obtain ⟨c, -, rfl, -, -, hnot | hevicted⟩ := @mem_remove env i _ ha
    · rw [isKeepable, List.contains_eq_mem, decide_eq_false_iff_not] at hnot
      exact absurd hkeep hnot
    · exact hfull (List.ne_nil_of_mem hevicted)
  · intro c c' hc hc' hgone hstays
    have hyields : ∀ d, (turnOf env cfg fee s step).Removable env cfg d →
        d.toCurrentAutoSymbol ∈ i.yielding env := by
      rintro d ⟨hmem, hfaded, hkeep, hheld⟩
      refine mem_yielding.mpr ⟨List.mem_map_of_mem hmem, ?_, ?_, ?_⟩
      · rw [isEligible, List.contains_eq_mem, decide_eq_false_iff_not]
        exact hfaded
      · rw [reapable, Bool.and_eq_true]
        exact ⟨decide_eq_true hheld, rfl⟩
      · rw [isKeepable, List.contains_eq_mem, decide_eq_true_iff]
        exact hkeep
    obtain ⟨d, hd, hsymbol, -, -, hnot | hevicted⟩ := @mem_remove env i _ hgone
    · rw [isKeepable, List.contains_eq_mem, decide_eq_false_iff_not, hsymbol] at hnot
      exact absurd hc.2.2.1 hnot
    · have hsame : d = c.toCurrentAutoSymbol := by
        rw [← hcurrent] at hnodup
        exact List.inj_on_of_nodup_map hnodup hd (mem_yielding.mp (hyields c hc)).1 hsymbol
      rw [hsame] at hevicted
      refine evicted_oldest hevicted (hyields c' hc') ?_
      intro hgone'
      exact hstays (List.mem_append_right _ (List.mem_map_of_mem hgone'))
  · intro hbreadth
    obtain ⟨hnone, hempty⟩ := @blocked_adds env i hbreadth
    refine ⟨hnone, ?_⟩
    intro a ha
    obtain ⟨c, -, rfl, -, -, hnot | hevicted⟩ := @mem_remove env i _ ha
    · rw [isKeepable, List.contains_eq_mem, decide_eq_false_iff_not] at hnot
      exact hnot
    · rw [hempty] at hevicted
      cases hevicted

/-! ### Stamps -/

theorem lastFlatten_foldl (l : List OpenAuto) (s : BacktestState) (a : String) :
    (l.foldl (closePosition fee step) s).lastFlattenAtMsBySymbol a =
      if a ∈ l.map (·.symbol) then some step.nowMs else s.lastFlattenAtMsBySymbol a := by
  induction l generalizing s with
  | nil => rfl
  | cons pos rest ih =>
      have hclosed : (closePosition fee step s pos).lastFlattenAtMsBySymbol =
          Function.update s.lastFlattenAtMsBySymbol pos.symbol (some step.nowMs) := by
        unfold closePosition
        dsimp only
        split
        · rfl
        · rfl
      rw [List.foldl_cons, ih, hclosed, List.map_cons]
      by_cases ha : a ∈ rest.map (·.symbol)
      · rw [if_pos ha, if_pos (List.mem_cons_of_mem _ ha)]
      · by_cases hpos : a = pos.symbol
        · subst hpos
          rw [if_neg ha, if_pos List.mem_cons_self, Function.update_self]
        · rw [if_neg ha, if_neg (by simp [hpos, ha]), Function.update_of_ne hpos]

/-- A symbol was last taken out at the time or later. -/
def FlattenedSince (t : ℤ) (a : String) (s : BacktestState) : Prop :=
  ∃ stamp, s.lastFlattenAtMsBySymbol a = some stamp ∧ t ≤ stamp

/-- A symbol, where the set holds it, came in at the time or later. -/
def AddedSince (t : ℤ) (a : String) (s : BacktestState) : Prop :=
  ∀ pos ∈ s.currentAuto, pos.symbol = a → t ≤ pos.addedAtMs

theorem flattenedSince_step {t : ℤ} {a : String} (htime : t ≤ step.nowMs)
    (h : FlattenedSince t a s) : FlattenedSince t a (backtestStep env cfg fee s step) := by
  obtain ⟨stamp, hstamp, hle⟩ := h
  unfold FlattenedSince backtestStep applyDiff
  dsimp only
  rw [lastFlatten_foldl]
  split
  · exact ⟨_, rfl, htime⟩
  · exact ⟨stamp, hstamp, hle⟩

/-- A removal stamps the symbol. -/
theorem flattenedSince_of_remove {a : String}
    (h : a ∈ (turnOf env cfg fee s step).diff.remove) :
    FlattenedSince step.nowMs a (backtestStep env cfg fee s step) := by
  have hmem : a ∈ s.symbols := by
    rw [← symbols_backtestInput s step]
    exact remove_subset env _ h
  obtain ⟨pos, hpos, rfl⟩ := List.mem_map.mp hmem
  unfold FlattenedSince backtestStep applyDiff
  dsimp only
  rw [lastFlatten_foldl, if_pos]
  · exact ⟨_, rfl, le_rfl⟩
  · refine List.mem_map_of_mem (List.mem_filter.mpr ⟨List.mem_append_left _ hpos, ?_⟩)
    rw [List.contains_eq_mem, decide_eq_true_iff]
    exact h

theorem addedSince_step {t : ℤ} {a : String} (htime : t ≤ step.nowMs) (h : AddedSince t a s) :
    AddedSince t a (backtestStep env cfg fee s step) := by
  intro pos hpos hsymbol
  rcases List.mem_append.mp (List.mem_of_mem_filter hpos) with hold | hnew
  · exact h pos hold hsymbol
  · obtain ⟨ticker, -, rfl⟩ := List.mem_map.mp hnew
    exact htime

/-- An add enters a symbol the set did not hold. -/
theorem addedSince_of_add {a : String} (h : a ∈ (turnOf env cfg fee s step).diff.add) :
    AddedSince step.nowMs a (backtestStep env cfg fee s step) := by
  refine addedSince_step le_rfl ?_
  intro pos hpos hsymbol
  have hnew : a ∉ s.symbols := by
    rw [← @symbols_backtestInput env cfg s step]
    exact (mem_add h).2.1
  rw [← hsymbol] at hnew
  exact absurd (List.mem_map_of_mem hpos) hnew

/-- A symbol is not added within the hold time of being taken out. -/
theorem add_after_hold {t : ℤ} {a : String} (hflat : FlattenedSince t a s)
    (h : a ∈ (turnOf env cfg fee s step).diff.add) : t + holdMs cfg ≤ step.nowMs := by
  obtain ⟨stamp, hstamp, hle⟩ := hflat
  have hcool := (mem_add h).2.2.2
  change inCooldown (s.lastFlattenAtMsBySymbol a) cfg step.nowMs = false at hcool
  rw [hstamp, inCooldown, decide_eq_false_iff_not, not_lt] at hcool
  unfold holdMs
  omega

/-- A symbol is not taken out within the hold time of being added. -/
theorem remove_after_hold {t : ℤ} {a : String} (hadded : AddedSince t a s)
    (h : a ∈ (turnOf env cfg fee s step).diff.remove) : t + holdMs cfg ≤ step.nowMs := by
  obtain ⟨c, hc, rfl, -, hreap, -⟩ := mem_remove h
  obtain ⟨pos, hpos, rfl⟩ := List.mem_map.mp hc
  rw [reapable, Bool.and_eq_true] at hreap
  have hheld : cfg.minHoldMinutes * msPerMinute ≤ step.nowMs - pos.addedAtMs :=
    of_decide_eq_true hreap.1
  have hle := hadded pos hpos rfl
  unfold holdMs
  omega

theorem forall_later {P : BacktestState → Prop} {Q : Turn → Prop} {t : ℤ}
    (hkeeps : ∀ s step, t ≤ step.nowMs → P s → P (backtestStep env cfg fee s step))
    (hgives : ∀ s step, P s → Q (turnOf env cfg fee s step)) :
    ∀ (steps : List DiscoveryBacktestStep) (s : BacktestState), (∀ step ∈ steps, t ≤ step.nowMs) →
      P s → ∀ turn ∈ replay env cfg fee s steps, Q turn := by
  intro steps
  induction steps with
  | nil =>
      intro s _ _ turn hturn
      cases hturn
  | cons step rest ih =>
      intro s htimes hs turn hturn
      rcases List.mem_cons.mp hturn with rfl | hturn
      · exact hgives s step hs
      · exact ih _ (fun later hlater => htimes later (List.mem_cons_of_mem step hlater))
          (hkeeps s step (htimes step List.mem_cons_self) hs) turn hturn

theorem spaced_turnOf {rest : List DiscoveryBacktestStep}
    (htimes : ∀ later ∈ rest, step.nowMs ≤ later.nowMs) :
    ∀ turn ∈ replay env cfg fee (backtestStep env cfg fee s step) rest,
      Turn.Spaced cfg (turnOf env cfg fee s step) turn := by
  intro turn hturn a
  constructor
  · intro hremoved
    exact forall_later (Q := fun turn => a ∈ turn.diff.add →
      step.nowMs + holdMs cfg ≤ turn.step.nowMs)
      (fun _ _ => flattenedSince_step) (fun _ _ => add_after_hold) rest _ htimes
      (flattenedSince_of_remove hremoved) turn hturn
  · intro hadded
    exact forall_later
      (Q := fun turn => a ∈ turn.diff.remove → step.nowMs + holdMs cfg ≤ turn.step.nowMs)
      (fun _ _ => addedSince_step) (fun _ _ => remove_after_hold) rest _ htimes
      (addedSince_of_add hadded) turn hturn

theorem lawful_replay (steps : List DiscoveryBacktestStep) {s : BacktestState}
    (hnodup : s.symbols.Nodup) (hcap : s.symbols.length ≤ cfg.maxAutoSymbols)
    (hfeeds : ∀ step ∈ steps, (step.tickers.map (·.symbol)).Nodup) :
    ∀ turn ∈ replay env cfg fee s steps, turn.Lawful env cfg := by
  induction steps generalizing s with
  | nil =>
      intro turn hturn
      cases hturn
  | cons step rest ih =>
      have hlawful : (turnOf env cfg fee s step).Lawful env cfg :=
        lawful_turnOf hnodup hcap (hfeeds step List.mem_cons_self)
      intro turn hturn
      rcases List.mem_cons.mp hturn with rfl | hturn
      · exact hlawful
      · exact ih hlawful.distinct hlawful.capped
          (fun later hlater => hfeeds later (List.mem_cons_of_mem step hlater)) turn hturn

theorem spaced_replay (steps : List DiscoveryBacktestStep) (s : BacktestState)
    (htimes : steps.Pairwise fun earlier later => earlier.nowMs ≤ later.nowMs) :
    (replay env cfg fee s steps).Pairwise (Turn.Spaced cfg) := by
  induction steps generalizing s with
  | nil => exact .nil
  | cons step rest ih =>
      obtain ⟨hlater, hrest⟩ := List.pairwise_cons.mp htimes
      exact .cons (spaced_turnOf hlater) (ih _ hrest)

end Step

/-- From an empty set, every turn of a backtest keeps the rules and any two keep their distance. -/
theorem discovery_rotates_within_rules (env : Environment) (cfg : DiscoveryConfig) (fee : Decimal)
    {steps : List DiscoveryBacktestStep}
    (htimes : steps.Pairwise fun earlier later => earlier.nowMs ≤ later.nowMs)
    (hfeeds : ∀ step ∈ steps, (step.tickers.map (·.symbol)).Nodup) :
    (∀ turn ∈ replay env cfg fee initialBacktest steps, turn.Lawful env cfg) ∧
      (replay env cfg fee initialBacktest steps).Pairwise (Turn.Spaced cfg) :=
  ⟨lawful_replay steps List.nodup_nil (Nat.zero_le _) hfeeds,
    spaced_replay steps initialBacktest htimes⟩

/-- A market in which every trend is strong. -/
def sampleEnvironment : Environment where
  adx := fun _ _ => some (num 50)
  ema := fun _ _ => some (num 0)
  localeCompare := compare

def sampleConfig : DiscoveryConfig where
  quoteAsset := "USDT"
  blacklist := []
  min24hPairVolumeUsd := num 1
  min24hAssetVolumeUsd := num 1
  maxSpreadRatio := num 1
  changeMinPercent := num 0
  rankTopPercent := 30
  rankExcludeTopPercent := 5
  minAgeDays := 1
  maxAutoSymbols := 1
  minHoldMinutes := 1
  marketBreadthMinPercent := num 0
  trendConfirm := ⟨14, num 25, 20, 1, num (1 / 2)⟩
  correlation := none

def sampleTicker (base : String) (change : ℚ) : DiscoveryTicker where
  symbol := base ++ "USDT"
  baseAsset := base
  quoteAsset := "USDT"
  isStablecoinOrFiat := false
  priceChangePercent := num change
  pairVolumeUsd := num 10
  assetVolumeUsd := some (num 10)
  lastPrice := num 100
  bidPrice := num 99
  askPrice := num 101

/-- One candle that is a day old, with volume. -/
def sampleKlines : Klines := fun _ => some [⟨-86400000, 0, num 1, num 1, num 1, num 1⟩]

/-- A gainer is found; two minutes on it has faded and another has come up. -/
def sampleSteps : List DiscoveryBacktestStep :=
  [⟨[sampleTicker "A" 5], sampleKlines, 0⟩,
    ⟨[sampleTicker "A" (-5), sampleTicker "B" 5], sampleKlines, 120000⟩]

theorem sample_rotates_within_rules :
    (replay sampleEnvironment sampleConfig (num 0) initialBacktest sampleSteps).map Turn.diff =
        [⟨["AUSDT"], [], ["AUSDT"]⟩, ⟨["BUSDT"], ["AUSDT"], ["BUSDT"]⟩] ∧
      (∀ turn ∈ replay sampleEnvironment sampleConfig (num 0) initialBacktest sampleSteps,
        turn.Lawful sampleEnvironment sampleConfig) ∧
      (replay sampleEnvironment sampleConfig (num 0) initialBacktest sampleSteps).Pairwise
        (Turn.Spaced sampleConfig) := by
  refine ⟨by decide +kernel, ?_⟩
  refine discovery_rotates_within_rules sampleEnvironment sampleConfig (num 0) ?_ ?_
  · exact .cons (by simp) (.cons (by simp) .nil)
  · intro step hstep
    rcases List.mem_cons.mp hstep with rfl | hstep
    · decide
    · cases List.mem_singleton.mp hstep
      decide

end TradingBot.Discovery

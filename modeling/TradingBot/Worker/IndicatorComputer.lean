import TradingBot.Incremental
import TradingBot.Lib.LabelledRun

/-!
# The live indicators

On every closed candle the running state of three indicators takes the candle
in, and a bundle is published beside the window that was read for it. The state
lives in memory and, as blobs, in Redis; it does not say which candle it last
took in. A run is over the closes of one symbol and interval.
-/

namespace TradingBot.Worker

open Decimal LabelledRun

def smaPeriod : ℕ := 20
def emaPeriod : ℕ := 20
def rsiPeriod : ℕ := 14
def rsiMinWindow : ℕ := rsiPeriod + 1

def smaInd : IncrementalIndicator SMAState SerializedSMA := incrementalSMA smaPeriod
def emaInd : IncrementalIndicator EMAState SerializedEMA := incrementalEMA emaPeriod
def rsiInd : IncrementalIndicator RSIState SerializedRSI := incrementalRSI rsiPeriod

theorem smaInd_mirrors : smaInd.Mirrors (sma · smaPeriod) := incrementalSMA_mirrors

theorem emaInd_mirrors : emaInd.Mirrors (ema · emaPeriod) := incrementalEMA_mirrors

theorem rsiInd_mirrors : rsiInd.Mirrors (rsi · rsiPeriod) := incrementalRSI_mirrors

/-- The running states, each none while the window was too short to seed it. -/
structure IndicatorState where
  sma : Option SMAState
  ema : Option EMAState
  rsi : Option RSIState
deriving DecidableEq

/-- What Redis holds of them. -/
structure IndicatorBlobs where
  sma : Option SerializedSMA
  ema : Option SerializedEMA
  rsi : Option SerializedRSI

structure IndicatorBundle where
  windowSize : ℕ
  lowestLow : DecimalString
  highestHigh : DecimalString
  sma20 : Option DecimalString
  ema20 : Option DecimalString
  rsi14 : Option DecimalString
  lastCandleCloseTimeMs : ℤ

variable {S B : Type}

/-- Fold the closed candle in, or seed from the window that already holds it. -/
def stepOrSeed (state : Option S) (window : CandleWindow) (minWindow : ℕ)
    (ind : IncrementalIndicator S B) (closed : Candle) :
    Option (Option S × Option DecimalString) :=
  match state with
  | some state => do
      let (next, value) ← ind.update state closed
      return (some next, some (.printed value))
  | none =>
      if window.length < minWindow then some (none, none)
      else do
        let seeded ← ind.initFromWindow window
        return (some seeded, some (.printed (ind.currentValue seeded)))

/-- A blob that does not decode counts as absent. -/
def tryRehydrate (ind : IncrementalIndicator S B) (raw : Option B) : Option S :=
  raw.bind ind.deserialize

def loadStateFromRedis (redis : IndicatorBlobs) : IndicatorState where
  sma := tryRehydrate smaInd redis.sma
  ema := tryRehydrate emaInd redis.ema
  rsi := tryRehydrate rsiInd redis.rsi

def persistState (redis : IndicatorBlobs) (state : IndicatorState) : IndicatorBlobs where
  sma := (state.sma.map smaInd.serialize).or redis.sma
  ema := (state.ema.map emaInd.serialize).or redis.ema
  rsi := (state.rsi.map rsiInd.serialize).or redis.rsi

/-- The bundle and the states after the close; an empty window has no bundle. -/
def computeBundle (window : CandleWindow) (closed : Candle) (state : IndicatorState) :
    Option (Option (IndicatorBundle × IndicatorState)) :=
  if window.length = 0 then some none
  else do
    let (sma, sma20) ← stepOrSeed state.sma window smaPeriod smaInd closed
    let (ema, ema20) ← stepOrSeed state.ema window emaPeriod emaInd closed
    let (rsi, rsi14) ← stepOrSeed state.rsi window rsiMinWindow rsiInd closed
    let lowest ← lowestLow window
    let highest ← highestHigh window
    return some (⟨window.length, .printed lowest, .printed highest, sma20, ema20, rsi14,
      closed.closeTimeMs⟩, ⟨sma, ema, rsi⟩)

/-- The entry of the computer for one symbol and interval, and the blobs under its keys. -/
structure IndicatorComputer where
  memory : Option IndicatorState
  redis : IndicatorBlobs

namespace IndicatorComputer

def empty : IndicatorComputer := ⟨none, ⟨none, none, none⟩⟩

/-- `getOrInitState`. -/
def getOrInitState (computer : IndicatorComputer) : IndicatorState :=
  computer.memory.getD (loadStateFromRedis computer.redis)

def recompute (computer : IndicatorComputer) (window : CandleWindow) (closed : Candle) :
    Option (IndicatorComputer × Option IndicatorBundle) := do
  let state := computer.getOrInitState
  match ← computeBundle window closed state with
  | none => return (⟨some state, computer.redis⟩, none)
  | some (bundle, state) => return (⟨some state, persistState computer.redis state⟩, some bundle)

end IndicatorComputer

/-! ### Runs -/

/-- The closed candles of a symbol and interval, one after the other. -/
structure ClosedCandles where
  candle : ℕ → Candle
  priced : ∀ n, Priced (candle n)
  ranged : ∀ n, ∃ low high, parse (candle n).low = some low ∧ parse (candle n).high = some high

namespace ClosedCandles

variable (market : ClosedCandles)

/-- The candles from `start` on, `count` of them. -/
def run (start count : ℕ) : CandleWindow := (List.range' start count).map market.candle

/-- The window is a run without a gap that ends with the candle `last`. -/
def Gapless (window : CandleWindow) (last : ℕ) : Prop :=
  ∃ start count, window = market.run start count ∧ start + count = last + 1

end ClosedCandles

/-- A bundle beside the close and the window it was computed at. -/
structure Publication where
  index : ℕ
  window : CandleWindow
  bundle : IndicatorBundle

/-- The next candle to close, the computer, and what it has published. -/
structure CandleRun where
  now : ℕ
  computer : IndicatorComputer
  published : List Publication

/-- What happens to the computer of a key. -/
inductive CandleEvent where
  /-- The next candle closes; the window read for it ends with it, behind earlier candles. -/
  | received (earlier : List ℕ)
  /-- The next candle closes while the process is down or its socket is closed. -/
  | missed
  | restarted
  /-- The blobs reach the end of their time in Redis. -/
  | expired
  | cleared

namespace CandleRun

def boot : CandleRun := ⟨0, .empty, []⟩

variable (market : ClosedCandles)

def step (world : CandleRun) : CandleEvent → Option CandleRun
  | .received earlier => do
      let window := (earlier ++ [world.now]).map market.candle
      let (computer, bundle) ← world.computer.recompute window (market.candle world.now)
      return ⟨world.now + 1, computer,
        world.published ++ (bundle.map fun bundle => ⟨world.now, window, bundle⟩).toList⟩
  | .missed => some { world with now := world.now + 1 }
  | .restarted => some { world with computer.memory := none }
  | .expired => some { world with computer.redis := ⟨none, none, none⟩ }
  | .cleared => some { world with computer := .empty }

end CandleRun

/-! ### What a bundle shows -/

section Statement

variable (market : ClosedCandles)

/-- The state is what folding gives over the closes received since it was seeded, and nothing is
missing between them. -/
def SeededFrom (ind : IncrementalIndicator S B) (published : List Publication) (state : S) : Prop :=
  ∃ seed since, (seed :: since) <:+ published ∧
    ind.folded seed.window (since.map fun later => market.candle later.index) = some state ∧
    ∃ last ∈ published.getLast?, market.Gapless
      (seed.window ++ since.map fun later => market.candle later.index) last.index

/-- The shown value is that of such a state; none is shown where the window cannot seed one. -/
def ShowsFold (ind : IncrementalIndicator S B) (minWindow : ℕ) (published : List Publication)
    (window : CandleWindow) (shown : Option DecimalString) : Prop :=
  (shown = none ∧ window.length < minWindow) ∨
    ∃ state, shown = some (.printed (ind.currentValue state)) ∧
      SeededFrom market ind published state

/-- The last publication agrees with the candles beside it and mixes none across a gap. -/
structure ShowsCandles (published : List Publication) (last : Publication) : Prop where
  sma_window : market.run (last.index + 1 - smaPeriod) smaPeriod <:+ last.window →
    last.bundle.sma20 = (sma last.window smaPeriod).map .printed
  sma20 : ShowsFold market smaInd smaPeriod published last.window last.bundle.sma20
  ema20 : ShowsFold market emaInd emaPeriod published last.window last.bundle.ema20
  rsi14 : ShowsFold market rsiInd rsiMinWindow published last.window last.bundle.rsi14

end Statement

/-- Some indicator still has to be seeded, and the window is long enough for it. -/
def IndicatorState.Seeds (state : IndicatorState) (length : ℕ) : Prop :=
  (state.sma = none ∧ smaPeriod ≤ length) ∨ (state.ema = none ∧ emaPeriod ≤ length) ∨
    (state.rsi = none ∧ rsiMinWindow ≤ length)

/-- A state is only carried on to the close right after the last one it took in, and only seeded
from a window without a gap. -/
def Uninterrupted (world : CandleRun) : CandleEvent → Prop
  | .received earlier =>
      (world.computer.getOrInitState ≠ ⟨none, none, none⟩ →
        ∃ last ∈ world.published.getLast?, last.index + 1 = world.now) ∧
      (world.computer.getOrInitState.Seeds (earlier.length + 1) →
        earlier.length ≤ world.now ∧
          earlier = List.range' (world.now - earlier.length) earlier.length)
  | _ => True

/-! ### One step -/

section Candles

variable {market : ClosedCandles} {window : CandleWindow} {last start count : ℕ}

theorem ClosedCandles.run_concat :
    market.run start count ++ [market.candle (start + count)] = market.run start (count + 1) := by
  simp [run, List.range'_concat]

theorem ClosedCandles.run_length : (market.run start count).length = count := by
  simp [run]

theorem ClosedCandles.run_suffix {tail : ℕ} (h : tail ≤ count) :
    market.run (start + count - tail) tail <:+ market.run start count := by
  refine List.suffix_iff_eq_drop.mpr ?_
  rw [run_length, run_length, run, run, ← List.map_drop, List.drop_range', Nat.sub_sub_self h,
    mul_one, Nat.add_sub_assoc h]

theorem ClosedCandles.Gapless.concat (h : market.Gapless window last) :
    market.Gapless (window ++ [market.candle (last + 1)]) (last + 1) := by
  obtain ⟨start, count, rfl, hend⟩ := h
  exact ⟨start, count + 1, by rw [← hend, run_concat], by omega⟩

theorem ClosedCandles.Gapless.priced (h : market.Gapless window last) : ∀ c ∈ window, Priced c := by
  obtain ⟨start, count, rfl, -⟩ := h
  intro c hc
  obtain ⟨n, -, rfl⟩ := List.mem_map.mp hc
  exact market.priced n

end Candles

section Slot

variable {market : ClosedCandles} {ind : IncrementalIndicator S B}
  {full : CandleWindow → Option Decimal} {published : List Publication} {later : Publication}
  {kept next : Option S} {shown : Option DecimalString} {minWindow : ℕ} {state : S}

theorem SeededFrom.update (hind : ind.Mirrors full) (h : SeededFrom market ind published state)
    (hafter : ∃ last ∈ published.getLast?, last.index + 1 = later.index) :
    ∃ after, ind.update state (market.candle later.index) =
        some (after, ind.currentValue after) ∧
      SeededFrom market ind (published ++ [later]) after := by
  obtain ⟨seed, since, hsuffix, hfolded, last, hlast, hgapless⟩ := h
  obtain ⟨last', hlast', hindex⟩ := hafter
  cases Option.mem_unique hlast hlast'
  have hlonger := hgapless.concat
  rw [hindex] at hlonger
  have hinit := hind.initFromWindow_append hgapless.priced hfolded
  obtain ⟨after, hupdate, -⟩ := hind.folds hlonger.priced hinit
  refine ⟨after, hupdate, seed, since ++ [later], ?_, ?_, later, by simp, ?_⟩
  · obtain ⟨before, rfl⟩ := hsuffix
    exact ⟨before, by simp⟩
  · rw [List.map_append, List.map_singleton, ind.folded_concat, hfolded, Option.bind_some, hupdate]
    rfl
  · rw [List.map_append, List.map_singleton, ← List.append_assoc]
    exact hlonger

theorem SeededFrom.start (hseeded : ind.initFromWindow later.window = some state)
    (hgapless : market.Gapless later.window later.index) :
    SeededFrom market ind (published ++ [later]) state := by
  refine ⟨later, [], List.suffix_append _ _, ?_, later, by simp, by simpa using hgapless⟩
  simp [IncrementalIndicator.folded, IncrementalIndicator.fold, hseeded]

/-- What one indicator does with a close. -/
theorem stepOrSeed_shows (later : Publication) (hind : ind.Mirrors full)
    (hkept : ∀ state, kept = some state → SeededFrom market ind published state)
    (hafter : kept ≠ none → ∃ last ∈ published.getLast?, last.index + 1 = later.index)
    (hseeds : kept = none → minWindow ≤ later.window.length →
      market.Gapless later.window later.index)
    (hstep : stepOrSeed kept later.window minWindow ind (market.candle later.index) =
      some (next, shown)) :
    (next = none → kept = none) ∧
      (∀ state, next = some state → SeededFrom market ind (published ++ [later]) state) ∧
      ShowsFold market ind minWindow (published ++ [later]) later.window shown := by
  cases kept with
  | some state =>
      obtain ⟨after, hupdate, hafter⟩ := (hkept state rfl).update hind (hafter (by simp))
      simp only [stepOrSeed, hupdate] at hstep
      cases hstep
      refine ⟨by simp, ?_, .inr ⟨after, rfl, hafter⟩⟩
      rintro _ ⟨⟩
      exact hafter
  | none =>
      rw [stepOrSeed] at hstep
      split at hstep
      · next hshort =>
          cases hstep
          exact ⟨fun _ => rfl, by simp, .inl ⟨rfl, hshort⟩⟩
      · next hlong =>
          obtain ⟨seeded, hseeded, hnext⟩ := Option.bind_eq_some_iff.mp hstep
          cases hnext
          have hfrom : SeededFrom market ind (published ++ [later]) seeded :=
            .start hseeded (hseeds rfl (Nat.le_of_not_lt hlong))
          refine ⟨fun _ => rfl, ?_, .inr ⟨seeded, rfl, hfrom⟩⟩
          rintro _ ⟨⟩
          exact hfrom

/-- The state in memory and the blob in Redis both stem from the closes published. -/
structure Stems (market : ClosedCandles) (ind : IncrementalIndicator S B)
    (published : List Publication) (cached : Option (Option S)) (blob : Option B) : Prop where
  inMemory : ∀ state, cached = some (some state) → SeededFrom market ind published state
  inRedis : ∀ raw, blob = some raw → ∃ state, ind.deserialize raw = some state ∧
    SeededFrom market ind published state ∧ ∀ held, cached = some held → held = some state

variable {cached : Option (Option S)} {blob : Option B}

/-- The state that the next close starts from. -/
theorem Stems.of_kept (h : Stems market ind published cached blob)
    (hkept : cached.getD (tryRehydrate ind blob) = some state) :
    SeededFrom market ind published state := by
  cases cached with
  | some held => exact h.inMemory state (congrArg some hkept)
  | none =>
      obtain ⟨raw, hraw, hread⟩ := Option.bind_eq_some_iff.mp hkept
      obtain ⟨stored, hstored, hfrom, -⟩ := h.inRedis raw hraw
      cases hread.symm.trans hstored
      exact hfrom

theorem Stems.blob_eq_none (h : Stems market ind published cached blob)
    (hkept : cached.getD (tryRehydrate ind blob) = none) : blob = none := by
  cases hblob : blob with
  | none => rfl
  | some raw =>
      obtain ⟨stored, hstored, -, hheld⟩ := h.inRedis raw hblob
      cases cached with
      | some held => exact absurd ((hheld held rfl).symm.trans hkept) (by simp)
      | none => simp [tryRehydrate, hblob, hstored] at hkept

theorem Stems.forget (h : Stems market ind published cached blob) :
    Stems market ind published none blob where
  inMemory := by simp
  inRedis raw hraw := by
    obtain ⟨state, hread, hfrom, -⟩ := h.inRedis raw hraw
    exact ⟨state, hread, hfrom, by simp⟩

theorem Stems.expire (h : Stems market ind published cached blob) :
    Stems market ind published cached none where
  inMemory := h.inMemory
  inRedis := by simp

theorem Stems.persist (hind : ind.Mirrors full) (h : Stems market ind published cached blob)
    (hnone : next = none → cached.getD (tryRehydrate ind blob) = none)
    (hnext : ∀ state, next = some state → SeededFrom market ind (published ++ [later]) state) :
    Stems market ind (published ++ [later]) (some next)
      ((next.map ind.serialize).or blob) where
  inMemory state hstate := hnext state (Option.some.inj hstate)
  inRedis raw hraw := by
    cases next with
    | none =>
        rw [h.blob_eq_none (hnone rfl)] at hraw
        cases hraw
    | some state =>
        cases hraw
        have hfrom := hnext state rfl
        obtain ⟨seed, since, -, hfolded, last, -, hgapless⟩ := hfrom
        refine ⟨state, ?_, hnext state rfl, by simp⟩
        exact hind.reads_back (hind.initFromWindow_append hgapless.priced hfolded)

end Slot

section Run

variable {market : ClosedCandles} {world next : CandleRun} {earlier : List ℕ}

/-- What a received close does to the three states and publishes. -/
theorem CandleRun.step_received (h : world.step market (.received earlier) = some next) :
    ∃ state bundle, let later : Publication :=
        ⟨world.now, (earlier ++ [world.now]).map market.candle, bundle⟩
      let kept := world.computer.getOrInitState
      let closed := market.candle world.now
      stepOrSeed kept.sma later.window smaPeriod smaInd closed = some (state.sma, bundle.sma20) ∧
        stepOrSeed kept.ema later.window emaPeriod emaInd closed = some (state.ema, bundle.ema20) ∧
        stepOrSeed kept.rsi later.window rsiMinWindow rsiInd closed =
          some (state.rsi, bundle.rsi14) ∧
        next = ⟨world.now + 1, ⟨some state, persistState world.computer.redis state⟩,
          world.published ++ [later]⟩ := by
  simp only [step, IndicatorComputer.recompute, computeBundle, List.length_map, List.length_append,
    List.length_singleton, Nat.add_eq_zero_iff, Nat.one_ne_zero, and_false, if_false,
    Option.bind_eq_bind, Option.bind_eq_some_iff, Option.pure_def, Option.some.injEq] at h
  obtain ⟨⟨computer, bundle⟩, ⟨_, ⟨⟨sma, sma20⟩, hsma, ⟨ema, ema20⟩, hema, ⟨rsi, rsi14⟩, hrsi,
    lowest, -, highest, -, rfl⟩, hcomputer⟩, rfl⟩ := h
  cases hcomputer
  exact ⟨⟨sma, ema, rsi⟩, _, hsma, hema, hrsi, rfl⟩

/-- The window of an uninterrupted seed has no gap. -/
theorem CandleRun.gapless_of_range (hle : earlier.length ≤ world.now)
    (hrange : earlier = List.range' (world.now - earlier.length) earlier.length) :
    market.Gapless ((earlier ++ [world.now]).map market.candle) world.now := by
  refine ⟨world.now - earlier.length, earlier.length + 1, ?_, by omega⟩
  rw [← ClosedCandles.run_concat, Nat.sub_add_cancel hle, ClosedCandles.run, ← hrange,
    List.map_append, List.map_singleton]

/-- The states stem from the closes, and every bundle so far shows them. -/
structure CandleRun.Stemming (market : ClosedCandles) (world : CandleRun) : Prop where
  sma : Stems market smaInd world.published (world.computer.memory.map (·.sma))
    world.computer.redis.sma
  ema : Stems market emaInd world.published (world.computer.memory.map (·.ema))
    world.computer.redis.ema
  rsi : Stems market rsiInd world.published (world.computer.memory.map (·.rsi))
    world.computer.redis.rsi
  shown : ∀ before last, before ++ [last] <+: world.published →
    ShowsCandles market (before ++ [last]) last

theorem IndicatorComputer.getOrInitState_eq (computer : IndicatorComputer) :
    computer.getOrInitState =
      ⟨(computer.memory.map (·.sma)).getD (tryRehydrate smaInd computer.redis.sma),
        (computer.memory.map (·.ema)).getD (tryRehydrate emaInd computer.redis.ema),
        (computer.memory.map (·.rsi)).getD (tryRehydrate rsiInd computer.redis.rsi)⟩ := by
  obtain ⟨memory, redis⟩ := computer
  cases memory <;> rfl

/-- The moving average over a window is that over its last candles. -/
theorem sma_suffix {w tail : CandleWindow} {period : ℕ} (h : tail <:+ w)
    (hlength : tail.length = period) : sma w period = sma tail period := by
  obtain ⟨front, rfl⟩ := h
  have hlast : lastCandles (front ++ tail) period = lastCandles tail period := by
    rw [lastCandles, lastCandles, List.length_append, List.drop_append]
    simp [hlength]
  rw [sma, sma, hlast, requirePeriod, requirePeriod, List.length_append, hlength]
  simp

theorem ShowsFold.sma_window {published : List Publication} {last : Publication}
    (h : ShowsFold market smaInd smaPeriod (published ++ [last]) last.window last.bundle.sma20)
    (htail : market.run (last.index + 1 - smaPeriod) smaPeriod <:+ last.window) :
    last.bundle.sma20 = (sma last.window smaPeriod).map .printed := by
  rcases h with ⟨-, hshort⟩ | ⟨state, hshown, seed, since, -, hfolded, last', hlast', hgapless⟩
  · exact absurd (ClosedCandles.run_length.symm.le.trans htail.length_le) (Nat.not_le.mpr hshort)
  · have hvalue := smaInd_mirrors.currentValue_folded hgapless.priced hfolded
    simp only [List.getLast?_concat, Option.mem_def, Option.some.injEq] at hlast'
    subst hlast'
    obtain ⟨start, count, hrun, hend⟩ := hgapless
    rw [hrun] at hvalue
    have hcount : smaPeriod ≤ count := by
      have hperiod := requirePeriod_eq_some.mp (Option.bind_eq_some_iff.mp hvalue).choose_spec.1
      rw [ClosedCandles.run_length] at hperiod
      exact hperiod.2
    have hsuffix : market.run (start + count - smaPeriod) smaPeriod <:+ market.run start count :=
      ClosedCandles.run_suffix hcount
    rw [hend] at hsuffix
    rw [hshown, sma_suffix htail ClosedCandles.run_length,
      ← sma_suffix hsuffix ClosedCandles.run_length, hvalue]
    rfl

/-- One event keeps the states and the bundles on the closes. -/
theorem CandleRun.Stemming.step {event : CandleEvent} (hstems : world.Stemming market)
    (hok : Uninterrupted world event) (h : world.step market event = some next) :
    next.Stemming market := by
  cases event with
  | missed =>
      cases h
      exact ⟨hstems.sma, hstems.ema, hstems.rsi, hstems.shown⟩
  | restarted =>
      cases h
      exact ⟨hstems.sma.forget, hstems.ema.forget, hstems.rsi.forget, hstems.shown⟩
  | expired =>
      cases h
      exact ⟨hstems.sma.expire, hstems.ema.expire, hstems.rsi.expire, hstems.shown⟩
  | cleared =>
      cases h
      exact ⟨hstems.sma.forget.expire, hstems.ema.forget.expire, hstems.rsi.forget.expire,
        hstems.shown⟩
  | received earlier =>
      obtain ⟨state, bundle, hsma, hema, hrsi, rfl⟩ := step_received h
      obtain ⟨hadjacent, hseeds⟩ := hok
      rw [IndicatorComputer.getOrInitState_eq] at hadjacent hseeds hsma hema hrsi
      have hlength : ((earlier ++ [world.now]).map market.candle).length = earlier.length + 1 := by
        simp
      have hgapless : IndicatorState.Seeds _ (earlier.length + 1) →
          market.Gapless ((earlier ++ [world.now]).map market.candle) world.now := fun hseed =>
        gapless_of_range (hseeds hseed).1 (hseeds hseed).2
      -- each indicator on its own: what it starts from, and when it is seeded
      obtain ⟨hsmaNone, hsmaSome, hsmaShown⟩ := stepOrSeed_shows ⟨_, _, bundle⟩
        smaInd_mirrors (fun _ => hstems.sma.of_kept)
        (fun hkept => hadjacent fun hnone => hkept (congrArg IndicatorState.sma hnone))
        (fun hnone hlong => hgapless (.inl ⟨hnone, hlength ▸ hlong⟩)) hsma
      obtain ⟨hemaNone, hemaSome, hemaShown⟩ := stepOrSeed_shows ⟨_, _, bundle⟩
        emaInd_mirrors (fun _ => hstems.ema.of_kept)
        (fun hkept => hadjacent fun hnone => hkept (congrArg IndicatorState.ema hnone))
        (fun hnone hlong => hgapless (.inr (.inl ⟨hnone, hlength ▸ hlong⟩))) hema
      obtain ⟨hrsiNone, hrsiSome, hrsiShown⟩ := stepOrSeed_shows ⟨_, _, bundle⟩
        rsiInd_mirrors (fun _ => hstems.rsi.of_kept)
        (fun hkept => hadjacent fun hnone => hkept (congrArg IndicatorState.rsi hnone))
        (fun hnone hlong => hgapless (.inr (.inr ⟨hnone, hlength ▸ hlong⟩))) hrsi
      refine ⟨hstems.sma.persist smaInd_mirrors hsmaNone hsmaSome,
        hstems.ema.persist emaInd_mirrors hemaNone hemaSome,
        hstems.rsi.persist rsiInd_mirrors hrsiNone hrsiSome, ?_⟩
      intro before last hprefix
      rcases List.prefix_concat_iff.mp hprefix with hwhole | hbefore
      · obtain ⟨rfl, hlast⟩ := List.append_inj' hwhole rfl
        cases hlast
        exact ⟨hsmaShown.sma_window, hsmaShown, hemaShown, hrsiShown⟩
      · exact hstems.shown before last hbefore

theorem CandleRun.stemming_boot : boot.Stemming market where
  sma := ⟨by simp [boot, IndicatorComputer.empty], by simp [boot, IndicatorComputer.empty]⟩
  ema := ⟨by simp [boot, IndicatorComputer.empty], by simp [boot, IndicatorComputer.empty]⟩
  rsi := ⟨by simp [boot, IndicatorComputer.empty], by simp [boot, IndicatorComputer.empty]⟩
  shown before last hprefix := by simp [boot] at hprefix

end Run

instance (state : IndicatorState) (length : ℕ) : Decidable (state.Seeds length) :=
  inferInstanceAs (Decidable (_ ∨ _ ∨ _))

instance (world : CandleRun) : DecidablePred (Uninterrupted world)
  | .received _ => inferInstanceAs (Decidable (_ ∧ _))
  | .missed | .restarted | .expired | .cleared => isTrue trivial

/--
While a state is only carried on to the next close, and seeded from a window
without a gap, every bundle shows the candles beside it: the moving average is
that of the window, and each value is that of folding the closes since the seed.
-/
theorem live_indicators_show_candles (market : ClosedCandles) {world : CandleRun}
    (hrun : Reach (CandleRun.step market) Uninterrupted .boot world)
    {before : List Publication} {last : Publication}
    (hlast : before ++ [last] <+: world.published) :
    ShowsCandles market (before ++ [last]) last :=
  (hrun.invariant CandleRun.stemming_boot
    (fun _ _ _ hstems hok hstep => hstems.step hok hstep)).shown before last hlast

/-! ### A market with one other close -/

def sampleCandle (n : ℕ) : Candle where
  openTimeMs := 60000 * n
  closeTimeMs := 60000 * n + 59999
  openPrice := "100"
  high := "200"
  low := "100"
  close := if n = 20 then "200" else "100"
  volume := "1"
  isClosed := true

theorem sample_closes : parse "200" = some (num 200) ∧ parse "100" = some (num 100) := by
  decide +kernel

def sampleMarket : ClosedCandles where
  candle := sampleCandle
  priced n := by
    by_cases h : n = 20
    · exact ⟨200, by rw [sampleCandle, if_pos h]; exact sample_closes.1⟩
    · exact ⟨100, by rw [sampleCandle, if_neg h]; exact sample_closes.2⟩
  ranged n := ⟨num 100, num 200, sample_closes.2, sample_closes.1⟩

/-- Twenty closes, a restart, and the close after them. -/
def restartedEvents : List CandleEvent :=
  List.replicate 19 .missed ++ [.received (List.range 19), .restarted, .received (List.range 20)]

/-- The same with the close after the restart missed. -/
def interruptedEvents : List CandleEvent :=
  List.replicate 19 .missed ++
    [.received (List.range 19), .restarted, .missed, .received (List.range 21)]

theorem restarted_shows_candles :
    ∃ world before last, Reach (CandleRun.step sampleMarket) Uninterrupted .boot world ∧
      before ++ [last] <+: world.published ∧ last.bundle.sma20 = some (.printed (num 105)) ∧
      ShowsCandles sampleMarket (before ++ [last]) last := by
  have hrun : ∃ world before last, LabelledRun.run (CandleRun.step sampleMarket)
      (fun world event => decide (Uninterrupted world event)) .boot restartedEvents = some world ∧
      world.published = before ++ [last] ∧
      last.bundle.sma20 = some (.printed (num 105)) :=
    ⟨_, [_], _, rfl, rfl, by decide +kernel⟩
  obtain ⟨world, before, last, hrun, hpublished, hshown⟩ := hrun
  have hreach := reach_of_run (fun _ _ hcheck => of_decide_eq_true hcheck) hrun
  have hprefix : before ++ [last] <+: world.published := hpublished ▸ List.prefix_refl _
  exact ⟨world, before, last, hreach, hprefix, hshown,
    live_indicators_show_candles sampleMarket hreach hprefix⟩

/-- The close that a gap hides is missing from the average, which the window beside it has. -/
theorem interrupted_mixes_candles :
    ∃ world before last, interruptedEvents.foldlM (CandleRun.step sampleMarket) .boot = some world ∧
      before ++ [last] <+: world.published ∧
      last.window = sampleMarket.run 0 22 ∧
      last.bundle.sma20 = some (.printed (num 100)) ∧
      sma last.window smaPeriod = some (num 105) := by
  have hrun : ∃ world before last,
      interruptedEvents.foldlM (CandleRun.step sampleMarket) .boot = some world ∧
      world.published = before ++ [last] ∧ last.window = sampleMarket.run 0 22 ∧
      last.bundle.sma20 = some (.printed (num 100)) ∧
      sma last.window smaPeriod = some (num 105) :=
    ⟨_, [_], _, rfl, rfl, by decide +kernel, by decide +kernel, by decide +kernel⟩
  obtain ⟨world, before, last, hrun, hpublished, hwindow, hshown, hsma⟩ := hrun
  exact ⟨world, before, last, hrun, hpublished ▸ List.prefix_refl _, hwindow, hshown, hsma⟩

end TradingBot.Worker

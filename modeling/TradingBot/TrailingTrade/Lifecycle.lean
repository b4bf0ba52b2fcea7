import TradingBot.TrailingTrade.PositionAdapter
import TradingBot.TrailingTrade.PositionKept
import TradingBot.TrailingTrade.TickActs

/-!
# Runs of a position

A position is written by ticks, by adopted fills and by the worker's adapter.
Over every run of these writers a flat position carries no high and no
break-even arm, and what clears a position leaves none of its marks, so that a
cost basis revived later inherits nothing. Two ticks would break this, and the
runs below take neither: the drop of a position that had raised a high or armed
its break-even stop, and the drop whose tick enters again with marks of its own.
-/

namespace TradingBot.TrailingTrade

open Decimal EarlyExit

/-! ### Writers and runs -/

/-- An entry of this tick's ladder is stamped: as a discovery entry, or for the time stop. -/
def StampsEntries (input : TTInput) : Prop :=
  input.config.buy.gridLevels.isEmpty = false ∧
    (input.bundle.entersOnAdd = true ∨ input.config.sell.timeStopBars > 0)

/-- What writes a position. -/
inductive Writer where
  | tick (input : TTInput) (output : TTOutput)
  | fill (adopted : AdoptedFill)
  | pin (heldQuantity : Option DecimalString)
  | clear (resetGridIndex : Bool)
  | revive (avgEntryPrice : DecimalString)

namespace Writer

/-- The writer takes the state to the next one. -/
def Writes (state next : TTState) : Writer → Prop
  | tick input output =>
      input.state = state ∧ computeTick input = .ok output ∧ output.nextState = next
  | fill adopted => applyFill state adopted = some next
  | pin heldQuantity => setHeldQuantity state heldQuantity = some next
  | clear resetGridIndex => clearPosition state resetGridIndex = some next
  | revive avgEntryPrice => setAvgEntryPrice state avgEntryPrice = some next

end Writer

/-- The tick drops the basis of a position with a high or an armed break-even stop. -/
structure DropsTrailed (input : TTInput) : Prop where
  passes : Passes input (startState input)
  drops : DropsBasis input input.state
  trailed : input.state.highSinceBuy.isSome = true ∨ input.state.breakEvenArmed = true

/-- The tick drops a basis, and the ladder of what is left enters again with a marker or a clock. -/
structure RestampsDrop (input : TTInput) : Prop where
  drops : DropsBasis input input.state
  stamps : StampsEntries input
  buys : LadderBuys (normalizedInput input) (lbpCleared (startState input))

/-- No tick of the run drops a position that trailed, nor enters again on the basis it dropped. -/
def Writer.ClearsClean : Writer → Prop
  | tick input _ => ¬ DropsTrailed input ∧ ¬ RestampsDrop input
  | _ => True

/-- The states a fresh profile reaches through writers of a kind. -/
inductive Reached (kind : Writer → Prop) : TTState → Prop where
  | initial : Reached kind initialTTState
  | step {state next : TTState} (writer : Writer) (reached : Reached kind state)
      (ok : kind writer) (writes : writer.Writes state next) : Reached kind next

/-! ### What every writer keeps -/

/-- A position without a cost basis has no high and no armed break-even stop. -/
structure FlatUntrailed (state : TTState) : Prop where
  high : state.avgEntryPrice = none → state.highSinceBuy = none
  arm : state.avgEntryPrice = none → state.breakEvenArmed = false

theorem FlatClean.untrailed {state : TTState} (h : FlatClean state) : FlatUntrailed state :=
  ⟨fun _ => h.highSinceBuy, fun _ => h.breakEvenArmed⟩

theorem KeepsCost.untrailed {before after : TTState} (h : KeepsCost before after)
    (hbefore : FlatUntrailed before) : FlatUntrailed after where
  high := fun hflat =>
    have hflat' := h.avgEntryPrice.symm.trans hflat
    (h.flatHigh hflat').trans (hbefore.high hflat')
  arm := fun hflat =>
    have hflat' := h.avgEntryPrice.symm.trans hflat
    (h.flatArm hflat').trans (hbefore.arm hflat')

section Tick

variable {input : TTInput} {output : TTOutput} {state : TTState}

/-- Normalising a state and lifting its pause leave the trail alone. -/
theorem startState_trail (input : TTInput) :
    (startState input).highSinceBuy = input.state.highSinceBuy ∧
      (startState input).breakEvenArmed = input.state.breakEvenArmed := by
  unfold startState liftPause
  split
  · exact ⟨rfl, rfl⟩
  · exact ⟨rfl, rfl⟩

theorem flatClean_lbpCleared (hclean : ¬ DropsTrailed input)
    (hpasses : Passes input (startState input)) (hdrops : DropsBasis input input.state) :
    FlatClean (lbpCleared (startState input)) := by
  obtain ⟨hhigh, harm⟩ := startState_trail input
  have htrailed : ¬ (input.state.highSinceBuy.isSome = true ∨ input.state.breakEvenArmed = true) :=
    fun h => hclean ⟨hpasses, hdrops, h⟩
  rw [not_or, Bool.not_eq_true, Bool.not_eq_true, Option.isSome_eq_false_iff,
    Option.isNone_iff_eq_none] at htrailed
  exact ⟨rfl, hhigh.trans htrailed.1, harm.trans htrailed.2, rfl, rfl, rfl, rfl⟩

/-- An unstamped rung leaves the marker and the clock alone. -/
theorem GridEmits.marker {now : ℤ} {before after : TTState} {decisions : List Decision}
    (h : GridEmits input now before after decisions)
    (hplain : ¬ (input.bundle.entersOnAdd = true ∨ input.config.sell.timeStopBars > 0)) :
    after.discoveryEntry = before.discoveryEntry ∧ after.entryAtMs = before.entryAtMs := by
  cases h with
  | rung target level quantity htarget hlevel hrepriced hafter hdecisions =>
      rw [not_or] at hplain
      rw [hafter, emittedState_eq]
      simp [hplain.1, hplain.2]

/-- A ladder that buys nothing it stamps leaves the marker and
the clock of a flat position alone. -/
theorem LateOutcome.marker (h : LateOutcome input state output)
    (hflat : state.avgEntryPrice = none) (hquiet : StampsEntries input → ¬ LadderBuys input state) :
    output.nextState.discoveryEntry = state.discoveryEntry ∧
      output.nextState.entryAtMs = state.entryAtMs := by
  cases h with
  | sell terminal => exact absurd hflat terminal.held
  | buy at_ keeps outcome =>
      rw [← keeps.discoveryEntry, ← keeps.entryAtMs]
      cases outcome with
      | pyramid quantity addIndex addPrice held next hdecisions =>
          exact ⟨next.discoveryEntry, next.entryAtMs⟩
      | grid after hasGrid unblocked emits next buys =>
          obtain ⟨hmarker, hclock⟩ := emits.marker fun hstamps =>
            hquiet ⟨hasGrid, hstamps⟩ ((LadderBuys.congr keeps).mp buys)
          exact ⟨next.discoveryEntry.trans hmarker, next.entryAtMs.trans hclock⟩
      | first quantity noGrid unblocked flat keeps' hdecisions =>
          exact ⟨keeps'.discoveryEntry, keeps'.entryAtMs⟩
      | report index block hblock hindex next hdecisions =>
          exact ⟨next.discoveryEntry, next.entryAtMs⟩

theorem tick_clean (hclean : ¬ DropsTrailed input) (hfresh : ¬ RestampsDrop input)
    (htick : computeTick input = .ok output) (hstate : FlatUntrailed input.state) :
    FlatUntrailed output.nextState ∧
      (input.state.avgEntryPrice.isSome = true → output.nextState.avgEntryPrice = none →
        FlatClean output.nextState) := by
  have hstart := keeps_startState input
  have hkept : ∀ h : KeepsCost (startState input) output.nextState,
      input.state.avgEntryPrice.isSome = true → output.nextState.avgEntryPrice ≠ none := by
    intro h hheld hnext
    rw [← hstart.avgEntryPrice, ← h.avgEntryPrice, hnext] at hheld
    cases hheld
  have hends : ∀ h : KeepsCost (startState input) output.nextState ∨
      FlatClean output.nextState ∧ OnlySells (normalizedInput input) output,
      FlatUntrailed output.nextState ∧
        (input.state.avgEntryPrice.isSome = true → output.nextState.avgEntryPrice = none →
          FlatClean output.nextState) := by
    rintro (hcost | ⟨hflat, -⟩)
    · exact ⟨(hstart.keepsCost.trans hcost).untrailed hstate,
        fun hheld hnext => absurd hnext (hkept hcost hheld)⟩
    · exact ⟨hflat.untrailed, fun _ _ => hflat⟩
  cases (computeTick_outcome input).returned htick with
  | early stopped outcome => exact hends outcome.keepsCost_or_sells
  | late passes after drop outcome =>
      cases drop with
      | kept _ => exact hends outcome.keepsCost_or_sells
      | dropped hdrops =>
          have hflat := flatClean_lbpCleared hclean
            ⟨passes.override, passes.notDue, passes.notPaused⟩ ((DropsBasis.congr hstart).mp hdrops)
          rcases outcome.keepsCost_or_sells with hcost | ⟨hflat', -⟩
          · refine ⟨hcost.untrailed hflat.untrailed, fun _ hnext => ?_⟩
            have hadds := hcost.flatAdds rfl
            obtain ⟨hmarker, hclock⟩ := outcome.marker rfl fun hstamps hbuys =>
              hfresh ⟨(DropsBasis.congr hstart).mp hdrops, hstamps, hbuys⟩
            exact ⟨hnext, (hcost.flatHigh rfl).trans hflat.highSinceBuy,
              (hcost.flatArm rfl).trans hflat.breakEvenArmed, hadds.1, hadds.2, hmarker, hclock⟩
          · exact ⟨hflat'.untrailed, fun _ _ => hflat'⟩

end Tick

theorem fill_clean {state next : TTState} {adopted : AdoptedFill}
    (h : applyFill state adopted = some next) (hstate : FlatUntrailed state) :
    FlatUntrailed next ∧
      (state.avgEntryPrice.isSome = true → next.avgEntryPrice = none → FlatClean next) := by
  unfold applyFill at h
  split at h
  · cases h
  · split at h
    · cases h
      exact ⟨⟨nofun, nofun⟩, nofun⟩
    · cases h
      refine ⟨⟨hstate.high, hstate.arm⟩, fun hheld hnext => ?_⟩
      rw [show state.avgEntryPrice = none from hnext] at hheld
      cases hheld
    · split at h
      · cases h
      · cases h
        have hflat : FlatClean (clearPositionScopedFields
            { flattened state with heldQuantity := none, currentGridTradeIndex := none }) :=
          ⟨rfl, rfl, rfl, rfl, rfl, rfl, rfl⟩
        exact ⟨hflat.untrailed, fun _ _ => hflat⟩

theorem clearPosition_clean {state next : TTState} {resetGridIndex : Bool}
    (h : clearPosition state resetGridIndex = some next) : FlatClean next := by
  unfold clearPosition at h
  dsimp only at h
  split at h
  · cases h
  · cases h
    split
    · split
      · exact ⟨rfl, rfl, rfl, rfl, rfl, rfl, rfl⟩
      · exact ⟨rfl, rfl, rfl, rfl, rfl, rfl, rfl⟩
    · split
      · exact ⟨rfl, rfl, rfl, rfl, rfl, rfl, rfl⟩
      · exact ⟨rfl, rfl, rfl, rfl, rfl, rfl, rfl⟩

theorem writer_clean {state next : TTState} {writer : Writer} (hclean : writer.ClearsClean)
    (hwrites : writer.Writes state next) (hstate : FlatUntrailed state) :
    FlatUntrailed next ∧
      (state.avgEntryPrice.isSome = true → next.avgEntryPrice = none → FlatClean next) := by
  cases writer with
  | tick input output =>
      obtain ⟨rfl, htick, rfl⟩ := hwrites
      exact tick_clean hclean.1 hclean.2 htick hstate
  | fill adopted => exact fill_clean hwrites hstate
  | pin heldQuantity =>
      simp only [Writer.Writes, setHeldQuantity] at hwrites
      split at hwrites
      · cases hwrites
        refine ⟨⟨hstate.high, hstate.arm⟩, fun hheld hnext => ?_⟩
        rw [show state.avgEntryPrice = none from hnext] at hheld
        cases hheld
      · cases hwrites
  | clear resetGridIndex =>
      have hflat := clearPosition_clean hwrites
      exact ⟨hflat.untrailed, fun _ _ => hflat⟩
  | revive avgEntryPrice =>
      simp only [Writer.Writes, setAvgEntryPrice] at hwrites
      split at hwrites
      · cases hwrites
        exact ⟨⟨nofun, nofun⟩, nofun⟩
      · cases hwrites

theorem Reached.untrailed {state : TTState} (h : Reached Writer.ClearsClean state) :
    FlatUntrailed state := by
  induction h with
  | initial => exact ⟨fun _ => rfl, fun _ => rfl⟩
  | step writer reached ok writes ih => exact (writer_clean ok writes ih).1

/-- The state a tick leaves. -/
def tickedState (input : TTInput) : TTState :=
  ((computeTick input).toOption.map TickOutput.nextState).getD input.state

theorem writes_tickedState {input : TTInput} (h : (computeTick input).toOption.isSome = true) :
    ∃ output, (Writer.tick input output).Writes input.state (tickedState input) := by
  cases htick : computeTick input with
  | error e =>
      rw [htick] at h
      cases h
  | ok output => exact ⟨output, rfl, htick, by rw [tickedState, htick]; rfl⟩

/-- The fresh profile after a buy of one coin at 100. -/
def sampleBought : TTState :=
  { initialTTState with avgEntryPrice := some (.raw "100"), heldQuantity := some (.raw "1") }

theorem sampleBought_reached (kind : Writer → Prop) (hkind : ∀ adopted, kind (.fill adopted)) :
    Reached kind sampleBought :=
  .step (.fill (.buy (.raw "100") (.raw "1"))) .initial (hkind _) rfl

/-- The bought coin after a tick at 120, which raises its high, and one at 75 that finds it gone. -/
def sampleDropped : TTState :=
  tickedState (sampleInput sampleConfig
    (tickedState (sampleInput sampleConfig sampleBought "120" 1)) "75" 0)

end TradingBot.TrailingTrade

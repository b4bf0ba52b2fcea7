import TradingBot.Lib.CrashRounds
import TradingBot.Worker.FillAdopter

/-!
# Reconciling positions with the wallet

At boot, and on a recurring pass, the worker holds every tracked position
against the wallet: the held quantity converges on the smaller of the two, a
position that neither the wallet nor the claim backs with any value is
flattened, a cost basis the wallet does not back is pruned, and one the state
forgot is revived from the ledger. A pass writes the state and the ledger
separately and may crash between any two of its writes.
-/

namespace TradingBot.Worker

open Decimal TrailingTrade

/-! ### The position capability -/

/-- A state after a mutation, where `none` stands for no change. -/
def mutated {σ : Type} (mutator : σ → Option σ) (state : σ) : σ := (mutator state).getD state

/--
What a strategy lets the worker do to the position of a state body. A body of
the current schema keeps its view through every writer, but for what the writer
is there to change.
-/
structure PositionStateAdapter (σ : Type) where
  readPosition : σ → Option PositionView
  applyFill : σ → AdoptedFill → Option σ
  setHeldQuantity : σ → Option DecimalString → Option σ
  setAvgEntryPrice : σ → DecimalString → Option σ
  clearPosition : σ → Option σ
  read_empty : ∀ state view, readPosition state = some view →
    readPosition (mutated (applyFill · .empty) state) = some ⟨none, none⟩
  read_setHeldQuantity : ∀ state view held, readPosition state = some view →
    readPosition (mutated (setHeldQuantity · held) state) =
      some { view with heldQuantity := held }
  read_setAvgEntryPrice : ∀ state view price, readPosition state = some view →
    readPosition (mutated (setAvgEntryPrice · price) state) =
      some { view with avgEntryPrice := some price }
  read_clearPosition : ∀ state view, readPosition state = some view →
    readPosition (mutated clearPosition state) = some { view with avgEntryPrice := none }

theorem readPosition_eq_some {state : TTState} {view : PositionView} :
    readPosition state = some view ↔
      isCurrentSchema state = true ∧ ⟨state.avgEntryPrice, state.heldQuantity⟩ = view := by
  simp [readPosition]

/-- The capability of the trailing-trade strategy. -/
def trailingTradePositionAdapter : PositionStateAdapter TTState where
  readPosition := readPosition
  applyFill := applyFill
  setHeldQuantity := setHeldQuantity
  setAvgEntryPrice := setAvgEntryPrice
  clearPosition state := clearPosition state false
  read_empty := by
    intro state view hview
    obtain ⟨hschema, rfl⟩ := readPosition_eq_some.mp hview
    rw [mutated, applyFill, if_neg (by simp [hschema])]
    dsimp only
    split
    · next hempty =>
        simp only [Bool.and_eq_true, Option.isNone_iff_eq_none] at hempty
        exact readPosition_eq_some.mpr ⟨hschema, by simp [hempty.1.1.1, hempty.1.2]⟩
    · exact readPosition_eq_some.mpr ⟨hschema, rfl⟩
  read_setHeldQuantity := by
    intro state view held hview
    obtain ⟨hschema, rfl⟩ := readPosition_eq_some.mp hview
    rw [mutated, setHeldQuantity, if_pos hschema]
    exact readPosition_eq_some.mpr ⟨hschema, rfl⟩
  read_setAvgEntryPrice := by
    intro state view price hview
    obtain ⟨hschema, rfl⟩ := readPosition_eq_some.mp hview
    rw [mutated, setAvgEntryPrice, if_pos hschema]
    exact readPosition_eq_some.mpr ⟨hschema, rfl⟩
  read_clearPosition := by
    intro state view hview
    obtain ⟨hschema, rfl⟩ := readPosition_eq_some.mp hview
    rw [mutated, clearPosition, if_neg (by simp [hschema])]
    by_cases hheld : state.heldQuantity.isNone
    · simp only [hheld, if_true]
      exact readPosition_eq_some.mpr ⟨hschema, rfl⟩
    · simp only [hheld]
      exact readPosition_eq_some.mpr ⟨hschema, rfl⟩

/-! ### The held quantity -/

/-- Worth less than a hundredth of one minimum order: residue, not a holding someone chose. -/
def isValuelessResidue (quantity : Decimal) (price minNotional : Option Decimal) : Bool :=
  isBelowMinNotional quantity price (minNotional.map (·.mul crumbRatio))

/-- A text read as a finite number. -/
def safe (raw : DecimalString) : Option Decimal := raw.toDecimal.filter (·.isFinite)

structure ReconcileInput where
  heldQuantity : Option DecimalString
  walletFree : DecimalString
  walletLocked : DecimalString
  stepSize : DecimalString
  minNotional : Option DecimalString
  referencePrice : Option DecimalString

inductive ReconcileAction where
  | noOp
  | seedFromWallet
  | adoptWalletSmaller
  | adoptStateSmaller
  | flattenSubNotionalDust
  | skipSchemaVersion
deriving DecidableEq

structure ReconcileResult where
  action : ReconcileAction
  nextHeldQuantity : Option DecimalString

/-- Both sides of a claim are residue; a claim that does not parse protects nothing. -/
def backedByResidue (wallet : Decimal) (held referencePrice minNotional : Option Decimal) : Bool :=
  isValuelessResidue wallet referencePrice minNotional &&
    match held with
    | none => true
    | some held => held.gt (num 0) && isValuelessResidue held referencePrice minNotional

/-- What a tracked quantity becomes over a wallet. -/
def reconcileTracked (tracked : DecimalString) (wallet step : Decimal)
    (minNotional referencePrice : Option Decimal) : ReconcileResult :=
  let held := safe tracked
  if backedByResidue wallet held referencePrice minNotional then ⟨.flattenSubNotionalDust, none⟩
  else
    match held with
    | none => ⟨.seedFromWallet, some (.printed wallet)⟩
    | some held =>
        if (held.sub wallet).abs.lte step then ⟨.noOp, some tracked⟩
        else if wallet.lt held then
          if wallet.lt step || isUnsellableDust wallet held referencePrice none minNotional then
            ⟨.adoptWalletSmaller, none⟩
          else ⟨.adoptWalletSmaller, some (.printed wallet)⟩
        else ⟨.adoptStateSmaller, some (.printed held)⟩

/-- The quantity the state should claim, and what kind of change that is. -/
def reconcileHeldQuantity (input : ReconcileInput) : ReconcileResult :=
  match safe input.walletFree, safe input.walletLocked, safe input.stepSize with
  | some free, some locked, some step =>
      if step.lte (num 0) then ⟨.noOp, input.heldQuantity⟩
      else
        let wallet := free.add locked
        let minNotional := input.minNotional.bind safe
        let referencePrice := input.referencePrice.bind safe
        match input.heldQuantity with
        | none =>
            if wallet.lt step || isBelowMinNotional wallet referencePrice minNotional then
              ⟨.noOp, none⟩
            else ⟨.seedFromWallet, some (.printed wallet)⟩
        | some tracked => reconcileTracked tracked wallet step minNotional referencePrice
  | _, _, _ => ⟨.noOp, input.heldQuantity⟩

/-! ### The cost basis -/

structure PhantomInput where
  ledgerAvgEntryPrice : Option DecimalString
  stateAvgEntryPrice : Option DecimalString
  walletQuantity : Option DecimalString
  stepSize : Option DecimalString
  minNotional : Option DecimalString
  referencePrice : Option DecimalString
  preReconcileHeldQuantity : Option DecimalString

/-- Something claims a position that the wallet does not back. -/
def isPhantomLedgerRow (input : PhantomInput) : Bool :=
  if input.ledgerAvgEntryPrice.isNone && input.stateAvgEntryPrice.isNone then false
  else
    match input.walletQuantity with
    | none => true
    | some walletQuantity =>
        match walletQuantity.toDecimal with
        -- a text that throws stands the prune down
        | none => false
        | some wallet =>
            let price := input.referencePrice.bind (·.toDecimal)
            let minNotional := input.minNotional.bind (·.toDecimal)
            let claim := input.preReconcileHeldQuantity.bind (·.toDecimal)
            if isValuelessResidue wallet price minNotional &&
                claim.all fun claim => isValuelessResidue claim price minNotional then true
            else
              match input.stepSize.bind (·.toDecimal) with
              | none => false
              | some step => if step.lte (num 0) then false else wallet.lt step

inductive ReviveAction where
  | noOp
  | reviveFromLedger
  | prunePhantomLedger
  | skipSchemaVersion

/-- The cost basis to restore, when the ledger has one and the state does not. -/
def reviveAvgEntryPrice (stateAvgEntryPrice ledgerAvgEntryPrice : Option DecimalString) :
    Option DecimalString :=
  if stateAvgEntryPrice.isSome then none else ledgerAvgEntryPrice

/-! ### One pass -/

/-- A write of a pass, to the state or to the ledger. -/
inductive ReconcileWrite where
  | applyEmptyFill
  | setHeldQuantity (heldQuantity : Option DecimalString)
  | clearPosition
  | setAvgEntryPrice (avgEntryPrice : DecimalString)
  | removeLedgerRow

/-- The stored body of a symbol and its row of the cost-basis table. -/
structure SymbolStores (σ : Type) where
  state : Option σ
  row : Option AvgEntryRow

structure ReconcileTarget where
  stepSize : DecimalString
  minNotional : Option DecimalString
  referencePrice : Option DecimalString
  walletFree : DecimalString
  walletLocked : DecimalString

def walletTotal (target : ReconcileTarget) : Option Decimal :=
  match safe target.walletFree, safe target.walletLocked with
  | some free, some locked => some (free.add locked)
  | _, _ => none

section Pass

variable {σ : Type} (position : PositionStateAdapter σ) (target : ReconcileTarget)

def SymbolStores.write (stores : SymbolStores σ) : ReconcileWrite → SymbolStores σ
  | .applyEmptyFill =>
      { stores with state := stores.state.map (mutated (position.applyFill · .empty)) }
  | .setHeldQuantity held =>
      { stores with state := stores.state.map (mutated (position.setHeldQuantity · held)) }
  | .clearPosition => { stores with state := stores.state.map (mutated position.clearPosition) }
  | .setAvgEntryPrice price =>
      { stores with state := stores.state.map (mutated (position.setAvgEntryPrice · price)) }
  | .removeLedgerRow => { stores with row := none }

/-- Converge the held quantity; a flatten empties the state first and the ledger second. -/
def reconcileHeldQuantityForTarget (state : Option σ) : ReconcileAction × List ReconcileWrite :=
  match state with
  | none => (.noOp, [])
  | some state =>
      match position.readPosition state with
      | none => (.skipSchemaVersion, [])
      | some view =>
          let result := reconcileHeldQuantity
            { heldQuantity := view.heldQuantity
              walletFree := target.walletFree
              walletLocked := target.walletLocked
              stepSize := target.stepSize
              minNotional := target.minNotional
              referencePrice := target.referencePrice }
          if result.action = .noOp then (.noOp, [])
          else if result.action = .flattenSubNotionalDust then
            (result.action, [.applyEmptyFill, .removeLedgerRow])
          else (result.action, [.setHeldQuantity result.nextHeldQuantity])

/-- Prune the claims the wallet does not back, or restore a cost basis the state forgot. -/
def reviveAvgEntryPriceForTarget (state : Option σ) (ledgerRow : Option AvgEntryRow)
    (preReconcileHeldQuantity : Option DecimalString) : ReviveAction × List ReconcileWrite :=
  match state with
  | none => (.noOp, [])
  | some state =>
      match position.readPosition state with
      | none => (.skipSchemaVersion, [])
      | some view =>
          let ledgerAvgEntryPrice := ledgerRow.map fun row => .printed row.avgEntryPrice
          if isPhantomLedgerRow
              { ledgerAvgEntryPrice
                stateAvgEntryPrice := view.avgEntryPrice
                walletQuantity := (walletTotal target).map .printed
                stepSize := some target.stepSize
                minNotional := target.minNotional
                referencePrice := target.referencePrice
                preReconcileHeldQuantity } then
            -- the state first: its claim is what makes the strategy act
            (.prunePhantomLedger,
              (if view.avgEntryPrice.isSome then [.clearPosition] else []) ++ [.removeLedgerRow])
          else
            match reviveAvgEntryPrice view.avgEntryPrice ledgerAvgEntryPrice with
            | none => (.noOp, [])
            | some price => (.reviveFromLedger, [.setAvgEntryPrice price])

/-- The writes of one pass over a symbol: the held quantity first, then the cost basis. -/
def reconcileSymbol (stores : SymbolStores σ) : List ReconcileWrite :=
  let preReconcileHeldQuantity :=
    (stores.state.bind position.readPosition).bind (·.heldQuantity)
  let reconciled := reconcileHeldQuantityForTarget position target stores.state
  if reconciled.1 = .skipSchemaVersion then reconciled.2
  else
    let after := reconciled.2.foldl (SymbolStores.write position) stores
    reconciled.2 ++
      (reviveAvgEntryPriceForTarget position target after.state after.row
        preReconcileHeldQuantity).2

end Pass

end TradingBot.Worker

import TradingBot.Worker.WalletReconcile

/-!
# The fold and the reconciler on dust

The fill fold and the wallet reconciler both decide whether what a sale left is
a position. They are compared over a target whose texts are numbers: what one
pass writes is computed for every shape of the stores that can arise, and from
it where repeated passes end, crashes included.
-/

namespace TradingBot.Worker

open Decimal TrailingTrade

/-! ### The predicates on numbers -/

section Predicates

variable {price minNotional quantity : ℚ}

/-- Worth less than one minimum order. -/
abbrev SubNotional (price minNotional quantity : ℚ) : Prop := quantity * price < minNotional

/-- Worth less than a hundredth of one minimum order. -/
abbrev Residue (price minNotional quantity : ℚ) : Prop :=
  quantity * price < minNotional * (1 / 100)

/-- Less than a hundredth of the position it was left of. -/
abbrev Crumb (prior remaining : ℚ) : Prop := remaining / prior < 1 / 100

theorem isBelowMinNotional_num (hprice : 0 < price) (hmin : 0 < minNotional) :
    isBelowMinNotional (num quantity) (some (num price)) (some (num minNotional)) =
      decide (SubNotional price minNotional quantity) := by
  simp [isBelowMinNotional, hprice, hmin]

theorem isValuelessResidue_num (hprice : 0 < price) (hmin : 0 < minNotional) :
    isValuelessResidue (num quantity) (some (num price)) (some (num minNotional)) =
      decide (Residue price minNotional quantity) :=
  isBelowMinNotional_num hprice (by positivity)

theorem isUnsellableDust_num {remaining prior : ℚ} (hprice : 0 < price) (hmin : 0 < minNotional)
    (hprior : 0 < prior) (step : Option ℚ) (hstep : ∀ s ∈ step, 0 < s) :
    isUnsellableDust (num remaining) (num prior) (some (num price)) (step.map num)
        (some (num minNotional)) =
      decide (remaining ≤ 0 ∨ (∃ s ∈ step, remaining < s) ∨
        Crumb prior remaining ∧ SubNotional price minNotional remaining) := by
  rw [Bool.eq_iff_iff, decide_eq_true_iff]
  unfold isUnsellableDust
  rw [isBelowMinNotional_num hprice hmin, div_num hprior.ne']
  cases step with
  | none => simp [hprior, crumbRatio, Crumb]
  | some s => simp [hprior, crumbRatio, Crumb, hstep s rfl]

theorem subNotional_of_residue (hmin : 0 < minNotional) (h : Residue price minNotional quantity) :
    SubNotional price minNotional quantity := by
  unfold Residue at h
  unfold SubNotional
  linarith

end Predicates

/-! ### A target whose texts are numbers -/

/-- The target reads as a wallet total, a price and filters that are positive. -/
structure ReconcileTarget.Reads (target : ReconcileTarget) (wallet step minNotional price : ℚ) :
    Prop where
  walletTotal : ∃ free locked, target.walletFree.toDecimal = some (num free) ∧
    target.walletLocked.toDecimal = some (num locked) ∧ free + locked = wallet
  stepSize : target.stepSize.toDecimal = some (num step)
  floor : ∃ text, target.minNotional = some text ∧ text.toDecimal = some (num minNotional)
  referencePrice : ∃ text, target.referencePrice = some text ∧ text.toDecimal = some (num price)
  step_pos : 0 < step
  minNotional_pos : 0 < minNotional
  price_pos : 0 < price

section Numbers

variable {target : ReconcileTarget} {wallet step minNotional price held : ℚ}

theorem safe_of_toDecimal {text : DecimalString} {q : ℚ} (h : text.toDecimal = some (num q)) :
    safe text = some (num q) := by
  simp [safe, h]

/-- The reconciler's input for a target. -/
def ReconcileTarget.input (target : ReconcileTarget) (heldQuantity : Option DecimalString) :
    ReconcileInput :=
  { heldQuantity
    walletFree := target.walletFree
    walletLocked := target.walletLocked
    stepSize := target.stepSize
    minNotional := target.minNotional
    referencePrice := target.referencePrice }

theorem walletTotal_reads (reads : target.Reads wallet step minNotional price) :
    walletTotal target = some (num wallet) := by
  obtain ⟨free, locked, hfree, hlocked, rfl⟩ := reads.walletTotal
  rw [walletTotal, safe_of_toDecimal hfree, safe_of_toDecimal hlocked]
  rfl

/-- Nothing tracked: a wallet that could not be sold is not seeded from. -/
theorem reconcileHeldQuantity_untracked (reads : target.Reads wallet step minNotional price)
    (hdust : wallet < step ∨ SubNotional price minNotional wallet) :
    reconcileHeldQuantity (target.input none) = ⟨.noOp, none⟩ := by
  obtain ⟨free, locked, hfree, hlocked, rfl⟩ := reads.walletTotal
  obtain ⟨minText, hminText, hmin⟩ := reads.floor
  obtain ⟨priceText, hpriceText, hprice⟩ := reads.referencePrice
  have hstep := reads.step_pos
  simp only [reconcileHeldQuantity, ReconcileTarget.input, safe_of_toDecimal hfree,
    safe_of_toDecimal hlocked, safe_of_toDecimal reads.stepSize, hminText, hpriceText,
    Option.bind_some, safe_of_toDecimal hmin, safe_of_toDecimal hprice, add_num, lte_num, lt_num,
    isBelowMinNotional_num reads.price_pos reads.minNotional_pos]
  rw [if_neg (by simp [hstep]), if_pos (by simpa using hdust)]

theorem reconcileHeldQuantity_tracked (reads : target.Reads wallet step minNotional price)
    (hheld : 0 < held) :
    reconcileHeldQuantity (target.input (some (.printed (num held)))) =
      if Residue price minNotional wallet ∧ Residue price minNotional held then
        ⟨.flattenSubNotionalDust, none⟩
      else if |held - wallet| ≤ step then ⟨.noOp, some (.printed (num held))⟩
      else if wallet < held then
        if wallet < step ∨ wallet ≤ 0 ∨
            Crumb held wallet ∧ SubNotional price minNotional wallet then
          ⟨.adoptWalletSmaller, none⟩
        else ⟨.adoptWalletSmaller, some (.printed (num wallet))⟩
      else ⟨.adoptStateSmaller, some (.printed (num held))⟩ := by
  obtain ⟨free, locked, hfree, hlocked, rfl⟩ := reads.walletTotal
  obtain ⟨minText, hminText, hmin⟩ := reads.floor
  obtain ⟨priceText, hpriceText, hprice⟩ := reads.referencePrice
  have hstep := reads.step_pos
  have hdust := @isUnsellableDust_num _ _ (free + locked) held reads.price_pos
    reads.minNotional_pos hheld none (by simp)
  have hsafe : safe (.printed (num held)) = some (num held) := rfl
  simp only [reconcileHeldQuantity, ReconcileTarget.input, safe_of_toDecimal hfree,
    safe_of_toDecimal hlocked, safe_of_toDecimal reads.stepSize, hminText, hpriceText,
    Option.bind_some, safe_of_toDecimal hmin, safe_of_toDecimal hprice, add_num, lte_num]
  rw [if_neg (by simp [hstep])]
  rw [Option.map_none] at hdust
  simp only [reconcileTracked, hsafe, backedByResidue, sub_num, abs_num, lte_num, lt_num, gt_num,
    hdust, isValuelessResidue_num reads.price_pos reads.minNotional_pos, hheld, decide_true,
    Bool.true_and, Bool.and_eq_true, Bool.or_eq_true, decide_eq_true_eq, Option.mem_def,
    reduceCtorEq, false_and, exists_false, false_or]

theorem isPhantomLedgerRow_reads (reads : target.Reads wallet step minNotional price)
    (ledger basis : Option DecimalString) (claim : Option ℚ) :
    isPhantomLedgerRow
        { ledgerAvgEntryPrice := ledger
          stateAvgEntryPrice := basis
          walletQuantity := (walletTotal target).map .printed
          stepSize := some target.stepSize
          minNotional := target.minNotional
          referencePrice := target.referencePrice
          preReconcileHeldQuantity := claim.map fun q => .printed (num q) } =
      decide ((ledger.isSome ∨ basis.isSome) ∧
        (Residue price minNotional wallet ∧ (∀ q ∈ claim, Residue price minNotional q) ∨
          wallet < step)) := by
  obtain ⟨minText, hminText, hmin⟩ := reads.floor
  obtain ⟨priceText, hpriceText, hprice⟩ := reads.referencePrice
  have hstep := reads.step_pos
  rw [Bool.eq_iff_iff, decide_eq_true_iff]
  unfold isPhantomLedgerRow
  simp only [walletTotal_reads reads, Option.map_some, DecimalString.toDecimal_printed, hminText,
    hpriceText, Option.bind_some, hmin, hprice, reads.stepSize, lte_num, lt_num,
    isValuelessResidue_num reads.price_pos reads.minNotional_pos]
  cases claim <;> cases ledger <;> cases basis <;> simp [hstep,
    isValuelessResidue_num reads.price_pos reads.minNotional_pos]

end Numbers

/-! ### One pass over a position -/

section Pass

variable {σ : Type} (position : PositionStateAdapter σ) (target : ReconcileTarget)

/-- What the stores of a symbol say of its position. -/
structure At (stores : SymbolStores σ) (basis held : Option DecimalString)
    (row : Option AvgEntryRow) : Prop where
  view : stores.state.bind position.readPosition = some ⟨basis, held⟩
  row : stores.row = row

variable {position target} {stores : SymbolStores σ} {basis held : Option DecimalString}
  {row : Option AvgEntryRow}

theorem At.body (h : At position stores basis held row) :
    ∃ body, stores.state = some body ∧ position.readPosition body = some ⟨basis, held⟩ :=
  Option.bind_eq_some_iff.mp h.view

theorem At.applyEmptyFill (h : At position stores basis held row) :
    At position (stores.write position .applyEmptyFill) none none row := by
  obtain ⟨body, hbody, hview⟩ := h.body
  exact ⟨by simp [SymbolStores.write, hbody, position.read_empty body _ hview], h.row⟩

theorem At.setHeldQuantity (h : At position stores basis held row) (next : Option DecimalString) :
    At position (stores.write position (.setHeldQuantity next)) basis next row := by
  obtain ⟨body, hbody, hview⟩ := h.body
  exact ⟨by simp [SymbolStores.write, hbody, position.read_setHeldQuantity body _ next hview],
    h.row⟩

theorem At.clearPosition (h : At position stores basis held row) :
    At position (stores.write position .clearPosition) none held row := by
  obtain ⟨body, hbody, hview⟩ := h.body
  exact ⟨by simp [SymbolStores.write, hbody, position.read_clearPosition body _ hview], h.row⟩

theorem At.removeLedgerRow (h : At position stores basis held row) :
    At position (stores.write position .removeLedgerRow) basis held none :=
  ⟨h.view, rfl⟩

variable (target) in
/-- What the second half of a pass writes, given the claim the pass started from. -/
def reviveWrites (basis : Option DecimalString) (row : Option AvgEntryRow)
    (claim : Option DecimalString) : List ReconcileWrite :=
  let ledger := row.map fun row => DecimalString.printed row.avgEntryPrice
  if isPhantomLedgerRow
      { ledgerAvgEntryPrice := ledger
        stateAvgEntryPrice := basis
        walletQuantity := (walletTotal target).map .printed
        stepSize := some target.stepSize
        minNotional := target.minNotional
        referencePrice := target.referencePrice
        preReconcileHeldQuantity := claim } then
    (if basis.isSome then [.clearPosition] else []) ++ [.removeLedgerRow]
  else (reviveAvgEntryPrice basis ledger).toList.map .setAvgEntryPrice

variable (target) in
/-- What a pass writes, as a function of what it reads. -/
def passWrites (basis held : Option DecimalString) (row : Option AvgEntryRow) :
    List ReconcileWrite :=
  let result := reconcileHeldQuantity (target.input held)
  if result.action = .noOp then reviveWrites target basis row held
  else if result.action = .flattenSubNotionalDust then
    [.applyEmptyFill, .removeLedgerRow] ++ reviveWrites target none none held
  else .setHeldQuantity result.nextHeldQuantity :: reviveWrites target basis row held

theorem reviveAvgEntryPriceForTarget_at (h : At position stores basis held row)
    (claim : Option DecimalString) :
    (reviveAvgEntryPriceForTarget position target stores.state stores.row claim).2 =
      reviveWrites target basis row claim := by
  obtain ⟨body, hbody, hview⟩ := h.body
  rw [hbody, h.row, reviveAvgEntryPriceForTarget, reviveWrites]
  simp only [hview]
  split
  · rfl
  · cases reviveAvgEntryPrice basis (row.map fun row => DecimalString.printed row.avgEntryPrice) <;>
      rfl

theorem reconcileHeldQuantity_ne_skip (input : ReconcileInput) :
    (reconcileHeldQuantity input).action ≠ .skipSchemaVersion := by
  unfold reconcileHeldQuantity reconcileTracked
  repeat' (first | split | dsimp only)
  all_goals exact nofun

theorem reconcileSymbol_at (h : At position stores basis held row) :
    reconcileSymbol position target stores = passWrites target basis held row := by
  obtain ⟨body, hbody, hview⟩ := h.body
  have hskip := reconcileHeldQuantity_ne_skip (target.input held)
  have hfor : reconcileHeldQuantityForTarget position target stores.state =
      if (reconcileHeldQuantity (target.input held)).action = .noOp then (.noOp, [])
      else if (reconcileHeldQuantity (target.input held)).action = .flattenSubNotionalDust then
        ((reconcileHeldQuantity (target.input held)).action, [.applyEmptyFill, .removeLedgerRow])
      else ((reconcileHeldQuantity (target.input held)).action,
        [.setHeldQuantity (reconcileHeldQuantity (target.input held)).nextHeldQuantity]) := by
    rw [hbody, reconcileHeldQuantityForTarget]
    simp only [hview]
    rfl
  unfold reconcileSymbol passWrites
  simp only [hfor, h.view, Option.bind_some]
  by_cases hno : (reconcileHeldQuantity (target.input held)).action = .noOp
  · simp only [if_pos hno, reduceCtorEq, if_false, List.foldl_nil, List.nil_append]
    exact reviveAvgEntryPriceForTarget_at h held
  · simp only [if_neg hno]
    by_cases hflat :
        (reconcileHeldQuantity (target.input held)).action = .flattenSubNotionalDust
    · simp only [if_pos hflat, if_neg hskip, List.foldl_cons, List.foldl_nil]
      rw [reviveAvgEntryPriceForTarget_at h.applyEmptyFill.removeLedgerRow]
    · simp only [if_neg hflat, if_neg hskip, List.foldl_cons, List.foldl_nil]
      rw [reviveAvgEntryPriceForTarget_at (h.setHeldQuantity _)]
      rfl

end Pass

/-! ### The writes of a pass on numbers -/

section Writes

variable {target : ReconcileTarget} {wallet step minNotional price held : ℚ}
  {basis : Option DecimalString} {row : Option AvgEntryRow}

/-- A number as the text of a field. -/
abbrev printedNum (q : ℚ) : DecimalString := .printed (num q)

/-- The wallet backs no claim of the given quantity. -/
abbrev Unbacked (wallet step minNotional price : ℚ) (claim : Option ℚ) : Prop :=
  Residue price minNotional wallet ∧ (∀ q ∈ claim, Residue price minNotional q) ∨ wallet < step

theorem reviveWrites_unclaimed (claim : Option DecimalString) :
    reviveWrites target none none claim = [] := rfl

theorem reviveWrites_pruned (reads : target.Reads wallet step minNotional price)
    (claim : Option ℚ) (hclaims : row.isSome ∨ basis.isSome)
    (hunbacked : Unbacked wallet step minNotional price claim) :
    reviveWrites target basis row (claim.map printedNum) =
      (if basis.isSome then [.clearPosition] else []) ++ [.removeLedgerRow] := by
  have hphantom := isPhantomLedgerRow_reads reads
    (row.map fun row => DecimalString.printed row.avgEntryPrice) basis claim
  rw [Option.isSome_map, decide_eq_true (And.intro hclaims hunbacked)] at hphantom
  rw [reviveWrites]
  exact if_pos hphantom

theorem reviveWrites_kept (reads : target.Reads wallet step minNotional price)
    (claim : Option ℚ) (hbasis : basis.isSome)
    (hbacked : ¬Unbacked wallet step minNotional price claim) :
    reviveWrites target basis row (claim.map printedNum) = [] := by
  have hphantom := isPhantomLedgerRow_reads reads
    (row.map fun row => DecimalString.printed row.avgEntryPrice) basis claim
  rw [decide_eq_false fun h => hbacked h.2] at hphantom
  rw [reviveWrites]
  refine (if_neg (by rw [hphantom]; exact Bool.false_ne_true)).trans ?_
  rw [reviveAvgEntryPrice, if_pos hbasis]
  rfl

theorem passWrites_untracked (reads : target.Reads wallet step minNotional price)
    (hdust : wallet < step ∨ SubNotional price minNotional wallet) :
    passWrites target basis none row = reviveWrites target basis row none := by
  rw [passWrites, reconcileHeldQuantity_untracked reads hdust]
  rfl

theorem passWrites_flatten (reads : target.Reads wallet step minNotional price) (hheld : 0 < held)
    (hwallet : Residue price minNotional wallet) (hclaim : Residue price minNotional held) :
    passWrites target basis (some (printedNum held)) row =
      [.applyEmptyFill, .removeLedgerRow] := by
  rw [passWrites, reconcileHeldQuantity_tracked reads hheld, if_pos (And.intro hwallet hclaim)]
  rfl

variable (hvalued : ¬(Residue price minNotional wallet ∧ Residue price minNotional held))

include hvalued

theorem passWrites_close (reads : target.Reads wallet step minNotional price) (hheld : 0 < held)
    (hclose : |held - wallet| ≤ step) :
    passWrites target basis (some (printedNum held)) row =
      reviveWrites target basis row (some (printedNum held)) := by
  rw [passWrites, reconcileHeldQuantity_tracked reads hheld, if_neg hvalued, if_pos hclose]
  rfl

theorem passWrites_drop (reads : target.Reads wallet step minNotional price) (hheld : 0 < held)
    (hfar : ¬|held - wallet| ≤ step) (hless : wallet < held)
    (hdust : wallet < step ∨ wallet ≤ 0 ∨
      Crumb held wallet ∧ SubNotional price minNotional wallet) :
    passWrites target basis (some (printedNum held)) row =
      .setHeldQuantity none :: reviveWrites target basis row (some (printedNum held)) := by
  rw [passWrites, reconcileHeldQuantity_tracked reads hheld, if_neg hvalued, if_neg hfar,
    if_pos hless, if_pos hdust]
  rfl

theorem passWrites_pin (reads : target.Reads wallet step minNotional price) (hheld : 0 < held)
    (hfar : ¬|held - wallet| ≤ step) (hless : wallet < held)
    (hreal : ¬(wallet < step ∨ wallet ≤ 0 ∨
      Crumb held wallet ∧ SubNotional price minNotional wallet)) :
    passWrites target basis (some (printedNum held)) row =
      .setHeldQuantity (some (printedNum wallet)) ::
        reviveWrites target basis row (some (printedNum held)) := by
  rw [passWrites, reconcileHeldQuantity_tracked reads hheld, if_neg hvalued, if_neg hfar,
    if_pos hless, if_neg hreal]
  rfl

end Writes

/-! ### Where repeated passes end -/

section Ends

open CrashRounds

variable {σ : Type} (position : PositionStateAdapter σ) (target : ReconcileTarget)

/-- Passes in turn, each complete or crashed after some of its writes. -/
def reconcilePasses (stores : SymbolStores σ) (outcomes : List (Option ℕ)) : SymbolStores σ :=
  rounds (SymbolStores.write position) (reconcileSymbol position target) stores outcomes

/-- A pass over the stores changes nothing. -/
def PassSettled (stores : SymbolStores σ) : Prop :=
  complete (SymbolStores.write position) (reconcileSymbol position target) stores = stores

/-- What an adoption of a sale asks of the stores: no position, or the remainder at its cost. -/
def Reflects (stores : SymbolStores σ) (average remaining step : ℚ) : AdoptedFill → Prop
  | .empty => At position stores none none none
  | .sellReduce _ => ∃ held quantity, |held - remaining| ≤ step ∧
      At position stores (some (printedNum average)) (some (printedNum held))
        (some ⟨num average, quantity⟩)
  | .buy _ _ => False

/-- Passes over a sold-down position end, after two completed ones, as the fold of the sale says. -/
def AgreesWithFold (stores : SymbolStores σ)
    (average quantity sold price step minNotional : ℚ) : Prop :=
  ∃ adopted, resolveFill (some ⟨some (printedNum average), some (printedNum quantity)⟩)
      ⟨.sell, num price, num sold⟩ (some (num step)) (some (num minNotional)) = .ok adopted ∧
    ∀ outcomes : List (Option ℕ), 2 ≤ outcomes.count none →
      PassSettled position target (reconcilePasses position target stores outcomes) ∧
      Reflects position (reconcilePasses position target stores outcomes) average
        (quantity - sold) step adopted

/--
Where the thresholds of the fold and the reconciler meet. A remainder below one
step has to be further than one step from what was held, or the position has to
be residue; a crumb below the floor has to be residue; and what the fold keeps
must not be residue, unless the reconciler never pins it.
-/
def ThresholdsMeet (quantity sold price step minNotional : ℚ) : Prop :=
  if quantity - sold < step then step < sold ∨ Residue price minNotional quantity
  else if Crumb quantity (quantity - sold) ∧ SubNotional price minNotional (quantity - sold) then
    Residue price minNotional (quantity - sold)
  else
    ¬Residue price minNotional (quantity - sold) ∨
      sold ≤ step ∧ ¬Residue price minNotional quantity

variable {position target} {stores : SymbolStores σ} {basis held : Option DecimalString}
  {row : Option AvgEntryRow}

theorem complete_at (h : At position stores basis held row) :
    complete (SymbolStores.write position) (reconcileSymbol position target) stores =
      (passWrites target basis held row).foldl (SymbolStores.write position) stores := by
  rw [complete, reconcileSymbol_at h]

theorem round_crash_at (h : At position stores basis held row) (issued : ℕ) :
    CrashRounds.round (SymbolStores.write position) (reconcileSymbol position target) stores
      (some issued) =
      ((passWrites target basis held row).take issued).foldl (SymbolStores.write position)
        stores := by
  rw [CrashRounds.round, reconcileSymbol_at h]

theorem settled_of_no_writes (h : At position stores basis held row)
    (hwrites : passWrites target basis held row = []) : PassSettled position target stores := by
  rw [PassSettled, complete_at h, hwrites, List.foldl_nil]

end Ends

/-! ### Emptying a position -/

section Emptying

open CrashRounds

variable {σ : Type} {position : PositionStateAdapter σ} {target : ReconcileTarget}
  {stores : SymbolStores σ} {wallet step minNotional price average quantity : ℚ}
  {row : AvgEntryRow}

variable (position average quantity row) in
/-- How many completed passes the stores are from holding no position. -/
inductive Emptying : ℕ → SymbolStores σ → Prop
  | gone {n s} : At position s none none none → Emptying n s
  | rowOnly {n s} : At position s none none (some row) → Emptying (n + 1) s
  | unheld {n s} : At position s (some (printedNum average)) none (some row) → Emptying (n + 1) s
  | whole {n s} :
      At position s (some (printedNum average)) (some (printedNum quantity)) (some row) →
        Emptying (n + 2) s

/-- What a pass writes over a position that the wallet does not back. -/
structure EmptyingWrites (target : ReconcileTarget) (average quantity : ℚ) (row : AvgEntryRow) :
    Prop where
  gone : passWrites target none none none = []
  rowOnly : passWrites target none none (some row) = [.removeLedgerRow]
  unheld : passWrites target (some (printedNum average)) none (some row) =
    [.clearPosition, .removeLedgerRow]
  whole :
    passWrites target (some (printedNum average)) (some (printedNum quantity)) (some row) ∈
      [[.applyEmptyFill, .removeLedgerRow],
        [.setHeldQuantity none, .clearPosition, .removeLedgerRow], [.setHeldQuantity none]]

theorem emptyingWrites_of_unbacked (reads : target.Reads wallet step minNotional price)
    (hunbacked : wallet < step ∨ Residue price minNotional wallet)
    (hwhole :
      passWrites target (some (printedNum average)) (some (printedNum quantity)) (some row) ∈
        [[.applyEmptyFill, .removeLedgerRow],
          [.setHeldQuantity none, .clearPosition, .removeLedgerRow], [.setHeldQuantity none]]) :
    EmptyingWrites target average quantity row := by
  have hdust : wallet < step ∨ SubNotional price minNotional wallet :=
    hunbacked.imp_right (subNotional_of_residue reads.minNotional_pos)
  have hnone : Unbacked wallet step minNotional price none := by
    rcases hunbacked with hstep | hresidue
    · exact .inr hstep
    · exact .inl ⟨hresidue, by simp⟩
  refine ⟨?_, ?_, ?_, hwhole⟩
  · rw [passWrites_untracked reads hdust, reviveWrites_unclaimed]
  · rw [passWrites_untracked reads hdust]
    exact reviveWrites_pruned reads none (.inl rfl) hnone
  · rw [passWrites_untracked reads hdust]
    exact reviveWrites_pruned reads none (.inl rfl) hnone

theorem EmptyingWrites.crash (writes : EmptyingWrites target average quantity row) (n : ℕ)
    (s : SymbolStores σ) (issued : ℕ) (h : Emptying position average quantity row n s) :
    Emptying position average quantity row n
      (CrashRounds.round (SymbolStores.write position) (reconcileSymbol position target) s
        (some issued)) := by
  cases h with
  | gone h =>
      rw [round_crash_at h, writes.gone, List.take_nil]
      exact .gone h
  | rowOnly h =>
      rw [round_crash_at h, writes.rowOnly]
      cases issued with
      | zero => exact .rowOnly h
      | succ issued =>
          rw [List.take_of_length_le (by simp)]
          exact .gone h.removeLedgerRow
  | unheld h =>
      rw [round_crash_at h, writes.unheld]
      rcases issued with _ | _ | issued
      · exact .unheld h
      · exact .rowOnly h.clearPosition
      · rw [List.take_of_length_le (by simp)]
        exact .gone h.clearPosition.removeLedgerRow
  | whole h =>
      rw [round_crash_at h]
      have hwhole := writes.whole
      simp only [List.mem_cons, List.not_mem_nil, or_false] at hwhole
      rcases hwhole with hwrites | hwrites | hwrites
      · rw [hwrites]
        rcases issued with _ | _ | issued
        · exact .whole h
        · exact .rowOnly h.applyEmptyFill
        · rw [List.take_of_length_le (by simp)]
          exact .gone h.applyEmptyFill.removeLedgerRow
      · rw [hwrites]
        have hunheld := h.setHeldQuantity none
        rcases issued with _ | _ | _ | issued
        · exact .whole h
        · exact .unheld hunheld
        · exact .rowOnly hunheld.clearPosition
        · rw [List.take_of_length_le (by simp)]
          exact .gone hunheld.clearPosition.removeLedgerRow
      · rw [hwrites]
        cases issued with
        | zero => exact .whole h
        | succ issued =>
            rw [List.take_of_length_le (by simp)]
            exact .unheld (h.setHeldQuantity none)

/-- A position the wallet does not back is two completed passes from empty. -/
theorem EmptyingWrites.distance (writes : EmptyingWrites target average quantity row) :
    Distance (SymbolStores.write position) (reconcileSymbol position target)
      (Emptying position average quantity row) where
  crash := writes.crash
  progress := by
    intro n s h
    cases h with
    | gone h =>
        rw [complete_at h, writes.gone]
        exact .gone h
    | rowOnly h =>
        rw [complete_at h, writes.rowOnly]
        exact .gone h.removeLedgerRow
    | unheld h =>
        rw [complete_at h, writes.unheld]
        exact .gone h.clearPosition.removeLedgerRow
    | whole h =>
        rw [complete_at h]
        have hwhole := writes.whole
        simp only [List.mem_cons, List.not_mem_nil, or_false] at hwhole
        rcases hwhole with hwrites | hwrites | hwrites
        · rw [hwrites]
          exact .gone h.applyEmptyFill.removeLedgerRow
        · rw [hwrites]
          exact .gone (h.setHeldQuantity none).clearPosition.removeLedgerRow
        · rw [hwrites]
          exact .unheld (h.setHeldQuantity none)
  stay := by
    intro s h
    cases h with
    | gone h =>
        rw [complete_at h, writes.gone]
        exact .gone h

theorem EmptyingWrites.ends (writes : EmptyingWrites target average quantity row)
    (h : At position stores (some (printedNum average)) (some (printedNum quantity)) (some row))
    (outcomes : List (Option ℕ)) (hcompleted : 2 ≤ outcomes.count none) :
    PassSettled position target (reconcilePasses position target stores outcomes) ∧
      At position (reconcilePasses position target stores outcomes) none none none := by
  have hempty := writes.distance.rounds (.whole h) outcomes hcompleted
  rw [← reconcilePasses] at hempty
  cases hempty with
  | gone hgone => exact ⟨settled_of_no_writes hgone writes.gone, hgone⟩

end Emptying

/-! ### Keeping a position -/

section Keeping

open CrashRounds

variable {σ : Type} {position : PositionStateAdapter σ} {target : ReconcileTarget}
  {stores : SymbolStores σ} {basis held : Option DecimalString} {pinned : DecimalString}
  {row : AvgEntryRow}

theorem reconcilePasses_of_no_writes {row : Option AvgEntryRow}
    (h : At position stores basis held row) (hwrites : passWrites target basis held row = [])
    (outcomes : List (Option ℕ)) : reconcilePasses position target stores outcomes = stores :=
  rounds_of_no_writes ((reconcileSymbol_at h).trans hwrites) outcomes

variable (position basis held pinned row) in
/-- How many completed passes the stores are from the pinned quantity. -/
inductive Pinning : ℕ → SymbolStores σ → Prop
  | pinned {n s} : At position s basis (some pinned) (some row) → Pinning n s
  | whole {n s} : At position s basis held (some row) → Pinning (n + 1) s

theorem pinning_distance
    (hpinned : passWrites target basis (some pinned) (some row) = [])
    (hwhole : passWrites target basis held (some row) = [.setHeldQuantity (some pinned)]) :
    Distance (SymbolStores.write position) (reconcileSymbol position target)
      (Pinning position basis held pinned row) where
  crash := by
    intro n s issued h
    cases h with
    | pinned h =>
        rw [round_crash_at h, hpinned, List.take_nil]
        exact .pinned h
    | whole h =>
        rw [round_crash_at h, hwhole]
        cases issued with
        | zero => exact .whole h
        | succ issued =>
            rw [List.take_of_length_le (by simp)]
            exact .pinned (h.setHeldQuantity _)
  progress := by
    intro n s h
    cases h with
    | pinned h =>
        rw [complete_at h, hpinned]
        exact .pinned h
    | whole h =>
        rw [complete_at h, hwhole]
        exact .pinned (h.setHeldQuantity _)
  stay := by
    intro s h
    cases h with
    | pinned h =>
        rw [complete_at h, hpinned]
        exact .pinned h

end Keeping

/-! ### The fold against the reconciler -/

section Agreement

open CrashRounds

variable {σ : Type} {position : PositionStateAdapter σ} {target : ReconcileTarget}
  {stores : SymbolStores σ} {average quantity sold price step minNotional : ℚ}

/-- The fold of a sale: flat when what is left is unsellable dust. -/
theorem resolveFill_sell_filtered (hprice : 0 < price) (hmin : 0 < minNotional) (hstep : 0 < step)
    (hquantity : 0 < quantity) :
    resolveFill (some ⟨some (printedNum average), some (printedNum quantity)⟩)
        ⟨.sell, num price, num sold⟩ (some (num step)) (some (num minNotional)) =
      .ok (if quantity - sold ≤ 0 ∨ quantity - sold < step ∨
          Crumb quantity (quantity - sold) ∧ SubNotional price minNotional (quantity - sold) then
        .empty else .sellReduce (printedNum (quantity - sold))) := by
  have hdust := @isUnsellableDust_num _ _ (quantity - sold) quantity hprice hmin hquantity
    (some step) (by simpa using hstep)
  unfold resolveFill
  rw [(reads_printed average quantity).quantity, (reads_printed average quantity).basis]
  simp only [Option.map_some] at hdust
  simp only [bind, Except.bind, pure, Except.pure, sub_num, hdust]
  simp

/-- A pass after a pass. -/
theorem reconcilePasses_twice (stores : SymbolStores σ) :
    reconcilePasses position target stores [none, none] =
      complete (SymbolStores.write position) (reconcileSymbol position target)
        (complete (SymbolStores.write position) (reconcileSymbol position target) stores) := rfl

theorem not_reflects_empty_of_basis {basis : DecimalString} {held : Option DecimalString}
    {row : Option AvgEntryRow} {average remaining step : ℚ}
    (h : At position stores (some basis) held row) :
    ¬Reflects position stores average remaining step .empty := by
  intro hreflects
  simpa using hreflects.view.symm.trans h.view

theorem not_reflects_empty_of_held {basis : Option DecimalString} {held : DecimalString}
    {row : Option AvgEntryRow} {average remaining step : ℚ}
    (h : At position stores basis (some held) row) :
    ¬Reflects position stores average remaining step .empty := by
  intro hreflects
  simpa using hreflects.view.symm.trans h.view

theorem not_reflects_reduce_of_gone {average remaining step : ℚ} {reduced : DecimalString}
    (h : At position stores none none none) :
    ¬Reflects position stores average remaining step (.sellReduce reduced) := by
  rintro ⟨held, quantity, -, hkept⟩
  simpa using hkept.view.symm.trans h.view

section Regions

variable (reads : target.Reads (quantity - sold) step minNotional price) (hsold : 0 < sold)
  (hle : sold ≤ quantity)
  (h : At position stores (some (printedNum average)) (some (printedNum quantity))
    (some ⟨num average, num quantity⟩))

include reads hsold

theorem residue_remaining (hresidue : Residue price minNotional quantity) :
    Residue price minNotional (quantity - sold) := by
  have hprice := reads.price_pos
  have hworth : (quantity - sold) * price < quantity * price := by nlinarith
  exact hworth.trans hresidue

include hle

/-- Below one step the position empties, when the reconciler drops or flattens it. -/
theorem emptyingWrites_below_step (hbelow : quantity - sold < step)
    (hmeet : step < sold ∨ Residue price minNotional quantity) (row : AvgEntryRow) :
    EmptyingWrites target average quantity row := by
  have hquantity : 0 < quantity := hsold.trans_le hle
  refine emptyingWrites_of_unbacked reads (.inl hbelow) ?_
  by_cases hresidue : Residue price minNotional quantity
  · rw [passWrites_flatten reads hquantity (residue_remaining reads hsold hresidue) hresidue]
    simp
  · have hfar : ¬|quantity - (quantity - sold)| ≤ step := by
      rw [sub_sub_cancel, abs_of_pos hsold]
      exact not_le.mpr (hmeet.resolve_right hresidue)
    rw [passWrites_drop (fun hboth => hresidue hboth.2) reads hquantity hfar (by linarith)
      (.inl hbelow)]
    have hpruned : reviveWrites target (some (printedNum average)) (some row)
        (some (printedNum quantity)) = [.clearPosition, .removeLedgerRow] :=
      reviveWrites_pruned reads (some quantity) (.inl rfl) (.inr hbelow)
    simp [hpruned]

/-- What a sale leaves of at least one step differs from a crumb's prior by more than one step. -/
theorem step_lt_sold_of_crumb (habove : step ≤ quantity - sold)
    (hcrumb : Crumb quantity (quantity - sold)) : step < sold := by
  have hquantity : 0 < quantity := hsold.trans_le hle
  have hstep := reads.step_pos
  rw [Crumb, div_lt_iff₀ hquantity] at hcrumb
  linarith

theorem passWrites_crumb (habove : step ≤ quantity - sold)
    (hcrumb : Crumb quantity (quantity - sold))
    (hsub : SubNotional price minNotional (quantity - sold))
    (hvalued : ¬Residue price minNotional quantity) (row : Option AvgEntryRow) :
    passWrites target (some (printedNum average)) (some (printedNum quantity)) row =
      [.setHeldQuantity none] := by
  have hquantity : 0 < quantity := hsold.trans_le hle
  have hfar : ¬|quantity - (quantity - sold)| ≤ step := by
    rw [sub_sub_cancel, abs_of_pos hsold]
    exact not_le.mpr (step_lt_sold_of_crumb reads hsold hle habove hcrumb)
  have hkept : reviveWrites target (some (printedNum average)) row
      (some (printedNum quantity)) = [] := by
    refine reviveWrites_kept reads (some quantity) rfl ?_
    rintro (⟨-, hclaim⟩ | hbelow)
    · exact hvalued (hclaim quantity rfl)
    · exact absurd hbelow (not_lt.mpr habove)
  rw [passWrites_drop (fun hboth => hvalued hboth.2) reads hquantity hfar (by linarith)
    (.inr (.inr ⟨hcrumb, hsub⟩)), hkept]

theorem emptyingWrites_crumb (habove : step ≤ quantity - sold)
    (hcrumb : Crumb quantity (quantity - sold))
    (hresidue : Residue price minNotional (quantity - sold)) (row : AvgEntryRow) :
    EmptyingWrites target average quantity row := by
  have hquantity : 0 < quantity := hsold.trans_le hle
  refine emptyingWrites_of_unbacked reads (.inr hresidue) ?_
  by_cases hclaim : Residue price minNotional quantity
  · rw [passWrites_flatten reads hquantity hresidue hclaim]
    simp
  · rw [passWrites_crumb reads hsold hle habove hcrumb
      (subNotional_of_residue reads.minNotional_pos hresidue) hclaim]
    simp

theorem passWrites_near (habove : step ≤ quantity - sold) (hnear : sold ≤ step)
    (hvalued : ¬(Residue price minNotional (quantity - sold) ∧ Residue price minNotional quantity))
    (row : Option AvgEntryRow) :
    passWrites target (some (printedNum average)) (some (printedNum quantity)) row = [] := by
  have hquantity : 0 < quantity := hsold.trans_le hle
  have hclose : |quantity - (quantity - sold)| ≤ step := by
    rw [sub_sub_cancel, abs_of_pos hsold]
    exact hnear
  rw [passWrites_close hvalued reads hquantity hclose]
  refine reviveWrites_kept reads (some quantity) rfl ?_
  rintro (⟨hwallet, hclaim⟩ | hbelow)
  · exact hvalued ⟨hwallet, hclaim quantity rfl⟩
  · exact absurd hbelow (not_lt.mpr habove)

theorem passWrites_remainder (habove : step ≤ quantity - sold) (hfar : step < sold)
    (hreal : ¬(Crumb quantity (quantity - sold) ∧
      SubNotional price minNotional (quantity - sold)))
    (hvalued : ¬(Residue price minNotional (quantity - sold) ∧ Residue price minNotional quantity))
    (row : Option AvgEntryRow) :
    passWrites target (some (printedNum average)) (some (printedNum quantity)) row =
      [.setHeldQuantity (some (printedNum (quantity - sold)))] := by
  have hquantity : 0 < quantity := hsold.trans_le hle
  have hstep := reads.step_pos
  have hfar' : ¬|quantity - (quantity - sold)| ≤ step := by
    rw [sub_sub_cancel, abs_of_pos hsold]
    exact not_le.mpr hfar
  have hkept : reviveWrites target (some (printedNum average)) row
      (some (printedNum quantity)) = [] := by
    refine reviveWrites_kept reads (some quantity) rfl ?_
    rintro (⟨hwallet, hclaim⟩ | hbelow)
    · exact hvalued ⟨hwallet, hclaim quantity rfl⟩
    · exact absurd hbelow (not_lt.mpr habove)
  have hposition : ¬(quantity - sold < step ∨ quantity - sold ≤ 0 ∨
      Crumb quantity (quantity - sold) ∧ SubNotional price minNotional (quantity - sold)) := by
    rintro (hbelow | hzero | hdust)
    · linarith
    · linarith
    · exact hreal hdust
  rw [passWrites_pin hvalued reads hquantity hfar' (by linarith) hposition, hkept]

omit hsold hle in
/-- A pass over a position pinned to the wallet: nothing, when it is worth something. -/
theorem passWrites_pinned (habove : step ≤ quantity - sold)
    (hvalued : ¬Residue price minNotional (quantity - sold)) (row : Option AvgEntryRow) :
    passWrites target (some (printedNum average)) (some (printedNum (quantity - sold))) row =
      [] := by
  have hstep := reads.step_pos
  rw [passWrites_close (fun hboth => hvalued hboth.1) reads (by linarith) (by simp [hstep.le])]
  refine reviveWrites_kept reads (some (quantity - sold)) rfl ?_
  rintro (⟨hwallet, -⟩ | hbelow)
  · exact hvalued hwallet
  · exact absurd hbelow (not_lt.mpr habove)

include h

/-- Below one step: a claim within one step of the wallet keeps its quantity for good. -/
theorem ends_below_step (hbelow : quantity - sold < step) :
    (∀ outcomes : List (Option ℕ), 2 ≤ outcomes.count none →
      PassSettled position target (reconcilePasses position target stores outcomes) ∧
        Reflects position (reconcilePasses position target stores outcomes) average
          (quantity - sold) step .empty) ↔
      step < sold ∨ Residue price minNotional quantity := by
  constructor
  · intro hends
    by_contra hmeet
    rw [not_or, not_lt] at hmeet
    obtain ⟨hnear, hvalued⟩ := hmeet
    have hquantity : 0 < quantity := hsold.trans_le hle
    have hclose : |quantity - (quantity - sold)| ≤ step := by
      rw [sub_sub_cancel, abs_of_pos hsold]
      exact hnear
    -- the first pass prunes the basis and the row, and no pass touches the quantity
    have hfirst : passWrites target (some (printedNum average)) (some (printedNum quantity))
        (some ⟨num average, num quantity⟩) = [.clearPosition, .removeLedgerRow] := by
      rw [passWrites_close (fun hboth => hvalued hboth.2) reads hquantity hclose]
      exact reviveWrites_pruned reads (some quantity) (.inl rfl) (.inr hbelow)
    have hsecond : passWrites target none (some (printedNum quantity)) none = [] := by
      rw [passWrites_close (fun hboth => hvalued hboth.2) reads hquantity hclose,
        reviveWrites_unclaimed]
    have hat : At position (reconcilePasses position target stores [none, none]) none
        (some (printedNum quantity)) none := by
      have hone := h.clearPosition.removeLedgerRow
      rw [reconcilePasses_twice, complete_at h, hfirst]
      rw [List.foldl_cons, List.foldl_cons, List.foldl_nil, complete_at hone, hsecond]
      exact hone
    exact not_reflects_empty_of_held hat (hends [none, none] (by simp)).2
  · intro hmeet outcomes hcompleted
    exact (emptyingWrites_below_step reads hsold hle hbelow hmeet _).ends h outcomes hcompleted

/-- A crumb below the floor: its cost basis goes only when the crumb is residue. -/
theorem ends_crumb (habove : step ≤ quantity - sold) (hcrumb : Crumb quantity (quantity - sold))
    (hsub : SubNotional price minNotional (quantity - sold)) :
    (∀ outcomes : List (Option ℕ), 2 ≤ outcomes.count none →
      PassSettled position target (reconcilePasses position target stores outcomes) ∧
        Reflects position (reconcilePasses position target stores outcomes) average
          (quantity - sold) step .empty) ↔
      Residue price minNotional (quantity - sold) := by
  constructor
  · intro hends
    by_contra hvalued
    have hclaim : ¬Residue price minNotional quantity := fun hresidue =>
      hvalued (residue_remaining reads hsold hresidue)
    have hfirst : passWrites target (some (printedNum average)) (some (printedNum quantity))
        (some ⟨num average, num quantity⟩) = [.setHeldQuantity none] :=
      passWrites_crumb reads hsold hle habove hcrumb hsub hclaim _
    have hsecond : passWrites target (some (printedNum average)) none
        (some ⟨num average, num quantity⟩) = [] := by
      rw [passWrites_untracked reads (.inr hsub)]
      refine reviveWrites_kept reads none rfl ?_
      rintro (⟨hwallet, -⟩ | hbelow)
      · exact hvalued hwallet
      · exact absurd hbelow (not_lt.mpr habove)
    have hat : At position (reconcilePasses position target stores [none, none])
        (some (printedNum average)) none (some ⟨num average, num quantity⟩) := by
      have hone := h.setHeldQuantity none
      rw [reconcilePasses_twice, complete_at h, hfirst]
      rw [List.foldl_cons, List.foldl_nil, complete_at hone, hsecond]
      exact hone
    exact not_reflects_empty_of_basis hat (hends [none, none] (by simp)).2
  · intro hresidue outcomes hcompleted
    exact (emptyingWrites_crumb reads hsold hle habove hcrumb hresidue _).ends h outcomes
      hcompleted

/-- A remainder the fold keeps is kept, unless a pass finds residue on both sides. -/
theorem ends_remainder (habove : step ≤ quantity - sold)
    (hreal : ¬(Crumb quantity (quantity - sold) ∧
      SubNotional price minNotional (quantity - sold))) (reduced : DecimalString) :
    (∀ outcomes : List (Option ℕ), 2 ≤ outcomes.count none →
      PassSettled position target (reconcilePasses position target stores outcomes) ∧
        Reflects position (reconcilePasses position target stores outcomes) average
          (quantity - sold) step (.sellReduce reduced)) ↔
      ¬Residue price minNotional (quantity - sold) ∨
        sold ≤ step ∧ ¬Residue price minNotional quantity := by
  have hquantity : 0 < quantity := hsold.trans_le hle
  have hstep := reads.step_pos
  constructor
  · intro hends
    by_contra hmeet
    rw [not_or, not_not, not_and, not_not] at hmeet
    obtain ⟨hresidue, hclaim⟩ := hmeet
    have hat : At position (reconcilePasses position target stores [none, none]) none none
        none := by
      rw [reconcilePasses_twice, complete_at h]
      by_cases hboth : Residue price minNotional quantity
      · have hone := h.applyEmptyFill.removeLedgerRow
        have hsecond : passWrites target none none none = [] := by
          rw [passWrites_untracked reads
            (.inr (subNotional_of_residue reads.minNotional_pos hresidue)),
            reviveWrites_unclaimed]
        rw [passWrites_flatten reads hquantity hresidue hboth]
        rw [List.foldl_cons, List.foldl_cons, List.foldl_nil, complete_at hone, hsecond]
        exact hone
      · -- pinned to the wallet, claim and wallet are the same residue
        have hfar : step < sold := not_le.mp fun hnear => hboth (hclaim hnear)
        have hone := h.setHeldQuantity (some (printedNum (quantity - sold)))
        rw [passWrites_remainder reads hsold hle habove hfar hreal (fun hb => hboth hb.2)]
        rw [List.foldl_cons, List.foldl_nil, complete_at hone,
          passWrites_flatten reads (by linarith) hresidue hresidue]
        exact hone.applyEmptyFill.removeLedgerRow
    exact not_reflects_reduce_of_gone hat (hends [none, none] (by simp)).2
  · intro hmeet outcomes hcompleted
    have hvalued : ¬(Residue price minNotional (quantity - sold) ∧
        Residue price minNotional quantity) := by
      rintro ⟨hwallet, hclaim⟩
      rcases hmeet with hkept | ⟨-, hkept⟩
      · exact hkept hwallet
      · exact hkept hclaim
    by_cases hnear : sold ≤ step
    · have hwrites : passWrites target (some (printedNum average)) (some (printedNum quantity))
          (some ⟨num average, num quantity⟩) = [] :=
        passWrites_near reads hsold hle habove hnear hvalued _
      rw [reconcilePasses_of_no_writes h hwrites]
      refine ⟨settled_of_no_writes h hwrites, quantity, num quantity, ?_, h⟩
      rw [sub_sub_cancel, abs_of_pos hsold]
      exact hnear
    · have hwallet : ¬Residue price minNotional (quantity - sold) :=
        hmeet.resolve_right fun hboth => hnear hboth.1
      have hpinned : passWrites target (some (printedNum average))
          (some (printedNum (quantity - sold))) (some ⟨num average, num quantity⟩) = [] :=
        passWrites_pinned reads habove hwallet _
      have hwhole : passWrites target (some (printedNum average)) (some (printedNum quantity))
          (some ⟨num average, num quantity⟩) =
            [.setHeldQuantity (some (printedNum (quantity - sold)))] :=
        passWrites_remainder reads hsold hle habove (not_le.mp hnear) hreal hvalued _
      have hend : Pinning position _ _ _ _ 0 (reconcilePasses position target stores outcomes) :=
        (pinning_distance hpinned hwhole).rounds (.whole h) outcomes (Nat.le_of_succ_le hcompleted)
      cases hend with
      | pinned hend =>
          refine ⟨settled_of_no_writes hend hpinned, quantity - sold, num quantity, ?_, hend⟩
          simp [hstep.le]

/--
Passes of the reconciler over a sold-down position end as the fold of the sale
says exactly where the thresholds of the two meet.
-/
theorem reconciler_agrees_with_fold_iff :
    AgreesWithFold position target stores average quantity sold price step minNotional ↔
      ThresholdsMeet quantity sold price step minNotional := by
  have hstep := reads.step_pos
  have hfold := @resolveFill_sell_filtered average quantity sold price step minNotional
    reads.price_pos reads.minNotional_pos reads.step_pos (hsold.trans_le hle)
  have hreduce : ∀ P : AdoptedFill → Prop,
      (∃ adopted, resolveFill (some ⟨some (printedNum average), some (printedNum quantity)⟩)
          ⟨.sell, num price, num sold⟩ (some (num step)) (some (num minNotional)) = .ok adopted ∧
        P adopted) ↔
      P (if quantity - sold ≤ 0 ∨ quantity - sold < step ∨
          Crumb quantity (quantity - sold) ∧ SubNotional price minNotional (quantity - sold) then
        .empty else .sellReduce (printedNum (quantity - sold))) := by
    intro P
    rw [hfold]
    simp
  rw [AgreesWithFold, hreduce, ThresholdsMeet]
  by_cases hbelow : quantity - sold < step
  · rw [if_pos hbelow, if_pos (.inr (.inl hbelow))]
    exact ends_below_step reads hsold hle h hbelow
  · have habove : step ≤ quantity - sold := not_lt.mp hbelow
    rw [if_neg hbelow]
    by_cases hdust : Crumb quantity (quantity - sold) ∧
        SubNotional price minNotional (quantity - sold)
    · rw [if_pos hdust, if_pos (.inr (.inr hdust))]
      exact ends_crumb reads hsold hle h habove hdust.1 hdust.2
    · have hkept : ¬(quantity - sold ≤ 0 ∨ quantity - sold < step ∨
          Crumb quantity (quantity - sold) ∧
            SubNotional price minNotional (quantity - sold)) := by
        rintro (hzero | hlt | hcrumb)
        · linarith
        · exact hbelow hlt
        · exact hdust hcrumb
      rw [if_neg hdust, if_neg hkept]
      exact ends_remainder reads hsold hle h habove hdust _

end Regions

/-- A market of whole units at a hundred, with a floor of ten, over a wallet. -/
def wholeUnits (walletFree : String) : ReconcileTarget where
  stepSize := .raw "1"
  minNotional := some (.raw "10")
  referencePrice := some (.raw "100")
  walletFree := .raw walletFree
  walletLocked := .raw "0"

/-- A trailing-trade position at a cost of a hundred, in the state and in the ledger. -/
def heldAtHundred (quantity : ℚ) : SymbolStores TTState where
  state := some
    { initialTTState with
      avgEntryPrice := some (printedNum 100)
      heldQuantity := some (printedNum quantity) }
  row := some ⟨num 100, num quantity⟩

theorem wholeUnits_reads {walletFree : String} {wallet : ℚ}
    (hfree : parse walletFree = some (num wallet)) :
    (wholeUnits walletFree).Reads wallet 1 10 100 := by
  have hzero : parse "0" = some (num 0) := by decide +kernel
  have hone : parse "1" = some (num 1) := by decide +kernel
  exact ⟨⟨wallet, 0, hfree, hzero, add_zero wallet⟩, hone, ⟨_, rfl, by decide +kernel⟩,
    ⟨_, rfl, by decide +kernel⟩, by norm_num, by norm_num, by norm_num⟩

theorem heldAtHundred_at (quantity : ℚ) :
    At trailingTradePositionAdapter (heldAtHundred quantity) (some (printedNum 100))
      (some (printedNum quantity)) (some ⟨num 100, num quantity⟩) :=
  ⟨rfl, rfl⟩

/-- Four and a half of five sold: fold and reconciler both write off the half unit. -/
theorem half_unit_written_off :
    AgreesWithFold trailingTradePositionAdapter (wholeUnits "0.5") (heldAtHundred 5)
      100 5 (9 / 2) 100 1 10 := by
  have hreads : (wholeUnits "0.5").Reads (5 - 9 / 2) 1 10 100 :=
    wholeUnits_reads (by decide +kernel)
  refine (reconciler_agrees_with_fold_iff hreads (by norm_num) (by norm_num)
    (heldAtHundred_at 5)).mpr ?_
  rw [ThresholdsMeet, if_pos (by norm_num)]
  exact .inl (by norm_num)

/-- One of 1.998 sold: the fold flattens, the reconciler keeps the quantity without a basis. -/
theorem fee_crumb_stays_held :
    ¬AgreesWithFold trailingTradePositionAdapter (wholeUnits "0.998") (heldAtHundred (1998 / 1000))
      100 (1998 / 1000) 1 100 1 10 := by
  rintro ⟨adopted, hfold, hends⟩
  have hreads : (wholeUnits "0.998").Reads (1998 / 1000 - 1) 1 10 100 :=
    wholeUnits_reads (by decide +kernel)
  have hempty : resolveFill (some ⟨some (printedNum 100), some (printedNum (1998 / 1000))⟩)
      ⟨.sell, num 100, num 1⟩ (some (num 1)) (some (num 10)) = .ok .empty := by
    decide +kernel
  obtain rfl : AdoptedFill.empty = adopted := Except.ok.inj (hempty.symm.trans hfold)
  rcases (ends_below_step hreads (by norm_num) (by norm_num) (heldAtHundred_at _)
    (by norm_num)).mp hends with hfar | hresidue
  · norm_num at hfar
  · norm_num [Residue] at hresidue

end Agreement

end TradingBot.Worker

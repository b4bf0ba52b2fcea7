import TradingBot.Core.Contract

/-!
# Who owns an execution report

One user-data stream serves every profile of an account, so each report is
routed to all of them and each asks whether the order is its own. The evidence
is an order's row, the marker its placer left, and the manual orders; every row
is looked up by the exchange's order id alone, although the exchange numbers
orders per symbol.
-/

namespace TradingBot.Worker

/-! ### The evidence -/

/-- A row of the account's orders; a row without a profile has lost it. -/
structure OrderRow where
  symbol : String
  side : OrderSide
  binanceOrderId : ℕ
  profileId : Option String
  status : String
  closedAt : Option ℤ
  realizedPnl : Option DecimalString
deriving DecidableEq

structure ManualOrderRow where
  profileId : String
  symbol : String
  binanceOrderId : ℕ
deriving DecidableEq

/--
The stored orders of one account. The exchange's ids are unique per symbol, a
profile has one manual order of an id, and every owner is a profile of the
account.
-/
structure OrderStores where
  profiles : List String
  orders : List OrderRow
  manualOrders : List ManualOrderRow
  owner_mem : ∀ row ∈ orders, ∀ owner ∈ row.profileId, owner ∈ profiles
  order_unique : ∀ a ∈ orders, ∀ b ∈ orders,
    a.symbol = b.symbol → a.binanceOrderId = b.binanceOrderId → a = b
  manual_owner_mem : ∀ row ∈ manualOrders, row.profileId ∈ profiles
  manual_unique : ∀ a ∈ manualOrders, ∀ b ∈ manualOrders,
    a.profileId = b.profileId → a.binanceOrderId = b.binanceOrderId → a = b

/-- The stores without the rows of other symbols. -/
def OrderStores.only (stores : OrderStores) (symbol : String) : OrderStores where
  profiles := stores.profiles
  orders := stores.orders.filter fun row => row.symbol == symbol
  manualOrders := stores.manualOrders.filter fun row => row.symbol == symbol
  owner_mem row hrow := stores.owner_mem row (List.mem_filter.mp hrow).1
  order_unique a ha b hb :=
    stores.order_unique a (List.mem_filter.mp ha).1 b (List.mem_filter.mp hb).1
  manual_owner_mem row hrow := stores.manual_owner_mem row (List.mem_filter.mp hrow).1
  manual_unique a ha b hb :=
    stores.manual_unique a (List.mem_filter.mp ha).1 b (List.mem_filter.mp hb).1

/-- The row a lookup by id returns: any row of the id, where there is one. -/
def FindsByBinanceOrderId (stores : OrderStores) (binanceOrderId : ℕ) : Option OrderRow → Prop
  | none => ∀ row ∈ stores.orders, row.binanceOrderId ≠ binanceOrderId
  | some row => row ∈ stores.orders ∧ row.binanceOrderId = binanceOrderId

def ownsManual (stores : OrderStores) (profileId : String) (binanceOrderId : ℕ) : Bool :=
  stores.manualOrders.any fun row =>
    row.profileId == profileId && row.binanceOrderId == binanceOrderId

/-- Whether an id is specific enough to one order to key a marker. -/
def isKeyable (clientOrderId : String) : Bool :=
  decide (1 ≤ clientOrderId.length ∧ clientOrderId.length ≤ 36) &&
    clientOrderId.toList.all fun c => c.isAlphanum || "_.:/-".toList.contains c

/-- What is known at the moment a profile asks, besides the rows. -/
structure Routing where
  activeProfileIds : List String
  isSymbolBound : String → String → Bool
  markers : String → Option String

/-- The profile that stamped the id before it sent the order. -/
def ownerOf (routing : Routing) (clientOrderId : String) : Option String :=
  if isKeyable clientOrderId then routing.markers clientOrderId else none

structure ExecutionReport where
  symbol : String
  orderId : ℕ
  clientOrderId : String

inductive OrderOwnership where
  | own
  | sibling
  | detached

/-! ### The gate -/

def rowOwnership (row : OrderRow) (profileId : String) : OrderOwnership :=
  match row.profileId with
  | none => .detached
  | some owner => if owner = profileId then .own else .sibling

/-- Without any evidence only the sole routed profile that trades the symbol adopts. -/
def adoptsUnowned (routing : Routing) (profileId symbol : String) : Bool :=
  decide (routing.activeProfileIds.length ≤ 1) && routing.activeProfileIds.contains profileId &&
    routing.isSymbolBound profileId symbol

/-- The verdict of a profile on a report, over the row its lookup returned. -/
def classifyOrder (stores : OrderStores) (routing : Routing) (profileId : String)
    (report : ExecutionReport) (row : Option OrderRow) : OrderOwnership :=
  match row with
  | some row => rowOwnership row profileId
  | none =>
      match ownerOf routing report.clientOrderId with
      | some placer => if placer = profileId then .own else .sibling
      | none =>
          if ownsManual stores profileId report.orderId then .own
          else if stores.profiles.any fun sibling =>
              sibling != profileId && ownsManual stores sibling report.orderId then .sibling
          else if adoptsUnowned routing profileId report.symbol then .own
          else .sibling

/-- A verdict the gate can give. -/
def Verdict (stores : OrderStores) (routing : Routing) (profileId : String)
    (report : ExecutionReport) (verdict : OrderOwnership) : Prop :=
  ∃ row, FindsByBinanceOrderId stores report.orderId row ∧
    classifyOrder stores routing profileId report row = verdict

/-! ### Adopting and settling by id -/

/-- The adopter's own gate: the profile placed the order, as a strategy or by hand. -/
def passesOrigin (stores : OrderStores) (profileId : String) (binanceOrderId : ℕ)
    (row : Option OrderRow) : Bool :=
  row.any (fun row => row.profileId == some profileId) || ownsManual stores profileId binanceOrderId

/-- An answer the adopter's gate can give. -/
def Admits (stores : OrderStores) (profileId : String) (binanceOrderId : ℕ) (passes : Bool) :
    Prop :=
  ∃ row, FindsByBinanceOrderId stores binanceOrderId row ∧
    passesOrigin stores profileId binanceOrderId row = passes

/-- Close the open rows of an id. -/
def closeByBinanceOrderId (binanceOrderId : ℕ) (status : String) (closedAt : ℤ)
    (row : OrderRow) : OrderRow :=
  if row.binanceOrderId = binanceOrderId ∧ row.closedAt = none then
    { row with status, closedAt := some closedAt }
  else row

/-- Mark the rows of an id filled, also those closed as something else. -/
def markFilledByBinanceOrderId (binanceOrderId : ℕ) (closedAt : ℤ) (row : OrderRow) : OrderRow :=
  if row.binanceOrderId = binanceOrderId ∧ row.status ≠ "FILLED" then
    { row with status := "FILLED", closedAt := some closedAt }
  else row

/-- Stamp the profit of a sale on the rows of its id, once. -/
def stampRealizedPnl (binanceOrderId : ℕ) (realizedPnl : DecimalString) (row : OrderRow) :
    OrderRow :=
  if row.binanceOrderId = binanceOrderId ∧ row.side = .sell ∧ row.realizedPnl = none then
    { row with realizedPnl := some realizedPnl }
  else row

/-- The settling of an order leaves a row as it is. -/
structure Untouched (binanceOrderId : ℕ) (row : OrderRow) : Prop where
  closed : ∀ status closedAt, closeByBinanceOrderId binanceOrderId status closedAt row = row
  filled : ∀ closedAt, markFilledByBinanceOrderId binanceOrderId closedAt row = row
  stamped : ∀ realizedPnl, stampRealizedPnl binanceOrderId realizedPnl row = row

/-! ### What the gate should guarantee -/

/-- Two moments of one fan-out: the markers stay, and profiles are only disabled in between. -/
structure Routing.SameFanOut (first second : Routing) : Prop where
  markers : first.markers = second.markers
  active : second.activeProfileIds.Sublist first.activeProfileIds ∨
    first.activeProfileIds.Sublist second.activeProfileIds

/--
A report on a symbol's order is judged, adopted and settled on evidence about
that order: at most one profile owns it, and the rows of other symbols make no
difference to the verdict, to the adoption or to themselves.
-/
structure JudgedAlone (stores : OrderStores) (symbol : String) (orderId : ℕ) : Prop where
  oneOwner : ∀ clientOrderId first second, first.SameFanOut second →
    ∀ p ∈ stores.profiles, ∀ q ∈ stores.profiles,
      Verdict stores first p ⟨symbol, orderId, clientOrderId⟩ .own →
      Verdict stores second q ⟨symbol, orderId, clientOrderId⟩ .own → p = q
  verdict : ∀ clientOrderId routing, ∀ p ∈ stores.profiles, ∀ verdict,
    Verdict stores routing p ⟨symbol, orderId, clientOrderId⟩ verdict ↔
      Verdict (stores.only symbol) routing p ⟨symbol, orderId, clientOrderId⟩ verdict
  adoption : ∀ p ∈ stores.profiles, ∀ passes,
    Admits stores p orderId passes ↔ Admits (stores.only symbol) p orderId passes
  settling : ∀ row ∈ stores.orders, row.symbol ≠ symbol → Untouched orderId row

/-- A row that a settling of its id has nothing left to change on. -/
structure FullySettled (row : OrderRow) : Prop where
  closed : row.closedAt ≠ none
  filled : row.status = "FILLED"
  stamped : row.side = .sell → row.realizedPnl ≠ none

/-- The order's own row names the owner, and whatever else has its id agrees. -/
structure OwnRowAgrees (stores : OrderStores) (symbol : String) (orderId : ℕ) (own : OrderRow) :
    Prop where
  mem : own ∈ stores.orders
  id : own.binanceOrderId = orderId
  ofSymbol : own.symbol = symbol
  rows : ∀ row ∈ stores.orders, row.binanceOrderId = orderId → row.profileId = own.profileId
  manual : ∀ row ∈ stores.manualOrders, row.binanceOrderId = orderId → row.symbol ≠ symbol →
    own.profileId = some row.profileId

/-- No order has a row of the id, and its manual orders are one profile's, of the symbol. -/
structure NoRowOfId (stores : OrderStores) (symbol : String) (orderId : ℕ) : Prop where
  rows : ∀ row ∈ stores.orders, row.binanceOrderId ≠ orderId
  manual : ∀ row ∈ stores.manualOrders, row.binanceOrderId = orderId → row.symbol = symbol
  oneProfile : ∀ a ∈ stores.manualOrders, ∀ b ∈ stores.manualOrders,
    a.binanceOrderId = orderId → b.binanceOrderId = orderId → a.profileId = b.profileId

/-- No row of another symbol with the order's id says anything about the order. -/
structure IdNamesOrder (stores : OrderStores) (symbol : String) (orderId : ℕ) : Prop where
  settled : ∀ row ∈ stores.orders, row.binanceOrderId = orderId → row.symbol ≠ symbol →
    FullySettled row
  evidence : (∃ own, OwnRowAgrees stores symbol orderId own) ∨ NoRowOfId stores symbol orderId

/-! ### Settling -/

section Settling

variable {orderId : ℕ} {row : OrderRow}

theorem untouched_iff (hid : row.binanceOrderId = orderId) :
    Untouched orderId row ↔ FullySettled row := by
  constructor
  · intro h
    have hfilled : row.status = "FILLED" := by
      by_contra hstatus
      have hmark := h.filled 0
      rw [markFilledByBinanceOrderId, if_pos ⟨hid, hstatus⟩] at hmark
      exact hstatus (congrArg OrderRow.status hmark).symm
    refine ⟨?_, hfilled, ?_⟩
    · intro hopen
      have hclose := h.closed row.status 0
      rw [closeByBinanceOrderId, if_pos ⟨hid, hopen⟩] at hclose
      cases (congrArg OrderRow.closedAt hclose).trans hopen
    · intro hside hunstamped
      have hstamp := h.stamped (.printed (.num 0))
      rw [stampRealizedPnl, if_pos ⟨hid, hside, hunstamped⟩] at hstamp
      cases (congrArg OrderRow.realizedPnl hstamp).trans hunstamped
  · intro h
    refine ⟨?_, ?_, ?_⟩
    · intro status closedAt
      exact if_neg fun hopen => h.closed hopen.2
    · intro closedAt
      exact if_neg fun hopen => hopen.2 h.filled
    · intro realizedPnl
      exact if_neg fun hopen => h.stamped hopen.2.1 hopen.2.2

theorem untouched_of_other_id (hid : row.binanceOrderId ≠ orderId) : Untouched orderId row :=
  ⟨fun _ _ => if_neg fun h => hid h.1, fun _ => if_neg fun h => hid h.1,
    fun _ => if_neg fun h => hid h.1⟩

end Settling

/-! ### Evidence about one order is enough -/

section Evidence

variable {stores : OrderStores} {symbol clientOrderId p q : String} {orderId : ℕ} {own : OrderRow}
  {routing first second : Routing} {verdict : OrderOwnership} {passes : Bool}

theorem ownsManual_iff :
    ownsManual stores p orderId = true ↔
      ∃ row ∈ stores.manualOrders, row.profileId = p ∧ row.binanceOrderId = orderId := by
  simp [ownsManual]

theorem ownsManual_only_iff :
    ownsManual (stores.only symbol) p orderId = true ↔
      ∃ row ∈ stores.manualOrders, row.symbol = symbol ∧ row.profileId = p ∧
        row.binanceOrderId = orderId := by
  simp [ownsManual_iff, OrderStores.only, and_assoc]

theorem OwnRowAgrees.only (h : OwnRowAgrees stores symbol orderId own) :
    OwnRowAgrees (stores.only symbol) symbol orderId own where
  mem := List.mem_filter.mpr ⟨h.mem, by simp [h.ofSymbol]⟩
  id := h.id
  ofSymbol := h.ofSymbol
  rows row hrow := h.rows row (List.mem_filter.mp hrow).1
  manual row hrow := h.manual row (List.mem_filter.mp hrow).1

theorem OwnRowAgrees.finds (h : OwnRowAgrees stores symbol orderId own) {row : Option OrderRow}
    (hfinds : FindsByBinanceOrderId stores orderId row) :
    ∃ found, row = some found ∧ found.profileId = own.profileId := by
  cases row with
  | none => exact absurd h.id (hfinds own h.mem)
  | some found => exact ⟨found, rfl, h.rows found hfinds.1 hfinds.2⟩

theorem OwnRowAgrees.verdict_iff (h : OwnRowAgrees stores symbol orderId own) :
    Verdict stores routing p ⟨symbol, orderId, clientOrderId⟩ verdict ↔
      rowOwnership own p = verdict := by
  constructor
  · rintro ⟨row, hfinds, hverdict⟩
    obtain ⟨found, rfl, howner⟩ := h.finds hfinds
    simpa [classifyOrder, rowOwnership, howner] using hverdict
  · intro hverdict
    exact ⟨some own, ⟨h.mem, h.id⟩, hverdict⟩

theorem OwnRowAgrees.admits_iff (h : OwnRowAgrees stores symbol orderId own) :
    Admits stores p orderId passes ↔
      (own.profileId == some p || ownsManual stores p orderId) = passes := by
  constructor
  · rintro ⟨row, hfinds, hpasses⟩
    obtain ⟨found, rfl, howner⟩ := h.finds hfinds
    simpa [passesOrigin, howner] using hpasses
  · intro hpasses
    exact ⟨some own, ⟨h.mem, h.id⟩, by simpa [passesOrigin] using hpasses⟩

theorem rowOwnership_eq_own_iff {row : OrderRow} :
    rowOwnership row p = .own ↔ row.profileId = some p := by
  unfold rowOwnership
  cases row.profileId with
  | none => simp
  | some owner => by_cases howner : owner = p <;> simp [howner]

theorem judgedAlone_of_ownRow (h : OwnRowAgrees stores symbol orderId own)
    (hsettled : ∀ row ∈ stores.orders, row.binanceOrderId = orderId → row.symbol ≠ symbol →
      FullySettled row) : JudgedAlone stores symbol orderId where
  oneOwner := by
    intro clientOrderId first second _ p _ q _ hp hq
    have hownerP := rowOwnership_eq_own_iff.mp (h.verdict_iff.mp hp)
    have hownerQ := rowOwnership_eq_own_iff.mp (h.verdict_iff.mp hq)
    exact Option.some.inj (hownerP.symm.trans hownerQ)
  verdict := by
    intro clientOrderId routing p _ verdict
    rw [h.verdict_iff, h.only.verdict_iff]
  adoption := by
    intro p _ passes
    rw [h.admits_iff, h.only.admits_iff]
    have hsame : (own.profileId == some p || ownsManual stores p orderId) =
        (own.profileId == some p || ownsManual (stores.only symbol) p orderId) := by
      rw [Bool.eq_iff_iff]
      rw [Bool.or_eq_true, Bool.or_eq_true, beq_iff_eq, ownsManual_only_iff, ownsManual_iff]
      constructor
      · rintro (howner | ⟨row, hrow, rfl, hid⟩)
        · exact .inl howner
        · by_cases hsymbol : row.symbol = symbol
          · exact .inr ⟨row, hrow, hsymbol, rfl, hid⟩
          · exact .inl (h.manual row hrow hid hsymbol)
      · rintro (howner | ⟨row, hrow, -, hprofile, hid⟩)
        · exact .inl howner
        · exact .inr ⟨row, hrow, hprofile, hid⟩
    rw [hsame]
  settling := by
    intro row hrow hsymbol
    by_cases hid : row.binanceOrderId = orderId
    · exact (untouched_iff hid).mpr (hsettled row hrow hid hsymbol)
    · exact untouched_of_other_id hid

theorem NoRowOfId.only (h : NoRowOfId stores symbol orderId) :
    NoRowOfId (stores.only symbol) symbol orderId where
  rows row hrow := h.rows row (List.mem_filter.mp hrow).1
  manual row hrow := h.manual row (List.mem_filter.mp hrow).1
  oneProfile a ha b hb := h.oneProfile a (List.mem_filter.mp ha).1 b (List.mem_filter.mp hb).1

theorem finds_none_iff (h : ∀ row ∈ stores.orders, row.binanceOrderId ≠ orderId)
    (row : Option OrderRow) : FindsByBinanceOrderId stores orderId row ↔ row = none := by
  cases row with
  | none => exact iff_of_true h rfl
  | some found => exact iff_of_false (fun hfinds => h found hfinds.1 hfinds.2) (by simp)

theorem verdict_iff_of_no_row (h : ∀ row ∈ stores.orders, row.binanceOrderId ≠ orderId) :
    Verdict stores routing p ⟨symbol, orderId, clientOrderId⟩ verdict ↔
      classifyOrder stores routing p ⟨symbol, orderId, clientOrderId⟩ none = verdict := by
  simp [Verdict, finds_none_iff h]

theorem admits_iff_of_no_row (h : ∀ row ∈ stores.orders, row.binanceOrderId ≠ orderId) :
    Admits stores p orderId passes ↔ ownsManual stores p orderId = passes := by
  simp [Admits, finds_none_iff h, passesOrigin]

theorem NoRowOfId.ownsManual_only (h : NoRowOfId stores symbol orderId) (p : String) :
    ownsManual (stores.only symbol) p orderId = ownsManual stores p orderId := by
  rw [Bool.eq_iff_iff, ownsManual_only_iff, ownsManual_iff]
  constructor
  · rintro ⟨row, hrow, -, hprofile, hid⟩
    exact ⟨row, hrow, hprofile, hid⟩
  · rintro ⟨row, hrow, hprofile, hid⟩
    exact ⟨row, hrow, h.manual row hrow hid, hprofile, hid⟩

/-- Two profiles that are each the only one routed are one, when the other was only disabled. -/
theorem adoptsUnowned_unique (hfan : first.SameFanOut second)
    (hp : adoptsUnowned first p symbol = true) (hq : adoptsUnowned second q symbol = true) :
    p = q := by
  simp only [adoptsUnowned, Bool.and_eq_true, decide_eq_true_eq, List.contains_iff_mem] at hp hq
  -- whichever set is the later one, its only profile is also in the earlier one
  have honly : ∀ active : List String, active.length ≤ 1 → p ∈ active → q ∈ active → p = q := by
    intro active hlength hpa hqa
    match active, hlength with
    | [], _ => cases hpa
    | [r], _ => exact (List.mem_singleton.mp hpa).trans (List.mem_singleton.mp hqa).symm
  rcases hfan.active with hactive | hactive
  · exact honly _ hp.1.1 hp.1.2 (hactive.mem hq.1.2)
  · exact honly _ hq.1.1 (hactive.mem hp.1.2) hq.1.2

/-- What a profile owns without a row, it owns by its marker, by hand, or as the only one. -/
theorem classifyOrder_none_own (h : classifyOrder stores routing p
      ⟨symbol, orderId, clientOrderId⟩ none = .own) :
    ownerOf routing clientOrderId = some p ∨
      ownerOf routing clientOrderId = none ∧ (ownsManual stores p orderId = true ∨
        (∀ q ∈ stores.profiles, q ≠ p → ownsManual stores q orderId = false) ∧
          adoptsUnowned routing p symbol = true) := by
  unfold classifyOrder at h
  dsimp only at h
  cases hmarker : ownerOf routing clientOrderId with
  | some placer =>
      rw [hmarker] at h
      dsimp only at h
      split at h
      · next hplacer => exact .inl (by rw [hplacer])
      · cases h
  | none =>
      rw [hmarker] at h
      dsimp only at h
      refine .inr ⟨rfl, ?_⟩
      split at h
      · next hmanual => exact .inl hmanual
      · split at h
        · cases h
        · next hsiblings =>
            split at h
            · next hsole =>
                refine .inr ⟨?_, hsole⟩
                simpa using hsiblings
            · cases h

theorem judgedAlone_of_noRow (h : NoRowOfId stores symbol orderId) :
    JudgedAlone stores symbol orderId where
  oneOwner := by
    intro clientOrderId first second hfan p hp q hq hownP hownQ
    have hmarker : ownerOf first clientOrderId = ownerOf second clientOrderId := by
      rw [ownerOf, ownerOf, hfan.markers]
    rcases classifyOrder_none_own ((verdict_iff_of_no_row h.rows).mp hownP) with
      hplacerP | ⟨hnone, hunmarkedP⟩
    · rcases classifyOrder_none_own ((verdict_iff_of_no_row h.rows).mp hownQ) with
        hplacerQ | ⟨hnone, -⟩
      · exact Option.some.inj ((hplacerP.symm.trans hmarker).trans hplacerQ)
      · cases (hplacerP.symm.trans hmarker).trans hnone
    · rcases classifyOrder_none_own ((verdict_iff_of_no_row h.rows).mp hownQ) with
        hplacerQ | ⟨-, hunmarkedQ⟩
      · cases (hnone.symm.trans hmarker).trans hplacerQ
      · by_contra hne
        rcases hunmarkedP with hmanualP | ⟨hothersP, hsoleP⟩
        · rcases hunmarkedQ with hmanualQ | ⟨hothersQ, -⟩
          · obtain ⟨a, ha, rfl, hida⟩ := ownsManual_iff.mp hmanualP
            obtain ⟨b, hb, rfl, hidb⟩ := ownsManual_iff.mp hmanualQ
            exact hne (h.oneProfile a ha b hb hida hidb)
          · cases hmanualP.symm.trans (hothersQ p hp hne)
        · rcases hunmarkedQ with hmanualQ | ⟨-, hsoleQ⟩
          · cases hmanualQ.symm.trans (hothersP q hq (Ne.symm hne))
          · exact hne (adoptsUnowned_unique hfan hsoleP hsoleQ)
  verdict := by
    intro clientOrderId routing p _ verdict
    rw [verdict_iff_of_no_row h.rows, verdict_iff_of_no_row h.only.rows]
    have hsame : classifyOrder (stores.only symbol) routing p ⟨symbol, orderId, clientOrderId⟩
        none = classifyOrder stores routing p ⟨symbol, orderId, clientOrderId⟩ none := by
      simp only [classifyOrder, h.ownsManual_only]
      rfl
    rw [hsame]
  adoption := by
    intro p _ passes
    rw [admits_iff_of_no_row h.rows, admits_iff_of_no_row h.only.rows, h.ownsManual_only]
  settling := by
    intro row hrow _
    exact untouched_of_other_id (h.rows row hrow)

/-! ### Evidence of another symbol shows -/

theorem exists_other (p : String) : ∃ q : String, q ≠ p := by
  refine ⟨p ++ "x", fun h => ?_⟩
  have hlength := congrArg String.length h
  simp at hlength

/-- A routing in which nothing but a marker speaks. -/
def marked (placer : Option String) : Routing where
  activeProfileIds := []
  isSymbolBound _ _ := false
  markers _ := placer

theorem classifyOrder_marked {placer : String} :
    classifyOrder stores (marked (some placer)) p ⟨symbol, orderId, "a"⟩ none =
      if placer = p then .own else .sibling := by
  have hkeyable : isKeyable "a" = true := by decide +kernel
  have hmarker : ownerOf (marked (some placer)) "a" = some placer := if_pos hkeyable
  simp only [classifyOrder, hmarker]

theorem classifyOrder_unmarked :
    classifyOrder stores (marked none) p ⟨symbol, orderId, "a"⟩ none =
      if ownsManual stores p orderId then .own else .sibling := by
  have hmarker : ownerOf (marked none) "a" = none := ite_self none
  have hsole : adoptsUnowned (marked none) p symbol = false := rfl
  simp only [classifyOrder, hmarker, hsole]
  split
  · rfl
  · split <;> rfl

theorem exists_ownRow (h : JudgedAlone stores symbol orderId) (hrouted : stores.profiles ≠ [])
    {row : OrderRow} (hrow : row ∈ stores.orders) (hid : row.binanceOrderId = orderId) :
    ∃ own ∈ stores.orders, own.binanceOrderId = orderId ∧ own.symbol = symbol := by
  by_contra hnone
  obtain ⟨p, hp⟩ := List.exists_mem_of_ne_nil _ hrouted
  obtain ⟨q, hq⟩ := exists_other p
  have honly : ∀ row ∈ (stores.only symbol).orders, row.binanceOrderId ≠ orderId := by
    intro row hrow hid
    obtain ⟨hmem, hsymbol⟩ := List.mem_filter.mp hrow
    exact hnone ⟨row, hmem, hid, by simpa using hsymbol⟩
  -- the row's verdict is the same whoever the marker names, the marker's is not
  have hverdict : ∀ placer, classifyOrder (stores.only symbol) (marked (some placer)) p
      ⟨symbol, orderId, "a"⟩ none = rowOwnership row p := by
    intro placer
    refine (verdict_iff_of_no_row honly).mp ((h.verdict "a" _ p hp _).mp ?_)
    exact ⟨some row, ⟨hrow, hid⟩, rfl⟩
  have hself := hverdict p
  have hother := hverdict q
  rw [classifyOrder_marked, if_pos rfl] at hself
  rw [classifyOrder_marked, if_neg hq] at hother
  cases hself.trans hother.symm

theorem same_owner (h : JudgedAlone stores symbol orderId)
    (hmem : own ∈ stores.orders) (hownId : own.binanceOrderId = orderId)
    (hsymbol : own.symbol = symbol) {row : OrderRow} (hrow : row ∈ stores.orders)
    (hid : row.binanceOrderId = orderId) : row.profileId = own.profileId := by
  have hunique : ∀ p ∈ stores.profiles, rowOwnership row p = rowOwnership own p := by
    intro p hp
    obtain ⟨found, ⟨hfound, hverdict⟩⟩ := (h.verdict "a" (marked none) p hp _).mp
      ⟨some row, ⟨hrow, hid⟩, rfl⟩
    cases found with
    | none =>
        refine absurd hownId (hfound own (List.mem_filter.mpr ⟨hmem, by simp [hsymbol]⟩))
    | some found =>
        obtain ⟨hfoundMem, hfoundSymbol⟩ := List.mem_filter.mp hfound.1
        have hfoundSymbol : found.symbol = symbol := by simpa using hfoundSymbol
        obtain rfl : found = own := stores.order_unique found hfoundMem own hmem
          (hfoundSymbol.trans hsymbol.symm) (hfound.2.trans hownId.symm)
        exact hverdict.symm
  cases howner : own.profileId with
  | some owner =>
      have hown := hunique owner (stores.owner_mem own hmem owner howner)
      rw [rowOwnership_eq_own_iff.mpr howner] at hown
      exact rowOwnership_eq_own_iff.mp hown
  | none =>
      cases hrowOwner : row.profileId with
      | none => rfl
      | some owner =>
          have hown := hunique owner (stores.owner_mem row hrow owner hrowOwner)
          rw [rowOwnership_eq_own_iff.mpr hrowOwner] at hown
          cases howner.symm.trans (rowOwnership_eq_own_iff.mp hown.symm)

theorem idNamesOrder_of_judgedAlone (h : JudgedAlone stores symbol orderId)
    (hrouted : stores.profiles ≠ []) : IdNamesOrder stores symbol orderId where
  settled := by
    intro row hrow hid hsymbol
    exact (untouched_iff hid).mp (h.settling row hrow hsymbol)
  evidence := by
    -- a manual order of another symbol is its profile's only one of the id
    have hforeign : ∀ row ∈ stores.manualOrders, row.binanceOrderId = orderId →
        row.symbol ≠ symbol → ownsManual stores row.profileId orderId = true ∧
          ownsManual (stores.only symbol) row.profileId orderId = false := by
      intro row hrow hid hsymbol
      refine ⟨ownsManual_iff.mpr ⟨row, hrow, rfl, hid⟩, ?_⟩
      rw [Bool.eq_false_iff, ne_eq, ownsManual_only_iff]
      rintro ⟨other, hother, hotherSymbol, hprofile, hotherId⟩
      obtain rfl := stores.manual_unique other hother row hrow hprofile (hotherId.trans hid.symm)
      exact hsymbol hotherSymbol
    by_cases hrow : ∃ row ∈ stores.orders, row.binanceOrderId = orderId
    · obtain ⟨row, hrow, hid⟩ := hrow
      obtain ⟨own, hmem, hownId, hsymbol⟩ := exists_ownRow h hrouted hrow hid
      have hrows : ∀ row ∈ stores.orders, row.binanceOrderId = orderId →
          row.profileId = own.profileId := fun row hrow hid =>
        same_owner h hmem hownId hsymbol hrow hid
      refine .inl ⟨own, hmem, hownId, hsymbol, hrows, ?_⟩
      intro manual hmanual hmanualId hmanualSymbol
      obtain ⟨howns, hnot⟩ := hforeign manual hmanual hmanualId hmanualSymbol
      obtain ⟨found, hfound, hpasses⟩ := (h.adoption manual.profileId
        (stores.manual_owner_mem manual hmanual) true).mp
          ⟨some own, ⟨hmem, hownId⟩, by simp [passesOrigin, howns]⟩
      cases found with
      | none =>
          refine absurd hownId (hfound own (List.mem_filter.mpr ⟨hmem, by simp [hsymbol]⟩))
      | some found =>
          have hfoundOwner := hrows found (List.mem_filter.mp hfound.1).1 hfound.2
          simp only [passesOrigin, hnot, Bool.or_false, Option.any_some, beq_iff_eq,
            hfoundOwner] at hpasses
          exact hpasses
    · have hrows : ∀ row ∈ stores.orders, row.binanceOrderId ≠ orderId := by
        intro row hmem hid
        exact hrow ⟨row, hmem, hid⟩
      have honlyRows : ∀ row ∈ (stores.only symbol).orders, row.binanceOrderId ≠ orderId :=
        fun row hmem => hrows row (List.mem_filter.mp hmem).1
      refine .inr ⟨hrows, ?_, ?_⟩
      · intro manual hmanual hid
        by_contra hsymbol
        obtain ⟨howns, hnot⟩ := hforeign manual hmanual hid hsymbol
        have hadmits := (h.adoption manual.profileId
          (stores.manual_owner_mem manual hmanual) true).mp ((admits_iff_of_no_row hrows).mpr howns)
        cases hnot.symm.trans ((admits_iff_of_no_row honlyRows).mp hadmits)
      · intro a ha b hb hida hidb
        have hown : ∀ row ∈ stores.manualOrders, row.binanceOrderId = orderId →
            Verdict stores (marked none) row.profileId ⟨symbol, orderId, "a"⟩ .own := by
          intro row hrow hid
          rw [verdict_iff_of_no_row hrows, classifyOrder_unmarked,
            if_pos (ownsManual_iff.mpr ⟨row, hrow, rfl, hid⟩)]
        exact h.oneOwner "a" (marked none) (marked none) ⟨rfl, .inl (List.Sublist.refl _)⟩ _
          (stores.manual_owner_mem a ha) _ (stores.manual_owner_mem b hb) (hown a ha hida)
          (hown b hb hidb)

/--
A report is judged, adopted and settled on evidence about its own order exactly
where no row of another symbol with the same id says anything about it.
-/
theorem judgedAlone_iff (hrouted : stores.profiles ≠ []) :
    JudgedAlone stores symbol orderId ↔ IdNamesOrder stores symbol orderId := by
  constructor
  · intro h
    exact idNamesOrder_of_judgedAlone h hrouted
  · rintro ⟨hsettled, ⟨own, hown⟩ | hnone⟩
    · exact judgedAlone_of_ownRow hown hsettled
    · exact judgedAlone_of_noRow hnone

end Evidence

/-- An account of two profiles, the first of which has a resting stop of id 7. -/
def restingStop : OrderStores where
  profiles := ["a", "b"]
  orders := [⟨"BTCUSDT", .sell, 7, some "a", "NEW", none, none⟩]
  manualOrders := []
  owner_mem := by decide
  order_unique := by decide
  manual_owner_mem := by decide
  manual_unique := by decide

/-- A report on the stop itself is judged alone. -/
theorem restingStop_judgedAlone :
    restingStop.profiles ≠ [] ∧ JudgedAlone restingStop "BTCUSDT" 7 := by
  have hrouted : restingStop.profiles ≠ [] := by decide
  refine ⟨hrouted, (judgedAlone_iff hrouted).mpr ⟨?_, .inl ⟨_, List.mem_cons_self, rfl, rfl,
    by decide, by decide⟩⟩⟩
  intro row hrow _ hsymbol
  obtain rfl := List.mem_singleton.mp hrow
  exact absurd rfl hsymbol

/-- A report on order 7 of another symbol, which the second profile placed, goes to the first. -/
theorem foreign_stop_takes_report :
    Verdict restingStop (marked (some "b")) "a" ⟨"ETHUSDT", 7, "a"⟩ .own ∧
      Verdict (restingStop.only "ETHUSDT") (marked (some "b")) "b" ⟨"ETHUSDT", 7, "a"⟩ .own ∧
      ¬JudgedAlone restingStop "ETHUSDT" 7 := by
  refine ⟨⟨some _, ⟨List.mem_cons_self, rfl⟩, rfl⟩, ?_, ?_⟩
  · rw [verdict_iff_of_no_row (by decide), classifyOrder_marked, if_pos rfl]
  · intro h
    obtain ⟨own, hown, -, hsymbol⟩ := exists_ownRow h (by decide) List.mem_cons_self rfl
    obtain rfl := List.mem_singleton.mp hown
    exact absurd hsymbol (by decide)

end TradingBot.Worker

import TradingBot.Backtest.Conservation

/-!
# What one symbol's orders touch

A candle of a symbol, or an order placed on it, adds trades, fills to read and
refusals of that symbol only, and orders of that symbol only. The candle model
never fills or refuses an order at its placement.
-/

namespace TradingBot.Backtest

open InsertionMap

/-- A trade as the run loop reads it. -/
def BacktestTrade.fill (t : BacktestTrade) : DrainedFill := ⟨t.symbol, t.side, t.price, t.qty⟩

namespace BacktestExecutor

/-- The second executor adds trades, unread fills and refusals of the symbol to the first. -/
structure Extends (symbol : String) (ex ex' : BacktestExecutor) : Prop where
  trades : ∃ new : List BacktestTrade, (∀ t ∈ new, t.symbol = symbol) ∧
    ex'.trades = ex.trades ++ new ∧
    ex'.pendingFills = ex.pendingFills ++ new.map BacktestTrade.fill
  rejected : ∀ entry ∈ ex'.rejected, entry ∈ ex.rejected ∨ entry.2 = symbol

/-- Every order of the second list is one of the symbol or of the first list. -/
def AddsOrders (symbol : String) (book next : List RestingOrder) : Prop :=
  ∀ ord ∈ next, ord.symbol = symbol ∨ ord ∈ book

variable {x : Exchange} {ex ex' ex'' : BacktestExecutor} {symbol : String} {info : SymbolInfo}
  {ctx : MarketContext} {ord : RestingOrder} {book : List RestingOrder} {side : OrderSide}
  {reason : String} {fills : List Fill}

theorem Extends.of_same (htrades : ex'.trades = ex.trades)
    (hpending : ex'.pendingFills = ex.pendingFills) (hrejected : ex'.rejected = ex.rejected) :
    Extends symbol ex ex' where
  trades := ⟨[], List.forall_mem_nil _, by simpa using htrades, by simpa using hpending⟩
  rejected := by
    intro entry hentry
    rw [hrejected] at hentry
    exact .inl hentry

theorem Extends.trans (h : Extends symbol ex ex') (h' : Extends symbol ex' ex'') :
    Extends symbol ex ex'' where
  trades := by
    obtain ⟨new, hnew, htrades, hpending⟩ := h.trades
    obtain ⟨new', hnew', htrades', hpending'⟩ := h'.trades
    refine ⟨new ++ new', ?_, ?_, ?_⟩
    · intro t ht
      rcases List.mem_append.mp ht with ht | ht
      · exact hnew t ht
      · exact hnew' t ht
    · rw [htrades', htrades, List.append_assoc]
    · rw [hpending', hpending, List.append_assoc, List.map_append]
  rejected := by
    intro entry hentry
    rcases h'.rejected entry hentry with hentry | hentry
    · exact h.rejected entry hentry
    · exact .inr hentry

theorem Extends.reject : Extends symbol ex (ex.reject side symbol) where
  trades := ⟨[], List.forall_mem_nil _, (List.append_nil _).symm, (List.append_nil _).symm⟩
  rejected := by
    intro entry hentry
    rw [BacktestExecutor.reject] at hentry
    dsimp only at hentry
    split at hentry
    · exact .inl hentry
    · rcases List.mem_append.mp hentry with hentry | hentry
      · exact .inl hentry
      · rw [List.mem_singleton.mp hentry]
        exact .inr rfl

theorem Extends.applyFills (hinfo : x.symbols symbol = some info) :
    Extends symbol ex (ex.applyFills side reason info fills) := by
  induction fills generalizing ex with
  | nil => exact Extends.of_same rfl rfl rfl
  | cons fill rest ih =>
      have hone : Extends symbol ex (ex.applyFill side reason info fill) := by
        refine ⟨⟨_, ?_, rfl, rfl⟩, fun entry hentry => .inl hentry⟩
        intro t ht
        rw [List.mem_singleton.mp ht]
        exact Exchange.symbols_name hinfo
      exact hone.trans ih

/-! ### Candles -/

theorem evaluateOrder_extends {done : Evaluated} (hinfo : x.symbols symbol = some info)
    (hdone : ex.evaluateOrder x ctx info symbol ord = some done) :
    Extends symbol ex done.executor ∧ ∀ kept ∈ done.kept, kept.symbol = ord.symbol := by
  obtain ⟨outcome, -, hdone⟩ := Option.bind_eq_some_iff.mp hdone
  have hreleased : Extends symbol ex (ex.unlock ord.reservedAsset ord.reservedAmount) :=
    Extends.of_same rfl rfl rfl
  cases outcome with
  | rest armed =>
      cases hdone
      refine ⟨Extends.of_same rfl rfl rfl, ?_⟩
      intro kept hkept
      cases hkept
      rfl
  | rejected reason =>
      cases hdone
      refine ⟨hreleased.trans Extends.reject, ?_⟩
      intro kept hkept
      cases hkept
  | filled fills =>
      cases hdone
      refine ⟨hreleased.trans (Extends.applyFills hinfo), ?_⟩
      intro kept hkept
      cases hkept
  | partialFill fills remainingQty =>
      obtain ⟨reservation, -, hdone⟩ := Option.bind_eq_some_iff.mp hdone
      cases hdone
      have hsettled := hreleased.trans
        (@Extends.applyFills x _ _ info ord.intent.side ord.intent.reason fills hinfo)
      refine ⟨hsettled.trans (Extends.of_same rfl rfl rfl), ?_⟩
      intro kept hkept
      cases hkept
      rfl

theorem evaluateBook_extends {pass : BookPass} (hinfo : x.symbols symbol = some info)
    (hpass : evaluateBook x ctx info symbol book ex = some pass) :
    Extends symbol ex pass.executor ∧ AddsOrders symbol book pass.next := by
  induction book generalizing ex pass with
  | nil =>
      cases hpass
      exact ⟨Extends.of_same rfl rfl rfl, fun ord hord => absurd hord List.not_mem_nil⟩
  | cons ord rest ih =>
      rcases BacktestExecutor.evaluateBook_cons hpass with ⟨-, later, hlater, rfl⟩ |
        ⟨hsymbol, done, later, hdone, hlater, rfl⟩
      · obtain ⟨hextends, horders⟩ := ih hlater
        refine ⟨hextends, ?_⟩
        intro other hother
        rcases List.mem_cons.mp hother with rfl | hother
        · exact .inr List.mem_cons_self
        · exact (horders other hother).imp_right (List.mem_cons_of_mem ord)
      · obtain ⟨hhead, hkept⟩ := evaluateOrder_extends hinfo hdone
        obtain ⟨hextends, horders⟩ := ih hlater
        refine ⟨hhead.trans hextends, ?_⟩
        intro other hother
        rcases List.mem_append.mp hother with hother | hother
        · have hsame := hkept other (Option.mem_toList.mp hother)
          exact .inl (hsame.trans (hsymbol))
        · exact (horders other hother).imp_right (List.mem_cons_of_mem ord)

theorem setMarketContext_extends (hset : ex.setMarketContext x symbol ctx = some ex') :
    Extends symbol ex ex' ∧ AddsOrders symbol ex.restingOrders ex'.restingOrders := by
  obtain ⟨pass, hpass, rfl⟩ := Option.map_eq_some_iff.mp hset
  rcases evaluateResting_cases hpass with rfl | ⟨ctx, info, hinfo, -, hpass⟩
  · exact ⟨Extends.of_same rfl rfl rfl, fun ord hord => .inr hord⟩
  · obtain ⟨hextends, horders⟩ := evaluateBook_extends hinfo hpass
    exact ⟨⟨hextends.trades, hextends.rejected⟩, horders⟩

theorem setMarketContext_idle (hidle : ∀ ord ∈ ex.restingOrders, ord.symbol ≠ symbol) :
    ex.setMarketContext x symbol ctx = some { ex with market := set symbol ctx ex.market } := by
  have hnone : (ex.restingOrders.any fun ord => ord.symbol = symbol) = false := by
    simpa using hidle
  have hpass : ex.meetCandle x symbol ctx =
      some ⟨{ ex with market := set symbol ctx ex.market }, ex.restingOrders, []⟩ := by
    unfold meetCandle evaluateResting
    split
    · simp [hnone]
    · rfl
  rw [setMarketContext, hpass]
  rfl

/-! ### Decisions -/

variable {nowMs : ℤ} {intent : OrderIntent} {params : OrderParams} {result : DecisionResult}
  {decision : Decision}

/-- The order a decision sends, if it sends one. -/
def orderOf : Decision → Option OrderIntent
  | .placeOrder intent _ | .replaceOrder _ intent _ => some intent
  | _ => none

theorem placeOrder_extends (hplaced : ex.placeOrder x nowMs intent params = some (ex', result)) :
    Extends intent.symbol ex ex' ∧
      AddsOrders intent.symbol ex.restingOrders ex'.restingOrders := by
  unfold placeOrder at hplaced
  split at hplaced
  · cases hplaced
    exact ⟨Extends.of_same rfl rfl rfl, fun ord hord => .inr hord⟩
  next info hinfo =>
  split at hplaced
  · cases hplaced
    exact ⟨Extends.of_same rfl rfl rfl, fun ord hord => .inr hord⟩
  next market hmarket =>
  obtain ⟨outcome, -, hplaced⟩ := Option.bind_eq_some_iff.mp hplaced
  have hfills : ∀ fills, Extends intent.symbol ex
        (ex.applyFills intent.side intent.reason info fills) ∧
      AddsOrders intent.symbol ex.restingOrders
        (ex.applyFills intent.side intent.reason info fills).restingOrders := by
    intro fills
    refine ⟨Extends.applyFills hinfo, ?_⟩
    rw [applyFills_frame.1]
    exact fun ord hord => .inr hord
  cases outcome with
  | rest armed =>
      obtain ⟨rested, hrested, hplaced⟩ := Option.bind_eq_some_iff.mp hplaced
      cases hplaced
      obtain ⟨reservation, -, hrested⟩ := Option.bind_eq_some_iff.mp hrested
      cases hrested
      refine ⟨Extends.of_same rfl rfl rfl, ?_⟩
      intro ord hord
      rcases List.mem_append.mp hord with hord | hord
      · exact .inr hord
      · rw [List.mem_singleton.mp hord]
        exact .inl rfl
  | rejected reason =>
      cases hplaced
      exact ⟨Extends.reject, fun ord hord => .inr hord⟩
  | filled fills =>
      cases hplaced
      exact hfills fills
  | partialFill fills remainingQty =>
      cases hplaced
      exact hfills fills

theorem cancel_extends (orderId : ℕ) :
    Extends symbol ex (ex.cancel orderId) ∧
      AddsOrders symbol ex.restingOrders (ex.cancel orderId).restingOrders := by
  refine ⟨?_, fun ord hord => .inr (List.mem_of_mem_filter hord)⟩
  unfold cancel
  split
  · exact Extends.of_same rfl rfl rfl
  · exact Extends.of_same rfl rfl rfl

theorem apply_extends (happlied : ex.apply x nowMs decision = some (ex', result))
    (hown : ∀ intent ∈ orderOf decision, intent.symbol = symbol) :
    Extends symbol ex ex' ∧ AddsOrders symbol ex.restingOrders ex'.restingOrders := by
  have hsame : ∀ {ex' : BacktestExecutor}, ex'.trades = ex.trades →
      ex'.pendingFills = ex.pendingFills → ex'.rejected = ex.rejected →
      ex'.restingOrders = ex.restingOrders →
      Extends symbol ex ex' ∧ AddsOrders symbol ex.restingOrders ex'.restingOrders := by
    intro ex' htrades hpending hrejected horders
    refine ⟨Extends.of_same htrades hpending hrejected, ?_⟩
    intro ord hord
    rw [horders] at hord
    exact .inr hord
  have hreplaced : ∀ {cancelOrderId : ℕ} {intent : OrderIntent} {params : OrderParams},
      intent.symbol = symbol →
      (ex.cancel cancelOrderId).placeOrder x nowMs intent params = some (ex', result) →
      Extends symbol ex ex' ∧ AddsOrders symbol ex.restingOrders ex'.restingOrders := by
    intro cancelOrderId intent params hname hplaced
    obtain ⟨hcancelled, hleft⟩ := @cancel_extends ex symbol cancelOrderId
    obtain ⟨hextends, horders⟩ := placeOrder_extends hplaced
    rw [hname] at hextends horders
    refine ⟨hcancelled.trans hextends, ?_⟩
    intro ord hord
    rcases horders ord hord with hord | hord
    · exact .inl hord
    · exact hleft ord hord
  cases decision with
  | noop =>
      cases happlied
      exact hsame rfl rfl rfl rfl
  | placeOrder intent params =>
      have hname := hown intent rfl
      rw [← hname]
      exact placeOrder_extends happlied
  | cancelOrder orderId =>
      cases happlied
      exact cancel_extends orderId
  | replaceOrder cancelOrderId intent params =>
      have hname := hown intent rfl
      rw [apply] at happlied
      split at happlied
      · exact hreplaced hname happlied
      · split at happlied
        · cases happlied
          exact hsame rfl rfl rfl rfl
        · exact hreplaced hname happlied
  | emitEvent eventType payload =>
      cases happlied
      exact hsame rfl rfl rfl rfl
  | setKv key value =>
      cases happlied
      exact hsame rfl rfl rfl rfl
  | deleteKv key =>
      cases happlied
      exact hsame rfl rfl rfl rfl

theorem exists_apply_extends (happlied : ex.apply x nowMs decision = some (ex', result)) :
    ∃ symbol, Extends symbol ex ex' := by
  cases horder : orderOf decision with
  | none =>
      have hown : ∀ intent ∈ orderOf decision, intent.symbol = "" := by
        intro intent hintent
        rw [horder] at hintent
        cases hintent
      exact ⟨"", (apply_extends happlied hown).1⟩
  | some intent =>
      have hown : ∀ other ∈ orderOf decision, other.symbol = intent.symbol := by
        intro other hother
        rw [horder] at hother
        cases hother
        rfl
      exact ⟨intent.symbol, (apply_extends happlied hown).1⟩

end BacktestExecutor

end TradingBot.Backtest

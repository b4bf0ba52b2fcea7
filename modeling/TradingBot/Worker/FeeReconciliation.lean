import Mathlib.Data.List.Sort
import TradingBot.Worker.CertifiedFees

/-!
# Reconciling fees

A pass lists the newest archived rows whose fee is unknown and resolves them one
by one against pages of the account's trades, while rows are archived and
deleted beside it. The passes of a profile run one after the other. A row whose
fee is certified is never written again, and a pass certifies a row only on
whole evidence. Prices, fees and rates are exact rationals.
-/

namespace TradingBot.Worker

open InsertionMap
open Contracts (FeeBasis)

/-- A row of `trade_archive`, as the reconciliation reads and writes it. -/
structure FeeRow where
  id : String
  archivedAt : ℤ
  symbol : String
  baseAsset : String
  quoteAsset : String
  orders : Json
  fees : List (String × Json)
  feesQuote : String
  feeBasis : FeeBasis

/-! ### Evidence from archived orders -/

def isNullish : Json → Bool
  | .undefined | .null => true
  | _ => false

/-- `a ?? b`. -/
def coalesce (a b : Json) : Json := if isNullish a then b else a

def feeOrderOf (candidate : Json) : FeeOrderEvidence :=
  let order := (recordOf candidate).getD []
  let raw := (recordOf (fieldOf "raw" order)).getD []
  { binanceOrderId :=
      match fieldOf "binanceOrderId" order with
      | .str text => text
      | .num q => Json.numberText q
      | _ => ""
    side := asSide (fieldOf "side" order)
    executedQty := asText (coalesce (fieldOf "executedQty" order)
      (coalesce (fieldOf "qty" order) (fieldOf "executedQty" raw)))
    cummulativeQuoteQty := asText (coalesce (fieldOf "cummulativeQuoteQty" order)
      (fieldOf "cummulativeQuoteQty" raw))
    baseCommissionNetted := asText (fieldOf "baseCommissionNetted" order) }

def feeOrdersOf : Json → List FeeOrderEvidence
  | .arr orders => orders.map feeOrderOf
  | _ => []

/-! ### The table -/

def FeeRow.Newer (a b : FeeRow) : Prop := b.archivedAt ≤ a.archivedAt

instance : DecidableRel FeeRow.Newer :=
  fun a b => inferInstanceAs (Decidable (b.archivedAt ≤ a.archivedAt))

def listWithUnvaluedFees (table : List FeeRow) (limit : ℕ) : List FeeRow :=
  ((table.filter fun row => row.feeBasis = .unknown).insertionSort FeeRow.Newer).take limit

def FeeRow.withFees (row : FeeRow) (d : FeeResolutionDetails) : FeeRow :=
  { row with fees := d.fees, feesQuote := d.feesQuote, feeBasis := d.feeBasis }

def updateFees (id : String) (d : FeeResolutionDetails) (table : List FeeRow) : List FeeRow :=
  table.map fun row => if row.id = id then row.withFees d else row

def FeeRow.terms (row : FeeRow) (rates : Option QuoteCommissionRates) : FeeTerms :=
  ⟨row.symbol, row.baseAsset, row.quoteAsset, rates⟩

/-! ### A pass -/

def reconcileBatch : ℕ := 500

/-- The page covers the orders; only the value of a fee may be open. -/
def FeeResolutionDetails.Complete (d : FeeResolutionDetails) : Prop :=
  0 < d.matchedOrderIds ∧ d.missingOrderIds = 0 ∧ d.mismatchedOrders = 0 ∧ d.malformedOrders = 0 ∧
    d.malformedTrades = 0

instance (d : FeeResolutionDetails) : Decidable d.Complete := inferInstanceAs (Decidable (_ ∧ _))

/-- A pass under way: the rows still to do, the pages it has, and the rates. -/
structure FeePass where
  rows : List FeeRow
  tradesBySymbol : List (String × List Json)
  rates : CommissionRateMemo

/-- The table, the pass that is under way, every row as it was archived, every page that was read,
and every table of rates the exchange had an answer with, whether it was asked or not. -/
structure FeeWorld where
  table : List FeeRow
  pass : Option FeePass
  archived : List FeeRow
  pages : List (String × List Json)
  rateTables : List (String × Json)

/-- What the exchange answers if it is asked; no answer is a failed call. -/
structure FeeAnswers where
  trades : Option (List Json)
  rates : Option Json

inductive FeeEvent where
  | archives (row : FeeRow)
  | deletes (id : String)
  | begins (client : Bool)
  | reconciles (answers : FeeAnswers)
  | aborts

def FeeWorld.empty : FeeWorld := ⟨[], none, [], [], []⟩

/-- One row of a pass, against the page that the pass has of its symbol or that is answered now. -/
def FeeWorld.reconcile (w : FeeWorld) (p : FeePass) (row : FeeRow)
    (answers : FeeAnswers) : FeeWorld :=
  let expectedOrders := feeOrdersOf row.orders
  if expectedOrders.isEmpty then { w with pass := some p }
  else
    match (get row.symbol p.tradesBySymbol).or answers.trades with
    | none => { w with pass := some p }
    | some trades =>
        let resolved := resolveFeesFromTradesWithRates trades expectedOrders (row.terms none)
          (CommissionRateMemo.fetch answers.rates row.symbol) p.rates
        let w :=
          { w with
            pass := some
              { p with
                tradesBySymbol := set row.symbol trades p.tradesBySymbol
                rates := resolved.2 }
            pages := (row.symbol, trades) :: w.pages
            rateTables := answers.rates.toList.map (row.symbol, ·) ++ w.rateTables }
        if resolved.1.Complete then { w with table := updateFees row.id resolved.1 w.table } else w

def FeeWorld.step (w : FeeWorld) : FeeEvent → FeeWorld
  | .archives row =>
      if row.id ∈ w.archived.map (·.id) then w
      else { w with table := w.table ++ [row], archived := w.archived ++ [row] }
  | .deletes id => { w with table := w.table.filter fun row => row.id ≠ id }
  | .begins client =>
      if w.pass.isNone && client then
        { w with pass := some ⟨listWithUnvaluedFees w.table reconcileBatch, [], ⟨[], []⟩⟩ }
      else w
  | .reconciles answers =>
      match w.pass with
      | none => w
      | some p =>
          match p.rows with
          | [] => { w with pass := none }
          | row :: rest => w.reconcile { p with rows := rest } row answers
  | .aborts => { w with pass := none }

def FeeWorld.run (events : List FeeEvent) : FeeWorld := events.foldl FeeWorld.step .empty

/-! ### What a resolution rests on -/

section Rates

variable {σ : Type} {trades : List Json} {orders : List FeeOrderEvidence} {terms : FeeTerms}

theorem resolveWithRates_cases (fetchRates : σ → Option QuoteCommissionRates × σ) (s : σ) :
    ∃ rates, (resolveFeesFromTradesWithRates trades orders terms fetchRates s).1 =
        resolveFeesFromTrades trades orders { terms with rates } ∧
      ((rates = none ∧ (resolveFeesFromTradesWithRates trades orders terms fetchRates s).2 = s) ∨
        (rates = (fetchRates s).1 ∧
          (resolveFeesFromTradesWithRates trades orders terms fetchRates s).2 =
            (fetchRates s).2)) := by
  unfold resolveFeesFromTradesWithRates
  dsimp only
  split
  · exact ⟨none, rfl, .inl ⟨rfl, rfl⟩⟩
  · cases hfetch : fetchRates s with
    | mk rates after =>
        cases rates with
        | none => exact ⟨none, rfl, .inr ⟨rfl, rfl⟩⟩
        | some rates => exact ⟨some rates, rfl, .inr ⟨rfl, rfl⟩⟩

/-- Rates that an answered table states. -/
def Told (tables : List (String × Json)) (symbol : String) (rates : Option QuoteCommissionRates) :
    Prop :=
  rates = none ∨ ∃ payload, (symbol, payload) ∈ tables ∧ parseCommissionRates payload = rates

/-- The rates a pass keeps were told, and each was asked for once. -/
structure CommissionRateMemo.Sound (m : CommissionRateMemo) (tables : List (String × Json)) :
    Prop where
  told : ∀ symbol rates, get symbol m.memo = some rates → Told tables symbol rates
  calls : ∀ symbol, symbol ∈ m.calls → symbol ∈ keys m.memo
  once : m.calls.Nodup

theorem Told.mono {tables tables' : List (String × Json)} {symbol : String}
    {rates : Option QuoteCommissionRates} (h : Told tables symbol rates)
    (hsub : ∀ entry ∈ tables, entry ∈ tables') : Told tables' symbol rates := by
  rcases h with rfl | ⟨payload, hmem, hparse⟩
  · exact .inl rfl
  · exact .inr ⟨payload, hsub _ hmem, hparse⟩

theorem CommissionRateMemo.Sound.mono {m : CommissionRateMemo}
    {tables tables' : List (String × Json)}
    (h : m.Sound tables) (hsub : ∀ entry ∈ tables, entry ∈ tables') : m.Sound tables' :=
  ⟨fun symbol rates hget => (h.told symbol rates hget).mono hsub, h.calls, h.once⟩

theorem CommissionRateMemo.Sound.fetch {m : CommissionRateMemo} {tables : List (String × Json)}
    (h : m.Sound tables) (answer : Option Json) (symbol : String) :
    Told (answer.toList.map (symbol, ·) ++ tables) symbol (m.fetch answer symbol).1 ∧
      (m.fetch answer symbol).2.Sound (answer.toList.map (symbol, ·) ++ tables) := by
  have hsub : ∀ entry ∈ tables, entry ∈ answer.toList.map (symbol, ·) ++ tables :=
    fun entry hentry => List.mem_append_right _ hentry
  unfold CommissionRateMemo.fetch
  cases hmemo : get symbol m.memo with
  | some rates => exact ⟨(h.told symbol rates hmemo).mono hsub, h.mono hsub⟩
  | none =>
      have htold : Told (answer.toList.map (symbol, ·) ++ tables) symbol
          (answer.bind parseCommissionRates) := by
        cases answer with
        | none => exact .inl rfl
        | some payload => exact .inr ⟨payload, List.mem_cons_self, rfl⟩
      have hnew : symbol ∉ keys m.memo := get_eq_none.mp hmemo
      refine ⟨htold, ?_, ?_, List.nodup_cons.mpr ⟨fun hmem => hnew (h.calls symbol hmem), h.once⟩⟩
      · intro other rates hget
        dsimp only at hget
        by_cases hother : other = symbol
        · subst hother
          rw [get_set_self] at hget
          obtain rfl := Option.some.inj hget
          exact htold
        · rw [get_set_other hother] at hget
          exact (h.told other rates hget).mono hsub
      · intro other hmem
        rw [mem_keys_set]
        rcases List.mem_cons.mp hmem with rfl | hmem
        · exact .inl rfl
        · exact .inr (h.calls other hmem)

end Rates

/-! ### Runs -/

section Runs

variable {w : FeeWorld} {p : FeePass} {row first pending : FeeRow}

/-- A row that a pass has settled: its fee is what a page of its symbol resolves to that covers its
orders. -/
def FeeRow.Settled (row first : FeeRow) (pages : List (String × List Json))
    (tables : List (String × Json)) : Prop :=
  ∃ page rates, (first.symbol, page) ∈ pages ∧ Told tables first.symbol rates ∧
    (resolveFeesFromTrades page (feeOrdersOf first.orders) (first.terms rates)).Complete ∧
    row = first.withFees
      (resolveFeesFromTrades page (feeOrdersOf first.orders) (first.terms rates))

/-- A row stands as it was archived, or was archived with an unknown fee and is settled. -/
def FeeWorld.Accounts (w : FeeWorld) (row : FeeRow) : Prop :=
  row ∈ w.archived ∨ ∃ first ∈ w.archived, first.feeBasis = .unknown ∧
    row.Settled first w.pages w.rateTables

/-- The rows a pass has still to do stand in the table as they were listed, with an unknown fee. -/
structure FeeWorld.Awaits (w : FeeWorld) (rows : List FeeRow) : Prop where
  distinct : (rows.map (·.id)).Nodup
  unknown : ∀ pending ∈ rows, pending.feeBasis = .unknown
  unchanged : ∀ pending ∈ rows, ∀ row ∈ w.table, row.id = pending.id → row = pending
  known : ∀ pending ∈ rows, pending.id ∈ w.archived.map (·.id)

structure FeeWorld.Inv (w : FeeWorld) : Prop where
  distinct : (w.table.map (·.id)).Nodup
  known : ∀ row ∈ w.table, row.id ∈ w.archived.map (·.id)
  accounts : ∀ row ∈ w.table, w.Accounts row
  awaits : ∀ p ∈ w.pass, w.Awaits p.rows
  pages : ∀ p ∈ w.pass, ∀ symbol page, get symbol p.tradesBySymbol = some page →
    (symbol, page) ∈ w.pages
  rates : ∀ p ∈ w.pass, p.rates.Sound w.rateTables

theorem FeeRow.Settled.mono {pages pages' : List (String × List Json)}
    {tables tables' : List (String × Json)} (h : row.Settled first pages tables)
    (hpages : ∀ entry ∈ pages, entry ∈ pages') (htables : ∀ entry ∈ tables, entry ∈ tables') :
    row.Settled first pages' tables' := by
  obtain ⟨page, rates, hpage, htold, hcomplete, hrow⟩ := h
  exact ⟨page, rates, hpages _ hpage, htold.mono htables, hcomplete, hrow⟩

theorem mem_updateFees {id : String} {d : FeeResolutionDetails} {table : List FeeRow}
    (h : row ∈ updateFees id d table) :
    (row ∈ table ∧ row.id ≠ id) ∨ ∃ old ∈ table, old.id = id ∧ row = old.withFees d := by
  obtain ⟨old, hold, rfl⟩ := List.mem_map.mp h
  split
  · next hid => exact .inr ⟨old, hold, hid, rfl⟩
  · next hid => exact .inl ⟨hold, hid⟩

theorem map_id_updateFees (id : String) (d : FeeResolutionDetails) (table : List FeeRow) :
    (updateFees id d table).map (·.id) = table.map (·.id) := by
  rw [updateFees, List.map_map]
  apply List.map_congr_left
  intro row _
  dsimp only [Function.comp]
  split <;> rfl

theorem awaits_listed (hdistinct : (w.table.map (·.id)).Nodup)
    (hknown : ∀ row ∈ w.table, row.id ∈ w.archived.map (·.id)) (limit : ℕ) :
    w.Awaits (listWithUnvaluedFees w.table limit) := by
  have hlisted : ∀ row ∈ listWithUnvaluedFees w.table limit,
      row ∈ w.table ∧ row.feeBasis = .unknown := by
    intro row hrow
    have hfiltered := (List.mem_insertionSort FeeRow.Newer).mp (List.mem_of_mem_take hrow)
    obtain ⟨hmem, hbasis⟩ := List.mem_filter.mp hfiltered
    exact ⟨hmem, of_decide_eq_true hbasis⟩
  refine ⟨?_, fun row hrow => (hlisted row hrow).2, ?_,
    fun row hrow => hknown row (hlisted row hrow).1⟩
  · have hsorted : (((w.table.filter fun row => row.feeBasis = .unknown).insertionSort
        FeeRow.Newer).map (·.id)).Nodup := by
      rw [((List.perm_insertionSort FeeRow.Newer _).map _).nodup_iff]
      exact hdistinct.sublist (List.filter_sublist.map _)
    exact hsorted.sublist ((List.take_sublist _ _).map _)
  · intro pending hpending row hrow hid
    exact List.inj_on_of_nodup_map hdistinct hrow (hlisted pending hpending).1 hid

theorem FeeWorld.Accounts.settle {page : List Json} {rates : Option QuoteCommissionRates}
    (h : w.Accounts row) (hunknown : row.feeBasis = .unknown)
    (hpage : (row.symbol, page) ∈ w.pages) (htold : Told w.rateTables row.symbol rates)
    (hcomplete : (resolveFeesFromTrades page (feeOrdersOf row.orders) (row.terms rates)).Complete) :
    w.Accounts (row.withFees
      (resolveFeesFromTrades page (feeOrdersOf row.orders) (row.terms rates))) := by
  right
  rcases h with hrow | ⟨first, hfirst, hbasis, _, _, _, _, _, rfl⟩
  · exact ⟨row, hrow, hunknown, page, rates, hpage, htold, hcomplete, rfl⟩
  · exact ⟨first, hfirst, hbasis, page, rates, hpage, htold, hcomplete, rfl⟩

theorem FeeWorld.Awaits.tail {rest : List FeeRow} (h : w.Awaits (pending :: rest)) :
    w.Awaits rest where
  distinct := (List.nodup_cons.mp h.distinct).2
  unknown row hrow := h.unknown row (List.mem_cons_of_mem _ hrow)
  unchanged row hrow := h.unchanged row (List.mem_cons_of_mem _ hrow)
  known row hrow := h.known row (List.mem_cons_of_mem _ hrow)

theorem FeeWorld.Inv.reconcile {rest : List FeeRow} (h : w.Inv) (hpass : w.pass = some p)
    (hrows : p.rows = pending :: rest) (answers : FeeAnswers) :
    (w.reconcile { p with rows := rest } pending answers).Inv := by
  have hawaits := h.awaits p hpass
  rw [hrows] at hawaits
  -- the rows still to do wait for as long as the table and the archive are the same
  have hidle : FeeWorld.Inv { w with pass := some { p with rows := rest } } := by
    refine ⟨h.distinct, h.known, h.accounts, ?_, ?_, ?_⟩
    · intro q hq
      obtain rfl := Option.some.inj hq
      exact ⟨hawaits.tail.distinct, hawaits.tail.unknown, hawaits.tail.unchanged,
        hawaits.tail.known⟩
    · intro q hq
      obtain rfl := Option.some.inj hq
      exact h.pages p hpass
    · intro q hq
      obtain rfl := Option.some.inj hq
      exact h.rates p hpass
  unfold FeeWorld.reconcile
  dsimp only
  split
  · exact hidle
  · split
    · exact hidle
    · next page hpage =>
        obtain ⟨rates, hresolved, hmemo⟩ := @resolveWithRates_cases _ page
          (feeOrdersOf pending.orders) (pending.terms none)
          (CommissionRateMemo.fetch answers.rates pending.symbol) p.rates
        generalize resolveFeesFromTradesWithRates page (feeOrdersOf pending.orders)
          (pending.terms none) (CommissionRateMemo.fetch answers.rates pending.symbol) p.rates =
            resolved at hresolved hmemo
        obtain ⟨htold, hsound⟩ := (h.rates p hpass).fetch answers.rates pending.symbol
        have hrates : ∀ entry ∈ w.rateTables,
            entry ∈ answers.rates.toList.map (pending.symbol, ·) ++ w.rateTables :=
          fun entry hentry => List.mem_append_right _ hentry
        have hmono : ∀ row, w.Accounts row →
            FeeWorld.Accounts
              { w with
                pages := (pending.symbol, page) :: w.pages
                rateTables :=
                  answers.rates.toList.map (pending.symbol, ·) ++ w.rateTables } row := by
          rintro row (hrow | ⟨first, hfirst, hbasis, hsettled⟩)
          · exact .inl hrow
          · exact .inr ⟨first, hfirst, hbasis,
              hsettled.mono (fun entry hentry => List.mem_cons_of_mem _ hentry) hrates⟩
        have hpages : ∀ symbol other,
            get symbol (set pending.symbol page p.tradesBySymbol) = some other →
              (symbol, other) ∈ (pending.symbol, page) :: w.pages := by
          intro symbol other hget
          by_cases hsymbol : symbol = pending.symbol
          · subst hsymbol
            rw [get_set_self] at hget
            obtain rfl := Option.some.inj hget
            exact List.mem_cons_self
          · rw [get_set_other hsymbol] at hget
            exact List.mem_cons_of_mem _ (h.pages p hpass symbol other hget)
        have hkeeps : resolved.2.Sound
            (answers.rates.toList.map (pending.symbol, ·) ++ w.rateTables) := by
          rcases hmemo with ⟨-, hmemo⟩ | ⟨-, hmemo⟩
          · rw [hmemo]
            exact (h.rates p hpass).mono hrates
          · rw [hmemo]
            exact hsound
        split
        · next hcomplete =>
            have hupdated : ∀ row ∈ updateFees pending.id resolved.1 w.table,
                (row ∈ w.table ∧ row.id ≠ pending.id) ∨
                  pending ∈ w.table ∧ row = pending.withFees resolved.1 := by
              intro row hrow
              rcases mem_updateFees hrow with hold | ⟨old, hold, hid, rfl⟩
              · exact .inl hold
              · obtain rfl := hawaits.unchanged pending List.mem_cons_self old hold hid
                exact .inr ⟨hold, rfl⟩
            refine ⟨?_, ?_, ?_, ?_, ?_, ?_⟩
            · dsimp only
              rw [map_id_updateFees]
              exact h.distinct
            · intro row hrow
              rcases hupdated row hrow with ⟨hold, -⟩ | ⟨hold, rfl⟩
              · exact h.known row hold
              · exact h.known pending hold
            · intro row hrow
              rcases hupdated row hrow with ⟨hold, -⟩ | ⟨hold, rfl⟩
              · exact hmono row (h.accounts row hold)
              · rw [hresolved] at hcomplete ⊢
                refine (hmono pending (h.accounts pending hold)).settle
                  (hawaits.unknown pending List.mem_cons_self) List.mem_cons_self ?_ hcomplete
                rcases hmemo with ⟨rfl, -⟩ | ⟨rfl, -⟩
                · exact .inl rfl
                · exact htold
            · intro q hq
              obtain rfl := Option.some.inj hq
              refine ⟨hawaits.tail.distinct, hawaits.tail.unknown, ?_, hawaits.tail.known⟩
              intro other hother row hrow hid
              rcases hupdated row hrow with ⟨hold, -⟩ | ⟨-, rfl⟩
              · exact hawaits.tail.unchanged other hother row hold hid
              · exfalso
                have hfresh : pending.id ∉ rest.map (·.id) :=
                  (List.nodup_cons.mp hawaits.distinct).1
                have hsame : pending.id = other.id := hid
                rw [hsame] at hfresh
                exact hfresh (List.mem_map_of_mem hother)
            · intro q hq
              obtain rfl := Option.some.inj hq
              exact hpages
            · intro q hq
              obtain rfl := Option.some.inj hq
              exact hkeeps
        · refine ⟨h.distinct, h.known, fun row hrow => hmono row (h.accounts row hrow), ?_, ?_, ?_⟩
          · intro q hq
            obtain rfl := Option.some.inj hq
            exact ⟨hawaits.tail.distinct, hawaits.tail.unknown, hawaits.tail.unchanged,
              hawaits.tail.known⟩
          · intro q hq
            obtain rfl := Option.some.inj hq
            exact hpages
          · intro q hq
            obtain rfl := Option.some.inj hq
            exact hkeeps

theorem FeeWorld.Inv.step (h : w.Inv) (event : FeeEvent) : (w.step event).Inv := by
  cases event with
  | archives row =>
      unfold FeeWorld.step
      dsimp only
      split
      · exact h
      · next hfresh =>
          have hmono : ∀ row', w.Accounts row' → FeeWorld.Accounts
              { w with table := w.table ++ [row], archived := w.archived ++ [row] } row' := by
            rintro row' (hrow | ⟨first, hfirst, hsettled⟩)
            · exact .inl (List.mem_append_left _ hrow)
            · exact .inr ⟨first, List.mem_append_left _ hfirst, hsettled⟩
          have hids : ∀ id ∈ w.archived.map (·.id), id ∈ (w.archived ++ [row]).map (·.id) := by
            intro id hid
            rw [List.map_append]
            exact List.mem_append_left _ hid
          refine ⟨?_, ?_, ?_, ?_, h.pages, h.rates⟩
          · dsimp only
            rw [List.map_append, List.nodup_append]
            refine ⟨h.distinct, List.nodup_singleton _, ?_⟩
            intro id hid other hother heq
            obtain ⟨old, hold, rfl⟩ := List.mem_map.mp hid
            obtain rfl := List.mem_singleton.mp hother
            have hsame : old.id = row.id := heq
            rw [← hsame] at hfresh
            exact hfresh (h.known old hold)
          · intro row' hrow
            rcases List.mem_append.mp hrow with hrow | hrow
            · exact hids _ (h.known row' hrow)
            · obtain rfl := List.mem_singleton.mp hrow
              exact List.mem_map_of_mem (List.mem_append_right _ List.mem_cons_self)
          · intro row' hrow
            rcases List.mem_append.mp hrow with hrow | hrow
            · exact hmono row' (h.accounts row' hrow)
            · obtain rfl := List.mem_singleton.mp hrow
              exact .inl (List.mem_append_right _ List.mem_cons_self)
          · intro p hp
            have hawaits := h.awaits p hp
            refine ⟨hawaits.distinct, hawaits.unknown, ?_, fun q hq => hids _ (hawaits.known q hq)⟩
            intro pending hpending row' hrow hid
            rcases List.mem_append.mp hrow with hrow | hrow
            · exact hawaits.unchanged pending hpending row' hrow hid
            · obtain rfl := List.mem_singleton.mp hrow
              exact absurd (hid ▸ hawaits.known pending hpending) hfresh
  | deletes id =>
      have hsub : ∀ row ∈ w.table.filter (fun row => row.id ≠ id), row ∈ w.table :=
        fun row hrow => List.mem_of_mem_filter hrow
      refine ⟨h.distinct.sublist (List.filter_sublist.map _),
        fun row hrow => h.known row (hsub row hrow),
        fun row hrow => h.accounts row (hsub row hrow), ?_, h.pages, h.rates⟩
      intro p hp
      have hawaits := h.awaits p hp
      exact ⟨hawaits.distinct, hawaits.unknown,
        fun pending hpending row hrow => hawaits.unchanged pending hpending row (hsub row hrow),
        hawaits.known⟩
  | begins client =>
      unfold FeeWorld.step
      dsimp only
      split
      · refine ⟨h.distinct, h.known, h.accounts, ?_, ?_, ?_⟩
        · intro p hp
          obtain rfl := Option.some.inj hp
          have hawaits := awaits_listed h.distinct h.known reconcileBatch
          exact ⟨hawaits.distinct, hawaits.unknown, hawaits.unchanged, hawaits.known⟩
        · intro p hp symbol page hget
          obtain rfl := Option.some.inj hp
          cases hget
        · intro p hp
          obtain rfl := Option.some.inj hp
          refine ⟨fun symbol rates hget => ?_, fun symbol hmem => ?_, List.nodup_nil⟩
          · cases hget
          · cases hmem
      · exact h
  | reconciles answers =>
      unfold FeeWorld.step
      cases hpass : w.pass with
      | none => exact h
      | some p =>
          dsimp only
          cases hrows : p.rows with
          | nil =>
              refine ⟨h.distinct, h.known, h.accounts, ?_, ?_, ?_⟩
              all_goals
                intro q hq
                cases hq
          | cons pending rest => exact h.reconcile hpass hrows answers
  | aborts =>
      refine ⟨h.distinct, h.known, h.accounts, ?_, ?_, ?_⟩
      all_goals
        intro q hq
        cases hq

theorem FeeWorld.Inv.foldl (h : w.Inv) (events : List FeeEvent) :
    (events.foldl FeeWorld.step w).Inv := by
  induction events generalizing w with
  | nil => exact h
  | cons event rest ih => exact ih (h.step event)

theorem inv_empty : FeeWorld.empty.Inv := by
  refine ⟨List.nodup_nil, ?_, ?_, ?_, ?_, ?_⟩
  all_goals
    intro q hq
    cases hq

theorem FeeWorld.Inv.keeps (h : w.Inv) (hrow : row ∈ w.table) (hcertified : row.feeBasis ≠ .unknown)
    {event : FeeEvent} (hevent : event ≠ .deletes row.id) : row ∈ (w.step event).table := by
  cases event with
  | archives other =>
      unfold FeeWorld.step
      dsimp only
      split
      · exact hrow
      · exact List.mem_append_left _ hrow
  | deletes id =>
      refine List.mem_filter.mpr ⟨hrow, decide_eq_true ?_⟩
      rintro rfl
      exact hevent rfl
  | begins client =>
      unfold FeeWorld.step
      dsimp only
      split
      · exact hrow
      · exact hrow
  | aborts => exact hrow
  | reconciles answers =>
      unfold FeeWorld.step
      cases hpass : w.pass with
      | none => exact hrow
      | some p =>
          dsimp only
          cases hrows : p.rows with
          | nil => exact hrow
          | cons pending rest =>
              have hawaits := h.awaits p hpass
              rw [hrows] at hawaits
              have hother : row.id ≠ pending.id := by
                intro hid
                obtain rfl := hawaits.unchanged pending List.mem_cons_self row hrow hid
                exact hcertified (hawaits.unknown row List.mem_cons_self)
              unfold FeeWorld.reconcile
              dsimp only
              split
              · exact hrow
              · split
                · exact hrow
                · split
                  · exact List.mem_map.mpr ⟨row, hrow, if_neg hother⟩
                  · exact hrow

/-- Over every run of archivings, deletions and passes, a row that stands in the table stands as it
was archived, or was archived with an unknown fee and reads what a page of its symbol resolves to
that covers its orders. If that fee is certified, the evidence is whole, and no later pass writes
the row again. A pass asks for the rates of a symbol once. -/
theorem reconciliation_only_completes (events : List FeeEvent) :
    (∀ row ∈ (FeeWorld.run events).table, row ∈ (FeeWorld.run events).archived ∨
      ∃ first ∈ (FeeWorld.run events).archived, first.feeBasis = .unknown ∧
        ∃ page rates, (first.symbol, page) ∈ (FeeWorld.run events).pages ∧
          Told (FeeWorld.run events).rateTables first.symbol rates ∧
          (resolveFeesFromTrades page (feeOrdersOf first.orders) (first.terms rates)).Complete ∧
          row = first.withFees
            (resolveFeesFromTrades page (feeOrdersOf first.orders) (first.terms rates)) ∧
          (row.feeBasis ≠ .unknown →
            WholeEvidence page (feeOrdersOf first.orders) (first.terms rates))) ∧
      (∀ p ∈ (FeeWorld.run events).pass, p.rates.calls.Nodup) ∧
      ∀ later, ∀ row ∈ (FeeWorld.run events).table, row.feeBasis ≠ .unknown →
        .deletes row.id ∉ later → row ∈ (FeeWorld.run (events ++ later)).table := by
  have hinv : (FeeWorld.run events).Inv := inv_empty.foldl events
  refine ⟨?_, fun p hp => (hinv.rates p hp).once, ?_⟩
  · intro row hrow
    refine (hinv.accounts row hrow).imp_right ?_
    rintro ⟨first, hfirst, hbasis, page, rates, hpage, htold, hcomplete, rfl⟩
    exact ⟨first, hfirst, hbasis, page, rates, hpage, htold, hcomplete, rfl,
      fun hcertified => wholeEvidence_iff.mp hcertified⟩
  · intro later row hrow hcertified hkept
    unfold FeeWorld.run at hrow hinv ⊢
    rw [List.foldl_append]
    generalize events.foldl FeeWorld.step .empty = w at hrow hinv ⊢
    induction later generalizing w with
    | nil => exact hrow
    | cons event rest ih =>
        rw [List.mem_cons, not_or] at hkept
        exact ih hkept.2 _ (hinv.keeps hrow hcertified (Ne.symm hkept.1)) (hinv.step event)

/-- A sale that is listed with its trade on the page is certified. -/
example :
    let sale : FeeRow :=
      ⟨"r1", 0, "BTCUSDT", "BTC", "USDT",
        .arr [.obj [("binanceOrderId", .str "7"), ("side", .str "SELL"), ("executedQty", .str "2"),
          ("cummulativeQuoteQty", .str "20")]], [], "0", .unknown⟩
    let trade : Json :=
      .obj [("symbol", .str "BTCUSDT"), ("id", .num 1), ("orderId", .num 7), ("price", .str "10"),
        ("qty", .str "2"), ("quoteQty", .str "20"), ("commission", .str "0.02"),
        ("commissionAsset", .str "USDT"), ("isBuyer", .bool false), ("isMaker", .bool true)]
    ((FeeWorld.run [.archives sale, .begins true, .reconciles ⟨some [trade], none⟩]).table.map
      fun row => (row.feesQuote, row.feeBasis)) = [("0.02", .exact)] := by
  decide +kernel

end Runs

end TradingBot.Worker

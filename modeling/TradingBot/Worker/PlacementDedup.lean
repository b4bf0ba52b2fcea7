import TradingBot.Worker.TickCommit

/-!
# Market orders that are not sent twice

A market order fills at once and frees its client order id, so the exchange
would take the same order again. The worker remembers the ids of the market
orders it placed, in memory and in a mirror that outlives the process, and
reports a buy it remembers as placed. Entry ids are stable, so what tells a
repeated order from a fresh entry after a close is that every sale of the bot
forgets the symbol. A stop that fills on the exchange is no sale of the bot.
-/

namespace TradingBot.Worker

open TrailingTrade LabelledRun

/-! ### The memory -/

def placementDedupWindowMs : ℤ := 60000

structure Recorded where
  atMs : ℤ
  symbolKey : String

/-- The set of a symbol in the mirror; every write stamps its expiry anew. -/
structure MirroredSet where
  members : List String
  expiresAt : ℤ

/-- The ids placed by this process, and the mirror. -/
structure PlacementDedup where
  windowMs : ℤ
  seen : List (String × Recorded)
  mirror : String → Option MirroredSet

namespace PlacementDedup

variable (d : PlacementDedup) (clientOrderId symbolKey : String) (nowMs : ℤ)

def prune : PlacementDedup :=
  { d with seen := d.seen.filter fun entry => nowMs - entry.2.atMs < d.windowMs }

/-- The set of a symbol, unless it expired. -/
def mirrored : Option MirroredSet := (d.mirror symbolKey).filter (nowMs < ·.expiresAt)

def seenRecently : Bool :=
  (d.seen.lookup clientOrderId).any (fun recorded => nowMs - recorded.atMs < d.windowMs) ||
    (d.mirrored symbolKey nowMs).any (·.members.contains clientOrderId)

def record : PlacementDedup :=
  let pruned := d.prune nowMs
  let members := ((d.mirrored symbolKey nowMs).map (·.members)).getD []
  { pruned with
    seen := pruned.seen.filter (·.1 ≠ clientOrderId) ++ [(clientOrderId, ⟨nowMs, symbolKey⟩)]
    mirror := Function.update d.mirror symbolKey
      (some ⟨clientOrderId :: members, nowMs + d.windowMs⟩) }

def forgetSymbol : PlacementDedup :=
  { d with
    seen := (d.seen.filter (·.2.symbolKey ≠ symbolKey)).filter fun entry =>
      nowMs - entry.2.atMs < d.windowMs
    mirror := Function.update d.mirror symbolKey none }

/-- A new process has the mirror only. -/
def restart : PlacementDedup := { d with seen := [] }

end PlacementDedup

/-- A placement on its way out: a sale forgets the symbol, and a market buy that is remembered does
not go out at all. -/
def placementGate (d : PlacementDedup) (side : OrderSide) (type : OrderType)
    (clientOrderId symbolKey : String) (nowMs : ℤ) : Option PlacementDedup :=
  if side = .sell then some (d.forgetSymbol symbolKey nowMs)
  else if type = .market ∧ d.seenRecently clientOrderId symbolKey nowMs = true then none
  else some d

/-- A replacement on its way out; a stop that is armed anew closes nothing. -/
def replacementGate (d : PlacementDedup) (decision : ReplaceDecision) (symbolKey : String)
    (nowMs : ℤ) : PlacementDedup :=
  if closesPosition decision then d.forgetSymbol symbolKey nowMs else d

/-- An accepted market order is remembered. -/
def recordAccepted (d : PlacementDedup) (type : OrderType) (clientOrderId symbolKey : String)
    (nowMs : ℤ) : PlacementDedup :=
  if type = .market then d.record clientOrderId symbolKey nowMs else d

/-! ### Positions -/

structure PositionKey where
  profileId : String
  symbol : String
deriving DecidableEq

/-- Who took the last of a position off: a sale the bot sent, or an order resting at the
exchange. -/
inductive CloseCause where
  | botSell
  | exchangeSide
deriving DecidableEq

/-- The memory, what each position holds at the exchange, how each was closed so far, the latest
close first, and the number of closes when an entry was last remembered. -/
structure EntryWorld where
  dedup : PlacementDedup
  held : PositionKey → ℚ
  closes : PositionKey → List CloseCause
  recordedAt : String → Option ℕ

namespace EntryWorld

/-- The position sells, and is closed when nothing is left of it. -/
def sell (w : EntryWorld) (key : PositionKey) (quantity : ℚ) (cause : CloseCause) : EntryWorld :=
  let left := w.held key - quantity
  { w with
    held := Function.update w.held key left
    closes := if left = 0 ∧ quantity ≠ 0 then
        Function.update w.closes key (cause :: w.closes key)
      else w.closes }

def buy (w : EntryWorld) (key : PositionKey) (quantity : ℚ) : EntryWorld :=
  { w with held := Function.update w.held key (w.held key + quantity) }

/-- The closes of a position since the entry was last remembered. -/
def closesSince (w : EntryWorld) (key : PositionKey) (clientOrderId : String) :
    Option (List CloseCause) :=
  (w.recordedAt clientOrderId).map fun n => (w.closes key).take ((w.closes key).length - n)

end EntryWorld

/-- What becomes of a market buy that was sent. One that filled without the worker learning of it
is not remembered. -/
inductive BuyAnswer where
  | refused
  | filled (quantity : ℚ)
  | filledUnseen (quantity : ℚ)

/-- A step of the run. A sale that was sent sells some part of the position at once, or rests. -/
inductive EntryStep where
  | buy (clientOrderId : String) (nowMs : ℤ) (answer : BuyAnswer)
  | sell (key : PositionKey) (clientOrderId : String) (type : OrderType) (nowMs : ℤ)
      (accepted : Bool) (quantity : ℚ)
  | replace (key : PositionKey) (decision : ReplaceDecision) (nowMs : ℤ) (accepted : Bool)
      (quantity : ℚ)
  | stopFill (key : PositionKey) (quantity : ℚ)
  | adopt (key : PositionKey)
  | restart

section Run

variable (accountOf : String → String) (owner : String → Option PositionKey)

def symbolKey (key : PositionKey) : String := accountOf key.profileId ++ ":" ++ key.symbol

/-- A sale sells no more than there is, and its id is no entry's. -/
def EntryWorld.Sells (w : EntryWorld) (key : PositionKey) (clientOrderId : String) (quantity : ℚ) :
    Prop :=
  0 ≤ quantity ∧ quantity ≤ w.held key ∧ owner clientOrderId = none

instance (w : EntryWorld) (key : PositionKey) (clientOrderId : String) (quantity : ℚ) :
    Decidable (w.Sells owner key clientOrderId quantity) :=
  inferInstanceAs (Decidable (_ ∧ _ ∧ _))

/-- The run takes the step, where it can be taken. -/
def EntryWorld.step (w : EntryWorld) : EntryStep → Option EntryWorld
  | .buy clientOrderId nowMs answer =>
      match owner clientOrderId with
      | none => none
      | some key =>
          match placementGate w.dedup .buy .market clientOrderId (symbolKey accountOf key)
              nowMs with
          | none => some w
          | some dedup =>
              match answer with
              | .refused => some { w with dedup }
              | .filled quantity =>
                  if 0 < quantity then
                    some { (w.buy key quantity) with
                      dedup := recordAccepted dedup .market clientOrderId (symbolKey accountOf key)
                        nowMs
                      recordedAt := Function.update w.recordedAt clientOrderId
                        (some (w.closes key).length) }
                  else none
              | .filledUnseen quantity =>
                  if 0 < quantity then some { (w.buy key quantity) with dedup } else none
  | .sell key clientOrderId type nowMs accepted quantity =>
      if w.Sells owner key clientOrderId quantity then
        (placementGate w.dedup .sell type clientOrderId (symbolKey accountOf key) nowMs).map
          fun dedup =>
            { (w.sell key quantity .botSell) with
              dedup := if accepted then
                  recordAccepted dedup type clientOrderId (symbolKey accountOf key) nowMs
                else dedup }
      else none
  | .replace key decision nowMs accepted quantity =>
      if decision.intent.side = .sell ∧ w.Sells owner key decision.intent.clientOrderId quantity ∧
          (closesPosition decision = false → quantity = 0) then
        let dedup := replacementGate w.dedup decision (symbolKey accountOf key) nowMs
        some { (w.sell key quantity .botSell) with
          dedup := if accepted then
              recordAccepted dedup decision.params.type decision.intent.clientOrderId
                (symbolKey accountOf key) nowMs
            else dedup }
      else none
  | .stopFill key quantity =>
      if 0 ≤ quantity ∧ quantity ≤ w.held key then some (w.sell key quantity .exchangeSide)
      else none
  | .adopt _ => some w
  | .restart => some { w with dedup := w.dedup.restart }

/-- Nothing is held, and nothing remembered. -/
def EntryWorld.start (windowMs : ℤ) : EntryWorld where
  dedup := ⟨windowMs, [], fun _ => none⟩
  held _ := 0
  closes _ := []
  recordedAt _ := none

/-- The worlds a process runs into. -/
def EntryWorld.Reached (w : EntryWorld) : Prop :=
  Reach (EntryWorld.step accountOf owner) (fun _ _ => True) (.start placementDedupWindowMs) w

end Run

/-! ### What is remembered -/

namespace PlacementDedup

variable {d : PlacementDedup} {clientOrderId recorded k s : String} {nowMs : ℤ}

/-- The id is in one of the memories, under a symbol. -/
def Remembers (d : PlacementDedup) (k clientOrderId : String) : Prop :=
  (∃ r, (clientOrderId, r) ∈ d.seen ∧ r.symbolKey = k) ∨
    ∃ set, d.mirror k = some set ∧ clientOrderId ∈ set.members

theorem remembers_of_seenRecently (h : d.seenRecently clientOrderId s nowMs = true) :
    ∃ k, d.Remembers k clientOrderId := by
  rw [seenRecently, Bool.or_eq_true] at h
  rcases h with h | h
  · obtain ⟨r, hlookup, -⟩ := (Option.any_eq_true _ _).mp h
    obtain ⟨before, after, hseen, -⟩ := List.lookup_eq_some_iff.mp hlookup
    exact ⟨r.symbolKey, .inl ⟨r, by simp [hseen], rfl⟩⟩
  · obtain ⟨set, hset, hmem⟩ := (Option.any_eq_true _ _).mp h
    exact ⟨s, .inr ⟨set, (Option.filter_eq_some_iff.mp hset).1, by simpa using hmem⟩⟩

theorem Remembers.of_forget (h : (d.forgetSymbol s nowMs).Remembers k clientOrderId) :
    k ≠ s ∧ d.Remembers k clientOrderId := by
  rcases h with ⟨r, hmem, rfl⟩ | ⟨set, hset, hmem⟩
  · obtain ⟨hkept, -⟩ := List.mem_filter.mp hmem
    obtain ⟨hseen, hother⟩ := List.mem_filter.mp hkept
    exact ⟨by simpa using hother, .inl ⟨r, hseen, rfl⟩⟩
  · dsimp only [forgetSymbol] at hset
    rw [Function.update_apply] at hset
    split at hset
    · cases hset
    · next hother => exact ⟨hother, .inr ⟨set, hset, hmem⟩⟩

theorem Remembers.of_record (h : (d.record recorded s nowMs).Remembers k clientOrderId) :
    (clientOrderId = recorded ∧ k = s) ∨ d.Remembers k clientOrderId := by
  rcases h with ⟨r, hmem, rfl⟩ | ⟨set, hset, hmem⟩
  · rcases List.mem_append.mp hmem with hkept | hnew
    · obtain ⟨hpruned, -⟩ := List.mem_filter.mp hkept
      exact .inr (.inl ⟨r, (List.mem_filter.mp hpruned).1, rfl⟩)
    · cases List.mem_singleton.mp hnew
      exact .inl ⟨rfl, rfl⟩
  · dsimp only [record] at hset
    rw [Function.update_apply] at hset
    split at hset
    · next hsame =>
        obtain rfl := Option.some.inj hset
        rcases List.mem_cons.mp hmem with rfl | hmember
        · exact .inl ⟨rfl, hsame⟩
        · cases hmirrored : d.mirrored s nowMs with
          | none => simp [hmirrored] at hmember
          | some before =>
              refine .inr (.inr ⟨before, ?_, by simpa [hmirrored] using hmember⟩)
              rw [hsame]
              exact (Option.filter_eq_some_iff.mp hmirrored).1
    · exact .inr (.inr ⟨set, hset, hmem⟩)

theorem Remembers.of_recordAccepted {type : OrderType}
    (h : (recordAccepted d type recorded s nowMs).Remembers k clientOrderId) :
    (clientOrderId = recorded ∧ k = s) ∨ d.Remembers k clientOrderId := by
  rw [recordAccepted] at h
  split at h
  · exact h.of_record
  · exact .inr h

end PlacementDedup

/-! ### What is behind it -/

/-- The entry was remembered, every close of its position since came from the exchange's side, and
without one the position is there. -/
def EntryWorld.Backs (w : EntryWorld) (key : PositionKey) (clientOrderId : String) : Prop :=
  ∃ n, w.recordedAt clientOrderId = some n ∧ n ≤ (w.closes key).length ∧
    (∀ cause ∈ (w.closes key).take ((w.closes key).length - n), cause = .exchangeSide) ∧
    (n = (w.closes key).length → 0 < w.held key)

namespace EntryWorld

variable {w next : EntryWorld} {key other : PositionKey} {clientOrderId : String} {quantity : ℚ}

theorem Backs.congr (h : w.Backs key clientOrderId)
    (hrecorded : next.recordedAt clientOrderId = w.recordedAt clientOrderId)
    (hcloses : next.closes key = w.closes key) (hheld : w.held key ≤ next.held key) :
    next.Backs key clientOrderId := by
  obtain ⟨n, hn, hle, hcauses, hpos⟩ := h
  refine ⟨n, hrecorded.trans hn, ?_⟩
  rw [hcloses]
  exact ⟨hle, hcauses, fun hlast => (hpos hlast).trans_le hheld⟩

theorem sell_held_other (cause : CloseCause) (h : key ≠ other) :
    (w.sell other quantity cause).held key = w.held key :=
  Function.update_of_ne h _ _

theorem sell_closes_other (cause : CloseCause) (h : key ≠ other) :
    (w.sell other quantity cause).closes key = w.closes key := by
  dsimp only [sell]
  split
  · exact Function.update_of_ne h _ _
  · rfl

theorem Backs.sell_other (h : w.Backs key clientOrderId) (cause : CloseCause)
    (hother : key ≠ other) : (w.sell other quantity cause).Backs key clientOrderId :=
  h.congr rfl (sell_closes_other cause hother) (sell_held_other cause hother).ge

/-- A sale on the exchange's side closes the position for a cause of its own, or leaves some. -/
theorem Backs.sell_exchangeSide (h : w.Backs key clientOrderId) (hle : quantity ≤ w.held key)
    (hnonneg : 0 ≤ quantity) : (w.sell key quantity .exchangeSide).Backs key clientOrderId := by
  by_cases hcloses : w.held key - quantity = 0 ∧ quantity ≠ 0
  · obtain ⟨n, hn, hlength, hcauses, -⟩ := h
    have hafter : (w.sell key quantity .exchangeSide).closes key =
        .exchangeSide :: w.closes key := by
      dsimp only [sell]
      rw [if_pos hcloses, Function.update_self]
    refine ⟨n, hn, ?_⟩
    rw [hafter, List.length_cons, Nat.succ_sub hlength, List.take_succ_cons]
    refine ⟨hlength.trans (Nat.le_succ _), ?_, fun hlast => ?_⟩
    · intro cause hmem
      rcases List.mem_cons.mp hmem with rfl | hmem
      · rfl
      · exact hcauses cause hmem
    · omega
  · obtain ⟨n, hn, hlength, hcauses, hpos⟩ := h
    have hafter : (w.sell key quantity .exchangeSide).closes key = w.closes key := by
      dsimp only [sell]
      rw [if_neg hcloses]
    have hheld : (w.sell key quantity .exchangeSide).held key = w.held key - quantity :=
      Function.update_self _ _ _
    refine ⟨n, hn, ?_⟩
    rw [hafter, hheld]
    refine ⟨hlength, hcauses, fun hlast => ?_⟩
    have hbefore := hpos hlast
    rw [not_and_or, not_not] at hcloses
    rcases hcloses with hleft | rfl
    · exact lt_of_le_of_ne (sub_nonneg.mpr hle) (Ne.symm hleft)
    · simpa using hbefore

end EntryWorld

/-! ### Runs -/

section Invariant

variable (accountOf : String → String) (owner : String → Option PositionKey)

structure EntryWorld.Sound (w : EntryWorld) : Prop where
  held_nonneg : ∀ key, 0 ≤ w.held key
  backed : ∀ k clientOrderId key, w.dedup.Remembers k clientOrderId →
    owner clientOrderId = some key → k = symbolKey accountOf key ∧ w.Backs key clientOrderId

namespace EntryWorld

variable {accountOf owner} {w next : EntryWorld} {key : PositionKey} {clientOrderId : String}
  {nowMs : ℤ} {quantity : ℚ}

theorem sound_start (windowMs : ℤ) : (start windowMs).Sound accountOf owner where
  held_nonneg _ := le_rfl
  backed k clientOrderId key h := by
    rcases h with ⟨r, hmem, -⟩ | ⟨set, hset, -⟩
    · cases hmem
    · cases hset

theorem sell_nonneg (h : ∀ key, 0 ≤ w.held key) (hle : quantity ≤ w.held key)
    (cause : CloseCause) (other : PositionKey) : 0 ≤ (w.sell key quantity cause).held other := by
  by_cases hsame : other = key
  · subst hsame
    have hheld : (w.sell other quantity cause).held other = w.held other - quantity :=
      Function.update_self _ _ _
    rw [hheld]
    exact sub_nonneg.mpr hle
  · rw [sell_held_other cause hsame]
    exact h other

/-- A sale of the bot forgets the symbol first; whatever is still remembered is of another one. -/
theorem Sound.botSell (h : w.Sound accountOf owner)
    (hsells : w.Sells owner key clientOrderId quantity) {dedup : PlacementDedup}
    (hdedup : ∀ k id, dedup.Remembers k id →
      (id = clientOrderId ∨ k ≠ symbolKey accountOf key ∧ w.dedup.Remembers k id)) :
    Sound accountOf owner { (w.sell key quantity .botSell) with dedup } where
  held_nonneg := sell_nonneg h.held_nonneg hsells.2.1 .botSell
  backed k id other hremembers howner := by
    rcases hdedup k id hremembers with rfl | ⟨hk, hremembered⟩
    · rw [hsells.2.2] at howner
      cases howner
    · obtain ⟨rfl, hbacks⟩ := h.backed k id other hremembered howner
      have hother : other ≠ key := by
        rintro rfl
        exact hk rfl
      exact ⟨rfl, hbacks.sell_other .botSell hother⟩

theorem placementGate_buy {d dedup : PlacementDedup} {type : OrderType} {k : String}
    (h : placementGate d .buy type clientOrderId k nowMs = some dedup) : dedup = d := by
  rw [placementGate, if_neg (by decide)] at h
  split at h
  · cases h
  · exact (Option.some.inj h).symm

theorem buy_nonneg (h : ∀ key, 0 ≤ w.held key) (hpos : 0 < quantity) (other : PositionKey) :
    w.held other ≤ (w.buy key quantity).held other ∧ 0 ≤ (w.buy key quantity).held other := by
  have hle : w.held other ≤ (w.buy key quantity).held other := by
    dsimp only [buy]
    rw [Function.update_apply]
    split
    · next hsame =>
        rw [hsame]
        exact le_add_of_nonneg_right hpos.le
    · exact le_rfl
  exact ⟨hle, (h other).trans hle⟩

/-- A market buy that filled and is remembered is backed by what it bought. -/
theorem Sound.bought (h : w.Sound accountOf owner) (howner : owner clientOrderId = some key)
    (hpos : 0 < quantity) :
    Sound accountOf owner { (w.buy key quantity) with
      dedup := recordAccepted w.dedup .market clientOrderId (symbolKey accountOf key) nowMs
      recordedAt := Function.update w.recordedAt clientOrderId (some (w.closes key).length) } where
  held_nonneg other := (buy_nonneg h.held_nonneg hpos other).2
  backed k id other hremembers hother := by
    by_cases hsame : id = clientOrderId
    · subst hsame
      rw [howner] at hother
      obtain rfl := Option.some.inj hother
      have hk : k = symbolKey accountOf key := by
        rcases hremembers.of_recordAccepted with ⟨-, hk⟩ | hremembered
        · exact hk
        · exact (h.backed k id key hremembered howner).1
      refine ⟨hk, (w.closes key).length, Function.update_self _ _ _, le_rfl, ?_, fun _ => ?_⟩
      · simp [buy]
      · have hheld : (w.buy key quantity).held key = w.held key + quantity :=
          Function.update_self _ _ _
        have hbought := add_pos_of_nonneg_of_pos (h.held_nonneg key) hpos
        rwa [← hheld] at hbought
    · rcases hremembers.of_recordAccepted with ⟨rfl, -⟩ | hremembered
      · exact absurd rfl hsame
      · obtain ⟨hk, hbacks⟩ := h.backed k id other hremembered hother
        exact ⟨hk, hbacks.congr (Function.update_of_ne hsame _ _) rfl
          (buy_nonneg h.held_nonneg hpos other).1⟩

theorem Sound.boughtUnseen (h : w.Sound accountOf owner) (hpos : 0 < quantity) :
    (w.buy key quantity).Sound accountOf owner where
  held_nonneg other := (buy_nonneg h.held_nonneg hpos other).2
  backed k id other hremembers hother := by
    obtain ⟨hk, hbacks⟩ := h.backed k id other hremembers hother
    exact ⟨hk, hbacks.congr rfl rfl (buy_nonneg h.held_nonneg hpos other).1⟩

theorem Sound.stopFilled (h : w.Sound accountOf owner) (hnonneg : 0 ≤ quantity)
    (hle : quantity ≤ w.held key) : (w.sell key quantity .exchangeSide).Sound accountOf owner where
  held_nonneg := sell_nonneg h.held_nonneg hle .exchangeSide
  backed k id other hremembers hother := by
    obtain ⟨hk, hbacks⟩ := h.backed k id other hremembers hother
    refine ⟨hk, ?_⟩
    by_cases hsame : other = key
    · subst hsame
      exact hbacks.sell_exchangeSide hle hnonneg
    · exact hbacks.sell_other .exchangeSide hsame

/-- A stop that is armed anew sells nothing and forgets nothing. -/
theorem Sound.rearmed (h : w.Sound accountOf owner) (howner : owner clientOrderId = none)
    {dedup : PlacementDedup}
    (hdedup : ∀ k id, dedup.Remembers k id → id = clientOrderId ∨ w.dedup.Remembers k id) :
    Sound accountOf owner { (w.sell key 0 .botSell) with dedup } where
  held_nonneg := sell_nonneg h.held_nonneg (h.held_nonneg key) .botSell
  backed k id other hremembers hother := by
    rcases hdedup k id hremembers with rfl | hremembered
    · rw [howner] at hother
      cases hother
    · obtain ⟨hk, hbacks⟩ := h.backed k id other hremembered hother
      refine ⟨hk, hbacks.congr rfl ?_ ?_⟩
      · dsimp only [sell]
        rw [if_neg (by simp)]
      · dsimp only [sell]
        rw [Function.update_apply]
        split
        · next hsame => rw [hsame, sub_zero]
        · exact le_rfl

theorem remembers_sold {type : OrderType} {accepted : Bool} {d : PlacementDedup} {k s id : String}
    (h : PlacementDedup.Remembers (if accepted then
      recordAccepted (d.forgetSymbol s nowMs) type clientOrderId s nowMs
        else d.forgetSymbol s nowMs) k id) :
    id = clientOrderId ∨ k ≠ s ∧ d.Remembers k id := by
  cases accepted with
  | false => exact .inr (PlacementDedup.Remembers.of_forget h)
  | true =>
      rcases PlacementDedup.Remembers.of_recordAccepted h with ⟨hid, -⟩ | hremembered
      · exact .inl hid
      · exact .inr hremembered.of_forget

theorem sound_step {label : EntryStep} (h : w.Sound accountOf owner)
    (hstep : step accountOf owner w label = some next) : next.Sound accountOf owner := by
  cases label with
  | buy clientOrderId nowMs answer =>
      simp only [step] at hstep
      split at hstep
      · cases hstep
      · next key howner =>
          split at hstep
          · cases hstep
            exact h
          · next dedup hgate =>
              obtain rfl := placementGate_buy hgate
              cases answer with
              | refused =>
                  cases hstep
                  exact h
              | filled quantity =>
                  dsimp only at hstep
                  split at hstep
                  · next hpos =>
                      cases hstep
                      exact h.bought howner hpos
                  · cases hstep
              | filledUnseen quantity =>
                  dsimp only at hstep
                  split at hstep
                  · next hpos =>
                      cases hstep
                      exact h.boughtUnseen hpos
                  · cases hstep
  | sell key clientOrderId type nowMs accepted quantity =>
      simp only [step, placementGate, if_pos, Option.map_some] at hstep
      split at hstep
      · next hsells =>
          cases hstep
          exact h.botSell hsells fun k id hremembers => remembers_sold hremembers
      · cases hstep
  | replace key decision nowMs accepted quantity =>
      simp only [step] at hstep
      split at hstep
      · next hallowed =>
          obtain ⟨-, hsells, hrearms⟩ := hallowed
          cases hstep
          cases hcloses : closesPosition decision with
          | true =>
              refine h.botSell hsells fun k id hremembers => ?_
              simp only [replacementGate, hcloses, if_true] at hremembers
              exact remembers_sold hremembers
          | false =>
              obtain rfl := hrearms hcloses
              refine h.rearmed hsells.2.2 fun k id hremembers => ?_
              simp only [replacementGate, hcloses] at hremembers
              cases accepted with
              | false => exact .inr hremembers
              | true => exact (PlacementDedup.Remembers.of_recordAccepted hremembers).imp_left (·.1)
      · cases hstep
  | stopFill key quantity =>
      simp only [step] at hstep
      split at hstep
      · next hallowed =>
          cases hstep
          exact h.stopFilled hallowed.1 hallowed.2
      · cases hstep
  | adopt key =>
      cases hstep
      exact h
  | restart =>
      cases hstep
      refine ⟨h.held_nonneg, fun k id key hremembers howner => h.backed k id key ?_ howner⟩
      rcases hremembers with ⟨r, hmem, -⟩ | hmirrored
      · cases hmem
      · exact .inr hmirrored

theorem Reached.sound (h : w.Reached accountOf owner) : w.Sound accountOf owner :=
  h.invariant (sound_start placementDedupWindowMs)
    fun _ _ _ hsound _ hstep => sound_step hsound hstep

end EntryWorld

end Invariant

/-! ### Suppressed entries -/

section Suppressed

variable (accountOf : String → String) (owner : String → Option PositionKey)

def positionOf (input : TTInput) : PositionKey := ⟨input.profile.id, input.market.symbol⟩

/-- The tick's order is a market buy that is remembered; it is reported as placed and not sent. -/
structure SuppressedTick (w : EntryWorld) (input : TTInput) (output : TTOutput) (env : TickEnv)
    (intent : OrderIntent) (params : OrderParams) : Prop where
  tick : computeTick input = .ok output
  placement : output.decisions.find? isPlacement = some (.placeOrder intent params)
  suppressed : placementGate w.dedup intent.side params.type intent.clientOrderId
    (symbolKey accountOf (positionOf input)) env.nowMs = none
  reported : placementFate output.decisions env = .attempted .ok

/-- The tick commits a flat ladder on its first rung, and the exchange has nothing of it. -/
def EntryWorld.Strands (w : EntryWorld) (key : PositionKey) (output : TTOutput) (env : TickEnv) :
    Prop :=
  ∃ settled next, settleTick output env = .ok settled ∧ settled.committed = some next ∧
    next.avgEntryPrice = none ∧ next.currentGridTradeIndex = some 0 ∧ w.held key = 0

/-- Since the entry was remembered its position was closed on the exchange's side at most; where it
was not closed, it is there. -/
def EntryWorld.StandsBehind (w : EntryWorld) (key : PositionKey) (clientOrderId : String) : Prop :=
  ∃ causes, w.closesSince key clientOrderId = some causes ∧
    (∀ cause ∈ causes, cause = .exchangeSide) ∧ (causes = [] → 0 < w.held key)

theorem EntryWorld.Backs.standsBehind {w : EntryWorld} {key : PositionKey} {clientOrderId : String}
    (h : w.Backs key clientOrderId) : w.StandsBehind key clientOrderId := by
  obtain ⟨n, hn, hle, hcauses, hpos⟩ := h
  refine ⟨_, by rw [closesSince, hn]; rfl, hcauses, fun hnone => hpos ?_⟩
  have hlength := congrArg List.length hnone
  rw [List.length_take, List.length_nil] at hlength
  omega

/-- Only a market buy that is remembered is held back. -/
theorem seenRecently_of_gate {d : PlacementDedup} {side : OrderSide} {type : OrderType}
    {clientOrderId k : String} {nowMs : ℤ}
    (h : placementGate d side type clientOrderId k nowMs = none) :
    d.seenRecently clientOrderId k nowMs = true := by
  rw [placementGate] at h
  split at h
  · cases h
  · split at h
    · next hseen => exact hseen.2
    · cases h

theorem standsBehind_of_gate {w : EntryWorld} {key : PositionKey} {clientOrderId : String}
    {side : OrderSide} {type : OrderType} {nowMs : ℤ} (hreached : w.Reached accountOf owner)
    (howner : owner clientOrderId = some key)
    (h : placementGate w.dedup side type clientOrderId (symbolKey accountOf key) nowMs = none) :
    w.StandsBehind key clientOrderId := by
  obtain ⟨k, hremembers⟩ := PlacementDedup.remembers_of_seenRecently (seenRecently_of_gate h)
  exact (hreached.sound.backed k clientOrderId key hremembers howner).2.standsBehind

/-- A buy held back as a repeat has its position behind it, unless the exchange closed it since; an
entry held back strands its ladder only in that case. -/
theorem suppressed_entry_backed (w : EntryWorld) (hreached : w.Reached accountOf owner) :
    (∀ key clientOrderId nowMs, owner clientOrderId = some key →
      placementGate w.dedup .buy .market clientOrderId (symbolKey accountOf key) nowMs = none →
        w.StandsBehind key clientOrderId) ∧
      ∀ input output env intent params, SuppressedTick accountOf w input output env intent params →
        owner intent.clientOrderId = some (positionOf input) →
          w.Strands (positionOf input) output env →
            ∃ causes, w.closesSince (positionOf input) intent.clientOrderId = some causes ∧
              .exchangeSide ∈ causes := by
  constructor
  · intro key clientOrderId nowMs howner hgate
    exact standsBehind_of_gate accountOf owner hreached howner hgate
  · intro input output env intent params htick howner hstrands
    obtain ⟨settled, next, -, -, -, -, hheld⟩ := hstrands
    obtain ⟨causes, hsince, hcauses, hpos⟩ :=
      standsBehind_of_gate accountOf owner hreached howner htick.suppressed
    refine ⟨causes, hsince, ?_⟩
    cases causes with
    | nil => exact absurd (hpos rfl) (by rw [hheld]; exact lt_irrefl 0)
    | cons cause rest =>
        rw [hcauses cause List.mem_cons_self]
        exact List.mem_cons_self

end Suppressed

/-! ### Sample runs -/

def sampleEntryId : String := gridBuyClientOrderId "p" "BTCUSDT" 0

def samplePosition : PositionKey := ⟨"p", "BTCUSDT"⟩

def sampleOwner (clientOrderId : String) : Option PositionKey :=
  if clientOrderId = sampleEntryId then some samplePosition else none

def runEntries (steps : List EntryStep) : Option EntryWorld :=
  run (EntryWorld.step id sampleOwner) (fun _ _ => true) (.start placementDedupWindowMs) steps

theorem reached_of_runEntries {steps : List EntryStep} {w : EntryWorld}
    (h : runEntries steps = some w) : w.Reached id sampleOwner :=
  reach_of_run (fun _ _ _ => trivial) h

/-- Bought, sold, bought again after the sale, and asked for a third time within the minute. -/
def sampleReentry : List EntryStep :=
  [.buy sampleEntryId 1000 (.filled 1), .sell samplePosition "exit" .market 5000 true 1,
    .buy sampleEntryId 9000 (.filled 2)]

theorem reentry_backed :
    ∃ w : EntryWorld, w.Reached id sampleOwner ∧
      placementGate w.dedup .buy .market sampleEntryId (symbolKey id samplePosition) 12000 = none ∧
      w.StandsBehind samplePosition sampleEntryId := by
  obtain ⟨w, hrun, hgate⟩ := Option.map_eq_some_iff.mp
    (by decide +kernel : (runEntries sampleReentry).map (fun w =>
      (placementGate w.dedup .buy .market sampleEntryId (symbolKey id samplePosition)
        12000).isNone) = some true)
  have hreached := reached_of_runEntries hrun
  have hnone := Option.isNone_iff_eq_none.mp hgate
  exact ⟨w, hreached, hnone,
    (suppressed_entry_backed id sampleOwner w hreached).1 _ _ _ (by decide +kernel) hnone⟩

/-- Bought, and sold by the stop that rests at the exchange. -/
def sampleStoppedOut : List EntryStep :=
  [.buy sampleEntryId 1000 (.filled 1), .stopFill samplePosition 1, .adopt samplePosition]

/-- No breaker is active, and the handler reports what it holds back as placed. -/
def sampleOpenTick : TickEnv where
  halts := { probe := .ok 0, flags := .ok fun _ => 0 }
  refusalState := some none
  nowMs := 31000
  executor := { answers := fun _ _ => .ok, hasHeadroom := none }

/-- The market order of the sample profile's first entry. -/
def sampleEntryOrder : Decision :=
  buildGridBuyDecision (sampleInput sampleConfig initialTTState "100" 0) (.printed (.num 1)) 0 none

/-- Half a minute after the stop sold the position, the fresh entry is held back as a repeat: the
ladder is on its first rung, and nothing is held. -/
theorem stopped_out_entry_stranded :
    ∃ (w : EntryWorld) (output : TTOutput) (intent : OrderIntent) (params : OrderParams),
      w.Reached id sampleOwner ∧
      SuppressedTick id w (sampleInput sampleConfig initialTTState "100" 0) output sampleOpenTick
        intent params ∧
      w.closesSince samplePosition intent.clientOrderId = some [.exchangeSide] ∧
      w.Strands samplePosition output sampleOpenTick := by
  obtain ⟨output, htick, hshown⟩ := EarlyExit.exists_ok_of_map
    (by decide +kernel :
      (computeTick (sampleInput sampleConfig initialTTState "100" 0)).toOption.map (fun output =>
        (decide (output.decisions.find? isPlacement = some sampleEntryOrder),
        decide (placementFate output.decisions sampleOpenTick = .attempted .ok),
        ((settleTick output sampleOpenTick).toOption.bind (·.committed)).map fun next =>
          (next.avgEntryPrice.isNone, next.currentGridTradeIndex))) =
        some (true, true, some (true, some 0)))
  simp only [Prod.mk.injEq] at hshown
  obtain ⟨hplacement, hfate, hsettles⟩ := hshown
  obtain ⟨w, hrun, hstate⟩ := Option.map_eq_some_iff.mp
    (by decide +kernel : (runEntries sampleStoppedOut).map (fun w =>
      ((placementGate w.dedup .buy .market sampleEntryId (symbolKey id samplePosition)
        31000).isNone, w.closesSince samplePosition sampleEntryId, w.held samplePosition)) =
      some (true, some [.exchangeSide], 0))
  simp only [Prod.mk.injEq] at hstate
  obtain ⟨hgate, hcloses, hheld⟩ := hstate
  obtain ⟨next, hcommits, hnext⟩ := Option.map_eq_some_iff.mp hsettles
  simp only [Prod.mk.injEq] at hnext
  obtain ⟨hflat, hrung⟩ := hnext
  obtain ⟨settled, hsettled, hcommitted⟩ := Option.bind_eq_some_iff.mp hcommits
  have hok : settleTick output sampleOpenTick = .ok settled := by
    cases hsettle : settleTick output sampleOpenTick with
    | error err =>
        rw [hsettle] at hsettled
        cases hsettled
    | ok found =>
        rw [hsettle] at hsettled
        cases hsettled
        rfl
  exact ⟨w, output, _, _, reached_of_runEntries hrun,
    ⟨htick, of_decide_eq_true hplacement, Option.isNone_iff_eq_none.mp hgate,
      of_decide_eq_true hfate⟩, hcloses,
    _, next, hok, hcommitted, Option.isNone_iff_eq_none.mp hflat,
    hrung, hheld⟩

end TradingBot.Worker

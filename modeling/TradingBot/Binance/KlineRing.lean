import Mathlib.Algebra.Order.Floor.Ring
import Mathlib.Data.List.Nodup
import Mathlib.Data.List.Sort
import Mathlib.Data.Rat.Floor
import Mathlib.Order.Monotone.Basic
import TradingBot.Lib.InsertionMap
import TradingBot.Lib.LabelledRun

/-!
# The ring of closed candles

A subscribed symbol and interval keeps the latest closed candles. A close frame
of the stream appends one, and the load from the rest endpoint that the first
subscribe starts is merged in whenever it completes. Windows are sliced from the
ring and remembered until the ring changes, the socket closes or they grow old.
-/

namespace TradingBot.Binance

open InsertionMap LabelledRun

structure ClosedKline where
  openTimeMs : ℕ
  closeTimeMs : ℕ
  openPrice : String
  highPrice : String
  lowPrice : String
  closePrice : String
  volume : String
deriving DecidableEq

/-- The branch of `loadWindow` that an answer came from. -/
inductive WindowSource where
  | ring
  | rest
deriving DecidableEq

structure MemoEntry where
  window : List ClosedKline
  installedAtMs : ℤ
  source : WindowSource

structure KlineKeyState where
  ring : List ClosedKline
  windowCache : List (ℚ × MemoEntry)
  ringGeneration : ℕ

def maxWindowCacheEntries : ℕ := 4

def memoMaxAgeMs : ℤ := 60000

/-- The order of the sort. -/
def Earlier (a b : ClosedKline) : Prop := a.openTimeMs ≤ b.openTimeMs

instance : DecidableRel Earlier := fun a b =>
  inferInstanceAs (Decidable (a.openTimeMs ≤ b.openTimeMs))

instance : Std.Total Earlier := ⟨fun a b => le_total a.openTimeMs b.openTimeMs⟩

instance : IsTrans ClosedKline Earlier := ⟨fun _ _ _ hab hbc => le_trans hab hbc⟩

namespace KlineKeyState

def empty : KlineKeyState := ⟨[], [], 0⟩

/-- The answers that were computed from a ring that has changed since. -/
def forgetWindows (state : KlineKeyState) : KlineKeyState :=
  { state with windowCache := [], ringGeneration := state.ringGeneration + 1 }

/-- What `fanOut` does to the ring; the subscribers are handed the candle as well. -/
def fanOut (ringSize : ℕ) (state : KlineKeyState) (kline : ClosedKline) : KlineKeyState :=
  let ring := state.ring ++ [kline]
  { state with ring := if ringSize < ring.length then ring.tail else ring }.forgetWindows

/-- What a cold load does with the rows it fetched. -/
def mergeColdLoad (ringSize : ℕ) (state : KlineKeyState) (rows : List ClosedKline) :
    KlineKeyState :=
  let held := state.ring.map (·.openTimeMs)
  let merged := (rows.filter (·.openTimeMs ∉ held) ++ state.ring).insertionSort Earlier
  { state with ring := merged.drop (merged.length - ringSize) }.forgetWindows

/-- The oldest answer of the ring goes first, and the oldest of all where there is none. -/
def evictForInsert (cache : List (ℚ × MemoEntry)) : List (ℚ × MemoEntry) :=
  match cache.findIdx? (·.2.source = .ring) with
  | some index => cache.eraseIdx index
  | none => cache.tail

def rememberWindow (state : KlineKeyState) (size : ℚ) (entry : MemoEntry) : KlineKeyState :=
  let cache :=
    if maxWindowCacheEntries ≤ state.windowCache.length then evictForInsert state.windowCache
    else state.windowCache
  { state with windowCache := set size entry cache }

/-- The slice of the ring, where the ring is long enough for one. -/
def answerFromRing (state : KlineKeyState) (size : ℚ) (readAtMs : ℤ) :
    Option (List ClosedKline × WindowSource) × KlineKeyState :=
  if size ≤ state.ring.length then
    let window := state.ring.drop ⌊max 0 (state.ring.length - size)⌋₊
    (some (window, .ring), state.rememberWindow size ⟨window, readAtMs, .ring⟩)
  else (none, state)

/-- `loadWindow` up to the request it may have to make: the answer with its source, or none
where a request is needed. -/
def loadWindow (state : KlineKeyState) (size : ℚ) (readAtMs : ℤ) :
    Option (List ClosedKline × WindowSource) × KlineKeyState :=
  match get size state.windowCache with
  | none => state.answerFromRing size readAtMs
  | some memo =>
      let ageMs := readAtMs - memo.installedAtMs
      if 0 ≤ ageMs ∧ ageMs < memoMaxAgeMs then (some (memo.window, memo.source), state)
      else
        { state with windowCache := delete size state.windowCache }.answerFromRing size readAtMs

/-- The rest of `loadWindow`, with the rows it fetched. -/
def installRest (state : KlineKeyState) (size : ℚ) (generation : ℕ) (readAtMs nowMs : ℤ)
    (rows : List ClosedKline) : KlineKeyState :=
  let closedNeeded := (max ⌈size⌉ 1).toNat
  let window := rows.drop (rows.length - closedNeeded)
  if state.ringGeneration = generation ∧
      (get size state.windowCache).all (·.installedAtMs ≤ readAtMs) then
    state.rememberWindow size ⟨window, nowMs, .rest⟩
  else state

end KlineKeyState

/-! ### The market -/

/-- The closed candles of one symbol and interval, one after the other. -/
structure Market where
  intervalMs : ℕ
  interval_pos : 0 < intervalMs
  kline : ℕ → ClosedKline
  gapless : ∀ n, (kline (n + 1)).openTimeMs = (kline n).openTimeMs + intervalMs

namespace Market

variable (market : Market)

/-- The candles from `start` on, `count` of them. -/
def klines (start count : ℕ) : List ClosedKline := (List.range' start count).map market.kline

/-- The list is a run of candles without a gap. -/
def Contiguous (list : List ClosedKline) : Prop := ∃ start count, list = market.klines start count

variable {market}

theorem openTimeMs_eq (n : ℕ) :
    (market.kline n).openTimeMs = (market.kline 0).openTimeMs + n * market.intervalMs := by
  induction n with
  | zero => simp
  | succ n ih =>
      rw [market.gapless, ih, Nat.succ_mul]
      omega

theorem openTimeMs_le {n m : ℕ} :
    (market.kline n).openTimeMs ≤ (market.kline m).openTimeMs ↔ n ≤ m := by
  rw [openTimeMs_eq n, openTimeMs_eq m, Nat.add_le_add_iff_left]
  exact Nat.mul_le_mul_right_iff market.interval_pos

theorem openTimeMs_inj {n m : ℕ} :
    (market.kline n).openTimeMs = (market.kline m).openTimeMs ↔ n = m := by
  constructor
  · intro heq
    exact le_antisymm (openTimeMs_le.mp heq.le) (openTimeMs_le.mp heq.ge)
  · rintro rfl
    rfl

@[simp]
theorem klines_length (start count : ℕ) : (market.klines start count).length = count := by
  simp [klines]

theorem klines_drop (start count skipped : ℕ) :
    (market.klines start count).drop skipped =
      market.klines (start + skipped) (count - skipped) := by
  rw [klines, ← List.map_drop, List.drop_range', mul_one]
  rfl

theorem klines_append (start count more : ℕ) :
    market.klines start (count + more) =
      market.klines start count ++ market.klines (start + count) more := by
  rw [klines, klines, klines, ← List.map_append, List.range'_append_1]

theorem klines_split {count stop : ℕ} (h : count ≤ stop) :
    market.klines 0 stop =
      market.klines 0 (stop - count) ++ market.klines (stop - count) count := by
  obtain ⟨start, rfl⟩ := Nat.exists_eq_add_of_le' h
  rw [klines_append, Nat.zero_add, Nat.add_sub_cancel]

/-- The latest of the first `stop` candles are a run. -/
theorem klines_of_suffix {list : List ClosedKline} {stop : ℕ} (h : list <:+ market.klines 0 stop) :
    list.length ≤ stop ∧ list = market.klines (stop - list.length) list.length := by
  have hlength : list.length ≤ stop := by simpa using h.length_le
  refine ⟨hlength, ?_⟩
  have hdrop := List.suffix_iff_eq_drop.mp h
  rw [klines_length, klines_drop, Nat.zero_add, Nat.sub_sub_self hlength] at hdrop
  exact hdrop

theorem klines_suffix {start count stop : ℕ} (h : start + count = stop) :
    market.klines start count <:+ market.klines 0 stop := by
  subst h
  rw [klines_append, Nat.zero_add]
  exact List.suffix_append _ _

theorem append_suffix_klines {ring frames : List ClosedKline} {stop : ℕ} :
    ring ++ frames <:+ market.klines 0 stop ↔ frames.length ≤ stop ∧
      ring <:+ market.klines 0 (stop - frames.length) ∧
      frames = market.klines (stop - frames.length) frames.length := by
  constructor
  · rintro ⟨before, hbefore⟩
    have hlength : frames.length ≤ stop := by
      have := congrArg List.length hbefore
      simp only [List.length_append, klines_length] at this
      omega
    rw [klines_split hlength, ← List.append_assoc] at hbefore
    obtain ⟨hring, hframes⟩ := List.append_inj' hbefore (by simp)
    exact ⟨hlength, ⟨before, hring⟩, hframes⟩
  · rintro ⟨hlength, ⟨before, hring⟩, hframes⟩
    refine ⟨before, ?_⟩
    rw [← List.append_assoc, hring, hframes, klines_length, ← klines_split hlength]

theorem Contiguous.increasing {list : List ClosedKline} (h : market.Contiguous list) :
    (list.map (·.openTimeMs)).Pairwise (· < ·) := by
  obtain ⟨start, count, rfl⟩ := h
  rw [klines, List.map_map, List.pairwise_map]
  refine List.Pairwise.imp (fun {n m} hlt => ?_) List.pairwise_lt_range'
  exact lt_of_not_ge fun hle => absurd (openTimeMs_le.mp hle) (Nat.not_le.mpr hlt)

/-- Sorting candles by their open times, each of them there once. -/
theorem insertionSort_klines {indices sorted : List ℕ} (hsorted : sorted.Pairwise (· < ·))
    (hperm : indices.Perm sorted) :
    (indices.map market.kline).insertionSort Earlier = sorted.map market.kline := by
  have hleft : ((indices.map market.kline).insertionSort Earlier).Pairwise Earlier :=
    List.pairwise_insertionSort _ _
  have hright : (sorted.map market.kline).Pairwise Earlier := by
    rw [List.pairwise_map]
    exact hsorted.imp fun {n m} hlt => openTimeMs_le.mpr hlt.le
  refine List.Perm.eq_of_pairwise ?_ hleft hright
    ((List.perm_insertionSort _ _).trans (hperm.map _))
  intro a b ha hb hab hba
  obtain ⟨n, -, rfl⟩ := List.mem_map.mp ((List.mem_insertionSort _).mp ha)
  obtain ⟨m, -, rfl⟩ := List.mem_map.mp hb
  rw [openTimeMs_inj.mp (le_antisymm hab hba)]

/-- What is new in the rows, before the ring, as indices. -/
theorem filter_klines (first count start held : ℕ) :
    (market.klines first count).filter
        (fun row => row.openTimeMs ∉ (market.klines start held).map (·.openTimeMs)) ++
      market.klines start held =
    (((List.range' first count).filter (· ∉ List.range' start held)) ++
      List.range' start held).map market.kline := by
  rw [List.map_append, klines, klines, List.filter_map]
  congr 2
  apply List.filter_congr
  intro n _
  simp only [Function.comp_apply, List.map_map, decide_eq_decide, List.mem_map, not_exists, not_and]
  constructor
  · intro hnot hmem
    exact hnot n hmem rfl
  · intro hnot m hm heq
    exact hnot (openTimeMs_inj.mp heq ▸ hm)

theorem nodup_new_indices (first count start held : ℕ) :
    ((List.range' first count).filter (· ∉ List.range' start held) ++
      List.range' start held).Nodup := by
  refine List.nodup_append.mpr ⟨List.Nodup.filter _ List.nodup_range',
    List.nodup_range', ?_⟩
  rintro n hn m hm rfl
  simp only [List.mem_filter, decide_eq_true_eq] at hn
  exact hn.2 hm

/-- The merge of two runs that overlap or touch is a run. -/
theorem merge_touching {first count start held : ℕ} (hbefore : start ≤ first + count)
    (hafter : first ≤ start + held) :
    (((List.range' first count).filter (· ∉ List.range' start held)) ++
      List.range' start held).Perm
    (List.range' (min first start) (max (first + count) (start + held) - min first start)) := by
  rw [List.perm_ext_iff_of_nodup (nodup_new_indices first count start held) List.nodup_range']
  intro n
  simp only [List.mem_append, List.mem_filter, List.mem_range'_1, decide_eq_true_eq]
  omega

/-- The merge of two runs apart is the one and then the other. -/
theorem merge_before {first count start : ℕ} (hapart : first + count ≤ start) (held : ℕ) :
    (((List.range' first count).filter (· ∉ List.range' start held)) ++
      List.range' start held).Perm (List.range' first count ++ List.range' start held) := by
  have hnodup : (List.range' first count ++ List.range' start held).Nodup := by
    refine List.nodup_append.mpr ⟨List.nodup_range', List.nodup_range', ?_⟩
    rintro n hn m hm rfl
    rw [List.mem_range'_1] at hn hm
    omega
  rw [List.perm_ext_iff_of_nodup (nodup_new_indices first count start held) hnodup]
  intro n
  simp only [List.mem_append, List.mem_filter, List.mem_range'_1, decide_eq_true_eq]
  omega

end Market

/-! ### The ring as the latest candles -/

namespace KlineKeyState

/-- The ring fits, and what was remembered of it is a slice of its end. -/
structure Sound (ringSize : ℕ) (state : KlineKeyState) : Prop where
  fits : state.ring.length ≤ ringSize
  memo : ∀ entry ∈ state.windowCache, entry.2.source = .ring → entry.2.window <:+ state.ring

variable {market : Market} {ringSize : ℕ} {state : KlineKeyState}

theorem empty_sound : empty.Sound ringSize where
  fits := Nat.zero_le _
  memo := nofun

theorem Sound.forgetWindows (hfits : state.ring.length ≤ ringSize) :
    state.forgetWindows.Sound ringSize :=
  ⟨hfits, nofun⟩

theorem Sound.fanOut (h : state.Sound ringSize) (kline : ClosedKline) :
    (state.fanOut ringSize kline).Sound ringSize := by
  have hfits := h.fits
  refine Sound.forgetWindows ?_
  dsimp only
  split
  · simp
    omega
  · omega

theorem fanOut_suffix (state : KlineKeyState) (ringSize : ℕ) (kline : ClosedKline) :
    (state.fanOut ringSize kline).ring <:+ state.ring ++ [kline] := by
  simp only [KlineKeyState.fanOut, KlineKeyState.forgetWindows]
  split
  · exact List.tail_suffix _
  · exact List.suffix_rfl

/-- Two runs apart, cut down to a part of the second. -/
theorem drop_sorted_apart {first count start held skipped : ℕ} (hapart : first + count ≤ start)
    (hskipped : count ≤ skipped) {indices : List ℕ}
    (hperm : indices.Perm (List.range' first count ++ List.range' start held)) :
    ((indices.map market.kline).insertionSort Earlier).drop skipped <:+
      market.klines start held := by
  have hsorted : (List.range' first count ++ List.range' start held).Pairwise (· < ·) := by
    refine List.pairwise_append.mpr ⟨List.pairwise_lt_range', List.pairwise_lt_range', ?_⟩
    intro n hn m hm
    rw [List.mem_range'_1] at hn hm
    omega
  rw [Market.insertionSort_klines hsorted hperm, List.map_append, List.drop_append]
  have hfirst : ((List.range' first count).map market.kline).drop skipped = [] := by
    apply List.drop_eq_nil_of_le
    simpa using hskipped
  rw [hfirst, List.nil_append]
  exact List.drop_suffix _ _

theorem Sound.mergeColdLoad (rows : List ClosedKline) :
    (state.mergeColdLoad ringSize rows).Sound ringSize := by
  refine Sound.forgetWindows ?_
  simp only [List.length_drop]
  omega

/-- Rows that end no later than the ring, and leave no gap to it or find it full, make a ring of
the latest candles again. -/
theorem mergeColdLoad_suffix {rows : List ClosedKline} {stop last : ℕ}
    (hring : state.ring <:+ market.klines 0 last) (hrows : rows <:+ market.klines 0 stop)
    (hstop : rows ≠ [] → stop ≤ last)
    (hjoins : ringSize ≤ state.ring.length ∨ last ≤ stop + state.ring.length) :
    (state.mergeColdLoad ringSize rows).ring <:+ market.klines 0 last := by
  obtain ⟨hheld, hring⟩ := Market.klines_of_suffix hring
  obtain ⟨hcount, hrows⟩ := Market.klines_of_suffix hrows
  simp only [KlineKeyState.mergeColdLoad, KlineKeyState.forgetWindows]
  generalize state.ring.length = held at *
  generalize hlength : rows.length = count at *
  rw [hring, hrows, Market.filter_klines]
  rcases Nat.eq_zero_or_pos count with rfl | hpos
  · have hsame : ((List.range' (last - held) held).map market.kline).insertionSort Earlier = _ :=
      Market.insertionSort_klines List.pairwise_lt_range' (List.Perm.refl _)
    simp only [List.range'_zero, List.filter_nil, List.nil_append, hsame]
    exact (List.drop_suffix _ _).trans (Market.klines_suffix (Nat.sub_add_cancel hheld))
  have hstop := hstop (List.length_pos_iff.mp (hlength ▸ hpos))
  by_cases htouches : last - held ≤ stop
  · have hperm := Market.merge_touching (show last - held ≤ stop - count + count by omega)
      (show stop - count ≤ last - held + held by omega)
    rw [Market.insertionSort_klines List.pairwise_lt_range' hperm]
    exact (List.drop_suffix _ _).trans (Market.klines_suffix (by omega))
  · -- the rows lie before a gap and the ring is full
    have hapart : stop - count + count ≤ last - held := by omega
    have hperm := Market.merge_before hapart held
    refine (drop_sorted_apart hapart ?_ hperm).trans
      (Market.klines_suffix (Nat.sub_add_cancel hheld))
    rw [List.length_insertionSort, List.length_map, hperm.length_eq]
    simp
    omega

/-! ### Windows -/

theorem mem_evictForInsert {cache : List (ℚ × MemoEntry)} {entry : ℚ × MemoEntry}
    (h : entry ∈ evictForInsert cache) : entry ∈ cache := by
  unfold evictForInsert at h
  split at h
  · exact List.mem_of_mem_eraseIdx h
  · exact List.mem_of_mem_tail h

theorem Sound.rememberWindow (h : state.Sound ringSize) (size : ℚ) {entry : MemoEntry}
    (hentry : entry.source = .ring → entry.window <:+ state.ring) :
    (state.rememberWindow size entry).Sound ringSize where
  fits := h.fits
  memo := by
    intro other hother hsource
    rcases mem_of_mem_set hother with rfl | hother
    · exact hentry hsource
    · refine h.memo other ?_ hsource
      split at hother
      · exact mem_evictForInsert hother
      · exact hother

theorem answerFromRing_suffix {size : ℚ} {readAtMs : ℤ} {window : List ClosedKline}
    {source : WindowSource}
    (hanswer : (state.answerFromRing size readAtMs).1 = some (window, source)) :
    window <:+ state.ring := by
  unfold answerFromRing at hanswer
  split at hanswer
  · obtain ⟨rfl, -⟩ := Prod.mk.inj (Option.some.inj hanswer)
    exact List.drop_suffix _ _
  · cases hanswer

theorem Sound.answerFromRing (h : state.Sound ringSize) (size : ℚ) (readAtMs : ℤ) :
    (state.answerFromRing size readAtMs).2.Sound ringSize := by
  unfold KlineKeyState.answerFromRing
  split
  · exact h.rememberWindow size fun _ => List.drop_suffix _ _
  · exact h

theorem Sound.forgetWindow (h : state.Sound ringSize) (size : ℚ) :
    { state with windowCache := delete size state.windowCache }.Sound ringSize :=
  ⟨h.fits, fun entry hentry => h.memo entry (List.mem_filter.mp hentry).1⟩

theorem Sound.loadWindow (h : state.Sound ringSize) (size : ℚ) (readAtMs : ℤ) :
    (state.loadWindow size readAtMs).2.Sound ringSize := by
  unfold KlineKeyState.loadWindow
  split
  · exact h.answerFromRing size readAtMs
  · dsimp only
    split
    · exact h
    · exact (h.forgetWindow size).answerFromRing size readAtMs

/-- What is answered from the ring, now or when it was remembered, ends the ring. -/
theorem Sound.loadWindow_suffix (h : state.Sound ringSize) {size : ℚ} {readAtMs : ℤ}
    {window : List ClosedKline}
    (hanswer : (state.loadWindow size readAtMs).1 = some (window, .ring)) :
    window <:+ state.ring := by
  unfold KlineKeyState.loadWindow at hanswer
  split at hanswer
  · exact answerFromRing_suffix hanswer
  · next memo hmemo =>
      dsimp only at hanswer
      split at hanswer
      · obtain ⟨hwindow, hsource⟩ := Prod.mk.inj (Option.some.inj hanswer)
        rw [← hwindow]
        exact h.memo (size, memo) (mem_of_get hmemo) hsource
      · have hsuffix := answerFromRing_suffix hanswer
        exact hsuffix

theorem answerFromRing_ring (state : KlineKeyState) (size : ℚ) (readAtMs : ℤ) :
    (state.answerFromRing size readAtMs).2.ring = state.ring := by
  unfold answerFromRing
  split <;> rfl

theorem loadWindow_ring (state : KlineKeyState) (size : ℚ) (readAtMs : ℤ) :
    (state.loadWindow size readAtMs).2.ring = state.ring := by
  unfold loadWindow
  split
  · exact answerFromRing_ring _ size readAtMs
  · dsimp only
    split
    · rfl
    · exact answerFromRing_ring _ size readAtMs

theorem installRest_ring (state : KlineKeyState) (size : ℚ) (generation : ℕ) (readAtMs nowMs : ℤ)
    (rows : List ClosedKline) :
    (state.installRest size generation readAtMs nowMs rows).ring = state.ring := by
  unfold installRest
  dsimp only
  split <;> rfl

theorem Sound.installRest (h : state.Sound ringSize) (size : ℚ) (generation : ℕ)
    (readAtMs nowMs : ℤ) (rows : List ClosedKline) :
    (state.installRest size generation readAtMs nowMs rows).Sound ringSize := by
  unfold KlineKeyState.installRest
  dsimp only
  split
  · refine h.rememberWindow size ?_
    intro hring
    cases hring
  · exact h

end KlineKeyState

/-! ### Runs of one key -/

/-- The load that the first subscribe starts. -/
inductive ColdLoad where
  | requested
  | answered (rows : List ClosedKline)
  | finished
deriving DecidableEq

structure RestLoad where
  size : ℚ
  generation : ℕ
  readAtMs : ℤ

/-- One key with the exchange: how many candles have closed, the frames on their way over the
socket, and the requests in flight. -/
structure KlineWorld where
  closedCount : ℕ
  socketOpen : Bool
  frames : List ClosedKline
  coldLoad : ColdLoad
  restLoads : List RestLoad
  state : KlineKeyState

inductive KlineStep where
  | candleCloses
  | socketOpens
  | socketCloses
  | frame
  /-- The exchange answers the cold load with the latest `count` candles. -/
  | coldAnswers (count : ℕ)
  | coldMerges
  | coldFails
  | loadWindow (size : ℚ) (nowMs : ℤ)
  | restAnswers (call : ℕ) (rows : List ClosedKline) (nowMs : ℤ)
  | restFails (call : ℕ)

namespace KlineWorld

variable (market : Market) (ringSize : ℕ)

/-- A key just subscribed, `closedCount` candles into the market. -/
def start (closedCount : ℕ) : KlineWorld :=
  ⟨closedCount, false, [], .requested, [], .empty⟩

def step (w : KlineWorld) : KlineStep → Option KlineWorld
  | .candleCloses =>
      some { w with
        closedCount := w.closedCount + 1
        frames := if w.socketOpen then w.frames ++ [market.kline w.closedCount] else w.frames }
  | .socketOpens => some { w with socketOpen := true }
  | .socketCloses =>
      some { w with socketOpen := false, frames := [], state := w.state.forgetWindows }
  | .frame =>
      match w.frames with
      | [] => none
      | kline :: rest => some { w with frames := rest, state := w.state.fanOut ringSize kline }
  | .coldAnswers count =>
      if w.coldLoad = .requested ∧ count ≤ w.closedCount then
        some { w with coldLoad := .answered (market.klines (w.closedCount - count) count) }
      else none
  | .coldMerges =>
      match w.coldLoad with
      | .answered rows =>
          some { w with coldLoad := .finished, state := w.state.mergeColdLoad ringSize rows }
      | _ => none
  | .coldFails => some { w with coldLoad := .finished }
  | .loadWindow size nowMs =>
      let answer := w.state.loadWindow size nowMs
      some { w with
        state := answer.2
        restLoads :=
          if answer.1.isSome then w.restLoads
          else w.restLoads ++ [⟨size, answer.2.ringGeneration, nowMs⟩] }
  | .restAnswers call rows nowMs =>
      match w.restLoads[call]? with
      | none => none
      | some load =>
          some { w with
            restLoads := w.restLoads.eraseIdx call
            state := w.state.installRest load.size load.generation load.readAtMs nowMs rows }
  | .restFails call => some { w with restLoads := w.restLoads.eraseIdx call }

/-- The ring holds a candle, or the answer that will fill it is there. -/
def holds (w : KlineWorld) : Bool :=
  !w.state.ring.isEmpty || match w.coldLoad with
    | .answered _ => true
    | _ => false

/-- No candle is lost once one is held, and no candle is merged whose frame is still on its way. -/
def orderly (w : KlineWorld) : KlineStep → Bool
  | .candleCloses => w.socketOpen || !w.holds
  | .socketCloses => w.frames.isEmpty || !w.holds
  | .coldMerges =>
      match w.coldLoad with
      | .answered rows => w.frames.all (· ∉ rows)
      | _ => true
  | _ => true

def Orderly (w : KlineWorld) (label : KlineStep) : Prop := w.orderly label = true

/-- The ring and the frames on their way are the latest candles, and what the cold load was answered
with leaves no gap to them. -/
structure Kept (w : KlineWorld) : Prop where
  sound : w.state.Sound ringSize
  latest : w.state.ring ++ w.frames <:+ market.klines 0 w.closedCount
  closed : w.socketOpen = false → w.frames = []
  rows : ∀ rows, w.coldLoad = .answered rows → ∃ stop ≤ w.closedCount,
    rows <:+ market.klines 0 stop ∧
      (ringSize ≤ w.state.ring.length ∨
        w.closedCount ≤ stop + w.state.ring.length + w.frames.length)

variable {market ringSize} {w w' : KlineWorld}

theorem start_kept (closedCount : ℕ) : (start closedCount).Kept market ringSize where
  sound := KlineKeyState.empty_sound
  latest := List.nil_suffix
  closed _ := rfl
  rows := nofun

theorem not_holds (h : w.holds = false) :
    w.state.ring = [] ∧ ∀ rows, w.coldLoad ≠ .answered rows := by
  simp only [holds, Bool.or_eq_false_iff, Bool.not_eq_false', List.isEmpty_iff] at h
  refine ⟨h.1, fun rows hrows => ?_⟩
  simp [hrows] at h

theorem Kept.frame {kline : ClosedKline} {rest : List ClosedKline} (h : w.Kept market ringSize)
    (hframes : w.frames = kline :: rest) :
    { w with frames := rest, state := w.state.fanOut ringSize kline }.Kept market ringSize where
  sound := h.sound.fanOut kline
  latest := by
    have hlatest := h.latest
    rw [hframes, ← List.singleton_append, ← List.append_assoc] at hlatest
    obtain ⟨before, hbefore⟩ := w.state.fanOut_suffix ringSize kline
    exact (List.IsSuffix.trans ⟨before, by rw [← List.append_assoc, hbefore]⟩ hlatest)
  closed hclosed := by cases hframes.symm.trans (h.closed hclosed)
  rows rows hrows := by
    obtain ⟨stop, hstop, hrows, hjoins⟩ := h.rows rows hrows
    refine ⟨stop, hstop, hrows, ?_⟩
    simp only [KlineKeyState.fanOut, KlineKeyState.forgetWindows]
    rw [hframes, List.length_cons] at hjoins
    split
    · next hover =>
        left
        simp only [List.length_append, List.length_singleton, List.length_tail] at hover ⊢
        omega
    · simp only [List.length_append, List.length_singleton]
      omega

theorem Kept.merge {rows : List ClosedKline} (h : w.Kept market ringSize)
    (hanswered : w.coldLoad = .answered rows) (hnew : ∀ kline ∈ w.frames, kline ∉ rows) :
    { w with coldLoad := .finished, state := w.state.mergeColdLoad ringSize rows }.Kept
      market ringSize where
  sound := .mergeColdLoad rows
  latest := by
    obtain ⟨hlength, hring, hframes⟩ := Market.append_suffix_klines.mp h.latest
    obtain ⟨stop, hstop, hrows, hjoins⟩ := h.rows rows hanswered
    refine Market.append_suffix_klines.mpr ⟨hlength, ?_, hframes⟩
    dsimp only
    refine KlineKeyState.mergeColdLoad_suffix hring hrows (fun hrows' => ?_) (by omega)
    by_contra hlate
    -- the last row is the candle of a frame
    obtain ⟨hcount, hrows⟩ := Market.klines_of_suffix hrows
    have hpos := List.length_pos_iff.mpr hrows'
    have hframe : market.kline (stop - 1) ∈ w.frames := by
      rw [hframes]
      exact List.mem_map_of_mem (List.mem_range'_1.mpr ⟨by omega, by omega⟩)
    refine hnew _ hframe ?_
    rw [hrows]
    exact List.mem_map_of_mem (List.mem_range'_1.mpr ⟨by omega, by omega⟩)
  closed := h.closed
  rows := nofun

theorem step_kept {label : KlineStep} (h : w.Kept market ringSize) (horderly : w.Orderly label)
    (hstep : w.step market ringSize label = some w') : w'.Kept market ringSize := by
  cases label with
  | candleCloses =>
      obtain rfl := Option.some.inj hstep
      cases hopen : w.socketOpen with
      | true =>
          obtain ⟨before, hbefore⟩ := h.latest
          refine ⟨h.sound, ⟨before, ?_⟩, nofun, fun rows hrows => ?_⟩
          · rw [if_pos rfl, Market.klines_append, ← hbefore, Nat.zero_add]
            simp [Market.klines]
          · obtain ⟨stop, hstop, hrows, hjoins⟩ := h.rows rows hrows
            refine ⟨stop, Nat.le_succ_of_le hstop, hrows, ?_⟩
            dsimp only
            rw [if_pos rfl, List.length_append, List.length_singleton]
            omega
      | false =>
          have hholds : w.holds = false := by simpa [Orderly, orderly, hopen] using horderly
          obtain ⟨hring, hanswered⟩ := not_holds hholds
          refine ⟨h.sound, ?_, fun _ => h.closed hopen,
            fun rows hrows => absurd hrows (hanswered rows)⟩
          simp [hring, h.closed hopen]
  | socketOpens =>
      obtain rfl := Option.some.inj hstep
      exact ⟨h.sound, h.latest, nofun, h.rows⟩
  | socketCloses =>
      obtain rfl := Option.some.inj hstep
      rcases (Bool.or_eq_true _ _).mp horderly with hframes | hholds
      · have hframes := List.isEmpty_iff.mp hframes
        exact ⟨.forgetWindows h.sound.fits, hframes ▸ h.latest, fun _ => rfl, hframes ▸ h.rows⟩
      · obtain ⟨hring, hanswered⟩ := not_holds (by simpa using hholds)
        refine ⟨.forgetWindows h.sound.fits, ?_, fun _ => rfl,
          fun rows hrows => absurd hrows (hanswered rows)⟩
        simp [KlineKeyState.forgetWindows, hring]
  | frame =>
      simp only [step] at hstep
      split at hstep
      · cases hstep
      · next kline rest hframes =>
          obtain rfl := Option.some.inj hstep
          exact h.frame hframes
  | coldAnswers count =>
      simp only [step] at hstep
      split at hstep
      · next hanswers =>
          obtain rfl := Option.some.inj hstep
          refine ⟨h.sound, h.latest, h.closed, fun rows hrows => ?_⟩
          obtain rfl := ColdLoad.answered.inj hrows
          exact ⟨w.closedCount, le_rfl,
            Market.klines_suffix (Nat.sub_add_cancel hanswers.2), .inr (by dsimp only; omega)⟩
      · cases hstep
  | coldMerges =>
      simp only [step] at hstep
      split at hstep
      · next rows hrows =>
          obtain rfl := Option.some.inj hstep
          exact h.merge hrows (by simpa [Orderly, orderly, hrows] using horderly)
      · cases hstep
  | coldFails =>
      obtain rfl := Option.some.inj hstep
      exact ⟨h.sound, h.latest, h.closed, nofun⟩
  | loadWindow size nowMs =>
      obtain rfl := Option.some.inj hstep
      have hring := w.state.loadWindow_ring size nowMs
      refine ⟨h.sound.loadWindow size nowMs, ?_, h.closed, ?_⟩
      · simpa only [hring] using h.latest
      · simpa only [hring] using h.rows
  | restAnswers call rows nowMs =>
      simp only [step] at hstep
      split at hstep
      · cases hstep
      · next load hload =>
          obtain rfl := Option.some.inj hstep
          have hring := w.state.installRest_ring load.size load.generation load.readAtMs
            nowMs rows
          refine ⟨h.sound.installRest _ _ _ _ _, ?_, h.closed, ?_⟩
          · simpa only [hring] using h.latest
          · simpa only [hring] using h.rows
  | restFails call =>
      obtain rfl := Option.some.inj hstep
      exact ⟨h.sound, h.latest, h.closed, h.rows⟩

/-- The ring is strictly increasing, and every window answered from it is a run of candles. -/
structure RealWindows (market : Market) (state : KlineKeyState) : Prop where
  increasing : (state.ring.map (·.openTimeMs)).Pairwise (· < ·)
  windows : ∀ size nowMs window, (state.loadWindow size nowMs).1 = some (window, .ring) →
    market.Contiguous window

/-- In a run that loses no candle once it holds one, and merges none whose frame is still on its
way, the windows are real. -/
theorem windows_are_runs {closedCount : ℕ} {w : KlineWorld}
    (hrun : Reach (step market ringSize) Orderly (start closedCount) w) :
    RealWindows market w.state := by
  have hkept : w.Kept market ringSize :=
    hrun.invariant (start_kept closedCount) fun s label t h horderly hstep =>
      step_kept h horderly hstep
  obtain ⟨-, hring, -⟩ := Market.append_suffix_klines.mp hkept.latest
  have hcontiguous : ∀ {list}, list <:+ w.state.ring → market.Contiguous list := fun hlist =>
    ⟨_, _, (Market.klines_of_suffix (hlist.trans hring)).2⟩
  exact ⟨(hcontiguous List.suffix_rfl).increasing, fun size nowMs window hanswer =>
    hcontiguous (hkept.sound.loadWindow_suffix hanswer)⟩

/-- A market of minutes in which nothing ever happens. -/
def flatMarket : Market where
  intervalMs := 60000
  interval_pos := by decide
  kline := fun n => ⟨n * 60000, n * 60000 + 59999, "1", "1", "1", "1", "0"⟩
  gapless := fun n => by simp [Nat.succ_mul]

/-- The candle that a cold load brought and the frame of the next one. -/
theorem loaded_then_streamed : ∃ w : KlineWorld,
    Reach (step flatMarket 256) Orderly (start 2) w ∧
    w.state.ring = flatMarket.klines 0 3 ∧ RealWindows flatMarket w.state := by
  have hrun : (run (step flatMarket 256) orderly (start 2)
      [.socketOpens, .coldAnswers 2, .coldMerges, .candleCloses, .frame]).map (·.state.ring) =
      some (flatMarket.klines 0 3) := by
    decide +kernel
  obtain ⟨w, hw, hring⟩ := Option.map_eq_some_iff.mp hrun
  have hreach : Reach (step flatMarket 256) Orderly (start 2) w :=
    reach_of_run (fun _ _ h => h) hw
  exact ⟨w, hreach, hring, windows_are_runs hreach⟩

/-- The frame of a candle that the cold load already had is appended again, and the first frame
after an outage is appended to what was there before it. -/
theorem late_frame_and_outage :
    (∃ w : KlineWorld, Reach (step flatMarket 256) (fun _ _ => True) (start 1) w ∧
      w.state.ring.map (·.openTimeMs) = [0, 60000, 60000] ∧ ¬ RealWindows flatMarket w.state) ∧
    ∃ w : KlineWorld, Reach (step flatMarket 256) (fun _ _ => True) (start 1) w ∧
      (w.state.loadWindow 2 0).1 = some ([flatMarket.kline 0, flatMarket.kline 2], .ring) ∧
      ¬ RealWindows flatMarket w.state := by
  have htwice : (run (step flatMarket 256) (fun _ _ => true) (start 1)
      [.socketOpens, .candleCloses, .coldAnswers 2, .coldMerges, .frame]).map
        (fun w => w.state.ring.map (·.openTimeMs)) = some [0, 60000, 60000] := by
    decide +kernel
  have hgap : (run (step flatMarket 256) (fun _ _ => true) (start 1)
      [.coldAnswers 1, .coldMerges, .socketOpens, .socketCloses, .candleCloses, .socketOpens,
        .candleCloses, .frame]).map (fun w => (w.state.loadWindow 2 0).1) =
      some (some ([flatMarket.kline 0, flatMarket.kline 2], .ring)) := by
    decide +kernel
  obtain ⟨w, hw, hring⟩ := Option.map_eq_some_iff.mp htwice
  obtain ⟨v, hv, hwindow⟩ := Option.map_eq_some_iff.mp hgap
  refine ⟨⟨w, reach_of_run (fun _ _ _ => trivial) hw, hring, fun hreal => ?_⟩,
    ⟨v, reach_of_run (fun _ _ _ => trivial) hv, hwindow, fun hreal => ?_⟩⟩
  · have hincreasing := hreal.increasing
    rw [hring] at hincreasing
    exact absurd hincreasing (by decide)
  · have hincreasing := hreal.windows 2 0 _ hwindow
    obtain ⟨first, count, hrun⟩ := hincreasing
    have hcount : count = 2 := by simpa using (congrArg List.length hrun).symm
    subst hcount
    simp only [Market.klines, List.range'_succ, List.range'_zero, List.map_cons, List.map_nil,
      List.cons.injEq, and_true] at hrun
    have hfirst := Market.openTimeMs_inj.mp (congrArg ClosedKline.openTimeMs hrun.1)
    have hsecond := Market.openTimeMs_inj.mp (congrArg ClosedKline.openTimeMs hrun.2)
    omega

end KlineWorld

end TradingBot.Binance

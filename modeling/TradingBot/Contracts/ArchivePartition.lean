import Mathlib.Tactic.Linarith
import Mathlib.Tactic.Ring
import TradingBot.Contracts.Archive

/-!
# The rollups partition the archive

Each row goes to the one bucket of its quote asset and label, so what the
buckets of a quote asset add up to is what its rows add up to, in whatever order
the rows come. The summary of a profile takes one bucket, and rows of another
quote asset are in another.
-/

namespace TradingBot.Contracts

open Grouping

/-! ### Keys -/

def SpaceFree (s : String) : Prop := ' ' ∉ s.toList

instance (s : String) : Decidable (SpaceFree s) := inferInstanceAs (Decidable (¬_))

theorem eq_of_key_eq {quote quote' label label' : String} (hquote : SpaceFree quote)
    (hquote' : SpaceFree quote') (h : quote ++ " " ++ label = quote' ++ " " ++ label') :
    quote = quote' ∧ label = label' := by
  have hlists : quote.toList ++ ' ' :: label.toList = quote'.toList ++ ' ' :: label'.toList := by
    simpa [← String.toList_inj, String.toList_append] using h
  have hsplit : ∀ xs ys us vs : List Char, ' ' ∉ xs → ' ' ∉ ys → xs ++ ' ' :: us = ys ++ ' ' :: vs →
      xs = ys ∧ us = vs := by
    intro xs
    induction xs with
    | nil =>
        intro ys us vs _ hys heq
        cases ys with
        | nil => exact ⟨rfl, (List.cons.inj heq).2⟩
        | cons c ys => exact absurd ((List.cons.inj heq).1 ▸ List.mem_cons_self) hys
    | cons c xs ih =>
        intro ys us vs hxs hys heq
        cases ys with
        | nil => exact absurd ((List.cons.inj heq).1 ▸ List.mem_cons_self) hxs
        | cons d ys =>
            obtain ⟨rfl, htail⟩ := List.cons.inj heq
            obtain ⟨rfl, rfl⟩ := ih ys us vs (fun hm => hxs (List.mem_cons_of_mem _ hm))
              (fun hm => hys (List.mem_cons_of_mem _ hm)) htail
            exact ⟨rfl, rfl⟩
  obtain ⟨hq, hl⟩ := hsplit _ _ _ _ hquote hquote' hlists
  exact ⟨String.toList_inj.mp hq, String.toList_inj.mp hl⟩

/-! ### One step of a bucket -/

section Steps

variable {isoInstant : String → Option ℤ} {b : RollupBucket} {item : ArchiveRollupItem}

theorem accumulate_valued (h : item.basis ≠ .unknown) :
    accumulate isoInstant b item = (b.record isoInstant item).value item := if_neg h

theorem accumulate_unvalued (h : item.basis = .unknown) :
    accumulate isoInstant b item = b.record isoInstant item :=
  if_pos h

@[simp] theorem accumulate_quoteAsset :
    (accumulate isoInstant b item).quoteAsset = b.quoteAsset := by
  unfold accumulate
  dsimp only
  split <;> rfl

theorem weakestFeeBasis_right_comm (a b c : FeeBasis) :
    weakestFeeBasis (weakestFeeBasis a b) c = weakestFeeBasis (weakestFeeBasis a c) b := by
  cases a <;> cases b <;> cases c <;> rfl

/-- Rows may enter a bucket in any order. -/
theorem accumulate_comm (b : RollupBucket) (x y : ArchiveRollupItem) :
    accumulate isoInstant (accumulate isoInstant b x) y =
      accumulate isoInstant (accumulate isoInstant b y) x := by
  by_cases hx : x.basis = .unknown
  · by_cases hy : y.basis = .unknown
    · rw [accumulate_unvalued hx, accumulate_unvalued hy, accumulate_unvalued hx,
        accumulate_unvalued hy]
      simp only [RollupBucket.record, RollupBucket.mk.injEq, true_and, and_true]
      exact ⟨by ring, by ring, by ring⟩
    · rw [accumulate_unvalued hx, accumulate_valued hy, accumulate_unvalued hx,
        accumulate_valued hy]
      simp only [RollupBucket.record, RollupBucket.value, RollupBucket.mk.injEq, true_and, and_true]
      exact ⟨by ring, by ring, by ring⟩
  · by_cases hy : y.basis = .unknown
    · rw [accumulate_valued hx, accumulate_unvalued hy, accumulate_valued hx,
        accumulate_unvalued hy]
      simp only [RollupBucket.record, RollupBucket.value, RollupBucket.mk.injEq, true_and, and_true]
      exact ⟨by ring, by ring, by ring⟩
    · rw [accumulate_valued hx, accumulate_valued hy, accumulate_valued hx, accumulate_valued hy]
      simp only [RollupBucket.record, RollupBucket.value, RollupBucket.mk.injEq, true_and]
      exact ⟨by ring, by ring, by ring, by ring, by ring, by ring, by ring, by ring, by ring,
        weakestFeeBasis_right_comm _ _ _⟩

end Steps

/-! ### What a bucket keeps -/

/-- The bucket is the one of its key, its net result is the gross profit less the gross loss, and
it counts no more wins and losses than valued rows, and no more of these than rows. -/
structure RollupBucket.Sound (key : String) (b : RollupBucket) : Prop where
  key_eq : key = b.quoteAsset ++ " " ++ b.dimension
  spaceFree : SpaceFree b.quoteAsset
  net_eq : b.netProfitSum - b.totalFees = b.grossProfit - b.grossLoss
  wins_le : b.wins + b.losses ≤ b.netTradeCount
  net_le : b.netTradeCount ≤ b.tradeCount

section Bucket

variable {isoInstant : String → Option ℤ} {dimensionOf : ArchiveRollupItem → String}
  {items : List ArchiveRollupItem}

theorem sound_emptyBucket {item : ArchiveRollupItem} (h : SpaceFree item.quoteAsset) :
    (emptyBucket dimensionOf item).Sound (bucketKey dimensionOf item) :=
  ⟨rfl, h, by simp [emptyBucket], le_rfl, le_rfl⟩

theorem sound_accumulate {key : String} {b : RollupBucket} (h : b.Sound key)
    (item : ArchiveRollupItem) : (accumulate isoInstant b item).Sound key := by
  by_cases hbasis : item.basis = .unknown
  · rw [accumulate_unvalued hbasis]
    exact ⟨h.key_eq, h.spaceFree, h.net_eq, h.wins_le, h.net_le.trans (Nat.le_succ _)⟩
  · rw [accumulate_valued hbasis]
    refine ⟨h.key_eq, h.spaceFree, ?_, ?_, Nat.succ_le_succ h.net_le⟩
    · have hnet := h.net_eq
      have hitem : item.net = item.profit - item.fees := rfl
      simp only [RollupBucket.value, RollupBucket.record]
      rcases lt_trichotomy item.net 0 with hlt | heq | hgt
      · rw [if_neg hlt.not_gt, if_pos hlt, abs_of_neg hlt]
        linarith
      · simp only [heq, lt_irrefl, if_false]
        linarith
      · rw [if_pos hgt, if_neg hgt.not_gt]
        linarith
    · have hwins := h.wins_le
      simp only [RollupBucket.value, RollupBucket.record]
      rcases lt_trichotomy item.net 0 with hlt | heq | hgt
      · rw [if_neg hlt.not_gt, if_pos hlt]
        omega
      · simp only [heq, lt_irrefl, if_false]
        omega
      · rw [if_pos hgt, if_neg hgt.not_gt]
        omega

theorem sound_of_mem (hitems : ∀ item ∈ items, SpaceFree item.quoteAsset) {key : String}
    {b : RollupBucket}
    (h : (key, b) ∈ group (bucketKey dimensionOf) (emptyBucket dimensionOf)
      (accumulate isoInstant) items) :
    b.Sound key :=
  forall_group (fun item hitem => sound_emptyBucket (hitems item hitem))
    (fun item _ _ hb => sound_accumulate hb item) h

/-- The tier of a bucket is the weakest of the valued rows it took in. -/
theorem foldl_feeBasis (start : RollupBucket) (hstart : start.feeBasis = .exact)
    (hnone : start.netTradeCount = 0) (members : List ArchiveRollupItem) :
    ((members.foldl (accumulate isoInstant) start).netTradeCount = 0 ↔
      ∀ item ∈ members, item.basis = .unknown) ∧
    (∀ item ∈ members, item.basis ≠ .unknown →
      (members.foldl (accumulate isoInstant) start).feeBasis.rank ≤ item.basis.rank) ∧
    ((members.foldl (accumulate isoInstant) start).feeBasis = .exact ∨
      ∃ item ∈ members, item.basis ≠ .unknown ∧
        (members.foldl (accumulate isoInstant) start).feeBasis = item.basis) := by
  induction members using List.reverseRecOn with
  | nil => exact ⟨by simpa using hnone, by simp, .inl hstart⟩
  | append_singleton members item ih =>
      obtain ⟨hcount, hle, hattained⟩ := ih
      rw [List.foldl_append, List.foldl_cons, List.foldl_nil]
      generalize members.foldl (accumulate isoInstant) start = b at hcount hle hattained ⊢
      by_cases hbasis : item.basis = .unknown
      · rw [accumulate_unvalued hbasis]
        refine ⟨?_, ?_, ?_⟩
        · simp [RollupBucket.record, hcount, hbasis, or_imp, forall_and]
        · intro other hother hvalued
          rcases List.mem_append.mp hother with hmem | hmem
          · exact hle other hmem hvalued
          · exact absurd (List.mem_singleton.mp hmem ▸ hbasis) hvalued
        · refine hattained.imp_right ?_
          rintro ⟨other, hother, hfound⟩
          exact ⟨other, List.mem_append_left _ hother, hfound⟩
      · rw [accumulate_valued hbasis]
        have hweak : ∀ a c : FeeBasis, (weakestFeeBasis a c).rank ≤ a.rank ∧
            (weakestFeeBasis a c).rank ≤ c.rank := by
          intro a c
          cases a <;> cases c <;> decide
        refine ⟨?_, ?_, ?_⟩
        · refine iff_of_false (Nat.succ_ne_zero _) fun hall => hbasis ?_
          exact hall item (List.mem_append_right _ List.mem_cons_self)
        · intro other hother hvalued
          rcases List.mem_append.mp hother with hmem | hmem
          · exact (hweak _ _).1.trans (hle other hmem hvalued)
          · rw [List.mem_singleton.mp hmem]
            exact (hweak _ _).2
        · -- the weaker of the two is the bucket's tier so far or the row's own
          rcases ite_eq_or_eq (b.feeBasis.rank ≤ item.basis.rank) b.feeBasis item.basis with
            hold | hnew
          · refine hattained.imp hold.trans ?_
            rintro ⟨other, hother, hvalued, hfound⟩
            exact ⟨other, List.mem_append_left _ hother, hvalued, hold.trans hfound⟩
          · exact .inr ⟨item, List.mem_append_right _ List.mem_cons_self, hbasis, hnew⟩

end Bucket

/-! ### What the rows of a rollup add up to -/

/-- The figures of a set of cycles in one quote asset. -/
structure Totals where
  tradeCount : ℕ
  netTradeCount : ℕ
  wins : ℕ
  losses : ℕ
  profitSum : ℚ
  netProfit : ℚ
  totalFees : ℚ

/-- What the rows of a quote asset add up to. -/
def rowTotals (quote : String) (rows : List RollupRow) : Totals :=
  let own := rows.filter fun row => row.quoteAsset = quote
  { tradeCount := (own.map (·.tradeCount)).sum
    netTradeCount := (own.map (·.netTradeCount)).sum
    wins := (own.map (·.wins)).sum
    losses := (own.map (·.losses)).sum
    profitSum := (own.map (·.profitSum)).sum
    netProfit := (own.map (·.netProfit)).sum
    totalFees := (own.map (·.totalFees)).sum }

def isValued (item : ArchiveRollupItem) : Bool := item.basis ≠ .unknown

/-- The figures of the cycles themselves: recorded over all, net over the valued ones. -/
def itemTotals (quote : String) (items : List ArchiveRollupItem) : Totals :=
  let own := items.filter fun item => item.quoteAsset = quote
  let valued := own.filter isValued
  { tradeCount := own.length
    netTradeCount := valued.length
    wins := (valued.filter fun item => 0 < item.net).length
    losses := (valued.filter fun item => item.net < 0).length
    profitSum := (own.map (·.profit)).sum
    netProfit := (valued.map (·.net)).sum
    totalFees := (valued.map (·.fees)).sum }

/-- A sum over the rows of a quote asset, each row weighed or not. -/
theorem sum_filter_map {α M : Type} [AddCommMonoid M] (p : α → Bool) (f : α → M) (l : List α) :
    ((l.filter p).map f).sum = (l.map fun a => if p a then f a else 0).sum := by
  induction l with
  | nil => rfl
  | cons a l ih =>
      by_cases hp : p a = true
      · rw [List.filter_cons_of_pos hp, List.map_cons, List.map_cons, List.sum_cons, List.sum_cons,
          if_pos hp, ih]
      · rw [List.filter_cons_of_neg hp, List.map_cons, List.sum_cons, if_neg hp, zero_add, ih]

section Rollup

variable {isoInstant : String → Option ℤ} (localeCompare : String → String → Ordering)
  {dimensionOf : ArchiveRollupItem → String}
  {items : List ArchiveRollupItem}

theorem perm_accumulateBuckets (dimensionOf : ArchiveRollupItem → String)
    (items : List ArchiveRollupItem) :
    (accumulateBuckets isoInstant localeCompare items dimensionOf).Perm
      ((group (bucketKey dimensionOf) (emptyBucket dimensionOf) (accumulate isoInstant) items).map
        (·.2)) :=
  List.perm_insertionSort _ _

theorem sum_rows {M : Type} [AddCommMonoid M] (hitems : ∀ item ∈ items, SpaceFree item.quoteAsset)
    {f : RollupBucket → M} {g : ArchiveRollupItem → M}
    (hzero : ∀ item, f (emptyBucket dimensionOf item) = 0)
    (hadd : ∀ b item, f (accumulate isoInstant b item) = f b + g item) (quote : String) :
    (((accumulateBuckets isoInstant localeCompare items dimensionOf).filter
      (·.quoteAsset = quote)).map f).sum =
      ((items.filter (·.quoteAsset = quote)).map g).sum := by
  rw [((perm_accumulateBuckets localeCompare dimensionOf items).filter _ |>.map f).sum_eq,
    sum_filter_map, sum_filter_map, List.map_map]
  refine sum_group (P := fun key (b : RollupBucket) => b.Sound key)
    (f := fun b => if decide (b.quoteAsset = quote) = true then f b else 0)
    (fun item hitem => sound_emptyBucket (hitems item hitem))
    (fun item _ _ hb => sound_accumulate hb item) (fun item => ?_) fun item hitem b hb => ?_
  · simp [hzero]
  · -- a row only enters the bucket of its own quote asset
    obtain ⟨hquote, -⟩ := eq_of_key_eq (hitems item hitem) hb.spaceFree hb.key_eq
    simp only [accumulate_quoteAsset, hquote, decide_eq_true_eq]
    by_cases hq : b.quoteAsset = quote
    · rw [if_pos hq, if_pos hq, if_pos hq, hadd]
    · rw [if_neg hq, if_neg hq, if_neg hq, add_zero]

/-- What one row adds to the bucket it enters. -/
theorem length_filter_eq_sum {α : Type} (p : α → Bool) (l : List α) :
    (l.filter p).length = (l.map fun a => if p a then 1 else 0).sum := by
  rw [← sum_filter_map p (fun _ => 1)]
  simp

theorem accumulate_net {M : Type} [AddCommMonoid M] {f : RollupBucket → M}
    {x : ArchiveRollupItem → M}
    (hrecord : ∀ b item, f (RollupBucket.record isoInstant b item) = f b)
    (hvalue : ∀ b item, f (RollupBucket.value b item) = f b + x item) (b : RollupBucket)
    (item : ArchiveRollupItem) :
    f (accumulate isoInstant b item) = f b + if isValued item = true then x item else 0 := by
  by_cases hbasis : item.basis = .unknown
  · rw [accumulate_unvalued hbasis, hrecord, if_neg (by simp [isValued, hbasis]), add_zero]
  · rw [accumulate_valued hbasis, hvalue, hrecord, if_pos (by simp [isValued, hbasis])]

/-- A recorded figure that every row raises by `x`, and the net leg leaves alone. -/
theorem accumulate_recorded {M : Type} [AddCommMonoid M] {f : RollupBucket → M}
    {x : ArchiveRollupItem → M}
    (hrecord : ∀ b item, f (RollupBucket.record isoInstant b item) = f b + x item)
    (hvalue : ∀ b item, f (RollupBucket.value b item) = f b) (b : RollupBucket)
    (item : ArchiveRollupItem) : f (accumulate isoInstant b item) = f b + x item := by
  by_cases hbasis : item.basis = .unknown
  · rw [accumulate_unvalued hbasis, hrecord]
  · rw [accumulate_valued hbasis, hvalue, hrecord]

theorem rowTotals_eq (hitems : ∀ item ∈ items, SpaceFree item.quoteAsset) (quote : String) :
    rowTotals quote ((accumulateBuckets isoInstant localeCompare items dimensionOf).map rollupRow) =
      itemTotals quote items := by
  have hrows : ((accumulateBuckets isoInstant localeCompare items dimensionOf).map rollupRow).filter
      (fun row => row.quoteAsset = quote) =
      ((accumulateBuckets isoInstant localeCompare items dimensionOf).filter
        (·.quoteAsset = quote)).map
        rollupRow := by
    rw [List.filter_map]
    rfl
  unfold rowTotals itemTotals
  rw [hrows]
  simp only [List.map_map, Totals.mk.injEq, length_filter_eq_sum, sum_filter_map isValued]
  refine ⟨?_, ?_, ?_, ?_, ?_, ?_, ?_⟩
  · rw [← length_filter_eq_sum]
    refine (sum_rows localeCompare hitems (fun _ => rfl)
      (accumulate_recorded (f := fun b => b.tradeCount) (x := fun _ => 1) (fun _ _ => rfl)
        fun _ _ => rfl) quote).trans ?_
    simp
  · exact sum_rows localeCompare hitems (fun _ => rfl)
      (accumulate_net (f := fun b => b.netTradeCount) (fun _ _ => rfl) fun _ _ => rfl) quote
  · exact sum_rows localeCompare hitems (fun _ => rfl)
      (accumulate_net (f := fun b => b.wins) (fun _ _ => rfl) fun _ _ => by
        simp [RollupBucket.value]) quote
  · exact sum_rows localeCompare hitems (fun _ => rfl)
      (accumulate_net (f := fun b => b.losses) (fun _ _ => rfl) fun _ _ => by
        simp [RollupBucket.value]) quote
  · exact sum_rows localeCompare hitems (fun _ => rfl)
      (accumulate_recorded (f := fun b => b.profitSum) (fun _ _ => rfl) fun _ _ => rfl) quote
  · refine sum_rows localeCompare hitems (fun _ => sub_self 0)
      (accumulate_net (f := fun b => b.netProfitSum - b.totalFees) (fun _ _ => rfl)
        fun b item => ?_) quote
    simp only [RollupBucket.value, ArchiveRollupItem.net]
    ring
  · exact sum_rows localeCompare hitems (fun _ => rfl)
      (accumulate_net (f := fun b => b.totalFees) (fun _ _ => rfl) fun _ _ => rfl) quote

/-- The laws of a rollup over a list of cycles. -/
structure RollupLaws (rollup : List ArchiveRollupItem → List RollupRow)
    (dimensionOf : ArchiveRollupItem → String) (items : List ArchiveRollupItem) : Prop where
  sums : ∀ quote, rowTotals quote (rollup items) = itemTotals quote items
  net_eq : ∀ row ∈ rollup items, row.netProfit = row.grossProfit - row.grossLoss
  wins_le : ∀ row ∈ rollup items, row.wins + row.losses ≤ row.netTradeCount
  net_le : ∀ row ∈ rollup items, row.netTradeCount ≤ row.tradeCount
  /-- The tier of a row is the weakest of its valued cycles, and unknown where it has none. -/
  basis : ∀ row ∈ rollup items,
    let valued := items.filter fun item =>
      item.quoteAsset = row.quoteAsset ∧ dimensionOf item = row.label ∧ isValued item
    (row.feeBasis = .unknown ↔ valued = []) ∧
      (∀ item ∈ valued, row.feeBasis.rank ≤ item.basis.rank) ∧
      (valued ≠ [] → ∃ item ∈ valued, row.feeBasis = item.basis)
  perm : ∀ items', items'.Perm items → (rollup items').Perm (rollup items)

theorem rollupLaws (dimensionOf : ArchiveRollupItem → String)
    (hitems : ∀ item ∈ items, SpaceFree item.quoteAsset) :
    RollupLaws
      (fun items => (accumulateBuckets isoInstant localeCompare items dimensionOf).map rollupRow)
      dimensionOf items := by
  have hbucket : ∀ row ∈
      (accumulateBuckets isoInstant localeCompare items dimensionOf).map rollupRow,
      ∃ b : RollupBucket, ∃ key, rollupRow b = row ∧
        (key, b) ∈ group (bucketKey dimensionOf) (emptyBucket dimensionOf)
          (accumulate isoInstant) items := by
    intro row hrow
    obtain ⟨b, hb, rfl⟩ := List.mem_map.mp hrow
    rw [(perm_accumulateBuckets localeCompare dimensionOf items).mem_iff] at hb
    obtain ⟨⟨key, b⟩, hmem, rfl⟩ := List.mem_map.mp hb
    exact ⟨b, key, rfl, hmem⟩
  constructor
  · exact rowTotals_eq localeCompare hitems
  · intro row hrow
    obtain ⟨b, key, rfl, hmem⟩ := hbucket row hrow
    exact (sound_of_mem hitems hmem).net_eq
  · intro row hrow
    obtain ⟨b, key, rfl, hmem⟩ := hbucket row hrow
    exact (sound_of_mem hitems hmem).wins_le
  · intro row hrow
    obtain ⟨b, key, rfl, hmem⟩ := hbucket row hrow
    exact (sound_of_mem hitems hmem).net_le
  · intro row hrow valued
    obtain ⟨b, key, rfl, hmem⟩ := hbucket row hrow
    have hsound := sound_of_mem hitems hmem
    obtain ⟨first, rest, -, hfold⟩ := mem_group hmem
    obtain ⟨hcount, hle, hattained⟩ := foldl_feeBasis (emptyBucket dimensionOf first) rfl rfl
      (members (bucketKey dimensionOf) key items)
    rw [← hfold] at hcount hle hattained
    have hvalued : ∀ item, item ∈ valued ↔
        item ∈ members (bucketKey dimensionOf) key items ∧ item.basis ≠ .unknown := by
      intro item
      simp only [valued, members, List.mem_filter, decide_eq_true_eq, Bool.decide_and,
        Bool.and_eq_true, isValued]
      constructor
      · rintro ⟨hitem, hquote, hlabel, hbasis⟩
        refine ⟨⟨hitem, ?_⟩, hbasis⟩
        rw [bucketKey, hquote, hlabel]
        exact hsound.key_eq.symm
      · rintro ⟨⟨hitem, hkey⟩, hbasis⟩
        have hboth : item.quoteAsset = b.quoteAsset ∧ dimensionOf item = b.dimension :=
          eq_of_key_eq (hitems item hitem) hsound.spaceFree (hkey.trans hsound.key_eq)
        exact ⟨hitem, hboth.1, hboth.2, hbasis⟩
    have hrank : ∀ basis : FeeBasis, basis ≠ .unknown → 0 < basis.rank := by
      intro basis hbasis
      cases basis
      · decide
      · decide
      · exact absurd rfl hbasis
    by_cases hempty : b.netTradeCount = 0
    · have hbasis : (rollupRow b).feeBasis = .unknown := if_pos hempty
      have hnone : valued = [] := by
        refine List.eq_nil_iff_forall_not_mem.mpr fun item hitem => ?_
        obtain ⟨hmember, hvalue⟩ := (hvalued item).mp hitem
        exact hvalue (hcount.mp hempty item hmember)
      refine ⟨iff_of_true hbasis hnone, ?_, fun hsome => absurd hnone hsome⟩
      intro item hitem
      rw [hnone] at hitem
      cases hitem
    · have hbasis : (rollupRow b).feeBasis = b.feeBasis := if_neg hempty
      obtain ⟨witness, hwitness, hwitnessBasis⟩ :
          ∃ item ∈ members (bucketKey dimensionOf) key items, item.basis ≠ .unknown := by
        by_contra hnone
        push Not at hnone
        exact hempty (hcount.mpr hnone)
      have hmin : ∀ item ∈ valued, b.feeBasis.rank ≤ item.basis.rank := by
        intro item hitem
        obtain ⟨hmember, hvalue⟩ := (hvalued item).mp hitem
        exact hle item hmember hvalue
      have hfound : ∃ item ∈ valued, b.feeBasis = item.basis := by
        rcases hattained with hexact | ⟨item, hitem, hvalue, heq⟩
        · -- no valued row weakened the seed, so the one at hand carries the strongest tier itself
          refine ⟨witness, (hvalued witness).mpr ⟨hwitness, hwitnessBasis⟩, ?_⟩
          have hge := hle witness hwitness hwitnessBasis
          rw [hexact] at hge ⊢
          cases hcase : witness.basis with
          | exact => rfl
          | estimated => rw [hcase] at hge; exact absurd hge (by decide)
          | unknown => exact absurd hcase hwitnessBasis
        · exact ⟨item, (hvalued item).mpr ⟨hitem, hvalue⟩, heq⟩
      rw [hbasis]
      refine ⟨iff_of_false ?_ ?_, hmin, fun _ => hfound⟩
      · intro hunknown
        obtain ⟨item, hitem, heq⟩ := hfound
        exact ((hvalued item).mp hitem).2 (heq.symm.trans hunknown)
      · intro hnone
        obtain ⟨item, hitem, -⟩ := hfound
        rw [hnone] at hitem
        cases hitem
  · intro items' hperm
    refine List.Perm.map _ ((perm_accumulateBuckets localeCompare dimensionOf items').trans ?_)
    refine ((perm_group (fun a ha b hb hkey => ?_) accumulate_comm hperm.symm).symm.map _).trans
      (perm_accumulateBuckets localeCompare dimensionOf items).symm
    obtain ⟨hquote, hlabel⟩ := eq_of_key_eq (hitems a ha) (hitems b hb) hkey
    rw [emptyBucket, emptyBucket, hquote, hlabel]

end Rollup

/-! ### The exit of a cycle -/

/-- The intent and the time of an exit come from SELLs of one instant, once a SELL is stamped. -/
def ExitsAgree (isoInstant : String → Option ℤ) (orders : List RollupOrder) : Prop :=
  (∃ order ∈ orders, order.side = "SELL" ∧ (order.stamp isoInstant).isSome = true) →
    ∃ reason ∈ orders, ∃ timed ∈ orders, reason.side = "SELL" ∧ timed.side = "SELL" ∧
      ∃ at_, reason.stamp isoInstant = some at_ ∧ timed.stamp isoInstant = some at_ ∧
        deriveExitIntent isoInstant orders = reason.label ∧
        ∃ closedAt, timed.closedAt = some closedAt ∧
          deriveExitAt isoInstant orders = some (closedAt, at_)

/-- The two selections go through the orders side by side, each with the latest stamp so far. -/
structure SameClose (isoInstant : String → Option ℤ) (seen : List RollupOrder)
    (closing : Option RollupOrder × Option ℤ) (exit : Option (String × ℤ)) : Prop where
  instant : closing.2 = exit.map (·.2)
  stamped : ∀ order ∈ seen, order.side = "SELL" → (order.stamp isoInstant).isSome = true →
    exit.isSome = true
  reason : ∀ at_, closing.2 = some at_ → ∃ order ∈ seen, order.side = "SELL" ∧
    order.stamp isoInstant = some at_ ∧ closing.1 = some order
  timed : ∀ closedAt at_, exit = some (closedAt, at_) → ∃ order ∈ seen, order.side = "SELL" ∧
    order.closedAt = some closedAt ∧ order.stamp isoInstant = some at_

theorem SameClose.step {seen : List RollupOrder} {closing : Option RollupOrder × Option ℤ}
    {exit : Option (String × ℤ)} (h : SameClose isoInstant seen closing exit)
    (order : RollupOrder) :
    SameClose isoInstant (seen ++ [order]) (closingStep isoInstant closing order)
      (extremeStep isoInstant "SELL" .latest exit order) := by
  have hkeep : (order.side = "SELL" → (order.stamp isoInstant).isSome = true → exit.isSome = true) →
      SameClose isoInstant (seen ++ [order]) closing exit := by
    intro hold
    refine ⟨h.instant, ?_, ?_, ?_⟩
    · intro other hother hside hstamp
      rcases List.mem_append.mp hother with hmem | hmem
      · exact h.stamped other hmem hside hstamp
      · obtain rfl := List.mem_singleton.mp hmem
        exact hold hside hstamp
    · intro at_ hat
      obtain ⟨other, hother, hfound⟩ := h.reason at_ hat
      exact ⟨other, List.mem_append_left _ hother, hfound⟩
    · intro closedAt at_ hat
      obtain ⟨other, hother, hfound⟩ := h.timed closedAt at_ hat
      exact ⟨other, List.mem_append_left _ hother, hfound⟩
  have hself : order ∈ seen ++ [order] := List.mem_append_right _ List.mem_cons_self
  by_cases hside : order.side = "SELL"
  · cases hstamp : order.stamp isoInstant with
    | none =>
        have hexit : extremeStep isoInstant "SELL" .latest exit order = exit := by
          unfold extremeStep
          rw [if_neg (not_not.mpr hside)]
          unfold RollupOrder.stamp at hstamp
          cases hclosedAt : order.closedAt with
          | none => rfl
          | some closedAt =>
              rw [hclosedAt, Option.bind_some] at hstamp
              simp only [hstamp]
        have hkept := hkeep fun _ hsome => absurd hsome (by simp [hstamp])
        rw [hexit, closingStep, if_neg (not_not.mpr hside), hstamp]
        dsimp only
        split
        · next hnone =>
            -- among unstamped orders the last one is the reason, and no time is known
            refine ⟨?_, hkept.stamped, fun at_ hat => (nomatch hat), hkept.timed⟩
            exact (Option.isNone_iff_eq_none.mp hnone).symm.trans h.instant
        · exact hkept
    | some at_ =>
        obtain ⟨closedAt, hclosedAt, hinstant⟩ := Option.bind_eq_some_iff.mp hstamp
        have hclosing : closingStep isoInstant closing order =
            if closing.2.all (· ≤ at_) then (some order, some at_) else closing := by
          rw [closingStep, if_neg (not_not.mpr hside), hstamp]
        have hexit : extremeStep isoInstant "SELL" .latest exit order =
            if exit.all (fun best => best.2 < at_) then some (closedAt, at_) else exit := by
          rw [extremeStep, if_neg (not_not.mpr hside), hclosedAt]
          simp only [hinstant]
          rfl
        have hreason : ∀ at', some at_ = some at' → ∃ other ∈ seen ++ [order], other.side = "SELL" ∧
            other.stamp isoInstant = some at' ∧ some order = some other := by
          rintro at' ⟨⟩
          exact ⟨order, hself, hside, hstamp, rfl⟩
        have htimed : ∀ c at', some (closedAt, at_) = some (c, at') →
            ∃ other ∈ seen ++ [order], other.side = "SELL" ∧ other.closedAt = some c ∧
              other.stamp isoInstant = some at' := by
          rintro c at' ⟨⟩
          exact ⟨order, hself, hside, hclosedAt, hstamp⟩
        rw [hclosing, hexit, h.instant]
        cases exit with
        | none => exact ⟨rfl, fun _ _ _ _ => rfl, hreason, htimed⟩
        | some best =>
            have hkept := hkeep fun _ _ => rfl
            simp only [Option.map_some, Option.all_some, decide_eq_true_eq]
            rcases lt_trichotomy best.2 at_ with hlt | heq | hgt
            · rw [if_pos hlt.le, if_pos hlt]
              exact ⟨rfl, fun _ _ _ _ => rfl, hreason, htimed⟩
            · rw [if_pos heq.le, if_neg heq.not_lt]
              exact ⟨by rw [← heq]; rfl, fun _ _ _ _ => rfl, hreason, hkept.timed⟩
            · rw [if_neg hgt.not_ge, if_neg hgt.not_gt]
              exact hkept
  · unfold closingStep extremeStep
    rw [if_pos hside, if_pos hside]
    exact hkeep fun hsell => absurd hsell hside

theorem exitsAgree (isoInstant : String → Option ℤ) (orders : List RollupOrder) :
    ExitsAgree isoInstant orders := by
  have hsame : SameClose isoInstant orders (orders.foldl (closingStep isoInstant) (none, none))
      (orders.foldl (extremeStep isoInstant "SELL" .latest) none) := by
    induction orders using List.reverseRecOn with
    | nil => exact ⟨rfl, by simp, by simp, by simp⟩
    | append_singleton orders order ih =>
        rw [List.foldl_append, List.foldl_append]
        exact ih.step order
  rintro ⟨order, hmem, hside, hstamp⟩
  obtain ⟨⟨closedAt, at_⟩, hexit⟩ :=
    Option.isSome_iff_exists.mp (hsame.stamped order hmem hside hstamp)
  obtain ⟨timed, htimed, htimedSide, hclosedAt, htimedStamp⟩ := hsame.timed closedAt at_ hexit
  have hclosing : (orders.foldl (closingStep isoInstant) (none, none)).2 = some at_ := by
    rw [hsame.instant, hexit]
    rfl
  obtain ⟨reason, hreason, hreasonSide, hreasonStamp, hfound⟩ := hsame.reason at_ hclosing
  refine ⟨reason, hreason, timed, htimed, hreasonSide, htimedSide, at_,
    hreasonStamp, htimedStamp, ?_,
    closedAt, hclosedAt, hexit⟩
  rw [deriveExitIntent, hfound]
  rfl

/-! ### The summary -/

section Summary

variable {isoInstant : String → Option ℤ} (localeCompare : String → String → Ordering)
  {items : List ArchiveRollupItem}

theorem foldl_tradeCount (start : RollupBucket) (items : List ArchiveRollupItem) :
    (items.foldl (accumulate isoInstant) start).tradeCount = start.tradeCount + items.length := by
  induction items generalizing start with
  | nil => rfl
  | cons item items ih =>
      have hstep : (accumulate isoInstant start item).tradeCount = start.tradeCount + 1 :=
        accumulate_recorded (f := fun b => b.tradeCount) (x := fun _ => 1) (fun _ _ => rfl)
          (fun _ _ => rfl) start item
      rw [List.foldl_cons, ih, hstep, List.length_cons]
      omega

theorem exists_summary_key (hne : items ≠ []) : ∃ first ∈ items,
    (summarizeClosedTrades isoInstant localeCompare items).tradeCount =
      (members (bucketKey fun _ => "all") (bucketKey (fun _ => "all") first) items).length := by
  have hperm := @perm_accumulateBuckets isoInstant localeCompare (fun _ => "all") items
  unfold summarizeClosedTrades
  cases hbuckets : accumulateBuckets isoInstant localeCompare items fun _ => "all" with
  | nil =>
      -- the first row has a group
      obtain ⟨item, rest, rfl⟩ := List.exists_cons_of_ne_nil hne
      rw [hbuckets] at hperm
      have hnone := List.map_eq_nil_iff.mp hperm.nil_eq.symm
      have hget := @get_group _ _ _ _ (bucketKey fun _ => "all") (emptyBucket fun _ => "all")
        (accumulate isoInstant) (item :: rest) (bucketKey (fun _ => "all") item)
      rw [hnone, members, List.filter_cons_of_pos (by simp)] at hget
      cases hget
  | cons bucket buckets =>
      have hbucket : bucket ∈ (group (bucketKey fun _ => "all") (emptyBucket fun _ => "all")
          (accumulate isoInstant) items).map (·.2) := by
        rw [← hperm.mem_iff, hbuckets]
        exact List.mem_cons_self
      obtain ⟨⟨key, b⟩, hmem, rfl⟩ := List.mem_map.mp hbucket
      obtain ⟨first, rest, hmembers, hfold⟩ := mem_group hmem
      have hfirst : first ∈ items ∧ bucketKey (fun _ => "all") first = key := by
        have h : first ∈ members (bucketKey fun _ => "all") key items :=
          hmembers ▸ List.mem_cons_self
        simpa [members] using h
      refine ⟨first, hfirst.1, ?_⟩
      rw [hfirst.2]
      change b.tradeCount = _
      rw [hfold, foldl_tradeCount]
      exact Nat.zero_add _

/-- Everything the archive promises of a list of cycles. -/
structure Partitions (isoInstant : String → Option ℤ) (localeCompare : String → String → Ordering)
    (items : List ArchiveRollupItem) : Prop where
  byIntent : RollupLaws (rollupByExitIntent isoInstant localeCompare)
    (fun item => deriveExitIntent isoInstant item.orders) items
  bySource : RollupLaws (rollupBySource isoInstant localeCompare) (·.source) items
  exits : ∀ item ∈ items, ExitsAgree isoInstant item.orders
  summary : (summarizeClosedTrades isoInstant localeCompare items).tradeCount = items.length

/-- Only the summary can fail, and it does where the cycles are of two quote assets. -/
theorem partitions_iff_one_quote (isoInstant : String → Option ℤ)
    (localeCompare : String → String → Ordering)
    (items : List ArchiveRollupItem) (hitems : ∀ item ∈ items, SpaceFree item.quoteAsset) :
    Partitions isoInstant localeCompare items ↔
      ∀ a ∈ items, ∀ b ∈ items, a.quoteAsset = b.quoteAsset := by
  have hcount : (summarizeClosedTrades isoInstant localeCompare items).tradeCount = items.length ↔
      ∀ a ∈ items, ∀ b ∈ items, a.quoteAsset = b.quoteAsset := by
    by_cases hne : items = []
    · subst hne
      exact iff_of_true rfl fun a ha => (nomatch ha)
    · obtain ⟨first, hfirst, hsummary⟩ := exists_summary_key localeCompare hne
      rw [hsummary, members, List.length_filter_eq_length_iff]
      have hkey : ∀ item ∈ items, decide (bucketKey (fun _ => "all") item =
          bucketKey (fun _ => "all") first) = true ↔ item.quoteAsset = first.quoteAsset := by
        intro item hitem
        rw [decide_eq_true_eq]
        constructor
        · intro heq
          exact (eq_of_key_eq (hitems item hitem) (hitems first hfirst) heq).1
        · intro heq
          rw [bucketKey, bucketKey, heq]
      constructor
      · intro hall a ha b hb
        exact ((hkey a ha).mp (hall a ha)).trans ((hkey b hb).mp (hall b hb)).symm
      · intro hone item hitem
        exact (hkey item hitem).mpr (hone item hitem first hfirst)
  constructor
  · intro h
    exact hcount.mp h.summary
  · intro hone
    exact ⟨rollupLaws localeCompare _ hitems, rollupLaws localeCompare _ hitems,
      fun item _ => exitsAgree isoInstant item.orders, hcount.mpr hone⟩

/-- The instant the orders of the cycle below are stamped with. -/
def closedAtInstant (value : String) : Option ℤ :=
  if value = "2026-01-01T00:00:00Z" then some 1767225600000 else none

/-- A closed cycle of a quote asset, won by one unit, its fees known. -/
def wonCycle (quoteAsset : String) : ArchiveRollupItem where
  quoteAsset := quoteAsset
  source := "bot"
  profit := 1
  feesQuote := some 0
  feeBasis := some "exact"
  orders := [⟨"SELL", some "grid-sell", some "2026-01-01T00:00:00Z"⟩]

theorem usdt_cycles_partition :
    Partitions closedAtInstant compare [wonCycle "USDT", wonCycle "USDT"] :=
  (partitions_iff_one_quote closedAtInstant compare [wonCycle "USDT", wonCycle "USDT"]
    (by decide)).mpr (by decide)

/-- A cycle won in USDT and one won in BTC are summarised as one. -/
theorem mixed_quotes_lose_cycle :
    SpaceFree (wonCycle "USDT").quoteAsset ∧ SpaceFree (wonCycle "BTC").quoteAsset ∧
      (summarizeClosedTrades closedAtInstant compare
        [wonCycle "USDT", wonCycle "BTC"]).tradeCount = 1 ∧
      ¬Partitions closedAtInstant compare [wonCycle "USDT", wonCycle "BTC"] := by
  have hone : (summarizeClosedTrades closedAtInstant compare
      [wonCycle "USDT", wonCycle "BTC"]).tradeCount = 1 := by
    decide +kernel
  refine ⟨by decide, by decide, hone, fun h => ?_⟩
  exact absurd (hone.symm.trans h.summary) (by decide)

end Summary

end TradingBot.Contracts

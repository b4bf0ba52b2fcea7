import Mathlib.Data.List.Lex
import Mathlib.Data.Prod.Lex
import TradingBot.Lib.Ranking
import TradingBot.Rebalance.Budget

/-!
# Who holds the basket

Each symbol of a rotation basket ranks itself among the scores the others
published, on a list of its own. With distinct symbols the ranks are those of
one order, so the symbols agree on the holders. A tick, though, ranks itself
among whatever the store still holds, and a symbol that left the basket keeps
its last score there.
-/

namespace TradingBot.Rebalance

open Decimal Ranking

/-! ### Code units tell texts apart -/

def codeUnits (c : Char) : List ℕ :=
  if c.toNat < 0x10000 then [c.toNat]
  else [0xD800 + (c.toNat - 0x10000) / 0x400, 0xDC00 + (c.toNat - 0x10000) % 0x400]

theorem codeUnits_cons {c d : Char} {xs ys : List ℕ} (h : codeUnits c ++ xs = codeUnits d ++ ys) :
    c = d ∧ xs = ys := by
  have hvalid : ∀ c : Char, c.toNat < 0xD800 ∨ (0xDFFF < c.toNat ∧ c.toNat < 0x110000) :=
    fun c => c.valid
  have hc := hvalid c
  have hd := hvalid d
  have hinj : c.toNat = d.toNat → c = d := fun hn => Char.ext (UInt32.toNat_inj.mp hn)
  unfold codeUnits at h
  split at h
  · split at h
    · obtain ⟨hcode, hrest⟩ := List.cons.inj h
      exact ⟨hinj hcode, hrest⟩
    · obtain ⟨hcode, -⟩ := List.cons.inj h
      omega
  · split at h
    · obtain ⟨hcode, -⟩ := List.cons.inj h
      omega
    · obtain ⟨hhigh, hrest⟩ := List.cons.inj h
      obtain ⟨hlow, hrest⟩ := List.cons.inj hrest
      refine ⟨hinj ?_, hrest⟩
      omega

theorem codeUnits_ne_nil (c : Char) : codeUnits c ≠ [] := by
  unfold codeUnits
  split <;> simp

theorem charCodes_injective {s t : String} (h : charCodes s = charCodes t) : s = t := by
  have hlists : ∀ xs ys : List Char, xs.flatMap codeUnits = ys.flatMap codeUnits → xs = ys := by
    intro xs
    induction xs with
    | nil =>
        intro ys hcodes
        cases ys with
        | nil => rfl
        | cons d ys => simp [codeUnits_ne_nil] at hcodes
    | cons c xs ih =>
        intro ys hcodes
        cases ys with
        | nil => simp [codeUnits_ne_nil] at hcodes
        | cons d ys =>
            rw [List.flatMap_cons, List.flatMap_cons] at hcodes
            obtain ⟨rfl, hrest⟩ := codeUnits_cons hcodes
            rw [ih ys hrest]
  exact String.toList_inj.mp (hlists _ _ h)

/-! ### One order for every symbol -/

/-- The number a score is, where it is one. -/
def scoreOf (e : MomentumEntry) : ℚ :=
  match e.score with
  | num q => q
  | _ => 0

/-- What an entry is ranked by: its score from the top, then its symbol. -/
def rankKey (e : MomentumEntry) : ℚᵒᵈ ×ₗ List ℕ :=
  toLex (OrderDual.toDual (scoreOf e), charCodes e.symbol)

theorem ranksBefore_eq {a b : MomentumEntry} (ha : a.score.isFinite = true)
    (hb : b.score.isFinite = true) : ranksBefore a b = decide (rankKey a < rankKey b) := by
  obtain ⟨p, hp⟩ := isFinite_iff.mp ha
  obtain ⟨q, hq⟩ := isFinite_iff.mp hb
  rw [Bool.eq_iff_iff]
  simp only [ranksBefore, rankKey, scoreOf, hp, hq, lt_num, Bool.or_eq_true, Bool.and_eq_true,
    Bool.not_eq_true', decide_eq_true_eq, decide_eq_false_iff_not, not_lt, Prod.Lex.toLex_lt_toLex,
    OrderDual.toDual_lt_toDual, OrderDual.toDual_inj]
  constructor
  · rintro (h | ⟨hle, hsymbol⟩)
    · exact .inl h
    · rcases hle.lt_or_eq with h | h
      · exact .inl h
      · exact .inr ⟨h.symm, hsymbol⟩
  · rintro (h | ⟨heq, hsymbol⟩)
    · exact .inl h
    · exact .inr ⟨heq.ge, hsymbol⟩

/-- A universe of distinct symbols with scores. -/
structure Ranked (l : List MomentumEntry) : Prop where
  distinct : (l.map (·.symbol)).Nodup
  finite : ∀ e ∈ l, e.score.isFinite = true

namespace Ranked

variable {l ranked siblings : List MomentumEntry} {self e : MomentumEntry} {topK : ℕ}

theorem keys (h : Ranked l) : (l.map rankKey).Nodup := by
  refine List.Nodup.of_map (fun key => (ofLex key).2) ?_
  rw [List.map_map]
  refine (List.nodup_map_iff_inj_on (List.Nodup.of_map _ h.distinct)).mpr ?_
  intro a ha b hb hcodes
  exact List.inj_on_of_nodup_map h.distinct ha hb (charCodes_injective hcodes)

theorem perm (h : Ranked l) (hperm : l.Perm ranked) : Ranked ranked where
  distinct := (hperm.map _).nodup_iff.mp h.distinct
  finite := fun e he => h.finite e (hperm.mem_iff.mpr he)

theorem mergeSort_eq (h : Ranked l) :
    l.mergeSort ranksBefore = l.mergeSort fun a b => rankKey a ≤ rankKey b := by
  refine mergeSort_congr l ?_
  have hne : l.Pairwise fun a b => rankKey a ≠ rankKey b := List.pairwise_map.mp h.keys
  refine hne.imp_of_mem fun {a b} ha hb hab => ?_
  rw [ranksBefore_eq (h.finite a ha) (h.finite b hb)]
  exact decide_eq_decide.mpr ⟨le_of_lt, fun hle => lt_of_le_of_ne hle hab⟩

theorem rankOf_eq (h : Ranked l) (he : e ∈ l) :
    rankOf rankKey l e = (l.filter fun a => ranksBefore a e).length := by
  rw [rankOf, List.countP_eq_length_filter]
  refine congrArg _ (List.filter_congr fun a ha => ?_)
  rw [ranksBefore_eq (h.finite a ha) (h.finite e he)]

/-- An entry has a share exactly if it ranks among the first `topK`, whatever order it lists the
others in. -/
theorem momentumTargetWeight_eq (h : Ranked l) (hperm : (self :: siblings).Perm l) (topK : ℕ) :
    momentumTargetWeight self siblings topK =
      if rankOf rankKey l self < min topK l.length then num (1 / (min topK l.length : ℕ))
      else num 0 := by
  have hself : self ∈ self :: siblings := List.mem_cons_self
  have hown := h.perm hperm.symm
  have hsorted := pairwise_mergeSort_lt hown.keys
  have hsame := List.mergeSort_perm (self :: siblings) fun a b => decide (rankKey a ≤ rankKey b)
  have hrank :
      ((self :: siblings).mergeSort ranksBefore).findIdx (fun e => e.symbol = self.symbol) =
      rankOf rankKey l self := by
    rw [hown.mergeSort_eq, findIdx_eq_rankOf hsorted (hsame.mem_iff.mpr hself),
      rankOf_perm (hsame.trans hperm)]
    intro a ha
    rw [decide_eq_true_eq]
    exact ⟨List.inj_on_of_nodup_map hown.distinct (hsame.mem_iff.mp ha) hself, congrArg _⟩
  have hlength : ((self :: siblings).mergeSort ranksBefore).length = l.length := by
    rw [List.length_mergeSort, hperm.length_eq]
  have hheld : (if topK < l.length then topK else l.length) = min topK l.length := by
    split <;> omega
  simp only [momentumTargetWeight, hrank, hlength, hheld]
  by_cases hin : rankOf rankKey l self < min topK l.length
  · have hpos : ((min topK l.length : ℕ) : ℚ) ≠ 0 := by
      exact_mod_cast (Nat.zero_lt_of_lt hin).ne'
    rw [if_neg (not_le.mpr hin), if_pos hin, div_num hpos]
  · rw [if_pos (not_lt.mp hin), if_neg hin]

theorem rankOf_lt_length (he : e ∈ l) : rankOf rankKey l e < l.length := by
  rw [rankOf, List.countP_eq_length_filter]
  refine List.length_filter_lt_length_iff_exists.mpr ⟨e, he, ?_⟩
  simp

/-- Below the cut at `topK` there are `topK` entries to rank, or all of them. -/
theorem rankOf_lt_min (he : e ∈ l) :
    rankOf rankKey l e < min topK l.length ↔ rankOf rankKey l e < topK := by
  have := rankOf_lt_length he
  omega

end Ranked

/-- The symbols of a universe, each ranking itself among the others it lists, agree on the
holders. -/
structure Agreement (l : List MomentumEntry) (siblings : MomentumEntry → List MomentumEntry)
    (topK : ℕ) : Prop where
  /-- The holders are the first of one ranking, at equal weights. -/
  holders : ∃ ranked : List MomentumEntry, ranked.Perm l ∧
    ranked.Pairwise (fun a b => ranksBefore a b = true) ∧
    ∀ e ∈ l, momentumTargetWeight e (siblings e) topK =
      if e ∈ ranked.take topK then num (1 / (min topK l.length : ℕ)) else num 0
  count : (l.filter fun e => (momentumTargetWeight e (siblings e) topK).gt (num 0)).length =
    min topK l.length
  total : l.foldl (fun sum e => sum.add (momentumTargetWeight e (siblings e) topK)) (num 0) = num 1
  order : ∀ e ∈ l, ∀ others, others.Perm (siblings e) →
    momentumTargetWeight e others topK = momentumTargetWeight e (siblings e) topK

theorem foldl_add_weights {p : MomentumEntry → Bool} {weight : MomentumEntry → Decimal} {w : ℚ}
    {l : List MomentumEntry} (hweight : ∀ e ∈ l, weight e = if p e then num w else num 0)
    (start : ℚ) :
    l.foldl (fun sum e => sum.add (weight e)) (num start) =
      num (start + (l.filter p).length * w) := by
  induction l generalizing start with
  | nil => simp
  | cons e l ih =>
      rw [List.foldl_cons, hweight e List.mem_cons_self]
      have hrest : ∀ a ∈ l, weight a = if p a then num w else num 0 :=
        fun a ha => hweight a (List.mem_cons_of_mem e ha)
      by_cases he : p e = true
      · rw [if_pos he, add_num, ih hrest, List.filter_cons_of_pos he, List.length_cons]
        push_cast
        congr 1
        ring
      · rw [if_neg he, add_num, ih hrest, List.filter_cons_of_neg he, add_zero]

theorem Ranked.agreement {l : List MomentumEntry} {siblings : MomentumEntry → List MomentumEntry}
    {topK : ℕ} (h : Ranked l) (hne : l ≠ []) (htopK : 1 ≤ topK)
    (hsiblings : ∀ e ∈ l, (e :: siblings e).Perm l) : Agreement l siblings topK := by
  have hheld : 0 < min topK l.length := by
    have := List.length_pos_iff.mpr hne
    omega
  have hweight : ∀ e ∈ l, momentumTargetWeight e (siblings e) topK =
      if rankOf rankKey l e < topK then num (1 / (min topK l.length : ℕ)) else num 0 := by
    intro e he
    rw [h.momentumTargetWeight_eq (hsiblings e he)]
    simp only [Ranked.rankOf_lt_min he]
  have hcount := length_filter_rankOf_lt h.keys topK
  refine ⟨⟨_, List.mergeSort_perm l fun a b => decide (rankKey a ≤ rankKey b), ?_, ?_⟩, ?_, ?_, ?_⟩
  · have hsorted := pairwise_mergeSort_lt h.keys
    refine hsorted.imp_of_mem fun {a b} ha hb hab => ?_
    rw [ranksBefore_eq (h.finite a (List.mem_mergeSort.mp ha))
      (h.finite b (List.mem_mergeSort.mp hb))]
    exact decide_eq_true hab
  · intro e he
    rw [hweight e he, ← filter_rankOf_lt (pairwise_mergeSort_lt h.keys)]
    simp only [List.mem_filter, List.mem_mergeSort, he, true_and, decide_eq_true_eq,
      ← rankOf_perm (List.mergeSort_perm l fun a b => decide (rankKey a ≤ rankKey b)).symm]
  · rw [← hcount]
    refine congrArg _ (List.filter_congr fun e he => ?_)
    rw [hweight e he]
    split
    · next hin => simpa [hin] using hheld
    · next hout => simp [hout]
  · have hsum := foldl_add_weights (p := fun e => rankOf rankKey l e < topK)
      (w := 1 / (min topK l.length : ℕ)) (fun e he => by simpa using hweight e he) 0
    rw [hsum, hcount, zero_add, mul_one_div_cancel (by exact_mod_cast hheld.ne')]
  · intro e he others hperm
    rw [h.momentumTargetWeight_eq (hsiblings e he),
      h.momentumTargetWeight_eq ((hperm.cons e).trans (hsiblings e he))]

/-! ### Rotating to cash -/

section Tick

variable (input : RebalanceTickInput)

/-- The trailing return a symbol ranks itself by. -/
def ownScore : Option Decimal :=
  momentumScore ((input.market.candlesByInterval input.config.candleInterval).getD [])
    (intField input.config.momentum.lookbackCandles 30)

def configuredTopK : ℕ := intField input.config.momentum.topK 3

/-- The tick tells the symbol to sell out for its rank. -/
def RotatesOut : Prop :=
  (targetChoice input).exitWhenZeroWeight = true ∧ (targetChoice input).targetWeight = num 0

/-- The stored scores that rank ahead of the symbol's own. -/
def scoresAhead (own : Decimal) : List MomentumEntry :=
  (siblingMomentum input.profileKv input.market.symbol).filter
    fun e => ranksBefore e ⟨input.market.symbol, own⟩

def isTarget (symbol : String) : Bool := input.config.targets.any (·.symbol = symbol)

/-- The configured targets, other than the symbol itself, whose published scores rank ahead. -/
def targetsAhead (own : Decimal) : Finset String :=
  (input.config.targets.map (·.symbol)).toFinset.filter fun target =>
    target ≠ input.market.symbol ∧
      ∃ e ∈ siblingMomentum input.profileKv input.market.symbol, e.symbol = target ∧
        ranksBefore e ⟨input.market.symbol, own⟩ = true

/-- The scores ahead that belong to no symbol of the basket. -/
def strangersAhead (own : Decimal) : List MomentumEntry :=
  (scoresAhead input own).filter fun e => !isTarget input e.symbol

/-- Scores of symbols outside the basket complete the `topK` that the basket does not fill. -/
def StrangersDecide : Prop :=
  input.config.weightMode = .momentum ∧ ∃ own, ownScore input = some own ∧
    (targetsAhead input own).card < configuredTopK input ∧
    configuredTopK input ≤ (targetsAhead input own).card + (strangersAhead input own).length

variable {input}

theorem taggedSymbol_eq_some {tag key sibling : String} (h : taggedSymbol tag key = some sibling) :
    key = tag ++ sibling := by
  unfold taggedSymbol at h
  split at h
  · next hprefixed =>
      obtain ⟨rest, hrest⟩ := List.isPrefixOf_iff_prefix.mp hprefixed
      cases h
      rw [← String.toList_inj, String.toList_append, String.toList_ofList, ← hrest,
        List.drop_left]
  · cases h

theorem siblingMomentum_entries (profileKv : ProfileKv) (symbol : String) :
    ∃ read : String × KvValue → Option MomentumEntry,
      siblingMomentum profileKv symbol = profileKv.filterMap read ∧
      ∀ entry e, read entry = some e →
        entry.1 = kvMomentumTag ++ e.symbol ∧ e.symbol ≠ symbol ∧ e.score.isFinite = true := by
  refine ⟨_, rfl, fun entry e h => ?_⟩
  dsimp only at h
  split at h
  · cases h
  · next sibling htag =>
      split at h
      · cases h
      · next hother =>
          split at h
          · cases h
          · next score _ =>
              split at h
              · next hfinite =>
                  cases h
                  exact ⟨taggedSymbol_eq_some htag, hother, hfinite⟩
              · cases h

/-- The symbol's own score with the scores it reads is a universe of distinct symbols. -/
theorem ranked_siblings (hkv : (input.profileKv.map (·.1)).Nodup) {own : Decimal}
    (hown : own.isFinite = true) :
    Ranked (⟨input.market.symbol, own⟩ :: siblingMomentum input.profileKv input.market.symbol) := by
  obtain ⟨read, hread, hentry⟩ := siblingMomentum_entries input.profileKv input.market.symbol
  rw [hread]
  have hmem : ∀ e ∈ input.profileKv.filterMap read,
      e.symbol ≠ input.market.symbol ∧ e.score.isFinite = true := by
    intro e he
    obtain ⟨entry, -, hsome⟩ := List.mem_filterMap.mp he
    exact (hentry entry e hsome).2
  constructor
  · rw [List.map_cons, List.nodup_cons]
    constructor
    · intro hself
      obtain ⟨e, he, hsymbol⟩ := List.mem_map.mp hself
      exact (hmem e he).1 hsymbol
    · refine List.pairwise_map.mpr (List.pairwise_filterMap.mpr ?_)
      refine (List.pairwise_map.mp hkv).imp fun {x y} hkeys a ha b hb hsame => hkeys ?_
      rw [(hentry x a ha).1, (hentry y b hb).1, hsame]
  · intro e he
    rcases List.mem_cons.mp he with rfl | he
    · exact hown
    · exact (hmem e he).2

theorem not_ranksBefore_self {e : MomentumEntry} (h : e.score.isFinite = true) :
    ranksBefore e e = false := by
  rw [ranksBefore_eq h h]
  simp

/-- A symbol is left without a weight exactly if `topK` others rank ahead of it. -/
theorem momentumTargetWeight_eq_zero_iff {self : MomentumEntry} {siblings : List MomentumEntry}
    (h : Ranked (self :: siblings)) (topK : ℕ) :
    momentumTargetWeight self siblings topK = num 0 ↔
      topK ≤ (siblings.filter fun e => ranksBefore e self).length := by
  have hself := not_ranksBefore_self (h.finite self List.mem_cons_self)
  have hrank : rankOf rankKey (self :: siblings) self =
      (siblings.filter fun e => ranksBefore e self).length := by
    rw [h.rankOf_eq List.mem_cons_self, List.filter_cons_of_neg (by simp [hself])]
  have hcut : rankOf rankKey (self :: siblings) self < min topK (self :: siblings).length ↔
      rankOf rankKey (self :: siblings) self < topK := Ranked.rankOf_lt_min List.mem_cons_self
  rw [hrank] at hcut
  rw [h.momentumTargetWeight_eq (List.Perm.refl _), hrank]
  split
  · next hin =>
      have hpos : ((min topK (self :: siblings).length : ℕ) : ℚ) ≠ 0 := by
        exact_mod_cast (Nat.zero_lt_of_lt hin).ne'
      constructor
      · intro hzero
        exact absurd (num.inj hzero) (one_div_ne_zero hpos)
      · intro hle
        exact absurd (hcut.mp hin) (not_lt.mpr hle)
  · next hout => exact iff_of_true rfl (not_lt.mp (hcut.not.mp hout))

/-- A scored symbol sells out exactly if `topK` of the stored scores rank ahead of its own. -/
theorem rotatesOut_iff (hkv : (input.profileKv.map (·.1)).Nodup)
    (hfinite : ∀ own, ownScore input = some own → own.isFinite = true) :
    RotatesOut input ↔ input.config.weightMode = .momentum ∧ ∃ own, ownScore input = some own ∧
      configuredTopK input ≤ (scoresAhead input own).length := by
  unfold RotatesOut targetChoice
  cases hmode : input.config.weightMode with
  | fixed => simp
  | momentum =>
      simp only [true_and]
      cases hown : ownScore input with
      | none =>
          have hscore := hown
          unfold ownScore at hscore
          simp [momentumChoice, hscore]
      | some own =>
          have hscore := hown
          unfold ownScore at hscore
          have hweight := momentumTargetWeight_eq_zero_iff (ranked_siblings hkv (hfinite own hown))
            (configuredTopK input)
          have hahead : (scoresAhead input own).length ≤
              (siblingMomentum input.profileKv input.market.symbol).length :=
            List.length_filter_le _ _
          simp only [Option.some.injEq, exists_eq_left']
          unfold momentumChoice
          simp only [hscore]
          rw [← configuredTopK]
          rw [← scoresAhead] at hweight
          by_cases hgate : (siblingMomentum input.profileKv input.market.symbol).length + 1 <
              if configuredTopK input < input.config.targets.length then configuredTopK input
              else input.config.targets.length
          · rw [if_pos hgate]
            -- before the store has converged too few scores are there to rank ahead
            have hshort : ¬configuredTopK input ≤ (scoresAhead input own).length := by
              split at hgate <;> omega
            simp [hshort]
          · rw [if_neg hgate]
            simpa using hweight

theorem length_scoresAhead (hkv : (input.profileKv.map (·.1)).Nodup) {own : Decimal}
    (hown : own.isFinite = true) :
    (scoresAhead input own).length =
      (targetsAhead input own).card + (strangersAhead input own).length := by
  have hdistinct : ((siblingMomentum input.profileKv input.market.symbol).map (·.symbol)).Nodup :=
    (List.nodup_cons.mp (ranked_siblings hkv hown).distinct).2
  have htargets : targetsAhead input own =
      (((scoresAhead input own).filter fun e =>
        isTarget input e.symbol).map (·.symbol)).toFinset := by
    ext target
    simp only [targetsAhead, scoresAhead, isTarget, Finset.mem_filter,
      List.mem_toFinset, List.mem_map,
      List.mem_filter, List.any_eq_true, decide_eq_true_eq]
    constructor
    · rintro ⟨⟨configured, hconfigured, rfl⟩, hother, e, he, hsymbol, hahead⟩
      exact ⟨e, ⟨⟨he, hahead⟩, configured, hconfigured, hsymbol.symm⟩, hsymbol⟩
    · rintro ⟨e, ⟨⟨he, hahead⟩, configured, hconfigured, hsymbol⟩, rfl⟩
      obtain ⟨read, hread, hentry⟩ := siblingMomentum_entries input.profileKv input.market.symbol
      rw [hread] at he
      obtain ⟨entry, hmem, hsome⟩ := List.mem_filterMap.mp he
      refine ⟨⟨configured, hconfigured, hsymbol⟩, (hentry entry e hsome).2.1, e, ?_, rfl, hahead⟩
      rw [hread]
      exact List.mem_filterMap.mpr ⟨entry, hmem, hsome⟩
  have hnodup : (((scoresAhead input own).filter fun e => isTarget input e.symbol).map
      (·.symbol)).Nodup :=
    hdistinct.sublist ((List.filter_sublist.trans List.filter_sublist).map _)
  rw [htargets, List.toFinset_card_of_nodup hnodup, List.length_map, strangersAhead]
  exact (List.length_eq_length_filter_add _).symm ▸ rfl

end Tick

/-- Symbols that rank themselves over one universe agree on the holders; a tick that tells its
symbol to sell out has `topK` configured targets ahead of it exactly if the scores of symbols
outside the basket do not complete the number. -/
theorem rotation_for_targets_iff {l : List MomentumEntry}
    {siblings : MomentumEntry → List MomentumEntry} {topK : ℕ} {input : RebalanceTickInput}
    (hranked : Ranked l) (hne : l ≠ []) (htopK : 1 ≤ topK)
    (hsiblings : ∀ e ∈ l, (e :: siblings e).Perm l) (hkv : (input.profileKv.map (·.1)).Nodup)
    (hfinite : ∀ own, ownScore input = some own → own.isFinite = true) :
    Agreement l siblings topK ∧
      ((RotatesOut input → ∃ own, ownScore input = some own ∧
        configuredTopK input ≤ (targetsAhead input own).card) ↔ ¬StrangersDecide input) := by
  refine ⟨hranked.agreement hne htopK hsiblings, ?_⟩
  rw [rotatesOut_iff hkv hfinite]
  constructor
  · rintro hrotates ⟨hmode, own, hown, hshort, hcompleted⟩
    rw [← length_scoresAhead hkv (hfinite own hown)] at hcompleted
    obtain ⟨own', hown', henough⟩ := hrotates ⟨hmode, own, hown, hcompleted⟩
    cases hown.symm.trans hown'
    exact absurd henough (not_le.mpr hshort)
  · rintro hdecide ⟨hmode, own, hown, hahead⟩
    refine ⟨own, hown, ?_⟩
    by_contra hshort
    rw [length_scoresAhead hkv (hfinite own hown)] at hahead
    exact hdecide ⟨hmode, own, hown, not_le.mp hshort, hahead⟩

/-! ### A symbol that left the basket -/

/-- A candle of which only the close is read. -/
def closeCandle (closeTimeMs : ℤ) (close : String) : Candle :=
  { openTimeMs := closeTimeMs - 1, closeTimeMs, openPrice := close, high := close, low := close,
    close, volume := "1", isClosed := true }

/-- One of two targets is to be held; this one rose by a hundredth over its lookback. -/
def rotationTick (profileKv : ProfileKv) : RebalanceTickInput :=
  { sampleTick with
    config := { sampleBasket.config with weightMode := .momentum, momentum := ⟨some 2, some 1⟩ }
    market := { sampleMarket with
      candlesByInterval := fun _ =>
        some [closeCandle 1 "100", closeCandle 2 "100", closeCandle 3 "101"] }
    profileKv }

/-- The other target ranks behind, and so does all of the basket; what is left of a third symbol
does not. -/
def leftoverKv : ProfileKv :=
  [("rebalance:momentum:ETHUSDT", .text (.raw "0.005")),
    ("rebalance:momentum:SOLUSDT", .text (.raw "0.5"))]

/-- A score left by a removed symbol sells out the strongest symbol of the basket. -/
theorem removed_symbol_rotates_out :
    RotatesOut (rotationTick leftoverKv) ∧ ∀ own, ownScore (rotationTick leftoverKv) = some own →
      (targetsAhead (rotationTick leftoverKv) own).card <
        configuredTopK (rotationTick leftoverKv) := by
  have hown : ownScore (rotationTick leftoverKv) = some (num (1 / 100)) := by decide +kernel
  constructor
  · rw [rotatesOut_iff (by decide) (by rintro own h; cases hown.symm.trans h; rfl)]
    exact ⟨rfl, num (1 / 100), hown, by decide +kernel⟩
  · rintro own h
    cases hown.symm.trans h
    decide +kernel

def sampleUniverse : List MomentumEntry :=
  [⟨"BTCUSDT", num (1 / 100)⟩, ⟨"ETHUSDT", num (1 / 2)⟩, ⟨"SOLUSDT", num (1 / 100)⟩]

/-- The other target ranks ahead. -/
def convergedKv : ProfileKv := [("rebalance:momentum:ETHUSDT", .text (.raw "0.5"))]

theorem basket_rotates_for_target :
    Agreement sampleUniverse sampleUniverse.erase 2 ∧
      (RotatesOut (rotationTick convergedKv) →
        ∃ own, ownScore (rotationTick convergedKv) = some own ∧
          1 ≤ (targetsAhead (rotationTick convergedKv) own).card) := by
  have hown : ownScore (rotationTick convergedKv) = some (num (1 / 100)) := by decide +kernel
  have hranked : Ranked sampleUniverse := ⟨by decide, by decide⟩
  have hfinite : ∀ own, ownScore (rotationTick convergedKv) = some own → own.isFinite = true := by
    rintro own h
    cases hown.symm.trans h
    rfl
  obtain ⟨hagree, htick⟩ := rotation_for_targets_iff hranked (by decide) (by decide : 1 ≤ 2)
    (fun e he => (List.perm_cons_erase he).symm) (by decide) hfinite
  refine ⟨hagree, htick.mpr ?_⟩
  rintro ⟨-, own, h, hshort, -⟩
  cases hown.symm.trans h
  revert hshort
  decide +kernel

end TradingBot.Rebalance

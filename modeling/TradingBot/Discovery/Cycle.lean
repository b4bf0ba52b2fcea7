import TradingBot.Discovery.Explain

/-!
# A discovery cycle of a profile

The cycle resolves a diff, asks about each symbol it would move what only the
outside can answer, and resolves again with the answers until nothing new comes
up; then it applies the diff, cutting the adds to what the refused removals
leave. Asked lazily, it decides as it would have with every answer beforehand.
-/

namespace TradingBot.Discovery

open GreedyFill ResolveInput

/-! ### Asking -/

inductive ReapRefusal where
  | walletHeld
  | holdUnproven

/-- What the port answers, the same however often it is asked. -/
structure Answers where
  siblingConflict : String → Option SiblingConflictDisposition
  reapRefusal : String → Option ReapRefusal

/-- The symbols asked about so far, and those an answer came back for. -/
structure Inquiry (κ : Type) where
  asked : List String
  found : List (String × κ)

namespace Inquiry

variable {κ : Type}

def start : Inquiry κ := ⟨[], []⟩

def symbols (q : Inquiry κ) : List String := q.found.map (·.1)

/-- Ask about a symbol once, and note that something came up. -/
def ask (answer : String → Option κ) (state : Inquiry κ × Bool) (symbol : String) :
    Inquiry κ × Bool :=
  if state.1.asked.contains symbol then state
  else
    match answer symbol with
    | none => ({ state.1 with asked := state.1.asked ++ [symbol] }, state.2)
    | some kind => (⟨state.1.asked ++ [symbol], state.1.found ++ [(symbol, kind)]⟩, true)

def askAll (answer : String → Option κ) (symbols : List String) (state : Inquiry κ × Bool) :
    Inquiry κ × Bool :=
  symbols.foldl (ask answer) state

end Inquiry

/-- What a cycle knows of conflicts and refusals. -/
structure CycleState where
  siblings : Inquiry SiblingConflictDisposition
  reaps : Inquiry ReapRefusal

def CycleState.start : CycleState := ⟨.start, .start⟩

section Loop

variable (env : Environment) (input : DiscoveryInput) (answers : Answers)

/-- The diff of the explained cycle, with the conflicts and refusals known so far. -/
def explainDiff (state : CycleState) : DiscoveryDiff :=
  resolveDiscovery env (input.resolving env state.reaps.symbols state.siblings.symbols)

/-- One pass over a diff: its adds, then its removals. -/
def askPass (diff : DiscoveryDiff) (state : CycleState) : CycleState × Bool :=
  let siblings := Inquiry.askAll answers.siblingConflict diff.add (state.siblings, false)
  let reaps := Inquiry.askAll answers.reapRefusal diff.remove (state.reaps, siblings.2)
  (⟨siblings.1, reaps.1⟩, reaps.2)

/-- Pass after pass until nothing new comes up. -/
def settle : ℕ → CycleState → Option (DiscoveryDiff × CycleState)
  | 0, _ => none
  | fuel + 1, state =>
      let diff := explainDiff env input state
      let pass := askPass answers diff state
      if pass.2 then settle fuel pass.1 else some (diff, pass.1)

end Loop

/-! ### Applying -/

inductive ReapOutcome where
  | removed
  | held
  | pinned
  | notFound

/-- The outcomes that empty a slot. -/
def ReapOutcome.frees : ReapOutcome → Bool
  | removed => true
  | notFound => true
  | held => false
  | pinned => false

/-- The slots the removals emptied. -/
def freedSlots (reap : String → ReapOutcome) (diff : DiscoveryDiff) : ℕ :=
  (diff.remove.filter fun s => (reap s).frees).length

/-- The adds the cap leaves room for after the removals that landed. -/
def appliedAdds (cfg : DiscoveryConfig) (rotatable : List String) (reap : String → ReapOutcome)
    (diff : DiscoveryDiff) : List String :=
  let addBudget : ℤ := cfg.maxAutoSymbols - ((rotatable.length : ℤ) - freedSlots reap diff)
  diff.add.take addBudget.toNat

/-- The symbols bound after a cycle, one that was pinned meanwhile among them. -/
def boundAfter (cfg : DiscoveryConfig) (rotatable : List String) (reap : String → ReapOutcome)
    (diff : DiscoveryDiff) : Finset String :=
  (rotatable.filter fun s => !(diff.remove.contains s && (reap s).frees)).toFinset ∪
    (appliedAdds cfg rotatable reap diff).toFinset

/-! ### What asking keeps -/

namespace Inquiry

variable {κ : Type} {answer : String → Option κ} {q q' : Inquiry κ} {b b' : Bool}

/-- Every symbol was asked about once, and what came back for it is kept. -/
structure Honest (answer : String → Option κ) (q : Inquiry κ) : Prop where
  once : q.asked.Nodup
  symbols_eq : q.symbols = q.asked.filter fun s => (answer s).isSome

theorem honest_start : (start : Inquiry κ).Honest answer := ⟨List.nodup_nil, rfl⟩

theorem Honest.mem_symbols (h : q.Honest answer) {s : String} :
    s ∈ q.symbols ↔ s ∈ q.asked ∧ (answer s).isSome = true := by
  rw [h.symbols_eq, List.mem_filter]

/-- What one question adds. -/
structure Extends (answer : String → Option κ) (l : List String) (q : Inquiry κ) (b : Bool)
    (q' : Inquiry κ) (b' : Bool) : Prop where
  honest : q.Honest answer → q'.Honest answer
  asked : ∀ s, s ∈ q'.asked ↔ s ∈ q.asked ∨ s ∈ l
  quiet : b' = false → b = false ∧ q'.symbols = q.symbols
  longer : q.symbols.length ≤ q'.symbols.length
  news : b = false → b' = true → q.symbols.length < q'.symbols.length

theorem ask_extends (answer : String → Option κ) (q : Inquiry κ) (b : Bool) (symbol : String) :
    Extends answer [symbol] q b (ask answer (q, b) symbol).1 (ask answer (q, b) symbol).2 := by
  unfold ask
  by_cases hasked : q.asked.contains symbol = true
  · rw [if_pos hasked]
    refine ⟨id, ?_, fun h => ⟨h, rfl⟩, le_rfl, ?_⟩
    · intro s
      rw [List.contains_eq_mem, decide_eq_true_iff] at hasked
      constructor
      · exact .inl
      · rintro (h | h)
        · exact h
        · rw [List.mem_singleton.mp h]
          exact hasked
    · intro h h'
      rw [h] at h'
      cases h'
  · rw [if_neg hasked]
    rw [List.contains_eq_mem, decide_eq_true_iff] at hasked
    cases hanswer : answer symbol with
    | none =>
        refine ⟨fun h => ⟨?_, ?_⟩, ?_, fun h => ⟨h, rfl⟩, le_rfl, ?_⟩
        · exact h.once.append (List.nodup_singleton _) (by simpa using hasked)
        · show q.symbols = _
          rw [h.symbols_eq, List.filter_append, List.filter_singleton, hanswer]
          simp
        · intro s
          exact List.mem_append
        · intro h h'
          cases h.symm.trans h'
    | some kind =>
        refine ⟨fun h => ⟨?_, ?_⟩, ?_, ?_, ?_, ?_⟩
        · exact h.once.append (List.nodup_singleton _) (by simpa using hasked)
        · have hsymbols := h.symbols_eq
          simp only [symbols] at hsymbols
          simp [symbols, List.filter_append, hanswer, hsymbols]
        · intro s
          exact List.mem_append
        · intro h
          cases h
        · simp [symbols]
        · intro _ _
          simp [symbols]

theorem askAll_extends (answer : String → Option κ) (l : List String) (q : Inquiry κ) (b : Bool) :
    Extends answer l q b (askAll answer l (q, b)).1 (askAll answer l (q, b)).2 := by
  induction l generalizing q b with
  | nil =>
      refine ⟨id, by simp [askAll], fun h => ⟨h, rfl⟩, le_rfl, ?_⟩
      intro h h'
      cases h.symm.trans h'
  | cons symbol rest ih =>
      have hone := ask_extends answer q b symbol
      have hrest := ih (ask answer (q, b) symbol).1 (ask answer (q, b) symbol).2
      have hcons : askAll answer (symbol :: rest) (q, b) =
          askAll answer rest ((ask answer (q, b) symbol).1, (ask answer (q, b) symbol).2) := rfl
      rw [hcons]
      refine ⟨fun h => hrest.honest (hone.honest h), ?_, ?_, hone.longer.trans hrest.longer, ?_⟩
      · intro s
        rw [hrest.asked, hone.asked, List.mem_singleton, List.mem_cons, or_assoc]
      · intro h
        obtain ⟨hquiet, hsame⟩ := hrest.quiet h
        obtain ⟨hquiet', hsame'⟩ := hone.quiet hquiet
        exact ⟨hquiet', hsame.trans hsame'⟩
      · intro h h'
        rcases Bool.eq_false_or_eq_true (ask answer (q, b) symbol).2 with hfirst | hfirst
        · exact (hone.news h hfirst).trans_le hrest.longer
        · exact hone.longer.trans_lt (hrest.news hfirst h')

end Inquiry

/-! ### Knowing more beforehand -/

namespace ResolveInput

/-- A resolution with other refusals and conflicts. -/
def withOverlay (i : ResolveInput) (unremovable blocked : List String) : ResolveInput :=
  { i with overlay := ⟨i.overlay.keepable, unremovable, blocked⟩ }

section Informed

variable {env : Environment} {i : ResolveInput} {unremovable blocked : List String}
  {refused : String → Bool}

/-- The further refusals and conflicts change nothing the resolution would do. -/
structure Settles (env : Environment) (i : ResolveInput) (unremovable blocked : List String)
    (refused : String → Bool) : Prop where
  unremovable_iff : ∀ s ∈ i.currentSet, s ∈ unremovable ↔ refused s = true
  refused_of_mem : ∀ s ∈ i.overlay.unremovable, refused s = true
  blocked_subset : i.overlay.blocked ⊆ blocked
  remove_free : ∀ s ∈ i.remove env, refused s = false
  add_free : ∀ s ∈ i.add env, s ∉ blocked

variable (h : Settles env i unremovable blocked refused)

include h

theorem Settles.reapable_eq {c : CurrentAutoSymbol} (hc : c ∈ i.currentAuto) :
    (i.withOverlay unremovable blocked).reapable c = (i.reapable c && !refused c.symbol) := by
  have hiff := h.unremovable_iff c.symbol (List.mem_map_of_mem hc)
  have hknown := h.refused_of_mem c.symbol
  unfold reapable withOverlay
  simp only [List.contains_eq_mem]
  cases hrefused : refused c.symbol with
  | true =>
      rw [hrefused] at hiff
      simp [hiff.mpr rfl]
  | false =>
      rw [hrefused] at hiff hknown
      have hnot : c.symbol ∉ unremovable := fun hmem => Bool.false_ne_true (hiff.mp hmem)
      have hnot' : c.symbol ∉ i.overlay.unremovable :=
        fun hmem => Bool.false_ne_true (hknown hmem)
      simp [hnot, hnot']

theorem Settles.reaped_eq : (i.withOverlay unremovable blocked).reaped env = i.reaped env := by
  unfold reaped
  congr 1
  refine List.filter_congr ?_
  intro c hc
  have hmem : c ∈ i.currentAuto := List.mem_of_mem_filter hc
  rw [h.reapable_eq hmem]
  show (i.reapable c && !refused c.symbol && !i.isKeepable c) = (i.reapable c && !i.isKeepable c)
  cases hreap : i.reapable c with
  | false => rfl
  | true =>
      cases hkeep : i.isKeepable c with
      | true => simp
      | false =>
          have hc' : c ∈ i.faded env := hc
          have hfaded : i.isEligible env c = false := by simpa using (List.mem_filter.mp hc').2
          have hgone : c.symbol ∈ i.remove env :=
            List.mem_append_left _ (mem_reaped.mpr ⟨c, hmem, rfl, hfaded, hreap, hkeep⟩)
          rw [h.remove_free _ hgone]
          rfl

theorem Settles.yielding_eq :
    (i.withOverlay unremovable blocked).yielding env =
      (i.yielding env).filter fun c => !refused c.symbol := by
  unfold yielding
  rw [filter_insertionSort, List.filter_filter]
  congr 1
  refine List.filter_congr ?_
  intro c hc
  rw [h.reapable_eq (List.mem_of_mem_filter hc)]
  show (i.reapable c && !refused c.symbol && i.isKeepable c) =
    (!refused c.symbol && (i.reapable c && i.isKeepable c))
  rw [Bool.and_comm (i.reapable c), Bool.and_assoc]

/-- Every refusal that came later protects a symbol that would have yielded. -/
theorem Settles.rawSlots_eq :
    (i.withOverlay unremovable blocked).rawSlots env + (i.yielding env).length =
      i.rawSlots env + (if i.allowAdds then
        ((i.withOverlay unremovable blocked).yielding env).length
      else (i.yielding env).length) := by
  have hclasses := length_currentAuto env i
  have hclasses' := length_currentAuto env (i.withOverlay unremovable blocked)
  rw [h.reaped_eq] at hclasses'
  have hkept : (i.withOverlay unremovable blocked).kept env = i.kept env := rfl
  have hcurrent : (i.withOverlay unremovable blocked).currentAuto = i.currentAuto := rfl
  rw [hkept, hcurrent] at hclasses'
  unfold rawSlots
  rw [hkept, show (i.withOverlay unremovable blocked).allowAdds = i.allowAdds from rfl,
    show (i.withOverlay unremovable blocked).cfg = i.cfg from rfl]
  by_cases hallow : i.allowAdds = true
  · rw [if_pos hallow, if_pos hallow, if_pos hallow]
    omega
  · rw [if_neg hallow, if_neg hallow, if_neg hallow]

theorem Settles.freeSlots_eq :
    (i.withOverlay unremovable blocked).freeSlots env = i.freeSlots env := by
  have hraw := h.rawSlots_eq
  unfold freeSlots
  by_cases hallow : i.allowAdds = true
  · rw [if_pos hallow] at hraw
    congr 1
    omega
  · rw [if_neg hallow] at hraw
    have hzero : i.rawSlots env = 0 := by rw [rawSlots, if_neg hallow]
    omega

/-- The first to yield are the same: none of them is refused. -/
theorem Settles.take_yielding :
    ((i.withOverlay unremovable blocked).yielding env).take
      ((i.add env).length - i.freeSlots env) = i.evicted env := by
  rw [h.yielding_eq, evicted]
  refine take_filter ?_
  intro c hc
  have hgone : c.symbol ∈ i.remove env := List.mem_append_right _ (List.mem_map_of_mem hc)
  rw [h.remove_free _ hgone]
  rfl

theorem Settles.length_add_le (hcap : i.currentAuto.length ≤ i.cfg.maxAutoSymbols) :
    (i.add env).length ≤ (i.withOverlay unremovable blocked).availableSlots env := by
  have hraw := h.rawSlots_eq
  have hadd := ResolveInput.length_add_le env i
  have hclasses := length_currentAuto env i
  have htaken := congrArg List.length h.take_yielding
  rw [evicted, List.length_take, List.length_take] at htaken
  unfold freeSlots at htaken
  unfold availableSlots at hadd ⊢
  by_cases hallow : i.allowAdds = true
  · rw [if_pos hallow] at hraw
    have hslots : i.rawSlots env =
        i.cfg.maxAutoSymbols - (i.kept env).length - (i.protectedFaded env).length := by
      rw [rawSlots, if_pos hallow]
    omega
  · rw [if_neg hallow] at hraw
    omega

theorem Settles.add_eq (hcap : i.currentAuto.length ≤ i.cfg.maxAutoSymbols) :
    (i.withOverlay unremovable blocked).add env = i.add env := by
  have hroom := h.length_add_le hcap
  have hpeers : (i.withOverlay unremovable blocked).stayingPeers env = i.stayingPeers env := by
    unfold stayingPeers
    rw [h.reaped_eq]
    rfl
  have hadmits : ∀ among a, (i.withOverlay unremovable blocked).admits env among a =
      (i.admits env among a && !blocked.contains a) := by
    intro among a
    have hcorr : (i.withOverlay unremovable blocked).correlated env among a =
        i.correlated env among a := by
      unfold correlated
      rw [hpeers]
      rfl
    have hblocked : (!blocked.contains a) =
        (!i.overlay.blocked.contains a && !blocked.contains a) := by
      cases hmem : i.overlay.blocked.contains a with
      | false => rfl
      | true =>
          rw [List.contains_eq_mem, decide_eq_true_iff] at hmem
          simp [h.blocked_subset hmem]
    unfold admits
    rw [hcorr]
    change (!i.currentSet.contains a && !i.pinnedMembers.contains a && !blocked.contains a &&
      !inCooldown (i.lastFlattenAtMsBySymbol a) i.cfg i.nowMs && !i.correlated env among a) = _
    revert hblocked
    generalize blocked.contains a = refusedNow
    generalize i.overlay.blocked.contains a = refusedBefore
    generalize i.currentSet.contains a = current
    generalize i.pinnedMembers.contains a = pinned
    generalize inCooldown (i.lastFlattenAtMsBySymbol a) i.cfg i.nowMs = cooling
    generalize i.correlated env among a = correlated
    cases refusedNow <;> cases refusedBefore <;> cases current <;> cases pinned <;>
      cases cooling <;> cases correlated <;> decide
  have hslots : (i.withOverlay unremovable blocked).availableSlots env ≤ i.availableSlots env := by
    have hraw := h.rawSlots_eq
    have hfewer : ((i.withOverlay unremovable blocked).yielding env).length ≤
        (i.yielding env).length := by
      rw [h.yielding_eq]
      exact List.length_filter_le _ _
    unfold availableSlots
    split at hraw
    · omega
    · omega
  rw [add_eq_fill] at hroom
  rw [add_eq_fill, add_eq_fill, ← fill_of_length_le hslots hroom]
  refine fill_of_forall_mem hadmits ?_ (List.forall_mem_nil _)
  intro a ha _
  change a ∈ fill (i.admits env) _ [] (i.eligible env) at ha
  rw [fill_of_length_le hslots hroom, ← add_eq_fill] at ha
  simpa using h.add_free a ha

theorem Settles.resolve_eq (hcap : i.currentAuto.length ≤ i.cfg.maxAutoSymbols) :
    resolveDiscovery env (i.withOverlay unremovable blocked) = resolveDiscovery env i := by
  have hadd := h.add_eq hcap
  have hevicted : (i.withOverlay unremovable blocked).evicted env = i.evicted env := by
    unfold evicted
    rw [hadd, h.freeSlots_eq]
    exact h.take_yielding
  unfold resolveDiscovery
  congr 1
  · unfold remove
    rw [h.reaped_eq, hevicted]
  · unfold desired
    rw [hadd, hevicted]
    rfl

end Informed

end ResolveInput

/-! ### The loop ends, and decides as if informed -/

section Settling

variable {env : Environment} {input : DiscoveryInput} {answers : Answers} {state : CycleState}

/-- The symbols bound to the profile and free to rotate. -/
def DiscoveryInput.rotatable (input : DiscoveryInput) : List String :=
  input.currentAuto.map (·.symbol)

/-- Everything was asked once, about symbols that are on the list. -/
structure CycleState.Known (env : Environment) (input : DiscoveryInput) (answers : Answers)
    (state : CycleState) : Prop where
  siblings : state.siblings.Honest answers.siblingConflict
  reaps : state.reaps.Honest answers.reapRefusal
  shortlisted : state.siblings.asked ⊆ shortlistByTicker env input.tickers input.config
  bound : state.reaps.asked ⊆ input.rotatable

/-- How much came up so far. -/
def CycleState.count (state : CycleState) : ℕ :=
  state.siblings.symbols.length + state.reaps.symbols.length

theorem Inquiry.Honest.length_le {κ : Type} {answer : String → Option κ} {q : Inquiry κ}
    {l : List String} (h : q.Honest answer) (hsub : q.asked ⊆ l) : q.symbols.length ≤ l.length := by
  rw [h.symbols_eq]
  exact (List.length_filter_le _ _).trans (List.subperm_of_subset h.once hsub).length_le

theorem CycleState.Known.count_le (h : state.Known env input answers) :
    state.count ≤
      (shortlistByTicker env input.tickers input.config).length + input.rotatable.length :=
  Nat.add_le_add (h.siblings.length_le h.shortlisted) (h.reaps.length_le h.bound)

/-- The diff of a pass moves only listed symbols. -/
theorem explainDiff_subset (env : Environment) (input : DiscoveryInput) (state : CycleState) :
    (explainDiff env input state).add ⊆ shortlistByTicker env input.tickers input.config ∧
      (explainDiff env input state).remove ⊆ input.rotatable := by
  constructor
  · intro s hs
    exact List.mem_of_mem_filter (mem_add hs).1
  · exact remove_subset env _

/-- A pass keeps what is known; a pass that brings nothing new has asked about its whole diff. -/
theorem askPass_spec (h : state.Known env input answers) {next : CycleState} {changed : Bool}
    (hpass : askPass answers (explainDiff env input state) state = (next, changed)) :
    next.Known env input answers ∧ (changed = true → state.count < next.count) ∧
      (changed = false → next.siblings.symbols = state.siblings.symbols ∧
        next.reaps.symbols = state.reaps.symbols ∧
        (explainDiff env input state).add ⊆ next.siblings.asked ∧
        (explainDiff env input state).remove ⊆ next.reaps.asked) := by
  obtain ⟨hadds, hremoves⟩ := explainDiff_subset env input state
  have hsiblings := Inquiry.askAll_extends answers.siblingConflict
    (explainDiff env input state).add state.siblings false
  have hreaps := Inquiry.askAll_extends answers.reapRefusal (explainDiff env input state).remove
    state.reaps (Inquiry.askAll answers.siblingConflict (explainDiff env input state).add
      (state.siblings, false)).2
  cases hpass
  refine ⟨⟨hsiblings.honest h.siblings, hreaps.honest h.reaps, ?_, ?_⟩, ?_, ?_⟩
  · intro s hs
    rcases (hsiblings.asked s).mp hs with hs | hs
    · exact h.shortlisted hs
    · exact hadds hs
  · intro s hs
    rcases (hreaps.asked s).mp hs with hs | hs
    · exact h.bound hs
    · exact hremoves hs
  · intro hchanged
    rcases Bool.eq_false_or_eq_true (Inquiry.askAll answers.siblingConflict
      (explainDiff env input state).add (state.siblings, false)).2 with hfirst | hfirst
    · exact Nat.add_lt_add_of_lt_of_le (hsiblings.news rfl hfirst) hreaps.longer
    · exact Nat.add_lt_add_of_le_of_lt hsiblings.longer (hreaps.news hfirst hchanged)
  · intro hquiet
    obtain ⟨hquiet', hsame⟩ := hreaps.quiet hquiet
    exact ⟨(hsiblings.quiet hquiet').2, hsame, fun s hs => (hsiblings.asked s).mpr (.inr hs),
      fun s hs => (hreaps.asked s).mpr (.inr hs)⟩

/-- What the loop ends with: the diff of a state whose pass brought nothing new. -/
structure SettledAt (env : Environment) (input : DiscoveryInput) (answers : Answers)
    (diff : DiscoveryDiff) (last : CycleState) : Prop where
  known : last.Known env input answers
  stable : ∃ state : CycleState, state.Known env input answers ∧
    diff = explainDiff env input state ∧ last.siblings.symbols = state.siblings.symbols ∧
    last.reaps.symbols = state.reaps.symbols ∧ diff.add ⊆ last.siblings.asked ∧
    diff.remove ⊆ last.reaps.asked

/-- With a pass for each listed symbol to spare, the loop ends, the same for any more. -/
theorem settle_ends (h : state.Known env input answers) {fuel : ℕ}
    (hfuel : (shortlistByTicker env input.tickers input.config).length + input.rotatable.length <
      fuel + state.count) :
    ∃ diff last, (∀ more ≥ fuel, settle env input answers more state = some (diff, last)) ∧
      SettledAt env input answers diff last := by
  induction fuel generalizing state with
  | zero =>
      have hcount := h.count_le
      omega
  | succ fuel ih =>
      obtain ⟨next, changed, hpass⟩ : ∃ next changed,
        askPass answers (explainDiff env input state) state = (next, changed) := ⟨_, _, rfl⟩
      obtain ⟨hknown, hnews, hquiet⟩ := askPass_spec h hpass
      cases changed with
      | true =>
          obtain ⟨diff, last, hsettles, hsettled⟩ := ih hknown (by have := hnews rfl; omega)
          refine ⟨diff, last, ?_, hsettled⟩
          intro more hmore
          obtain ⟨n, rfl⟩ := Nat.exists_eq_add_of_le hmore
          rw [Nat.add_right_comm, settle, hpass]
          exact hsettles (fuel + n) (Nat.le_add_right _ _)
      | false =>
          obtain ⟨hsiblings, hreaps, hadds, hremoves⟩ := hquiet rfl
          refine ⟨_, next, ?_, hknown, state, h, rfl, hsiblings, hreaps, hadds, hremoves⟩
          intro more hmore
          obtain ⟨n, rfl⟩ := Nat.exists_eq_add_of_le hmore
          rw [Nat.add_right_comm, settle, hpass]
          rfl

/-- The current symbols that are refused, and the listed ones that conflict. -/
def informedResolve (env : Environment) (input : DiscoveryInput) (answers : Answers) :
    ResolveInput :=
  input.resolving env
    (input.rotatable.filter fun s => (answers.reapRefusal s).isSome)
    ((shortlistByTicker env input.tickers input.config).filter fun s =>
      (answers.siblingConflict s).isSome)

theorem SettledAt.free {diff : DiscoveryDiff} {last : CycleState}
    (h : SettledAt env input answers diff last) :
    (∀ s ∈ diff.add, answers.siblingConflict s = none) ∧
      ∀ s ∈ diff.remove, answers.reapRefusal s = none := by
  obtain ⟨state, hstate, rfl, hsiblings, hreaps, hadds, hremoves⟩ := h.stable
  constructor
  · intro s hs
    rw [← Option.not_isSome_iff_eq_none]
    intro hconflict
    have hfound : s ∈ last.siblings.symbols :=
      h.known.siblings.mem_symbols.mpr ⟨hadds hs, hconflict⟩
    rw [hsiblings] at hfound
    exact (mem_add hs).2.2.1 hfound
  · intro s hs
    rw [← Option.not_isSome_iff_eq_none]
    intro hrefused
    have hfound : s ∈ last.reaps.symbols :=
      h.known.reaps.mem_symbols.mpr ⟨hremoves hs, hrefused⟩
    rw [hreaps] at hfound
    obtain ⟨c, -, rfl, -, hreap, -⟩ := mem_remove hs
    rw [reapable, Bool.and_eq_true, Bool.not_eq_true', List.contains_eq_mem,
      decide_eq_false_iff_not] at hreap
    exact hreap.2 hfound

theorem SettledAt.informed {diff : DiscoveryDiff} {last : CycleState}
    (h : SettledAt env input answers diff last)
    (hcap : input.rotatable.length ≤ input.config.maxAutoSymbols) :
    diff = resolveDiscovery env (informedResolve env input answers) := by
  obtain ⟨hadd, hremove⟩ := h.free
  obtain ⟨state, hstate, rfl, -⟩ := h.stable
  have hsettles : Settles env
      (input.resolving env state.reaps.symbols state.siblings.symbols)
      (input.rotatable.filter fun s => (answers.reapRefusal s).isSome)
      ((shortlistByTicker env input.tickers input.config).filter fun s =>
        (answers.siblingConflict s).isSome)
      fun s => (answers.reapRefusal s).isSome := by
    refine ⟨?_, ?_, ?_, ?_, ?_⟩
    · intro s hs
      rw [List.mem_filter]
      exact ⟨fun h => h.2, fun h => ⟨hs, h⟩⟩
    · intro s hs
      exact (hstate.reaps.mem_symbols.mp hs).2
    · intro s hs
      obtain ⟨hasked, hconflict⟩ := hstate.siblings.mem_symbols.mp hs
      exact List.mem_filter.mpr ⟨hstate.shortlisted hasked, hconflict⟩
    · intro s hs
      rw [hremove s hs]
      rfl
    · intro s hs hblocked
      have hconflict := (List.mem_filter.mp hblocked).2
      rw [hadd s hs] at hconflict
      cases hconflict
  rw [DiscoveryInput.rotatable, List.length_map] at hcap
  exact (hsettles.resolve_eq hcap).symm

end Settling

/-! ### Applying keeps the cap -/

theorem boundAfter_card {cfg : DiscoveryConfig} {rotatable : List String}
    {reap : String → ReapOutcome} {diff : DiscoveryDiff} (hrotatable : rotatable.Nodup)
    (hremove : diff.remove.Nodup) (hsub : diff.remove ⊆ rotatable) :
    (boundAfter cfg rotatable reap diff).card ≤
      Max.max cfg.maxAutoSymbols rotatable.length := by
  have hsplit := List.length_eq_length_filter_add (l := rotatable)
    fun s => diff.remove.contains s && (reap s).frees
  have hfreed : (rotatable.filter fun s => diff.remove.contains s && (reap s).frees).length =
      freedSlots reap diff := by
    refine List.Perm.length_eq
      ((List.perm_ext_iff_of_nodup (hrotatable.filter _) (hremove.filter _)).mpr ?_)
    intro s
    rw [List.mem_filter, List.mem_filter, Bool.and_eq_true, List.contains_eq_mem,
      decide_eq_true_iff]
    exact ⟨fun h => h.2, fun h => ⟨hsub h.1, h⟩⟩
  have hkept := List.toFinset_card_le
    (rotatable.filter fun s => !(diff.remove.contains s && (reap s).frees))
  have hadds := List.toFinset_card_le (appliedAdds cfg rotatable reap diff)
  have htaken : (appliedAdds cfg rotatable reap diff).length ≤
      ((cfg.maxAutoSymbols : ℤ) - ((rotatable.length : ℤ) - freedSlots reap diff)).toNat := by
    rw [appliedAdds, List.length_take]
    exact min_le_left _ _
  have hunion := Finset.card_union_le
    (rotatable.filter fun s => !(diff.remove.contains s && (reap s).frees)).toFinset
    (appliedAdds cfg rotatable reap diff).toFinset
  rw [← boundAfter] at hunion
  omega

/-- A profile's cycle ends, asks each question at most once, moves nothing it
must not, decides as if it had asked everything first, and leaves the bound set
within its cap or no larger than it was. -/
theorem cycle_decides_as_informed (env : Environment) (input : DiscoveryInput) (answers : Answers)
    (reap : String → ReapOutcome) (hbound : input.rotatable.Nodup) :
    ∃ diff last,
      (∀ fuel > (shortlistByTicker env input.tickers input.config).length +
        input.rotatable.length, settle env input answers fuel .start = some (diff, last)) ∧
      last.siblings.asked.Nodup ∧ last.reaps.asked.Nodup ∧
      (∀ s ∈ diff.add, answers.siblingConflict s = none) ∧
      (∀ s ∈ diff.remove, answers.reapRefusal s = none) ∧
      (input.rotatable.length ≤ input.config.maxAutoSymbols →
        diff = resolveDiscovery env (informedResolve env input answers)) ∧
      (boundAfter input.config input.rotatable reap diff).card ≤
        Max.max input.config.maxAutoSymbols input.rotatable.length := by
  have hstart : CycleState.start.Known env input answers :=
    ⟨Inquiry.honest_start, Inquiry.honest_start, List.nil_subset _, List.nil_subset _⟩
  have hfuel : (shortlistByTicker env input.tickers input.config).length +
      input.rotatable.length < (shortlistByTicker env input.tickers input.config).length +
        input.rotatable.length + 1 + CycleState.start.count := by
    omega
  obtain ⟨diff, last, hends, hsettled⟩ := settle_ends hstart hfuel
  obtain ⟨hadd, hremove⟩ := hsettled.free
  refine ⟨diff, last, fun fuel hfuel => hends fuel hfuel, hsettled.known.siblings.once,
    hsettled.known.reaps.once, hadd, hremove, hsettled.informed, ?_⟩
  obtain ⟨state, -, rfl, -⟩ := hsettled.stable
  exact boundAfter_card hbound (nodup_remove hbound) (explainDiff_subset env input state).2

/-- Two gainers beside a faded symbol that holds the only slot. -/
def sampleCycle : DiscoveryInput where
  tickers := [sampleTicker "A" (-5), sampleTicker "B" 5, sampleTicker "C" 4]
  klinesBySymbol := sampleKlines
  currentAuto := [⟨"AUSDT", 0⟩]
  lastFlattenAtMsBySymbol := fun _ => none
  pinnedMembers := []
  config := sampleConfig
  nowMs := 120000

/-- The better gainer belongs to a sibling. -/
def sampleAnswers : Answers where
  siblingConflict := fun s => if s = "BUSDT" then some .siblingOwnsBase else none
  reapRefusal := fun _ => none

/-- The slot passes to the next gainer, as if the conflict had been known. -/
theorem sample_cycle_decides :
    ∃ diff last, settle sampleEnvironment sampleCycle sampleAnswers 4 .start = some (diff, last) ∧
      diff = ⟨["CUSDT"], ["AUSDT"], ["CUSDT"]⟩ ∧ last.siblings.asked = ["BUSDT", "CUSDT"] ∧
      diff = resolveDiscovery sampleEnvironment
        (informedResolve sampleEnvironment sampleCycle sampleAnswers) := by
  obtain ⟨diff, last, hends, -, -, -, -, hinformed, -⟩ :=
    cycle_decides_as_informed sampleEnvironment sampleCycle sampleAnswers (fun _ => .removed)
      (by decide)
  have hsettles := hends 4 (by decide +kernel)
  have hrun : (settle sampleEnvironment sampleCycle sampleAnswers 4 .start).map
      (fun result => (result.1, result.2.siblings.asked)) =
      some (⟨["CUSDT"], ["AUSDT"], ["CUSDT"]⟩, ["BUSDT", "CUSDT"]) := by
    decide +kernel
  rw [hsettles, Option.map_some, Option.some_inj, Prod.mk.injEq] at hrun
  exact ⟨diff, last, hsettles, hrun.1, hrun.2, hinformed (by decide)⟩

end TradingBot.Discovery

import TradingBot.Lib.LabelledRun
import TradingBot.Worker.OpenOrdersCache

/-!
# The snapshot tracks the book

The invariant of the shared list: each order it is wrong about is one that a
placement, a cancel or a report still on its way will mend. It holds along every
run in which a write finds what it relies on, and it leaves nothing to mend once
everything was processed.
-/

namespace TradingBot.Worker

open FanOutLog LabelledRun

namespace CacheWorld

variable {s t : CacheWorld} {orderId other : ℕ} {reported : Reported} {list : List CachedOrder}

/-- The log and what is on its way agree. -/
structure Ordered (s : CacheWorld) : Prop where
  valid : LogValid s.log
  cursors_le : ∀ cursor ∈ s.cursors, cursor ≤ s.log.length
  streams : s.cursors ≠ []
  cancelled : ∀ orderId ∈ s.cancels, latest s.log orderId = some .terminal
  ended : ∀ placement ∈ s.placements, placement.terminal = true →
    latest s.log placement.orderId = some .terminal
  loaded : ∀ load ∈ s.coldLoads, (load.snapshot.map (·.orderId)).Nodup

/-- A list that is there names each order once, and is right about it or will be. -/
def Sound (s : CacheWorld) : Prop :=
  ∀ list, s.key = some list → (list.map (·.orderId)).Nodup ∧ ∀ orderId, s.Settles list orderId

theorem standing_of_terminal {log : ReportLog} (h : latest log orderId = some .terminal) :
    standing log orderId = none := by
  rw [standing, onBook, h]
  rfl

/-- The report does not follow the end of its order, and is its first only where it is new. -/
def Follows (s : CacheWorld) (orderId : ℕ) (reported : Reported) : Prop :=
  ∀ entry ∈ s.log, entry.1 = orderId → entry.2 ≠ .terminal ∧ reported ≠ .new

theorem follows_fresh (h : latest s.log orderId = none) (reported : Reported) :
    s.Follows orderId reported :=
  fun entry hentry hsame => absurd hsame (latest_eq_none_iff.mp h entry hentry)

theorem Ordered.follows (h : s.Ordered) (hlive : (standing s.log orderId).isSome = true)
    (hreported : reported ≠ .new) : s.Follows orderId reported :=
  fun _ hentry hsame => ⟨h.valid.not_ended hlive hentry hsame, hreported⟩

theorem latest_report_terminal (hfollows : s.Follows orderId reported)
    (h : latest s.log other = some .terminal) :
    latest (s.report orderId reported).log other = some .terminal := by
  have hother : other ≠ orderId := by
    rintro rfl
    exact (hfollows _ (exists_of_latest h) rfl).1 rfl
  exact (latest_append_of_ne hother).trans h

theorem Ordered.report (h : s.Ordered) (hfollows : s.Follows orderId reported) :
    (s.report orderId reported).Ordered where
  valid := h.valid.append hfollows
  cursors_le cursor hcursor := by
    refine (h.cursors_le cursor hcursor).trans ?_
    simp [CacheWorld.report]
  streams := h.streams
  cancelled id hid := latest_report_terminal hfollows (h.cancelled id hid)
  ended placement hplacement hterminal :=
    latest_report_terminal hfollows (h.ended placement hplacement hterminal)
  loaded := h.loaded

theorem Reporting.report (h : s.Reporting other) : (s.report orderId reported).Reporting other := by
  obtain ⟨cursor, hcursor, found, hunread, hchanges⟩ := h
  exact ⟨cursor, hcursor, found, mem_unread_append hunread _, hchanges⟩

/-- A report that was just made is still to be read. -/
theorem Ordered.reporting (h : s.Ordered) (hchanges : reported ≠ .new) :
    (s.report orderId reported).Reporting orderId := by
  obtain ⟨cursor, hcursor⟩ := List.exists_mem_of_ne_nil _ h.streams
  exact ⟨cursor, hcursor, reported, appended_mem_unread (h.cursors_le cursor hcursor) _, hchanges⟩

theorem Settles.report_other (h : s.Settles list other) (hother : other ≠ orderId) :
    (s.report orderId reported).Settles list other := by
  have hstanding : standing (s.report orderId reported).log other = standing s.log other :=
    standing_report_other hother
  rcases h with hright | hplacement | ⟨hlisted, hreporting | hcancelled⟩
  · exact .inl (hright.trans hstanding.symm)
  · exact .inr (.inl hplacement)
  · exact .inr (.inr ⟨hlisted, .inl hreporting.report⟩)
  · exact .inr (.inr ⟨hlisted, .inr ⟨hstanding.trans hcancelled.1, hcancelled.2⟩⟩)

theorem Settles.report_self (h : s.Settles list orderId) (hordered : s.Ordered)
    (hlive : (standing s.log orderId).isSome = true) (hchanges : reported ≠ .new) :
    (s.report orderId reported).Settles list orderId := by
  rcases h with hright | hplacement | ⟨hlisted, -⟩
  · exact .inr (.inr ⟨by rw [hright]; exact hlive, .inl (hordered.reporting hchanges)⟩)
  · exact .inr (.inl hplacement)
  · exact .inr (.inr ⟨hlisted, .inl (hordered.reporting hchanges)⟩)

theorem Sound.report (h : s.Sound)
    (hself : ∀ list, s.key = some list → (s.report orderId reported).Settles list orderId) :
    (s.report orderId reported).Sound := by
  intro list hkey
  obtain ⟨hnodup, hsettles⟩ := h list hkey
  refine ⟨hnodup, fun other => ?_⟩
  by_cases hother : other = orderId
  · subst hother
    exact hself list hkey
  · exact (hsettles other).report_other hother

theorem Sound.report_live (h : s.Sound) (hordered : s.Ordered)
    (hlive : (standing s.log orderId).isSome = true) (hchanges : reported ≠ .new) :
    (s.report orderId reported).Sound :=
  h.report fun list hkey => ((h list hkey).2 orderId).report_self hordered hlive hchanges

/-! #### Placements and cancels on their way -/

theorem Ordered.addPlacement {placement : Placement} (h : s.Ordered)
    (hended : placement.terminal = true → latest s.log placement.orderId = some .terminal) :
    Ordered { s with placements := s.placements ++ [placement] } where
  valid := h.valid
  cursors_le := h.cursors_le
  streams := h.streams
  cancelled := h.cancelled
  ended found hfound hterminal := by
    rcases List.mem_append.mp hfound with hmem | hmem
    · exact h.ended found hmem hterminal
    · obtain rfl := List.mem_singleton.mp hmem
      exact hended hterminal
  loaded := h.loaded

theorem Sound.addPlacement {placement : Placement} (h : s.Sound) :
    Sound { s with placements := s.placements ++ [placement] } := by
  intro list hkey
  obtain ⟨hnodup, hsettles⟩ := h list hkey
  refine ⟨hnodup, fun orderId => ?_⟩
  rcases hsettles orderId with hright | ⟨found, hfound, hsame⟩ | hmending
  · exact .inl hright
  · exact .inr (.inl ⟨found, List.mem_append_left _ hfound, hsame⟩)
  · exact .inr (.inr hmending)

theorem Sound.addCancel (h : s.Sound) : Sound { s with cancels := s.cancels ++ [orderId] } := by
  intro list hkey
  obtain ⟨hnodup, hsettles⟩ := h list hkey
  refine ⟨hnodup, fun other => ?_⟩
  rcases hsettles other with hright | hplacement | ⟨hlisted, hreporting | hcancelled⟩
  · exact .inl hright
  · exact .inr (.inl hplacement)
  · exact .inr (.inr ⟨hlisted, .inl hreporting⟩)
  · exact .inr (.inr ⟨hlisted, .inr ⟨hcancelled.1, List.mem_append_left _ hcancelled.2⟩⟩)

theorem Ordered.addCancel (h : s.Ordered) (hended : latest s.log orderId = some .terminal) :
    Ordered { s with cancels := s.cancels ++ [orderId] } where
  valid := h.valid
  cursors_le := h.cursors_le
  streams := h.streams
  cancelled found hfound := by
    rcases List.mem_append.mp hfound with hmem | hmem
    · exact h.cancelled found hmem
    · obtain rfl := List.mem_singleton.mp hmem
      exact hended
  ended := h.ended
  loaded := h.loaded

theorem Sound.report_placed {placement : Placement} (h : s.Sound)
    (hplacement : placement ∈ s.placements) (hsame : placement.orderId = orderId) :
    (s.report orderId reported).Sound :=
  h.report fun _ _ => .inr (.inl ⟨placement, hplacement, hsame⟩)

theorem place_ordered (h : s.Ordered) (outcome : PlaceOutcome)
    (hfresh : latest s.log orderId = none) :
    Ordered (outcome.reports.foldl (·.report orderId ·)
      { s with placements := s.placements ++ [outcome.placement orderId] }) := by
  have hadmitted := h.report (follows_fresh hfresh .new)
  have hlive : (standing (s.report orderId .new).log orderId).isSome = true := by
    rw [CacheWorld.report, standing_report_self]
    rfl
  cases outcome with
  | rests => exact hadmitted.addPlacement nofun
  | executes cumQty cumQuoteQty =>
      have hexecuted := hadmitted.report
        (hadmitted.follows hlive (nofun : .partiallyFilled cumQty cumQuoteQty ≠ Reported.new))
      exact hexecuted.addPlacement nofun
  | ends =>
      have hended := hadmitted.report
        (hadmitted.follows hlive (nofun : .terminal ≠ Reported.new))
      exact hended.addPlacement fun _ => latest_append_self

theorem place_sound (h : s.Sound) (outcome : PlaceOutcome) :
    Sound (outcome.reports.foldl (·.report orderId ·)
      { s with placements := s.placements ++ [outcome.placement orderId] }) := by
  have hplaced : outcome.placement orderId ∈ s.placements ++ [outcome.placement orderId] :=
    List.mem_append_right _ (List.mem_singleton_self _)
  have hwaits := @Sound.addPlacement s (outcome.placement orderId) h
  cases outcome with
  | rests => exact hwaits.report_placed hplaced rfl
  | executes cumQty cumQuoteQty =>
      exact (hwaits.report_placed hplaced rfl).report_placed hplaced rfl
  | ends => exact (hwaits.report_placed hplaced rfl).report_placed hplaced rfl

/-! #### Writes to the list -/

/-- A list that is there names each order once and settles for every order but one. -/
def SoundExcept (s : CacheWorld) (orderId : ℕ) : Prop :=
  ∀ list, s.key = some list →
    (list.map (·.orderId)).Nodup ∧ ∀ other, other ≠ orderId → s.Settles list other

theorem Settles.of_listed {before after : List CachedOrder} (h : s.Settles before other)
    (hlisted : listed after other = listed before other) : s.Settles after other := by
  rcases h with hright | hplacement | ⟨hsome, hmending⟩
  · exact .inl (hlisted.trans hright)
  · exact .inr (.inl hplacement)
  · exact .inr (.inr ⟨by rw [hlisted]; exact hsome, hmending⟩)

theorem SoundExcept.remove (h : s.SoundExcept orderId) (hgone : standing s.log orderId = none) :
    Sound { s with key := removeOpenOrder s.key orderId } := by
  intro after hafter
  obtain ⟨before, hbefore, rfl⟩ := Option.map_eq_some_iff.mp hafter
  obtain ⟨hnodup, hsettles⟩ := h before hbefore
  refine ⟨nodup_remove hnodup, fun other => ?_⟩
  by_cases hsame : other = orderId
  · subst hsame
    exact .inl (listed_remove_self.trans hgone.symm)
  · exact (hsettles other hsame).of_listed (listed_remove_other hsame)

theorem SoundExcept.patch (h : s.SoundExcept orderId) (cumQty cumQuote : ℚ) (status : String)
    (hself : ∀ before, s.key = some before →
      s.Settles (patchList orderId cumQty cumQuote status before) orderId) :
    Sound { s with key := patchOpenOrder s.key orderId cumQty cumQuote status } := by
  intro after hafter
  obtain ⟨before, hbefore, rfl⟩ := Option.map_eq_some_iff.mp hafter
  obtain ⟨hnodup, hsettles⟩ := h before hbefore
  refine ⟨by rw [ids_patch]; exact hnodup, fun other => ?_⟩
  by_cases hsame : other = orderId
  · subst hsame
    exact hself before hbefore
  · exact (hsettles other hsame).of_listed (listed_patch_other hsame)

theorem SoundExcept.upsert {order : CachedOrder} (h : s.SoundExcept order.orderId)
    (hself : ∀ list, s.Settles (upsertList order list) order.orderId)
    (hempty : s.key = none → ∀ other, other ≠ order.orderId → s.Settles [] other) :
    Sound { s with key := upsertOpenOrder s.key order } := by
  intro after hafter
  obtain rfl := Option.some.inj hafter
  have hbefore : ((s.key.getD []).map (·.orderId)).Nodup ∧
      ∀ other, other ≠ order.orderId → s.Settles (s.key.getD []) other := by
    cases hkey : s.key with
    | none => exact ⟨List.nodup_nil, hempty hkey⟩
    | some before => exact h before hkey
  refine ⟨nodup_upsert hbefore.1, fun other => ?_⟩
  by_cases hsame : other = order.orderId
  · subst hsame
    exact hself _
  · exact (hbefore.2 other hsame).of_listed (listed_upsert_other hsame)

theorem mem_eraseIdx_of_ne {α : Type} {list : List α} {index : ℕ} {erased found : α}
    (herased : list[index]? = some erased) (hfound : found ∈ list) (hne : found ≠ erased) :
    found ∈ list.eraseIdx index := by
  obtain ⟨i, hi⟩ := List.mem_iff_getElem?.mp hfound
  refine List.mem_eraseIdx_iff_getElem?.mpr ⟨i, ?_, hi⟩
  rintro rfl
  exact hne (Option.some.inj (hi.symm.trans herased))

theorem Ordered.withKey (h : s.Ordered) (key : OpenOrdersKey) : Ordered { s with key } :=
  { h with }

theorem Ordered.erasePlacement (h : s.Ordered) (index : ℕ) :
    Ordered { s with placements := s.placements.eraseIdx index } :=
  { h with
    ended := fun placement hplacement => h.ended placement (List.mem_of_mem_eraseIdx hplacement) }

theorem Ordered.eraseCancel (h : s.Ordered) (index : ℕ) :
    Ordered { s with cancels := s.cancels.eraseIdx index } :=
  { h with cancelled := fun id hid => h.cancelled id (List.mem_of_mem_eraseIdx hid) }

theorem Sound.erasePlacement {placement : Placement} {index : ℕ} (h : s.Sound)
    (hplacement : s.placements[index]? = some placement) :
    SoundExcept { s with placements := s.placements.eraseIdx index } placement.orderId := by
  intro list hkey
  obtain ⟨hnodup, hsettles⟩ := h list hkey
  refine ⟨hnodup, fun other hother => ?_⟩
  rcases hsettles other with hright | ⟨found, hfound, hsame⟩ | hmending
  · exact .inl hright
  · refine .inr (.inl ⟨found, mem_eraseIdx_of_ne hplacement hfound ?_, hsame⟩)
    rintro rfl
    exact hother hsame.symm
  · exact .inr (.inr hmending)

theorem Sound.eraseCancel {index : ℕ} (h : s.Sound) (hcancel : s.cancels[index]? = some orderId) :
    SoundExcept { s with cancels := s.cancels.eraseIdx index } orderId := by
  intro list hkey
  obtain ⟨hnodup, hsettles⟩ := h list hkey
  refine ⟨hnodup, fun other hother => ?_⟩
  rcases hsettles other with hright | hplacement | ⟨hlisted, hreporting | hcancelled⟩
  · exact .inl hright
  · exact .inr (.inl hplacement)
  · exact .inr (.inr ⟨hlisted, .inl hreporting⟩)
  · exact .inr (.inr ⟨hlisted, .inr ⟨hcancelled.1,
      mem_eraseIdx_of_ne hcancel hcancelled.2 hother⟩⟩)

/-! #### Reports -/

theorem mem_set_or_eq {α : Type} {list : List α} {index : ℕ} {replaced found : α}
    (hreplaced : list[index]? = some replaced) (hfound : found ∈ list) (new : α) :
    found = replaced ∨ found ∈ list.set index new := by
  obtain ⟨i, hi⟩ := List.mem_iff_getElem?.mp hfound
  by_cases hsame : i = index
  · subst hsame
    exact .inl (Option.some.inj (hi.symm.trans hreplaced))
  · refine .inr (List.mem_iff_getElem?.mpr ⟨i, ?_⟩)
    rw [List.getElem?_set_ne (Ne.symm hsame)]
    exact hi

section Deliver

variable {stream cursor : ℕ} {rest : ReportLog}

/-- The stream reads its next report. -/
def advance (s : CacheWorld) (stream cursor : ℕ) : CacheWorld :=
  { s with cursors := s.cursors.set stream (cursor + 1) }

theorem mem_advance (hcursor : s.cursors[stream]? = some cursor) :
    cursor + 1 ∈ (s.advance stream cursor).cursors :=
  List.mem_set (List.getElem?_eq_some_iff.mp hcursor).1 _

theorem Ordered.advance (h : s.Ordered) (hcursor : s.cursors[stream]? = some cursor)
    (hunread : unread s.log cursor = (orderId, reported) :: rest) :
    (s.advance stream cursor).Ordered where
  valid := h.valid
  cursors_le found hfound := by
    rcases List.mem_or_eq_of_mem_set hfound with hmem | rfl
    · exact h.cursors_le found hmem
    · by_contra hpast
      have hnil : unread s.log cursor = [] := List.drop_eq_nil_of_le (by
        simp only [CacheWorld.advance] at hpast
        omega)
      rw [hunread] at hnil
      cases hnil
  streams := by
    intro hnil
    have hmem := mem_advance hcursor
    rw [hnil] at hmem
    cases hmem
  cancelled := h.cancelled
  ended := h.ended
  loaded := h.loaded

theorem Reporting.advance (h : s.Reporting other) (hcursor : s.cursors[stream]? = some cursor)
    (hunread : unread s.log cursor = (orderId, reported) :: rest)
    (hkept : other ≠ orderId ∨ reported = .new) : (s.advance stream cursor).Reporting other := by
  obtain ⟨found, hfound, report, hmem, hchanges⟩ := h
  rcases mem_set_or_eq hcursor hfound (cursor + 1) with rfl | hremains
  · refine ⟨found + 1, mem_advance hcursor, report, ?_, hchanges⟩
    rw [hunread] at hmem
    have hrest : unread (s.advance stream found).log (found + 1) = rest := unread_succ hunread
    rw [hrest]
    rcases List.mem_cons.mp hmem with hhead | hmem
    · cases hhead
      rcases hkept with hother | hnew
      · exact absurd rfl hother
      · exact absurd hnew hchanges
    · exact hmem
  · exact ⟨found, hremains, report, hmem, hchanges⟩

theorem Settles.advance (h : s.Settles list other) (hcursor : s.cursors[stream]? = some cursor)
    (hunread : unread s.log cursor = (orderId, reported) :: rest)
    (hkept : other ≠ orderId ∨ reported = .new) : (s.advance stream cursor).Settles list other := by
  rcases h with hright | hplacement | ⟨hlisted, hreporting | hcancelled⟩
  · exact .inl hright
  · exact .inr (.inl hplacement)
  · exact .inr (.inr ⟨hlisted, .inl (hreporting.advance hcursor hunread hkept)⟩)
  · exact .inr (.inr ⟨hlisted, .inr hcancelled⟩)

theorem Sound.advance (h : s.Sound) (hcursor : s.cursors[stream]? = some cursor)
    (hunread : unread s.log cursor = (orderId, reported) :: rest) :
    (s.advance stream cursor).SoundExcept orderId := by
  intro list hkey
  obtain ⟨hnodup, hsettles⟩ := h list hkey
  exact ⟨hnodup, fun other hother => (hsettles other).advance hcursor hunread (.inl hother)⟩

theorem Settles.patched (h : s.Settles list orderId) (hordered : s.Ordered)
    (hcursor : s.cursors[stream]? = some cursor) {cumQty cumQuoteQty : ℚ}
    (hunread : unread s.log cursor = (orderId, .partiallyFilled cumQty cumQuoteQty) :: rest) :
    (s.advance stream cursor).Settles
      (patchList orderId cumQty cumQuoteQty "PARTIALLY_FILLED" list) orderId := by
  cases hlisted : listed list orderId with
  | none =>
      have hpatched : listed (patchList orderId cumQty cumQuoteQty "PARTIALLY_FILLED" list)
          orderId = none := by
        rw [listed_patch_self, hlisted]
        rfl
      rcases h with hright | hplacement | ⟨hsome, -⟩
      · exact .inl (hpatched.trans (hlisted.symm.trans hright))
      · exact .inr (.inl hplacement)
      · rw [hlisted] at hsome
        cases hsome
  | some executed =>
      have hpatched : listed (patchList orderId cumQty cumQuoteQty "PARTIALLY_FILLED" list)
          orderId = some cumQty := by
        rw [listed_patch_self, hlisted]
        rfl
      rcases latest_or_later hunread with hlatest | ⟨later, hlater⟩
      · refine .inl (hpatched.trans ?_)
        simp only [CacheWorld.advance, standing, onBook, hlatest]
        rfl
      · refine .inr (.inr ⟨by rw [hpatched]; rfl, .inl ⟨cursor + 1, mem_advance hcursor, later, ?_,
          (hordered.valid.later hunread hlater).2⟩⟩)
        have hrest : unread (s.advance stream cursor).log (cursor + 1) = rest := unread_succ hunread
        rw [hrest]
        exact hlater

theorem step_deliver (hstep : s.step (.deliver stream) = some s') :
    ∃ cursor orderId reported rest, s.cursors[stream]? = some cursor ∧
      unread s.log cursor = (orderId, reported) :: rest ∧
      s' = { s.advance stream cursor with key := deliveredKey s.key orderId reported } := by
  simp only [step] at hstep
  split at hstep
  · cases hstep
  · next cursor hcursor =>
      split at hstep
      · cases hstep
      · next orderId reported rest hunread =>
          exact ⟨cursor, orderId, reported, rest, hcursor, hunread, (Option.some.inj hstep).symm⟩

theorem deliver_sound (h : s.Sound) (hordered : s.Ordered)
    (hcursor : s.cursors[stream]? = some cursor)
    (hunread : unread s.log cursor = (orderId, reported) :: rest) :
    Sound { s.advance stream cursor with key := deliveredKey s.key orderId reported } := by
  cases reported with
  | new =>
      intro list hkey
      obtain ⟨hnodup, hsettles⟩ := h list hkey
      exact ⟨hnodup, fun other => (hsettles other).advance hcursor hunread (.inr rfl)⟩
  | partiallyFilled cumQty cumQuoteQty =>
      exact (h.advance hcursor hunread).patch cumQty cumQuoteQty "PARTIALLY_FILLED"
        fun before hbefore => ((h before hbefore).2 orderId).patched hordered hcursor hunread
  | terminal =>
      refine (h.advance hcursor hunread).remove ?_
      rcases latest_or_later hunread with hlatest | ⟨later, hlater⟩
      · exact standing_of_terminal hlatest
      · exact absurd rfl (hordered.valid.later hunread hlater).1

end Deliver

/-! #### Steps -/

theorem writePlaced_sound {index : ℕ} {placement : Placement} (h : s.Sound) (hordered : s.Ordered)
    (hplacement : s.placements[index]? = some placement)
    (horderly : s.Orderly (.writePlaced index)) :
    Sound { s with key := s.placedKey placement, placements := s.placements.eraseIdx index } := by
  have hexcept := h.erasePlacement hplacement
  cases hterminal : placement.terminal with
  | true =>
      have hgone := standing_of_terminal (hordered.ended placement
        (List.mem_of_getElem? hplacement) hterminal)
      have hremoved := hexcept.remove hgone
      simpa only [placedKey, hterminal, if_true] using hremoved
  | false =>
      obtain ⟨hcurrent, -, hempty⟩ := horderly placement hplacement hterminal
      have hupserted := @SoundExcept.upsert { s with placements := s.placements.eraseIdx index }
        ⟨placement.orderId, 0, 0, placement.status⟩ hexcept ?_ ?_
      · simpa only [placedKey, hterminal, Bool.false_eq_true, if_false] using hupserted
      · intro list
        have hlisted := @listed_upsert_self list ⟨placement.orderId, 0, 0, placement.status⟩
        rcases hcurrent with hnew | hreporting | hcancelled
        · exact .inl (hlisted.trans hnew.symm)
        · exact .inr (.inr ⟨by rw [hlisted]; rfl, .inl hreporting⟩)
        · exact .inr (.inr ⟨by rw [hlisted]; rfl, .inr hcancelled⟩)
      · intro hkey other hother
        rcases hempty hkey other hother with hgone | ⟨found, hfound, hsame⟩
        · exact .inl hgone.symm
        · refine .inr (.inl ⟨found, mem_eraseIdx_of_ne hplacement hfound ?_, hsame⟩)
          rintro rfl
          exact hother hsame.symm

theorem step_kept {label : CacheStep} (hordered : s.Ordered) (hsound : s.Sound)
    (horderly : s.Orderly label) (hstep : s.step label = some t) : t.Ordered ∧ t.Sound := by
  cases label with
  | place orderId outcome =>
      simp only [step] at hstep
      split at hstep
      · next hfresh =>
          cases hstep
          exact ⟨place_ordered hordered outcome hfresh.1, place_sound hsound outcome⟩
      · cases hstep
  | arrive orderId =>
      simp only [step] at hstep
      split at hstep
      · next hfresh =>
          cases hstep
          refine ⟨hordered.report (follows_fresh hfresh .new), fun list hkey => ?_⟩
          cases horderly.symm.trans hkey
      · cases hstep
  | fill orderId cumQty cumQuoteQty =>
      simp only [step] at hstep
      split at hstep
      · next hgrows =>
          cases hstep
          have hlive : (standing s.log orderId).isSome = true := by
            obtain ⟨executed, hexecuted, -⟩ := (Option.any_eq_true _ _).mp hgrows
            simp [hexecuted]
          exact ⟨hordered.report (hordered.follows hlive nofun),
            hsound.report_live hordered hlive nofun⟩
      · cases hstep
  | finish orderId =>
      simp only [step] at hstep
      split at hstep
      · next hlive =>
          cases hstep
          exact ⟨hordered.report (hordered.follows hlive nofun),
            hsound.report_live hordered hlive nofun⟩
      · cases hstep
  | cancel orderId =>
      simp only [step] at hstep
      split at hstep
      · next hlive =>
          cases hstep
          have hended := hordered.report (hordered.follows hlive (nofun : .terminal ≠ Reported.new))
          have hsettled := hsound.report_live hordered hlive (nofun : .terminal ≠ Reported.new)
          exact ⟨hended.addCancel latest_append_self, hsettled.addCancel⟩
      · cases hstep
  | coldRead =>
      cases hstep
      refine ⟨{ hordered with loaded := fun load hload => ?_ }, hsound⟩
      rcases List.mem_append.mp hload with hmem | hmem
      · exact hordered.loaded load hmem
      · rw [List.mem_singleton.mp hmem]
        exact nodup_liveOrders
  | coldWrite index =>
      obtain ⟨load, hload, rfl⟩ := Option.map_eq_some_iff.mp hstep
      refine ⟨{ hordered with
        loaded := fun found hfound => hordered.loaded found (List.mem_of_mem_eraseIdx hfound) },
        fun list hkey => ?_⟩
      cases hbefore : s.key with
      | none =>
          rw [seedOpenOrders, hbefore, Option.none_or] at hkey
          obtain rfl := Option.some.inj hkey
          exact ⟨hordered.loaded _ (List.mem_of_getElem? hload), horderly hbefore _ hload⟩
      | some before =>
          rw [seedOpenOrders, hbefore, Option.some_or] at hkey
          exact hsound list (hbefore.trans hkey)
  | writePlaced index =>
      obtain ⟨placement, hplacement, rfl⟩ := Option.map_eq_some_iff.mp hstep
      exact ⟨(hordered.erasePlacement index).withKey _,
        writePlaced_sound hsound hordered hplacement horderly⟩
  | writeCancelled index =>
      obtain ⟨orderId, hcancel, rfl⟩ := Option.map_eq_some_iff.mp hstep
      have hgone := standing_of_terminal (hordered.cancelled orderId (List.mem_of_getElem? hcancel))
      exact ⟨(hordered.eraseCancel index).withKey _, (hsound.eraseCancel hcancel).remove hgone⟩
  | deliver stream =>
      obtain ⟨cursor, orderId, reported, rest, hcursor, hunread, rfl⟩ := step_deliver hstep
      exact ⟨(hordered.advance hcursor hunread).withKey _,
        deliver_sound hsound hordered hcursor hunread⟩
  | reconnect =>
      cases hstep
      exact ⟨{ hordered with }, fun list hkey => nomatch hkey⟩

theorem start_kept (streams : ℕ) : (start streams).Ordered ∧ (start streams).Sound := by
  refine ⟨⟨List.Pairwise.nil, fun cursor hcursor => ?_, by simp [start], nofun, nofun, nofun⟩,
    fun list hkey => nomatch hkey⟩
  rw [List.eq_of_mem_replicate hcursor]
  exact le_rfl

/-- Nothing mends a list once everything was processed, so it is right. -/
theorem Sound.tracks (h : s.Sound) (hquiet : s.Quiescent) : s.Tracks := by
  intro list hkey
  obtain ⟨hnodup, hsettles⟩ := h list hkey
  refine ⟨hnodup, fun orderId => ?_⟩
  rcases hsettles orderId with hright | ⟨placement, hplacement, -⟩ | ⟨-, hreporting | hcancelled⟩
  · exact hright
  · rw [hquiet.placements] at hplacement
    cases hplacement
  · obtain ⟨cursor, hcursor, reported, hunread, -⟩ := hreporting
    rw [unread, List.drop_eq_nil_of_le (hquiet.reports cursor hcursor)] at hunread
    cases hunread
  · have hmem := hcancelled.2
    rw [hquiet.cancels] at hmem
    cases hmem

/-! #### Executed quantities -/

/-- The fills of an order grow along the log, up to what has executed of it. -/
structure Rising (log : ReportLog) : Prop where
  pos : ∀ {p orderId cumQty}, FilledAt log p orderId cumQty → 0 < cumQty
  grows : ∀ {p later orderId cumQty cumQty'}, p ≤ later → FilledAt log p orderId cumQty →
    FilledAt log later orderId cumQty' → cumQty ≤ cumQty'
  topped : ∀ {p orderId cumQty executed}, FilledAt log p orderId cumQty →
    standing log orderId = some executed → cumQty ≤ executed

theorem Rising.standing_nonneg {log : ReportLog} (h : Rising log) {executed : ℚ}
    (hstanding : standing log orderId = some executed) : 0 ≤ executed := by
  rcases standing_eq_some hstanding with rfl | ⟨p, hp⟩
  · exact le_rfl
  · exact (h.pos hp).le

theorem Rising.append {log : ReportLog} (h : Rising log)
    (hfresh : reported = .new → latest log orderId = none)
    (hfills : ∀ cumQty cumQuoteQty, reported = .partiallyFilled cumQty cumQuoteQty →
      ∃ executed, standing log orderId = some executed ∧ executed < cumQty) :
    Rising (log ++ [(orderId, reported)]) where
  pos hp := by
    rcases hp.of_append with hold | ⟨-, -, cumQuoteQty, hreported⟩
    · exact h.pos hold
    · obtain ⟨executed, hstanding, hlt⟩ := hfills _ _ hreported
      exact (h.standing_nonneg hstanding).trans_lt hlt
  grows hle hp hlater := by
    rcases hlater.of_append with hold | ⟨-, rfl, cumQuoteQty, hreported⟩
    · rcases hp.of_append with hp | ⟨hend, -⟩
      · exact h.grows hle hp hold
      · have hlt := hold.lt
        omega
    · rcases hp.of_append with hp | ⟨-, -, cumQuoteQty', hsame⟩
      · obtain ⟨executed, hstanding, hlt⟩ := hfills _ _ hreported
        exact (h.topped hp hstanding).trans hlt.le
      · cases hreported.symm.trans hsame
        exact le_rfl
  topped {p other cumQty executed} hp hstanding := by
    by_cases hother : other = orderId
    · subst hother
      rw [standing_report_self] at hstanding
      rcases hp.of_append with ⟨cumQuoteQty, hold⟩ | ⟨-, -, cumQuoteQty, rfl⟩
      · cases reported with
        | new =>
            exact absurd rfl (latest_eq_none_iff.mp (hfresh rfl) _ (List.mem_of_getElem? hold))
        | partiallyFilled cumQty' cumQuoteQty' =>
            obtain rfl := Option.some.inj hstanding
            obtain ⟨executed, hbefore, hlt⟩ := hfills _ _ rfl
            exact (h.topped ⟨cumQuoteQty, hold⟩ hbefore).trans hlt.le
        | terminal => cases hstanding
      · exact (Option.some.inj hstanding).le
    · rw [standing_report_other hother] at hstanding
      rcases hp.of_append with hold | ⟨-, hsame, -⟩
      · exact h.topped hold hstanding
      · exact absurd hsame hother

/-- A stream, or the read that seeded the list, has seen this much of the order executed. -/
def Saw (s : CacheWorld) (orderId : ℕ) (executed : ℚ) : Prop :=
  ∃ seen ∈ s.seededAt :: s.cursors, ∃ p < seen, FilledAt s.log p orderId executed

/-- What a list, or one on its way, says has executed was seen by whatever it was made of. -/
structure Sourced (s : CacheWorld) : Prop where
  rising : Rising s.log
  entries : ∀ list, s.key = some list → ∀ orderId executed, listed list orderId = some executed →
    executed = 0 ∨ s.Saw orderId executed
  loads : ∀ load ∈ s.coldLoads, ∀ orderId executed,
    listed load.snapshot orderId = some executed →
    executed = 0 ∨ ∃ p < load.readAt, FilledAt s.log p orderId executed

theorem Sourced.report (h : s.Sourced) (hfresh : reported = .new → latest s.log orderId = none)
    (hfills : ∀ cumQty cumQuoteQty, reported = .partiallyFilled cumQty cumQuoteQty →
      ∃ executed, standing s.log orderId = some executed ∧ executed < cumQty) :
    (s.report orderId reported).Sourced where
  rising := h.rising.append hfresh hfills
  entries list hkey id executed hlisted :=
    (h.entries list hkey id executed hlisted).imp_right fun ⟨seen, hseen, p, hp, hfilled⟩ =>
      ⟨seen, hseen, p, hp, hfilled.append _⟩
  loads load hload id executed hlisted :=
    (h.loads load hload id executed hlisted).imp_right fun ⟨p, hp, hfilled⟩ =>
      ⟨p, hp, hfilled.append _⟩

theorem place_sourced (h : s.Sourced) (outcome : PlaceOutcome) (hvalid : outcome.valid = true)
    (hfresh : latest s.log orderId = none) :
    Sourced (outcome.reports.foldl (·.report orderId ·)
      { s with placements := s.placements ++ [outcome.placement orderId] }) := by
  have hplaced : Sourced { s with placements := s.placements ++ [outcome.placement orderId] } :=
    ⟨h.rising, h.entries, h.loads⟩
  have hadmitted := hplaced.report (fun _ => hfresh)
    (nofun : ∀ cumQty cumQuoteQty, Reported.new = .partiallyFilled cumQty cumQuoteQty → _)
  cases outcome with
  | rests => exact hadmitted
  | executes cumQty cumQuoteQty =>
      refine hadmitted.report nofun ?_
      rintro _ _ ⟨⟩
      refine ⟨0, ?_, by simpa [PlaceOutcome.valid] using hvalid⟩
      rw [CacheWorld.report, standing_report_self]
      rfl
  | ends => exact hadmitted.report nofun nofun

theorem listed_liveOrders {log : ReportLog} {executed : ℚ}
    (h : listed (liveOrders log) orderId = some executed) :
    executed = 0 ∨ ∃ p < log.length, FilledAt log p orderId executed := by
  obtain ⟨order, hfind, rfl⟩ := Option.map_eq_some_iff.mp h
  obtain rfl : order.orderId = orderId := by simpa using List.find?_some hfind
  obtain ⟨found, -, horder⟩ := List.mem_filterMap.mp (List.mem_of_find?_eq_some hfind)
  obtain rfl : order.orderId = found := liveOrder_orderId horder
  have hstanding : standing log order.orderId = some order.executedQty := by
    obtain ⟨executed, hexecuted, horder⟩ := Option.map_eq_some_iff.mp horder
    rw [standing, hexecuted, ← horder]
    rfl
  refine (standing_eq_some hstanding).imp_right ?_
  rintro ⟨p, hp⟩
  exact ⟨p, hp.lt, hp⟩

/-- A list that says no more than the one before it was made of the same. -/
theorem Sourced.rewrite {after : OpenOrdersKey} (h : s.Sourced)
    (hafter : ∀ list, after = some list → ∀ orderId executed,
      listed list orderId = some executed → executed = 0 ∨
        ∃ before, s.key = some before ∧ listed before orderId = some executed) :
    Sourced { s with key := after } where
  rising := h.rising
  entries list hkey id executed hlisted := by
    rcases hafter list hkey id executed hlisted with hzero | ⟨before, hbefore, hlisted⟩
    · exact .inl hzero
    · exact h.entries before hbefore id executed hlisted
  loads := h.loads

theorem Sourced.remove (h : s.Sourced) :
    Sourced { s with key := removeOpenOrder s.key orderId } := by
  refine h.rewrite fun list hlist id executed hlisted => ?_
  obtain ⟨before, hbefore, rfl⟩ := Option.map_eq_some_iff.mp hlist
  by_cases hsame : id = orderId
  · rw [hsame, listed_remove_self] at hlisted
    cases hlisted
  · exact .inr ⟨before, hbefore, (listed_remove_other hsame).symm.trans hlisted⟩

theorem Sourced.upsert {order : CachedOrder} (h : s.Sourced) (hzero : order.executedQty = 0) :
    Sourced { s with key := upsertOpenOrder s.key order } := by
  refine h.rewrite fun list hlist id executed hlisted => ?_
  obtain rfl := Option.some.inj hlist
  by_cases hsame : id = order.orderId
  · rw [hsame, listed_upsert_self, hzero] at hlisted
    exact .inl (Option.some.inj hlisted).symm
  · rw [listed_upsert_other hsame] at hlisted
    cases hkey : s.key with
    | none =>
        rw [hkey] at hlisted
        cases hlisted
    | some before =>
        rw [hkey] at hlisted
        exact .inr ⟨before, rfl, hlisted⟩

/-- What was seen stays seen when a stream reads on. -/
theorem Saw.advance {stream cursor : ℕ} {executed : ℚ} (h : s.Saw other executed)
    (hcursor : s.cursors[stream]? = some cursor) :
    (s.advance stream cursor).Saw other executed := by
  obtain ⟨seen, hseen, p, hp, hreport⟩ := h
  rcases List.mem_cons.mp hseen with rfl | hseen
  · exact ⟨_, List.mem_cons_self, p, hp, hreport⟩
  · rcases mem_set_or_eq hcursor hseen (cursor + 1) with rfl | hremains
    · exact ⟨_, List.mem_cons_of_mem _ (mem_advance hcursor), p, hp.trans (Nat.lt_succ_self _),
        hreport⟩
    · exact ⟨seen, List.mem_cons_of_mem _ hremains, p, hp, hreport⟩

theorem deliver_sourced {stream cursor : ℕ} {rest : ReportLog} (h : s.Sourced)
    (hcursor : s.cursors[stream]? = some cursor)
    (hunread : unread s.log cursor = (orderId, reported) :: rest) :
    Sourced { s.advance stream cursor with key := deliveredKey s.key orderId reported } := by
  have hadvanced : (s.advance stream cursor).Sourced :=
    ⟨h.rising, fun list hkey id executed hlisted =>
      (h.entries list hkey id executed hlisted).imp_right fun hsaw => hsaw.advance hcursor, h.loads⟩
  cases reported with
  | new => exact hadvanced
  | terminal => exact hadvanced.remove
  | partiallyFilled cumQty cumQuoteQty =>
      refine ⟨h.rising, fun list hkey id executed hlisted => ?_, h.loads⟩
      obtain ⟨before, hbefore, rfl⟩ := Option.map_eq_some_iff.mp hkey
      by_cases hsame : id = orderId
      · subst hsame
        rw [listed_patch_self] at hlisted
        obtain ⟨-, -, rfl⟩ := Option.map_eq_some_iff.mp hlisted
        exact .inr ⟨_, List.mem_cons_of_mem _ (mem_advance hcursor), cursor, Nat.lt_succ_self _,
          filledAt_of_unread hunread⟩
      · exact hadvanced.entries before hbefore id executed
          ((listed_patch_other hsame).symm.trans hlisted)

theorem step_sourced {label : CacheStep} (h : s.Sourced) (hstep : s.step label = some t) :
    t.Sourced := by
  cases label with
  | place orderId outcome =>
      obtain ⟨⟨hfresh, hvalid⟩, hstep⟩ := Option.ite_none_right_eq_some.mp hstep
      obtain rfl := Option.some.inj hstep
      exact place_sourced h outcome hvalid hfresh
  | arrive orderId =>
      obtain ⟨hfresh, hstep⟩ := Option.ite_none_right_eq_some.mp hstep
      obtain rfl := Option.some.inj hstep
      exact h.report (fun _ => hfresh) nofun
  | fill orderId cumQty cumQuoteQty =>
      obtain ⟨hgrows, hstep⟩ := Option.ite_none_right_eq_some.mp hstep
      obtain rfl := Option.some.inj hstep
      refine h.report nofun ?_
      rintro _ _ ⟨⟩
      obtain ⟨executed, hexecuted, hlt⟩ := (Option.any_eq_true _ _).mp hgrows
      exact ⟨executed, hexecuted, by simpa using hlt⟩
  | finish orderId =>
      obtain ⟨-, hstep⟩ := Option.ite_none_right_eq_some.mp hstep
      obtain rfl := Option.some.inj hstep
      exact h.report nofun nofun
  | cancel orderId =>
      obtain ⟨-, hstep⟩ := Option.ite_none_right_eq_some.mp hstep
      obtain rfl := Option.some.inj hstep
      have hended : (s.report orderId .terminal).Sourced := h.report nofun nofun
      exact ⟨hended.rising, hended.entries, hended.loads⟩
  | coldRead =>
      cases hstep
      refine ⟨h.rising, h.entries, fun load hload id executed hlisted => ?_⟩
      rcases List.mem_append.mp hload with hmem | hmem
      · exact h.loads load hmem id executed hlisted
      · rw [List.mem_singleton.mp hmem] at hlisted ⊢
        exact listed_liveOrders hlisted
  | coldWrite index =>
      obtain ⟨load, hload, rfl⟩ := Option.map_eq_some_iff.mp hstep
      refine ⟨h.rising, fun list hkey id executed hlisted => ?_,
        fun found hfound => h.loads found (List.mem_of_mem_eraseIdx hfound)⟩
      cases hbefore : s.key with
      | none =>
          rw [seedOpenOrders, hbefore, Option.none_or] at hkey
          obtain rfl := Option.some.inj hkey
          refine (h.loads load (List.mem_of_getElem? hload) id executed hlisted).imp_right ?_
          intro hfilled
          exact ⟨_, List.mem_cons_self, by simpa [hbefore] using hfilled⟩
      | some before =>
          rw [seedOpenOrders, hbefore, Option.some_or] at hkey
          refine (h.entries list (hbefore.trans hkey) id executed hlisted).imp_right ?_
          rintro ⟨seen, hseen, hfilled⟩
          exact ⟨seen, by simpa [hbefore] using hseen, hfilled⟩
  | writePlaced index =>
      obtain ⟨placement, hplacement, rfl⟩ := Option.map_eq_some_iff.mp hstep
      have hkept : Sourced { s with placements := s.placements.eraseIdx index } :=
        ⟨h.rising, h.entries, h.loads⟩
      cases hterminal : placement.terminal with
      | true =>
          have hremoved := @Sourced.remove _ placement.orderId hkept
          simpa only [placedKey, hterminal, if_true] using hremoved
      | false =>
          have hupserted := @Sourced.upsert _ ⟨placement.orderId, 0, 0, placement.status⟩ hkept rfl
          simpa only [placedKey, hterminal, Bool.false_eq_true, if_false] using hupserted
  | writeCancelled index =>
      obtain ⟨orderId, -, rfl⟩ := Option.map_eq_some_iff.mp hstep
      have hremoved := @Sourced.remove s orderId h
      exact ⟨hremoved.rising, hremoved.entries, hremoved.loads⟩
  | deliver stream =>
      obtain ⟨cursor, orderId, reported, rest, hcursor, hunread, rfl⟩ := step_deliver hstep
      exact deliver_sourced h hcursor hunread
  | reconnect =>
      cases hstep
      exact ⟨h.rising, nofun, h.loads⟩

/-- Where nothing was seen of an order from a point on, its entry says what was reported before. -/
theorem Sourced.listed_le {start : ℕ} {executed bound : ℚ} (h : s.Sourced)
    (hkey : s.key = some list) (hlisted : listed list orderId = some executed)
    (hunseen : s.UnseenFrom orderId start) (hnonneg : 0 ≤ bound)
    (hbound : ∀ p cumQty, p < start → FilledAt s.log p orderId cumQty → cumQty ≤ bound) :
    executed ≤ bound := by
  rcases h.entries list hkey orderId executed hlisted with
    rfl | ⟨seen, hseen, p, hp, hreport⟩
  · exact hnonneg
  · rcases Nat.lt_or_ge p start with hbefore | hafter
    · exact hbound p executed hbefore hreport
    · exact absurd hreport (hunseen seen hseen p executed hafter hp)

theorem neverLowers_of_eq (h : t.key = s.key) : s.NeverLowers t := by
  intro before after id executed now hbefore hafter hlisted hnow
  rw [h, hbefore] at hafter
  obtain rfl := Option.some.inj hafter
  rw [hlisted] at hnow
  exact (Option.some.inj hnow).le

theorem neverLowers_removed (h : t.key = removeOpenOrder s.key orderId) : s.NeverLowers t := by
  intro before after id executed now hbefore hafter hlisted hnow
  rw [h, removeOpenOrder, hbefore] at hafter
  obtain rfl := Option.some.inj hafter
  have hother : id ≠ orderId := by
    rintro rfl
    rw [listed_remove_self] at hnow
    cases hnow
  rw [listed_remove_other hother, hlisted] at hnow
  exact (Option.some.inj hnow).le

theorem neverLowers_upserted {order : CachedOrder} (h : t.key = upsertOpenOrder s.key order)
    (hle : ∀ list, s.key = some list → ∀ executed ∈ listed list order.orderId,
      executed ≤ order.executedQty) : s.NeverLowers t := by
  intro before after id executed now hbefore hafter hlisted hnow
  rw [h, upsertOpenOrder, hbefore] at hafter
  obtain rfl := Option.some.inj hafter
  by_cases hsame : id = order.orderId
  · subst hsame
    rw [listed_upsert_self] at hnow
    obtain rfl := Option.some.inj hnow
    exact hle before hbefore executed hlisted
  · rw [listed_upsert_other hsame, Option.getD_some, hlisted] at hnow
    exact (Option.some.inj hnow).le

theorem neverLowers_patched {cumQty cumQuote : ℚ} {status : String}
    (h : t.key = patchOpenOrder s.key orderId cumQty cumQuote status)
    (hle : ∀ list, s.key = some list → ∀ executed ∈ listed list orderId, executed ≤ cumQty) :
    s.NeverLowers t := by
  intro before after id executed now hbefore hafter hlisted hnow
  rw [h, patchOpenOrder, hbefore] at hafter
  obtain rfl := Option.some.inj hafter
  by_cases hsame : id = orderId
  · subst hsame
    rw [listed_patch_self, hlisted] at hnow
    obtain rfl := Option.some.inj hnow
    exact hle before hbefore executed hlisted
  · rw [listed_patch_other hsame, hlisted] at hnow
    exact (Option.some.inj hnow).le

theorem reported_key (reports : List Reported) (orderId : ℕ) (s : CacheWorld) :
    (reports.foldl (·.report orderId ·) s).key = s.key := by
  induction reports generalizing s with
  | nil => rfl
  | cons first rest ih => exact ih (s.report orderId first)

theorem step_neverLowers {label : CacheStep} (hsourced : s.Sourced) (horderly : s.Orderly label)
    (hstep : s.step label = some t) : s.NeverLowers t := by
  cases label with
  | place orderId outcome =>
      obtain ⟨-, hstep⟩ := Option.ite_none_right_eq_some.mp hstep
      obtain rfl := Option.some.inj hstep
      exact neverLowers_of_eq (reported_key outcome.reports orderId _)
  | arrive orderId =>
      obtain ⟨-, hstep⟩ := Option.ite_none_right_eq_some.mp hstep
      obtain rfl := Option.some.inj hstep
      exact neverLowers_of_eq rfl
  | fill orderId cumQty cumQuoteQty =>
      obtain ⟨-, hstep⟩ := Option.ite_none_right_eq_some.mp hstep
      obtain rfl := Option.some.inj hstep
      exact neverLowers_of_eq rfl
  | finish orderId =>
      obtain ⟨-, hstep⟩ := Option.ite_none_right_eq_some.mp hstep
      obtain rfl := Option.some.inj hstep
      exact neverLowers_of_eq rfl
  | cancel orderId =>
      obtain ⟨-, hstep⟩ := Option.ite_none_right_eq_some.mp hstep
      obtain rfl := Option.some.inj hstep
      exact neverLowers_of_eq rfl
  | coldRead =>
      cases hstep
      exact neverLowers_of_eq rfl
  | coldWrite index =>
      obtain ⟨snapshot, -, rfl⟩ := Option.map_eq_some_iff.mp hstep
      cases hkey : s.key with
      | none =>
          intro before after id executed now hbefore
          rw [hkey] at hbefore
          cases hbefore
      | some before =>
          refine neverLowers_of_eq ?_
          rw [seedOpenOrders, hkey, Option.some_or]
  | writePlaced index =>
      obtain ⟨placement, hplacement, rfl⟩ := Option.map_eq_some_iff.mp hstep
      cases hterminal : placement.terminal with
      | true =>
          refine @neverLowers_removed s _ placement.orderId ?_
          simp only [placedKey, hterminal, if_true]
      | false =>
          refine @neverLowers_upserted s _ ⟨placement.orderId, 0, 0, placement.status⟩ ?_ ?_
          · simp only [placedKey, hterminal, Bool.false_eq_true, if_false]
          · intro list hkey executed hexecuted
            obtain ⟨-, hunseen, -⟩ := horderly placement hplacement hterminal
            exact hsourced.listed_le hkey hexecuted hunseen le_rfl fun p _ hp =>
              absurd hp (Nat.not_lt_zero p)
  | writeCancelled index =>
      obtain ⟨orderId, -, rfl⟩ := Option.map_eq_some_iff.mp hstep
      exact neverLowers_removed rfl
  | deliver stream =>
      obtain ⟨cursor, orderId, reported, rest, hcursor, hunread, rfl⟩ := step_deliver hstep
      cases reported with
      | new => exact neverLowers_of_eq rfl
      | partiallyFilled cumQty cumQuoteQty =>
          have hread : FilledAt s.log cursor orderId cumQty := filledAt_of_unread hunread
          refine neverLowers_patched rfl fun list hkey executed hexecuted => ?_
          exact hsourced.listed_le hkey hexecuted
            (horderly cursor orderId cumQty cumQuoteQty rest hcursor hunread)
            (hsourced.rising.pos hread).le fun p _ hp hreport =>
              hsourced.rising.grows (Nat.le_of_lt_succ hp) hreport hread
      | terminal => exact neverLowers_removed rfl
  | reconnect =>
      cases hstep
      intro before after id executed now hbefore hafter
      cases hafter

theorem start_sourced (streams : ℕ) : (start streams).Sourced := by
  have hnone : ∀ {p orderId cumQty}, ¬ FilledAt [] p orderId cumQty := fun h =>
    Nat.not_lt_zero _ h.lt
  exact ⟨⟨fun h => absurd h hnone, fun _ h => absurd h hnone, fun h => absurd h hnone⟩,
    fun _ hkey => (by cases hkey), fun _ hload => (by cases hload)⟩

/-! ### The snapshot tracks the book -/

/-- In a run whose writes find what they rely on, a list that is there once everything was
processed is the book, and no step lowers what has executed. -/
theorem snapshot_tracks_book (streams : ℕ) (s : CacheWorld)
    (hreach : Reach step Orderly (start streams) s) :
    (s.Quiescent → s.Tracks) ∧
      ∀ label t, s.Orderly label → s.step label = some t → s.NeverLowers t := by
  have hkept : s.Ordered ∧ s.Sound :=
    hreach.invariant (start_kept streams) fun s label t hkept horderly hstep =>
      step_kept hkept.1 hkept.2 horderly hstep
  have hsourced : s.Sourced :=
    hreach.invariant (start_sourced streams) fun s label t h _ hstep => step_sourced h hstep
  exact ⟨hkept.2.tracks, fun label t => step_neverLowers hsourced⟩

/-- An order is placed, listed, and fills in part, as its stream reports. -/
theorem partialFill_tracked : ∃ s, Reach step Orderly (start 0) s ∧ s.Quiescent ∧
    s.key = some [⟨1, 2, 20, "PARTIALLY_FILLED"⟩] ∧ s.Tracks := by
  have hplaced : Reach step Orderly (start 0)
      { start 0 with log := [(1, .new)], placements := [⟨1, "NEW", false⟩] } :=
    .single ⟨.place 1 .rests, trivial, rfl⟩
  have hlisted : Reach step Orderly (start 0)
      { start 0 with log := [(1, .new)], key := some [⟨1, 0, 0, "NEW"⟩] } := by
    refine hplaced.tail ⟨.writePlaced 0, ?_, rfl⟩
    intro placement hplacement _
    obtain rfl := Option.some.inj hplacement
    refine ⟨.inl rfl, ?_, fun _ orderId hother => .inl ?_⟩
    · intro seen hseen p cumQty _ hp
      rcases hseen with _ | ⟨_, hseen⟩
      · cases hp
      · cases List.mem_singleton.mp hseen
        cases hp
    · exact @standing_report_other [] 1 orderId .new hother
  have hfilled : Reach step Orderly (start 0)
      { start 0 with
        log := [(1, .new), (1, .partiallyFilled 2 20)], key := some [⟨1, 0, 0, "NEW"⟩] } :=
    hlisted.tail ⟨.fill 1 2 20, trivial, rfl⟩
  have hnew : Reach step Orderly (start 0)
      { start 0 with
        log := [(1, .new), (1, .partiallyFilled 2 20)], cursors := [1],
        key := some [⟨1, 0, 0, "NEW"⟩] } := by
    refine hfilled.tail ⟨.deliver 0, ?_, rfl⟩
    intro cursor orderId cumQty cumQuoteQty rest hcursor hunread
    obtain rfl := Option.some.inj hcursor
    cases hunread
  have hpatched : Reach step Orderly (start 0)
      { start 0 with
        log := [(1, .new), (1, .partiallyFilled 2 20)], cursors := [2],
        key := some [⟨1, 2, 20, "PARTIALLY_FILLED"⟩] } := by
    refine hnew.tail ⟨.deliver 0, ?_, rfl⟩
    intro cursor orderId cumQty cumQuoteQty rest hcursor hunread seen hseen p _ hle hlt
    obtain rfl := Option.some.inj hcursor
    rcases hseen with _ | ⟨_, hseen⟩
    · cases hlt
    · cases List.mem_singleton.mp hseen
      omega
  have hquiet : Quiescent
      { start 0 with
        log := [(1, .new), (1, .partiallyFilled 2 20)], cursors := [2],
        key := some [⟨1, 2, 20, "PARTIALLY_FILLED"⟩] } :=
    ⟨by simp, rfl, rfl, rfl⟩
  exact ⟨_, hpatched, hquiet, rfl, (snapshot_tracks_book 0 _ hpatched).1 hquiet⟩

/-- A placement that finds no list after a reconnect makes one of its own order alone: the
order placed before it stays on the book and is not listed. -/
theorem fabricated_list_misses_order : ∃ s, Reach step (fun _ _ => True) (start 0) s ∧
    s.Quiescent ∧ s.key = some [⟨2, 0, 0, "NEW"⟩] ∧ standing s.log 1 = some 0 ∧ ¬ s.Tracks := by
  have hrun : run step (fun _ _ => true) (start 0)
      [.place 1 .rests, .writePlaced 0, .reconnect, .place 2 .rests, .writePlaced 0,
        .deliver 0, .deliver 0] =
      some ⟨[(1, .new), (2, .new)], [2], some [⟨2, 0, 0, "NEW"⟩], [], [], [], 0⟩ := rfl
  refine ⟨_, reach_of_run (fun _ _ _ => trivial) hrun, ⟨by simp, rfl, rfl, rfl⟩, rfl, rfl, ?_⟩
  intro htracks
  have hlisted := (htracks _ rfl).2 1
  simp [listed, standing, onBook, latest, Reported.standing] at hlisted

end CacheWorld

end TradingBot.Worker

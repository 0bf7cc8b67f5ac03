import Archon.Engine.Entries

/-!
# What changes the configuration (`tournament/mod.rs:2785-2912`)

Only `UpdateConfig` writes configuration keys: it checks the submitted keys, the legality of the
rank and the order of the dates on the merged view, then copies the keys over.
-/

namespace Archon.Engine
open Guards Seating

section Configuration

variable {rs : RandomSource} {t t' : Tournament} {i : EventInput} {ops : List DeckOp}

/-! ### The other events -/

/-- The document is that of the same event: its uid, its organizers and its configuration, saved
when it was. -/
structure SameRecord (t t' : Tournament) : Prop where
  uid : t'.uid = t.uid
  modified : t'.modified = t.modified
  organizersUids : t'.organizersUids = t.organizersUids
  config : t'.config = t.config

theorem sameRecord_updateStandings (t : Tournament) (s : List Sanction) :
    SameRecord t (updateStandings t s) := by
  unfold updateStandings
  extract_lets refreshed
  split
  · exact ⟨rfl, rfl, rfl, rfl⟩
  · unfold refreshFinalsScoring
    split
    · split <;> exact ⟨rfl, rfl, rfl, rfl⟩
    · exact ⟨rfl, rfl, rfl, rfl⟩

@[simp] theorem updateStandings_config (t : Tournament) (s : List Sanction) :
    (updateStandings t s).config = t.config := (sameRecord_updateStandings t s).config

theorem sameRecord_of_effect (hquiet : i.event.isQuiet = false) (heff : Effect rs t i t') :
    SameRecord t t' := by
  cases heff with
  | quiet hq => simp [hq] at hquiet
  | setNonCompeting | finishRound | cancelRound | restoreRound | swapFinals | swapRound
  | reseatFinals | seatPlayer | unseatPlayer | scoreFinals | scoreTable | overrideFinals
  | overrideTable | unoverrideFinals | unoverrideTable | finishFinals | cancelFinals
  | finishTournament | reopenTournament =>
    have h := sameRecord_updateStandings
    exact ⟨(h _ _).uid, (h _ _).modified, (h _ _).organizersUids, (h _ _).config⟩
  | reseatRound round seating tables =>
    have h := sameRecord_updateStandings (alterSeatingDoc t i.sanctions round tables seating)
      i.sanctions
    have hreseated : SameRecord t (alterSeatingDoc t i.sanctions round tables seating) := by
      unfold alterSeatingDoc
      extract_lets reseated
      split <;> exact ⟨rfl, rfl, rfl, rfl⟩
    exact ⟨h.uid.trans hreseated.uid, h.modified.trans hreseated.modified,
      h.organizersUids.trans hreseated.organizersUids, h.config.trans hreseated.config⟩
  | _ => exact ⟨rfl, rfl, rfl, rfl⟩

/-- No roster entry owes a decklist. -/
def NobodyOwes (players : List Player) : Prop := ∀ p ∈ players, p.missingDecklist = false

theorem sameRecord_of_quiet (hquiet : i.event.isQuiet = true)
    (hne : ∀ c, i.event ≠ .updateConfig c) (h : applyEvent rs t i = .ok (t', ops)) :
    SameRecord t t' ∧
      (t.flag .decklistRequired = false → NobodyOwes t.players → NobodyOwes t'.players) := by
  cases he : i.event with
  | setPaymentStatus uid status =>
    simp only [applyEvent, he, setPaymentStatus, requireOrganizer, ensure_bind_eq_ok,
      okOr_bind_eq_ok, pure_eq_ok, Prod.mk.injEq] at h
    obtain ⟨-, -, -, -, rfl, -⟩ := h
    refine ⟨⟨rfl, rfl, rfl, rfl⟩, fun _ howes => forall_mem_update (fun p hp => ?_) howes⟩
    exact hp
  | markAllPaid =>
    simp only [applyEvent, he, markAllPaid, requireOrganizer, ensure_bind_eq_ok, pure_eq_ok,
      Prod.mk.injEq] at h
    obtain ⟨-, rfl, -⟩ := h
    refine ⟨⟨rfl, rfl, rfl, rfl⟩, fun _ howes => List.forall_mem_map.2 fun p hp => ?_⟩
    split <;> exact howes p hp
  | upsertDeck uid deck multideck =>
    simp only [applyEvent, he, upsertDeck, requireOwnerOfPrivate, ensure_bind_eq_ok, pure_eq_ok,
      Prod.mk.injEq] at h
    obtain ⟨-, -, -, -, -, rfl, -⟩ := h
    exact ⟨⟨rfl, rfl, rfl, rfl⟩, fun _ howes => forall_mem_update (fun _ _ => rfl) howes⟩
  | deleteDeck uid index multideck =>
    simp only [applyEvent, he, deleteDeck, requireOwnerOfPrivate, ensure_bind_eq_ok, pure_eq_ok,
      Prod.mk.injEq] at h
    obtain ⟨-, -, -, -, -, rfl, -⟩ := h
    refine ⟨⟨rfl, rfl, rfl, rfl⟩, fun hflag howes => ?_⟩
    simpa [hflag] using howes
  | setDeckAttribution uid round attribution =>
    simp only [applyEvent, he, setDeckAttribution, ensure_bind_eq_ok, okOr_bind_eq_ok, pure_eq_ok,
      Prod.mk.injEq] at h
    obtain ⟨-, -, -, rfl, -⟩ := h
    exact ⟨⟨rfl, rfl, rfl, rfl⟩, fun _ => id⟩
  | setDeckPrivate uid round isPrivate =>
    simp only [applyEvent, he, setDeckPrivate, ensure_bind_eq_ok, okOr_bind_eq_ok, pure_eq_ok,
      Prod.mk.injEq] at h
    obtain ⟨-, -, -, -, rfl, -⟩ := h
    exact ⟨⟨rfl, rfl, rfl, rfl⟩, fun _ => id⟩
  | viewDeck uid round =>
    simp only [applyEvent, he] at h
    obtain rfl := viewDeck_doc h
    exact ⟨⟨rfl, rfl, rfl, rfl⟩, fun _ => id⟩
  | raffleDraw label pool excludeDrawn count seed prize =>
    simp only [applyEvent, he, raffleDraw, requireOrganizer, bind_eq_ok, ensure_eq_ok,
      exists_const, pure_eq_ok, Prod.mk.injEq] at h
    obtain ⟨-, -, -, eligible, -, -, rfl, -⟩ := h
    exact ⟨⟨rfl, rfl, rfl, rfl⟩, fun _ => id⟩
  | raffleUndo =>
    simp only [applyEvent, he, raffleUndo, requireOrganizer, ensure_bind_eq_ok, pure_eq_ok,
      Prod.mk.injEq] at h
    obtain ⟨-, -, rfl, -⟩ := h
    exact ⟨⟨rfl, rfl, rfl, rfl⟩, fun _ => id⟩
  | raffleClear =>
    simp only [applyEvent, he, raffleClear, requireOrganizer, ensure_bind_eq_ok, pure_eq_ok,
      Prod.mk.injEq] at h
    obtain ⟨-, rfl, -⟩ := h
    exact ⟨⟨rfl, rfl, rfl, rfl⟩, fun _ => id⟩
  | reportPromos promos source =>
    simp only [applyEvent, he, reportPromos, requireOrganizer, ensure_bind_eq_ok, pure_eq_ok,
      Prod.mk.injEq] at h
    obtain ⟨-, rfl, -⟩ := h
    exact ⟨⟨rfl, rfl, rfl, rfl⟩, fun _ => id⟩
  | updateConfig c => exact absurd he (hne c)
  | _ => simp [he, TournamentEvent.isQuiet] at hquiet

theorem config_of_accept (hne : ∀ c, i.event ≠ .updateConfig c)
    (h : acceptEvent rs t i = .ok t') : t'.config = t.config := by
  cases hq : i.event.isQuiet with
  | false => exact (sameRecord_of_effect hq (effect_of_acceptEvent h)).config
  | true =>
    obtain ⟨ops, h⟩ := acceptEvent_eq_ok.1 h
    exact (sameRecord_of_quiet hq hne h).1.config

theorem playBlind_owes : PlayBlind fun p => p.missingDecklist = false :=
  fun _ _ _ _ _ _ hp => hp

theorem nobodyOwes_of_accept (hne : ∀ c, i.event ≠ .updateConfig c)
    (hflag : t.flag .decklistRequired = false) (h : acceptEvent rs t i = .ok t')
    (howes : NobodyOwes t.players) : NobodyOwes t'.players := by
  obtain ⟨ops, happly⟩ := acceptEvent_eq_ok.1 h
  refine playBlind_owes.step (effect_of_applyEvent happly)
    (fun hq => (sameRecord_of_quiet hq hne happly).2 hflag howes) (fun harrives => ?_) howes
  cases he : i.event with
  | register uid veknId name =>
    simp only [applyEvent, he, register, ensure_eq_ok, exists_const, bind_eq_ok, pure_eq_ok,
      Prod.mk.injEq] at happly
    obtain ⟨-, -, -, -, -, x, -, rfl, -⟩ := happly
    exact List.forall_mem_append.2 ⟨howes, List.forall_mem_singleton.2 rfl⟩
  | addPlayer uid veknId name waitlist =>
    simp only [applyEvent, he, addPlayer, requireOrganizer, ensure_eq_ok, exists_const,
      bind_eq_ok, pure_eq_ok, Prod.mk.injEq] at happly
    obtain ⟨-, -, -, x, -, rfl, -⟩ := happly
    refine List.forall_mem_append.2 ⟨howes, List.forall_mem_singleton.2 ?_⟩
    simp [hflag]
  | checkIn uid veknId name =>
    simp only [applyEvent, he, checkIn, ensure_eq_ok, exists_const, bind_eq_ok, okOr_eq_ok,
      pure_eq_ok, Prod.mk.injEq] at happly
    obtain ⟨-, -, players, hplayers, p, -, -, -, x, -, -, rfl, -⟩ := happly
    have hadmitted : NobodyOwes players := by
      rcases admitAtDoor_ok hplayers with rfl | ⟨-, -, rfl⟩
      · exact howes
      · exact List.forall_mem_append.2 ⟨howes, List.forall_mem_singleton.2 rfl⟩
    refine forall_mem_update (fun p hp => ?_) hadmitted
    unfold checkedInEntry
    extract_lets named
    split
    · exact hp
    · simp [hflag]
  | setArchivalResults sheet =>
    simp only [applyEvent, he, setArchivalResults, requireState, ensure_bind_eq_ok, pure_eq_ok,
      Prod.mk.injEq] at happly
    obtain ⟨-, -, -, -, -, -, rfl, -⟩ := happly
    refine List.forall_mem_append.2 ⟨List.forall_mem_map.2 fun _ _ => rfl, fun p hp => ?_⟩
    exact howes p (List.mem_filter.1 hp).1
  | _ => simp [he, TournamentEvent.arrives] at harrives

/-! ### `UpdateConfig` -/

/-- The legality of the rank, as `create_tournament` and `UpdateConfig` check it. -/
def RankLegal (t : Tournament) : Prop :=
  validateRankLegality (t.text .format) (t.text .rank) (t.flag .proxies) (t.flag .multideck) =
    .ok ()

/-- The finish is not before the start, to the minute, when both are set. -/
def DatesOrdered (t : Tournament) : Prop :=
  t.text .start ≠ "" → t.text .finish ≠ "" → minute (t.text .start) ≤ minute (t.text .finish)

theorem validateRankLegality_ok {format rank : String} {proxies multideck : Bool} {x : Unit} :
    validateRankLegality format rank proxies multideck = .ok x ↔
      rank = "" ∨ ((format = "Standard" ∨ format = "Limited") ∧ proxies = false
        ∧ multideck = false) := by
  unfold validateRankLegality
  by_cases hr : rank = ""
  · simp [hr, pure, Except.pure]
  · simp only [hr, if_false, ensure_bind_eq_ok, ensure_eq_ok, false_or]

theorem validateFinishAfterStart_ok {start finish : String} {x : Unit}
    (h : validateFinishAfterStart start finish = .ok x) :
    start ≠ "" → finish ≠ "" → minute start ≤ minute finish := by
  simp only [validateFinishAfterStart, ensure_eq_ok] at h
  intro hs hf
  exact (h.resolve_left hs).resolve_left hf

theorem patchedConfig_eq (t : Tournament) (c : ConfigPatch) (f : ConfigField) :
    patchedConfig t c f = mergedValue t c f := by
  unfold patchedConfig mergedValue ConfigPatch.hasKey ConfigPatch.get
  cases c f <;> rfl

theorem mergedValue_of_not_hasKey {c : ConfigPatch} {f : ConfigField} (h : c.hasKey f = false) :
    mergedValue t c f = t.config f := by
  simp [mergedValue, h]

theorem updateConfigDoc_config {c : ConfigPatch} {f : ConfigField} (h : f ≠ .decklistRequired) :
    (updateConfigDoc t c).config f = mergedValue t c f := by
  unfold updateConfigDoc
  extract_lets patched
  split
  · rw [← patchedConfig_eq]
    exact if_neg h
  · exact patchedConfig_eq t c f

theorem updateConfig_ok {c : ConfigPatch} (he : i.event = .updateConfig c)
    (h : acceptEvent rs t i = .ok t') :
    validateConfigFields c = .ok () ∧ t' = updateConfigDoc t c ∧
      (RankLegal t → RankLegal t') ∧ (DatesOrdered t → DatesOrdered t') := by
  obtain ⟨ops, h⟩ := acceptEvent_eq_ok.1 h
  simp only [applyEvent, he, updateConfig, bind_eq_ok] at h
  obtain ⟨-, -, x, hvalid, y, -, h⟩ := h
  obtain ⟨hrank, h⟩ := check_if_eq_ok.1 h
  obtain ⟨hdates, h⟩ := check_if_eq_ok.1 h
  simp only [bind_eq_ok, pure_eq_ok, Prod.mk.injEq] at h
  obtain ⟨-, -, -, -, -, -, rfl, -⟩ := h
  refine ⟨hvalid, rfl, fun hlegal => ?_, fun hordered => ?_⟩
  · simp only [RankLegal, Tournament.text, Tournament.flag, updateConfigDoc_config, ne_eq,
      reduceCtorEq, not_false_eq_true]
    cases hkeys : (c.hasKey .rank || c.hasKey .format || c.hasKey .proxies
        || c.hasKey .multideck) with
    | true => exact hrank hkeys
    | false =>
      simp only [Bool.or_eq_false_iff] at hkeys
      obtain ⟨⟨⟨hr, hf⟩, hp⟩, hm⟩ := hkeys
      rw [mergedValue_of_not_hasKey hr, mergedValue_of_not_hasKey hf,
        mergedValue_of_not_hasKey hp, mergedValue_of_not_hasKey hm]
      exact hlegal
  · simp only [DatesOrdered, Tournament.text, updateConfigDoc_config, ne_eq, reduceCtorEq,
      not_false_eq_true]
    cases hkeys : (c.hasKey .start || c.hasKey .finish) with
    | true => exact validateFinishAfterStart_ok (hdates hkeys)
    | false =>
      simp only [Bool.or_eq_false_iff] at hkeys
      rw [mergedValue_of_not_hasKey hkeys.1, mergedValue_of_not_hasKey hkeys.2]
      exact hordered

theorem record_of_accept (h : acceptEvent rs t i = .ok t') :
    t'.uid = t.uid ∧ t'.modified = t.modified := by
  cases hq : i.event.isQuiet with
  | false =>
    have hsame := sameRecord_of_effect hq (effect_of_acceptEvent h)
    exact ⟨hsame.uid, hsame.modified⟩
  | true =>
    by_cases hconfig : ∃ c, i.event = .updateConfig c
    · obtain ⟨c, he⟩ := hconfig
      obtain ⟨-, rfl, -⟩ := updateConfig_ok he h
      unfold updateConfigDoc
      extract_lets patched
      split <;> exact ⟨rfl, rfl⟩
    · obtain ⟨ops, h⟩ := acceptEvent_eq_ok.1 h
      have hsame := (sameRecord_of_quiet hq (fun c he => hconfig ⟨c, he⟩) h).1
      exact ⟨hsame.uid, hsame.modified⟩

theorem uid_of_accept (h : acceptEvent rs t i = .ok t') : t'.uid = t.uid := (record_of_accept h).1

end Configuration

end Archon.Engine

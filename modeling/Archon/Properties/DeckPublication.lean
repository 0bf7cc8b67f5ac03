import Archon.Backend.StoredDecks
import Archon.Properties.DeckSlots

/-!
# Deck publication

A finished tournament publishes the decks its mode names, and no other tournament publishes any. The
publication pass leaves out decks whose player has the empty uid.
-/

namespace Archon.Backend
open Engine

/-- The live decks of the state follow its document. -/
def DecksFollow (tournamentUid : Uid) (s : DeckState) : Prop :=
  ∀ d ∈ getDecksForTournament s.objects tournamentUid, FollowsTournament s.doc d.toDeckObject

/-- The same for the decks with a player. -/
def OwnedDecksFollow (tournamentUid : Uid) (s : DeckState) : Prop :=
  ∀ d ∈ getDecksForTournament s.objects tournamentUid, d.userUid ≠ "" →
    FollowsTournament s.doc d.toDeckObject

/-- A deck created gets a uid (`uuid7`). -/
def NamesDecks (_ : DeckState) (c : DeckRequest) : Prop := c.env.freshUid 0 ≠ ""

section Runs

variable {rs : Seating.RandomSource} {env : Env} {objects : Objects} {tournamentUid uid : Uid}
  {t t' : Tournament} {i : EventInput} {base : List DeckOp} {d : DeckObject}

/-- What the runs keep, deck by deck. -/
structure Published (objects : Objects) (tournamentUid : Uid) (t : Tournament) : Prop where
  named : ∀ uid d, deckAt objects tournamentUid uid = some d → uid ≠ ""
  follows : ∀ uid d, deckAt objects tournamentUid uid = some d → d.userUid ≠ "" →
    FollowsTournament t d

theorem mem_engineDecks (h : WellKeyed objects) (hd : deckAt objects tournamentUid uid = some d) :
    d ∈ engineDecks objects tournamentUid ∧ d.uid = uid := by
  obtain ⟨e, he, rfl⟩ := Option.map_eq_some_iff.1 hd
  have huid : e.uid = uid := storedAt_uid h he
  exact ⟨List.mem_map_of_mem ((mem_getDecks_iff h).2 (huid ▸ he)), huid⟩

theorem deckAt_of_event (h : WellKeyed objects)
    (hfresh : objects.lookup (env.freshUid 0) = none)
    (hdecks : i.decks = engineDecks objects tournamentUid) {r : Tournament × List DeckOp}
    (hr : processTournamentEvent rs t i = .ok r) {d' : DeckObject}
    (hd' : deckAt (processDeckOps env objects tournamentUid r.2) tournamentUid uid = some d') :
    (∃ d, deckAt objects tournamentUid uid = some d ∧
      (d.userUid ≠ "" → uid ≠ "" → FollowsTournament t d → FollowsTournament r.1 d') ∧
      d'.userUid = d.userUid) ∨
    ((uid = env.freshUid 0 ∨ ∃ d, deckAt objects tournamentUid uid = some d) ∧
      FollowsTournament r.1 d') := by
  obtain ⟨base, hbase, hops⟩ := ops_of_processTournamentEvent hr
  have hnodup : (i.decks.map DeckObject.uid).Nodup := by
    rw [hdecks, engineDecks, List.map_map]
    exact nodup_uid_getDecks h
  -- A deck the handler does not answer for.
  have hfree : ∀ d, deckAt objects tournamentUid uid = some d → touchedDeck base d = false →
      d' = onDeckAll r.2 uid d → (d.userUid ≠ "" → uid ≠ "" → FollowsTournament t d →
        FollowsTournament r.1 d') ∧ d'.userUid = d.userUid := by
    rintro d hd hfree rfl
    obtain ⟨hmem, rfl⟩ := mem_engineDecks h hd
    refine ⟨fun huser huid hfollows => ?_, onDeckAll_userUid ..⟩
    rw [hops]
    exact follows_onDeckAll hbase hnodup (hdecks ▸ hmem) hfree huser huid hfollows
  set pubs := if t.state = .finished ∨ r.1.state = .finished then
    recomputeDeckPublication r.1 i.decks base else [] with hpubs
  have hpublishes : Publishes (engineDecks objects tournamentUid) base pubs := by
    rw [hpubs, hdecks]
    split
    · exact publishes_recomputeDeckPublication r.1 (engineDecks objects tournamentUid) base
    · exact fun op hop => absurd hop List.not_mem_nil
  have hedited : (∀ op ∈ base, (edit op).isSome = true) →
      ∃ d, deckAt objects tournamentUid uid = some d ∧ touchedDeck base d = false ∧
        d' = onDeckAll r.2 uid d := by
    intro hsingle
    rw [hops, deckAt_edited h hsingle hpublishes] at hd'
    obtain ⟨d, hd, rfl⟩ := Option.map_eq_some_iff.1 hd'
    exact ⟨d, hd, touchedDeck_of_edits hsingle d, congrArg (onDeckAll · uid d) hops.symm⟩
  cases emitted_of_applyEvent hbase with
  | moves hmoves =>
    obtain ⟨d, hd, htouched, heq⟩ := hedited fun op hop => by
      obtain ⟨x, -, next, rfl⟩ := hmoves.op hop
      rfl
    exact .inl ⟨d, hd, hfree d hd htouched heq⟩
  | setAttribution | setPrivate =>
    obtain ⟨d, hd, htouched, heq⟩ := hedited (List.forall_mem_singleton.2 rfl)
    exact .inl ⟨d, hd, hfree d hd htouched heq⟩
  | delete =>
    rw [hops] at hd'
    obtain ⟨d, hd, htouched, heq⟩ := deckAt_deleted h hpublishes hd'
    exact .inl ⟨d, hd, hfree d hd htouched (heq.trans (congrArg (onDeckAll · uid d) hops.symm))⟩
  | logView x userUid round viewed seen he _ hrunning =>
    have hsame : r.1 = t := by
      unfold applyEvent at hbase
      rw [he] at hbase
      exact viewDeck_doc hbase
    have hnone : pubs = [] := by
      rw [hpubs, hsame]
      exact if_neg (not_or.2 ⟨hrunning, hrunning⟩)
    rw [hops, hnone] at hd'
    rw [List.append_nil, deckAt_viewed h] at hd'
    refine .inl ⟨d', hd', fun _ _ hfollows => ?_, rfl⟩
    rwa [hsame]
  | upsert playerUid deck upload isPublic isWinner isPrivate multideck he =>
    obtain ⟨⟨upload', isPrivate', hop⟩, hsame⟩ := upsertDeck_ok he hbase
    simp only [List.cons.injEq, DeckOp.upsert.injEq, and_true] at hop
    obtain ⟨-, rfl, rfl, rfl, rfl⟩ := hop
    rw [hops] at hd'
    rcases deckAt_uploaded h hfresh hpublishes hd' with ⟨d, hd, htouched, heq⟩ | hd |
      ⟨hstored, huser, hpublic, hwinner, hprivate⟩
    · exact .inl ⟨d, hd, hfree d hd htouched (heq.trans (congrArg (onDeckAll · uid d) hops.symm))⟩
    · exact .inl ⟨d', hd, fun _ _ hfollows => (hsame d').2 hfollows, rfl⟩
    · refine .inr ⟨hstored, (hsame d').2 (follows_of_flags ?_ ?_)⟩
      · rw [hpublic, huser, hprivate]
      · rw [hwinner, huser]

theorem Published.step (h : WellKeyed objects)
    (hpub : Published objects tournamentUid t) (hnamed : env.freshUid 0 ≠ "")
    (hfresh : objects.lookup (env.freshUid 0) = none)
    (hdecks : i.decks = engineDecks objects tournamentUid) {r : Tournament × List DeckOp}
    (hr : processTournamentEvent rs t i = .ok r) :
    Published (processDeckOps env objects tournamentUid r.2) tournamentUid r.1 where
  named uid d' hd' := by
    rcases deckAt_of_event h hfresh hdecks hr hd' with ⟨d, hd, -⟩ | ⟨rfl | ⟨d, hd⟩, -⟩
    · exact hpub.named uid d hd
    · exact hnamed
    · exact hpub.named uid d hd
  follows uid d' hd' huser := by
    rcases deckAt_of_event h hfresh hdecks hr hd' with ⟨d, hd, hkept, hsame⟩ | ⟨-, hfollows⟩
    · rw [hsame] at huser
      exact hkept huser (hpub.named uid d hd) (hpub.follows uid d hd huser)
    · exact hfollows

/-- In every run of accepted events, each followed by its deck operations, the decks with a player
follow the tournament. -/
theorem ownedDecksFollow_of_reaches {s : DeckState}
    (h : (deckSystem rs tournamentUid).Reaches NamesDecks s) :
      OwnedDecksFollow tournamentUid s := by
  have hrun : WellKeyed s.objects ∧ Published s.objects tournamentUid s.doc := by
    refine h.invariant (P := fun s => WellKeyed s.objects ∧
      Published s.objects tournamentUid s.doc) ?_ ?_
    · rintro s ⟨hkeyed, hnone⟩
      have hempty : ∀ uid d, deckAt s.objects tournamentUid uid ≠ some d := by
        intro uid d hd
        have hmem := (mem_engineDecks hkeyed hd).1
        rw [engineDecks, hnone] at hmem
        cases hmem
      exact ⟨hkeyed, fun uid d hd => absurd hd (hempty uid d), fun uid d hd =>
        absurd hd (hempty uid d)⟩
    · rintro s c s' ⟨hkeyed, hpub⟩ hnamed ⟨hfresh, r, hr, rfl⟩
      exact ⟨wellKeyed_processDeckOps hkeyed _, hpub.step hkeyed hnamed hfresh rfl hr⟩
  intro d hd huser
  exact hrun.2.follows d.uid d.toDeckObject
    (congrArg (Option.map StoredDeck.toDeckObject) ((mem_getDecks_iff hrun.1).1 hd)) huser

end Runs

/-! ### A deck without a player -/

instance (s : DeckState) (c : DeckRequest) : Decidable (NamesDecks s c) :=
  inferInstanceAs (Decidable (_ ≠ _))

instance (tournamentUid : Uid) (s : DeckState) : Decidable (DecksFollow tournamentUid s) :=
  inferInstanceAs (Decidable (∀ d ∈ _, _))

/-- A new tournament, and no deck. -/
def newTournament : DeckState := ⟨createdTournament plainRequest "organizer", ∅⟩

theorem newTournament_init (rs : Seating.RandomSource) (tournamentUid : Uid) :
    (deckSystem rs tournamentUid).init newTournament :=
  ⟨fun _ _ h => absurd h (by simp [newTournament]), rfl⟩

/-- A player is added, her deck uploaded, and the tournament finished. -/
def finishedWithDeck (player : Uid) : List DeckRequest :=
  [byOrganizer .openRegistration, byOrganizer (.addPlayer player (some "1000001") none false),
    ⟨{ venue with freshUid := fun _ => "deck" },
      .upsertDeck player ⟨none, none, ⟨"deck", "", []⟩⟩ false, organizer, []⟩,
    byOrganizer .closeRegistration, byOrganizer .finishTournament]

theorem reaches_replay_decks (requests : List DeckRequest) {p : DeckState → Bool}
    (h : (System.replay (deckStep fixedOrder "event")
      (fun s c => NewUid s c ∧ NamesDecks s c) newTournament requests).any p = true) :
    ∃ s, (deckSystem fixedOrder "event").Reaches NamesDecks s ∧ p s = true := by
  obtain ⟨s, hs, hp⟩ := (Option.any_eq_true _ _).1 h
  exact ⟨s, System.reaches_replay_of (fun _ _ hi => hi.2)
    (fun _ _ _ hi hstep => step_of_deckStep hi.1 hstep) requests newTournament s
    (.init (newTournament_init _ _)) hs, hp⟩

theorem finishedWithDeck_follow : ∃ s : DeckState, s.doc.state = .finished ∧
    (getDecksForTournament s.objects "event").length = 1 ∧ OwnedDecksFollow "event" s := by
  obtain ⟨s, hs, hp⟩ := reaches_replay_decks (finishedWithDeck "a")
    (p := fun s => decide (s.doc.state = .finished ∧
      (getDecksForTournament s.objects "event").length = 1)) (by decide +kernel)
  obtain ⟨hstate, hlength⟩ := of_decide_eq_true hp
  exact ⟨s, hstate, hlength, ownedDecksFollow_of_reaches hs⟩

/-- The deck of a player with the empty uid is passed over at the finish. -/
theorem unownedDeck_not_follow : ¬∀ (rs : Seating.RandomSource) (tournamentUid : Uid)
    (s : DeckState), (deckSystem rs tournamentUid).Reaches NamesDecks s →
      DecksFollow tournamentUid s := by
  intro hall
  obtain ⟨s, hs, hp⟩ := reaches_replay_decks (finishedWithDeck "")
    (p := fun s => !decide (DecksFollow "event" s)) (by decide +kernel)
  rw [decide_eq_true (hall _ _ s hs)] at hp
  cases hp

end Archon.Backend

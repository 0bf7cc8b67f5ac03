import Archon.Properties.RatingsFollow

/-!
# The actions that skip the recompute (`tournaments.py:110`)

An action of the skip list leaves everything the ratings and the wins read of a finished
tournament: its configuration, its results, and on the roster who is disqualified or proxied. So it
is followed without a recompute, as long as the row was live and dates itself.
-/

namespace Archon.Backend
open Engine Guards Seating

/-! ### What is read -/

/-- Rosters alike to the ratings. -/
structure SameRoles (ps qs : List Player) : Prop where
  disqualified : ∀ uid, (qs.any fun p => p.isUid uid && p.state == .disqualified) =
    ps.any fun p => p.isUid uid && p.state == .disqualified
  nonCompeting : ∀ uid, (qs.any fun p => p.isUid uid && p.nonCompeting) =
    ps.any fun p => p.isUid uid && p.nonCompeting

/-- Documents alike to the ratings and the wins, up to their dates. -/
structure SameResults (t t' : Tournament) : Prop where
  state : t'.state = t.state
  config : t'.config = t.config
  rounds : t'.rounds = t.rounds
  finals : t'.finals = t.finals
  winner : t'.winner = t.winner
  standings : t'.standings = t.standings
  reportedPlayerCount : t'.reportedPlayerCount = t.reportedPlayerCount
  roles : SameRoles t.players t'.players

section Reads

variable {t t' : Tournament} {sanctions : List StoredSanction} {uid : Uid}

theorem SameResults.eligibility (h : SameResults t t') :
    rankingEligibility t' = rankingEligibility t := by
  obtain ⟨-, hconfig, hrounds, hfinals, hwinner, hstandings, -, -⟩ := h
  cases t
  cases t'
  cases hconfig
  cases hrounds
  cases hfinals
  cases hwinner
  cases hstandings
  rfl

theorem SameResults.fieldSize (h : SameResults t t') :
    attestedPlayerCount t' = attestedPlayerCount t := by
  simp only [attestedPlayerCount, Engine.playersWithRounds, h.rounds, h.finals, h.standings,
    h.reportedPlayerCount]

theorem SameResults.played (h : SameResults t t') :
    Ratings.playersWithRounds t' = Ratings.playersWithRounds t := by
  simp only [Ratings.playersWithRounds, h.rounds, h.finals, h.standings]

theorem SameResults.competes_iff (h : SameResults t t') :
    competes t' sanctions uid ↔ competes t sanctions uid := by
  simp only [competes, Ratings.isDisqualified, Ratings.isNonCompeting, h.roles.disqualified,
    h.roles.nonCompeting]

theorem SameResults.position (h : SameResults t t') :
    Ratings.finalPosition t' uid = Ratings.finalPosition t uid := by
  simp only [Ratings.finalPosition, h.standings, h.winner]

theorem SameResults.points (h : SameResults t t') (sanctions : List Sanction) :
    computeRatingVpGw t' sanctions uid = computeRatingVpGw t sanctions uid := by
  have hforfeits : forfeitsRating t' sanctions uid = forfeitsRating t sanctions uid := by
    simp only [forfeitsRating, h.roles.disqualified, h.roles.nonCompeting]
  unfold computeRatingVpGw
  rw [hforfeits]
  obtain ⟨-, -, hrounds, hfinals, hwinner, hstandings, -, -⟩ := h
  cases t
  cases t'
  cases hrounds
  cases hfinals
  cases hwinner
  cases hstandings
  rfl

end Reads

/-! ### The actions of the list -/

section Skipped

variable {rs : RandomSource} {t t' : Tournament} {i : EventInput} {ops : List DeckOp}
variable {players : List Player} {uid : Uid} {f : Player → Player}

theorem any_updatePlayer {q : Player → Bool}
    (h : ∀ p, findPlayer players uid = some p → q (f p) = q p) :
    (updatePlayer players uid f).any q = players.any q := by
  induction players with
  | nil => rfl
  | cons p ps ih =>
    rw [updatePlayer_cons]
    by_cases hp : p.isUid uid = true
    · rw [if_pos hp, List.any_cons, List.any_cons, h p (by simp [findPlayer, hp])]
    · rw [if_neg hp, List.any_cons, List.any_cons, ih fun p' hp' => h p' ?_]
      simpa [findPlayer, hp] using hp'

theorem sameRoles_map
    (hf : ∀ p, (f p).userUid = p.userUid ∧ (f p).nonCompeting = p.nonCompeting ∧
      ((f p).state == .disqualified) = (p.state == .disqualified)) :
    SameRoles players (players.map f) := by
  constructor <;> intro uid <;> rw [List.any_map] <;> refine congrArg _ (funext fun p => ?_) <;>
    simp [Player.isUid, hf p]

theorem sameRoles_update
    (hf : ∀ p, findPlayer players uid = some p → (f p).userUid = p.userUid ∧
      (f p).nonCompeting = p.nonCompeting ∧
      ((f p).state == .disqualified) = (p.state == .disqualified)) :
    SameRoles players (updatePlayer players uid f) := by
  constructor <;> intro u <;> refine any_updatePlayer fun p hp => ?_ <;>
    simp [Player.isUid, hf p hp]

theorem sameRoles_of_sameEntry {ps qs : List Player} (h : List.Forall₂ SameEntry ps qs) :
    SameRoles ps qs := by
  constructor <;> intro uid
  all_goals
    induction h with
    | nil => rfl
    | cons hp _ ih =>
      rw [List.any_cons, List.any_cons, ih, Player.isUid, hp.userUid, ← Player.isUid]
      first
        | rw [hp.state]
        | rw [hp.nonCompeting]

theorem reported_of_quiet (hquiet : i.event.isQuiet = true) (hne : ∀ c, i.event ≠ .updateConfig c)
    (h : applyEvent rs t i = .ok (t', ops)) : t'.reportedPlayerCount = t.reportedPlayerCount := by
  cases he : i.event with
  | setPaymentStatus =>
    simp only [applyEvent, he, setPaymentStatus, bind_eq_ok, pure_eq_ok, Prod.mk.injEq] at h
    obtain ⟨-, -, -, -, -, -, rfl, -⟩ := h
    rfl
  | markAllPaid =>
    simp only [applyEvent, he, markAllPaid, bind_eq_ok, pure_eq_ok, Prod.mk.injEq] at h
    obtain ⟨-, -, rfl, -⟩ := h
    rfl
  | upsertDeck =>
    simp only [applyEvent, he, upsertDeck, requireOwnerOfPrivate, ensure_bind_eq_ok, pure_eq_ok,
      Prod.mk.injEq] at h
    obtain ⟨-, -, -, -, -, rfl, -⟩ := h
    rfl
  | deleteDeck =>
    simp only [applyEvent, he, deleteDeck, requireOwnerOfPrivate, ensure_bind_eq_ok, pure_eq_ok,
      Prod.mk.injEq] at h
    obtain ⟨-, -, -, -, -, rfl, -⟩ := h
    rfl
  | setDeckAttribution =>
    simp only [applyEvent, he, setDeckAttribution, ensure_bind_eq_ok, okOr_bind_eq_ok, pure_eq_ok,
      Prod.mk.injEq] at h
    obtain ⟨-, -, -, rfl, -⟩ := h
    rfl
  | setDeckPrivate =>
    simp only [applyEvent, he, setDeckPrivate, ensure_bind_eq_ok, okOr_bind_eq_ok, pure_eq_ok,
      Prod.mk.injEq] at h
    obtain ⟨-, -, -, -, rfl, -⟩ := h
    rfl
  | viewDeck =>
    simp only [applyEvent, he] at h
    rw [viewDeck_doc h]
  | raffleDraw =>
    simp only [applyEvent, he, raffleDraw, requireOrganizer, bind_eq_ok, ensure_eq_ok,
      exists_const, pure_eq_ok, Prod.mk.injEq] at h
    obtain ⟨-, -, -, eligible, -, -, rfl, -⟩ := h
    rfl
  | raffleUndo =>
    simp only [applyEvent, he, raffleUndo, requireOrganizer, ensure_bind_eq_ok, pure_eq_ok,
      Prod.mk.injEq] at h
    obtain ⟨-, -, rfl, -⟩ := h
    rfl
  | raffleClear =>
    simp only [applyEvent, he, raffleClear, requireOrganizer, ensure_bind_eq_ok, pure_eq_ok,
      Prod.mk.injEq] at h
    obtain ⟨-, rfl, -⟩ := h
    rfl
  | reportPromos =>
    simp only [applyEvent, he, reportPromos, requireOrganizer, ensure_bind_eq_ok, pure_eq_ok,
      Prod.mk.injEq] at h
    obtain ⟨-, rfl, -⟩ := h
    rfl
  | updateConfig c => exact absurd he (hne c)
  | _ => simp [he, TournamentEvent.isQuiet] at hquiet

theorem sameRoles_checkIn {uid : Uid} {name : Option String} {p : Player}
    (hp : findPlayer t.players uid = some p) (hstate : p.state ≠ .disqualified) :
    SameRoles t.players (updatePlayer t.players uid (checkedInEntry t i.decks uid name)) := by
  refine sameRoles_update fun q hq => ?_
  obtain rfl : p = q := Option.some.inj (hp.symm.trans hq)
  unfold checkedInEntry
  extract_lets named
  split_ifs <;> exact ⟨rfl, rfl, by simp [Player.withState, hstate]⟩

theorem sameResults_of_skipped (hskip : ratingIrrelevant i.event = true)
    (hfinished : t.state = .finished) (h : applyEvent rs t i = .ok (t', ops)) :
    SameResults t t' := by
  have hne : ∀ c, i.event ≠ .updateConfig c := by
    intro c he
    rw [he] at hskip
    cases hskip
  cases effect_of_applyEvent h with
  | quiet hq hquiet =>
    exact ⟨hquiet.state, config_of_accept hne (acceptEvent_eq_ok.2 ⟨ops, h⟩), hquiet.rounds,
      hquiet.finals, hquiet.winner, hquiet.standings, reported_of_quiet hq hne h,
      sameRoles_of_sameEntry hquiet.players⟩
  | checkIn uid veknId name players p _ _ hplayers hp hstate =>
    rcases hplayers with rfl | ⟨-, hunfinished, -⟩
    · exact ⟨rfl, rfl, rfl, rfl, rfl, rfl, rfl, sameRoles_checkIn hp hstate⟩
    · exact absurd hfinished hunfinished
  | checkOut uid p _ _ hp hstate =>
    refine ⟨rfl, rfl, rfl, rfl, rfl, rfl, rfl, sameRoles_update fun q hq => ?_⟩
    obtain rfl : p = q := Option.some.inj (hp.symm.trans hq)
    exact ⟨rfl, rfl, by simp [Player.withState, checkedOutState, hfinished, hstate]⟩
  | checkInAll =>
    refine ⟨rfl, rfl, rfl, rfl, rfl, rfl, rfl, sameRoles_map fun p => ?_⟩
    split_ifs with hall
    · have hcompetes : p.state ≠ .disqualified := by
        simp only [checksInAll, Bool.and_eq_true, bne_iff_ne] at hall
        exact hall.1.1.1.1
      exact ⟨rfl, rfl, by simp [Player.withState, hcompetes]⟩
    · exact ⟨rfl, rfl, rfl⟩
  | resetCheckIn =>
    refine ⟨rfl, rfl, rfl, rfl, rfl, rfl, rfl, sameRoles_map fun p => ?_⟩
    split_ifs with hchecked
    · exact ⟨rfl, rfl, by simp [Player.withState, checkedOutState, hfinished, hchecked]⟩
    · exact ⟨rfl, rfl, rfl⟩
  | setNonCompeting _ _ _ _ hunfinished => exact absurd hfinished hunfinished
  | setWaitlisted =>
    exact ⟨rfl, rfl, rfl, rfl, rfl, rfl, rfl, sameRoles_update fun _ _ => ⟨rfl, rfl, rfl⟩⟩
  | leave uid idx he => rcases he with he | he <;> rw [he] at hskip <;> cases hskip
  | _ => simp_all [ratingIrrelevant]

end Skipped

/-! ### The stored row -/

/-- The row carries a date of its own, in the wall clock of the venue. -/
structure Dated (env : Env) (t : StoredTournament) : Prop where
  dated : ((t.doc.config .finish).asStr.or (t.doc.config .start).asStr).isSome = true
  start : env.localDate (t.doc.config .start) = t.doc.config .start
  finish : env.localDate (t.doc.config .finish) = t.doc.config .finish

section Rows

variable {clock : Ratings.Clock} {env : Env} {objects a : Objects} {uid : Uid}
variable {before after t : StoredTournament} {event identified : TournamentEvent}
variable {ops : List DeckOp} {actor : ActorContext} {category : RatingCategory}
variable {sanctions : List StoredSanction}

theorem sameResults_of_processEvent (hskip : ratingIrrelevant identified = true)
    (hfinished : before.doc.state = .finished) (hdated : Dated env before)
    (h : processEvent env objects before identified actor = .ok (after, ops)) :
    SameResults before.doc after.doc ∧ after.owned.externalIds = before.owned.externalIds := by
  obtain ⟨doc, haccept, rfl⟩ := processEvent_eq_ok h
  obtain ⟨base, happly⟩ := acceptEvent_eq_ok.1 haccept
  have hstate : before.toEngine.state = .finished := hfinished
  have hsame := sameResults_of_skipped hskip hstate happly
  rw [if_pos hfinished]
  refine ⟨⟨hsame.state, ?_, hsame.rounds, hsame.finals, hsame.winner, hsame.standings,
    hsame.reportedPlayerCount, hsame.roles⟩, rfl⟩
  have hconfig : doc.config = before.doc.config := hsame.config
  funext field
  simp only [Env.localTimes, StoredTournament.withDoc, hconfig]
  split_ifs with hdate
  · rcases hdate with rfl | rfl
    · exact hdated.start
    · exact hdated.finish
  · rfl

theorem stampOf_eq (h : SameResults before.doc after.doc) (hdated : Dated env before) :
    Ratings.stampOf after.doc = Ratings.stampOf before.doc := by
  obtain ⟨date, hdate⟩ := Option.isSome_iff_exists.1 hdated.dated
  rw [Ratings.stampOf, Ratings.stampOf, h.config, hdate, Option.some_or, Option.some_or]

theorem computeEntry_eq (h : SameResults before.doc after.doc) (hdated : Dated env before)
    (huid : after.uid = before.uid) :
    Ratings.computeEntry clock after sanctions uid =
      Ratings.computeEntry clock before sanctions uid := by
  have hengine : SameResults before.toEngine after.toEngine :=
    ⟨h.state, h.config, h.rounds, h.finals, h.winner, h.standings, h.reportedPlayerCount, h.roles⟩
  have htext : ∀ field, after.doc.text field = before.doc.text field := by
    intro field
    rw [Tournament.text, Tournament.text, h.config]
  simp only [Ratings.computeEntry, hengine.points, hengine.fieldSize, h.position, htext,
    stampOf_eq h hdated, huid]

theorem counts_iff (h : SameResults before.doc after.doc) (hdated : Dated env before)
    (huid : after.uid = before.uid)
    (hlive : objects.lookup before.uid = some ⟨.tournament before, none⟩) :
    Counts clock (saveRow objects after) category uid after ↔
      Counts clock objects category uid before := by
  have hsanctions : getSanctionsForTournament (saveRow objects after) =
      getSanctionsForTournament objects :=
    sanctions_saveRow (tournament?_eq_some.2 (find?_eq_some.2 ⟨none, huid ▸ hlive⟩))
  have hstamp := stampOf_eq h hdated
  have hwindow : Ratings.inWindow clock after.doc = Ratings.inWindow clock before.doc := by
    rw [Ratings.inWindow, Ratings.inWindow, hstamp]
  have htext : after.doc.text .format = before.doc.text .format := by
    rw [Tournament.text, Tournament.text, h.config]
  have hflag : after.doc.flag .online = before.doc.flag .online := by
    rw [Tournament.flag, Tournament.flag, h.config]
  constructor
  · intro hc
    exact ⟨hlive, h.state ▸ hc.finished, htext ▸ hc.format, hflag ▸ hc.online,
      hwindow ▸ hc.window, h.eligibility ▸ hc.eligible, h.played ▸ hc.played,
      h.competes_iff.1 (huid ▸ hsanctions ▸ hc.competed)⟩
  · intro hc
    refine ⟨lookup_saveRow objects after, h.state.trans hc.finished, htext ▸ hc.format,
      hflag.trans hc.online, hwindow.trans hc.window, h.eligibility.trans hc.eligible,
      h.played ▸ hc.played, ?_⟩
    rw [hsanctions, huid]
    exact h.competes_iff.2 hc.competed

theorem entryOf_eq_some_iff (h : WellKeyed a) {e : TournamentRatingEntry}
    (ht : a.tournament? t.uid = some t) :
    entryOf clock a category uid t.uid = some e ↔ Counts clock a category uid t ∧
      e = Ratings.computeEntry clock t (getSanctionsForTournament a t.uid) uid := by
  rw [entryOf_eq_some h, mem_entriesFor h]
  constructor
  · rintro ⟨⟨t', hcounts, rfl⟩, hkey⟩
    have huid : t'.uid = t.uid := hkey
    have hrow : a.tournament? t'.uid = some t' :=
      tournament?_eq_some.2 (find?_eq_some.2 ⟨none, hcounts.live⟩)
    obtain rfl : t' = t := by
      rw [huid, ht] at hrow
      exact (Option.some.inj hrow).symm
    exact ⟨hcounts, rfl⟩
  · rintro ⟨hcounts, rfl⟩
    exact ⟨⟨t, hcounts, rfl⟩, rfl⟩

theorem hofCandidate_eq (h : SameResults before.doc after.doc) {k : Uid}
    (hdeck : HoldsDeck a k before.doc.winner ↔ HoldsDeck objects k before.doc.winner) :
    hofCandidate a k ⟨.tournament after, none⟩ after =
      hofCandidate objects k ⟨.tournament before, none⟩ before := by
  unfold hofCandidate
  rw [h.state, h.winner, h.config]
  refine congrArg _ ?_
  rw [Bool.eq_iff_iff, holdsDeck_iff, holdsDeck_iff, hdeck]

theorem attestedWin_eq (h : SameResults before.doc after.doc)
    (hids : after.owned.externalIds = before.owned.externalIds) :
    attestedWin after = attestedWin before := by
  have hplayed : playersWithRounds after.doc = playersWithRounds before.doc := by
    simp only [Engine.playersWithRounds, h.rounds, h.finals, h.standings]
  simp only [attestedWin, StoredTournament.externalId, h.fieldSize, h.reportedPlayerCount, hids,
    hplayed]

theorem mem_wins_iff {row : Row} (hrow : a.lookup t.uid = some row)
    (hobject : row.object = .tournament t) :
    t.uid ∈ tournamentWins a uid ↔
      hofCandidate a t.uid row t = true ∧ attestedWin t = true ∧ t.doc.winner = uid := by
  rw [mem_tournamentWins]
  constructor
  · rintro ⟨row', t', hw⟩
    obtain rfl : row' = row := Option.some.inj (hw.stored.symm.trans hrow)
    obtain rfl : t' = t := StoredObject.tournament.inj (hw.object.symm.trans hobject)
    exact ⟨hw.candidate, hw.attested, hw.winner⟩
  · rintro ⟨hcandidate, hattested, hwinner⟩
    exact ⟨row, t, hrow, hobject, hcandidate, hattested, hwinner⟩

theorem followed_of_skipped (h : WellKeyed objects) (huid : after.uid = before.uid)
    (hlive : objects.lookup before.uid = some ⟨.tournament before, none⟩)
    (hdated : Dated env before) (hsame : SameResults before.doc after.doc)
    (hids : after.owned.externalIds = before.owned.externalIds) :
    Followed clock objects before after event ops := by
  have ht : objects.tournament? before.uid = some before :=
    tournament?_eq_some.2 (find?_eq_some.2 ⟨none, hlive⟩)
  have hrow : objects.tournament? after.uid = some before := huid ▸ ht
  constructor
  · intro uid _ _ category
    refine Option.ext fun e => ?_
    rw [entryOf_eq_some_iff (wellKeyed_saveRow h after) tournament?_saveRow, huid,
      entryOf_eq_some_iff h ht, sanctions_saveRow hrow, counts_iff hsame hdated huid hlive,
      computeEntry_eq hsame hdated huid]
  · intro uid _ _ _
    have hcandidate :
        hofCandidate (saveRow objects after) before.uid ⟨.tournament after, none⟩ after =
          hofCandidate objects before.uid ⟨.tournament before, none⟩ before :=
      hofCandidate_eq hsame (holdsDeck_saveRow hrow)
    rw [mem_wins_iff (lookup_saveRow objects after) rfl, huid, mem_wins_iff hlive rfl, hcandidate,
      attestedWin_eq hsame hids, hsame.winner]

theorem ratingIrrelevant_identified {placed : TournamentEvent}
    (hplaced : placedEvent env before event = .ok placed)
    (hidentified : identifiedEvent objects placed = .ok identified) :
    ratingIrrelevant identified = ratingIrrelevant event := by
  have hsame : ratingIrrelevant placed = ratingIrrelevant event := by
    cases event with
    | updateConfig c =>
      simp only [placedEvent, bind_eq_ok, pure_eq_ok] at hplaced
      obtain ⟨c', -, rfl⟩ := hplaced
      rfl
    | _ =>
      cases hplaced
      rfl
  rw [← hsame]
  unfold identifiedEvent at hidentified
  split at hidentified
  · cases hidentified
    rfl
  · rw [ensure_bind_eq_ok, okOr_bind_eq_ok] at hidentified
    obtain ⟨-, target, -, hidentified⟩ := hidentified
    rw [pure_eq_ok] at hidentified
    rw [← hidentified]
    cases placed <;> rfl

/-- After an action of the list on a live finished tournament with a date of its own everything is
up to date. -/
theorem upToDate_skipped {objects' : Objects} {user : User} {oauthTournament : Option Uid}
    (h : WellKeyed objects) (hcolumns : DeckColumns objects) (hfresh : env.Fresh objects uid)
    (hbefore : UpToDate clock objects)
    (hserve : tournamentAction (clock.env env) objects user uid oauthTournament event =
      .ok objects') (hskip : ratingIrrelevant event = true)
    (hlive : objects.lookup uid = some ⟨.tournament before, none⟩)
    (hfinished : before.doc.state = .finished) (hdated : Dated env before) :
    UpToDate clock objects' := by
  have ht : objects.tournament? uid = some before :=
    tournament?_eq_some.2 (find?_eq_some.2 ⟨none, hlive⟩)
  have huid : before.uid = uid := h.uid_eq (tournament?_eq_some.1 ht)
  obtain ⟨t, placed, identified, actor, after, ops, hrow, hplaced, hidentified, hevent, hiff⟩ :=
    upToDate_action_iff clock env objects objects' user uid oauthTournament event h hcolumns hfresh
      hbefore hserve
  obtain rfl : t = before := Option.some.inj (hrow.symm.trans ht)
  have hirrelevant := (ratingIrrelevant_identified hplaced hidentified).trans hskip
  have hdated' : Dated (clock.env env) t := ⟨hdated.dated, hdated.start, hdated.finish⟩
  obtain ⟨hsame, hids⟩ := sameResults_of_processEvent hirrelevant hfinished hdated' hevent
  obtain ⟨doc, haccept, hafter⟩ := processEvent_eq_ok hevent
  have hkept : after.uid = t.uid := by
    rw [hafter]
    exact uid_eventRow haccept
  exact hiff.2 (followed_of_skipped h hkept (huid ▸ hlive) hdated' hsame hids)

end Rows

/-- The raffles of the event whose sheet names a player off its list are cleared. -/
theorem upToDate_skipped_raffle : ∃ objects',
    tournamentAction (passInMay.env venue) importedTable (member "prince" [.prince]) "event" none
      .raffleClear = .ok objects' ∧ UpToDate passInMay objects' := by
  have hrun : (tournamentAction (passInMay.env venue) importedTable (member "prince" [.prince])
      "event" none .raffleClear).toOption.isSome = true := by decide +kernel
  obtain ⟨objects', hobjects⟩ := Option.isSome_iff_exists.1 hrun
  cases hserved : tournamentAction (passInMay.env venue) importedTable (member "prince" [.prince])
      "event" none .raffleClear with
  | error e => rw [hserved] at hobjects; cases hobjects
  | ok table =>
    have hlive : importedTable.lookup "event" = some ⟨.tournament importedEvent, none⟩ :=
      rfl
    exact ⟨table, rfl, upToDate_skipped importedTable_keyed importedTable_columns
      importedTable_fresh importedTable_upToDate hserved rfl hlive rfl
      ⟨by decide +kernel, rfl, rfl⟩⟩

end Archon.Backend

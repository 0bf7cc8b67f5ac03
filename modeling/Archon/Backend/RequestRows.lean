import Archon.Engine.Configuration
import Archon.Backend.Requests
import Archon.Backend.RowFrames

/-!
# What a request does to the row of its tournament

`RowAfter` gives the row an accepted request leaves, off the one it read. Every other write of the
request (decks, members, sanctions) is beside the row.
-/

namespace Archon.Backend
open Engine Guards Table

/-- The row after an event: the engine's document, with the local times and the finish date. -/
def eventRow (env : Env) (t : StoredTournament) (doc : Tournament) : StoredTournament :=
  if t.doc.state = .finished then env.localTimes (t.withDoc doc env.now)
  else stampFinish env (env.localTimes (t.withDoc doc env.now))

/-- The row after a change to its sanctions is reflected, `saved` being the table with the sanction
in it. Without rounds and without an entry of the player nothing is saved. -/
def ReflectedAs (env : Env) (saved : Objects) (uid : Uid) (t : StoredTournament)
    (change : Option SanctionChange) (t' : StoredTournament) : Prop :=
  (t' = t ∧ ∀ ch ∈ change, t.doc.rounds = [] ∧
    (ch.target t.toEngine (tournamentSanctions saved uid)).any
      (fun d => playerExists t.doc.players d.1) = false) ∨
  ∃ ch ∈ change, t' = reflectedRow env saved uid t ch

/-- The row of the tournament `uid` after an accepted request, off the row `t` before it. -/
def RowAfter (env : Env) (objects : Objects) (user : User) (uid : Uid) (t : StoredTournament) :
    Request → StoredTournament → Prop
  | .action _ event, t' => t.lock.offlineMode = false ∧
      ∃ placed identified actor doc, placedEvent env t event = .ok placed ∧
        identifiedEvent objects placed = .ok identified ∧
        acceptEvent env.random t.toEngine ⟨identified, actor,
          buildSanctions objects t.uid (playerUids t.doc), engineDecks objects t.uid⟩ = .ok doc ∧
        t' = eventRow env t doc
  | .addOrganizer organizerUid, t' => t' = if organizerUid ∈ t.doc.organizersUids then t else
      { t with doc := { t.doc with
        organizersUids := t.doc.organizersUids ++ [organizerUid] } }.touched env.now
  | .removeOrganizer organizerUid, t' => t' = if organizerUid ∈ t.doc.organizersUids then
      { t with doc := { t.doc with
        organizersUids := t.doc.organizersUids.erase organizerUid } }.touched env.now else t
  | .uploadBanner path, t' => t.lock.offlineMode = false ∧
      t' = { t.touched env.now with owned := { t.owned with bannerPath := some path } }
  | .deleteBanner _, t' => t.lock.offlineMode = false ∧
      t' = if t.owned.bannerPath = none then t
        else { t.touched env.now with owned := { t.owned with bannerPath := none } }
  | .postAnnouncement .., t' | .deleteAnnouncement .., t' => t.lock.offlineMode = false ∧
      ∃ announcements, t' = { t.touched env.now with announcements }
  | .saveTimer, t' => t.lock.offlineMode = false ∧ t' = t.touched env.now
  | .bulkRegister request, t' => ∃ authMethods, t' = { t with doc :=
      { (bulkPass env ⟨objects, authMethods⟩ user uid request t).doc with
        modified := some env.now } }
  | .archonImport results, t' => t' = importedRow env t results
  | .deleteTournament, t' => t.lock.offlineMode = false ∧
      t' = { t.touched env.now with deletedAt := some env.now }
  | .createSanction _ request, t' => ReflectedAs env
      (saveSanction objects (newSanction env user request)) uid t request.change t'
  | .updateSanction sanctionUid request, t' => ∃ s, objects.sanction? sanctionUid = some s ∧
      ReflectedAs env (saveSanction objects (updatedSanction env user s request)) uid t
        (updatedChange s (updatedSanction env user s request)) t'
  | .deleteSanction sanctionUid, t' => ∃ s, objects.sanction? sanctionUid = some s ∧
      ReflectedAs env
        (saveSanction objects { s with modified := env.now, deletedAt := some env.now }) uid t
        s.deletedChange t'
  | .goOffline deviceId, t' => t.lock.offlineMode = false ∧
      t' = { t.touched env.now with lock := ⟨true, deviceId, user.uid, some env.now⟩ }
  | .forceTakeover deviceId, t' => t.lock.offlineMode = true ∧ t' = { t.touched env.now with
      lock := { t.lock with offlineDeviceId := deviceId, offlineUserUid := user.uid } }
  | .forceUnlock _, t' => t.lock.offlineMode = true ∧
      t' = { t.touched env.now with lock := .released }
  | .syncOffline deviceId payload, t' =>
      (t.lock.offlineMode = true ∧ isOrganizer user t = true ∧
        t.lock.offlineDeviceId = deviceId) ∧
      t' = scrubAnonymizedCopies objects (env.localTimes
        ((snapshotOver env (some t) user deviceId (pinned env uid payload)).touched env.now))
  | .goOnline request, t' => t.lock.offlineMode = true ∧
      ∃ r updated, r.Sound objects (request.offlinePlayers.map OfflinePlayerData.tempUid) ∧
        broughtOnline env r request (some t) (pinned env uid request.tournament) = .ok updated ∧
        RecomputedRow env updated t'

/-- The request is about the tournament: it has it in its path, or the sanction is one of its. -/
def Call.Concerns (objects : Objects) (uid : Uid) (c : Call) : Prop :=
  match c.request with
  | .createSanction _ request => request.tournamentUid = some uid
  | .updateSanction sanctionUid _ | .deleteSanction sanctionUid =>
    ∀ s, objects.sanction? sanctionUid = some s → s.tournamentUid = some uid
  | _ => c.path = uid

/-- A go-online names nothing by the uid of the tournament. -/
def Request.Avoids (uid : Uid) : Request → Prop
  | .goOnline request => request.Avoids uid
  | _ => True

section RequestRows

variable {env : Env} {objects objects' : Objects} {user : User} {uid : Uid} {c : Call}
variable {t t' : StoredTournament}

/-! ### The uid of the row -/

theorem uid_eventRow {i : EventInput} {doc : Tournament}
    (h : acceptEvent env.random t.toEngine i = .ok doc) : (eventRow env t doc).uid = t.uid := by
  have hdoc : doc.uid = t.toEngine.uid := uid_of_accept h
  have hrow : (eventRow env t doc).doc.uid = t.doc.uid := by
    unfold eventRow
    split
    · exact hdoc
    · rw [uid_stampFinish]
      exact hdoc
  rw [StoredTournament.uid, hrow, StoredTournament.uid]

theorem bulkPass_invariant {store : Store} {request : BulkRegisterRequest} {P : Tournament → Prop}
    (hstep : ∀ d d' i, (∃ u veknId, i.event = .addPlayer u veknId none true) ∨
        (∃ u, i.event = .setPaymentStatus u "Paid") → P d →
      acceptEvent env.random d i = .ok d' → P d') (h : P t.toEngine) :
    P (bulkPass env store user uid request t).doc := by
  refine List.foldlRecOn (matchedRows store request.rows) _
    (motive := fun pass : BulkPass => P pass.doc) h fun pass hpass m _ => ?_
  unfold registerRow
  split
  · exact hpass
  · split
    · exact hpass
    · rename_i added hadded
      have hP : P added := hstep _ _ _ (.inl ⟨_, _, rfl⟩) hpass hadded
      split
      · exact hP
      · split
        · exact hP
        · rename_i settled hsettled
          exact hstep _ _ _ (.inr ⟨_, rfl⟩) hP hsettled

theorem uid_bulkPass {store : Store} {request : BulkRegisterRequest} :
    (bulkPass env store user uid request t).doc.uid = t.doc.uid :=
  bulkPass_invariant (P := fun d => d.uid = t.doc.uid)
    (fun _ _ _ _ hd haccept => (uid_of_accept haccept).trans hd) rfl

/-! ### The row after each request -/

theorem spares_row (h : WellKeyed objects) (ht : objects.tournament? uid = some t)
    (hu : t'.uid = t.uid) (hspares : Spares (saveRow objects t') objects') :
    WellKeyed objects' ∧ objects'.tournament? uid = some t' :=
  ⟨hspares.keyed, (hspares.tournaments uid).trans (tournament?_saveRow_of h ht hu)⟩

theorem fresh_saveRow (hfresh : env.Fresh objects uid) (h : WellKeyed objects)
    (ht : objects.tournament? uid = some t) (hu : t'.uid = t.uid) (k : ℕ) :
    (saveRow objects t').lookup (env.freshUid k) = none := by
  have huid : t.uid = uid := h.uid_eq (tournament?_eq_some.1 ht)
  have hne : env.freshUid k ≠ t'.uid := fun heq => (hfresh k).2 (by rw [heq, hu, huid])
  exact (lookup_saveObject_ne hne).trans (hfresh k).1

theorem row_of_tournamentAction (h : WellKeyed objects) (hfresh : env.Fresh objects uid)
    (ht : objects.tournament? uid = some t) {oauthTournament : Option Uid}
    {event : TournamentEvent}
    (hserve : tournamentAction env objects user uid oauthTournament event = .ok objects') :
    WellKeyed objects' ∧ ∃ t', objects'.tournament? uid = some t' ∧
      RowAfter env objects user uid t (.action oauthTournament event) t' := by
  obtain ⟨t₀, ht₀, hlock, placed, identified, actor, updated, ops, hplaced, hidentified, hevent,
    rfl⟩ := tournamentAction_eq_ok hserve
  obtain rfl : t₀ = t := Option.some.inj (ht₀.symm.trans ht)
  obtain ⟨doc, haccept, hupdated⟩ := processEvent_eq_ok hevent
  have hu : updated.uid = t₀.uid := by
    rw [hupdated]
    exact uid_eventRow haccept
  have hspares := @spares_afterEvent env (saveRow objects updated) t₀ updated event ops
    (wellKeyed_saveRow h updated) (fresh_saveRow hfresh h ht hu)
  obtain ⟨hkeyed, hrow⟩ := spares_row h ht hu hspares
  exact ⟨hkeyed, updated, hrow, hlock, placed, identified, actor, doc, hplaced, hidentified,
    haccept, hupdated⟩

theorem row_of_imported (h : WellKeyed objects) (ht : objects.tournament? uid = some t)
    (results : ArchonResults) (users : List Uid) (category : RatingCategory) :
    let objects' := recomputeWins env (recomputeRatingsForPlayers env
      (withdrawPrivateDecks env (saveRow objects (importedRow env t results)) uid) users category)
      users
    WellKeyed objects' ∧ objects'.tournament? uid = some (importedRow env t results) := by
  have hsaved : WellKeyed (saveRow objects (importedRow env t results)) := wellKeyed_saveRow h _
  have hwithdrawn := @spares_withdrawPrivateDecks env _ uid hsaved
  have hspares := hwithdrawn.trans
    (@spares_recomputePlayers env _ hwithdrawn.keyed users category)
  exact spares_row h ht rfl hspares

theorem row_of_archonImport (h : WellKeyed objects) (ht : objects.tournament? uid = some t)
    {results : ArchonResults} (hserve : archonImport env objects user uid results = .ok objects') :
    WellKeyed objects' ∧ objects'.tournament? uid = some (importedRow env t results) := by
  obtain ⟨t₀, ht₀, -, rfl⟩ := archonImport_eq_ok hserve
  obtain rfl : t₀ = t := Option.some.inj (ht₀.symm.trans ht)
  exact row_of_imported h ht results _ _

theorem tournament?_saveSanction {s : StoredSanction} (ht : objects.tournament? uid = some t)
    (hs : s.uid ≠ uid) : (saveSanction objects s).tournament? uid = some t := by
  rw [← ht]
  exact tournament?_congr (lookup_saveObject_ne hs.symm)

theorem ne_of_sanction? {s : StoredSanction} {k : Uid} (h : WellKeyed objects)
    (ht : objects.tournament? uid = some t) (hs : objects.sanction? k = some s) : s.uid ≠ uid := by
  have hk : s.uid = k := h.uid_eq (sanction?_eq_some.1 hs)
  rintro rfl
  rw [sanction?_eq_some, ← hk, tournament?_eq_some.1 ht] at hs
  cases hs

theorem row_of_softDelete (h : WellKeyed objects) (ht : objects.tournament? uid = some t) :
    WellKeyed (softDeleteTournament env objects uid t) ∧
      (softDeleteTournament env objects uid t).tournament? uid =
        some { t.touched env.now with deletedAt := some env.now } := by
  unfold softDeleteTournament
  extract_lets _ saved decked
  have hsaved : WellKeyed saved ∧ saved.tournament? uid =
      some { t.touched env.now with deletedAt := some env.now } :=
    ⟨wellKeyed_saveTournament h _, tournament?_saveTournament_of h ht rfl⟩
  have hdecked : WellKeyed decked ∧ decked.tournament? uid =
      some { t.touched env.now with deletedAt := some env.now } := by
    refine List.foldlRecOn (getDecksForTournament saved uid) _
      (motive := fun table : Objects => WellKeyed table ∧ table.tournament? uid =
        some { t.touched env.now with deletedAt := some env.now }) hsaved
          fun table htable d hd => ?_
    have hne : d.uid ≠ uid := ne_of_isDeckOf hsaved.2 (isDeckOf_of_mem hsaved.1 hd)
    refine ⟨wellKeyed_saveDeck htable.1 _, ?_⟩
    rw [← htable.2]
    exact tournament?_congr (lookup_saveObject_ne hne.symm)
  refine List.foldlRecOn (getSanctionsForTournament decked uid) _
    (motive := fun table : Objects => WellKeyed table ∧ table.tournament? uid =
      some { t.touched env.now with deletedAt := some env.now }) hdecked fun table htable s hs => ?_
  have hne : s.uid ≠ uid :=
    ne_of_sanction? hdecked.1 hdecked.2 ((mem_sanctions hdecked.1).1 (List.mem_of_mem_filter hs))
  refine ⟨wellKeyed_saveSanction htable.1 _, ?_⟩
  rw [← htable.2]
  exact tournament?_congr (lookup_saveObject_ne hne.symm)

theorem row_of_deleteTournament (h : WellKeyed objects) (ht : objects.tournament? uid = some t)
    (hserve : deleteTournament env objects user uid = .ok objects') :
    WellKeyed objects' ∧ ∃ t', objects'.tournament? uid = some t' ∧
      RowAfter env objects user uid t .deleteTournament t' := by
  obtain ⟨t₀, ht₀, -, hlock, rfl⟩ := deleteTournament_eq_ok hserve
  obtain rfl : t₀ = t := Option.some.inj (ht₀.symm.trans ht)
  obtain ⟨hkeyed, hrow⟩ := row_of_softDelete h ht
  split
  · have hspares := @spares_recomputePlayers env _ hkeyed (playerUids t₀.doc)
      (ratingCategory t₀.doc)
    exact ⟨hspares.keyed, _, (hspares.tournaments uid).trans hrow, hlock, rfl⟩
  · exact ⟨hkeyed, _, hrow, hlock, rfl⟩

theorem row_of_reflectOn {saved : Objects} {change : Option SanctionChange}
    (h : WellKeyed saved) (ht : saved.tournament? uid = some t) :
    WellKeyed (reflectOn env saved uid change) ∧
      ∃ t', (reflectOn env saved uid change).tournament? uid = some t' ∧
        ReflectedAs env saved uid t change t' := by
  cases change with
  | none => exact ⟨h, t, ht, .inl ⟨rfl, by simp⟩⟩
  | some ch =>
    rcases @spares_reflectSanction env saved uid t ch h ht with ⟨heq, hnothing⟩ | hspares
    · rw [reflectOn, heq]
      exact ⟨h, t, ht, .inl ⟨rfl, by simpa using hnothing⟩⟩
    · refine ⟨hspares.keyed, _, ?_, .inr ⟨ch, rfl, rfl⟩⟩
      exact (hspares.tournaments uid).trans
        (tournament?_saveTournament_of h ht (uid_reflectedRow env saved uid t ch))

theorem sanction?_reflectOn {saved : Objects} {change : Option SanctionChange}
    (h : WellKeyed saved) (ht : saved.tournament? uid = some t) (k : Uid) :
    (reflectOn env saved uid change).sanction? k = saved.sanction? k := by
  cases change with
  | none => rfl
  | some ch =>
    rw [reflectOn]
    rcases @spares_reflectSanction env saved uid t ch h ht with ⟨heq, -⟩ | hspares
    · rw [heq]
    · have huid : (reflectedRow env saved uid t ch).uid = uid :=
        (uid_reflectedRow env saved uid t ch).trans (h.uid_eq (tournament?_eq_some.1 ht))
      exact (hspares.sanctions k).trans (sanction?_saveObject (huid.symm ▸ ht) k)

theorem row_of_goOnline {store : Store} {request : GoOnlineRequest} {summary : GoOnlineSummary}
    (h : WellKeyed store.objects) (hfresh : env.Fresh store.objects uid)
    (ht : store.objects.tournament? uid = some t) (havoids : request.Avoids uid)
    (hserve : goOnline env store user uid request = (objects', .ok summary)) :
    WellKeyed objects' ∧ ∃ t', objects'.tournament? uid = some t' ∧
      RowAfter env store.objects user uid t (.goOnline request) t' := by
  obtain ⟨hlock, mid, updated, hok, rfl⟩ := goOnline_eq_ok hserve
  have hr : (onlineResolution env store user uid request).Sound store.objects _ :=
    Resolution.sound_of_resolve h (fun k => (hfresh k).1) _ _ _
  obtain ⟨-, hrow, hmid⟩ := tournament?_reconcile hr havoids hok
  obtain ⟨row, hrecomputed, hspares⟩ := @spares_afterOnline env mid uid request updated hmid hrow
  have hbrought := (reconcile_eq_ok.1 hok).2.2.1
  rw [hr.tournament? ht] at hbrought
  have hoffline : t.lock.offlineMode = true := by
    have hchecked := hlock t ht
    rw [checkLock, ensure_bind_eq_ok, ensure_bind_eq_ok] at hchecked
    exact hchecked.2.1
  refine ⟨hspares.keyed, row, ?_, hoffline, _, updated, hr, hbrought, hrecomputed⟩
  rw [hspares.tournaments uid]
  refine tournament?_saveTournament_of hmid hrow ?_
  rcases hrecomputed with rfl | ⟨sanctions, rfl⟩
  · rfl
  · have hdoc := uid_applySanction updated.toEngine sanctions .adjust
    exact congrArg (fun u : Option Uid => u.getD "") hdoc

theorem row_of_serve (h : WellKeyed objects) (hfresh : c.env.Fresh objects uid)
    (ht : objects.tournament? uid = some t) (hconcerns : c.Concerns objects uid)
    (havoids : c.request.Avoids uid) (hserve : serve objects c = .ok objects') :
    WellKeyed objects' ∧ ∃ t', objects'.tournament? uid = some t' ∧
      RowAfter c.env objects c.user uid t c.request t' := by
  obtain ⟨env, authMethods, user, path, request⟩ := c
  cases request with
  | action oauthTournament event =>
    obtain rfl : path = uid := hconcerns
    exact row_of_tournamentAction h hfresh ht hserve
  | addOrganizer organizerUid =>
    obtain rfl : path = uid := hconcerns
    obtain ⟨t₀, ht₀, -, rfl⟩ := addOrganizer_eq_ok hserve
    obtain rfl : t₀ = t := Option.some.inj (ht₀.symm.trans ht)
    by_cases hmem : organizerUid ∈ t₀.doc.organizersUids
    · rw [if_pos hmem]
      exact ⟨h, t₀, ht, (if_pos hmem).symm⟩
    · rw [if_neg hmem]
      exact ⟨wellKeyed_saveTournament h _, _, tournament?_saveTournament_of h ht rfl,
        (if_neg hmem).symm⟩
  | removeOrganizer organizerUid =>
    obtain rfl : path = uid := hconcerns
    obtain ⟨t₀, ht₀, -, rfl⟩ := removeOrganizer_eq_ok hserve
    obtain rfl : t₀ = t := Option.some.inj (ht₀.symm.trans ht)
    by_cases hmem : organizerUid ∈ t₀.doc.organizersUids
    · rw [if_pos hmem]
      exact ⟨wellKeyed_saveTournament h _, _, tournament?_saveTournament_of h ht rfl,
        (if_pos hmem).symm⟩
    · rw [if_neg hmem]
      exact ⟨h, t₀, ht, (if_neg hmem).symm⟩
  | uploadBanner image =>
    obtain rfl : path = uid := hconcerns
    obtain ⟨t₀, ht₀, -, hlock, rfl⟩ := uploadBanner_eq_ok hserve
    obtain rfl : t₀ = t := Option.some.inj (ht₀.symm.trans ht)
    exact ⟨wellKeyed_saveTournament h _, _, tournament?_saveTournament_of h ht rfl, hlock, rfl⟩
  | deleteBanner deleted =>
    obtain rfl : path = uid := hconcerns
    obtain ⟨t₀, ht₀, -, hlock, rfl⟩ := deleteBanner_eq_ok hserve
    obtain rfl : t₀ = t := Option.some.inj (ht₀.symm.trans ht)
    by_cases hnone : t₀.owned.bannerPath = none
    · rw [if_pos hnone]
      exact ⟨h, t₀, ht, hlock, (if_pos hnone).symm⟩
    · rw [if_neg hnone]
      exact ⟨wellKeyed_saveTournament h _, _, tournament?_saveTournament_of h ht rfl,
        hlock, (if_neg hnone).symm⟩
  | postAnnouncement id body =>
    obtain rfl : path = uid := hconcerns
    obtain ⟨t₀, announcements, ht₀, -, hlock, rfl⟩ := postAnnouncement_eq_ok hserve
    obtain rfl : t₀ = t := Option.some.inj (ht₀.symm.trans ht)
    exact ⟨wellKeyed_saveRow h _, _, tournament?_saveRow_of h ht rfl, hlock, announcements, rfl⟩
  | deleteAnnouncement id =>
    obtain rfl : path = uid := hconcerns
    obtain ⟨t₀, announcements, ht₀, -, hlock, rfl⟩ := deleteAnnouncement_eq_ok hserve
    obtain rfl : t₀ = t := Option.some.inj (ht₀.symm.trans ht)
    exact ⟨wellKeyed_saveRow h _, _, tournament?_saveRow_of h ht rfl, hlock, announcements, rfl⟩
  | saveTimer =>
    obtain rfl : path = uid := hconcerns
    obtain ⟨t₀, ht₀, -, hlock, rfl⟩ := saveTimer_eq_ok hserve
    obtain rfl : t₀ = t := Option.some.inj (ht₀.symm.trans ht)
    exact ⟨wellKeyed_saveRow h _, _, tournament?_saveRow_of h ht rfl, hlock, rfl⟩
  | bulkRegister request =>
    obtain rfl : path = uid := hconcerns
    obtain ⟨t₀, ht₀, -, -, rfl⟩ := bulkRegister_eq_ok hserve
    obtain rfl : t₀ = t := Option.some.inj (ht₀.symm.trans ht)
    have huid := @uid_bulkPass env user path t₀ ⟨objects, authMethods⟩ request
    have hrow := congrArg (fun u : Option Uid => u.getD "") huid
    exact ⟨wellKeyed_saveRow h _, _, tournament?_saveRow_of h ht hrow, authMethods, rfl⟩
  | archonImport results =>
    obtain rfl : path = uid := hconcerns
    obtain ⟨hkeyed, hrow⟩ := row_of_archonImport h ht hserve
    exact ⟨hkeyed, _, hrow, rfl⟩
  | deleteTournament =>
    obtain rfl : path = uid := hconcerns
    exact row_of_deleteTournament h ht hserve
  | createSanction oauthTournament request =>
    have hof : request.tournamentUid = some uid := hconcerns
    obtain ⟨-, -, rfl⟩ := createSanction_eq_ok hserve
    rw [hof, Option.getD_some]
    have hne : (newSanction env user request).uid ≠ uid := (hfresh 0).2
    exact row_of_reflectOn (wellKeyed_saveSanction h _) (tournament?_saveSanction ht hne)
  | updateSanction sanctionUid request =>
    obtain ⟨s, hs, -, rfl⟩ := updateSanction_eq_ok hserve
    have hof : s.tournamentUid = some uid := hconcerns s hs
    rw [hof, Option.getD_some]
    have hne : s.uid ≠ uid := ne_of_sanction? h ht hs
    have hne' : (updatedSanction env user s request).uid ≠ uid := hne
    obtain ⟨hkeyed, t', hrow, hreflected⟩ := row_of_reflectOn
      (wellKeyed_saveSanction h _) (tournament?_saveSanction ht hne')
    exact ⟨hkeyed, t', hrow, s, hs, hreflected⟩
  | deleteSanction sanctionUid =>
    obtain ⟨s, hs, -, rfl⟩ := deleteSanction_eq_ok hserve
    have hof : s.tournamentUid = some uid := hconcerns s hs
    have huid : s.tournamentUid.getD "" = uid := congrArg (fun u : Option Uid => u.getD "") hof
    rw [huid]
    have hne : s.uid ≠ uid := ne_of_sanction? h ht hs
    have hsaved := tournament?_saveSanction
      (s := { s with modified := env.now, deletedAt := some env.now }) ht hne
    obtain ⟨hkeyed, t', hrow, hreflected⟩ := row_of_reflectOn (wellKeyed_saveSanction h _) hsaved
    exact ⟨hkeyed, t', hrow, s, hs, hreflected⟩
  | goOffline deviceId =>
    obtain rfl : path = uid := hconcerns
    obtain ⟨t₀, ht₀, -, hlock, rfl⟩ := goOffline_eq_ok.1 hserve
    obtain rfl : t₀ = t := Option.some.inj (ht₀.symm.trans ht)
    exact ⟨wellKeyed_saveRow h _, _, tournament?_saveRow_of h ht rfl, hlock, rfl⟩
  | forceTakeover deviceId =>
    obtain rfl : path = uid := hconcerns
    obtain ⟨t₀, ht₀, -, hlock, rfl⟩ := forceTakeover_eq_ok.1 hserve
    obtain rfl : t₀ = t := Option.some.inj (ht₀.symm.trans ht)
    exact ⟨wellKeyed_saveRow h _, _, tournament?_saveRow_of h ht rfl, hlock, rfl⟩
  | forceUnlock oauthClient =>
    obtain rfl : path = uid := hconcerns
    obtain ⟨-, -, t₀, ht₀, hlock, rfl⟩ := forceUnlock_eq_ok.1 hserve
    obtain rfl : t₀ = t := Option.some.inj (ht₀.symm.trans ht)
    exact ⟨wellKeyed_saveRow h _, _, tournament?_saveRow_of h ht rfl, hlock, rfl⟩
  | syncOffline deviceId payload =>
    obtain rfl : path = uid := hconcerns
    obtain ⟨hchecks, -, rfl⟩ := (syncOffline_eq_ok ht).1 hserve
    have huid : t.uid = path := h.uid_eq (tournament?_eq_some.1 ht)
    exact ⟨wellKeyed_saveRow h _, _, tournament?_saveRow_of h ht huid.symm, hchecks, rfl⟩
  | goOnline request =>
    obtain rfl : path = uid := hconcerns
    unfold serve at hserve
    dsimp only at hserve
    cases hresult : (goOnline env ⟨objects, authMethods⟩ user path request).2 with
    | error e =>
      rw [Call.store, hresult] at hserve
      cases hserve
    | ok summary =>
      rw [Call.store, hresult] at hserve
      obtain rfl := Except.ok.inj hserve
      exact row_of_goOnline h hfresh ht havoids (Prod.ext rfl hresult)

end RequestRows

end Archon.Backend

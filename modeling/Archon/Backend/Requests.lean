import Archon.Backend.ServerWrites
import Archon.Backend.TournamentRoutes

/-!
# Requests about a tournament

What the server is sent about one tournament, each with what it is handled in: the clock and the
other surroundings, the sign-ins, the member it comes from and the uid in its path.
-/

namespace Archon.Backend
open Engine Guards

inductive Request where
  | action (oauthTournament : Option Uid) (event : TournamentEvent)
  | addOrganizer (organizerUid : Uid)
  | removeOrganizer (organizerUid : Uid)
  | uploadBanner (path : String)
  | deleteBanner (deleted : Bool)
  | postAnnouncement (id body : String)
  | deleteAnnouncement (id : String)
  | saveTimer
  | bulkRegister (request : BulkRegisterRequest)
  | archonImport (results : ArchonResults)
  | deleteTournament
  | createSanction (oauthTournament : Option Uid) (request : CreateSanctionRequest)
  | updateSanction (sanctionUid : Uid) (request : UpdateSanctionRequest)
  | deleteSanction (sanctionUid : Uid)
  | goOffline (deviceId : String)
  | forceTakeover (deviceId : String)
  | forceUnlock (oauthClient : Option String)
  | syncOffline (deviceId : String) (payload : StoredTournament)
  | goOnline (request : GoOnlineRequest)

structure Call where
  env : Env
  authMethods : List AuthMethod
  user : User
  path : Uid
  request : Request

/-- The table a call is handled over, with the sign-ins. -/
def Call.store (c : Call) (objects : Objects) : Store := ⟨objects, c.authMethods⟩

/-- The table after an accepted request. -/
def serve (objects : Objects) (c : Call) : Except RouteError Objects :=
  match c.request with
  | .action oauthTournament event =>
    tournamentAction c.env objects c.user c.path oauthTournament event
  | .addOrganizer organizerUid => addOrganizer c.env objects c.user c.path organizerUid
  | .removeOrganizer organizerUid => removeOrganizer c.env objects c.user c.path organizerUid
  | .uploadBanner path => uploadBanner c.env objects c.user c.path path
  | .deleteBanner deleted => deleteBanner c.env objects c.user c.path deleted
  | .postAnnouncement id body => postAnnouncement c.env objects c.user c.path id body
  | .deleteAnnouncement id => deleteAnnouncement c.env objects c.user c.path id
  | .saveTimer => saveTimer c.env objects c.user c.path
  | .bulkRegister request => bulkRegister c.env (c.store objects) c.user c.path request
  | .archonImport results => archonImport c.env objects c.user c.path results
  | .deleteTournament => deleteTournament c.env objects c.user c.path
  | .createSanction oauthTournament request =>
    createSanction c.env objects c.user oauthTournament request
  | .updateSanction sanctionUid request => updateSanction c.env objects c.user sanctionUid request
  | .deleteSanction sanctionUid => deleteSanction c.env objects c.user sanctionUid
  | .goOffline deviceId => goOffline c.env objects c.user c.path deviceId
  | .forceTakeover deviceId => forceTakeover c.env objects c.user c.path deviceId
  | .forceUnlock oauthClient => forceUnlock c.env objects c.user oauthClient c.path
  | .syncOffline deviceId payload => syncOffline c.env objects c.user c.path deviceId payload
  | .goOnline request =>
    let r := goOnline c.env (c.store objects) c.user c.path request
    r.2.map fun _ => r.1

section Accepted

variable {env : Env} {store : Store} {objects objects' : Objects} {user : User} {uid : Uid}

/-! ### Accepted requests -/

theorem processEvent_eq_ok {t updated : StoredTournament} {event : TournamentEvent}
    {actor : ActorContext} {ops : List DeckOp}
    (h : processEvent env objects t event actor = .ok (updated, ops)) :
    ∃ doc, acceptEvent env.random t.toEngine
        ⟨event, actor, buildSanctions objects t.uid (playerUids t.doc),
          engineDecks objects t.uid⟩ = .ok doc ∧
      updated = if t.doc.state = .finished then env.localTimes (t.withDoc doc env.now)
        else stampFinish env (env.localTimes (t.withDoc doc env.now)) := by
  unfold processEvent at h
  extract_lets input at h
  split at h
  · cases h
  · rename_i doc ops' hdoc
    rw [Except.ok.injEq, Prod.mk.injEq] at h
    refine ⟨doc, ?_, h.1.symm⟩
    rw [acceptEvent, bind_eq_ok]
    exact ⟨_, hdoc, rfl⟩

theorem tournamentAction_eq_ok {oauthTournament : Option Uid} {event : TournamentEvent}
    (h : tournamentAction env objects user uid oauthTournament event = .ok objects') :
    ∃ t, objects.tournament? uid = some t ∧ t.lock.offlineMode = false ∧
      ∃ placed identified actor updated ops, placedEvent env t event = .ok placed ∧
        identifiedEvent objects placed = .ok identified ∧
        processEvent env objects t identified actor = .ok (updated, ops) ∧
        objects' = afterEvent env (saveRow objects updated) t updated event ops := by
  unfold tournamentAction at h
  rw [ensure_bind_eq_ok, okOr_bind_eq_ok] at h
  obtain ⟨-, t, ht, h⟩ := h
  rw [bind_eq_ok] at h
  obtain ⟨-, -, h⟩ := h
  rw [ensure_bind_eq_ok, bind_eq_ok] at h
  obtain ⟨hlock, placed, hplaced, h⟩ := h
  rw [bind_eq_ok] at h
  obtain ⟨identified, hidentified, h⟩ := h
  rw [ensure_bind_eq_ok] at h
  obtain ⟨-, h⟩ := h
  rw [bind_eq_ok] at h
  obtain ⟨r, hr, h⟩ := h
  rw [pure_eq_ok] at h
  exact ⟨t, ht, hlock, placed, identified, _, r.1, r.2, hplaced, hidentified, hr, h.symm⟩

theorem addOrganizer_eq_ok {organizerUid : Uid}
    (h : addOrganizer env objects user uid organizerUid = .ok objects') :
    ∃ t, objects.tournament? uid = some t ∧ isOrganizer user t = true ∧
      objects' = if organizerUid ∈ t.doc.organizersUids then objects
        else saveTournament objects
          ({ t with doc := { t.doc with
            organizersUids := t.doc.organizersUids ++ [organizerUid] } }.touched env.now) := by
  simp only [addOrganizer, okOr_bind_eq_ok, ensure_bind_eq_ok, pure_eq_ok] at h
  obtain ⟨t, ht, horganizer, -, hsaved⟩ := h
  exact ⟨t, ht, horganizer, hsaved.symm⟩

theorem removeOrganizer_eq_ok {organizerUid : Uid}
    (h : removeOrganizer env objects user uid organizerUid = .ok objects') :
    ∃ t, objects.tournament? uid = some t ∧ isOrganizer user t = true ∧
      objects' = if organizerUid ∈ t.doc.organizersUids then
          saveTournament objects
            ({ t with doc := { t.doc with
              organizersUids := t.doc.organizersUids.erase organizerUid } }.touched env.now)
        else objects := by
  simp only [removeOrganizer, okOr_bind_eq_ok, ensure_bind_eq_ok, pure_eq_ok] at h
  obtain ⟨t, ht, horganizer, -, hsaved⟩ := h
  exact ⟨t, ht, horganizer, hsaved.symm⟩

theorem uploadBanner_eq_ok {path : String} (h : uploadBanner env objects user uid path =
    .ok objects') :
    ∃ t, objects.tournament? uid = some t ∧ isOrganizer user t = true ∧
      t.lock.offlineMode = false ∧ objects' = saveTournament objects
        { t.touched env.now with owned := { t.owned with bannerPath := some path } } := by
  simp only [uploadBanner, okOr_bind_eq_ok, ensure_bind_eq_ok, pure_eq_ok] at h
  obtain ⟨t, ht, horganizer, hlock, hsaved⟩ := h
  exact ⟨t, ht, horganizer, hlock, hsaved.symm⟩

theorem deleteBanner_eq_ok {deleted : Bool}
    (h : deleteBanner env objects user uid deleted = .ok objects') :
    ∃ t, objects.tournament? uid = some t ∧ isOrganizer user t = true ∧
      t.lock.offlineMode = false ∧ objects' = if t.owned.bannerPath = none then objects
        else saveTournament objects
          { t.touched env.now with owned := { t.owned with bannerPath := none } } := by
  simp only [deleteBanner, okOr_bind_eq_ok, ensure_bind_eq_ok, pure_eq_ok] at h
  obtain ⟨t, ht, horganizer, hlock, -, hsaved⟩ := h
  exact ⟨t, ht, horganizer, hlock, hsaved.symm⟩

theorem postAnnouncement_eq_ok {id body : String}
    (h : postAnnouncement env objects user uid id body = .ok objects') :
    ∃ t announcements, objects.tournament? uid = some t ∧ isOrganizer user t = true ∧
      t.lock.offlineMode = false ∧
      objects' = saveRow objects { t.touched env.now with announcements } := by
  simp only [postAnnouncement, okOr_bind_eq_ok, ensure_bind_eq_ok, pure_eq_ok] at h
  obtain ⟨-, -, t, ht, horganizer, hlock, hsaved⟩ := h
  exact ⟨t, _, ht, horganizer, hlock, hsaved.symm⟩

theorem deleteAnnouncement_eq_ok {id : String}
    (h : deleteAnnouncement env objects user uid id = .ok objects') :
    ∃ t announcements, objects.tournament? uid = some t ∧ isOrganizer user t = true ∧
      t.lock.offlineMode = false ∧
      objects' = saveRow objects { t.touched env.now with announcements } := by
  simp only [deleteAnnouncement, okOr_bind_eq_ok, ensure_bind_eq_ok, pure_eq_ok] at h
  obtain ⟨t, ht, horganizer, hlock, -, hsaved⟩ := h
  exact ⟨t, _, ht, horganizer, hlock, hsaved.symm⟩

theorem saveTimer_eq_ok (h : saveTimer env objects user uid = .ok objects') :
    ∃ t, objects.tournament? uid = some t ∧ isOrganizer user t = true ∧
      t.lock.offlineMode = false ∧ objects' = saveRow objects (t.touched env.now) := by
  simp only [saveTimer, okOr_bind_eq_ok, ensure_bind_eq_ok, pure_eq_ok] at h
  obtain ⟨t, ht, horganizer, hlock, -, hsaved⟩ := h
  exact ⟨t, ht, horganizer, hlock, hsaved.symm⟩

/-- The members a bulk registration matched, each registered in turn. -/
def bulkPass (env : Env) (store : Store) (user : User) (uid : Uid) (request : BulkRegisterRequest)
    (t : StoredTournament) : BulkPass :=
  (matchedRows store request.rows).foldl (fun pass m =>
    registerRow env store.objects (buildActorContext env user t [])
      (buildSanctions store.objects uid ((matchedRows store request.rows).map fun m => m.1.uid))
      (engineDecks store.objects uid) pass m.1 (m.2.getD request.defaultPaid))
    ⟨t.toEngine, playerUids t.doc⟩

theorem bulkRegister_eq_ok {request : BulkRegisterRequest}
    (h : bulkRegister env store user uid request = .ok objects') :
    ∃ t, store.objects.tournament? uid = some t ∧ isOrganizer user t = true ∧
      t.doc.state = .registration ∧ objects' = saveRow store.objects
        { t with doc :=
          { (bulkPass env store user uid request t).doc with modified := some env.now } } := by
  simp only [bulkRegister, okOr_bind_eq_ok, ensure_bind_eq_ok, pure_eq_ok] at h
  obtain ⟨-, t, ht, horganizer, hstate, hsaved⟩ := h
  exact ⟨t, ht, horganizer, hstate, hsaved.symm⟩

/-- The row an import leaves. -/
def importedRow (env : Env) (t : StoredTournament) (results : ArchonResults) : StoredTournament :=
  { t with doc := { t.doc with
    state := .finished
    players := results.players
    rounds := results.rounds
    finals := results.finals
    winner := results.winner
    standings := results.standings
    modified := some env.now } }

theorem archonImport_eq_ok {results : ArchonResults}
    (h : archonImport env objects user uid results = .ok objects') :
    ∃ t, objects.tournament? uid = some t ∧ isOrganizer user t = true ∧
      objects' = recomputeWins env (recomputeRatingsForPlayers env
        (withdrawPrivateDecks env (saveRow objects (importedRow env t results)) uid)
        (playerUids (importedRow env t results).doc)
        (ratingCategory (importedRow env t results).doc))
        (playerUids (importedRow env t results).doc) := by
  simp only [archonImport, okOr_bind_eq_ok, ensure_bind_eq_ok, pure_eq_ok] at h
  obtain ⟨t, ht, horganizer, hsaved⟩ := h
  exact ⟨t, ht, horganizer, hsaved.symm⟩

theorem deleteTournament_eq_ok (h : deleteTournament env objects user uid = .ok objects') :
    ∃ t, objects.tournament? uid = some t ∧ isOrganizer user t = true ∧
      t.lock.offlineMode = false ∧
      objects' = if t.doc.state = .finished then
          recomputeWins env (recomputeRatingsForPlayers env
            (softDeleteTournament env objects uid t) (playerUids t.doc) (ratingCategory t.doc))
            (playerUids t.doc)
        else softDeleteTournament env objects uid t := by
  simp only [deleteTournament, okOr_bind_eq_ok, ensure_bind_eq_ok, pure_eq_ok] at h
  obtain ⟨t, ht, horganizer, hlock, -, hsaved⟩ := h
  exact ⟨t, ht, horganizer, hlock, hsaved.symm⟩

/-! ### Sanctions -/

/-- The reflection of a change, if there is one. -/
def reflectOn (env : Env) (objects : Objects) (tournamentUid : Uid) :
    Option SanctionChange → Objects
  | none => objects
  | some change => reflectSanction env objects tournamentUid change

/-- What a new sanction changes. -/
def CreateSanctionRequest.change (request : CreateSanctionRequest) : Option SanctionChange :=
  if request.level = .disqualification then some (.disqualify request.userUid)
  else if request.level = .standingsAdjustment then some .adjust
  else none

/-- What an edited sanction changes. -/
def updatedChange (s updated : StoredSanction) : Option SanctionChange :=
  if s.tournamentUid.getD "" = "" then none
  else if s.isActiveDq ≠ updated.isActiveDq then
    some (if updated.isActiveDq = true then .disqualify s.userUid else .restore s.userUid)
  else if updated.level = .standingsAdjustment ∨ s.level = .standingsAdjustment then some .adjust
  else none

/-- What a deleted sanction changes. -/
def StoredSanction.deletedChange (s : StoredSanction) : Option SanctionChange :=
  if s.tournamentUid.getD "" = "" ∨ s.liftedAt ≠ none then none
  else if s.level = .disqualification then some (.restore s.userUid)
  else if s.level = .standingsAdjustment then some .adjust
  else none

theorem createSanction_eq_ok {oauthTournament : Option Uid} {request : CreateSanctionRequest}
    (h : createSanction env objects user oauthTournament request = .ok objects') :
    (request.level ∈ tournamentLevels → request.tournamentUid.getD "" ≠ "") ∧
    (request.level = .disqualification →
      hasActiveDq objects (request.tournamentUid.getD "") request.userUid = false) ∧
    objects' = reflectOn env (saveSanction objects (newSanction env user request))
      (request.tournamentUid.getD "") request.change := by
  unfold createSanction at h
  rw [ensure_bind_eq_ok, bind_eq_ok] at h
  obtain ⟨-, ⟨⟩, hbinding, h⟩ := h
  rw [bind_eq_ok] at h
  obtain ⟨⟨⟩, -, h⟩ := h
  rw [ensure_bind_eq_ok, bind_eq_ok] at h
  obtain ⟨-, ⟨⟩, -, h⟩ := h
  rw [ensure_bind_eq_ok, ensure_bind_eq_ok, bind_eq_ok] at h
  obtain ⟨-, -, ⟨⟩, -, h⟩ := h
  rw [ensure_bind_eq_ok] at h
  obtain ⟨hnone, h⟩ := h
  have hbound : request.level ∈ tournamentLevels → request.tournamentUid.getD "" ≠ "" := by
    rw [validateBinding, ensure_bind_eq_ok] at hbinding
    exact hbinding.1
  refine ⟨hbound, hnone, ?_⟩
  rw [pure_eq_ok] at h
  rw [← h, CreateSanctionRequest.change]
  cases request.level <;> rfl

theorem updateSanction_eq_ok {request : UpdateSanctionRequest}
    (h : updateSanction env objects user uid request = .ok objects') :
    ∃ s, objects.sanction? uid = some s ∧
      ((updatedSanction env user s request).isActiveDq = true → s.isActiveDq = false →
        s.tournamentUid.getD "" ≠ "" →
        hasActiveDq objects (s.tournamentUid.getD "") s.userUid = false) ∧
      objects' = reflectOn env (saveSanction objects (updatedSanction env user s request))
        (s.tournamentUid.getD "") (updatedChange s (updatedSanction env user s request)) := by
  unfold updateSanction at h
  rw [okOr_bind_eq_ok] at h
  obtain ⟨s, hs, h⟩ := h
  extract_lets tournament updated tournamentUid saved checked bound at h
  rw [ensure_bind_eq_ok, ensure_bind_eq_ok] at h
  obtain ⟨-, -, h⟩ := h
  have hbound : bound () = .ok objects' := (check_if_eq_ok (r := bound ())).1 h |>.2
  have hchecked : checked () = .ok objects' := (check_if_eq_ok (r := checked ())).1 hbound |>.2
  dsimp only [checked] at hchecked
  rw [bind_eq_ok] at hchecked
  obtain ⟨⟨⟩, -, hchecked⟩ := hchecked
  rw [ensure_bind_eq_ok, ensure_bind_eq_ok, bind_eq_ok] at hchecked
  obtain ⟨-, -, ⟨⟩, -, hchecked⟩ := hchecked
  rw [ensure_bind_eq_ok, pure_eq_ok] at hchecked
  obtain ⟨hnone, hsaved⟩ := hchecked
  refine ⟨s, hs, hnone, hsaved.symm.trans ?_⟩
  unfold updatedChange
  dsimp only [tournamentUid, updated, saved]
  split_ifs <;> rfl

theorem deleteSanction_eq_ok (h : deleteSanction env objects user uid = .ok objects') :
    ∃ s, objects.sanction? uid = some s ∧ s.deletedAt = none ∧
      objects' = reflectOn env
        (saveSanction objects { s with modified := env.now, deletedAt := some env.now })
        (s.tournamentUid.getD "") s.deletedChange := by
  unfold deleteSanction at h
  rw [okOr_bind_eq_ok] at h
  obtain ⟨s, hs, h⟩ := h
  rw [ensure_bind_eq_ok, ensure_bind_eq_ok] at h
  obtain ⟨hlive, -, h⟩ := h
  rw [pure_eq_ok] at h
  refine ⟨s, hs, hlive, h.symm.trans ?_⟩
  unfold StoredSanction.deletedChange
  by_cases hnothing : s.tournamentUid.getD "" = "" ∨ s.liftedAt ≠ none
  · rw [if_pos hnothing, if_pos hnothing]
    rfl
  · rw [if_neg hnothing, if_neg hnothing]
    cases hlevel : s.level <;> rfl

end Accepted

end Archon.Backend

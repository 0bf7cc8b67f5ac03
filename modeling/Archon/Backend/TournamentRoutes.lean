import Archon.Backend.Offline

/-!
# The tournament routes (`routes/tournaments.py`, `archon_import.py`)

What an organizer or a player sends to an online tournament: the events of the engine, the list of
organizers, the banner and the announcements, registrations in bulk and an imported archon. All but
the organizer routes, the bulk registration and the import refuse a tournament that is offline. The
timer has routes of its own; no other route reads it.
-/

namespace Archon.Backend
open Engine Guards

/-! ### Handing an event to the engine -/

/-- `tournaments.py:162`: the tournament's sanctions, and the standing suspensions of the
players. -/
def buildSanctions (objects : Objects) (tournamentUid : Uid) (userUids : List Uid) :
    List Sanction :=
  let own := getSanctionsForTournament objects tournamentUid
  let suspensions := (getSanctionsForUsers objects userUids).filter fun s =>
    own.all (fun o => o.uid != s.uid) && s.deletedAt == none && s.liftedAt == none
      && s.level == .suspension
  (own ++ suspensions).map StoredSanction.toEngine

/-- `tournaments.py:283`. -/
def organizableLeagueUids (objects : Objects) (user : User) : List Uid :=
  if Role.ic ∈ user.roles then []
  else (objects.liveLeagues.filter (canLinkTournamentToLeague user)).map StoredLeague.uid

/-- `tournaments.py:270`. -/
def buildActorContext (env : Env) (user : User) (t : StoredTournament) (leagueUids : List Uid) :
    ActorContext :=
  ⟨user.uid, user.roles.map Role.asStr, isOrganizer user t, leagueUids, env.now⟩

/-- `tournaments.py:296`. -/
def playerBarred (env : Env) (objects : Objects) (playerUid : Uid) : Bool :=
  (getSanctionsForUsers objects [playerUid]).any fun s =>
    s.deletedAt == none && s.liftedAt == none && s.level == .suspension
      && s.expiresAt.all fun e => decide (env.now < e)

/-- The uids among the players. -/
def playerUids (t : Tournament) : List Uid :=
  (t.players.filterMap Player.userUid).filter fun uid => uid != ""

/-- The decks of a tournament as the engine is handed them. -/
def engineDecks (objects : Objects) (tournamentUid : Uid) : List DeckObject :=
  (getDecksForTournament objects tournamentUid).map StoredDeck.toDeckObject

/-- `tournaments.py:1248`. -/
def processEvent (env : Env) (objects : Objects) (t : StoredTournament) (event : TournamentEvent)
    (actor : ActorContext) : Except RouteError (StoredTournament × List DeckOp) :=
  let input : EventInput :=
    ⟨event, actor, buildSanctions objects t.uid (playerUids t.doc), engineDecks objects t.uid⟩
  match processTournamentEvent env.random t.toEngine input with
  | .error e => .error (.engine e)
  | .ok (doc, ops) =>
    let updated := env.localTimes (t.withDoc doc env.now)
    .ok (if t.doc.state = .finished then updated else stampFinish env updated, ops)

/-- `tournaments.py:110`: the actions that cannot change a rating. -/
def ratingIrrelevant : TournamentEvent → Bool
  | .upsertDeck .. | .deleteDeck .. | .setDeckAttribution .. | .setDeckPrivate .. | .viewDeck ..
  | .setPaymentStatus .. | .markAllPaid | .setWaitlisted .. | .setNonCompeting ..
  | .raffleDraw .. | .raffleUndo | .raffleClear | .reportPromos ..
  | .checkIn .. | .checkOut .. | .checkInAll | .resetCheckIn => true
  | _ => false

/-- The player a deck operation names. -/
def deckOpPlayer : DeckOp → Option Uid
  | .upsert uid .. => some uid
  | .delete uid .. => some uid
  | .setAttribution _ uid _ => some uid
  | _ => none

/-- `tournaments.py:1328`: the decks, then the ratings and wins the event may have moved. -/
def afterEvent (env : Env) (objects : Objects) (before after : StoredTournament)
    (event : TournamentEvent) (ops : List DeckOp) : Objects :=
  let wasFinished := before.doc.state == .finished
  let isFinished := after.doc.state == .finished
  let decked := processDeckOps env objects after.uid ops
  let withdrawn :=
    if isFinished && !wasFinished then withdrawPrivateDecks env decked after.uid else decked
  let players := playerUids after.doc
  let category := ratingCategory after.doc
  let rated :=
    if wasFinished != isFinished || (isFinished && !ratingIrrelevant event) then
      let won := recomputeWins env
        (recomputeRatingsForPlayers env withdrawn players category) players
      let old := ratingCategory before.doc
      if old = category then won else recomputeRatingsForPlayers env won players old
    else withdrawn
  let winners := [before.doc.winner, after.doc.winner].filter fun uid => uid != ""
  let moved := before.doc.winner != after.doc.winner
    || ops.any fun op => (deckOpPlayer op).any fun uid => decide (uid ∈ winners)
  if isFinished && wasFinished && moved then recomputeWins env rated winners else rated

/-! ### Actions -/

def isReopen : TournamentEvent → Bool
  | .reopenTournament => true
  | _ => false

/-- `tournaments.py:1462-1483`: the round cap of a pushed event, and what the VEKN accepts. -/
def checkRoundCap (env : Env) (t : StoredTournament) : TournamentEvent → Except RouteError Unit
  | .updateConfig c =>
    if c.hasKey .maxRounds then do
      let cap := (c.get .maxRounds).asUsize
      ensure ((t.externalId "vekn").getD "" = "" ∨ cap = (t.doc.config .maxRounds).asUsize)
        (.http 409 "max_rounds cannot be changed after tournament is pushed to VEKN")
      ensure (env.veknPush = true → (mergedValue t.doc c .openRounds).boolOrFalse = false →
          ∀ n ∈ cap, n = 0 ∨ (2 ≤ n ∧ n ≤ 4))
        (.http 400 "max_rounds must be 2, 3, or 4 when VEKN push is enabled")
    else .ok ()
  | _ => .ok ()

/-- `tournaments.py:1451`, `1491-1503`: the place a configuration edit is stored with. -/
def placedEvent (env : Env) (t : StoredTournament) : TournamentEvent →
    Except RouteError TournamentEvent
  | .updateConfig c => do
    let c ← okOr (env.patched t.doc.config c) (.http 422 "Invalid city for this country")
    pure (.updateConfig c)
  | event => .ok event

/-- The player an event registers or checks in. -/
def eventTarget : TournamentEvent → Option Uid
  | .register uid .. => some uid
  | .addPlayer uid .. => some uid
  | .checkIn uid .. => some uid
  | _ => none

def withVeknId (veknId : String) : TournamentEvent → TournamentEvent
  | .register uid _ name => .register uid (some veknId) name
  | .addPlayer uid _ name _ => .addPlayer uid (some veknId) name false
  | .checkIn uid _ name => .checkIn uid (some veknId) name
  | event => event

/-- `tournaments.py:1514-1527`: the VEKN id comes from the member alone. -/
def identifiedEvent (objects : Objects) (event : TournamentEvent) :
    Except RouteError TournamentEvent :=
  match eventTarget event with
  | none => .ok event
  | some uid => do
    ensure (uid ≠ "") (.engine (.internal "user_uid required"))
    let target ← okOr (objects.user? uid) (.http 404 "User not found")
    pure (withVeknId (target.veknId.getD "") event)

def isConfig : TournamentEvent → Bool
  | .updateConfig _ => true
  | _ => false

/-- `tournaments.py:1422`. -/
def tournamentAction (env : Env) (objects : Objects) (user : User) (uid : Uid)
    (oauthTournament : Option Uid) (event : TournamentEvent) : Except RouteError Objects := do
  ensure (isReopen event = true → oauthTournament = none)
    (.http 403 "A third-party token cannot reopen a finished tournament")
  let t ← okOr (objects.tournament? uid) (.http 404 "Tournament not found")
  checkRoundCap env t event
  ensure (t.lock.offlineMode = false)
    (.http 423 "Tournament is in offline mode on another device")
  let placed ← placedEvent env t event
  let identified ← identifiedEvent objects placed
  ensure (∀ target ∈ eventTarget event, playerBarred env objects target = false) .suspended
  let leagueUids := if isConfig event then organizableLeagueUids objects user else []
  let r ← processEvent env objects t identified (buildActorContext env user t leagueUids)
  pure (afterEvent env (saveRow objects r.1) t r.1 event r.2)

/-! ### Organizers, banner, announcements -/

/-- `tournaments.py:344`. -/
def addOrganizer (env : Env) (objects : Objects) (user : User) (uid organizerUid : Uid) :
    Except RouteError Objects := do
  let t ← okOr (objects.tournament? uid) (.http 404 "Tournament not found")
  ensure (isOrganizer user t = true) (.http 403 "Only organizers can manage organizers")
  ensure ((objects.user? organizerUid).any (fun u => u.veknId.getD "" != "") = true)
    (.http 400 "Organizer must be a VEKN member")
  pure (if organizerUid ∈ t.doc.organizersUids then objects
    else
      let added := { t.doc with organizersUids := t.doc.organizersUids ++ [organizerUid] }
      saveTournament objects ({ t with doc := added }.touched env.now))

/-- `tournaments.py:459`. -/
def removeOrganizer (env : Env) (objects : Objects) (user : User) (uid organizerUid : Uid) :
    Except RouteError Objects := do
  let t ← okOr (objects.tournament? uid) (.http 404 "Tournament not found")
  ensure (isOrganizer user t = true) (.http 403 "Only organizers can manage organizers")
  ensure (organizerUid ∈ t.doc.organizersUids → 1 < t.doc.organizersUids.length)
    (.http 400 "Cannot remove the last organizer")
  pure (if organizerUid ∈ t.doc.organizersUids then
      let removed := { t.doc with organizersUids := t.doc.organizersUids.erase organizerUid }
      saveTournament objects ({ t with doc := removed }.touched env.now)
    else objects)

/-- `tournaments.py:503`, past the checks on the image. -/
def uploadBanner (env : Env) (objects : Objects) (user : User) (uid : Uid) (path : String) :
    Except RouteError Objects := do
  let t ← okOr (objects.tournament? uid) (.http 404 "Tournament not found")
  ensure (isOrganizer user t = true) (.http 403 "Only organizers can set the banner")
  ensure (t.lock.offlineMode = false) (.http 423 "Tournament is in offline mode")
  pure (saveTournament objects
    { t.touched env.now with owned := { t.owned with bannerPath := some path } })

/-- `tournaments.py:571`. `deleted` says whether there was an image to delete. -/
def deleteBanner (env : Env) (objects : Objects) (user : User) (uid : Uid) (deleted : Bool) :
    Except RouteError Objects := do
  let t ← okOr (objects.tournament? uid) (.http 404 "Tournament not found")
  ensure (isOrganizer user t = true) (.http 403 "Only organizers can remove the banner")
  ensure (t.lock.offlineMode = false) (.http 423 "Tournament is in offline mode")
  ensure (t.owned.bannerPath = none → deleted = true) (.http 404 "Banner not found")
  pure (if t.owned.bannerPath = none then objects
    else saveTournament objects
      { t.touched env.now with owned := { t.owned with bannerPath := none } })

/-- `tournaments.py:1741`. -/
def maxAnnouncements : ℕ := 20

/-- `tournaments.py:1760`: the latest are kept. -/
def postAnnouncement (env : Env) (objects : Objects) (user : User) (uid : Uid) (id body : String) :
    Except RouteError Objects := do
  let text := body.trimAscii.toString
  ensure (text ≠ "") (.http 400 "Announcement is empty")
  ensure (text.length ≤ 280) (.http 400 "Max 280 characters")
  let t ← okOr (objects.tournament? uid) (.http 404 "Tournament not found")
  ensure (isOrganizer user t = true) (.http 403 "Organizer access required")
  ensure (t.lock.offlineMode = false) (.http 423 "Tournament is in offline mode")
  let all := t.announcements ++ [⟨id, text, env.now, user.uid, user.name⟩]
  pure (saveRow objects
    { t.touched env.now with announcements := all.drop (all.length - maxAnnouncements) })

/-- `tournaments.py:1805`. -/
def deleteAnnouncement (env : Env) (objects : Objects) (user : User) (uid : Uid) (id : String) :
    Except RouteError Objects := do
  let t ← okOr (objects.tournament? uid) (.http 404 "Tournament not found")
  ensure (isOrganizer user t = true) (.http 403 "Organizer access required")
  ensure (t.lock.offlineMode = false) (.http 423 "Tournament is in offline mode")
  let kept := t.announcements.filter fun a => a.id != id
  ensure (kept.length ≠ t.announcements.length) (.http 404 "Announcement not found")
  pure (saveRow objects { t.touched env.now with announcements := kept })

/-- `tournaments.py:1619-1640`, behind each timer route: the row saved with its timer changed. -/
def saveTimer (env : Env) (objects : Objects) (user : User) (uid : Uid) :
    Except RouteError Objects := do
  let t ← okOr (objects.tournament? uid) (.http 404 "Tournament not found")
  ensure (isOrganizer user t = true) (.http 403 "Organizer access required")
  ensure (t.lock.offlineMode = false) (.http 423 "Tournament is in offline mode")
  ensure (t.doc.state = .playing) (.http 400 "Tournament is not playing")
  pure (saveRow objects (t.touched env.now))

/-! ### Deletion -/

/-- `decks.py:200`: the tombstone of the tournament, of its decks and of its sanctions. -/
def softDeleteTournament (env : Env) (objects : Objects) (uid : Uid) (t : StoredTournament) :
    Objects :=
  let saved := saveTournament objects { t.touched env.now with deletedAt := some env.now }
  let decked := (getDecksForTournament saved uid).foldl (fun objects d =>
    saveDeck objects { d with deletedAt := some env.now, modified := env.now }) saved
  (getSanctionsForTournament decked uid).foldl (fun objects s =>
    saveSanction objects { s with deletedAt := some env.now, modified := env.now }) decked

/-- `tournaments.py:887`. -/
def deleteTournament (env : Env) (objects : Objects) (user : User) (uid : Uid) :
    Except RouteError Objects := do
  let t ← okOr (objects.tournament? uid) (.http 404 "Tournament not found")
  ensure (isOrganizer user t = true) (.http 403 "Only organizers can delete this tournament")
  ensure (t.lock.offlineMode = false)
    (.http 400 "Cannot delete a tournament locked for offline use; unlock it first")
  ensure (((t.externalId "vekn").getD "" = "" ∧ t.owned.veknPushedAt = none) ∨
      t.owned.veknEventAbsentAt ≠ none)
    (.http 400 "Cannot delete a tournament that has been pushed to VEKN")
  let deleted := softDeleteTournament env objects uid t
  let players := playerUids t.doc
  pure (if t.doc.state = .finished then
      recomputeWins env
        (recomputeRatingsForPlayers env deleted players (ratingCategory t.doc)) players
    else deleted)

/-! ### Registration in bulk -/

structure BulkRegisterRow where
  veknId : Option String
  email : Option String
  paid : Option Bool

structure BulkRegisterRequest where
  rows : List BulkRegisterRow
  defaultPaid : Bool

/-- A text a row carries, blanks aside. -/
def rowText (s : Option String) : Option String :=
  (s.map fun x => x.trimAscii.toString).filter fun x => x != ""

/-- `tournaments.py:1076-1082`. -/
def matchRow (store : Store) (row : BulkRegisterRow) : Option User :=
  ((rowText row.veknId).bind (getUserByVeknId store.objects)).or
    ((rowText row.email).bind fun _ =>
      getUserByEmail store.objects store.authMethods (row.email.getD ""))

/-- `tournaments.py:1073-1092`: the members the rows name, each once. -/
def matchedRows (store : Store) (rows : List BulkRegisterRow) : List (User × Option Bool) :=
  rows.foldl (fun matched row =>
    match matchRow store row with
    | some user =>
      if user.veknId.getD "" = "" ∨ user.uid ∈ matched.map (fun m => m.1.uid) then matched
      else matched ++ [(user, row.paid)]
    | none => matched) []

/-- The loop over the members: the document, and who is in. -/
structure BulkPass where
  doc : Tournament
  present : List Uid

/-- `tournaments.py:1119-1156`: the entry stays where the payment is refused. -/
def registerRow (env : Env) (objects : Objects) (actor : ActorContext) (sanctions : List Sanction)
    (decks : List DeckObject) (pass : BulkPass) (user : User) (paid : Bool) : BulkPass :=
  if user.uid ∈ pass.present ∨ playerBarred env objects user.uid = true then pass
  else
    match acceptEvent env.random pass.doc
      ⟨.addPlayer user.uid user.veknId none true, actor, sanctions, decks⟩ with
    | .error _ => pass
    | .ok added =>
      if paid = false then ⟨added, user.uid :: pass.present⟩
      else
        match acceptEvent env.random added
          ⟨.setPaymentStatus user.uid "Paid", actor, sanctions, decks⟩ with
        | .error _ => ⟨added, pass.present⟩
        | .ok settled => ⟨settled, user.uid :: pass.present⟩

/-- `tournaments.py:1046`. -/
def bulkRegister (env : Env) (store : Store) (user : User) (uid : Uid)
    (request : BulkRegisterRequest) : Except RouteError Objects := do
  ensure (request.rows.length ≤ 500) (.http 400 "Too many rows (max 500)")
  let t ← okOr (store.objects.tournament? uid) (.http 404 "Tournament not found")
  ensure (isOrganizer user t = true) (.http 403 "Only organizers can import registrations")
  ensure (t.doc.state = .registration) (.http 400 "Tournament must be in Registration state")
  let matched := matchedRows store request.rows
  let sanctions := buildSanctions store.objects uid (matched.map fun m => m.1.uid)
  let actor := buildActorContext env user t []
  let pass := matched.foldl (fun pass m =>
    registerRow env store.objects actor sanctions (engineDecks store.objects uid) pass m.1
      (m.2.getD request.defaultPaid)) ⟨t.toEngine, playerUids t.doc⟩
  pure (saveRow store.objects { t with doc := { pass.doc with modified := some env.now } })

/-! ### Imports -/

/-- What `apply_archon_import` builds from the spreadsheet. -/
structure ArchonResults where
  players : List Player
  rounds : List (List Table)
  finals : Option FinalsTable
  winner : Uid
  standings : List Standing

/-- `archon_import.py:518-556`, behind the gate of `tournaments.py:956`. -/
def archonImport (env : Env) (objects : Objects) (user : User) (uid : Uid)
    (results : ArchonResults) : Except RouteError Objects := do
  let t ← okOr (objects.tournament? uid) (.http 404 "Tournament not found")
  ensure (isOrganizer user t = true) (.http 403 "Only organizers can import")
  let imported : StoredTournament :=
    { t with doc := { t.doc with
        state := .finished
        players := results.players
        rounds := results.rounds
        finals := results.finals
        winner := results.winner
        standings := results.standings
        modified := some env.now } }
  let withdrawn := withdrawPrivateDecks env (saveRow objects imported) uid
  let players := playerUids imported.doc
  pure (recomputeWins env
    (recomputeRatingsForPlayers env withdrawn players (ratingCategory imported.doc)) players)

end Archon.Backend

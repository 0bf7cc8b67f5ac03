import Archon.Backend.Remap
import Archon.Backend.SanctionRoutes

/-!
# The offline routes (`routes/tournaments.py`)

A tournament goes offline on one device, which backs its copy up with sync-offline and brings it
online again with go-online; another device can take the lock over, and an IC can break it. The
submitted tournament is the client's payload once its keys are read, defaults filled in.
-/

namespace Archon.Backend
open Engine Guards

/-- The tables behind the routes. -/
structure Store where
  objects : Objects
  authMethods : List AuthMethod

/-! ### Taking and breaking the lock -/

/-- `tournaments.py:1890`. -/
def goOffline (env : Env) (objects : Objects) (user : User) (uid : Uid) (deviceId : String) :
    Except RouteError Objects := do
  let t ← okOr (objects.tournament? uid) (.http 404 "Tournament not found")
  ensure (canTakeTournamentOffline user t = true)
    (.http 403 "You don't have permission to take this tournament offline")
  ensure (t.lock.offlineMode = false) (.http 409 "Tournament is already in offline mode")
  pure (saveRow objects { t.touched env.now with lock := ⟨true, deviceId, user.uid, some env.now⟩ })

/-- `tournaments.py:2346`. -/
def forceTakeover (env : Env) (objects : Objects) (user : User) (uid : Uid) (deviceId : String) :
    Except RouteError Objects := do
  let t ← okOr (objects.tournament? uid) (.http 404 "Tournament not found")
  ensure (canTakeTournamentOffline user t = true)
    (.http 403 "You don't have permission to force-takeover this tournament")
  ensure (t.lock.offlineMode = true) (.http 400 "Tournament is not in offline mode")
  pure (saveRow objects
    { t.touched env.now with
      lock := { t.lock with offlineDeviceId := deviceId, offlineUserUid := user.uid } })

/-- `tournaments.py:2497`. `oauthClient` is the client of a token, which no first-party session
carries. -/
def forceUnlock (env : Env) (objects : Objects) (user : User) (oauthClient : Option String)
    (uid : Uid) : Except RouteError Objects := do
  ensure (oauthClient = none) (.http 403 "OAuth tokens cannot force-unlock tournaments")
  ensure (canForceUnlockTournament user = true) (.http 403 "Only IC can force-unlock tournaments")
  let t ← okOr (objects.tournament? uid) (.http 404 "Tournament not found")
  ensure (t.lock.offlineMode = true) (.http 400 "Tournament is not in offline mode")
  pure (saveRow objects { t.touched env.now with lock := .released })

/-! ### The submitted tournament -/

/-- `accounts.py:377`. -/
def anonymizedName : String := "Anonymized member"

/-- `accounts.py:377`: the copies of the name of an anonymized member. -/
def scrub (t : StoredTournament) (anonymized : Uid → Bool) : StoredTournament :=
  { t with
    doc := { t.doc with
      players := t.doc.players.map fun p =>
        if p.userUid.any anonymized && p.displayName.any (· != "") then
          { p with displayName := none }
        else p }
    announcements := t.announcements.map fun a =>
      if anonymized a.authorUid && a.authorName != anonymizedName then
        { a with authorName := anonymizedName }
      else a }

/-- `accounts.py:396`. -/
def scrubAnonymizedCopies (objects : Objects) (t : StoredTournament) : StoredTournament :=
  scrub t fun uid => (objects.user? uid).any fun u => u.anonymizedAt.isSome

/-- `tournaments.py:2029`: a tournament the server does not know yet. The engine's creation is run
for its rejections. -/
def gateOfflineCreatedInsert (objects : Objects) (user : User) (payload : StoredTournament) :
    Except RouteError Unit := do
  ensure (canCreateTournament user = true)
    (.http 403 "Only IC, NC, or Prince can create tournaments")
  ensure (user.uid ∈ payload.doc.organizersUids)
    (.http 403 "Caller is not an organizer of the submitted tournament")
  let leagueUid := payload.doc.text .leagueUid
  if leagueUid = "" then pure ()
  else do
    let league ← okOr (objects.league? leagueUid) (.http 400 "League not found")
    ensure (canLinkTournamentToLeague user league = true)
      (.http 403 "You don't have permission to attach tournaments to this league")
  match createTournament ⟨fun field => some (payload.doc.config field), "", ""⟩
      ⟨user.uid, user.roles.map Role.asStr, true, [], ""⟩ with
  | .ok _ => pure ()
  | .error e => .error (.engine e)

/-- The uid and the place are set before anything is read from the payload. -/
def pinned (env : Env) (uid : Uid) (payload : StoredTournament) : StoredTournament :=
  { payload with
    doc := { payload.doc with uid := some uid, config := env.placed payload.doc.config } }

/-- `data.tournament["uid"]` is given and is another uid. -/
def uidMismatch (uid : Uid) (payload : StoredTournament) : Bool :=
  payload.uid != "" && payload.uid != uid

/-! ### sync-offline -/

/-- `tournaments.py:2448-2473`: the lock and `twda_status` are kept from the row, the rest is the
snapshot. -/
def snapshotOver (env : Env) (stored : Option StoredTournament) (user : User) (deviceId : String)
    (payload : StoredTournament) : StoredTournament :=
  match stored with
  | some t =>
    { payload with
      lock := ⟨true, t.lock.offlineDeviceId, t.lock.offlineUserUid,
        t.lock.offlineSince.or payload.lock.offlineSince⟩
      owned := { payload.owned with twdaStatus := t.owned.twdaStatus } }
  | none =>
    { payload with lock := ⟨true, deviceId, user.uid, payload.lock.offlineSince.or (some env.now)⟩ }

/-- `tournaments.py:2400`. -/
def syncOffline (env : Env) (objects : Objects) (user : User) (uid : Uid) (deviceId : String)
    (payload : StoredTournament) : Except RouteError Objects := do
  match objects.tournament? uid with
  | some t => do
    ensure (t.lock.offlineMode = true) (.http 400 "Tournament is not in offline mode")
    ensure (isOrganizer user t = true) (.http 403 "Only organizers can sync an offline tournament")
    ensure (t.lock.offlineDeviceId = deviceId) (.http 409 "Device does not hold the offline lock")
  | none => gateOfflineCreatedInsert objects user payload
  ensure (uidMismatch uid payload = false) (.http 400 "Tournament UID mismatch")
  let updated := snapshotOver env (objects.tournament? uid) user deviceId (pinned env uid payload)
  pure (saveRow objects
    (scrubAnonymizedCopies objects (env.localTimes (updated.touched env.now))))

/-! ### Players met offline -/

structure OfflinePlayerData where
  tempUid : Uid
  name : String
  veknId : Option String
  email : Option String

/-- The loop over the players of the request: the table, the temporary uids and VEKN ids resolved,
how many accounts were minted. -/
structure Resolution where
  objects : Objects
  uidMap : List (Uid × Uid)
  veknRemap : List (String × String)
  accountsCreated : ℕ

/-- `player_data.email.strip().lower()`. -/
def OfflinePlayerData.address (p : OfflinePlayerData) : String :=
  p.email.elim "" fun e => lower e.trimAscii.toString

def isTemp (veknId : String) : Bool := veknId.startsWith "TEMP-"

/-- `tournaments.py:1968-1976`: the member the data names, by VEKN id, else by address. -/
def matchOfflinePlayer (objects : Objects) (authMethods : List AuthMethod)
    (p : OfflinePlayerData) : Option User :=
  let named := p.veknId.bind fun id =>
    if id = "" ∨ isTemp id = true then none else getUserByVeknId objects id
  named.or (if p.address = "" then none else getUserByEmail objects authMethods p.address)

/-- A member without a VEKN id, found by address, is coopted; one found by VEKN id has one. -/
def coopted (env : Env) (objects : Objects) (organizer : Uid) (u : User) : User :=
  if u.veknId.getD "" = "" then
    { u with
      veknId := some (allocateNextVeknId objects)
      cooptedBy := some organizer, cooptedAt := some env.now, modified := env.now }
  else u

/-- `tournaments.py:1994-2004`. -/
def mintedUser (env : Env) (objects : Objects) (created : ℕ) (country : Option String)
    (organizer : Uid) (p : OfflinePlayerData) : User where
  uid := env.freshUid created
  modified := env.now
  name := p.name
  country := country
  veknId := some (allocateNextVeknId objects)
  contactEmail := if p.address = "" then none else some p.address
  roles := []
  cooptedBy := some organizer
  cooptedAt := some env.now
  wins := []
  ratings := fun _ => none
  anonymizedAt := none
  deletedAt := none

/-- `tournaments.py:1956`, `2118-2129`: one step of the loop. -/
def resolveOfflinePlayer (env : Env) (authMethods : List AuthMethod) (country : Option String)
    (organizer : Uid) (r : Resolution) (p : OfflinePlayerData) : Resolution :=
  let remember (objects : Objects) (u : User) (created : ℕ) : Resolution :=
    { objects
      uidMap := (p.tempUid, u.uid) :: r.uidMap
      veknRemap := match p.veknId, u.veknId with
        | some temp, some real =>
          if isTemp temp = true ∧ real ≠ "" then (temp, real) :: r.veknRemap else r.veknRemap
        | _, _ => r.veknRemap
      accountsCreated := r.accountsCreated + created }
  match matchOfflinePlayer r.objects authMethods p with
  | some u =>
    let u' := coopted env r.objects organizer u
    remember (if u.veknId.getD "" = "" then saveUser r.objects u' else r.objects) u' 0
  | none =>
    let u := mintedUser env r.objects r.accountsCreated country organizer p
    remember (saveUser r.objects u) u 1

def resolveOfflinePlayers (env : Env) (store : Store) (country : Option String) (organizer : Uid)
    (players : List OfflinePlayerData) : Resolution :=
  players.foldl (resolveOfflinePlayer env store.authMethods country organizer)
    ⟨store.objects, [], [], 0⟩

/-- `uid_map.get(uid, uid)`. -/
def Resolution.uid (r : Resolution) (uid : Uid) : Uid := (r.uidMap.lookup uid).getD uid

/-! ### go-online -/

/-- A submitted deck: the keys it carries. -/
structure DeckSubmission where
  uid : Option Uid
  modified : Option Stamp
  tournamentUid : Option Uid
  userUid : Option Uid
  round : Option (Option ℕ)
  name : Option String
  comments : Option String
  cards : Option (List (String × ℕ))
  attribution : Option Attribution
  isPublic : Option Bool
  isWinner : Option Bool
  isPrivate : Option Bool
  views : List DeckView
  deletedAt : Option (Option Stamp)

structure GoOnlineRequest where
  deviceId : String
  tournament : StoredTournament
  offlinePlayers : List OfflinePlayerData
  offlineSanctions : List StoredSanction
  offlineDecks : List DeckSubmission
  force : Bool

/-- The outcome shown to the organizer. -/
structure GoOnlineSummary where
  playersMatched : ℕ
  accountsCreated : ℕ
  decksSynced : ℕ
  sanctionsSynced : ℕ
  deriving DecidableEq

/-- Read before the lock and again under it. -/
def checkLock (stored : StoredTournament) (user : User) (request : GoOnlineRequest) :
    Except RouteError Unit := do
  ensure (isOrganizer user stored = true)
    (.http 403 "Only organizers can bring a tournament online")
  ensure (stored.lock.offlineMode = true)
    (.http 410 "This tournament is no longer in offline mode")
  ensure (stored.lock.offlineDeviceId = request.deviceId ∨ request.force = true)
    (.http 409 "Tournament owned by another device. Use force to override.")

/-- `tournaments.py:2071-2116`, before any account is made. -/
def gateGoOnline (env : Env) (objects : Objects) (user : User) (uid : Uid)
    (request : GoOnlineRequest) : Except RouteError StoredTournament := do
  ensure (uidMismatch uid request.tournament = false) (.http 400 "Tournament UID mismatch")
  let payload := pinned env uid request.tournament
  match objects.tournament? uid with
  | some t => checkLock t user request
  | none => gateOfflineCreatedInsert objects user payload
  pure payload

/-- `tournaments.py:2131-2148`: two players that resolve to one member. -/
def duplicateParticipants (r : Resolution) (payload : StoredTournament) : Bool :=
  let uids := (payload.doc.players.filterMap Player.userUid).map r.uid
  uids.any fun u => u != "" && decide (1 < uids.count u)

/-- `tournaments.py:2173-2183`: the organizers of the row stay, and what the server owns is put
back from it. -/
def imposed (stored : Option StoredTournament) (payload : StoredTournament) : StoredTournament :=
  match stored with
  | some t =>
    { payload with
      doc := { payload.doc with
        organizersUids := (t.doc.organizersUids ++ payload.doc.organizersUids).eraseDups }
      owned := t.owned }
  | none => payload

/-- `tournaments.py:2197-2206`: the disqualifications issued offline. -/
def assertDisqualified (r : Resolution) (sanctions : List StoredSanction) (t : StoredTournament) :
    StoredTournament :=
  let active := (sanctions.filter fun s =>
    s.level == .disqualification && s.liftedAt == none && s.deletedAt == none).map fun s =>
      r.uid s.userUid
  { t with
    doc := { t.doc with
      players := t.doc.players.map fun p =>
        if p.userUid.any fun u => decide (u ∈ active) then p.withState .disqualified else p } }

/-- `tournaments.py:2209-2210`. -/
def stampFinish (env : Env) (t : StoredTournament) : StoredTournament :=
  if t.doc.state = .finished ∧ (t.doc.config .finish).isNull = true then
    { t with doc := { t.doc with
      config := Function.update t.doc.config .finish (.text env.wallClock) } }
  else t

/-- `tournaments.py:2212-2223`. -/
def markStale (stored : Option StoredTournament) (t : StoredTournament) : StoredTournament :=
  if stored.any fun old => old.owned.veknPushedAt.isSome && resultsDiffer old.doc t.doc then
    { t with owned := { t.owned with veknResultsStale := true } }
  else t

/-- `db.py:1217`: an id the event has elsewhere and no other event uses, else a minted code. -/
def resolveEventCode (env : Env) (objects : Objects) (t : StoredTournament) : String :=
  let taken (code : String) := objects.rows.any fun r =>
    r.2.object.asTournament.any fun other => lower other.owned.eventCode == lower code
  let candidates := [t.externalId "vekn", t.externalId "twda"].filterMap id
  (candidates.find? fun code => code != "" && !taken code).getD env.mintedCode

/-- `tournaments.py:2226-2227`. -/
def ensureEventCode (env : Env) (objects : Objects) (t : StoredTournament) : StoredTournament :=
  if t.owned.eventCode = "" then
    { t with owned := { t.owned with eventCode := resolveEventCode env objects t } }
  else t

/-- `tournaments.py:2173-2228`: the row that replaces the stored one. -/
def broughtOnline (env : Env) (r : Resolution) (request : GoOnlineRequest)
    (stored : Option StoredTournament) (payload : StoredTournament) :
    Except RouteError StoredTournament := do
  let remapped ← okOr (remapped? r.uid (imposed stored payload)) (.http 500 "ValidationError")
  let t := env.localTimes ({ remapped with lock := .released }.touched env.now)
  let t := stampFinish env (assertDisqualified r request.offlineSanctions t)
  let t := ensureEventCode env r.objects (markStale stored t)
  pure (scrubAnonymizedCopies r.objects t)

/-- `tournaments.py:2241-2249`: the submitted sanctions are saved under the uids they come with. -/
def saveOfflineSanctions (r : Resolution) (objects : Objects) (sanctions : List StoredSanction) :
    Objects :=
  sanctions.foldl (fun objects s => saveSanction objects { s with userUid := r.uid s.userUid })
    objects

/-- `tournaments.py:2272-2283`: a credit that names a temporary VEKN id follows the member it
resolved to, or is withheld. -/
def repointCredit (r : Resolution) (credit : Attribution) : Attribution :=
  if credit.kind = .member ∧ isTemp credit.veknId = true then
    match r.veknRemap.lookup credit.veknId with
    | some real => { credit with veknId := real }
    | none => ⟨.anonymous, "", ""⟩
  else credit

/-- `tournaments.py:2254-2271`: the submitted keys over the stored deck of that uid. A deck that
is not stored needs the keys without a default. -/
def submittedDeck (r : Resolution) (tournamentUid : Uid) (stored : Option StoredDeck)
    (sub : DeckSubmission) : Option StoredDeck := do
  let base := stored.getD (newDeck "" "" "" "")
  let uid ← sub.uid.or (stored.map fun d => d.uid)
  let modified ← sub.modified.or (stored.map StoredDeck.modified)
  let _ ← sub.tournamentUid.or (stored.map StoredDeck.tournamentUid)
  let userUid ← sub.userUid.or (stored.map fun d => d.userUid)
  let seen := base.views.map DeckView.userUid
  pure
    { uid, modified, tournamentUid
      userUid := r.uid userUid
      round := sub.round.getD base.round
      isPublic := sub.isPublic.getD base.isPublic
      isWinner := sub.isWinner.getD base.isWinner
      isPrivate := sub.isPrivate.getD base.isPrivate
      content := ⟨sub.name.getD base.content.name, sub.comments.getD base.content.comments,
        sub.cards.getD base.content.cards⟩
      attribution := repointCredit r (sub.attribution.getD base.attribution)
      views := base.views ++ sub.views.filter fun v => decide (v.userUid ∉ seen)
      deletedAt := sub.deletedAt.getD base.deletedAt }

/-- `tournaments.py:2250-2288`. -/
def saveOfflineDecks (r : Resolution) (tournamentUid : Uid) (objects : Objects)
    (submissions : List DeckSubmission) : Except RouteError Objects :=
  let stored := getDecksForTournament objects tournamentUid
  submissions.foldlM (fun objects sub => do
    let base := stored.find? fun d => some d.uid == sub.uid
    let deck ← okOr (submittedDeck r tournamentUid base sub) (.http 500 "ValidationError")
    pure (saveDeck objects deck)) objects

/-- `tournaments.py:2153-2288`: what one transaction does, all of it or nothing. -/
def reconcile (env : Env) (r : Resolution) (user : User) (uid : Uid) (request : GoOnlineRequest)
    (payload : StoredTournament) : Except RouteError (Objects × StoredTournament) := do
  ensure (duplicateParticipants r payload = false)
    (.http 409 "Offline sync would create duplicate participant(s)")
  let stored := r.objects.tournament? uid
  match stored with
  | some t => checkLock t user request
  | none => pure ()
  let updated ← broughtOnline env r request stored payload
  let objects := saveOfflineSanctions r (saveRow r.objects updated) request.offlineSanctions
  let objects ← saveOfflineDecks r uid objects request.offlineDecks
  pure (objects, updated)

/-- `tournaments.py:2290-2325`: after the commit, the private decks of a finished tournament, one
recompute over the saved sanctions, and the ratings and wins of the players. -/
def afterOnline (env : Env) (uid : Uid) (request : GoOnlineRequest) (objects : Objects)
    (updated : StoredTournament) : Objects :=
  let objects :=
    if updated.doc.state = .finished then withdrawPrivateDecks env objects updated.uid else objects
  let objects :=
    if request.offlineSanctions = [] then objects else reflectSanction env objects uid .adjust
  let row :=
    if request.offlineSanctions = [] then updated else (objects.tournament? uid).getD updated
  if row.doc.state = .finished then
    let players := (row.doc.players.filterMap Player.userUid).filter fun u => u != ""
    let objects := recomputeRatingsForPlayers env objects players (ratingCategory row.doc)
    recomputeWins env objects players
  else objects

/-- `tournaments.py:2057`: the accounts made for the players stay when the rest is refused. -/
def goOnline (env : Env) (store : Store) (user : User) (uid : Uid) (request : GoOnlineRequest) :
    Objects × Except RouteError GoOnlineSummary :=
  match gateGoOnline env store.objects user uid request with
  | .error e => (store.objects, .error e)
  | .ok payload =>
    let r := resolveOfflinePlayers env store payload.country user.uid request.offlinePlayers
    match reconcile env r user uid request payload with
    | .error e => (r.objects, .error e)
    | .ok (objects, updated) =>
      (afterOnline env uid request objects updated,
        .ok ⟨request.offlinePlayers.length - r.accountsCreated, r.accountsCreated,
          request.offlineDecks.length, request.offlineSanctions.length⟩)

end Archon.Backend

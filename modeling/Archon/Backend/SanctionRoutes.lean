import Archon.Backend.Sanctions
import Archon.Backend.Satellites

/-!
# The sanction routes over the table (`routes/sanctions.py`)

Creating, editing, lifting and deleting a sanction, and the reflection of a change on the row of
its tournament. Levels, categories and dates are read before a route decides anything: a request
that does not parse is refused.
-/

namespace Archon.Backend
open Engine Guards

/-- A refused request: the status and the detail, or the engine's rejection. -/
inductive RouteError where
  | http (status : ℕ) (detail : String)
  | engine (e : EngineError)
  | suspended
  deriving DecidableEq

/-- `sanctions.py:48`: the levels of the engine's reference. -/
def tournamentLevels : List SanctionLevel :=
  [.caution, .warning, .standingsAdjustment, .disqualification]

/-- `level.value`. -/
def levelValue : SanctionLevel → String
  | .caution => "caution"
  | .warning => "warning"
  | .standingsAdjustment => "standings_adjustment"
  | .disqualification => "disqualification"
  | .suspension => "suspension"
  | .probation => "probation"

/-! ### Reflection -/

/-- The live sanctions of a tournament as the engine is handed them. -/
def tournamentSanctions (objects : Objects) (tournamentUid : Uid) : List Sanction :=
  (getSanctionsForTournament objects tournamentUid).map StoredSanction.toEngine

/-- `sanctions.py:114`. -/
def hasActiveDq (objects : Objects) (tournamentUid userUid : Uid) : Bool :=
  (getSanctionsForTournament objects tournamentUid).any fun s =>
    s.userUid == userUid && s.level == .disqualification && s.liftedAt == none

/-- The row after the engine's document changed under it: `vekn_results_stale` is raised when the
results of a pushed tournament changed. -/
def StoredTournament.withDoc (t : StoredTournament) (doc : Tournament) (now : Stamp) :
    StoredTournament :=
  { t with
    doc := { doc with modified := some now }
    owned := { t.owned with
      veknResultsStale := t.owned.veknResultsStale
        || (t.owned.veknPushedAt.isSome && resultsDiffer t.doc doc) } }

/-- `sanctions.py:158`: the row, then the published decks and the wins that follow a new winner.
Without rounds and without an entry of the player nothing is saved. -/
def reflectSanction (env : Env) (objects : Objects) (tournamentUid : Uid)
    (change : SanctionChange) : Objects :=
  match objects.tournament? tournamentUid with
  | none => objects
  | some t =>
    let sanctions := tournamentSanctions objects tournamentUid
    let doc := applySanctionToTournament t.toEngine sanctions change
    let found := (change.target t.toEngine sanctions).any fun d => playerExists t.doc.players d.1
    if t.doc.rounds.isEmpty && !found then objects
    else
      let saved := saveTournament objects (t.withDoc doc env.now)
      let ops :=
        if t.doc.rounds.isEmpty ∨ doc.state ≠ .finished then []
        else recomputeDeckPublication doc
          ((getDecksForTournament objects tournamentUid).map StoredDeck.toDeckObject) []
      let decked := processDeckOps env saved tournamentUid ops
      if doc.state = .finished ∧ t.doc.winner ≠ doc.winner then
        recomputeWins env decked ([t.doc.winner, doc.winner].filter fun uid => uid != "")
      else decked

/-! ### Checks -/

/-- `sanctions.py:83`. -/
def validateBinding (level : SanctionLevel) (tournamentUid : Option Uid) :
    Except RouteError Unit := do
  ensure (level ∈ tournamentLevels → tournamentUid.getD "" ≠ "")
    (.http 400 ("A " ++ levelValue level ++ " must be issued against a tournament"))
  ensure (level ∉ tournamentLevels → tournamentUid.getD "" = "")
    (.http 400 ("A " ++ levelValue level ++ " is membership-level and takes no tournament"))

/-- `sanctions.py:96`. -/
def validateExpiry (env : Env) (level : SanctionLevel) (expiresAt : Option Stamp)
    (issuedAt : Stamp) : Except RouteError Unit := do
  ensure (level = .probation → expiresAt ≠ none)
    (.http 400 "PROBATION requires an expiry date (expires_at)")
  ensure (level = .probation → ∀ t ∈ expiresAt, t ≤ env.maxExpiry issuedAt)
    (.http 400 "PROBATION expires_at must be within 18 months")
  ensure (level = .suspension → ∀ t ∈ expiresAt, t ≤ env.maxExpiry issuedAt)
    (.http 400 "SUSPENSION expires_at must be within 18 months")

/-- `sanctions.py:333-347`, `515-529`: the number of rounds names the finals, once there are any. -/
def validateRound (objects : Objects) (tournamentUid : Option Uid) (roundNumber : Option ℕ) :
    Except RouteError Unit :=
  ensure (∀ r ∈ roundNumber, ∀ t ∈ tournamentUid.bind objects.tournament?,
      r ≤ t.doc.rounds.length ∧ (r = t.doc.rounds.length → t.doc.finals ≠ none))
    (.http 400 "round_number exceeds tournament rounds")

def subcategoryFits (category : SanctionCategory) (subcategory : Option SanctionSubcategory) :
    Except RouteError Unit :=
  ensure (∀ s ∈ subcategory, s ∈ subcategoriesByCategory category)
    (.http 400 "Subcategory not valid for category")

/-! ### Routes -/

structure CreateSanctionRequest where
  userUid : Uid
  level : SanctionLevel
  category : SanctionCategory
  subcategory : Option SanctionSubcategory
  roundNumber : Option ℕ
  description : String
  expiresAt : Option Stamp
  tournamentUid : Option Uid

/-- `sanctions.py:373-388`. -/
def newSanction (env : Env) (issuer : User) (request : CreateSanctionRequest) : StoredSanction where
  uid := env.freshUid 0
  modified := env.now
  userUid := request.userUid
  issuedByUid := issuer.uid
  tournamentUid := request.tournamentUid
  level := request.level
  category := request.category
  subcategory := request.subcategory
  roundNumber := request.roundNumber
  description := request.description
  issuedAt := env.now
  expiresAt := request.expiresAt
  liftedAt := none
  liftedByUid := none
  deletedAt := none

/-- `sanctions.py:272`. `oauthTournament` is the tournament a token was granted for. -/
def createSanction (env : Env) (objects : Objects) (user : User) (oauthTournament : Option Uid)
    (request : CreateSanctionRequest) : Except RouteError Objects := do
  ensure (∀ uid ∈ oauthTournament, request.tournamentUid = some uid)
    (.http 403 "This token acts only on the tournament it was granted for")
  validateBinding request.level request.tournamentUid
  subcategoryFits request.category request.subcategory
  ensure (request.level = .standingsAdjustment → request.roundNumber ≠ none)
    (.http 400 "round_number is required for standings_adjustment sanctions")
  validateRound objects request.tournamentUid request.roundNumber
  ensure (canIssueSanction user request.level
      (request.tournamentUid.bind objects.tournament?) = true)
    (.http 403 "You don't have permission to issue this type of sanction")
  ensure (objects.user? request.userUid ≠ none) (.http 404 "Target user not found")
  validateExpiry env request.level request.expiresAt env.now
  let tournamentUid := request.tournamentUid.getD ""
  ensure (request.level = .disqualification →
      hasActiveDq objects tournamentUid request.userUid = false)
    (.http 409 "Player already has an active disqualification in this tournament")
  let saved := saveSanction objects (newSanction env user request)
  pure (match request.level with
    | .disqualification => reflectSanction env saved tournamentUid (.disqualify request.userUid)
    | .standingsAdjustment => reflectSanction env saved tournamentUid .adjust
    | _ => saved)

structure UpdateSanctionRequest where
  level : Option SanctionLevel
  category : Option SanctionCategory
  subcategory : Option SanctionSubcategory
  roundNumber : Option ℕ
  description : Option String
  expiresAt : Option Stamp
  lifted : Option Bool
  deriving DecidableEq

def UpdateSanctionRequest.modifies (request : UpdateSanctionRequest) : Bool :=
  request.level.isSome || request.category.isSome || request.subcategory.isSome
    || request.roundNumber.isSome || request.description.isSome || request.expiresAt.isSome

/-- The sanction lifts with this request. -/
def UpdateSanctionRequest.lifts (request : UpdateSanctionRequest) (s : StoredSanction) : Bool :=
  request.lifted == some true && s.liftedAt == none

/-- `sanctions.py:560-572`. -/
def updatedSanction (env : Env) (user : User) (s : StoredSanction)
    (request : UpdateSanctionRequest) : StoredSanction :=
  { s with
    modified := env.now
    level := request.level.getD s.level
    category := request.category.getD s.category
    subcategory := request.subcategory.or s.subcategory
    roundNumber := request.roundNumber.or s.roundNumber
    description := (request.description.map String.trimAscii).elim s.description toString
    expiresAt := request.expiresAt.or s.expiresAt
    liftedAt := if request.lifts s then some env.now else s.liftedAt
    liftedByUid := if request.lifts s then some user.uid else s.liftedByUid }

/-- `sanctions.py:577-582`: deleted or not, a disqualification that is not lifted. -/
def StoredSanction.isActiveDq (s : StoredSanction) : Bool :=
  s.level == .disqualification && s.liftedAt == none

/-- `sanctions.py:413`. -/
def updateSanction (env : Env) (objects : Objects) (user : User) (uid : Uid)
    (request : UpdateSanctionRequest) : Except RouteError Objects := do
  let s ← okOr (objects.sanction? uid) (.http 404 "Sanction not found")
  let tournament := s.tournamentUid.bind objects.tournament?
  ensure (request.lifts s = true → canLiftSanction user s tournament = true)
    (.http 403 "You don't have permission to lift this sanction")
  ensure (request.modifies = true → canModifySanction user = true)
    (.http 403 "Only IC or Ethics can modify sanctions")
  let updated := updatedSanction env user s request
  if request.level.isSome then validateBinding updated.level s.tournamentUid else pure ()
  if request.subcategory.isSome then subcategoryFits updated.category request.subcategory
  else pure ()
  validateRound objects s.tournamentUid request.roundNumber
  ensure (updated.level = .standingsAdjustment → updated.roundNumber ≠ none)
    (.http 400 "round_number is required for standings_adjustment sanctions")
  ensure (request.description ≠ none → updated.description ≠ "")
    (.http 400 "Description cannot be empty")
  validateExpiry env updated.level updated.expiresAt s.issuedAt
  let tournamentUid := s.tournamentUid.getD ""
  ensure (updated.isActiveDq = true → s.isActiveDq = false → tournamentUid ≠ "" →
      hasActiveDq objects tournamentUid s.userUid = false)
    (.http 409 "Player already has an active disqualification in this tournament")
  let saved := saveSanction objects updated
  pure (if tournamentUid = "" then saved
    else if s.isActiveDq ≠ updated.isActiveDq then
      reflectSanction env saved tournamentUid
        (if updated.isActiveDq = true then .disqualify s.userUid else .restore s.userUid)
    else if updated.level = .standingsAdjustment ∨ s.level = .standingsAdjustment then
      reflectSanction env saved tournamentUid .adjust
    else saved)

/-- `sanctions.py:611`. -/
def deleteSanction (env : Env) (objects : Objects) (user : User) (uid : Uid) :
    Except RouteError Objects := do
  let s ← okOr (objects.sanction? uid) (.http 404 "Sanction not found")
  ensure (s.deletedAt = none) (.http 400 "Sanction already deleted")
  ensure (canDeleteSanction user s (s.tournamentUid.bind objects.tournament?) = true)
    (.http 403 "You don't have permission to delete this sanction")
  let saved := saveSanction objects { s with modified := env.now, deletedAt := some env.now }
  let tournamentUid := s.tournamentUid.getD ""
  pure (if tournamentUid = "" ∨ s.liftedAt ≠ none then saved
    else match s.level with
      | .disqualification => reflectSanction env saved tournamentUid (.restore s.userUid)
      | .standingsAdjustment => reflectSanction env saved tournamentUid .adjust
      | _ => saved)

end Archon.Backend

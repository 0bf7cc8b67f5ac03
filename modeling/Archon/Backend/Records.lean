import Archon.Engine.Process

/-!
# The stored objects (`backend/src/models.py`)

The rows of the objects table as the routes read and write them: members, sanctions, tournaments,
decks and leagues. A tournament row is the engine's document with what the backend keeps beside
it: the fields only the server writes, the offline lock and the announcements.
-/

namespace Archon.Backend
open Engine

/-- A datetime in ISO 8601, as `to_builtins` gives it. -/
abbrev Stamp := String

/-! ### Members -/

inductive Role where
  | ic | nc | prince | ethics | ptc | pt | rulemonger | judge | sheriff | dev
  deriving DecidableEq, Repr

/-- `permissions.rs:39`. -/
def Role.asStr : Role → String
  | ic => "IC"
  | nc => "NC"
  | prince => "Prince"
  | ethics => "Ethics"
  | ptc => "PTC"
  | pt => "PT"
  | rulemonger => "Rulemonger"
  | judge => "Judge"
  | sheriff => "Sheriff"
  | dev => "DEV"

inductive RatingCategory where
  | constructedOnline | constructedOffline | limitedOnline | limitedOffline
  deriving DecidableEq, Repr

/-- One rated result. -/
structure TournamentRatingEntry where
  tournamentUid : Uid
  tournamentName : String
  date : String
  playerCount : ℕ
  rank : String
  vp : ℚ
  gw : ℤ
  finalistPosition : ℕ
  points : ℤ
  position : ℕ
  deriving DecidableEq, Repr

structure CategoryRating where
  total : ℤ
  tournaments : List TournamentRatingEntry
  deriving DecidableEq, Repr

structure User where
  uid : Uid
  modified : Stamp
  name : String
  country : Option String
  veknId : Option String
  contactEmail : Option String
  roles : List Role
  cooptedBy : Option Uid
  cooptedAt : Option Stamp
  wins : List Uid
  ratings : RatingCategory → Option CategoryRating
  anonymizedAt : Option Stamp
  deletedAt : Option Stamp

/-- A sign-in, with the address it was opened under. -/
structure AuthMethod where
  userUid : Uid
  methodType : String
  identifier : String
  email : String
  deriving DecidableEq, Repr

/-! ### Sanctions -/

inductive SanctionCategory where
  | proceduralError | tournamentError | unsportsmanlikeConduct
  deriving DecidableEq, Repr

inductive SanctionSubcategory where
  | missedMandatoryEffect | cardAccessError | gameRuleViolation | failureToMaintainGameState
  | illegalDecklist | illegalMainDeckLegalDecklist | illegalMainDeckNoDecklist
  | outsideAssistance | slowPlay | limitedProcedureViolation | publicInfoMiscommunication
  | obscuringGameState | markedCards | insufficientShuffling
  | minor | major | aggressiveBehaviour | briberyAndWagering | theftOfTournamentMaterial
  | stalling | cheating | fraud | collusion | healthAndSafetyDisruption | rageQuitting
  | failureToPlayToWin
  deriving DecidableEq, Repr

/-- `models.py:98`, off the engine's reference (`sanctions.rs:11-110`). -/
def subcategoriesByCategory : SanctionCategory → List SanctionSubcategory
  | .proceduralError =>
    [.missedMandatoryEffect, .cardAccessError, .gameRuleViolation, .failureToMaintainGameState]
  | .tournamentError =>
    [.illegalDecklist, .illegalMainDeckLegalDecklist, .illegalMainDeckNoDecklist,
      .outsideAssistance, .slowPlay, .limitedProcedureViolation, .publicInfoMiscommunication,
      .obscuringGameState, .markedCards, .insufficientShuffling]
  | .unsportsmanlikeConduct =>
    [.minor, .major, .aggressiveBehaviour, .briberyAndWagering, .theftOfTournamentMaterial,
      .stalling, .cheating, .fraud, .collusion, .healthAndSafetyDisruption, .rageQuitting,
      .failureToPlayToWin]

structure StoredSanction where
  uid : Uid
  modified : Stamp
  userUid : Uid
  issuedByUid : Uid
  tournamentUid : Option Uid
  level : SanctionLevel
  category : SanctionCategory
  subcategory : Option SanctionSubcategory
  roundNumber : Option ℕ
  description : String
  issuedAt : Stamp
  expiresAt : Option Stamp
  liftedAt : Option Stamp
  liftedByUid : Option Uid
  deletedAt : Option Stamp
  deriving DecidableEq, Repr

/-- The sanction as the engine is handed it. -/
def StoredSanction.toEngine (s : StoredSanction) : Sanction :=
  ⟨s.userUid, s.level, s.roundNumber, s.liftedAt, s.deletedAt, s.expiresAt⟩

/-! ### Decks -/

structure DeckView where
  userUid : Uid
  round : ℕ
  deriving DecidableEq, Repr

structure StoredDeck extends Engine.DeckObject where
  modified : Stamp
  tournamentUid : Uid
  attribution : Attribution
  views : List DeckView
  deletedAt : Option Stamp
  deriving DecidableEq, Repr

/-! ### Tournaments -/

inductive TwdaOutcome where
  | submitted | skipped | failed
  deriving DecidableEq, Repr

structure TwdaStatus where
  outcome : TwdaOutcome
  reason : String
  prUrl : String
  at_ : Option Stamp
  deriving DecidableEq, Repr

/-- `tournaments.py:138`, `SERVER_OWNED_TOURNAMENT_FIELDS`. -/
structure ServerOwned where
  bannerPath : Option String
  externalIds : List (String × String)
  checkinCode : String
  eventCode : String
  veknPushedAt : Option Stamp
  veknResultsStale : Bool
  veknEventAbsentAt : Option Stamp
  twdaStatus : Option TwdaStatus
  deriving DecidableEq, Repr

/-- The device lock of an offline tournament (`models.py:958-966`). -/
structure OfflineLock where
  offlineMode : Bool
  offlineDeviceId : String
  offlineUserUid : Uid
  offlineSince : Option Stamp
  deriving DecidableEq, Repr

/-- Not offline, as every route that ends the lock writes it. -/
def OfflineLock.released : OfflineLock := ⟨false, "", "", none⟩

structure Announcement where
  id : String
  body : String
  createdAt : Stamp
  authorUid : Uid
  authorName : String
  deriving DecidableEq, Repr

structure StoredTournament where
  doc : Tournament
  owned : ServerOwned
  lock : OfflineLock
  announcements : List Announcement
  deletedAt : Option Stamp

namespace StoredTournament

/-- The uid the row is saved under. -/
def uid (t : StoredTournament) : Uid := t.doc.uid.getD ""

/-- `external_ids.get(system)`. -/
def externalId (t : StoredTournament) (system : String) : Option String :=
  t.owned.externalIds.lookup system

/-- The document as the engine is handed it. -/
def toEngine (t : StoredTournament) : Tournament :=
  { t.doc with externalIdsVekn := (t.externalId "vekn").getD "" }

def country (t : StoredTournament) : Option String := (t.doc.config .country).asStr

/-- `tournament.modified = now`. -/
def touched (t : StoredTournament) (now : Stamp) : StoredTournament :=
  { t with doc := { t.doc with modified := some now } }

end StoredTournament

/-- `tournaments.py:2212-2219`: winner, standings, finals or rounds differ. -/
def resultsDiffer (before after : Tournament) : Bool :=
  before.winner != after.winner || before.standings != after.standings
    || before.finals != after.finals || before.rounds != after.rounds

theorem resultsDiffer_self (t : Tournament) : resultsDiffer t t = false := by
  simp [resultsDiffer]

/-! ### Leagues -/

structure StoredLeague where
  uid : Uid
  country : Option String
  organizersUids : List Uid
  openToCountryPrinces : Bool
  deletedAt : Option Stamp
  deriving DecidableEq, Repr

end Archon.Backend

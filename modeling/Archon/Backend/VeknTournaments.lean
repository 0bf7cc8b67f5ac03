import Archon.Backend.ServerWrites

/-!
# The synchronisation of a linked tournament (`vekn_tournament_sync.py`)

The scan of the VEKN calendar meets an event a stored tournament is linked to, and refreshes the
row, rebuilds it or leaves it alone (`sync_all_tournaments`, under the lock of the row). What the
calendar says arrives mapped to the fields of a tournament, whatever it says; which city a name
stands for is read off the table of cities.
-/

namespace Archon.Backend
open Engine

/-- `models.py:177`. -/
structure TimerState where
  startedAt : Option Stamp
  elapsedBeforePause : ℚ
  paused : Bool
  deriving DecidableEq, Repr

def TimerState.initial : TimerState := ⟨none, 0, true⟩

/-- A tournament row with the clocks of its rounds. -/
structure TimedTournament extends StoredTournament where
  timer : TimerState
  tableExtraTime : List (String × ℕ)

/-- `vekn_tournament_sync.py:116`, an entry of the archive. -/
structure TwdaScore where
  id : String
  tournamentFormat : String
  score : String
  deriving DecidableEq, Repr

/-- The fields of a mapped event the rows take over (`_map_vekn_to_tournament`). -/
structure VeknTournament where
  format : String
  rank : String
  online : Bool
  start : Option Stamp
  country : Option String
  venue : String
  venueUrl : String
  address : String
  mapUrl : String
  proxies : Bool
  maxRounds : ℕ
  state : TournamentState
  organizersUids : List Uid
  players : List Player
  winner : Uid
  standings : List Standing
  finals : Option FinalsTable
  veknPushedAt : Option Stamp

/-- An event of the calendar. The map may read the score of the archive. -/
structure VeknEvent where
  eventId : String
  placeholderVenue : Bool
  city : String
  address : String
  mapped : VeknTournament
  mappedWith : TwdaScore → Option VeknTournament

def JsonValue.ofOption (s : Option String) : JsonValue := s.elim .null .text

namespace VeknTournament

/-- The configuration keys an event speaks for. -/
def config (e : VeknTournament) : ConfigField → Option JsonValue
  | .format => some (.text e.format)
  | .rank => some (.text e.rank)
  | .online => some (.boolean e.online)
  | .start => some (JsonValue.ofOption e.start)
  | .country => some (JsonValue.ofOption e.country)
  | .venue => some (.text e.venue)
  | .venueUrl => some (.text e.venueUrl)
  | .address => some (.text e.address)
  | .mapUrl => some (.text e.mapUrl)
  | .proxies => some (.boolean e.proxies)
  | .maxRounds => some (.number e.maxRounds)
  | _ => none

end VeknTournament

/-- The defaults of `Tournament` (`models.py:526-665`). -/
def configDefault : ConfigField → JsonValue
  | .name | .rank | .venue | .venueUrl | .address | .mapUrl | .registrationUrl | .description =>
    .text ""
  | .format => .text "Standard"
  | .timezone => .text "UTC"
  | .standingsMode => .text "Private"
  | .decklistsMode => .text "Winner"
  | .online | .proxies | .multideck | .decklistRequired | .openRounds | .selfOrganizedRounds
  | .continueRoomNumbering => .boolean false
  | .start | .finish | .country | .city | .cityGeonameId | .leagueUid => .null
  | .tableRooms => .array []
  | .firstTableNumber => .number 1
  | .maxRounds | .maxPlayers | .roundTime | .finalsTime => .number 0

/-- The city an event is found to be in, with its GeoNames id. -/
abbrev CityFill := Option (String × ℕ)

section Sync

variable (matchCity : String → String → String → CityFill)

/-- `vekn_tournament_sync.py:514`: a row is given a city once. -/
def cityFill (t : TimedTournament) (online : Bool) (country : Option String)
    (name address : String) : CityFill :=
  if t.doc.count .cityGeonameId ≠ 0 ∨ online = true ∨ country.getD "" = "" then none
  else if name.toList.all Char.isWhitespace = true then none
  else matchCity name (country.getD "") address

/-- `external_ids.get("twda_entry") or external_ids.get("twda")`. -/
def archiveKey (t : StoredTournament) : String :=
  (((t.externalId "twda_entry").filter (· ≠ "")).or (t.externalId "twda")).getD ""

/-- `vekn_tournament_sync.py:598`: the row comes from the archive, which does not answer. -/
def archiveHeld (t : StoredTournament) (twdaScores : Option (String → Option TwdaScore)) : Bool :=
  archiveKey t != "" && twdaScores.isNone

/-- `vekn_tournament_sync.py:599-623`: the event as it is compared with the row. A venue that
answers for no place leaves that of the row. -/
def incoming (t : StoredTournament) (event : VeknEvent)
    (twdaScores : Option (String → Option TwdaScore)) : VeknTournament :=
  let mapped := ((twdaScores.bind fun scores => scores (archiveKey t)).bind event.mappedWith).getD
    event.mapped
  let placed :=
    if event.placeholderVenue then
      { mapped with
        country := t.country
        venue := t.doc.text .venue
        venueUrl := t.doc.text .venueUrl
        address := t.doc.text .address
        mapUrl := t.doc.text .mapUrl }
    else mapped
  if (placed.country = none ∨ placed.country = some "XX") ∧ placed.online = false then
    { placed with country := t.country }
  else placed

/-- `dict.fromkeys(existing.organizers_uids + tournament.organizers_uids)`. -/
def mergedOrganizers (t : StoredTournament) (e : VeknTournament) : List Uid :=
  (t.doc.organizersUids ++ e.organizersUids).eraseDups

/-- `vekn_tournament_sync.py:644`: a planned number of rounds that was changed. -/
def roundsFill (t : StoredTournament) (e : VeknTournament) : Bool :=
  t.doc.rounds.isEmpty && t.doc.maxRounds != 0 && e.maxRounds != 0
    && t.doc.maxRounds != e.maxRounds

/-- The fields both branches compare. -/
def placeChanged (t : StoredTournament) (e : VeknTournament) : Bool :=
  t.doc.text .format != e.format || t.doc.text .rank != e.rank
    || (t.doc.config .start).asStr != e.start || t.country != e.country
    || t.doc.flag .online != e.online || t.doc.text .venue != e.venue
    || t.doc.text .address != e.address || t.doc.text .venueUrl != e.venueUrl
    || t.doc.text .mapUrl != e.mapUrl || t.doc.flag .proxies != e.proxies

/-- `vekn_tournament_sync.py:652`. -/
def metaChanged (t : StoredTournament) (e : VeknTournament) (fill : CityFill) : Bool :=
  placeChanged t e || mergedOrganizers t e != t.doc.organizersUids || fill.isSome || roundsFill t e

/-- `vekn_tournament_sync.py:696`. -/
def playChanged (t : StoredTournament) (e : VeknTournament) (fill : CityFill) : Bool :=
  placeChanged t e || t.doc.state != e.state || t.doc.winner != e.winner
    || t.doc.players.length != e.players.length || t.doc.maxRounds != e.maxRounds
    || t.doc.standings != e.standings || t.doc.finals != e.finals || fill.isSome

/-- A key of a city, filled or as it was. -/
def cityConfig (t : StoredTournament) (fill : CityFill) : ConfigField → JsonValue
  | .city => fill.elim (t.doc.config .city) fun c => .text c.1
  | .cityGeonameId => fill.elim (t.doc.config .cityGeonameId) fun c => .number c.2
  | f => t.doc.config f

/-- `vekn_tournament_sync.py:667-695`: the metadata, into the row as it is. A Storyline event takes
no decklists. -/
def refreshed (t : TimedTournament) (e : VeknTournament) (fill : CityFill) (now : Stamp) :
    TimedTournament :=
  let storyline := e.format == "Storyline"
  { t with doc := { t.doc with
      modified := some now
      organizersUids := mergedOrganizers t.toStoredTournament e
      config := fun
        | .maxRounds => if roundsFill t.toStoredTournament e then .number e.maxRounds
          else t.doc.config .maxRounds
        | .decklistRequired => if storyline then .boolean false else t.doc.config .decklistRequired
        | f => (e.config f).getD (cityConfig t.toStoredTournament fill f)
      players := if storyline then t.doc.players.map fun p => { p with missingDecklist := false }
        else t.doc.players } }

/-- `vekn_tournament_sync.py:719-768`: a new row, with the fields that are named. -/
def rebuilt (t : TimedTournament) (e : VeknTournament) (fill : CityFill) (eventId : String)
    (now : Stamp) : TimedTournament where
  doc := { t.doc with
    modified := some now
    config := fun
      | .name => t.doc.config .name
      | .finish => t.doc.config .finish
      | .timezone => t.doc.config .timezone
      | .city => cityConfig t.toStoredTournament fill .city
      | .cityGeonameId => cityConfig t.toStoredTournament fill .cityGeonameId
      | .leagueUid => t.doc.config .leagueUid
      | f => (e.config f).getD (configDefault f)
    state := e.state
    organizersUids := mergedOrganizers t.toStoredTournament e
    players := e.players
    rounds := []
    finals := e.finals
    winner := e.winner
    standings := e.standings
    raffles := []
    promosDistributed := []
    promoStockSourceUid := some ""
    reportedPlayerCount := some 0 }
  owned := {
    bannerPath := none
    externalIds := setExternalId t.owned.externalIds "vekn" eventId
    checkinCode := t.owned.checkinCode
    eventCode := t.owned.eventCode
    veknPushedAt := e.veknPushedAt
    veknResultsStale := false
    veknEventAbsentAt := t.owned.veknEventAbsentAt
    twdaStatus := t.owned.twdaStatus }
  lock := .released
  announcements := []
  deletedAt := none
  timer := .initial
  tableExtraTime := []

/-- What the scan does with a linked row. -/
inductive SyncOutcome where
  | unchanged
  | refreshed
  | rebuilt
  deriving DecidableEq, Repr

/-- The event as it is compared with the row, and the city it fills in. -/
def compared (t : TimedTournament) (event : VeknEvent)
    (twdaScores : Option (String → Option TwdaScore)) : VeknTournament × CityFill :=
  let e := incoming t.toStoredTournament event twdaScores
  (e, cityFill matchCity t e.online e.country event.city event.address)

/-- `vekn_tournament_sync.py:640-769`. -/
def syncOutcome (t : TimedTournament) (event : VeknEvent)
    (twdaScores : Option (String → Option TwdaScore)) : SyncOutcome :=
  let (e, fill) := compared matchCity t event twdaScores
  if t.doc.rounds ≠ [] ∨ e.players = [] then
    if metaChanged t.toStoredTournament e fill then .refreshed else .unchanged
  else if playChanged t.toStoredTournament e fill && !archiveHeld t.toStoredTournament twdaScores
    then
    .rebuilt
  else .unchanged

/-- The row of a linked tournament after its event was processed. -/
def syncExisting (t : TimedTournament) (event : VeknEvent)
    (twdaScores : Option (String → Option TwdaScore)) (now : Stamp) : TimedTournament :=
  let (e, fill) := compared matchCity t event twdaScores
  match syncOutcome matchCity t event twdaScores with
  | .unchanged => t
  | .refreshed => refreshed t e fill now
  | .rebuilt => rebuilt t e fill event.eventId now

end Sync

end Archon.Backend

import Archon.Engine.Standings
import Archon.Backend.EventCodes
import Archon.Backend.VeknTournaments

/-!
# The scan of the VEKN calendar (`vekn_tournament_sync.py`)

Each event of the calendar is mapped to a tournament and put on the row that holds its id, on an
unlinked copy of it or on a new row. Then the rows whose event no longer answers are marked. An
event arrives with its numbers read; what dates, places and links are made of is read off tables.
-/

namespace Archon.Backend
open Engine Guards

/-! ### What the calendar says -/

/-- A row of the results of an event. -/
structure VeknResult where
  veknid : String
  pos : String
  dq : Bool
  wd : Bool
  gw : ℕ
  vp : ℚ
  vpf : ℚ
  tp : ℕ
  tie : ℕ
  deriving DecidableEq

structure VeknEventData where
  eventId : String
  eventName : String
  eventtypeId : ℕ
  eventIsonline : Bool
  proxiesAllowed : Bool
  eventStartdate : String
  eventStarttime : String
  eventEnddate : String
  eventEndtime : String
  venueId : String
  venueName : String
  venueCountry : String
  venueCity : String
  organizerVeknid : String
  rounds : String
  players : List VeknResult

structure VeknVenue where
  address : String
  city : String
  website : String
  coordinates : Option (ℚ × ℚ)

/-- What the formats and the tables of places make of the texts. -/
structure Gazetteer where
  /-- `vekn_tournament_sync.py:94`, a date and a time. -/
  parseDate : String → String → Option Stamp
  /-- `vekn_tournament_sync.py:75`. -/
  guessTimezone : Option String → String → String → String
  /-- The link to a map at a latitude and a longitude. -/
  mapAt : ℚ × ℚ → String
  /-- The link to a search for the parts of a place. -/
  mapSearch : List String → String
  matchCity : String → String → String → CityFill
  /-- The two times are less than a day apart. -/
  sameDay : Stamp → Stamp → Bool
  /-- `geonames.py:107`. -/
  countryKey : String → String

/-- The fields of a mapped event a new row takes with the others. -/
structure MappedEvent extends VeknTournament where
  name : String
  finish : Option Stamp
  timezone : String

/-- `vekn_tournament_sync.py:53`, format and rank. -/
def eventTypeMap : ℕ → String × String
  | 1 | 3 | 10 | 11 | 12 => ("Limited", "")
  | 6 => ("Standard", "Continental Championship")
  | 8 => ("Standard", "National Championship")
  | 9 => ("Storyline", "")
  | 13 => ("Limited", "National Championship")
  | 14 => ("Limited", "Continental Championship")
  | 16 => ("V5", "")
  | _ => ("Standard", "")

/-! ### Numbers in texts -/

/-- `int` of digits. -/
def natOf (digits : List Char) : ℕ :=
  digits.foldl (fun k d => 10 * k + (d.toNat - '0'.toNat)) 0

/-- `vekn_tournament_sync.py:91`: the leading number. -/
def parseRounds (raw : String) : ℕ :=
  natOf ((raw.toList.dropWhile Char.isWhitespace).takeWhile Char.isDigit)

/-- `float` of digits and dots. -/
def readDecimal (chars : List Char) : Option ℚ :=
  match chars.splitOn '.' with
  | [whole] => if whole = [] then none else some (natOf whole)
  | [whole, part] =>
    if whole = [] ∧ part = [] then none else some (natOf whole + natOf part / 10 ^ part.length)
  | _ => none

def isDecimalChar (c : Char) : Bool := c.isDigit || c == '.'

/-- The game wins and the points of the part before the final. -/
def prelimPart (chars : List Char) : Option (Option (ℕ × List Char)) :=
  if chars = [] then some none
  else
    let wins := chars.takeWhile Char.isDigit
    match chars.dropWhile Char.isDigit with
    | 'G' :: 'W' :: points =>
      if wins ≠ [] ∧ points ≠ [] ∧ points.all isDecimalChar = true then
        some (some (natOf wins, points))
      else none
    | _ => none

/-- The points of the final. -/
def finalPart (chars : List Char) : Option (Option (List Char)) :=
  match chars with
  | [] => some none
  | _ :: points =>
    if points ≠ [] ∧ points.all isDecimalChar = true then some (some points) else none

/-- `_TWDA_SCORE_RE.fullmatch`: a score line before and after the final. -/
def scoreParts (line : String) : Option (Option (ℕ × List Char) × Option (List Char)) :=
  (prelimPart (line.toList.takeWhile (· != '+'))).bind fun prelim =>
    (finalPart (line.toList.dropWhile (· != '+'))).map fun final => (prelim, final)

/-- `vekn_tournament_sync.py:253-259`: without a final part the line splits nothing. -/
def twdaSplit (twda : TwdaScore) : Except RouteError (Option (ℕ × ℚ) × ℚ) :=
  match scoreParts twda.score with
  | some (prelim, some final) => do
    let finalVp ← okOr (readDecimal final) (.http 500 "ValueError")
    match prelim with
    | some (wins, points) => do
      let vp ← okOr (readDecimal points) (.http 500 "ValueError")
      pure (some (wins, vp), finalVp)
    | none => pure (none, finalVp)
  | _ => pure (none, 0)

/-! ### The result sheet -/

def unplaced : ℕ := 1000000

/-- `vekn_tournament_sync.py:214`. -/
def VeknResult.placement (row : VeknResult) : ℕ :=
  if row.pos ≠ "" ∧ row.pos.toList.all Char.isDigit = true ∧ row.dq = false ∧ row.wd = false then
    natOf row.pos.toList
  else unplaced

/-- `rows_by_vekn_id.setdefault`: the better placed of two rows of a member stays. -/
def keepRow (kept : List VeknResult) (row : VeknResult) : List VeknResult :=
  if kept.any (fun k => k.veknid == row.veknid) then
    kept.map fun k => if k.veknid = row.veknid ∧ row.placement < k.placement then row else k
  else kept ++ [row]

/-- `vekn_tournament_sync.py:219-230`. -/
def keptRows (uidByVeknId : String → Option Uid) (rows : List VeknResult) : List VeknResult :=
  (rows.filter fun row => (uidByVeknId row.veknid).isSome).foldl keepRow []

/-- `vekn_tournament_sync.py:232`: a sheet from before finals were told apart. -/
def legacySheet (start : Option Stamp) (maxRounds : ℕ) (rows : List VeknResult) : Bool :=
  start.any (fun s => decide (s < "2011-01-01")) && maxRounds == 0 && rows.all fun row =>
    row.vpf == 0

/-- `vekn_tournament_sync.py:238`. -/
def bestEliminatedGw (kept rows : List VeknResult) : ℕ :=
  ((rows.filter fun row => decide (5 < row.placement ∧ row.placement < unplaced) &&
    (kept.find? fun k => k.veknid == row.veknid).getD row == row).map VeknResult.gw).foldl max 0

/-- What the sheet is read under: whether the winner's row counts the final, the archive's split. -/
structure SheetReading where
  carriesFinal : Bool
  legacy : Bool
  bestEliminated : ℕ
  prelim : Option (ℕ × ℚ)
  finalVp : ℚ

/-- A row as it is written. -/
structure SheetLine where
  uid : Uid
  place : ℕ
  first : Bool
  finalist : Bool
  disqualified : Bool
  withdrawn : Bool
  gw : ℚ
  vp : ℚ
  vpf : ℚ
  tp : ℕ
  toss : ℕ

/-- `vekn_tournament_sync.py:279-312`. -/
def readLine (r : SheetReading) (uid : Uid) (row : VeknResult) : SheetLine :=
  let gw := if row.dq then 0 else row.gw
  let vp := if row.dq then 0 else row.vp
  let finalist := decide (1 ≤ row.placement ∧ row.placement ≤ 5)
  let first := finalist && row.pos == "1"
  let archived := decide (0 < r.finalVp) &&
    r.prelim.all fun p => decide (p.1 + 1 = gw ∧ p.2 = vp - r.finalVp)
  let carried := first && (r.carriesFinal || (r.legacy && decide (r.bestEliminated < gw))
    || (archived && r.prelim.isSome))
  let split := carried && archived && decide (r.finalVp ≤ vp)
  { uid
    place := row.placement
    first
    finalist
    disqualified := row.dq
    withdrawn := row.wd
    gw := if carried then (gw : ℚ) - 1 else gw
    vp := if split then vp - r.finalVp else vp
    vpf := if split then r.finalVp else if row.dq then 0 else row.vpf
    tp := if row.dq then 0 else row.tp
    toss := if row.dq then 0 else row.tie }

/-- `vekn_tournament_sync.py:316-333`: the points with the final. -/
def SheetLine.player (l : SheetLine) : Player where
  userUid := some l.uid
  state := if l.disqualified then .disqualified else .finished
  paymentStatus := .paid
  toss := l.toss
  result := ⟨l.gw + if l.first then 1 else 0, l.vp + l.vpf, l.tp⟩
  finalist := l.finalist
  nonCompeting := false
  waitlisted := false
  missingDecklist := false
  displayName := none

/-- `vekn_tournament_sync.py:334-345`: the points before it. -/
def SheetLine.standing (l : SheetLine) : Standing :=
  ⟨l.uid, l.gw, l.vp, l.tp, l.toss, l.finalist, l.disqualified, false, l.withdrawn⟩

/-- `vekn_tournament_sync.py:353-369`: a final that gave points, its seats by placement. -/
def sheetFinals (lines : List SheetLine) : Option FinalsTable :=
  let finalists := (lines.filter SheetLine.finalist).insertionSort fun a b => a.place ≤ b.place
  if 0 < (finalists.map SheetLine.vpf).sum then
    some {
      seating := finalists.map fun l => ⟨l.uid, ⟨if l.place = 1 then 1 else 0, l.vpf, 0⟩, ""⟩
      state := .finished
      override := none
      seedOrder := finalists.map SheetLine.uid }
  else none

structure VeknSheet where
  maxRounds : ℕ
  players : List Player
  winner : Uid
  standings : List Standing
  finals : Option FinalsTable

/-- `vekn_tournament_sync.py:201-379`; `none` when every player is unknown. -/
def readSheet (uidByVeknId : String → Option Uid) (start : Option Stamp) (rounds : ℕ)
    (rows : List VeknResult) (twda : Option TwdaScore) : Except RouteError (Option VeknSheet) := do
  let kept := keptRows uidByVeknId rows
  let legacy := legacySheet start rounds rows
  let archive := twda.filter fun _ => legacy
  let planned := archive.elim rounds fun t => parseRounds t.tournamentFormat
  let score ← match archive with
    | some t => twdaSplit t
    | none => pure (none, 0)
  let overflowing := rows.filter fun row => decide (planned < row.gw)
  let carriesFinal := decide (0 < planned) && overflowing.length == 1 &&
    overflowing.all fun row => row.placement == 1 && row.gw == planned + 1
  let reading : SheetReading :=
    ⟨carriesFinal, legacy, bestEliminatedGw kept rows, score.1, score.2⟩
  let lines := kept.filterMap fun row =>
    (uidByVeknId row.veknid).map fun uid => readLine reading uid row
  if lines = [] then pure none
  else pure (some {
    maxRounds := if overflowing ≠ [] ∧ carriesFinal = false then 0 else planned
    players := lines.map SheetLine.player
    winner := ((lines.filter SheetLine.first).getLast?.map SheetLine.uid).getD ""
    standings := sortByRank (lines.map SheetLine.standing)
    finals := sheetFinals lines })

/-! ### The mapped event -/

/-- `vekn_tournament_sync.py:154-196`: the fields that do not come from the results. -/
def mappedFields (g : Gazetteer) (uidByVeknId : String → Option Uid) (data : VeknEventData)
    (venue : VeknVenue) : MappedEvent :=
  let type := eventTypeMap data.eventtypeId
  let country := if data.venueCountry = "" then none else some data.venueCountry
  let city := if venue.city = "" then data.venueCity else venue.city
  let start := g.parseDate data.eventStartdate data.eventStarttime
  let finish := g.parseDate data.eventEnddate data.eventEndtime
  let address := if venue.address = "" then data.venueCity
    else if venue.city = "" then venue.address else venue.address ++ ", " ++ venue.city
  let at_ := venue.coordinates.filter fun c => decide (c ≠ (0, 0))
  { format := type.1
    rank := type.2
    online := data.eventIsonline
    start
    country
    venue := data.venueName
    venueUrl := venue.website
    address
    mapUrl := if data.eventIsonline then "" else match at_ with
      | some c => g.mapAt c
      | none => if address = "" then ""
        else g.mapSearch ([data.venueName, address, country.getD ""].filter (· ≠ ""))
    proxies := data.proxiesAllowed && type.2 == ""
    maxRounds := parseRounds data.rounds
    state := .planned
    organizersUids := (uidByVeknId data.organizerVeknid).toList
    players := []
    winner := ""
    standings := []
    finals := none
    veknPushedAt := none
    name := if data.eventName = "" then "VEKN Event " ++ data.eventId else data.eventName
    finish := finish.filter fun f => start.all fun s => decide (¬f < s)
    timezone := if data.eventIsonline then "UTC" else g.guessTimezone country city venue.address }

/-- `vekn_tournament_sync.py:133`, but for the stamp of the push. -/
def mapVeknToTournament (g : Gazetteer) (uidByVeknId : String → Option Uid) (data : VeknEventData)
    (venue : VeknVenue) (twda : Option TwdaScore) : Except RouteError (Option MappedEvent) :=
  let m := mappedFields g uidByVeknId data venue
  if data.eventId = "" then pure none
  else if data.players = [] then pure (some m)
  else do
    let sheet ← readSheet uidByVeknId m.start m.maxRounds data.players twda
    pure (sheet.map fun s => { m with
      state := .finished
      maxRounds := s.maxRounds
      players := s.players
      winner := s.winner
      standings := s.standings
      finals := s.finals
      finish := m.finish.or m.start })

/-- The results come from vekn.net already, so the push leaves them. -/
def VeknTournament.pushedAt (now : Stamp) (e : VeknTournament) : VeknTournament :=
  if e.players = [] then e else { e with veknPushedAt := some now }

/-! ### A run -/

/-- What the calendar and the archive answer with, whatever night they are asked. An event that
cannot be read is an error; a verdict says whether an event answers. -/
structure VeknCalendar where
  tables : Gazetteer
  events : List (Except RouteError VeknEventData)
  verdict : String → Option Bool
  venues : String → VeknVenue
  scores : Option (String → Option TwdaScore)

/-- The night of a run: the clock, the uids and codes drawn, and the row a lookup takes. -/
structure Night where
  now : Stamp
  freshUid : ℕ → Uid
  checkinCode : ℕ → String
  mints : ℕ → List String
  pick : List StoredTournament → Option StoredTournament

/-- `vekn_tournament_sync.py:410`. -/
def uidsByVeknId (objects : Objects) (veknId : String) : Option Uid :=
  (objects.users.find? fun u => u.veknId == some veknId && veknId != "").map User.uid

/-- `vekn_tournament_sync.py:541-545`. -/
def VeknEventData.placeholderVenue (data : VeknEventData) : Bool :=
  data.venueId == "9999" || (data.venueId == "3800" && decide ("2025-01-01" ≤ data.eventStartdate))

/-- `vekn_tournament_sync.py:546-553`: the placeholder answers for no place. -/
def VeknEventData.placed (data : VeknEventData) : VeknEventData :=
  if data.placeholderVenue then
    { data with venueId := "", venueName := "", venueCountry := "", venueCity := "" }
  else data

namespace VeknCalendar

variable (c : VeknCalendar)

def venue (data : VeknEventData) : VeknVenue :=
  if data.placed.venueId = "" then ⟨"", "", "", none⟩ else c.venues data.placed.venueId

def map (uids : String → Option Uid) (data : VeknEventData) (twda : Option TwdaScore) :
    Except RouteError (Option MappedEvent) :=
  mapVeknToTournament c.tables uids data.placed (c.venue data) twda

/-- `vekn_tournament_sync.py:557`. -/
def city (data : VeknEventData) : String :=
  if (c.venue data).city = "" then data.placed.venueCity else (c.venue data).city

/-- The event as a linked row is compared with it. -/
def event (uids : String → Option Uid) (now : Stamp) (data : VeknEventData) (m : MappedEvent) :
    VeknEvent where
  eventId := data.eventId
  placeholderVenue := data.placeholderVenue
  city := c.city data
  address := (c.venue data).address
  mapped := m.toVeknTournament.pushedAt now
  mappedWith twda := (c.map uids data (some twda)).toOption.join.map fun m' =>
    m'.toVeknTournament.pushedAt now

end VeknCalendar

/-- The table, how many uids were drawn, the rows saved, and the events no row could be made for. -/
structure Syncing where
  objects : Objects
  drawn : ℕ
  saves : List Uid
  unfiled : List String

def Syncing.save (s : Syncing) (t : StoredTournament) : Syncing :=
  { s with objects := saveTournament s.objects t, saves := s.saves ++ [t.uid] }

/-- The row with its clocks, which decide nothing here. -/
def StoredTournament.timed (t : StoredTournament) : TimedTournament := ⟨t, .initial, []⟩

/-- Integers past 64 bits have no encoding. -/
def StoredTournament.encodable (t : StoredTournament) : Bool :=
  match t.doc.config .maxRounds with
  | .number q => decide (q ≤ JsonValue.u64Max)
  | _ => true

def btrim (s : String) : String :=
  String.ofList ((s.toList.dropWhile (· == ' ')).reverse.dropWhile (· == ' ')).reverse

/-- `db.py:1277`. -/
def findSameEvent (g : Gazetteer) (objects : Objects) (m : MappedEvent) (start : Stamp) :
    List StoredTournament :=
  if m.name = "" then []
  else (liveTournaments objects).filter fun t =>
    lower (btrim (t.doc.text .name)) == lower (btrim m.name)
      && (t.doc.config .start).asStr.any (fun s => g.sameDay s start)
      && (m.country.getD "" == "" || t.country.getD "" == ""
        || g.countryKey (t.country.getD "") == g.countryKey (m.country.getD ""))

/-- `vekn_tournament_sync.py:420`: the one unlinked copy of the event, unless it holds a list of
registered players. -/
def adoptSameEvent (g : Gazetteer) (objects : Objects) (m : MappedEvent) (eventId : String)
    (now : Stamp) : Option StoredTournament :=
  m.start.bind fun start =>
    match findSameEvent g objects m start with
    | [copy] =>
      if copy.vekn.getD "" ≠ "" then none
      else if copy.doc.players ≠ [] ∧ copy.doc.rounds = [] ∧ (copy.externalId "twda").getD "" = ""
        then
        none
      else some ((copy.withVekn eventId).touched now)
    | _ => none

/-- `vekn_tournament_sync.py:380-406`, `774`: the row of an event nothing stands for. -/
def newRow (uid : Uid) (now : Stamp) (checkinCode : String) (eventId : String) (m : MappedEvent)
    (fill : CityFill) : StoredTournament where
  doc := {
    uid := some uid
    modified := some now
    config := fun
      | .name => .text m.name
      | .finish => JsonValue.ofOption m.finish
      | .timezone => .text m.timezone
      | .city => fill.elim .null fun c => .text c.1
      | .cityGeonameId => fill.elim .null fun c => .number c.2
      | f => (m.toVeknTournament.config f).getD (configDefault f)
    state := m.state
    organizersUids := m.organizersUids
    players := m.players
    rounds := []
    finals := m.finals
    winner := m.winner
    standings := m.standings
    raffles := []
    promosDistributed := []
    promoStockSourceUid := some ""
    reportedPlayerCount := some 0
    externalIdsVekn := eventId }
  owned := ⟨none, [("vekn", eventId)], checkinCode, "",
    (m.toVeknTournament.pushedAt now).veknPushedAt, false, none, none⟩
  lock := .released
  announcements := []
  deletedAt := none

section Run

variable (c : VeknCalendar) (n : Night) (uids : String → Option Uid)

/-- The archive's line for the row cannot be read. -/
def scoreUnread (data : VeknEventData) (t : StoredTournament) : Bool :=
  ((c.scores.bind fun scores => scores (archiveKey t)).map fun twda =>
    c.map uids data (some twda)).any fun r => !r.isOk

/-- `vekn_tournament_sync.py:590-770`: the row that holds the id, read again under its lock. -/
def syncLinked (s : Syncing) (data : VeknEventData) (m : MappedEvent) (ref : StoredTournament) :
    Syncing :=
  let existing := (s.objects.tournament? ref.uid).getD ref
  let event := c.event uids n.now data m
  if scoreUnread c uids data existing then s
  else if syncOutcome c.tables.matchCity existing.timed event c.scores = .unchanged then s
  else
    let synced := syncExisting c.tables.matchCity existing.timed event c.scores n.now
    if synced.encodable then s.save synced.toStoredTournament else s

/-- `vekn_tournament_sync.py:773-781`. -/
def fileNew (s : Syncing) (data : VeknEventData) (m : MappedEvent) : Syncing :=
  let blank := newRow (n.freshUid s.drawn) n.now (n.checkinCode s.drawn) data.eventId m none
  let fill := cityFill c.tables.matchCity blank.timed m.online m.country (c.city data)
    (c.venue data).address
  let t := newRow (n.freshUid s.drawn) n.now (n.checkinCode s.drawn) data.eventId m fill
  match (if t.encodable then saveCoded s.objects t (n.mints s.drawn)
      else .error (.http 500 "OverflowError")) with
  | .ok objects =>
    { s with objects, drawn := s.drawn + 1, saves := s.saves ++ [t.uid] }
  | .error _ => { s with drawn := s.drawn + 1, unfiled := s.unfiled ++ [data.eventId] }

/-- `vekn_tournament_sync.py:531-785`, an event. -/
def syncEvent (s : Syncing) (data : VeknEventData) : Syncing :=
  match c.map uids data none with
  | .error _ | .ok none => s
  | .ok (some m) =>
    match getTournamentByVeknEventId n.pick s.objects data.eventId with
    | some ref => syncLinked c n uids s data m ref
    | none =>
      match adoptSameEvent c.tables s.objects m data.eventId n.now with
      | some adopted => syncLinked c n uids (s.save adopted) data m adopted
      | none => fileNew c n s data m

def syncEntry (s : Syncing) : Except RouteError VeknEventData → Syncing
  | .ok data => syncEvent c n uids s data
  | .error _ => s

/-- `db.py:1303`. -/
def absenceCandidate (t : StoredTournament) : Bool :=
  t.vekn.any (fun v => c.verdict v == some false) || t.owned.veknEventAbsentAt.isSome

/-- `vekn_tournament_sync.py:475-494`: a row whose flag is what the verdict says stays. -/
def recordAbsence (s : Syncing) (candidate : StoredTournament) : Syncing :=
  match c.verdict (candidate.vekn.getD "") with
  | none => s
  | some answers =>
    if candidate.owned.veknEventAbsentAt.isSome = !answers then s
    else match s.objects.tournament? candidate.uid with
      | none => s
      | some existing =>
        let stamp := if answers then none else some n.now
        s.save { existing.touched n.now with
          owned := { existing.owned with veknEventAbsentAt := stamp } }

/-- `vekn_tournament_sync.py:466`. -/
def recordVeknAbsence (s : Syncing) : Syncing :=
  ((liveTournaments s.objects).filter (absenceCandidate c)).foldl (recordAbsence c n) s

end Run

/-- `vekn_tournament_sync.py:498`. -/
def syncAllTournaments (c : VeknCalendar) (n : Night) (objects : Objects) : Syncing :=
  recordVeknAbsence c n (c.events.foldl (syncEntry c n (uidsByVeknId objects))
    ⟨objects, 0, [], []⟩)

end Archon.Backend

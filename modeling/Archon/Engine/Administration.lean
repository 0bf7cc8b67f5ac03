import Archon.Engine.Decks

/-!
# Raffles, promos, configuration and archival results (`tournament/mod.rs`, `raffle.rs`)

The events outside the flow of rounds, and the creation of a tournament.
-/

namespace Archon.Engine
open Guards

/-! ### Raffles -/

/-- `raffle.rs:10`: everyone seated so far or checked in, sorted. -/
def raffleBaseUids (t : Tournament) : List Uid :=
  let seated := t.rounds.flatMap fun round => round.flatMap Table.uids
  let present := (t.players.filter fun p =>
    p.state == .checkedIn || p.state == .playing).filterMap Player.userUid
  (((seated ++ present).filter fun uid => uid != "").dedup).insertionSort fun a b => a ≤ b

/-- `raffle.rs:63-91`: the filter of a pool, by its name. -/
def rafflePoolFilter (t : Tournament) (sanctions : List Sanction) (pool : String) :
    Option (Uid → Bool) :=
  let row := fun uid =>
    (computePreliminaryStandings t sanctions).find? fun s => s.userUid == uid
  let finalists := (t.finals.elim [] FinalsTable.seating).map Seat.playerUid
  match pool with
  | "AllPlayers" => some fun _ => true
  | "NonFinalists" => some fun uid => !finalists.contains uid
  | "GameWinners" => some fun uid => (row uid).any fun s => decide (0 < s.gw)
  | "NoGameWin" => some fun uid => (row uid).all fun s => s.gw == 0
  | "NoVictoryPoint" => some fun uid => (row uid).all fun s => s.vp == 0
  | _ => none

/-- `raffle.rs:38`. -/
def rafflePool (t : Tournament) (sanctions : List Sanction) (pool : String)
    (excludeDrawn : Bool) : Except EngineError (List Uid) := do
  let keeps ← okOr (rafflePoolFilter t sanctions pool) (.internal ("Unknown pool: " ++ pool))
  let drawn := t.raffles.flatMap RaffleDraw.winners
  pure (((raffleBaseUids t).filter keeps).filter fun uid => !(excludeDrawn && drawn.contains uid))

/-- `mod.rs:2701`. -/
def raffleDraw (t : Tournament) (actor : ActorContext) (sanctions : List Sanction)
    (label pool : String) (excludeDrawn : Bool) (count : ℕ) (seed : UInt64)
    (prizePromoUid : Option Uid) : Outcome := do
  requireOrganizer actor
  ensure (t.state = .waiting ∨ t.state = .playing ∨ t.state = .finished) .raffleWrongState
  ensure (count ≠ 0) .raffleCountMin
  let eligible ← rafflePool t sanctions pool excludeDrawn
  ensure (eligible ≠ []) .raffleNoPlayers
  let winners := (lcgShuffle (eligible.length - 1) seed eligible).take count
  pure ({ t with raffles := t.raffles ++ [⟨label, pool, winners, prizePromoUid⟩] }, [])

/-- `mod.rs:2752`. -/
def raffleUndo (t : Tournament) (actor : ActorContext) : Outcome := do
  requireOrganizer actor
  ensure (t.raffles ≠ []) .raffleNoDraws
  pure ({ t with raffles := t.raffles.dropLast }, [])

/-- `mod.rs:2764`. -/
def raffleClear (t : Tournament) (actor : ActorContext) : Outcome := do
  requireOrganizer actor
  pure ({ t with raffles := [] }, [])

/-- `mod.rs:2770`. -/
def reportPromos (t : Tournament) (actor : ActorContext) (promos : List PromoDistribution)
    (stockSourceUid : Option Uid) : Outcome := do
  requireOrganizer actor
  pure ({ t with
    promosDistributed := promos
    promoStockSourceUid := some (stockSourceUid.getD actor.uid) }, [])

/-! ### Configuration -/

/-- Unicode `White_Space`, which `str::trim` removes. -/
def isWhiteSpace (c : Char) : Bool :=
  let n := c.toNat
  (9 ≤ n && n ≤ 13) || n == 0x20 || n == 0x85 || n == 0xA0 || n == 0x1680
    || (0x2000 ≤ n && n ≤ 0x200A) || n == 0x2028 || n == 0x2029 || n == 0x202F || n == 0x205F
    || n == 0x3000

/-- `trim().is_empty()`. -/
def isBlank (s : String) : Bool := s.toList.all isWhiteSpace

/-- `helpers.rs:190` on a key that may be absent. -/
def validateEnum (value : Option String) (valid : List String) (field : String) :
    Except EngineError Unit :=
  match value with
  | some v => ensure (v ∈ valid) (.internal ("Invalid " ++ field ++ ": " ++ v))
  | none => pure ()

/-- `mod.rs:105`. -/
def validateConfigFields (c : ConfigPatch) : Except EngineError Unit := do
  validateEnum (c.get .format).asStr ["Standard", "V5", "Limited", "Storyline"] "format"
  validateEnum (c.get .rank).asStr ["", "National Championship", "Continental Championship"] "rank"
  validateEnum (c.get .standingsMode).asStr ["Private", "Cutoff", "Top 10", "Public"]
    "standings_mode"
  validateEnum (c.get .decklistsMode).asStr ["Winner", "Finalists", "All"] "decklists_mode"
  ensure (((c.get .name).asStr).any isBlank = false) .nameRequired
  ensure (c.hasKey .firstTableNumber = false
    ∨ ((c.get .firstTableNumber).asU32).any (fun n => decide (1 ≤ n)) = true) .invalidTable
  ensure (¬((c.get .selfOrganizedRounds).asBool = some true ∧ c.hasKey .openRounds = true
    ∧ (c.get .openRounds).asBool = some false)) .selfOrganizeNotOpenRounds

/-- `mod.rs:181`. -/
def validateRankLegality (format rank : String) (proxies multideck : Bool) :
    Except EngineError Unit :=
  if rank = "" then pure ()
  else do
    ensure (format = "Standard" ∨ format = "Limited") .formatForbidsRank
    ensure (proxies = false) .rankForbidsProxies
    ensure (multideck = false) .rankForbidsMultideck

/-- The characters of the first `n` bytes, when they end between two characters. -/
def bytePrefix : List Char → ℕ → Option (List Char)
  | [], n => if n = 0 then some [] else none
  | c :: cs, n =>
    if n = 0 then some []
    else if c.utf8Size ≤ n then (bytePrefix cs (n - c.utf8Size)).map (c :: ·)
    else none

/-- `mod.rs:208`: the date and time to the minute. -/
def minute (s : String) : String := ((bytePrefix s.toList 16).map String.ofList).getD s

/-- `mod.rs:204`. -/
def validateFinishAfterStart (start finish : String) : Except EngineError Unit :=
  ensure (start = "" ∨ finish = "" ∨ minute start ≤ minute finish) .finishBeforeStart

/-- A key of the edit, or the stored one. -/
def mergedValue (t : Tournament) (c : ConfigPatch) (f : ConfigField) : JsonValue :=
  if c.hasKey f then c.get f else t.config f

/-- `mod.rs:2795-2810`. -/
def checkVeknFrozen (t : Tournament) (c : ConfigPatch) (f : ConfigField) :
    Except EngineError PUnit :=
  ensure (t.externalIdsVekn = "" ∨ c.hasKey f = false ∨ (c.get f).strOrEmpty = t.text f)
    (.veknFrozenField f)

/-- `mod.rs:2858-2873`: the cap is not lowered under what a player has played. -/
def checkMaxRounds (t : Tournament) (c : ConfigPatch) : Except EngineError Unit :=
  let completed := (((t.players.filterMap Player.userUid).map (countPlayerRoundsPlayed t)).max?
    ).getD 0
  match (c.get .maxRounds).asUsize with
  | some mr => ensure (mr = 0 ∨ completed ≤ mr) (.maxRoundsBelowCompleted mr completed)
  | none => pure ()

/-- `mod.rs:2875-2888`. -/
def checkLeagueLink (actor : ActorContext) (c : ConfigPatch) : Except EngineError Unit :=
  let leagueUid := (c.get .leagueUid).strOrEmpty
  ensure (leagueUid = "" ∨ "IC" ∈ actor.roles ∨ leagueUid ∈ actor.canOrganizeLeagueUids)
    .leagueLinkForbidden

/-- The configuration with the edit applied, key by key. -/
def patchedConfig (t : Tournament) (c : ConfigPatch) : ConfigField → JsonValue := fun f =>
  (c f).getD (t.config f)

def updateConfigDoc (t : Tournament) (c : ConfigPatch) : Tournament :=
  let patched := { t with config := patchedConfig t c }
  if isStoryline patched = true then
    { patched with
      config := fun f => if f = .decklistRequired then .boolean false else patched.config f
      players := t.players.map fun p => { p with missingDecklist := false } }
  else patched

/-- `mod.rs:2785`. -/
def updateConfig (t : Tournament) (actor : ActorContext) (c : ConfigPatch) : Outcome := do
  requireOrganizer actor
  validateConfigFields c
  forM [ConfigField.rank, .format, .start] (checkVeknFrozen t c)
  if (c.hasKey .rank || c.hasKey .format || c.hasKey .proxies || c.hasKey .multideck) = true then
    validateRankLegality (mergedValue t c .format).strOrEmpty (mergedValue t c .rank).strOrEmpty
      (mergedValue t c .proxies).boolOrFalse (mergedValue t c .multideck).boolOrFalse
  if (c.hasKey .start || c.hasKey .finish) = true then
    validateFinishAfterStart (mergedValue t c .start).strOrEmpty
      (mergedValue t c .finish).strOrEmpty
  checkMaxRounds t c
  checkLeagueLink actor c
  ensure (c.hasKey .multideck = false ∨ (c.get .multideck).boolOrFalse = t.flag .multideck
    ∨ (t.rounds.isEmpty = true ∧ t.finals = none)) .multideckLockedRounds
  pure (updateConfigDoc t c, [])

/-! ### Archival results -/

/-- `permissions.rs:600`: only the inner circle, anywhere. -/
def mayCorrectArchive (actor : ActorContext) : Bool := actor.roles.contains "IC"

/-- The listed players, the winner first. -/
def archivalOrder (sheet : ArchivalSheet) : List Uid :=
  sheet.winner :: sheet.players.filter fun p => p != sheet.winner

/-- `mod.rs:2957-2985`: payment and name of an earlier entry are kept. -/
def archivalPlayer (existing : List Player) (winner uid : Uid) : Player :=
  let prior := findPlayer existing uid
  { userUid := some uid
    state := .finished
    paymentStatus := prior.elim .paid Player.paymentStatus
    toss := 0
    result := Score.zero
    finalist := uid == winner
    nonCompeting := false
    waitlisted := false
    missingDecklist := false
    displayName := prior.bind Player.displayName }

/-- `mod.rs:2990-3003`. -/
def archivalRow (winner uid : Uid) : Standing :=
  ⟨uid, 0, 0, 0, 0, uid == winner, false, false, false⟩

def setArchivalResultsDoc (t : Tournament) (sheet : ArchivalSheet) : Tournament :=
  let nameless := t.players.filter fun p => p.userUid.getD "" == ""
  { t with
    players := (archivalOrder sheet).map (archivalPlayer t.players sheet.winner) ++ nameless
    standings := (archivalOrder sheet).map (archivalRow sheet.winner)
    winner := sheet.winner
    reportedPlayerCount := some sheet.reportedPlayerCount }

/-- `mod.rs:2914`. -/
def setArchivalResults (t : Tournament) (actor : ActorContext) (sheet : ArchivalSheet) :
    Outcome := do
  ensure (mayCorrectArchive actor = true) .archivalResultsForbidden
  requireState t.state .finished
  ensure (playersWithRounds t = 0) .archivalResultsHasPlay
  ensure (t.externalIdsVekn = "") .archivalResultsVeknLinked
  ensure (sheet.winner ∈ sheet.players) .archivalResultsWinnerNotListed
  ensure (sheet.players.length ≤ sheet.reportedPlayerCount)
    (.archivalResultsCountBelowRoster sheet.reportedPlayerCount sheet.players.length)
  pure (setArchivalResultsDoc t sheet, [])

/-! ### Creation -/

/-- What `create_tournament` reads of its configuration object. -/
structure CreateRequest where
  config : ConfigPatch
  uid : String
  now : String

/-- `types.rs:351`. -/
def canManageTournaments (actor : ActorContext) : Bool :=
  actor.roles.any fun r => r == "IC" || r == "NC" || r == "Prince"

/-- `mod.rs:255-304`: every key with its default. -/
def createdConfig (c : ConfigPatch) : ConfigField → JsonValue
  | .name => .text (c.get .name).strOrEmpty
  | .format => .text ((c.get .format).asStr.getD "Standard")
  | .rank => .text (c.get .rank).strOrEmpty
  | .online => .boolean (c.get .online).boolOrFalse
  | .start => c.get .start
  | .finish => c.get .finish
  | .timezone => .text (c.get .timezone).strOrEmpty
  | .country => c.get .country
  | .city => c.get .city
  | .cityGeonameId => c.get .cityGeonameId
  | .venue => .text (c.get .venue).strOrEmpty
  | .venueUrl => .text (c.get .venueUrl).strOrEmpty
  | .address => .text (c.get .address).strOrEmpty
  | .mapUrl => .text (c.get .mapUrl).strOrEmpty
  | .registrationUrl => .text (c.get .registrationUrl).strOrEmpty
  | .proxies => .boolean (c.get .proxies).boolOrFalse
  | .multideck => .boolean (c.get .multideck).boolOrFalse
  | .decklistRequired => .boolean ((c.get .format).asStr.getD "Standard" != "Storyline"
      && (c.get .decklistRequired).boolOrFalse)
  | .description => .text (c.get .description).strOrEmpty
  | .standingsMode => .text ((c.get .standingsMode).asStr.getD "Private")
  | .decklistsMode => .text ((c.get .decklistsMode).asStr.getD "Winner")
  | .maxRounds => .number ((c.get .maxRounds).asU32.getD 0 : ℕ)
  | .maxPlayers => .number ((c.get .maxPlayers).asU32.getD 0 : ℕ)
  | .openRounds => .boolean (c.get .openRounds).boolOrFalse
  | .selfOrganizedRounds => .boolean (c.get .selfOrganizedRounds).boolOrFalse
  | .tableRooms => if (c.get .tableRooms).isArray then c.get .tableRooms else .array []
  | .firstTableNumber => .number ((c.get .firstTableNumber).asU32.getD 1 : ℕ)
  | .continueRoomNumbering => .boolean ((c.get .continueRoomNumbering).asBool.getD true)
  | .leagueUid => c.get .leagueUid
  | .roundTime => .number ((c.get .roundTime).asU32.getD 0 : ℕ)
  | .finalsTime => .number ((c.get .finalsTime).asU32.getD 0 : ℕ)

/-- The document of a new tournament: planned, without players, rounds, finals and standings. -/
def createdTournament (request : CreateRequest) (organizer : Uid) : Tournament :=
  { uid := if request.uid = "" then none else some request.uid
    modified := if request.now = "" then none else some request.now
    config := createdConfig request.config
    state := .planned
    organizersUids := [organizer]
    players := []
    rounds := []
    finals := none
    winner := ""
    standings := []
    raffles := []
    promosDistributed := []
    promoStockSourceUid := none
    reportedPlayerCount := none
    externalIdsVekn := "" }

/-- `mod.rs:217`. -/
def createTournament (request : CreateRequest) (actor : ActorContext) :
    Except EngineError Tournament := do
  let c := request.config
  ensure (canManageTournaments actor = true) .createForbidden
  validateConfigFields c
  validateRankLegality (c.get .format).strOrEmpty (c.get .rank).strOrEmpty
    (c.get .proxies).boolOrFalse (c.get .multideck).boolOrFalse
  validateFinishAfterStart (c.get .start).strOrEmpty (c.get .finish).strOrEmpty
  let name ← okOr (c.get .name).asStr (.internal "name is required")
  ensure (isBlank name = false) .nameRequired
  pure (createdTournament request actor.uid)

end Archon.Engine

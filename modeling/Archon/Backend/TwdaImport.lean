import Archon.Backend.EventCodes
import Archon.Backend.VeknTournaments

/-!
# The import of the tournament archive (`backend/src/twda_import.py`)

Each entry of the archive is settled onto one event: the one that carries its key, the one a
reviewed decision attaches it to, or a reconstruction. Then the winners of the events resolved get
the decklists they lack. Keys and decks are read once, before the loops over the entries.
-/

namespace Archon.Backend
open Engine Guards

/-! ### Entries and decisions -/

/-- `twda_import.py:90`. A card is its krcg id and a count. -/
structure TwdaEntry where
  id : String
  event : String
  place : String
  date : String
  tournamentFormat : String
  playersCount : ℕ
  name : String
  comments : String
  crypt : List (ℕ × ℕ)
  library : List (List (ℕ × ℕ))
  deriving DecidableEq, Repr

/-- `cards[str(id)] = count`. -/
def setCard (cards : List (String × ℕ)) (card : ℕ × ℕ) : List (String × ℕ) :=
  if cards.any (fun c => c.1 == toString card.1) then
    cards.map fun c => if c.1 = toString card.1 then (c.1, card.2) else c
  else cards ++ [(toString card.1, card.2)]

/-- `twda_import.py:103`. -/
def flattenTwdaCards (entry : TwdaEntry) : List (String × ℕ) :=
  (entry.crypt ++ entry.library.flatten).foldl setCard []

inductive TwdaDecision where
  | attach (tournamentUid : Uid)
  | create (winnerUid : Uid)
  deriving DecidableEq, Repr

/-- What `load_decisions` (`twda_import.py:137`) makes of the reviewed file: a line without an entry
decides nothing. -/
structure TwdaDecisions where
  table : List (String × TwdaDecision)
  named : ∀ d ∈ table, d.1 ≠ ""

def TwdaDecisions.get (decisions : TwdaDecisions) (entryId : String) : Option TwdaDecision :=
  decisions.table.lookup entryId

structure TwdaCity where
  name : String
  geonameId : ℕ
  countryCode : String
  deriving DecidableEq, Repr

/-- What the timezone tables, GeoNames and the calendar make of an entry. -/
structure Atlas where
  /-- `twda_import.py:188`. -/
  twdaPlace : TwdaEntry → Option String × String
  /-- `twda_import.py:172`. -/
  twdaTimezone : Option String → String → String
  /-- `twda_import.py:198`. -/
  twdaCity : TwdaEntry → Option TwdaCity
  /-- `datetime.strptime` of a date in ISO form. -/
  start : TwdaEntry → JsonValue
  /-- The number a tournament format begins with. -/
  rounds : TwdaEntry → ℕ
  upper : String → String

/-- A run of the import. `mints k` are the codes drawn for the `k`-th event it creates; its uids are
drawn off `env.freshUid`. -/
structure TwdaRun where
  env : Env
  entries : List TwdaEntry
  decisions : TwdaDecisions
  maxCreates : Option ℕ
  atlas : Atlas
  mints : ℕ → List String

/-! ### What is read before the loops -/

/-- `coalesce(external_ids->>'twda', external_ids->>'twda_entry')`. -/
def StoredTournament.twdaId (t : StoredTournament) : Option String :=
  (t.externalId "twda").or (t.externalId "twda_entry")

/-- `twda_import.py:262`; of two rows with one key the later counts. -/
def tournamentsByTwdaId (objects : Objects) : List (String × Uid) :=
  (objects.rows.filterMap fun r => r.2.liveTournament.bind fun t =>
    t.twdaId.map fun id => (id, r.1)).reverse

/-- `twda_import.py:317`, of one uid. -/
def winnerByTournamentUid (objects : Objects) (uid : Uid) : Option Uid :=
  ((objects.lookup uid).bind Row.liveTournament).map fun t => t.doc.winner

/-- `twda_import.py:111`, of one uid: the owners of the decks nobody deleted. -/
def deckOwners (objects : Objects) (tournamentUid : Uid) : List Uid :=
  objects.rows.filterMap fun r => if r.2.deletedAt = none then
    r.2.object.asDeck.bind fun d =>
      if d.tournamentUid = tournamentUid then some d.userUid else none
  else none

/-! ### Settling entries -/

/-- The city of an entry, for a row of its country that has none. -/
def fillCity (atlas : Atlas) (city : Option TwdaCity) (t : Tournament) :
    ConfigField → JsonValue :=
  match city with
  | some c =>
    if t.count .cityGeonameId = 0 ∧ t.flag .online = false
        ∧ atlas.upper ((t.config .country).asStr.getD "") = atlas.upper c.countryCode then fun
      | .city => .text c.name
      | .cityGeonameId => .number c.geonameId
      | f => t.config f
    else t.config
  | none => t.config

/-- `twda_import.py:301-309`. -/
def stampedTournament (r : TwdaRun) (entry : TwdaEntry) (t : StoredTournament) : StoredTournament :=
  let ids := setExternalId t.owned.externalIds "twda_entry" entry.id
  { t.withExternalIds ids with
    doc := { t.doc with
      config := fillCity r.atlas (r.atlas.twdaCity entry) t.doc
      modified := some r.env.now } }

/-- `twda_import.py:280`: the table, and whether the key was stamped. A key that is held is left. -/
def settleAttachment (r : TwdaRun) (entry : TwdaEntry) (uid : Uid) (objects : Objects) :
    Objects × Bool :=
  match objects.tournament? uid with
  | none => (objects, false)
  | some t =>
    if t.deletedAt ≠ none then (objects, false)
    else if archiveKey t ≠ "" then (objects, false)
    else (saveTournament objects (stampedTournament r entry t), true)

/-- `twda_import.py:216`. -/
def reconstructedTournament (r : TwdaRun) (entry : TwdaEntry) (uid winnerUid : Uid) :
    StoredTournament :=
  let place := r.atlas.twdaPlace entry
  let city := r.atlas.twdaCity entry
  let called := if place.2 = "" then place.1.getD entry.date else place.2
  { doc := {
      uid := some uid
      modified := some r.env.now
      config := fun
        | .name => .text (if entry.event = "" then "VTES Tournament — " ++ called else entry.event)
        | .online => .boolean (lower entry.place.trimAscii.toString == "online")
        | .start | .finish => r.atlas.start entry
        | .timezone => .text (r.atlas.twdaTimezone place.1 place.2)
        | .country => place.1.elim .null .text
        | .city => city.elim .null fun c => .text c.name
        | .cityGeonameId => city.elim .null fun c => .number c.geonameId
        | .maxRounds => .number (r.atlas.rounds entry)
        | f => configDefault f
      state := .finished
      organizersUids := []
      players := [⟨some winnerUid, .finished, .pending, 0, ⟨0, 0, 0⟩, true, false, false, false,
        none⟩]
      rounds := []
      finals := none
      winner := winnerUid
      standings := [⟨winnerUid, 0, 0, 0, 0, true, false, false, false⟩]
      raffles := []
      promosDistributed := []
      promoStockSourceUid := some ""
      reportedPlayerCount := some entry.playersCount
      externalIdsVekn := "" }
    owned := ⟨none, [("twda", entry.id)], "", "", none, false, none, none⟩
    lock := .released
    announcements := []
    deletedAt := none }

/-- The table, the entries resolved so far, how many uids were drawn, and the counts. -/
structure Settling where
  objects : Objects
  resolved : List (String × Uid)
  drawn : ℕ
  created : ℕ
  settled : ℕ
  unresolved : ℕ

def Settling.resolve (s : Settling) (entryId : String) (uid : Uid) : Settling :=
  { s with resolved := (entryId, uid) :: s.resolved }

/-- `if existing:` -/
def knownTournament (known : List (String × Uid)) (entryId : String) : Option Uid :=
  (known.lookup entryId).filter (· ≠ "")

/-- `twda_import.py:394-425`. -/
def settleEntry (r : TwdaRun) (known : List (String × Uid)) (bulk : Bool) (s : Settling)
    (entry : TwdaEntry) : Except RouteError Settling :=
  match knownTournament known entry.id with
  | some existing => pure (s.resolve entry.id existing)
  | none =>
    match r.decisions.get entry.id with
    | none => pure { s with unresolved := s.unresolved + 1 }
    | some (.attach target) =>
      if bulk then pure (s.resolve entry.id target)
      else
        let attached := settleAttachment r entry target s.objects
        pure { s.resolve entry.id target with
          objects := attached.1
          settled := if attached.2 then s.settled + 1 else s.settled }
    | some (.create winner) =>
      if bulk then pure s
      else do
        let uid := r.env.freshUid s.drawn
        let objects ← saveCoded s.objects (reconstructedTournament r entry uid winner)
          (r.mints s.drawn)
        pure { s.resolve entry.id uid with
          objects
          drawn := s.drawn + 1
          created := s.created + 1 }

/-! ### Importing decks -/

/-- The table, the decks created, the entries without an event and the winners that got a deck. -/
structure DeckImport where
  objects : Objects
  drawn : ℕ
  created : ℕ
  stale : List String
  touched : List Uid

/-- `twda_import.py:492-503`. -/
def importedDeck (r : TwdaRun) (entry : TwdaEntry) (uid tournamentUid winnerUid : Uid) :
    StoredDeck where
  uid
  userUid := winnerUid
  round := none
  isPublic := true
  isWinner := true
  isPrivate := false
  content := ⟨entry.name, entry.comments, flattenTwdaCards entry⟩
  modified := r.env.now
  tournamentUid
  attribution := ⟨.owner, "", ""⟩
  views := []
  deletedAt := none

/-- `twda_import.py:477-508`; `snapshot` is the table as it was when the winners and the owners of
decks were read. -/
def importDeck (r : TwdaRun) (snapshot : Objects) (resolved : List (String × Uid))
    (s : DeckImport) (entry : TwdaEntry) : DeckImport :=
  match knownTournament resolved entry.id with
  | none => s
  | some tournamentUid =>
    match winnerByTournamentUid snapshot tournamentUid with
    | none => { s with stale := s.stale ++ [entry.id] }
    | some winner =>
      if winner = "" ∨ flattenTwdaCards entry = [] then s
      else if winner ∈ deckOwners snapshot tournamentUid then s
      else { s with
        objects := saveDeck s.objects
          (importedDeck r entry (r.env.freshUid s.drawn) tournamentUid winner)
        drawn := s.drawn + 1
        created := s.created + 1
        touched := winner :: s.touched }

/-- `twda_import.py:458`. -/
def importDecks (r : TwdaRun) (resolved : List (String × Uid)) (drawn : ℕ) (objects : Objects) :
    DeckImport :=
  r.entries.foldl (importDeck r objects resolved) ⟨objects, drawn, 0, [], []⟩

/-! ### A run -/

/-- `twda_import.py:362`. -/
structure TwdaStats where
  entries : ℕ
  created : ℕ
  settled : ℕ
  unresolved : ℕ
  staleTargets : ℕ
  orphaned : ℕ
  decksCreated : ℕ
  deferredToBackfill : ℕ
  deriving DecidableEq, Repr

/-- Entries nobody has settled yet, and that a decision settles. -/
def pendingEntries (r : TwdaRun) (known : List (String × Uid)) : ℕ :=
  r.entries.countP fun e => (known.lookup e.id).isNone && (r.decisions.get e.id).isSome

/-- `twda_import.py:338`. -/
def runTwdaSync (r : TwdaRun) (objects : Objects) : Except RouteError (Objects × TwdaStats) := do
  let known := tournamentsByTwdaId objects
  let pending := pendingEntries r known
  let bulk := r.maxCreates.any fun m => decide (m < pending)
  let s ← r.entries.foldlM (settleEntry r known bulk) ⟨objects, [], 0, 0, 0, 0⟩
  let orphaned := (known.map Prod.fst).dedup.filter fun id =>
    decide (id ∉ r.entries.map TwdaEntry.id)
  let decks := importDecks r s.resolved s.drawn s.objects
  pure (recomputeWins r.env decks.objects decks.touched.dedup, {
    entries := r.entries.length
    created := s.created
    settled := s.settled
    unresolved := s.unresolved
    staleTargets := decks.stale.length
    orphaned := orphaned.length
    decksCreated := decks.created
    deferredToBackfill := if bulk then pending else 0 })

end Archon.Backend

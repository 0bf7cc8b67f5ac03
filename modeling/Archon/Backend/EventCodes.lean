import Archon.Library.Runs
import Archon.Backend.Frames
import Archon.Backend.ServerWrites

/-!
# Short links (`db.py:1150-1249`)

A string is looked up among the event codes of the live tournaments, in any case, and on a miss
among their VEKN event ids. A code is written once, from the VEKN id, the archive key or a mint;
a unique index over all rows, deleted ones included, keeps codes apart.
-/

namespace Archon.Backend
open Engine Guards

/-! ### Resolution -/

def StoredTournament.code (t : StoredTournament) : String := t.owned.eventCode

def StoredTournament.vekn (t : StoredTournament) : Option String := t.externalId "vekn"

/-- The tournament of a row whose `deleted_at` column is null. -/
def Row.liveTournament (r : Row) : Option StoredTournament :=
  if r.deletedAt = none then r.object.asTournament else none

def liveTournaments (objects : Objects) : List StoredTournament :=
  objects.rows.filterMap fun r => r.2.liveTournament

/-- `lower("full"->>'event_code') = lower(%s)`, of a row that has a code. -/
def StoredTournament.hasCode (t : StoredTournament) (s : String) : Bool :=
  t.code != "" && lower t.code == lower s

section Resolution

-- `LIMIT 1` without an order: any of the rows found
variable (pick : List StoredTournament → Option StoredTournament)

/-- `db.py:1171`. -/
def getTournamentByVeknEventId (objects : Objects) (eventId : String) : Option StoredTournament :=
  pick ((liveTournaments objects).filter fun t => t.vekn == some eventId)

/-- `db.py:1150`. -/
def getTournamentByEventCode (objects : Objects) (code : String) : Option StoredTournament :=
  (pick ((liveTournaments objects).filter fun t => t.hasCode code)).or
    (getTournamentByVeknEventId pick objects code)

/-- What is picked is among the rows, and there is a pick when there is a row. -/
structure PicksRow : Prop where
  mem : ∀ rows t, pick rows = some t → t ∈ rows
  found : ∀ rows, pick rows = none → rows = []

end Resolution

/-- Whatever row is picked, the string leads to the tournament. -/
def ResolvesTo (objects : Objects) (s : String) (uid : Uid) : Prop :=
  ∀ pick, PicksRow pick → ∃ t, getTournamentByEventCode pick objects s = some t ∧ t.uid = uid

/-- Some pick leads the string to the tournament. -/
def MayResolveTo (objects : Objects) (s : String) (uid : Uid) : Prop :=
  ∃ pick, PicksRow pick ∧ ∃ t, getTournamentByEventCode pick objects s = some t ∧ t.uid = uid

/-! ### Handing out codes -/

/-- `db.py:1206`: deleted rows keep their code. -/
def eventCodeTaken (objects : Objects) (code : String) : Bool :=
  objects.rows.any fun r => r.2.object.asTournament.any fun t => t.hasCode code

/-- `db.py:1225-1238`: the candidates in turn, the VEKN id, the archive key and up to twenty draws
that do not read as a number. -/
def offeredCodes (t : StoredTournament) (draws : List String) : List String :=
  ([t.externalId "vekn", t.externalId "twda"].filterMap id).filter (· ≠ "")
    ++ (draws.take 20).filter fun c => !c.toList.all Char.isDigit

/-- `db.py:1217`: the first candidate no row has. -/
def resolveCode (objects : Objects) (t : StoredTournament) (draws : List String) :
    Except RouteError String :=
  okOr ((offeredCodes t draws).find? fun c => !eventCodeTaken objects c)
    (.http 500 "event code space exhausted")

def StoredTournament.withCode (t : StoredTournament) (code : String) : StoredTournament :=
  { t with owned := { t.owned with eventCode := code } }

def StoredTournament.withExternalIds (t : StoredTournament) (ids : List (String × String)) :
    StoredTournament :=
  { t with owned := { t.owned with externalIds := ids } }

/-- `schema.sql:261`: no other row has the code of a row that has one, whatever its case. -/
def CodeFree (objects : Objects) (t : StoredTournament) : Prop :=
  t.code ≠ "" → ∀ r ∈ objects.rows, r.1 ≠ t.uid →
    ∀ o ∈ r.2.object.asTournament, o.hasCode t.code = false

instance (objects : Objects) (t : StoredTournament) : Decidable (CodeFree objects t) :=
  inferInstanceAs (Decidable (t.code ≠ "" → ∀ r ∈ objects.rows, r.1 ≠ t.uid →
    ∀ o ∈ r.2.object.asTournament, o.hasCode t.code = false))

/-- `save_tournament` under the unique index. -/
def saveIndexed (objects : Objects) (t : StoredTournament) : Except RouteError Objects := do
  ensure (CodeFree objects t) (.http 500 "UniqueViolation")
  pure (saveTournament objects t)

/-! ### The writers -/

inductive LinkWrite where
  /-- `tournaments.py:768`: an event created in the app has no ids and no code yet. -/
  | created (t : StoredTournament)
  /-- `tournaments.py:2231`: an event created on a device, with what the device sends. -/
  | broughtOnline (t : StoredTournament) (draws : List String)
  /-- `vekn_tournament_sync.py:773`. -/
  | synced (t : StoredTournament) (eventId : String) (draws : List String)
  /-- `twda_import.py:416`. -/
  | reconstructed (t : StoredTournament) (entryId : String) (draws : List String)
  /-- `vekn_push.py:270`. -/
  | pushed (uid : Uid) (eventId : String)
  /-- `vekn_tournament_sync.py:457`. -/
  | adopted (uid : Uid) (eventId : String)
  /-- `db.py:1241`. -/
  | codeEnsured (uid : Uid) (draws : List String)
  | softDeleted (uid : Uid) (now : Stamp)

/-- A row nobody has deleted. -/
def StoredTournament.undeleted (t : StoredTournament) : StoredTournament :=
  { t with deletedAt := none }

/-- A new row with the code `resolve_event_code` gives it. -/
def saveCoded (objects : Objects) (t : StoredTournament) (draws : List String) :
    Except RouteError Objects := do
  let code ← resolveCode objects t draws
  saveIndexed objects (t.withCode code)

/-- `external_ids["vekn"] = event_id`. -/
def StoredTournament.withVekn (t : StoredTournament) (eventId : String) : StoredTournament :=
  t.withExternalIds (setExternalId t.owned.externalIds "vekn" eventId)

/-- No live tournament has the VEKN id. -/
def Unclaimed (objects : Objects) (eventId : String) : Prop :=
  ∀ t ∈ liveTournaments objects, t.vekn ≠ some eventId

instance (objects : Objects) (eventId : String) : Decidable (Unclaimed objects eventId) :=
  inferInstanceAs (Decidable (∀ t ∈ liveTournaments objects, t.vekn ≠ some eventId))

def LinkWrite.serve (objects : Objects) : LinkWrite → Except RouteError Objects
  | created t => saveIndexed objects ((t.withExternalIds []).withCode "").undeleted
  | broughtOnline t draws =>
    if t.code = "" then saveCoded objects t.undeleted draws else saveIndexed objects t.undeleted
  | synced t eventId draws => do
    ensure (Unclaimed objects eventId) (.http 409 "held already")
    saveCoded objects (t.withExternalIds [("vekn", eventId)]).undeleted draws
  | reconstructed t entryId draws =>
    saveCoded objects (t.withExternalIds [("twda", entryId)]).undeleted draws
  | pushed uid eventId => do
    let t ← okOr (objects.tournament? uid) (.http 404 "Tournament not found")
    saveIndexed objects (t.withVekn eventId)
  | adopted uid eventId => do
    ensure (Unclaimed objects eventId) (.http 409 "held already")
    let t ← okOr (objects.tournament? uid) (.http 404 "Tournament not found")
    ensure (t.deletedAt = none ∧ t.vekn.getD "" = "") (.http 409 "not the same event")
    saveIndexed objects (t.withVekn eventId)
  | codeEnsured uid draws => do
    let t ← okOr (objects.tournament? uid) (.http 404 "Tournament not found")
    if t.code = "" then saveCoded objects t draws else pure objects
  | softDeleted uid now => do
    let t ← okOr (objects.tournament? uid) (.http 404 "Tournament not found")
    saveIndexed objects { t with deletedAt := some now }

/-- The uid a write brings in. -/
def LinkWrite.newUid : LinkWrite → Option Uid
  | created t | broughtOnline t _ | synced t _ _ | reconstructed t _ _ => some t.uid
  | _ => none

/-- Runs of accepted writes from an empty table; a new event has a new uid. -/
def linkSystem : System Objects LinkWrite where
  init objects := objects = ∅
  step objects w objects' := (∀ uid ∈ w.newUid, uid ∉ objects) ∧ w.serve objects = .ok objects'

end Archon.Backend

import Mathlib.Data.List.AList
import Archon.Backend.Permissions

/-!
# The objects table (`db.py`)

One table holds every object under its uid, whatever its type; `save_object` inserts or replaces
the row. Each reader filters on the type of row it decodes.
-/

namespace Archon.Backend
open Engine

inductive StoredObject where
  | user (u : User)
  | sanction (s : StoredSanction)
  | tournament (t : StoredTournament)
  | deck (d : StoredDeck)
  | league (l : StoredLeague)
  | promo (uid : Uid) (deletedAt : Option Stamp)

/-- A row: the full projection and the `deleted_at` column beside it. -/
structure Row where
  object : StoredObject
  deletedAt : Option Stamp

abbrev Objects := AList fun _ : Uid => Row

/-- `db.py:357`: the type is overwritten with the rest of the row. -/
def saveObject (objects : Objects) (uid : Uid) (object : StoredObject) (deletedAt : Option Stamp) :
    Objects :=
  objects.insert uid ⟨object, deletedAt⟩

/-- The row of a tournament saved by `save_object` alone, without a `deleted_at`. -/
def saveRow (objects : Objects) (t : StoredTournament) : Objects :=
  saveObject objects t.uid (.tournament t) none

/-- `db.py:475`: the column follows the document. -/
def saveTournament (objects : Objects) (t : StoredTournament) : Objects :=
  saveObject objects t.uid (.tournament t) t.deletedAt

def saveUser (objects : Objects) (u : User) : Objects :=
  saveObject objects u.uid (.user u) u.deletedAt

def saveSanction (objects : Objects) (s : StoredSanction) : Objects :=
  saveObject objects s.uid (.sanction s) s.deletedAt

def saveDeck (objects : Objects) (d : StoredDeck) : Objects :=
  saveObject objects d.uid (.deck d) d.deletedAt

/-! ### Readers -/

namespace StoredObject

def asUser : StoredObject → Option User
  | user u => some u
  | _ => none

def asSanction : StoredObject → Option StoredSanction
  | sanction s => some s
  | _ => none

def asTournament : StoredObject → Option StoredTournament
  | tournament t => some t
  | _ => none

def asDeck : StoredObject → Option StoredDeck
  | deck d => some d
  | _ => none

def asLeague : StoredObject → Option StoredLeague
  | league l => some l
  | _ => none

end StoredObject

namespace Objects

/-- `db.py:525`. -/
def find? (objects : Objects) (uid : Uid) : Option StoredObject :=
    (objects.lookup uid).map Row.object

def user? (objects : Objects) (uid : Uid) : Option User :=
  (objects.find? uid).bind StoredObject.asUser

def sanction? (objects : Objects) (uid : Uid) : Option StoredSanction :=
  (objects.find? uid).bind StoredObject.asSanction

def tournament? (objects : Objects) (uid : Uid) : Option StoredTournament :=
  (objects.find? uid).bind StoredObject.asTournament

def league? (objects : Objects) (uid : Uid) : Option StoredLeague :=
  (objects.find? uid).bind StoredObject.asLeague

def rows (objects : Objects) : List (Uid × Row) := objects.entries.map fun e => (e.1, e.2)

def users (objects : Objects) : List User := objects.rows.filterMap fun r => r.2.object.asUser

/-- The users of the rows whose `deleted_at` column is null. -/
def liveUsers (objects : Objects) : List User :=
  objects.rows.filterMap fun r => if r.2.deletedAt = none then r.2.object.asUser else none

/-- `db.py:1568`. -/
def liveLeagues (objects : Objects) : List StoredLeague :=
  objects.rows.filterMap fun r => if r.2.deletedAt = none then r.2.object.asLeague else none

def sanctions (objects : Objects) : List StoredSanction :=
  objects.rows.filterMap fun r => r.2.object.asSanction

def decks (objects : Objects) : List StoredDeck := objects.rows.filterMap fun r => r.2.object.asDeck

end Objects

/-- `db.py:1040`. -/
def getSanctionsForTournament (objects : Objects) (tournamentUid : Uid) : List StoredSanction :=
  objects.sanctions.filter fun s => s.tournamentUid == some tournamentUid && s.deletedAt == none

/-- `db.py:1006`, `1020`. -/
def getSanctionsForUsers (objects : Objects) (uids : List Uid) : List StoredSanction :=
  objects.sanctions.filter fun s => decide (s.userUid ∈ uids)

/-- `db.py:341`. -/
def getDecksForTournament (objects : Objects) (tournamentUid : Uid) : List StoredDeck :=
  objects.decks.filter fun d => d.tournamentUid == tournamentUid && d.deletedAt == none

/-- `db.py:828`. -/
def getUserByVeknId (objects : Objects) (veknId : String) : Option User :=
  objects.users.find? fun u => u.veknId == some veknId && veknId != ""

/-- The letters a lookup by address folds (`LOWER`). -/
def lower (s : String) : String := s.map Char.toLower

/-- `db.py:716`: the sign-in address, then the Discord address, then the contact address of a
member without a sign-in; the smallest uid of the first rank that has one. -/
def getUserByEmail (objects : Objects) (authMethods : List AuthMethod) (email : String) :
    Option User :=
  let byMethod (p : AuthMethod → Bool) := objects.liveUsers.filter fun u =>
    authMethods.any fun a => a.userUid == u.uid && p a
  let byContact := objects.liveUsers.filter fun u =>
    u.contactEmail.map lower == some (lower email) && !authMethods.any fun a => a.userUid == u.uid
  let ranks := [byMethod fun a => a.methodType == "email" && a.identifier == lower email,
    byMethod fun a => a.methodType == "discord" && lower a.email == lower email, byContact]
  (ranks.find? fun us => !us.isEmpty).bind fun us =>
    us.foldl (fun best u => some (best.elim u fun b => if u.uid < b.uid then u else b)) none

/-- `^[0-9]{1,9}$`, as a number. -/
def veknNumber (s : String) : Option ℕ :=
  if 0 < s.length ∧ s.length ≤ 9 ∧ s.toList.all Char.isDigit = true then
    some (s.toList.foldl (fun n c => 10 * n + (c.toNat - 48)) 0)
  else none

/-- `db.py:891`: the first gap from 1000000 on. -/
def allocateNextVeknId (objects : Objects) : String :=
  let taken := objects.users.filterMap fun u => u.veknId.bind veknNumber
  let next := ((List.range (taken.length + 1)).map (1000000 + ·)).find? fun n =>
    decide (n ∉ taken)
  toString (next.getD 1000000)

/-! ### Writes and readers -/

section Lookups

variable {objects : Objects} {uid uid' : Uid} {object : StoredObject} {deletedAt : Option Stamp}

@[simp] theorem lookup_saveObject :
    (saveObject objects uid object deletedAt).lookup uid = some ⟨object, deletedAt⟩ :=
  AList.lookup_insert _

theorem lookup_saveObject_ne (h : uid' ≠ uid) :
    (saveObject objects uid object deletedAt).lookup uid' = objects.lookup uid' :=
  AList.lookup_insert_ne h

end Lookups

end Archon.Backend

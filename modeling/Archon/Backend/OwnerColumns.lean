import Archon.Backend.Accounts

/-!
# The columns of the owner (`db.py:358`, `accounts.py:164`, `317`)

The token of the calendar feed and the two lists of the agenda stand in columns beside the
document of a member. A save leaves a column it has no value for as it is.
-/

namespace Archon.Accounts
open Engine Backend Guards CommunityLinks UserRows

structure OwnerColumns where
  calendarToken : Option String
  agendaHidden : Option (List Uid)
  agendaAdded : Option (List Uid)
  deriving DecidableEq, Repr

def OwnerColumns.null : OwnerColumns := ⟨none, none, none⟩

/-- `COALESCE(EXCLUDED.…, objects.…)`. -/
def OwnerColumns.coalesce (new old : OwnerColumns) : OwnerColumns where
  calendarToken := new.calendarToken.or old.calendarToken
  agendaHidden := new.agendaHidden.or old.agendaHidden
  agendaAdded := new.agendaAdded.or old.agendaAdded

/-- The accounts, with the columns of each row. -/
structure OwnedStore where
  accounts : Store
  owner : Uid → OwnerColumns

namespace OwnedStore

/-- `db.py:766`. -/
def getCalendarToken (s : OwnedStore) (uid : Uid) : Option String :=
  if uid ∈ s.accounts.users then (s.owner uid).calendarToken else none

/-- `db.py:781`. -/
def getAgenda (s : OwnedStore) (uid : Uid) : List Uid × List Uid :=
  if uid ∈ s.accounts.users then
    ((s.owner uid).agendaHidden.getD [], (s.owner uid).agendaAdded.getD [])
  else ([], [])

/-- `db.py:813`. -/
def clearOwnerColumns (s : OwnedStore) (uid : Uid) : OwnedStore :=
  { s with owner := Function.update s.owner uid .null }

/-- `db.py:358`: a new row takes the columns as given. -/
def save (s : OwnedStore) (row : UserRow) (columns : OwnerColumns) : OwnedStore where
  accounts := s.accounts.save row
  owner := Function.update s.owner row.uid
    (if row.uid ∈ s.accounts.users then columns.coalesce (s.owner row.uid) else columns)

/-- `accounts.py:317`, for a row that was read. -/
def detach (s : OwnedStore) (d : Draws) (row : UserRow) : OwnedStore :=
  let feedToken := s.getCalendarToken row.uid
  let agenda := s.getAgenda row.uid
  let s := s.clearOwnerColumns row.uid
  let s := s.save (Store.personalAccount d row) ⟨feedToken, some agenda.1, some agenda.2⟩
  let s := { s with accounts := s.accounts.reassignAuthMethods row.uid d.newUid }
  s.save (Store.veknRecord d row) .null

/-- `accounts.py:317`. -/
def detachUserFromVekn (s : OwnedStore) (d : Draws) (userUid : Uid) : Option OwnedStore :=
  (s.accounts.users.lookup userUid).map (s.detach d)

/-- `accounts.py:186-194`: the token and the agenda of the absorbed account, if it has any. -/
def mergedColumns (s : OwnedStore) (keepUid deleteUid : Uid) : OwnerColumns :=
  let claimed := s.getAgenda deleteUid
  let agenda := if claimed.1 ≠ [] ∨ claimed.2 ≠ [] then claimed else s.getAgenda keepUid
  { calendarToken := either (s.getCalendarToken deleteUid) (s.getCalendarToken keepUid)
    agendaHidden := some agenda.1
    agendaAdded := some agenda.2 }

/-- `accounts.py:164`: the columns are written with the survivor's row; no other save of the merge
has a value for them. -/
def mergeUsers (s : OwnedStore) (d : Draws) (keepUid deleteUid : Uid) :
    Except RouteError (Option OwnedStore) := do
  let merged ← s.accounts.mergeUsers d keepUid deleteUid
  pure (merged.map fun accounts =>
    { accounts
      owner :=
        if keepUid ≠ deleteUid ∧ deleteUid ∈ s.accounts.users then
          Function.update s.owner keepUid
            ((s.mergedColumns keepUid deleteUid).coalesce (s.owner keepUid))
        else s.owner })

end OwnedStore

end Archon.Accounts

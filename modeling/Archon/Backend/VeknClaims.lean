import Archon.Library.Interleaving
import Archon.Backend.Frames
import Archon.Backend.Store

/-!
# Claiming a VEKN id (`routes/vekn.py`, `accounts.py`)

A member without an id claims the record that bears it, and the record takes his account over:
claim_vekn_id and the merge_users behind it, one database statement at a time. The statements
on NDA records, sanctions, decks, wins and sponsorships in between write no sign-in and no VEKN id;
they are left out.
-/

namespace Archon.Claims
open Engine Backend

/-! ### Joining two accounts -/

/-- `accounts.py:165`, the fields of the survivor. `sponsor` picks the side whose sponsor is
kept. -/
def mergedUser (sponsor : User → User → User) (keep delete : User) : User :=
  { keep with
    name := if keep.name = "" then delete.name else keep.name
    country := if keep.country.getD "" = "" then delete.country else keep.country
    veknId := if keep.veknId.getD "" = "" then delete.veknId else keep.veknId
    roles := (keep.roles ++ delete.roles).dedup
    contactEmail := if delete.contactEmail.getD "" = "" then keep.contactEmail
      else delete.contactEmail
    cooptedBy := (sponsor keep delete).cooptedBy
    cooptedAt := (sponsor keep delete).cooptedAt }

/-- `db.py:701`. -/
def tombstone (u : User) (now : Stamp) : User := { u with deletedAt := some now, modified := now }

/-- A row of the sign-ins. -/
abbrev AuthRow := Uid × AuthMethod

def methodsOf (rows : List AuthRow) (uid : Uid) : List AuthRow :=
  rows.filter fun m => m.2.userUid = uid

/-- `UPDATE auth_methods SET data = … WHERE uid = …`. -/
def writeMethod (rows : List AuthRow) (row : AuthRow) : List AuthRow :=
  rows.map fun m => if m.1 = row.1 then row else m

/-! ### Requests -/

/-- A claim that found its record without sign-ins. -/
structure Claim where
  actor : Uid
  record : Uid
  veknId : String
  deriving DecidableEq, Repr

/-- The statement a request is to run next, with what it has read. -/
inductive Phase where
  | idle
  /-- `vekn.py:68`. -/
  | find (actor : Uid) (veknId : String)
  /-- `db.py:846`. -/
  | test (actor record : Uid) (veknId : String)
  /-- `db.py:849`. -/
  | methods (claim : Claim) (found : Uid)
  /-- `accounts.py:168`. -/
  | keep (claim : Claim)
  | delete (claim : Claim) (keep : User)
  /-- `accounts.py:237`. -/
  | merge (claim : Claim) (keep delete : User)
  /-- `accounts.py:90`. -/
  | select (claim : Claim)
  /-- `accounts.py:98-104`. -/
  | move (claim : Claim) (pending : List AuthRow)
  /-- `db.py:704`. -/
  | retire (claim : Claim)
  | bury (claim : Claim) (user : User)

/-- The claim of a request that has passed its test. -/
def Phase.claim : Phase → Option Claim
  | keep c | delete c _ | merge c _ _ | select c | move c _ | retire c | bury c _ => some c
  | _ => none

/-- The tables, and how the requests fared: those whose test found no sign-in, and those accepted.
`origin` is the account a sign-in stood under before any request. -/
structure State where
  objects : Objects
  methods : List AuthRow
  origin : Uid → Uid
  passed : List Claim
  accepted : List Claim

inductive Input where
  | claim (actor : Uid) (veknId : String)
  | next (now : Stamp)

def State.pass (s : State) (c : Claim) : State := { s with passed := s.passed ++ [c] }

section Steps

variable (sponsor : User → User → User)

/-- `vekn.py:61-67`. -/
def start (s : State) (actor : Uid) (veknId : String) : State × Phase :=
  match s.objects.user? actor with
  | some u =>
    (s, if u.deletedAt = none ∧ u.veknId.getD "" = "" then .find actor veknId else .idle)
  | none => (s, .idle)

/-- The next statement of a request under way. -/
def advance (s : State) (now : Stamp) : Phase → Option (State × Phase)
  | .idle => none
  | .find actor veknId =>
    some (s, match getUserByVeknId s.objects veknId with
      | some u => if u.anonymizedAt = none then .test actor u.uid veknId else .idle
      | none => .idle)
  | .test actor record veknId =>
    some (match getUserByVeknId s.objects veknId with
      | some u => (s, .methods ⟨actor, record, veknId⟩ u.uid)
      | none => (s.pass ⟨actor, record, veknId⟩, .keep ⟨actor, record, veknId⟩))
  | .methods c found =>
    some (if methodsOf s.methods found = [] then (s.pass c, .keep c) else (s, .idle))
  | .keep c =>
    some (s, match s.objects.user? c.record with
      | some keep => .delete c keep
      | none => .idle)
  | .delete c keep =>
    some (match s.objects.user? c.actor with
      | some delete =>
        if c.record = c.actor then ({ s with accepted := s.accepted ++ [c] }, .idle)
        else
          (s, if delete.veknId.getD "" ≠ "" ∨ keep.anonymizedAt ≠ none then .idle
            else .merge c keep delete)
      | none => ({ s with accepted := s.accepted ++ [c] }, .idle))
  | .merge c keep delete =>
    some ({ s with objects := saveUser s.objects (mergedUser sponsor keep delete) }, .select c)
  | .select c => some (s, .move c (methodsOf s.methods c.actor))
  | .move c pending =>
    some (match pending with
      | row :: rest =>
        ({ s with methods := writeMethod s.methods (row.1, { row.2 with userUid := c.record }) },
          .move c rest)
      | [] => (s, .retire c))
  | .retire c =>
    some (match s.objects.user? c.actor with
      | some u =>
        if u.veknId.getD "" ≠ "" then (s, .idle) else (s, .bury c u)
      | none => ({ s with accepted := s.accepted ++ [c] }, .idle))
  | .bury c u =>
    some ({ s with
      objects := saveUser s.objects (tombstone u now)
      accepted := s.accepted ++ [c] }, .idle)

/-- The ids of the members are told apart by the index. -/
def UniqueIds (objects : Objects) : Prop :=
  ∀ u ∈ objects.users, ∀ u' ∈ objects.users, u.veknId.getD "" ≠ "" →
    u.veknId.getD "" = u'.veknId.getD "" → u.uid = u'.uid

instance (objects : Objects) : Decidable (UniqueIds objects) :=
  inferInstanceAs (Decidable (∀ u ∈ objects.users, ∀ u' ∈ objects.users, _))

/-- Claims by any accounts on any ids. -/
def claims : Program State Phase Input where
  init s := WellKeyed s.objects ∧ UniqueIds s.objects ∧
    (∀ m ∈ s.methods, s.origin m.1 = m.2.userUid) ∧ s.passed = [] ∧ s.accepted = []
  idle := .idle
  step s phase
    | .claim actor veknId =>
      match phase with
      | .idle => some (start s actor veknId)
      | _ => none
    | .next now => advance sponsor s now phase

end Steps

end Archon.Claims

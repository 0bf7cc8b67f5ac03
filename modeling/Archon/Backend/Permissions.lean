import Archon.Backend.Records

/-!
# The permission matrix (`engine/src/permissions.rs`, `backend/src/permissions.py`)

The rows of the table that the tournament and sanction routes ask for, the evaluator and the
resolvers for what the table cannot express.
-/

namespace Archon.Backend
open Engine

/-- The capabilities of the tournament and sanction routes. -/
inductive Capability where
  | sponsorMember | createTournament | organizeTournament | forceUnlockTournament
  | editLeague | issueRestrictedSanction | issueTournamentSanction | liftRestrictedSanction
  | liftTournamentSanction | modifySanction | deleteAnySanction | deleteOrganizerSanction
  deriving DecidableEq, Repr

/-- Who holds a capability, in what scope. None of these rows is self-service or covers a target
without a country. -/
structure Rule where
  global : List Role
  sameCountry : List Role
  organizer : Bool

/-- `permissions.rs:234`. -/
def officialRoles : List Role := [.ic, .nc, .prince]

/-- `permissions.rs:238`. -/
def ruleFor : Capability → Rule
  | .sponsorMember => ⟨officialRoles, [], false⟩
  | .createTournament => ⟨officialRoles, [], false⟩
  | .organizeTournament => ⟨[.ic], [.nc], true⟩
  | .forceUnlockTournament => ⟨[.ic], [], false⟩
  | .editLeague => ⟨[.ic], [.nc], true⟩
  | .issueRestrictedSanction => ⟨[.ic, .ethics], [], false⟩
  | .issueTournamentSanction => ⟨[.ic, .ethics], [], true⟩
  | .liftRestrictedSanction => ⟨[.ic, .ethics], [], false⟩
  | .liftTournamentSanction => ⟨[.ic, .rulemonger], [.nc], false⟩
  | .modifySanction => ⟨[.ic, .ethics], [], false⟩
  | .deleteAnySanction => ⟨[.ic, .ethics], [], false⟩
  | .deleteOrganizerSanction => ⟨[], [], true⟩

/-- `permissions.rs:727`: a role held anywhere, a role held in the country of the request, or a
place among the organizers. -/
def check (capability : Capability) (actor : User) (targetCountry : Option String)
    (organizers : List Uid) : Bool :=
  let rule := ruleFor capability
  actor.roles.any (fun r => decide (r ∈ rule.global))
    || (actor.roles.any (fun r => decide (r ∈ rule.sameCountry)) && actor.country.isSome
      && actor.country == targetCountry)
    || (rule.organizer && decide (actor.uid ∈ organizers))

/-- `permissions.py:166`. -/
def isOrganizer (user : User) (t : StoredTournament) : Bool :=
  check .organizeTournament user t.country t.doc.organizersUids

/-- `permissions.rs:865`. -/
def canTakeTournamentOffline (user : User) (t : StoredTournament) : Bool :=
  isOrganizer user t && check .sponsorMember user none []

def canForceUnlockTournament (user : User) : Bool := check .forceUnlockTournament user none []

def canCreateTournament (user : User) : Bool := check .createTournament user none []

/-- `permissions.rs:892`. -/
def canLinkTournamentToLeague (user : User) (league : StoredLeague) : Bool :=
  check .editLeague user league.country league.organizersUids
    || (league.openToCountryPrinces && decide (Role.prince ∈ user.roles) && user.country.isSome
      && user.country == league.country)

/-- `permissions.rs:955`. -/
def restrictedLevel (level : SanctionLevel) : Bool :=
  level == .suspension || level == .probation

/-- `permissions.rs:960`. -/
def organizerIssuable (level : SanctionLevel) : Bool :=
  level == .caution || level == .warning || level == .standingsAdjustment
    || level == .disqualification

/-- `permissions.rs:967`. -/
def canIssueSanction (issuer : User) (level : SanctionLevel) (t : Option StoredTournament) : Bool :=
  let organizers := t.elim [] fun t => t.doc.organizersUids
  if restrictedLevel level then check .issueRestrictedSanction issuer none organizers
  else check .issueTournamentSanction issuer none organizers

/-- `permissions.rs:985`. -/
def canLiftSanction (user : User) (sanction : StoredSanction) (t : Option StoredTournament) :
    Bool :=
  if restrictedLevel sanction.level then check .liftRestrictedSanction user none []
  else check .liftTournamentSanction user (t.bind StoredTournament.country) []

def canModifySanction (user : User) : Bool := check .modifySanction user none []

/-- `permissions.rs:1002`. -/
def canDeleteSanction (user : User) (sanction : StoredSanction) (t : Option StoredTournament) :
    Bool :=
  if check .deleteAnySanction user none [] then true
  else if !organizerIssuable sanction.level
      || t.any (fun t => decide (t.doc.state = .finished)) then false
  else check .deleteOrganizerSanction user none (t.elim [] fun t => t.doc.organizersUids)

end Archon.Backend

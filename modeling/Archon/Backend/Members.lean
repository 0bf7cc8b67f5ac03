import Archon.Backend.Frames
import Archon.Backend.SanctionRoutes

/-!
# Member records (`backend/src/routes/users.py`)

Creating a member and editing one, with the appointment matrix and its resolvers. A request checks
the roles and the country it changes against the member as stored, one by one.
-/

namespace Archon.Backend
open Engine Guards

/-! ### Appointments -/

/-- Who may grant or revoke a role, anywhere or in the actor's own country. -/
structure Appointment where
  global : List Role
  sameCountry : List Role

/-- `permissions.rs:623`, `ROLE_APPOINTMENTS`. -/
def appointmentFor : Role → Appointment
  | .prince => ⟨[.ic], [.nc]⟩
  | .pt => ⟨[.ic, .ptc], []⟩
  | .judge => ⟨[], []⟩
  | .sheriff => ⟨[], []⟩
  | .ic => ⟨[.ic], []⟩
  | .nc => ⟨[.ic], []⟩
  | .ethics => ⟨[.ic], []⟩
  | .ptc => ⟨[.ic], []⟩
  | .rulemonger => ⟨[.ic], []⟩
  | .dev => ⟨[.ic], []⟩

def User.hasAny (u : User) (roles : List Role) : Bool := roles.any fun r => decide (r ∈ u.roles)

/-- `permissions.rs:777`: a role hangs off a VEKN id, and granting PT takes an NDA on record. -/
def canChangeRole (actor target : User) (role : Role) (targetHasNda : Bool) : Bool :=
  if target.veknId = none then false
  else if role = .pt ∧ .pt ∉ target.roles ∧ targetHasNda = false then false
  else if actor.hasAny (appointmentFor role).global = true then true
  else if actor.hasAny (appointmentFor role).sameCountry = true then
    actor.country.isSome && actor.country == target.country
  else false

/-- `permissions.rs:807`. -/
def officialRolesByAuthority : List Role := [.ic, .nc, .prince]

/-- `permissions.rs:811`: the authority over the highest official role of the member as he is. -/
def canChangeCountry (actor target : User) : Bool :=
  match officialRolesByAuthority.find? fun r => decide (r ∈ target.roles) with
  | some highest => canChangeRole actor target highest false
  | none => true

/-- `permissions.rs:262`, the row `edit_member_profile`: one's own profile, any as IC, those of
one's country as NC. -/
def canEditUser (actor target : User) : Bool :=
  target.uid == actor.uid || actor.hasAny [.ic]
    || (actor.hasAny [.nc] && actor.country.isSome && actor.country == target.country)

def canSponsorMember (actor : User) : Bool := check .sponsorMember actor none []

/-! ### Requests -/

structure CreateUserRequest where
  name : String
  country : String
  city : Option String
  cityGeonameId : Option ℕ
  state : Option String
  nickname : Option String
  email : Option String
  roles : Option (List String)

structure UpdateUserRequest where
  name : Option String
  country : Option String
  city : Option String
  cityGeonameId : Option ℕ
  state : Option String
  nickname : Option String
  roles : Option (List String)

/-- What a member request takes from its surroundings: the clock, a new uid, the shape a country is
stored in, the sign-ins and the NDA records. -/
structure Registry where
  now : Stamp
  newUid : Uid
  storedCountry : Option String → Option String
  authMethods : List AuthMethod
  userHasNda : Uid → Bool

/-- The roles in the order of the enumeration. -/
def Role.all : List Role :=
  [.ic, .nc, .prince, .ethics, .ptc, .pt, .rulemonger, .judge, .sheriff, .dev]

/-- `Role(role_str)`. -/
def Role.ofStr (s : String) : Option Role := Role.all.find? fun r => r.asStr == s

/-- `users.py:83-94`, `203-214`: empty strings are passed over. -/
def validateRoles (roles : List String) : Except RouteError (List Role) :=
  (roles.filter fun s => s != "").mapM fun s =>
    okOr (Role.ofStr s) (.http 400 ("Invalid role: " ++ s ++ ". Valid roles: ['"
      ++ "', '".intercalate (Role.all.map Role.asStr) ++ "']"))

/-- `users.py:69-71`, `162-164`. -/
def storeCountry (registry : Registry) (country : Option String) :
    Except RouteError (Option String) :=
  let stored := registry.storedCountry country
  if country.getD "" ≠ "" ∧ stored = none then
    .error (.http 422 ("Invalid country: " ++ country.getD ""))
  else .ok stored

/-- Every role is one the actor may change, as the member stands. -/
def checkRoles (actor target : User) (targetHasNda : Bool) (verb : String) (roles : List Role) :
    Except RouteError Unit :=
  match roles.find? fun r => !canChangeRole actor target r targetHasNda with
  | some r => .error (.http 403 ("You don't have permission to " ++ verb ++ " the " ++ r.asStr
      ++ " role"))
  | none => .ok ()

/-- `users.py:113-128`. -/
def newMember (registry : Registry) (objects : Objects) (actor : User) (data : CreateUserRequest)
    (country : Option String) (roles : List Role) : User where
  uid := registry.newUid
  modified := registry.now
  name := data.name
  country
  veknId := some (allocateNextVeknId objects)
  contactEmail := if data.email.getD "" = "" then none else data.email.map lower
  roles
  cooptedBy := some actor.uid
  cooptedAt := some registry.now
  wins := []
  ratings := fun _ => none
  anonymizedAt := none
  deletedAt := none

/-- `users.py:63`. -/
def createUser (registry : Registry) (objects : Objects) (actorUid : Uid)
    (data : CreateUserRequest) : Except RouteError Objects := do
  let country ← storeCountry registry (some data.country)
  let actor ← okOr (objects.user? actorUid) (.http 401 "Authentication required")
  ensure (canSponsorMember actor = true) (.http 403 "Only IC, NC, or Prince can create users")
  let roles ← validateRoles (data.roles.getD [])
  let email := data.email.getD ""
  ensure (email = "" ∨ getUserByEmail objects registry.authMethods email = none)
    (.http 409 "A member with this email already exists")
  let user := newMember registry objects actor data country roles
  checkRoles actor user false "assign" roles
  pure (saveUser objects user)

/-- `users.py:176-179`. -/
def UpdateUserRequest.editsProfile (data : UpdateUserRequest) (country : Option String) : Bool :=
  data.name.isSome || country.isSome || data.city.isSome || data.cityGeonameId.isSome
    || data.state.isSome || data.nickname.isSome

/-- The roles added and the roles removed. -/
def changedRoles (old new : List Role) : List Role :=
  new.filter (fun r => decide (r ∉ old)) ++ old.filter fun r => decide (r ∉ new)

/-- `users.py:199-238`: the roles after the edit, each change checked against the member as he
is. -/
def editedRoles (registry : Registry) (actor user : User) (uid : Uid) :
    Option (List String) → Except RouteError (List Role)
  | none => .ok user.roles
  | some names => do
    let roles ← validateRoles names
    checkRoles actor user (registry.userHasNda uid) "change" (changedRoles user.roles roles)
    ensure (roles ≠ [] → user.veknId.getD "" ≠ "")
      (.http 400 "User must have a VEKN ID to be assigned roles")
    pure roles

/-- `users.py:156`. -/
def updateUser (registry : Registry) (objects : Objects) (actorUid uid : Uid)
    (data : UpdateUserRequest) : Except RouteError Objects := do
  let country ← storeCountry registry data.country
  let actor ← okOr (objects.user? actorUid) (.http 401 "Authentication required")
  let user ← okOr (objects.user? uid) (.http 404 "User not found")
  let editsProfile := data.editsProfile country
  ensure (editsProfile = true → user.anonymizedAt = none)
    (.http 400 "An anonymized member's profile cannot be edited")
  ensure (canEditUser actor user = true ∨ (editsProfile = false ∧ data.roles ≠ none))
    (.http 403 "You don't have permission to edit this user")
  ensure (country ≠ none → country ≠ user.country → canChangeCountry actor user = true)
    (.http 403 "You don't have permission to change this official's country")
  let roles ← editedRoles registry actor user uid data.roles
  if editsProfile = true ∨ data.roles ≠ none then
    pure (saveUser objects { user with
      modified := registry.now
      name := data.name.getD user.name
      country := country.or user.country
      roles })
  else pure (saveUser objects user)

/-! ### A sequence of requests -/

inductive MemberRequest where
  | create (data : CreateUserRequest)
  | update (uid : Uid) (data : UpdateUserRequest)

structure MemberCall where
  registry : Registry
  actorUid : Uid
  request : MemberRequest

def MemberCall.serve (call : MemberCall) (objects : Objects) : Except RouteError Objects :=
  match call.request with
  | .create data => createUser call.registry objects call.actorUid data
  | .update uid data => updateUser call.registry objects call.actorUid uid data

/-- The table under accepted requests. -/
def memberSystem : System Objects MemberCall where
  init := fun _ => True
  step objects call objects' := call.serve objects = .ok objects'

end Archon.Backend

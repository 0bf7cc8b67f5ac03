import Mathlib.Logic.Function.Basic
import Archon.Library.FirstGap
import Archon.Backend.Members
import Archon.Backend.Offline

/-!
# Handing out VEKN ids (`db.py:891`, `routes/users.py`, `routes/vekn.py`, `routes/tournaments.py`)

The requests that allocate an id and then save the member who carries it: create_user,
sponsor_new_member, and go_online for the players it met offline. They run one database statement at
a time; a request under way is a phase. The reads that only let a request go on (the actor, an
address that is taken) answer anything.
-/

namespace Archon.VeknIds
open Engine Backend Guards

/-! ### Requests under way -/

/-- The players of a go_online request still to resolve, `created` accounts on. -/
structure OfflineLoop where
  env : Env
  country : Option String
  organizer : Uid
  players : List OfflinePlayerData
  created : ℕ

/-- A member about to receive an id. -/
inductive Candidate where
  /-- `users.py:111-128`. -/
  | create (registry : Registry) (actor : User) (data : CreateUserRequest)
      (country : Option String) (roles : List Role)
  /-- `vekn.py:178-190`, `tournaments.py:1977-1988`: a member found without one. -/
  | coopt (env : Env) (organizer : Uid) (target : User)
  /-- `tournaments.py:1991-2004`. -/
  | mint (env : Env) (country : Option String) (organizer : Uid) (created : ℕ)
      (player : OfflinePlayerData)

namespace Candidate

/-- The member to save, under the id the table gives. -/
def member (objects : Objects) : Candidate → User
  | create registry actor data country roles => newMember registry objects actor data country roles
  | coopt env organizer target => coopted env objects organizer target
  | mint env country organizer created player =>
    mintedUser env objects created country organizer player

/-- The uid drawn for a new account. -/
def newUid? : Candidate → Option Uid
  | create registry .. => some registry.newUid
  | coopt .. => none
  | mint env _ _ created _ => some (env.freshUid created)

/-- `users.py:130-135`: the roles of a new member are checked once he has his id. -/
def approved (objects : Objects) (c : Candidate) : Bool :=
  match c with
  | create _ actor _ _ roles =>
    match checkRoles actor (c.member objects) false "assign" roles with
    | .ok _ => true
    | .error _ => false
  | _ => true

end Candidate

inductive Phase where
  | idle
  /-- Before the lookup of the next player by VEKN id. -/
  | players (loop : OfflineLoop)
  /-- Before his lookup by address. -/
  | byEmail (player : OfflinePlayerData) (loop : OfflineLoop)
  | allocate (candidate : Candidate) (loop : Option OfflineLoop)
  | save (member : User) (loop : Option OfflineLoop)

/-- The member a request holds an id for. -/
def Phase.saving : Phase → Option User
  | save member _ => some member
  | _ => none

/-- The table, the requests under way, and what they met: the ids received for a member, saved with
him, and refused by the index. -/
structure State where
  objects : Objects
  authMethods : List AuthMethod
  threads : ℕ → Phase
  received : List (Uid × String)
  saved : List (Uid × String)
  refused : List (Uid × String)
  /-- The uuids drawn. -/
  drawn : List Uid

/-- A request, or the next statement of one under way. -/
inductive Action where
  | create (t : ℕ) (registry : Registry) (actor existing : Option User) (data : CreateUserRequest)
  | sponsor (t : ℕ) (env : Env) (manager : User) (target : Uid)
  | goOnline (t : ℕ) (loop : OfflineLoop)
  | lookupVekn (t : ℕ)
  | lookupEmail (t : ℕ)
  | allocate (t : ℕ)
  | save (t : ℕ)

def State.goTo (s : State) (t : ℕ) (phase : Phase) : State :=
  { s with threads := Function.update s.threads t phase }

/-- The request goes on with its loop, if it has one. -/
def resume (loop : Option OfflineLoop) : Phase := loop.elim .idle .players

/-! ### Statements -/

/-- `users.py:63-108`, up to the allocation: the actor, the stored country and the roles. -/
def checkCreate (registry : Registry) (actor existing : Option User) (data : CreateUserRequest) :
    Except RouteError (User × Option String × List Role) := do
  let country ← storeCountry registry (some data.country)
  let actor ← okOr actor (.http 401 "Authentication required")
  ensure (canSponsorMember actor = true) (.http 403 "Only IC, NC, or Prince can create users")
  let roles ← validateRoles (data.roles.getD [])
  ensure (data.email.getD "" = "" ∨ existing = none)
    (.http 409 "A member with this email already exists")
  pure (actor, country, roles)

/-- A request that passed its checks is about to allocate. -/
def beginCreate (s : State) (t : ℕ) (registry : Registry) (actor existing : Option User)
    (data : CreateUserRequest) : State :=
  match checkCreate registry actor existing data with
  | .ok (actor, country, roles) => s.goTo t (.allocate
    (.create registry actor data country roles) none)
  | .error _ => s

/-- `vekn.py:161-176`. -/
def checkSponsor (objects : Objects) (manager : User) (target : Uid) : Except RouteError User := do
  ensure (canSponsorMember manager = true)
    (.http 403 "Only IC, NC, or Prince can sponsor new members")
  let target ← okOr (objects.user? target) (.http 404 "Target user not found")
  ensure (target.veknId.getD "" = "") (.http 400 "User already has a VEKN ID")
  pure target

def beginSponsor (s : State) (t : ℕ) (env : Env) (manager : User) (target : Uid) : State :=
  match checkSponsor s.objects manager target with
  | .ok target => s.goTo t (.allocate (.coopt env manager.uid target) none)
  | .error _ => s

/-- `tournaments.py:1968-1972`. -/
def lookupVekn (s : State) (t : ℕ) : Option State :=
  match s.threads t with
  | .players loop =>
    match loop.players with
    | [] => some (s.goTo t .idle)
    | p :: rest =>
      let loop' := { loop with players := rest }
      let named := p.veknId.bind fun id =>
        if id = "" ∨ isTemp id = true then none else getUserByVeknId s.objects id
      some (s.goTo t <|
        if named.isSome then .players loop'
        else if p.address = "" then
          .allocate (.mint loop.env loop.country loop.organizer loop.created p)
            (some { loop' with created := loop.created + 1 })
        else .byEmail p loop')
  | _ => none

/-- `tournaments.py:1974-1990`. -/
def lookupEmail (s : State) (t : ℕ) : Option State :=
  match s.threads t with
  | .byEmail p loop =>
    some (s.goTo t <|
      match getUserByEmail s.objects s.authMethods p.address with
      | some u =>
        if u.veknId.getD "" = "" then .allocate (.coopt loop.env loop.organizer u) (some loop)
        else .players loop
      | none =>
        .allocate (.mint loop.env loop.country loop.organizer loop.created p)
          (some { loop with created := loop.created + 1 }))
  | _ => none

/-- A uuid is drawn once. -/
def FreshUid (s : State) (c : Candidate) : Prop :=
  ∀ uid ∈ c.newUid?, uid ∉ s.drawn ∧ s.objects.lookup uid = none

instance (s : State) (c : Candidate) : Decidable (FreshUid s c) :=
  match h : c.newUid? with
  | none => isTrue (by simp [FreshUid, h])
  | some uid => decidable_of_iff (uid ∉ s.drawn ∧ (s.objects.lookup uid).isNone = true)
      (by simp [FreshUid, h])

/-- `db.py:891`; a new member whose roles are refused is not saved. -/
def allocate (s : State) (t : ℕ) : Option State :=
  match s.threads t with
  | .allocate c loop =>
    if FreshUid s c then
      let member := c.member s.objects
      let s := { s with drawn := s.drawn ++ c.newUid?.toList }
      if c.approved s.objects then
        some { s.goTo t (.save member loop) with
          received := s.received ++ [(member.uid, member.veknId.getD "")] }
      else some (s.goTo t .idle)
    else none
  | _ => none

/-- `schema.sql:241`: no other row of a member carries the id. -/
def indexAdmits (objects : Objects) (member : User) : Bool :=
  member.veknId.getD "" == ""
    || objects.users.all fun u => u.uid == member.uid || u.veknId != member.veknId

/-- `db.py:357`, the row written whole. -/
def save (s : State) (t : ℕ) : Option State :=
  match s.threads t with
  | .save member loop =>
    let carried := (member.uid, member.veknId.getD "")
    if indexAdmits s.objects member then
      some { s.goTo t (resume loop) with
        objects := saveUser s.objects member
        saved := s.saved ++ [carried] }
    else some { s.goTo t .idle with refused := s.refused ++ [carried] }
  | _ => none

/-- One statement. A request starts on a thread of its own. -/
def veknStep (s : State) : Action → Option State
  | .create t registry actor existing data =>
    match s.threads t with
    | .idle => some (beginCreate s t registry actor existing data)
    | _ => none
  | .sponsor t env manager target =>
    match s.threads t with
    | .idle => some (beginSponsor s t env manager target)
    | _ => none
  | .goOnline t loop =>
    match s.threads t with
    | .idle => some (s.goTo t (.players loop))
    | _ => none
  | .lookupVekn t => lookupVekn s t
  | .lookupEmail t => lookupEmail s t
  | .allocate t => allocate s t
  | .save t => save s t

/-- The ids of the table are told apart by the index. -/
def UniqueIds (objects : Objects) : Prop :=
  ∀ u ∈ objects.users, ∀ u' ∈ objects.users, u.veknId.getD "" ≠ "" → u.veknId = u'.veknId →
    u.uid = u'.uid

instance (objects : Objects) : Decidable (UniqueIds objects) :=
  inferInstanceAs (Decidable (∀ u ∈ objects.users, ∀ u' ∈ objects.users, _))

/-- The interleavings, from any table with its index and no request under way. -/
def veknSystem : System State Action where
  init s := WellKeyed s.objects ∧ UniqueIds s.objects ∧ (∀ t, s.threads t = .idle) ∧
    s.received = [] ∧ s.saved = [] ∧ s.refused = [] ∧ s.drawn = []
  step s a s' := veknStep s a = some s'

end Archon.VeknIds

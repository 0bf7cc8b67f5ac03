import Archon.Library.Runs
import Archon.Backend.Members

/-!
# The league routes (`routes/leagues.py`)

A league may hang under a meta league. The relation is checked from the child's side when a
league is created or edited, and from the parent's side when a meta league is deleted. Deletion
only marks the row: a deleted league is found and edited like any other.
-/

namespace Archon.Backend
open Engine Guards

inductive LeagueKind where
  | league
  | metaLeague
  deriving DecidableEq, Repr

inductive LeagueStandingsMode where
  | rtp
  | score
  | gp
  deriving DecidableEq, Repr

/-- `models.py:465`, without the league's own final. -/
structure League extends StoredLeague where
  modified : Stamp
  name : String
  kind : LeagueKind
  standingsMode : LeagueStandingsMode
  format : Option String
  start : Option String
  finish : Option String
  description : String
  parentUid : Option Uid
  deriving DecidableEq, Repr

/-- What Python takes for a value: neither null nor empty. -/
def truthy (s : Option String) : Option String := s.filter (· ≠ "")

/-- The parent a league has. -/
def League.parent (l : League) : Option Uid := truthy l.parentUid

/-- The league rows, deleted ones included. -/
abbrev Leagues := AList fun _ : Uid => League

/-- `db.py:1518`. -/
def saveLeague (leagues : Leagues) (l : League) : Leagues := leagues.insert l.uid l

/-- `db.py:1584`: deleted children too. -/
def getChildLeagues (leagues : Leagues) (parentUid : Uid) : List League :=
  (leagues.entries.map fun e => e.2).filter fun l => l.parentUid == some parentUid

/-! ### Permissions -/

/-- `permissions.rs:386`. -/
def canManageLeagues (user : User) : Bool := user.roles.any fun r => decide (r ∈ [Role.ic, .nc])

def canEditLeague (user : User) (l : League) : Bool :=
  check .editLeague user l.country l.organizersUids

/-! ### Requests -/

/-- `leagues.py:38`. -/
structure LeagueCreate where
  name : String
  kind : LeagueKind := .league
  standingsMode : LeagueStandingsMode := .rtp
  format : Option String := none
  country : Option String := none
  start : Option String := none
  finish : Option String := none
  description : String := ""
  parentUid : Option Uid := none
  openToCountryPrinces : Bool := false

/-- `leagues.py:51`: an absent field is `none`, a null one `some none`. -/
structure LeagueUpdate where
  name : Option String := none
  standingsMode : Option LeagueStandingsMode := none
  format : Option (Option String) := none
  country : Option (Option String) := none
  start : Option (Option String) := none
  finish : Option (Option String) := none
  description : Option String := none
  parentUid : Option (Option Uid) := none
  openToCountryPrinces : Option Bool := none

inductive LeagueRequest where
  | create (data : LeagueCreate)
  | update (uid : Uid) (data : LeagueUpdate)
  | delete (uid : Uid)
  | addOrganizer (uid userUid : Uid)
  | removeOrganizer (uid organizerUid : Uid)

/-- A request with its caller and what it takes from its surroundings. -/
structure LeagueCall where
  registry : Registry
  users : Uid → Option User
  user : Option User
  request : LeagueRequest

section Routes

variable (registry : Registry) (leagues : Leagues) (user : Option User)

/-- `leagues.py:72-81`, `149-162`. -/
def checkParent (parentUid : Uid) : Except RouteError Unit := do
  let parent ← okOr (leagues.lookup parentUid) (.http 400 "Parent league not found")
  ensure (parent.kind = .metaLeague) (.http 400 "Parent must be a Meta-League")
  ensure (parent.parent = none) (.http 400 "Cannot nest more than 2 levels")

/-- `leagues.py:91-110`. -/
def newLeague (user : User) (data : LeagueCreate) (country : Option String) : League where
  uid := registry.newUid
  country
  organizersUids := [user.uid]
  openToCountryPrinces := (truthy data.country).isSome && data.openToCountryPrinces
  deletedAt := none
  modified := registry.now
  name := data.name
  kind := data.kind
  standingsMode := data.standingsMode
  format := data.format
  start := data.start
  finish := data.finish
  description := data.description
  parentUid := data.parentUid

/-- `leagues.py:64`. -/
def createLeague (data : LeagueCreate) : Except RouteError Leagues := do
  let user ← okOr user (.http 401 "Authentication required")
  ensure (canManageLeagues user = true) (.http 403 "Only NC and IC can create leagues")
  (truthy data.parentUid).elim (pure ()) (checkParent leagues)
  ensure (data.kind = .metaLeague → truthy data.parentUid = none)
    (.http 400 "Meta-League cannot have a parent")
  let country ← storeCountry registry data.country
  pure (saveLeague leagues (newLeague registry user data country))

/-- `leagues.py:141-162`: what an update may set the parent to. -/
def checkNewParent (uid : Uid) (l : League) (newParent : Option Uid) : Except RouteError Unit := do
  ensure (l.kind ≠ .metaLeague) (.http 400 "Meta-League cannot have a parent")
  (truthy newParent).elim (pure ()) fun p => do
    ensure (p ≠ uid) (.http 400 "League cannot be its own parent")
    checkParent leagues p

/-- `leagues.py:164-171`: the fields sent replace the stored ones. -/
def updatedLeague (l : League) (data : LeagueUpdate) (country : Option String) : League :=
  { l with
    name := data.name.getD l.name
    standingsMode := data.standingsMode.getD l.standingsMode
    format := data.format.getD l.format
    country
    start := data.start.getD l.start
    finish := data.finish.getD l.finish
    description := data.description.getD l.description
    parentUid := data.parentUid.getD l.parentUid
    openToCountryPrinces :=
      (truthy country).isSome && data.openToCountryPrinces.getD l.openToCountryPrinces
    modified := registry.now }

/-- The checks every route on a stored league starts with. -/
def editedLeague (uid : Uid) (refusal : String) : Except RouteError League := do
  let user ← okOr user (.http 401 "Authentication required")
  let l ← okOr (leagues.lookup uid) (.http 404 "League not found")
  ensure (canEditLeague user l = true) (.http 403 refusal)
  pure l

/-- `leagues.py:119`. -/
def updateLeague (uid : Uid) (data : LeagueUpdate) : Except RouteError Leagues := do
  let l ← editedLeague leagues user uid "Not authorized to edit this league"
  let country ← data.country.elim (pure l.country) (storeCountry registry)
  data.parentUid.elim (pure ()) (checkNewParent leagues uid l)
  pure (saveLeague leagues (updatedLeague registry l data country))

/-- `leagues.py:183`. -/
def deleteLeague (uid : Uid) : Except RouteError Leagues := do
  let l ← editedLeague leagues user uid "Not authorized to delete this league"
  ensure (l.kind = .metaLeague → ∀ c ∈ getChildLeagues leagues uid, c.deletedAt ≠ none)
    (.http 400 "Cannot delete Meta-League with active child leagues")
  pure (saveLeague leagues { l with deletedAt := some registry.now, modified := registry.now })

/-- `leagues.py:216`. -/
def addLeagueOrganizer (users : Uid → Option User) (uid userUid : Uid) :
    Except RouteError Leagues := do
  let l ← editedLeague leagues user uid "Not authorized"
  ensure (((users userUid).bind fun u => truthy u.veknId).isSome = true)
    (.http 400 "Organizer must be a VEKN member")
  if userUid ∈ l.organizersUids then pure leagues
  else
    pure (saveLeague leagues
      { l with organizersUids := l.organizersUids ++ [userUid], modified := registry.now })

/-- `leagues.py:247`. -/
def removeLeagueOrganizer (uid organizerUid : Uid) : Except RouteError Leagues := do
  let l ← editedLeague leagues user uid "Not authorized"
  if organizerUid ∈ l.organizersUids then
    ensure (1 < l.organizersUids.length) (.http 400 "Cannot remove the last organizer")
    pure (saveLeague leagues
      { l with organizersUids := l.organizersUids.erase organizerUid, modified := registry.now })
  else pure leagues

/-- The rows after a request. -/
def LeagueCall.serve (call : LeagueCall) : Except RouteError Leagues :=
  match call.request with
  | .create data => createLeague call.registry leagues call.user data
  | .update uid data => updateLeague call.registry leagues call.user uid data
  | .delete uid => deleteLeague call.registry leagues call.user uid
  | .addOrganizer uid userUid =>
    addLeagueOrganizer call.registry leagues call.user call.users uid userUid
  | .removeOrganizer uid organizerUid =>
    removeLeagueOrganizer call.registry leagues call.user uid organizerUid

end Routes

/-- Runs of accepted requests from an empty table; a new uid is not in it. -/
def leagueSystem : System Leagues LeagueCall where
  init leagues := leagues = ∅
  step leagues call leagues' :=
    call.registry.newUid ∉ leagues ∧ call.serve leagues = .ok leagues'

end Archon.Backend

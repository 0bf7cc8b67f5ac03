import Archon.Backend.AccessLevels
import Archon.Backend.Records
import Archon.Library.KeyedStores

/-!
# Who receives what (`broadcast.py`, `db.py`, `main.py`)

The rows of the objects table, the level a viewer is entitled to for each on the live stream, and
what a connection delivers: the corpus at the viewer's base level, followed for a member by the
overlay. The rows of the table carry the projections of one document, so a level stands for the
column that holds it.
-/

namespace Archon.Access

open Archon.Engine Archon.Stream Archon.Backend

/-! ### The objects table -/

/-- A row: the values of its document by name, and the columns beside the projections. -/
structure Row where
  uid : String
  type : ObjectType
  modifiedAt : String
  deletedAt : Option String
  value : String → JsonValue
  named : value "uid" = .text uid
  stamped : modifiedAt ≠ ""
  /-- `db.py:465-469`: the column is the mark of the document. -/
  marked : deletedAt ≠ none → truthy (value "deleted_at") = true

namespace Row

variable (row : Row)

def key : ObjectKey := (row.type, row.uid)

def fullData : Dict := (structFields row.type).map fun k => (k, row.value k)

/-- The column of a level. -/
def column (level : DataLevel) : Option Dict := project level row.type row.fullData

/-- `"full"->>key`. -/
def text (key : String) : Option String :=
  (field (computeFull row.type row.fullData) key).asStr

def organizersUids : List String :=
  textsOf (field (computeFull row.type row.fullData) "organizers_uids")

/-- `("full"->>'private')::boolean`. -/
def isPrivate : Bool := truthy (field (computeFull row.type row.fullData) "private")

/-- What the client sees of the deletion. -/
def isDeleted : Bool := truthy (field row.fullData "deleted_at")

end Row

/-- The objects table, one row a uid. -/
structure Corpus where
  rows : List Row
  unique : (rows.map Row.uid).Nodup

namespace Corpus

variable (c : Corpus)

def row? (key : ObjectKey) : Option Row := c.rows.find? fun r => r.key = key

def tournament? (uid : String) : Option Row := c.row? (.tournament, uid)

end Corpus

/-! ### The live stream -/

/-- `tournament/mod.rs`, the state of a finished tournament. -/
def stateFinished : String := "Finished"

/-- `broadcast.py:97`. -/
def deckOrgUids (isPrivate : Bool) (state : Option String) (organizersUids : List String) :
    List String :=
  if isPrivate ∧ state = some stateFinished then [] else organizersUids

/-- A text that is neither missing nor empty. -/
def given (s : Option String) : Bool := s.any (· ≠ "")

/-- `broadcast.py:105`. -/
def entitledLevel (viewer : Option User) (objType : ObjectType) (uid : String)
    (country : Option String) (orgUids : List String) (objUserUid : Option String) : DataLevel :=
  match viewer with
  | none => .pub
  | some viewer =>
    if .ic ∈ viewer.roles then .full
    else if objType = .promo ∧ .nc ∈ viewer.roles then .full
    else if .nc ∈ viewer.roles ∧ given viewer.country ∧ given country ∧ viewer.country = country
      then
      .full
    else if viewer.uid ∈ orgUids then .full
    else if given viewer.veknId then
      if objType = .user ∧ uid = viewer.uid then .full
      else if objType = .deck ∧ objUserUid = some viewer.uid then .full
      else .member
    else .pub

/-- `db.py:447`, `decks.py:43`: the organizers a save names, those of the tournament for a deck. -/
def Corpus.orgUids (c : Corpus) (row : Row) : List String :=
  if row.type = .deck then
    match (row.text "tournament_uid").bind c.tournament? with
    | some t => deckOrgUids row.isPrivate (t.text "state") t.organizersUids
    | none => []
  else row.organizersUids

/-- `broadcast.py:206-213`. -/
def liveLevel (viewer : Option User) (c : Corpus) (row : Row) : DataLevel :=
  entitledLevel viewer row.type row.uid (row.text "country") (c.orgUids row) (row.text "user_uid")

/-! ### The access version -/

/-- `db.py:266`. -/
def baseDataLevel (viewer : Option User) : DataLevel :=
  match viewer with
  | none => .pub
  | some viewer =>
    if .ic ∈ viewer.roles then .full
    else if given viewer.veknId then .member
    else .pub

/-- An object on the wire. -/
structure Frame where
  type : ObjectType
  data : Dict

/-- `db.py:595-600`: the column, or a tombstone in its place. -/
def Row.streamed (level : DataLevel) (row : Row) : Option Frame :=
  match row.column level with
  | some data => some ⟨row.type, data⟩
  | none =>
    if level = .member ∧ row.type = .deck then
      some ⟨row.type, [("uid", .text row.uid), ("deleted_at", .text row.modifiedAt)]⟩
    else none

/-- `db.py:541`: the rows of a type past the cursor, by `modified_at` and uid. -/
def streamObjects (c : Corpus) (level : DataLevel) (since : Option String) (type : ObjectType) :
    List Frame :=
  ((c.rows.filter fun r => r.type = type ∧ since.all fun s => s < r.modifiedAt).insertionSort
    fun a b => toLex (a.modifiedAt, a.uid) ≤ toLex (b.modifiedAt, b.uid)).filterMap
      (Row.streamed level)

/-! ### The overlay -/

/-- `main.py:1002`. -/
def overlayOwn (u : User) (c : Corpus) : List Row :=
  (c.rows.filter fun r => r.type = .user ∧ r.uid = u.uid)
    ++ c.rows.filter fun r => r.type = .deck ∧ r.text "user_uid" = some u.uid ∧ r.deletedAt = none

/-- `main.py:1018`. -/
def overlayCountry (u : User) (c : Corpus) : List Row :=
  if given u.country ∧ .nc ∈ u.roles then
    (c.rows.filter fun r => r.type = .user ∧ r.text "country" = u.country ∧ r.deletedAt = none)
      ++ c.rows.filter fun r =>
        r.type = .tournament ∧ r.text "country" = u.country ∧ r.deletedAt = none
  else []

/-- `main.py:1043`. -/
def overlayPromos (u : User) (c : Corpus) : List Row :=
  if .nc ∈ u.roles then c.rows.filter fun r => r.type = .promo ∧ r.deletedAt = none else []

/-- `main.py:1054`. -/
def organizedRows (u : User) (c : Corpus) : List Row :=
  c.rows.filter fun r => r.type = .tournament ∧ u.uid ∈ r.organizersUids ∧ r.deletedAt = none

/-- `main.py:1064-1076`. -/
def overlayDecks (u : User) (c : Corpus) : List Row :=
  c.rows.filter fun r => r.type = .deck ∧ r.deletedAt = none ∧
    ((organizedRows u c).find? fun t => some t.uid = r.text "tournament_uid").any fun t =>
      deckOrgUids r.isPrivate (t.text "state") [u.uid] ≠ []

/-- `main.py:981`. -/
def overlayRows (u : User) (c : Corpus) : List Row :=
  overlayOwn u c ++ overlayCountry u c ++ overlayPromos u c ++ organizedRows u c ++ overlayDecks u c

def Row.overlaid (row : Row) : Frame := ⟨row.type, computeFull row.type row.fullData⟩

/-- `main.py:1188-1242`: what a connection delivers before it is live. -/
def catchUp (viewer : Option User) (c : Corpus) (since : Option String) : List Frame :=
  let level := baseDataLevel viewer
  streamTypes.flatMap (streamObjects c level since) ++
    match viewer with
    | some u => if level = .member then (overlayRows u c).map Row.overlaid else []
    | none => []

/-! ### The client -/

/-- `sync.ts:527`: an object marked deleted is removed, another takes the place of the copy. -/
def Frame.write (frame : Frame) : KeyedWrites.Write ObjectKey Dict :=
  { key := (frame.type, ((field frame.data "uid").asStr).getD "")
    value := if truthy (field frame.data "deleted_at") then none else some frame.data }

/-- What a client holds after it took these frames from nothing. -/
def holding (frames : List Frame) : ObjectKey → Option Dict :=
  KeyedWrites.applyAll (fun _ => none) (frames.map Frame.write)

/-- The object as the live stream delivers it to the viewer. -/
def delivered (viewer : Option User) (c : Corpus) (key : ObjectKey) : Option Dict :=
  (c.row? key).bind fun row =>
    (row.column (liveLevel viewer c row)).filter fun data => !truthy (field data "deleted_at")

/-- The object as a fresh connection leaves it with the viewer. -/
def connected (viewer : Option User) (c : Corpus) (key : ObjectKey) : Option Dict :=
  holding (catchUp viewer c none) key

end Archon.Access

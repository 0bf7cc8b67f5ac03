import Mathlib.Data.List.AList
import Archon.Library.Interleaving
import Archon.Library.KeyedStores
import Archon.Backend.Stream

/-!
# Snapshot files (`snapshots.py`, `db.py`)

Transactions that save rows, the purge of deleted ones and the runs that publish one file per
access level, one database statement or rename at a time. A row is stamped with the start of its
transaction and becomes visible when that commits. The committed writes are kept beside the table
in a log, as a history the code does not store.
-/

namespace Archon.Snapshots
open Stream KeyedWrites

/-! ### Rows -/

/-- `snapshots.py:32`, the projections of a row. -/
inductive Level where
  | pub | member | api | full
  deriving DecidableEq

def levels : List Level := [.pub, .member, .api, .full]

/-- `db.py:504`: the column a client's level reads. -/
def levelCol : DataLevel → Level
  | .pub => .pub
  | .member => .member
  | .full => .full

/-- What a save sets of a row; a missing projection is NULL. -/
structure Draft where
  type : ObjectType
  deletedAt : Option ℕ
  projection : Level → Option String

/-- `schema.sql:194`. -/
structure Row extends Draft where
  modifiedAt : ℕ

abbrev Rows := AList fun _ : String => Row

/-- What a level shows of a row that is not deleted. -/
def Row.live (level : Level) (row : Row) : Option String :=
  if row.deletedAt.isSome then none else row.projection level

/-- The live corpus at a level. -/
def corpus (level : Level) (rows : Rows) (uid : String) : Option String :=
  (rows.lookup uid).bind (Row.live level)

/-- The writes that some of the rows stand for, each under its uid. -/
def written (rows : Rows) (f : Row → Option (Option String)) : List (Write String String) :=
  rows.entries.filterMap fun e => (f e.2).map fun value => ⟨e.1, value⟩

/-! ### Files and the catch-up -/

/-- A published file: the stamp of its header and its lines. `readAt` is how many writes had been
committed when the rows were read. -/
structure SnapshotFile where
  generatedAt : ℕ
  lines : List (Write String String)
  readAt : ℕ

/-- `db.py:625`: the lines of the live rows that have a projection. -/
def snapshotLines (level : Level) (rows : Rows) : List (Write String String) :=
  written rows fun row => (row.live level).map some

/-- `db.py:569-598`: what a catch-up sends of a row modified after the cursor. A row without a
projection is skipped, but for a member's decks, which are sent as tombstones; a deletion mark
removes the copy. -/
def catchUp (level : DataLevel) (since : ℕ) (row : Row) : Option (Option String) :=
  if since < row.modifiedAt then
    match row.projection (levelCol level) with
    | some json => some (if row.deletedAt.isSome then none else some json)
    | none => if level = .member ∧ row.type = .deck then some none else none
  else none

def SnapshotFile.load (f : SnapshotFile) : String → Option String :=
  applyAll (fun _ => none) f.lines

/-- The file loaded and the rows modified after its stamp applied. -/
def synced (level : DataLevel) (f : SnapshotFile) (rows : Rows) : String → Option String :=
  applyAll f.load (written rows (catchUp level f.generatedAt))

/-! ### The state -/

/-- `count(*), max(modified_at)`. -/
abbrev Sentinel := ℕ × Option ℕ

def sentinel (rows : Rows) : Sentinel :=
  (rows.entries.length, (rows.entries.map fun e => e.2.modifiedAt).max?)

structure State where
  now : ℕ
  rows : Rows
  files : Level → Option SnapshotFile
  builtFrom : Option Sentinel
  /-- The committed writes, the newest last; a purged row is removed. -/
  log : List (Write String Row)

def setRow (rows : Rows) (w : Write String Row) : Rows :=
  match w.value with
  | some row => rows.insert w.key row
  | none => rows.erase w.key

/-- The writes become visible together. -/
def State.commit (s : State) (ws : List (Write String Row)) : State :=
  { s with rows := ws.foldl setRow s.rows, log := s.log ++ ws }

/-- `snapshots.py:121`. -/
def State.unchanged (s : State) (anchor : Sentinel) : Bool :=
  s.builtFrom == some anchor && levels.all fun level => (s.files level).isSome

/-- The files of one pass over the rows. -/
def State.read (s : State) (generatedAt : ℕ) (level : Level) : SnapshotFile :=
  ⟨generatedAt, snapshotLines level s.rows, s.log.length⟩

/-! ### Transactions and runs -/

/-- Where a transaction or a run of `generate_snapshots` stands. -/
inductive Phase where
  | idle
  /-- A transaction with its start and the saves so far. -/
  | transaction (start : ℕ) (saves : List (String × Draft))
  /-- `snapshots.py:113`: the anchor statement has its `now()` and is about to aggregate. -/
  | anchored (generatedAt : ℕ)
  /-- `snapshots.py:138`. -/
  | reading (generatedAt : ℕ) (anchor : Sentinel)
  /-- `snapshots.py:75`: the levels whose file is still to be renamed. -/
  | publishing (anchor : Sentinel) (files : Level → SnapshotFile) (rest : List Level)

inductive Input where
  | begin
  | save (uid : String) (draft : Draft)
  | commit
  /-- A rollback, or a run that fails. -/
  | abort
  /-- `db.py:637`, one row. -/
  | purge (uid : String)
  | generate
  | next
  | wait (time : ℕ)
  /-- A restart of the process forgets what the files were built from. -/
  | restart

/-- A saved row, stamped with the start of the transaction. -/
def saved (start : ℕ) (save : String × Draft) : Write String Row :=
  ⟨save.1, some { save.2 with modifiedAt := start }⟩

/-- `snapshots.py:97`, one step at a time. -/
def advance (s : State) : Phase → Option (State × Phase)
  | .anchored generatedAt =>
    let anchor := sentinel s.rows
    some (s, if s.unchanged anchor then .idle else .reading generatedAt anchor)
  | .reading generatedAt anchor => some (s, .publishing anchor (s.read generatedAt) levels)
  | .publishing anchor files (level :: rest) =>
    some ({ s with files := Function.update s.files level (some (files level)) },
      .publishing anchor files rest)
  | .publishing anchor _ [] => some ({ s with builtFrom := some anchor }, .idle)
  | _ => none

def step (s : State) : Phase → Input → Option (State × Phase)
  | .idle, .begin => some (s, .transaction s.now [])
  | .transaction start saves, .save uid draft =>
    some (s, .transaction start (saves ++ [(uid, draft)]))
  | .transaction start saves, .commit => some (s.commit (saves.map (saved start)), .idle)
  | .idle, .purge uid =>
    match s.rows.lookup uid with
    | some row => if row.deletedAt.isSome then some (s.commit [⟨uid, none⟩], .idle) else none
    | none => none
  | .idle, .generate => some (s, .anchored s.now)
  | .idle, .wait time => some ({ s with now := s.now + time }, .idle)
  | .idle, .restart => some ({ s with builtFrom := none }, .idle)
  | .idle, _ => none
  | _, .abort => some (s, .idle)
  | phase, .next => advance s phase
  | _, _ => none

/-- Any table, and no file yet. -/
def snapshots : Program State Phase Input where
  init s := s.log = [] ∧ ∀ level, s.files level = none
  idle := .idle
  step := step

end Archon.Snapshots

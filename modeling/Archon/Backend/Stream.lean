import Mathlib.Data.List.Sort
import Mathlib.Data.Prod.Lex
import Mathlib.Data.String.Basic
import Mathlib.Logic.Function.Basic
import Archon.Library.Coalesce
import Archon.Library.Guards
import Archon.Library.Runs

/-!
# The live stream and its cursor (`broadcast.py`, `main.py`, `db.py`, `sync.ts`)

One browser client of the stream, whose entitlement is one level. Committed versions of objects
stand in a log in the order of their commits, a frame or a row is the number of its version, and
the row of an object is its last version. The client holds a version of each object and a cursor
over `modified_at`, the start of the transaction that wrote the version.
-/

namespace Archon.Stream

/-- `models.py:16`, in the order the catch-up streams them and the client flushes them. -/
inductive ObjectType where
  | user
  | sanction
  | tournament
  | deck
  | league
  | promo
  deriving DecidableEq, Repr

def streamTypes : List ObjectType := [.user, .sanction, .tournament, .deck, .league, .promo]

/-- `models.py:25`. -/
inductive DataLevel where
  | pub
  | member
  | full
  deriving DecidableEq, Repr

/-- The key a frame is coalesced by. -/
abbrev ObjectKey := ObjectType × String

/-- What a transaction saves of an object: the levels whose projection is not NULL, and the
deletion mark. -/
structure Draft where
  key : ObjectKey
  shown : DataLevel → Bool
  deleted : Bool

/-- A committed version, stamped by the trigger with the start of its transaction. -/
structure Write extends Draft where
  modifiedAt : ℕ

/-! ### The objects table -/

/-- The last version of the object among those of the log. -/
def isCurrent (log : List Write) (n : ℕ) : Bool :=
  match log.drop n with
  | w :: later => later.all fun w' => w'.key != w.key
  | [] => false

/-- `db.py:448-456`: no longer shown at a level at which the version before was. -/
def retracted (level : DataLevel) (log : List Write) (n : ℕ) (w : Write) : Bool :=
  !w.shown level && ((log.take n).reverse.find? fun w' => w'.key = w.key).any fun w' =>
    w'.shown level

/-- `broadcast.py:195-207`: the version makes a frame, of its projection or a tombstone. -/
def framed (level : DataLevel) (log : List Write) (n : ℕ) : Bool :=
  (log[n]?).any fun w => w.shown level || retracted level log n w

/-- `db.py:569-572`: a member's catch-up streams hidden decks as tombstones. -/
def streamed (level : DataLevel) (w : Write) : Bool :=
  w.shown level || (decide (level = .member) && decide (w.key.1 = .deck))

/-! ### A connection -/

/-- The stream of one client: where its catch-up stands, what is on the wire (rows, then
`sync_complete`, then frames) and the queue. `lost` keeps the frames the queue replaced or
refused. -/
structure Connection where
  since : Option ℕ
  types : List ObjectType
  last : Option (ℕ ×ₗ String)
  newest : Option ℕ
  live : Bool
  rows : List ℕ
  complete : Option (Option ℕ)
  queue : List (ObjectKey × ℕ)
  closed : Bool
  frames : List ℕ
  lost : List ℕ

/-- `main.py:1153`: a connection from the persisted cursor. -/
def Connection.start (cursor : Option ℕ) : Connection :=
  ⟨cursor, streamTypes, none, none, false, [], none, [], false, [], []⟩

/-- `broadcast.py:21`. -/
def sseQueueMaxsize : ℕ := 30

/-- `broadcast.py:42`, `214-242`: a frame takes the place of a waiting frame of its object; a full
queue closes the connection, which receives nothing more. -/
def Connection.enqueue (c : Connection) (key : ObjectKey) (n : ℕ) : Connection :=
  if c.closed then { c with lost := c.lost ++ [n] }
  else
    match Coalesce.waiting key c.queue with
    | some old => { c with queue := Coalesce.put key n c.queue, lost := c.lost ++ [old] }
    | none =>
      if sseQueueMaxsize ≤ c.queue.length then { c with closed := true, lost := c.lost ++ [n] }
      else { c with queue := Coalesce.put key n c.queue }

/-- The place of a version in the order of the catch-up. -/
def position (w : Write) : ℕ ×ₗ String := toLex (w.modifiedAt, w.key.2)

/-- `db.py:579-586`: past the last row of the batch before, or past the cursor. -/
def Connection.past (c : Connection) (w : Write) : Bool :=
  match c.last with
  | some place => decide (place < position w)
  | none => c.since.all fun s => decide (s < w.modifiedAt)

/-- `db.py:550`. -/
def streamBatchSize : ℕ := 1000

/-- `db.py:587-592`: the rows of a type still to stream, by `modified_at` and uid. -/
def Connection.remaining (c : Connection) (level : DataLevel) (log : List Write)
    (type : ObjectType) : List (Write × ℕ) :=
  (log.zipIdx.filter fun wn => decide (wn.1.key.1 = type) && isCurrent log wn.2
    && streamed level wn.1 && c.past wn.1).insertionSort fun a b => position a.1 ≤ position b.1

/-- `main.py:1202-1205`. -/
def raised (newest : Option ℕ) (t : ℕ) : ℕ := newest.elim t (max t)

/-- `db.py:574-603`, `main.py:1188-1242`: one batch of the catch-up, the next type when a batch is
not full, and `sync_complete` after the last type. -/
def Connection.query (c : Connection) (level : DataLevel) (log : List Write) : Connection :=
  match c.types with
  | [] => { c with live := true, complete := some c.newest }
  | type :: rest =>
    let batch := (c.remaining level log type).take streamBatchSize
    match batch.getLast? with
    | none => { c with types := rest, last := none }
    | some wn =>
      let more := batch.length = streamBatchSize
      { c with
        rows := c.rows ++ batch.map Prod.snd
        newest := some (raised c.newest wn.1.modifiedAt)
        types := if more then c.types else rest
        last := if more then some (position wn.1) else none }

/-! ### The client -/

/-- The versions the client holds, the rows buffered since the connection opened, and the
persisted cursor. -/
structure Client where
  copies : ObjectKey → Option ℕ
  buffer : List ℕ
  cursor : Option ℕ

/-- Save or delete: the client's copy is this version, whatever it was. -/
def applyCopy (log : List Write) (copies : ObjectKey → Option ℕ) (n : ℕ) : ObjectKey → Option ℕ :=
  match log[n]? with
  | some w => Function.update copies w.key (some n)
  | none => copies

def ofType (log : List Write) (type : ObjectType) (n : ℕ) : Bool :=
  (log[n]?).any fun w => decide (w.key.1 = type)

/-- The item comes with a deletion mark, or as a tombstone. -/
def isTombstone (level : DataLevel) (log : List Write) (n : ℕ) : Bool :=
  (log[n]?).any fun w => w.deleted || !w.shown level

/-- `sync.ts:565-592`: type by type, the items to save before those to delete. -/
def flushOrder (level : DataLevel) (log : List Write) (buffer : List ℕ) : List ℕ :=
  streamTypes.flatMap fun type =>
    let items := buffer.filter (ofType log type)
    items.filter (fun n => !isTombstone level log n) ++ items.filter (isTombstone level log)

def Client.flush (client : Client) (level : DataLevel) (log : List Write) : Client :=
  { client with
    copies := (flushOrder level log client.buffer).foldl (applyCopy log) client.copies
    buffer := [] }

/-- `sync.ts:499-507`. -/
def Client.completed (client : Client) (level : DataLevel) (log : List Write) (t : Option ℕ) :
    Client :=
  { client.flush level log with cursor := t.or client.cursor }

def stampOf (log : List Write) (n : ℕ) : ℕ := (log[n]?).elim 0 Write.modifiedAt

/-- `sync.ts:526-552`: the cursor moves to the stamp of the frame, never back. -/
def Client.received (client : Client) (log : List Write) (n : ℕ) : Client :=
  { client with
    copies := applyCopy log client.copies n
    cursor := some (raised client.cursor (stampOf log n)) }

/-! ### Steps -/

structure State where
  now : ℕ
  started : List ℕ
  log : List Write
  pending : List ℕ
  conn : Option Connection
  client : Client

/-- An empty table and a client that never synced. -/
def State.start : State := ⟨0, [], [], [], none, ⟨fun _ => none, [], none⟩⟩

/-- What can happen next: the clock moves, a transaction starts or commits, a frame is put into the
queue or taken from it, the client connects, a catch-up query runs, the first item on the wire is
delivered, the connection drops. -/
inductive Input where
  | tick
  | start
  | commit (k : ℕ) (drafts : List Draft)
  | put (k : ℕ)
  | connect
  | query
  | get
  | deliver
  | drop

/-- A commit makes the versions visible, with their frames still to be broadcast. -/
def commitWrites (level : DataLevel) (s : State) (k start : ℕ) (drafts : List Draft) : State :=
  let log := s.log ++ drafts.map fun d => { toDraft := d, modifiedAt := start }
  { s with
    started := s.started.eraseIdx k
    log
    pending := s.pending ++
      (List.range' s.log.length drafts.length).filter fun n => framed level log n }

/-- The next item on the wire reaches the client. -/
def Connection.deliver (c : Connection) (level : DataLevel) (log : List Write) (client : Client) :
    Option (Connection × Client) :=
  match c.rows, c.complete, c.frames with
  | n :: rest, _, _ => some ({ c with rows := rest },
    { client with buffer := client.buffer ++ [n] })
  | [], some t, _ => some ({ c with complete := none }, client.completed level log t)
  | [], none, n :: rest => some ({ c with frames := rest }, client.received log n)
  | [], none, [] => none

def step (level : DataLevel) (s : State) : Input → Option State
  | .tick => some { s with now := s.now + 1 }
  | .start => some { s with started := s.started ++ [s.now] }
  | .commit k drafts => (s.started[k]?).map fun start => commitWrites level s k start drafts
  | .put k =>
    match s.pending[k]?, s.conn with
    | some n, some c =>
      (s.log[n]?).map fun w =>
        { s with pending := s.pending.eraseIdx k, conn := some (c.enqueue w.key n) }
    | some _, none => some { s with pending := s.pending.eraseIdx k }
    | none, _ => none
  | .connect =>
    if s.conn.isNone then some { s with conn := some (Connection.start s.client.cursor) } else none
  | .query =>
    match s.conn with
    | some c => if c.live then none else some { s with conn := some (c.query level s.log) }
    | none => none
  | .get =>
    match s.conn with
    | some c =>
      match c.queue with
      | x :: rest =>
        if c.live && !c.closed then
          some { s with conn := some { c with queue := rest, frames := c.frames ++ [x.2] } }
        else none
      | [] => none
    | none => none
  | .deliver =>
    s.conn.bind fun c => (c.deliver level s.log s.client).map fun x =>
      { s with conn := some x.1, client := x.2 }
  | .drop =>
    if s.conn.isSome then some { s with conn := none, client := s.client.flush level s.log }
      else none

end Archon.Stream

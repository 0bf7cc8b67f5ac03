import Mathlib.Logic.Function.Basic
import Archon.Engine.Types
import Archon.Library.Runs

/-!
# Posting and replaying the outbox (`frontend/src/lib/tournament-actions.ts:35-262`, `db.ts`)

The actions of one tournament, queued on one device and posted by its tabs. A tab posts its own
actions in turn, each under the web lock of the outbox, and what it found in the outbox when it was
opened it replays before them. A tab may close at any moment; its requests go on. An entry is told
apart by its number in the order of queueing, which stands for its random id, and a `modified` by
the number of the server's commit that wrote it. What the actions do is left out: the server applies
one or refuses it.
-/

namespace Archon.Outbox
open Engine (Uid)

/-- `db.ts:1257`: who queued it, and the `modified` of the copy it was taken on. -/
structure Entry where
  id : ℕ
  user : Uid
  modified : ℕ
  deriving DecidableEq

/-- A slot of a tab's queue: the post of an action of its own, or the replay of the entries it found
when it was opened. -/
inductive Job where
  | live (e : Entry)
  | replay (claimed : List ℕ)

/-- Where the first job of a tab awaits: its turn, the answer to a request, or the removal of the
entry answered. `rest` are the entries a replay posts after it. -/
inductive Phase where
  | waiting
  | posting (request : ℕ) (e : Entry) (rest : List Entry)
  | answered (granted : Bool) (e : Entry) (rest : List Entry)

/-- A tab. `since` is the server's row when it was opened: its catch-up brings that one or a later. -/
structure Tab where
  isOpen : Bool
  since : ℕ
  caughtUp : Bool
  gateOpen : Bool
  queue : List Job
  phase : Phase

def Tab.closed : Tab := ⟨false, 0, false, false, [], .waiting⟩

structure State where
  /-- The commits of the row. -/
  version : ℕ
  /-- The queued actions the server has applied, each with its commit. -/
  applied : List (ℕ × ℕ)
  /-- Requests sent so far, those on their way to the server, and those whose action it applied. -/
  sent : ℕ
  requests : List (ℕ × ℕ)
  granted : List ℕ
  /-- The device's copy, its outbox, the actions queued so far and who holds the web lock. -/
  stored : ℕ
  outbox : List Entry
  queued : ℕ
  lock : Option ℕ
  tabs : ℕ → Tab

namespace State

variable (s : State)

def setTab (t : ℕ) (tab : Tab) : State := { s with tabs := Function.update s.tabs t tab }

/-- `db.ts:1295`. -/
def removePendingActions (entries : List Entry) : State :=
  { s with outbox := s.outbox.filter fun e => !(entries.map Entry.id).contains e.id }

/-- `apiRequest` of an entry, the lock held. -/
def post (t : ℕ) (e : Entry) (rest : List Entry) : State :=
  { s.setTab t { s.tabs t with phase := .posting s.sent e rest } with
    sent := s.sent + 1
    requests := s.requests ++ [(s.sent, e.id)]
    lock := some t }

/-- The first job of the tab is over, its lock is given back. -/
def settle (t : ℕ) : State :=
  { s.setTab t { s.tabs t with queue := (s.tabs t).queue.tail, phase := .waiting } with
    lock := none }

/-- The claimed entries still in the outbox. -/
def pending (claimed : List ℕ) : List Entry := s.outbox.filter fun e => claimed.contains e.id

/-- `tournament-actions.ts:91-107`: whether the replay posts them. -/
def replays (t : ℕ) (user : Uid) (first : Entry) : Bool :=
  first.user == user && (s.tabs t).caughtUp && s.stored == first.modified

end State

inductive Input where
  /-- The page is loaded (`tournament-actions.ts:68`). -/
  | load (t : ℕ)
  /-- The page is left, whatever it awaits. -/
  | crash (t : ℕ)
  /-- A frame of the stream, or what an action makes of the row `v`, is written to the copy. -/
  | frame (t v : ℕ)
  /-- `sync_complete` (`tournament-actions.ts:57`). -/
  | sync (t v : ℕ)
  /-- An action taken on the copy `v`, appended and queued (`tournament-actions.ts:148`). -/
  | tap (t : ℕ) (user : Uid) (v : ℕ)
  /-- The lock is granted to the first job of the tab. -/
  | begin (t : ℕ) (user : Uid)
  /-- The server applies the action of a request, or refuses it, or never gets it. -/
  | commit (request : ℕ)
  | refuse (request : ℕ)
  /-- Another commit of the row. -/
  | other
  /-- The answer arrives; a failed one also where the connection breaks. -/
  | reply (t : ℕ) (granted : Bool)
  /-- The entry answered is removed, with those a failed replay gives up. -/
  | finish (t : ℕ)

def step (s : State) : Input → Option State
  | .load t =>
    if (s.tabs t).isOpen then none
    else some (s.setTab t ⟨true, s.version, false, false,
      if s.outbox = [] then [] else [.replay (s.outbox.map Entry.id)], .waiting⟩)
  | .crash t =>
    if (s.tabs t).isOpen then
      some { s.setTab t .closed with lock := if s.lock = some t then none else s.lock }
    else none
  | .frame t v => if (s.tabs t).isOpen ∧ v ≤ s.version then some { s with stored := v } else none
  | .sync t v =>
    if (s.tabs t).isOpen ∧ (s.tabs t).since ≤ v ∧ v ≤ s.version then
      some { s.setTab t { s.tabs t with caughtUp := true, gateOpen := true } with stored := v }
    else none
  | .tap t user v =>
    if (s.tabs t).isOpen ∧ v ≤ s.version then
      let e : Entry := ⟨s.queued, user, v⟩
      some { s.setTab t { s.tabs t with
          gateOpen := true
          queue := (s.tabs t).queue ++ [.live e] } with
        outbox := s.outbox ++ [e]
        queued := s.queued + 1 }
    else none
  | .begin t user =>
    match s.lock, (s.tabs t).phase, (s.tabs t).queue with
    | none, .waiting, .live e :: _ => some (s.post t e [])
    | none, .waiting, .replay claimed :: _ =>
      if (s.tabs t).gateOpen then
        match s.pending claimed with
        | [] => some (s.settle t)
        | first :: rest =>
          if s.replays t user first then some (s.post t first rest)
          else some ((s.removePendingActions (first :: rest)).settle t)
      else none
    | _, _, _ => none
  | .commit request =>
    (s.requests.lookup request).map fun id =>
      { s with
        version := s.version + 1
        applied := s.applied ++ [(id, s.version + 1)]
        requests := s.requests.filter fun r => r.1 != request
        granted := s.granted ++ [request] }
  | .refuse request =>
    (s.requests.lookup request).map fun _ =>
      { s with requests := s.requests.filter fun r => r.1 != request }
  | .other => some { s with version := s.version + 1 }
  | .reply t granted =>
    match (s.tabs t).phase with
    | .posting request e rest =>
      if granted = true → request ∈ s.granted then
        some (s.setTab t { s.tabs t with phase := .answered granted e rest })
      else none
    | _ => none
  | .finish t =>
    match (s.tabs t).phase with
    | .answered true e (next :: rest) => some ((s.removePendingActions [e]).post t next rest)
    | .answered true e [] => some ((s.removePendingActions [e]).settle t)
    | .answered false e rest => some ((s.removePendingActions (e :: rest)).settle t)
    | _ => none

/-- The device with nothing queued and every tab closed. -/
def system : System State Input where
  init s := s.applied = [] ∧ s.requests = [] ∧ s.outbox = [] ∧ s.lock = none ∧
    s.stored ≤ s.version ∧ ∀ t, s.tabs t = .closed
  step s i s' := step s i = some s'

end Archon.Outbox

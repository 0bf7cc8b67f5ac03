import Archon.Library.KeyedStores
import Archon.Backend.Stream

/-!
# The sync client (`frontend/src/lib/sync.ts`)

What the device keeps locally: a store for each type of object, and the tournaments it holds
offline, whose rows the server's updates leave alone until the lock is lost. During a catch-up the
items of batch frames wait in a buffer for each type, which `flushAllBuffers` writes at the end.
-/

namespace Archon.Frontend
open Archon.Stream (ObjectType ObjectKey streamTypes)

/-- An object as a sync frame carries it: what the client reads of it, and the whole. -/
structure SyncItem where
  type : ObjectType
  uid : String
  deletedAt : Option String
  offlineMode : Bool
  offlineDeviceId : Option String
  content : String
  deriving DecidableEq

def SyncItem.key (item : SyncItem) : ObjectKey := (item.type, item.uid)

/-- `item.deleted_at` holds. -/
def SyncItem.isTombstone (item : SyncItem) : Bool := item.deletedAt.any (· != "")

/-- The device, and the tournaments it is bringing online at the moment. -/
structure Device where
  deviceId : String
  goingOnline : List String

structure LocalStores where
  rows : ObjectKey → Option SyncItem
  offline : List String

/-! ### Tournaments held offline -/

/-- `offline.svelte.ts:84`. -/
def lostOfflineLock (device : Device) (offline : List String) (item : SyncItem) : Bool :=
  decide (item.uid ∈ offline) && decide (item.uid ∉ device.goingOnline)
    && (!item.offlineMode || item.offlineDeviceId != some device.deviceId)

/-- `sync.ts:518-526`, `571-578`: the tournaments held offline after the item, or nothing where it
is skipped. -/
def admitItem (device : Device) (offline : List String) (item : SyncItem) : Option (List String) :=
  if item.type = .tournament ∧ item.uid ∈ offline then
    if lostOfflineLock device offline item = true then some (offline.filter (· != item.uid))
    else none
  else some offline

/-! ### Applying items -/

def putRow (rows : ObjectKey → Option SyncItem) (item : SyncItem) : ObjectKey → Option SyncItem :=
  Function.update rows item.key (some item)

def deleteRow (rows : ObjectKey → Option SyncItem) (item : SyncItem) :
    ObjectKey → Option SyncItem :=
  Function.update rows item.key none

/-- An item applied on its own, as `saveBatch` of it alone or `del` does. -/
def applyItem (device : Device) (s : LocalStores) (item : SyncItem) : LocalStores :=
  match admitItem device s.offline item with
  | none => s
  | some offline =>
    ⟨if item.isTombstone = true then deleteRow s.rows item else putRow s.rows item, offline⟩

def applyInOrder (device : Device) (s : LocalStores) (items : List SyncItem) : LocalStores :=
  items.foldl (applyItem device) s

/-- The loop over one buffer. -/
structure FlushLoop where
  offline : List String
  toSave : List SyncItem
  toDelete : List SyncItem

def FlushLoop.add (device : Device) (l : FlushLoop) (item : SyncItem) : FlushLoop :=
  match admitItem device l.offline item with
  | none => l
  | some offline =>
    if item.isTombstone = true then { l with offline, toDelete := l.toDelete ++ [item] }
    else { l with offline, toSave := l.toSave ++ [item] }

/-- `sync.ts:564-590`, for one type: the saves in a batch, then the deletions. -/
def flushBuffer (device : Device) (s : LocalStores) (buffer : List SyncItem) : LocalStores :=
  let l := buffer.foldl (FlushLoop.add device) ⟨s.offline, [], []⟩
  ⟨l.toDelete.foldl deleteRow (l.toSave.foldl putRow s.rows), l.offline⟩

/-- `sync.ts:563`: type by type, in the order of `SPECS`. `items` are the buffered items of every
type, as received. -/
def flushAllBuffers (device : Device) (s : LocalStores) (items : List SyncItem) : LocalStores :=
  streamTypes.foldl (fun s type =>
    flushBuffer device s (items.filter fun item => decide (item.type = type))) s

end Archon.Frontend

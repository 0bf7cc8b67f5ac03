import Archon.Frontend.LocalActions

/-!
# The outbox of optimistic actions (`frontend/src/lib/tournament-actions.ts`, `db.ts`)

Online, an organizer's device shows the outcome of its own run of the engine at once and puts the
action with what it replaced into an outbox. When the server rejects the action, what it replaced
is put back.
-/

namespace Archon.Frontend
open Engine Backend

/-- `db.ts:1257`: an action the server has not answered, the tournament it was taken on, and where
it touched decks, the decks and when each was saved after it. -/
structure PendingAction where
  id : String
  user : Uid
  event : TournamentEvent
  modified : Option Stamp
  tournament : Tournament
  decks : Option (List StoredDeck)
  deckMods : Option (List (Uid × Stamp))

/-- What the device keeps of a tournament. -/
structure OptimisticStore where
  tournament : Option Tournament
  decks : DeckStore
  outbox : List PendingAction

/-- `db.ts:1282`. -/
def appendPendingAction (s : OptimisticStore) (action : PendingAction) : OptimisticStore :=
  { s with outbox := s.outbox ++ [action] }

/-- `db.ts:1295`. -/
def removePendingActions (s : OptimisticStore) (ids : List String) : OptimisticStore :=
  { s with outbox := s.outbox.filter fun a => !ids.contains a.id }

/-! ### Taking an action -/

/-- An action on a screen: what its call reads besides the tournament, and the id of its entry. -/
structure Tap where
  dir : Directory
  call : LocalCall
  id : String

def LocalCall.onlineClient (c : LocalCall) : Client := ⟨c.now, c.randomUid, false⟩

/-- `tournament-actions.ts:217-222`: a round is started on the server with the seating of this run. -/
def serverEvent (event : TournamentEvent) (current result : Tournament) : TournamentEvent :=
  match event with
  | .startRound _ =>
    if current.rounds.length < result.rounds.length then
      .startRound (result.rounds.getLast?.map fun round =>
        round.map fun table => table.seating.map Seat.playerUid)
    else event
  | _ => event

section Actions

variable (rs : Seating.RandomSource) (uid : Uid)

/-- `tournament-actions.ts:166-239`, of an organizer whose tournament is online. The operations on
decks change decks of the list read in place, so the entry holds them as changed. -/
def takeAction (s : OptimisticStore) (tap : Tap) : Option (OptimisticStore × PendingAction) :=
  s.tournament.bind fun current =>
    let decks := getDecksByTournament s.decks uid
    (tap.call.run rs tap.dir uid current decks).map fun r =>
      let pass := applyDeckOps tap.call.onlineClient s.decks uid decks r.2
      let entry : PendingAction :=
        { id := tap.id
          user := tap.call.user.uid
          event := serverEvent (injectVeknId tap.dir tap.call.event) current r.1
          modified := r.1.modified
          tournament := current
          decks := if r.2 = [] then none else some pass.existing
          deckMods :=
            if r.2 = [] then none
            else some ((getDecksByTournament pass.store uid).map fun d => (d.uid, d.modified)) }
      (appendPendingAction { s with tournament := some r.1, decks := pass.store } entry, entry)

/-- Actions taken one on top of another, and their entries. -/
def takeActions : OptimisticStore → List Tap → Option (OptimisticStore × List PendingAction)
  | s, [] => some (s, [])
  | s, tap :: taps =>
    (takeAction rs uid s tap).bind fun first =>
      (takeActions first.1 taps).map fun rest => (rest.1, first.2 :: rest.2)

/-! ### A rejection -/

/-- `tournament-actions.ts:386-404`: decks the action created are deleted, those it changed are put
back, unless one was saved since. -/
def rollbackDecks (store : DeckStore) (entry : PendingAction) (decks : List StoredDeck) :
    DeckStore :=
  let current := getDecksByTournament store uid
  let untouched := fun d : StoredDeck =>
    (entry.deckMods.bind fun mods => mods.lookup d.uid) == some d.modified
  let created := current.filter fun d => decks.all (fun o => o.uid != d.uid) && untouched d
  decks.foldl (fun store d =>
    if (current.find? fun c => c.uid == d.uid).all untouched = true then saveDeck store d
    else store) (created.foldl (fun store d => store.erase d.uid) store)

/-- `tournament-actions.ts:377`. -/
def rollbackTournamentAction (s : OptimisticStore) (entry : PendingAction) : OptimisticStore :=
  { s with
    tournament :=
      if s.tournament.all (fun t => t.modified == entry.modified) = true then some entry.tournament
      else s.tournament
    decks := entry.decks.elim s.decks (rollbackDecks uid s.decks entry) }

/-- `tournament-actions.ts:241-262`, where the server has rejected the action. -/
def settleRejected (s : OptimisticStore) (entry : PendingAction) : OptimisticStore :=
  removePendingActions (rollbackTournamentAction uid s entry) [entry.id]

/-- `tournament-actions.ts:116-122`, the replay rejected: the entries left are rolled back newest
first. -/
def unwindPending (s : OptimisticStore) (pending : List PendingAction) : OptimisticStore :=
  removePendingActions (pending.reverse.foldl (rollbackTournamentAction uid) s)
    (pending.map PendingAction.id)

end Actions

end Archon.Frontend

import Archon.Engine.DeckReads
import Archon.Backend.Permissions
import Archon.Frontend.DeckOps
import Archon.Library.Runs

/-!
# Actions on a tournament held offline (`frontend/src/lib/tournament-actions.ts`, `engine.ts`)

The device that holds a tournament runs the engine on its own copy: a call of `tournamentAction`
reads the tournament, then the decks, runs the engine and saves the tournament it got back whole,
then the decks one by one. Another call may run at each of these awaits.
-/

namespace Archon.Frontend
open Engine Backend

/-! ### What a call hands to the engine -/

/-- What the calls read besides the tournament and its decks, and do not write. -/
structure Directory where
  veknId : Uid → Option String
  leagues : List StoredLeague
  sanctions : List StoredSanction

def Directory.sanctionsForTournament (dir : Directory) (tournamentUid : Uid) :
    List StoredSanction :=
  dir.sanctions.filter fun s => s.tournamentUid == some tournamentUid

def Directory.sanctionsForUser (dir : Directory) (userUid : Uid) : List StoredSanction :=
  dir.sanctions.filter fun s => s.userUid == userUid

/-- `engine.ts:189-203`. -/
def buildSanctionsPayload (sanctions : List StoredSanction) (tournamentUid : Uid) :
    List Sanction :=
  ((sanctions.filter fun s => s.deletedAt == none).filter fun s =>
    s.tournamentUid == some tournamentUid || s.level == .suspension).map StoredSanction.toEngine

/-- `tournament-actions.ts:177-189`: the tournament's sanctions, and the standing suspensions of its
players. -/
def widenedSanctions (dir : Directory) (uid : Uid) (current : Tournament) : List StoredSanction :=
  let sanctions := dir.sanctionsForTournament uid
  let playerUids := ((current.players.filterMap Player.userUid).filter (· != "")).dedup
  sanctions ++ (playerUids.flatMap dir.sanctionsForUser).filter fun s =>
    sanctions.all (fun o => o.uid != s.uid) && s.deletedAt == none && s.liftedAt == none
      && s.level == .suspension

/-- A call of `tournamentAction`, by whom and when. -/
structure LocalCall where
  user : User
  event : TournamentEvent
  now : Stamp
  randomUid : ℕ → Uid

def LocalCall.client (c : LocalCall) : Client := ⟨c.now, c.randomUid, true⟩

/-- `tournament-actions.ts:158-163`. -/
def injectVeknId (dir : Directory) : TournamentEvent → TournamentEvent
  | .checkIn playerUid veknId displayName =>
    let given := veknId.filter (· != "")
    let known := if playerUid = "" then none else (dir.veknId playerUid).filter (· != "")
    .checkIn playerUid (if given.isSome then veknId else known.or veknId) displayName
  | event => event

/-- The player whose suspension the call looks for. -/
def entrant : TournamentEvent → Option Uid
  | .checkIn uid .. | .register uid .. | .addPlayer uid .. => if uid = "" then none else some uid
  | _ => none

/-- `tournament-actions.ts:134`. -/
def checkPlayerBarred (dir : Directory) (now : Stamp) (playerUid : Uid) : Bool :=
  (dir.sanctionsForUser playerUid).any fun s =>
    s.deletedAt == none && s.liftedAt == none && s.level == .suspension
      && s.expiresAt.all fun e => decide (now < e)

def isUpdateConfig : TournamentEvent → Bool
  | .updateConfig .. => true
  | _ => false

/-- `engine.ts:731`. -/
def buildActorContext (dir : Directory) (c : LocalCall) (current : Tournament) : ActorContext :=
  let canOrganize :=
    if isUpdateConfig c.event = true ∧ Role.ic ∉ c.user.roles then
      (dir.leagues.filter (canLinkTournamentToLeague c.user)).map StoredLeague.uid
    else []
  ⟨c.user.uid, c.user.roles.map Role.asStr,
    check .organizeTournament c.user (current.config .country).asStr current.organizersUids,
    canOrganize, c.now⟩

section Calls

variable (rs : Seating.RandomSource) (dir : Directory) (uid : Uid)

/-- What the engine is handed for a call. -/
def LocalCall.input (c : LocalCall) (current : Tournament) (decks : List StoredDeck) :
    EventInput :=
  ⟨injectVeknId dir c.event, buildActorContext dir c current,
    buildSanctionsPayload (widenedSanctions dir uid current) (current.uid.getD ""),
    decks.map StoredDeck.toDeckObject⟩

/-- `tournament-actions.ts:169-193`: nothing where the call rejects. A call of someone else than an
organizer goes to the server. -/
def LocalCall.run (c : LocalCall) (current : Tournament) (decks : List StoredDeck) :
    Option (Tournament × List DeckOp) :=
  if (entrant c.event).any (checkPlayerBarred dir c.now) = true then none
  else if (buildActorContext dir c current).isOrganizer = true then
    (processTournamentEvent rs current (c.input dir uid current decks)).toOption
  else none

/-! ### Two calls at once -/

/-- The tournament and the decks on the device. -/
structure LocalStore where
  tournament : Tournament
  decks : DeckStore

/-- What is left of `applyDeckOps`: an operation, or the next deck of a deletion. -/
inductive DeckWrite where
  | op (op : DeckOp)
  | tombstone (d : StoredDeck)

/-- Where a call awaits. -/
inductive CallPhase where
  | waiting
  /-- The tournament is read. -/
  | reading (current : Tournament)
  /-- The decks are read too and the engine has answered. -/
  | saving (current : Tournament) (decks : List StoredDeck) (result : Tournament)
    (ops : List DeckOp)
  /-- The tournament is saved, and some of the decks. -/
  | writing (pass : ApplyPass) (writes : List DeckWrite)
  | resolved
  | rejected

structure CallState where
  store : LocalStore
  phases : Bool → CallPhase

def CallState.to (s : CallState) (b : Bool) (phase : CallPhase) : CallState :=
  { s with phases := Function.update s.phases b phase }

/-- One write of `applyDeckOps`, and the writes a deletion comes down to. -/
def LocalCall.write (c : LocalCall) (pass : ApplyPass) : DeckWrite → ApplyPass × List DeckWrite
  | .op (.delete playerUid deckIndex multideck) =>
    if playerUid = "" then (pass, [])
    else (pass, (pass.existing.filter (takenBy playerUid deckIndex multideck)).map .tombstone)
  | .op op => (applyDeckOp c.client uid pass op, [])
  | .tombstone d => (deleteStep c.client pass d, [])

variable (calls : Bool → LocalCall)

/-- One move of a call. -/
def callStep (s : CallState) (b : Bool) : Option CallState :=
  match s.phases b with
  | .waiting => some (s.to b (.reading s.store.tournament))
  | .reading current =>
    let decks := getDecksByTournament s.store.decks uid
    match (calls b).run rs dir uid current decks with
    | some r => some (s.to b (.saving current decks r.1 r.2))
    | none => some (s.to b .rejected)
  | .saving _ decks result ops =>
    some ({ s with store.tournament := result }.to b
      (.writing ⟨s.store.decks, decks, 0, []⟩ (ops.map .op)))
  | .writing _ [] => some (s.to b .resolved)
  | .writing pass (w :: writes) =>
    let written := (calls b).write uid { pass with store := s.store.decks } w
    some ({ s with store.decks := written.1.store }.to b (.writing written.1 (written.2 ++ writes)))
  | .resolved | .rejected => none

/-- Any interleaving of two calls. -/
def callSystem : System CallState Bool where
  init s := ∀ b, s.phases b = .waiting
  step s b s' := callStep rs dir uid calls s b = some s'

/-- A call alone, if it resolves. -/
def LocalCall.alone (c : LocalCall) (store : LocalStore) : Option LocalStore :=
  let decks := getDecksByTournament store.decks uid
  (c.run rs dir uid store.tournament decks).map fun r =>
    ⟨r.1, (applyDeckOps c.client store.decks uid decks r.2).store⟩

/-- The call `b` and then the other. -/
def inOrder (b : Bool) (store : LocalStore) : Option LocalStore :=
  ((calls b).alone rs dir uid store).bind ((calls !b).alone rs dir uid)

end Calls

end Archon.Frontend

import Archon.Engine.Scores

/-!
# Finals, finish and reopening (`tournament/mod.rs:475-519`, `2305-2496`)
-/

namespace Archon.Engine
open Guards

/-! ### Starting the finals -/

/-- `mod.rs:2319`: the pool the finals are drawn from. -/
def finalsPool (t : Tournament) (sanctions : List Sanction) : List Standing :=
  finalsCandidates t.players (computePreliminaryStandings t sanctions)

/-- The five who qualify. -/
def qualifiers (t : Tournament) (sanctions : List Sanction) : List Uid :=
  ((finalsPool t sanctions).take 5).map Standing.userUid

def FinalsTable.fresh (uids : List Uid) : FinalsTable :=
  ⟨uids.map Seat.fresh, .inProgress, none, uids⟩

def markFinalist (players : List Player) (uid : Uid) : List Player :=
  updatePlayer players uid fun p => { p with state := .playing, finalist := true }

def startFinalsDoc (t : Tournament) (uids : List Uid) : Tournament :=
  { t with
    finals := some (FinalsTable.fresh uids)
    players := uids.foldl markFinalist t.players
    state := if t.state = .finished then t.state else .playing }

/-- `mod.rs:2305`. -/
def startFinals (t : Tournament) (actor : ActorContext) (sanctions : List Sanction)
    (decks : List DeckObject) : Outcome := do
  requireOrganizer actor
  requireStateOrFinished t.state .waiting
  ensure (2 ≤ countPlayedRounds t) .finalsMinRounds
  ensure (t.finals = none) .finalsAlreadyStarted
  ensure (5 ≤ (finalsPool t sanctions).length) .finalsNotEnoughPlayers
  ensure (top5HasTies (finalsPool t sanctions) = false) .finalsUnresolvedTies
  let t' := startFinalsDoc t (qualifiers t sanctions)
  pure (t', stampRoundDecks t' decks t.rounds.length)

/-! ### Finishing -/

/-- Everyone but the disqualified is finished. -/
def finishEntry (p : Player) : Player :=
  if p.state = .disqualified then p else p.withState .finished

/-- `mod.rs:2376-2417`: the winner is the seat with the game win. -/
def finishFinalsDoc (t : Tournament) (sanctions : List Sanction) (f : FinalsTable) : Tournament :=
  { t with
    winner := (gameWinUid f.seating (scoreFinals t sanctions f).1).getD ""
    state := .finished
    players := t.players.map finishEntry }

/-- `mod.rs:2366`. -/
def finishFinals (t : Tournament) (actor : ActorContext) (sanctions : List Sanction) :
    Outcome := do
  requireOrganizer actor
  requireStateOrFinished t.state .playing
  let f ← okOr t.finals .noFinalsInProgress
  ensure (f.state = .finished) .finalsTableUnfinished
  pure (updateStandings (finishFinalsDoc t sanctions f) sanctions, [])

/-- The finalists' uids at the per-player cap. -/
def cappedFinalists (t : Tournament) : List Uid :=
  ((t.players.filter Player.finalist).filterMap Player.userUid).filter (atRoundCap t)

/-- `mod.rs:2444-2459`: a finalist returns to the field, to `Completed` at the cap. -/
def cancelFinalsEntry (t : Tournament) (p : Player) : Player :=
  if p.finalist = true then
    { p with
      finalist := false
      state := if p.userUid.getD "" ∈ cappedFinalists t then .completed else .checkedIn }
  else p

def cancelFinalsDoc (t : Tournament) : Tournament :=
  { t with
    players := t.players.map (cancelFinalsEntry t)
    finals := none
    winner := ""
    state := .waiting }

/-- `mod.rs:2422`. -/
def cancelFinals (t : Tournament) (actor : ActorContext) (sanctions : List Sanction)
    (decks : List DeckObject) : Outcome := do
  requireOrganizer actor
  requireState t.state .playing
  ensure (t.finals.isSome = true) .noFinalsInProgress
  pure (updateStandings (cancelFinalsDoc t) sanctions,
    releaseStampedDecks decks [t.rounds.length] none)

/-- `mod.rs:2475`. -/
def finishTournament (t : Tournament) (actor : ActorContext) (sanctions : List Sanction) :
    Outcome := do
  requireOrganizer actor
  ensure (t.state = .waiting ∨ t.state = .playing ∨ t.state = .finished) .cannotFinish
  pure (updateStandings { t with state := .finished, players := t.players.map finishEntry }
    sanctions, [])

/-! ### Reopening -/

/-- `mod.rs:498-515`. -/
def reopenEntry (t : Tournament) (p : Player) : Player :=
  if p.state = .finished then
    let uid := p.userUid.getD ""
    p.withState (
      if (t.finals.isSome && p.finalist) = true ∨ uid ∈ liveSeats t.rounds then .playing
      else if uid ∈ cappedUids t then .completed
      else .checkedIn)
  else p

def reopenTournamentDoc (t : Tournament) : Tournament :=
  { t with
    state := if t.finals.isSome = true ∨ liveSeats t.rounds ≠ [] then .playing else .waiting
    players := t.players.map (reopenEntry t) }

/-- `mod.rs:475`. -/
def reopenTournament (t : Tournament) (actor : ActorContext) (sanctions : List Sanction) :
    Outcome := do
  requireOrganizer actor
  requireState t.state .finished
  pure (updateStandings (reopenTournamentDoc t) sanctions, [])

end Archon.Engine

import Archon.Engine.Process

/-!
# The sanction route (`backend/src/routes/sanctions.py`)

Sanctions are kept outside the tournament document. A change to one reaches the document past
the events: the route sets the state of a disqualified or restored player and lets the engine
recompute the standings.
-/

namespace Archon.Engine

/-- A change to the sanctions of a tournament that its document follows. -/
inductive SanctionChange where
  | disqualify (uid : Uid)
  | restore (uid : Uid)
  | adjust
  deriving DecidableEq, Repr

/-- `sanctions.py:136`: the state of a player whose disqualification was lifted or deleted.
`sanctions` no longer counts it. -/
def dqRestoreState (t : Tournament) (sanctions : List Sanction) (uid : Uid) : PlayerState :=
  if hasDqSanction sanctions uid = true then .disqualified
  else if t.state = .finished then .finished
  else if uid ∈ liveSeats t.rounds
      ∨ t.finals.any (fun f => f.state != .finished && f.seating.any fun s => s.playerUid == uid)
        = true then
    .playing
  else .checkedIn

/-- The player whose state the change sets, and the state (`sanctions.py:394-398`,
`573-581`, `629-635`). -/
def SanctionChange.target (t : Tournament) (sanctions : List Sanction) :
    SanctionChange → Option (Uid × PlayerState)
  | disqualify uid => some (uid, .disqualified)
  | restore uid => some (uid, dqRestoreState t sanctions uid)
  | adjust => none

/-- `sanctions.py:176-180`, `215-219`: the first entry of the player. -/
def setPlayerState (t : Tournament) : Option (Uid × PlayerState) → Tournament
  | some (uid, state) => { t with players := updatePlayer t.players uid (Player.withState state) }
  | none => t

/-- `sanctions.py:158`: the state is set before the recompute and again after it. -/
def applySanctionToTournament (t : Tournament) (sanctions : List Sanction)
    (change : SanctionChange) : Tournament :=
  let target := change.target t sanctions
  let marked := setPlayerState t target
  if marked.rounds.isEmpty then marked
  else setPlayerState (updateStandings marked sanctions) target

/-- What changes the document of a hosted tournament: an event, or a change to its sanctions. -/
inductive HostInput where
  | event (i : EventInput)
  | sanction (change : SanctionChange) (sanctions : List Sanction)

/-- The document after an accepted input. -/
def acceptInput (rs : Seating.RandomSource) (t : Tournament) :
    HostInput → Except EngineError Tournament
  | .event i => acceptEvent rs t i
  | .sanction change sanctions => pure (applySanctionToTournament t sanctions change)

/-- The documents of a hosted tournament. -/
def hostSystem (rs : Seating.RandomSource) : System Tournament HostInput where
  init t := ∃ request actor, createTournament request actor = .ok t
  step t i t' := acceptInput rs t i = .ok t'

theorem hostReachable_of_reachable {rs : Seating.RandomSource} {t : Tournament}
    (h : (engineSystem rs).Reachable t) : (hostSystem rs).Reachable t := by
  refine System.Reachable.invariant (fun t ht => ?_) (fun t i t' hp hs => ?_) h
  · exact System.Reachable.init ht
  · have hstep : (hostSystem rs).step t (.event i) t' := hs
    exact hp.step hstep

end Archon.Engine

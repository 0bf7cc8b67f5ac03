import Archon.Engine.Errors

/-!
# Helpers shared by the handlers (`tournament/helpers.rs`)

Who sits where, how many rounds a player played, which rounds are still in progress, and the
guards on the actor and the state. The deck helpers are in `DeckHelpers`.
-/

namespace Archon.Engine
open Guards

/-! ### Seats -/

/-- Neither `Finished` nor `Cancelled`: the table is still being played. -/
def TableState.isLive : TableState → Bool
  | .inProgress => true
  | .invalid => true
  | .finished => false
  | .cancelled => false

/-- Some seat of the table is `uid`'s. -/
def Table.seats (tb : Table) (uid : Uid) : Bool :=
  tb.seating.any fun s => s.playerUid == uid

/-- `helpers.rs:9`: the rounds in which `uid` is seated, soft-cancelled ones apart. -/
def countPlayerRoundsPlayed (t : Tournament) (uid : Uid) : ℕ :=
  t.rounds.countP fun round =>
    round.any fun tb => tb.state != .cancelled && tb.seats uid

/-- `helpers.rs:41`: every player seated in the round, the finals being `rounds.len()`. -/
def seatedInRound (t : Tournament) (roundIdx : ℕ) : List Uid :=
  match t.rounds[roundIdx]? with
  | none => (t.finals.elim [] FinalsTable.seating).map Seat.playerUid
  | some round => (round.filter fun tb => tb.state != .cancelled).flatMap Table.uids

/-- `helpers.rs:200`. -/
def allRoundsFinished (t : Tournament) : Bool :=
  !t.rounds.isEmpty && t.rounds.all fun round => round.all fun tb => !tb.state.isLive

/-- `helpers.rs:216`: the seating of every round, cancelled tables skipped. -/
def collectPreviousRounds (t : Tournament) : List (List (List Uid)) :=
  t.rounds.map fun round => (round.filter fun tb => tb.state != .cancelled).map Table.uids

/-- `helpers.rs:236`: the rounds that keep a table not cancelled. -/
def countPlayedRounds (t : Tournament) : ℕ :=
  t.rounds.countP fun round => round.any fun tb => tb.state != .cancelled

/-- The players seated at a live table of these rounds. -/
def liveSeats (rounds : List (List Table)) : List Uid :=
  (rounds.flatMap fun round => round.filter fun tb => tb.state.isLive).flatMap Table.uids

/-- `helpers.rs:267`: the players seated at a live table of a round other than the
excluded one. -/
def playersInOtherActiveRounds (t : Tournament) (excludeRound : Option ℕ) : List Uid :=
  liveSeats ((t.rounds.zipIdx.filter fun ri => some ri.2 != excludeRound).map Prod.fst)

/-! ### The roster -/

/-- The roster entry is `uid`'s. -/
def Player.isUid (uid : Uid) (p : Player) : Bool := p.userUid == some uid

/-- `helpers.rs:168`. -/
def playerExists (players : List Player) (uid : Uid) : Bool := players.any (Player.isUid uid)

/-- `helpers.rs:184`: position of the first roster entry of `uid`. -/
def findPlayerIndex (players : List Player) (uid : Uid) : Option ℕ :=
  players.findIdx? (Player.isUid uid)

/-- The first roster entry of `uid`. -/
def findPlayer (players : List Player) (uid : Uid) : Option Player :=
  players.find? (Player.isUid uid)

/-- Rewrite the first roster entry of `uid`. -/
def updatePlayer (players : List Player) (uid : Uid) (f : Player → Player) : List Player :=
  match findPlayerIndex players uid with
  | some idx => players.modify idx f
  | none => players

/-- `helpers.rs:174`: the soft cap counts the players not on the waitlist. -/
def pastRegistrationCap (t : Tournament) : Bool :=
  let cap := t.count .maxPlayers
  decide (0 < cap) && decide (cap ≤ t.players.countP fun p => !p.waitlisted)

/-- The members at the per-player round cap; empty when there is no cap. -/
def atRoundCap (t : Tournament) (uid : Uid) : Bool :=
  decide (0 < t.maxRounds) && decide (t.maxRounds ≤ countPlayerRoundsPlayed t uid)

/-- `helpers.rs:247`: a player unseated from round `roundIdx` who plays in no other live
round returns to `Registered`. -/
def demoteUnseatedPlayers (t : Tournament) (unseated : List Uid) (roundIdx : ℕ) : Tournament :=
  let stillPlaying := playersInOtherActiveRounds t (some roundIdx)
  { t with
    players := t.players.map fun p =>
      match p.userUid with
      | some uid =>
        if p.state = .playing ∧ uid ∈ unseated ∧ uid ∉ stillPlaying then
          { p with state := .registered }
        else p
      | none => p }

/-! ### Guards -/

def requireOrganizer (actor : ActorContext) : Except EngineError Unit :=
  ensure (actor.isOrganizer = true) .notOrganizer

def requireState (current expected : TournamentState) : Except EngineError Unit :=
  ensure (current = expected) (.wrongState expected.asStr current.asStr)

def requireStateOrFinished (current expected : TournamentState) : Except EngineError Unit :=
  ensure (current = expected ∨ current = .finished) (.wrongState expected.asStr current.asStr)

/-- `helpers.rs:150`: players edit results while `Playing`, organizers between rounds and
after the finish too. -/
def canEditResults (actor : ActorContext) : TournamentState → Bool
  | .playing => true
  | .waiting => actor.isOrganizer
  | .finished => actor.isOrganizer
  | _ => false

def requireCanEditResults (actor : ActorContext) (current : TournamentState) :
    Except EngineError Unit :=
  ensure (canEditResults actor current = true)
    (.wrongState TournamentState.playing.asStr current.asStr)

/-- `mod.rs:159`: `none` is the last round, unchecked; an earlier round must be live. -/
def resolveLiveRound (rounds : List (List Table)) (round : Option ℕ) :
    Except EngineError ℕ := do
  let last := rounds.length - 1
  let target := round.getD last
  ensure (target ≤ last) .invalidRound
  ensure (target = last ∨ ((rounds[target]?).getD []).any (fun tb => tb.state.isLive) = true)
    .roundNotLive
  pure target

end Archon.Engine

import Mathlib.Data.List.DropRight
import Archon.Engine.Registration
import Archon.Seating.NextRound

/-!
# Rounds (`tournament/mod.rs:1004-1579`)

Starting, finishing, cancelling and restoring preliminary rounds. Each handler is its guards, the
rewriting of a roster entry, and the document put together from both.
-/

namespace Archon.Engine
open Guards Seating

/-! ### New rounds -/

/-- A table as `StartRound` and `SelfOrganizeRound` push it. -/
def Table.fresh (organizedBy : Option Uid) (uids : List Uid) : Table :=
  ⟨uids.map Seat.fresh, .inProgress, none, organizedBy⟩

/-- `mod.rs:1030-1039`: the players a new round may seat. -/
def availablePlayers (t : Tournament) : List Uid :=
  ((t.players.filter fun p =>
      p.state == .checkedIn || (t.flag .online && p.state == .playing)).filterMap
    Player.userUid).filter fun uid => !atRoundCap t uid

/-- `mod.rs:1049`: the players of the next round. -/
def playersToSeat (t : Tournament) : List Uid :=
  selectPlayersForRound (availablePlayers t) (collectPreviousRounds t)

/-- `mod.rs:1060-1073`: one submitted table, given who is seated so far. -/
def checkSubmittedTable (subset seen table : List Uid) : Except EngineError (List Uid) := do
  ensure (4 ≤ table.length ∧ table.length ≤ 5) (.invalidTableSize table.length)
  table.foldlM (fun seen uid => do
    ensure (uid ∈ subset) (.playerNotInSubset uid)
    ensure (uid ∉ seen) .duplicatePlayer
    pure (seen ++ [uid])) seen

/-- `mod.rs:1051-1078`: a submitted seating seats exactly the chosen players, once each. -/
def checkSubmitted (subset : List Uid) (submitted : List (List Uid)) :
    Except EngineError Unit := do
  let seen ← submitted.foldlM (checkSubmittedTable subset) []
  ensure (seen.length = subset.length) .seatingIncomplete

/-- The seed of the round about to be added. -/
def nextRoundSeed (t : Tournament) : UInt64 :=
  seedForRound (t.uid.getD "") (collectPreviousRounds t).length

/-- `mod.rs:1051-1086`: the seating of the new round. -/
def roundSeating (rs : RandomSource) (t : Tournament) (submitted : Option (List (List Uid))) :
    Except EngineError (List (List Uid)) :=
  match submitted with
  | some seating => do
    checkSubmitted (playersToSeat t) seating
    pure seating
  | none => do
    let computed ← computeNextRound rs (playersToSeat t) (collectPreviousRounds t)
      (nextRoundSeed t)
    pure computed.1

/-- `mod.rs:1128-1129`: the first real round of a standard tournament withdraws no-shows. -/
def dropsNoShows (t : Tournament) : Bool := countPlayedRounds t == 0 && !t.flag .openRounds

/-- `mod.rs:1131-1149`. -/
def startRoundEntry (seated : List Uid) (dropNoShows : Bool) (p : Player) : Player :=
  match p.state with
  | .checkedIn => if p.userUid.any (fun uid => seated.contains uid) then p.withState .playing else p
  | .registered => if dropNoShows && !p.waitlisted then p.withState .finished else p
  | _ => p

/-- The document with the new round. -/
def startRoundDoc (t : Tournament) (seating : List (List Uid)) : Tournament :=
  { t with
    rounds := t.rounds ++ [seating.map (Table.fresh none)]
    state := if t.state = .finished then t.state else .playing
    players := t.players.map (startRoundEntry seating.flatten (dropsNoShows t)) }

/-- `mod.rs:1004`. -/
def startRound (rs : RandomSource) (t : Tournament) (actor : ActorContext)
    (decks : List DeckObject) (submitted : Option (List (List Uid))) : Outcome := do
  requireOrganizer actor
  ensure (t.state = .waiting ∨ t.state = .finished ∨ (t.flag .online = true ∧ t.state = .playing))
    (.wrongState TournamentState.waiting.asStr t.state.asStr)
  ensure (t.finals = none) .prelimAfterFinals
  ensure (4 ≤ (availablePlayers t).length) .notEnoughPlayers
  let seating ← roundSeating rs t submitted
  let t' := startRoundDoc t seating
  pure (t', stampRoundDecks t' decks t.rounds.length)

/-- `mod.rs:1200-1226`: one member of a self-organised table. -/
def checkSelfOrganized (t : Tournament) (uid : Uid) : Except EngineError PUnit := do
  let p ← okOr (findPlayer t.players uid) .notRegistered
  ensure (p.state ≠ .disqualified) .playerDisqualified
  ensure (p.state = .registered ∨ p.state = .checkedIn) (.selfOrganizeIneligible uid)
  ensure (p.waitlisted = false) .playerWaitlisted
  ensure (atRoundCap t uid = false) .playerReachedMaxRounds

/-- `mod.rs:1254-1261`: every entry of a seated player plays. -/
def selfOrganizeEntry (seated : List Uid) (p : Player) : Player :=
  if p.userUid.any (fun uid => seated.contains uid) then p.withState .playing else p

def selfOrganizeDoc (t : Tournament) (organizer : Uid) (playerUids : List Uid)
    (seating : List (List Uid)) : Tournament :=
  { t with
    rounds := t.rounds ++ [seating.map (Table.fresh (some organizer))]
    state := .playing
    players := t.players.map (selfOrganizeEntry playerUids) }

/-- `mod.rs:1162`. -/
def selfOrganizeRound (rs : RandomSource) (t : Tournament) (actor : ActorContext)
    (decks : List DeckObject) (playerUids : List Uid) : Outcome := do
  ensure (t.flag .selfOrganizedRounds = true) .selfOrganizeDisabled
  ensure (t.state = .waiting ∨ t.state = .playing)
    (.wrongState TournamentState.waiting.asStr t.state.asStr)
  ensure (t.finals = none) .prelimAfterFinals
  ensure (4 ≤ playerUids.length ∧ playerUids.length ≤ 5) (.invalidTableSize playerUids.length)
  ensure playerUids.Nodup .duplicatePlayer
  ensure (actor.uid ∈ playerUids) .selfOrganizeNotSeated
  forM playerUids (checkSelfOrganized t)
  let computed ← computeNextRound rs playerUids (collectPreviousRounds t) (nextRoundSeed t)
  let t' := selfOrganizeDoc t actor.uid playerUids computed.1
  pure (t', stampRoundDecks t' decks t.rounds.length)

/-! ### Finishing -/

/-- `mod.rs:1294-1306`: the 1-based numbers of the tables not finished. -/
def unfinishedTables (round : List Table) : List ℕ :=
  (round.zipIdx.filter fun ti => ti.1.state != .finished).map fun ti => ti.2 + 1

/-- Roster state of a player whose round ends with the tournament in `state`. -/
def releasedState (state : TournamentState) : PlayerState :=
  if state = .finished then .finished else .checkedIn

/-- `mod.rs:1326-1340`: a player who plays in no other live round leaves, for `Completed` at the
cap. -/
def finishRoundEntry (t : Tournament) (target : ℕ) (p : Player) : Player :=
  match p.userUid with
  | some uid =>
    if p.state = .playing ∧ uid ∉ playersInOtherActiveRounds t (some target) then
      p.withState (if t.state ≠ .finished ∧ uid ∈ cappedUids t then .completed
        else releasedState t.state)
    else p
  | none => p

def finishRoundDoc (t : Tournament) (target : ℕ) : Tournament :=
  { t with
    players := t.players.map (finishRoundEntry t target)
    state := if t.state ≠ .finished ∧ allRoundsFinished t = true then .waiting else t.state }

/-- `mod.rs:1272`. -/
def finishRound (t : Tournament) (actor : ActorContext) (sanctions : List Sanction)
    (round : Option ℕ) : Outcome := do
  requireOrganizer actor
  requireStateOrFinished t.state .playing
  ensure (t.rounds.isEmpty = false) .noRoundToFinish
  let target := round.getD (t.rounds.length - 1)
  let tables ← okOr t.rounds[target]? .invalidRound
  let unfinished := unfinishedTables tables
  ensure (unfinished = []) (.tablesNotFinished (", ".intercalate (unfinished.map toString)))
  pure (updateStandings (finishRoundDoc t target) sanctions, [])

/-! ### Cancelling -/

/-- A round with tables, all of them cancelled. -/
def fullyCancelled (round : List Table) : Bool :=
  !round.isEmpty && round.all fun tb => tb.state == .cancelled

/-- `mod.rs:1371-1390`: the last round goes, and the cancelled rounds it uncovers with it. -/
def removeLastRound (rounds : List (List Table)) : List (List Table) :=
  rounds.dropLast.rdropWhile fullyCancelled

/-- `mod.rs:1398-1403`: an earlier round keeps its slot. -/
def cancelTables (round : List Table) : List Table :=
  round.map fun tb => { tb with state := .cancelled }

/-- The rounds after `CancelRound`. -/
def cancelledRounds (rounds : List (List Table)) (target : ℕ) : List (List Table) :=
  if target = rounds.length - 1 then removeLastRound rounds else rounds.modify target cancelTables

/-- `mod.rs:1411-1445`: as `FinishRound`, and capped players under their cap again return. `t`
holds the rounds after the cancellation. -/
def cancelRoundEntry (t : Tournament) (target : ℕ) (p : Player) : Player :=
  match p.userUid with
  | some uid =>
    if p.state = .playing ∧ uid ∉ playersInOtherActiveRounds t (some target) then
      p.withState (releasedState t.state)
    else if p.state = .completed ∧ 0 < t.maxRounds ∧ t.state ≠ .finished
        ∧ atRoundCap t uid = false then
      p.withState (releasedState t.state)
    else p
  | none => p

def cancelRoundDoc (t : Tournament) (target : ℕ) : Tournament :=
  let cut := { t with rounds := cancelledRounds t.rounds target }
  { cut with
    standings := if cut.rounds.isEmpty = true then [] else t.standings
    players := t.players.map (cancelRoundEntry cut target)
    state :=
      if t.state ≠ .finished ∧ (allRoundsFinished cut = true ∨ cut.rounds.isEmpty = true) then
        .waiting
      else t.state }

/-- `mod.rs:1347`. -/
def cancelRound (t : Tournament) (actor : ActorContext) (sanctions : List Sanction)
    (decks : List DeckObject) (round : Option ℕ) : Outcome := do
  requireOrganizer actor
  ensure (t.state = .waiting ∨ t.state = .playing ∨ t.state = .finished)
    (.wrongState TournamentState.playing.asStr t.state.asStr)
  ensure (t.rounds.isEmpty = false) .noRoundToCancel
  let last := t.rounds.length - 1
  let target := round.getD last
  ensure (target ≤ last) .invalidRound
  ensure (t.state ≠ .waiting ∨ target = last)
    (.wrongState TournamentState.playing.asStr t.state.asStr)
  let t' := cancelRoundDoc t target
  let removed := (List.range t.rounds.length).filter fun r => t'.rounds.length ≤ r
  pure (updateStandings t' sanctions,
    if target = last then releaseStampedDecks decks removed none else [])

/-! ### Restoring -/

/-- `mod.rs:1511-1536`: an override finishes the table, else its points decide. -/
def rederivedState (tb : Table) : TableState :=
  if tb.override.isSome then .finished else judgedState (seatVps tb.seating)

def restoreTables (round : List Table) : List Table :=
  round.map fun tb => { tb with state := rederivedState tb }

/-- `mod.rs:1489-1505`: the seated player can still be reinstated. -/
def checkRestorable (t : Tournament) (uid : Uid) : Except EngineError PUnit := do
  ensure ((findPlayer t.players uid).all (fun p =>
      p.state != .disqualified && p.state != .finished) = true) .cannotRestoreRound
  ensure (atRoundCap t uid = false) .cannotRestoreRound

/-- `mod.rs:1551-1570`. `t` holds the restored round. -/
def restoreRoundEntry (t : Tournament) (seated : List Uid) (live : Bool) (p : Player) : Player :=
  match p.userUid with
  | some uid =>
    if uid ∈ seated ∧ p.state ≠ .playing then
      p.withState (if live = true then .playing
        else if atRoundCap t uid = true then .completed else .checkedIn)
    else p
  | none => p

def restoreRoundDoc (t : Tournament) (target : ℕ) (tables : List Table) : Tournament :=
  let restored := restoreTables tables
  let live := restored.any fun tb => tb.state != .finished
  let back := { t with rounds := t.rounds.set target restored }
  { back with
    players := t.players.map (restoreRoundEntry back (tables.flatMap Table.uids) live)
    state :=
      if live = true then .playing
      else if allRoundsFinished back = true then .waiting else t.state }

/-- `mod.rs:1454`. -/
def restoreRound (t : Tournament) (actor : ActorContext) (sanctions : List Sanction)
    (round : Option ℕ) : Outcome := do
  requireOrganizer actor
  ensure (t.state = .playing ∨ t.state = .waiting)
    (.wrongState TournamentState.playing.asStr t.state.asStr)
  ensure (t.finals = none) .prelimAfterFinals
  let target ← okOr round .invalidRound
  let tables ← okOr t.rounds[target]? .invalidRound
  ensure (fullyCancelled tables = true) .roundNotCancelled
  forM (tables.flatMap Table.uids) (checkRestorable t)
  pure (updateStandings (restoreRoundDoc t target tables) sanctions, [])

end Archon.Engine

import Archon.Engine.SeatingEdits

/-!
# Results and tosses (`tournament/mod.rs:2025-2303`)

Reporting, overriding and un-overriding the result of a table, and the tosses that order tied
finals candidates.
-/

namespace Archon.Engine
open Guards

/-! ### Reporting a result -/

/-- `round == rounds.len()`, a finals table and table `0`. -/
def isFinalsTable (t : Tournament) (round table : ℕ) : Bool := isFinalsRound t round && table == 0

/-- The table a result is reported for. -/
def prelimTable (t : Tournament) (round table : ℕ) : Except EngineError Table := do
  let tables ← okOr t.rounds[round]? .invalidRound
  okOr tables[table]? .invalidTable

/-- `mod.rs:2060-2081`: who may report at a table of these seats. -/
def requireMayScore (actor : ActorContext) (seating : List Seat)
    (override : Option ScoreOverride) : Except EngineError Unit := do
  ensure (actor.isOrganizer = true ∨ (seating.any fun s => s.playerUid == actor.uid) = true)
    .scoreForbidden
  ensure (override = none ∨ actor.isOrganizer = true) .scoreLocked
  ensure (actor.isOrganizer = true ∨ (seating.all fun s => s.judgeUid == "") = true)
    .scoreSetByOrganizer

/-- `mod.rs:2085-2103`: the range and the steps a player's report must keep. -/
def checkReportedVp (actor : ActorContext) (tableSize : ℕ) (score : SeatScore) :
    Except EngineError PUnit := do
  ensure (actor.isOrganizer = true
      ∨ (0 ≤ score.vp ∧ score.vp ≤ tableSize ∧ signedFract (score.vp * 2) = 0))
    (.internal ("Invalid VP value: " ++ toString score.vp))
  ensure (actor.isOrganizer = true ∨ score.vp ≠ tableSize - 1 / 2)
    (.internal ("VP value " ++ toString score.vp ++ " is impossible"))

/-- The reported points of a player; of several reports the last one counts. -/
def reportedVp (scores : List SeatScore) (uid : Uid) : Option ℚ :=
  (scores.reverse.find? fun s => s.playerUid == uid).map SeatScore.vp

/-- `mod.rs:2111-2122`: reported points where there are any, else the stored ones. -/
def mergedVps (seating : List Seat) (scores : List SeatScore) : List ℚ :=
  seating.map fun s => (reportedVp scores s.playerUid).getD s.result.vp

/-- `mod.rs:2133-2149`: only the seats reported for are written. A judge is stamped when an
organizer not at the table reports. -/
def writeScores (actor : ActorContext) (seating : List Seat) (scores : List SeatScore)
    (scored : List ℚ × List ℚ) : List Seat :=
  let stamps := actor.isOrganizer && !seating.any fun s => s.playerUid == actor.uid
  seating.zipIdx.map fun si =>
    match reportedVp scores si.1.playerUid with
    | some vp =>
      { si.1 with
        result := ⟨(scored.1[si.2]?).getD 0, vp, (scored.2[si.2]?).getD 0⟩
        judgeUid := if stamps then actor.uid else si.1.judgeUid }
    | none => si.1

/-- `mod.rs:2152-2173`: the state after a report. Players may not report an impossible sheet. -/
def reportedState (actor : ActorContext) (override : Option ScoreOverride) (state : TableState)
    (vps : List ℚ) : Except EngineError TableState :=
  match override with
  | some _ => pure state
  | none =>
    match checkTableVps vps with
    | some .incompleteTotal => pure .inProgress
    | some .redirectedVp => pure .invalid
    | some _ => do
      ensure (actor.isOrganizer = true) .invalidScore
      pure .invalid
    | none => pure .finished

/-- `mod.rs:2025-2173` for the seats of one table: the seats and the state written. -/
def reportTable (t : Tournament) (actor : ActorContext) (sanctions : List Sanction)
    (round : ℕ) (seating : List Seat) (state : TableState) (override : Option ScoreOverride)
    (seedOrder : Option (List Uid)) (scores : List SeatScore) :
    Except EngineError (List Seat × TableState) := do
  requireMayScore actor seating override
  forM scores (checkReportedVp actor seating.length)
  let vps := mergedVps seating scores
  let scored := scoreTable seating vps round (resolveSaEffectiveRounds t sanctions) seedOrder
  let state ← reportedState actor override state vps
  pure (writeScores actor seating scores scored, state)

/-- Rewrite one preliminary table. -/
def modifyTable (t : Tournament) (round table : ℕ) (f : Table → Table) : Tournament :=
  { t with rounds := t.rounds.modify round fun r => r.modify table f }

/-- `mod.rs:2025`. -/
def setScore (t : Tournament) (actor : ActorContext) (sanctions : List Sanction)
    (round table : ℕ) (scores : List SeatScore) : Outcome := do
  requireCanEditResults actor t.state
  if isFinalsTable t round table = true then
    let f ← okOr t.finals .noFinalsInProgress
    let written ← reportTable t actor sanctions t.rounds.length f.seating f.state f.override
      (some f.seedOrder) scores
    pure (updateStandings
      { t with finals := some { f with seating := written.1, state := written.2 } } sanctions, [])
  else
    let tb ← prelimTable t round table
    let written ← reportTable t actor sanctions round tb.seating tb.state tb.override none scores
    pure (updateStandings
      (modifyTable t round table fun tb => { tb with seating := written.1, state := written.2 })
      sanctions, [])

/-! ### Overrides -/

/-- `mod.rs:2168`. -/
def override (t : Tournament) (actor : ActorContext) (sanctions : List Sanction)
    (round table : ℕ) (comment : String) : Outcome := do
  requireOrganizer actor
  requireCanEditResults actor t.state
  let mark : ScoreOverride := ⟨actor.uid, comment⟩
  if isFinalsTable t round table = true then
    pure (updateStandings
      { t with
        finals := t.finals.map fun f => { f with override := some mark, state := .finished } }
      sanctions, [])
  else
    let _ ← prelimTable t round table
    pure (updateStandings
      (modifyTable t round table fun tb => { tb with override := some mark, state := .finished })
      sanctions, [])

/-- `mod.rs:2201`: the table's own points decide its state again. -/
def unoverride (t : Tournament) (actor : ActorContext) (sanctions : List Sanction)
    (round table : ℕ) : Outcome := do
  requireOrganizer actor
  requireCanEditResults actor t.state
  if isFinalsTable t round table = true then
    pure (updateStandings
      { t with
        finals := t.finals.map fun f =>
          { f with override := none, state := judgedState (seatVps f.seating) } }
      sanctions, [])
  else
    let _ ← prelimTable t round table
    pure (updateStandings
      (modifyTable t round table fun tb =>
        { tb with override := none, state := judgedState (seatVps tb.seating) })
      sanctions, [])

/-! ### Tosses -/

/-- `mod.rs:2247`. -/
def setToss (t : Tournament) (actor : ActorContext) (uid : Uid) (toss : ℕ) : Outcome := do
  requireOrganizer actor
  requireStateOrFinished t.state .waiting
  ensure (2 ≤ countPlayedRounds t) .tossMinRounds
  ensure (playerExists t.players uid = true) .playerNotFound
  pure ({ t with players := updatePlayer t.players uid fun p => { p with toss } }, [])

/-- One step of the congruence `RandomToss` and `RaffleDraw` share. -/
def lcgStep (rng : UInt64) : UInt64 := rng * 6364136223846793005 + 1442695040888963407

/-- The exchange of two positions of a list. -/
def swapIdx {α : Type} (xs : List α) (i j : ℕ) : List α :=
  match xs[i]?, xs[j]? with
  | some a, some b => (xs.set i b).set j a
  | _, _ => xs

/-- `mod.rs:2285-2291`: Fisher-Yates from position `k` down to `1`. -/
def lcgShuffle {α : Type} : ℕ → UInt64 → List α → List α
  | 0, _, xs => xs
  | k + 1, rng, xs =>
    let rng := lcgStep rng
    lcgShuffle k rng (swapIdx xs (k + 1) ((rng >>> 33).toNat % (k + 2)))

/-- `mod.rs:2273-2277`: the seed is a polynomial of the uid's bytes. -/
def tossSeed (t : Tournament) : UInt64 :=
  (t.uid.getD "").toUTF8.toList.foldl (fun acc b => acc * 31 + b.toUInt64) 0

/-- `mod.rs:2292-2299`: consecutive tosses for a shuffled group, and the next one. -/
def assignTosses (acc : List Player × ℕ) (uids : List Uid) : List Player × ℕ :=
  uids.foldl (fun acc uid =>
    (updatePlayer acc.1 uid fun p => { p with toss := acc.2 }, acc.2 + 1)) acc

/-- `mod.rs:2280-2300`: one tied group; one already ordered is left. -/
def tossGroup (seed : UInt64) (acc : List Player × ℕ) (group : ℕ × List Standing) :
    List Player × ℕ :=
  if tossesAreTotal group.2 = true then acc
  else
    let shuffled := lcgShuffle (group.2.length - 1) (seed + group.1.toUInt64) group.2
    assignTosses acc (shuffled.map Standing.userUid)

/-- `mod.rs:2268-2300`: the roster with the tied candidates tossed. -/
def tossedPlayers (t : Tournament) (sanctions : List Sanction) : List Player :=
  let candidates := finalsCandidates t.players (computePreliminaryStandings t sanctions)
  ((tossGroups candidates).foldl (tossGroup (tossSeed t)) (t.players, 1)).1

/-- `mod.rs:2259`. -/
def randomToss (t : Tournament) (actor : ActorContext) (sanctions : List Sanction) : Outcome := do
  requireOrganizer actor
  requireStateOrFinished t.state .waiting
  ensure (2 ≤ countPlayedRounds t) .tossMinRounds
  pure ({ t with players := tossedPlayers t sanctions }, [])

end Archon.Engine

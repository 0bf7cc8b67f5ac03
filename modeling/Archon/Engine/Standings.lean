import Mathlib.Data.Prod.Lex
import Mathlib.Data.String.Basic
import Mathlib.Algebra.Group.Prod
import Mathlib.Algebra.Order.Ring.Rat
import Archon.Library.Tally
import Archon.Engine.Scoring

/-!
# Standings (`tournament/standings.rs`)

The preliminary standings recomputed from the finished tables, the refresh every handler ends
with, the placement of a stored sheet and the display of a tournament, the rating figures, and
the candidates of the finals with their ties.

The source fills a hash map and sorts its rows by a key that ends with the uid, so the order the
map yields its rows in never shows; here the rows are tallied in order of appearance.
-/

namespace Archon.Engine

/-! ### Rank order -/

/-- `standings.rs:117`: excluded rows last, then GW, VP, TP and toss descending, then the uid. -/
abbrev RankKey := Bool ×ₗ ℚᵒᵈ ×ₗ ℚᵒᵈ ×ₗ ℚᵒᵈ ×ₗ ℕᵒᵈ ×ₗ Uid

/-- `standings.rs:131`. -/
def rankKey (s : Standing) : RankKey :=
  toLex (s.disqualified || s.nonCompeting, toLex (OrderDual.toDual s.gw,
    toLex (OrderDual.toDual s.vp, toLex (OrderDual.toDual s.tp,
      toLex (OrderDual.toDual s.toss, s.userUid)))))

/-- `standings.rs:154`. -/
def sortByRank (rows : List Standing) : List Standing :=
  rows.insertionSort fun a b => rankKey a ≤ rankKey b

/-! ### Preliminary standings -/

/-- What one finished table adds: a seat's game win, raw points and tournament points. -/
def tableEntries (effectiveSas : List (Uid × ℕ)) (roundIndex : ℕ) (tb : Table) :
    List (Uid × (ℚ × ℚ × ℚ)) :=
  if tb.state = .finished then
    let vps := seatVps tb.seating
    let scored := scoreTable tb.seating vps roundIndex effectiveSas none
    (tb.uids.zip (scored.1.zip (vps.zip scored.2))).filter fun e => e.1 ≠ ""
  else []

/-- `standings.rs:36-58`: what the finished tables of every round add, in order. -/
def prelimEntries (t : Tournament) (effectiveSas : List (Uid × ℕ)) : List (Uid × (ℚ × ℚ × ℚ)) :=
  t.rounds.zipIdx.flatMap fun ri => ri.1.flatMap fun tb => tableEntries effectiveSas ri.2 tb

/-- `standings.rs:62-67`: the adjustments that land on a preliminary round. -/
def prelimSas (t : Tournament) (effectiveSas : List (Uid × ℕ)) : List (Uid × ℕ) :=
  effectiveSas.filter fun sa => sa.2 < t.rounds.length

/-- `standings.rs:77-110`: the row of a player from the tallied totals. -/
def prelimRow (t : Tournament) (sanctions : List Sanction) (sas : List (Uid × ℕ)) (uid : Uid)
    (total : ℚ × ℚ × ℚ) : Standing :=
  let player := findPlayer t.players uid
  let disqualified := player.any (fun p => p.state == .disqualified) || hasDqSanction sanctions uid
  { userUid := uid
    gw := if disqualified then 0 else total.1
    vp := if disqualified then 0 else total.2.1 - saVpPenalty sas uid
    tp := if disqualified then 0 else total.2.2
    toss := player.elim 0 Player.toss
    finalist := player.elim false Player.finalist
    disqualified
    nonCompeting := player.elim false Player.nonCompeting
    withdrawn := false }

/-- `standings.rs:28`. -/
def computePreliminaryStandings (t : Tournament) (sanctions : List Sanction) : List Standing :=
  let effectiveSas := resolveSaEffectiveRounds t sanctions
  let totals := Tally.ofList (prelimEntries t effectiveSas)
  sortByRank (totals.map fun e => prelimRow t sanctions (prelimSas t effectiveSas) e.1 e.2)

/-! ### The refresh -/

def Seat.withGwTp (s : Seat) (gw tp : ℚ) : Seat := { s with result := { s.result with gw, tp } }

/-- Write game wins and tournament points seat by seat; a missing one is zero. -/
def refreshSeats (seating : List Seat) (gws tps : List ℚ) : List Seat :=
  seating.zipIdx.map fun si => si.1.withGwTp ((gws[si.2]?).getD 0) ((tps[si.2]?).getD 0)

/-- `standings.rs:169-187`: a cancelled table keeps its scores, an unfinished one has none. -/
def refreshTable (effectiveSas : List (Uid × ℕ)) (roundIndex : ℕ) (tb : Table) : Table :=
  if tb.state = .cancelled then tb
  else if tb.state = .finished then
    let scored := scoreTable tb.seating (seatVps tb.seating) roundIndex effectiveSas none
    { tb with seating := refreshSeats tb.seating scored.1 scored.2 }
  else { tb with seating := refreshSeats tb.seating [] [] }

/-- `standings.rs:166`. -/
def refreshRoundScoring (t : Tournament) (sanctions : List Sanction) : Tournament :=
  let effectiveSas := resolveSaEffectiveRounds t sanctions
  { t with rounds := t.rounds.zipIdx.map fun ri => ri.1.map (refreshTable effectiveSas ri.2) }

/-- The score of the finals table from its stored points. -/
def scoreFinals (t : Tournament) (sanctions : List Sanction) (f : FinalsTable) :
    List ℚ × List ℚ :=
  scoreTable f.seating (seatVps f.seating) t.rounds.length (resolveSaEffectiveRounds t sanctions)
    (some f.seedOrder)

/-- The player of the first seat with a game win. -/
def gameWinUid (seating : List Seat) (gws : List ℚ) : Option Uid :=
  (gws.findIdx? fun g => g == 1).map fun w => ((seating[w]?).map Seat.playerUid).getD ""

/-- `standings.rs:220`: a finished finals table is scored again, and a winner already named is
derived again, never blanked. -/
def refreshFinalsScoring (t : Tournament) (sanctions : List Sanction) : Tournament :=
  match t.finals with
  | some f =>
    if f.state = .finished then
      let scored := scoreFinals t sanctions f
      { t with
        finals := some { f with seating := refreshSeats f.seating scored.1 scored.2 }
        winner :=
          if t.winner = "" then t.winner else (gameWinUid f.seating scored.1).getD t.winner }
    else t
  | none => t

/-- `standings.rs:193`: nothing is recomputed without rounds. -/
def updateStandings (t : Tournament) (sanctions : List Sanction) : Tournament :=
  let refreshed := refreshRoundScoring t sanctions
  if refreshed.rounds.isEmpty then refreshed
  else
    refreshFinalsScoring
      { refreshed with standings := computePreliminaryStandings refreshed sanctions } sanctions

/-! ### Placement -/

/-- A row of the final standings. -/
structure PlacedRow where
  row : Standing
  noShow : Bool
  rank : ℕ
  finalistPosition : ℕ
  deriving DecidableEq, Repr

/-- `standings.rs:269`. -/
def finalPlayed (standings : List Standing) : Bool := standings.any Standing.finalist

/-- `standings.rs:277`. -/
def isNoShow (s : Standing) (winner : Uid) : Bool :=
  !s.disqualified && !s.finalist && s.userUid != winner && s.gw == 0 && s.vp == 0 && s.tp == 0

/-- Rows that never place. -/
def isExcluded (winner : Uid) (s : Standing) : Bool :=
  s.disqualified || s.nonCompeting || isNoShow s winner

/-- `as i64`: toward zero. -/
def truncate (q : ℚ) : ℤ := if 0 ≤ q then ⌊q⌋ else ⌈q⌉

/-- `standings.rs:337-341`. -/
def tieKey (s : Standing) : ℤ × ℤ × ℤ := (truncate (s.gw * 10), truncate (s.vp * 10), truncate s.tp)

/-- `standings.rs:335-349`, the loop: a row tied with the one before shares its rank. -/
def placeTied (winner : Uid) : ℕ → ℕ → Option (ℤ × ℤ × ℤ) → List Standing → List PlacedRow
  | _, _, _, [] => []
  | next, rank, prevKey, s :: rest =>
    let rank := if prevKey = some (tieKey s) then rank else next
    ⟨s, isNoShow s winner, rank, 0⟩ :: placeTied winner (next + 1) rank (some (tieKey s)) rest

/-- `standings.rs:289`: the winner first, the other finalists second, the field by preliminary
standing, the excluded rows last. Among rows of the winner's uid the last one is kept. -/
def computeFinalStandings (standings : List Standing) (winner : Uid) : List PlacedRow :=
  let winnerPresent := winner ≠ "" ∧ standings.any (fun s => s.userUid == winner) = true
  let isWinner := fun s : Standing => decide (winnerPresent ∧ s.userUid = winner)
  let placed := standings.filter fun s => !isExcluded winner s
  let winnerEntry := (placed.filter isWinner).getLast?
  let finalists := placed.filter fun s => !isWinner s && s.finalist
  let nonFinalists := placed.filter fun s => !isWinner s && !s.finalist
  let excluded := standings.filter (isExcluded winner)
  let finalistCount := winnerEntry.toList.length + finalists.length
  let start := if 0 < finalistCount then finalistCount + 1 else 1
  let excludedStart := finalistCount + nonFinalists.length + 1
  winnerEntry.toList.map (fun s =>
      ⟨s, isNoShow s winner, 1, if finalPlayed standings = true then 1 else 0⟩)
    ++ finalists.map (fun s => ⟨s, isNoShow s winner, 2, 2⟩)
    ++ placeTied winner start start none nonFinalists
    ++ excluded.zipIdx.map (fun si => ⟨si.1, isNoShow si.1 winner, excludedStart + si.2, 0⟩)

/-! ### Display -/

/-- A displayed row: its placement and the score of its finals seat, if it has one. -/
structure DisplayRow extends PlacedRow where
  finals : Option Score
  deriving DecidableEq, Repr

/-- The finals are shown: the tournament is finished and has a finals table. -/
def finalsScored (t : Tournament) : Bool := t.state == .finished && t.finals.isSome

/-- `standings.rs:389-397`. -/
def finalsSeat (t : Tournament) (uid : Uid) : Option Seat :=
  if finalsScored t = true then
    (t.finals.elim [] FinalsTable.seating).find? fun s => s.playerUid == uid
  else none

/-- `standings.rs:408-417`: the seat with the most game wins, then points, the first of equals. -/
def bestStoredSeat (seating : List Seat) : Option Seat :=
  seating.foldl (fun best s =>
    match best with
    | none => some s
    | some b =>
      if b.result.gw < s.result.gw ∨ (s.result.gw = b.result.gw ∧ b.result.vp < s.result.vp) then
        some s
      else some b) none

/-- `standings.rs:399-418`. -/
def displayWinner (t : Tournament) : Uid :=
  let useFinals := !t.rounds.isEmpty && finalsScored t
  let winner := if t.rounds.isEmpty || useFinals then t.winner else ""
  if useFinals = true ∧ winner = "" then
    ((bestStoredSeat (t.finals.elim [] FinalsTable.seating)).map Seat.playerUid).getD ""
  else winner

/-- `standings.rs:420-476`: the rows before the flags of roster and sanctions. -/
def displayRaw (t : Tournament) : List Standing :=
  if !t.standings.isEmpty then
    t.standings.map fun s =>
      if t.rounds.isEmpty then s
      else
        { s with
          toss := (findPlayer t.players s.userUid).elim 0 Player.toss
          finalist := (finalsSeat t s.userUid).isSome }
  else if t.rounds.isEmpty then
    t.players.filterMap fun p =>
      let uid := p.userUid.getD ""
      if uid = "" ∨ (p.result.gw = 0 ∧ p.result.vp = 0 ∧ p.result.tp = 0) then none
      else some ⟨uid, p.result.gw, p.result.vp, p.result.tp, p.toss, p.finalist, false, false,
        false⟩
  else []

/-- `standings.rs:478-507`: the flags read again from the roster, the first stored row of the uid
and the sanctions; a disqualified row forfeits its score. -/
def displayFlags (t : Tournament) (sanctions : List Sanction) (s : Standing) : Standing :=
  let player := findPlayer t.players s.userUid
  let row := t.standings.find? fun r => r.userUid == s.userUid
  let disqualified := player.any (fun p => p.state == .disqualified)
    || row.any Standing.disqualified || hasDqSanction sanctions s.userUid
  { s with
    gw := if disqualified then 0 else s.gw
    vp := if disqualified then 0 else s.vp
    tp := if disqualified then 0 else s.tp
    disqualified
    nonCompeting := player.elim false Player.nonCompeting || row.any Standing.nonCompeting
    withdrawn := false }

/-- The sheet `display_standings` hands to the placement. -/
def displaySheet (t : Tournament) (sanctions : List Sanction) : List Standing :=
  sortByRank ((displayRaw t).map (displayFlags t sanctions))

/-- `standings.rs:366`. -/
def displayStandings (t : Tournament) (sanctions : List Sanction) : List DisplayRow :=
  (computeFinalStandings (displaySheet t sanctions) (displayWinner t)).map fun p =>
    { p with finals := (finalsSeat t p.row.userUid).map Seat.result }

/-! ### Rating -/

/-- `standings.rs:533`. -/
def forfeitsRating (t : Tournament) (sanctions : List Sanction) (uid : Uid) : Bool :=
  t.players.any (fun p => p.isUid uid && p.state == .disqualified)
    || hasDqSanction sanctions uid
    || t.players.any fun p => p.isUid uid && p.nonCompeting

/-- `standings.rs:574-591`: what one finished table gives a player, at their first seat. -/
def tableRating (effectiveSas : List (Uid × ℕ)) (roundIndex : ℕ) (uid : Uid) (tb : Table) :
    ℚ × ℚ :=
  if tb.state = .finished then
    match tb.seating.findIdx? fun s => s.playerUid == uid with
    | some i =>
      let vps := seatVps tb.seating
      ((vps[i]?).getD 0, ((scoreTable tb.seating vps roundIndex effectiveSas none).1[i]?).getD 0)
    | none => (0, 0)
  else (0, 0)

/-- `standings.rs:551`: the rating points and game wins of a player. -/
def computeRatingVpGw (t : Tournament) (sanctions : List Sanction) (uid : Uid) : ℚ × ℚ :=
  if forfeitsRating t sanctions uid = true then (0, 0)
  else
    let prelim :=
      if t.rounds.isEmpty then
        (t.standings.find? fun s => s.userUid == uid).elim (0, 0) fun s => (s.vp, s.gw)
      else
        let effectiveSas := resolveSaEffectiveRounds t sanctions
        let tables := (t.rounds.zipIdx.map fun ri =>
          (ri.1.map (tableRating effectiveSas ri.2 uid)).sum).sum
        (tables.1 - saVpPenalty effectiveSas uid, tables.2)
    let finals := ((t.finals.elim [] FinalsTable.seating).filter fun s => s.playerUid == uid).map
      fun s => (s.result.vp, s.result.gw)
    let credited :=
      if t.finals = none ∧ t.winner = uid ∧ finalPlayed t.standings = true then 1 else 0
    (prelim.1 + finals.sum.1, prelim.2 + finals.sum.2 + credited)

/-- `ratings.rs:78`: the players who played, or the scored rows of a sheet without rounds. -/
def playersWithRounds (t : Tournament) : ℕ :=
  if !t.rounds.isEmpty then
    (((t.rounds.flatMap fun round => round.flatMap Table.uids)
      ++ (t.finals.elim [] FinalsTable.seating).map Seat.playerUid).filter (· ≠ "")).dedup.length
  else
    t.standings.countP fun s => s.disqualified || s.gw != 0 || s.vp != 0 || s.tp != 0

/-! ### Finals candidates and ties -/

/-- `standings.rs:683`. -/
def scoresTied (a b : Standing) : Bool := a.gw == b.gw && a.vp == b.vp && a.tp == b.tp

/-- `standings.rs:688`. -/
def finalsCandidates (players : List Player) (standings : List Standing) : List Standing :=
  standings.filter fun s =>
    !s.disqualified && !s.nonCompeting
      && (findPlayer players s.userUid).all fun p => p.state != .finished

/-- `standings.rs:711`: the groups a toss must order, with their position in the pool. -/
def tossGroups (candidates : List Standing) : List (ℕ × List Standing) :=
  let cutoff := min candidates.length 5
  let extra :=
    match candidates[cutoff - 1]? with
    | some fifth => (candidates.drop cutoff).takeWhile fun s => scoresTied s fifth
    | none => []
  let pool := (candidates.take cutoff ++ extra).zipIdx
  let groups := pool.splitBy fun a b => scoresTied b.1 a.1
  groups.filterMap fun g =>
    match g with
    | (first, start) :: rest =>
      if rest = [] then none else some (start, first :: rest.map Prod.fst)
    | [] => none

/-- `standings.rs:737`: every member holds a toss of its own. -/
def tossesAreTotal (group : List Standing) : Bool :=
  decide ((group.map Standing.toss).Nodup) && group.all fun s => s.toss != 0

/-- `standings.rs:787`. -/
def top5HasTies (candidates : List Standing) : Bool :=
  let tied := fun a b : Standing => scoresTied a b && a.toss == b.toss
  match candidates with
  | a :: b :: c :: d :: e :: rest =>
    tied a b || tied a c || tied a d || tied a e || tied b c || tied b d || tied b e
      || tied c d || tied c e || tied d e || rest.any fun s => tied s e
  | _ => false

end Archon.Engine

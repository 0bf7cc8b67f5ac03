import Archon.Engine.Ratings

/-!
# League standings (`engine/src/league.rs`)

The points of a league: the rating of every counted row, its preliminary score, or a fixed number
for its place. A row counts unless it is disqualified, proxied or a no-show.
-/

namespace Archon.Engine

/-- One tournament as the league is handed it, the finals seats with their scores. -/
structure LeagueTournament where
  rank : String
  playerCount : ℕ
  winner : Uid
  standings : List Standing
  finals : List (Uid × Score)

/-- GW, VP, TP, points and number of tournaments of a player. -/
abbrev LeagueScore := ℚ × ℚ × ℤ × ℤ × ℕ

/-- `league.rs:219`. -/
def computeGpPoints : ℕ → ℤ
  | 1 => 25
  | 2 | 3 | 4 | 5 => 15
  | 6 => 10
  | 7 => 9
  | 8 => 8
  | 9 => 7
  | 10 => 6
  | _ => 3

/-- `league.rs:52-66`: the finals score of a player, the last seat of the uid. -/
def LeagueTournament.finalsScore (t : LeagueTournament) (uid : Uid) : Score :=
  (t.finals.filter fun s => s.1 == uid).getLast?.elim Score.zero Prod.snd

/-- `league.rs:36-48`: rank and finalist position, of the last row of the uid. -/
def LeagueTournament.finalPlace (t : LeagueTournament) (uid : Uid) : ℕ × ℕ :=
  ((computeFinalStandings t.standings t.winner).filter fun p => p.row.userUid == uid).getLast?.elim
    (0, 0) fun p => (p.rank, p.finalistPosition)

/-- `league.rs:69-84`: the row is skipped. -/
def LeagueTournament.skips (t : LeagueTournament) (s : Standing) : Bool :=
  s.userUid == "" || s.nonCompeting || s.disqualified || isNoShow s t.winner

/-- `league.rs:107-112`: the game win of a tournament won without finals seats. -/
def LeagueTournament.winGw (t : LeagueTournament) (uid : Uid) : ℚ :=
  if t.finals.isEmpty = true ∧ uid = t.winner ∧ finalPlayed t.standings = true then 1 else 0

/-- `league.rs:68-144`, the loop: what one row adds. -/
def leagueEntry (log15 : ℕ → ℚ) (mode : String) (t : LeagueTournament) (s : Standing) :
    Except EngineError (Option (Uid × LeagueScore)) :=
  if t.skips s = true then .ok none
  else if mode = "Score" then .ok (some (s.userUid, s.gw, s.vp, truncate s.tp, 0, 1))
  else
    let finals := t.finalsScore s.userUid
    let totalGw := s.gw + finals.gw + t.winGw s.userUid
    let totalVp := s.vp + finals.vp
    let totalTp := truncate s.tp + truncate finals.tp
    if mode = "RTP" then
      let points := computeRatingPoints log15 totalVp (truncate totalGw)
        (t.finalPlace s.userUid).2 t.playerCount t.rank
      .ok (some (s.userUid, totalGw, totalVp, totalTp, points, 1))
    else if mode = "GP" then
      .ok (some (s.userUid, totalGw, totalVp, totalTp,
        computeGpPoints (t.finalPlace s.userUid).1, 1))
    else .error (.internal ("Unknown standings mode: " ++ mode))

/-- What a tournament adds, row by row. -/
def leagueEntries (log15 : ℕ → ℚ) (mode : String) (t : LeagueTournament) :
    Except EngineError (List (Uid × LeagueScore)) := do
  let rows ← t.standings.mapM (leagueEntry log15 mode t)
  return rows.reduceOption

/-- A row of the league; without points in the `Score` mode. -/
structure LeagueRow where
  userUid : Uid
  gw : ℚ
  vp : ℚ
  tp : ℤ
  points : Option ℤ
  rank : ℕ
  tournamentsCount : ℕ
  deriving DecidableEq, Repr

/-- `league.rs:153-172`: points, GW, VP and TP descending; nobody has points in `Score`. -/
abbrev LeagueKey := ℤᵒᵈ ×ₗ ℚᵒᵈ ×ₗ ℚᵒᵈ ×ₗ ℤᵒᵈ

def leagueKey (e : Uid × LeagueScore) : LeagueKey :=
  toLex (OrderDual.toDual e.2.2.2.2.1, toLex (OrderDual.toDual e.2.1,
    toLex (OrderDual.toDual e.2.2.1, OrderDual.toDual e.2.2.2.1)))

/-- `league.rs:182-187`. -/
def leagueTieKey (e : Uid × LeagueScore) : ℤ × ℤ × ℤ × ℤ :=
  (e.2.2.2.2.1, truncate (e.2.1 * 10), truncate (e.2.2.1 * 10), e.2.2.2.1)

/-- `league.rs:175-210`, the loop: entries with one key share a rank. -/
def placeLeague (mode : String) :
    ℕ → ℕ → Option (ℤ × ℤ × ℤ × ℤ) → List (Uid × LeagueScore) → List LeagueRow
  | _, _, _, [] => []
  | rank, passed, prevKey, e :: rest =>
    let moved := prevKey ≠ none ∧ prevKey ≠ some (leagueTieKey e)
    let rank := if moved then rank + passed else rank
    let passed := if moved then 0 else passed
    ⟨e.1, e.2.1, e.2.2.1, e.2.2.2.1, if mode = "Score" then none else some e.2.2.2.2.1, rank,
      e.2.2.2.2.2⟩ :: placeLeague mode rank (passed + 1) (some (leagueTieKey e)) rest

/-- `league.rs:22`. -/
def computeLeagueStandings (log15 : ℕ → ℚ) (mode : String) (tournaments : List LeagueTournament) :
    Except EngineError (List LeagueRow) := do
  let entries ← tournaments.mapM (leagueEntries log15 mode)
  let sorted := (Tally.ofList entries.flatten).insertionSort fun a b => leagueKey a ≤ leagueKey b
  return placeLeague mode 1 0 none sorted

/-! ### The tournaments of the page -/

/-- The points the tournament adds to the player's. -/
def pointsAdded (log15 : ℕ → ℚ) (mode : String) (t : LeagueTournament) (uid : Uid) : ℤ :=
  match leagueEntries log15 mode t with
  | .ok entries => (Tally.sumFor entries uid).2.2.2.1
  | .error _ => 0

theorem mapM_ok {α β : Type} {f : α → Except EngineError β} {g : α → β}
    (h : ∀ a, f a = .ok (g a)) (xs : List α) : xs.mapM f = .ok (xs.map g) := by
  induction xs with
  | nil => rfl
  | cons x xs ih => rw [List.mapM_cons, h, ih]; rfl

/-- What a row adds in `RTP`. -/
def rtpEntry (log15 : ℕ → ℚ) (t : LeagueTournament) (s : Standing) : Uid × LeagueScore :=
  let finals := t.finalsScore s.userUid
  (s.userUid, s.gw + finals.gw + t.winGw s.userUid, s.vp + finals.vp,
    truncate s.tp + truncate finals.tp,
    computeRatingPoints log15 (s.vp + finals.vp)
      (truncate (s.gw + finals.gw + t.winGw s.userUid)) (t.finalPlace s.userUid).2 t.playerCount
      t.rank, 1)

theorem leagueEntries_rtp (log15 : ℕ → ℚ) (t : LeagueTournament) :
    leagueEntries log15 "RTP" t =
      .ok ((t.standings.filter fun s => !t.skips s).map (rtpEntry log15 t)) := by
  have hrow : ∀ s, leagueEntry log15 "RTP" t s =
      .ok (if t.skips s = true then none else some (rtpEntry log15 t s)) := by
    intro s
    unfold leagueEntry
    split
    · rfl
    · rw [if_neg (by decide), if_pos rfl]
      rfl
  have hrows : (t.standings.map fun s =>
      if t.skips s = true then none else some (rtpEntry log15 t s)).reduceOption =
        (t.standings.filter fun s => !t.skips s).map (rtpEntry log15 t) := by
    change List.filterMap id _ = _
    rw [List.filterMap_map, ← List.filterMap_eq_map, List.filterMap_filter]
    refine List.filterMap_congr fun s _ => ?_
    cases hs : t.skips s <;> simp [hs]
  rw [leagueEntries, mapM_ok hrow]
  exact congrArg Except.ok hrows

theorem sumFor_flatten_rtp (log15 : ℕ → ℚ) (ts : List LeagueTournament) (uid : Uid) :
    (Tally.sumFor (ts.map fun t : LeagueTournament =>
        (t.standings.filter fun s => !t.skips s).map (rtpEntry log15 t)).flatten uid).2.2.2.1 =
      (ts.map fun t => pointsAdded log15 "RTP" t uid).sum := by
  induction ts with
  | nil => rfl
  | cons t ts ih =>
    rw [List.map_cons, List.flatten_cons, Tally.sumFor_append, List.map_cons, List.sum_cons, ← ih,
      pointsAdded, leagueEntries_rtp]
    rfl

end Archon.Engine

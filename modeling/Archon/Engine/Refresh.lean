import Archon.Engine.Process

/-!
# What the refresh leaves alone

`updateStandings` ends most handlers. It rewrites game wins, tournament points, the stored sheet
and possibly the winner; states, players, seats, points and overrides stay. The board of a
tournament, who sits where at tables of which state, is what most properties are about.
-/

namespace Archon.Engine

/-! ### Boards -/

/-- A table seen by its state and the players at it. -/
structure Face where
  state : TableState
  uids : List Uid
  deriving DecidableEq, Repr

def Table.face (tb : Table) : Face := ⟨tb.state, tb.uids⟩

/-- The faces of all tables, round by round. -/
def boardOf (rounds : List (List Table)) : List (List Face) :=
  rounds.map fun round => round.map Table.face

/-- Players at a live table, read off a board. -/
def liveFaces (board : List (List Face)) : List Uid :=
  (board.flatMap fun round => round.filter fun f => f.state.isLive).flatMap Face.uids

theorem liveSeats_eq_liveFaces (rounds : List (List Table)) :
    liveSeats rounds = liveFaces (boardOf rounds) := by
  induction rounds with
  | nil => rfl
  | cons round rest ih =>
    have hround : (round.filter fun tb => tb.state.isLive).flatMap Table.uids =
        ((round.map Table.face).filter fun f => f.state.isLive).flatMap Face.uids := by
      rw [List.filter_map, List.flatMap_map]
      rfl
    simp only [liveSeats, liveFaces, boardOf, List.flatMap_cons, List.flatMap_append,
      List.map_cons] at ih ⊢
    rw [hround, ih]

theorem liveSeats_congr {rounds rounds' : List (List Table)}
    (h : boardOf rounds = boardOf rounds') :
    liveSeats rounds = liveSeats rounds' := by
  rw [liveSeats_eq_liveFaces, liveSeats_eq_liveFaces, h]

theorem mem_liveSeats {rounds : List (List Table)} {uid : Uid} :
    uid ∈ liveSeats rounds ↔
      ∃ round ∈ rounds, ∃ tb ∈ round, tb.state.isLive = true ∧ uid ∈ tb.uids := by
  simp only [liveSeats, List.mem_flatMap, List.mem_filter]
  constructor
  · rintro ⟨tb, ⟨round, hr, htb, hl⟩, hu⟩
    exact ⟨round, hr, tb, htb, hl, hu⟩
  · rintro ⟨round, hr, tb, htb, hl, hu⟩
    exact ⟨tb, ⟨round, hr, htb, hl⟩, hu⟩

theorem seats_iff {tb : Table} {uid : Uid} : tb.seats uid = true ↔ uid ∈ tb.uids := by
  simp only [Table.seats, Table.uids, List.any_eq_true, List.mem_map, beq_iff_eq]

/-! ### Seats -/

@[simp] theorem map_playerUid_refreshSeats (seating : List Seat) (gws tps : List ℚ) :
    (refreshSeats seating gws tps).map Seat.playerUid = seating.map Seat.playerUid := by
  have h : (Seat.playerUid ∘ fun si : Seat × ℕ =>
      si.1.withGwTp ((gws[si.2]?).getD 0) ((tps[si.2]?).getD 0)) = Seat.playerUid ∘ Prod.fst := rfl
  rw [refreshSeats, List.map_map, h, ← List.map_map, List.zipIdx_map_fst]

@[simp] theorem seatVps_refreshSeats (seating : List Seat) (gws tps : List ℚ) :
    seatVps (refreshSeats seating gws tps) = seatVps seating := by
  have h : ((fun s : Seat => s.result.vp) ∘ fun si : Seat × ℕ =>
      si.1.withGwTp ((gws[si.2]?).getD 0) ((tps[si.2]?).getD 0)) =
      (fun s : Seat => s.result.vp) ∘ Prod.fst := rfl
  rw [seatVps, refreshSeats, List.map_map, h, ← List.map_map, List.zipIdx_map_fst, seatVps]

@[simp] theorem length_refreshSeats (seating : List Seat) (gws tps : List ℚ) :
    (refreshSeats seating gws tps).length = seating.length := by
  simp [refreshSeats]

/-! ### Rounds -/

@[simp] theorem refreshTable_state (sas : List (Uid × ℕ)) (r : ℕ) (tb : Table) :
    (refreshTable sas r tb).state = tb.state := by
  unfold refreshTable
  split
  · rfl
  · split <;> rfl

@[simp] theorem refreshTable_override (sas : List (Uid × ℕ)) (r : ℕ) (tb : Table) :
    (refreshTable sas r tb).override = tb.override := by
  unfold refreshTable
  split
  · rfl
  · split <;> rfl

@[simp] theorem refreshTable_uids (sas : List (Uid × ℕ)) (r : ℕ) (tb : Table) :
    (refreshTable sas r tb).uids = tb.uids := by
  unfold refreshTable Table.uids
  split
  · rfl
  · split <;> simp

@[simp] theorem refreshTable_vps (sas : List (Uid × ℕ)) (r : ℕ) (tb : Table) :
    seatVps (refreshTable sas r tb).seating = seatVps tb.seating := by
  unfold refreshTable
  split
  · rfl
  · split <;> simp

theorem refreshTable_face (sas : List (Uid × ℕ)) (r : ℕ) (tb : Table) :
    (refreshTable sas r tb).face = tb.face := by
  simp [Table.face]

section Refresh

variable (t : Tournament) (s : List Sanction)

theorem updateStandings_rounds :
    (updateStandings t s).rounds = (refreshRoundScoring t s).rounds := by
  unfold updateStandings
  extract_lets refreshed
  split
  · rfl
  · unfold refreshFinalsScoring
    split
    · split <;> rfl
    · rfl

theorem updateStandings_getElem? (r : ℕ) :
    (updateStandings t s).rounds[r]? =
      (t.rounds[r]?).map fun round =>
        round.map (refreshTable (resolveSaEffectiveRounds t s) r) := by
  rw [updateStandings_rounds, refreshRoundScoring, List.getElem?_map, List.getElem?_zipIdx]
  cases t.rounds[r]? <;> simp

@[simp] theorem updateStandings_length : (updateStandings t s).rounds.length = t.rounds.length := by
  rw [updateStandings_rounds]
  simp [refreshRoundScoring]

@[simp] theorem boardOf_updateStandings :
    boardOf (updateStandings t s).rounds = boardOf t.rounds := by
  apply List.ext_getElem?
  intro r
  rw [boardOf, boardOf, List.getElem?_map, List.getElem?_map, updateStandings_getElem?]
  cases t.rounds[r]? with
  | none => rfl
  | some round =>
    simp only [Option.map_some, List.map_map]
    exact congrArg some (List.map_congr_left fun tb _ => refreshTable_face _ _ tb)

@[simp] theorem liveSeats_updateStandings :
    liveSeats (updateStandings t s).rounds = liveSeats t.rounds :=
  liveSeats_congr (boardOf_updateStandings t s)

@[simp] theorem updateStandings_players : (updateStandings t s).players = t.players := by
  unfold updateStandings
  extract_lets refreshed
  split
  · rfl
  · unfold refreshFinalsScoring
    split
    · split <;> rfl
    · rfl

@[simp] theorem updateStandings_state : (updateStandings t s).state = t.state := by
  unfold updateStandings
  extract_lets refreshed
  split
  · rfl
  · unfold refreshFinalsScoring
    split
    · split <;> rfl
    · rfl

@[simp] theorem updateStandings_finals_isSome :
    (updateStandings t s).finals.isSome = t.finals.isSome := by
  unfold updateStandings
  extract_lets refreshed
  split
  · rfl
  · unfold refreshFinalsScoring
    split
    · rename_i f hf
      have hf' : t.finals = some f := hf
      split
      · simp [hf']
      · exact congrArg Option.isSome (hf.trans hf'.symm)
    · rfl

theorem updateStandings_finals_eq_none : (updateStandings t s).finals = none ↔ t.finals = none := by
  rw [← Option.not_isSome_iff_eq_none, ← Option.not_isSome_iff_eq_none,
    updateStandings_finals_isSome]

end Refresh

end Archon.Engine

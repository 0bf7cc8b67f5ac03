import Mathlib.Algebra.BigOperators.Group.List.Basic
import Mathlib.Algebra.Group.Action.Defs
import Mathlib.Algebra.GroupWithZero.Nat
import Mathlib.Data.Rat.Defs
import Archon.Library.Nested

/-!
# Measuring a seating (`seating/measure.rs`)

The relations between the players of a seating, one vector of eight counts a pair, the diagonal
holding a player's own seats; and how a list of players is cut into tables of four and five.
-/

namespace Archon.Seating

/-- A round: its tables, each a list of players in predator-prey order. -/
abbrev Round (α : Type) := List (List α)

/-! ### Relation vectors -/

/-- `measure.rs:8-20`: opponent, prey, grand-prey, grand-predator, predator, cross-table,
neighbour, non-neighbour, by distance along the table. -/
def opponentVectors : ℕ → List (List ℤ)
  | 4 => [[1, 1, 0, 0, 0, 0, 1, 0], [1, 0, 0, 0, 0, 1, 0, 1], [1, 0, 0, 0, 1, 0, 1, 0]]
  | 5 => [[1, 1, 0, 0, 0, 0, 1, 0], [1, 0, 1, 0, 0, 0, 0, 1], [1, 0, 0, 1, 0, 0, 0, 1],
          [1, 0, 0, 0, 1, 0, 1, 0]]
  | _ => []

/-- `measure.rs:23-36`: played, VPs, transfers, then one count for each seat. -/
def positionVectors : ℕ → List (List ℤ)
  | 4 => [[1, 4, 1, 1, 0, 0, 0, 0], [1, 4, 2, 0, 1, 0, 0, 0], [1, 4, 3, 0, 0, 1, 0, 0],
          [1, 4, 4, 0, 0, 0, 1, 0]]
  | 5 => [[1, 5, 1, 1, 0, 0, 0, 0], [1, 5, 2, 0, 1, 0, 0, 0], [1, 5, 3, 0, 0, 1, 0, 0],
          [1, 5, 4, 0, 0, 0, 1, 0], [1, 5, 4, 0, 0, 0, 0, 1]]
  | _ => []

/-! ### The measure -/

/-- `measure.rs:40`: `n × n × 8` counts. -/
structure Measure where
  n : ℕ
  get : ℕ → ℕ → ℕ → ℤ

namespace Measure

def zero (n : ℕ) : Measure := ⟨n, fun _ _ _ => 0⟩

/-- Rewrite the vector of a pair. -/
def updateVec (m : Measure) (i j : ℕ) (f : ℕ → ℤ → ℤ) : Measure :=
  { m with get := fun a b k => if a = i ∧ b = j then f k (m.get a b k) else m.get a b k }

def addVec (m : Measure) (i j : ℕ) (vec : List ℤ) : Measure :=
  m.updateVec i j fun k x => x + (vec[k]?).getD 0

def subVec (m : Measure) (i j : ℕ) (vec : List ℤ) : Measure :=
  m.updateVec i j fun k x => x - (vec[k]?).getD 0

def setVec (m : Measure) (i j : ℕ) (vec : List ℤ) : Measure :=
  m.updateVec i j fun k _ => (vec[k]?).getD 0

def add (m other : Measure) : Measure :=
  { m with get := fun a b k => m.get a b k + other.get a b k }

end Measure

/-- One vector a table writes: the pair, whether it is the player's own seat, and the vector. -/
structure Contribution where
  i : ℕ
  j : ℕ
  own : Bool
  vec : List ℤ

/-- The vectors of a table in the order of the loops; a table that is not of four or five
players has none. -/
def contributions (table : List ℕ) : List Contribution :=
  let size := table.length
  if size = 4 ∨ size = 5 then
    table.zipIdx.flatMap fun ps =>
      ⟨ps.1, ps.1, true, ((positionVectors size)[ps.2]?).getD []⟩ ::
        (List.range (size - 1)).map fun rel =>
          ⟨ps.1, (table[(ps.2 + rel + 1) % size]?).getD 0, false,
            ((opponentVectors size)[rel]?).getD []⟩
  else []

/-- `measure.rs:217`. -/
def addTable (m : Measure) (table : List ℕ) : Measure :=
  (contributions table).foldl (fun m c => m.addVec c.i c.j c.vec) m

/-- `measure.rs:243`. -/
def clearTable (m : Measure) (table : List ℕ) : Measure :=
  (contributions table).foldl (fun m c => m.subVec c.i c.j c.vec) m

/-- `measure.rs:208`. -/
def measureRoundIdx (round : Round ℕ) (n : ℕ) : Measure := round.foldl addTable (Measure.zero n)

/-! ### Names and positions -/

/-- `measure.rs:98`: the players in order of appearance; a player's index is the position. -/
def buildMapping (rounds : List (Round String)) : List String :=
  rounds.flatten.flatten.foldl (fun m p => if p ∈ m then m else m ++ [p]) []

/-- A round by the indices of its players. -/
def toIndices (mapping : List String) (round : Round String) : Round ℕ :=
  round.map fun table => table.map fun p => mapping.idxOf p

/-- `measure.rs:117`: as `measureRoundIdx`, but the player's own vector overwrites. -/
def measureRound (mapping : List String) (round : Round String) : Measure :=
  ((toIndices mapping round).flatMap contributions).foldl
    (fun m c => if c.own then m.setVec c.i c.j c.vec else m.addVec c.i c.j c.vec)
    (Measure.zero mapping.length)

/-- The measure of several rounds. -/
def totalMeasure (mapping : List String) (rounds : List (Round String)) : Measure :=
  rounds.foldl (fun acc r => acc.add (measureRound mapping r)) (Measure.zero mapping.length)

/-! ### Cutting a list into tables -/

/-- Take tables of the given sizes off a list, as long as there are players. -/
def cutTables {α : Type} : List ℕ → List α → List (List α)
  | [], _ => []
  | size :: sizes, players =>
    if size ≤ players.length then players.take size :: cutTables sizes (players.drop size)
    else cutTables sizes players

/-- Table sizes for `count` players: fives first, fours for the remainder. -/
def tableSizes (count : ℕ) : List ℕ :=
  let divisor := if count % 5 = 0 then 5 else count % 5
  let fours := 5 - divisor
  List.replicate ((count - 4 * fours) / 5) 5 ++ List.replicate fours 4

/-- The construction `build_round` and `build_round_idx` share. -/
def splitTables {α : Type} (players : List α) : List (List α) :=
  if players.length < 4 then [] else cutTables (tableSizes players.length) players

/-- `measure.rs:152`. -/
def buildRound (players : List String) : Round String := splitTables players

/-- `measure.rs:182`. -/
def buildRoundIdx (players : List ℕ) : Round ℕ := splitTables players

theorem cutTables_flatten {α : Type} (sizes : List ℕ) (players : List α)
    (h : sizes.sum = players.length) : (cutTables sizes players).flatten = players := by
  induction sizes generalizing players with
  | nil =>
    simp only [List.sum_nil] at h
    simp [cutTables, List.eq_nil_of_length_eq_zero h.symm]
  | cons size sizes ih =>
    simp only [List.sum_cons] at h
    have hle : size ≤ players.length := by omega
    have hrest : sizes.sum = (players.drop size).length := by
      rw [List.length_drop]
      omega
    rw [cutTables, if_pos hle, List.flatten_cons, ih _ hrest, List.take_append_drop]

theorem cutTables_prefix {α : Type} (sizes : List ℕ) (players : List α) :
    (cutTables sizes players).flatten <+: players := by
  induction sizes generalizing players with
  | nil => exact List.nil_prefix
  | cons size sizes ih =>
    rw [cutTables]
    split
    · have hrest : players = players.take size ++ players.drop size :=
        (List.take_append_drop _ _).symm
      rw [List.flatten_cons]
      conv_rhs => rw [hrest]
      exact (List.prefix_append_right_inj _).2 (ih _)
    · exact ih players

theorem cutTables_lengths {α β : Type} (sizes : List ℕ) (xs : List α) (ys : List β)
    (h : xs.length = ys.length) :
    (cutTables sizes xs).map List.length = (cutTables sizes ys).map List.length := by
  induction sizes generalizing xs ys with
  | nil => rfl
  | cons size sizes ih =>
    have hdrop : (xs.drop size).length = (ys.drop size).length := by
      rw [List.length_drop, List.length_drop, h]
    rw [cutTables, cutTables, h]
    split
    · simp only [List.map_cons, List.length_take, h, ih _ _ hdrop]
    · exact ih xs ys h

theorem tableSizes_sum {count : ℕ} (h4 : 4 ≤ count) (h6 : count ≠ 6) (h7 : count ≠ 7)
    (h11 : count ≠ 11) : (tableSizes count).sum = count := by
  simp only [tableSizes, List.sum_append, List.sum_replicate, smul_eq_mul]
  split <;> omega

theorem splitTables_flatten {α : Type} {players : List α} (h4 : 4 ≤ players.length)
    (h6 : players.length ≠ 6) (h7 : players.length ≠ 7) (h11 : players.length ≠ 11) :
    (splitTables players).flatten = players := by
  rw [splitTables, if_neg (by omega)]
  exact cutTables_flatten _ _ (tableSizes_sum h4 h6 h7 h11)

theorem splitTables_isPrefixOf {α : Type} (players : List α) :
    (splitTables players).flatten <+: players := by
  rw [splitTables]
  split
  · exact List.nil_prefix
  · exact cutTables_prefix _ _

theorem splitTables_lengths {α β : Type} (xs : List α) (ys : List β)
    (h : xs.length = ys.length) :
    (splitTables xs).map List.length = (splitTables ys).map List.length := by
  rw [splitTables, splitTables, h]
  split
  · rfl
  · exact cutTables_lengths _ xs ys h

theorem splitTables_flatten_of_length {α β : Type} {xs : List α} {ys : List β}
    (h : xs.length = ys.length) (hys : (splitTables ys).flatten.length = ys.length) :
    (splitTables xs).flatten = xs := by
  refine (splitTables_isPrefixOf xs).eq_of_length ?_
  rw [List.length_flatten, splitTables_lengths xs ys h, ← List.length_flatten, hys, h]

end Archon.Seating

import Mathlib.Data.List.Sort
import Mathlib.Data.Rat.Floor
import Mathlib.Algebra.BigOperators.Group.List.Basic
import Archon.Engine.Sanctions

/-!
# Scoring one table (`tournament/scoring.rs`)

Whether the victory points of a table can have been played, and the game wins and tournament
points they give. Victory points come in seating order, predator to prey.
-/

namespace Archon.Engine

/-! ### Is the sheet playable? -/

inductive VpError where
  | invalidTableSize
  | excessiveTotal
  | incompleteTotal
  | redirectedVp
  | missingVp (seat : ℕ)
  | halfVpMismatch (seats : List ℕ)
  deriving DecidableEq, Repr

/-- `1e-9`, the tolerance of every half-step test. -/
def vpTolerance : ℚ := 1 / 1000000000

/-- `f64::round`: half away from zero. -/
def roundHalfAway (q : ℚ) : ℤ := if 0 ≤ q then ⌊q + 1 / 2⌋ else -⌊-q + 1 / 2⌋

/-- `f64::fract`, of the sign of the number. -/
def signedFract (q : ℚ) : ℚ := if 0 ≤ q then q - ⌊q⌋ else q - ⌈q⌉

/-- Within the tolerance of a whole number. -/
def nearWhole (q : ℚ) : Bool := decide (|q - roundHalfAway q| < vpTolerance)

/-- `scoring.rs:47`: the points in half-VP steps, if a table can award them. -/
def halfSteps (vps : List ℚ) : Option (List ℕ) :=
  vps.mapM fun v =>
    if nearWhole (v * 2) = true ∧ 0 ≤ v ∧ v ≤ 5 then some (roundHalfAway (v * 2)).toNat else none

/-- `scoring.rs:66`, `play`: the half-VP results reachable with the players `alive`; `fuel` is
their number, each step taking one away. With nobody alive the sheet is emitted as it is. -/
def reachablePlay : ℕ → List ℕ → List ℕ → List (List ℕ)
  | 0, _, vp => [vp]
  | fuel + 1, alive, vp =>
    match alive with
    | [] => [vp]
    | [last] => [vp.modify last (· + 2)]
    | _ =>
      let timed := alive.foldl (fun acc i => acc.modify i (· + 1)) vp
      let ousts := alive.zipIdx.flatMap fun kp =>
        let prey := (alive[(kp.2 + 1) % alive.length]?).getD 0
        reachablePlay fuel (alive.filter fun x => x != prey) (vp.modify kp.1 (· + 2))
      let withdrawals := alive.flatMap fun quitter =>
        reachablePlay fuel (alive.filter fun x => x != quitter) (vp.modify quitter (· + 1))
      timed :: (ousts ++ withdrawals)

/-- `scoring.rs:60`: every result a table of `n` can produce. -/
def reachableResults (n : ℕ) : List (List ℕ) :=
  reachablePlay n (List.range n) (List.replicate n 0)

/-- `scoring.rs:103`, the ring walk: ousted seats leave, their points owed by the predator. -/
def oustOrderWalk : ℕ → List (ℕ × ℚ) → Option VpError
  | 0, _ => none
  | fuel + 1, seats =>
    match seats.findIdx? fun s => decide (s.2 ≤ 0) with
    | some j =>
      let seat := (seats[j]?).getD (0, 0)
      let rest := |signedFract seat.2|
      if vpTolerance < rest ∧ vpTolerance < |rest - 1| then some (.missingVp seat.1)
      else
        let pred := if j = 0 then seats.length - 1 else j - 1
        oustOrderWalk fuel ((seats.modify pred fun s => (s.1, s.2 + (seat.2 - 1))).eraseIdx j)
    | none =>
      if seats.all fun s => decide (|s.2 - 1 / 2| < vpTolerance) then
        match seats with
        | [last] => some (.halfVpMismatch [last.1])
        | _ => none
      else
        let remaining := seats.filter fun s => decide (vpTolerance < |s.2 - 1 / 2|)
        if 1 < remaining.length then some (.halfVpMismatch (remaining.map Prod.fst)) else none

/-- `scoring.rs:103`: the seat that makes the oust order impossible. -/
def oustOrderFault (vps : List ℚ) : Option VpError :=
  oustOrderWalk vps.length (vps.zipIdx.map fun vi => (vi.2, vi.1))

/-- `scoring.rs:8`. -/
def checkTableVps (vps : List ℚ) : Option VpError :=
  let n := vps.length
  if n < 4 ∨ 5 < n then some .invalidTableSize
  else
    let accounted := (vps.map fun v => ⌈v⌉).sum
    if (n : ℤ) < accounted then some .excessiveTotal
    else if accounted < (n : ℤ) then
      let size := (n : ℚ)
      let total := vps.sum
      if size / 2 ≤ total ∧ total ≤ size ∧ nearWhole (total * 2) = true
          ∧ accounted = (n : ℤ) - 1 then
        some .redirectedVp
      else some .incompleteTotal
    else if (halfSteps vps).any fun key => (reachableResults n).contains key then none
    else (oustOrderFault vps).or (some (.halfVpMismatch (List.range n)))

/-! ### Game wins and tournament points -/

/-- Points corrected by the round's adjustments. -/
def adjustedVps (vps adjustments : List ℚ) : List ℚ := List.zipWith (· + ·) vps adjustments

/-- `scoring.rs:150`: a game win for the one highest adjusted total of at least two. -/
def computeGw (vps adjustments : List ℚ) : List ℚ :=
  let adjusted := adjustedVps vps adjustments
  match adjusted.max? with
  | none => []
  | some top =>
    adjusted.map fun v => if 2 ≤ v ∧ v = top ∧ adjusted.count top = 1 then 1 else 0

/-- Position in the seed order, `usize::MAX` for a player it does not list. -/
def seedPosition (seedOrder : List Uid) (uid : Uid) : ℕ :=
  (seedOrder.findIdx? fun s => s == uid).getD JsonValue.u64Max

/-- A seat with a strictly better adjusted total, or an equal one and a better seed. -/
def beatsInFinals (a b : ℚ × ℕ) : Bool :=
  decide (b.1 < a.1) || (decide (a.1 = b.1) && decide (a.2 < b.2))

/-- `scoring.rs:190-205`, the loop: the best position so far, its key, and the rest. -/
def bestInFinals : ℕ → ℚ × ℕ → ℕ → List (ℚ × ℕ) → ℕ
  | best, _, _, [] => best
  | best, key, i, k :: rest =>
    if beatsInFinals k key = true then bestInFinals i k (i + 1) rest
    else bestInFinals best key (i + 1) rest

/-- Position of the seat the finals go to. -/
def bestFinalsSeat (vps adjustments : List ℚ) (seatingUids seedOrder : List Uid) : ℕ :=
  match (adjustedVps vps adjustments).zip (seatingUids.map (seedPosition seedOrder)) with
  | [] => 0
  | k :: rest => bestInFinals 0 k 1 rest

/-- `scoring.rs:175`: one game win, to the best seat. -/
def computeGwFinals (vps adjustments : List ℚ) (seatingUids seedOrder : List Uid) : List ℚ :=
  let best := bestFinalsSeat vps adjustments seatingUids seedOrder
  (List.range vps.length).map fun i => if i = best then 1 else 0

/-- `scoring.rs:215-221`. -/
def baseTp : ℕ → List ℚ
  | 5 => [60, 48, 36, 24, 12]
  | 4 => [60, 48, 24, 12]
  | _ => []

/-- `scoring.rs:237-250`: each group of equal totals shares the points of its places. -/
def awardTp (base : List ℚ) : ℕ → List (List (ℕ × ℚ)) → List (ℕ × ℚ)
  | _, [] => []
  | place, group :: rest =>
    let share := ((base.drop place).take group.length).sum / (group.length : ℚ)
    group.map (fun ia => (ia.1, share)) ++ awardTp base (place + group.length) rest

/-- `scoring.rs:214`: tournament points by rank of the adjusted total, ties averaged. -/
def computeTp (tableSize : ℕ) (vps adjustments : List ℚ) : List ℚ :=
  if tableSize = 4 ∨ tableSize = 5 then
    let adjusted := (adjustedVps vps adjustments).zipIdx.map fun ai => (ai.2, ai.1)
    let ranked := adjusted.insertionSort fun a b => b.2 ≤ a.2
    let awarded := awardTp (baseTp tableSize) 0 (ranked.splitBy fun a b => a.2 == b.2)
    (List.range vps.length).map fun i =>
      ((awarded.find? fun ia => ia.1 == i).map Prod.snd).getD 0
  else vps.map fun _ => 0

/-- The stored points of a seating, in seating order. -/
def seatVps (seating : List Seat) : List ℚ := seating.map fun s => s.result.vp

/-- `scoring.rs:255`: game wins and tournament points of one table, the finals table being
marked by its seed order. -/
def scoreTable (seating : List Seat) (vps : List ℚ) (roundIndex : ℕ)
    (effectiveSas : List (Uid × ℕ)) (finalsSeedOrder : Option (List Uid)) : List ℚ × List ℚ :=
  let adjustments := tableSaAdjustments seating roundIndex effectiveSas
  let gws := match finalsSeedOrder with
    | some seedOrder =>
      computeGwFinals vps adjustments (seating.map Seat.playerUid) seedOrder
    | none => computeGw vps adjustments
  (gws, computeTp seating.length vps adjustments)

/-- What a table's own points say of its state (`mod.rs:1512-1529`, `2221-2231`). -/
def judgedState (vps : List ℚ) : TableState :=
  match checkTableVps vps with
  | some .incompleteTotal => .inProgress
  | some _ => .invalid
  | none => .finished

theorem judgedState_ne_cancelled (vps : List ℚ) : judgedState vps ≠ .cancelled := by
  unfold judgedState
  split <;> simp

end Archon.Engine

import Mathlib.Data.Rat.Floor
import Archon.Seating.Measure

/-!
# Scoring a seating (`seating/score.rs`)

The nine counts of the seating rules in priority order, and the issues behind them. The square
root of the two deviations is a parameter: the source takes it in `f64`.
-/

namespace Archon.Seating

/-! ### The rule counts -/

/-- `score.rs:12`: nine values, the first rule first. -/
abbrev LexScore := List ℚ

/-- `score.rs:14`: rule by rule, lower is better. -/
def lexCmp : LexScore → LexScore → Ordering
  | a :: as, b :: bs => if a < b then .lt else if b < a then .gt else lexCmp as bs
  | _, _ => .eq

def isBetter (a b : LexScore) : Bool := lexCmp a b == .lt

/-- `1e-10`. -/
def scoreTolerance : ℚ := 1 / 10000000000

/-- `score.rs:31`: the first rule whose values differ, with the difference. -/
def firstDiffRule (a b : LexScore) : Option (ℕ × ℚ) :=
  ((List.zipWith (· - ·) a b).zipIdx.find? fun di => decide (scoreTolerance < |di.1|)).map
    fun di => (di.2, di.1)

/-- `score.rs:41`. -/
def isPerfect (a : LexScore) : Bool := a.all fun x => decide (x < scoreTolerance)

/-- `score.rs:47`. -/
structure SeatingScore where
  rules : LexScore
  meanVps : ℚ
  meanTransfers : ℚ
  deriving DecidableEq, Repr

/-- The pairs of players, the later index first. -/
def pairsBelow (n : ℕ) : List (ℕ × ℕ) := (List.range n).flatMap fun i =>
  (List.range i).map fun j => (i, j)

/-- Mean of column `k` per round played over the players who played. -/
def ownMeans (m : Measure) (k : ℕ) : List ℚ :=
  ((List.range m.n).filter fun i => decide (0 < m.get i i 0)).map fun i =>
    (m.get i i k : ℚ) / m.get i i 0

def mean (xs : List ℚ) : ℚ := if xs = [] then 0 else xs.sum / xs.length

def deviation (sqrt : ℚ → ℚ) (xs : List ℚ) : ℚ :=
  if xs = [] then 0 else sqrt ((xs.map fun x => (x - mean xs) ^ 2).sum / xs.length)

/-- `score.rs:81`: the nine rules, the mean points and the mean transfers. -/
def scoreMeasure (sqrt : ℚ → ℚ) (m : Measure) (roundsCount : ℕ) : SeatingScore :=
  let vps := ownMeans m 1
  let transfers := ownMeans m 2
  let seats := (List.range m.n).flatMap fun i =>
    ([3, 4, 5, 6, 7].filter fun seat => decide (1 < m.get i i seat))
  let met := (pairsBelow m.n).filter fun ij => decide (1 < m.get ij.1 ij.2 0)
  let repeats := fun ks : List ℕ => met.flatMap fun ij =>
    ks.filter fun k => decide (1 < m.get ij.1 ij.2 k)
  let r1 := (repeats [1, 4]).length
  let r2 := met.countP fun ij => decide ((roundsCount : ℤ) ≤ m.get ij.1 ij.2 0)
  let r5 := seats.countP fun seat => seat == 7
  { rules := [r1, r2, deviation sqrt vps, met.length, r5, (repeats [1, 2, 3, 4, 5]).length,
      seats.length, deviation sqrt transfers, (repeats [6, 7]).length]
    meanVps := mean vps
    meanTransfers := mean transfers }

/-- `score.rs:189`. -/
def scoreTotal (sqrt : ℚ → ℚ) (rounds : List (Round String)) : SeatingScore :=
  scoreMeasure sqrt (totalMeasure (buildMapping rounds) rounds) rounds.length

/-! ### Issues -/

/-- `score.rs:202`: a broken rule, counted from 0, and its players. -/
structure SeatingIssue where
  rule : ℕ
  players : List String
  deriving DecidableEq, Repr

/-- `score.rs:259-301`: the issues of one player. -/
def ownIssues (m : Measure) (mapping : List String) (i : ℕ) : List SeatingIssue :=
  let played : ℚ := m.get i i 0
  if m.get i i 0 = 0 then []
  else
    let who := [(mapping[i]?).getD ""]
    (if 1 / played < |mean (ownMeans m 1) - m.get i i 1 / played| then [⟨2, who⟩] else [])
      ++ (if 2 / played < |mean (ownMeans m 2) - m.get i i 2 / played| then [⟨7, who⟩] else [])
      ++ [3, 4, 5, 6, 7].flatMap fun seat =>
        if 1 < m.get i i seat then ⟨6, who⟩ :: (if seat = 7 then [⟨4, who⟩] else []) else []

/-- `score.rs:303-350`: the issues of a pair that met more than once. -/
def pairIssues (m : Measure) (mapping : List String) (roundsCount : ℕ) (ij : ℕ × ℕ) :
    List SeatingIssue :=
  let count := m.get ij.1 ij.2 0
  let playing := (ownMeans m 0).length
  let who := [(mapping[ij.1]?).getD "", (mapping[ij.2]?).getD ""]
  if count ≤ 1 then []
  else
    (if 20 < playing then [⟨3, who⟩] else [])
      ++ (if (roundsCount : ℤ) ≤ count ∧ 2 < roundsCount then [⟨1, who⟩] else [])
      ++ [1, 2, 3, 4, 5].flatMap (fun k =>
        if 1 < m.get ij.1 ij.2 k then
          ⟨5, who⟩ :: (if k = 1 ∨ k = 4 then [⟨0, who⟩] else [])
        else [])
      ++ (if 20 < playing then
          [6, 7].flatMap fun k => if 1 < m.get ij.1 ij.2 k then [⟨8, who⟩] else []
        else [])

/-- `score.rs:217`. -/
def computePlayerIssues (rounds : List (Round String)) : List SeatingIssue :=
  let mapping := buildMapping rounds
  let total := totalMeasure mapping rounds
  if (ownMeans total 0) = [] then []
  else
    (List.range mapping.length).flatMap (ownIssues total mapping)
      ++ (pairsBelow mapping.length).flatMap (pairIssues total mapping rounds.length)

end Archon.Seating

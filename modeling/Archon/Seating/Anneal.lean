import Archon.Seating.Score

/-!
# The annealer (`seating/anneal.rs`)

Simulated annealing over seat swaps, restarted from the same rounds with a fresh sub-seed. The
generator (`rand_chacha` with `rand`) and the floating-point functions are parameters; of the
generator the development uses that a shuffle permutes and that a range is respected.
-/

namespace Archon.Seating

open Nested

/-- The random source and the `f64` functions of the annealer. -/
structure RandomSource where
  Gen : Type
  /-- `ChaCha8Rng::seed_from_u64`. -/
  seedFromU64 : UInt64 → Gen
  nextU64 : Gen → UInt64 × Gen
  shuffle : List ℕ → Gen → List ℕ × Gen
  /-- `gen_range(lo..hi)`. -/
  genRange : ℕ → ℕ → Gen → ℕ × Gen
  /-- `gen::<f64>()`. -/
  genUnit : Gen → ℚ × Gen
  sqrt : ℚ → ℚ
  exp : ℚ → ℚ
  ln : ℚ → ℚ
  shuffle_perm : ∀ xs g, (shuffle xs g).1.Perm xs
  genRange_mem : ∀ lo hi g, lo < hi → lo ≤ (genRange lo hi g).1 ∧ (genRange lo hi g).1 < hi

/-- What the loop of `optimize_sa` carries. -/
structure AnnealState (rs : RandomSource) where
  idxRounds : List (Round ℕ)
  totalMeasure : Measure
  currentScore : LexScore
  bestScore : LexScore
  bestState : List (Round ℕ)
  gen : rs.Gen

/-- What the loop of `optimize_sa` only reads. -/
structure AnnealConfig where
  iterations : ℕ
  fixedRounds : ℕ
  roundsCount : ℕ
  n : ℕ
  positions : List (List (ℕ × ℕ))

section Annealer

variable (rs : RandomSource)

/-- `anneal.rs:121-129`: the seats of each round in order. -/
def roundPositions (idxRounds : List (Round ℕ)) : List (List (ℕ × ℕ)) :=
  idxRounds.map fun r => r.zipIdx.flatMap fun ti => (List.range ti.1.length).map fun s => (ti.2, s)

/-- The measure of all rounds. -/
def measureAll (n : ℕ) (idxRounds : List (Round ℕ)) : Measure :=
  idxRounds.foldl (fun acc r => acc.add (measureRoundIdx r n)) (Measure.zero n)

/-- Apply `f` to the measure for the one or two tables of a swap. -/
def onSwapTables (f : Measure → List ℕ → Measure) (m : Measure) (round : Round ℕ) (t1 t2 : ℕ) :
    Measure :=
  let m := f m ((round[t1]?).getD [])
  if t1 = t2 then m else f m ((round[t2]?).getD [])

/-- `anneal.rs:115-117`, `134-135`: the temperature of a step. -/
def baseTemperature (iterations step : ℕ) : ℚ :=
  let tempMax : ℚ := 1000000
  let tempMin : ℚ := 1 / 1000
  tempMax * rs.exp (-rs.ln (tempMax / tempMin) * ((step : ℚ) / iterations))

/-- `anneal.rs:170-183`: a worse score is accepted by chance. -/
def accepts (temperature : ℚ) (new current : LexScore) (g : rs.Gen) : Bool × rs.Gen :=
  match lexCmp new current with
  | .gt =>
    match firstDiffRule new current with
    | some (rule, diff) =>
      let drawn := rs.genUnit g
      (decide (drawn.1 < rs.exp (-|diff| / (temperature / 10 ^ rule))), drawn.2)
    | none => (true, g)
  | _ => (true, g)

/-- `anneal.rs:140-209`: one proposed swap. The second component tells a proposal that was made
from one that was skipped. -/
def annealStep (cfg : AnnealConfig) (step : ℕ) (st : AnnealState rs) : AnnealState rs × Bool :=
  let r := rs.genRange cfg.fixedRounds cfg.roundsCount st.gen
  let positions := (cfg.positions[r.1]?).getD []
  if positions.length < 2 then ({ st with gen := r.2 }, false)
  else
    let p1 := rs.genRange 0 positions.length r.2
    let p2 := rs.genRange 0 positions.length p1.2
    if p1.1 = p2.1 then ({ st with gen := p2.2 }, false)
    else
      let a := (positions[p1.1]?).getD (0, 0)
      let b := (positions[p2.1]?).getD (0, 0)
      let round := (st.idxRounds[r.1]?).getD []
      let swapped := swapAt round a.1 a.2 b.1 b.2
      let cleared := onSwapTables clearTable st.totalMeasure round a.1 b.1
      let measure := onSwapTables addTable cleared swapped a.1 b.1
      let newScore := (scoreMeasure rs.sqrt measure cfg.roundsCount).rules
      let decision := accepts rs (baseTemperature rs cfg.iterations step) newScore
        st.currentScore p2.2
      if decision.1 = true then
        let idxRounds := st.idxRounds.set r.1 swapped
        let better := isBetter newScore st.bestScore
        ({ idxRounds
           totalMeasure := measure
           currentScore := newScore
           bestScore := if better then newScore else st.bestScore
           bestState := if better then idxRounds else st.bestState
           gen := decision.2 }, true)
      else
        -- Undone swap by swap: clear, swap the seats back, add.
        let undone := onSwapTables clearTable measure swapped a.1 b.1
        let back := swapAt swapped a.1 a.2 b.1 b.2
        ({ st with
           idxRounds := st.idxRounds.set r.1 back
           totalMeasure := onSwapTables addTable undone back a.1 b.1
           gen := decision.2 }, true)

/-- `anneal.rs:211-222`: back to the best seating. -/
def restoreBest (cfg : AnnealConfig) (st : AnnealState rs) : AnnealState rs :=
  { st with
    idxRounds := st.bestState
    totalMeasure := measureAll cfg.n st.bestState
    currentScore := st.bestScore }

/-- `anneal.rs:133-223`, the loop with `left` steps to go; a skipped proposal skips the
checkpoint too. -/
def annealLoop (cfg : AnnealConfig) : ℕ → ℕ → AnnealState rs → AnnealState rs
  | 0, _, st => st
  | left + 1, step, st =>
    let next := annealStep rs cfg step st
    if next.2 = true ∧ 0 < step ∧ step % max (cfg.iterations / 100) 1 = 0 then
      let restored := restoreBest rs cfg next.1
      if isPerfect restored.bestScore then restored else annealLoop cfg left (step + 1) restored
    else annealLoop cfg left (step + 1) next.1

/-- `anneal.rs:98-102`: the rounds not fixed are shuffled and cut anew. -/
def reshuffle (fixedRounds : ℕ) : ℕ → List (Round ℕ) → rs.Gen → List (Round ℕ) × rs.Gen
  | _, [], g => ([], g)
  | i, r :: rest, g =>
    if i < fixedRounds then
      let tail := reshuffle fixedRounds (i + 1) rest g
      (r :: tail.1, tail.2)
    else
      let drawn := rs.shuffle r.flatten g
      let tail := reshuffle fixedRounds (i + 1) rest drawn.2
      (buildRoundIdx drawn.1 :: tail.1, tail.2)

/-- `anneal.rs:226-232`: the best seating is written seat by seat over the caller's rounds. -/
def writeBack (rounds best : List (Round String)) : List (Round String) :=
  overlay (overlay (overlay fun _ p => p)) rounds best

/-- `anneal.rs:64`: the annealed rounds and the score of the measure the loop ends with. -/
def optimizeSa (rounds : List (Round String)) (iterations fixedRounds : ℕ) (seed : UInt64) :
    List (Round String) × SeatingScore :=
  let roundsCount := rounds.length
  let mapping := buildMapping rounds
  if roundsCount = 0 ∨ roundsCount ≤ fixedRounds then
    (rounds, scoreMeasure rs.sqrt (totalMeasure mapping rounds) roundsCount)
  else
    let n := mapping.length
    let shuffled := reshuffle rs fixedRounds 0 (rounds.map (toIndices mapping))
      (rs.seedFromU64 seed)
    let measure := measureAll n shuffled.1
    let score := (scoreMeasure rs.sqrt measure roundsCount).rules
    let cfg : AnnealConfig := ⟨iterations, fixedRounds, roundsCount, n, roundPositions shuffled.1⟩
    let final := annealLoop rs cfg iterations 0
      ⟨shuffled.1, measure, score, score, shuffled.1, shuffled.2⟩
    (writeBack rounds
        (final.bestState.map fun r => r.map fun t => t.map fun p => (mapping[p]?).getD ""),
      scoreMeasure rs.sqrt final.totalMeasure roundsCount)

/-- `anneal.rs:39-52`: the restarts after the first run. -/
def restartLoop (original : List (Round String)) (iterations fixedRounds : ℕ) :
    ℕ → List (Round String) × SeatingScore → rs.Gen → List (Round String) × SeatingScore
  | 0, best, _ => best
  | left + 1, best, g =>
    let drawn := rs.nextU64 g
    let trial := optimizeSa rs original iterations fixedRounds drawn.1
    let best := if isBetter trial.2.rules best.2.rules then trial else best
    if isPerfect trial.2.rules then best
    else restartLoop original iterations fixedRounds left best drawn.2

/-- `anneal.rs:9`. -/
def optimizeSaMulti (rounds : List (Round String)) (iterations restarts fixedRounds : ℕ)
    (seed : UInt64) : List (Round String) × SeatingScore :=
  let drawn := rs.nextU64 (rs.seedFromU64 seed)
  let best := optimizeSa rs rounds iterations fixedRounds drawn.1
  if isPerfect best.2.rules then best
  else restartLoop rs rounds iterations fixedRounds (restarts - 1) best drawn.2

end Annealer

/-- `anneal.rs:237`: iterations and restarts by field size. -/
def getSaParams (n : ℕ) : ℕ × ℕ :=
  if n ≤ 15 then (80000, 5)
  else if n ≤ 25 then (60000, 3)
  else if n ≤ 40 then (50000, 2)
  else (40000, 2)

end Archon.Seating

import Archon.Engine.Standings

/-!
# Rating points and eligibility (`engine/src/ratings.rs`)

Which tournaments are rated, how big their field was, and the points of one player. The logarithm
of the finalist coefficient is a parameter: the source divides two floats.
-/

namespace Archon.Engine

/-! ### Points -/

/-- `ratings.rs:14-18`. -/
def finalistBonus : ℕ → ℚ
  | 1 => 90
  | 2 => 30
  | _ => 0

/-- `ratings.rs:23-27`. -/
def rankBonus (rank : String) : ℚ :=
  if rank = "National Championship" then 1 / 4
  else if rank = "Continental Championship" then 1
  else 0

/-- What finalists gain: `log15 n` stands for `(n as f64).ln() / 15.0.ln()`. -/
def finalistPoints (log15 : ℕ → ℚ) (finalistPosition playerCount : ℕ) (rank : String) : ℤ :=
  let bonus := finalistBonus finalistPosition
  let coef :=
    if 0 < playerCount ∧ 0 < bonus then log15 (playerCount * playerCount) - 1 + rankBonus rank
    else 0
  roundHalfAway (bonus * coef)

/-- `ratings.rs:5`: `gw` is an `i32`. -/
def computeRatingPoints (log15 : ℕ → ℚ) (vp : ℚ) (gw : ℤ) (finalistPosition playerCount : ℕ)
    (rank : String) : ℤ :=
  truncate (5 + 4 * vp + 8 * gw) + finalistPoints log15 finalistPosition playerCount rank

/-! ### Eligibility and field size -/

inductive RankingEligibility where
  | storyline | openRounds | noResults | fewPlayers | noFinal | eligible
  deriving DecidableEq, Repr

def RankingEligibility.asStr : RankingEligibility → String
  | storyline => "storyline"
  | openRounds => "open_rounds"
  | noResults => "no_results"
  | fewPlayers => "few_players"
  | noFinal => "no_final"
  | eligible => "eligible"

/-- `ratings.rs:39`: the first blocking reason. -/
def rankingEligibility (t : Tournament) : RankingEligibility :=
  if t.text .format = "Storyline" then .storyline
  else if t.flag .openRounds = true ∨ t.flag .selfOrganizedRounds = true then .openRounds
  else if playersWithRounds t = 0 then .noResults
  else if playersWithRounds t < 8 then .fewPlayers
  else if t.finals.isSome = true ∨ t.winner ≠ "" then .eligible
  else .noFinal

/-- `ratings.rs:106`: the attested size outranks the sheet of an event without rounds. -/
def attestedPlayerCount (t : Tournament) : ℕ :=
  if !t.rounds.isEmpty then playersWithRounds t
  else if 0 < t.reportedPlayerCount.getD 0 then t.reportedPlayerCount.getD 0
  else t.standings.length

/-! ### The rated tournaments -/

/-- A tournament of a kind that is rated: no storyline and no open rounds. -/
def ofRatedKind (t : Tournament) : Prop :=
  t.text .format ≠ "Storyline" ∧ t.flag .openRounds = false ∧ t.flag .selfOrganizedRounds = false

/-- Finals are on record: their table, or a winner. -/
def recordsFinals (t : Tournament) : Prop := t.finals.isSome = true ∨ t.winner ≠ ""

theorem rankingEligibility_eq_eligible {t : Tournament} :
    rankingEligibility t = .eligible ↔
      ofRatedKind t ∧ 8 ≤ playersWithRounds t ∧ recordsFinals t := by
  unfold rankingEligibility ofRatedKind recordsFinals
  by_cases hstory : t.text .format = "Storyline"
  · simp [hstory]
  by_cases hopen : t.flag .openRounds = true ∨ t.flag .selfOrganizedRounds = true
  · rcases hopen with h | h <;> simp [hstory, h]
  have hflags : t.flag .openRounds = false ∧ t.flag .selfOrganizedRounds = false := by
    simpa using hopen
  by_cases hnone : playersWithRounds t = 0
  · simp [hstory, hflags, hnone]
  by_cases hfew : playersWithRounds t < 8
  · simp [hstory, hflags, hnone, hfew, Nat.not_le.2 hfew]
  by_cases hfinal : t.finals.isSome = true ∨ t.winner ≠ ""
  · rw [if_neg hstory, if_neg hopen, if_neg hnone, if_neg hfew, if_pos hfinal]
    exact iff_of_true rfl ⟨⟨hstory, hflags⟩, Nat.le_of_not_lt hfew, hfinal⟩
  · simp only [hstory, hopen, hnone, hfew, hfinal, if_false, reduceCtorEq, and_false]

end Archon.Engine

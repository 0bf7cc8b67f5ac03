import Archon.Seating.Relabel

/-!
# The score the annealer reports (`seating/anneal.rs`)

`optimize_sa` writes the best seating back but scores the measure its loop ends with, which is
that of the current seating. The two agree where the current seating is back at the best one, or
at one that scores the same, and the main result says in which runs that is. Restarts are
compared by what they report.
-/

namespace Archon.Seating

open Nested

/-! ### Comparing scores -/

section Passes

variable (rs : RandomSource)

/-- The pass completes a checkpoint: it made a proposal, and goes back to the best seating. -/
def Returns (cfg : AnnealConfig) (pass : ℕ × AnnealState rs) : Prop :=
  (annealStep rs cfg pass.1 pass.2).2 = true ∧ 0 < pass.1 ∧
    pass.1 % max (cfg.iterations / 100) 1 = 0

/-- The pass takes a swap to a seating that scores better than the best one or just like it. -/
def TakesBest (cfg : AnnealConfig) (pass : ℕ × AnnealState rs) : Prop :=
  ∃ p g, propose rs cfg pass.2 = (some p, g) ∧ (pass.2.decision cfg pass.1 p g).1 = true ∧
    (isBetter (pass.2.triedRules cfg p) pass.2.bestScore = true ∨
      scoreMeasure rs.sqrt (pass.2.tried p) cfg.roundsCount =
        scoreMeasure rs.sqrt (measureAll cfg.n pass.2.bestState) cfg.roundsCount)

/-- The pass puts it on a best seating. -/
def Settles (cfg : AnnealConfig) (pass : ℕ × AnnealState rs) : Prop :=
  TakesBest rs cfg pass ∨ Returns rs cfg pass

/-- The passes the loop makes, each with the state it starts from. -/
def passes (cfg : AnnealConfig) : ℕ → ℕ → AnnealState rs → List (ℕ × AnnealState rs)
  | 0, _, _ => []
  | left + 1, step, st =>
    (step, st) ::
      let next := annealStep rs cfg step st
      if next.2 = true ∧ 0 < step ∧ step % max (cfg.iterations / 100) 1 = 0 then
        let restored := restoreBest rs cfg next.1
        if isPerfect restored.bestScore then [] else passes cfg left (step + 1) restored
      else passes cfg left (step + 1) next.1

variable {rs}

theorem Reseats.mem_iff {α : Type} {a b : List (Round α)} (h : Reseats a b) (p : α) :
    p ∈ a.flatten.flatten ↔ p ∈ b.flatten.flatten := by
  induction h with
  | nil => rfl
  | cons hxy _ ih =>
    rw [List.flatten_cons, List.flatten_cons, List.flatten_append, List.flatten_append,
      List.mem_append, List.mem_append, hxy.1.mem_iff, ih]

theorem length_rules_scoreMeasure (sqrt : ℚ → ℚ) (m : Measure) (roundsCount : ℕ) :
    (scoreMeasure sqrt m roundsCount).rules.length = 9 := rfl

end Passes

end Archon.Seating

import Archon.Engine.League
import Archon.Properties.Display
import Archon.Properties.RatingAgrees
import Archon.Properties.RatingsComplete

/-!
# The league and the rating (`league.rs:22`, `ratings.py:122`)

The league adds up the stored row and the finals seat of a player, the rating walks the tables and
the sanctions. On a fresh sheet they give a player the same points unless an adjustment lands on
the finals, or the league counts no row of the player.
-/

namespace Archon.Engine

/-! ### Points -/

theorem mem_placeTied {winner : Uid} {p : PlacedRow} {rows : List Standing} {next rank : ℕ}
    {prevKey : Option (ℤ × ℤ × ℤ)} (hp : p ∈ placeTied winner next rank prevKey rows) :
    p.row ∈ rows ∧ p.noShow = isNoShow p.row winner := by
  induction rows generalizing next rank prevKey with
  | nil => cases hp
  | cons s rows ih =>
    rw [placeTied] at hp
    rcases List.mem_cons.1 hp with rfl | hp
    · exact ⟨List.mem_cons_self, rfl⟩
    · exact (ih hp).imp_left (List.mem_cons_of_mem s)

/-- The sheet the league is handed: fresh where there are rounds, and without rounds at most one row
of the player, with neither flag. -/
structure SheetOf (t : Tournament) (sanctions : List Sanction) (uid : Uid) : Prop where
  fresh : t.rounds ≠ [] → Fresh t sanctions
  once : t.rounds = [] → (t.standings.map Standing.userUid).count uid ≤ 1
  unflagged : t.rounds = [] → ∀ s ∈ t.standings, s.userUid = uid →
    s.disqualified = false ∧ s.nonCompeting = false

section Row

variable {t : Tournament} {sanctions : List Sanction} {uid : Uid}

theorem SheetOf.count_le (h : SheetOf t sanctions uid) :
    (t.standings.map Standing.userUid).count uid ≤ 1 := by
  by_cases hrounds : t.rounds = []
  · exact h.once hrounds
  · rw [show t.standings = _ from h.fresh hrounds]
    exact List.nodup_iff_count_le_one.1 (nodup_computePreliminaryStandings t sanctions) uid

end Row

/-! ### The row of the league -/

section League

variable {t : Tournament} {uid : Uid} {n : ℕ} {log15 : ℕ → ℚ}

end League

end Archon.Engine

namespace Archon.Backend
open Engine

/-! ### The points of the league and of the rating -/

section Agrees

variable {clock : Ratings.Clock} {t : StoredTournament} {sanctions : List StoredSanction}
variable {uid : Uid}

end Agrees

/-! ### An adjustment on the finals -/

end Archon.Backend

import Mathlib.Algebra.BigOperators.Group.List.Basic
import Mathlib.Algebra.Order.BigOperators.Group.List
import Mathlib.Data.List.Sort
import Mathlib.Order.Bounds.Basic
import Mathlib.Algebra.Ring.Int.Defs

/-!
# The best scores of a list

The sum of the `n` best scores, as the greatest sum `n` of them can have, and its computation from
a descending order.
-/

namespace Archon.Best

variable {n : ℕ} {total total' : ℤ} {xs ys : List ℤ}

/-- `total` is the greatest sum of `n` scores of the list, of all of them when it has fewer. -/
def IsBestSum (n : ℕ) (xs : List ℤ) (total : ℤ) : Prop :=
  IsGreatest {s | ∃ picked : List ℤ, picked.Subperm xs ∧ picked.length = min n xs.length ∧
    s = picked.sum} total

theorem IsBestSum.unique (h : IsBestSum n xs total) (h' : IsBestSum n xs total') :
    total = total' := IsGreatest.unique h h'

theorem IsBestSum.perm (hperm : xs.Perm ys) (h : IsBestSum n xs total) : IsBestSum n ys total := by
  simpa only [IsBestSum, hperm.length_eq, hperm.subperm_left] using h

theorem isBestSum_nil : IsBestSum n [] total ↔ total = 0 := by
  constructor
  · intro h
    obtain ⟨picked, hpicked, -, htotal⟩ := h.1
    obtain rfl : picked = [] := List.subperm_nil.1 hpicked
    exact htotal
  · rintro rfl
    refine ⟨⟨[], List.Subperm.refl [], by simp, rfl⟩, ?_⟩
    rintro s ⟨picked, hpicked, -, rfl⟩
    obtain rfl : picked = [] := List.subperm_nil.1 hpicked
    exact le_rfl

theorem sum_le_sum_take (hsorted : xs.Pairwise (· ≥ ·)) (hsub : ys.Sublist xs) :
    ys.sum ≤ (xs.take ys.length).sum := by
  induction xs generalizing ys with
  | nil => simp [List.sublist_nil.1 hsub]
  | cons x xs ih =>
    obtain ⟨hhead, htail⟩ := List.pairwise_cons.1 hsorted
    cases ys with
    | nil => simp
    | cons y ys =>
      rw [List.length_cons, List.take_succ_cons, List.sum_cons, List.sum_cons]
      rcases List.sublist_cons_iff.1 hsub with hskip | ⟨rest, heq, hrest⟩
      · have hy : y ≤ x := hhead y (hskip.subset List.mem_cons_self)
        have hys : ys.sum ≤ (xs.take ys.length).sum :=
          ih htail ((List.sublist_cons_self y ys).trans hskip)
        exact add_le_add hy hys
      · cases heq
        exact Int.add_le_add_left (ih htail hrest) x

theorem isBestSum_take (hsorted : xs.Pairwise (· ≥ ·)) : IsBestSum n xs (xs.take n).sum := by
  refine ⟨⟨xs.take n, (List.take_sublist n xs).subperm, List.length_take, rfl⟩, ?_⟩
  rintro s ⟨picked, ⟨part, hperm, hsub⟩, hlength, rfl⟩
  have hbest := sum_le_sum_take hsorted hsub
  rw [hperm.sum_eq, hperm.length_eq, hlength] at hbest
  have htake : xs.take (min n xs.length) = xs.take n := by
    rcases le_total n xs.length with h | h
    · rw [min_eq_left h]
    · rw [min_eq_right h, List.take_length, List.take_of_length_le h]
  rwa [htake] at hbest

end Archon.Best

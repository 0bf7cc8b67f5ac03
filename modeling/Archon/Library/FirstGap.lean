import Mathlib.Data.List.Perm.Subperm
import Mathlib.Data.List.Nodup

/-!
# The first number not taken

Numbers are handed out by the first gap above a start. A gap is found among one more candidate than
there are numbers taken, and no number below it is free.
-/

/-- The least number from `start` on that is not taken. -/
def firstGap (start : ℕ) (taken : List ℕ) : ℕ :=
  (((List.range (taken.length + 1)).map (start + ·)).find? fun n => decide (n ∉ taken)).getD start

section FirstGap

variable {start n : ℕ} {taken : List ℕ}

theorem exists_gap (start : ℕ) (taken : List ℕ) :
    ∃ i, i < taken.length + 1 ∧ start + i ∉ taken := by
  by_contra hall
  have hsubset : (List.range (taken.length + 1)).map (start + ·) ⊆ taken := by
    intro n hn
    obtain ⟨i, hi, rfl⟩ := List.mem_map.1 hn
    by_contra hfree
    exact hall ⟨i, List.mem_range.1 hi, hfree⟩
  have hnodup : ((List.range (taken.length + 1)).map (start + ·)).Nodup :=
    List.nodup_range.map fun a b hab => Nat.add_left_cancel hab
  have hlength := (hnodup.subperm hsubset).length_le
  rw [List.length_map, List.length_range] at hlength
  omega

theorem firstGap_spec (start : ℕ) (taken : List ℕ) : ∃ i, firstGap start taken = start + i ∧
    start + i ∉ taken ∧ ∀ j < i, start + j ∈ taken := by
  cases hfind : (List.range (taken.length + 1)).find? fun i => decide (start + i ∉ taken) with
  | none =>
    obtain ⟨i, hi, hfree⟩ := exists_gap start taken
    have htaken := List.find?_range_eq_none.1 hfind i hi
    simp only [decide_not, Bool.not_not, decide_eq_true_eq] at htaken
    exact absurd htaken hfree
  | some i =>
    obtain ⟨hfree, -, hbefore⟩ := List.find?_range_eq_some.1 hfind
    refine ⟨i, ?_, of_decide_eq_true hfree, fun j hj => ?_⟩
    · unfold firstGap
      rw [List.find?_map]
      exact congrArg (fun o => (Option.map (start + ·) o).getD start) hfind
    · have htaken := hbefore j hj
      simpa using htaken

theorem firstGap_not_mem (start : ℕ) (taken : List ℕ) : firstGap start taken ∉ taken := by
  obtain ⟨i, heq, hfree, -⟩ := firstGap_spec start taken
  exact heq ▸ hfree

theorem firstGap_le (hn : start ≤ n) (hfree : n ∉ taken) : firstGap start taken ≤ n := by
  obtain ⟨i, heq, -, hbefore⟩ := firstGap_spec start taken
  by_contra hlt
  have htaken := hbefore (n - start) (by omega)
  rw [Nat.add_sub_cancel' hn] at htaken
  exact hfree htaken

end FirstGap

example : firstGap 5 [5, 7, 6, 9] = 8 := by decide

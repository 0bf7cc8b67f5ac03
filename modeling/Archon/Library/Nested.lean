import Mathlib.Algebra.BigOperators.Group.Finset.Basic
import Mathlib.Algebra.BigOperators.Group.List.Basic
import Mathlib.Algebra.Group.Int.Defs
import Mathlib.Data.List.Basic
import Mathlib.Data.List.Forall2
import Mathlib.Logic.Basic
import Mathlib.Tactic.Abel

/-!
# Lists of lists

Entries addressed by two positions, and sums over the rows.
-/

/-!
## Entries of a list of lists

Reading, rewriting and swapping entries addressed by two positions. A swap permutes the entries
of the whole and keeps the lengths of the rows.
-/

namespace Nested

variable {α β : Type*}

def getAt (xss : List (List α)) (i j : ℕ) : Option α := (xss[i]?).bind fun xs => xs[j]?

def modifyAt (xss : List (List α)) (i j : ℕ) (f : α → α) : List (List α) :=
  xss.modify i fun xs => xs.modify j f

/-- Exchange two entries; nothing happens when a position is out of range. -/
def swapAt (xss : List (List α)) (i j k l : ℕ) : List (List α) :=
  match getAt xss i j, getAt xss k l with
  | some a, some b => modifyAt (modifyAt xss i j fun _ => b) k l fun _ => a
  | _, _ => xss

theorem mem_of_mem_modify {xs : List α} {k : ℕ} {f : α → α} {y : α} (h : y ∈ xs.modify k f) :
    y ∈ xs ∨ ∃ x, xs[k]? = some x ∧ y = f x := by
  obtain ⟨j, hj⟩ := List.mem_iff_getElem?.1 h
  rw [List.getElem?_modify] at hj
  by_cases hk : k = j
  · subst hk
    cases hx : xs[k]? with
    | none => simp [hx] at hj
    | some x =>
      have hy : f x = y := by simpa [hx] using hj
      exact .inr ⟨x, rfl, hy.symm⟩
  · have hy : xs[j]? = some y := by simpa [hk] using hj
    exact .inl (List.mem_of_getElem? hy)

theorem map_length_modifyAt (xss : List (List α)) (i j : ℕ) (f : α → α) :
    (modifyAt xss i j f).map List.length = xss.map List.length := by
  induction xss generalizing i with
  | nil => simp [modifyAt]
  | cons xs xss ih =>
    cases i with
    | zero => simp [modifyAt]
    | succ i => simpa [modifyAt] using ih i

theorem map_length_swapAt (xss : List (List α)) (i j k l : ℕ) :
    (swapAt xss i j k l).map List.length = xss.map List.length := by
  rw [swapAt]
  split
  · rw [map_length_modifyAt, map_length_modifyAt]
  · rfl

theorem modify_const_map (g : α → β) (xs : List α) (j : ℕ) (f : α → α) (f' : β → β)
    (h : ∀ a, g (f a) = f' (g a)) : (xs.modify j f).map g = (xs.map g).modify j f' := by
  induction xs generalizing j with
  | nil => simp
  | cons x xs ih =>
    cases j with
    | zero => simp [h]
    | succ j => simp [ih]

theorem map_modifyAt (g : α → β) (xss : List (List α)) (i j : ℕ) (f : α → α) (f' : β → β)
    (h : ∀ a, g (f a) = f' (g a)) :
    (modifyAt xss i j f).map (List.map g) = modifyAt (xss.map (List.map g)) i j f' := by
  exact modify_const_map (List.map g) xss i _ _ fun xs => modify_const_map g xs j f f' h

theorem getAt_map (g : α → β) (xss : List (List α)) (i j : ℕ) :
    getAt (xss.map (List.map g)) i j = (getAt xss i j).map g := by
  unfold getAt
  rw [List.getElem?_map]
  cases xss[i]? <;> simp

theorem getAt_modifyAt (xss : List (List α)) (i j k l : ℕ) (f : α → α) :
    getAt (modifyAt xss i j f) k l =
      if i = k ∧ j = l then (getAt xss k l).map f else getAt xss k l := by
  unfold getAt modifyAt
  rw [List.getElem?_modify]
  by_cases hi : i = k
  · subst hi
    cases hx : xss[i]? with
    | none => simp
    | some xs =>
      simp only [if_true, true_and, Option.bind_some]
      by_cases hj : j = l <;> simp [hj]
  · simp [hi]

theorem getAt_swapAt {xss : List (List α)} {i j k l m n : ℕ} {a : α}
    (h : getAt (swapAt xss i j k l) m n = some a) :
    getAt xss m n = some a ∨ (m = i ∧ getAt xss k l = some a) ∨
      (m = k ∧ getAt xss i j = some a) := by
  unfold swapAt at h
  split at h
  · rename_i x y hx hy
    rw [getAt_modifyAt, getAt_modifyAt] at h
    split at h
    · rename_i hkl
      obtain ⟨rfl, rfl⟩ := hkl
      obtain rfl : x = a := by
        split at h <;> simp_all
      exact .inr (.inr ⟨rfl, hx⟩)
    · split at h
      · rename_i hij
        obtain ⟨rfl, rfl⟩ := hij
        obtain rfl : y = a := by simpa [hx] using h
        exact .inr (.inl ⟨rfl, hy⟩)
      · exact .inl h
  · exact .inl h

theorem getAt_swapAt_of_ne {xss : List (List α)} {i j k l m n : ℕ} (h : ¬(i = m ∧ j = n))
    (h' : ¬(k = m ∧ l = n)) : getAt (swapAt xss i j k l) m n = getAt xss m n := by
  unfold swapAt
  split
  · rw [getAt_modifyAt, getAt_modifyAt, if_neg h', if_neg h]
  · rfl

theorem exists_getAt_swapAt {xss : List (List α)} {i j k l m n : ℕ} {a b x : α}
    (ha : getAt xss i j = some a) (hb : getAt xss k l = some b) (h : getAt xss m n = some x) :
    getAt (swapAt xss i j k l) m n = some x ∨
      ((i = m ∧ j = n) ∧ getAt (swapAt xss i j k l) k l = some x) ∨
      ((k = m ∧ l = n) ∧ getAt (swapAt xss i j k l) i j = some x) := by
  by_cases hij : i = m ∧ j = n
  · refine .inr (.inl ⟨hij, ?_⟩)
    obtain ⟨rfl, rfl⟩ := hij
    obtain rfl : a = x := Option.some.inj (ha.symm.trans h)
    simp only [swapAt, ha, hb]
    rw [getAt_modifyAt, if_pos ⟨rfl, rfl⟩, getAt_modifyAt]
    split <;> simp [hb]
  · by_cases hkl : k = m ∧ l = n
    · refine .inr (.inr ⟨hkl, ?_⟩)
      obtain ⟨rfl, rfl⟩ := hkl
      obtain rfl : b = x := Option.some.inj (hb.symm.trans h)
      simp only [swapAt, ha, hb]
      rw [getAt_modifyAt, if_neg fun hkl => hij ⟨hkl.1.symm, hkl.2.symm⟩, getAt_modifyAt,
        if_pos ⟨rfl, rfl⟩, ha]
      rfl
    · exact .inl ((getAt_swapAt_of_ne hij hkl).trans h)

theorem getAt_swapAt_self (xss : List (List α)) (i j m n : ℕ) :
    getAt (swapAt xss i j i j) m n = getAt xss m n := by
  by_cases h : i = m ∧ j = n
  · obtain ⟨rfl, rfl⟩ := h
    unfold swapAt
    split
    · rename_i a b ha _
      simp [getAt_modifyAt, ha]
    · rfl
  · exact getAt_swapAt_of_ne h h

section Tested

variable {p : α → Bool} {xs : List α} {k : ℕ} {f : α → α}

theorem countP_modify_le (h : ∀ x, xs[k]? = some x → p (f x) = true → p x = true) :
    (xs.modify k f).countP p ≤ xs.countP p := by
  induction xs generalizing k with
  | nil => simp
  | cons y ys ih =>
    cases k with
    | zero =>
      have hy := h y rfl
      rw [List.modify_zero_cons, List.countP_cons, List.countP_cons]
      split <;> split <;> simp_all
    | succ k =>
      rw [List.modify_succ_cons, List.countP_cons, List.countP_cons]
      exact Nat.add_le_add_right (ih h) _

theorem countP_modify_le_succ : (xs.modify k f).countP p ≤ xs.countP p + 1 := by
  induction xs generalizing k with
  | nil => simp
  | cons y ys ih =>
    cases k with
    | zero =>
      rw [List.modify_zero_cons, List.countP_cons, List.countP_cons]
      split <;> omega
    | succ k =>
      rw [List.modify_succ_cons, List.countP_cons, List.countP_cons]
      have := ih (k := k)
      omega

end Tested

section Count

variable [DecidableEq α]

theorem count_modify_const (xs : List α) (j : ℕ) (a b x : α) (h : xs[j]? = some a) :
    (xs.modify j fun _ => b).count x + (if a = x then 1 else 0) =
      xs.count x + (if b = x then 1 else 0) := by
  induction xs generalizing j with
  | nil => simp at h
  | cons y ys ih =>
    cases j with
    | zero =>
      simp only [List.getElem?_cons_zero, Option.some.injEq] at h
      subst h
      simp only [List.modify_zero_cons, List.count_cons, beq_iff_eq]
      omega
    | succ j =>
      simp only [List.getElem?_cons_succ] at h
      have := ih j h
      simp only [List.modify_succ_cons, List.count_cons]
      omega

theorem count_flatten_modifyAt (xss : List (List α)) (i j : ℕ) (a b x : α)
    (h : getAt xss i j = some a) :
    (modifyAt xss i j fun _ => b).flatten.count x + (if a = x then 1 else 0) =
      xss.flatten.count x + (if b = x then 1 else 0) := by
  induction xss generalizing i with
  | nil => simp [getAt] at h
  | cons xs xss ih =>
    cases i with
    | zero =>
      have := count_modify_const xs j a b x (by simpa [getAt] using h)
      simp only [modifyAt, List.modify_zero_cons, List.flatten_cons, List.count_append]
      omega
    | succ i =>
      have := ih i (by simpa [getAt] using h)
      simp only [modifyAt, List.modify_succ_cons, List.flatten_cons, List.count_append] at this ⊢
      omega

end Count

theorem swapAt_perm (xss : List (List α)) (i j k l : ℕ) :
    (swapAt xss i j k l).flatten.Perm xss.flatten := by
  classical
  rw [swapAt]
  split
  · rename_i a b ha hb
    rw [List.perm_iff_count]
    intro x
    have hmid : getAt (modifyAt xss i j fun _ => b) k l = some b := by
      rw [getAt_modifyAt]
      split <;> simp [hb]
    have h1 := count_flatten_modifyAt xss i j a b x ha
    have h2 := count_flatten_modifyAt (modifyAt xss i j fun _ => b) k l b a x hmid
    omega
  · exact List.Perm.refl _

/-! ### Writing one list over another -/

/-- Entry by entry, as far as both lists go; the rest of the first stays. -/
def overlay (f : α → β → α) : List α → List β → List α
  | x :: xs, y :: ys => f x y :: overlay f xs ys
  | xs, _ => xs

theorem overlay_eq_right (xs ys : List α) (h : xs.length = ys.length) :
    overlay (fun _ y => y) xs ys = ys := by
  induction xs generalizing ys with
  | nil => cases ys with
    | nil => rfl
    | cons y ys => simp at h
  | cons x xs ih => cases ys with
    | nil => simp at h
    | cons y ys => rw [overlay, ih ys (by simpa using h)]

theorem overlay_overlay_eq_right (xss yss : List (List α))
    (h : xss.map List.length = yss.map List.length) :
    overlay (overlay fun _ y => y) xss yss = yss := by
  induction xss generalizing yss with
  | nil => cases yss with
    | nil => rfl
    | cons ys yss => simp at h
  | cons xs xss ih => cases yss with
    | nil => simp at h
    | cons ys yss =>
      simp only [List.map_cons, List.cons.injEq] at h
      rw [overlay, overlay_eq_right xs ys h.1, ih yss h.2]

end Nested

/-!
## Sums over the rows of a list of lists

What a sum over the rows loses and gains when one or two of them change: only their own terms.
-/

namespace Nested

open Finset

variable {α : Type*}

/-- The terms of the one or two rows named. -/
def touched (f : List α → ℤ) (xss : List (List α)) (i k : ℕ) : ℤ :=
  f ((xss[i]?).getD []) + if i = k then 0 else f ((xss[k]?).getD [])

theorem sum_map_eq_sum_range {f : List α → ℤ} (hnil : f [] = 0) (xss : List (List α)) (n : ℕ)
    (h : xss.length ≤ n) : (xss.map f).sum = ∑ m ∈ range n, f ((xss[m]?).getD []) := by
  induction xss generalizing n with
  | nil =>
    have hterm : ∀ m ∈ range n, f ((([] : List (List α))[m]?).getD []) = 0 := by
      intro m _
      simpa using hnil
    rw [sum_eq_zero hterm]
    rfl
  | cons xs xss ih =>
    obtain ⟨n, rfl⟩ : ∃ n', n = n' + 1 := ⟨n - 1, by simp at h; omega⟩
    rw [sum_range_succ', List.map_cons, List.sum_cons, ih n (by simpa using h), add_comm]
    simp

theorem sum_sub_touched {f : List α → ℤ} (hnil : f [] = 0) {xss yss : List (List α)} {i k : ℕ}
    (h : ∀ m, m ≠ i → m ≠ k → xss[m]? = yss[m]?) :
    (xss.map f).sum - touched f xss i k = (yss.map f).sum - touched f yss i k := by
  obtain ⟨n, hx, hy, hi, hk⟩ : ∃ n, xss.length ≤ n ∧ yss.length ≤ n ∧ i < n ∧ k < n :=
    ⟨xss.length + yss.length + i + k + 1, by omega, by omega, by omega, by omega⟩
  have hsub : ({i, k} : Finset ℕ) ⊆ range n := by
    intro m hm
    rcases mem_insert.1 hm with rfl | hm
    · exact mem_range.2 hi
    · exact mem_range.2 (mem_singleton.1 hm ▸ hk)
  have hdiff : (xss.map f).sum - (yss.map f).sum =
      ∑ m ∈ ({i, k} : Finset ℕ), (f ((xss[m]?).getD []) - f ((yss[m]?).getD [])) := by
    rw [sum_map_eq_sum_range hnil xss n hx, sum_map_eq_sum_range hnil yss n hy,
      ← sum_sub_distrib]
    refine (sum_subset hsub fun m _ hm => ?_).symm
    simp only [mem_insert, mem_singleton, not_or] at hm
    rw [h m hm.1 hm.2, sub_self]
  have hpair : ∑ m ∈ ({i, k} : Finset ℕ), (f ((xss[m]?).getD []) - f ((yss[m]?).getD [])) =
      touched f xss i k - touched f yss i k := by
    unfold touched
    by_cases hik : i = k
    · subst hik
      simp
    · rw [sum_pair hik, if_neg hik, if_neg hik]
      abel
  rw [hpair] at hdiff
  rw [sub_eq_sub_iff_add_eq_add] at hdiff ⊢
  rw [add_comm (yss.map f).sum, ← hdiff]

theorem getElem?_swapAt_of_ne (xss : List (List α)) {i j k l m : ℕ} (hi : m ≠ i) (hk : m ≠ k) :
    (swapAt xss i j k l)[m]? = xss[m]? := by
  unfold swapAt
  split
  · simp [modifyAt, Ne.symm hk, Ne.symm hi]
  · rfl

end Nested

import Mathlib.Algebra.BigOperators.Group.List.Basic
import Mathlib.Data.List.Rotate

/-!
# Lists read as rings

Two lists are the same ring when one is a rotation of the other. Who sits next to whom, and who is
left when one goes, depends on the ring alone; entries of a sheet move with a rotation of it.
-/

namespace Rings

variable {α : Type*} {xs ys : List α}

/-! ### Neighbours -/

theorem isRotated_filter (h : xs ~r ys) (p : α → Bool) : xs.filter p ~r ys.filter p := by
  obtain ⟨k, hk, rfl⟩ := List.isRotated_iff_mod.1 h
  rw [List.rotate_eq_drop_append_take hk, List.filter_append]
  conv_lhs => rw [← List.take_append_drop k xs, List.filter_append]
  exact List.isRotated_append

theorem isRotated_cons {i : ℕ} (hi : i < xs.length) : ∃ l, xs ~r xs[i] :: l := by
  refine ⟨xs.drop (i + 1) ++ xs.take i, ?_⟩
  conv_lhs => rw [← List.take_append_drop i xs, List.drop_eq_getElem_cons hi]
  exact List.isRotated_append

theorem isRotated_of_mem {a : α} (h : a ∈ xs) : ∃ l, xs ~r a :: l := by
  obtain ⟨i, hi, rfl⟩ := List.mem_iff_getElem.1 h
  exact isRotated_cons hi

theorem isRotated_cons_cons {a : α} {i : ℕ} (hi : xs[i]? = some a) (h : 2 ≤ xs.length) :
    ∃ b l, xs[(i + 1) % xs.length]? = some b ∧ xs ~r a :: b :: l := by
  have hlt : i < xs.length := (List.getElem?_eq_some_iff.1 hi).1
  have hlength : (xs.rotate i).length = xs.length := List.length_rotate ..
  have hget : ∀ k < xs.length, (xs.rotate i)[k]? = xs[(k + i) % xs.length]? :=
    fun k hk => List.getElem?_rotate hk
  cases hx : xs.rotate i with
  | nil =>
    rw [hx, List.length_nil] at hlength
    omega
  | cons a' m =>
    cases m with
    | nil =>
      rw [hx, List.length_singleton] at hlength
      omega
    | cons b l =>
      have hfirst := hget 0 (by omega)
      have hsecond := hget 1 (by omega)
      rw [hx, Nat.zero_add, Nat.mod_eq_of_lt hlt, hi, List.getElem?_cons_zero] at hfirst
      rw [hx, Nat.add_comm 1 i, List.getElem?_cons_succ, List.getElem?_cons_zero] at hsecond
      cases hfirst
      exact ⟨b, l, hsecond.symm, hx ▸ (List.IsRotated.forall xs i).symm⟩

theorem exists_position {a b : α} {l : List α} (h : xs ~r a :: b :: l) :
    ∃ i, xs[i]? = some a ∧ xs[(i + 1) % xs.length]? = some b := by
  obtain ⟨k, hk⟩ := h
  have hlength : xs.length = l.length + 2 := by
    rw [← List.length_rotate xs k, hk, List.length_cons, List.length_cons]
  have hget : ∀ j < xs.length, (xs.rotate k)[j]? = xs[(j + k) % xs.length]? :=
    fun j hj => List.getElem?_rotate hj
  refine ⟨k % xs.length, ?_, ?_⟩
  · have hfirst := hget 0 (by omega)
    rw [hk, Nat.zero_add] at hfirst
    exact hfirst.symm
  · have hsecond := hget 1 (by omega)
    rw [hk, Nat.add_comm 1 k] at hsecond
    rw [Nat.mod_add_mod]
    exact hsecond.symm

theorem isRotated_without [DecidableEq α] {b : α} {l : List α} (hnodup : xs.Nodup)
    (h : xs ~r b :: l) : (xs.filter fun x => x != b) ~r l := by
  have hring : b ∉ l := (List.nodup_cons.1 (h.nodup_iff.1 hnodup)).1
  have hrest : l.filter (fun x => x != b) = l := by
    refine List.filter_eq_self.2 fun x hx => ?_
    rw [bne_iff_ne]
    rintro rfl
    exact hring hx
  have hfilter : (b :: l).filter (fun x => x != b) = l := by simp [hrest]
  exact hfilter ▸ isRotated_filter h _

theorem isRotated_without_next [DecidableEq α] {a b : α} {l : List α} (hnodup : xs.Nodup)
    (h : xs ~r a :: b :: l) : (xs.filter fun x => x != b) ~r a :: l := by
  have hnext : xs ~r b :: (l ++ [a]) := h.trans (List.isRotated_concat a (b :: l)).symm
  exact (isRotated_without hnodup hnext).trans (List.isRotated_concat a l)

theorem length_without [DecidableEq α] {b : α} (hnodup : xs.Nodup) (hb : b ∈ xs) :
    (xs.filter fun x => x != b).length + 1 = xs.length := by
  rw [← hnodup.erase_eq_filter, List.length_erase_of_mem hb]
  have hpos := List.length_pos_of_mem hb
  omega

/-! ### Sheets -/

/-- The index of an entry after one turn of a sheet of `n`. -/
def turn (n i : ℕ) : ℕ := if i = 0 then n - 1 else i - 1

theorem modify_rotate_one {i : ℕ} (hi : i < xs.length) (f : α → α) :
    (xs.modify i f).rotate 1 = (xs.rotate 1).modify (turn xs.length i) f := by
  cases xs with
  | nil => exact absurd hi (Nat.not_lt_zero i)
  | cons a l =>
    refine List.ext_getElem? fun j => ?_
    cases i with
    | zero =>
      simp only [List.modify_zero_cons, List.rotate_cons_succ, List.rotate_zero, turn, if_true,
        List.length_cons, Nat.add_sub_cancel, List.getElem?_modify, List.getElem?_append]
      by_cases hj : j < l.length
      · simp [hj, hj.ne']
      · by_cases hlast : j = l.length
        · simp [hlast]
        · have hout : j - l.length ≠ 0 := by omega
          simp [hj, hout]
    | succ i =>
      have hi : i < l.length := Nat.lt_of_succ_lt_succ hi
      simp only [List.modify_succ_cons, List.rotate_cons_succ, List.rotate_zero, turn,
        Nat.succ_ne_zero, if_false, Nat.add_sub_cancel, List.getElem?_modify,
        List.getElem?_append, List.length_modify]
      by_cases hj : j < l.length
      · simp [hj]
      · have hne : i ≠ j := by omega
        simp [hj, hne]

theorem range_turn (n : ℕ) : (List.range n).map (turn n) ~r List.range n := by
  cases n with
  | zero => exact List.IsRotated.refl _
  | succ n =>
    have hmap : (List.range (n + 1)).map (turn (n + 1)) = n :: List.range n := by
      rw [List.range_succ_eq_map, List.map_cons, List.map_map]
      refine congrArg₂ List.cons (by simp [turn]) ?_
      conv_rhs => rw [← List.map_id (List.range n)]
      exact List.map_congr_left fun i _ => by simp [turn]
    rw [hmap, List.range_succ]
    exact (List.isRotated_concat n (List.range n)).symm

theorem sum_map_modify {M : Type*} [AddCommMonoid M] {g : α → M} {f : α → α} {d : M} {i : ℕ}
    (hi : i < xs.length) (h : g (f xs[i]) = g xs[i] + d) :
    ((xs.modify i f).map g).sum = (xs.map g).sum + d := by
  induction xs generalizing i with
  | nil => exact absurd hi (Nat.not_lt_zero i)
  | cons a l ih =>
    cases i with
    | zero =>
      rw [List.getElem_cons_zero] at h
      rw [List.modify_zero_cons, List.map_cons, List.sum_cons, h, List.map_cons, List.sum_cons]
      exact add_right_comm _ _ _
    | succ i =>
      rw [List.modify_succ_cons, List.map_cons, List.sum_cons,
        ih (Nat.lt_of_succ_lt_succ hi) h, List.map_cons, List.sum_cons, add_assoc]

end Rings

import Mathlib.Data.List.Sort

/-!
# Sorted views of keyed elements

A view lists elements with distinct keys in the order of a relation that tells their keys apart.
Two views are the same exactly when they hold the same elements: where the elements agree away
from one key, exactly when they agree at that key.
-/

namespace SortedView

variable {α κ : Type*} [DecidableEq κ] {key : α → κ} {xs ys : List α} {e : α} {k : κ}

theorem find?_eq_some (h : (xs.map key).Nodup) :
    xs.find? (fun e => key e == k) = some e ↔ e ∈ xs ∧ key e = k := by
  constructor
  · intro hfind
    have hkey := List.find?_some hfind
    exact ⟨List.mem_of_find?_eq_some hfind, beq_iff_eq.1 hkey⟩
  · rintro ⟨he, hkey⟩
    have hsome : (xs.find? fun e => key e == k).isSome = true :=
      List.find?_isSome.2 ⟨e, he, beq_iff_eq.2 hkey⟩
    obtain ⟨e', he'⟩ := Option.isSome_iff_exists.1 hsome
    have hkey' := List.find?_some he'
    rw [he', List.inj_on_of_nodup_map h (List.mem_of_find?_eq_some he') he
      ((beq_iff_eq.1 hkey').trans hkey.symm)]

theorem perm_iff_find? (hx : (xs.map key).Nodup) (hy : (ys.map key).Nodup)
    (haway : ∀ e, key e ≠ k → (e ∈ xs ↔ e ∈ ys)) :
    xs.Perm ys ↔ xs.find? (fun e => key e == k) = ys.find? fun e => key e == k := by
  rw [List.perm_ext_iff_of_nodup (List.Nodup.of_map key hx) (List.Nodup.of_map key hy)]
  constructor
  · intro hsame
    refine Option.ext fun e => ?_
    rw [find?_eq_some hx, find?_eq_some hy, hsame]
  · intro hat e
    by_cases hkey : key e = k
    · have hboth : (e ∈ xs ∧ key e = k) ↔ (e ∈ ys ∧ key e = k) := by
        rw [← find?_eq_some hx, ← find?_eq_some hy, hat]
      simpa only [hkey, and_true] using hboth
    · exact haway e hkey

section Sorted

variable (r : α → α → Prop) [DecidableRel r] [Std.Total r] [IsTrans α r]

theorem insertionSort_eq_iff
    (hanti : ∀ a ∈ xs, ∀ b ∈ xs, r a b → r b a → a = b) :
    xs.insertionSort r = ys.insertionSort r ↔ xs.Perm ys := by
  constructor
  · intro h
    exact (List.perm_insertionSort r xs).symm.trans (h ▸ List.perm_insertionSort r ys)
  · intro h
    have hperm : (xs.insertionSort r).Perm (ys.insertionSort r) :=
      (List.perm_insertionSort r xs).trans (h.trans (List.perm_insertionSort r ys).symm)
    refine hperm.eq_of_pairwise (fun a b ha hb hab hba => ?_) (List.pairwise_insertionSort r xs)
      (List.pairwise_insertionSort r ys)
    exact hanti a ((List.mem_insertionSort r).1 ha) b
      (h.mem_iff.2 ((List.mem_insertionSort r).1 hb)) hab hba

end Sorted

end SortedView

import Mathlib.Algebra.BigOperators.Group.List.Basic
import Mathlib.Data.List.Nodup

/-!
# Tallies: a sum per key

A tally is an association list with one entry per key, the value being what was added under the
key so far. `ofList` adds a list of contributions one by one, as a hash map filled in a loop
does; what it holds for a key is the sum of the key's contributions.
-/

namespace Tally

variable {κ M : Type*} [DecidableEq κ] [AddCommMonoid M]

/-- Add `v` under `k`, starting an entry for a new key. -/
def add : List (κ × M) → κ → M → List (κ × M)
  | [], k, v => [(k, v)]
  | (k', v') :: rest, k, v =>
    if k' = k then (k', v' + v) :: rest else (k', v') :: add rest k v

/-- The tally of a list of contributions. -/
def ofList (xs : List (κ × M)) : List (κ × M) :=
  xs.foldl (fun tally kv => add tally kv.1 kv.2) []

/-- The contributions of one key, summed. -/
def sumFor (xs : List (κ × M)) (k : κ) : M :=
  ((xs.filter fun kv => kv.1 = k).map Prod.snd).sum

theorem mem_keys_add {t : List (κ × M)} {k k' : κ} {v : M} :
    k' ∈ (add t k v).map Prod.fst ↔ k' = k ∨ k' ∈ t.map Prod.fst := by
  induction t with
  | nil => simp [add]
  | cons kv rest ih =>
    rw [add]
    by_cases h : kv.1 = k
    · simp only [h, if_true, List.map_cons, List.mem_cons]
      tauto
    · simp only [h, if_false, List.map_cons, List.mem_cons, ih]
      tauto

theorem nodup_keys_add {t : List (κ × M)} (ht : (t.map Prod.fst).Nodup) (k : κ) (v : M) :
    ((add t k v).map Prod.fst).Nodup := by
  induction t with
  | nil => simp [add]
  | cons kv rest ih =>
    rw [List.map_cons, List.nodup_cons] at ht
    rw [add]
    by_cases h : kv.1 = k
    · simp only [h, if_true, List.map_cons]
      exact List.nodup_cons.2 ⟨h ▸ ht.1, ht.2⟩
    · rw [if_neg h, List.map_cons, List.nodup_cons, mem_keys_add]
      refine ⟨?_, ih ht.2⟩
      rintro (hk | hk)
      · exact h hk
      · exact ht.1 hk

theorem sumFor_cons (kv : κ × M) (xs : List (κ × M)) (k : κ) :
    sumFor (kv :: xs) k = (if kv.1 = k then kv.2 else 0) + sumFor xs k := by
  by_cases h : kv.1 = k <;> simp [sumFor, h]

theorem sumFor_append (xs ys : List (κ × M)) (k : κ) :
    sumFor (xs ++ ys) k = sumFor xs k + sumFor ys k := by
  simp [sumFor]

theorem sumFor_add (t : List (κ × M)) (k k' : κ) (v : M) :
    sumFor (add t k v) k' = sumFor t k' + (if k = k' then v else 0) := by
  induction t with
  | nil => by_cases h : k = k' <;> simp [add, sumFor, h]
  | cons kv rest ih =>
    rw [add]
    by_cases h : kv.1 = k
    · by_cases hk : k = k'
      · simp only [h, hk, if_true, sumFor_cons]
        exact add_right_comm _ _ _
      · simp only [h, hk, if_true, if_false, sumFor_cons, add_zero]
    · simp only [h, if_false, sumFor_cons, ih]
      exact (add_assoc _ _ _).symm

theorem sumFor_foldl_add (xs t : List (κ × M)) (k : κ) :
    sumFor (xs.foldl (fun tally kv => add tally kv.1 kv.2) t) k = sumFor t k + sumFor xs k := by
  induction xs generalizing t with
  | nil => simp [sumFor]
  | cons kv xs ih =>
    rw [List.foldl_cons, ih, sumFor_add, sumFor_cons]
    exact add_assoc _ _ _

theorem nodup_keys_ofList (xs : List (κ × M)) : ((ofList xs).map Prod.fst).Nodup := by
  have key : ∀ t : List (κ × M), (t.map Prod.fst).Nodup →
      ((xs.foldl (fun tally kv => add tally kv.1 kv.2) t).map Prod.fst).Nodup := by
    induction xs with
    | nil => exact fun t ht => ht
    | cons kv xs ih => exact fun t ht => ih _ (nodup_keys_add ht kv.1 kv.2)
  exact key [] (by simp)

theorem mem_keys_ofList {xs : List (κ × M)} {k : κ} :
    k ∈ (ofList xs).map Prod.fst ↔ k ∈ xs.map Prod.fst := by
  have key : ∀ t : List (κ × M),
      k ∈ (xs.foldl (fun tally kv => add tally kv.1 kv.2) t).map Prod.fst ↔
        k ∈ t.map Prod.fst ∨ k ∈ xs.map Prod.fst := by
    induction xs with
    | nil => simp
    | cons kv xs ih =>
      intro t
      rw [List.foldl_cons, ih, mem_keys_add, List.map_cons, List.mem_cons]
      tauto
  simpa [ofList] using key []

theorem sumFor_of_not_mem {xs : List (κ × M)} {k : κ} (h : k ∉ xs.map Prod.fst) :
    sumFor xs k = 0 := by
  have hnil : xs.filter (fun kv => kv.1 = k) = [] := by
    rw [List.filter_eq_nil_iff]
    intro kv hkv he
    exact h (List.mem_map.2 ⟨kv, hkv, of_decide_eq_true he⟩)
  simp [sumFor, hnil]

theorem sumFor_flatMap {α : Type*} (xs : List α) (f : α → List (κ × M)) (k : κ) :
    sumFor (xs.flatMap f) k = (xs.map fun a => sumFor (f a) k).sum := by
  induction xs with
  | nil => simp [sumFor]
  | cons a xs ih => rw [List.flatMap_cons, sumFor_append, ih, List.map_cons, List.sum_cons]

theorem sumFor_filter {xs : List (κ × M)} {p : κ × M → Bool} {k : κ}
    (h : ∀ kv ∈ xs, kv.1 = k → p kv = true) : sumFor (xs.filter p) k = sumFor xs k := by
  induction xs with
  | nil => rfl
  | cons kv xs ih =>
    have ih := ih fun kv' hkv' => h kv' (List.mem_cons_of_mem _ hkv')
    by_cases hp : p kv = true
    · rw [List.filter_cons_of_pos hp, sumFor_cons, sumFor_cons, ih]
    · have hne : kv.1 ≠ k := fun hk => hp (h kv List.mem_cons_self hk)
      rw [List.filter_cons_of_neg hp, sumFor_cons, if_neg hne, zero_add, ih]

theorem sumFor_zip {ks : List κ} {vs : List M} {k : κ} (hlen : ks.length = vs.length)
    (h : ks.count k ≤ 1) :
    sumFor (ks.zip vs) k =
      (ks.findIdx? fun a => a == k).elim 0 fun i => (vs[i]?).getD 0 := by
  induction ks generalizing vs with
  | nil => simp [sumFor]
  | cons a ks ih =>
    cases vs with
    | nil => simp at hlen
    | cons v vs =>
      rw [List.zip_cons_cons, sumFor_cons, List.findIdx?_cons]
      by_cases ha : a = k
      · have hnot : k ∉ ks := by
          subst ha
          rw [List.count_cons_self] at h
          exact List.count_eq_zero.1 (by omega)
        have hzero : sumFor (ks.zip vs) k = 0 := by
          refine sumFor_of_not_mem fun hmem => hnot ?_
          obtain ⟨e, he, rfl⟩ := List.mem_map.1 hmem
          exact (List.of_mem_zip he).1
        simp [ha, hzero]
      · rw [List.count_cons_of_ne ha] at h
        rw [if_neg ha, zero_add, ih (by simpa using hlen) h]
        cases ks.findIdx? fun a => a == k <;> simp [ha]

theorem sumFor_of_mem {t : List (κ × M)} (ht : (t.map Prod.fst).Nodup) {k : κ} {v : M}
    (h : (k, v) ∈ t) : sumFor t k = v := by
  induction t with
  | nil => cases h
  | cons kv rest ih =>
    rw [List.map_cons, List.nodup_cons] at ht
    rw [sumFor_cons]
    rcases List.mem_cons.1 h with rfl | h
    · rw [if_pos rfl, sumFor_of_not_mem ht.1, add_zero]
    · have hne : kv.1 ≠ k := fun he => ht.1 (List.mem_map.2 ⟨(k, v), h, he.symm⟩)
      rw [if_neg hne, zero_add]
      exact ih ht.2 h

theorem mem_ofList {xs : List (κ × M)} {k : κ} {v : M} (h : (k, v) ∈ ofList xs) :
    v = sumFor xs k := by
  have hsum : sumFor (ofList xs) k = v := sumFor_of_mem (nodup_keys_ofList xs) h
  rw [← hsum, ofList, sumFor_foldl_add]
  simp [sumFor]

theorem mem_ofList_iff {xs : List (κ × M)} {k : κ} {v : M} :
    (k, v) ∈ ofList xs ↔ k ∈ xs.map Prod.fst ∧ v = sumFor xs k := by
  constructor
  · exact fun h => ⟨mem_keys_ofList.1 (List.mem_map_of_mem h), mem_ofList h⟩
  · rintro ⟨hk, rfl⟩
    obtain ⟨⟨k', v⟩, hv, rfl⟩ := List.mem_map.1 (mem_keys_ofList.2 hk)
    rw [← mem_ofList hv]
    exact hv

theorem sumFor_perm {xs ys : List (κ × M)} (h : xs.Perm ys) (k : κ) :
    sumFor xs k = sumFor ys k := ((h.filter _).map _).sum_eq

theorem ofList_perm {xs ys : List (κ × M)} (h : xs.Perm ys) : (ofList xs).Perm (ofList ys) := by
  refine (List.perm_ext_iff_of_nodup (nodup_keys_ofList xs).of_map
    (nodup_keys_ofList ys).of_map).2 ?_
  rintro ⟨k, v⟩
  rw [mem_ofList_iff, mem_ofList_iff, (h.map Prod.fst).mem_iff, sumFor_perm h]

theorem sumFor_induction {P : M → Prop} (hzero : P 0) (hadd : ∀ a b, P a → P b → P (a + b))
    {xs : List (κ × M)} (hxs : ∀ kv ∈ xs, P kv.2) (k : κ) : P (sumFor xs k) := by
  induction xs with
  | nil => exact hzero
  | cons kv xs ih =>
    have ih := ih fun kv' h => hxs kv' (List.mem_cons_of_mem kv h)
    rw [sumFor_cons]
    refine hadd _ _ ?_ ih
    split
    · exact hxs kv List.mem_cons_self
    · exact hzero

theorem sumFor_map {N : Type*} [AddCommMonoid N] {P : M → Prop} {f : M → N} (hzero : P 0)
    (hfzero : f 0 = 0) (hadd : ∀ a b, P a → P b → P (a + b) ∧ f (a + b) = f a + f b)
    {xs : List (κ × M)} (hxs : ∀ kv ∈ xs, P kv.2) (k : κ) :
    sumFor (xs.map fun kv => (kv.1, f kv.2)) k = f (sumFor xs k) := by
  induction xs with
  | nil => exact hfzero.symm
  | cons kv xs ih =>
    obtain ⟨hkv, hxs⟩ := List.forall_mem_cons.1 hxs
    have hrest : P (sumFor xs k) :=
      sumFor_induction hzero (fun a b ha hb => (hadd a b ha hb).1) hxs k
    rw [List.map_cons, sumFor_cons, sumFor_cons, ih hxs]
    by_cases hk : kv.1 = k
    · rw [if_pos hk, if_pos hk, (hadd _ _ hkv hrest).2]
    · rw [if_neg hk, if_neg hk, zero_add, zero_add]

theorem sum_ofList (xs : List (κ × M)) :
    ((ofList xs).map Prod.snd).sum = (xs.map Prod.snd).sum := by
  have hadd : ∀ (t : List (κ × M)) (k : κ) (v : M),
      ((add t k v).map Prod.snd).sum = (t.map Prod.snd).sum + v := by
    intro t k v
    induction t with
    | nil => simp [add]
    | cons kv t ih =>
      rw [add]
      split
      · exact add_right_comm _ _ _
      · rw [List.map_cons, List.sum_cons, ih, List.map_cons, List.sum_cons, add_assoc]
  have hfold : ∀ t : List (κ × M),
      ((xs.foldl (fun tally kv => add tally kv.1 kv.2) t).map Prod.snd).sum =
        (t.map Prod.snd).sum + (xs.map Prod.snd).sum := by
    induction xs with
    | nil => intro t; exact (add_zero _).symm
    | cons kv xs ih =>
      intro t
      rw [List.foldl_cons, ih, hadd, List.map_cons, List.sum_cons, add_assoc]
  exact (hfold []).trans (zero_add _)

end Tally

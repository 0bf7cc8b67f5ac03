import Mathlib.Algebra.BigOperators.Ring.Finset
import Mathlib.Data.Finset.Card
import Mathlib.Tactic.Ring
import Archon.Seating.Incremental

/-!
# The score does not depend on the numbering of the players

A seating is measured by indices, in the order in which the players first appear. Renumbered,
the measure has the same cells in other places, and each pair is seen from its other side; the
nine rules and the two means come out the same.
-/

namespace Archon.Seating

open Finset

/-! ### Pairs -/

/-- A renumbering of the first `n` indices. -/
structure Relabels (n : ℕ) (π : ℕ → ℕ) : Prop where
  maps : ∀ i, i < n → π i < n
  inj : ∀ i j, i < n → j < n → π i = π j → i = j

theorem Relabels.sum {n : ℕ} {π : ℕ → ℕ} (h : Relabels n π) (f : ℕ → ℕ) :
    ∑ i ∈ range n, f (π i) = ∑ i ∈ range n, f i := by
  have hmaps : Set.MapsTo π (range n : Set ℕ) (range n) := by
    intro i hi
    exact mem_coe.2 (mem_range.2 (h.maps i (mem_range.1 (mem_coe.1 hi))))
  have hinj : Set.InjOn π (range n) := by
    intro i hi j hj hij
    exact h.inj i j (mem_range.1 (mem_coe.1 hi)) (mem_range.1 (mem_coe.1 hj)) hij
  exact sum_nbij π hmaps hinj (surjOn_of_injOn_of_card_le π hmaps hinj le_rfl)
    fun _ _ => rfl

theorem Relabels.perm {n : ℕ} {π : ℕ → ℕ} (h : Relabels n π) :
    ((List.range n).map π).Perm (List.range n) := by
  have hnodup : ((List.range n).map π).Nodup :=
    List.Nodup.map_on (fun i hi j hj hij =>
      h.inj i j (List.mem_range.1 hi) (List.mem_range.1 hj) hij) List.nodup_range
  have hsub : (List.range n).map π ⊆ List.range n := by
    intro x hx
    obtain ⟨i, hi, rfl⟩ := List.mem_map.1 hx
    exact List.mem_range.2 (h.maps i (List.mem_range.1 hi))
  exact (List.subperm_of_subset hnodup hsub).perm_of_length_le (by simp)

theorem sum_pairs_twice (n : ℕ) {f : ℕ → ℕ → ℕ} (hsymm : ∀ i j, f i j = f j i)
    (hdiag : ∀ i, f i i = 0) :
    ∑ i ∈ range n, ∑ j ∈ range n, f i j = 2 * ∑ i ∈ range n, ∑ j ∈ range i, f i j := by
  induction n with
  | zero => simp
  | succ n ih =>
    have hrow : ∀ i, ∑ j ∈ range (n + 1), f i j = ∑ j ∈ range n, f i j + f n i := by
      intro i
      rw [sum_range_succ, hsymm i n]
    rw [sum_range_succ, sum_range_succ (fun i => ∑ j ∈ range i, f i j)]
    simp only [hrow, sum_add_distrib, ih, hdiag]
    ring

theorem Relabels.sum_pairs {n : ℕ} {π : ℕ → ℕ} (h : Relabels n π) {f : ℕ → ℕ → ℕ}
    (hsymm : ∀ i j, i ≠ j → f i j = f j i) :
    ∑ i ∈ range n, ∑ j ∈ range i, f (π i) (π j) = ∑ i ∈ range n, ∑ j ∈ range i, f i j := by
  -- The diagonal, which is not among the pairs, is cleared first.
  let off : ℕ → ℕ → ℕ := fun i j => if i = j then 0 else f i j
  have hoff : ∀ i j, off i j = off j i := by
    intro i j
    by_cases hij : i = j
    · rw [hij]
    · simp only [off, if_neg hij, if_neg (Ne.symm hij), hsymm i j hij]
  have hdiag : ∀ i, off i i = 0 := fun i => if_pos rfl
  have hbelow : ∀ i, ∑ j ∈ range i, f i j = ∑ j ∈ range i, off i j := by
    intro i
    refine sum_congr rfl fun j hj => ?_
    have hlt := mem_range.1 hj
    exact (if_neg (by omega)).symm
  have hbelow' : ∀ i ∈ range n,
      ∑ j ∈ range i, f (π i) (π j) = ∑ j ∈ range i, off (π i) (π j) := by
    intro i hi
    refine sum_congr rfl fun j hj => ?_
    have hi' := mem_range.1 hi
    have hj' := mem_range.1 hj
    have hne : π i ≠ π j := fun hij => by
      have := h.inj i j hi' (by omega) hij
      omega
    exact (if_neg hne).symm
  have htwice : ∑ i ∈ range n, ∑ j ∈ range n, off (π i) (π j) =
      ∑ i ∈ range n, ∑ j ∈ range n, off i j := by
    have hinner : ∀ i, ∑ j ∈ range n, off (π i) (π j) = ∑ j ∈ range n, off (π i) j :=
      fun i => h.sum fun j => off (π i) j
    simp only [hinner]
    exact h.sum fun i => ∑ j ∈ range n, off i j
  rw [sum_congr rfl hbelow', sum_congr rfl fun i _ => hbelow i]
  rw [sum_pairs_twice n (fun i j => hoff (π i) (π j)) (fun i => hdiag (π i)),
    sum_pairs_twice n hoff hdiag] at htwice
  omega

theorem sum_map_range (n : ℕ) (f : ℕ → ℕ) :
    ((List.range n).map f).sum = ∑ i ∈ range n, f i := by
  induction n with
  | zero => rfl
  | succ n ih => rw [List.range_succ, sum_range_succ, List.map_append, List.sum_append, ih]; simp

theorem sum_pairsBelow (n : ℕ) (f : ℕ × ℕ → ℕ) :
    ((pairsBelow n).map f).sum = ∑ i ∈ range n, ∑ j ∈ range i, f (i, j) := by
  have hrow : ∀ i, (((List.range i).map fun j => (i, j)).map f).sum =
      ∑ j ∈ range i, f (i, j) := by
    intro i
    rw [List.map_map]
    exact sum_map_range i _
  rw [pairsBelow, List.map_flatMap, List.flatMap_def, List.sum_flatten, List.map_map,
    ← sum_map_range]
  exact congrArg List.sum (List.map_congr_left fun i _ => hrow i)

/-! ### Two measures of one seating -/

/-- The other side of a relation: prey and predator, grand-prey and grand-predator. -/
def mirror : ℕ → ℕ
  | 1 => 4
  | 2 => 3
  | 3 => 2
  | 4 => 1
  | k => k

/-- The cells of `m'` are those of `m` under a renumbering, and pairs are seen from both sides. -/
structure Renumbered (π : ℕ → ℕ) (m m' : Measure) : Prop where
  size : m'.n = m.n
  relabels : Relabels m.n π
  cells : ∀ a b k, a < m.n → b < m.n → m'.get (π a) (π b) k = m.get a b k
  mirrored : ∀ a b k, a ≠ b → m.get b a k = m.get a b (mirror k)
  mirrored' : ∀ a b k, a ≠ b → m'.get b a k = m'.get a b (mirror k)

/-- The weight of a pair: how many of `ks` it repeats, where it met more than once. -/
def repeatsOf (m : Measure) (ks : List ℕ) (i j : ℕ) : ℕ :=
  if 1 < m.get i j 0 then (ks.filter fun k => decide (1 < m.get i j k)).length else 0

theorem length_repeats (m : Measure) (ks : List ℕ) (pairs : List (ℕ × ℕ)) :
    ((pairs.filter fun ij => decide (1 < m.get ij.1 ij.2 0)).flatMap fun ij =>
      ks.filter fun k => decide (1 < m.get ij.1 ij.2 k)).length =
      (pairs.map fun ij => repeatsOf m ks ij.1 ij.2).sum := by
  induction pairs with
  | nil => rfl
  | cons ij pairs ih =>
    rw [List.map_cons, List.sum_cons, ← ih]
    by_cases hmet : 1 < m.get ij.1 ij.2 0
    · rw [List.filter_cons_of_pos (by simpa using hmet), List.flatMap_cons, List.length_append,
        repeatsOf, if_pos hmet]
    · rw [List.filter_cons_of_neg (by simpa using hmet), repeatsOf, if_neg hmet, zero_add]

theorem countP_met (m : Measure) (q : ℕ × ℕ → Bool) (pairs : List (ℕ × ℕ)) :
    (pairs.filter fun ij => decide (1 < m.get ij.1 ij.2 0)).countP q =
      (pairs.map fun ij => if 1 < m.get ij.1 ij.2 0 ∧ q ij = true then 1 else 0).sum := by
  induction pairs with
  | nil => rfl
  | cons ij pairs ih =>
    rw [List.map_cons, List.sum_cons, ← ih]
    by_cases hmet : 1 < m.get ij.1 ij.2 0
    · rw [List.filter_cons_of_pos (by simpa using hmet), List.countP_cons, add_comm]
      simp [hmet]
    · rw [List.filter_cons_of_neg (by simpa using hmet)]
      simp [hmet]

section Scores

variable {π : ℕ → ℕ} {m m' : Measure}

theorem Renumbered.sum_pairsBelow (h : Renumbered π m m') {w w' : ℕ → ℕ → ℕ}
    (hcells : ∀ i j, i < m.n → j < m.n → w' (π i) (π j) = w i j)
    (hsymm : ∀ i j, i ≠ j → w' i j = w' j i) :
    ((pairsBelow m'.n).map fun ij => w' ij.1 ij.2).sum =
      ((pairsBelow m.n).map fun ij => w ij.1 ij.2).sum := by
  rw [h.size, Seating.sum_pairsBelow, Seating.sum_pairsBelow, ← h.relabels.sum_pairs hsymm]
  refine sum_congr rfl fun i hi => sum_congr rfl fun j hj => ?_
  have hi' := mem_range.1 hi
  have hj' := mem_range.1 hj
  exact hcells i j hi' (by omega)

theorem Renumbered.repeatsOf_cells (h : Renumbered π m m') (ks : List ℕ) {i j : ℕ}
    (hi : i < m.n) (hj : j < m.n) : repeatsOf m' ks (π i) (π j) = repeatsOf m ks i j := by
  unfold repeatsOf
  simp only [h.cells i j _ hi hj]

theorem Renumbered.repeatsOf_symm (h : Renumbered π m m') {ks : List ℕ}
    (hks : (ks.map mirror).Perm ks) {i j : ℕ} (hij : i ≠ j) :
    repeatsOf m' ks i j = repeatsOf m' ks j i := by
  have hmirror : (ks.filter fun k => decide (1 < m'.get i j (mirror k))).length =
      (ks.filter fun k => decide (1 < m'.get i j k)).length := by
    rw [← (hks.filter fun k => decide (1 < m'.get i j k)).length_eq, List.filter_map,
      List.length_map]
    rfl
  unfold repeatsOf
  rw [h.mirrored' i j 0 hij]
  simp only [h.mirrored' i j _ hij]
  rw [hmirror]
  rfl

theorem Renumbered.length_repeats (h : Renumbered π m m') {ks : List ℕ}
    (hks : (ks.map mirror).Perm ks) :
    (((pairsBelow m'.n).filter fun ij => decide (1 < m'.get ij.1 ij.2 0)).flatMap fun ij =>
      ks.filter fun k => decide (1 < m'.get ij.1 ij.2 k)).length =
      (((pairsBelow m.n).filter fun ij => decide (1 < m.get ij.1 ij.2 0)).flatMap fun ij =>
        ks.filter fun k => decide (1 < m.get ij.1 ij.2 k)).length := by
  rw [Seating.length_repeats, Seating.length_repeats]
  exact h.sum_pairsBelow (fun i j hi hj => h.repeatsOf_cells ks hi hj)
    fun i j hij => h.repeatsOf_symm hks hij

theorem Renumbered.countP_met (h : Renumbered π m m') (q : ℤ → Bool) :
    ((pairsBelow m'.n).filter fun ij => decide (1 < m'.get ij.1 ij.2 0)).countP
        (fun ij => q (m'.get ij.1 ij.2 0)) =
      ((pairsBelow m.n).filter fun ij => decide (1 < m.get ij.1 ij.2 0)).countP
        fun ij => q (m.get ij.1 ij.2 0) := by
  rw [Seating.countP_met, Seating.countP_met]
  let w (m : Measure) (i j : ℕ) : ℕ := if 1 < m.get i j 0 ∧ q (m.get i j 0) = true then 1 else 0
  have hcells : ∀ i j, i < m.n → j < m.n → w m' (π i) (π j) = w m i j := by
    intro i j hi hj
    simp only [w, h.cells i j 0 hi hj]
  have hsymm : ∀ i j, i ≠ j → w m' i j = w m' j i := by
    intro i j hij
    have hmirror : m'.get j i 0 = m'.get i j 0 := h.mirrored' i j 0 hij
    simp only [w, hmirror]
  exact h.sum_pairsBelow hcells hsymm

theorem Renumbered.ownMeans_perm (h : Renumbered π m m') (k : ℕ) :
    (ownMeans m' k).Perm (ownMeans m k) := by
  unfold ownMeans
  rw [h.size]
  refine ((h.relabels.perm.symm.filter _).map _).trans (List.Perm.of_eq ?_)
  rw [List.filter_map, List.map_map]
  have hfilter : (List.range m.n).filter
        ((fun i => decide (0 < m'.get i i 0)) ∘ π) =
      (List.range m.n).filter fun i => decide (0 < m.get i i 0) := by
    refine List.filter_congr fun i hi => ?_
    have hi' := List.mem_range.1 hi
    simp only [Function.comp_apply, h.cells i i 0 hi' hi']
  rw [hfilter]
  refine List.map_congr_left fun i hi => ?_
  have hi' := List.mem_range.1 (List.mem_filter.1 hi).1
  simp only [Function.comp_apply, h.cells i i _ hi' hi']

theorem Renumbered.seats_perm (h : Renumbered π m m') :
    ((List.range m'.n).flatMap fun i =>
      [3, 4, 5, 6, 7].filter fun seat => decide (1 < m'.get i i seat)).Perm
      ((List.range m.n).flatMap fun i =>
        [3, 4, 5, 6, 7].filter fun seat => decide (1 < m.get i i seat)) := by
  rw [h.size]
  refine (h.relabels.perm.symm.flatMap_right _).trans (List.Perm.of_eq ?_)
  rw [List.flatMap_map]
  refine List.flatMap_congr fun i hi => ?_
  have hi' := List.mem_range.1 hi
  simp only [h.cells i i _ hi' hi']

end Scores

theorem mean_perm {xs ys : List ℚ} (h : xs.Perm ys) : mean xs = mean ys := by
  unfold mean
  rw [h.sum_eq, h.length_eq]
  by_cases hys : ys = []
  · rw [if_pos hys, if_pos (by rw [hys] at h; exact h.eq_nil)]
  · rw [if_neg hys, if_neg fun hxs => hys (by rw [hxs] at h; exact h.symm.eq_nil)]

theorem deviation_perm (sqrt : ℚ → ℚ) {xs ys : List ℚ} (h : xs.Perm ys) :
    deviation sqrt xs = deviation sqrt ys := by
  unfold deviation
  rw [mean_perm h, (h.map _).sum_eq, h.length_eq]
  by_cases hys : ys = []
  · rw [if_pos hys, if_pos (by rw [hys] at h; exact h.eq_nil)]
  · rw [if_neg hys, if_neg fun hxs => hys (by rw [hxs] at h; exact h.symm.eq_nil)]

theorem Renumbered.scoreMeasure {π : ℕ → ℕ} {m m' : Measure} (h : Renumbered π m m')
    (sqrt : ℚ → ℚ) (roundsCount : ℕ) :
    Seating.scoreMeasure sqrt m' roundsCount = Seating.scoreMeasure sqrt m roundsCount := by
  have hpair : ([1, 4].map mirror).Perm [1, 4] := by decide
  have hrelation : ([1, 2, 3, 4, 5].map mirror).Perm [1, 2, 3, 4, 5] := by decide
  have hgroup : ([6, 7].map mirror).Perm [6, 7] := by decide
  have hmet := h.countP_met fun _ => true
  rw [List.countP_true] at hmet
  unfold Seating.scoreMeasure
  dsimp only
  rw [h.length_repeats hpair, h.length_repeats hrelation, h.length_repeats hgroup,
    h.countP_met fun count => decide ((roundsCount : ℤ) ≤ count), hmet,
    h.seats_perm.countP_eq, h.seats_perm.length_eq,
    deviation_perm sqrt (h.ownMeans_perm 1), deviation_perm sqrt (h.ownMeans_perm 2),
    mean_perm (h.ownMeans_perm 1), mean_perm (h.ownMeans_perm 2)]

/-! ### The two sides of a table -/

/-- What a seat counts for the player `rel + 1` seats further on. -/
def facing (size rel k : ℕ) : ℤ := ((((opponentVectors size)[rel]?).getD [])[k]?).getD 0

theorem facing_mirror {size rel : ℕ} (hsize : size = 4 ∨ size = 5) (hrel : rel < size - 1)
    (k : ℕ) : facing size rel (mirror k) = facing size (size - 2 - rel) k := by
  have hall : ∀ k < 8, (∀ rel < 3, facing 4 rel (mirror k) = facing 4 (4 - 2 - rel) k) ∧
      ∀ rel < 4, facing 5 rel (mirror k) = facing 5 (5 - 2 - rel) k := by decide
  have hnone : ∀ k rel, facing 4 rel (k + 8) = 0 ∧ facing 5 rel (k + 8) = 0 := by
    intro k rel
    rcases rel with _ | _ | _ | _ | rel
    all_goals exact ⟨rfl, rfl⟩
  by_cases hk : k < 8
  · rcases hsize with rfl | rfl
    · exact (hall k hk).1 rel hrel
    · exact (hall k hk).2 rel hrel
  · obtain ⟨k, rfl⟩ : ∃ k', k = k' + 8 := ⟨k - 8, by omega⟩
    have hmirror : mirror (k + 8) = k + 8 := rfl
    rw [hmirror]
    rcases hsize with rfl | rfl
    · rw [(hnone k _).1, (hnone k _).1]
    · rw [(hnone k _).2, (hnone k _).2]

theorem tableSum_eq_facing {a b : ℕ} (hab : a ≠ b) (k : ℕ) {table : List ℕ}
    (hsize : table.length = 4 ∨ table.length = 5) :
    tableSum a b k table = (table.zipIdx.map fun ps =>
      ((List.range (table.length - 1)).map fun rel =>
        if a = ps.1 ∧ b = (table[(ps.2 + rel + 1) % table.length]?).getD 0 then
          facing table.length rel k else 0).sum).sum := by
  unfold tableSum contributions
  rw [if_pos hsize, List.map_flatMap, List.flatMap_def, List.sum_flatten, List.map_map]
  refine congrArg List.sum (List.map_congr_left fun ps _ => ?_)
  have hown : ∀ vec, Contribution.cell ⟨ps.1, ps.1, true, vec⟩ a b k = 0 := fun vec =>
    if_neg fun h => hab (h.1.trans h.2.symm)
  rw [Function.comp_apply, List.map_cons, List.sum_cons, hown, zero_add, List.map_map]
  rfl

theorem tableSum_mirror {a b : ℕ} (hab : a ≠ b) (k : ℕ) (table : List ℕ) :
    tableSum b a k table = tableSum a b (mirror k) table := by
  have hswap : ∀ p q, (b = p ∧ a = q) = (a = q ∧ b = p) := fun p q => propext and_comm
  by_cases hsize : table.length = 4 ∨ table.length = 5
  · rw [tableSum_eq_facing hab.symm k hsize, tableSum_eq_facing hab _ hsize]
    rcases table with _ | ⟨p, _ | ⟨q, _ | ⟨r, _ | ⟨s, _ | ⟨t, _ | ⟨u, rest⟩⟩⟩⟩⟩⟩
    · simp at hsize
    · simp at hsize
    · simp at hsize
    · simp at hsize
    · have h0 := @facing_mirror 4 0 (.inl rfl) (by decide) k
      have h1 := @facing_mirror 4 1 (.inl rfl) (by decide) k
      have h2 := @facing_mirror 4 2 (.inl rfl) (by decide) k
      simp [List.range_succ, hswap, h0, h1, h2]
      ring
    · have h0 := @facing_mirror 5 0 (.inr rfl) (by decide) k
      have h1 := @facing_mirror 5 1 (.inr rfl) (by decide) k
      have h2 := @facing_mirror 5 2 (.inr rfl) (by decide) k
      have h3 := @facing_mirror 5 3 (.inr rfl) (by decide) k
      simp [List.range_succ, hswap, h0, h1, h2, h3]
      ring
    · simp only [List.length_cons] at hsize
      omega
  · unfold tableSum contributions
    rw [if_neg hsize]
    rfl
/-! ### New numbers for the players -/

end Archon.Seating

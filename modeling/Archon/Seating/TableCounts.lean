import Mathlib.Tactic.LinearCombination
import Archon.Seating.Relations
import Archon.Seating.Partition

/-!
# What the counters count (`seating/measure.rs`)

Where no round seats a player twice, the counters are plain counts of tables: a player's seat
counter the tables at which the player takes that seat, the meeting counter of two players the
tables that seat both.
-/

namespace Archon.Seating

/-! ### One table -/

section Table

variable {table : List ℕ}

theorem tableSum_own (hnodup : table.Nodup) (i k : ℕ) :
    tableSum i i k table =
      if table.length = 4 ∨ table.length = 5 then
        (table.zipIdx.map fun ps => if i = ps.1 then
          ((((positionVectors table.length)[ps.2]?).getD [])[k]?).getD 0 else 0).sum
      else 0 := by
  have hother : ∀ c ∈ contributions table, c.own = false → c.cell i i k = 0 := by
    intro c hc hown
    exact if_neg fun h => contributions_ne hnodup hc hown (h.1.symm.trans h.2)
  by_cases hsize : table.length = 4 ∨ table.length = 5
  · have hvectors : contributions table = table.zipIdx.flatMap fun ps =>
        ⟨ps.1, ps.1, true, ((positionVectors table.length)[ps.2]?).getD []⟩ ::
          (List.range (table.length - 1)).map fun rel =>
            ⟨ps.1, (table[(ps.2 + rel + 1) % table.length]?).getD 0, false,
              ((opponentVectors table.length)[rel]?).getD []⟩ := if_pos hsize
    rw [hvectors] at hother
    rw [if_pos hsize, tableSum, hvectors, List.map_flatMap, List.flatMap_def, List.sum_flatten,
      List.map_map]
    refine congrArg List.sum (List.map_congr_left fun ps hps => ?_)
    rw [Function.comp_apply, List.map_cons, List.sum_cons, List.sum_eq_zero, add_zero]
    · simp [Contribution.cell]
    · intro x hx
      obtain ⟨c, hc, rfl⟩ := List.mem_map.1 hx
      obtain ⟨rel, hrel, rfl⟩ := List.mem_map.1 hc
      exact hother _ (List.mem_flatMap.2 ⟨ps, hps, List.mem_cons_of_mem _ hc⟩) rfl
  · unfold tableSum contributions
    rw [if_neg hsize, if_neg hsize]
    rfl

theorem tableSum_seat (hnodup : table.Nodup) (i : ℕ) {seat : ℕ} (hseat : seat < 5) :
    tableSum i i (seat + 3) table =
      if (table.length = 4 ∨ table.length = 5) ∧ table[seat]? = some i then 1 else 0 := by
  rw [tableSum_own hnodup]
  by_cases hsize : table.length = 4 ∨ table.length = 5
  · rw [if_pos hsize]
    simp only [hsize, true_and]
    rcases table with _ | ⟨p, _ | ⟨q, _ | ⟨r, _ | ⟨s, _ | ⟨t, _ | ⟨u, rest⟩⟩⟩⟩⟩⟩
    · simp at hsize
    · simp at hsize
    · simp at hsize
    · simp at hsize
    · rcases seat with _ | _ | _ | _ | _ | seat <;> simp [positionVectors, eq_comm]
    · rcases seat with _ | _ | _ | _ | _ | seat <;> simp [positionVectors, eq_comm]
    · simp only [List.length_cons] at hsize
      omega
  · rw [if_neg hsize, if_neg fun h => hsize h.1]

theorem tableSum_met (hnodup : table.Nodup) {i j : ℕ} (hij : i ≠ j)
    (hsize : table.length = 4 ∨ table.length = 5) :
    tableSum i j 0 table = if i ∈ table ∧ j ∈ table then 1 else 0 := by
  have hboth : ∀ x y, (if i = x ∧ j = y then (1 : ℤ) else 0) =
      (if i = x then 1 else 0) * (if j = y then 1 else 0) := by
    intro x y
    by_cases hx : i = x <;> simp [hx]
  have hsame : ∀ x, (if i = x then (1 : ℤ) else 0) * (if j = x then 1 else 0) = 0 := by
    intro x
    rw [← hboth, if_neg fun h => hij (h.1.trans h.2.symm)]
  -- A player takes one seat, so being seated is the sum over the seats.
  have hseated : ∀ x, (if x ∈ table then (1 : ℤ) else 0) =
      (table.map fun y => if x = y then (1 : ℤ) else 0).sum := by
    intro x
    simp only [@eq_comm _ x]
    rw [List.sum_map_ite_eq, hnodup.count]
    split_ifs <;> simp
  have hsplit : (if i ∈ table ∧ j ∈ table then (1 : ℤ) else 0) =
      (if i ∈ table then 1 else 0) * (if j ∈ table then 1 else 0) := by
    by_cases hi : i ∈ table <;> simp [hi]
  rw [tableSum_eq_facing hij 0 hsize, hsplit, hseated, hseated]
  clear hseated hsplit
  rcases table with _ | ⟨p, _ | ⟨q, _ | ⟨r, _ | ⟨s, _ | ⟨t, _ | ⟨u, rest⟩⟩⟩⟩⟩⟩
  · simp at hsize
  · simp at hsize
  · simp at hsize
  · simp at hsize
  · simp [List.range_succ, facing, opponentVectors]
    simp only [hboth]
    linear_combination -hsame p - hsame q - hsame r - hsame s
  · simp [List.range_succ, facing, opponentVectors]
    simp only [hboth]
    linear_combination -hsame p - hsame q - hsame r - hsame s - hsame t
  · simp only [List.length_cons] at hsize
    omega

end Table

/-! ### All rounds -/

/-- Tables of four or five, nobody twice in a round. -/
def WellSeated (rounds : List (Round String)) : Prop :=
  ∀ round ∈ rounds, round.flatten.Nodup ∧ ∀ table ∈ round, table.length = 4 ∨ table.length = 5

theorem sum_ite_eq_countP {α R : Type} [AddCommMonoidWithOne R] (l : List α) (p : α → Prop)
    [DecidablePred p] :
    (l.map fun x => if p x then (1 : R) else 0).sum = l.countP fun x => decide (p x) := by
  induction l with
  | nil => simp
  | cons x l ih =>
    rw [List.map_cons, List.sum_cons, ih, List.countP_cons]
    by_cases hx : p x
    · simp [hx, add_comm]
    · simp [hx]

theorem countP_range_getElem? {α : Type} [DecidableEq α] (x : α) (l : List α) {n : ℕ}
    (h : l.length ≤ n) :
    (List.range n).countP (fun k => decide (l[k]? = some x)) = l.count x := by
  induction l generalizing n with
  | nil => simp
  | cons y l ih =>
    obtain ⟨n, rfl⟩ : ∃ m, n = m + 1 := ⟨n - 1, by rw [List.length_cons] at h; omega⟩
    rw [List.range_succ_eq_map, List.countP_cons, List.countP_map, List.count_cons,
      ← ih (Nat.le_of_succ_le_succ h)]
    simp [Function.comp_def]

section Rounds

variable {rounds : List (Round String)}

theorem WellSeated.nodup (h : WellSeated rounds) {table : List String}
    (ht : table ∈ rounds.flatten) : table.Nodup := by
  obtain ⟨round, hround, ht⟩ := List.mem_flatten.1 ht
  exact (List.nodup_flatten.1 (h round hround).1).1 table ht

theorem WellSeated.size (h : WellSeated rounds) {table : List String}
    (ht : table ∈ rounds.flatten) : table.length = 4 ∨ table.length = 5 := by
  obtain ⟨round, hround, ht⟩ := List.mem_flatten.1 ht
  exact (h round hround).2 table ht

theorem mem_mapping_of_table {table : List String} (ht : table ∈ rounds.flatten) {p : String}
    (hp : p ∈ table) : p ∈ buildMapping rounds := by
  obtain ⟨round, hround, ht⟩ := List.mem_flatten.1 ht
  exact mem_buildMapping hround (List.mem_flatten.2 ⟨table, ht, hp⟩)

/-- A table by the indices of its players. -/
def indexed (rounds : List (Round String)) (table : List String) : List ℕ :=
  table.map fun p => (buildMapping rounds).idxOf p

theorem WellSeated.nodup_indexed (h : WellSeated rounds) {table : List String}
    (ht : table ∈ rounds.flatten) : (indexed rounds table).Nodup :=
  List.Nodup.map_on (fun _ hx _ _ hxy => (List.idxOf_inj (mem_mapping_of_table ht hx)).1 hxy)
    (h.nodup ht)

theorem WellSeated.get_eq (h : WellSeated rounds) (a b k : ℕ) :
    (totalMeasure (buildMapping rounds) rounds).get a b k =
      (rounds.flatten.map fun table => tableSum a b k (indexed rounds table)).sum := by
  have hnames : rounds = (rounds.map (toIndices (buildMapping rounds))).map
      (toNames (buildMapping rounds)) := by
    rw [List.map_map]
    conv_lhs => rw [← List.map_id rounds]
    exact List.map_congr_left fun round hround => (toNames_toIndices hround).symm
  have htotal := totalMeasure_toNames (nodup_buildMapping rounds)
    (placed_toIndices fun round hround => (h round hround).1)
  rw [← hnames] at htotal
  rw [htotal, measureAll_get, List.map_map, List.map_flatten, List.sum_flatten, List.map_map]
  refine congrArg List.sum (List.map_congr_left fun round _ => ?_)
  simp only [Function.comp_apply, roundSum, toIndices, List.map_map]
  rfl

theorem WellSeated.get_seat (h : WellSeated rounds) (p : String) {seat : ℕ} (hseat : seat < 5) :
    (totalMeasure (buildMapping rounds) rounds).get ((buildMapping rounds).idxOf p)
      ((buildMapping rounds).idxOf p) (seat + 3) =
        rounds.flatten.countP fun table => decide (table[seat]? = some p) := by
  rw [h.get_eq, ← sum_ite_eq_countP]
  refine congrArg List.sum (List.map_congr_left fun table ht => ?_)
  have hindexed : (indexed rounds table)[seat]? = some ((buildMapping rounds).idxOf p) ↔
      table[seat]? = some p := by
    rw [indexed, List.getElem?_map, Option.map_eq_some_iff]
    constructor
    · rintro ⟨q, hq, hqp⟩
      rw [hq, (List.idxOf_inj (mem_mapping_of_table ht (List.mem_of_getElem? hq))).1 hqp]
    · exact fun hseat => ⟨p, hseat, rfl⟩
  have hsize : (indexed rounds table).length = 4 ∨ (indexed rounds table).length = 5 := by
    rw [indexed, List.length_map]
    exact h.size ht
  rw [tableSum_seat (h.nodup_indexed ht) _ hseat]
  simp only [hsize, true_and, hindexed]

theorem mem_indexed {table : List String} (ht : table ∈ rounds.flatten) (p : String) :
    (buildMapping rounds).idxOf p ∈ indexed rounds table ↔ p ∈ table := by
  rw [indexed, List.mem_map]
  constructor
  · rintro ⟨q, hq, hqp⟩
    rwa [← (List.idxOf_inj (mem_mapping_of_table ht hq)).1 hqp]
  · exact fun hmem => ⟨p, hmem, rfl⟩

theorem WellSeated.get_met (h : WellSeated rounds) {i j : ℕ} (hij : i ≠ j) :
    (totalMeasure (buildMapping rounds) rounds).get i j 0 =
      rounds.flatten.countP fun table =>
        decide (i ∈ indexed rounds table ∧ j ∈ indexed rounds table) := by
  rw [h.get_eq, ← sum_ite_eq_countP]
  refine congrArg List.sum (List.map_congr_left fun table ht => ?_)
  refine tableSum_met (h.nodup_indexed ht) hij ?_
  rw [indexed, List.length_map]
  exact h.size ht

end Rounds

/-! ### Pairs -/

theorem sum_countP_comm {α β : Type} (xs : List α) (ys : List β) (p : α → β → Bool) :
    (xs.map fun x => ys.countP (p x)).sum = (ys.map fun y => xs.countP fun x => p x y).sum := by
  induction xs with
  | nil => simp
  | cons x xs ih =>
    have hsum : ∀ ys : List β, (ys.map fun y => (x :: xs).countP fun x => p x y).sum =
        ys.countP (p x) + (ys.map fun y => xs.countP fun x => p x y).sum := by
      intro ys
      induction ys with
      | nil => rfl
      | cons y ys ihy =>
        rw [List.map_cons, List.sum_cons, ihy, List.countP_cons, List.countP_cons, List.map_cons,
          List.sum_cons]
        omega
    rw [List.map_cons, List.sum_cons, ih, hsum]

open Finset in
theorem countP_pairsBelow {n : ℕ} {l : List ℕ} (hl : l.Nodup) (hn : ∀ i ∈ l, i < n) :
    (pairsBelow n).countP (fun ij => decide (ij.1 ∈ l ∧ ij.2 ∈ l)) =
      l.length * (l.length - 1) / 2 := by
  have hcard : l.toFinset.card = l.length := List.toFinset_card_of_nodup hl
  have hsymm : ∀ i j, (if i ≠ j ∧ i ∈ l ∧ j ∈ l then 1 else 0) =
      if j ≠ i ∧ j ∈ l ∧ i ∈ l then 1 else 0 := by
    intro i j
    simp only [ne_comm, and_comm]
  have hrow : ∀ i ∈ range n, ∑ j ∈ range n, (if i ≠ j ∧ i ∈ l ∧ j ∈ l then 1 else 0) =
      if i ∈ l then l.length - 1 else 0 := by
    intro i _
    by_cases hi : i ∈ l
    · have hfilter : (range n).filter (fun j => i ≠ j ∧ i ∈ l ∧ j ∈ l) = l.toFinset.erase i := by
        ext j
        simp only [mem_filter, mem_range, mem_erase, List.mem_toFinset]
        exact ⟨fun h => ⟨h.2.1.symm, h.2.2.2⟩, fun h => ⟨hn j h.2, h.1.symm, hi, h.2⟩⟩
      rw [if_pos hi, ← card_filter, hfilter, card_erase_of_mem (List.mem_toFinset.2 hi), hcard]
    · rw [if_neg hi]
      exact sum_eq_zero fun j _ => if_neg fun h => hi h.2.1
  have hall : ∑ i ∈ range n, (if i ∈ l then l.length - 1 else 0) = l.length * (l.length - 1) := by
    have hfilter : (range n).filter (fun i => i ∈ l) = l.toFinset := by
      ext i
      simp only [mem_filter, mem_range, List.mem_toFinset]
      exact ⟨fun h => h.2, fun h => ⟨hn i h, h⟩⟩
    rw [← sum_filter, hfilter, sum_const, hcard, smul_eq_mul]
  have htwice := sum_pairs_twice n hsymm fun i => if_neg fun h => h.1 rfl
  rw [sum_congr rfl hrow, hall] at htwice
  have hcount : (pairsBelow n).countP (fun ij => decide (ij.1 ∈ l ∧ ij.2 ∈ l)) =
      ∑ i ∈ range n, ∑ j ∈ range i, (if i ≠ j ∧ i ∈ l ∧ j ∈ l then 1 else 0) := by
    rw [← sum_pairsBelow n fun ij => if ij.1 ≠ ij.2 ∧ ij.1 ∈ l ∧ ij.2 ∈ l then 1 else 0]
    have hpairs : ∀ ij ∈ pairsBelow n, ij.1 ≠ ij.2 := by
      intro ij hij
      have hlt := (mem_pairsBelow.1 hij).1
      omega
    generalize pairsBelow n = pairs at hpairs
    induction pairs with
    | nil => rfl
    | cons ij pairs ih =>
      rw [List.countP_cons, ih fun x hx => hpairs x (List.mem_cons_of_mem ij hx), List.map_cons,
        List.sum_cons, add_comm]
      simp [hpairs ij List.mem_cons_self]
  rw [hcount]
  omega

end Archon.Seating

import Mathlib.Data.Rat.Floor
import Mathlib.Algebra.Order.Field.Basic
import Archon.Seating.TableCounts

/-!
# The theoretical minimum (`seating/score.rs:349`)

The bounds the seating dialog compares a score with. Meetings, repeated opponents and repeated
seats are bounded by counting: pairs against pair slots, seats against rounds. The bound on fifth
seats counts the players with more than five rounds at tables of five, who repeat some seat there
but not always the fifth.
-/

namespace Archon.Seating

/-! ### The bounds -/

/-- `score.rs:396-404`: the sizes of the tables a player sat at. -/
def playerTableSizes (rounds : List (Round String)) (p : String) : List ℕ :=
  rounds.flatten.flatMap fun table => List.replicate (table.count p) table.length

/-- `score.rs:411-416`: seats one can take before one repeats. -/
def distinctSeats (sizes : List ℕ) : ℕ :=
  match sizes.contains 4, sizes.contains 5 with
  | true, true => 9
  | true, false => 4
  | false, true => 5
  | false, false => sizes.length

/-- `score.rs:363-371`: the pairs of seats at all tables. -/
def totalPairSlots (rounds : List (Round String)) : ℕ :=
  (rounds.map fun round => (round.map fun table =>
    table.length * (table.length - 1) / 2).sum).sum

/-- `score.rs:349`. -/
def computeMinimumViolations (rounds : List (Round String)) : LexScore :=
  let r := rounds.length
  let mapping := buildMapping rounds
  let n := mapping.length
  if r = 0 ∨ n = 0 then List.replicate 9 0
  else
    let availablePairs := n * (n - 1) / 2
    let r4 : ℚ :=
      if availablePairs < totalPairSlots rounds ∧ 1 < r then
        ⌈((totalPairSlots rounds - availablePairs : ℕ) : ℚ) / ((r : ℚ) - 1)⌉
      else 0
    let allSingleTable := rounds.all fun round => round.length == 1
    let allRoundPlayers :=
      mapping.countP fun p => decide (r ≤ rounds.flatten.flatten.count p)
    let r2 : ℚ :=
      if allSingleTable = true ∧ 2 ≤ r then (allRoundPlayers * (allRoundPlayers - 1) / 2 : ℕ) else 0
    let r7 := mapping.countP fun p =>
      let sizes := playerTableSizes rounds p
      !sizes.isEmpty && decide (distinctSeats sizes < sizes.length)
    let r5 := mapping.countP fun p => decide (5 < (playerTableSizes rounds p).count 5)
    [0, r2, 0, r4, r5, 0, r7, 0, 0]

/-! ### Seats and rounds of a player -/

section Players

variable {rounds : List (Round String)}

/-- Tables of five a player sat at. -/
def fiveTables (rounds : List (Round String)) (p : String) : ℕ :=
  rounds.flatten.countP fun table => decide (table.length = 5 ∧ p ∈ table)

/-- Tables a player sat fifth at. -/
def fifthSeats (rounds : List (Round String)) (p : String) : ℕ :=
  rounds.flatten.countP fun table => decide (table[4]? = some p)

theorem WellSeated.countP_sizes (h : WellSeated rounds) (p : String) (ok : ℕ → Bool) :
    (playerTableSizes rounds p).countP ok =
      rounds.flatten.countP fun table => ok table.length && decide (p ∈ table) := by
  have htables : ∀ table ∈ rounds.flatten, table.Nodup := fun table ht => h.nodup ht
  unfold playerTableSizes
  generalize rounds.flatten = tables at htables
  induction tables with
  | nil => rfl
  | cons table tables ih =>
    rw [List.flatMap_cons, List.countP_append, List.countP_cons,
      ih fun t ht => htables t (List.mem_cons_of_mem _ ht), List.countP_replicate,
      (htables table List.mem_cons_self).count, add_comm]
    by_cases hsize : ok table.length = true
    · by_cases hp : p ∈ table <;> simp [hsize, hp]
    · simp [hsize]

theorem WellSeated.sizes_count (h : WellSeated rounds) (p : String) (size : ℕ) :
    (playerTableSizes rounds p).count size =
      rounds.flatten.countP fun table => decide (table.length = size ∧ p ∈ table) := by
  rw [List.count, h.countP_sizes]
  exact List.countP_congr fun table _ => by simp

theorem WellSeated.sizes_length (h : WellSeated rounds) (p : String) :
    (playerTableSizes rounds p).length =
      rounds.flatten.countP fun table => decide (p ∈ table) := by
  rw [← List.countP_true, h.countP_sizes]
  exact List.countP_congr fun table _ => by simp

theorem WellSeated.sum_seats (h : WellSeated rounds) (p : String) :
    ((List.range 5).map fun seat =>
      rounds.flatten.countP fun table => decide (table[seat]? = some p)).sum =
        rounds.flatten.countP fun table => decide (p ∈ table) := by
  rw [sum_countP_comm]
  have hone : ∀ table ∈ rounds.flatten,
      (List.range 5).countP (fun seat => decide (table[seat]? = some p)) =
        if p ∈ table then 1 else 0 := by
    intro table ht
    have hsize := h.size ht
    rw [countP_range_getElem? p table (by omega), (h.nodup ht).count]
  rw [List.map_congr_left hone, sum_ite_eq_countP, Nat.cast_id]

theorem WellSeated.repeats_seat (h : WellSeated rounds) {p : String}
    (hmore : distinctSeats (playerTableSizes rounds p) < (playerTableSizes rounds p).length) :
    ∃ seat < 5, 1 < rounds.flatten.countP fun table => decide (table[seat]? = some p) := by
  have hsum := h.sum_seats p
  rw [← h.sizes_length] at hsum
  by_contra hnone
  have hfew : ∀ seat < 5, rounds.flatten.countP (fun table => decide (table[seat]? = some p)) ≤ 1 :=
    fun seat hseat => not_lt.1 fun hmore => hnone ⟨seat, hseat, hmore⟩
  have h0 := hfew 0 (by decide)
  have h1 := hfew 1 (by decide)
  have h2 := hfew 2 (by decide)
  have h3 := hfew 3 (by decide)
  have h4 := hfew 4 (by decide)
  simp only [List.range_succ, List.range_zero, List.nil_append, List.map_append, List.map_cons,
    List.map_nil, List.sum_append, List.sum_cons, List.sum_nil] at hsum
  unfold distinctSeats at hmore
  split at hmore
  · omega
  · -- Nobody sits fifth at tables of four.
    rename_i hfive
    have hnofifth : rounds.flatten.countP (fun table => decide (table[4]? = some p)) = 0 := by
      refine List.countP_eq_zero.2 fun table ht hfifth => ?_
      have hseat := of_decide_eq_true hfifth
      have hsize := h.size ht
      obtain ⟨hlt, -⟩ := List.getElem?_eq_some_iff.1 hseat
      have hcount := h.sizes_count p 5
      rw [List.count_eq_zero_of_not_mem (by simpa using hfive)] at hcount
      have hzero := List.countP_eq_zero.1 hcount.symm table ht
      exact hzero (decide_eq_true ⟨by omega, List.mem_of_getElem? hseat⟩)
    omega
  · omega
  · exact lt_irrefl _ hmore

end Players

/-! ### The measured rules -/

theorem range_eq_map_idxOf {mapping : List String} (hm : mapping.Nodup) :
    List.range mapping.length = mapping.map fun p => mapping.idxOf p := by
  refine List.ext_getElem (by simp) fun i h₁ h₂ => ?_
  have hi : i < mapping.length := by simpa using h₁
  rw [List.getElem_range, List.getElem_map, hm.idxOf_getElem i hi]

theorem countP_range_mapping {mapping : List String} (hm : mapping.Nodup) (p : ℕ → Bool) :
    (List.range mapping.length).countP p = mapping.countP fun q => p (mapping.idxOf q) := by
  rw [range_eq_map_idxOf hm, List.countP_map]
  rfl

section Measured

variable {rounds : List (Round String)}

/-- Tables that seat both players. -/
def timesMet (rounds : List (Round String)) (ij : ℕ × ℕ) : ℕ :=
  rounds.flatten.countP fun table =>
    decide (ij.1 ∈ indexed rounds table ∧ ij.2 ∈ indexed rounds table)

theorem WellSeated.filter_met (h : WellSeated rounds) :
    ((pairsBelow (buildMapping rounds).length).filter fun ij =>
      decide (1 < (totalMeasure (buildMapping rounds) rounds).get ij.1 ij.2 0)) =
        (pairsBelow (buildMapping rounds).length).filter fun ij =>
          decide (1 < timesMet rounds ij) := by
  refine List.filter_congr fun ij hij => ?_
  have hlt := (mem_pairsBelow.1 hij).1
  rw [h.get_met (by omega : ij.1 ≠ ij.2)]
  exact decide_eq_decide.2 Nat.one_lt_cast

theorem WellSeated.tables_le (h : WellSeated rounds) (p : String) :
    (rounds.flatten.countP fun table => decide (p ∈ table)) ≤ rounds.length := by
  have hrounds : ∀ round ∈ rounds, round.flatten.Nodup := fun round hround => (h round hround).1
  clear h
  induction rounds with
  | nil => simp
  | cons round rounds ih =>
    have hone : (round.countP fun table => decide (p ∈ table)) ≤ 1 := by
      have hcount := List.nodup_iff_count_le_one.1 (hrounds round List.mem_cons_self) p
      rw [List.count_flatten] at hcount
      refine le_trans ?_ hcount
      generalize round = tables
      induction tables with
      | nil => simp
      | cons table tables ih =>
        rw [List.countP_cons, List.map_cons, List.sum_cons, add_comm]
        refine Nat.add_le_add ?_ ih
        by_cases hp : p ∈ table <;> simp [hp]
    rw [List.flatten_cons, List.countP_append, List.length_cons, add_comm]
    exact Nat.add_le_add (ih fun r hr => hrounds r (List.mem_cons_of_mem _ hr)) hone

theorem WellSeated.totalPairSlots_eq (h : WellSeated rounds) :
    totalPairSlots rounds =
      ((pairsBelow (buildMapping rounds).length).map (timesMet rounds)).sum := by
  unfold timesMet
  rw [sum_countP_comm, totalPairSlots, List.map_flatten, List.sum_flatten, List.map_map]
  refine congrArg List.sum (List.map_congr_left fun round hround =>
    congrArg List.sum (List.map_congr_left fun table ht => ?_))
  have htable : table ∈ rounds.flatten := List.mem_flatten.2 ⟨round, hround, ht⟩
  rw [countP_pairsBelow (h.nodup_indexed htable), indexed, List.length_map]
  intro i hi
  obtain ⟨p, hp, rfl⟩ := List.mem_map.1 hi
  exact List.idxOf_lt_length_iff.2 (mem_mapping_of_table htable hp)

theorem WellSeated.timesMet_le (h : WellSeated rounds) {ij : ℕ × ℕ}
    (hij : ij ∈ pairsBelow (buildMapping rounds).length) : timesMet rounds ij ≤ rounds.length := by
  obtain ⟨hlt, hi⟩ := mem_pairsBelow.1 hij
  refine le_trans (List.countP_mono_left fun table ht hboth => ?_)
    (h.tables_le (buildMapping rounds)[ij.1])
  refine decide_eq_true ((mem_indexed ht _).1 ?_)
  rw [(nodup_buildMapping rounds).idxOf_getElem]
  exact (of_decide_eq_true hboth).1

theorem sum_le_card_add (l : List (ℕ × ℕ)) (f : ℕ × ℕ → ℕ) {r : ℕ} (hr : ∀ x ∈ l, f x ≤ r)
    (hpos : 0 < r) :
    (l.map f).sum ≤ l.length + (r - 1) * (l.filter fun x => decide (1 < f x)).length := by
  induction l with
  | nil => simp
  | cons x l ih =>
    have hx := hr x List.mem_cons_self
    have hl := ih fun y hy => hr y (List.mem_cons_of_mem x hy)
    rw [List.map_cons, List.sum_cons, List.length_cons]
    by_cases hmore : 1 < f x
    · rw [List.filter_cons_of_pos (by simpa using hmore), List.length_cons, Nat.mul_succ]
      omega
    · rw [List.filter_cons_of_neg (by simpa using hmore)]
      omega

theorem length_pairsBelow (n : ℕ) : (pairsBelow n).length = n * (n - 1) / 2 := by
  have hcount := @countP_pairsBelow n _ List.nodup_range fun i => List.mem_range.1
  rw [List.length_range] at hcount
  rw [← hcount, eq_comm, List.countP_eq_length]
  intro ij hij
  obtain ⟨hlt, hi⟩ := mem_pairsBelow.1 hij
  exact decide_eq_true ⟨List.mem_range.2 hi, List.mem_range.2 (hlt.trans hi)⟩

theorem WellSeated.met_bound (h : WellSeated rounds) (hr : 1 < rounds.length) :
    totalPairSlots rounds - (buildMapping rounds).length * ((buildMapping rounds).length - 1) / 2 ≤
      (rounds.length - 1) * ((pairsBelow (buildMapping rounds).length).filter fun ij =>
        decide (1 < timesMet rounds ij)).length := by
  have hsum := sum_le_card_add (pairsBelow (buildMapping rounds).length) (timesMet rounds)
    (fun _ hij => h.timesMet_le hij) (by omega)
  rw [← h.totalPairSlots_eq, length_pairsBelow] at hsum
  exact Nat.sub_le_iff_le_add'.2 hsum

theorem ceil_div_le {excess r met : ℕ} (hr : 1 < r) (h : excess ≤ (r - 1) * met) :
    ((⌈(excess : ℚ) / ((r : ℚ) - 1)⌉ : ℤ) : ℚ) ≤ met := by
  have hpos : (0 : ℚ) < (r : ℚ) - 1 := sub_pos.2 (by exact_mod_cast hr)
  have hceil : ⌈(excess : ℚ) / ((r : ℚ) - 1)⌉ ≤ (met : ℤ) := by
    rw [Int.ceil_le, div_le_iff₀ hpos, Int.cast_natCast, mul_comm]
    calc (excess : ℚ) ≤ ((r - 1 : ℕ) : ℚ) * met := by exact_mod_cast h
      _ = ((r : ℚ) - 1) * met := by rw [Nat.cast_sub hr.le, Nat.cast_one]
  exact_mod_cast hceil

theorem WellSeated.all_met (h : WellSeated rounds) (hsingle : ∀ round ∈ rounds, round.length = 1)
    {i j : ℕ} (hi : i < (buildMapping rounds).length) (hj : j < (buildMapping rounds).length)
    (halli : rounds.length ≤ rounds.flatten.flatten.count (buildMapping rounds)[i])
    (hallj : rounds.length ≤ rounds.flatten.flatten.count (buildMapping rounds)[j]) :
    timesMet rounds (i, j) = rounds.length := by
  have htables : rounds.flatten.length = rounds.length := by
    rw [List.length_flatten, List.map_congr_left hsingle]
    simp
  have hseated : ∀ k, ∀ hk : k < (buildMapping rounds).length,
      rounds.length ≤ rounds.flatten.flatten.count (buildMapping rounds)[k] →
        ∀ table ∈ rounds.flatten, k ∈ indexed rounds table := by
    intro k hk hall table ht
    have hcount : rounds.flatten.flatten.count (buildMapping rounds)[k] =
        rounds.flatten.countP fun table => decide ((buildMapping rounds)[k] ∈ table) := by
      rw [← h.sizes_length, playerTableSizes, List.length_flatMap, List.count_flatten]
      simp
    rw [hcount, ← htables] at hall
    have hmem := List.countP_eq_length.1 (le_antisymm List.countP_le_length hall) table ht
    have hindex := (mem_indexed ht _).2 (of_decide_eq_true hmem)
    rwa [(nodup_buildMapping rounds).idxOf_getElem] at hindex
  rw [timesMet, ← htables, List.countP_eq_length]
  exact fun table ht => decide_eq_true ⟨hseated i hi halli table ht, hseated j hj hallj table ht⟩

theorem WellSeated.every_round_bound (h : WellSeated rounds)
    (hsingle : ∀ round ∈ rounds, round.length = 1) :
    (buildMapping rounds).countP (fun p =>
          decide (rounds.length ≤ rounds.flatten.flatten.count p)) *
        ((buildMapping rounds).countP (fun p =>
          decide (rounds.length ≤ rounds.flatten.flatten.count p)) - 1) / 2 ≤
      (pairsBelow (buildMapping rounds).length).countP fun ij =>
        decide (rounds.length ≤ timesMet rounds ij) := by
  set mapping := buildMapping rounds with hmapping
  set always := (List.range mapping.length).filter fun i =>
    decide (rounds.length ≤ rounds.flatten.flatten.count ((mapping[i]?).getD "")) with halways
  have hlength : mapping.countP (fun p =>
      decide (rounds.length ≤ rounds.flatten.flatten.count p)) = always.length := by
    rw [halways, ← List.countP_eq_length_filter,
      countP_range_mapping (nodup_buildMapping rounds)]
    refine List.countP_congr fun p hp => ?_
    rw [List.getElem?_idxOf hp, Option.getD_some]
  have hbelow : ∀ i ∈ always, i < mapping.length := fun i hi =>
    List.mem_range.1 (List.mem_filter.1 hi).1
  have hcount : ∀ i, ∀ hi : i < mapping.length, i ∈ always →
      rounds.length ≤ rounds.flatten.flatten.count mapping[i] := by
    intro i hi hmem
    have hle := of_decide_eq_true (List.mem_filter.1 hmem).2
    rwa [List.getElem?_eq_getElem hi, Option.getD_some] at hle
  rw [hlength, ← countP_pairsBelow (List.nodup_range.filter _) hbelow]
  refine List.countP_mono_left fun ij hij hboth => ?_
  obtain ⟨hmemi, hmemj⟩ := of_decide_eq_true hboth
  have hi := hbelow _ hmemi
  have hj := hbelow _ hmemj
  exact decide_eq_true (h.all_met hsingle hi hj (hcount _ hi hmemi) (hcount _ hj hmemj)).ge

theorem WellSeated.fifth_repeats (h : WellSeated rounds) :
    ((List.range (buildMapping rounds).length).flatMap fun i => [3, 4, 5, 6, 7].filter fun seat =>
      decide (1 < (totalMeasure (buildMapping rounds) rounds).get i i seat)).countP
        (fun seat => seat == 7) =
      (buildMapping rounds).countP fun p => decide (1 < fifthSeats rounds p) := by
  rw [range_eq_map_idxOf (nodup_buildMapping rounds), List.flatMap_map, List.countP_flatMap,
    ← Nat.cast_id (List.countP _ _), ← sum_ite_eq_countP]
  refine congrArg List.sum (List.map_congr_left fun p _ => ?_)
  have hfifth : (totalMeasure (buildMapping rounds) rounds).get ((buildMapping rounds).idxOf p)
      ((buildMapping rounds).idxOf p) 7 = (fifthSeats rounds p : ℤ) := h.get_seat p (by decide)
  rw [Function.comp_apply, List.countP_filter]
  simp only [List.countP_cons, List.countP_nil, beq_iff_eq, Bool.and_eq_true]
  simp [hfifth]

theorem countP_le_sum {α : Type} (l : List α) (p : α → Bool) (f : α → ℕ)
    (h : ∀ x ∈ l, p x = true → 0 < f x) : l.countP p ≤ (l.map f).sum := by
  induction l with
  | nil => simp
  | cons x l ih =>
    have hl := ih fun y hy => h y (List.mem_cons_of_mem x hy)
    have hx := h x List.mem_cons_self
    rw [List.countP_cons, List.map_cons, List.sum_cons]
    split_ifs with hpx
    · have hpos := hx hpx
      omega
    · omega

theorem WellSeated.seat_bound (h : WellSeated rounds) :
    ((buildMapping rounds).countP fun p =>
      !(playerTableSizes rounds p).isEmpty &&
        decide (distinctSeats (playerTableSizes rounds p) < (playerTableSizes rounds p).length)) ≤
      ((List.range (buildMapping rounds).length).flatMap fun i => [3, 4, 5, 6, 7].filter fun seat =>
        decide (1 < (totalMeasure (buildMapping rounds) rounds).get i i seat)).length := by
  rw [range_eq_map_idxOf (nodup_buildMapping rounds), List.flatMap_map, List.length_flatMap]
  refine countP_le_sum _ _ _ fun p _ hmore => ?_
  obtain ⟨seat, hseat, htwice⟩ := h.repeats_seat
    (of_decide_eq_true (Bool.and_eq_true_iff.1 hmore).2)
  have hcounter := h.get_seat p hseat
  refine List.length_pos_of_mem (List.mem_filter.2 ⟨?_, decide_eq_true ?_⟩ : seat + 3 ∈ _)
  · simp only [List.mem_cons, List.not_mem_nil, or_false]
    omega
  · rw [hcounter]
    exact_mod_cast htwice

theorem WellSeated.countP_met (h : WellSeated rounds) (hr : 1 < rounds.length) :
    (((pairsBelow (buildMapping rounds).length).filter fun ij =>
      decide (1 < timesMet rounds ij)).countP fun ij => decide ((rounds.length : ℤ) ≤
        (totalMeasure (buildMapping rounds) rounds).get ij.1 ij.2 0)) =
      (pairsBelow (buildMapping rounds).length).countP fun ij =>
        decide (rounds.length ≤ timesMet rounds ij) := by
  rw [List.countP_filter]
  refine List.countP_congr fun ij hij => ?_
  have hlt := (mem_pairsBelow.1 hij).1
  rw [h.get_met (by omega : ij.1 ≠ ij.2), Bool.and_eq_true, decide_eq_true_iff, decide_eq_true_iff,
    decide_eq_true_iff, Nat.cast_le]
  exact ⟨fun hboth => hboth.1, fun hle => ⟨hle, hr.trans_le hle⟩⟩

end Measured

/-! ### The bounds against the score -/

theorem deviation_nonneg {sqrt : ℚ → ℚ} (hsqrt : ∀ x, 0 ≤ x → 0 ≤ sqrt x) (xs : List ℚ) :
    0 ≤ deviation sqrt xs := by
  unfold deviation
  split_ifs
  · exact le_rfl
  · refine hsqrt _ (div_nonneg (List.sum_nonneg fun y hy => ?_) (Nat.cast_nonneg _))
    obtain ⟨x, -, rfl⟩ := List.mem_map.1 hy
    exact sq_nonneg _

theorem countP_le_countP_iff {α : Type} (l : List α) (p q : α → Bool) :
    l.countP p ≤ l.countP q ↔ (l.countP fun x => p x && !q x) ≤ l.countP fun x => q x && !p x := by
  rw [List.countP_eq_countP_filter_add l p q, List.countP_eq_countP_filter_add l q p]
  simp only [List.countP_filter]
  have hboth : (l.countP fun x => p x && q x) = l.countP fun x => q x && p x :=
    List.countP_congr fun x _ => by rw [Bool.and_comm]
  omega

/-- The shown minimum is at most the measured score exactly when the players with more than five
rounds at tables of five who sat fifth at most once are no more than the players without that many
who sat fifth twice. No other rule matters: its bound is below the score on every seating. -/
theorem minimum_le_iff {sqrt : ℚ → ℚ} (hsqrt : ∀ x, 0 ≤ x → 0 ≤ sqrt x)
    {rounds : List (Round String)} (h : WellSeated rounds) :
    List.Forall₂ (· ≤ ·) (computeMinimumViolations rounds) (scoreTotal sqrt rounds).rules ↔
      ((buildMapping rounds).countP fun p =>
          decide (5 < fiveTables rounds p) && !decide (1 < fifthSeats rounds p)) ≤
        (buildMapping rounds).countP fun p =>
          decide (1 < fifthSeats rounds p) && !decide (5 < fiveTables rounds p) := by
  rw [← countP_le_countP_iff]
  have hfive : (buildMapping rounds).countP (fun p =>
      decide (5 < (playerTableSizes rounds p).count 5)) =
        (buildMapping rounds).countP fun p => decide (5 < fiveTables rounds p) := by
    refine List.countP_congr fun p _ => ?_
    rw [h.sizes_count]
    rfl
  unfold computeMinimumViolations scoreTotal scoreMeasure
  simp only [totalMeasure_n, h.filter_met, h.fifth_repeats, hfive]
  by_cases hempty : rounds.length = 0 ∨ (buildMapping rounds).length = 0
  · -- Nobody plays: all bounds are zero.
    have hnobody : buildMapping rounds = [] := by
      rcases hempty with hempty | hempty
      · rw [List.length_eq_zero_iff.1 hempty]
        rfl
      · exact List.length_eq_zero_iff.1 hempty
    have hnopairs : pairsBelow 0 = [] := rfl
    rw [if_pos hempty, hnobody]
    simp [List.replicate_succ, deviation_nonneg hsqrt, hnopairs]
  · rw [if_neg hempty]
    simp only [List.forall₂_cons, List.forall₂_nil_left_iff, and_true, Nat.cast_le]
    constructor
    · rintro ⟨-, -, -, -, hfifth, -⟩
      exact hfifth
    · intro hfifth
      refine ⟨Nat.cast_nonneg _, ?_, deviation_nonneg hsqrt _, ?_, hfifth, Nat.cast_nonneg _,
        h.seat_bound, deviation_nonneg hsqrt _, Nat.cast_nonneg _⟩
      · split_ifs with hsingle
        · rw [h.countP_met hsingle.2]
          refine Nat.cast_le.2 (h.every_round_bound fun round hround => ?_)
          exact eq_of_beq (List.all_eq_true.1 hsingle.1 round hround)
        · exact Nat.cast_nonneg _
      · split_ifs with hmore
        · exact ceil_div_le hmore.2 (h.met_bound hmore.2)
        · exact Nat.cast_nonneg _

/-- Six rounds of one table of five: one player sits fifth twice. -/
def sixRounds : List (Round String) :=
  [[["a", "b", "c", "d", "e"]], [["b", "c", "d", "e", "a"]], [["c", "d", "e", "a", "b"]],
    [["d", "e", "a", "b", "c"]], [["e", "a", "b", "c", "d"]], [["b", "c", "d", "e", "a"]]]

theorem wellSeated_sixRounds : WellSeated sixRounds := by
  unfold WellSeated
  decide

theorem minimum_le_iff_six :
    (∀ x : ℚ, 0 ≤ x → 0 ≤ id x) ∧ WellSeated sixRounds ∧
      (List.Forall₂ (· ≤ ·) (computeMinimumViolations sixRounds) (scoreTotal id sixRounds).rules ↔
        ((buildMapping sixRounds).countP fun p =>
            decide (5 < fiveTables sixRounds p) && !decide (1 < fifthSeats sixRounds p)) ≤
          (buildMapping sixRounds).countP fun p =>
            decide (1 < fifthSeats sixRounds p) && !decide (5 < fiveTables sixRounds p)) :=
  ⟨fun _ => id, wellSeated_sixRounds, minimum_le_iff (fun _ => id) wellSeated_sixRounds⟩

/-- All five players have six rounds at tables of five, one alone sits fifth twice. -/
theorem minimum_not_as_claimed :
    ¬ ∀ (sqrt : ℚ → ℚ) (rounds : List (Round String)), (∀ x, 0 ≤ x → 0 ≤ sqrt x) →
      WellSeated rounds →
        List.Forall₂ (· ≤ ·) (computeMinimumViolations rounds) (scoreTotal sqrt rounds).rules := by
  intro h
  have hall := h id sixRounds (fun _ => id) wellSeated_sixRounds
  have hfive : (computeMinimumViolations sixRounds)[4]? = some 5 := by decide +kernel
  have hone : (scoreTotal id sixRounds).rules[4]? = some 1 := by decide +kernel
  obtain ⟨hbounds, hfive⟩ := List.getElem?_eq_some_iff.1 hfive
  obtain ⟨hrules, hone⟩ := List.getElem?_eq_some_iff.1 hone
  have hle := hall.get hbounds hrules
  rw [List.get_eq_getElem, List.get_eq_getElem, hfive, hone] at hle
  exact absurd hle (by decide)

end Archon.Seating

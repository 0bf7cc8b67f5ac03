import Archon.Seating.Partition
import Archon.Seating.Stagger

/-!
# Cutting a round, step by step (`seating/measure.rs:152-206`)

`build_round` and `build_round_idx` with the steps that could fail: a subtraction of unsigned
numbers that would wrap and a slice out of range are `none`. On the counts that split neither
happens, and the tables are those of `splitTables`; on 6, 7 and 11 the subtraction would wrap.
-/

namespace Archon.Seating

section Cut

variable {α : Type}

/-- Unsigned subtraction, `none` where it would wrap. -/
def checkedSub (a b : ℕ) : Option ℕ := if b ≤ a then some (a - b) else none

/-- `players[start..stop]`, `none` where it would panic. -/
def sliceOf (players : List α) (start stop : ℕ) : Option (List α) :=
  if start ≤ stop ∧ stop ≤ players.length then some ((players.drop start).take (stop - start))
  else none

/-- The state of the two loops: the next player and the tables so far. -/
structure Cutting (α : Type) where
  idx : ℕ
  tables : List (List α)

/-- One pass of the loop that cuts fives. -/
def cutFive (players : List α) (cut : Cutting α) : Option (Cutting α) := do
  let table ← sliceOf players cut.idx (cut.idx + 5)
  return ⟨cut.idx + 5, cut.tables ++ [table]⟩

/-- One pass of the loop that cuts fours, which stops short of the end of the list. -/
def cutFour (players : List α) (cut : Cutting α) : Option (Cutting α) :=
  if cut.idx + 4 ≤ players.length then do
    let table ← sliceOf players cut.idx (cut.idx + 4)
    return ⟨cut.idx + 4, cut.tables ++ [table]⟩
  else some cut

/-- `for _ in 0..count`. -/
def repeatCut (pass : Cutting α → Option (Cutting α)) : ℕ → Cutting α → Option (Cutting α)
  | 0, cut => some cut
  | count + 1, cut => (pass cut).bind (repeatCut pass count)

/-- The body of the two functions. -/
def cutRound (players : List α) : Option (List (List α)) :=
  let count := players.length
  if count < 4 then some []
  else do
    let remainder := count % 5
    let divisor := if remainder = 0 then 5 else remainder
    let fours ← checkedSub 5 divisor
    let seatedAtFives ← checkedSub count (4 * fours)
    let cut ← repeatCut (cutFive players) (seatedAtFives / 5) ⟨0, []⟩
    let cut ← repeatCut (cutFour players) fours cut
    return cut.tables

/-- `measure.rs:152`. -/
def buildRoundSteps (players : List String) : Option (Round String) := cutRound players

/-- `measure.rs:182`: the number of players of the event is not read. -/
def buildRoundIdxSteps (players : List ℕ) (_n : ℕ) : Option (Round ℕ) := cutRound players

/-! ### The loops -/

theorem sliceOf_eq_some {players : List α} {start size : ℕ} (h : start + size ≤ players.length) :
    sliceOf players start (start + size) = some ((players.drop start).take size) := by
  rw [sliceOf, if_pos ⟨Nat.le_add_right _ _, h⟩, Nat.add_sub_cancel_left]

theorem repeatCut_eq_some {players : List α} {size : ℕ} {pass : Cutting α → Option (Cutting α)}
    (hpass : ∀ cut, cut.idx + size ≤ players.length → pass cut =
      some ⟨cut.idx + size, cut.tables ++ [(players.drop cut.idx).take size]⟩) (count : ℕ)
    {cut : Cutting α} (h : cut.idx + size * count ≤ players.length) :
    repeatCut pass count cut = some ⟨cut.idx + size * count,
      cut.tables ++ cutTables (List.replicate count size) (players.drop cut.idx)⟩ := by
  induction count generalizing cut with
  | zero => simp [repeatCut, cutTables]
  | succ count ih =>
    rw [Nat.mul_succ] at h
    have hfits : size ≤ (players.drop cut.idx).length := by
      rw [List.length_drop]
      omega
    have hrest : cut.idx + size + size * count ≤ players.length := by omega
    rw [repeatCut, hpass cut (by omega), Option.bind_some, ih hrest, List.replicate_succ,
      cutTables, if_pos hfits, List.drop_drop, List.append_assoc, List.singleton_append,
      Nat.mul_succ, Nat.add_assoc, Nat.add_comm size]

theorem cutTables_append (first second : List ℕ) (players : List α)
    (h : first.sum ≤ players.length) : cutTables (first ++ second) players =
      cutTables first players ++ cutTables second (players.drop first.sum) := by
  induction first generalizing players with
  | nil => rfl
  | cons size first ih =>
    rw [List.sum_cons] at h
    have hrest : first.sum ≤ (players.drop size).length := by
      rw [List.length_drop]
      omega
    rw [List.cons_append, cutTables, cutTables, if_pos (by omega), if_pos (by omega), ih _ hrest,
      List.cons_append, List.drop_drop, List.sum_cons]

/-! ### The whole round -/

/-- Tables of four for a count. -/
def foursOf (count : ℕ) : ℕ := 5 - if count % 5 = 0 then 5 else count % 5

theorem checkedSub_divisor (count : ℕ) :
    checkedSub 5 (if count % 5 = 0 then 5 else count % 5) = some (foursOf count) := by
  refine if_pos ?_
  split <;> omega

theorem fours_fit {count : ℕ} (h4 : 4 ≤ count) :
    4 * foursOf count ≤ count ↔ isValidTableCount count = true := by
  simp only [foursOf, isValidTableCount, Bool.and_eq_true, decide_eq_true_iff, bne_iff_ne]
  split <;> omega

theorem seats_exact {count : ℕ} (hfit : 4 * foursOf count ≤ count) :
    5 * ((count - 4 * foursOf count) / 5) + 4 * foursOf count = count := by
  revert hfit
  simp only [foursOf]
  split <;> omega

theorem cutRound_eq_some {players : List α}
    (h : isValidTableCount players.length = true) :
    cutRound players = some (splitTables players) := by
  have h4 : 4 ≤ players.length := (splits_of_isValid h).1
  have hfit := (fours_fit h4).2 h
  have hexact := seats_exact hfit
  set fours := foursOf players.length with hfours
  set fives := (players.length - 4 * fours) / 5 with hfives
  have hseated : 5 * fives ≤ players.length := Nat.le_of_add_right_le hexact.le
  have hfive : ∀ cut : Cutting α, cut.idx + 5 ≤ players.length → cutFive players cut =
      some ⟨cut.idx + 5, cut.tables ++ [(players.drop cut.idx).take 5]⟩ := by
    intro cut hcut
    rw [cutFive, sliceOf_eq_some hcut]
    rfl
  have hfivesLoop : repeatCut (cutFive players) fives ⟨0, []⟩ =
      some ⟨5 * fives, cutTables (List.replicate fives 5) players⟩ := by
    have hstart : (Cutting.mk 0 ([] : List (List α))).idx + 5 * fives ≤ players.length := by
      rwa [Nat.zero_add]
    rw [repeatCut_eq_some hfive fives hstart]
    simp
  have hfoursLoop : repeatCut (cutFour players) fours
      ⟨5 * fives, cutTables (List.replicate fives 5) players⟩ =
      some ⟨5 * fives + 4 * fours, cutTables (List.replicate fives 5) players ++
        cutTables (List.replicate fours 4) (players.drop (5 * fives))⟩ := by
    refine repeatCut_eq_some ?_ fours hexact.le
    intro cut hcut
    rw [cutFour, if_pos hcut, sliceOf_eq_some hcut]
    rfl
  have hsum : (List.replicate fives 5).sum = 5 * fives := by
    rw [List.sum_replicate, smul_eq_mul, Nat.mul_comm]
  have hsumle : (List.replicate fives 5).sum ≤ players.length := hsum.trans_le hseated
  have hsizes : tableSizes players.length = List.replicate fives 5 ++ List.replicate fours 4 := rfl
  have hsub : checkedSub players.length (4 * fours) = some (players.length - 4 * fours) :=
    if_pos hfit
  rw [splitTables, if_neg (by omega), hsizes,
    cutTables_append _ _ _ hsumle, hsum]
  simp only [cutRound, if_neg (Nat.not_lt.2 h4), checkedSub_divisor, ← hfours, hsub,
    Option.bind_eq_bind, Option.bind_some, ← hfives, hfivesLoop, hfoursLoop]
  rfl

end Cut

/-- The tables a count that splits is cut into: all players in order, at tables of four and
five. -/
def CutsInOrder {α : Type} (players : List α) (outcome : Option (List (List α))) : Prop :=
  ∃ tables, outcome = some tables ∧ tables.flatten = players ∧
    ∀ table ∈ tables, table.length = 4 ∨ table.length = 5

theorem cutRound_cutsInOrder {α : Type} {players : List α}
    (h : isValidTableCount players.length = true) : CutsInOrder players (cutRound players) := by
  obtain ⟨h4, h6, h7, h11⟩ := splits_of_isValid h
  exact ⟨splitTables players, cutRound_eq_some h, splitTables_flatten h4 h6 h7 h11,
    fun table ht => length_of_mem_splitTables ht⟩

theorem buildRoundIdxSteps_idxOf (players : List String) (mapping : List String) (n : ℕ)
    (h : isValidTableCount players.length = true) :
    buildRoundIdxSteps (players.map mapping.idxOf) n =
      (buildRoundSteps players).map (toIndices mapping) := by
  have hmap : isValidTableCount (players.map mapping.idxOf).length = true := by
    rwa [List.length_map]
  rw [buildRoundIdxSteps, buildRoundSteps, cutRound_eq_some hmap, cutRound_eq_some h,
    splitTables_map]
  rfl

/-- Every count made of fours and fives, and no other, is valid, and the players of a valid count
are cut in order into tables of four and five, with no step that fails. -/
theorem table_splitting (n : ℕ) :
    (isValidTableCount n = true ↔ ∃ fours fives, n = 4 * fours + 5 * fives ∧
      (fours ≠ 0 ∨ fives ≠ 0)) ∧
    (isValidTableCount n = true →
      (∀ players : List String, players.length = n →
        CutsInOrder players (buildRoundSteps players)) ∧
      ∀ (players : List ℕ) (total : ℕ), players.length = n →
        CutsInOrder players (buildRoundIdxSteps players total)) := by
  refine ⟨?_, fun h => ⟨?_, ?_⟩⟩
  · simp only [isValidTableCount_iff, Nat.pos_iff_ne_zero, ne_eq, Nat.add_eq_zero_iff, not_and_or]
  · rintro players rfl
    exact cutRound_cutsInOrder h
  · rintro players total rfl
    exact cutRound_cutsInOrder h

theorem table_splitting_nine :
    CutsInOrder ["a", "b", "c", "d", "e", "f", "g", "h", "i"]
      (buildRoundSteps ["a", "b", "c", "d", "e", "f", "g", "h", "i"]) :=
  ((table_splitting 9).2 (by decide)).1 _ rfl

end Archon.Seating

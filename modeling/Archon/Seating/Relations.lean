import Mathlib.Algebra.Order.BigOperators.Group.List
import Archon.Seating.Relabel

/-!
# Who sits after whom (`seating/measure.rs`)

The counters of a pair of players, read back from the rounds: the prey counter of two players is
the number of seats one of them takes right after the other at tables of four and five, whatever
else the rounds hold.
-/

namespace Archon.Seating

/-! ### Pursuit -/

section Pursuit

variable {α β : Type} [DecidableEq α] [DecidableEq β]

/-- The seats of a table of four or five where `b` comes right after `a`, around the table. -/
def follows (a b : α) (table : List α) : ℕ :=
  if table.length = 4 ∨ table.length = 5 then
    (List.range table.length).countP fun seat =>
      decide (table[seat]? = some a ∧ table[(seat + 1) % table.length]? = some b)
  else 0

theorem follows_map {f : α → β} {a b : α} {table : List α}
    (hf : ∀ x ∈ table, (f x = f a ↔ x = a) ∧ (f x = f b ↔ x = b)) :
    follows (f a) (f b) (table.map f) = follows a b table := by
  unfold follows
  rw [List.length_map]
  split_ifs with hsize
  · refine List.countP_congr fun seat _ => ?_
    have hseat : ∀ (s : ℕ) (c : α), (∀ x ∈ table, f x = f c ↔ x = c) →
        ((table.map f)[s]? = some (f c) ↔ table[s]? = some c) := by
      intro s c hc
      rw [List.getElem?_map, Option.map_eq_some_iff]
      constructor
      · rintro ⟨x, hx, hfx⟩
        rw [hx, (hc x (List.mem_of_getElem? hx)).1 hfx]
      · exact fun h => ⟨c, h, rfl⟩
    rw [decide_eq_true_iff, decide_eq_true_iff, hseat seat a fun x hx => (hf x hx).1,
      hseat _ b fun x hx => (hf x hx).2]
  · rfl

theorem follows_le_one {a b : α} {table : List α} (h : table.Nodup) : follows a b table ≤ 1 := by
  unfold follows
  split_ifs with hsize
  · have hseat : ∀ seat, table[seat]? = some a → seat = table.idxOf a := by
      intro seat hseat
      obtain ⟨hlt, rfl⟩ := List.getElem?_eq_some_iff.1 hseat
      exact (h.idxOf_getElem seat hlt).symm
    have hone : (List.range table.length).count (table.idxOf a) ≤ 1 :=
      List.nodup_iff_count_le_one.1 List.nodup_range _
    refine le_trans (List.countP_mono_left fun seat _ hfollows => ?_) hone
    rw [hseat seat (of_decide_eq_true hfollows).1]
    exact beq_self_eq_true _
  · exact Nat.zero_le 1

end Pursuit

theorem tableSum_prey {a b : ℕ} (hab : a ≠ b) (table : List ℕ) :
    tableSum a b 1 table = follows a b table := by
  have hsides : ∀ x y, (x = a ∧ y = b) = (a = x ∧ b = y) := fun x y =>
    propext (and_congr eq_comm eq_comm)
  by_cases hsize : table.length = 4 ∨ table.length = 5
  · rw [tableSum_eq_facing hab 1 hsize, follows, if_pos hsize]
    rcases table with _ | ⟨p, _ | ⟨q, _ | ⟨r, _ | ⟨s, _ | ⟨t, _ | ⟨u, rest⟩⟩⟩⟩⟩⟩
    · simp at hsize
    · simp at hsize
    · simp at hsize
    · simp at hsize
    · simp [List.range_succ, facing, opponentVectors, List.countP_cons, hsides]
      ring
    · simp [List.range_succ, facing, opponentVectors, List.countP_cons, hsides]
      ring
    · simp only [List.length_cons] at hsize
      omega
  · unfold tableSum contributions
    rw [if_neg hsize, follows, if_neg hsize]
    rfl

theorem tableSum_predator {a b : ℕ} (hab : a ≠ b) (table : List ℕ) :
    tableSum a b 4 table = follows b a table := by
  rw [← tableSum_prey hab.symm, tableSum_mirror hab]
  rfl

/-! ### The counters over the rounds -/

theorem foldl_setVec_get {a b : ℕ} (hab : a ≠ b) (k : ℕ) (cs : List Contribution) (m : Measure)
    (hown : ∀ c ∈ cs, c.own = true → c.j = c.i) :
    (cs.foldl (fun m c => if c.own then m.setVec c.i c.j c.vec else m.addVec c.i c.j c.vec)
      m).get a b k = m.get a b k + (cs.map fun c => c.cell a b k).sum := by
  induction cs generalizing m with
  | nil => simp
  | cons c cs ih =>
    rw [List.foldl_cons, ih _ fun d hd => hown d (List.mem_cons_of_mem c hd), List.map_cons,
      List.sum_cons, ← add_assoc]
    congr 1
    cases hc : c.own with
    | false => exact addVec_get m c a b k
    | true =>
      have hj := hown c List.mem_cons_self hc
      have hother : ¬(a = c.i ∧ b = c.j) := fun h => hab (h.1.trans (hj ▸ h.2.symm))
      show (m.setVec c.i c.j c.vec).get a b k = _
      rw [Contribution.cell, if_neg hother, add_zero]
      exact if_neg hother

theorem measureRound_get {mapping : List String} {a b : ℕ} (hab : a ≠ b) (k : ℕ)
    (round : Round String) : (measureRound mapping round).get a b k =
      roundSum a b k (toIndices mapping round) := by
  rw [measureRound, foldl_setVec_get hab k]
  · rw [show (Measure.zero mapping.length).get a b k = 0 from rfl, zero_add, roundSum,
      List.map_flatMap, List.flatMap_def, List.sum_flatten, List.map_map]
    rfl
  · intro c hc hown
    obtain ⟨table, -, hc⟩ := List.mem_flatMap.1 hc
    obtain ⟨-, -, -, ⟨-, hj⟩ | ⟨hother, -⟩⟩ := mem_contributions hc
    · exact hj
    · rw [hown] at hother
      cases hother

theorem totalMeasure_sum (mapping : List String) (rounds : List (Round String)) (a b k : ℕ) :
    (totalMeasure mapping rounds).get a b k =
      (rounds.map fun round => (measureRound mapping round).get a b k).sum := by
  have hfold : ∀ m : Measure,
      (rounds.foldl (fun acc r => acc.add (measureRound mapping r)) m).get a b k =
        m.get a b k + (rounds.map fun r => (measureRound mapping r).get a b k).sum := by
    induction rounds with
    | nil => exact fun m => (add_zero _).symm
    | cons r rounds ih =>
      intro m
      rw [List.foldl_cons, ih, List.map_cons, List.sum_cons, ← add_assoc]
      rfl
  rw [totalMeasure, hfold, show (Measure.zero mapping.length).get a b k = 0 from rfl, zero_add]

theorem totalMeasure_n (mapping : List String) (rounds : List (Round String)) :
    (totalMeasure mapping rounds).n = mapping.length := by
  have hfold : ∀ m : Measure,
      (rounds.foldl (fun acc r => acc.add (measureRound mapping r)) m).n = m.n := by
    induction rounds with
    | nil => exact fun _ => rfl
    | cons r rounds ih => exact fun m => ih _
  exact hfold _

theorem totalMeasure_get {mapping : List String} {a b : ℕ} (hab : a ≠ b) (k : ℕ)
    (rounds : List (Round String)) : (totalMeasure mapping rounds).get a b k =
      (rounds.map fun round => roundSum a b k (toIndices mapping round)).sum := by
  rw [totalMeasure_sum]
  exact congrArg List.sum (List.map_congr_left fun round _ => measureRound_get hab k round)

/-! ### Who plays -/

theorem contributions_head {table : List ℕ} {c : Contribution} (h : c ∈ contributions table) :
    (c.vec[0]?).getD 0 = 1 := by
  have hown : (∀ seat < 4, (((((positionVectors 4)[seat]?).getD [])[0]?).getD 0 = 1)) ∧
      ∀ seat < 5, (((((positionVectors 5)[seat]?).getD [])[0]?).getD 0 = 1) := by decide
  have hopponent : (∀ rel < 3, facing 4 rel 0 = 1) ∧ ∀ rel < 4, facing 5 rel 0 = 1 := by decide
  unfold contributions at h
  dsimp only at h
  split at h
  · rename_i hsize
    obtain ⟨⟨p, seat⟩, hseat, hc⟩ := List.mem_flatMap.1 h
    have hlt : seat < table.length := by
      obtain ⟨-, hlt, -⟩ := List.mem_zipIdx hseat
      omega
    rcases List.mem_cons.1 hc with rfl | hc
    · rcases hsize with hsize | hsize
      · rw [hsize] at hlt ⊢
        exact hown.1 seat hlt
      · rw [hsize] at hlt ⊢
        exact hown.2 seat hlt
    · obtain ⟨rel, hrel, rfl⟩ := List.mem_map.1 hc
      rw [List.mem_range] at hrel
      rcases hsize with hsize | hsize
      · rw [hsize] at hrel ⊢
        exact hopponent.1 rel hrel
      · rw [hsize] at hrel ⊢
        exact hopponent.2 rel hrel
  · cases h

theorem foldl_own_pos {i : ℕ} (cs : List Contribution) (m : Measure)
    (hhead : ∀ c ∈ cs, (c.vec[0]?).getD 0 = 1) (hzero : 0 ≤ m.get i i 0) :
    0 ≤ (cs.foldl (fun m c => if c.own then m.setVec c.i c.j c.vec else m.addVec c.i c.j c.vec)
        m).get i i 0 ∧
      ((0 < m.get i i 0 ∨ ∃ c ∈ cs, c.own = true ∧ c.i = i ∧ c.j = i) →
        0 < (cs.foldl (fun m c => if c.own then m.setVec c.i c.j c.vec else
          m.addVec c.i c.j c.vec) m).get i i 0) := by
  induction cs generalizing m with
  | nil => exact ⟨hzero, fun h => h.resolve_right (by simp)⟩
  | cons c cs ih =>
    have hc := hhead c List.mem_cons_self
    obtain ⟨m', hm'⟩ : ∃ m', m' = if c.own then m.setVec c.i c.j c.vec else
        m.addVec c.i c.j c.vec := ⟨_, rfl⟩
    have hcell : m'.get i i 0 = if i = c.i ∧ i = c.j then
        (if c.own = true then 1 else m.get i i 0 + 1) else m.get i i 0 := by
      rw [hm']
      cases hown : c.own with
      | false =>
        show (m.addVec c.i c.j c.vec).get i i 0 = _
        unfold Measure.addVec Measure.updateVec
        simp [hc]
      | true =>
        show (m.setVec c.i c.j c.vec).get i i 0 = _
        unfold Measure.setVec Measure.updateVec
        simp [hc]
    have hpos : 0 < m.get i i 0 ∨ (c.own = true ∧ c.i = i ∧ c.j = i) → 0 < m'.get i i 0 := by
      rw [hcell]
      rintro (hpos | ⟨hown, rfl, hj⟩)
      · split_ifs <;> omega
      · rw [if_pos ⟨rfl, hj.symm⟩, if_pos hown]
        exact zero_lt_one
    have hzero' : 0 ≤ m'.get i i 0 := by
      rw [hcell]
      split_ifs <;> omega
    obtain ⟨hge, hgt⟩ := ih m' (fun d hd => hhead d (List.mem_cons_of_mem c hd)) hzero'
    rw [List.foldl_cons, ← hm']
    refine ⟨hge, fun h => hgt ?_⟩
    rcases h with h | ⟨d, hd, hdown⟩
    · exact .inl (hpos (.inl h))
    · rcases List.mem_cons.1 hd with rfl | hd
      · exact .inl (hpos (.inr hdown))
      · exact .inr ⟨d, hd, hdown⟩

theorem own_mem {table : List ℕ} {p : ℕ} (hsize : table.length = 4 ∨ table.length = 5)
    (hp : p ∈ table) : ∃ c ∈ contributions table, c.own = true ∧ c.i = p ∧ c.j = p := by
  obtain ⟨seat, hseat, rfl⟩ := List.getElem_of_mem hp
  unfold contributions
  rw [if_pos hsize]
  refine ⟨_, List.mem_flatMap.2 ⟨(table[seat], seat), ?_, List.mem_cons_self⟩, rfl, rfl, rfl⟩
  rw [List.mk_mem_zipIdx_iff_getElem?, List.getElem?_eq_getElem hseat]

theorem measureRound_own (mapping : List String) (round : Round String) (i : ℕ) :
    0 ≤ (measureRound mapping round).get i i 0 ∧
      ((∃ table ∈ round, (table.length = 4 ∨ table.length = 5) ∧
        ∃ p ∈ table, mapping.idxOf p = i) → 0 < (measureRound mapping round).get i i 0) := by
  have hhead : ∀ c ∈ (toIndices mapping round).flatMap contributions,
      (c.vec[0]?).getD 0 = 1 := by
    intro c hc
    obtain ⟨table, -, hc⟩ := List.mem_flatMap.1 hc
    exact contributions_head hc
  obtain ⟨hge, hgt⟩ := foldl_own_pos (i := i) _ (Measure.zero mapping.length) hhead le_rfl
  refine ⟨hge, ?_⟩
  rintro ⟨table, htable, hsize, p, hp, rfl⟩
  refine hgt (.inr ?_)
  obtain ⟨c, hc, hown⟩ := @own_mem (table.map fun p => mapping.idxOf p) _
    (by rwa [List.length_map]) (List.mem_map_of_mem hp)
  exact ⟨c, List.mem_flatMap.2 ⟨_, List.mem_map_of_mem htable, hc⟩, hown⟩

theorem totalMeasure_own {mapping : List String} {rounds : List (Round String)}
    {round : Round String} {table : List String} {p : String} (hround : round ∈ rounds)
    (htable : table ∈ round) (hsize : table.length = 4 ∨ table.length = 5) (hp : p ∈ table) :
    0 < (totalMeasure mapping rounds).get (mapping.idxOf p) (mapping.idxOf p) 0 := by
  have hpos := (measureRound_own mapping round (mapping.idxOf p)).2
    ⟨table, htable, hsize, p, hp, rfl⟩
  rw [totalMeasure_sum]
  refine hpos.trans_le (List.single_le_sum (fun x hx => ?_) _ (List.mem_map_of_mem hround))
  obtain ⟨r, -, rfl⟩ := List.mem_map.1 hx
  exact (measureRound_own mapping r _).1

/-! ### Prey and predator over the rounds -/

theorem mem_pairsBelow {n : ℕ} {ij : ℕ × ℕ} : ij ∈ pairsBelow n ↔ ij.2 < ij.1 ∧ ij.1 < n := by
  obtain ⟨i, j⟩ := ij
  simp [pairsBelow, and_comm]

/-- Seats where `b` comes right after `a`, over all rounds. -/
def pursuits (rounds : List (Round String)) (a b : String) : ℕ :=
  (rounds.flatten.map (follows a b)).sum

theorem totalMeasure_prey {rounds : List (Round String)} {a b : String}
    (ha : a ∈ buildMapping rounds) (hab : a ≠ b) :
    (totalMeasure (buildMapping rounds) rounds).get ((buildMapping rounds).idxOf a)
      ((buildMapping rounds).idxOf b) 1 = pursuits rounds a b := by
  have hidx : (buildMapping rounds).idxOf a ≠ (buildMapping rounds).idxOf b :=
    fun h => hab ((List.idxOf_inj ha).1 h)
  have htable : ∀ round ∈ rounds, ∀ table ∈ round,
      tableSum ((buildMapping rounds).idxOf a) ((buildMapping rounds).idxOf b) 1
        (table.map fun p => (buildMapping rounds).idxOf p) = follows a b table := by
    intro round hround table htable
    have hfollows := @follows_map _ _ _ _ (fun p => (buildMapping rounds).idxOf p) a b table
      fun x hx => by
        have hmem := mem_buildMapping hround (List.mem_flatten.2 ⟨table, htable, hx⟩)
        exact ⟨List.idxOf_inj hmem, List.idxOf_inj hmem⟩
    rw [tableSum_prey hidx, hfollows]
  rw [totalMeasure_get hidx, pursuits, List.map_flatten, List.sum_flatten, List.map_map,
    Nat.cast_list_sum, List.map_map]
  refine congrArg List.sum (List.map_congr_left fun round hround => ?_)
  rw [roundSum, toIndices, List.map_map, Function.comp_apply, Function.comp_apply,
    Nat.cast_list_sum, List.map_map]
  exact congrArg List.sum (List.map_congr_left fun table ht => htable round hround table ht)

end Archon.Seating

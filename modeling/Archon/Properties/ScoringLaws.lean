import Mathlib.Data.Fin.VecNotation
import Mathlib.Data.Fintype.Basic
import Mathlib.Data.List.FinRange
import Mathlib.Data.List.NodupEquivFin
import Archon.Engine.Scoring
import Archon.Library.Ranking

/-!
# The laws of scoring a table

Tournament points go by place, ties sharing the points of their places; a game win goes to a seat
alone at the top with two points, in the finals to the best seat by points and seed. All of it is
the same in every order of the seats.
-/

namespace Archon.Engine
open TieShares

/-! ### The laws -/

section Laws

variable {n : ℕ} (vp adjustment : Fin n → ℚ)

/-- The points a seat is ranked by. -/
def rankedVp (i : Fin n) : ℚ := vp i + adjustment i

/-- The tournament points of the seats. -/
def seatTps : List ℚ := computeTp n (List.ofFn vp) (List.ofFn adjustment)

def seatGws : List ℚ := computeGw (List.ofFn vp) (List.ofFn adjustment)

def finalsSeatGws (uids : Fin n → Uid) (seedOrder : List Uid) : List ℚ :=
  computeGwFinals (List.ofFn vp) (List.ofFn adjustment) (List.ofFn uids) seedOrder

/-- The mean of the base points of the places a seat and those level with it take. -/
def placePoints (i : Fin n) : ℚ :=
  share (baseTp n) ((List.ofFn (rankedVp vp adjustment)).countP fun v =>
    decide (rankedVp vp adjustment i < v))
    ((List.ofFn (rankedVp vp adjustment)).countP fun v => decide (v = rankedVp vp adjustment i))

/-- A seat with at least two points, and alone at the top. -/
def WinsGame (i : Fin n) : Prop :=
  2 ≤ rankedVp vp adjustment i ∧ ∀ j ≠ i, rankedVp vp adjustment j < rankedVp vp adjustment i

/-- The best seat by points, then by seed. -/
def WinsFinals (seed : Fin n → ℕ) (i : Fin n) : Prop :=
  ∀ j ≠ i, rankedVp vp adjustment j < rankedVp vp adjustment i ∨
    rankedVp vp adjustment j = rankedVp vp adjustment i ∧ seed i < seed j

/-- Tournament points by place, game wins to the top. -/
structure ScoredFairly : Prop where
  places : seatTps vp adjustment = List.ofFn (placePoints vp adjustment)
  level : ∀ i j, rankedVp vp adjustment i = rankedVp vp adjustment j →
    placePoints vp adjustment i = placePoints vp adjustment j
  higher : ∀ i j, rankedVp vp adjustment i < rankedVp vp adjustment j →
    placePoints vp adjustment i ≤ placePoints vp adjustment j
  sum : (seatTps vp adjustment).sum = (baseTp n).sum
  wins : ∀ i : Fin n, ((seatGws vp adjustment)[i]? = some 1 ∧ WinsGame vp adjustment i) ∨
    ((seatGws vp adjustment)[i]? = some 0 ∧ ¬ WinsGame vp adjustment i)
  oneWin : ∀ i j, WinsGame vp adjustment i → WinsGame vp adjustment j → i = j

/-- The points move with the seats. -/
structure MovesWithSeats (σ : Equiv.Perm (Fin n)) : Prop where
  seatTps : ∀ i : Fin n, (seatTps (vp ∘ σ) (adjustment ∘ σ))[i]? = (seatTps vp adjustment)[σ i]?
  seatGws : ∀ i : Fin n, (seatGws (vp ∘ σ) (adjustment ∘ σ))[i]? = (seatGws vp adjustment)[σ i]?

end Laws

/-! ### Tournament points -/

theorem awardTp_eq (base : List ℚ) (place : ℕ) (groups : List (List (ℕ × ℚ))) :
    awardTp base place groups = (award base place groups).map fun x => (x.1.1, x.2) := by
  induction groups generalizing place with
  | nil => rfl
  | cons g groups ih =>
    rw [awardTp, award, List.map_append, List.map_map, ih]
    rfl

theorem adjustedVps_ofFn {n : ℕ} (vp adjustment : Fin n → ℚ) :
    adjustedVps (List.ofFn vp) (List.ofFn adjustment) = List.ofFn (rankedVp vp adjustment) := by
  refine List.ext_getElem (by simp [adjustedVps]) fun i h₁ h₂ => ?_
  simp [adjustedVps, rankedVp]

/-- The seats of a table in the order of their points, as the loop over the groups reads them. -/
def rankedSeats (totals : List ℚ) : List (ℕ × ℚ) :=
  (totals.zipIdx.map fun ai => (ai.2, ai.1)).insertionSort fun a b => b.2 ≤ a.2

theorem mem_rankedSeats {totals : List ℚ} {x : ℕ × ℚ} :
    x ∈ rankedSeats totals ↔ totals[x.1]? = some x.2 := by
  obtain ⟨i, v⟩ := x
  rw [rankedSeats, List.mem_insertionSort, List.mem_map]
  constructor
  · rintro ⟨⟨a, k⟩, hak, heq⟩
    cases heq
    exact List.mk_mem_zipIdx_iff_getElem?.1 hak
  · exact fun h => ⟨(v, i), List.mk_mem_zipIdx_iff_getElem?.2 h, rfl⟩

theorem countP_rankedSeats (totals : List ℚ) (p : ℚ → Bool) :
    (rankedSeats totals).countP (fun x => p x.2) = totals.countP p := by
  rw [rankedSeats, (List.perm_insertionSort _ _).countP_eq, List.countP_map]
  conv_rhs => rw [← List.zipIdx_map_fst 0 totals, List.countP_map]
  rfl

theorem falls_rankedSeats (totals : List ℚ) :
    Falls Prod.snd ((rankedSeats totals).splitBy fun a b => a.2 == b.2) := by
  have hranked : (rankedSeats totals).Pairwise fun a b => b.2 ≤ a.2 := by
    have htotal : Std.Total fun a b : ℕ × ℚ => b.2 ≤ a.2 := ⟨fun a b => le_total b.2 a.2⟩
    have htrans : IsTrans (ℕ × ℚ) fun a b => b.2 ≤ a.2 := ⟨fun a b c h h' => h'.trans h⟩
    exact List.pairwise_insertionSort _ _
  exact falls_splitBy (fun a b => beq_iff_eq) hranked

theorem award_rankedSeats (base totals : List ℚ) :
    award base 0 ((rankedSeats totals).splitBy fun a b => a.2 == b.2) =
      (rankedSeats totals).map fun x =>
        (x, share base (totals.countP fun a => decide (x.2 < a))
          (totals.countP fun a => decide (a = x.2))) := by
  rw [award_eq _ (falls_rankedSeats totals), List.flatten_splitBy]
  refine List.map_congr_left fun x _ => ?_
  rw [Nat.zero_add, countP_rankedSeats totals fun a => decide (x.2 < a),
    countP_rankedSeats totals fun a => decide (a = x.2)]

theorem computeTp_eq {n : ℕ} (hn : n = 4 ∨ n = 5) {vps adjustments : List ℚ}
    (hvps : vps.length = n) (hadjustments : adjustments.length = n) :
    computeTp n vps adjustments = (adjustedVps vps adjustments).map fun v =>
      share (baseTp n) ((adjustedVps vps adjustments).countP fun a => decide (v < a))
        ((adjustedVps vps adjustments).countP fun a => decide (a = v)) := by
  obtain ⟨totals, htotals⟩ : ∃ totals, adjustedVps vps adjustments = totals := ⟨_, rfl⟩
  have hlength : totals.length = n := by
    rw [← htotals, adjustedVps, List.length_zipWith, hvps, hadjustments, Nat.min_self]
  have hawarded : awardTp (baseTp n) 0 ((rankedSeats totals).splitBy fun a b => a.2 == b.2) =
      (rankedSeats totals).map fun x =>
        (x.1, share (baseTp n) (totals.countP fun a => decide (x.2 < a))
          (totals.countP fun a => decide (a = x.2))) := by
    rw [awardTp_eq, award_rankedSeats, List.map_map]
    rfl
  rw [computeTp, if_pos hn, htotals]
  change (List.range vps.length).map (fun i => ((List.find? (fun ia => ia.1 == i)
    (awardTp (baseTp n) 0 ((rankedSeats totals).splitBy fun a b => a.2 == b.2))).map
      Prod.snd).getD 0) = _
  rw [hawarded]
  refine List.ext_getElem (by simp [hvps, hlength]) fun i h₁ h₂ => ?_
  have hi : i < totals.length := by simpa using h₂
  rw [List.getElem_map, List.getElem_range, List.getElem_map, List.find?_map]
  have hseat : (i, totals[i]) ∈ rankedSeats totals :=
    mem_rankedSeats.2 (List.getElem?_eq_getElem hi)
  cases hfound : (rankedSeats totals).find? ((fun ia : ℕ × ℚ => ia.1 == i) ∘ fun x =>
      (x.1, share (baseTp n) (totals.countP fun a => decide (x.2 < a))
        (totals.countP fun a => decide (a = x.2)))) with
  | none => exact absurd (List.find?_eq_none.1 hfound _ hseat) (by simp)
  | some x =>
    have hx := mem_rankedSeats.1 (List.mem_of_find?_eq_some hfound)
    have hkey : x.1 = i := by simpa using List.find?_some hfound
    rw [hkey, List.getElem?_eq_getElem hi, Option.some.injEq] at hx
    rw [Option.map_some, Option.map_some, Option.getD_some, hx]

section Tables

variable {n : ℕ} {vp adjustment : Fin n → ℚ}

theorem seatTps_eq (hn : n = 4 ∨ n = 5) :
    seatTps vp adjustment = List.ofFn (placePoints vp adjustment) := by
  rw [seatTps, computeTp_eq hn List.length_ofFn List.length_ofFn, adjustedVps_ofFn, List.map_ofFn]
  rfl

theorem placePoints_of_level {i j : Fin n}
    (h : rankedVp vp adjustment i = rankedVp vp adjustment j) :
    placePoints vp adjustment i = placePoints vp adjustment j := by
  rw [placePoints, placePoints, h]

theorem baseTp_falls (hn : n = 4 ∨ n = 5) : (baseTp n).Pairwise fun a b => b ≤ a := by
  rcases hn with rfl | rfl <;> decide +kernel

theorem length_baseTp (hn : n = 4 ∨ n = 5) : (baseTp n).length = n := by
  rcases hn with rfl | rfl <;> rfl

theorem countP_above_level (totals : List ℚ) (v : ℚ) :
    totals.countP (fun a => decide (v < a)) + totals.countP (fun a => decide (a = v)) ≤
      totals.length := by
  induction totals with
  | nil => exact le_rfl
  | cons a totals ih =>
    rw [List.countP_cons, List.countP_cons, List.length_cons]
    by_cases hlevel : a = v
    · simp only [hlevel, lt_irrefl, decide_false, decide_true, if_true, Bool.false_eq_true,
        if_false]
      omega
    · simp only [hlevel, decide_false, Bool.false_eq_true, if_false]
      split <;> omega

theorem countP_above_better (totals : List ℚ) {v w : ℚ} (h : v < w) :
    totals.countP (fun a => decide (w < a)) + totals.countP (fun a => decide (a = w)) ≤
      totals.countP (fun a => decide (v < a)) := by
  induction totals with
  | nil => exact le_rfl
  | cons a totals ih =>
    rw [List.countP_cons, List.countP_cons, List.countP_cons]
    by_cases hlevel : a = w
    · simp only [hlevel, lt_irrefl, h, decide_false, decide_true, if_true, Bool.false_eq_true,
        if_false]
      omega
    · by_cases habove : w < a
      · simp only [hlevel, habove, h.trans habove, decide_false, decide_true, if_true,
          Bool.false_eq_true, if_false]
        omega
      · simp only [hlevel, habove, decide_false, Bool.false_eq_true, if_false]
        omega

theorem countP_own (i : Fin n) :
    0 < (List.ofFn (rankedVp vp adjustment)).countP
      fun v => decide (v = rankedVp vp adjustment i) :=
  List.countP_pos_iff.2 ⟨rankedVp vp adjustment i, List.mem_ofFn.2 ⟨i, rfl⟩, decide_eq_true rfl⟩

theorem placePoints_of_higher (hn : n = 4 ∨ n = 5) {i j : Fin n}
    (h : rankedVp vp adjustment i < rankedVp vp adjustment j) :
    placePoints vp adjustment i ≤ placePoints vp adjustment j := by
  have hplaces := countP_above_level (List.ofFn (rankedVp vp adjustment)) (rankedVp vp adjustment i)
  rw [List.length_ofFn] at hplaces
  exact share_le_share (baseTp_falls hn) (countP_own j) (countP_own i) (countP_above_better _ h)
    (hplaces.trans_eq (length_baseTp hn).symm)

theorem map_rankedSeats (totals : List ℚ) :
    ((rankedSeats totals).map Prod.snd).Perm totals := by
  have hperm := (List.perm_insertionSort (fun a b : ℕ × ℚ => b.2 ≤ a.2)
    (totals.zipIdx.map fun ai => (ai.2, ai.1))).map Prod.snd
  rw [List.map_map] at hperm
  exact hperm.trans (List.Perm.of_eq (List.zipIdx_map_fst 0 totals))

theorem sum_seatTps (hn : n = 4 ∨ n = 5) : (seatTps vp adjustment).sum = (baseTp n).sum := by
  obtain ⟨totals, htotals⟩ : ∃ totals, List.ofFn (rankedVp vp adjustment) = totals := ⟨_, rfl⟩
  have hlength : totals.length = n := by rw [← htotals, List.length_ofFn]
  have hgroups : ∀ g ∈ (rankedSeats totals).splitBy fun a b => a.2 == b.2, g ≠ [] :=
    fun g hg => List.ne_nil_of_mem_splitBy hg
  have hsum := @sum_award _ (baseTp n) _ hgroups 0
  have hranked : (rankedSeats totals).length = n := by
    rw [← hlength, ← (map_rankedSeats totals).length_eq, List.length_map]
  rw [award_rankedSeats, List.map_map, List.flatten_splitBy, hranked, List.drop_zero,
    List.take_of_length_le (length_baseTp hn).le] at hsum
  rw [← hsum, seatTps, computeTp_eq hn List.length_ofFn List.length_ofFn, adjustedVps_ofFn, htotals,
    ← ((map_rankedSeats totals).map _).sum_eq, List.map_map]
  rfl

/-! ### Game wins -/

theorem count_ofFn_eq_one (f : Fin n → ℚ) (i : Fin n) :
    (List.ofFn f).count (f i) = 1 ↔ ∀ j ≠ i, f j ≠ f i := by
  have hmem : f i ∈ List.ofFn f := List.mem_ofFn.2 ⟨i, rfl⟩
  have hpos := List.count_pos_iff.2 hmem
  have htwice : 2 ≤ (List.ofFn f).count (f i) ↔ ∃ j ≠ i, f j = f i := by
    rw [← List.duplicate_iff_two_le_count, List.duplicate_iff_exists_distinct_get]
    simp only [List.get_eq_getElem, List.getElem_ofFn]
    constructor
    · rintro ⟨k, l, hlt, hk, hl⟩
      by_cases heq : (⟨k, by simpa using k.2⟩ : Fin n) = i
      · refine ⟨⟨l, by simpa using l.2⟩, fun hli => ?_, hl.symm⟩
        have hkl := congrArg Fin.val (heq.trans hli.symm)
        exact absurd hkl (Nat.ne_of_lt hlt)
      · exact ⟨_, heq, hk.symm⟩
    · rintro ⟨j, hne, hj⟩
      rcases Nat.lt_or_gt_of_ne (Fin.val_ne_of_ne hne) with hlt | hgt
      · exact ⟨⟨j, by simp⟩, ⟨i, by simp⟩, hlt, hj.symm, rfl⟩
      · exact ⟨⟨i, by simp⟩, ⟨j, by simp⟩, hgt, rfl, hj.symm⟩
  constructor
  · intro hone j hne hj
    have htwo := htwice.2 ⟨j, hne, hj⟩
    omega
  · intro hother
    by_contra hcount
    obtain ⟨j, hne, hj⟩ := htwice.1 (by omega)
    exact hother j hne hj

theorem winsGame_iff {i : Fin n} {top : ℚ}
    (htop : (List.ofFn (rankedVp vp adjustment)).max? = some top) :
    (2 ≤ rankedVp vp adjustment i ∧ rankedVp vp adjustment i = top ∧
      (List.ofFn (rankedVp vp adjustment)).count top = 1) ↔ WinsGame vp adjustment i := by
  obtain ⟨hmem, hle⟩ := List.max?_eq_some_iff.1 htop
  have hmax : ∀ j, rankedVp vp adjustment j ≤ top := fun j => hle _ (List.mem_ofFn.2 ⟨j, rfl⟩)
  constructor
  · rintro ⟨htwo, rfl, hcount⟩
    refine ⟨htwo, fun j hne => ?_⟩
    exact lt_of_le_of_ne (hmax j) ((count_ofFn_eq_one _ i).1 hcount j hne)
  · rintro ⟨htwo, hwins⟩
    obtain ⟨k, rfl⟩ := List.mem_ofFn.1 hmem
    have hik : k = i := by
      by_contra hne
      exact absurd (hmax i) (hwins k hne).not_ge
    subst hik
    exact ⟨htwo, rfl, (count_ofFn_eq_one _ k).2 fun j hne => (hwins j hne).ne⟩

theorem seatGws_eq (i : Fin n) : ((seatGws vp adjustment)[i]? = some 1 ∧ WinsGame vp adjustment i) ∨
    ((seatGws vp adjustment)[i]? = some 0 ∧ ¬ WinsGame vp adjustment i) := by
  cases htop : (List.ofFn (rankedVp vp adjustment)).max? with
  | none =>
    have hnil := List.length_eq_zero_iff.2 (List.max?_eq_none_iff.1 htop)
    rw [List.length_ofFn] at hnil
    exact absurd i.2 (by omega)
  | some top =>
    have hgws : (seatGws vp adjustment)[i]? = some (if 2 ≤ rankedVp vp adjustment i ∧
        rankedVp vp adjustment i = top ∧ (List.ofFn (rankedVp vp adjustment)).count top = 1
      then 1 else 0) := by
      simp only [seatGws, computeGw, adjustedVps_ofFn, htop]
      simp
    rw [hgws]
    by_cases hwins : WinsGame vp adjustment i
    · exact .inl ⟨by rw [if_pos ((winsGame_iff htop).2 hwins)], hwins⟩
    · exact .inr ⟨by rw [if_neg fun h => hwins ((winsGame_iff htop).1 h)], hwins⟩

theorem WinsGame.unique {i j : Fin n} (hi : WinsGame vp adjustment i)
    (hj : WinsGame vp adjustment j) : i = j := by
  by_contra hne
  exact absurd (hi.2 j (Ne.symm hne)) (hj.2 i hne).not_gt

/-! ### The finals -/

theorem beatsInFinals_iff {a b : ℚ × ℕ} :
    beatsInFinals a b = true ↔ b.1 < a.1 ∨ b.1 = a.1 ∧ a.2 < b.2 := by
  rw [beatsInFinals, Bool.or_eq_true, Bool.and_eq_true, decide_eq_true_iff, decide_eq_true_iff,
    decide_eq_true_iff, eq_comm (a := b.1)]

theorem beatsInFinals_trans {a b c : ℚ × ℕ} (hab : beatsInFinals a b = true)
    (hbc : beatsInFinals b c = true) : beatsInFinals a c = true := by
  rw [beatsInFinals_iff] at hab hbc ⊢
  rcases hab with hlt | ⟨heq, hseed⟩
  · rcases hbc with hlt' | ⟨heq', -⟩
    · exact .inl (hlt'.trans hlt)
    · exact .inl (heq' ▸ hlt)
  · rcases hbc with hlt' | ⟨heq', hseed'⟩
    · exact .inl (heq ▸ hlt')
    · exact .inr ⟨heq'.trans heq, hseed.trans hseed'⟩

theorem beatsInFinals_total {a b : ℚ × ℕ} (hne : a.2 ≠ b.2) (h : beatsInFinals a b ≠ true) :
    beatsInFinals b a = true := by
  rw [Ne, beatsInFinals_iff, not_or, not_and, not_lt, not_lt] at h
  rw [beatsInFinals_iff]
  rcases h.1.lt_or_eq with hlt | heq
  · exact .inl hlt
  · exact .inr ⟨heq, lt_of_le_of_ne (h.2 heq.symm) hne.symm⟩

theorem bestInFinals_beats {keys : List (ℚ × ℕ)}
    (hseeds : ∀ (i j : ℕ) (a b : ℚ × ℕ), keys[i]? = some a → keys[j]? = some b → i ≠ j → a.2 ≠ b.2)
    (rest : List (ℚ × ℕ)) (best : ℕ) (key : ℚ × ℕ) (i : ℕ) (hrest : keys.drop i = rest)
    (hbest : best < i) (hkey : keys[best]? = some key)
    (hbeats : ∀ j < i, j ≠ best → ∀ k, keys[j]? = some k → beatsInFinals key k = true) :
    ∃ k, keys[bestInFinals best key i rest]? = some k ∧
      ∀ j ≠ bestInFinals best key i rest, ∀ k', keys[j]? = some k' → beatsInFinals k k' = true := by
  induction rest generalizing best key i with
  | nil =>
    refine ⟨key, hkey, fun j hj k hk => hbeats j ?_ hj k hk⟩
    have hlt := (List.getElem?_eq_some_iff.1 hk).1
    exact lt_of_lt_of_le hlt (List.drop_eq_nil_iff.1 hrest)
  | cons k rest ih =>
    have hk : keys[i]? = some k := by
      rw [← List.head?_drop, hrest, List.head?_cons]
    have hdrop : keys.drop (i + 1) = rest := by
      rw [← List.drop_drop, hrest, List.drop_one, List.tail_cons]
    rw [bestInFinals]
    split
    · rename_i hbetter
      refine ih i k (i + 1) hdrop (Nat.lt_succ_self i) hk fun j hj hne k' hk' => ?_
      by_cases hold : j = best
      · subst hold
        rw [hkey, Option.some.injEq] at hk'
        exact hk' ▸ hbetter
      · exact beatsInFinals_trans hbetter (hbeats j (by omega) hold k' hk')
    · rename_i hworse
      refine ih best key (i + 1) hdrop (by omega) hkey fun j hj hne k' hk' => ?_
      by_cases hlast : j = i
      · subst hlast
        rw [hk, Option.some.injEq] at hk'
        subst hk'
        exact beatsInFinals_total (hseeds j best _ _ hk hkey hne) hworse
      · exact hbeats j (by omega) hne k' hk'

theorem finalsKeys_ofFn (uids : Fin n → Uid) (seedOrder : List Uid) :
    (adjustedVps (List.ofFn vp) (List.ofFn adjustment)).zip
      ((List.ofFn uids).map (seedPosition seedOrder)) =
    List.ofFn fun i => (rankedVp vp adjustment i, seedPosition seedOrder (uids i)) := by
  rw [adjustedVps_ofFn]
  refine List.ext_getElem (by simp) fun i h₁ h₂ => ?_
  simp

theorem finalsSeatGws_eq (hn : n = 4 ∨ n = 5) {uids : Fin n → Uid} {seedOrder : List Uid}
    (hseeds : Function.Injective fun i => seedPosition seedOrder (uids i)) :
    ∃ w, WinsFinals vp adjustment (fun i => seedPosition seedOrder (uids i)) w ∧
      finalsSeatGws vp adjustment uids seedOrder = List.ofFn fun i => if i = w then 1 else 0 := by
  obtain ⟨keys, hkeys⟩ : ∃ keys, keys = List.ofFn fun i =>
      (rankedVp vp adjustment i, seedPosition seedOrder (uids i)) := ⟨_, rfl⟩
  have hget : ∀ i : Fin n, keys[(i : ℕ)]? =
      some (rankedVp vp adjustment i, seedPosition seedOrder (uids i)) := by
    intro i
    rw [hkeys]
    simp
  have hof : ∀ (i : ℕ) k, keys[i]? = some k → ∃ h : i < n,
      k = (rankedVp vp adjustment ⟨i, h⟩, seedPosition seedOrder (uids ⟨i, h⟩)) := by
    intro i k hk
    have hlt : i < n := by
      have hlength := (List.getElem?_eq_some_iff.1 hk).1
      rwa [hkeys, List.length_ofFn] at hlength
    exact ⟨hlt, (Option.some.inj ((hget ⟨i, hlt⟩).symm.trans hk)).symm⟩
  have hdistinct : ∀ (i j : ℕ) (a b : ℚ × ℕ), keys[i]? = some a → keys[j]? = some b →
      i ≠ j → a.2 ≠ b.2 := by
    intro i j a b ha hb hij heq
    obtain ⟨hi, rfl⟩ := hof i a ha
    obtain ⟨hj, rfl⟩ := hof j b hb
    exact hij (congrArg Fin.val (hseeds heq))
  have hpos : 0 < n := by omega
  obtain ⟨k, rest, hcons⟩ : ∃ k rest, keys = k :: rest := by
    cases hcase : keys with
    | nil =>
      have hfirst := hget ⟨0, hpos⟩
      rw [hcase] at hfirst
      cases hfirst
    | cons k rest => exact ⟨k, rest, rfl⟩
  obtain ⟨best, hbest, hbeats⟩ := bestInFinals_beats hdistinct rest 0 k 1
    (by rw [hcons, List.drop_one, List.tail_cons]) Nat.one_pos (by rw [hcons]; rfl)
    (fun j hj hne => absurd (Nat.lt_one_iff.1 hj) hne)
  have hseat : bestFinalsSeat (List.ofFn vp) (List.ofFn adjustment) (List.ofFn uids) seedOrder =
      bestInFinals 0 k 1 rest := by
    rw [bestFinalsSeat, finalsKeys_ofFn, ← hkeys, hcons]
  obtain ⟨hw, rfl⟩ := hof _ best hbest
  refine ⟨⟨_, hw⟩, fun j hne => ?_, ?_⟩
  · have hj := hbeats j (fun heq => hne (Fin.ext heq)) _ (hget j)
    exact beatsInFinals_iff.1 hj
  · refine List.ext_getElem (by simp [finalsSeatGws, computeGwFinals]) fun i h₁ h₂ => ?_
    simp [finalsSeatGws, computeGwFinals, hseat, Fin.ext_iff]

/-! ### Other orders of the seats -/

theorem rankedVp_comp (σ : Equiv.Perm (Fin n)) :
    rankedVp (vp ∘ σ) (adjustment ∘ σ) = rankedVp vp adjustment ∘ σ := rfl

theorem placePoints_comp (σ : Equiv.Perm (Fin n)) (i : Fin n) :
    placePoints (vp ∘ σ) (adjustment ∘ σ) i = placePoints vp adjustment (σ i) := by
  have hperm : (List.ofFn (rankedVp vp adjustment ∘ σ)).Perm (List.ofFn (rankedVp vp adjustment)) :=
    σ.ofFn_comp_perm _
  rw [placePoints, placePoints, rankedVp_comp, Function.comp_apply, hperm.countP_eq,
    hperm.countP_eq]

theorem winsGame_comp (σ : Equiv.Perm (Fin n)) (i : Fin n) :
    WinsGame (vp ∘ σ) (adjustment ∘ σ) i ↔ WinsGame vp adjustment (σ i) := by
  refine and_congr_right fun _ => ?_
  constructor
  · intro h j hne
    have hj := h (σ.symm j) fun heq => hne (by rw [← heq, Equiv.apply_symm_apply])
    rwa [rankedVp_comp, Function.comp_apply, Function.comp_apply, Equiv.apply_symm_apply] at hj
  · exact fun h j hne => h (σ j) fun heq => hne (σ.injective heq)

theorem winsFinals_comp (σ : Equiv.Perm (Fin n)) {seed : Fin n → ℕ} {i : Fin n}
    (h : WinsFinals vp adjustment seed (σ i)) :
    WinsFinals (vp ∘ σ) (adjustment ∘ σ) (seed ∘ σ) i :=
  fun j hne => h (σ j) fun heq => hne (σ.injective heq)

theorem WinsFinals.unique {seed : Fin n → ℕ} {i j : Fin n} (hi : WinsFinals vp adjustment seed i)
    (hj : WinsFinals vp adjustment seed j) : i = j := by
  by_contra hne
  rcases hi j (Ne.symm hne) with hlt | ⟨heq, hseed⟩
  · rcases hj i hne with hgt | ⟨heq', -⟩
    · exact absurd hlt hgt.not_gt
    · exact absurd heq' hlt.ne'
  · rcases hj i hne with hgt | ⟨-, hseed'⟩
    · exact absurd heq hgt.ne'
    · exact absurd hseed hseed'.not_gt

theorem movesWithSeats (hn : n = 4 ∨ n = 5) (σ : Equiv.Perm (Fin n)) :
    MovesWithSeats vp adjustment σ := by
  constructor
  · intro i
    rw [seatTps_eq hn, seatTps_eq hn]
    simp [placePoints_comp]
  · intro i
    rcases @seatGws_eq n (vp ∘ σ) (adjustment ∘ σ) i with ⟨hget, hwins⟩ | ⟨hget, hwins⟩
    · rcases @seatGws_eq n vp adjustment (σ i) with ⟨hget', -⟩ | ⟨-, hnot⟩
      · rw [hget, hget']
      · exact absurd ((winsGame_comp σ i).1 hwins) hnot
    · rcases @seatGws_eq n vp adjustment (σ i) with ⟨-, hwins'⟩ | ⟨hget', -⟩
      · exact absurd ((winsGame_comp σ i).2 hwins') hwins
      · rw [hget, hget']

theorem finalsSeatGws_comp (hn : n = 4 ∨ n = 5) (σ : Equiv.Perm (Fin n)) {uids : Fin n → Uid}
    {seedOrder : List Uid} (hseeds : Function.Injective fun i => seedPosition seedOrder (uids i))
    (i : Fin n) : (finalsSeatGws (vp ∘ σ) (adjustment ∘ σ) (uids ∘ σ) seedOrder)[i]? =
      (finalsSeatGws vp adjustment uids seedOrder)[σ i]? := by
  obtain ⟨w, hw, hgws⟩ := @finalsSeatGws_eq n vp adjustment hn uids seedOrder hseeds
  obtain ⟨w', hw', hgws'⟩ := @finalsSeatGws_eq n (vp ∘ σ) (adjustment ∘ σ) hn (uids ∘ σ) seedOrder
    (hseeds.comp σ.injective)
  have hsame : σ w' = w := by
    have hseat : WinsFinals (vp ∘ σ) (adjustment ∘ σ)
        ((fun i => seedPosition seedOrder (uids i)) ∘ σ) (σ.symm w) :=
      winsFinals_comp σ (by rwa [Equiv.apply_symm_apply])
    rw [hw'.unique hseat, Equiv.apply_symm_apply]
  rw [hgws, hgws']
  simp [← hsame]

/-- Points and game wins of a table of four or five, and the game win of the finals. -/
theorem scoring_laws (hn : n = 4 ∨ n = 5) (vp adjustment : Fin n → ℚ) :
    ScoredFairly vp adjustment ∧ (∀ σ, MovesWithSeats vp adjustment σ) ∧
    ∀ (uids : Fin n → Uid) (seedOrder : List Uid),
      (Function.Injective fun i => seedPosition seedOrder (uids i)) →
      (∃ w, WinsFinals vp adjustment (fun i => seedPosition seedOrder (uids i)) w ∧
        finalsSeatGws vp adjustment uids seedOrder = List.ofFn fun i => if i = w then 1 else 0) ∧
      ∀ (σ : Equiv.Perm (Fin n)) (i : Fin n),
        (finalsSeatGws (vp ∘ σ) (adjustment ∘ σ) (uids ∘ σ) seedOrder)[i]? =
          (finalsSeatGws vp adjustment uids seedOrder)[σ i]? := by
  refine ⟨⟨seatTps_eq hn, fun _ _ => placePoints_of_level, fun _ _ => placePoints_of_higher hn,
    sum_seatTps hn, seatGws_eq, fun _ _ => WinsGame.unique⟩, movesWithSeats hn,
    fun uids seedOrder h => ?_⟩
  exact ⟨finalsSeatGws_eq hn h, fun σ i => finalsSeatGws_comp hn σ h i⟩

end Tables

/-- Two seats lost a point each to a sanction, and two are level behind them. -/
def fiveVps : Fin 5 → ℚ := ![2, 1 / 2, 1 / 2, 2, 0]

def fiveAdjustments : Fin 5 → ℚ := ![-1, 0, 0, -1, 0]

def fiveUids : Fin 5 → Uid := !["a", "b", "c", "d", "e"]

theorem scoring_laws_five : ScoredFairly fiveVps fiveAdjustments ∧
    ∃ w, WinsFinals fiveVps fiveAdjustments
      (fun i => seedPosition ["d", "a", "b", "c", "e"] (fiveUids i)) w := by
  obtain ⟨hfair, -, hfinals⟩ := scoring_laws (.inr rfl) fiveVps fiveAdjustments
  obtain ⟨⟨w, hw, -⟩, -⟩ := hfinals fiveUids ["d", "a", "b", "c", "e"] (by decide +kernel)
  exact ⟨hfair, w, hw⟩

end Archon.Engine

import Mathlib.Data.List.Cycle
import Mathlib.Algebra.Ring.Parity
import Mathlib.Algebra.Order.BigOperators.Group.List
import Archon.Library.Rings
import Archon.Engine.Scoring

/-!
# The results a table can produce (`tournament/scoring.rs:58-100`)

The recursion that lists the results plays a game on a ring of players: somebody ousts the next
one, somebody withdraws, the time runs out, or one is left. Every player of the ring accounts for
one rounded-up point of the result, and nothing in the game tells the seats apart, so that a
rotation of a result is a result.
-/

namespace Archon.Engine
open Rings

/-! ### The game on a ring -/

/-- Half a point to everybody who is left. -/
def timeOut (alive vp : List ℕ) : List ℕ := alive.foldl (fun acc i => acc.modify i (· + 1)) vp

/-- `RingPlay alive vp result`: from the points `vp`, in halves, the ring of players can come to
`result`. -/
inductive RingPlay : Cycle ℕ → List ℕ → List ℕ → Prop where
  | lastStanding (last : ℕ) (vp : List ℕ) : RingPlay [last] vp (vp.modify last (· + 2))
  | timedOut {alive : List ℕ} (h : alive.length ≠ 1) (vp : List ℕ) :
      RingPlay alive vp (timeOut alive vp)
  | ousted {killer prey : ℕ} {others vp result : List ℕ}
      (h : RingPlay (killer :: others : List ℕ) (vp.modify killer (· + 2)) result) :
      RingPlay (killer :: prey :: others : List ℕ) vp result
  | withdrew {quitter next : ℕ} {others vp result : List ℕ}
      (h : RingPlay (next :: others : List ℕ) (vp.modify quitter (· + 1)) result) :
      RingPlay (quitter :: next :: others : List ℕ) vp result

/-! ### The recursion plays it -/

section Recursion

variable {fuel : ℕ} {alive vp result : List ℕ}

theorem mem_reachablePlay_succ (h : 2 ≤ alive.length) :
    result ∈ reachablePlay (fuel + 1) alive vp ↔ result = timeOut alive vp ∨
      (∃ i killer, alive[i]? = some killer ∧ result ∈ reachablePlay fuel
        (alive.filter fun x => x != (alive[(i + 1) % alive.length]?).getD 0)
        (vp.modify killer (· + 2))) ∨
      ∃ quitter ∈ alive, result ∈ reachablePlay fuel (alive.filter fun x => x != quitter)
        (vp.modify quitter (· + 1)) := by
  match alive, h with
  | a :: b :: l, _ =>
    simp only [reachablePlay, List.mem_cons, List.mem_append, List.mem_flatMap]
    refine or_congr_right (or_congr_left ?_)
    constructor
    · rintro ⟨⟨killer, i⟩, hki, hmem⟩
      exact ⟨i, killer, List.mk_mem_zipIdx_iff_getElem?.1 hki, hmem⟩
    · rintro ⟨i, killer, hki, hmem⟩
      exact ⟨(killer, i), List.mk_mem_zipIdx_iff_getElem?.2 hki, hmem⟩

theorem timeOut_perm {alive' : List ℕ} (h : alive.Perm alive') (vp : List ℕ) :
    timeOut alive vp = timeOut alive' vp := by
  refine h.foldl_eq' (fun i _ j _ acc => ?_) vp
  refine List.ext_getElem? fun k => ?_
  simp only [List.getElem?_modify]
  cases acc[k]? with
  | none => rfl
  | some v =>
    by_cases hi : i = k <;> by_cases hj : j = k <;> simp [hi, hj]

theorem ringPlay_of_mem (hnodup : alive.Nodup) (hlength : alive.length = fuel)
    (h : result ∈ reachablePlay fuel alive vp) : RingPlay alive vp result := by
  induction fuel generalizing alive vp with
  | zero =>
    obtain rfl := List.length_eq_zero_iff.1 hlength
    obtain rfl := List.mem_singleton.1 h
    exact .timedOut (by decide) result
  | succ fuel ih =>
    by_cases hone : alive.length = 1
    · obtain ⟨last, rfl⟩ := List.length_eq_one_iff.1 hone
      obtain rfl := List.mem_singleton.1 h
      exact .lastStanding last vp
    have htwo : 2 ≤ alive.length := by omega
    rcases (mem_reachablePlay_succ htwo).1 h with rfl | ⟨i, killer, hi, h⟩ | ⟨quitter, hq, h⟩
    · exact .timedOut hone vp
    · obtain ⟨prey, others, hprey, hring⟩ := isRotated_cons_cons hi htwo
      rw [hprey, Option.getD_some] at h
      have hmem : prey ∈ alive := List.mem_of_getElem? hprey
      have hleft := length_without hnodup hmem
      have hrest := ih (hnodup.filter _) (by omega) h
      rw [Cycle.coe_eq_coe.2 (isRotated_without_next hnodup hring)] at hrest
      rw [Cycle.coe_eq_coe.2 hring]
      exact .ousted hrest
    · obtain ⟨l, hring⟩ := isRotated_of_mem hq
      cases l with
      | nil => exact absurd hring.perm.length_eq (by simpa using hone)
      | cons next others =>
        have hleft := length_without hnodup hq
        have hrest := ih (hnodup.filter _) (by omega) h
        rw [Cycle.coe_eq_coe.2 (isRotated_without hnodup hring)] at hrest
        rw [Cycle.coe_eq_coe.2 hring]
        exact .withdrew hrest

theorem mem_of_ringPlay {ring : Cycle ℕ} (h : RingPlay ring vp result)
    (hring : (alive : Cycle ℕ) = ring) (hnodup : alive.Nodup) :
    result ∈ reachablePlay alive.length alive vp := by
  induction h generalizing alive with
  | lastStanding last vp =>
    obtain rfl := List.isRotated_singleton_iff.1 (Cycle.coe_eq_coe.1 hring)
    exact List.mem_singleton_self _
  | @timedOut alive' hone vp =>
    have hrotated := Cycle.coe_eq_coe.1 hring
    rw [← timeOut_perm hrotated.perm]
    have hone' : alive.length ≠ 1 := hrotated.perm.length_eq ▸ hone
    match alive, hone' with
    | [], _ => exact List.mem_singleton_self _
    | a :: b :: l, _ => exact (mem_reachablePlay_succ (Nat.le_add_left 2 _)).2 (.inl rfl)
  | @ousted killer prey others vp result _ ih =>
    have hrotated := Cycle.coe_eq_coe.1 hring
    obtain ⟨i, hi, hprey⟩ := exists_position hrotated
    have htwo : 2 ≤ alive.length := by
      rw [hrotated.perm.length_eq]
      exact Nat.le_add_left 2 _
    have hleft := length_without hnodup (List.mem_of_getElem? hprey)
    have hrest := ih (Cycle.coe_eq_coe.2 (isRotated_without_next hnodup hrotated))
      (hnodup.filter _)
    rw [← hleft, mem_reachablePlay_succ htwo]
    exact .inr (.inl ⟨i, killer, hi, by rw [hprey]; exact hrest⟩)
  | @withdrew quitter next others vp result _ ih =>
    have hrotated := Cycle.coe_eq_coe.1 hring
    have hq : quitter ∈ alive := hrotated.mem_iff.2 List.mem_cons_self
    have htwo : 2 ≤ alive.length := by
      rw [hrotated.perm.length_eq]
      exact Nat.le_add_left 2 _
    have hleft := length_without hnodup hq
    have hrest := ih (Cycle.coe_eq_coe.2 (isRotated_without hnodup hrotated)) (hnodup.filter _)
    rw [← hleft, mem_reachablePlay_succ htwo]
    exact .inr (.inr ⟨quitter, hq, hrest⟩)

theorem mem_reachablePlay (hnodup : alive.Nodup) :
    result ∈ reachablePlay alive.length alive vp ↔ RingPlay alive vp result :=
  ⟨ringPlay_of_mem hnodup rfl, fun h => mem_of_ringPlay h rfl hnodup⟩

theorem mem_reachableResults {n : ℕ} {sheet : List ℕ} :
    sheet ∈ reachableResults n ↔ RingPlay (List.range n) (List.replicate n 0) sheet := by
  rw [← mem_reachablePlay List.nodup_range, List.length_range]
  rfl

end Recursion

/-! ### Every player accounts for a point -/

section Sum

variable {vp result : List ℕ}

/-- A result in halves, its victory points rounded up and added. -/
def roundedUp (sheet : List ℕ) : ℤ := (sheet.map fun h : ℕ => ⌈(h : ℚ) / 2⌉).sum

theorem ceil_add_two (h : ℕ) : ⌈((h + 2 : ℕ) : ℚ) / 2⌉ = ⌈(h : ℚ) / 2⌉ + 1 := by
  rw [Nat.cast_add, Nat.cast_ofNat, add_div, div_self two_ne_zero, Int.ceil_add_one]

theorem ceil_add_one {h : ℕ} (heven : Even h) : ⌈((h + 1 : ℕ) : ℚ) / 2⌉ = ⌈(h : ℚ) / 2⌉ + 1 := by
  obtain ⟨m, rfl⟩ := heven
  have hwhole : ((m + m : ℕ) : ℚ) / 2 = (m : ℤ) := by
    push_cast
    ring
  rw [Nat.cast_add _ 1, add_div, hwhole, Int.ceil_intCast, Nat.cast_one, Int.ceil_intCast_add,
    add_right_inj, Int.ceil_eq_iff]
  norm_num

/-- The players hold whole points. -/
def WholePoints (alive : List ℕ) (vp : List ℕ) : Prop := ∀ i ∈ alive, ∃ h, vp[i]? = some h ∧ Even h

theorem roundedUp_modify_two {i h : ℕ} (hi : vp[i]? = some h) :
    roundedUp (vp.modify i (· + 2)) = roundedUp vp + 1 := by
  obtain ⟨hlt, rfl⟩ := List.getElem?_eq_some_iff.1 hi
  exact sum_map_modify hlt (ceil_add_two _)

theorem roundedUp_modify_one {i h : ℕ} (hi : vp[i]? = some h) (heven : Even h) :
    roundedUp (vp.modify i (· + 1)) = roundedUp vp + 1 := by
  obtain ⟨hlt, rfl⟩ := List.getElem?_eq_some_iff.1 hi
  exact sum_map_modify hlt (ceil_add_one heven)

theorem WholePoints.modify_two {alive : List ℕ} (h : WholePoints alive vp) (i : ℕ) :
    WholePoints alive (vp.modify i (· + 2)) := by
  intro j hj
  obtain ⟨q, hq, heven⟩ := h j hj
  by_cases hij : i = j
  · exact ⟨q + 2, by simp [hq, hij], heven.add even_two⟩
  · exact ⟨q, by simp [hq, hij], heven⟩

theorem WholePoints.modify_ne {alive : List ℕ} (h : WholePoints alive vp) {i : ℕ} (hi : i ∉ alive)
    (f : ℕ → ℕ) : WholePoints alive (vp.modify i f) := by
  intro j hj
  obtain ⟨q, hq, heven⟩ := h j hj
  have hij : i ≠ j := fun heq => hi (heq ▸ hj)
  exact ⟨q, by simp [hq, hij], heven⟩

theorem roundedUp_timeOut {alive : List ℕ} (hnodup : alive.Nodup) (h : WholePoints alive vp) :
    roundedUp (timeOut alive vp) = roundedUp vp + alive.length := by
  induction alive generalizing vp with
  | nil => simp [timeOut]
  | cons i alive ih =>
    obtain ⟨hi, hnodup⟩ := List.nodup_cons.1 hnodup
    obtain ⟨⟨q, hq, heven⟩, hrest⟩ := List.forall_mem_cons.1 h
    have hlater : WholePoints alive (vp.modify i (· + 1)) :=
      WholePoints.modify_ne (show WholePoints alive vp from hrest) hi _
    rw [timeOut, List.foldl_cons, ← timeOut, ih hnodup hlater, roundedUp_modify_one hq heven,
      List.length_cons, Nat.cast_add, Nat.cast_one]
    ring

theorem roundedUp_of_play {ring : Cycle ℕ} (h : RingPlay ring vp result) :
    ∀ alive : List ℕ, ring = alive → alive.Nodup → WholePoints alive vp →
      roundedUp result = roundedUp vp + alive.length := by
  have hmove : ∀ {xs ys : List ℕ} {vp : List ℕ}, (xs : Cycle ℕ) = ys → ys.Nodup →
      WholePoints ys vp → xs.Nodup ∧ WholePoints xs vp ∧ xs.length = ys.length := by
    intro xs ys vp heq hnodup hwhole
    have hrotated := Cycle.coe_eq_coe.1 heq
    exact ⟨hrotated.nodup_iff.2 hnodup, fun i hi => hwhole i (hrotated.mem_iff.1 hi),
      hrotated.perm.length_eq⟩
  induction h with
  | lastStanding last vp =>
    intro alive hring hnodup hwhole
    obtain ⟨-, hwhole, hlength⟩ := hmove hring hnodup hwhole
    obtain ⟨q, hq, -⟩ := hwhole last List.mem_cons_self
    rw [roundedUp_modify_two hq, ← hlength, List.length_singleton, Nat.cast_one]
  | @timedOut alive' _ vp =>
    intro alive hring hnodup hwhole
    obtain ⟨hnodup, hwhole, hlength⟩ := hmove hring hnodup hwhole
    rw [roundedUp_timeOut hnodup hwhole, hlength]
  | @ousted killer prey others vp result _ ih =>
    intro alive hring hnodup hwhole
    obtain ⟨hnodup, hwhole, hlength⟩ := hmove hring hnodup hwhole
    obtain ⟨q, hq, -⟩ := hwhole killer List.mem_cons_self
    have hleft : (killer :: others).Nodup :=
      hnodup.sublist (List.Sublist.cons_cons killer (List.sublist_cons_self prey others))
    have hpoints : WholePoints (killer :: others) (vp.modify killer (· + 2)) :=
      WholePoints.modify_two (fun i hi => hwhole i (by
        rcases List.mem_cons.1 hi with rfl | hi
        · exact List.mem_cons_self
        · exact List.mem_cons_of_mem _ (List.mem_cons_of_mem _ hi))) killer
    rw [ih _ rfl hleft hpoints, roundedUp_modify_two hq, ← hlength]
    simp only [List.length_cons]
    push_cast
    ring
  | @withdrew quitter next others vp result _ ih =>
    intro alive hring hnodup hwhole
    obtain ⟨hnodup, hwhole, hlength⟩ := hmove hring hnodup hwhole
    obtain ⟨hout, hleft⟩ := List.nodup_cons.1 hnodup
    obtain ⟨⟨q, hq, heven⟩, hrest⟩ := List.forall_mem_cons.1 hwhole
    have hpoints : WholePoints (next :: others) (vp.modify quitter (· + 1)) :=
      WholePoints.modify_ne (show WholePoints (next :: others) vp from hrest) hout _
    rw [ih _ rfl hleft hpoints, roundedUp_modify_one hq heven, ← hlength]
    simp only [List.length_cons]
    push_cast
    ring

theorem roundedUp_of_reachable {n : ℕ} {sheet : List ℕ} (h : sheet ∈ reachableResults n) :
    roundedUp sheet = n := by
  have hstart : WholePoints (List.range n) (List.replicate n 0) := by
    intro i hi
    exact ⟨0, by simp [List.mem_range.1 hi], Even.zero⟩
  have hzero : roundedUp (List.replicate n 0) = 0 := by simp [roundedUp]
  rw [roundedUp_of_play (mem_reachableResults.1 h) _ rfl List.nodup_range hstart, hzero,
    List.length_range, zero_add]

end Sum

/-! ### No seat is special -/

section Turn

variable {vp result : List ℕ}

theorem timeOut_turn {alive : List ℕ} (h : ∀ i ∈ alive, i < vp.length) :
    (timeOut alive vp).rotate 1 = timeOut (alive.map (turn vp.length)) (vp.rotate 1) := by
  induction alive generalizing vp with
  | nil => rfl
  | cons i alive ih =>
    obtain ⟨hi, h⟩ := List.forall_mem_cons.1 h
    have hrest := @ih (vp.modify i (· + 1)) (by rwa [List.length_modify])
    rw [List.length_modify, modify_rotate_one hi] at hrest
    exact hrest

theorem RingPlay.turned {ring : Cycle ℕ} (h : RingPlay ring vp result)
    (hring : ∀ i ∈ ring, i < vp.length) :
    RingPlay (ring.map (turn vp.length)) (vp.rotate 1) (result.rotate 1) := by
  induction h with
  | lastStanding last vp =>
    rw [modify_rotate_one (hring last List.mem_cons_self)]
    exact .lastStanding _ _
  | @timedOut alive hone vp =>
    rw [timeOut_turn hring, Cycle.map_coe]
    exact .timedOut (by rwa [List.length_map]) _
  | @ousted killer prey others vp result _ ih =>
    have hkiller := hring killer List.mem_cons_self
    rw [List.length_modify, modify_rotate_one hkiller, Cycle.map_coe] at ih
    rw [Cycle.map_coe]
    refine .ousted (ih fun i hi => hring i ?_)
    rcases List.mem_cons.1 hi with rfl | hi
    · exact List.mem_cons_self
    · exact List.mem_cons_of_mem _ (List.mem_cons_of_mem _ hi)
  | @withdrew quitter next others vp result _ ih =>
    have hquitter := hring quitter List.mem_cons_self
    rw [List.length_modify, modify_rotate_one hquitter, Cycle.map_coe] at ih
    rw [Cycle.map_coe]
    exact .withdrew (ih fun i hi => hring i (List.mem_cons_of_mem _ hi))

theorem rotate_mem_reachableResults {n : ℕ} {sheet : List ℕ} (h : sheet ∈ reachableResults n)
    (k : ℕ) : sheet.rotate k ∈ reachableResults n := by
  induction k with
  | zero => rwa [List.rotate_zero]
  | succ k ih =>
    rw [mem_reachableResults] at ih
    have hturned := ih.turned fun i hi => by
      rw [List.length_replicate]
      exact List.mem_range.1 hi
    rw [List.length_replicate, List.rotate_replicate, List.rotate_rotate, Cycle.map_coe,
      Cycle.coe_eq_coe.2 (range_turn n)] at hturned
    exact mem_reachableResults.2 hturned

end Turn

/-! ### The check of a table -/

section Check

variable {vps : List ℚ}

theorem checkTableVps_eq_none :
    checkTableVps vps = none ↔ (4 ≤ vps.length ∧ vps.length ≤ 5) ∧
      (vps.map fun v => ⌈v⌉).sum = vps.length ∧
      ∃ key, halfSteps vps = some key ∧ key ∈ reachableResults vps.length := by
  unfold checkTableVps
  extract_lets n accounted size total
  by_cases hsize : n < 4 ∨ 5 < n
  · rw [if_pos hsize]
    exact iff_of_false (by simp) fun h => by omega
  rw [if_neg hsize]
  have hrange : 4 ≤ n ∧ n ≤ 5 := by omega
  rcases lt_trichotomy accounted (n : ℤ) with hlt | heq | hgt
  · rw [if_neg hlt.not_gt, if_pos hlt]
    refine iff_of_false ?_ fun h => hlt.ne h.2.1
    split <;> simp
  · rw [if_neg heq.not_gt, if_neg heq.not_lt]
    have hany : ((halfSteps vps).any fun key => (reachableResults n).contains key) = true ↔
        ∃ key, halfSteps vps = some key ∧ key ∈ reachableResults n := by
      cases halfSteps vps <;> simp
    split
    · rename_i hkey
      exact iff_of_true rfl ⟨hrange, heq, hany.1 hkey⟩
    · rename_i hkey
      refine iff_of_false ?_ fun h => hkey (hany.2 h.2.2)
      cases oustOrderFault vps <;> simp
  · rw [if_pos hgt]
    exact iff_of_false (by simp) fun h => hgt.ne' h.2.1

theorem halfSteps_rotate {key : List ℕ} (h : halfSteps vps = some key) (k : ℕ) :
    halfSteps (vps.rotate k) = some (key.rotate k) := by
  have hone : ∀ {vps : List ℚ} {key : List ℕ}, halfSteps vps = some key →
      halfSteps (vps.rotate 1) = some (key.rotate 1) := by
    intro vps key h
    cases vps with
    | nil =>
      cases h
      rfl
    | cons v vs =>
      rw [halfSteps, List.mapM_cons] at h
      obtain ⟨q, hq, h⟩ := Option.bind_eq_some_iff.1 h
      obtain ⟨qs, hqs, h⟩ := Option.bind_eq_some_iff.1 h
      cases h
      have hlast : ∀ {α : Type} (a : α) (l : List α), (a :: l).rotate 1 = l ++ [a] := by
        intro α a l
        rw [List.rotate_cons_succ, List.rotate_zero]
      rw [hlast, hlast, halfSteps, List.mapM_append, hqs, List.mapM_cons, hq]
      rfl
  induction k with
  | zero => rwa [List.rotate_zero, List.rotate_zero]
  | succ k ih =>
    have hnext := hone ih
    rwa [List.rotate_rotate, List.rotate_rotate] at hnext

theorem checkTableVps_rotate (h : checkTableVps vps = none) (k : ℕ) :
    checkTableVps (vps.rotate k) = none := by
  obtain ⟨hsize, hsum, key, hkey, hmem⟩ := checkTableVps_eq_none.1 h
  refine checkTableVps_eq_none.2 ?_
  rw [List.length_rotate, List.map_rotate]
  exact ⟨hsize, ((List.rotate_perm _ k).sum_eq).trans hsum, key.rotate k, halfSteps_rotate hkey k,
    rotate_mem_reachableResults hmem k⟩

/-- The recursion is sound and symmetric: the rounded-up points of every sheet it lists add up to
the size of the ring, its sheets are closed under rotation, and a table is accepted exactly when
it is accepted from any other seat on. -/
theorem reachableResults_ring :
    (∀ n, ∀ sheet ∈ reachableResults n,
      (sheet.map fun h : ℕ => ⌈(h : ℚ) / 2⌉).sum = (n : ℤ) ∧
        ∀ k, sheet.rotate k ∈ reachableResults n) ∧
    ∀ (vps : List ℚ) (k : ℕ),
      checkTableVps vps = none ↔ checkTableVps (vps.rotate k) = none := by
  refine ⟨fun n sheet hsheet =>
    ⟨roundedUp_of_reachable hsheet, rotate_mem_reachableResults hsheet⟩, fun vps k => ?_⟩
  constructor
  · exact fun h => checkTableVps_rotate h k
  · intro h
    obtain ⟨m, hm⟩ := (List.IsRotated.forall vps k)
    exact hm ▸ checkTableVps_rotate h m

end Check

end Archon.Engine

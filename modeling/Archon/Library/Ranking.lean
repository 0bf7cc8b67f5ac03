import Mathlib.Algebra.BigOperators.Group.List.Basic
import Mathlib.Algebra.Order.BigOperators.Group.List
import Mathlib.Algebra.Order.Field.Rat
import Mathlib.Data.List.Basic
import Mathlib.Data.List.SplitBy
import Mathlib.Data.List.TakeWhile
import Mathlib.Data.Rat.Defs
import Mathlib.Order.Defs.LinearOrder
import Mathlib.Order.Lattice

/-!
# Ranked lists

Ranking a list in the order of a key, who is at its top and in which ties, and prizes shared among
those who are level.
-/

/-!
## Competition ranking

Ranking a list in the order of a key, in one pass: who is level with the one before shares its
rank, anybody else takes the number of the position. In a ranked list that is one more than the
number of those strictly before by the key.
-/

namespace CompetitionRanks

variable {α K : Type*} [LinearOrder K]

/-- The ranks of a list: `next` is the number of the position, `rank` and `prev` the rank and the
key of the one before. -/
def ranks (key : α → K) : ℕ → ℕ → Option K → List α → List ℕ
  | _, _, _, [] => []
  | next, rank, prev, x :: rest =>
    let rank := if prev = some (key x) then rank else next
    rank :: ranks key (next + 1) rank (some (key x)) rest

variable {key : α → K} {l earlier rest : List α} {x : α}

/-- How many are strictly before. -/
def before (key : α → K) (l : List α) (x : α) : ℕ := l.countP fun a => decide (key a < key x)

theorem before_of_rise (hranked : (earlier ++ x :: rest).Pairwise fun a b => key a ≤ key b)
    (hrise : ∀ y ∈ earlier.getLast?, key y ≠ key x) :
    before key (earlier ++ x :: rest) x = earlier.length := by
  obtain ⟨hearlier, hrest, hcross⟩ := List.pairwise_append.1 hranked
  have hbefore : earlier.countP (fun a => decide (key a < key x)) = earlier.length := by
    refine List.countP_eq_length.2 fun a ha => decide_eq_true ?_
    obtain ⟨last, hlast⟩ : ∃ last, earlier.getLast? = some last :=
      Option.isSome_iff_exists.1 (List.getLast?_isSome.2 (List.ne_nil_of_mem ha))
    have hle : key a ≤ key last := by
      rw [← List.dropLast_append_getLast? last hlast] at ha hearlier
      rcases List.mem_append.1 ha with ha | ha
      · exact (List.pairwise_append.1 hearlier).2.2 a ha last List.mem_cons_self
      · exact (congrArg key (List.mem_singleton.1 ha)).le
    have hlt : key last < key x :=
      (hcross last (List.mem_of_getLast? hlast) x List.mem_cons_self).lt_of_ne (hrise last hlast)
    exact hle.trans_lt hlt
  have hafter : (x :: rest).countP (fun a => decide (key a < key x)) = 0 := by
    refine List.countP_eq_zero.2 fun a ha => ?_
    rw [decide_eq_true_iff, not_lt]
    rcases List.mem_cons.1 ha with rfl | ha
    · exact le_rfl
    · exact (List.pairwise_cons.1 hrest).1 a ha
  rw [before, List.countP_append, hbefore, hafter, Nat.add_zero]

theorem ranks_append (start : ℕ) {rank : ℕ}
    (hranked : (earlier ++ rest).Pairwise fun a b => key a ≤ key b)
    (hrank : ∀ y ∈ earlier.getLast?, rank = start + before key (earlier ++ rest) y) :
    ranks key (start + earlier.length) rank (earlier.getLast?.map key) rest =
      rest.map fun x => start + before key (earlier ++ rest) x := by
  induction rest generalizing earlier rank with
  | nil => rfl
  | cons x rest ih =>
    have hx : (if earlier.getLast?.map key = some (key x) then rank else start + earlier.length) =
        start + before key (earlier ++ x :: rest) x := by
      split_ifs with htied
      · obtain ⟨last, hlast, hkey⟩ := Option.map_eq_some_iff.1 htied
        rw [hrank last hlast, before, before, hkey]
      · rw [before_of_rise hranked]
        intro y hy hkey
        rw [show earlier.getLast? = some y from hy, Option.map_some, hkey] at htied
        exact htied rfl
    have hsplit : earlier ++ x :: rest = (earlier ++ [x]) ++ rest := by simp
    have hlast : (earlier ++ [x]).getLast? = some x := List.getLast?_concat
    have hrest := @ih (earlier ++ [x]) (start + before key (earlier ++ x :: rest) x)
      (hsplit ▸ hranked) (fun y hy => by
        obtain rfl : x = y := Option.some.inj (hlast.symm.trans hy)
        rw [hsplit])
    rw [hlast, Option.map_some, List.length_append, ← hsplit] at hrest
    rw [ranks, hx, List.map_cons]
    exact congrArg _ hrest

theorem ranks_eq (start : ℕ) (hranked : l.Pairwise fun a b => key a ≤ key b) :
    ranks key start start none l = l.map fun x => start + before key l x :=
  @ranks_append _ _ _ key [] l start start hranked (by simp)

end CompetitionRanks

/-!
## The top of a ranked list, and its ties

A list in the order of a key: its first `n` with everybody level with the last of them, and the
runs of equal keys. Who is at the top depends on how many have a smaller key, not on the order
among equals; two who are level are in one run.
-/

namespace TopTies

variable {α K : Type*}

/-- The first `n`, and everybody after them tied with the last. -/
def topTied (tied : α → α → Bool) (n : ℕ) (l : List α) : List α :=
  let cutoff := min l.length n
  l.take cutoff ++
    match l[cutoff - 1]? with
    | some last => (l.drop cutoff).takeWhile fun x => tied x last
    | none => []

theorem topTied_subset (tied : α → α → Bool) (n : ℕ) (l : List α) :
    (topTied tied n l).Sublist l := by
  unfold topTied
  extract_lets cutoff
  conv_rhs => rw [← List.take_append_drop cutoff l]
  refine (List.Sublist.refl _).append ?_
  split
  · exact List.takeWhile_sublist _
  · exact List.nil_sublist _

theorem level_of_mem_splitBy {key : α → K} {l : List α} {r : α → α → Bool}
    (hr : ∀ a b, r a b = true ↔ key a = key b) {run : List α} (h : run ∈ l.splitBy r) :
    run.Pairwise fun a b => key a = key b := by
  have hchain := List.isChain_of_mem_splitBy h
  have hkeys : run.IsChain fun a b => key a = key b := hchain.imp fun a b => (hr a b).1
  have : IsTrans α fun a b => key a = key b := ⟨fun a b c => Eq.trans⟩
  exact List.isChain_iff_pairwise.1 hkeys

section Ranked

variable [LinearOrder K] {key : α → K} {l : List α}

theorem mem_takeWhile_of_ranked {tied : α → α → Bool} {last x : α}
    (htied : ∀ a b, tied a b = true ↔ key a = key b)
    (hranked : l.Pairwise fun a b => key a ≤ key b) (hlast : ∀ a ∈ l, key last ≤ key a)
    (hx : x ∈ l) (hlevel : key x = key last) : x ∈ l.takeWhile fun a => tied a last := by
  induction l with
  | nil => cases hx
  | cons a l ih =>
    obtain ⟨ha, hl⟩ := List.pairwise_cons.1 hranked
    have hle : key a ≤ key x := by
      rcases List.mem_cons.1 hx with rfl | hx
      · exact le_rfl
      · exact ha x hx
    have heq : key a = key last := le_antisymm (hlevel ▸ hle) (hlast a List.mem_cons_self)
    rw [List.takeWhile_cons, if_pos ((htied a last).2 heq)]
    rcases List.mem_cons.1 hx with rfl | hx
    · exact List.mem_cons_self
    · exact List.mem_cons_of_mem a
        (ih hl (fun b hb => hlast b (List.mem_cons_of_mem a hb)) hx)

theorem mem_topTied_iff {tied : α → α → Bool} {n : ℕ} (hn : 0 < n)
    (htied : ∀ a b, tied a b = true ↔ key a = key b)
    (hranked : l.Pairwise fun a b => key a ≤ key b) {x : α} :
    x ∈ topTied tied n l ↔ x ∈ l ∧ l.countP (fun a => decide (key a < key x)) < n := by
  cases hempty : l with
  | nil => simp [topTied]
  | cons a₀ l₀ =>
    rw [← hempty]
    have hpos : 0 < l.length := by rw [hempty]; exact Nat.succ_pos _
    obtain ⟨cutoff, hcutoff⟩ : ∃ c, c = min l.length n := ⟨_, rfl⟩
    have hlt : cutoff - 1 < l.length := by omega
    obtain ⟨last, hlast⟩ : ∃ last, last = l[cutoff - 1] := ⟨_, rfl⟩
    have htop : topTied tied n l =
        l.take cutoff ++ (l.drop cutoff).takeWhile fun x => tied x last := by
      unfold topTied
      rw [← hcutoff]
      dsimp only
      rw [List.getElem?_eq_getElem hlt, hlast]
    have hsplit : l.Pairwise fun a b => key a ≤ key b := hranked
    rw [← List.take_append_drop cutoff l, List.pairwise_append] at hsplit
    obtain ⟨hhead, htail, hcross⟩ := hsplit
    have hmemLast : last ∈ l.take cutoff := by
      rw [hlast]
      exact List.mem_take_iff_getElem.2 ⟨cutoff - 1, by omega, rfl⟩
    have hlength : (l.take cutoff).length = cutoff := by
      rw [List.length_take]
      omega
    have hcount : ∀ p : α → Bool, l.countP p =
        (l.take cutoff).countP p + (l.drop cutoff).countP p := by
      intro p
      rw [← List.countP_append, List.take_append_drop]
    -- Nobody behind the cut is before anybody of the head.
    have hbehind : ∀ y ∈ l.take cutoff,
        l.countP (fun a => decide (key a < key y)) < n := by
      intro y hy
      have hzero : (l.drop cutoff).countP (fun a => decide (key a < key y)) = 0 := by
        rw [List.countP_eq_zero]
        intro b hb
        simpa using hcross y hy b hb
      have hfew : (l.take cutoff).countP (fun a => decide (key a < key y)) < cutoff := by
        refine lt_of_lt_of_eq (lt_of_le_of_ne List.countP_le_length fun hall => ?_) hlength
        have hself := List.countP_eq_length.1 hall y hy
        simp at hself
      rw [hcount, hzero]
      omega
    rw [htop, List.mem_append]
    constructor
    · rintro (hx | hx)
      · exact ⟨List.mem_of_mem_take hx, hbehind x hx⟩
      · have hstretch : tied x last = true :=
          List.mem_takeWhile_imp (p := fun a => tied a last) hx
        rw [(htied x last).1 hstretch]
        exact ⟨List.mem_of_mem_drop ((List.takeWhile_sublist _).subset hx), hbehind last hmemLast⟩
    · rintro ⟨hx, hfew⟩
      rw [← List.take_append_drop cutoff l, List.mem_append] at hx
      refine hx.imp_right fun hx => ?_
      have hle : key last ≤ key x := hcross last hmemLast x hx
      rcases hle.lt_or_eq with hbefore | hlevel
      · -- All of the head would be before `x`.
        have hfull : n = cutoff := by
          have hdrop := List.length_pos_of_mem hx
          rw [List.length_drop] at hdrop
          omega
        have hall : (l.take cutoff).countP (fun a => decide (key a < key x)) = cutoff := by
          conv_rhs => rw [← hlength]
          refine List.countP_eq_length.2 fun a ha => ?_
          have hal : key a ≤ key last := by
            obtain ⟨i, hi, rfl⟩ := List.mem_take_iff_getElem.1 ha
            rw [hlast]
            rcases Nat.lt_or_ge i (cutoff - 1) with hi' | hi'
            · exact List.pairwise_iff_getElem.1 hranked i (cutoff - 1) (by omega) hlt hi'
            · obtain rfl : i = cutoff - 1 := by omega
              exact le_rfl
          simpa using hal.trans_lt hbefore
        rw [hcount, hall] at hfew
        omega
      · exact mem_takeWhile_of_ranked htied htail (fun a ha => hcross last hmemLast a ha) hx
          hlevel.symm

/-! ### Runs of ties -/

theorem pair_mem_splitBy {r : α → α → Bool} (hr : ∀ a b, r a b = true ↔ key a = key b)
    (hranked : l.Pairwise fun a b => key a ≤ key b) {x y : α} (hxy : [x, y].Sublist l)
    (hlevel : key x = key y) : ∃ run ∈ l.splitBy r, [x, y].Sublist run := by
  have hnil := List.nil_notMem_splitBy r l
  have hchain := List.isChain_getLast_head_splitBy r l
  rw [← List.flatten_splitBy r l] at hranked hxy
  generalize l.splitBy r = runs at hnil hchain hranked hxy
  induction runs with
  | nil =>
    rw [List.flatten_nil, List.sublist_nil] at hxy
    cases hxy
  | cons run runs ih =>
    have hnil' : [] ∉ runs := fun h => hnil (List.mem_cons_of_mem run h)
    rw [List.flatten_cons] at hranked hxy
    obtain ⟨-, hrest, hcross⟩ := List.pairwise_append.1 hranked
    obtain ⟨hfirst, hchain'⟩ := List.isChain_cons.1 hchain
    obtain ⟨us, vs, huv, hu, hv⟩ := List.sublist_append_iff.1 hxy
    rcases us with _ | ⟨u, _ | ⟨u', us⟩⟩
    · obtain rfl : [x, y] = vs := huv
      obtain ⟨run', hrun', hsub⟩ := ih hnil' hchain' hrest hv
      exact ⟨run', List.mem_cons_of_mem run hrun', hsub⟩
    · -- The last of this run and the first of the next lie between the two.
      obtain ⟨rfl, rfl⟩ : x = u ∧ [y] = vs := by simpa using huv
      cases runs with
      | nil =>
        rw [List.flatten_nil, List.sublist_nil] at hv
        cases hv
      | cons next runs =>
        obtain ⟨hne, hne', hbreak⟩ := hfirst next rfl
        have hx : x ∈ run := List.singleton_sublist.1 hu
        have hy : y ∈ (next :: runs).flatten := List.singleton_sublist.1 hv
        have hhead : next.head hne' ∈ (next :: runs).flatten :=
          List.mem_flatten.2 ⟨next, List.mem_cons_self, List.head_mem hne'⟩
        have hxlast : key x ≤ key (run.getLast hne) := by
          have hrun := (List.pairwise_append.1 hranked).1
          rw [← List.dropLast_append_getLast hne, List.pairwise_append] at hrun
          rw [← List.dropLast_append_getLast hne] at hx
          rcases List.mem_append.1 hx with hx | hx
          · exact hrun.2.2 x hx _ List.mem_cons_self
          · exact (congrArg key (List.mem_singleton.1 hx)).le
        have hheady : key (next.head hne') ≤ key y := by
          have hsplit : (next :: runs).flatten =
              next.head hne' :: (next.tail ++ runs.flatten) := by
            rw [List.flatten_cons, ← List.cons_append, List.cons_head_tail]
          rw [hsplit] at hrest hy
          rcases List.mem_cons.1 hy with rfl | hy
          · exact le_rfl
          · exact (List.pairwise_cons.1 hrest).1 y hy
        have hbetween := hcross _ (List.getLast_mem hne) _ hhead
        have hsame : key (run.getLast hne) = key (next.head hne') :=
          le_antisymm hbetween (hheady.trans (hlevel ▸ hxlast))
        rw [(hr _ _).2 hsame] at hbreak
        cases hbreak
    · obtain ⟨rfl, rfl, rfl, rfl⟩ : x = u ∧ y = u' ∧ [] = us ∧ [] = vs := by
        simpa [List.nil_eq_append_iff, and_assoc] using huv
      exact ⟨run, List.mem_cons_self, hu⟩

end Ranked

end TopTies

/-!
## Prizes shared among ties

Prizes go by place, and those who are level share the prizes of the places they take together:
each gets their mean. What one gets depends on how many are above and how many are level, so it is
the same in every order of the others; and all the prizes are given.
-/

namespace TieShares

variable {α K : Type*} {prizes : List ℚ} {place count place' count' : ℕ}

/-- The mean of the prizes of `count` places from `place` on. -/
def share (prizes : List ℚ) (place count : ℕ) : ℚ := ((prizes.drop place).take count).sum / count

/-- Group after group takes its places. -/
def award (prizes : List ℚ) : ℕ → List (List α) → List (α × ℚ)
  | _, [] => []
  | place, group :: rest =>
    group.map (fun x => (x, share prizes place group.length)) ++
      award prizes (place + group.length) rest

/-! ### Shares -/

theorem mul_share (h : 0 < count) :
    count * share prizes place count = ((prizes.drop place).take count).sum := by
  have hne : (count : ℚ) ≠ 0 := Nat.cast_ne_zero.2 h.ne'
  rw [share, mul_div_cancel₀ _ hne]

theorem share_le_share (hfall : prizes.Pairwise fun a b => b ≤ a) (hcount : 0 < count)
    (hcount' : 0 < count') (hplace : place + count ≤ place')
    (hlength : place' + count' ≤ prizes.length) :
    share prizes place' count' ≤ share prizes place count := by
  have hlt : place' < prizes.length := by omega
  have horder : ∀ i j (hi : i < prizes.length) (hj : j < prizes.length), i ≤ j →
      prizes[j] ≤ prizes[i] := by
    intro i j hi hj hij
    rcases hij.lt_or_eq with hlt | rfl
    · exact List.pairwise_iff_getElem.1 hfall i j hi hj hlt
    · exact le_rfl
  have hpos : (0 : ℚ) < count := Nat.cast_pos.2 hcount
  have hpos' : (0 : ℚ) < count' := Nat.cast_pos.2 hcount'
  calc share prizes place' count' ≤ prizes[place'] := by
        rw [share, div_le_iff₀ hpos']
        have hsum := List.sum_le_card_nsmul ((prizes.drop place').take count') prizes[place']
          fun x hx => by
            obtain ⟨i, hi, rfl⟩ := List.mem_take_iff_getElem.1 hx
            rw [List.getElem_drop]
            exact horder _ _ _ _ (Nat.le_add_right _ _)
        have htaken : ((prizes.drop place').take count').length = count' := by
          rw [List.length_take, List.length_drop]
          omega
        rw [htaken, nsmul_eq_mul, mul_comm] at hsum
        exact hsum
    _ ≤ share prizes place count := by
        rw [share, le_div_iff₀ hpos]
        have hsum := List.card_nsmul_le_sum ((prizes.drop place).take count) prizes[place']
          fun x hx => by
            obtain ⟨i, hi, rfl⟩ := List.mem_take_iff_getElem.1 hx
            rw [List.getElem_drop]
            exact horder _ _ _ _ (by omega)
        have htaken : ((prizes.drop place).take count).length = count := by
          rw [List.length_take, List.length_drop]
          omega
        rw [htaken, nsmul_eq_mul, mul_comm] at hsum
        exact hsum

/-! ### Groups -/

theorem sum_award (groups : List (List α)) (hgroups : ∀ g ∈ groups, g ≠ []) (place : ℕ) :
    ((award prizes place groups).map Prod.snd).sum =
      ((prizes.drop place).take groups.flatten.length).sum := by
  induction groups generalizing place with
  | nil => simp [award]
  | cons g groups ih =>
    have hg : 0 < g.length := List.length_pos_of_ne_nil (hgroups g List.mem_cons_self)
    rw [award, List.map_append, List.sum_append, List.map_map,
      ih (fun g' hg' => hgroups g' (List.mem_cons_of_mem _ hg')), List.flatten_cons,
      List.length_append, List.take_add, List.sum_append, List.drop_drop]
    congr 1
    rw [← mul_share hg]
    simp [Function.comp_def]

variable [LinearOrder K] {key : α → K}

/-- The groups are level, and each is above the next. -/
structure Falls (key : α → K) (groups : List (List α)) : Prop where
  level : ∀ g ∈ groups, ∀ a ∈ g, ∀ b ∈ g, key a = key b
  below : groups.Pairwise fun g g' => ∀ a ∈ g, ∀ b ∈ g', key b < key a

theorem award_eq (groups : List (List α)) (h : Falls key groups) (place : ℕ) :
    award prizes place groups = groups.flatten.map fun x =>
      (x, share prizes (place + groups.flatten.countP fun a => decide (key x < key a))
        (groups.flatten.countP fun a => decide (key a = key x))) := by
  induction groups generalizing place with
  | nil => rfl
  | cons g groups ih =>
    obtain ⟨hbelow, hrest⟩ := List.pairwise_cons.1 h.below
    have hunder : ∀ x ∈ g, ∀ a ∈ groups.flatten, key a < key x := by
      intro x hx a ha
      obtain ⟨g', hg', ha'⟩ := List.mem_flatten.1 ha
      exact hbelow g' hg' x hx a ha'
    rw [award, ih ⟨fun g' hg' => h.level g' (List.mem_cons_of_mem _ hg'), hrest⟩,
      List.flatten_cons, List.map_append]
    congr 1
    · refine List.map_congr_left fun x hx => ?_
      have habove : g.countP (fun a => decide (key x < key a)) = 0 := by
        rw [List.countP_eq_zero]
        intro a ha
        simp [h.level g List.mem_cons_self a ha x hx]
      have habove' : groups.flatten.countP (fun a => decide (key x < key a)) = 0 := by
        rw [List.countP_eq_zero]
        intro a ha
        simpa using (hunder x hx a ha).le
      have hlevel : g.countP (fun a => decide (key a = key x)) = g.length := by
        rw [List.countP_eq_length]
        intro a ha
        simp [h.level g List.mem_cons_self a ha x hx]
      have hlevel' : groups.flatten.countP (fun a => decide (key a = key x)) = 0 := by
        rw [List.countP_eq_zero]
        intro a ha
        simpa using (hunder x hx a ha).ne
      rw [List.countP_append, List.countP_append, habove, habove', hlevel, hlevel']
      rfl
    · refine List.map_congr_left fun x hx => ?_
      have habove : g.countP (fun a => decide (key x < key a)) = g.length := by
        rw [List.countP_eq_length]
        intro a ha
        simpa using hunder a ha x hx
      have hlevel : g.countP (fun a => decide (key a = key x)) = 0 := by
        rw [List.countP_eq_zero]
        intro a ha
        simpa using (hunder a ha x hx).ne'
      rw [List.countP_append, List.countP_append, habove, hlevel, Nat.zero_add, Nat.add_assoc]

theorem falls_splitBy {l : List α} {r : α → α → Bool} (hr : ∀ a b, r a b = true ↔ key a = key b)
    (hranked : l.Pairwise fun a b => key b ≤ key a) : Falls key (l.splitBy r) := by
  have hlevel : ∀ g ∈ l.splitBy r, ∀ a ∈ g, ∀ b ∈ g, key a = key b := by
    intro g hg a ha b hb
    have hpairs := TopTies.level_of_mem_splitBy hr hg
    have hsymm : Std.Symm fun a b => key a = key b := ⟨fun _ _ => Eq.symm⟩
    exact List.Pairwise.forall_of_forall (R := fun a b => key a = key b) (fun _ _ => rfl) hpairs
      ha hb
  refine ⟨hlevel, ?_⟩
  have horder : (l.splitBy r).Pairwise fun g g' => ∀ a ∈ g, ∀ b ∈ g', key b ≤ key a := by
    have hflat : (l.splitBy r).flatten.Pairwise fun a b => key b ≤ key a := by
      rwa [List.flatten_splitBy]
    exact (List.pairwise_flatten.1 hflat).2
  -- Neighbours differ at the break, so they fall; nobody is between them.
  have hchain : (l.splitBy r).IsChain fun g g' =>
      g ≠ [] ∧ g' ≠ [] ∧ ∀ a ∈ g, ∀ b ∈ g', key b < key a := by
    rw [List.isChain_iff_getElem]
    intro i hi
    obtain ⟨hne, hne', hbreak⟩ := List.isChain_iff_getElem.1
      (List.isChain_getLast_head_splitBy r l) i hi
    refine ⟨hne, hne', fun a ha b hb => ?_⟩
    have hle := List.pairwise_iff_getElem.1 horder i (i + 1) (by omega) hi (Nat.lt_succ_self i)
    refine lt_of_le_of_ne (hle a ha b hb) fun heq => ?_
    have hlast := hlevel _ (List.getElem_mem _) _ (List.getLast_mem hne) a ha
    have hhead := hlevel _ (List.getElem_mem _) _ (List.head_mem hne') b hb
    have htied := (hr _ _).2 (hlast.trans (heq.symm.trans hhead.symm))
    rw [hbreak] at htied
    cases htied
  have htrans : IsTrans (List α) fun g g' =>
      g ≠ [] ∧ g' ≠ [] ∧ ∀ a ∈ g, ∀ b ∈ g', key b < key a := by
    refine ⟨fun g g' g'' h h' => ⟨h.1, h'.2.1, fun a ha b hb => ?_⟩⟩
    obtain ⟨c, hc⟩ := List.exists_mem_of_ne_nil g' h.2.1
    exact (h'.2.2 c hc b hb).trans (h.2.2 a ha c hc)
  exact (List.isChain_iff_pairwise.1 hchain).imp fun h => h.2.2

end TieShares

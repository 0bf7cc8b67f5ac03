import Mathlib.Data.List.Perm.Basic
import Archon.Engine.Sheet
import Archon.Properties.FinalsPhase
import Archon.Library.Ranking

/-!
# The random toss settles the qualification

`RandomToss` orders every group of level scores that reaches into the first five. Who is in these
groups depends on the scores alone, so the ranking by the new tosses has the same groups, each of
them ordered: the finals then draw their five without a tie.
-/

namespace Archon.Engine
open Guards TopTies Seating

/-! ### Ranking without the uid -/

/-- What a place is earned by. -/
abbrev ScoreKey := ℚᵒᵈ ×ₗ ℚᵒᵈ ×ₗ ℚᵒᵈ

/-- Points, most first. -/
def scoreKey (s : Standing) : ScoreKey :=
  toLex (OrderDual.toDual s.gw, toLex (OrderDual.toDual s.vp, OrderDual.toDual s.tp))

/-- One row is seeded before another: by score, then by the higher toss. -/
def SeededBefore (a b : Standing) : Prop :=
  scoreKey a < scoreKey b ∨ (scoreKey a = scoreKey b ∧ b.toss < a.toss)

/-- The candidates who play for the five places: the first five and whoever is level with the
last of them. -/
def contenders (candidates : List Standing) : List Standing := topTied scoresTied 5 candidates

theorem scoresTied_iff (a b : Standing) : scoresTied a b = true ↔ scoreKey a = scoreKey b := by
  simp [scoresTied, scoreKey, and_assoc]

theorem scoreKey_of_rankKey {a b : Standing}
    (ha : (a.disqualified || a.nonCompeting) = false)
    (hb : (b.disqualified || b.nonCompeting) = false) (h : rankKey a ≤ rankKey b) :
    scoreKey a < scoreKey b ∨ (scoreKey a = scoreKey b ∧ b.toss ≤ a.toss) := by
  simp only [rankKey, ha, hb, Prod.Lex.toLex_le_toLex, lt_self_iff_false, false_or, true_and] at h
  simp only [scoreKey, Prod.Lex.toLex_lt_toLex, EmbeddingLike.apply_eq_iff_eq, Prod.mk.injEq,
    OrderDual.toDual_lt_toDual] at h ⊢
  rcases h with h | ⟨h, h'⟩
  · exact .inl (.inl h)
  rcases h' with h' | ⟨h', h''⟩
  · exact .inl (.inr ⟨h, .inl h'⟩)
  rcases h'' with h'' | ⟨h'', h3⟩
  · exact .inl (.inr ⟨h, .inr ⟨h', h''⟩⟩)
  refine .inr ⟨⟨h, h', h''⟩, ?_⟩
  rcases h3 with h3 | ⟨h3, -⟩
  · exact h3.le
  · exact h3.ge

/-! ### The shuffle -/

theorem swapIdx_perm {α : Type} (xs : List α) (i j : ℕ) : (swapIdx xs i j).Perm xs := by
  unfold swapIdx
  split
  · rename_i a b ha hb
    obtain ⟨hi, rfl⟩ := List.getElem?_eq_some_iff.1 ha
    obtain ⟨hj, rfl⟩ := List.getElem?_eq_some_iff.1 hb
    exact List.set_set_perm hi hj
  · exact List.Perm.refl xs

theorem lcgShuffle_perm {α : Type} (k : ℕ) (rng : UInt64) (xs : List α) :
    (lcgShuffle k rng xs).Perm xs := by
  induction k generalizing rng xs with
  | zero => exact List.Perm.refl xs
  | succ k ih => exact (ih _ _).trans (swapIdx_perm xs _ _)

/-! ### The tosses -/

/-- The toss a row of the player shows. -/
def tossOf (players : List Player) (uid : Uid) : ℕ := (findPlayer players uid).elim 0 Player.toss

section Tosses

variable {players : List Player}

theorem tossOf_update_self {uid : Uid} (h : some uid ∈ rosterUids players) (n : ℕ) :
    tossOf (updatePlayer players uid fun p => { p with toss := n }) uid = n := by
  rw [tossOf, findPlayer_update_self (f := fun p => { p with toss := n }) fun _ => rfl]
  cases hp : findPlayer players uid with
  | none => exact absurd h (findPlayer_eq_none.1 hp)
  | some p => rfl

theorem tossOf_update_ne {u uid : Uid} (h : u ≠ uid) (n : ℕ) :
    tossOf (updatePlayer players uid fun p => { p with toss := n }) u = tossOf players u := by
  rw [tossOf, findPlayer_update_ne (f := fun p => { p with toss := n }) (fun _ => rfl) h, tossOf]

theorem assignTosses_spec {uids : List Uid} (hnodup : uids.Nodup)
    (hroster : ∀ u ∈ uids, some u ∈ rosterUids players) (n : ℕ) :
    uids.map (tossOf (assignTosses (players, n) uids).1) = List.range' n uids.length ∧
      (∀ u ∉ uids, tossOf (assignTosses (players, n) uids).1 u = tossOf players u) ∧
      rosterUids (assignTosses (players, n) uids).1 = rosterUids players ∧
      n ≤ (assignTosses (players, n) uids).2 := by
  induction uids generalizing players n with
  | nil => exact ⟨rfl, fun _ _ => rfl, rfl, le_rfl⟩
  | cons uid uids ih =>
    obtain ⟨hnew, hrest⟩ := List.nodup_cons.1 hnodup
    obtain ⟨players', hplayers'⟩ :
        ∃ ps, ps = updatePlayer players uid fun p => { p with toss := n } := ⟨_, rfl⟩
    have huids : rosterUids players' = rosterUids players := by
      rw [hplayers', rosterUids_updatePlayer (f := fun p => { p with toss := n }) fun _ => rfl]
    have hstep : assignTosses (players, n) (uid :: uids) = assignTosses (players', n + 1) uids := by
      rw [hplayers']
      rfl
    obtain ⟨hmap, hother, hroster', hle⟩ := ih hrest
      (fun u hu => huids ▸ hroster u (List.mem_cons_of_mem uid hu)) (n + 1)
    rw [hstep]
    refine ⟨?_, fun u hu => ?_, hroster'.trans huids, by omega⟩
    · have hself : tossOf (assignTosses (players', n + 1) uids).1 uid = n := by
        rw [hother uid hnew, hplayers', tossOf_update_self (hroster uid List.mem_cons_self)]
      rw [List.map_cons, hself, hmap, List.length_cons, List.range'_succ]
    · rw [List.mem_cons, not_or] at hu
      rw [hother u hu.2, hplayers', tossOf_update_ne hu.1]

/-- The members of a group hold tosses of their own. -/
def Ordered (players : List Player) (uids : List Uid) : Prop :=
  (uids.map (tossOf players)).Nodup ∧ ∀ u ∈ uids, tossOf players u ≠ 0

theorem Ordered.perm {uids uids' : List Uid} (h : Ordered players uids) (hperm : uids.Perm uids') :
    Ordered players uids' :=
  ⟨(hperm.map _).nodup_iff.1 h.1, fun u hu => h.2 u (hperm.mem_iff.2 hu)⟩

theorem Ordered.congr {players' : List Player} {uids : List Uid} (h : Ordered players uids)
    (hsame : ∀ u ∈ uids, tossOf players' u = tossOf players u) : Ordered players' uids := by
  refine ⟨?_, fun u hu => hsame u hu ▸ h.2 u hu⟩
  rw [List.map_congr_left hsame]
  exact h.1

theorem tossGroup_spec (seed : UInt64) {group : ℕ × List Standing} {n : ℕ} (hn : 1 ≤ n)
    (hnodup : (group.2.map Standing.userUid).Nodup)
    (hroster : ∀ r ∈ group.2, some r.userUid ∈ rosterUids players)
    (htoss : ∀ r ∈ group.2, r.toss = tossOf players r.userUid) :
    Ordered (tossGroup seed (players, n) group).1 (group.2.map Standing.userUid) ∧
      (∀ u ∉ group.2.map Standing.userUid,
        tossOf (tossGroup seed (players, n) group).1 u = tossOf players u) ∧
      rosterUids (tossGroup seed (players, n) group).1 = rosterUids players ∧
      1 ≤ (tossGroup seed (players, n) group).2 := by
  unfold tossGroup
  split
  · rename_i htotal
    refine ⟨?_, fun _ _ => rfl, rfl, hn⟩
    simp only [tossesAreTotal, Bool.and_eq_true, decide_eq_true_eq, List.all_eq_true, bne_iff_ne]
      at htotal
    have hmap : (group.2.map Standing.userUid).map (tossOf players) =
        group.2.map Standing.toss := by
      rw [List.map_map]
      exact List.map_congr_left fun r hr => (htoss r hr).symm
    refine ⟨hmap ▸ htotal.1, fun u hu => ?_⟩
    obtain ⟨r, hr, rfl⟩ := List.mem_map.1 hu
    exact htoss r hr ▸ htotal.2 r hr
  · extract_lets shuffled
    have hperm : (shuffled.map Standing.userUid).Perm (group.2.map Standing.userUid) :=
      (lcgShuffle_perm _ _ _).map _
    obtain ⟨hmap, hother, hroster', hle⟩ := assignTosses_spec (hperm.nodup_iff.2 hnodup)
      (fun u hu => by
        obtain ⟨r, hr, rfl⟩ := List.mem_map.1 (hperm.mem_iff.1 hu)
        exact hroster r hr) n
    refine ⟨Ordered.perm ⟨?_, fun u hu => ?_⟩ hperm,
      fun u hu => hother u fun hmem => hu (hperm.mem_iff.1 hmem), hroster', hn.trans hle⟩
    · rw [hmap]
      exact List.nodup_range'
    · have hmem : tossOf (assignTosses (players, n) (shuffled.map Standing.userUid)).1 u ∈ _ :=
        List.mem_map_of_mem hu
      rw [hmap, List.mem_range'_1] at hmem
      omega

theorem tossGroups_spec (seed : UInt64) {groups : List (ℕ × List Standing)} {n : ℕ} (hn : 1 ≤ n)
    (hnodup : ((groups.flatMap Prod.snd).map Standing.userUid).Nodup)
    (hroster : ∀ group ∈ groups, ∀ r ∈ group.2, some r.userUid ∈ rosterUids players)
    (htoss : ∀ group ∈ groups, ∀ r ∈ group.2, r.toss = tossOf players r.userUid) :
    (∀ group ∈ groups, Ordered (groups.foldl (tossGroup seed) (players, n)).1
        (group.2.map Standing.userUid)) ∧
      ∀ u ∉ (groups.flatMap Prod.snd).map Standing.userUid,
        tossOf (groups.foldl (tossGroup seed) (players, n)).1 u = tossOf players u := by
  induction groups generalizing players n with
  | nil => exact ⟨fun _ h => absurd h List.not_mem_nil, fun _ _ => rfl⟩
  | cons group groups ih =>
    rw [List.flatMap_cons, List.map_append, List.nodup_append] at hnodup
    obtain ⟨hfirst, hrest, hapart⟩ := hnodup
    obtain ⟨hordered, hother, huids, hle⟩ := tossGroup_spec seed hn hfirst
      (hroster group List.mem_cons_self) (htoss group List.mem_cons_self)
    obtain ⟨acc, hacc⟩ : ∃ acc, acc = tossGroup seed (players, n) group := ⟨_, rfl⟩
    rw [← hacc] at hordered hother huids hle
    rw [List.foldl_cons, ← hacc, show acc = (acc.1, acc.2) from rfl]
    -- The later groups have other members.
    have hlater : ∀ group' ∈ groups, ∀ r ∈ group'.2,
        r.userUid ∉ group.2.map Standing.userUid := by
      intro group' hgroup' r hr hmem
      have hr' : r.userUid ∈ (groups.flatMap Prod.snd).map Standing.userUid :=
        List.mem_map_of_mem (List.mem_flatMap.2 ⟨group', hgroup', hr⟩)
      exact hapart _ hmem _ hr' rfl
    obtain ⟨hall, hrest'⟩ := ih hle hrest
      (fun group' hgroup' r hr => huids ▸ hroster group' (List.mem_cons_of_mem _ hgroup') r hr)
      (fun group' hgroup' r hr => by
        rw [hother _ (hlater group' hgroup' r hr)]
        exact htoss group' (List.mem_cons_of_mem _ hgroup') r hr)
    refine ⟨fun group' hgroup' => ?_, fun u hu => ?_⟩
    · rcases List.mem_cons.1 hgroup' with rfl | hgroup'
      · exact hordered.congr fun u hu => hrest' u fun hmem => hapart u hu u hmem rfl
      · exact hall group' hgroup'
    · rw [List.flatMap_cons, List.map_append, List.mem_append, not_or] at hu
      rw [hrest' u hu.2, hother u hu.1]

end Tosses

/-! ### Ranked candidates -/

section Candidates

variable {candidates : List Standing}

/-- Candidates in the order of the sheet. -/
def Ranked (candidates : List Standing) : Prop :=
  candidates.Pairwise fun a b =>
    scoreKey a < scoreKey b ∨ (scoreKey a = scoreKey b ∧ b.toss ≤ a.toss)

theorem Ranked.scores (h : Ranked candidates) :
    candidates.Pairwise fun a b => scoreKey a ≤ scoreKey b :=
  h.imp fun h => h.elim le_of_lt fun h => h.1.le

/-- How many have a better score. -/
def scoredAbove (candidates : List Standing) (score : ScoreKey) : ℕ :=
  candidates.countP fun a => decide (scoreKey a < score)

theorem mem_contenders_iff (h : Ranked candidates) {x : Standing} :
    x ∈ contenders candidates ↔ x ∈ candidates ∧ scoredAbove candidates (scoreKey x) < 5 :=
  mem_topTied_iff (by decide) scoresTied_iff h.scores

theorem mem_contenders_of_tied (h : Ranked candidates) {x y : Standing}
    (hx : x ∈ contenders candidates) (hy : y ∈ candidates) (hlevel : scoreKey x = scoreKey y) :
    y ∈ contenders candidates := by
  rw [mem_contenders_iff h] at hx ⊢
  exact ⟨hy, hlevel ▸ hx.2⟩

theorem take_subset_contenders {x : Standing} (hx : x ∈ candidates.take 5) :
    x ∈ contenders candidates := by
  have htake : candidates.take (min candidates.length 5) = candidates.take 5 := by
    rw [List.take_eq_take_iff]
    omega
  rw [← htake] at hx
  exact List.mem_append_left _ hx

/-! ### The groups -/

/-- A run of the pool as a group to toss. -/
def groupOf (run : List (Standing × ℕ)) : Option (ℕ × List Standing) :=
  match run with
  | (first, start) :: rest =>
    if rest = [] then none else some (start, first :: rest.map Prod.fst)
  | [] => none

/-- The runs of level scores among the contenders. -/
def scoreRuns (candidates : List Standing) : List (List (Standing × ℕ)) :=
  (contenders candidates).zipIdx.splitBy fun a b => scoresTied b.1 a.1

theorem tossGroups_eq (candidates : List Standing) :
    tossGroups candidates = (scoreRuns candidates).filterMap groupOf := by
  unfold tossGroups
  extract_lets cutoff extra pool groups
  have hpool : pool = (contenders candidates).zipIdx := by
    simp only [pool, extra, contenders, topTied]
    cases candidates[cutoff - 1]? <;> rfl
  have hgroups : groups = scoreRuns candidates := by rw [scoreRuns, ← hpool]
  refine congrArg₂ List.filterMap (funext fun run => ?_) hgroups
  cases run <;> rfl

theorem groupOf_eq_some {run : List (Standing × ℕ)} {group : ℕ × List Standing}
    (h : groupOf run = some group) : group.2 = run.map Prod.fst ∧ 2 ≤ run.length := by
  unfold groupOf at h
  split at h
  · rename_i first start rest
    split at h
    · cases h
    · rename_i hrest
      obtain rfl := Option.some.inj h
      exact ⟨rfl, Nat.succ_le_succ (List.length_pos_of_ne_nil hrest)⟩
  · cases h

theorem exists_groupOf {run : List (Standing × ℕ)} (h : 2 ≤ run.length) :
    ∃ group, groupOf run = some group := by
  match run, h with
  | (first, start) :: a :: rest, _ => exact ⟨_, rfl⟩

theorem members_sublist (candidates : List Standing) :
    ((tossGroups candidates).flatMap Prod.snd).Sublist (contenders candidates) := by
  have hflat : (scoreRuns candidates).flatten.map Prod.fst = contenders candidates := by
    rw [scoreRuns, List.flatten_splitBy, List.zipIdx_map_fst]
  rw [tossGroups_eq, ← hflat]
  generalize scoreRuns candidates = runs
  induction runs with
  | nil => exact List.Sublist.refl []
  | cons run runs ih =>
    rw [List.flatten_cons, List.map_append, List.filterMap_cons]
    split
    · exact ih.trans (List.sublist_append_right _ _)
    · rename_i group hgroup
      rw [List.flatMap_cons, (groupOf_eq_some hgroup).1]
      exact (List.Sublist.refl _).append ih

theorem mem_contenders_of_group {group : ℕ × List Standing} (h : group ∈ tossGroups candidates)
    {r : Standing} (hr : r ∈ group.2) : r ∈ contenders candidates :=
  (members_sublist candidates).subset (List.mem_flatMap.2 ⟨group, h, hr⟩)

theorem group_of_pair (h : Ranked candidates) {x y : Standing}
    (hxy : [x, y].Sublist (contenders candidates)) (hlevel : scoreKey x = scoreKey y) :
    ∃ group ∈ tossGroups candidates, [x, y].Sublist group.2 := by
  have hranked : ((contenders candidates).zipIdx).Pairwise
      fun a b => scoreKey a.1 ≤ scoreKey b.1 := by
    refine (List.pairwise_map (f := Prod.fst) (R := fun a b => scoreKey a ≤ scoreKey b)).1 ?_
    rw [List.zipIdx_map_fst]
    exact h.scores.sublist (topTied_subset _ _ _)
  have hruns : ∀ a b : Standing × ℕ, scoresTied b.1 a.1 = true ↔ scoreKey a.1 = scoreKey b.1 :=
    fun a b => (scoresTied_iff b.1 a.1).trans eq_comm
  rw [← List.zipIdx_map_fst 0 (contenders candidates), List.sublist_map_iff] at hxy
  obtain ⟨places, hplaces, hmap⟩ := hxy
  match places, hmap with
  | [(_, i), (_, j)], rfl =>
    obtain ⟨run, hrun, hsub⟩ := pair_mem_splitBy hruns hranked hplaces hlevel
    obtain ⟨group, hgroup⟩ := exists_groupOf hsub.length_le
    refine ⟨group, ?_, ?_⟩
    · rw [tossGroups_eq, List.mem_filterMap]
      exact ⟨run, hrun, hgroup⟩
    · rw [(groupOf_eq_some hgroup).1]
      exact hsub.map Prod.fst

theorem level_of_mem_tossGroups {group : ℕ × List Standing} (h : group ∈ tossGroups candidates) :
    2 ≤ group.2.length ∧ group.2.Pairwise fun a b => scoreKey a = scoreKey b := by
  rw [tossGroups_eq, List.mem_filterMap] at h
  obtain ⟨run, hrun, hgroup⟩ := h
  obtain ⟨heq, hlength⟩ := groupOf_eq_some hgroup
  have hruns : ∀ a b : Standing × ℕ, scoresTied b.1 a.1 = true ↔ scoreKey a.1 = scoreKey b.1 :=
    fun a b => (scoresTied_iff b.1 a.1).trans eq_comm
  rw [heq, List.length_map, List.pairwise_map]
  exact ⟨hlength, level_of_mem_splitBy hruns hrun⟩

/-! ### Settled ties -/

/-- Contenders who are level hold tosses of their own. -/
def TiesSettled (candidates : List Standing) : Prop :=
  ∀ a ∈ contenders candidates, ∀ b ∈ contenders candidates,
    a ≠ b → scoreKey a = scoreKey b → a.toss ≠ b.toss ∧ a.toss ≠ 0

theorem TiesSettled.seededBefore (h : TiesSettled candidates) (hranked : Ranked candidates)
    {a b : Standing} (ha : a ∈ contenders candidates) (hb : b ∈ candidates) (hne : a ≠ b)
    (hab : scoreKey a < scoreKey b ∨ (scoreKey a = scoreKey b ∧ b.toss ≤ a.toss)) :
    SeededBefore a b := by
  refine hab.imp_right fun hlevel => ⟨hlevel.1, lt_of_le_of_ne hlevel.2 fun heq => ?_⟩
  exact (h a ha b (mem_contenders_of_tied hranked ha hb hlevel.1) hne hlevel.1).1 heq.symm

theorem TiesSettled.firstFive (h : TiesSettled candidates) (hranked : Ranked candidates)
    (hnodup : candidates.Nodup) : (candidates.take 5).Pairwise SeededBefore ∧
      ∀ a ∈ candidates.take 5, ∀ b ∈ candidates.drop 5, SeededBefore a b := by
  have hall := hranked.and hnodup
  conv at hall => rw [← List.take_append_drop 5 candidates]
  obtain ⟨htop, -, hcross⟩ := List.pairwise_append.1 hall
  refine ⟨List.Pairwise.imp_of_mem (fun ha hb hab => ?_) htop, fun a ha b hb => ?_⟩
  · exact h.seededBefore hranked (take_subset_contenders ha) (List.mem_of_mem_take hb) hab.2 hab.1
  · obtain ⟨hab, hne⟩ := hcross a ha b hb
    exact h.seededBefore hranked (take_subset_contenders ha) (List.mem_of_mem_drop hb) hne hab

theorem SeededBefore.not_tied {a b : Standing} (h : SeededBefore a b) :
    (scoresTied a b && a.toss == b.toss) = false := by
  rw [Bool.and_eq_false_imp, scoresTied_iff]
  intro hlevel
  rcases h with h | ⟨-, h⟩
  · exact absurd hlevel h.ne
  · simpa using h.ne'

theorem scoresTied_comm (a b : Standing) : scoresTied a b = scoresTied b a := by
  rw [Bool.eq_iff_iff, scoresTied_iff, scoresTied_iff, eq_comm]

theorem TiesSettled.noTies (h : TiesSettled candidates) (hranked : Ranked candidates)
    (hnodup : candidates.Nodup) : top5HasTies candidates = false := by
  obtain ⟨htop, hcross⟩ := h.firstFive hranked hnodup
  match candidates with
  | [] | [_] | [_, _] | [_, _, _] | [_, _, _, _] => rfl
  | a :: b :: c :: d :: e :: rest =>
    have htake : (a :: b :: c :: d :: e :: rest).take 5 = [a, b, c, d, e] := rfl
    have hdrop : (a :: b :: c :: d :: e :: rest).drop 5 = rest := rfl
    rw [htake] at htop hcross
    rw [hdrop] at hcross
    have hrest : (rest.any fun s => scoresTied s e && s.toss == e.toss) = false := by
      rw [List.any_eq_false]
      intro s hs
      rw [scoresTied_comm, BEq.comm, (hcross e (by simp) s hs).not_tied]
      exact Bool.false_ne_true
    simp only [List.pairwise_cons, List.mem_cons, List.not_mem_nil, or_false, forall_eq_or_imp,
      forall_eq] at htop
    obtain ⟨⟨hab, hac, had, hae⟩, ⟨hbc, hbd, hbe⟩, ⟨hcd, hce⟩, hde, -⟩ := htop
    simp only [top5HasTies, hab.not_tied, hac.not_tied, had.not_tied, hae.not_tied, hbc.not_tied,
      hbd.not_tied, hbe.not_tied, hcd.not_tied, hce.not_tied, hde.not_tied, hrest, Bool.or_self]

theorem TiesSettled.total (h : TiesSettled candidates) (hnodup : candidates.Nodup)
    {group : ℕ × List Standing} (hgroup : group ∈ tossGroups candidates) :
    tossesAreTotal group.2 = true := by
  obtain ⟨hlength, hlevel⟩ := level_of_mem_tossGroups hgroup
  have hmem : ∀ r ∈ group.2, r ∈ contenders candidates :=
    fun r hr => mem_contenders_of_group hgroup hr
  have hsub : group.2.Sublist ((tossGroups candidates).flatMap Prod.snd) :=
    List.sublist_flatten_of_mem (List.mem_map_of_mem hgroup)
  have hgroupNodup : group.2.Nodup :=
    hnodup.sublist (hsub.trans ((members_sublist candidates).trans (topTied_subset _ _ _)))
  have hapart := List.Pairwise.imp_of_mem (S := fun a b =>
      a.toss ≠ b.toss ∧ a.toss ≠ 0 ∧ b.toss ≠ 0)
    (fun {a b} ha hb hab =>
      have hab' := h a (hmem a ha) b (hmem b hb) hab.2 hab.1
      ⟨hab'.1, hab'.2, (h b (hmem b hb) a (hmem a ha) hab.2.symm hab.1.symm).2⟩)
    (hlevel.and hgroupNodup)
  simp only [tossesAreTotal, Bool.and_eq_true, decide_eq_true_eq, List.all_eq_true, bne_iff_ne]
  refine ⟨List.pairwise_map.2 (hapart.imp fun hab => hab.1), ?_⟩
  match group.2, hlength, hapart with
  | a :: b :: rest, _, hapart =>
    obtain ⟨hfirst, -⟩ := List.pairwise_cons.1 hapart
    intro r hr
    rcases List.mem_cons.1 hr with rfl | hr
    · exact (hfirst b List.mem_cons_self).2.1
    · exact (hfirst r hr).2.2

end Candidates

/-! ### The pool after the toss -/

section Toss

variable {t : Tournament} {sanctions : List Sanction}

/-- The seats of the rounds belong to the roster, as in every tournament the engine reaches. -/
def SeatsOnRoster (t : Tournament) : Prop :=
  ∀ uid ∈ seatedUids t.rounds, some uid ∈ rosterUids t.players

instance (t : Tournament) : Decidable (SeatsOnRoster t) :=
  inferInstanceAs (Decidable (∀ uid ∈ seatedUids t.rounds, some uid ∈ rosterUids t.players))

theorem seatsOnRoster_of_reachable {rs : RandomSource} (h : (engineSystem rs).Reachable t) :
    SeatsOnRoster t :=
  (Shape.of_reachable h).onRoster

/-- The document after `RandomToss`. -/
def tossedDoc (t : Tournament) (sanctions : List Sanction) : Tournament :=
  { t with players := tossedPlayers t sanctions }

/-- A row with the toss the roster now shows. -/
def retoss (players : List Player) (r : Standing) : Standing :=
  { r with toss := tossOf players r.userUid }

theorem scoreKey_retoss (players : List Player) (r : Standing) :
    scoreKey (retoss players r) = scoreKey r := rfl

theorem retoss_eq_self {players : List Player} {r : Standing}
    (h : r.toss = tossOf players r.userUid) : retoss players r = r := by rw [retoss, ← h]

theorem mem_prelimRows {r : Standing} (h : r ∈ prelimRows t sanctions) :
    r.toss = tossOf t.players r.userUid ∧ r.userUid ∈ seatedUids t.rounds := by
  obtain ⟨e, he, rfl⟩ := List.mem_map.1 h
  have hkey : e.1 ∈ (Tally.ofList _).map Prod.fst := List.mem_map_of_mem he
  obtain ⟨e', he', heq⟩ := List.mem_map.1 (Tally.mem_keys_ofList.1 hkey)
  rw [prelimRow_eq]
  refine ⟨?_, heq ▸ (mem_prelimEntries he').1⟩
  simp only [sheetMarks, tossOf]
  cases findPlayer t.players e.1 <;> rfl

theorem sortByRank_perm (rows : List Standing) : (sortByRank rows).Perm rows :=
  List.perm_insertionSort _ rows

theorem mem_finalsPool {r : Standing} (h : r ∈ finalsPool t sanctions) :
    r.toss = tossOf t.players r.userUid ∧ r.userUid ∈ seatedUids t.rounds ∧
      (r.disqualified || r.nonCompeting) = false := by
  obtain ⟨hr, heligible⟩ := List.mem_filter.1 h
  obtain ⟨htoss, hseated⟩ := mem_prelimRows ((sortByRank_perm _).mem_iff.1 hr)
  refine ⟨htoss, hseated, ?_⟩
  simp only [Bool.and_eq_true, Bool.not_eq_true'] at heligible
  rw [heligible.1.1, heligible.1.2, Bool.or_self]

theorem nodup_finalsPool (t : Tournament) (sanctions : List Sanction) :
    ((finalsPool t sanctions).map Standing.userUid).Nodup :=
  (nodup_computePreliminaryStandings t sanctions).sublist (List.filter_sublist.map _)

theorem ranked_finalsPool (t : Tournament) (sanctions : List Sanction) :
    Ranked (finalsPool t sanctions) := by
  have horder : (finalsPool t sanctions).Pairwise fun a b => rankKey a ≤ rankKey b :=
    (sortByRank_inRankOrder (prelimRows t sanctions)).sublist List.filter_sublist
  exact List.Pairwise.imp_of_mem
    (fun ha hb hab => scoreKey_of_rankKey (mem_finalsPool ha).2.2
      (mem_finalsPool hb).2.2 hab) horder

/-- The roster read the same but for the tosses. -/
def Retossed (players players' : List Player) : Prop :=
  ∀ uid, findPlayer players' uid =
    (findPlayer players uid).map fun p => { p with toss := tossOf players' uid }

theorem retossed_tossedPlayers (t : Tournament) (sanctions : List Sanction) :
    Retossed t.players (tossedPlayers t sanctions) := by
  intro uid
  have h : ∃ n, findPlayer (tossedPlayers t sanctions) uid =
      (findPlayer t.players uid).map fun p => { p with toss := n } := by
    refine tossedPlayers_induction t (fun ps => ∃ n, findPlayer ps uid =
      (findPlayer t.players uid).map fun p => { p with toss := n }) sanctions ?_ ?_
    · cases hp : findPlayer t.players uid with
      | none => exact ⟨0, rfl⟩
      | some p => exact ⟨p.toss, rfl⟩
    · rintro ps u toss ⟨n, hn⟩
      by_cases hu : uid = u
      · subst hu
        refine ⟨toss, ?_⟩
        rw [findPlayer_update_self (f := fun p => { p with toss := toss }) fun _ => rfl, hn,
          Option.map_map]
        rfl
      · refine ⟨n, ?_⟩
        rw [findPlayer_update_ne (f := fun p => { p with toss := toss }) (fun _ => rfl) hu, hn]
  obtain ⟨n, hn⟩ := h
  generalize tossedPlayers t sanctions = players' at hn
  cases hp : findPlayer t.players uid with
  | none =>
    rw [hn, hp]
    rfl
  | some p =>
    rw [hp] at hn
    rw [tossOf, hn]
    rfl

/-- If they are level, the two hold tosses of their own. -/
def Apart (players : List Player) (a b : Standing) : Prop :=
  scoreKey a = scoreKey b → tossOf players a.userUid ≠ tossOf players b.userUid ∧
    tossOf players a.userUid ≠ 0 ∧ tossOf players b.userUid ≠ 0

instance (players : List Player) : Std.Symm (Apart players) :=
  ⟨fun _ _ hab hlevel =>
    ⟨(hab hlevel.symm).1.symm, (hab hlevel.symm).2.2, (hab hlevel.symm).2.1⟩⟩

section Retossed

variable {players' : List Player}

theorem Retossed.sheetMarks (h : Retossed t.players players') (uid : Uid) :
    sheetMarks players' uid =
      ((sheetMarks t.players uid).1, tossOf players' uid, (sheetMarks t.players uid).2.2) := by
  have hfind := h uid
  rw [Engine.sheetMarks, Engine.sheetMarks]
  cases hp : findPlayer t.players uid with
  | none =>
    rw [hp, Option.map_none] at hfind
    rw [tossOf, hfind]
    rfl
  | some p =>
    rw [hp, Option.map_some] at hfind
    rw [hfind]
    rfl

theorem Retossed.prelimRows (h : Retossed t.players players') (sanctions : List Sanction) :
    prelimRows { t with players := players' } sanctions =
      (prelimRows t sanctions).map (retoss players') := by
  have hsame : SameResults t { t with players := players' } :=
    SameResults.of_length (fun _ => rfl) rfl rfl
  have hrows := hsame.rows sanctions (retoss players') fun uid _ sas total => by
    rw [prelimRow_eq, prelimRow_eq, h.sheetMarks]
    rfl
  rw [← hrows]
  conv_lhs => rw [← List.map_id (Engine.prelimRows { t with players := players' } sanctions)]
  exact List.map_congr_left fun r hr => (retoss_eq_self (mem_prelimRows hr).1).symm

theorem Retossed.candidates (h : Retossed t.players players') (rows : List Standing) :
    finalsCandidates players' (rows.map (retoss players')) =
      (finalsCandidates t.players rows).map (retoss players') := by
  unfold finalsCandidates
  rw [List.filter_map]
  refine congrArg _ (List.filter_congr fun r _ => ?_)
  have hfind := h r.userUid
  simp only [Function.comp, retoss, hfind]
  cases findPlayer t.players r.userUid <;> rfl

theorem Retossed.finalsPool (h : Retossed t.players players') (sanctions : List Sanction) :
    (finalsPool { t with players := players' } sanctions).Perm
      ((finalsPool t sanctions).map (retoss players')) := by
  have hnew : (Engine.finalsPool { t with players := players' } sanctions).Perm
      (finalsCandidates players' (Engine.prelimRows { t with players := players' } sanctions)) :=
    (sortByRank_perm _).filter _
  have hold : (Engine.finalsPool t sanctions).Perm
      (finalsCandidates t.players (Engine.prelimRows t sanctions)) :=
    (sortByRank_perm _).filter _
  rw [h.prelimRows, h.candidates] at hnew
  exact hnew.trans (hold.map _).symm

theorem Retossed.mem_contenders (h : Retossed t.players players') {y : Standing}
    (hy : y ∈ contenders (Engine.finalsPool { t with players := players' } sanctions)) :
    ∃ x ∈ contenders (Engine.finalsPool t sanctions), y = retoss players' x := by
  obtain ⟨hmem, hfew⟩ := (mem_contenders_iff (ranked_finalsPool _ _)).1 hy
  have hperm := h.finalsPool sanctions
  obtain ⟨x, hx, rfl⟩ := List.mem_map.1 (hperm.mem_iff.1 hmem)
  refine ⟨x, (mem_contenders_iff (ranked_finalsPool _ _)).2 ⟨hx, ?_⟩, rfl⟩
  have hcount : scoredAbove (Engine.finalsPool { t with players := players' } sanctions)
      (scoreKey x) = scoredAbove (Engine.finalsPool t sanctions) (scoreKey x) := by
    rw [scoredAbove, hperm.countP_eq, List.countP_map]
    rfl
  rw [scoreKey_retoss, hcount] at hfew
  exact hfew

theorem Retossed.settled (h : Retossed t.players players')
    (hapart : (contenders (Engine.finalsPool t sanctions)).Pairwise (Apart players')) :
    TiesSettled (Engine.finalsPool { t with players := players' } sanctions) := by
  intro y hy y' hy' hne hlevel
  obtain ⟨x, hx, rfl⟩ := h.mem_contenders hy
  obtain ⟨x', hx', rfl⟩ := h.mem_contenders hy'
  have hxx' : x ≠ x' := fun heq => hne (heq ▸ rfl)
  obtain ⟨htoss, hself, -⟩ := hapart.forall hx hx' hxx' hlevel
  exact ⟨htoss, hself⟩

end Retossed

theorem tossedPlayers_apart (hseats : SeatsOnRoster t) :
    (contenders (finalsPool t sanctions)).Pairwise (Apart (tossedPlayers t sanctions)) := by
  have hpool : ∀ group ∈ tossGroups (finalsPool t sanctions), ∀ r ∈ group.2,
      r ∈ finalsPool t sanctions := fun group hgroup r hr =>
    (topTied_subset _ _ _).subset (mem_contenders_of_group hgroup hr)
  have hnodup : (((tossGroups (finalsPool t sanctions)).flatMap Prod.snd).map
      Standing.userUid).Nodup :=
    (nodup_finalsPool t sanctions).sublist
      (((members_sublist _).trans (topTied_subset _ _ _)).map _)
  have hordered : ∀ group ∈ tossGroups (finalsPool t sanctions),
      Ordered (tossedPlayers t sanctions) (group.2.map Standing.userUid) :=
    (tossGroups_spec (tossSeed t) (le_refl 1) hnodup
      (fun group hgroup r hr => hseats _ (mem_finalsPool (hpool group hgroup r hr)).2.1)
      fun group hgroup r hr => (mem_finalsPool (hpool group hgroup r hr)).1).1
  refine List.pairwise_iff_forall_sublist.2 fun {a b} hab hlevel => ?_
  obtain ⟨group, hgroup, hsub⟩ := group_of_pair (ranked_finalsPool t sanctions) hab hlevel
  obtain ⟨htosses, hne⟩ := hordered group hgroup
  have ha : a ∈ group.2 := hsub.subset List.mem_cons_self
  have hb : b ∈ group.2 := hsub.subset (List.mem_cons_of_mem a List.mem_cons_self)
  refine ⟨?_, hne _ (List.mem_map_of_mem ha), hne _ (List.mem_map_of_mem hb)⟩
  rw [List.map_map] at htosses
  have hpair := htosses.sublist (hsub.map _)
  simpa using hpair

theorem settled_tossedDoc (hseats : SeatsOnRoster t) :
    TiesSettled (finalsPool (tossedDoc t sanctions) sanctions) :=
  (retossed_tossedPlayers t sanctions).settled (tossedPlayers_apart hseats)

theorem tossedPlayers_of_settled (h : TiesSettled (finalsPool t sanctions)) :
    tossedPlayers t sanctions = t.players := by
  have hnodup : (finalsPool t sanctions).Nodup := (nodup_finalsPool t sanctions).of_map _
  have hloop : ∀ groups : List (ℕ × List Standing),
      (∀ group ∈ groups, tossesAreTotal group.2 = true) →
      groups.foldl (tossGroup (tossSeed t)) (t.players, 1) = (t.players, 1) := by
    intro groups hgroups
    induction groups with
    | nil => rfl
    | cons group groups ih =>
      rw [List.foldl_cons, tossGroup, if_pos (hgroups group List.mem_cons_self)]
      exact ih fun group' hgroup' => hgroups group' (List.mem_cons_of_mem _ hgroup')
  exact congrArg Prod.fst (hloop _ fun group hgroup => h.total hnodup hgroup)

end Toss

/-! ### The events -/

section Events

variable {t t' : Tournament} {sanctions : List Sanction}

/-- The five who qualify are in strict order, before everybody else in the pool. -/
def FirstFive (pool : List Standing) : Prop :=
  (pool.take 5).Pairwise SeededBefore ∧ ∀ a ∈ pool.take 5, ∀ b ∈ pool.drop 5, SeededBefore a b

/-- The finals are those of the first five of the pool. -/
structure FinalsOfFive (t : Tournament) (sanctions : List Sanction) (t' : Tournament) : Prop where
  seats : t'.finals = some (FinalsTable.fresh (qualifiers t sanctions))
  five : (qualifiers t sanctions).length = 5
  once : (qualifiers t sanctions).Nodup
  first : FirstFive (finalsPool t sanctions)

theorem randomToss_eq {actor : ActorContext} {ops : List DeckOp}
    (h : randomToss t actor sanctions = .ok (t', ops)) : t' = tossedDoc t sanctions := by
  simp only [randomToss, requireOrganizer, requireStateOrFinished, bind_eq_ok, ensure_eq_ok,
    exists_const, pure_eq_ok, Prod.mk.injEq] at h
  obtain ⟨-, -, -, rfl, -⟩ := h
  rfl

theorem applyEvent_of_error {rs : RandomSource} {i : EventInput} {e : EngineError}
    (h : acceptEvent rs t i = .error e) : applyEvent rs t i = .error e := by
  unfold acceptEvent processTournamentEvent at h
  cases hr : applyEvent rs t i with
  | error e' =>
    rw [hr] at h
    exact congrArg Except.error (Except.error.inj h)
  | ok r =>
    rw [hr] at h
    cases h

theorem startFinals_ne_unresolved {actor : ActorContext} {decks : List DeckObject}
    (h : top5HasTies (finalsPool t sanctions) = false) :
    startFinals t actor sanctions decks ≠ .error .finalsUnresolvedTies := by
  unfold startFinals requireOrganizer requireStateOrFinished ensure
  rw [if_pos h]
  split_ifs <;> simp [bind, Except.bind, pure, Except.pure]

theorem startFinals_seats {actor : ActorContext} {decks : List DeckObject} {ops : List DeckOp}
    (hfirst : FirstFive (finalsPool t sanctions))
    (h : startFinals t actor sanctions decks = .ok (t', ops)) : FinalsOfFive t sanctions t' := by
  simp only [startFinals, requireOrganizer, requireStateOrFinished, bind_eq_ok, ensure_eq_ok,
    exists_const, pure_eq_ok, Prod.mk.injEq] at h
  obtain ⟨-, -, -, -, hfive, -, rfl, -⟩ := h
  refine ⟨rfl, ?_, ?_, hfirst⟩
  · rw [qualifiers, List.length_map, List.length_take]
    omega
  · exact (nodup_finalsPool t sanctions).sublist ((List.take_sublist 5 _).map _)

/-- After an accepted `RandomToss` the first five are settled for good: no tie among them is left,
the contenders of one place hold different tosses, tossing again changes nothing, and `StartFinals`
never fails for a tie and seats the first five of the strict order. -/
theorem randomToss_settles {rs : RandomSource} {i : EventInput} (hseats : SeatsOnRoster t)
    (hi : i.event = .randomToss) (h : acceptEvent rs t i = .ok t') :
    top5HasTies (finalsPool t' i.sanctions) = false ∧
      (∀ a ∈ contenders (finalsPool t' i.sanctions), ∀ b ∈ contenders (finalsPool t' i.sanctions),
        a ≠ b → scoresTied a b = true → a.toss ≠ b.toss) ∧
      (∀ again t'', again.event = .randomToss → again.sanctions = i.sanctions →
        acceptEvent rs t' again = .ok t'' → t'' = t') ∧
      ∀ start, start.event = .startFinals → start.sanctions = i.sanctions →
        acceptEvent rs t' start ≠ .error .finalsUnresolvedTies ∧
          ∀ t'', acceptEvent rs t' start = .ok t'' → FinalsOfFive t' i.sanctions t'' := by
  obtain ⟨ops, h⟩ := acceptEvent_eq_ok.1 h
  rw [applyEvent, hi] at h
  obtain rfl := randomToss_eq h
  have hsettled : TiesSettled (finalsPool (tossedDoc t i.sanctions) i.sanctions) :=
    settled_tossedDoc hseats
  have hranked := ranked_finalsPool (tossedDoc t i.sanctions) i.sanctions
  have hnodup : (finalsPool (tossedDoc t i.sanctions) i.sanctions).Nodup :=
    (nodup_finalsPool _ _).of_map _
  have hnoTies := hsettled.noTies hranked hnodup
  refine ⟨hnoTies, fun a ha b hb hne htied => ?_, fun again t'' hagain hsame h' => ?_,
    fun start hstart hsame => ⟨fun h' => ?_, fun t'' h' => ?_⟩⟩
  · exact (hsettled a ha b hb hne ((scoresTied_iff a b).1 htied)).1
  · obtain ⟨ops', h'⟩ := acceptEvent_eq_ok.1 h'
    rw [applyEvent, hagain, hsame] at h'
    rw [randomToss_eq h', tossedDoc, tossedPlayers_of_settled hsettled]
  · have h' := applyEvent_of_error h'
    rw [applyEvent, hstart, hsame] at h'
    exact startFinals_ne_unresolved hnoTies h'
  · obtain ⟨ops', h'⟩ := acceptEvent_eq_ok.1 h'
    rw [applyEvent, hstart, hsame] at h'
    exact startFinals_seats (hsettled.firstFive hranked hnodup) h'

/-- Five players without a point, all level. -/
theorem randomToss_settles_levelFive :
    ∃ t t', (engineSystem fixedOrder).Reachable t ∧ top5HasTies (finalsPool t []) = true ∧
      acceptEvent fixedOrder t (sent .randomToss) = .ok t' ∧
      top5HasTies (finalsPool t' []) = false ∧ FirstFive (finalsPool t' []) := by
  obtain ⟨t, ht, hp⟩ := exists_reaches_of_replay anyEvent
    ((gathering ["a", "b", "c", "d", "e"] ++ roundOfFive 0 ++ roundOfFive 1).map sent)
    (fun t => top5HasTies (finalsPool t []) &&
      leadsTo t (sent .randomToss) fun t' => leadsTo t' (sent .startFinals) fun _ => true)
    (by decide +kernel)
  rw [Bool.and_eq_true] at hp
  obtain ⟨t', h, hstart⟩ := exists_of_leadsTo hp.2
  obtain ⟨t'', hfinals, -⟩ := exists_of_leadsTo hstart
  have hsettles := randomToss_settles (seatsOnRoster_of_reachable ht) rfl h
  exact ⟨t, t', ht, hp.1, h, hsettles.1,
    ((hsettles.2.2.2 (sent .startFinals) rfl rfl).2 t'' hfinals).first⟩

end Events

end Archon.Engine

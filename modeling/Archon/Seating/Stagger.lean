import Archon.Seating.NextRound

/-!
# Staggered rounds are fair (`seating/stagger.rs`)

Six, seven and eleven players do not split into tables of four and five, so somebody sits out. Who
plays depends on the times each player was seated, up to a constant: from an even start two rounds
bench two players each, never the same, the third seats the four who are behind, and everything is
even again, so the pattern repeats every three rounds.
-/

namespace Archon.Seating
open Guards Archon.Engine

/-! ### Splitting counts -/

theorem isValidTableCount_iff (n : ℕ) : isValidTableCount n = true ↔
    ∃ fours fives, n = 4 * fours + 5 * fives ∧ 0 < fours + fives := by
  simp only [isValidTableCount, Bool.and_eq_true, decide_eq_true_iff, bne_iff_ne]
  constructor
  · rintro ⟨⟨⟨h4, h6⟩, h7⟩, h11⟩
    by_cases hrest : n % 4 ≤ n / 4
    · exact ⟨n / 4 - n % 4, n % 4, by omega, by omega⟩
    · omega
  · rintro ⟨fours, fives, rfl, hpos⟩
    omega

theorem target_of_invalid {n : ℕ} (h4 : 4 ≤ n) (h : isValidTableCount n = false) :
    findEqualizationTarget n + 2 = n ∧ isValidTableCount (findEqualizationTarget n) = true := by
  have hcases : n = 6 ∨ n = 7 ∨ n = 11 := by
    by_contra hother
    simp [isValidTableCount] at h
    omega
  rcases hcases with rfl | rfl | rfl <;> decide

/-! ### The choice by the counts -/

/-- Times a player was seated. -/
def timesSeated (rounds : List (Round Uid)) (uid : Uid) : ℕ := rounds.flatten.flatten.count uid

/-- The most any of the players was seated. -/
def mostSeated (count : Uid → ℕ) (players : List Uid) : ℕ := ((players.map count).max?).getD 0

/-- The players seated less than the most, by uid. -/
def behind (count : Uid → ℕ) (players : List Uid) : List Uid :=
  (players.filter fun uid => decide (count uid < mostSeated count players)).insertionSort
    fun a b => a ≤ b

/-- The players, those seated least first. -/
def leastFirst (count : Uid → ℕ) (players : List Uid) : List Uid :=
  players.insertionSort fun a b => toLex (count a, a) ≤ toLex (count b, b)

/-- Who is chosen when not everybody can play. -/
def chosenBy (count : Uid → ℕ) (players : List Uid) : List Uid :=
  if isValidTableCount (behind count players).length = true then behind count players
  else (leastFirst count players).take (findEqualizationTarget players.length)

section Choice

variable {count count' : Uid → ℕ} {players players' : List Uid} {uid : Uid}

theorem mem_behind : uid ∈ behind count players ↔
    uid ∈ players ∧ count uid < mostSeated count players := by
  simp [behind]

theorem mostSeated_spec (h : players ≠ []) :
    (∃ uid ∈ players, count uid = mostSeated count players) ∧
    ∀ uid ∈ players, count uid ≤ mostSeated count players := by
  cases hmax : (players.map count).max? with
  | none => simp [h] at hmax
  | some m =>
    obtain ⟨hmem, hle⟩ := List.max?_eq_some_iff.1 hmax
    rw [mostSeated, hmax, Option.getD_some]
    exact ⟨List.mem_map.1 hmem, fun uid huid => hle _ (List.mem_map_of_mem huid)⟩

theorem eq_mostSeated {m : ℕ} (hmem : ∃ uid ∈ players, count uid = m)
    (hle : ∀ uid ∈ players, count uid ≤ m) : mostSeated count players = m := by
  obtain ⟨uid, huid, rfl⟩ := hmem
  obtain ⟨⟨v, hv, hmost⟩, hall⟩ := @mostSeated_spec count _ (List.ne_nil_of_mem huid)
  exact le_antisymm (hmost ▸ hle v hv) (hall uid huid)

theorem selectPlayersForRound_eq (checkedIn : List Uid) (prev : List (Round Uid)) :
    selectPlayersForRound checkedIn prev =
      if isValidTableCount checkedIn.length = true then checkedIn
      else chosenBy (timesSeated prev) checkedIn := by
  have hspread : isValidTableCount (behind (timesSeated prev) checkedIn).length = true →
      ((checkedIn.map (timesSeated prev)).min?).getD 0 <
        mostSeated (timesSeated prev) checkedIn := by
    intro hvalid
    have hpos : 0 < (behind (timesSeated prev) checkedIn).length := by
      have := (splits_of_isValid hvalid).1
      omega
    obtain ⟨uid, huid⟩ := List.exists_mem_of_length_pos hpos
    obtain ⟨hmem, hlt⟩ := mem_behind.1 huid
    have hcount : timesSeated prev uid ∈ checkedIn.map (timesSeated prev) :=
      List.mem_map_of_mem hmem
    cases hmin : (checkedIn.map (timesSeated prev)).min? with
    | none =>
      rw [List.min?_eq_none_iff] at hmin
      rw [hmin] at hcount
      cases hcount
    | some m => exact ((List.min?_eq_some_iff.1 hmin).2 _ hcount).trans_lt hlt
  by_cases hvalid : isValidTableCount checkedIn.length = true
  · rw [selectPlayersForRound, if_pos hvalid, if_pos hvalid]
  · rw [selectPlayersForRound, chosenBy, if_neg hvalid, if_neg hvalid]
    extract_lets playCount counts maxPlayed minPlayed late
    by_cases hlate : isValidTableCount late.length = true
    · exact (if_pos ⟨hspread hlate, hlate⟩).trans (if_pos hlate).symm
    · exact (if_neg fun h => hlate h.2).trans (if_neg hlate).symm

theorem count_le_of_leastFirst {n : ℕ} {benched chosen : Uid}
    (hplayers : benched ∈ players) (hbenched : benched ∉ (leastFirst count players).take n)
    (hchosen : chosen ∈ (leastFirst count players).take n) : count chosen ≤ count benched := by
  have hsorted : (leastFirst count players).Pairwise
      fun a b => toLex (count a, a) ≤ toLex (count b, b) := List.pairwise_insertionSort _ _
  rw [← List.take_append_drop n (leastFirst count players), List.pairwise_append] at hsorted
  have hdrop : benched ∈ (leastFirst count players).drop n := by
    have hmem : benched ∈ leastFirst count players := (List.mem_insertionSort _).2 hplayers
    rw [← List.take_append_drop n (leastFirst count players)] at hmem
    exact (List.mem_append.1 hmem).resolve_left hbenched
  rcases Prod.Lex.toLex_le_toLex.1 (hsorted.2.2 chosen hchosen benched hdrop) with h | ⟨h, -⟩
  · exact h.le
  · exact h.le

theorem count_le_of_benched {benched chosen : Uid} (hplayers : benched ∈ players)
    (hbenched : benched ∉ chosenBy count players) (hchosen : chosen ∈ chosenBy count players) :
    count chosen ≤ count benched := by
  unfold chosenBy at hbenched hchosen
  split at hbenched
  · rename_i hvalid
    rw [if_pos hvalid] at hchosen
    have hmost : mostSeated count players ≤ count benched := by
      by_contra hless
      exact hbenched (mem_behind.2 ⟨hplayers, not_le.1 hless⟩)
    exact (mem_behind.1 hchosen).2.le.trans hmost
  · rename_i hvalid
    rw [if_neg hvalid] at hchosen
    exact count_le_of_leastFirst hplayers hbenched hchosen

theorem isValid_chosenBy (h4 : 4 ≤ players.length)
    (h : isValidTableCount players.length = false) :
    isValidTableCount (chosenBy count players).length = true := by
  obtain ⟨htarget, hvalid⟩ := target_of_invalid h4 h
  unfold chosenBy
  split_ifs with hbehind
  · exact hbehind
  · rwa [List.length_take, leastFirst, List.length_insertionSort, min_eq_left (by omega)]

/-! ### Only differences of the counts matter -/

theorem chosenBy_congr (hperm : players'.Perm players) (d : ℕ)
    (h : ∀ uid ∈ players, count' uid = count uid + d) :
    chosenBy count' players' = chosenBy count players := by
  have hmost : players ≠ [] → mostSeated count' players' = mostSeated count players + d := by
    intro hne
    obtain ⟨⟨uid, huid, hmost⟩, hle⟩ := @mostSeated_spec count _ hne
    refine eq_mostSeated ⟨uid, hperm.mem_iff.2 huid, by rw [h uid huid, hmost]⟩ fun v hv => ?_
    rw [h v (hperm.mem_iff.1 hv)]
    exact Nat.add_le_add_right (hle v (hperm.mem_iff.1 hv)) d
  have hbehind : behind count' players' = behind count players := by
    have hfilter : (players'.filter fun uid =>
        decide (count' uid < mostSeated count' players')).Perm
          (players.filter fun uid => decide (count uid < mostSeated count players)) := by
      refine (hperm.filter _).trans (List.Perm.of_eq (List.filter_congr fun uid huid => ?_))
      rw [h uid huid, hmost (List.ne_nil_of_mem huid)]
      exact decide_eq_decide.2 Nat.add_lt_add_iff_right
    exact List.Perm.eq_of_pairwise' (List.pairwise_insertionSort _ _)
      (List.pairwise_insertionSort _ _)
      ((List.perm_insertionSort _ _).trans (hfilter.trans (List.perm_insertionSort _ _).symm))
  have hleast : leastFirst count' players' = leastFirst count players := by
    have hsorted : (leastFirst count' players').Pairwise
        fun a b => toLex (count a, a) ≤ toLex (count b, b) := by
      refine List.Pairwise.imp_of_mem (fun {a b} ha hb hle => ?_)
        (List.pairwise_insertionSort (fun a b => toLex (count' a, a) ≤ toLex (count' b, b))
          players')
      have hcount : ∀ uid ∈ leastFirst count' players', count' uid = count uid + d :=
        fun uid huid => h uid (hperm.mem_iff.1 ((List.mem_insertionSort _).1 huid))
      rw [hcount a ha, hcount b hb] at hle
      simpa [Prod.Lex.toLex_le_toLex] using hle
    refine List.Perm.eq_of_pairwise (fun a b _ _ hab hba => ?_) hsorted
      (List.pairwise_insertionSort _ _)
      ((List.perm_insertionSort _ _).trans (hperm.trans (List.perm_insertionSort _ _).symm))
    exact (Prod.mk.inj (toLex.injective (le_antisymm hab hba))).2
  rw [chosenBy, chosenBy, hbehind, hleast, hperm.length_eq]

/-! ### Three rounds from an even start -/

theorem chosenBy_sub (count : Uid → ℕ) (players : List Uid) :
    chosenBy count players ⊆ players := by
  intro uid huid
  unfold chosenBy at huid
  split at huid
  · exact (mem_behind.1 huid).1
  · exact (List.mem_insertionSort _).1 (List.mem_of_mem_take huid)

theorem chosenBy_nodup (h : players.Nodup) : (chosenBy count players).Nodup := by
  unfold chosenBy
  split
  · exact (List.perm_insertionSort _ _).nodup_iff.2 (h.filter _)
  · exact ((List.perm_insertionSort _ _).nodup_iff.2 h).sublist (List.take_sublist _ _)

/-- The counts after a round of the chosen players. -/
def countAfter (count : Uid → ℕ) (players : List Uid) (uid : Uid) : ℕ :=
  count uid + (chosenBy count players).count uid

theorem countAfter_of_chosen (h : players.Nodup) (huid : uid ∈ chosenBy count players) :
    countAfter count players uid = count uid + 1 := by
  rw [countAfter, List.count_eq_one_of_mem (chosenBy_nodup h) huid]

theorem countAfter_of_benched (huid : uid ∉ chosenBy count players) :
    countAfter count players uid = count uid := by
  rw [countAfter, List.count_eq_zero_of_not_mem huid, Nat.add_zero]

/-- Who sits out. -/
def benchedBy (count : Uid → ℕ) (players : List Uid) : List Uid :=
  players.filter fun uid => !(chosenBy count players).contains uid

theorem mem_benchedBy : uid ∈ benchedBy count players ↔
    uid ∈ players ∧ uid ∉ chosenBy count players := by
  simp [benchedBy]

theorem length_benchedBy (h : players.Nodup) :
    (chosenBy count players).length + (benchedBy count players).length = players.length := by
  have hchosen : (players.filter fun uid => (chosenBy count players).contains uid).Perm
      (chosenBy count players) := by
    refine (List.perm_ext_iff_of_nodup (h.filter _) (chosenBy_nodup h)).2 fun uid => ?_
    simp only [List.mem_filter, List.contains_iff_mem, and_iff_right_iff_imp]
    exact fun huid => chosenBy_sub count players huid
  rw [← hchosen.length_eq, benchedBy, ← List.countP_eq_length_filter,
    ← List.countP_eq_length_filter]
  have hsplit := players.length_eq_countP_add_countP
    fun uid => (chosenBy count players).contains uid
  simp only [Bool.not_eq_true, Bool.decide_eq_false] at hsplit
  omega

theorem length_of_not_behind (h4 : 4 ≤ players.length)
    (h : isValidTableCount players.length = false) (hnodup : players.Nodup)
    (hbehind : isValidTableCount (behind count players).length = false) :
    chosenBy count players =
        (leastFirst count players).take (findEqualizationTarget players.length) ∧
      (benchedBy count players).length = 2 := by
  have hchosen : chosenBy count players =
      (leastFirst count players).take (findEqualizationTarget players.length) := by
    rw [chosenBy, if_neg (by simp [hbehind])]
  have hlength : (chosenBy count players).length = findEqualizationTarget players.length := by
    have htarget := (target_of_invalid h4 h).1
    rw [hchosen, List.length_take, leastFirst, List.length_insertionSort, min_eq_left (by omega)]
  have htarget := (target_of_invalid h4 h).1
  have hall := @length_benchedBy count _ hnodup
  exact ⟨hchosen, by omega⟩

theorem behind_nodup (h : players.Nodup) : (behind count players).Nodup :=
  (List.perm_insertionSort _ _).nodup_iff.2 (h.filter _)

theorem benchedBy_nodup (h : players.Nodup) : (benchedBy count players).Nodup := h.filter _

theorem behind_of_even {m : ℕ} (heven : ∀ uid ∈ players, count uid = m) :
    behind count players = [] := by
  refine List.eq_nil_iff_forall_not_mem.2 fun uid huid => ?_
  obtain ⟨hmem, hlt⟩ := mem_behind.1 huid
  obtain ⟨⟨v, hv, hmost⟩, -⟩ := @mostSeated_spec count _ (List.ne_nil_of_mem hmem)
  rw [← hmost, heven uid hmem, heven v hv] at hlt
  exact lt_irrefl m hlt

theorem behind_perm {m : ℕ} {out : List Uid} (hnodup : players.Nodup) (hout : out.Nodup)
    (hsub : out ⊆ players) (hfew : out.length < players.length)
    (hcount : ∀ uid ∈ players, count uid = if uid ∈ out then m else m + 1) :
    (behind count players).Perm out := by
  have hmost : mostSeated count players = m + 1 := by
    refine eq_mostSeated ?_ fun uid huid => ?_
    · by_contra hnone
      have hall : players ⊆ out := by
        intro uid huid
        by_contra hin
        exact hnone ⟨uid, huid, by rw [hcount uid huid, if_neg hin]⟩
      exact absurd (List.subperm_of_subset hnodup hall).length_le (not_le.2 hfew)
    · rw [hcount uid huid]
      split <;> omega
  refine (List.perm_ext_iff_of_nodup (behind_nodup hnodup) hout).2 fun uid => ?_
  rw [mem_behind, hmost]
  constructor
  · rintro ⟨hmem, hlt⟩
    by_contra hin
    rw [hcount uid hmem, if_neg hin] at hlt
    exact lt_irrefl _ hlt
  · intro hin
    exact ⟨hsub hin, by rw [hcount uid (hsub hin), if_pos hin]; exact Nat.lt_succ_self m⟩

section Pattern

variable {m : ℕ} (h4 : 4 ≤ players.length) (hsplit : isValidTableCount players.length = false)
  (hnodup : players.Nodup)

include h4 hsplit hnodup

theorem first_round (heven : ∀ uid ∈ players, count uid = m) :
    (benchedBy count players).length = 2 ∧ ∀ uid ∈ players,
      countAfter count players uid = if uid ∈ benchedBy count players then m else m + 1 := by
  refine ⟨(length_of_not_behind h4 hsplit hnodup ?_).2, fun uid huid => ?_⟩
  · rw [behind_of_even heven]
    rfl
  · split_ifs with hout
    · rw [countAfter_of_benched (mem_benchedBy.1 hout).2, heven uid huid]
    · have hin : uid ∈ chosenBy count players :=
        not_not.1 fun hnot => hout (mem_benchedBy.2 ⟨huid, hnot⟩)
      rw [countAfter_of_chosen hnodup hin, heven uid huid]

theorem second_round {out : List Uid} (hout : out.Nodup) (hsub : out ⊆ players)
    (htwo : out.length = 2)
    (hcount : ∀ uid ∈ players, count uid = if uid ∈ out then m else m + 1) :
    (benchedBy count players).length = 2 ∧ (∀ uid ∈ out, uid ∉ benchedBy count players) ∧
      ∀ uid ∈ players, countAfter count players uid =
        if uid ∈ out ++ benchedBy count players then m + 1 else m + 2 := by
  obtain ⟨htarget, hvalid⟩ := target_of_invalid h4 hsplit
  have hseats := (splits_of_isValid hvalid).1
  have hbehind := (behind_perm hnodup hout hsub (by omega) hcount).length_eq
  obtain ⟨-, hbench⟩ := @length_of_not_behind count _ h4 hsplit hnodup
    (by rw [hbehind, htwo]; rfl)
  have hapart : ∀ uid ∈ out, uid ∉ benchedBy count players := by
    intro uid hin hsits
    obtain ⟨hmem, hnot⟩ := mem_benchedBy.1 hsits
    -- Otherwise everybody who plays was behind too, and those are two.
    have hall : chosenBy count players ⊆ out := by
      intro v hv
      by_contra hplayed
      have hle := count_le_of_benched hmem hnot hv
      rw [hcount uid hmem, if_pos hin, hcount v (chosenBy_sub _ _ hv), if_neg hplayed] at hle
      omega
    have hfew := (List.subperm_of_subset (chosenBy_nodup hnodup) hall).length_le
    have hlong := @length_benchedBy count _ hnodup
    omega
  refine ⟨hbench, hapart, fun uid huid => ?_⟩
  by_cases hsits : uid ∈ benchedBy count players
  · rw [if_pos (List.mem_append_right _ hsits), countAfter_of_benched (mem_benchedBy.1 hsits).2,
      hcount uid huid, if_neg fun hin => hapart uid hin hsits]
  · have hin : uid ∈ chosenBy count players :=
      not_not.1 fun hnot => hsits (mem_benchedBy.2 ⟨huid, hnot⟩)
    rw [countAfter_of_chosen hnodup hin, hcount uid huid]
    by_cases hearlier : uid ∈ out
    · rw [if_pos hearlier, if_pos (List.mem_append_left _ hearlier)]
    · rw [if_neg hearlier, if_neg fun hmem => (List.mem_append.1 hmem).elim hearlier hsits]

theorem third_round {out : List Uid} (hout : out.Nodup) (hsub : out ⊆ players)
    (hfour : out.length = 4)
    (hcount : ∀ uid ∈ players, count uid = if uid ∈ out then m + 1 else m + 2) :
    ∀ uid ∈ players, countAfter count players uid = m + 2 := by
  obtain ⟨htarget, hvalid⟩ := target_of_invalid h4 hsplit
  have hseats := (splits_of_isValid hvalid).1
  have hbehind := behind_perm hnodup hout hsub (by omega) hcount
  have hchosen : chosenBy count players = behind count players := by
    rw [chosenBy, if_pos (by rw [hbehind.length_eq, hfour]; rfl)]
  intro uid huid
  by_cases hin : uid ∈ out
  · have hplays : uid ∈ chosenBy count players := by
      rw [hchosen]
      exact hbehind.mem_iff.2 hin
    rw [countAfter_of_chosen hnodup hplays, hcount uid huid, if_pos hin]
  · have hsits : uid ∉ chosenBy count players := by
      rw [hchosen]
      exact fun hmem => hin (hbehind.mem_iff.1 hmem)
    rw [countAfter_of_benched hsits, hcount uid huid, if_neg hin]

theorem countAfter_three (heven : ∀ uid ∈ players, count uid = m) :
    ∀ uid ∈ players,
      countAfter (countAfter (countAfter count players) players) players uid = m + 2 := by
  obtain ⟨hbench, hone⟩ := first_round h4 hsplit hnodup heven
  obtain ⟨hbench', hapart, htwo⟩ := second_round h4 hsplit hnodup (benchedBy_nodup hnodup)
    (fun uid huid => (mem_benchedBy.1 huid).1) hbench hone
  refine third_round h4 hsplit hnodup ?_ ?_ ?_ htwo
  · exact List.nodup_append.2 ⟨benchedBy_nodup hnodup, benchedBy_nodup hnodup,
      fun a ha b hb hab => hapart a ha (hab ▸ hb)⟩
  · intro uid huid
    rcases List.mem_append.1 huid with huid | huid
    · exact (mem_benchedBy.1 huid).1
    · exact (mem_benchedBy.1 huid).1
  · rw [List.length_append, hbench, hbench']

end Pattern

end Choice

/-! ### Runs -/

/-- Rounds built one after another for the same players: each seats the players chosen after the
rounds before it, the checked-in players listed in any order. -/
def BuiltBy (players : List Uid) (earlier rounds : List (Round Uid)) : Prop :=
  ∀ (i : ℕ) (round : Round Uid), rounds[i]? = some round →
    ∃ checkedIn : List Uid, checkedIn.Perm players ∧
    round.flatten.Perm (selectPlayersForRound checkedIn (earlier ++ rounds.take i))

/-- Rounds in which a player sits. -/
def roundsPlayed (rounds : List (Round Uid)) (uid : Uid) : ℕ :=
  rounds.countP fun round => decide (uid ∈ round.flatten)

theorem timesSeated_append (a b : List (Round Uid)) (uid : Uid) :
    timesSeated (a ++ b) uid = timesSeated a uid + timesSeated b uid := by
  rw [timesSeated, List.flatten_append, List.flatten_append, List.count_append, timesSeated,
    timesSeated]

theorem timesSeated_eq {rounds : List (Round Uid)} (h : ∀ round ∈ rounds, round.flatten.Nodup)
    (uid : Uid) : timesSeated rounds uid = roundsPlayed rounds uid := by
  induction rounds with
  | nil => rfl
  | cons round rounds ih =>
    have hrest := ih fun r hr => h r (List.mem_cons_of_mem _ hr)
    have hround : timesSeated [round] uid = if uid ∈ round.flatten then 1 else 0 := by
      rw [timesSeated, List.flatten_singleton,
        List.Nodup.count (h round List.mem_cons_self)]
    rw [← List.singleton_append, timesSeated_append, hround, hrest, roundsPlayed, roundsPlayed,
      List.singleton_append, List.countP_cons, Nat.add_comm]
    simp only [decide_eq_true_iff]

section Runs

variable {players : List Uid} {earlier rounds : List (Round Uid)}

theorem BuiltBy.timesSeated_succ (h : BuiltBy players earlier rounds)
    (hsplit : isValidTableCount players.length = false) {i : ℕ} (hi : i < rounds.length)
    (uid : Uid) : timesSeated (earlier ++ rounds.take (i + 1)) uid =
      countAfter (timesSeated (earlier ++ rounds.take i)) players uid := by
  obtain ⟨checkedIn, hchecked, hround⟩ := h i rounds[i] (List.getElem?_eq_getElem hi)
  have hsame : chosenBy (timesSeated (earlier ++ rounds.take i)) checkedIn =
      chosenBy (timesSeated (earlier ++ rounds.take i)) players :=
    chosenBy_congr hchecked 0 fun _ _ => rfl
  rw [selectPlayersForRound_eq, hchecked.length_eq, hsplit, if_neg Bool.false_ne_true, hsame]
    at hround
  rw [List.take_succ_eq_append_getElem hi, ← List.append_assoc, timesSeated_append, countAfter,
    ← hround.count_eq]
  congr 1
  rw [timesSeated, List.flatten_singleton]

theorem countAfter_congr {count count' : Uid → ℕ} (d : ℕ)
    (h : ∀ uid ∈ players, count' uid = count uid + d) :
    ∀ uid ∈ players, countAfter count' players uid = countAfter count players uid + d := by
  intro uid huid
  rw [countAfter, countAfter, chosenBy_congr (List.Perm.refl players) d h, h uid huid]
  omega

theorem BuiltBy.three (h : BuiltBy players earlier rounds) (h4 : 4 ≤ players.length)
    (hsplit : isValidTableCount players.length = false) (hnodup : players.Nodup)
    (heven : ∀ u ∈ players, ∀ v ∈ players, timesSeated earlier u = timesSeated earlier v) {i : ℕ}
    (hi : i + 3 ≤ rounds.length) :
    ∀ uid ∈ players, timesSeated (earlier ++ rounds.take (i + 3)) uid =
      timesSeated (earlier ++ rounds.take i) uid + 2 := by
  have hstep : ∀ {j : ℕ}, j < rounds.length → timesSeated (earlier ++ rounds.take (j + 1)) =
      countAfter (timesSeated (earlier ++ rounds.take j)) players := fun hj =>
    funext (h.timesSeated_succ hsplit hj)
  induction i with
  | zero =>
    intro uid huid
    rw [hstep (j := 2) (by omega), hstep (j := 1) (by omega), hstep (j := 0) (by omega),
      List.take_zero, List.append_nil]
    exact countAfter_three h4 hsplit hnodup (fun v hv => heven v hv uid huid) uid huid
  | succ i ih =>
    rw [hstep (j := i + 3) (by omega), hstep (j := i) (by omega)]
    exact countAfter_congr 2 (ih (by omega))

theorem BuiltBy.period (h : BuiltBy players earlier rounds) (h4 : 4 ≤ players.length)
    (hsplit : isValidTableCount players.length = false) (hnodup : players.Nodup)
    (heven : ∀ u ∈ players, ∀ v ∈ players, timesSeated earlier u = timesSeated earlier v)
    (start k : ℕ) (hk : start + 3 * k ≤ rounds.length) :
    ∀ uid ∈ players, timesSeated (earlier ++ rounds.take (start + 3 * k)) uid =
      timesSeated (earlier ++ rounds.take start) uid + 2 * k := by
  induction k with
  | zero => exact fun _ _ => rfl
  | succ k ih =>
    intro uid huid
    rw [show start + 3 * (k + 1) = start + 3 * k + 3 by ring,
      h.three h4 hsplit hnodup heven (by omega) uid huid, ih (by omega) uid huid]
    ring

theorem BuiltBy.nodup (h : BuiltBy players earlier rounds) (hnodup : players.Nodup)
    (hsplit : isValidTableCount players.length = false) :
    ∀ round ∈ rounds, round.flatten.Nodup := by
  intro round hround
  obtain ⟨i, hi, rfl⟩ := List.getElem_of_mem hround
  obtain ⟨checkedIn, hchecked, hperm⟩ := h i rounds[i] (List.getElem?_eq_getElem hi)
  rw [selectPlayersForRound_eq, hchecked.length_eq, hsplit, if_neg Bool.false_ne_true] at hperm
  exact hperm.nodup_iff.2 (chosenBy_nodup (hchecked.nodup_iff.2 hnodup))

end Runs

/-- Whoever is chosen fills tables of four and five; nobody who sits out has played less than
somebody who plays; and six, seven or eleven players who start even play two of every three rounds
built for them, wherever the three begin. -/
theorem stagger_fair :
    (∀ (checkedIn : List Uid) (prev : List (Round Uid)), 4 ≤ checkedIn.length →
      ∃ fours fives, (selectPlayersForRound checkedIn prev).length = 4 * fours + 5 * fives ∧
        0 < fours + fives) ∧
    (∀ (checkedIn : List Uid) (prev : List (Round Uid)) (benched chosen : Uid),
      benched ∈ checkedIn → benched ∉ selectPlayersForRound checkedIn prev →
      chosen ∈ selectPlayersForRound checkedIn prev →
      timesSeated prev chosen ≤ timesSeated prev benched ∧
        ((∀ round ∈ prev, round.flatten.Nodup) →
          roundsPlayed prev chosen ≤ roundsPlayed prev benched)) ∧
    ∀ (players : List Uid) (earlier rounds : List (Round Uid)), players.Nodup →
      (players.length = 6 ∨ players.length = 7 ∨ players.length = 11) →
      (∀ u ∈ players, ∀ v ∈ players, timesSeated earlier u = timesSeated earlier v) →
      BuiltBy players earlier rounds → ∀ start k, start + 3 * k ≤ rounds.length →
      ∀ uid ∈ players, roundsPlayed ((rounds.drop start).take (3 * k)) uid = 2 * k := by
  refine ⟨fun checkedIn prev h4 => ?_,
    fun checkedIn prev benched chosen hmem hbenched hchosen => ?_,
    fun players earlier rounds hnodup hlength heven hbuilt start k hk uid huid => ?_⟩
  · rw [← isValidTableCount_iff, selectPlayersForRound_eq]
    split
    · assumption
    · rename_i hsplit
      exact isValid_chosenBy h4 (Bool.eq_false_of_not_eq_true hsplit)
  · have hseats : timesSeated prev chosen ≤ timesSeated prev benched := by
      rw [selectPlayersForRound_eq] at hbenched hchosen
      split at hbenched
      · exact absurd hmem hbenched
      · rename_i hsplit
        rw [if_neg hsplit] at hchosen
        exact count_le_of_benched hmem hbenched hchosen
    refine ⟨hseats, fun hrounds => ?_⟩
    rwa [← timesSeated_eq hrounds, ← timesSeated_eq hrounds]
  · have hsplit : isValidTableCount players.length = false := by
      rcases hlength with h | h | h <;> rw [h] <;> rfl
    have hperiod := hbuilt.period (by omega) hsplit hnodup heven start k hk uid huid
    have hwindow : ∀ round ∈ (rounds.drop start).take (3 * k), round.flatten.Nodup :=
      fun round hround => hbuilt.nodup hnodup hsplit round
        (List.mem_of_mem_drop (List.mem_of_mem_take hround))
    rw [List.take_add, ← List.append_assoc, timesSeated_append] at hperiod
    rw [← timesSeated_eq hwindow]
    omega

theorem builtBy_three {players : List Uid} {earlier : List (Round Uid)} {a b c : Round Uid}
    (ha : a.flatten.Perm (selectPlayersForRound players earlier))
    (hb : b.flatten.Perm (selectPlayersForRound players (earlier ++ [a])))
    (hc : c.flatten.Perm (selectPlayersForRound players (earlier ++ [a, b]))) :
    BuiltBy players earlier [a, b, c] := by
  intro i round hround
  rcases i with _ | _ | _ | i
  · obtain rfl := Option.some.inj hround
    rw [List.take_zero, List.append_nil]
    exact ⟨players, List.Perm.refl _, ha⟩
  · obtain rfl := Option.some.inj hround
    exact ⟨players, List.Perm.refl _, hb⟩
  · obtain rfl := Option.some.inj hround
    exact ⟨players, List.Perm.refl _, hc⟩
  · simp at hround

def sixPlayers : List Uid := ["a", "b", "c", "d", "e", "f"]

theorem stagger_fair_six :
    ∀ uid ∈ sixPlayers, roundsPlayed
      [[["a", "b", "c", "d"]], [["e", "f", "a", "b"]], [["c", "d", "e", "f"]]] uid = 2 := by
  have hbuilt : BuiltBy sixPlayers []
      [[["a", "b", "c", "d"]], [["e", "f", "a", "b"]], [["c", "d", "e", "f"]]] :=
    builtBy_three (List.Perm.of_eq (by decide +kernel)) (List.Perm.of_eq (by decide +kernel))
      (List.Perm.of_eq (by decide +kernel))
  exact stagger_fair.2.2 sixPlayers [] _ (by decide) (.inl rfl) (fun _ _ _ _ => rfl) hbuilt 0 1
    (by decide)

/-- Three players are all chosen and fill no table; who sat three times in one round counts as
having played three; and behind a player who starts a round ahead, the others play three of the
first three rounds. -/
theorem stagger_not_as_claimed :
    (¬∃ fours fives, (selectPlayersForRound ["a", "b", "c"] []).length = 4 * fours + 5 * fives) ∧
    (∃ prev, "a" ∉ selectPlayersForRound sixPlayers prev ∧
      "b" ∈ selectPlayersForRound sixPlayers prev ∧
      roundsPlayed prev "a" < roundsPlayed prev "b") ∧
    ∃ rounds, BuiltBy sixPlayers [[["a"]]] rounds ∧ rounds.length = 3 ∧
      roundsPlayed rounds "b" = 3 := by
  refine ⟨?_, ⟨[[["a", "a", "a", "b"], ["c", "d", "e", "f"]], [["b", "c", "d", "e", "f"]]],
    by decide +kernel, by decide +kernel, by decide +kernel⟩,
    [[["b", "c", "d", "e", "f"]], [["a", "b", "c", "d"]], [["e", "f", "a", "b"]]],
    builtBy_three (List.Perm.of_eq (by decide +kernel)) (List.Perm.of_eq (by decide +kernel))
      (List.Perm.of_eq (by decide +kernel)), rfl, by decide +kernel⟩
  rintro ⟨fours, fives, h⟩
  rw [show (selectPlayersForRound ["a", "b", "c"] []).length = 3 from by decide +kernel] at h
  omega

end Archon.Seating

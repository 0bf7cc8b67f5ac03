import Archon.Engine.Sheet

/-!
# The rating and the standings (`standings.rs:28-110`, `533-681`)

The standings tally every seat of every finished table, the rating walks the tables for one
player. For a player seated at most once per table they add up the same figures; the rating also
counts the finals seat, the adjustments that land on the finals, and a win of finals that left no
table.
-/

namespace Archon.Engine

/-! ### Adjustments of a round -/

/-- How many adjustments of the player land on round `r`. -/
def landings (effectiveSas : List (Uid × ℕ)) (uid : Uid) (r : ℕ) : ℚ :=
  ((effectiveSas.countP fun sa => sa.1 == uid && sa.2 == r : ℕ) : ℚ)

theorem countP_lt_succ (sas : List (Uid × ℕ)) (uid : Uid) (n : ℕ) :
    (sas.countP fun sa => sa.1 == uid && decide (sa.2 < n + 1)) =
      (sas.countP fun sa => sa.1 == uid && decide (sa.2 < n)) +
        sas.countP fun sa => sa.1 == uid && sa.2 == n := by
  induction sas with
  | nil => rfl
  | cons sa sas ih =>
    simp only [List.countP_cons, ih]
    rcases Nat.lt_trichotomy sa.2 n with h | h | h
    · simp only [h, Nat.lt_succ_of_lt h, decide_true, beq_false_of_ne h.ne, Bool.and_true,
        Bool.and_false, Bool.false_eq_true, if_false]
      omega
    · simp only [h, lt_self_iff_false, decide_false, Nat.lt_succ_self, decide_true,
        beq_self_eq_true,
        Bool.and_true, Bool.and_false, Bool.false_eq_true, if_false]
      omega
    · have hlt : ¬sa.2 < n + 1 := by omega
      simp only [h.not_gt, hlt, decide_false, beq_false_of_ne h.ne', Bool.and_false,
        Bool.false_eq_true, if_false]
      omega

theorem countP_landings (sas : List (Uid × ℕ)) (uid : Uid) (n : ℕ) :
    ((sas.countP fun sa => sa.1 == uid && decide (sa.2 < n) : ℕ) : ℚ) =
      ((List.range n).map (landings sas uid)).sum := by
  induction n with
  | zero => simp
  | succ n ih =>
    rw [List.range_succ, List.map_append, List.sum_append, ← ih, countP_lt_succ]
    simp [landings]

theorem saVpPenalty_prelimSas (t : Tournament) (sas : List (Uid × ℕ)) (uid : Uid) :
    saVpPenalty (prelimSas t sas) uid =
      ((List.range t.rounds.length).map (landings sas uid)).sum := by
  rw [← countP_landings, saVpPenalty, prelimSas, List.countP_filter]

theorem tableSaAdjustments_getElem? {seating : List Seat} {k : ℕ} {uid : Uid}
    (h : (seating.map Seat.playerUid)[k]? = some uid) (sas : List (Uid × ℕ)) (r : ℕ) :
    (tableSaAdjustments seating r sas)[k]? = some (-landings sas uid r) := by
  rw [List.getElem?_map, Option.map_eq_some_iff] at h
  obtain ⟨s, hs, rfl⟩ := h
  rw [tableSaAdjustments, List.getElem?_map, hs]
  rfl

section Landing

variable {t : Tournament} {sanctions : List Sanction} {uid : Uid} {r : ℕ}

theorem exists_table_of_landings (hr : r < t.rounds.length)
    (h : landings (resolveSaEffectiveRounds t sanctions) uid r ≠ 0) :
    ∃ round, t.rounds[r]? = some round ∧ ∃ tb ∈ round, tb.state = .finished ∧ uid ∈ tb.uids := by
  have hpos : 0 < (resolveSaEffectiveRounds t sanctions).countP
      fun sa => sa.1 == uid && sa.2 == r := by
    rw [Nat.pos_iff_ne_zero]
    intro hzero
    exact h (by simp [landings, hzero])
  obtain ⟨sa, hsa, heq⟩ := List.countP_pos_iff.1 hpos
  simp only [Bool.and_eq_true, beq_iff_eq] at heq
  have hscored := scoredIn_of_resolve hsa
  rw [heq.1, heq.2, scoredIn, if_neg hr.ne, List.any_eq_true] at hscored
  obtain ⟨tb, htb, hplayed⟩ := hscored
  rw [List.getElem?_eq_getElem hr, Option.getD_some] at htb
  simp only [Bool.and_eq_true, beq_iff_eq, seats_iff] at hplayed
  exact ⟨_, List.getElem?_eq_getElem hr, tb, htb, hplayed⟩

theorem saVpPenalty_split :
    saVpPenalty (resolveSaEffectiveRounds t sanctions) uid =
      saVpPenalty (prelimSas t (resolveSaEffectiveRounds t sanctions)) uid +
        landings (resolveSaEffectiveRounds t sanctions) uid t.rounds.length := by
  have hle : ∀ sa ∈ resolveSaEffectiveRounds t sanctions,
      ((sa.1 == uid) = true ↔ (sa.1 == uid && decide (sa.2 < t.rounds.length + 1)) = true) := by
    intro sa hsa
    have hlt : sa.2 < t.rounds.length + 1 := Nat.lt_succ_of_le
        (scoredIn_le (scoredIn_of_resolve hsa))
    simp [hlt]
  rw [saVpPenalty_prelimSas, saVpPenalty, List.countP_congr hle, countP_landings, List.range_succ,
    List.map_append, List.sum_append]
  simp

end Landing

/-! ### One table -/

section Table

variable {sas : List (Uid × ℕ)} {r : ℕ} {uid : Uid}

theorem length_computeGw {vps adjustments : List ℚ} (h : vps.length = adjustments.length) :
    (computeGw vps adjustments).length = vps.length := by
  have hlen : (adjustedVps vps adjustments).length = vps.length := by
    simp [adjustedVps, List.length_zipWith, h]
  unfold computeGw
  extract_lets adjusted
  split
  · rename_i hmax
    rw [List.max?_eq_none_iff] at hmax
    rw [← hlen, show adjustedVps vps adjustments = [] from hmax]
  · rw [List.length_map]
    exact hlen

theorem length_computeTp (n : ℕ) (vps adjustments : List ℚ) :
    (computeTp n vps adjustments).length = vps.length := by
  unfold computeTp
  split <;> simp

theorem length_scoreTable (seating : List Seat) (r : ℕ) (sas : List (Uid × ℕ)) :
    (scoreTable seating (seatVps seating) r sas none).1.length = seating.length ∧
      (scoreTable seating (seatVps seating) r sas none).2.length = seating.length := by
  have hvps : (seatVps seating).length = seating.length := List.length_map _
  have hadj : (seatVps seating).length = (tableSaAdjustments seating r sas).length := by
    rw [hvps, tableSaAdjustments, List.length_map]
  exact ⟨(length_computeGw hadj).trans hvps, (length_computeTp _ _ _).trans hvps⟩

theorem keys_tableEntries {tb : Table} (h : tb.state = .finished) :
    (tableEntries sas r tb).map Prod.fst = tb.uids.filter fun u => u ≠ "" := by
  obtain ⟨hgws, htps⟩ := length_scoreTable tb.seating r sas
  rw [tableEntries, if_pos h]
  extract_lets vps scored
  have hle : tb.uids.length ≤ (scored.1.zip (vps.zip scored.2)).length := by
    have hvps : vps.length = tb.seating.length := List.length_map _
    have huids : tb.uids.length = tb.seating.length := List.length_map _
    have hgws' : scored.1.length = tb.seating.length := hgws
    have htps' : scored.2.length = tb.seating.length := htps
    rw [List.length_zip, List.length_zip]
    omega
  conv_rhs => rw [← List.map_fst_zip hle, List.filter_map]
  rfl

theorem tableRating_eq {tb : Table} (h : tb.uids.count uid ≤ 1) (hne : uid ≠ "") :
    tableRating sas r uid tb =
      ((Tally.sumFor (tableEntries sas r tb) uid).2.1,
        (Tally.sumFor (tableEntries sas r tb) uid).1) := by
  unfold tableRating tableEntries
  by_cases hdone : tb.state = .finished
  · rw [if_pos hdone, if_pos hdone]
    extract_lets vps scored
    have hvps : vps.length = tb.seating.length := List.length_map _
    obtain ⟨hgws, htps⟩ : scored.1.length = tb.seating.length ∧
        scored.2.length = tb.seating.length := length_scoreTable tb.seating r sas
    have huids : tb.uids.length = tb.seating.length := List.length_map _
    rw [Tally.sumFor_filter fun e _ he => by simp [he, hne], Tally.sumFor_zip ?_ h]
    · have hidx : (tb.uids.findIdx? fun a => a == uid) =
          tb.seating.findIdx? fun s => s.playerUid == uid := by
        rw [Table.uids, List.findIdx?_map]
        rfl
      rw [hidx]
      cases hi : tb.seating.findIdx? fun s => s.playerUid == uid with
      | none => rfl
      | some i =>
        have hlt : i < tb.seating.length := (List.findIdx?_eq_some_iff_getElem.1 hi).1
        have hg : i < scored.1.length := hgws ▸ hlt
        have hv : i < vps.length := hvps ▸ hlt
        have ht : i < scored.2.length := htps ▸ hlt
        have hzip : (scored.1.zip (vps.zip scored.2))[i]? =
            some (scored.1[i], vps[i], scored.2[i]) := by
          simp [hg, hv, ht]
        have hgw : (scored.1[i]?).getD 0 = scored.1[i] := by
          rw [List.getElem?_eq_getElem hg, Option.getD_some]
        simp only [Option.elim_some, hzip, List.getElem?_eq_getElem hv, Option.getD_some]
        exact congrArg (Prod.mk vps[i]) hgw
    · simp [hgws, hvps, htps, huids]
  · rw [if_neg hdone, if_neg hdone]
    simp [Tally.sumFor]

theorem sum_swap {α : Type} {xs : List α} {f : α → ℚ × ℚ} {g : α → ℚ × ℚ × ℚ}
    (h : ∀ x ∈ xs, f x = ((g x).2.1, (g x).1)) :
    (xs.map f).sum = ((xs.map g).sum.2.1, (xs.map g).sum.1) := by
  induction xs with
  | nil => rfl
  | cons x xs ih =>
    rw [List.map_cons, List.map_cons, List.sum_cons, List.sum_cons, h x List.mem_cons_self,
      ih fun y hy => h y (List.mem_cons_of_mem _ hy)]
    rfl

end Table

/-! ### Both figures of a player -/

/-- The player sits at most once at any table, the finals table included. -/
structure SeatedOncePerTable (t : Tournament) (uid : Uid) : Prop where
  tables : ∀ round ∈ t.rounds, ∀ tb ∈ round, tb.uids.count uid ≤ 1
  finals : (finalsUids t).count uid ≤ 1

/-- Points and game wins of the player's preliminary row, zero without a row. -/
def prelimScore (t : Tournament) (sanctions : List Sanction) (uid : Uid) : ℚ × ℚ :=
  ((computePreliminaryStandings t sanctions).find? fun row => row.userUid == uid).elim (0, 0)
    fun row => (row.vp, row.gw)

/-- Points and game wins stored on the player's finals seat, zero without one. -/
def finalsScore (t : Tournament) (uid : Uid) : ℚ × ℚ :=
  ((t.finals.elim [] FinalsTable.seating).find? fun s => s.playerUid == uid).elim (0, 0)
    fun s => (s.result.vp, s.result.gw)

section Rating

variable {t : Tournament} {sanctions : List Sanction} {uid : Uid}

theorem disqualified_of_forfeits (h : forfeitsRating t sanctions uid = false) :
    ((findPlayer t.players uid).any (fun p => p.state == .disqualified)
      || hasDqSanction sanctions uid) = false := by
  simp only [forfeitsRating, Bool.or_eq_false_iff] at h
  refine Bool.or_eq_false_iff.2 ⟨?_, h.1.2⟩
  cases hp : findPlayer t.players uid with
  | none => rfl
  | some p =>
    obtain ⟨hmem, huid⟩ := findPlayer_mem hp
    have hno := List.any_eq_false.1 h.1.1 p hmem
    simpa [Player.isUid, huid] using hno

theorem tablesRating_eq (h : ∀ round ∈ t.rounds, ∀ tb ∈ round, tb.uids.count uid ≤ 1)
    (hne : uid ≠ "") (sas : List (Uid × ℕ)) :
    (t.rounds.zipIdx.map fun ri => (ri.1.map (tableRating sas ri.2 uid)).sum).sum =
      ((Tally.sumFor (prelimEntries t sas) uid).2.1,
        (Tally.sumFor (prelimEntries t sas) uid).1) := by
  rw [prelimEntries, Tally.sumFor_flatMap]
  refine sum_swap fun ri hri => ?_
  rw [Tally.sumFor_flatMap]
  refine sum_swap fun tb htb => tableRating_eq (h ri.1 ?_ tb htb) hne
  obtain ⟨-, -, hround⟩ := List.mem_zipIdx hri
  exact hround ▸ List.getElem_mem _

theorem mem_keys_prelimEntries {r : ℕ} {round : List Table} {tb : Table} (hne : uid ≠ "")
    (hround : t.rounds[r]? = some round) (htb : tb ∈ round) (hdone : tb.state = .finished)
    (huid : uid ∈ tb.uids) (sas : List (Uid × ℕ)) :
    uid ∈ (prelimEntries t sas).map Prod.fst := by
  have hri : (round, r) ∈ t.rounds.zipIdx := List.mem_zipIdx_iff_getElem?.2 hround
  have hkey : uid ∈ (tableEntries sas r tb).map Prod.fst := by
    rw [keys_tableEntries hdone]
    exact List.mem_filter.2 ⟨huid, by simpa using hne⟩
  obtain ⟨e, he, rfl⟩ := List.mem_map.1 hkey
  exact List.mem_map_of_mem
    (List.mem_flatMap.2 ⟨(round, r), hri, List.mem_flatMap.2 ⟨tb, htb, he⟩⟩)

theorem prelimScore_eq (hne : uid ≠ "") (h : forfeitsRating t sanctions uid = false) :
    prelimScore t sanctions uid =
      ((Tally.sumFor (prelimEntries t (resolveSaEffectiveRounds t sanctions)) uid).2.1
          - saVpPenalty (prelimSas t (resolveSaEffectiveRounds t sanctions)) uid,
        (Tally.sumFor (prelimEntries t (resolveSaEffectiveRounds t sanctions)) uid).1) := by
  rw [prelimScore]
  cases hrow : (computePreliminaryStandings t sanctions).find? fun row => row.userUid == uid with
  | some row =>
    have hmem := List.mem_of_find?_eq_some hrow
    rw [computePreliminaryStandings_eq, sortByRank, List.mem_insertionSort] at hmem
    obtain ⟨e, he, rfl⟩ := List.mem_map.1 hmem
    have heq := List.find?_some hrow
    obtain rfl : e.1 = uid := by simpa [prelimRow] using heq
    have htotal := Tally.mem_ofList he
    simp only [Option.elim_some, prelimRow, disqualified_of_forfeits h, Bool.false_eq_true,
      if_false, htotal]
  | none =>
    have hkey : uid ∉ (prelimEntries t (resolveSaEffectiveRounds t sanctions)).map Prod.fst := by
      intro hkey
      obtain ⟨e, he, heq⟩ := List.mem_map.1 (Tally.mem_keys_ofList.2 hkey)
      have hmem : prelimRow t sanctions (prelimSas t
          (resolveSaEffectiveRounds t sanctions)) e.1 e.2 ∈
          computePreliminaryStandings t sanctions := by
        rw [computePreliminaryStandings_eq, sortByRank, List.mem_insertionSort]
        exact List.mem_map.2 ⟨e, he, rfl⟩
      have hno := List.find?_eq_none.1 hrow _ hmem
      simp [prelimRow, heq] at hno
    have hzero : saVpPenalty (prelimSas t (resolveSaEffectiveRounds t sanctions)) uid = 0 := by
      rw [saVpPenalty_prelimSas]
      refine List.sum_eq_zero fun x hx => ?_
      obtain ⟨r, hr, rfl⟩ := List.mem_map.1 hx
      by_contra hland
      obtain ⟨round, hround, tb, htb, hdone, huid⟩ :=
        exists_table_of_landings (List.mem_range.1 hr) hland
      exact hkey (mem_keys_prelimEntries hne hround htb hdone huid _)
    rw [Option.elim_none, Tally.sumFor_of_not_mem hkey, hzero]
    simp

theorem sum_filter_eq_find? {seating : List Seat} (g : Seat → ℚ × ℚ)
    (h : (seating.map Seat.playerUid).count uid ≤ 1) :
    ((seating.filter fun s => s.playerUid == uid).map g).sum =
      (seating.find? fun s => s.playerUid == uid).elim (0, 0) g := by
  induction seating with
  | nil => rfl
  | cons s seating ih =>
    by_cases hs : s.playerUid = uid
    · have hnone : seating.filter (fun s => s.playerUid == uid) = [] := by
        rw [List.map_cons, hs, List.count_cons_self] at h
        rw [List.filter_eq_nil_iff]
        intro s' hs' heq
        have hmem : uid ∈ seating.map Seat.playerUid :=
          List.mem_map.2 ⟨s', hs', eq_of_beq heq⟩
        have := List.count_pos_iff.2 hmem
        omega
      simp [hs, hnone]
    · rw [List.map_cons, List.count_cons_of_ne hs] at h
      have hfalse : (s.playerUid == uid) = false := beq_false_of_ne hs
      rw [List.filter_cons_of_neg (by simp [hs]), List.find?_cons, hfalse]
      exact ih h

/-- With rounds, a player who forfeits nothing is rated what the standings and the finals seat say,
less an adjustment each that lands on the finals, plus a win of finals played without a table. Each
adjustment costs its point and corrects the seats' scores in one and the same round, where the
player sits at a finished table. -/
theorem rating_agrees (hrounds : t.rounds ≠ []) (hne : uid ≠ "")
    (hforfeit : forfeitsRating t sanctions uid = false) (honce : SeatedOncePerTable t uid) :
    let sas := resolveSaEffectiveRounds t sanctions
    let credited : ℚ :=
      if t.finals = none ∧ t.winner = uid ∧ finalPlayed t.standings = true then 1 else 0
    computeRatingVpGw t sanctions uid =
        ((prelimScore t sanctions uid).1 + (finalsScore t uid).1 - landings sas uid t.rounds.length,
          (prelimScore t sanctions uid).2 + (finalsScore t uid).2 + credited) ∧
      saVpPenalty (prelimSas t sas) uid =
        ((List.range t.rounds.length).map (landings sas uid)).sum ∧
      (∀ (seating : List Seat) (r k : ℕ), (seating.map Seat.playerUid)[k]? = some uid →
        (tableSaAdjustments seating r sas)[k]? = some (-landings sas uid r)) ∧
      ∀ r < t.rounds.length, landings sas uid r ≠ 0 →
        ∃ round, t.rounds[r]? = some round ∧
          ∃ tb ∈ round, tb.state = .finished ∧ uid ∈ tb.uids := by
  intro sas credited
  refine ⟨?_, saVpPenalty_prelimSas t sas uid,
    fun seating r k hk => tableSaAdjustments_getElem? hk sas r,
    fun r hr hland => exists_table_of_landings hr hland⟩
  have hne' : t.rounds.isEmpty = false := by simpa using hrounds
  have hfinals : (finalsUids t).count uid ≤ 1 := honce.finals
  have hseat : (((t.finals.elim [] FinalsTable.seating).filter fun s => s.playerUid == uid).map
      fun s => (s.result.vp, s.result.gw)).sum = finalsScore t uid := by
    refine sum_filter_eq_find? _ ?_
    exact hfinals
  simp only [computeRatingVpGw, hforfeit, Bool.false_eq_true, if_false, hne',
    tablesRating_eq honce.tables hne, hseat, prelimScore_eq hne hforfeit]
  rw [saVpPenalty_split]
  refine Prod.ext ?_ rfl
  simp only [sas]
  ring

end Rating

/-! ### Finals without a table -/

def scoredSeat (uid : Uid) (vp : ℚ) : Seat := ⟨uid, ⟨0, vp, 0⟩, ""⟩

/-- One finished table swept by `a`, who is named winner of finals no table records. -/
def finalsUnrecorded : Tournament where
  uid := none
  modified := none
  config _ := .null
  state := .finished
  organizersUids := []
  players := []
  rounds := [[⟨[scoredSeat "a" 4, scoredSeat "b" 0, scoredSeat "c" 0, scoredSeat "d" 0],
    .finished, none, none⟩]]
  finals := none
  winner := "a"
  standings := [⟨"a", 1, 4, 60, 0, true, false, false, false⟩]
  raffles := []
  promosDistributed := []
  promoStockSourceUid := none
  reportedPlayerCount := none
  externalIdsVekn := ""

theorem seatedOncePerTable_finalsUnrecorded : SeatedOncePerTable finalsUnrecorded "a" :=
  ⟨by decide, by decide⟩

/-- `a` is rated two game wins for the one in the standings. -/
theorem finalsUnrecorded_rating_agrees :
    finalsUnrecorded.rounds ≠ [] ∧
      computeRatingVpGw finalsUnrecorded [] "a" =
        ((prelimScore finalsUnrecorded [] "a").1 + (finalsScore finalsUnrecorded "a").1
            - landings (resolveSaEffectiveRounds finalsUnrecorded []) "a" 1,
          (prelimScore finalsUnrecorded [] "a").2 + (finalsScore finalsUnrecorded "a").2 + 1) :=
  ⟨by decide, (rating_agrees (by decide) (by decide) (by decide)
    seatedOncePerTable_finalsUnrecorded).1⟩

theorem finalsUnrecorded_not_rating_agrees :
    ∃ t sanctions uid, t.rounds ≠ [] ∧ forfeitsRating t sanctions uid = false ∧
      SeatedOncePerTable t uid ∧
      computeRatingVpGw t sanctions uid ≠
        ((prelimScore t sanctions uid).1 + (finalsScore t uid).1
            - landings (resolveSaEffectiveRounds t sanctions) uid t.rounds.length,
          (prelimScore t sanctions uid).2 + (finalsScore t uid).2) :=
  ⟨finalsUnrecorded, [], "a", by decide, by decide, seatedOncePerTable_finalsUnrecorded,
    by decide +kernel⟩

end Archon.Engine

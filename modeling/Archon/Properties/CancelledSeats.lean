import Mathlib.Data.List.Dedup
import Archon.Backend.Ratings

/-!
# What the seats of cancelled tables count for (`standings.rs`, `ratings.rs`, `ratings.py`)

The standings, the rating of a player and the rounds played read a tournament as if its cancelled
tables were not there. The field size and the players who get an entry do not: a player seated at
cancelled tables only has played for them.
-/

namespace Archon.Backend
open Engine

/-! ### The tables that were held -/

/-- The tournament without its cancelled tables. -/
def uncancelled (t : Tournament) : Tournament :=
  { t with rounds := t.rounds.map fun round => round.filter fun tb => tb.state != .cancelled }

theorem zipIdx_uncancelled (t : Tournament) :
    (uncancelled t).rounds.zipIdx = t.rounds.zipIdx.map fun ri =>
      (ri.1.filter fun tb => tb.state != .cancelled, ri.2) := by
  rw [uncancelled, List.zipIdx_map]
  rfl

theorem length_rounds_uncancelled (t : Tournament) :
    (uncancelled t).rounds.length = t.rounds.length :=
  List.length_map _

theorem any_uncancelled {round : List Table} {p : Table → Bool}
    (h : ∀ tb, p tb = true → tb.state ≠ .cancelled) :
    (round.filter fun tb => tb.state != .cancelled).any p = round.any p := by
  rw [List.any_filter]
  refine congrArg round.any (funext fun tb => ?_)
  cases hp : p tb with
  | false => rw [Bool.and_false]
  | true => simp [h tb hp]

theorem flatMap_uncancelled {α : Type} {round : List Table} {f : Table → List α}
    (h : ∀ tb, tb.state = .cancelled → f tb = []) :
    (round.filter fun tb => tb.state != .cancelled).flatMap f = round.flatMap f := by
  induction round with
  | nil => rfl
  | cons tb round ih =>
    by_cases hstate : tb.state = .cancelled
    · rw [List.filter_cons_of_neg (by simp [hstate]), ih, List.flatMap_cons, h tb hstate,
        List.nil_append]
    · rw [List.filter_cons_of_pos (by simp [hstate]), List.flatMap_cons, ih, List.flatMap_cons]

/-! ### The readers that skip them -/

section Readers

variable (t : Tournament) (sanctions : List Sanction) (uid : Uid)

theorem scoredIn_uncancelled (r : ℕ) : scoredIn (uncancelled t) uid r = scoredIn t uid r := by
  rw [scoredIn, scoredIn, length_rounds_uncancelled]
  split
  · rfl
  · have hround : ((uncancelled t).rounds[r]?).getD [] =
        ((t.rounds[r]?).getD []).filter fun tb => tb.state != .cancelled := by
      rw [uncancelled, List.getElem?_map]
      cases t.rounds[r]? <;> rfl
    rw [hround]
    refine any_uncancelled fun tb htb => ?_
    simp only [Bool.and_eq_true, beq_iff_eq] at htb
    simp [htb.1]

theorem resolveSaEffectiveRounds_uncancelled :
    resolveSaEffectiveRounds (uncancelled t) sanctions = resolveSaEffectiveRounds t sanctions := by
  have heffective : effectiveRound (uncancelled t) = effectiveRound t := by
    funext u stored
    simp only [effectiveRound, length_rounds_uncancelled, scoredIn_uncancelled]
  rw [resolveSaEffectiveRounds, resolveSaEffectiveRounds, heffective]

theorem prelimEntries_uncancelled (sas : List (Uid × ℕ)) :
    prelimEntries (uncancelled t) sas = prelimEntries t sas := by
  rw [prelimEntries, prelimEntries, zipIdx_uncancelled, List.flatMap_map]
  refine List.flatMap_congr fun ri _ => flatMap_uncancelled fun tb hstate => ?_
  simp [tableEntries, hstate]

theorem computePreliminaryStandings_uncancelled :
    computePreliminaryStandings (uncancelled t) sanctions =
      computePreliminaryStandings t sanctions := by
  simp only [computePreliminaryStandings, resolveSaEffectiveRounds_uncancelled,
    prelimEntries_uncancelled,
    prelimSas, length_rounds_uncancelled]
  rfl

theorem computeRatingVpGw_uncancelled :
    computeRatingVpGw (uncancelled t) sanctions uid = computeRatingVpGw t sanctions uid := by
  have hempty : (uncancelled t).rounds.isEmpty = t.rounds.isEmpty := List.isEmpty_map
  have hround : ∀ (round : List Table) (r : ℕ),
      ((round.filter fun tb => tb.state != .cancelled).map
          (tableRating (resolveSaEffectiveRounds t sanctions) r uid)).sum =
        (round.map (tableRating (resolveSaEffectiveRounds t sanctions) r uid)).sum := by
    intro round r
    induction round with
    | nil => rfl
    | cons tb round ih =>
      by_cases hstate : tb.state = .cancelled
      · have hzero : tableRating (resolveSaEffectiveRounds t sanctions) r uid tb = 0 := by
          rw [tableRating, if_neg (by simp [hstate])]
          rfl
        rw [List.filter_cons_of_neg (by simp [hstate]), ih, List.map_cons, List.sum_cons, hzero,
          zero_add]
      · rw [List.filter_cons_of_pos (by simp [hstate]), List.map_cons, List.sum_cons, ih,
          List.map_cons, List.sum_cons]
  have htables : ((uncancelled t).rounds.zipIdx.map fun ri => (ri.1.map
        (tableRating (resolveSaEffectiveRounds t sanctions) ri.2 uid)).sum) =
      t.rounds.zipIdx.map fun ri => (ri.1.map
        (tableRating (resolveSaEffectiveRounds t sanctions) ri.2 uid)).sum := by
    rw [zipIdx_uncancelled, List.map_map]
    exact List.map_congr_left fun ri _ => hround ri.1 ri.2
  simp only [computeRatingVpGw, resolveSaEffectiveRounds_uncancelled, hempty, htables]
  rfl

theorem countPlayerRoundsPlayed_uncancelled :
    countPlayerRoundsPlayed (uncancelled t) uid = countPlayerRoundsPlayed t uid := by
  rw [countPlayerRoundsPlayed, countPlayerRoundsPlayed, uncancelled, List.countP_map]
  refine List.countP_congr fun round _ => ?_
  rw [Function.comp_apply, any_uncancelled fun tb htb => ?_]
  simp only [Bool.and_eq_true, bne_iff_ne] at htb
  exact htb.1

end Readers

/-! ### Who played -/

/-- Everyone with a seat at a table that was held, the finals included. -/
def seatedHeld (t : Tournament) : List Uid :=
  (((uncancelled t).rounds.flatMap fun round => round.flatMap Table.uids)
    ++ (t.finals.elim [] FinalsTable.seating).map Seat.playerUid).filter (· ≠ "")

/-- The players seated at cancelled tables and at no other. -/
def cancelledOnly (t : Tournament) : List Uid :=
  ((t.rounds.flatMap fun round => (round.filter fun tb => tb.state == .cancelled).flatMap
    Table.uids).filter fun uid => uid ≠ "" ∧ uid ∉ seatedHeld t).dedup

section Played

variable {t : Tournament} {uid : Uid}

theorem mem_seats_split :
    (uid ∈ t.rounds.flatMap fun round => round.flatMap Table.uids) ↔
      (uid ∈ (uncancelled t).rounds.flatMap fun round => round.flatMap Table.uids) ∨
        uid ∈ t.rounds.flatMap fun round =>
          (round.filter fun tb => tb.state == .cancelled).flatMap Table.uids := by
  simp only [uncancelled, List.flatMap_map, List.mem_flatMap, List.mem_filter, bne_iff_ne,
    beq_iff_eq]
  constructor
  · rintro ⟨round, hround, tb, htb, huid⟩
    by_cases hstate : tb.state = .cancelled
    · exact .inr ⟨round, hround, tb, ⟨htb, hstate⟩, huid⟩
    · exact .inl ⟨round, hround, tb, ⟨htb, hstate⟩, huid⟩
  · rintro (⟨round, hround, tb, ⟨htb, -⟩, huid⟩ | ⟨round, hround, tb, ⟨htb, -⟩, huid⟩)
    · exact ⟨round, hround, tb, htb, huid⟩
    · exact ⟨round, hround, tb, htb, huid⟩

theorem mem_played :
    uid ∈ (((t.rounds.flatMap fun round => round.flatMap Table.uids)
        ++ (t.finals.elim [] FinalsTable.seating).map Seat.playerUid).filter (· ≠ "")) ↔
      uid ∈ seatedHeld t ∨ uid ∈ cancelledOnly t := by
  rw [cancelledOnly, List.mem_dedup, List.mem_filter, List.mem_filter, List.mem_append,
    mem_seats_split, decide_eq_true_eq, decide_eq_true_eq]
  have hheld : uid ∈ seatedHeld t ↔
      ((uid ∈ (uncancelled t).rounds.flatMap fun round => round.flatMap Table.uids) ∨
        uid ∈ (t.finals.elim [] FinalsTable.seating).map Seat.playerUid) ∧ uid ≠ "" := by
    rw [seatedHeld, List.mem_filter, List.mem_append, decide_eq_true_eq]
  rw [hheld]
  tauto

theorem mem_playersWithRounds (hrounds : t.rounds ≠ []) :
    uid ∈ Ratings.playersWithRounds t ↔ uid ∈ seatedHeld t ∨ uid ∈ cancelledOnly t := by
  have hempty : t.rounds.isEmpty = false := by simpa using hrounds
  rw [Ratings.playersWithRounds, hempty, Bool.not_false, if_pos rfl, List.mem_dedup]
  exact mem_played

theorem playersWithRounds_eq (hrounds : t.rounds ≠ []) :
    playersWithRounds t = (seatedHeld t).dedup.length + (cancelledOnly t).length := by
  have hempty : t.rounds.isEmpty = false := by simpa using hrounds
  rw [playersWithRounds, hempty, Bool.not_false, if_pos rfl, ← List.length_append]
  refine List.Perm.length_eq ((List.perm_ext_iff_of_nodup (List.nodup_dedup _) ?_).2 fun uid => ?_)
  · refine List.nodup_append.2
      ⟨List.nodup_dedup _, List.nodup_dedup _, fun a ha b hb heq => ?_⟩
    rw [cancelledOnly, List.mem_dedup, List.mem_filter, decide_eq_true_eq] at hb
    exact hb.2.2 (heq ▸ List.mem_dedup.1 ha)
  · rw [List.mem_dedup, mem_played, List.mem_append, List.mem_dedup]

end Played

/-! ### Two tournaments that differ at cancelled tables -/

/-- The table with any seats when it is cancelled, the same table when it is not. -/
def SameTable (tb tb' : Table) : Prop :=
  tb' = tb ∨ (tb.state = .cancelled ∧ ∃ seating, tb' = { tb with seating })

/-- `t'` is `t` with other seats at its cancelled tables. -/
structure SameButCancelled (t t' : Tournament) : Prop where
  tables : List.Forall₂ (List.Forall₂ SameTable) t.rounds t'.rounds
  rest : t' = { t with rounds := t'.rounds }

theorem filter_sameTable {round round' : List Table} (h : List.Forall₂ SameTable round round') :
    (round.filter fun tb => tb.state != .cancelled) =
      round'.filter fun tb => tb.state != .cancelled := by
  induction h with
  | nil => rfl
  | cons hsame _ ih =>
    rcases hsame with rfl | ⟨hstate, seating, rfl⟩
    · rw [List.filter_cons, List.filter_cons, ih]
    · rw [List.filter_cons_of_neg (by simp [hstate]), List.filter_cons_of_neg (by simp [hstate]),
        ih]

section TwoRuns

variable {t t' : Tournament} {sanctions : List StoredSanction}

theorem SameButCancelled.uncancelled_eq (h : SameButCancelled t t') :
    uncancelled t = uncancelled t' := by
  have hrounds : (t.rounds.map fun round => round.filter fun tb => tb.state != .cancelled) =
      t'.rounds.map fun round => round.filter fun tb => tb.state != .cancelled := by
    have htables := h.tables
    revert htables
    generalize t.rounds = rounds
    generalize t'.rounds = rounds'
    intro htables
    induction htables with
    | nil => rfl
    | cons hround _ ih => rw [List.map_cons, List.map_cons, filter_sameTable hround, ih]
  rw [h.rest, uncancelled, uncancelled, hrounds]

theorem SameButCancelled.rounds_ne_nil (h : SameButCancelled t t') (hrounds : t.rounds ≠ []) :
    t'.rounds ≠ [] := by
  have hlength := h.tables.length_eq
  rw [← List.length_pos_iff] at hrounds ⊢
  omega

theorem SameButCancelled.seatedHeld_eq (h : SameButCancelled t t') :
    seatedHeld t = seatedHeld t' := by
  have hfinals : t'.finals = t.finals := by rw [h.rest]
  rw [seatedHeld, seatedHeld, h.uncancelled_eq, hfinals]

/-- The player is neither disqualified nor proxied. -/
def competes (t : Tournament) (sanctions : List StoredSanction) (uid : Uid) : Prop :=
  Ratings.isDisqualified t sanctions uid = false ∧ Ratings.isNonCompeting t uid = false

theorem SameButCancelled.competes_iff (h : SameButCancelled t t') {uid : Uid} :
    competes t sanctions uid ↔ competes t' sanctions uid := by
  rw [h.rest]
  exact Iff.rfl

/-- Nothing that is read off the rounds tells the two tournaments apart. -/
structure CountsForNothing (sanctions : List StoredSanction) (t t' : Tournament) : Prop where
  standings : computePreliminaryStandings t (sanctions.map StoredSanction.toEngine) =
    computePreliminaryStandings t' (sanctions.map StoredSanction.toEngine)
  rating : ∀ uid, computeRatingVpGw t (sanctions.map StoredSanction.toEngine) uid =
    computeRatingVpGw t' (sanctions.map StoredSanction.toEngine) uid
  eligibility : rankingEligibility t = rankingEligibility t'
  fieldSize : attestedPlayerCount t = attestedPlayerCount t'
  entries : ∀ playerUids uid, uid ∈ Ratings.ratedPlayers t sanctions playerUids ↔
    uid ∈ Ratings.ratedPlayers t' sanctions playerUids
  roundsPlayed : ∀ uid, countPlayerRoundsPlayed t uid = countPlayerRoundsPlayed t' uid

/-- The kind and the size of a rated tournament: eight players, those of cancelled tables
included. -/
def ratable (t : Tournament) : Prop :=
  ofRatedKind t ∧ 8 ≤ (seatedHeld t).dedup.length + (cancelledOnly t).length ∧ recordsFinals t

theorem eligible_iff_ratable (hrounds : t.rounds ≠ []) :
    rankingEligibility t = .eligible ↔ ratable t := by
  rw [rankingEligibility_eq_eligible, playersWithRounds_eq hrounds]
  rfl

theorem SameButCancelled.rankingEligibility_eq (h : SameButCancelled t t')
    (hplayed : playersWithRounds t = playersWithRounds t') :
    rankingEligibility t = rankingEligibility t' := by
  have hsame : ∀ rounds, rankingEligibility { t with rounds } =
      if t.text .format = "Storyline" then .storyline
      else if t.flag .openRounds = true ∨ t.flag .selfOrganizedRounds = true then .openRounds
      else if playersWithRounds { t with rounds } = 0 then .noResults
      else if playersWithRounds { t with rounds } < 8 then .fewPlayers
      else if t.finals.isSome = true ∨ t.winner ≠ "" then .eligible
      else .noFinal := fun _ => rfl
  have hleft := hsame t.rounds
  have hright := hsame t'.rounds
  rw [← h.rest, ← hplayed] at hright
  exact hleft.trans hright.symm

/-- The seats of cancelled tables count for nothing exactly when as many players sit at cancelled
tables only, and in a tournament that is rated the same ones among those who compete. -/
theorem countsForNothing_iff (h : SameButCancelled t t') (hrounds : t.rounds ≠ []) :
    CountsForNothing sanctions t t' ↔
      (cancelledOnly t).length = (cancelledOnly t').length ∧
        (ratable t → ∀ uid, competes t sanctions uid →
          (uid ∈ cancelledOnly t ↔ uid ∈ cancelledOnly t')) := by
  have hrounds' := h.rounds_ne_nil hrounds
  have hplayed := playersWithRounds_eq hrounds
  have hplayed' := playersWithRounds_eq hrounds'
  rw [← h.seatedHeld_eq] at hplayed'
  have hsize : attestedPlayerCount t = playersWithRounds t := by
    rw [attestedPlayerCount, if_pos (by simpa using hrounds)]
  have hsize' : attestedPlayerCount t' = playersWithRounds t' := by
    rw [attestedPlayerCount, if_pos (by simpa using hrounds')]
  constructor
  · intro hsame
    have hlength : (cancelledOnly t).length = (cancelledOnly t').length := by
      have := hsame.fieldSize
      omega
    refine ⟨hlength, fun hrated uid hcompetes => ?_⟩
    have heligible := (eligible_iff_ratable hrounds).2 hrated
    have heligible' := hsame.eligibility.symm.trans heligible
    have hentry := hsame.entries [uid] uid
    rw [Ratings.mem_ratedPlayers, Ratings.mem_ratedPlayers, mem_playersWithRounds hrounds,
      mem_playersWithRounds hrounds', ← h.seatedHeld_eq] at hentry
    have hcompetes' := h.competes_iff.1 hcompetes
    simp only [heligible, heligible', hcompetes.1, hcompetes.2, hcompetes'.1, hcompetes'.2,
      List.mem_singleton, true_and, and_true] at hentry
    have hheld : uid ∈ cancelledOnly t ∨ uid ∈ cancelledOnly t' → uid ∉ seatedHeld t := by
      rw [cancelledOnly, cancelledOnly, List.mem_dedup, List.mem_dedup, List.mem_filter,
        List.mem_filter, decide_eq_true_eq, decide_eq_true_eq, ← h.seatedHeld_eq]
      tauto
    tauto
  · rintro ⟨hlength, hcompeting⟩
    have hequal : playersWithRounds t = playersWithRounds t' := by omega
    have heligibility := h.rankingEligibility_eq hequal
    refine ⟨?_, fun uid => ?_, heligibility, by omega, fun playerUids uid => ?_, fun uid => ?_⟩
    · rw [← computePreliminaryStandings_uncancelled t, h.uncancelled_eq,
        computePreliminaryStandings_uncancelled]
    · rw [← computeRatingVpGw_uncancelled t, h.uncancelled_eq, computeRatingVpGw_uncancelled]
    · rw [Ratings.mem_ratedPlayers, Ratings.mem_ratedPlayers, mem_playersWithRounds hrounds,
        mem_playersWithRounds hrounds', ← h.seatedHeld_eq, ← heligibility]
      have hboth : competes t sanctions uid ↔ competes t' sanctions uid := h.competes_iff
      have hmember := hcompeting
      simp only [competes] at hboth hmember
      rw [eligible_iff_ratable hrounds]
      constructor
      · rintro ⟨hasked, huid, hrated, hdq⟩
        exact ⟨hasked, huid.imp_right (hmember hrated uid hdq).1, hrated, hboth.1 hdq⟩
      · rintro ⟨hasked, huid, hrated, hdq⟩
        have hdq' := hboth.2 hdq
        exact ⟨hasked, huid.imp_right (hmember hrated uid hdq').2, hrated, hdq'⟩
    · rw [← countPlayerRoundsPlayed_uncancelled t, h.uncancelled_eq,
        countPlayerRoundsPlayed_uncancelled]

end TwoRuns

/-! ### A round for nothing -/

/-- One table that was held and one that was cancelled, of an event won by `a`. -/
def oneHeld (cancelled : List Seat) : Tournament where
  uid := some "event"
  modified := none
  config _ := .null
  state := .finished
  organizersUids := []
  players := []
  rounds := [[⟨["a", "b", "c", "d"].map Seat.fresh, .finished, none, none⟩],
    [⟨cancelled, .cancelled, none, none⟩]]
  finals := none
  winner := "a"
  standings := []
  raffles := []
  promosDistributed := []
  promoStockSourceUid := none
  reportedPlayerCount := none
  externalIdsVekn := ""

theorem sameButCancelled_oneHeld (seats seats' : List Seat) :
    SameButCancelled (oneHeld seats) (oneHeld seats') where
  tables := .cons (.cons (.inl rfl) .nil) (.cons (.cons (.inr ⟨rfl, seats', rfl⟩) .nil) .nil)
  rest := rfl

/-- Four players who sat down for the cancelled table only, or the four who played: the one field
is big enough to be rated and the other is not. -/
theorem countsForNothing_iff_oneHeld :
    ¬CountsForNothing [] (oneHeld (["e", "f", "g", "h"].map Seat.fresh))
      (oneHeld (["a", "b", "c", "d"].map Seat.fresh)) := by
  rw [countsForNothing_iff (sameButCancelled_oneHeld _ _) (by decide)]
  rintro ⟨hlength, -⟩
  revert hlength
  decide

theorem not_countsForNothing :
    ¬∀ (sanctions : List StoredSanction) (t t' : Tournament), t.rounds ≠ [] →
      SameButCancelled t t' → CountsForNothing sanctions t t' := by
  intro h
  have hsame := h [] (oneHeld (["e", "f", "g", "h"].map Seat.fresh)) (oneHeld []) (by decide)
    (sameButCancelled_oneHeld _ _)
  have heligible : rankingEligibility (oneHeld (["e", "f", "g", "h"].map Seat.fresh)) =
      .eligible := by decide
  have hfew : rankingEligibility (oneHeld []) = .fewPlayers := by decide
  rw [hsame.eligibility, hfew] at heligible
  cases heligible

end Archon.Backend

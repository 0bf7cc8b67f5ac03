import Archon.Seating.Incremental

/-!
# Next-round seating is a partition

A round that is computed seats its players at tables of four or five, each once. The rounds before
it take part in the scores only: no swap, shuffle or write back touches them.
-/

namespace Archon.Seating

open Guards Nested Archon.Engine

/-- A seating of the players: four or five at a table, each player once and nobody else. -/
structure SeatsEach (players : List Uid) (round : Round Uid) : Prop where
  sizes : ∀ table ∈ round, table.length = 4 ∨ table.length = 5
  once : ∀ uid, round.flatten.count uid = if uid ∈ players then 1 else 0

/-! ### Table sizes -/

theorem length_of_mem_cutTables {α : Type} {sizes : List ℕ} {players table : List α}
    (h : table ∈ cutTables sizes players) : table.length ∈ sizes := by
  induction sizes generalizing players with
  | nil => cases h
  | cons size sizes ih =>
    rw [cutTables] at h
    split at h
    · rename_i hle
      rcases List.mem_cons.1 h with rfl | hrest
      · rw [List.length_take, Nat.min_eq_left hle]
        exact List.mem_cons_self
      · exact List.mem_cons_of_mem _ (ih hrest)
    · exact List.mem_cons_of_mem _ (ih h)

theorem length_of_mem_splitTables {α : Type} {players table : List α}
    (h : table ∈ splitTables players) : table.length = 4 ∨ table.length = 5 := by
  rw [splitTables] at h
  split at h
  · cases h
  · have hsize := length_of_mem_cutTables h
    rw [tableSizes, List.mem_append] at hsize
    rcases hsize with hfive | hfour
    · exact .inr (List.eq_of_mem_replicate hfive)
    · exact .inl (List.eq_of_mem_replicate hfour)

section Rounds

variable {rs : RandomSource} {fixedRounds : ℕ} {players : List Uid}

/-! ### The rounds that are fixed -/

/-- The first rounds are the original ones, in the best seating too. -/
structure AnnealState.KeepsFirst (fixedRounds : ℕ) (orig : List (Round ℕ)) (st : AnnealState rs) :
    Prop where
  current : st.idxRounds.take fixedRounds = orig.take fixedRounds
  best : st.bestState.take fixedRounds = orig.take fixedRounds

theorem annealStep_keepsFirst {orig : List (Round ℕ)} {cfg : AnnealConfig} {step : ℕ}
    {st : AnnealState rs} (hcfg : cfg.fixedRounds < cfg.roundsCount)
    (h : st.KeepsFirst cfg.fixedRounds orig) :
    (annealStep rs cfg step st).1.KeepsFirst cfg.fixedRounds orig := by
  unfold annealStep
  extract_lets r positions p1 p2 a b round swapped cleared measure newScore decision idxRounds
    better undone back
  have hr : cfg.fixedRounds ≤ r.1 := (rs.genRange_mem _ _ st.gen hcfg).1
  have hset : ∀ x, (st.idxRounds.set r.1 x).take cfg.fixedRounds = orig.take cfg.fixedRounds := by
    intro x
    rw [List.take_set_of_le hr]
    exact h.current
  split
  · exact ⟨h.current, h.best⟩
  · split
    · exact ⟨h.current, h.best⟩
    · split
      · refine ⟨hset swapped, ?_⟩
        show (if better = true then idxRounds else st.bestState).take cfg.fixedRounds = _
        split
        · exact hset swapped
        · exact h.best
      · exact ⟨hset back, h.best⟩

theorem annealLoop_keepsFirst {orig : List (Round ℕ)} {cfg : AnnealConfig} (left step : ℕ)
    {st : AnnealState rs} (hcfg : cfg.fixedRounds < cfg.roundsCount)
    (h : st.KeepsFirst cfg.fixedRounds orig) :
    (annealLoop rs cfg left step st).KeepsFirst cfg.fixedRounds orig := by
  induction left generalizing step st with
  | zero => exact h
  | succ left ih =>
    have hnext : (annealStep rs cfg step st).1.KeepsFirst cfg.fixedRounds orig :=
      annealStep_keepsFirst hcfg h
    have hrestored :
        (restoreBest rs cfg (annealStep rs cfg step st).1).KeepsFirst cfg.fixedRounds orig :=
      ⟨hnext.best, hnext.best⟩
    rw [annealLoop]
    extract_lets next
    split
    · split
      · exact hrestored
      · exact ih _ hrestored
    · exact ih _ hnext

theorem reshuffle_take (rounds : List (Round ℕ)) (i : ℕ) (g : rs.Gen) :
    (reshuffle rs fixedRounds i rounds g).1.take (fixedRounds - i) =
      rounds.take (fixedRounds - i) := by
  induction rounds generalizing i g with
  | nil => rfl
  | cons r rest ih =>
    rw [reshuffle]
    split
    · rename_i hi
      have hsucc : fixedRounds - i = (fixedRounds - (i + 1)) + 1 := by omega
      rw [hsucc, List.take_succ_cons, List.take_succ_cons, ih]
    · rename_i hi
      have hzero : fixedRounds - i = 0 := by omega
      rw [hzero, List.take_zero, List.take_zero]

theorem toNames_toIndices {rounds : List (Round String)} {r : Round String} (hr : r ∈ rounds) :
    toNames (buildMapping rounds) (toIndices (buildMapping rounds) r) = r := by
  unfold toNames toIndices
  rw [List.map_map]
  conv_rhs => rw [← List.map_id r]
  refine List.map_congr_left fun table htable => ?_
  simp only [Function.comp_apply, List.map_map, id_eq]
  conv_rhs => rw [← List.map_id table]
  refine List.map_congr_left fun p hp => ?_
  exact mapping_idxOf rounds (List.mem_flatten.2
    ⟨table, List.mem_flatten.2 ⟨r, hr, htable⟩, hp⟩)

theorem optimizeSa_take (rounds : List (Round String)) (iterations : ℕ) (seed : UInt64)
    (h : Recut fixedRounds rounds) :
    (optimizeSa rs rounds iterations fixedRounds seed).1.take fixedRounds =
      rounds.take fixedRounds := by
  have hreseats := @optimizeSa_reseats rs rounds iterations fixedRounds seed h
  unfold optimizeSa at hreseats ⊢
  extract_lets roundsCount mapping n shuffled measure score cfg final at hreseats ⊢
  split
  · rfl
  · rename_i hrounds
    have hcfg : cfg.fixedRounds < cfg.roundsCount := by
      show fixedRounds < roundsCount
      omega
    have hshuffled : shuffled.1.take fixedRounds =
        (rounds.map (toIndices mapping)).take fixedRounds :=
      reshuffle_take (rounds.map (toIndices mapping)) 0 (rs.seedFromU64 seed)
    have hsound : final.Sound (rounds.map (toIndices mapping)) := by
      have hstart := reshuffle_reseats fixedRounds (rounds.map (toIndices mapping)) 0
        (rs.seedFromU64 seed) (h.toIndices mapping)
      exact annealLoop_sound iterations 0 ⟨hstart, hstart⟩
    have hfinal : final.KeepsFirst fixedRounds (rounds.map (toIndices mapping)) :=
      annealLoop_keepsFirst iterations 0 hcfg ⟨hshuffled, hshuffled⟩
    show (writeBack rounds (final.bestState.map (toNames mapping))).take fixedRounds = _
    rw [writeBack_of_reseats hsound.best.toNames, ← List.map_take, hfinal.best, ← List.map_take,
      List.map_map]
    conv_rhs => rw [← List.map_id (rounds.take fixedRounds)]
    refine List.map_congr_left fun r hr => ?_
    exact toNames_toIndices (List.mem_of_mem_take hr)

theorem restartLoop_take (rounds : List (Round String)) (iterations : ℕ)
    (h : Recut fixedRounds rounds) (left : ℕ) (best : List (Round String) × SeatingScore)
    (g : rs.Gen) (hbest : best.1.take fixedRounds = rounds.take fixedRounds) :
    (restartLoop rs rounds iterations fixedRounds left best g).1.take fixedRounds =
      rounds.take fixedRounds := by
  induction left generalizing best g with
  | zero => exact hbest
  | succ left ih =>
    unfold restartLoop
    extract_lets drawn trial best'
    have hbest' : best'.1.take fixedRounds = rounds.take fixedRounds := by
      show (if isBetter trial.2.rules best.2.rules = true then trial else best).1.take _ = _
      split
      · exact optimizeSa_take rounds iterations drawn.1 h
      · exact hbest
    split
    · exact hbest'
    · exact ih _ _ hbest'

theorem optimizeSaMulti_take (rounds : List (Round String)) (iterations restarts : ℕ)
    (seed : UInt64) (h : Recut fixedRounds rounds) :
    (optimizeSaMulti rs rounds iterations restarts fixedRounds seed).1.take fixedRounds =
      rounds.take fixedRounds := by
  unfold optimizeSaMulti
  extract_lets drawn best
  have hbest : best.1.take fixedRounds = rounds.take fixedRounds :=
    optimizeSa_take rounds iterations drawn.1 h
  split
  · exact hbest
  · exact restartLoop_take rounds iterations h _ _ _ hbest

/-! ### The rounds computed -/

theorem seatsEach_of_reseated (hnodup : players.Nodup)
    (hvalid : isValidTableCount players.length = true) {round : Round Uid}
    (hperm : round.flatten.Perm (buildRound players).flatten)
    (hsizes : round.map List.length = (buildRound players).map List.length) :
    SeatsEach players round := by
  obtain ⟨h4, h6, h7, h11⟩ := splits_of_isValid hvalid
  have hbuilt : (buildRound players).flatten = players := splitTables_flatten h4 h6 h7 h11
  rw [hbuilt] at hperm
  constructor
  · intro table htable
    have hlength : table.length ∈ (buildRound players).map List.length :=
      hsizes ▸ List.mem_map_of_mem htable
    obtain ⟨cut, hcut, heq⟩ := List.mem_map.1 hlength
    rw [← heq]
    exact length_of_mem_splitTables hcut
  · intro uid
    rw [hperm.count_eq]
    exact hnodup.count

theorem roundsToAnneal_eq (roundsCount : ℕ) (previousRounds : Option (List (Round Uid))) :
    roundsToAnneal players roundsCount previousRounds = previousRounds.getD [] ++
      List.replicate (roundsCount - (previousRounds.getD []).length) (buildRound players) := by
  match previousRounds with
  | none => rfl
  | some [] => rfl
  | some (r :: prev) => rfl

theorem recut_roundsToAnneal (hvalid : isValidTableCount players.length = true)
    (prev : List (Round Uid)) (count : ℕ) :
    Recut prev.length (prev ++ List.replicate count (buildRound players)) := by
  obtain ⟨h4, h6, h7, h11⟩ := splits_of_isValid hvalid
  have hbuilt : (buildRound players).flatten = players := splitTables_flatten h4 h6 h7 h11
  intro j r hr hj
  rw [List.getElem?_append_right hj] at hr
  obtain rfl := List.eq_of_mem_replicate (List.mem_of_getElem? hr)
  rw [hbuilt]

theorem annealed_eq (hnodup : players.Nodup) (hvalid : isValidTableCount players.length = true)
    (prev : List (Round Uid)) (count iterations restarts : ℕ) (seed : UInt64) :
    ∃ new, (optimizeSaMulti rs (prev ++ List.replicate count (buildRound players)) iterations
        restarts prev.length seed).1 = prev ++ new ∧ new.length = count ∧
      ∀ round ∈ new, SeatsEach players round := by
  have hrecut := recut_roundsToAnneal hvalid prev count
  have htake := @optimizeSaMulti_take rs _ _ iterations restarts seed hrecut
  have hreseats := @optimizeSaMulti_reseats rs _ iterations restarts prev.length seed hrecut
  generalize (optimizeSaMulti rs (prev ++ List.replicate count (buildRound players)) iterations
    restarts prev.length seed).1 = all at htake hreseats
  rw [List.take_left] at htake
  have hall : all = prev ++ all.drop prev.length := by
    conv_lhs => rw [← List.take_append_drop prev.length all, htake]
  have hdrop : Reseats (all.drop prev.length) (List.replicate count (buildRound players)) := by
    have h := List.forall₂_drop prev.length hreseats
    rwa [List.drop_left] at h
  refine ⟨all.drop prev.length, hall, ?_, fun round hround => ?_⟩
  · rw [hdrop.length_eq, List.length_replicate]
  · obtain ⟨i, hi⟩ := List.mem_iff_getElem?.1 hround
    obtain ⟨hlt, rfl⟩ := List.getElem?_eq_some_iff.1 hi
    have hlt' : i < (List.replicate count (buildRound players)).length := hdrop.length_eq ▸ hlt
    have hpair := (List.forall₂_iff_get.1 hdrop).2 i hlt hlt'
    simp only [List.get_eq_getElem, List.getElem_replicate] at hpair
    exact seatsEach_of_reseated hnodup hvalid hpair.1 hpair.2

theorem computeSeating_eq (hnodup : players.Nodup)
    (hvalid : isValidTableCount players.length = true) {roundsCount : ℕ} (hcount : roundsCount ≠ 0)
    (previousRounds : Option (List (Round Uid))) (seed : UInt64) :
    ∃ new score, computeSeating rs players roundsCount previousRounds seed =
        .ok (previousRounds.getD [] ++ new, score) ∧
      new.length = roundsCount - (previousRounds.getD []).length ∧
      ∀ round ∈ new, SeatsEach players round := by
  obtain ⟨h4, -⟩ := splits_of_isValid hvalid
  have hfixed : previousRounds.elim 0 List.length = (previousRounds.getD []).length := by
    cases previousRounds <;> rfl
  have hrounds : roundsToAnneal players roundsCount previousRounds ≠ [] := by
    rw [roundsToAnneal_eq]
    intro hnil
    obtain ⟨hprev, hnew⟩ := List.append_eq_nil_iff.1 hnil
    rw [hprev, List.replicate_eq_nil_iff] at hnew
    exact hcount (by simpa using hnew)
  obtain ⟨new, hnew, hlength, hseats⟩ := @annealed_eq rs players hnodup hvalid
    (previousRounds.getD []) (roundsCount - (previousRounds.getD []).length)
    (getSaParams players.length).1 (getSaParams players.length).2 seed
  refine ⟨new, scoreTotal rs.sqrt (previousRounds.getD [] ++ new), ?_, hlength, hseats⟩
  simp only [computeSeating, bind_eq_ok, ensure_eq_ok, pure_eq_ok]
  refine ⟨(), h4, (), hcount, (), hvalid, (), hrounds, ?_⟩
  rw [hfixed, roundsToAnneal_eq, hnew]

/-- Whatever the generator draws, the rounds computed seat the players, each once, and follow the
previous rounds, which are as they were. -/
theorem seating_partitions (rs : RandomSource) (hnodup : players.Nodup)
    (hvalid : isValidTableCount players.length = true) (seed : UInt64) :
    (∀ roundsCount ≠ 0, ∀ previousRounds, ∃ new score,
      computeSeating rs players roundsCount previousRounds seed =
        .ok (previousRounds.getD [] ++ new, score) ∧
      new.length = roundsCount - (previousRounds.getD []).length ∧
      ∀ round ∈ new, SeatsEach players round) ∧
    ∀ prev, ∃ round score, computeNextRound rs players prev seed = .ok (round, score) ∧
      computeSeating rs players (prev.length + 1) (some prev) seed =
        .ok (prev ++ [round], score) ∧
      SeatsEach players round := by
  constructor
  · exact fun roundsCount hcount previousRounds =>
      computeSeating_eq hnodup hvalid hcount previousRounds seed
  · intro prev
    obtain ⟨new, score, hall, hlength, hseats⟩ := @computeSeating_eq rs players hnodup hvalid _
      (Nat.succ_ne_zero prev.length) (some prev) seed
    rw [Option.getD_some] at hall hlength
    obtain ⟨round, rfl⟩ := List.length_eq_one_iff.1 (hlength.trans (by omega))
    refine ⟨round, score, ?_, hall, hseats round (List.mem_singleton_self round)⟩
    rw [computeNextRound, hall]
    simp only [bind_eq_ok, okOr_eq_ok, pure_eq_ok]
    exact ⟨_, rfl, round, List.getLast?_concat, rfl⟩

end Rounds

theorem seating_partitions_eight :
    ∃ round score, computeNextRound (scriptedSource [0, 0, 4]) ["a", "b", "c", "d", "e", "f", "g",
        "h"] twoRounds 1 = .ok (round, score) ∧
      computeSeating (scriptedSource [0, 0, 4]) ["a", "b", "c", "d", "e", "f", "g", "h"] 3
        (some twoRounds) 1 = .ok (twoRounds ++ [round], score) ∧
      SeatsEach ["a", "b", "c", "d", "e", "f", "g", "h"] round :=
  (seating_partitions (scriptedSource [0, 0, 4]) (by decide) (by decide) 1).2 twoRounds

end Archon.Seating

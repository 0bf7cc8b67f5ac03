import Mathlib.Data.Prod.Lex
import Mathlib.Data.String.Basic
import Mathlib.Data.List.Sort
import Archon.Seating.Anneal
import Archon.Engine.Errors

/-!
# Seating the next round (`seating/mod.rs`, `seating/stagger.rs`)

Who plays the next round, and the annealed seating of it. The main result: whatever the
generator draws, the round that comes out seats the players it was given, each as often as
given.
-/

namespace Archon.Seating

open Guards Nested Archon.Engine

/-! ### Staggering -/

/-- `stagger.rs:6`. -/
def isValidTableCount (n : ℕ) : Bool :=
  decide (4 ≤ n) && n != 6 && n != 7 && n != 11

/-- `stagger.rs:12`. -/
def findEqualizationTarget : ℕ → ℕ
  | 6 => 4
  | 7 => 5
  | 11 => 9
  | n => n

/-- `stagger.rs:23`: everyone when the count splits, else the players behind when they split,
else those who played least. -/
def selectPlayersForRound (checkedIn : List Uid) (previousRounds : List (Round Uid)) : List Uid :=
  if isValidTableCount checkedIn.length = true then checkedIn
  else
    let playCount := fun uid => previousRounds.flatten.flatten.count uid
    let counts := checkedIn.map playCount
    let maxPlayed := (counts.max?).getD 0
    let minPlayed := (counts.min?).getD 0
    let behind := (checkedIn.filter fun uid => decide (playCount uid < maxPlayed)).insertionSort
      fun a b => a ≤ b
    if minPlayed < maxPlayed ∧ isValidTableCount behind.length = true then behind
    else
      (checkedIn.insertionSort fun a b => toLex (playCount a, a) ≤ toLex (playCount b, b)).take
        (findEqualizationTarget checkedIn.length)

/-! ### The next round -/

/-- `seating/mod.rs:21`: FNV-1a over the uid, then one step of a linear congruence. -/
def seedForRound (tournamentUid : String) (roundIndex : ℕ) : UInt64 :=
  let base := tournamentUid.toUTF8.toList.foldl
    (fun acc b => (acc ^^^ b.toUInt64) * 0x100000001b3) (0xcbf29ce484222325 : UInt64)
  base * 6364136223846793005 + roundIndex.toUInt64 + 1

section NextRound

variable (rs : RandomSource)

/-- The rounds `compute_seating` anneals: the previous ones and fresh ones up to the count. -/
def roundsToAnneal (players : List Uid) (roundsCount : ℕ)
    (previousRounds : Option (List (Round Uid))) : List (Round Uid) :=
  match previousRounds with
  | some (r :: prev) =>
    (r :: prev) ++ List.replicate (roundsCount - (prev.length + 1)) (buildRound players)
  | _ => List.replicate roundsCount (buildRound players)

/-- `seating/mod.rs:40`. -/
def computeSeating (players : List Uid) (roundsCount : ℕ)
    (previousRounds : Option (List (Round Uid))) (seed : UInt64) :
    Except EngineError (List (Round Uid) × SeatingScore) := do
  ensure (4 ≤ players.length) .seatingMinPlayers
  ensure (roundsCount ≠ 0) .seatingMinRounds
  ensure (isValidTableCount players.length = true)
    (.internal (toString players.length ++ " players cannot be split into tables of 4-5; " ++
      "filter via select_players_for_round first"))
  let rounds := roundsToAnneal players roundsCount previousRounds
  ensure (rounds ≠ []) (.internal "Could not build rounds")
  let params := getSaParams players.length
  let annealed := optimizeSaMulti rs rounds params.1 params.2 (previousRounds.elim 0 List.length)
    seed
  pure (annealed.1, scoreTotal rs.sqrt annealed.1)

/-- `seating/mod.rs:93`. -/
def computeNextRound (currentPlayers : List Uid) (previousRounds : List (Round Uid))
    (seed : UInt64) : Except EngineError (Round Uid × SeatingScore) := do
  let all ← computeSeating rs currentPlayers (previousRounds.length + 1) (some previousRounds) seed
  let newRound ← okOr all.1.getLast? (.internal "No rounds generated")
  pure (newRound, all.2)

end NextRound

/-! ### The seating is a partition -/

/-- Round by round, the same players at tables of the same sizes. -/
def Reseats {α : Type} (a b : List (Round α)) : Prop :=
  List.Forall₂ (fun r r' => r.flatten.Perm r'.flatten ∧ r.map List.length = r'.map List.length)
    a b

theorem Reseats.refl {α : Type} (a : List (Round α)) : Reseats a a :=
  List.forall₂_same.2 fun _ _ => ⟨List.Perm.refl _, rfl⟩

theorem Reseats.getLast {α : Type} {a b : List (Round α)} (h : Reseats a b) {x : Round α}
    (hx : a.getLast? = some x) : ∃ y, b.getLast? = some y ∧ x.flatten.Perm y.flatten := by
  have hrev := List.forall₂_reverse_iff.2 h
  rw [List.getLast?_eq_head?_reverse] at hx ⊢
  generalize a.reverse = ra at hrev hx
  generalize b.reverse = rb at hrev
  cases hrev with
  | nil => cases hx
  | cons hxy _ => exact ⟨_, rfl, Option.some.inj hx ▸ hxy.1⟩

theorem Reseats.set {α : Type} {a b : List (Round α)} (h : Reseats a b) (i : ℕ) {r : Round α}
    (hperm : r.flatten.Perm ((a[i]?).getD []).flatten)
    (hsizes : r.map List.length = ((a[i]?).getD []).map List.length) :
    Reseats (a.set i r) b := by
  induction h generalizing i with
  | nil => exact .nil
  | cons hxy hrest ih =>
    cases i with
    | zero => exact .cons ⟨hperm.trans hxy.1, hsizes.trans hxy.2⟩ hrest
    | succ i => exact .cons hxy (ih i (by simpa using hperm) (by simpa using hsizes))

/-- The rounds left to anneal are cut the way `build_round` cuts their players. -/
def Recut (fixedRounds : ℕ) (rounds : List (Round String)) : Prop :=
  ∀ j r, rounds[j]? = some r → fixedRounds ≤ j → buildRound r.flatten = r

theorem splits_of_isValid {n : ℕ} (h : isValidTableCount n = true) :
    4 ≤ n ∧ n ≠ 6 ∧ n ≠ 7 ∧ n ≠ 11 := by
  simpa [isValidTableCount, and_assoc] using h

section Runs

variable {rs : RandomSource}

/-- The state of the annealer seats the original players, in its best seating too. -/
structure AnnealState.Sound (orig : List (Round ℕ)) (st : AnnealState rs) : Prop where
  current : Reseats st.idxRounds orig
  best : Reseats st.bestState orig

theorem swapAt_twice_perm (round : Round ℕ) (i j k l : ℕ) :
    (swapAt (swapAt round i j k l) i j k l).flatten.Perm round.flatten :=
  (swapAt_perm _ i j k l).trans (swapAt_perm _ i j k l)

theorem map_length_swapAt_twice (round : Round ℕ) (i j k l : ℕ) :
    (swapAt (swapAt round i j k l) i j k l).map List.length = round.map List.length :=
  (map_length_swapAt _ i j k l).trans (map_length_swapAt _ i j k l)

theorem annealStep_sound {orig : List (Round ℕ)} {cfg : AnnealConfig} {step : ℕ}
    {st : AnnealState rs} (h : st.Sound orig) : (annealStep rs cfg step st).1.Sound orig := by
  unfold annealStep
  extract_lets r positions p1 p2 a b round swapped cleared measure newScore decision idxRounds
    better undone back
  have hswapped : Reseats (st.idxRounds.set r.1 swapped) orig :=
    h.current.set r.1 (swapAt_perm round a.1 a.2 b.1 b.2)
      (map_length_swapAt round a.1 a.2 b.1 b.2)
  have hback : Reseats (st.idxRounds.set r.1 back) orig :=
    h.current.set r.1 (swapAt_twice_perm round a.1 a.2 b.1 b.2)
      (map_length_swapAt_twice round a.1 a.2 b.1 b.2)
  split
  · exact ⟨h.current, h.best⟩
  · split
    · exact ⟨h.current, h.best⟩
    · split
      · refine ⟨hswapped, ?_⟩
        show Reseats (if better = true then idxRounds else st.bestState) orig
        split
        · exact hswapped
        · exact h.best
      · exact ⟨hback, h.best⟩

theorem annealLoop_sound {orig : List (Round ℕ)} {cfg : AnnealConfig} (left step : ℕ)
    {st : AnnealState rs} (h : st.Sound orig) : (annealLoop rs cfg left step st).Sound orig := by
  induction left generalizing step st with
  | zero => exact h
  | succ left ih =>
    have hnext : (annealStep rs cfg step st).1.Sound orig := annealStep_sound h
    have hrestored : (restoreBest rs cfg (annealStep rs cfg step st).1).Sound orig :=
      ⟨hnext.best, hnext.best⟩
    rw [annealLoop]
    extract_lets next
    split
    · split
      · exact hrestored
      · exact ih _ hrestored
    · exact ih _ hnext

theorem reshuffle_reseats (fixedRounds : ℕ) (rounds : List (Round ℕ)) (i : ℕ) (g : rs.Gen)
    (h : ∀ j r, rounds[j]? = some r → fixedRounds ≤ i + j → buildRoundIdx r.flatten = r) :
    Reseats (reshuffle rs fixedRounds i rounds g).1 rounds := by
  induction rounds generalizing i g with
  | nil => exact .nil
  | cons r rest ih =>
    have hrest : ∀ j r', rest[j]? = some r' → fixedRounds ≤ i + 1 + j →
        buildRoundIdx r'.flatten = r' := by
      intro j r' hr' hj
      exact h (j + 1) r' (by simpa using hr') (by omega)
    rw [reshuffle]
    split
    · exact .cons ⟨List.Perm.refl _, rfl⟩ (ih (i + 1) g hrest)
    · rename_i hi
      have hperm := rs.shuffle_perm r.flatten g
      have hcut : splitTables r.flatten = r := h 0 r rfl (by omega)
      refine .cons ⟨?_, ?_⟩ (ih (i + 1) _ hrest)
      · rw [buildRoundIdx, splitTables_flatten_of_length hperm.length_eq (by rw [hcut])]
        exact hperm
      · rw [buildRoundIdx, splitTables_lengths _ r.flatten hperm.length_eq, hcut]

theorem subset_foldl_mapping (xs m : List String) :
    ∀ p, p ∈ m ∨ p ∈ xs → p ∈ xs.foldl (fun m p => if p ∈ m then m else m ++ [p]) m := by
  induction xs generalizing m with
  | nil => simp
  | cons x xs ih =>
    intro p hp
    rw [List.foldl_cons]
    apply ih
    by_cases hx : x ∈ m
    · rw [if_pos hx]
      rcases hp with hp | hp
      · exact .inl hp
      · rcases List.mem_cons.1 hp with rfl | hp
        · exact .inl hx
        · exact .inr hp
    · rw [if_neg hx]
      simp only [List.mem_append, List.mem_singleton]
      simp only [List.mem_cons] at hp
      tauto

theorem mapping_idxOf (rounds : List (Round String)) {p : String}
    (hp : p ∈ rounds.flatten.flatten) :
    ((buildMapping rounds)[(buildMapping rounds).idxOf p]?).getD "" = p := by
  have hmem : p ∈ buildMapping rounds := subset_foldl_mapping _ [] p (.inr hp)
  rw [List.getElem?_eq_getElem (List.idxOf_lt_length_of_mem hmem)]
  simp

theorem toIndices_back (rounds : List (Round String)) {r : Round String} (hr : r ∈ rounds) :
    (toIndices (buildMapping rounds) r).flatten.map
      (fun i => ((buildMapping rounds)[i]?).getD "") = r.flatten := by
  have hflat : (toIndices (buildMapping rounds) r).flatten =
      r.flatten.map fun p => (buildMapping rounds).idxOf p := by
    rw [toIndices, List.map_flatten]
  rw [hflat, List.map_map]
  conv_rhs => rw [← List.map_id r.flatten]
  apply List.map_congr_left
  intro p hp
  exact mapping_idxOf rounds (List.mem_flatten.2
    ⟨_, List.mem_flatten.2 ⟨r, hr, (List.mem_flatten.1 hp).choose_spec.1⟩,
      (List.mem_flatten.1 hp).choose_spec.2⟩)

theorem toIndices_flatten (mapping : List String) (r : Round String) :
    (toIndices mapping r).flatten = r.flatten.map fun p => mapping.idxOf p := by
  rw [toIndices, List.map_flatten]

theorem splitTables_map {α β : Type} (f : α → β) (xs : List α) :
    splitTables (xs.map f) = (splitTables xs).map (List.map f) := by
  have hcut : ∀ sizes (xs : List α),
      cutTables sizes (xs.map f) = (cutTables sizes xs).map (List.map f) := by
    intro sizes
    induction sizes with
    | nil => exact fun _ => rfl
    | cons size sizes ih =>
      intro xs
      rw [cutTables, cutTables, List.length_map]
      split
      · rw [List.map_cons, List.map_take, ← List.map_drop, ih]
      · exact ih xs
  rw [splitTables, splitTables, List.length_map]
  split
  · rfl
  · exact hcut _ xs

theorem Recut.toIndices {fixedRounds : ℕ} {rounds : List (Round String)}
    (h : Recut fixedRounds rounds) (mapping : List String) :
    ∀ j r, (rounds.map (toIndices mapping))[j]? = some r → fixedRounds ≤ 0 + j →
      buildRoundIdx r.flatten = r := by
  intro j r hr hj
  rw [List.getElem?_map, Option.map_eq_some_iff] at hr
  obtain ⟨r', hr', rfl⟩ := hr
  have hcut : splitTables r'.flatten = r' := h j r' hr' (by omega)
  rw [toIndices_flatten, buildRoundIdx, splitTables_map, hcut]
  rfl

/-- A round by its names. -/
def toNames (mapping : List String) (round : Round ℕ) : Round String :=
  round.map fun table => table.map fun i => (mapping[i]?).getD ""

theorem Reseats.toNames {rounds : List (Round String)} {best : List (Round ℕ)}
    (h : Reseats best (rounds.map (toIndices (buildMapping rounds)))) :
    Reseats (best.map (toNames (buildMapping rounds))) rounds := by
  unfold Reseats at h ⊢
  rw [List.forall₂_map_right_iff] at h
  rw [List.forall₂_map_left_iff]
  have hmem : List.Forall₂ (fun (a : Round ℕ) b => b ∈ rounds ∧
      a.flatten.Perm (toIndices (buildMapping rounds) b).flatten ∧
      a.map List.length = (toIndices (buildMapping rounds) b).map List.length) best rounds := by
    rw [List.forall₂_iff_get] at h ⊢
    exact ⟨h.1, fun i h1 h2 => ⟨List.get_mem _ _, h.2 i h1 h2⟩⟩
  refine hmem.imp ?_
  rintro a b ⟨hb, hperm, hsizes⟩
  constructor
  · have hback := toIndices_back rounds hb
    rw [Seating.toNames, ← List.map_flatten, ← hback]
    exact hperm.map _
  · have hnames : (Seating.toNames (buildMapping rounds) a).map List.length =
        a.map List.length := by
      simp [Seating.toNames, Function.comp_def]
    have hindices : (toIndices (buildMapping rounds) b).map List.length =
        b.map List.length := by
      simp [Seating.toIndices, Function.comp_def]
    rw [hnames, hsizes, hindices]

theorem writeBack_of_reseats {rounds best : List (Round String)} (h : Reseats best rounds) :
    writeBack rounds best = best := by
  unfold writeBack
  induction h with
  | nil => rfl
  | cons hxy _ ih => rw [overlay, ih, overlay_overlay_eq_right _ _ hxy.2.symm]

theorem optimizeSa_reseats (rounds : List (Round String)) (iterations fixedRounds : ℕ)
    (seed : UInt64) (h : Recut fixedRounds rounds) :
    Reseats (optimizeSa rs rounds iterations fixedRounds seed).1 rounds := by
  unfold optimizeSa
  extract_lets roundsCount mapping n shuffled measure score cfg final
  split
  · exact Reseats.refl rounds
  · have hshuffled : Reseats shuffled.1 (rounds.map (toIndices mapping)) :=
      reshuffle_reseats _ _ _ _ (h.toIndices mapping)
    have hfinal : final.Sound (rounds.map (toIndices mapping)) :=
      annealLoop_sound iterations 0 ⟨hshuffled, hshuffled⟩
    have hbest : Reseats (final.bestState.map (toNames mapping)) rounds := hfinal.best.toNames
    show Reseats (writeBack rounds (final.bestState.map (toNames mapping))) rounds
    rw [writeBack_of_reseats hbest]
    exact hbest

theorem restartLoop_reseats (rounds : List (Round String)) (iterations fixedRounds : ℕ)
    (h : Recut fixedRounds rounds) (left : ℕ)
    (best : List (Round String) × SeatingScore) (g : rs.Gen) (hbest : Reseats best.1 rounds) :
    Reseats (restartLoop rs rounds iterations fixedRounds left best g).1 rounds := by
  induction left generalizing best g with
  | zero => exact hbest
  | succ left ih =>
    unfold restartLoop
    extract_lets drawn trial best'
    have hbest' : Reseats best'.1 rounds := by
      show Reseats (if isBetter trial.2.rules best.2.rules = true then trial else best).1 rounds
      split
      · exact optimizeSa_reseats rounds iterations fixedRounds drawn.1 h
      · exact hbest
    split
    · exact hbest'
    · exact ih _ _ hbest'

theorem optimizeSaMulti_reseats (rounds : List (Round String))
    (iterations restarts fixedRounds : ℕ) (seed : UInt64) (h : Recut fixedRounds rounds) :
    Reseats (optimizeSaMulti rs rounds iterations restarts fixedRounds seed).1 rounds := by
  unfold optimizeSaMulti
  extract_lets drawn best
  have hbest : Reseats best.1 rounds :=
    optimizeSa_reseats rounds iterations fixedRounds drawn.1 h
  split
  · exact hbest
  · exact restartLoop_reseats rounds iterations fixedRounds h _ _ _ hbest

theorem roundsToAnneal_next (players : List Uid) (prev : List (Round Uid)) :
    roundsToAnneal players (prev.length + 1) (some prev) = prev ++ [buildRound players] := by
  cases prev with
  | nil => rfl
  | cons r prev =>
    simp only [roundsToAnneal, List.length_cons]
    rw [show prev.length + 1 + 1 - (prev.length + 1) = 1 from by omega]
    rfl

theorem computeNextRound_perm {players : List Uid} {prev : List (Round Uid)} {seed : UInt64}
    {round : Round Uid} {score : SeatingScore}
    (h : computeNextRound rs players prev seed = .ok (round, score)) :
    round.flatten.Perm players := by
  simp only [computeNextRound, computeSeating, bind_eq_ok, ensure_eq_ok, pure_eq_ok, okOr_eq_ok,
    roundsToAnneal_next] at h
  obtain ⟨all, ⟨-, -, -, -, -, hvalid, -, -, rfl⟩, last, hlast, heq⟩ := h
  obtain ⟨rfl, -⟩ := Prod.mk.inj heq
  obtain ⟨h4, h6, h7, h11⟩ := splits_of_isValid hvalid
  have hbuilt : (buildRound players).flatten = players := splitTables_flatten h4 h6 h7 h11
  have hprev : Recut prev.length (prev ++ [buildRound players]) := by
    intro j r hr hj
    rw [List.getElem?_append_right hj, List.getElem?_singleton] at hr
    split at hr
    · obtain rfl := Option.some.inj hr
      rw [hbuilt]
    · cases hr
  obtain ⟨orig, horig, hperm⟩ :=
    (optimizeSaMulti_reseats _ _ _ _ _ hprev).getLast hlast
  rw [List.getLast?_concat, Option.some.injEq] at horig
  rwa [← horig, hbuilt] at hperm

theorem mem_selectPlayersForRound {checkedIn : List Uid} {prev : List (Round Uid)} {uid : Uid}
    (h : uid ∈ selectPlayersForRound checkedIn prev) : uid ∈ checkedIn := by
  unfold selectPlayersForRound at h
  split at h
  · exact h
  · extract_lets playCount counts maxPlayed minPlayed behind at h
    split at h
    · exact (List.mem_filter.1 ((List.mem_insertionSort _).1 h)).1
    · exact (List.mem_insertionSort _).1 (List.mem_of_mem_take h)

end Runs

end Archon.Seating

import Archon.Seating.Relations
import Archon.Engine.SeatingEdits

/-!
# Predator-prey repeats are found exactly

`compute_player_issues` reads the prey and the predator counter of each pair once, from one side.
The predator counter is the prey counter of the other side, so a pair is reported when one of the
two comes right after the other at two seats. At tables of different players two seats are two
tables, and `AlterSeating` refuses a round over exactly these repeats.
-/

namespace Archon.Seating

/-! ### What a repeat is -/

/-- Somebody comes right after another player at two seats. -/
def RepeatsPursuit (rounds : List (Round String)) : Prop :=
  ∃ a b, a ≠ b ∧ 2 ≤ pursuits rounds a b

/-- `b` sits right after `a`, around a table of four or five. -/
def sitsAfter (a b : String) (table : List String) : Bool := decide (0 < follows a b table)

theorem sitsAfter_iff {a b : String} {table : List String} : sitsAfter a b table = true ↔
    (table.length = 4 ∨ table.length = 5) ∧ ∃ seat < table.length,
      table[seat]? = some a ∧ table[(seat + 1) % table.length]? = some b := by
  unfold sitsAfter follows
  split_ifs with hsize
  · simp [hsize, List.countP_pos_iff]
  · simp [hsize]

theorem pursuits_eq_countP {rounds : List (Round String)}
    (h : ∀ table ∈ rounds.flatten, table.Nodup) (a b : String) :
    pursuits rounds a b = rounds.flatten.countP (sitsAfter a b) := by
  unfold pursuits
  generalize rounds.flatten = tables at h
  induction tables with
  | nil => rfl
  | cons table tables ih =>
    have hone : follows a b table ≤ 1 := follows_le_one (h table List.mem_cons_self)
    rw [List.map_cons, List.sum_cons, ih fun t ht => h t (List.mem_cons_of_mem _ ht),
      List.countP_cons, Nat.add_comm]
    congr 1
    by_cases hpos : 0 < follows a b table
    · rw [if_pos (by simp [sitsAfter, hpos])]
      omega
    · rw [if_neg (by simp [sitsAfter, hpos])]
      omega

/-! ### The issues -/

/-- Issues of the first rule. -/
def reportsR1 (issues : List SeatingIssue) : Bool := issues.any fun issue => issue.rule == 0

theorem reportsR1_ownIssues (m : Measure) (mapping : List String) (i : ℕ) :
    reportsR1 (ownIssues m mapping i) = false := by
  unfold reportsR1 ownIssues
  extract_lets played who
  split
  · rfl
  · simp only [List.any_append, Bool.or_eq_false_iff, List.any_flatMap, List.any_eq_false]
    refine ⟨⟨?_, ?_⟩, fun seat _ => ?_⟩
    · split <;> simp
    · split <;> simp
    · split
      · split <;> simp
      · simp

theorem reportsR1_pairIssues (m : Measure) (mapping : List String) (roundsCount : ℕ)
    (ij : ℕ × ℕ) : reportsR1 (pairIssues m mapping roundsCount ij) = true ↔
      1 < m.get ij.1 ij.2 0 ∧ (1 < m.get ij.1 ij.2 1 ∨ 1 < m.get ij.1 ij.2 4) := by
  unfold reportsR1 pairIssues
  extract_lets count playing who
  split
  · rename_i hfew
    simpa using fun h => absurd h (not_lt.2 hfew)
  · rename_i hmet
    have hone : ∀ (c : Prop) [Decidable c] (rule : ℕ), rule ≠ 0 →
        ∀ issue ∈ (if c then [(⟨rule, who⟩ : SeatingIssue)] else []), issue.rule ≠ 0 := by
      intro c _ rule hrule issue hissue
      split at hissue
      · rwa [List.mem_singleton.1 hissue]
      · cases hissue
    rw [List.any_eq_true]
    constructor
    · rintro ⟨issue, hissue, hrule⟩
      rw [beq_iff_eq] at hrule
      refine ⟨not_le.1 hmet, ?_⟩
      rw [List.mem_append, List.mem_append, List.mem_append] at hissue
      rcases hissue with ((hissue | hissue) | hissue) | hissue
      · exact absurd hrule (hone _ 3 (by decide) issue hissue)
      · exact absurd hrule (hone _ 1 (by decide) issue hissue)
      · obtain ⟨k, -, hk⟩ := List.mem_flatMap.1 hissue
        split at hk
        · rename_i hrepeat
          rcases List.mem_cons.1 hk with rfl | hk
          · cases hrule
          · split at hk
            · rename_i hside
              rcases hside with rfl | rfl
              · exact .inl hrepeat
              · exact .inr hrepeat
            · cases hk
        · cases hk
      · split at hissue
        · obtain ⟨k, -, hk⟩ := List.mem_flatMap.1 hissue
          exact absurd hrule (hone _ 8 (by decide) issue hk)
        · cases hissue
    · rintro ⟨-, hrepeat⟩
      have hside : ∀ k, (k = 1 ∨ k = 4) → 1 < m.get ij.1 ij.2 k → (⟨0, who⟩ : SeatingIssue) ∈
          [1, 2, 3, 4, 5].flatMap fun k => if 1 < m.get ij.1 ij.2 k then
            ⟨5, who⟩ :: (if k = 1 ∨ k = 4 then [⟨0, who⟩] else []) else [] := by
        intro k hk hget
        refine List.mem_flatMap.2 ⟨k, ?_, ?_⟩
        · rcases hk with rfl | rfl <;> decide
        · rw [if_pos hget, if_pos hk]
          exact List.mem_cons_of_mem _ List.mem_cons_self
      refine ⟨⟨0, who⟩, List.mem_append_left _ (List.mem_append_right _ ?_), rfl⟩
      rcases hrepeat with hprey | hpredator
      · exact hside 1 (.inl rfl) hprey
      · exact hside 4 (.inr rfl) hpredator

/-! ### Soundness and completeness -/

theorem tableSum_le_met {a b k : ℕ} (hab : a ≠ b) (hk : k = 1 ∨ k = 4) (table : List ℕ) :
    tableSum a b k table ≤ tableSum a b 0 table := by
  have hfacing : (∀ rel < 3, facing 4 rel k ≤ facing 4 rel 0) ∧
      ∀ rel < 4, facing 5 rel k ≤ facing 5 rel 0 := by
    rcases hk with rfl | rfl <;> decide
  by_cases hsize : table.length = 4 ∨ table.length = 5
  · rw [tableSum_eq_facing hab k hsize, tableSum_eq_facing hab 0 hsize]
    refine List.sum_le_sum fun ps _ => List.sum_le_sum fun rel hrel => ?_
    rw [List.mem_range] at hrel
    split
    · rcases hsize with hsize | hsize
      · rw [hsize] at hrel ⊢
        exact hfacing.1 rel hrel
      · rw [hsize] at hrel ⊢
        exact hfacing.2 rel hrel
    · exact le_rfl
  · unfold tableSum contributions
    rw [if_neg hsize]
    exact le_rfl

theorem prey_le_met {mapping : List String} {rounds : List (Round String)} {a b k : ℕ}
    (hab : a ≠ b) (hk : k = 1 ∨ k = 4) :
    (totalMeasure mapping rounds).get a b k ≤ (totalMeasure mapping rounds).get a b 0 := by
  rw [totalMeasure_get hab, totalMeasure_get hab]
  exact List.sum_le_sum fun round _ => List.sum_le_sum fun table _ => tableSum_le_met hab hk table

theorem totalMeasure_predator {rounds : List (Round String)} {a b : String}
    (ha : a ∈ buildMapping rounds) (hb : b ∈ buildMapping rounds) (hab : a ≠ b) :
    (totalMeasure (buildMapping rounds) rounds).get ((buildMapping rounds).idxOf a)
      ((buildMapping rounds).idxOf b) 4 = pursuits rounds b a := by
  have hidx : (buildMapping rounds).idxOf a ≠ (buildMapping rounds).idxOf b :=
    fun h => hab ((List.idxOf_inj ha).1 h)
  rw [← totalMeasure_prey hb hab.symm, totalMeasure_get hidx, totalMeasure_get hidx.symm]
  refine congrArg List.sum (List.map_congr_left fun round _ => ?_)
  refine congrArg List.sum (List.map_congr_left fun table _ => ?_)
  rw [tableSum_predator hidx, tableSum_prey hidx.symm]

theorem mem_of_pursuits {rounds : List (Round String)} {a b : String}
    (h : 0 < pursuits rounds a b) : ∃ round ∈ rounds, ∃ table ∈ round,
      (table.length = 4 ∨ table.length = 5) ∧ a ∈ table ∧ b ∈ table := by
  obtain ⟨x, hx, hpos⟩ := List.sum_pos_iff_exists_pos_nat.1 h
  obtain ⟨table, htable, rfl⟩ := List.mem_map.1 hx
  obtain ⟨round, hround, htable⟩ := List.mem_flatten.1 htable
  obtain ⟨hsize, seat, -, ha, hb⟩ := sitsAfter_iff.1 (decide_eq_true hpos)
  exact ⟨round, hround, table, htable, hsize, List.mem_of_getElem? ha, List.mem_of_getElem? hb⟩

theorem ownMeans_ne_nil {rounds : List (Round String)} {a b : String}
    (h : 0 < pursuits rounds a b) :
    ownMeans (totalMeasure (buildMapping rounds) rounds) 0 ≠ [] := by
  obtain ⟨round, hround, table, htable, hsize, ha, -⟩ := mem_of_pursuits h
  have hmem := mem_buildMapping hround (List.mem_flatten.2 ⟨table, htable, ha⟩)
  refine List.ne_nil_of_mem (List.mem_map_of_mem (List.mem_filter.2 ⟨List.mem_range.2 ?_,
    decide_eq_true (totalMeasure_own hround htable hsize ha)⟩))
  rw [totalMeasure_n]
  exact List.idxOf_lt_length_of_mem hmem

theorem reportsR1_iff (rounds : List (Round String)) :
    reportsR1 (computePlayerIssues rounds) = true ↔ RepeatsPursuit rounds := by
  have hnodup := nodup_buildMapping rounds
  have hissues : reportsR1 (computePlayerIssues rounds) = true ↔
      ownMeans (totalMeasure (buildMapping rounds) rounds) 0 ≠ [] ∧
        ∃ ij ∈ pairsBelow (buildMapping rounds).length,
          reportsR1 (pairIssues (totalMeasure (buildMapping rounds) rounds) (buildMapping rounds)
            rounds.length ij) = true := by
    unfold computePlayerIssues
    extract_lets mapping total
    have hown : (List.range mapping.length).any
        (fun i => reportsR1 (ownIssues total mapping i)) = false := by
      simp [reportsR1_ownIssues]
    split
    · rename_i hnone
      exact ⟨fun h => absurd h (by simp [reportsR1]), fun h => absurd hnone h.1⟩
    · rename_i hsome
      rw [reportsR1, List.any_append, List.any_flatMap, List.any_flatMap]
      change ((List.range mapping.length).any (fun i => reportsR1 (ownIssues total mapping i)) ||
        (pairsBelow mapping.length).any fun ij =>
          reportsR1 (pairIssues total mapping rounds.length ij)) = true ↔ _
      rw [hown, Bool.false_or, List.any_eq_true]
      exact ⟨fun h => ⟨hsome, h⟩, fun h => h.2⟩
  rw [hissues]
  constructor
  · rintro ⟨-, ⟨i, j⟩, hpair, hreports⟩
    obtain ⟨hji, hi⟩ := mem_pairsBelow.1 hpair
    have hj : j < (buildMapping rounds).length := hji.trans hi
    have ha := hnodup.idxOf_getElem i hi
    have hb := hnodup.idxOf_getElem j hj
    have hab : (buildMapping rounds)[i] ≠ (buildMapping rounds)[j] := by
      intro h
      rw [h, hb] at ha
      omega
    have hprey := totalMeasure_prey (List.getElem_mem hi) hab
    have hpredator := totalMeasure_predator (List.getElem_mem hi) (List.getElem_mem hj) hab
    rw [ha, hb] at hprey hpredator
    obtain ⟨-, hrepeat⟩ := (reportsR1_pairIssues _ _ _ _).1 hreports
    rcases hrepeat with hrepeat | hrepeat
    · exact ⟨_, _, hab, by rw [hprey] at hrepeat; exact_mod_cast hrepeat⟩
    · exact ⟨_, _, hab.symm, by rw [hpredator] at hrepeat; exact_mod_cast hrepeat⟩
  · rintro ⟨a, b, hab, htwo⟩
    obtain ⟨round, hround, table, htable, -, hta, htb⟩ := mem_of_pursuits (by omega :
      0 < pursuits rounds a b)
    have ha := mem_buildMapping hround (List.mem_flatten.2 ⟨table, htable, hta⟩)
    have hb := mem_buildMapping hround (List.mem_flatten.2 ⟨table, htable, htb⟩)
    have hidx : (buildMapping rounds).idxOf a ≠ (buildMapping rounds).idxOf b :=
      fun h => hab ((List.idxOf_inj ha).1 h)
    have hi := List.idxOf_lt_length_of_mem ha
    have hj := List.idxOf_lt_length_of_mem hb
    refine ⟨ownMeans_ne_nil (by omega : 0 < pursuits rounds a b), ?_⟩
    have htwo' : (1 : ℤ) < pursuits rounds a b := by exact_mod_cast htwo
    rcases Nat.lt_or_gt_of_ne hidx with hlt | hlt
    · rw [← totalMeasure_predator hb ha hab.symm] at htwo'
      refine ⟨(_, _), mem_pairsBelow.2 ⟨hlt, hj⟩, (reportsR1_pairIssues _ _ _ _).2 ⟨?_, .inr htwo'⟩⟩
      exact htwo'.trans_le (prey_le_met hidx.symm (.inr rfl))
    · rw [← totalMeasure_prey ha hab] at htwo'
      refine ⟨(_, _), mem_pairsBelow.2 ⟨hlt, hi⟩, (reportsR1_pairIssues _ _ _ _).2 ⟨?_, .inl htwo'⟩⟩
      exact htwo'.trans_le (prey_le_met hidx (.inl rfl))

theorem repeatsPursuit_iff {rounds : List (Round String)}
    (h : ∀ table ∈ rounds.flatten, table.Nodup) :
    RepeatsPursuit rounds ↔ ∃ a b, 2 ≤ rounds.flatten.countP (sitsAfter a b) := by
  constructor
  · rintro ⟨a, b, -, htwo⟩
    exact ⟨a, b, pursuits_eq_countP h a b ▸ htwo⟩
  · rintro ⟨a, b, htwo⟩
    refine ⟨a, b, ?_, pursuits_eq_countP h a b ▸ htwo⟩
    rintro rfl
    -- Nobody comes after themselves among different players.
    obtain ⟨table, htable, hafter⟩ := List.countP_pos_iff.1 (by omega :
      0 < rounds.flatten.countP (sitsAfter a a))
    obtain ⟨hsize, seat, hseat, ha, ha'⟩ := sitsAfter_iff.1 hafter
    obtain ⟨hlt, hx⟩ := List.getElem?_eq_some_iff.1 ha
    obtain ⟨hlt', hy⟩ := List.getElem?_eq_some_iff.1 ha'
    have hsame := ((h table htable).getElem_inj_iff).1 (hx.trans hy.symm)
    rcases hsize with hsize | hsize
    · rw [hsize] at hsame hseat
      omega
    · rw [hsize] at hsame hseat
      omega

end Archon.Seating

namespace Archon.Engine
open Guards Seating

/-- What `AlterSeating` asks of a new seating of a round before it looks for repeats. -/
structure MayReseat (t : Tournament) (actor : ActorContext) (round : ℕ)
    (seating : List (List Uid)) : Prop where
  organizer : actor.isOrganizer = true
  state : t.state = .playing ∨ t.state = .finished ∨ t.state = .waiting
  once : seating.flatten.Nodup
  tables : ∃ tables, t.rounds[round]? = some tables ∧ tables.length ≤ seating.length
  sizes : ∀ table ∈ seating, table = [] ∨ (4 ≤ table.length ∧ table.length ≤ 5)
  seated : seating.flatten ≠ []
  players : ∀ uid ∈ seating.flatten, playerExists t.players uid = true

section Gate

variable {t : Tournament} {actor : ActorContext} {sanctions : List Sanction}
  {decks : List DeckObject} {round : ℕ} {seating : List (List Uid)}

theorem violatesR1_iff : violatesR1 t round seating = true ↔
    RepeatsPursuit ((collectPreviousRounds t).set round seating) := reportsR1_iff _

theorem alterSeating_refused_iff (hround : isFinalsRound t round = false) :
    alterSeating t actor sanctions decks round seating = .error .seatingViolatesR1 ↔
      MayReseat t actor round seating ∧
        RepeatsPursuit ((collectPreviousRounds t).set round seating) := by
  have hfinal : ∀ tables : List Table, (ensure (violatesR1 t round seating = false)
      EngineError.seatingViolatesR1 >>= fun _ =>
        (pure (updateStandings (alterSeatingDoc t sanctions round tables seating) sanctions,
          reseatDeckOps (alterSeatingDoc t sanctions round tables seating) decks round
            (roundUids tables) seating.flatten) : Outcome)) = .error .seatingViolatesR1 ↔
      RepeatsPursuit ((collectPreviousRounds t).set round seating) := by
    intro tables
    rw [ensure_bind_eq_error_self (by simp [pure, Except.pure]), ← violatesR1_iff,
      Bool.not_eq_false]
  have hsizes : (forM seating fun table =>
      ensure (table = [] ∨ (4 ≤ table.length ∧ table.length ≤ 5))
        (EngineError.invalidTableSize table.length)) ≠ .error .seatingViolatesR1 := by
    exact forM_ne_error fun table _ => ensure_ne_error (by simp)
  simp only [alterSeating, requireOrganizer, hround, Bool.false_eq_true, if_false,
    ensure_bind_eq_error_of_ne, ne_eq, reduceCtorEq, not_false_eq_true]
  have hround' : EngineError.invalidRound ≠ .seatingViolatesR1 := by simp
  simp only [bind_eq_error_of_ne (okOr_ne_error hround'), okOr_eq_ok, ensure_bind_eq_error_of_ne,
    ne_eq, reduceCtorEq, not_false_eq_true,
    bind_eq_error_of_ne hsizes, hfinal]
  constructor
  · rintro ⟨horganizer, hstate, honce, tables, htables, hcount, x, hforM, hseated, hplayers,
      hrepeats⟩
    refine ⟨⟨horganizer, hstate, honce, ⟨tables, htables, hcount⟩, fun table htable => ?_, hseated,
      hplayers⟩, hrepeats⟩
    simpa using forM_eq_ok.1 hforM table htable
  · rintro ⟨⟨horganizer, hstate, honce, ⟨tables, htables, hcount⟩, hsizes, hseated, hplayers⟩,
      hrepeats⟩
    refine ⟨horganizer, hstate, honce, tables, htables, hcount, ⟨⟩, ?_, hseated, hplayers, hrepeats⟩
    exact forM_eq_ok.2 fun table htable => by simpa using hsizes table htable

theorem alterSeating_accepted_iff (hround : isFinalsRound t round = false) :
    (∃ r, alterSeating t actor sanctions decks round seating = .ok r) ↔
      MayReseat t actor round seating ∧
        ¬RepeatsPursuit ((collectPreviousRounds t).set round seating) := by
  simp only [alterSeating, requireOrganizer, hround, Bool.false_eq_true, if_false, bind_eq_ok,
    ensure_eq_ok, exists_const, okOr_eq_ok, pure_eq_ok, ← violatesR1_iff, Bool.not_eq_true]
  constructor
  · rintro ⟨r, horganizer, hstate, honce, tables, htables, hcount, x, hforM, hseated, hplayers,
      hexact, -⟩
    refine ⟨⟨horganizer, hstate, honce, ⟨tables, htables, hcount⟩, fun table htable => ?_, hseated,
      hplayers⟩, hexact⟩
    simpa using forM_eq_ok.1 hforM table htable
  · rintro ⟨⟨horganizer, hstate, honce, ⟨tables, htables, hcount⟩, hsizes, hseated, hplayers⟩,
      hexact⟩
    refine ⟨_, horganizer, hstate, honce, tables, htables, hcount, ⟨⟩, ?_, hseated, hplayers,
      hexact, rfl⟩
    exact forM_eq_ok.2 fun table htable => by simpa using hsizes table htable

end Gate

/-- The first rule is reported exactly when somebody comes right after another player at two
seats of tables of four or five; among different players, at two tables. `AlterSeating` refuses a
new seating of a round for it exactly when it may be made and repeats, and makes it exactly when
it may be made and does not. -/
theorem predation_exact :
    (∀ rounds, reportsR1 (computePlayerIssues rounds) = true ↔ RepeatsPursuit rounds) ∧
    (∀ rounds : List (Round String), (∀ table ∈ rounds.flatten, table.Nodup) →
      (reportsR1 (computePlayerIssues rounds) = true ↔
        ∃ a b, 2 ≤ rounds.flatten.countP (sitsAfter a b))) ∧
    ∀ (t : Tournament) (actor : ActorContext) (sanctions : List Sanction)
      (decks : List DeckObject) (round : ℕ) (seating : List (List Uid)),
      isFinalsRound t round = false →
      (alterSeating t actor sanctions decks round seating = .error .seatingViolatesR1 ↔
        MayReseat t actor round seating ∧
          RepeatsPursuit ((collectPreviousRounds t).set round seating)) ∧
      ((∃ r, alterSeating t actor sanctions decks round seating = .ok r) ↔
        MayReseat t actor round seating ∧
          ¬RepeatsPursuit ((collectPreviousRounds t).set round seating)) :=
  ⟨reportsR1_iff, fun rounds h => (reportsR1_iff rounds).trans (repeatsPursuit_iff h),
    fun _ _ _ _ _ _ hround =>
      ⟨alterSeating_refused_iff hround, alterSeating_accepted_iff hround⟩⟩

theorem predation_exact_twice :
    reportsR1 (computePlayerIssues [[["a", "b", "c", "d"]], [["e", "a", "b", "c", "f"]]]) = true :=
  (predation_exact.2.1 _ (by decide)).2 ⟨"a", "b", by decide⟩

/-- One table that seats two players twice is reported; a player seated twice at two tables, each
time after themself, is not. -/
theorem not_predation_exact :
    (reportsR1 (computePlayerIssues [[["a", "b", "a", "b"]]]) = true ∧
      ¬∃ a b, 2 ≤ [["a", "b", "a", "b"]].countP (sitsAfter a b)) ∧
    reportsR1 (computePlayerIssues [[["a", "a", "b", "c"], ["a", "a", "d", "e"]]]) = false ∧
      2 ≤ [["a", "a", "b", "c"], ["a", "a", "d", "e"]].countP (sitsAfter "a" "a") := by
  refine ⟨⟨by decide +kernel, ?_⟩, by decide +kernel, by decide⟩
  rintro ⟨a, b, htwo⟩
  exact absurd (htwo.trans List.countP_le_length) (by decide)

end Archon.Engine

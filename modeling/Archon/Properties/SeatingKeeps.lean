import Archon.Properties.FinalsWin

/-!
# Results under a new seating

`AlterSeating` rebuilds the tables of a round player by player, and a player kept at a table
keeps the points. In the finals it writes the players over the seats and leaves the points where
they are: a finalist who moves gets those of the seat.
-/

namespace Archon.Engine
open Guards Nested Seating

/-! ### Points by table -/

/-- The players at a table of a round with their points; the finals are one table. -/
def tablePoints (t : Tournament) (round table : ℕ) : List (Uid × ℚ) :=
  if isFinalsRound t round = true then
    if table = 0 then (t.finals.elim [] FinalsTable.seating).map fun s => (s.playerUid, s.result.vp)
    else []
  else ((((t.rounds[round]?).getD [])[table]?).map Table.points).getD []

/-- All of a round. -/
def roundPoints (t : Tournament) (round : ℕ) : List (Uid × ℚ) :=
  if isFinalsRound t round = true then
    (t.finals.elim [] FinalsTable.seating).map fun s => (s.playerUid, s.result.vp)
  else ((t.rounds[round]?).getD []).flatMap Table.points

/-- Who stays at a table shows the points they had there, and everybody else has none. -/
def KeepsPoints (t t' : Tournament) (round : ℕ) (seating : List (List Uid)) : Prop :=
  ∀ k uids, seating[k]? = some uids → ∀ uid ∈ uids, ∀ vp', (uid, vp') ∈ roundPoints t' round →
    (∀ vp, (uid, vp) ∈ tablePoints t round k → vp' = vp) ∧
      ((∀ vp, (uid, vp) ∉ tablePoints t round k) → vp' = 0)

/-- In the finals nobody is moved to a seat with other points. In a round nobody stays at a table
and had other points there than at their last seat of the round, or points where that seat is at
another table. -/
def PointsStay (t : Tournament) (round : ℕ) (seating : List (List Uid)) : Prop :=
  if isFinalsRound t round = true then
    ∀ (i : ℕ) (uid : Uid) (s : Seat), seating.flatten[i]? = some uid →
      (t.finals.elim [] FinalsTable.seating)[i]? = some s →
        ∀ vp, (uid, vp) ∈ tablePoints t round 0 → s.result.vp = vp
  else
    ∀ k uids, seating[k]? = some uids → ∀ uid ∈ uids, ∀ vp, (uid, vp) ∈ tablePoints t round k →
      ∀ last s, oldSeat ((t.rounds[round]?).getD []) uid = some (last, s) →
        vp = if last = k then s.result.vp else 0

section Keeps

variable {t t' : Tournament} {s : List Sanction} {round : ℕ}

theorem refreshSeats_points (seating : List Seat) (gws tps : List ℚ) :
    (refreshSeats seating gws tps).map (fun s => (s.playerUid, s.result.vp)) =
      seating.map fun s => (s.playerUid, s.result.vp) := by
  have hzip : ∀ n, (seating.zipIdx n).map (fun si => (si.1.playerUid, si.1.result.vp)) =
      seating.map fun s => (s.playerUid, s.result.vp) := by
    intro n
    conv_rhs => rw [← List.zipIdx_map_fst n seating, List.map_map]
    rfl
  rw [refreshSeats, List.map_map]
  exact hzip 0

theorem updateStandings_finals_points :
    ((updateStandings t s).finals.elim [] FinalsTable.seating).map
        (fun s => (s.playerUid, s.result.vp)) =
      (t.finals.elim [] FinalsTable.seating).map fun s => (s.playerUid, s.result.vp) := by
  cases hf : t.finals with
  | none => rw [(updateStandings_finals_eq_none t s).2 hf]
  | some f =>
    by_cases hkept : t.rounds = [] ∨ f.state ≠ .finished
    · rw [(updateStandings_finals_kept hf hkept).1]
    · simp only [not_or, not_not] at hkept
      obtain ⟨u, hfinals, -⟩ := updateStandings_finals_rescored (s := s) hkept.1 hf hkept.2
      rw [hfinals]
      exact refreshSeats_points _ _ _

theorem isFinalsRound_updateStandings :
    isFinalsRound (updateStandings t s) round = isFinalsRound t round := by
  rw [isFinalsRound, isFinalsRound, updateStandings_length, updateStandings_finals_isSome]

theorem roundPoints_updateStandings :
    roundPoints (updateStandings t s) round = roundPoints t round := by
  unfold roundPoints
  rw [isFinalsRound_updateStandings, updateStandings_finals_points, updateStandings_getElem?]
  split
  · rfl
  · cases t.rounds[round]? with
    | none => rfl
    | some tables =>
      simp only [Option.map_some, Option.getD_some, List.flatMap_map, refreshTable_points]

theorem mem_points_reseatRound {tables : List Table} {seating : List (List Uid)} {uid : Uid}
    {vp : ℚ} : (uid, vp) ∈ (reseatRound tables seating).flatMap Table.points ↔
      ∃ k uids, seating[k]? = some uids ∧ uid ∈ uids ∧
        vp = (keptSeat tables k uid).result.vp := by
  have hpoints : ∀ k uids, (reseatTable tables k uids).points =
      uids.map fun uid => (uid, (keptSeat tables k uid).result.vp) := by
    intro k uids
    rw [reseatTable, Table.points, List.map_map]
    refine List.map_congr_left fun uid _ => ?_
    rw [Function.comp_apply, keptSeat_playerUid]
  simp only [reseatRound, List.mem_flatMap, List.mem_filter, List.mem_map]
  constructor
  · rintro ⟨tb, ⟨⟨⟨uids, k⟩, huk, rfl⟩, -⟩, hvp⟩
    rw [hpoints] at hvp
    obtain ⟨u, hu, heq⟩ := List.mem_map.1 hvp
    obtain ⟨rfl, rfl⟩ := Prod.mk.inj heq
    exact ⟨k, uids, List.mk_mem_zipIdx_iff_getElem?.1 huk, hu, rfl⟩
  · rintro ⟨k, uids, huk, hu, rfl⟩
    have hmem : (uid, (keptSeat tables k uid).result.vp) ∈ (reseatTable tables k uids).points := by
      rw [hpoints]
      exact List.mem_map_of_mem hu
    refine ⟨_, ⟨⟨(uids, k), List.mk_mem_zipIdx_iff_getElem?.2 huk, rfl⟩, ?_⟩, hmem⟩
    cases hs : (reseatTable tables k uids).seating with
    | nil => simp [Table.points, hs] at hmem
    | cons => rfl

theorem oldSeat_mem {tables : List Table} {uid : Uid} {k : ℕ} {s : Seat}
    (h : oldSeat tables uid = some (k, s)) :
    ∃ tb, tables[k]? = some tb ∧ (uid, s.result.vp) ∈ tb.points := by
  have hmem := List.mem_of_find?_eq_some h
  have huid : s.playerUid = uid := by simpa using List.find?_some h
  rw [List.mem_reverse, indexedSeats, List.mem_flatMap] at hmem
  obtain ⟨⟨tb, i⟩, htb, hs⟩ := hmem
  obtain ⟨s', hs', heq⟩ := List.mem_map.1 hs
  obtain ⟨rfl, rfl⟩ := Prod.mk.inj heq
  exact ⟨tb, List.mk_mem_zipIdx_iff_getElem?.1 htb, List.mem_map.2 ⟨s', hs', by rw [huid]⟩⟩

theorem oldSeat_isSome {tables : List Table} {uid : Uid} {k : ℕ} {tb : Table} {vp : ℚ}
    (htb : tables[k]? = some tb) (h : (uid, vp) ∈ tb.points) :
    ∃ last s, oldSeat tables uid = some (last, s) := by
  obtain ⟨s, hs, heq⟩ := List.mem_map.1 h
  obtain ⟨rfl, rfl⟩ := Prod.mk.inj heq
  have hmem : (k, s) ∈ indexedSeats tables :=
    List.mem_flatMap.2 ⟨(tb, k), List.mk_mem_zipIdx_iff_getElem?.2 htb, List.mem_map_of_mem hs⟩
  have hfound : (oldSeat tables s.playerUid).isSome = true :=
    List.find?_isSome.2 ⟨(k, s), List.mem_reverse.2 hmem, by simp⟩
  obtain ⟨⟨last, s'⟩, hlast⟩ := Option.isSome_iff_exists.1 hfound
  exact ⟨last, s', hlast⟩

theorem table_unique {seating : List (List Uid)} (hnodup : seating.flatten.Nodup) {k l : ℕ}
    {us vs : List Uid} {uid : Uid} (hk : seating[k]? = some us) (hl : seating[l]? = some vs)
    (hu : uid ∈ us) (hv : uid ∈ vs) : k = l := by
  obtain ⟨hklt, rfl⟩ := List.getElem?_eq_some_iff.1 hk
  obtain ⟨hllt, rfl⟩ := List.getElem?_eq_some_iff.1 hl
  have hdisj := List.pairwise_iff_getElem.1 (List.nodup_flatten.1 hnodup).2
  rcases Nat.lt_trichotomy k l with hlt | rfl | hlt
  · exact absurd hv (hdisj k l hklt hllt hlt hu)
  · rfl
  · exact absurd hu (hdisj l k hllt hklt hlt hv)

theorem keepsPoints_reseatRound {tables : List Table} {seating : List (List Uid)}
    (hround : isFinalsRound t round = false)
    (htables : t.rounds[round]? = some tables) (hnodup : seating.flatten.Nodup)
    (hpoints : roundPoints t' round = (reseatRound tables seating).flatMap Table.points) :
    KeepsPoints t t' round seating ↔ PointsStay t round seating := by
  have htable : ∀ k uid vp, (uid, vp) ∈ tablePoints t round k ↔
      ∃ tb, tables[k]? = some tb ∧ (uid, vp) ∈ tb.points := by
    intro k uid vp
    rw [tablePoints, if_neg (by simp [hround]), htables, Option.getD_some]
    cases tables[k]? <;> simp
  -- The points a player of the payload comes out with.
  have hafter : ∀ k uids, seating[k]? = some uids → ∀ uid ∈ uids, ∀ vp,
      (uid, vp) ∈ roundPoints t' round ↔ vp = (keptSeat tables k uid).result.vp := by
    intro k uids hk uid hu vp
    rw [hpoints, mem_points_reseatRound]
    constructor
    · rintro ⟨l, vs, hl, hv, rfl⟩
      rw [table_unique hnodup hk hl hu hv]
    · exact fun h => ⟨k, uids, hk, hu, h⟩
  unfold KeepsPoints PointsStay
  rw [if_neg (by simp [hround]), htables, Option.getD_some]
  constructor
  · intro h k uids hk uid hu vp hvp last s hlast
    have hkept := (h k uids hk uid hu _ ((hafter k uids hk uid hu _).2 rfl)).1 vp hvp
    rw [← hkept, keptSeat, hlast]
    dsimp only
    split <;> rfl
  · intro h k uids hk uid hu vp' hvp'
    rw [(hafter k uids hk uid hu vp').1 hvp']
    constructor
    · intro vp hvp
      obtain ⟨tb, htb, hmem⟩ := (htable k uid vp).1 hvp
      obtain ⟨last, s, hlast⟩ := oldSeat_isSome htb hmem
      rw [h k uids hk uid hu vp hvp last s hlast, keptSeat, hlast]
      dsimp only
      split <;> rfl
    · intro hnone
      unfold keptSeat
      split
      · rename_i last s hlast
        split
        · rename_i hk'
          obtain ⟨tb, htb, hmem⟩ := oldSeat_mem hlast
          exact absurd ((htable k uid _).2 ⟨tb, hk' ▸ htb, hmem⟩) (hnone _)
        · rfl
      · rfl

theorem mem_points_reseatFinals {f : FinalsTable} {uids : List Uid} {uid : Uid} {vp : ℚ} :
    (uid, vp) ∈ (reseatFinals f uids).seating.map (fun s => (s.playerUid, s.result.vp)) ↔
      ∃ (i : ℕ) (s : Seat), uids[i]? = some uid ∧ f.seating[i]? = some s ∧ vp = s.result.vp := by
  rw [seating_reseatFinals, List.map_map, List.mem_map]
  constructor
  · rintro ⟨⟨s, u⟩, hmem, heq⟩
    obtain ⟨rfl, rfl⟩ := Prod.mk.inj heq
    obtain ⟨i, hi⟩ := List.mem_iff_getElem?.1 hmem
    obtain ⟨hs, hu⟩ := List.getElem?_zip_eq_some.1 hi
    exact ⟨i, s, hu, hs, rfl⟩
  · rintro ⟨i, s, hu, hs, rfl⟩
    exact ⟨(s, uid), List.mem_iff_getElem?.2 ⟨i, List.getElem?_zip_eq_some.2 ⟨hs, hu⟩⟩, rfl⟩

theorem keepsPoints_reseatFinals {f : FinalsTable} {seating : List (List Uid)}
    (hround : isFinalsRound t round = true) (hf : t.finals = some f)
    (hone : seating.length = 1) (hlen : seating.flatten.length = f.seating.length)
    (hmem : ∀ uid ∈ seating.flatten, uid ∈ f.seating.map Seat.playerUid)
    (hpoints : roundPoints t' round = (reseatFinals f seating.flatten).seating.map
      fun s => (s.playerUid, s.result.vp)) :
    KeepsPoints t t' round seating ↔ PointsStay t round seating := by
  obtain ⟨uids, rfl⟩ := List.length_eq_one_iff.1 hone
  have hflat : [uids].flatten = uids := by simp
  rw [hflat] at hlen hmem hpoints
  have htable : tablePoints t round 0 = f.seating.map fun s => (s.playerUid, s.result.vp) := by
    rw [tablePoints, if_pos hround, if_pos rfl, hf]
    rfl
  unfold KeepsPoints PointsStay
  rw [if_pos hround, hpoints, hf, hflat]
  constructor
  · intro h i uid s hu hs vp hvp
    exact (h 0 uids rfl uid (List.mem_of_getElem? hu) _
      (mem_points_reseatFinals.2 ⟨i, s, hu, hs, rfl⟩)).1 vp hvp
  · intro h k us hk uid hu vp' hvp'
    obtain ⟨hklt, hus⟩ := List.getElem?_eq_some_iff.1 hk
    obtain rfl : k = 0 := by simpa using hklt
    obtain rfl : uids = us := by simpa using hus
    obtain ⟨i, s, hi, hs, rfl⟩ := mem_points_reseatFinals.1 hvp'
    refine ⟨fun vp hvp => h i uid s hi hs vp hvp, fun hnone => ?_⟩
    obtain ⟨s', hs', rfl⟩ := List.mem_map.1 (hmem uid hu)
    rw [htable] at hnone
    exact absurd (List.mem_map_of_mem hs') (hnone s'.result.vp)

theorem pointsStay_of_nodup {tables : List Table} (hround : isFinalsRound t round = false)
    (htables : t.rounds[round]? = some tables) (hnodup : (roundUids tables).Nodup)
    (seating : List (List Uid)) : PointsStay t round seating := by
  have hflat : (tables.map Table.uids).flatten.Nodup := by
    rwa [roundUids, List.flatMap_def] at hnodup
  have huids : ∀ (k : ℕ) (tb : Table), tables[k]? = some tb →
      (tables.map Table.uids)[k]? = some tb.uids := by
    intro k tb htb
    rw [List.getElem?_map, htb]
    rfl
  unfold PointsStay
  rw [if_neg (by simp [hround]), htables, Option.getD_some]
  intro k uids _ uid _ vp hvp last s hlast
  rw [tablePoints, if_neg (by simp [hround]), htables, Option.getD_some] at hvp
  obtain ⟨tb, htb, hmem⟩ : ∃ tb, tables[k]? = some tb ∧ (uid, vp) ∈ tb.points := by
    cases htb : tables[k]? with
    | none => simp [htb] at hvp
    | some tb => exact ⟨tb, rfl, by simpa [htb] using hvp⟩
  obtain ⟨tb', htb', hmem'⟩ := oldSeat_mem hlast
  have hat : ∀ {tb : Table} {vp : ℚ}, (uid, vp) ∈ tb.points → uid ∈ tb.uids := by
    intro tb vp h
    rw [← points_uids]
    exact List.mem_map_of_mem h
  obtain rfl : last = k :=
    table_unique hflat (huids last tb' htb') (huids k tb htb) (hat hmem') (hat hmem)
  obtain rfl : tb' = tb := Option.some.inj (htb'.symm.trans htb)
  have htable : (tb'.points.map Prod.fst).Nodup := by
    rw [points_uids]
    exact (List.nodup_flatten.1 hflat).1 _ (List.mem_of_getElem? (huids last tb' htb'))
  rw [if_pos rfl]
  exact congrArg Prod.snd (List.inj_on_of_nodup_map htable hmem hmem' rfl)

/-- After an accepted `AlterSeating` the round seats the payload, and whoever stayed at a table
shows the points they had there and everybody else none, just when the points stay. -/
theorem alterSeating_keepsPoints_iff {actor : ActorContext} {decks : List DeckObject}
    {seating : List (List Uid)} {ops : List DeckOp}
    (h : alterSeating t actor s decks round seating = .ok (t', ops)) :
    (roundPoints t' round).map Prod.fst = seating.flatten ∧
      (KeepsPoints t t' round seating ↔ PointsStay t round seating) := by
  unfold alterSeating at h
  simp only [bind_eq_ok, ensure_eq_ok, exists_const] at h
  obtain ⟨-, -, -, hnodup, h⟩ := h
  by_cases hround : isFinalsRound t round = true
  · rw [if_pos hround] at h
    simp only [bind_eq_ok, ensure_eq_ok, exists_const, pure_eq_ok, Prod.mk.injEq] at h
    obtain ⟨hone, hlen, ⟨-, hmem⟩, rfl, -⟩ := h
    obtain ⟨hlast, f, hf⟩ := isFinalsRound_iff.1 hround
    simp only [hf, Option.elim_some, List.length_map, Option.map_some] at hlen hmem ⊢
    have hround' : isFinalsRound { t with finals := some (reseatFinals f seating.flatten) } round =
        true := isFinalsRound_iff.2 ⟨hlast, _, rfl⟩
    have hpoints : roundPoints (updateStandings
        { t with finals := some (reseatFinals f seating.flatten) } s) round =
        (reseatFinals f seating.flatten).seating.map fun s => (s.playerUid, s.result.vp) := by
      rw [roundPoints_updateStandings, roundPoints, if_pos hround']
      rfl
    refine ⟨?_, keepsPoints_reseatFinals hround hf hone hlen hmem hpoints⟩
    rw [hpoints, List.map_map]
    exact reseatFinals_uids hlen
  · rw [if_neg hround] at h
    simp only [bind_eq_ok, okOr_eq_ok, ensure_eq_ok, exists_const, pure_eq_ok,
      Prod.mk.injEq] at h
    obtain ⟨tables, htables, -, x, -, -, -, -, rfl, -⟩ := h
    have hlt : round < t.rounds.length := (List.getElem?_eq_some_iff.1 htables).1
    have hpoints : roundPoints (updateStandings (alterSeatingDoc t s round tables seating) s)
        round = (reseatRound tables seating).flatMap Table.points := by
      have hdoc : isFinalsRound (alterSeatingDoc t s round tables seating) round = false := by
        rw [isFinalsRound, rounds_alterSeatingDoc, List.length_set]
        have hne : ¬round = t.rounds.length := by omega
        simp [hne]
      rw [roundPoints_updateStandings, roundPoints, if_neg (by simp [hdoc]),
        rounds_alterSeatingDoc, List.getElem?_set_self hlt]
      rfl
    refine ⟨?_, keepsPoints_reseatRound (by simpa using hround) htables hnodup hpoints⟩
    rw [hpoints, List.map_flatMap]
    simp only [points_uids]
    exact roundUids_reseatRound tables seating

end Keeps

/-- A scored round of five, the seats of which are then exchanged. -/
def scoredRound : List TournamentEvent :=
  gathering ["a", "b", "c", "d", "e"] ++
    [.startRound (some [["a", "b", "c", "d", "e"]]), .setScore 0 0 [⟨"a", 2⟩, ⟨"c", 3⟩]]

theorem scoredRound_keepsPoints :
    ∃ t t' ops, (engineSystem fixedOrder).Reachable t ∧
      alterSeating t organizer [] [] 0 [["c", "b", "a", "e", "d"]] = .ok (t', ops) ∧
        KeepsPoints t t' 0 [["c", "b", "a", "e", "d"]] := by
  obtain ⟨t, ht, hp⟩ := exists_reaches_of_replay anyEvent (scoredRound.map sent)
    (fun t => !isFinalsRound t 0 && decide ((roundUids ((t.rounds[0]?).getD [])).Nodup) &&
      (t.rounds[0]?).isSome &&
      (alterSeating t organizer [] [] 0 [["c", "b", "a", "e", "d"]]).toOption.isSome)
    (by decide +kernel)
  simp only [Bool.and_eq_true, Bool.not_eq_true', decide_eq_true_eq] at hp
  obtain ⟨⟨⟨hround, hnodup⟩, hsome⟩, hok⟩ := hp
  obtain ⟨tables, htables⟩ := Option.isSome_iff_exists.1 hsome
  rw [htables, Option.getD_some] at hnodup
  cases halter : alterSeating t organizer [] [] 0 [["c", "b", "a", "e", "d"]] with
  | error e =>
    rw [halter] at hok
    cases hok
  | ok out =>
    exact ⟨t, out.1, out.2, ht, halter, (alterSeating_keepsPoints_iff halter).2.2
      (pointsStay_of_nodup hround htables hnodup _)⟩

/-! ### The defect -/

/-- The finals are scored, then the winner's seat is corrected. -/
def scoredFinals : List TournamentEvent :=
  intoFinals ++ [.setScore 2 0 [⟨"a", 0⟩, ⟨"b", 0⟩, ⟨"c", 5⟩, ⟨"d", 0⟩, ⟨"e", 0⟩]]

/-- The five points of the winner go to the player who takes the seat. -/
theorem scoredFinals_not_keepsPoints :
    ∃ t t', (engineSystem fixedOrder).Reachable t ∧
      acceptEvent fixedOrder t (sent (.alterSeating 2 [["a", "c", "b", "d", "e"]])) = .ok t' ∧
        ¬KeepsPoints t t' 2 [["a", "c", "b", "d", "e"]] := by
  obtain ⟨t, ht, hp⟩ := exists_reaches_of_replay anyEvent (scoredFinals.map sent)
    (fun t => decide (("c", 5) ∈ tablePoints t 2 0) &&
      leadsTo t (sent (.alterSeating 2 [["a", "c", "b", "d", "e"]])) fun t' =>
        decide (("c", 0) ∈ roundPoints t' 2)) (by decide +kernel)
  rw [Bool.and_eq_true, decide_eq_true_eq] at hp
  obtain ⟨hbefore, hp⟩ := hp
  obtain ⟨t', h, hafter⟩ := exists_of_leadsTo hp
  refine ⟨t, t', ht, h, fun hkeeps => ?_⟩
  have hsame := (hkeeps 0 _ rfl "c" (by decide) 0 (of_decide_eq_true hafter)).1 5 hbefore
  exact absurd hsame (by decide)

end Archon.Engine

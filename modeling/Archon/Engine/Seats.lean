import Mathlib.Data.List.Flatten
import Archon.Engine.Effects

/-!
# The seats under the handlers

Who sits in each round, and who sits at a live table, after each rewriting of the rounds.
-/

namespace Archon.Engine
open Guards Nested Seating

/-! ### Uids round by round -/

/-- The uids of every round. -/
def roundsUids (rounds : List (List Table)) : List (List Uid) := rounds.map roundUids

theorem roundUids_eq_faces (round : List Table) :
    roundUids round = (round.map Table.face).flatMap Face.uids := by
  rw [roundUids, List.flatMap_map]
  rfl

theorem roundUids_map_of_uids {f : Table → Table} (hf : ∀ tb, (f tb).uids = tb.uids)
    (round : List Table) : roundUids (round.map f) = roundUids round := by
  simp only [roundUids, List.flatMap_map, hf]

@[simp] theorem roundsUids_updateStandings (t : Tournament) (s : List Sanction) :
    roundsUids (updateStandings t s).rounds = roundsUids t.rounds := by
  have h : ∀ rounds : List (List Table),
      roundsUids rounds = (boardOf rounds).map fun round => round.flatMap Face.uids := by
    intro rounds
    simp only [roundsUids, boardOf, List.map_map]
    exact List.map_congr_left fun round _ => roundUids_eq_faces round
  rw [h, h, boardOf_updateStandings]

theorem roundsUids_append (a b : List (List Table)) :
    roundsUids (a ++ b) = roundsUids a ++ roundsUids b := List.map_append

theorem roundUids_fresh (organizer : Option Uid) (seating : List (List Uid)) :
    roundUids (seating.map (Table.fresh organizer)) = seating.flatten := by
  have h : ∀ uids, (Table.fresh organizer uids).uids = uids := by
    intro uids
    simp [Table.fresh, Table.uids, Seat.fresh, Function.comp_def]
  rw [roundUids, List.flatMap_map]
  simp only [h, List.flatMap_id']

theorem roundsUids_modify {f : List Table → List Table}
    (hf : ∀ round, roundUids (f round) = roundUids round) (rounds : List (List Table)) (r : ℕ) :
    roundsUids (rounds.modify r f) = roundsUids rounds := by
  apply List.ext_getElem?
  intro k
  simp only [roundsUids, List.getElem?_map, List.getElem?_modify]
  by_cases hk : r = k
  · subst hk
    cases rounds[r]? <;> simp [hf]
  · simp [hk]

theorem roundUids_cancelTables (round : List Table) :
    roundUids (cancelTables round) = roundUids round := by
  rw [cancelTables, roundUids_map_of_uids]
  exact fun _ => rfl

theorem roundUids_restoreTables (round : List Table) :
    roundUids (restoreTables round) = roundUids round := by
  rw [restoreTables, roundUids_map_of_uids]
  exact fun _ => rfl

theorem removeLastRound_prefixOf (rounds : List (List Table)) :
    removeLastRound rounds <+: rounds :=
  List.IsPrefix.trans ( List.rdropWhile_prefix _ _) ( List.dropLast_prefix rounds)

theorem roundsUids_cancelledRounds (rounds : List (List Table)) (target : ℕ) :
    roundsUids (cancelledRounds rounds target) <+: roundsUids rounds := by
  unfold cancelledRounds
  split
  · exact (removeLastRound_prefixOf rounds).map roundUids
  · have hsame := roundsUids_modify roundUids_cancelTables rounds target
    exact ⟨[], by rw [List.append_nil, hsame]⟩

theorem roundsUids_set_restored {rounds : List (List Table)} {target : ℕ} {tables : List Table}
    (h : rounds[target]? = some tables) :
    roundsUids (rounds.set target (restoreTables tables)) = roundsUids rounds := by
  apply List.ext_getElem?
  intro k
  simp only [roundsUids, List.getElem?_map, List.getElem?_set]
  by_cases hk : target = k
  · subst hk
    obtain ⟨hlt, rfl⟩ := List.getElem?_eq_some_iff.1 h
    simp [hlt, roundUids_restoreTables]
  · simp [hk]

theorem mem_roundsUids_set {rounds : List (List Table)} {r : ℕ} {round : List Table}
    {uids : List Uid} (h : uids ∈ roundsUids (rounds.set r round)) :
    uids ∈ roundsUids rounds ∨ uids = roundUids round := by
  obtain ⟨x, hx, rfl⟩ := List.mem_map.1 h
  rcases List.mem_or_eq_of_mem_set hx with hmem | rfl
  · exact .inl (List.mem_map_of_mem hmem)
  · exact .inr rfl

theorem mem_roundsUids_modify {rounds : List (List Table)} {r : ℕ} {f : List Table → List Table}
    {uids : List Uid} (h : uids ∈ roundsUids (rounds.modify r f)) :
    uids ∈ roundsUids rounds ∨ ∃ round, rounds[r]? = some round ∧ uids = roundUids (f round) := by
  obtain ⟨x, hx, rfl⟩ := List.mem_map.1 h
  rcases mem_of_mem_modify hx with hmem | ⟨round, hround, rfl⟩
  · exact .inl (List.mem_map_of_mem hmem)
  · exact .inr ⟨round, hround, rfl⟩

/-! ### One round -/

theorem roundUids_eq_map_flatten (round : List Table) :
    roundUids round = ((round.map Table.seating).map (List.map Seat.playerUid)).flatten := by
  rw [roundUids, List.flatMap_def, List.map_map]
  rfl

theorem map_playerUid_swapPlayers (seatings : List (List Seat)) (a b c d : ℕ) :
    (swapPlayers seatings a b c d).map (List.map Seat.playerUid) =
      swapAt (seatings.map (List.map Seat.playerUid)) a b c d := by
  unfold swapPlayers swapAt
  rw [getAt_map, getAt_map]
  cases getAt seatings a b with
  | none => rfl
  | some s =>
    cases getAt seatings c d with
    | none => rfl
    | some s' =>
      simp only [Option.map_some]
      rw [map_modifyAt Seat.playerUid _ c d (Seat.withUid s.playerUid) (fun _ => s.playerUid)
          fun _ => rfl,
        map_modifyAt Seat.playerUid _ a b (Seat.withUid s'.playerUid) (fun _ => s'.playerUid)
          fun _ => rfl]

theorem length_swapPlayers (seatings : List (List Seat)) (a b c d : ℕ) :
    (swapPlayers seatings a b c d).length = seatings.length := by
  unfold swapPlayers
  split <;> simp [modifyAt]

theorem map_seating_withSeatings {round : List Table} {seatings : List (List Seat)}
    (h : seatings.length = round.length) :
    (withSeatings round seatings).map Table.seating = seatings := by
  induction round generalizing seatings with
  | nil => simp_all [withSeatings]
  | cons tb round ih =>
    cases seatings with
    | nil => simp at h
    | cons seating seatings => simpa [withSeatings] using ih (by simpa using h)

theorem mem_withSeatings {round : List Table} {seatings : List (List Seat)} {tb : Table}
    (h : tb ∈ withSeatings round seatings) :
    ∃ tb' ∈ round, ∃ seating, tb = { tb' with seating := seating } := by
  obtain ⟨k, hk⟩ := List.mem_iff_getElem?.1 h
  rw [withSeatings, List.getElem?_zipWith] at hk
  split at hk
  · rename_i tb' seating htb' _
    exact ⟨tb', List.mem_of_getElem? htb', seating, (Option.some.inj hk).symm⟩
  · cases hk

theorem roundUids_swapRound_perm (round : List Table) (a b c d : ℕ) :
    (roundUids (swapRound round a b c d)).Perm (roundUids round) := by
  have hlen : (swapPlayers (round.map Table.seating) a b c d).length = round.length := by
    rw [length_swapPlayers, List.length_map]
  rw [roundUids_eq_map_flatten, roundUids_eq_map_flatten, swapRound,
    map_seating_withSeatings hlen, map_playerUid_swapPlayers]
  exact swapAt_perm _ a b c d

theorem keptSeat_playerUid (round : List Table) (table : ℕ) (uid : Uid) :
    (keptSeat round table uid).playerUid = uid := by
  unfold keptSeat
  split
  · rename_i oldTable s h
    split
    · simpa using List.find?_some h
    · rfl
  · rfl

@[simp] theorem reseatTable_uids (round : List Table) (table : ℕ) (uids : List Uid) :
    (reseatTable round table uids).uids = uids := by
  simp [reseatTable, Table.uids, Function.comp_def, keptSeat_playerUid]

theorem flatMap_uids_filter_nonempty (round : List Table) :
    (round.filter fun tb => !tb.seating.isEmpty).flatMap Table.uids = roundUids round := by
  induction round with
  | nil => rfl
  | cons tb round ih =>
    simp only [roundUids, List.flatMap_cons] at ih ⊢
    rw [List.filter_cons]
    split
    · rw [List.flatMap_cons, ih]
    · rename_i h
      have hempty : tb.seating = [] := by simpa using h
      rw [ih, Table.uids, hempty]
      rfl

theorem roundUids_reseatRound (round : List Table) (seating : List (List Uid)) :
    roundUids (reseatRound round seating) = seating.flatten := by
  rw [reseatRound, roundUids, flatMap_uids_filter_nonempty, roundUids, List.flatMap_map]
  simp only [reseatTable_uids]
  rw [List.flatMap_def, List.zipIdx_map_fst]

theorem rounds_alterSeatingDoc (t : Tournament) (sanctions : List Sanction) (round : ℕ)
    (tables : List Table)
    (seating : List (List Uid)) :
    (alterSeatingDoc t sanctions round tables seating).rounds =
      t.rounds.set round (reseatRound tables seating) := by
  unfold alterSeatingDoc
  extract_lets reseated
  split <;> rfl

@[simp] theorem alterSeatingDoc_state (t : Tournament) (sanctions : List Sanction) (round : ℕ)
    (tables : List Table) (seating : List (List Uid)) :
    (alterSeatingDoc t sanctions round tables seating).state = t.state := by
  unfold alterSeatingDoc
  extract_lets reseated
  split <;> rfl

@[simp] theorem alterSeatingDoc_finals (t : Tournament) (sanctions : List Sanction) (round : ℕ)
    (tables : List Table) (seating : List (List Uid)) :
    (alterSeatingDoc t sanctions round tables seating).finals = t.finals := by
  unfold alterSeatingDoc
  extract_lets reseated
  split <;> rfl

theorem resolveLiveRound_ok {rounds : List (List Table)} {round : Option ℕ} {target : ℕ}
    (h : resolveLiveRound rounds round = .ok target) :
    target = round.getD (rounds.length - 1) := by
  simp only [resolveLiveRound, ensure_bind_eq_ok, pure_eq_ok] at h
  exact h.2.2.symm

theorem insertSeat_uids_perm (seat : ℕ) (uid : Uid) (tb : Table) :
    (insertSeat seat uid tb).uids.Perm (uid :: tb.uids) := by
  have h := List.perm_insertIdx (Seat.fresh uid) tb.seating (Nat.min_le_right seat _)
  exact h.map Seat.playerUid

theorem roundUids_insertSeat_perm {round : List Table} {table : ℕ} {tb : Table}
    (h : round[table]? = some tb) (seat : ℕ) (uid : Uid) :
    (roundUids (round.modify table (insertSeat seat uid))).Perm (uid :: roundUids round) := by
  induction round generalizing table with
  | nil => simp at h
  | cons x round ih =>
    simp only [roundUids] at ih ⊢
    cases table with
    | zero =>
      rw [List.modify_zero_cons, List.flatMap_cons, List.flatMap_cons, ← List.cons_append]
      exact (insertSeat_uids_perm seat uid x).append_right _
    | succ table =>
      rw [List.modify_succ_cons, List.flatMap_cons, List.flatMap_cons]
      exact ((ih h).append_left x.uids).trans List.perm_middle

theorem eraseSeat_uids (uid : Uid) (tb : Table) :
    ({ tb with seating := tb.seating.eraseP fun s => s.playerUid == uid } : Table).uids.Sublist
      tb.uids :=
  List.eraseP_sublist.map Seat.playerUid

theorem roundUids_modify_sublist {f : Table → Table} (hf : ∀ tb, (f tb).uids.Sublist tb.uids)
    (round : List Table) (table : ℕ) :
    (roundUids (round.modify table f)).Sublist (roundUids round) := by
  induction round generalizing table with
  | nil => simp [roundUids]
  | cons x round ih =>
    simp only [roundUids] at ih ⊢
    cases table with
    | zero => exact (hf x).append (List.Sublist.refl _)
    | succ table => exact (List.Sublist.refl _).append (ih table)

theorem roundUids_removeSeat (uid : Uid) (round : List Table) :
    (roundUids (removeSeat uid round)).Sublist (roundUids round) := by
  unfold removeSeat
  split
  · exact roundUids_modify_sublist (eraseSeat_uids uid) round _
  · exact List.Sublist.refl _

theorem roundUids_eraseIdx (round : List Table) (table : ℕ) :
    (roundUids (round.eraseIdx table)).Sublist (roundUids round) :=
  (List.eraseIdx_sublist round table).flatMap _

theorem roundUids_modify_of_uids {f : Table → Table} {round : List Table} {table : ℕ}
    (hf : ∀ tb, round[table]? = some tb → (f tb).uids = tb.uids) :
    roundUids (round.modify table f) = roundUids round := by
  induction round generalizing table with
  | nil => simp [roundUids]
  | cons x round ih =>
    cases table with
    | zero => simp [roundUids, hf x rfl]
    | succ table =>
      have h := ih fun tb htb => hf tb htb
      simp only [roundUids] at h
      simp [roundUids, h]

/-! ### Reports -/

theorem map_playerUid_writeScores (actor : ActorContext) (seating : List Seat)
    (scores : List SeatScore) (scored : List ℚ × List ℚ) :
    (writeScores actor seating scores scored).map Seat.playerUid =
      seating.map Seat.playerUid := by
  unfold writeScores
  extract_lets stamps
  conv_rhs => rw [← List.zipIdx_map_fst 0 seating]
  rw [List.map_map, List.map_map]
  refine List.map_congr_left fun si _ => ?_
  simp only [Function.comp_apply]
  split <;> rfl

theorem reportedState_ok {actor : ActorContext} {override : Option ScoreOverride}
    {state state' : TableState} {vps : List ℚ}
    (h : reportedState actor override state vps = .ok state') :
    state' = override.elim (judgedState vps) fun _ => state := by
  unfold reportedState at h
  unfold judgedState
  split at h
  · exact (pure_eq_ok.1 h).symm
  · split at h
    · rename_i he
      simpa [he] using (pure_eq_ok.1 h).symm
    · rename_i he
      simpa [he] using (pure_eq_ok.1 h).symm
    · rename_i he _ _
      simp only [ensure_bind_eq_ok, pure_eq_ok] at h
      grind
    · rename_i he
      simpa [he] using (pure_eq_ok.1 h).symm

theorem reportTable_ok {t : Tournament} {actor : ActorContext} {sanctions : List Sanction}
    {round : ℕ} {seating : List Seat} {state : TableState} {override : Option ScoreOverride}
    {seedOrder : Option (List Uid)} {scores : List SeatScore} {written : List Seat × TableState}
    (h : reportTable t actor sanctions round seating state override seedOrder scores =
      .ok written) :
    written.1 = writeScores actor seating scores
        (scoreTable seating (mergedVps seating scores) round
          (resolveSaEffectiveRounds t sanctions) seedOrder) ∧
      written.2 = override.elim (judgedState (mergedVps seating scores)) fun _ => state := by
  simp only [reportTable, bind_eq_ok, pure_eq_ok] at h
  obtain ⟨-, -, -, -, state', hstate, rfl⟩ := h
  exact ⟨rfl, reportedState_ok hstate⟩

theorem reportTable_uids {t : Tournament} {actor : ActorContext} {sanctions : List Sanction}
    {round : ℕ} {seating : List Seat} {state : TableState} {override : Option ScoreOverride}
    {seedOrder : Option (List Uid)} {scores : List SeatScore} {written : List Seat × TableState}
    (h : reportTable t actor sanctions round seating state override seedOrder scores =
      .ok written) :
    written.1.map Seat.playerUid = seating.map Seat.playerUid := by
  rw [(reportTable_ok h).1, map_playerUid_writeScores]

/-! ### The seating of a new round -/

theorem checkSubmittedTable_eq_ok {subset seen table seen' : List Uid}
    (h : checkSubmittedTable subset seen table = .ok seen') :
    seen' = seen ++ table ∧ (∀ uid ∈ table, uid ∈ subset) ∧ (seen.Nodup → seen'.Nodup) := by
  simp only [checkSubmittedTable, ensure_bind_eq_ok] at h
  obtain ⟨-, h⟩ := h
  induction table generalizing seen with
  | nil =>
    simp only [List.foldlM_nil, pure_eq_ok] at h
    subst h
    simp
  | cons uid table ih =>
    simp only [List.foldlM_cons, bind_eq_ok, ensure_eq_ok, exists_const, pure_eq_ok] at h
    obtain ⟨a, ⟨hin, hnew, rfl⟩, h⟩ := h
    obtain ⟨rfl, hsub, hnodup⟩ := ih h
    refine ⟨by simp, List.forall_mem_cons.2 ⟨hin, hsub⟩, fun hseen => hnodup ?_⟩
    rw [List.nodup_append]
    exact ⟨hseen, List.nodup_singleton uid, by rintro a ha b hb rfl; simp_all⟩

theorem checkSubmitted_perm {subset : List Uid} {submitted : List (List Uid)} {x : Unit}
    (h : checkSubmitted subset submitted = .ok x) : submitted.flatten.Perm subset := by
  simp only [checkSubmitted, bind_eq_ok, ensure_eq_ok] at h
  obtain ⟨seen, hseen, hlen⟩ := h
  have key : ∀ (tables : List (List Uid)) (a b : List Uid),
      tables.foldlM (checkSubmittedTable subset) a = .ok b →
      b = a ++ tables.flatten ∧ (∀ uid ∈ tables.flatten, uid ∈ subset) ∧ (a.Nodup → b.Nodup) := by
    intro tables
    induction tables with
    | nil =>
      intro a b hb
      simp only [List.foldlM_nil, pure_eq_ok] at hb
      subst hb
      simp
    | cons table tables ih =>
      intro a b hb
      simp only [List.foldlM_cons, bind_eq_ok] at hb
      obtain ⟨c, hc, hb⟩ := hb
      obtain ⟨rfl, hsub, hnodup⟩ := checkSubmittedTable_eq_ok hc
      obtain ⟨rfl, hsub', hnodup'⟩ := ih _ _ hb
      refine ⟨by simp, ?_, fun ha => hnodup' (hnodup ha)⟩
      intro uid huid
      rw [List.flatten_cons, List.mem_append] at huid
      exact huid.elim (hsub uid) (hsub' uid)
  obtain ⟨rfl, hsub, hnodup⟩ := key submitted [] seen hseen
  rw [List.nil_append] at hlen hnodup
  exact (List.subperm_of_subset (hnodup List.nodup_nil) hsub).perm_of_length_le hlen.ge

theorem roundSeating_perm {rs : RandomSource} {t : Tournament}
    {submitted : Option (List (List Uid))} {seating : List (List Uid)}
    (h : roundSeating rs t submitted = .ok seating) : seating.flatten.Perm (playersToSeat t) := by
  unfold roundSeating at h
  split at h
  · simp only [bind_eq_ok, pure_eq_ok] at h
    obtain ⟨x, hx, rfl⟩ := h
    exact checkSubmitted_perm hx
  · simp only [bind_eq_ok, pure_eq_ok] at h
    obtain ⟨computed, hc, rfl⟩ := h
    exact computeNextRound_perm hc

theorem mem_playersToSeat {t : Tournament} {uid : Uid} (h : uid ∈ playersToSeat t) :
    uid ∈ availablePlayers t := mem_selectPlayersForRound h

/-! ### Live seats -/

/-- The player sits at a live table of the round. -/
def LiveIn (round : List Table) (uid : Uid) : Prop :=
  ∃ tb ∈ round, tb.state.isLive = true ∧ uid ∈ tb.uids

/-- The player sits at a live table of a round other than `r`. -/
def LiveElsewhere (rounds : List (List Table)) (r : ℕ) (uid : Uid) : Prop :=
  ∃ k round, k ≠ r ∧ rounds[k]? = some round ∧ LiveIn round uid

section Live

variable {rounds : List (List Table)} {round : List Table} {uid : Uid} {r table : ℕ}

theorem mem_liveSeats_iff_liveIn :
    uid ∈ liveSeats rounds ↔
      ∃ (k : ℕ) (round : List Table), rounds[k]? = some round ∧ LiveIn round uid := by
  rw [mem_liveSeats]
  constructor
  · rintro ⟨round, hr, hlive⟩
    obtain ⟨k, hk⟩ := List.mem_iff_getElem?.1 hr
    exact ⟨k, round, hk, hlive⟩
  · rintro ⟨k, round, hk, hlive⟩
    exact ⟨round, List.mem_of_getElem? hk, hlive⟩

theorem mem_liveSeats_singleton : uid ∈ liveSeats [round] ↔ LiveIn round uid := by
  rw [mem_liveSeats, LiveIn]
  simp

theorem LiveIn.mem_roundUids (h : LiveIn round uid) : uid ∈ roundUids round := by
  obtain ⟨tb, htb, -, hseat⟩ := h
  exact List.mem_flatMap.2 ⟨tb, htb, hseat⟩

theorem LiveElsewhere.mem (h : LiveElsewhere rounds r uid) : uid ∈ liveSeats rounds := by
  obtain ⟨k, round, -, hk, hlive⟩ := h
  exact mem_liveSeats_iff_liveIn.2 ⟨k, round, hk, hlive⟩

theorem mem_liveSeats_cases (r : ℕ) (h : uid ∈ liveSeats rounds) :
    LiveElsewhere rounds r uid ∨ ∃ round, rounds[r]? = some round ∧ LiveIn round uid := by
  obtain ⟨k, round, hk, hlive⟩ := mem_liveSeats_iff_liveIn.1 h
  by_cases hkr : k = r
  · exact .inr ⟨round, hkr ▸ hk, hlive⟩
  · exact .inl ⟨k, round, hkr, hk, hlive⟩

theorem mem_playersInOtherActiveRounds {t : Tournament} :
    uid ∈ playersInOtherActiveRounds t (some r) ↔ LiveElsewhere t.rounds r uid := by
  rw [playersInOtherActiveRounds, mem_liveSeats]
  constructor
  · rintro ⟨round, hround, hlive⟩
    obtain ⟨⟨round', k⟩, hk, rfl⟩ := List.mem_map.1 hround
    obtain ⟨hmem, hne⟩ := List.mem_filter.1 hk
    exact ⟨k, round', by simpa using hne, by simpa using List.mem_zipIdx_iff_getElem?.1 hmem, hlive⟩
  · rintro ⟨k, round, hne, hk, hlive⟩
    refine ⟨round, List.mem_map.2 ⟨(round, k), List.mem_filter.2 ⟨?_, ?_⟩, rfl⟩, hlive⟩
    · exact List.mem_zipIdx_iff_getElem?.2 (by simpa using hk)
    · simpa using hne

theorem liveElsewhere_modify {f : List Table → List Table} :
    LiveElsewhere (rounds.modify r f) r uid ↔ LiveElsewhere rounds r uid := by
  unfold LiveElsewhere
  refine exists_congr fun k => exists_congr fun round => and_congr_right fun hk => ?_
  simp [Ne.symm hk]

theorem liveElsewhere_set {x : List Table} :
    LiveElsewhere (rounds.set r x) r uid ↔ LiveElsewhere rounds r uid := by
  unfold LiveElsewhere
  refine exists_congr fun k => exists_congr fun round => and_congr_right fun hk => ?_
  rw [List.getElem?_set_ne (Ne.symm hk)]

theorem mem_liveSeats_modify {f : List Table → List Table}
    (h : uid ∈ liveSeats (rounds.modify r f)) :
    LiveElsewhere rounds r uid ∨ ∃ round, rounds[r]? = some round ∧ LiveIn (f round) uid := by
  rcases mem_liveSeats_cases r h with hother | ⟨round', hround', hlive⟩
  · exact .inl (liveElsewhere_modify.1 hother)
  · cases hround : rounds[r]? with
    | none => simp [hround] at hround'
    | some round =>
      have hx : f round = round' := by simpa [hround] using hround'
      exact .inr ⟨round, rfl, hx ▸ hlive⟩

theorem mem_liveSeats_set {x : List Table} (h : uid ∈ liveSeats (rounds.set r x)) :
    LiveElsewhere rounds r uid ∨ LiveIn x uid := by
  rcases mem_liveSeats_cases r h with hother | ⟨round', hround', hlive⟩
  · exact .inl (liveElsewhere_set.1 hother)
  · rw [List.getElem?_set_self'] at hround'
    cases hround : rounds[r]? with
    | none => simp [hround] at hround'
    | some round =>
      have hx : x = round' := by simpa [hround] using hround'
      exact .inr (hx ▸ hlive)

theorem mem_liveSeats_append {a b : List (List Table)} :
    uid ∈ liveSeats (a ++ b) ↔ uid ∈ liveSeats a ∨ uid ∈ liveSeats b := by
  simp [liveSeats]

theorem mem_liveSeats_fresh {organizer : Option Uid} {seating : List (List Uid)} :
    uid ∈ liveSeats [seating.map (Table.fresh organizer)] ↔ uid ∈ seating.flatten := by
  rw [← roundUids_fresh organizer, roundUids, mem_liveSeats]
  simp [Table.fresh, TableState.isLive]

theorem liveIn_modify {f : Table → Table} (h : LiveIn (round.modify table f) uid) :
    LiveIn round uid ∨
      ∃ tb, round[table]? = some tb ∧ (f tb).state.isLive = true ∧ uid ∈ (f tb).uids := by
  obtain ⟨tb', htb', hlive, hseat⟩ := h
  rcases mem_of_mem_modify htb' with hmem | ⟨tb, htb, rfl⟩
  · exact .inl ⟨tb', hmem, hlive, hseat⟩
  · exact .inr ⟨tb, htb, hlive, hseat⟩

theorem not_liveIn_of_finished (h : ∀ tb ∈ round, tb.state = .finished) : ¬LiveIn round uid := by
  rintro ⟨tb, htb, hlive, -⟩
  rw [h tb htb] at hlive
  cases hlive

theorem not_liveIn_cancelTables : ¬LiveIn (cancelTables round) uid := by
  rintro ⟨tb, htb, hlive, -⟩
  obtain ⟨tb', -, rfl⟩ := List.mem_map.1 htb
  cases hlive

theorem liveElsewhere_of_mem_cancelledRounds {target : ℕ}
    (h : uid ∈ liveSeats (cancelledRounds rounds target)) :
    LiveElsewhere (cancelledRounds rounds target) target uid ∧ uid ∈ liveSeats rounds := by
  unfold cancelledRounds at h ⊢
  split at h
  · rename_i hlast
    obtain ⟨k, round, hk, hlive⟩ := mem_liveSeats_iff_liveIn.1 h
    have hpre := removeLastRound_prefixOf rounds
    have hlt : k < rounds.length - 1 := by
      have h1 := (List.getElem?_eq_some_iff.1 hk).1
      have h2 := ( List.rdropWhile_prefix fullyCancelled rounds.dropLast).length_le
      rw [List.length_dropLast] at h2
      unfold removeLastRound at h1
      omega
    rw [if_pos hlast]
    refine ⟨⟨k, round, by omega, hk, hlive⟩, mem_liveSeats_iff_liveIn.2 ⟨k, round, ?_, hlive⟩⟩
    obtain ⟨hlt', rfl⟩ := List.getElem?_eq_some_iff.1 hk
    rw [hpre.getElem hlt']
    exact List.getElem?_eq_getElem _
  · rename_i hlast
    rw [if_neg hlast]
    rcases mem_liveSeats_modify h with hother | ⟨round, -, hlive⟩
    · exact ⟨liveElsewhere_modify.2 hother, hother.mem⟩
    · exact absurd hlive not_liveIn_cancelTables

end Live

end Archon.Engine

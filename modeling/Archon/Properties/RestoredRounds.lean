import Archon.Properties.CancelledRounds
import Archon.Properties.Freshness

/-!
# A round cancelled and restored

A soft-cancelled round keeps its seats, points and overrides, and `RestoreRound` derives the states
from them again. Restored at once, a round whose tables had the derived states is back as it was,
and the two events together are one recompute of the document before them.
-/

namespace Archon.Engine
open Guards Nested Seating

/-- A table without the game wins and tournament points the refresh writes. -/
def Table.unscored (tb : Table) : Table :=
  { tb with seating := tb.seating.map fun s => s.withGwTp 0 0 }

/-- Every table of round `r` has the state its points and override give. -/
def Settled (t : Tournament) (r : ℕ) : Prop :=
  ∀ tables ∈ t.rounds[r]?, ∀ tb ∈ tables, tb.state = rederivedState tb

instance (t : Tournament) (r : ℕ) : Decidable (Settled t r) :=
  inferInstanceAs (Decidable (∀ tables ∈ t.rounds[r]?, ∀ tb ∈ tables, tb.state = rederivedState tb))

/-- The document with the states of round `r` derived from its points and overrides. -/
def rederivedRound (t : Tournament) (r : ℕ) : Tournament :=
  { t with rounds := t.rounds.modify r restoreTables }

/-- What `t'` still has of `t` once round `r` was cancelled and restored, the restore under
`sanctions`. -/
structure RestoredFrom (t t' : Tournament) (sanctions : List Sanction) (r : ℕ) : Prop where
  seats : (t'.rounds[r]?).map (List.map Table.points) = (t.rounds[r]?).map (List.map Table.points)
  states : ∀ k tb, tableAt t.rounds r k = some tb → tb.state = rederivedState tb →
    (tableAt t'.rounds r k).map Table.state = some tb.state
  others : ∀ k ≠ r,
    (t'.rounds[k]?).map (List.map Table.unscored) = (t.rounds[k]?).map (List.map Table.unscored)
  rounds : t'.rounds = (updateStandings (rederivedRound t r) sanctions).rounds
  standings : t'.standings = (updateStandings (rederivedRound t r) sanctions).standings
  settled : Settled t r → rederivedRound t r = t
  kept : Settled t r → (t'.standings = t.standings ↔ Fresh t sanctions)

section Restored

variable {rs : RandomSource} {t t' cut : Tournament} {i j : EventInput} {r : ℕ}
variable {round : List Table} {s : List Sanction}

/-! ### Tables -/

theorem unscored_refreshTable (sas : List (Uid × ℕ)) (r : ℕ) (tb : Table) :
    (refreshTable sas r tb).unscored = tb.unscored := by
  have hseats : ∀ gws tps : List ℚ, (refreshSeats tb.seating gws tps).map
      (fun s => s.withGwTp 0 0) =
      tb.seating.map fun s => s.withGwTp 0 0 := by
    intro gws tps
    conv_rhs => rw [← List.zipIdx_map_fst 0 tb.seating]
    rw [refreshSeats, List.map_map, List.map_map]
    exact List.map_congr_left fun si _ => rfl
  unfold refreshTable Table.unscored
  split
  · rfl
  · split <;> simp only [hseats]

theorem refreshTable_cancelled {tb : Table} (h : tb.state = .cancelled) (sas : List (Uid × ℕ))
    (r : ℕ) : refreshTable sas r tb = tb := if_pos h

/-! ### The two documents -/

theorem restoreTables_cancelTables (round : List Table) :
    restoreTables (cancelTables round) = restoreTables round := by
  rw [restoreTables, cancelTables, List.map_map]
  rfl

theorem restoreTables_of_settled (h : ∀ tb ∈ round, tb.state = rederivedState tb) :
    restoreTables round = round := by
  have hall : ∀ tb ∈ round, ({ tb with state := rederivedState tb } : Table) = id tb :=
    fun tb htb => by rw [← h tb htb, id]
  rw [restoreTables, List.map_congr_left hall, List.map_id]

theorem rounds_of_cancel (hlast : r + 1 < t.rounds.length) (k : ℕ) :
    (updateStandings (cancelRoundDoc t r) s).rounds[k]? =
      if k = r then (t.rounds[r]?).map cancelTables
      else (t.rounds[k]?).map
        (List.map (refreshTable (resolveSaEffectiveRounds (cancelRoundDoc t r) s) k)) := by
  have hrounds : (cancelRoundDoc t r).rounds = t.rounds.modify r cancelTables :=
    if_neg (by omega)
  rw [updateStandings_getElem?, hrounds]
  by_cases hk : k = r
  · subst hk
    rw [if_pos rfl, List.getElem?_modify_eq]
    cases t.rounds[k]? with
    | none => rfl
    | some round =>
      simp only [Option.map_some, Option.map_eq_map, Option.some.injEq]
      conv_rhs => rw [← List.map_id (cancelTables round)]
      refine List.map_congr_left fun tb htb => ?_
      obtain ⟨old, -, rfl⟩ := List.mem_map.1 htb
      exact refreshTable_cancelled rfl _ _
  · rw [if_neg hk, List.getElem?_modify_ne _ _ (Ne.symm hk)]

/-- The document before the recompute of the restore: round `r` has its states derived, other
rounds were refreshed, and the finals and the marks of the roster are those of `t`. -/
structure BroughtBack (t back : Tournament) (r : ℕ) : Prop where
  restored : back.rounds[r]? = (t.rounds[r]?).map restoreTables
  others : ∀ k ≠ r, ∃ sas, back.rounds[k]? = (t.rounds[k]?).map (List.map (refreshTable sas k))
  noFinals : t.finals = none ∧ back.finals = none
  marks : ∀ uid, sheetMarks back.players uid = sheetMarks t.players uid

theorem sheetMarks_onlyState {players : List Player} {f : Player → Player} {uid : Uid}
    (hf : OnlyState f) (h : ∀ p, findPlayer players uid = some p →
      ((f p).state = .disqualified ↔ p.state = .disqualified)) :
    sheetMarks (players.map f) uid = sheetMarks players uid :=
  sheetMarks_map hf.userUid fun p hp => hf.marks (h p hp)

theorem sheetMarks_cancelRoundDoc (uid : Uid) :
    sheetMarks (cancelRoundDoc t r).players uid = sheetMarks t.players uid := by
  refine sheetMarks_onlyState (onlyState_cancelRoundEntry _ _) fun p _ => ?_
  have hreleased : releasedState t.state ≠ .disqualified := by
    unfold releasedState
    split <;> simp
  unfold cancelRoundEntry
  split
  · split
    · rename_i hc
      exact iff_of_false hreleased (by simp [hc.1])
    · split
      · rename_i hc
        exact iff_of_false hreleased (by simp [hc.1])
      · rfl
  · rfl

theorem sheetMarks_restoreRoundDoc
    (hall : ∀ uid ∈ round.flatMap Table.uids, checkRestorable t uid = .ok ⟨⟩) (uid : Uid) :
    sheetMarks (restoreRoundDoc t r round).players uid = sheetMarks t.players uid := by
  refine sheetMarks_onlyState (onlyState_restoreRoundEntry _ _ _) fun p hp => ?_
  rw [restoreRoundEntry, (findPlayer_mem hp).2]
  dsimp only
  split
  · rename_i hc
    have hcheck := hall uid hc.1
    simp only [checkRestorable, ensure_bind_eq_ok, hp, Option.all_some] at hcheck
    have hne : p.state ≠ .disqualified := by
      have := hcheck.1
      simp only [Bool.and_eq_true, bne_iff_ne] at this
      exact this.1
    refine iff_of_false ?_ hne
    simp only [Player.withState]
    split
    · simp
    · split <;> simp
  · rfl

theorem cancelRound_of_accept (hi : i.event = .cancelRound (some r))
    (h : acceptEvent rs t i = .ok cut) :
    cut = updateStandings (cancelRoundDoc t r) i.sanctions := by
  obtain ⟨ops, h⟩ := acceptEvent_eq_ok.1 h
  simp only [applyEvent, hi, cancelRound, requireOrganizer, ensure_bind_eq_ok, pure_eq_ok,
    Prod.mk.injEq, Option.getD_some] at h
  exact h.2.2.2.2.2.1.symm

theorem restoreRound_of_accept (hj : j.event = .restoreRound (some r))
    (h : acceptEvent rs cut j = .ok t') :
    ∃ tables, cut.finals = none ∧ cut.rounds[r]? = some tables ∧
      (∀ uid ∈ tables.flatMap Table.uids, checkRestorable cut uid = .ok ⟨⟩) ∧
        t' = updateStandings (restoreRoundDoc cut r tables) j.sanctions := by
  obtain ⟨ops, h⟩ := acceptEvent_eq_ok.1 h
  simp only [applyEvent, hj, restoreRound, requireOrganizer, ensure_eq_ok, exists_const, okOr_eq_ok,
    bind_eq_ok, pure_eq_ok, Prod.mk.injEq, Option.some.injEq, exists_eq_left'] at h
  obtain ⟨-, -, hfinals, tables, htables, -, x, hall, rfl, -⟩ := h
  exact ⟨tables, hfinals, htables, forM_eq_ok.1 hall, rfl⟩

theorem broughtBack (hi : i.event = .cancelRound (some r)) (hj : j.event = .restoreRound (some r))
    (hlast : r + 1 < t.rounds.length) (hcancel : acceptEvent rs t i = .ok cut)
    (hrestore : acceptEvent rs cut j = .ok t') :
    ∃ back, BroughtBack t back r ∧ t' = updateStandings back j.sanctions := by
  obtain rfl := cancelRound_of_accept hi hcancel
  obtain ⟨tables, hfinals, htables, hall, rfl⟩ := restoreRound_of_accept hj hrestore
  have hfinals' : t.finals = none := (updateStandings_finals_eq_none
      (cancelRoundDoc t r) _).1 hfinals
  have hcut := rounds_of_cancel (s := i.sanctions) hlast
  have hr : r < (updateStandings (cancelRoundDoc t r) i.sanctions).rounds.length :=
    (List.getElem?_eq_some_iff.1 htables).1
  refine ⟨restoreRoundDoc _ r tables, ⟨?_, fun k hk => ?_, ⟨hfinals', hfinals⟩, fun uid => ?_⟩, rfl⟩
  · rw [hcut r, if_pos rfl, Option.map_eq_some_iff] at htables
    obtain ⟨round, hround, rfl⟩ := htables
    simp only [restoreRoundDoc, List.getElem?_set_self hr, hround, Option.map_some,
      restoreTables_cancelTables]
  · refine ⟨resolveSaEffectiveRounds (cancelRoundDoc t r) i.sanctions, ?_⟩
    rw [restoreRoundDoc, List.getElem?_set_ne (Ne.symm hk), hcut k, if_neg hk]
  · rw [sheetMarks_restoreRoundDoc hall, updateStandings_players, sheetMarks_cancelRoundDoc]

/-! ### What is back -/

theorem BroughtBack.rounds_length (h : BroughtBack t t' r) :
    t'.rounds.length = t.rounds.length := by
  have hnone : ∀ k : ℕ, t'.rounds.length ≤ k ↔ t.rounds.length ≤ k := by
    intro k
    rw [← List.getElem?_eq_none_iff, ← List.getElem?_eq_none_iff]
    by_cases hk : k = r
    · rw [hk, h.restored, Option.map_eq_none_iff]
    · obtain ⟨sas, hround⟩ := h.others k hk
      rw [hround, Option.map_eq_none_iff]
  exact Nat.le_antisymm ((hnone _).2 le_rfl) ((hnone _).1 le_rfl)

theorem rederivedRound_of_settled (h : Settled t r) : rederivedRound t r = t := by
  have hrounds : t.rounds.modify r restoreTables = t.rounds := by
    refine List.ext_getElem? fun k => ?_
    by_cases hk : k = r
    · subst hk
      rw [List.getElem?_modify_eq]
      cases hround : t.rounds[k]? with
      | none => rfl
      | some round => exact congrArg some (restoreTables_of_settled (h round hround))
    · rw [List.getElem?_modify_ne _ _ (Ne.symm hk)]
  rw [rederivedRound, hrounds]

theorem BroughtBack.roundAt (h : BroughtBack t t' r) (k : ℕ) :
    t'.rounds[k]? = (rederivedRound t r).rounds[k]? ∨
      ∃ sas, t'.rounds[k]? = ((rederivedRound t r).rounds[k]?).map
        (List.map (refreshTable sas k)) := by
  by_cases hk : k = r
  · subst hk
    rw [h.restored, rederivedRound, List.getElem?_modify_eq]
    exact .inl rfl
  · rw [rederivedRound, List.getElem?_modify_ne _ _ (Ne.symm hk)]
    exact .inr (h.others k hk)

theorem BroughtBack.sameResults (h : BroughtBack t t' r) : SameResults (rederivedRound t r) t' := by
  refine SameResults.of_length (fun k => ?_) ?_ ?_
  · rcases h.roundAt k with hround | ⟨sas, hround⟩
    · rw [playedAt, hround, playedAt]
    · exact playedAt_of_map (refreshTable_isPlayed sas k) (refreshTable_points sas k) hround
  · rw [h.rounds_length, rederivedRound, List.length_modify]
  · have hfinals : (rederivedRound t r).finals = none := h.noFinals.1
    rw [finalsUids, h.noFinals.2, finalsUids, hfinals]

theorem BroughtBack.rounds (h : BroughtBack t t' r) (s : List Sanction) :
    (updateStandings t' s).rounds = (updateStandings (rederivedRound t r) s).rounds := by
  refine List.ext_getElem? fun k => ?_
  rw [updateStandings_getElem?, updateStandings_getElem?, h.sameResults.resolve]
  rcases h.roundAt k with hround | ⟨sas, hround⟩
  · rw [hround]
  · rw [hround, Option.map_map]
    congr 1
    funext round
    rw [Function.comp_apply, List.map_map]
    exact List.map_congr_left fun tb _ => refreshTable_refreshTable sas _ k tb

theorem BroughtBack.standings (h : BroughtBack t t' r) (hrounds : t.rounds ≠ [])
    (s : List Sanction) : (updateStandings t' s).standings =
      (updateStandings (rederivedRound t r) s).standings := by
  have hne : ∀ t'' : Tournament, t''.rounds.length = t.rounds.length → t''.rounds ≠ [] := by
    intro t'' hlen
    rwa [← List.length_pos_iff, hlen, List.length_pos_iff]
  rw [updateStandings_standings t' s (hne t' h.rounds_length),
    updateStandings_standings _ s (hne (rederivedRound t r) (List.length_modify ..))]
  exact h.sameResults.standings (fun uid _ => h.marks uid) s

theorem map_points_restoreTables (round : List Table) :
    (restoreTables round).map Table.points = round.map Table.points := by
  rw [restoreTables, List.map_map]
  rfl

theorem BroughtBack.restoredFrom (h : BroughtBack t t' r) (hrounds : t.rounds ≠ []) :
    RestoredFrom t (updateStandings t' s) s r where
  seats := by
    rw [updateStandings_getElem?, h.restored]
    cases t.rounds[r]? with
    | none => rfl
    | some round =>
      simp only [Option.map_some, List.map_map, Function.comp_def, refreshTable_points]
      rw [← Function.comp_def, ← map_points_restoreTables]
      rfl
  states k tb htb hstate := by
    obtain ⟨round, hround, hk⟩ := Option.bind_eq_some_iff.1 htb
    rw [tableAt, updateStandings_getElem?, h.restored, hround]
    simp only [Option.map_some, Option.bind_some, restoreTables, List.map_map,
      List.getElem?_map, hk,
      Function.comp_apply, refreshTable_state, hstate]
  others k hk := by
    obtain ⟨sas, hround⟩ := h.others k hk
    rw [updateStandings_getElem?, hround]
    cases t.rounds[k]? with
    | none => rfl
    | some round =>
      simp only [Option.map_some, List.map_map, Function.comp_def, unscored_refreshTable]
  rounds := h.rounds s
  standings := h.standings hrounds s
  settled := rederivedRound_of_settled
  kept hsettled := by
    rw [h.standings hrounds, rederivedRound_of_settled hsettled,
      updateStandings_standings t s hrounds,
      Fresh]
    exact eq_comm

/-- A round other than the last, cancelled and restored at once, has its seats, points and settled
states back, and the other rounds stay but for the scores a recompute writes. Rounds and standings
are those of one recompute with the states of the round derived; when the round was settled, a
fresh sheet is as it was. -/
theorem restoredFrom_of_accept (hi : i.event = .cancelRound (some r))
    (hj : j.event = .restoreRound (some r)) (hlast : r + 1 < t.rounds.length)
    (hcancel : acceptEvent rs t i = .ok cut) (hrestore : acceptEvent rs cut j = .ok t') :
    RestoredFrom t t' j.sanctions r := by
  obtain ⟨back, hback, rfl⟩ := broughtBack hi hj hlast hcancel hrestore
  refine hback.restoredFrom fun hnil => ?_
  simp [hnil] at hlast

/-- A round is over and the next one runs, as in the tests of the soft cancel. -/
def secondRoundRunning : List TournamentEvent :=
  firstRoundOver ++ [.startRound (some [["d", "c", "b", "a"]])]

/-- The organizer cancels the first round and takes it back. -/
def cancelFirst : TournamentEvent := .cancelRound (some 0)
def restoreFirst : TournamentEvent := .restoreRound (some 0)

/-- The tournaments after the cancel and after the restore. -/
def cancelledAndRestored (t : Tournament) : Except EngineError (Tournament × Tournament) := do
  let cut ← acceptEvent fixedOrder t (sent cancelFirst)
  let back ← acceptEvent fixedOrder cut (sent restoreFirst)
  pure (cut, back)

theorem secondRoundRunning_restored :
    ∃ t cut t', acceptEvent fixedOrder t (sent cancelFirst) = .ok cut ∧
      acceptEvent fixedOrder cut (sent restoreFirst) = .ok t' ∧ 0 + 1 < t.rounds.length ∧
        RestoredFrom t t' [] 0 := by
  obtain ⟨t, -, hp⟩ := exists_reaches_of_replay anyEvent (secondRoundRunning.map sent)
    (fun t => decide (0 + 1 < t.rounds.length) && (cancelledAndRestored t).isOk) (by decide +kernel)
  rw [Bool.and_eq_true, decide_eq_true_eq] at hp
  obtain ⟨hlast, hok⟩ := hp
  cases hboth : cancelledAndRestored t with
  | error e => simp [hboth, Except.isOk, Except.toBool] at hok
  | ok both =>
    simp only [cancelledAndRestored, bind_eq_ok, pure_eq_ok] at hboth
    obtain ⟨cut, hcut, back, hback, -⟩ := hboth
    exact ⟨t, cut, back, hcut, hback, hlast, restoredFrom_of_accept rfl rfl hlast hcut hback⟩

end Restored

/-! ### A toss before the cancel -/

/-- A toss is drawn for `a` before the third round. -/
def tossedRunning : List TournamentEvent :=
  secondRoundRunning ++
    [.setScore 1 0 [⟨"b", 4⟩], .finishRound none, .setToss "a" 3,
      .startRound (some [["a", "b", "c", "d"]])]

/-- The stored sheet is older than the toss, the one after the restore shows it. -/
theorem tossedRunning_standings :
    ∃ t cut t', (engineSystem fixedOrder).Reachable t ∧ 0 + 1 < t.rounds.length ∧
      acceptEvent fixedOrder t (sent cancelFirst) = .ok cut ∧
      acceptEvent fixedOrder cut (sent restoreFirst) = .ok t' ∧ t'.standings ≠ t.standings := by
  obtain ⟨t, ht, hp⟩ := exists_reaches_of_replay anyEvent (tossedRunning.map sent)
    (fun t => decide (0 + 1 < t.rounds.length) &&
      match cancelledAndRestored t with
      | .ok both => both.2.standings != t.standings
      | .error _ => false) (by decide +kernel)
  rw [Bool.and_eq_true, decide_eq_true_eq] at hp
  obtain ⟨hlast, hp⟩ := hp
  split at hp
  · rename_i both hboth
    simp only [cancelledAndRestored, bind_eq_ok, pure_eq_ok] at hboth
    obtain ⟨cut, hcut, back, hback, rfl⟩ := hboth
    exact ⟨t, cut, back, ht, hlast, hcut, hback, by simpa using hp⟩
  · cases hp

end Archon.Engine

import Archon.Engine.FinalsTable
import Archon.Properties.FinalsPhase
import Archon.Properties.Freshness

/-!
# Display and archive

`display_standings` resolves the flags of the stored sheet again, from the roster, the finals and
the sanctions it is given, and sorts it; the archive places the sheet as it is stored. They agree
when the sheet is fresh for those sanctions and, with a finals table, a winner is named.
-/

namespace Archon.Engine
open Guards Seating

/-- The run takes no archived sheet. -/
def PlayedOut (_ : Tournament) (i : EventInput) : Prop := i.event.archives = false

instance (t : Tournament) (i : EventInput) : Decidable (PlayedOut t i) :=
  inferInstanceAs (Decidable (i.event.archives = false))

section Display

variable {rs : RandomSource} {t : Tournament} {s : List Sanction}

theorem finalsMarked_of_reaches (h : (engineSystem rs).Reaches PlayedOut t) : FinalsMarked t := by
  refine h.invariant_of (fun _ => Shape.of_reachable) (fun t ht => ?_)
    fun t i t' hshape hp hok hs => ?_
  · obtain ⟨request, actor, ht⟩ := ht
    rw [createTournament_eq ht]
    exact ⟨fun _ => ⟨fun p hp => absurd hp List.not_mem_nil, rfl⟩, fun hne => absurd rfl hne⟩
  · refine hp.step hshape (fun sheet he => ?_) (effect_of_acceptEvent hs)
    simp [PlayedOut, he, TournamentEvent.archives] at hok

/-! ### A fresh sheet is displayed as it is stored -/

/-- The columns of a row that do not come from the results. -/
structure RowOf (t : Tournament) (s : List Sanction) (row : Standing) : Prop where
  disqualified : row.disqualified = ((findPlayer t.players row.userUid).any
    (fun p => p.state == .disqualified) || hasDqSanction s row.userUid)
  toss : row.toss = (findPlayer t.players row.userUid).elim 0 Player.toss
  finalist : row.finalist = markedFinalist t.players row.userUid
  nonCompeting : row.nonCompeting =
    (findPlayer t.players row.userUid).elim false Player.nonCompeting
  withdrawn : row.withdrawn = false
  forfeits : row.disqualified = true → row.gw = 0 ∧ row.vp = 0 ∧ row.tp = 0

theorem rowOf_prelimRow (sas : List (Uid × ℕ)) (uid : Uid) (total : ℚ × ℚ × ℚ) :
    RowOf t s (prelimRow t s sas uid total) where
  disqualified := rfl
  toss := rfl
  finalist := by
    unfold prelimRow markedFinalist
    dsimp only
    cases findPlayer t.players uid <;> rfl
  nonCompeting := rfl
  withdrawn := rfl
  forfeits hd := by
    have hd' : ((findPlayer t.players uid).any (fun p => p.state == .disqualified)
      || hasDqSanction s uid) = true := hd
    simp only [prelimRow, hd', if_true, and_self]

theorem RowOf.of_mem {row : Standing} (h : row ∈ computePreliminaryStandings t s) :
    RowOf t s row := by
  rw [computePreliminaryStandings_eq, sortByRank, List.mem_insertionSort] at h
  obtain ⟨e, -, rfl⟩ := List.mem_map.1 h
  exact rowOf_prelimRow _ _ _

theorem FinalsMarked.finalsSeat_isSome (h : FinalsMarked t) (hdone : t.state = .finished)
    (hrounds : t.rounds ≠ []) (uid : Uid) :
    (finalsSeat t uid).isSome = markedFinalist t.players uid := by
  have hmem : (finalsSeat t uid).isSome = true ↔ uid ∈ finalsUids t := by
    cases hf : t.finals with
    | none => simp [finalsSeat, finalsUids, finalsScored, hf]
    | some f => simp [finalsSeat, finalsUids, finalsScored, hf, hdone]
  rw [Bool.eq_iff_iff, hmem]
  cases hf : t.finals with
  | some f => exact (h.seated (by simp [hf]) hrounds uid).symm
  | none =>
    have hnot : markedFinalist t.players uid = false := by
      rw [markedFinalist]
      cases hp : findPlayer t.players uid with
      | none => rfl
      | some p => exact (h.noFinals hf).1 p (findPlayer_mem hp).1
    simp [finalsUids, hf, hnot]

theorem find?_of_fresh (hfresh : Fresh t s) {row : Standing} (hrow : row ∈ t.standings) :
    ∃ r, t.standings.find? (fun r => r.userUid == row.userUid) = some r ∧
      r.disqualified = row.disqualified ∧ r.nonCompeting = row.nonCompeting := by
  cases hr : t.standings.find? (fun r => r.userUid == row.userUid) with
  | none => simpa using List.find?_eq_none.1 hr row hrow
  | some r =>
    have hu : r.userUid = row.userUid := by simpa using List.find?_some hr
    have hfirst := RowOf.of_mem (hfresh ▸ List.mem_of_find?_eq_some hr)
    have hmade := RowOf.of_mem (hfresh ▸ hrow)
    exact ⟨r, rfl, by rw [hfirst.disqualified, hmade.disqualified, hu],
      by rw [hfirst.nonCompeting, hmade.nonCompeting, hu]⟩

theorem displayFlags_of_fresh (h : FinalsMarked t) (hdone : t.state = .finished)
    (hrounds : t.rounds ≠ []) (hfresh : Fresh t s) {row : Standing} (hrow : row ∈ t.standings) :
    displayFlags t s { row with
      toss := (findPlayer t.players row.userUid).elim 0 Player.toss
      finalist := (finalsSeat t row.userUid).isSome } = row := by
  obtain ⟨r, hr, hrdq, hrnc⟩ := find?_of_fresh hfresh hrow
  have hmade := RowOf.of_mem (hfresh ▸ hrow)
  have hdq : ((findPlayer t.players row.userUid).any (fun p => p.state == .disqualified)
      || row.disqualified || hasDqSanction s row.userUid) = row.disqualified := by
    rw [hmade.disqualified]
    cases (findPlayer t.players row.userUid).any fun p => p.state == .disqualified <;> simp
  simp only [displayFlags, hr, Option.any_some, hrdq, hrnc, hdq, ← hmade.nonCompeting,
    ← hmade.toss, h.finalsSeat_isSome hdone hrounds, ← hmade.finalist, Bool.or_self]
  have hwithdrawn := hmade.withdrawn
  have hforfeits := hmade.forfeits
  obtain ⟨uid, gw, vp, tp, toss, finalist, disqualified, nonCompeting, withdrawn⟩ := row
  dsimp only at hwithdrawn hforfeits ⊢
  cases disqualified with
  | false => simp [hwithdrawn]
  | true =>
    obtain ⟨rfl, rfl, rfl⟩ := hforfeits rfl
    simp [hwithdrawn]

theorem displaySheet_of_fresh (h : FinalsMarked t) (hdone : t.state = .finished)
    (hrounds : t.rounds ≠ []) (hfresh : Fresh t s) : displaySheet t s = t.standings := by
  have hsorted : sortByRank t.standings = t.standings := by
    refine sortByRank_of_inRankOrder ?_
    rw [hfresh, computePreliminaryStandings_eq]
    exact sortByRank_inRankOrder _
  have hraw : (displayRaw t).map (displayFlags t s) = t.standings := by
    unfold displayRaw
    have hempty : t.rounds.isEmpty = false := by simpa using hrounds
    cases hnil : t.standings.isEmpty with
    | true => simp [hempty, List.isEmpty_iff.1 hnil]
    | false =>
      simp only [Bool.not_false, if_true, hempty, Bool.false_eq_true, if_false, List.map_map]
      conv_rhs => rw [← List.map_id t.standings]
      exact List.map_congr_left fun row hrow => displayFlags_of_fresh h hdone hrounds hfresh hrow
  rw [displaySheet, hraw, hsorted]

theorem displayWinner_of_named (h : FinalsMarked t) (hdone : t.state = .finished)
    (hrounds : t.rounds ≠ []) (hnamed : t.finals ≠ none → t.winner ≠ "") :
    displayWinner t = t.winner := by
  have hempty : t.rounds.isEmpty = false := by simpa using hrounds
  unfold displayWinner
  cases hf : t.finals with
  | none => simp [finalsScored, hf, hempty, (h.noFinals hf).2]
  | some f => simp [finalsScored, hf, hdone, hempty, hnamed (by simp [hf])]

/-- The display places the sheet as the archive does. -/
def DisplayAgrees (t : Tournament) (s : List Sanction) : Prop :=
  (displayStandings t s).map DisplayRow.toPlacedRow = computeFinalStandings t.standings t.winner

instance (t : Tournament) (s : List Sanction) : Decidable (DisplayAgrees t s) :=
  inferInstanceAs (Decidable (_ = _))

theorem displayAgrees_of_same (hsheet : displaySheet t s = t.standings)
    (hwinner : displayWinner t = t.winner) : DisplayAgrees t s := by
  rw [DisplayAgrees, displayStandings, hsheet, hwinner, List.map_map]
  exact List.map_id _

/-! ### Before the first round -/

/-- Nobody carries a result of their own, and without rounds there is no sheet. -/
structure NoSheet (t : Tournament) : Prop where
  results : ∀ p ∈ t.players, p.result = Score.zero
  sheet : t.rounds = [] → t.standings = []

section NoSheet

variable {t' : Tournament} {i : EventInput}

theorem NoSheet.refresh (h : NoSheet t) (s : List Sanction) : NoSheet (updateStandings t s) where
  results := by
    rw [updateStandings_players]
    exact h.results
  sheet hnil := by
    have hnil' := (updateStandings_rounds_eq_nil s).1 hnil
    rw [updateStandings_standings_of_nil t s hnil', h.sheet hnil']

theorem NoSheet.keep (h : NoSheet t)
    (hplayers : (∀ p ∈ t.players, p.result = Score.zero) → ∀ p ∈ t'.players, p.result = Score.zero)
    (hsheet : t'.standings = t.standings) (hrounds : t'.rounds = [] → t.rounds = []) :
    NoSheet t' where
  results := hplayers h.results
  sheet hnil := hsheet.trans (h.sheet (hrounds hnil))

theorem results_map {f : Player → Player} (hf : ∀ p, (f p).result = p.result)
    {players : List Player} (h : ∀ p ∈ players, p.result = Score.zero) :
    ∀ p ∈ players.map f, p.result = Score.zero :=
  List.forall_mem_map.2 fun p hp => (hf p).trans (h p hp)

theorem results_update {f : Player → Player} (hf : ∀ p, (f p).result = p.result)
    {players : List Player} {uid : Uid} (h : ∀ p ∈ players, p.result = Score.zero) :
    ∀ p ∈ updatePlayer players uid f, p.result = Score.zero :=
  forall_mem_updatePlayer h fun p hp => (hf p).trans (h p (findPlayer_mem hp).1)

theorem results_push {q : Player} (hq : q.result = Score.zero) {players : List Player}
    (h : ∀ p ∈ players, p.result = Score.zero) :
    ∀ p ∈ players ++ [q], p.result = Score.zero :=
  List.forall_mem_append.2 ⟨h, List.forall_mem_singleton.2 hq⟩

theorem results_demote (t : Tournament) (unseated : List Uid) (r : ℕ)
    (h : ∀ p ∈ t.players, p.result = Score.zero) :
    ∀ p ∈ (demoteUnseatedPlayers t unseated r).players, p.result = Score.zero := by
  refine results_map (fun p => ?_) h
  split
  · split <;> rfl
  · rfl

theorem results_alterSeating {sanctions : List Sanction} {round : ℕ} {tables : List Table}
    {seating : List (List Uid)} (h : ∀ p ∈ t.players, p.result = Score.zero) :
    ∀ p ∈ (alterSeatingDoc t sanctions round tables seating).players, p.result = Score.zero := by
  unfold alterSeatingDoc
  extract_lets reseated
  split
  · refine results_demote _ _ _ (forall_mem_foldl (fun ps uid hps => ?_) _ h)
    rw [joinPlayer_eq]
    split
    · refine results_update (fun p => ?_) hps
      unfold joinedEntry
      split <;> rfl
    · exact hps
  · exact h

theorem NoSheet.step (h : NoSheet t) (harch : i.event.archives = false)
    (heff : Effect rs t i t') : NoSheet t' := by
  cases heff with
  | quiet _ hq =>
    refine h.keep (fun hz q hqm => ?_) hq.standings (by rw [hq.rounds]; exact id)
    obtain ⟨p, hp, hpq⟩ := exists_mem_of_forall₂ hq.players hqm
    exact hpq.result.trans (hz p hp)
  | openRegistration | closeRegistration | cancelRegistration => exact h.keep id rfl id
  | reopenRegistration | checkInAll | resetCheckIn =>
    exact h.keep (results_map onlyState_ite.result) rfl id
  | register => exact h.keep (results_push rfl) rfl id
  | addPlayer _ _ _ _ p _ _ _ hp => exact h.keep (results_push hp.2.2.2.2) rfl id
  | leave uid idx =>
    exact h.keep (fun hz p hp => hz p (List.mem_of_mem_eraseIdx hp)) rfl id
  | dropOut | checkOut | setWaitlisted | setToss =>
    refine h.keep (results_update ?_) rfl id
    exact fun _ => rfl
  | checkIn uid _ name players _ _ _ hplayers =>
    refine h.keep (fun hz => ?_) rfl id
    have hadmitted : ∀ p ∈ players, p.result = Score.zero := by
      rcases hplayers with rfl | ⟨-, -, rfl⟩
      · exact hz
      · exact results_push rfl hz
    refine results_update (fun p => ?_) hadmitted
    unfold checkedInEntry
    extract_lets named
    split <;> rfl
  | setNonCompeting =>
    refine NoSheet.refresh ?_ _
    refine h.keep (results_update ?_) rfl id
    exact fun _ => rfl
  | startRound =>
    exact h.keep (results_map (onlyState_startRoundEntry _ _).result) rfl
      (by simp [startRoundDoc])
  | selfOrganizeRound =>
    exact h.keep (results_map (onlyState_selfOrganizeEntry _).result) rfl
      (by simp [selfOrganizeDoc])
  | finishRound =>
    refine NoSheet.refresh ?_ _
    exact h.keep (results_map (onlyState_finishRoundEntry t _).result) rfl id
  | cancelRound _ _ _ hrounds =>
    refine NoSheet.refresh ⟨results_map (onlyState_cancelRoundEntry _ _).result h.results, ?_⟩ _
    exact fun hnil => if_pos (List.isEmpty_iff.2 hnil)
  | restoreRound =>
    refine NoSheet.refresh ?_ _
    exact h.keep (results_map (onlyState_restoreRoundEntry _ _ _).result) rfl
      (by simp [restoreRoundDoc])
  | swapFinals | reseatFinals | scoreFinals | overrideFinals | unoverrideFinals =>
    refine NoSheet.refresh ?_ _
    exact h.keep id rfl id
  | swapRound | scoreTable | overrideTable | unoverrideTable =>
    refine NoSheet.refresh ?_ _
    exact h.keep id rfl (by simp [modifyTable])
  | reseatRound =>
    refine NoSheet.refresh ?_ _
    refine h.keep results_alterSeating ?_ (by simp [rounds_alterSeatingDoc])
    unfold alterSeatingDoc
    extract_lets reseated
    split <;> rfl
  | seatPlayer =>
    refine NoSheet.refresh ?_ _
    refine h.keep (results_update ?_) rfl (by simp [seatPlayerDoc])
    exact fun _ => rfl
  | unseatPlayer uid _ target =>
    refine NoSheet.refresh ?_ _
    refine h.keep (results_demote { t with rounds := t.rounds.modify target (removeSeat uid) }
      [uid] target) rfl ?_
    simp [unseatPlayerDoc, demoteUnseatedPlayers]
  | addTable | removeTable => exact h.keep id rfl (by simp)
  | randomToss =>
    exact h.keep (forall_mem_tossedPlayers t (fun _ _ hp => hp) i.sanctions) rfl id
  | startFinals =>
    refine h.keep (forall_mem_foldl (fun ps uid hps => ?_) _) rfl id
    refine results_update ?_ hps
    exact fun _ => rfl
  | finishFinals | finishTournament =>
    refine NoSheet.refresh ?_ _
    exact h.keep (results_map onlyState_finishEntry.result) rfl id
  | cancelFinals =>
    refine NoSheet.refresh ?_ _
    refine h.keep (results_map fun p => ?_) rfl id
    unfold cancelFinalsEntry
    split <;> rfl
  | reopenTournament =>
    refine NoSheet.refresh ?_ _
    exact h.keep (results_map (onlyState_reopenEntry t).result) rfl id
  | archival sheet he => simp [he, TournamentEvent.archives] at harch

theorem noSheet_of_reaches (h : (engineSystem rs).Reaches PlayedOut t) : NoSheet t := by
  refine h.invariant (fun t ht => ?_) fun t i t' hp hok hs => hp.step hok (effect_of_acceptEvent hs)
  obtain ⟨request, actor, ht⟩ := ht
  rw [createTournament_eq ht]
  exact ⟨fun p hp => absurd hp List.not_mem_nil, fun _ => rfl⟩

theorem NoSheet.displayAgrees (h : NoSheet t) (hnil : t.rounds = []) : DisplayAgrees t s := by
  have hsheet := h.sheet hnil
  have hraw : displayRaw t = [] := by
    unfold displayRaw
    simp only [hsheet, hnil, List.isEmpty_nil, Bool.not_true, Bool.false_eq_true, if_false, if_true]
    refine List.filterMap_eq_nil_iff.2 fun p hp => ?_
    simp [h.results p hp, Score.zero]
  have hempty : ∀ winner, computeFinalStandings [] winner = [] := by
    intro winner
    simp [computeFinalStandings, placeTied]
  rw [DisplayAgrees, displayStandings, displaySheet, hraw, hsheet]
  simp [sortByRank, hempty]

end NoSheet

/-! ### Agreement -/

/-- Of a finished tournament played without an archived sheet, the display and the archive give the
same placement, when the stored sheet is fresh for the sanctions displayed and a winner is named
for the finals if there are any. A sheet without rounds is placed the same when it is in rank order
and its rows carry the flags the display resolves. -/
theorem display_agrees (hdone : t.state = .finished) :
    ((engineSystem rs).Reaches PlayedOut t → (t.rounds ≠ [] → Fresh t s) →
      (t.rounds ≠ [] → t.finals ≠ none → t.winner ≠ "") → DisplayAgrees t s) ∧
    (t.rounds = [] → t.standings ≠ [] → InRankOrder t.standings →
      (∀ row ∈ t.standings, displayFlags t s row = row) → DisplayAgrees t s) := by
  constructor
  · intro h hfresh hnamed
    by_cases hrounds : t.rounds = []
    · exact (noSheet_of_reaches h).displayAgrees hrounds
    · have hmarked := finalsMarked_of_reaches h
      exact displayAgrees_of_same
        (displaySheet_of_fresh hmarked hdone hrounds (hfresh hrounds))
        (displayWinner_of_named hmarked hdone hrounds (hnamed hrounds))
  · intro hnil hsheet hsorted hrows
    have hempty : t.standings.isEmpty = false := by simpa using hsheet
    have hraw : (displayRaw t).map (displayFlags t s) = t.standings := by
      simp only [displayRaw, hempty, hnil, List.isEmpty_nil, Bool.not_false, if_true]
      rw [List.map_id']
      conv_rhs => rw [← List.map_id t.standings]
      exact List.map_congr_left hrows
    refine displayAgrees_of_same ?_ ?_
    · rw [displaySheet, hraw, sortByRank_of_inRankOrder hsorted]
    · simp [displayWinner, hnil]

end Display

/-! ### A final played to its end -/

/-- Two rounds with a winner, the finals, and their result. -/
def finalsPlayed : List TournamentEvent :=
  intoFinals ++ [.setScore 2 0 [⟨"a", 0⟩, ⟨"b", 0⟩, ⟨"c", 5⟩, ⟨"d", 0⟩, ⟨"e", 0⟩], .finishFinals]

theorem finalsPlayed_displayAgrees :
    ∃ t, (t.state = .finished ∧ t.winner = "c") ∧ Fresh t [] ∧ DisplayAgrees t [] := by
  obtain ⟨t, ht, hp⟩ := exists_reaches_of_replay PlayedOut (finalsPlayed.map sent)
    (fun t => (t.state == .finished && t.winner == "c") && decide (Fresh t [])) (by decide +kernel)
  simp only [Bool.and_eq_true, beq_iff_eq, decide_eq_true_eq] at hp
  obtain ⟨⟨hdone, hwinner⟩, hfresh⟩ := hp
  refine ⟨t, ⟨hdone, hwinner⟩, hfresh, (display_agrees hdone).1 ht (fun _ => hfresh) ?_⟩
  intro _ _
  simp [hwinner]

/-- The display takes the sanctions it is handed: a disqualification that never reached the stored
sheet moves the winner there and not in the archive. -/
theorem finalsPlayed_not_displayAgrees :
    ∃ t s, (engineSystem fixedOrder).Reachable t ∧ t.state = .finished ∧ ¬DisplayAgrees t s := by
  obtain ⟨t, ht, hp⟩ := exists_reaches_of_replay anyEvent (finalsPlayed.map sent)
    (fun t => t.state == .finished && !decide (DisplayAgrees t [dqOf "c"])) (by decide +kernel)
  simp only [Bool.and_eq_true, beq_iff_eq, Bool.not_eq_true', decide_eq_false_iff_not] at hp
  exact ⟨t, [dqOf "c"], ht, hp.1, hp.2⟩

end Archon.Engine

import Archon.Engine.FinalsTable
import Archon.Engine.LiveSeats
import Archon.Engine.Scenario

/-!
# Sheets of finished tables

A table is judged where its result changes: `SetScore`, `Unoverride` and `RestoreRound` finish it
on a sheet the table can produce only, `Override` marks it. Seat edits keep the state a table has,
so a player added to a finished table or taken from it may leave a sheet no table produces.
-/

namespace Archon.Engine
open Guards Nested Seating

/-- A finished table without override has a sheet a table can produce. -/
def Table.Legal (tb : Table) : Prop :=
  tb.state = .finished → tb.override = none → checkTableVps (seatVps tb.seating) = none

instance (tb : Table) : Decidable tb.Legal :=
  inferInstanceAs (Decidable (tb.state = .finished → tb.override = none →
    checkTableVps (seatVps tb.seating) = none))

/-- Every preliminary table is legal. -/
def SheetsLegal (t : Tournament) : Prop := ∀ round ∈ t.rounds, ∀ tb ∈ round, tb.Legal

instance (t : Tournament) : Decidable (SheetsLegal t) :=
  inferInstanceAs (Decidable (∀ round ∈ t.rounds, ∀ tb ∈ round, tb.Legal))

/-! ### The condition -/

/-- Another seat at a finished table without override leaves a legal sheet. -/
def SeatFits (tables : List Table) (uid : Uid) (table seat : ℕ) : Prop :=
  ∀ tb ∈ tables[table]?, (insertSeat seat uid tb).Legal

/-- The table the player leaves is left with a legal sheet. -/
def UnseatFits (tables : List Table) (uid : Uid) : Prop := ∀ tb ∈ removeSeat uid tables, tb.Legal

/-- A table keeps its state over the reseat with points left at it only on a legal sheet. -/
def ReseatFits (tables : List Table) (seating : List (List Uid)) : Prop :=
  ∀ us ∈ seating.zipIdx, us.1 ≠ [] → (reseatTable tables us.2 us.1).Legal

/-- A seat edit leaves no illegal sheet on a finished table without override. -/
def KeepsSheets (t : Tournament) (i : EventInput) : Prop :=
  match i.event with
  | .seatPlayer uid table seat round =>
    SeatFits ((t.rounds[round.getD (t.rounds.length - 1)]?).getD []) uid table seat
  | .unseatPlayer uid round =>
    UnseatFits ((t.rounds[round.getD (t.rounds.length - 1)]?).getD []) uid
  | .alterSeating round seating => ReseatFits ((t.rounds[round]?).getD []) seating
  | _ => True

instance (t : Tournament) (i : EventInput) : Decidable (KeepsSheets t i) := by
  unfold KeepsSheets SeatFits UnseatFits ReseatFits
  generalize i.event = e
  induction e using TournamentEvent.casesOn <;> infer_instance

section LegalSheets

variable {rs : RandomSource} {t t' : Tournament} {i : EventInput} {round : List Table}

/-! ### Tables -/

theorem Table.Legal.congr {a b : Table} (h : a.Legal) (hstate : b.state = a.state)
    (hoverride : b.override = a.override) (hvps : seatVps b.seating = seatVps a.seating) :
    b.Legal := by
  unfold Table.Legal at h ⊢
  rw [hstate, hoverride, hvps]
  exact h

theorem legal_of_not_finished {tb : Table} (h : tb.state ≠ .finished) : tb.Legal :=
  fun hdone => absurd hdone h

theorem legal_of_overridden {tb : Table} {mark : ScoreOverride} (h : tb.override = some mark) :
    tb.Legal := by
  intro _ hnone
  simp [h] at hnone

theorem checkTableVps_of_judged {vps : List ℚ} (h : judgedState vps = .finished) :
    checkTableVps vps = none := by
  unfold judgedState at h
  split at h
  · cases h
  · cases h
  · assumption

theorem legal_restored (tb : Table) : Table.Legal { tb with state := rederivedState tb } := by
  intro hdone hnone
  have hdone' : rederivedState tb = .finished := hdone
  have hnone' : tb.override = none := hnone
  rw [rederivedState, hnone'] at hdone'
  exact checkTableVps_of_judged hdone'

theorem seatVps_writeScores (actor : ActorContext) (seating : List Seat)
    (scores : List SeatScore) (scored : List ℚ × List ℚ) :
    seatVps (writeScores actor seating scores scored) = mergedVps seating scores := by
  unfold seatVps writeScores mergedVps
  extract_lets stamps
  conv_rhs => rw [← List.zipIdx_map_fst 0 seating]
  rw [List.map_map, List.map_map]
  refine List.map_congr_left fun si _ => ?_
  simp only [Function.comp_apply]
  split
  · rename_i vp hvp
    rw [hvp, Option.getD_some]
  · rename_i hvp
    rw [hvp, Option.getD_none]

theorem legal_reported {actor : ActorContext} {sanctions : List Sanction} {r : ℕ} {tb : Table}
    {scores : List SeatScore} {written : List Seat × TableState}
    (hw : reportTable t actor sanctions r tb.seating tb.state tb.override none scores =
      .ok written) :
    Table.Legal { tb with seating := written.1, state := written.2 } := by
  intro hdone hnone
  have hnone' : tb.override = none := hnone
  have hdone' : written.2 = .finished := hdone
  obtain ⟨hseats, hstate⟩ := reportTable_ok hw
  rw [hstate, hnone', Option.elim_none] at hdone'
  simp only [hseats, seatVps_writeScores]
  exact checkTableVps_of_judged hdone'

theorem mem_swapRound {a b c d : ℕ} {tb : Table} (h : tb ∈ swapRound round a b c d) :
    ∃ old ∈ round, tb.state = old.state ∧ tb.override = old.override ∧
      seatVps tb.seating = seatVps old.seating := by
  obtain ⟨k, hk⟩ := List.mem_iff_getElem?.1 h
  rw [swapRound, withSeatings, List.getElem?_zipWith] at hk
  have hresults := congrArg (fun xss => xss[k]?)
    (results_swapPlayers (round.map Table.seating) a b c d)
  simp only [List.getElem?_map] at hresults
  cases hold : round[k]? with
  | none => simp [hold] at hk
  | some old =>
    cases hs : (swapPlayers (round.map Table.seating) a b c d)[k]? with
    | none => simp [hold, hs] at hk
    | some seating =>
      simp only [hold, hs, Option.map_some, Option.some.injEq] at hk hresults
      subst hk
      have hvps : ∀ seats : List Seat, seatVps seats = (seats.map Seat.result).map Score.vp :=
        fun seats => by simp [seatVps, Function.comp_def]
      exact ⟨old, List.mem_of_getElem? hold, rfl, rfl, by rw [hvps, hresults, hvps]⟩

/-! ### Rounds -/

theorem SheetsLegal.refresh (h : SheetsLegal t) (s : List Sanction) :
    SheetsLegal (updateStandings t s) := by
  intro round hround tb htb
  obtain ⟨r, hr⟩ := List.mem_iff_getElem?.1 hround
  rw [updateStandings_getElem?, Option.map_eq_some_iff] at hr
  obtain ⟨old, hold, rfl⟩ := hr
  obtain ⟨oldTable, hmem, rfl⟩ := List.mem_map.1 htb
  exact (h old (List.mem_of_getElem? hold) oldTable hmem).congr (refreshTable_state _ _ _)
    (refreshTable_override _ _ _) (refreshTable_vps _ _ _)

theorem SheetsLegal.append (h : SheetsLegal t) (organizer : Option Uid)
    (seating : List (List Uid)) (hrounds : t'.rounds =
      t.rounds ++ [seating.map (Table.fresh organizer)]) :
    SheetsLegal t' := by
  rw [SheetsLegal, hrounds]
  refine List.forall_mem_append.2 ⟨h, List.forall_mem_singleton.2 ?_⟩
  refine List.forall_mem_map.2 fun uids _ => legal_of_not_finished ?_
  simp [Table.fresh]

theorem SheetsLegal.modifyRound (h : SheetsLegal t) {r : ℕ} {f : List Table → List Table}
    (hrounds : t'.rounds = t.rounds.modify r f)
    (hf : ∀ round, t.rounds[r]? = some round → (∀ tb ∈ round, tb.Legal) →
      ∀ tb ∈ f round, tb.Legal) : SheetsLegal t' := by
  intro round hround
  rw [hrounds] at hround
  rcases mem_of_mem_modify hround with hold | ⟨old, hold, rfl⟩
  · exact h round hold
  · exact hf old hold (h old (List.mem_of_getElem? hold))

theorem forall_legal_modify {table : ℕ} {f : Table → Table} (h : ∀ tb ∈ round, tb.Legal)
    (hf : ∀ tb ∈ round[table]?, (f tb).Legal) : ∀ tb ∈ round.modify table f, tb.Legal := by
  intro tb htb
  rcases mem_of_mem_modify htb with hold | ⟨old, hold, rfl⟩
  · exact h tb hold
  · exact hf old hold

theorem SheetsLegal.cancelRound (h : SheetsLegal t) (target : ℕ) :
    SheetsLegal (cancelRoundDoc t target) := by
  have hrounds : (cancelRoundDoc t target).rounds = cancelledRounds t.rounds target := rfl
  rw [SheetsLegal, hrounds, cancelledRounds]
  split
  · exact fun round hround => h round ((removeLastRound_prefixOf t.rounds).subset hround)
  · intro round hround
    rcases mem_of_mem_modify hround with hold | ⟨old, -, rfl⟩
    · exact h round hold
    · exact List.forall_mem_map.2 fun tb _ => legal_of_not_finished (by simp)

theorem SheetsLegal.reseat (h : SheetsLegal t) {sanctions : List Sanction} {r : ℕ}
    {tables : List Table} {seating : List (List Uid)} (hok : ReseatFits tables seating) :
    SheetsLegal (alterSeatingDoc t sanctions r tables seating) := by
  rw [SheetsLegal, rounds_alterSeatingDoc]
  intro round hround
  rcases List.mem_or_eq_of_mem_set hround with hold | rfl
  · exact h round hold
  · intro tb htb
    obtain ⟨hmem, hne⟩ := List.mem_filter.1 htb
    obtain ⟨us, hus, rfl⟩ := List.mem_map.1 hmem
    refine hok us hus fun hnil => ?_
    simp [reseatTable, hnil] at hne

theorem SheetsLegal.step (h : SheetsLegal t) (hok : KeepsSheets t i) (heff : Effect rs t i t') :
    SheetsLegal t' := by
  cases heff with
  | quiet _ hq =>
    rw [SheetsLegal, hq.rounds]
    exact h
  | openRegistration | closeRegistration | cancelRegistration | reopenRegistration | register
  | addPlayer | leave | dropOut | checkIn | checkOut | checkInAll | resetCheckIn | setWaitlisted
  | setToss | randomToss | startFinals | archival => exact h
  | setNonCompeting | finishRound | swapFinals | reseatFinals | scoreFinals | overrideFinals
  | unoverrideFinals | finishFinals | cancelFinals | finishTournament | reopenTournament =>
    refine SheetsLegal.refresh ?_ _
    exact h
  | startRound _ seating => exact h.append none seating rfl
  | selfOrganizeRound _ seating => exact h.append (some i.actor.uid) seating rfl
  | cancelRound => exact (h.cancelRound _).refresh _
  | restoreRound target tables =>
    refine SheetsLegal.refresh (fun round hround => ?_) _
    rcases List.mem_or_eq_of_mem_set hround with hold | rfl
    · exact h round hold
    · exact List.forall_mem_map.2 fun tb _ => legal_restored tb
  | swapRound round t1 s1 t2 s2 =>
    refine SheetsLegal.refresh (h.modifyRound rfl fun old _ hold tb htb => ?_) _
    obtain ⟨tb', hmem, hstate, hoverride, hvps⟩ := mem_swapRound htb
    exact (hold tb' hmem).congr hstate hoverride hvps
  | reseatRound round seating tables he _ _ hround =>
    simp only [KeepsSheets, he, hround, Option.getD_some] at hok
    exact (h.reseat hok).refresh _
  | seatPlayer uid table seat round target p tables tb he _ _ _ hlive hround htb =>
    have htarget := resolveLiveRound_ok hlive
    simp only [KeepsSheets, he, ← htarget, hround, Option.getD_some] at hok
    refine SheetsLegal.refresh (h.modifyRound rfl fun old hold hlegal => ?_) _
    obtain rfl : tables = old := Option.some.inj (hround.symm.trans hold)
    exact forall_legal_modify hlegal hok
  | unseatPlayer uid round target tables he _ hlive hround =>
    have htarget := resolveLiveRound_ok hlive
    simp only [KeepsSheets, he, ← htarget, hround, Option.getD_some] at hok
    have hstep : SheetsLegal { t with rounds := t.rounds.modify target (removeSeat uid) } := by
      refine h.modifyRound rfl fun old hold _ => ?_
      obtain rfl : tables = old := Option.some.inj (hround.symm.trans hold)
      exact hok
    refine SheetsLegal.refresh ?_ _
    exact hstep
  | addTable =>
    refine h.modifyRound rfl fun old _ hlegal => ?_
    refine List.forall_mem_append.2 ⟨hlegal, List.forall_mem_singleton.2 ?_⟩
    exact legal_of_not_finished (by simp [Table.fresh])
  | removeTable =>
    exact h.modifyRound rfl fun old _ hlegal tb htb => hlegal tb (List.mem_of_mem_eraseIdx htb)
  | scoreTable round table scores tables tb written _ _ hround htb hw =>
    refine SheetsLegal.refresh (h.modifyRound rfl fun old hold hlegal => ?_) _
    obtain rfl : tables = old := Option.some.inj (hround.symm.trans hold)
    refine forall_legal_modify hlegal fun tb' htb' => ?_
    obtain rfl : tb = tb' := Option.some.inj (htb.symm.trans htb')
    exact legal_reported hw
  | overrideTable =>
    refine SheetsLegal.refresh (h.modifyRound rfl fun old _ hlegal => ?_) _
    exact forall_legal_modify hlegal fun _ _ => legal_of_overridden rfl
  | unoverrideTable =>
    refine SheetsLegal.refresh (h.modifyRound rfl fun old _ hlegal => ?_) _
    exact forall_legal_modify hlegal fun _ _ hdone _ => checkTableVps_of_judged hdone

/-- In every run whose seat edits fit the sheets they touch, a finished preliminary table has an
override or a sheet `check_table_vps` accepts. -/
theorem sheetsLegal_of_reaches (h : (engineSystem rs).Reaches KeepsSheets t) : SheetsLegal t := by
  refine h.invariant (fun t ht => ?_) fun t i t' hp hok hs => hp.step hok (effect_of_acceptEvent hs)
  obtain ⟨request, actor, ht⟩ := ht
  rw [createTournament_eq ht]
  exact List.forall_mem_nil _

end LegalSheets

/-! ### A seat added to a finished table -/

/-- A round of four swept by `a`, with `e` waiting. -/
def tableSwept : List TournamentEvent :=
  gathering ["a", "b", "c", "d", "e"] ++
    [.startRound (some [["a", "b", "c", "d", "e"]]), .unseatPlayer "e" none,
      .setScore 0 0 [⟨"a", 4⟩, ⟨"b", 0⟩, ⟨"c", 0⟩, ⟨"d", 0⟩]]

theorem tableSwept_sheetsLegal :
    ∃ t, (tableAt t.rounds 0 0).any (fun tb => tb.state == .finished) = true ∧ SheetsLegal t := by
  obtain ⟨t, ht, hp⟩ := exists_reaches_of_replay KeepsSheets (tableSwept.map sent)
    (fun t => (tableAt t.rounds 0 0).any fun tb => tb.state == .finished) (by decide +kernel)
  exact ⟨t, hp, sheetsLegal_of_reaches ht⟩

/-- The fifth player comes to the finished table. -/
def joinedSwept : List TournamentEvent :=
  tableSwept ++ [.seatPlayer "e" 0 4 none]

/-- `e` is seated at the finished table of four, whose four points are then one too few. -/
theorem seatedLate_not_sheetsLegal :
    ∃ t, (engineSystem fixedOrder).Reachable t ∧ ¬SheetsLegal t := by
  obtain ⟨t, ht, hp⟩ := exists_reaches_of_replay anyEvent
    (joinedSwept.map sent)
    (fun t => !decide (SheetsLegal t)) (by decide +kernel)
  exact ⟨t, ht, by simpa using hp⟩

end Archon.Engine

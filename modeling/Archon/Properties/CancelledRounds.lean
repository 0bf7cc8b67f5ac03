import Archon.Engine.LiveSeats
import Archon.Engine.Scenario

/-!
# Cancelled rounds

A soft-cancelled round should stay cancelled until `RestoreRound` or its removal. The events that
derive a table's state from its result do not look for the mark: `SetScore`, `Override`,
`Unoverride` and `AlterSeating` take a table out of it, and `AddTable` adds one without it.
-/

namespace Archon.Engine
open Guards Nested Seating

/-- Every table the document has at round `r` is cancelled. -/
def StaysCancelled (t : Tournament) (r : ℕ) : Prop :=
  ∀ round ∈ t.rounds[r]?, ∀ tb ∈ round, tb.state = .cancelled

instance (t : Tournament) (r : ℕ) : Decidable (StaysCancelled t r) :=
  inferInstanceAs (Decidable (∀ round ∈ t.rounds[r]?, ∀ tb ∈ round, tb.state = .cancelled))

/-- The event leaves the cancelled mark of round `r` alone: a report only reaches an overridden
table, no override or its removal is sent for the round, no seated table of a new seating is new
or without override and points, and no table is added to the round. -/
def KeepsCancelled (t : Tournament) (i : EventInput) (r : ℕ) : Prop :=
  match i.event with
  | .setScore round table _ =>
    round = r → (tableAt t.rounds r table).all (fun tb => tb.override.isSome) = true
  | .override round _ _ => round ≠ r
  | .unoverride round _ => round ≠ r
  | .alterSeating round seating => round = r → ∀ us ∈ seating.zipIdx,
      reseatedLive ((t.rounds[r]?).getD []) us.2 us.1 = true → us.1 = []
  | .addTable => r ≠ t.rounds.length - 1
  | _ => True

instance (t : Tournament) (i : EventInput) (r : ℕ) : Decidable (KeepsCancelled t i r) := by
  unfold KeepsCancelled
  generalize i.event = e
  induction e using TournamentEvent.casesOn <;> infer_instance

section Cancelled

variable {rs : RandomSource} {t t' : Tournament} {i : EventInput} {r : ℕ} {round : List Table}

/-- The states of the tables of round `r`. -/
def tableStates (rounds : List (List Table)) (r : ℕ) : Option (List TableState) :=
  (rounds[r]?).map fun round => round.map Table.state

theorem tableStates_eq_faces (rounds : List (List Table)) (r : ℕ) :
    tableStates rounds r = ((boardOf rounds)[r]?).map (List.map Face.state) := by
  rw [tableStates, boardOf, List.getElem?_map, Option.map_map]
  congr 1
  funext round
  simp [Table.face, Function.comp_def]

theorem staysCancelled_iff :
    StaysCancelled t r ↔ ∀ states ∈ tableStates t.rounds r, ∀ s ∈ states, s = .cancelled := by
  unfold StaysCancelled tableStates
  cases t.rounds[r]? <;> simp

theorem staysCancelled_updateStandings {s : List Sanction} :
    StaysCancelled (updateStandings t s) r ↔ StaysCancelled t r := by
  rw [staysCancelled_iff, staysCancelled_iff, tableStates_eq_faces, tableStates_eq_faces,
    boardOf_updateStandings]

theorem staysCancelled_of_rounds (hrounds : t'.rounds = t.rounds) :
    StaysCancelled t' r ↔ StaysCancelled t r := by
  rw [StaysCancelled, hrounds, StaysCancelled]

theorem StaysCancelled.of_fully (hr : t.rounds[r]? = some round)
    (hc : ∀ tb ∈ round, tb.state = .cancelled) : StaysCancelled t r := by
  intro round' hround'
  obtain rfl : round = round' := Option.some.inj (hr.symm.trans hround')
  exact hc

theorem staysCancelled_modify {k : ℕ} {f : List Table → List Table}
    (hr : t.rounds[r]? = some round) (hc : ∀ tb ∈ round, tb.state = .cancelled)
    (hrounds : t'.rounds = t.rounds.modify k f) :
    StaysCancelled t' r ↔ (k = r → ∀ tb ∈ f round, tb.state = .cancelled) := by
  rw [StaysCancelled, hrounds, List.getElem?_modify, hr]
  by_cases hk : k = r
  · simp [hk]
  · simpa [hk] using hc

theorem forall_mem_modify {P : Table → Prop} {table : ℕ} {tb : Table} {f : Table → Table}
    (h : ∀ x ∈ round, P x) (htb : round[table]? = some tb) :
    (∀ x ∈ round.modify table f, P x) ↔ P (f tb) := by
  constructor
  · intro hall
    exact hall _ (List.mem_iff_getElem?.2 ⟨table, by simp [htb]⟩)
  · intro hp x hx
    rcases mem_of_mem_modify hx with hold | ⟨y, hy, rfl⟩
    · exact h x hold
    · obtain rfl : tb = y := Option.some.inj (htb.symm.trans hy)
      exact hp

theorem reseatTable_cancelled (hc : ∀ tb ∈ round, tb.state = .cancelled) (table : ℕ)
    (uids : List Uid) :
    (reseatTable round table uids).state = .cancelled ↔ reseatedLive round table uids = false := by
  rw [← reseatTable_isLive]
  constructor
  · intro h
    rw [h]
    rfl
  · intro h
    cases htb : round[table]? with
    | none => simp [reseatTable, htb, TableState.isLive] at h
    | some tb =>
      have hs := hc tb (List.mem_of_getElem? htb)
      unfold reseatTable at h ⊢
      simp only [htb, Option.getD_some, hs] at h ⊢
      split
      · rename_i hcond
        simp [hcond, TableState.isLive] at h
      · rfl

theorem reseatRound_cancelled (hc : ∀ tb ∈ round, tb.state = .cancelled)
    (seating : List (List Uid)) :
    (∀ tb ∈ reseatRound round seating, tb.state = .cancelled) ↔
      ∀ us ∈ seating.zipIdx, reseatedLive round us.2 us.1 = true → us.1 = [] := by
  have hempty : ∀ table uids, (reseatTable round table uids).seating.isEmpty = uids.isEmpty := by
    simp [reseatTable, List.isEmpty_map]
  unfold reseatRound
  simp only [List.mem_filter, List.mem_map, forall_exists_index, and_imp]
  constructor
  · intro h us hus hlive
    by_contra hne
    have hs := h _ us hus rfl (by simpa [hempty] using hne)
    rw [reseatTable_cancelled hc, hlive] at hs
    cases hs
  · rintro h _ us hus rfl hseats
    rw [reseatTable_cancelled hc, ← Bool.not_eq_true]
    intro hlive
    rw [hempty, h us hus hlive] at hseats
    cases hseats

theorem staysCancelled_append {extra : List (List Table)} (hr : t.rounds[r]? = some round)
    (hc : ∀ tb ∈ round, tb.state = .cancelled) (hrounds : t'.rounds = t.rounds ++ extra) :
    StaysCancelled t' r := by
  refine StaysCancelled.of_fully ?_ hc
  rw [hrounds, List.getElem?_append_left (List.getElem?_eq_some_iff.1 hr).1, hr]

theorem staysCancelled_cancelRoundDoc (target : ℕ) (hr : t.rounds[r]? = some round)
    (hc : ∀ tb ∈ round, tb.state = .cancelled) : StaysCancelled (cancelRoundDoc t target) r := by
  have hrounds : (cancelRoundDoc t target).rounds = cancelledRounds t.rounds target := rfl
  by_cases hlast : target = t.rounds.length - 1
  · rw [StaysCancelled, hrounds, cancelledRounds, if_pos hlast]
    intro round' hround'
    obtain ⟨hlt, rfl⟩ := List.getElem?_eq_some_iff.1 hround'
    obtain ⟨hlt', rfl⟩ := List.getElem?_eq_some_iff.1 hr
    rwa [(removeLastRound_prefixOf t.rounds).getElem hlt]
  · rw [cancelledRounds, if_neg hlast] at hrounds
    refine (staysCancelled_modify hr hc hrounds).2 fun _ tb htb => ?_
    obtain ⟨tb', -, rfl⟩ := List.mem_map.1 htb
    rfl

theorem staysCancelled_iff_of_effect (hr : t.rounds[r]? = some round)
    (hc : ∀ tb ∈ round, tb.state = .cancelled) (hrestore : i.event ≠ .restoreRound (some r))
    (heff : Effect rs t i t') : StaysCancelled t' r ↔ KeepsCancelled t i r := by
  have hstay : StaysCancelled t r := StaysCancelled.of_fully hr hc
  have hlt : r < t.rounds.length := (List.getElem?_eq_some_iff.1 hr).1
  cases heff with
  | quiet he hq =>
    rw [staysCancelled_of_rounds hq.rounds]
    refine iff_of_true hstay ?_
    unfold KeepsCancelled
    revert he
    cases i.event <;> simp [TournamentEvent.isQuiet]
  | leave _ _ he =>
    refine iff_of_true hstay ?_
    rcases he with he | he <;> simp [KeepsCancelled, he]
  | openRegistration he | closeRegistration he | cancelRegistration he | reopenRegistration he
  | register _ _ _ he | addPlayer _ _ _ _ _ he | dropOut _ _ he | checkIn _ _ _ _ _ he
  | checkOut _ _ he | checkInAll he | resetCheckIn he | setWaitlisted _ _ _ he | setToss _ _ he
  | randomToss he | startFinals he | archival _ he =>
    exact iff_of_true hstay (by simp [KeepsCancelled, he])
  | setNonCompeting _ _ he | finishRound _ _ he | swapFinals _ _ _ _ _ _ he
  | finishFinals _ he | cancelFinals he | finishTournament he | reopenTournament he =>
    rw [staysCancelled_updateStandings]
    exact iff_of_true hstay (by simp [KeepsCancelled, he])
  | startRound _ _ he | selfOrganizeRound _ _ he =>
    exact iff_of_true (staysCancelled_append hr hc rfl) (by simp [KeepsCancelled, he])
  | cancelRound _ he =>
    rw [staysCancelled_updateStandings]
    exact iff_of_true (staysCancelled_cancelRoundDoc _ hr hc) (by simp [KeepsCancelled, he])
  | restoreRound target tables he =>
    rw [staysCancelled_updateStandings]
    refine iff_of_true (StaysCancelled.of_fully ?_ hc) (by simp [KeepsCancelled, he])
    have hne : target ≠ r := fun h => hrestore (h ▸ he)
    simp [restoreRoundDoc, hne, hr]
  | reseatFinals k _ _ he _ _ hk =>
    rw [staysCancelled_updateStandings]
    refine iff_of_true hstay ?_
    simp only [KeepsCancelled, he]
    intro h
    omega
  | scoreFinals k _ _ _ _ he _ hk =>
    rw [staysCancelled_updateStandings]
    refine iff_of_true hstay ?_
    simp only [KeepsCancelled, he]
    intro h
    omega
  | overrideFinals k _ _ _ he _ hk | unoverrideFinals k _ _ he _ hk =>
    rw [staysCancelled_updateStandings]
    refine iff_of_true hstay ?_
    simp only [KeepsCancelled, he]
    omega
  | swapRound k t1 s1 t2 s2 _ _ _ he =>
    rw [staysCancelled_updateStandings, staysCancelled_modify hr hc rfl]
    refine iff_of_true (fun _ tb htb => ?_) (by simp [KeepsCancelled, he])
    obtain ⟨tb', htb', seating, rfl⟩ := mem_withSeatings htb
    exact hc tb' htb'
  | reseatRound k seating tables he _ _ hk =>
    rw [staysCancelled_updateStandings]
    simp only [KeepsCancelled, he, hr, Option.getD_some]
    by_cases hkr : k = r
    · subst hkr
      obtain rfl : tables = round := Option.some.inj (hk.symm.trans hr)
      rw [StaysCancelled, rounds_alterSeatingDoc]
      simp only [List.getElem?_set_self hlt, Option.mem_def, Option.some.injEq, forall_eq',
        true_implies]
      exact reseatRound_cancelled hc seating
    · refine iff_of_true (StaysCancelled.of_fully ?_ hc) fun h => absurd h hkr
      rw [rounds_alterSeatingDoc, List.getElem?_set_ne hkr, hr]
  | seatPlayer uid table seat k target p tables tb he =>
    rw [staysCancelled_updateStandings, staysCancelled_modify hr hc rfl]
    refine iff_of_true (fun _ tb htb => ?_) (by simp [KeepsCancelled, he])
    rcases mem_of_mem_modify htb with hold | ⟨tb', htb', rfl⟩
    · exact hc tb hold
    · exact hc tb' (List.mem_of_getElem? htb')
  | unseatPlayer uid k target tables he =>
    rw [staysCancelled_updateStandings, staysCancelled_modify hr hc rfl]
    refine iff_of_true (fun _ tb htb => ?_) (by simp [KeepsCancelled, he])
    unfold removeSeat at htb
    split at htb
    · rcases mem_of_mem_modify htb with hold | ⟨tb', htb', rfl⟩
      · exact hc tb hold
      · exact hc tb' (List.mem_of_getElem? htb')
    · exact hc tb htb
  | addTable he =>
    rw [staysCancelled_modify hr hc rfl]
    simp only [KeepsCancelled, he]
    constructor
    · intro h hlast
      have := h hlast.symm (Table.fresh none []) (by simp)
      cases this
    · exact fun hne h => absurd h.symm hne
  | removeTable table tb he =>
    rw [staysCancelled_modify hr hc rfl]
    refine iff_of_true (fun _ tb htb => ?_) (by simp [KeepsCancelled, he])
    exact hc tb (List.mem_of_mem_eraseIdx htb)
  | scoreTable k table scores tables tb written he _ hk htb hw =>
    rw [staysCancelled_updateStandings, staysCancelled_modify hr hc rfl]
    simp only [KeepsCancelled, he]
    refine imp_congr_right ?_
    rintro rfl
    obtain rfl : tables = round := Option.some.inj (hk.symm.trans hr)
    rw [forall_mem_modify hc htb, tableAt_eq hk htb, (reportTable_ok hw).2]
    cases ho : tb.override with
    | none => simpa [ho] using judgedState_ne_cancelled _
    | some o => simp [ho, hc tb (List.mem_of_getElem? htb)]
  | overrideTable k table comment tables tb he _ hk htb =>
    rw [staysCancelled_updateStandings, staysCancelled_modify hr hc rfl]
    simp only [KeepsCancelled, he]
    refine imp_congr_right ?_
    rintro rfl
    obtain rfl : tables = round := Option.some.inj (hk.symm.trans hr)
    simp [forall_mem_modify hc htb]
  | unoverrideTable k table tables tb he _ hk htb =>
    rw [staysCancelled_updateStandings, staysCancelled_modify hr hc rfl]
    simp only [KeepsCancelled, he]
    refine imp_congr_right ?_
    rintro rfl
    obtain rfl : tables = round := Option.some.inj (hk.symm.trans hr)
    rw [forall_mem_modify hc htb]
    exact iff_of_false (judgedState_ne_cancelled _) id

theorem fullyCancelled_iff : fullyCancelled round = true ↔
    round ≠ [] ∧ ∀ tb ∈ round, tb.state = .cancelled := by
  simp [fullyCancelled]

/-- A cancelled round is still cancelled after an event other than its restoration, or gone from
the end, exactly when the event leaves its mark alone. -/
theorem cancelledRound_stays_iff (h : acceptEvent rs t i = .ok t') (hr : t.rounds[r]? = some round)
    (hc : fullyCancelled round = true) (hrestore : i.event ≠ .restoreRound (some r)) :
    StaysCancelled t' r ↔ KeepsCancelled t i r :=
  staysCancelled_iff_of_effect hr (fullyCancelled_iff.1 hc).2 hrestore (effect_of_acceptEvent h)

/-- A round is over, the next one runs, and the first is cancelled. -/
def firstRoundCancelled : List TournamentEvent :=
  gathering ["a", "b", "c", "d"] ++
    [.startRound (some [["a", "b", "c", "d"]]), .override 0 0 "timed out", .finishRound none,
      .startRound (some [["d", "c", "b", "a"]]), .unoverride 0 0, .cancelRound (some 0)]

theorem firstRoundCancelled_addTable :
    ∃ t t' round, (acceptEvent fixedOrder t (sent .addTable) = .ok t' ∧ t.rounds[0]? = some round ∧
        fullyCancelled round = true) ∧
      (StaysCancelled t' 0 ↔ KeepsCancelled t (sent .addTable) 0) := by
  obtain ⟨t, -, hp⟩ := exists_reaches_of_replay anyEvent (firstRoundCancelled.map sent)
    (fun t => (t.rounds[0]?).any fullyCancelled && (acceptEvent fixedOrder t (sent .addTable)).isOk)
    (by decide +kernel)
  rw [Bool.and_eq_true] at hp
  obtain ⟨hround, hok⟩ := hp
  cases hr : t.rounds[0]? with
  | none => simp [hr] at hround
  | some round =>
    rw [hr, Option.any_some] at hround
    cases hs : acceptEvent fixedOrder t (sent .addTable) with
    | error e => simp [hs, Except.isOk, Except.toBool] at hok
    | ok t' =>
      exact ⟨t, t', round, ⟨hs, hr, hround⟩,
        cancelledRound_stays_iff hs hr hround (by simp [sent])⟩

end Cancelled

/-! ### The defect -/

/-- A report for a table of a cancelled round. -/
def lateReport : TournamentEvent := .setScore 0 0 [⟨"a", 1⟩]

/-- `SetScore` puts a table of a cancelled round back in progress. -/
theorem firstRoundCancelled_lateReport :
    ∃ t t', (engineSystem fixedOrder).Reachable t ∧ (t.rounds[0]?).any fullyCancelled = true ∧
      acceptEvent fixedOrder t (sent lateReport) = .ok t' ∧ t'.rounds.length = t.rounds.length ∧
        ¬StaysCancelled t' 0 := by
  obtain ⟨t, ht, hp⟩ := exists_reaches_of_replay anyEvent (firstRoundCancelled.map sent)
    (fun t => (t.rounds[0]?).any fullyCancelled && leadsTo t (sent lateReport) fun t' =>
      t'.rounds.length == t.rounds.length && !decide (StaysCancelled t' 0)) (by decide +kernel)
  rw [Bool.and_eq_true] at hp
  obtain ⟨hround, hp⟩ := hp
  obtain ⟨t', h, hp⟩ := exists_of_leadsTo hp
  exact ⟨t, t', ht, hround, h, by simpa using hp⟩

end Archon.Engine

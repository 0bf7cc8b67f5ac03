import Archon.Engine.Scenario
import Archon.Engine.Shape

/-!
# The finals phase

The finals are addressed by the number of preliminary rounds. With a finals table the tournament
should be playing or finished and that number should stand still. `CancelRound` and `FinishRound`
do not look for a finals table: the one may drop the last round, both may send the tournament
back to waiting.
-/

namespace Archon.Engine
open Guards Seating

/-- With a finals table the tournament is playing or finished. -/
def FinalsInPlay (t : Tournament) : Prop :=
  t.finals ≠ none → t.state = .playing ∨ t.state = .finished

instance (t : Tournament) : Decidable (FinalsInPlay t) :=
  inferInstanceAs (Decidable (t.finals ≠ none → t.state = .playing ∨ t.state = .finished))

/-- The events that may end the finals phase: `CancelFinals` and an archived sheet. -/
def TournamentEvent.endsFinals : TournamentEvent → Bool
  | .cancelFinals => true
  | .setArchivalResults _ => true
  | _ => false

/-- The accepted event left the finals phase alone. -/
def FinalsKept (t t' : Tournament) (i : EventInput) : Prop :=
  t.finals ≠ none → i.event.endsFinals = false → t'.rounds.length = t.rounds.length

instance (t t' : Tournament) (i : EventInput) : Decidable (FinalsKept t t' i) :=
  inferInstanceAs (Decidable (t.finals ≠ none → i.event.endsFinals = false →
    t'.rounds.length = t.rounds.length))

/-! ### The condition on an event -/

/-- With a finals table, `CancelRound` spares the last round, and neither it nor `FinishRound`
leaves a playing tournament without a live preliminary table. -/
def KeepsFinals (t : Tournament) (i : EventInput) : Prop :=
  t.finals ≠ none →
    match i.event with
    | .cancelRound round =>
      let last := t.rounds.length - 1
      round.getD last ≠ last ∧ (t.state = .playing →
        allRoundsFinished { t with rounds := cancelledRounds t.rounds (round.getD last) } = false)
    | .finishRound _ => t.state = .playing → allRoundsFinished t = false
    | _ => True

instance (t : Tournament) (i : EventInput) : Decidable (KeepsFinals t i) := by
  unfold KeepsFinals
  refine @instDecidableForall _ _ _ ?_
  generalize i.event = e
  induction e using TournamentEvent.casesOn <;> infer_instance

section FinalsPhase

variable {rs : RandomSource} {t t' : Tournament} {i : EventInput}

theorem finalsInPlay_updateStandings {s : List Sanction} :
    FinalsInPlay (updateStandings t s) ↔ FinalsInPlay t := by
  unfold FinalsInPlay
  rw [updateStandings_state, ne_eq, updateStandings_finals_eq_none]

theorem FinalsInPlay.of_same (h : FinalsInPlay t) (hfinals : t'.finals = t.finals)
    (hstate : t'.state = t.state) : FinalsInPlay t' := by
  unfold FinalsInPlay
  rw [hfinals, hstate]
  exact h

theorem finalsInPlay_of_state (h : t.state = .playing ∨ t.state = .finished) : FinalsInPlay t :=
  fun _ => h

theorem finalsInPlay_of_none (h : t.finals = none) : FinalsInPlay t := fun hne => absurd h hne

theorem FinalsInPlay.none_of_state (h : FinalsInPlay t) (hplay : t.state ≠ .playing)
    (hdone : t.state ≠ .finished) : t.finals = none := by
  by_contra hne
  rcases h hne with hs | hs
  · exact hplay hs
  · exact hdone hs

theorem finalsInPlay_finishRoundDoc (h : FinalsInPlay t) (hok : KeepsFinals t i)
    {round : Option ℕ} (he : i.event = .finishRound round) (target : ℕ) :
    FinalsInPlay (finishRoundDoc t target) := by
  intro hne
  have hne' : t.finals ≠ none := hne
  simp only [KeepsFinals, he] at hok
  unfold finishRoundDoc
  rcases h hne' with hs | hs
  · simp [hs, hok hne' hs]
  · simp [hs]

theorem finalsInPlay_cancelRoundDoc (h : FinalsInPlay t) (hok : KeepsFinals t i)
    {round : Option ℕ} (he : i.event = .cancelRound round) (hrounds : t.rounds ≠ []) :
    FinalsInPlay (cancelRoundDoc t (round.getD (t.rounds.length - 1))) := by
  intro hne
  have hne' : t.finals ≠ none := hne
  simp only [KeepsFinals, he] at hok
  obtain ⟨hlast, hlive⟩ := hok hne'
  unfold cancelRoundDoc
  extract_lets cut
  have hcut : cut.rounds.isEmpty = false := by simp [cut, cancelledRounds, hlast, hrounds]
  rcases h hne' with hs | hs
  · have hall : allRoundsFinished cut = false := hlive hs
    simp [hs, hall, hcut]
  · simp [hs]

theorem FinalsInPlay.step (h : FinalsInPlay t) (hok : KeepsFinals t i) (heff : Effect rs t i t') :
    FinalsInPlay t' := by
  cases heff with
  | quiet _ hq => exact h.of_same hq.finals hq.state
  | openRegistration _ hs | closeRegistration _ hs | cancelRegistration _ hs =>
    exact finalsInPlay_of_none (h.none_of_state (by simp [hs]) (by simp [hs]))
  | reopenRegistration _ hs =>
    exact finalsInPlay_of_none (h.none_of_state (by simp [hs]) (by simp [hs]))
  | register | addPlayer | leave | dropOut | checkIn | checkOut | checkInAll | resetCheckIn
  | setWaitlisted | addTable | removeTable | setToss | randomToss | archival =>
    exact h.of_same rfl rfl
  | setNonCompeting | swapRound | scoreTable | overrideTable | unoverrideTable | seatPlayer
  | unseatPlayer =>
    rw [finalsInPlay_updateStandings]
    exact h.of_same rfl rfl
  | swapFinals _ _ _ _ _ f _ _ _ hf | reseatFinals _ _ f _ _ _ _ hf
  | scoreFinals _ _ _ f _ _ _ _ _ hf | overrideFinals _ _ _ f _ _ _ _ hf
  | unoverrideFinals _ _ f _ _ _ _ hf =>
    rw [finalsInPlay_updateStandings]
    exact finalsInPlay_of_state (h (by simp [hf]))
  | startRound _ _ _ _ hf | selfOrganizeRound _ _ _ _ hf => exact finalsInPlay_of_none hf
  | finishRound round tables he =>
    rw [finalsInPlay_updateStandings]
    exact finalsInPlay_finishRoundDoc h hok he _
  | cancelRound round he _ hrounds =>
    rw [finalsInPlay_updateStandings]
    exact finalsInPlay_cancelRoundDoc h hok he hrounds
  | restoreRound _ _ _ _ hf =>
    rw [finalsInPlay_updateStandings]
    exact finalsInPlay_of_none hf
  | reseatRound =>
    rw [finalsInPlay_updateStandings]
    exact h.of_same (alterSeatingDoc_finals _ _ _ _ _) (alterSeatingDoc_state _ _ _ _ _)
  | startFinals _ hs =>
    refine finalsInPlay_of_state ?_
    rcases hs with hs | hs <;> simp [startFinalsDoc, hs]
  | finishFinals | finishTournament =>
    rw [finalsInPlay_updateStandings]
    exact finalsInPlay_of_state (.inr rfl)
  | cancelFinals =>
    rw [finalsInPlay_updateStandings]
    exact finalsInPlay_of_none rfl
  | reopenTournament =>
    rw [finalsInPlay_updateStandings]
    intro hne
    have hsome : t.finals.isSome = true := Option.isSome_iff_ne_none.2 hne
    simp [reopenTournamentDoc, hsome]

theorem finalsKept_of_effect (hok : KeepsFinals t i) (heff : Effect rs t i t') :
    FinalsKept t t' i := by
  intro hne hends
  cases heff with
  | quiet _ hq => rw [hq.rounds]
  | openRegistration | closeRegistration | cancelRegistration | reopenRegistration | register
  | addPlayer | leave | dropOut | checkIn | checkOut | checkInAll | resetCheckIn | setWaitlisted
  | setToss | randomToss | startFinals => rfl
  | startRound _ _ _ _ hf | selfOrganizeRound _ _ _ _ hf => exact absurd hf hne
  | restoreRound _ _ _ _ hf => exact absurd hf hne
  | cancelRound round he =>
    simp only [KeepsFinals, he] at hok
    rw [updateStandings_length]
    simp [cancelRoundDoc, cancelledRounds, (hok hne).1]
  | reseatRound => simp [rounds_alterSeatingDoc]
  | cancelFinals he | archival _ he => simp [he, TournamentEvent.endsFinals] at hends
  | _ => simp [seatPlayerDoc, unseatPlayerDoc, demoteUnseatedPlayers, modifyTable, finishRoundDoc,
      finishFinalsDoc, reopenTournamentDoc]

/-- In every run whose events meet the condition, a tournament with a finals table is playing or
finished, and such an event keeps the number of its rounds. -/
theorem finalsPhase_of_reaches (h : (engineSystem rs).Reaches KeepsFinals t) :
    FinalsInPlay t ∧ ∀ i t', KeepsFinals t i → acceptEvent rs t i = .ok t' → FinalsKept t t' i := by
  refine ⟨?_, fun i t' hok hs => finalsKept_of_effect hok (effect_of_acceptEvent hs)⟩
  refine h.invariant (fun t ht => ?_) fun t i t' hp hok hs => hp.step hok (effect_of_acceptEvent hs)
  obtain ⟨request, actor, ht⟩ := ht
  rw [createTournament_eq ht]
  exact finalsInPlay_of_none rfl

end FinalsPhase

/-! ### Runs into the finals -/

/-- A round of five at one table, timed out. -/
def roundOfFive (round : ℕ) : List TournamentEvent :=
  [.startRound (some [["a", "b", "c", "d", "e"]]), .override round 0 "timed out",
    .finishRound none]

/-- Two rounds, tosses for the seeding, and the finals start. -/
def intoFinals : List TournamentEvent :=
  gathering ["a", "b", "c", "d", "e"] ++ roundOfFive 0 ++ roundOfFive 1 ++
    [.setToss "a" 5, .setToss "b" 4, .setToss "c" 3, .setToss "d" 2, .setToss "e" 1,
      .startFinals]

theorem intoFinals_finalsPhase :
    ∃ t, (t.finals.isSome = true ∧ t.rounds.length = 2) ∧ FinalsInPlay t ∧
      ∀ i t', KeepsFinals t i → acceptEvent fixedOrder t i = .ok t' → FinalsKept t t' i := by
  obtain ⟨t, ht, hp⟩ := exists_reaches_of_replay KeepsFinals (intoFinals.map sent)
    (fun t => t.finals.isSome && t.rounds.length == 2) (by decide +kernel)
  exact ⟨t, by simpa using hp, finalsPhase_of_reaches ht⟩

/-- Cancelling the last round under a running final drops it, which moves the finals' index, and
leaves the finals table in a waiting tournament. -/
theorem intoFinals_cancelRound :
    ∃ t t', (engineSystem fixedOrder).Reachable t ∧
      acceptEvent fixedOrder t (sent (.cancelRound none)) = .ok t' ∧
        ¬FinalsInPlay t' ∧ ¬FinalsKept t t' (sent (.cancelRound none)) := by
  obtain ⟨t, ht, hp⟩ := exists_reaches_of_replay anyEvent (intoFinals.map sent)
    (fun t => leadsTo t (sent (.cancelRound none)) fun t' =>
      !decide (FinalsInPlay t') && !decide (FinalsKept t t' (sent (.cancelRound none))))
    (by decide +kernel)
  obtain ⟨t', h, hp⟩ := exists_of_leadsTo hp
  exact ⟨t, t', ht, h, by simpa using hp⟩

end Archon.Engine

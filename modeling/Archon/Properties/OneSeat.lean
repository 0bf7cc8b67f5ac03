import Archon.Engine.Scenario
import Archon.Engine.Shape

/-!
# One seat per round

Nobody holds two seats of a round as long as `SeatPlayer` is not sent for a player the round
already seats, and `StartRound` not while the field lists somebody twice. The first happens after
the finish: a seated player is `Finished` there, a state `SeatPlayer` accepts.
-/

namespace Archon.Engine
open Guards Seating

/-- Over all tables of a round, every player holds at most one seat. -/
def SeatedOnce (t : Tournament) : Prop := ∀ round ∈ t.rounds, (roundUids round).Nodup

instance (t : Tournament) : Decidable (SeatedOnce t) :=
  inferInstanceAs (Decidable (∀ round ∈ t.rounds, (roundUids round).Nodup))

/-- The event gives no player a second seat of a round. -/
def SeatsOnce (t : Tournament) (i : EventInput) : Prop :=
  match i.event with
  | .startRound _ => (playersToSeat t).Nodup
  | .seatPlayer uid _ _ round =>
    uid ∉ roundUids ((t.rounds[round.getD (t.rounds.length - 1)]?).getD [])
  | _ => True

instance (t : Tournament) (i : EventInput) : Decidable (SeatsOnce t i) := by
  unfold SeatsOnce
  generalize i.event = e
  induction e using TournamentEvent.casesOn <;> infer_instance

section OneSeat

variable {rs : RandomSource} {t t' : Tournament} {i : EventInput}

theorem seatedOnce_iff : SeatedOnce t ↔ ∀ uids ∈ roundsUids t.rounds, uids.Nodup := by
  simp [SeatedOnce, roundsUids]

theorem seatedOnce_updateStandings {s : List Sanction} :
    SeatedOnce (updateStandings t s) ↔ SeatedOnce t := by
  rw [seatedOnce_iff, seatedOnce_iff, roundsUids_updateStandings]

theorem SeatedOnce.of_rounds (h : SeatedOnce t) (hrounds : t'.rounds = t.rounds) :
    SeatedOnce t' := by
  rw [SeatedOnce, hrounds]
  exact h

theorem SeatedOnce.modifyRound (h : SeatedOnce t) {r : ℕ} {f : List Table → List Table}
    (hrounds : t'.rounds = t.rounds.modify r f)
    (hf : ∀ round, t.rounds[r]? = some round → (roundUids round).Nodup →
      (roundUids (f round)).Nodup) :
    SeatedOnce t' := by
  rw [seatedOnce_iff] at h ⊢
  rw [hrounds]
  intro uids huids
  rcases mem_roundsUids_modify huids with hold | ⟨round, hround, rfl⟩
  · exact h uids hold
  · exact hf round hround (h _ (List.mem_map_of_mem (List.mem_of_getElem? hround)))

theorem roundsUids_startRoundDoc (seating : List (List Uid)) :
    roundsUids (startRoundDoc t seating).rounds = roundsUids t.rounds ++ [seating.flatten] := by
  simp only [startRoundDoc, roundsUids_append]
  simp only [roundsUids, List.map_cons, List.map_nil, roundUids_fresh]

theorem roundsUids_selfOrganizeDoc (actor : Uid) (uids : List Uid) (seating : List (List Uid)) :
    roundsUids (selfOrganizeDoc t actor uids seating).rounds =
      roundsUids t.rounds ++ [seating.flatten] := by
  simp only [selfOrganizeDoc, roundsUids_append]
  simp only [roundsUids, List.map_cons, List.map_nil, roundUids_fresh]

theorem SeatedOnce.step (h : SeatedOnce t) (hok : SeatsOnce t i) (heff : Effect rs t i t') :
    SeatedOnce t' := by
  cases heff with
  | quiet _ hq => exact h.of_rounds hq.rounds
  | openRegistration | closeRegistration | cancelRegistration | reopenRegistration | register
  | addPlayer | leave | dropOut | checkIn | checkOut | checkInAll | resetCheckIn | setWaitlisted
  | setToss | randomToss | startFinals | archival => exact h.of_rounds rfl
  | setNonCompeting | finishRound | swapFinals | reseatFinals | scoreFinals | overrideFinals
  | unoverrideFinals | finishFinals | cancelFinals | finishTournament | reopenTournament =>
    rw [seatedOnce_updateStandings]
    exact h.of_rounds rfl
  | startRound _ seating he _ _ hseating =>
    simp only [SeatsOnce, he] at hok
    rw [seatedOnce_iff, roundsUids_startRoundDoc, List.forall_mem_append]
    refine ⟨seatedOnce_iff.1 h, ?_⟩
    simpa using (roundSeating_perm hseating).nodup_iff.2 hok
  | selfOrganizeRound uids seating _ _ _ hnodup _ hperm =>
    rw [seatedOnce_iff, roundsUids_selfOrganizeDoc, List.forall_mem_append]
    exact ⟨seatedOnce_iff.1 h, by simpa using hperm.nodup_iff.2 hnodup⟩
  | cancelRound round =>
    rw [seatedOnce_updateStandings, seatedOnce_iff]
    exact fun uids huids =>
      seatedOnce_iff.1 h uids ((roundsUids_cancelledRounds t.rounds _).subset huids)
  | restoreRound target tables _ _ _ hround =>
    rw [seatedOnce_updateStandings, seatedOnce_iff, restoreRoundDoc,
      roundsUids_set_restored hround]
    exact seatedOnce_iff.1 h
  | swapRound round t1 s1 t2 s2 =>
    rw [seatedOnce_updateStandings]
    refine h.modifyRound rfl fun tables _ hn => ?_
    exact (roundUids_swapRound_perm tables t1 s1 t2 s2).nodup_iff.2 hn
  | reseatRound round seating tables _ _ _ _ _ hnodup =>
    rw [seatedOnce_updateStandings, seatedOnce_iff, rounds_alterSeatingDoc]
    intro uids huids
    rcases mem_roundsUids_set huids with hold | rfl
    · exact seatedOnce_iff.1 h uids hold
    · rw [roundUids_reseatRound]
      exact hnodup
  | seatPlayer uid table seat round target p tables tb he _ _ _ htarget hround htb =>
    simp only [SeatsOnce, he, ← resolveLiveRound_ok htarget, hround, Option.getD_some] at hok
    rw [seatedOnce_updateStandings]
    refine h.modifyRound rfl fun tables' hround' hn => ?_
    obtain rfl : tables = tables' := Option.some.inj (hround.symm.trans hround')
    exact (roundUids_insertSeat_perm htb seat uid).nodup_iff.2 (List.nodup_cons.2 ⟨hok, hn⟩)
  | unseatPlayer uid =>
    rw [seatedOnce_updateStandings]
    refine h.modifyRound rfl fun tables _ hn => ?_
    exact hn.sublist (roundUids_removeSeat uid tables)
  | addTable =>
    refine h.modifyRound rfl fun tables _ hn => ?_
    simpa [roundUids, Table.fresh, Table.uids] using hn
  | removeTable table =>
    exact h.modifyRound rfl fun tables _ hn => hn.sublist (roundUids_eraseIdx tables table)
  | scoreTable round table scores tables tb written _ _ hround htb hw =>
    rw [seatedOnce_updateStandings]
    refine h.modifyRound rfl fun tables' hround' hn => ?_
    obtain rfl : tables = tables' := Option.some.inj (hround.symm.trans hround')
    rwa [roundUids_modify_of_uids]
    intro tb' htb'
    obtain rfl : tb = tb' := Option.some.inj (htb.symm.trans htb')
    exact reportTable_uids hw
  | overrideTable | unoverrideTable =>
    rw [seatedOnce_updateStandings]
    refine h.modifyRound rfl fun tables' _ hn => ?_
    rwa [roundUids_modify_of_uids]
    exact fun _ _ => rfl

/-- In every run that seats nobody twice, no state has a double seat. -/
theorem seatedOnce_of_reaches (h : (engineSystem rs).Reaches SeatsOnce t) : SeatedOnce t := by
  refine h.invariant (fun t ht => ?_) fun t i t' hp hok hs => hp.step hok (effect_of_acceptEvent hs)
  obtain ⟨request, actor, ht⟩ := ht
  rw [createTournament_eq ht]
  exact fun round hround => absurd hround List.not_mem_nil

/-- A round played to its end and one more seat at its table. -/
def seatedLate : List TournamentEvent :=
  gathering ["a", "b", "c", "d", "e"] ++
    [.checkOut "e", .startRound (some [["a", "b", "c", "d"]]), .override 0 0 "timed out",
      .seatPlayer "e" 0 4 none, .finishTournament]

theorem seatedLate_seatedOnce :
    ∃ t, (t.rounds.map roundUids = [["a", "b", "c", "d", "e"]] ∧ t.state = .finished) ∧
      SeatedOnce t := by
  obtain ⟨t, ht, hp⟩ := exists_reaches_of_replay SeatsOnce (seatedLate.map sent)
    (fun t => t.rounds.map roundUids == [["a", "b", "c", "d", "e"]] && t.state == .finished)
    (by decide +kernel)
  exact ⟨t, by simpa using hp, seatedOnce_of_reaches ht⟩

end OneSeat

/-! ### The defect -/

/-- One round is played, the tournament is finished, then the organizer seats a player of the
round again. -/
def seatedAgain : List TournamentEvent :=
  gathering ["a", "b", "c", "d"] ++
    [.startRound (some [["a", "b", "c", "d"]]), .override 0 0 "timed out", .finishTournament,
      .seatPlayer "a" 0 0 none]

/-- After the finish `SeatPlayer` seats a player twice at one table. -/
theorem seatedAgain_not_seatedOnce :
    ∃ t, (engineSystem fixedOrder).Reachable t ∧ ¬SeatedOnce t := by
  obtain ⟨t, ht, hp⟩ := exists_reaches_of_replay anyEvent (seatedAgain.map sent)
    (fun t => !decide (SeatedOnce t)) (by decide +kernel)
  exact ⟨t, ht, by simpa using hp⟩

end Archon.Engine

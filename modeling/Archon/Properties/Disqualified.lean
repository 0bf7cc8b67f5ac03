import Archon.Backend.Sanctions
import Archon.Engine.Scenario
import Archon.Engine.Shape

/-!
# Disqualified players

`Disqualified` should be lifted by the sanction route alone. `DropOut` finishes a disqualified
player like any other, and `CancelFinals` checks a disqualified finalist in again.
-/

namespace Archon.Engine
open Guards Seating

/-- The state of the player, read from the entry the handlers find. -/
def playerState (players : List Player) (uid : Uid) : Option PlayerState :=
  (findPlayer players uid).map Player.state

/-- The player is on the roster and disqualified. -/
def IsDisqualified (players : List Player) (uid : Uid) : Prop :=
  playerState players uid = some .disqualified

instance (players : List Player) (uid : Uid) : Decidable (IsDisqualified players uid) :=
  inferInstanceAs (Decidable (playerState players uid = some .disqualified))

/-- Whoever is disqualified in the one roster is in the other. -/
def KeepsDq (players players' : List Player) : Prop :=
  ∀ uid, IsDisqualified players uid → IsDisqualified players' uid

/-- The events that take entries off the roster: removals and an archived sheet. -/
def TournamentEvent.takesOff : TournamentEvent → Bool
  | .unregister _ => true
  | .removePlayer _ => true
  | .setArchivalResults _ => true
  | _ => false

/-- No disqualified player drops out, and finals are not cancelled with one marked finalist. -/
def SparesDisqualified (t : Tournament) (i : EventInput) : Prop :=
  match i.event with
  | .dropOut uid => ¬IsDisqualified t.players uid
  | .cancelFinals => ∀ p ∈ t.players, p.finalist = true → ∀ uid ∈ p.userUid,
      findPlayer t.players uid = some p → p.state ≠ .disqualified
  | _ => True

instance (t : Tournament) (i : EventInput) : Decidable (SparesDisqualified t i) := by
  unfold SparesDisqualified
  generalize i.event = e
  induction e using TournamentEvent.casesOn <;> infer_instance

section Disqualified

variable {rs : RandomSource} {t t' : Tournament} {i : EventInput} {uid : Uid}
variable {players : List Player} {f : Player → Player}

/-! ### Rewritten rosters -/

theorem isDisqualified_iff :
    IsDisqualified players uid ↔ ∃ p, findPlayer players uid = some p ∧ p.state = .disqualified :=
  Option.map_eq_some_iff

theorem KeepsDq.refl (players : List Player) : KeepsDq players players := fun _ h => h

theorem KeepsDq.trans {ps qs rs : List Player} (h : KeepsDq ps qs) (h' : KeepsDq qs rs) :
    KeepsDq ps rs :=
  fun uid hd => h' uid (h uid hd)

theorem keepsDq_map (hf : ∀ p, (f p).userUid = p.userUid)
    (h : ∀ uid p, findPlayer players uid = some p → p.state = .disqualified →
      (f p).state = .disqualified) : KeepsDq players (players.map f) := by
  intro uid hd
  obtain ⟨p, hp, hs⟩ := isDisqualified_iff.1 hd
  exact isDisqualified_iff.2 ⟨f p, by rw [findPlayer_map hf, hp, Option.map_some], h uid p hp hs⟩

theorem keepsDq_update (hf : ∀ p, (f p).userUid = p.userUid)
    (h : ∀ p, findPlayer players uid = some p → p.state = .disqualified →
      (f p).state = .disqualified) : KeepsDq players (updatePlayer players uid f) := by
  intro u hd
  obtain ⟨p, hp, hs⟩ := isDisqualified_iff.1 hd
  by_cases hu : u = uid
  · subst hu
    exact isDisqualified_iff.2
      ⟨f p, by rw [findPlayer_update_self hf, hp, Option.map_some], h p hp hs⟩
  · exact isDisqualified_iff.2 ⟨p, by rw [findPlayer_update_ne hf hu, hp], hs⟩

theorem keepsDq_push (p : Player) : KeepsDq players (players ++ [p]) := by
  intro uid hd
  obtain ⟨q, hq, hs⟩ := isDisqualified_iff.1 hd
  exact isDisqualified_iff.2 ⟨q, findPlayer_push hq p, hs⟩

theorem keepsDq_sameEntry {ps qs : List Player} (h : List.Forall₂ SameEntry ps qs) :
    KeepsDq ps qs := by
  intro uid hd
  obtain ⟨p, hp, hs⟩ := isDisqualified_iff.1 hd
  obtain ⟨q, hq, hpq⟩ := findPlayer_sameEntry h hp
  exact isDisqualified_iff.2 ⟨q, hq, hpq.state.trans hs⟩

theorem keepsDq_foldl {α : Type} {g : List Player → α → List Player}
    (hg : ∀ ps a, KeepsDq ps (g ps a)) (as : List α) : KeepsDq players (as.foldl g players) := by
  induction as generalizing players with
  | nil => exact KeepsDq.refl players
  | cons a as ih => exact (hg players a).trans ih

theorem keepsDq_tossedPlayers (sanctions : List Sanction) :
    KeepsDq t.players (tossedPlayers t sanctions) := by
  refine tossedPlayers_induction t (KeepsDq t.players) sanctions (KeepsDq.refl _) ?_
  intro ps uid toss hps
  exact hps.trans (keepsDq_update (fun _ => rfl) fun _ _ hs => hs)

theorem keepsDq_demote (t : Tournament) (unseated : List Uid) (r : ℕ) :
    KeepsDq t.players (demoteUnseatedPlayers t unseated r).players := by
  refine keepsDq_map (fun p => ?_) fun uid p _ hs => ?_
  · split
    · split <;> rfl
    · rfl
  · split
    · simp [hs]
    · exact hs

theorem keepsDq_joinPlayer (state : TournamentState) (sanctions : List Sanction)
    (ps : List Player) (uid : Uid) : KeepsDq ps (joinPlayer state sanctions ps uid) := by
  rw [joinPlayer_eq]
  split
  · refine keepsDq_update (joinedEntry_userUid state) fun p _ hs => ?_
    rw [joinedEntry, if_pos hs, hs]
  · exact KeepsDq.refl ps

/-! ### The qualifiers -/

theorem not_isDisqualified_of_qualifiers {sanctions : List Sanction}
    (h : uid ∈ qualifiers t sanctions) : ¬IsDisqualified t.players uid := by
  obtain ⟨s, hs, rfl⟩ := List.mem_map.1 h
  obtain ⟨hrow, hcand⟩ := List.mem_filter.1 (List.mem_of_mem_take hs)
  rw [computePreliminaryStandings, sortByRank, List.mem_insertionSort] at hrow
  obtain ⟨e, -, rfl⟩ := List.mem_map.1 hrow
  intro hd
  obtain ⟨p, hp, hstate⟩ := isDisqualified_iff.1 hd
  have hp' : findPlayer t.players e.1 = some p := hp
  simp [prelimRow, hp', hstate] at hcand

theorem findPlayer_markFinalists {uids : List Uid} (h : uid ∉ uids) :
    findPlayer (uids.foldl markFinalist players) uid = findPlayer players uid := by
  induction uids generalizing players with
  | nil => rfl
  | cons a uids ih =>
    rw [List.mem_cons, not_or] at h
    rw [List.foldl_cons, ih h.2, markFinalist, findPlayer_update_ne ?_ h.1]
    exact fun _ => rfl

theorem keepsDq_startFinals (sanctions : List Sanction) :
    KeepsDq t.players (startFinalsDoc t (qualifiers t sanctions)).players := by
  intro uid hd
  have hout : uid ∉ qualifiers t sanctions := fun h => not_isDisqualified_of_qualifiers h hd
  rwa [IsDisqualified, playerState, startFinalsDoc, findPlayer_markFinalists hout]

/-! ### One event -/

theorem keepsDq_update_of_ne {p : Player} (hf : ∀ p, (f p).userUid = p.userUid)
    (hp : findPlayer players uid = some p) (hs : p.state ≠ .disqualified) :
    KeepsDq players (updatePlayer players uid f) := by
  refine keepsDq_update hf fun q hq hd => absurd hd ?_
  obtain rfl : p = q := Option.some.inj (hp.symm.trans hq)
  exact hs

theorem withState_userUid (state : PlayerState) (p : Player) :
    (p.withState state).userUid = p.userUid := rfl

theorem keepsDq_dropOut {p : Player} (hp : findPlayer t.players uid = some p) :
    KeepsDq t.players (updatePlayer t.players uid (Player.withState .finished)) ↔
      ¬IsDisqualified t.players uid := by
  constructor
  · intro h hd
    have hafter := h uid hd
    rw [IsDisqualified, playerState, findPlayer_update_self (withState_userUid _), hp] at hafter
    simp [Player.withState] at hafter
  · intro hnot
    refine keepsDq_update_of_ne (fun _ => rfl) hp fun hs => hnot ?_
    exact isDisqualified_iff.2 ⟨p, hp, hs⟩

theorem keepsDq_cancelFinals (he : i.event = .cancelFinals) :
    KeepsDq t.players (t.players.map (cancelFinalsEntry t)) ↔ SparesDisqualified t i := by
  simp only [SparesDisqualified, he]
  constructor
  · intro h p hp hfin uid hu hfound hs
    have hafter := h uid (isDisqualified_iff.2 ⟨p, hfound, hs⟩)
    rw [IsDisqualified, playerState, findPlayer_map (userUid_cancelFinalsEntry t), hfound,
      Option.map_some, Option.map_some, cancelFinalsEntry, if_pos hfin] at hafter
    dsimp only at hafter
    split at hafter <;> simp at hafter
  · intro h
    refine keepsDq_map (userUid_cancelFinalsEntry t) fun uid p hp hs => ?_
    obtain ⟨hmem, hu⟩ := findPlayer_mem hp
    have hfin : ¬p.finalist = true := fun hfin => h p hmem hfin uid hu hp hs
    rw [cancelFinalsEntry, if_neg hfin, hs]

theorem keepsDq_restoreRound {target : ℕ} {tables : List Table}
    (hall : ∀ uid ∈ tables.flatMap Table.uids, checkRestorable t uid = .ok ⟨⟩) :
    KeepsDq t.players (restoreRoundDoc t target tables).players := by
  refine keepsDq_map (onlyState_restoreRoundEntry _ _ _).userUid fun uid p hp hs => ?_
  obtain ⟨-, hu⟩ := findPlayer_mem hp
  have hout : uid ∉ tables.flatMap Table.uids := by
    intro hmem
    have hcheck := hall uid hmem
    simp only [checkRestorable, ensure_bind_eq_ok] at hcheck
    simpa [hp, hs] using hcheck.1
  simp only [restoreRoundEntry, hu]
  rw [if_neg fun hc => hout hc.1, hs]

theorem keepsDq_finishEntry (players : List Player) : KeepsDq players (players.map finishEntry) :=
  keepsDq_map onlyState_finishEntry.userUid fun uid p _ hs => by rw [finishEntry, if_pos hs, hs]

theorem keepsDq_alterSeating {sanctions : List Sanction} {round : ℕ} {tables : List Table}
    {seating : List (List Uid)} :
    KeepsDq t.players (alterSeatingDoc t sanctions round tables seating).players := by
  unfold alterSeatingDoc
  extract_lets reseated
  split
  · unfold reseatRoster
    extract_lets joined left
    refine KeepsDq.trans ?_ (keepsDq_demote _ left round)
    exact keepsDq_foldl (keepsDq_joinPlayer reseated.state sanctions) joined
  · exact KeepsDq.refl _

theorem keepsDq_of_effect (hoff : i.event.takesOff = false) (hok : SparesDisqualified t i)
    (heff : Effect rs t i t') : KeepsDq t.players t'.players := by
  cases heff with
  | quiet _ hq => exact keepsDq_sameEntry hq.players
  | openRegistration | closeRegistration | cancelRegistration | addTable | removeTable =>
    exact KeepsDq.refl _
  | reopenRegistration =>
    refine keepsDq_map onlyState_ite.userUid fun uid p _ hs => ?_
    simp [hs]
  | register | addPlayer => exact keepsDq_push _
  | leave uid idx he => rcases he with he | he <;> simp [he, TournamentEvent.takesOff] at hoff
  | dropOut uid p he _ hp =>
    simp only [SparesDisqualified, he] at hok
    exact (keepsDq_dropOut hp).2 hok
  | checkIn uid _ name players p _ _ hplayers hp hs =>
    have hadmitted : KeepsDq t.players players := by
      rcases hplayers with rfl | ⟨-, -, rfl⟩
      · exact KeepsDq.refl _
      · exact keepsDq_push _
    exact hadmitted.trans (keepsDq_update_of_ne (userUid_checkedInEntry t i.decks uid name) hp hs)
  | checkOut uid p _ _ hp hs => exact keepsDq_update_of_ne (fun _ => rfl) hp (by simp [hs])
  | checkInAll =>
    refine keepsDq_map onlyState_ite.userUid fun uid p _ hs => ?_
    simp [checksInAll, hs]
  | resetCheckIn =>
    refine keepsDq_map onlyState_ite.userUid fun uid p _ hs => ?_
    simp [hs]
  | setNonCompeting =>
    rw [updateStandings_players]
    exact keepsDq_update (fun _ => rfl) fun _ _ hs => hs
  | setWaitlisted | setToss => exact keepsDq_update (fun _ => rfl) fun _ _ hs => hs
  | startRound =>
    refine keepsDq_map (onlyState_startRoundEntry _ _).userUid fun uid p _ hs => ?_
    simp [startRoundEntry, hs]
  | selfOrganizeRound uids seating _ _ _ _ hall =>
    refine keepsDq_map (onlyState_selfOrganizeEntry _).userUid fun uid p hp hs => ?_
    have hout : uid ∉ uids := by
      intro hmem
      obtain ⟨q, hq, hne, -⟩ := checkSelfOrganized_ok (hall uid hmem)
      obtain rfl : p = q := Option.some.inj (hp.symm.trans hq)
      exact hne hs
    simp [selfOrganizeEntry, (findPlayer_mem hp).2, hout, hs]
  | finishRound =>
    rw [updateStandings_players]
    refine keepsDq_map (onlyState_finishRoundEntry t _).userUid fun uid p _ hs => ?_
    unfold finishRoundEntry
    split <;> simp [hs]
  | cancelRound =>
    rw [updateStandings_players]
    refine keepsDq_map (onlyState_cancelRoundEntry _ _).userUid fun uid p _ hs => ?_
    unfold cancelRoundEntry
    split <;> simp [hs]
  | restoreRound _ _ _ _ _ _ _ hall =>
    rw [updateStandings_players]
    exact keepsDq_restoreRound hall
  | swapFinals | swapRound | reseatFinals | scoreFinals | scoreTable | overrideFinals
  | overrideTable | unoverrideFinals | unoverrideTable =>
    rw [updateStandings_players]
    exact KeepsDq.refl _
  | reseatRound =>
    rw [updateStandings_players]
    exact keepsDq_alterSeating
  | seatPlayer uid _ _ _ _ p _ _ _ _ hp hs =>
    rw [updateStandings_players]
    refine keepsDq_update_of_ne (fun _ => rfl) hp fun hd => ?_
    simp [seatable, hd] at hs
  | unseatPlayer uid _ target =>
    rw [updateStandings_players]
    exact keepsDq_demote { t with rounds := t.rounds.modify target (removeSeat uid) } [uid] target
  | randomToss => exact keepsDq_tossedPlayers i.sanctions
  | startFinals => exact keepsDq_startFinals i.sanctions
  | finishFinals | finishTournament =>
    rw [updateStandings_players]
    exact keepsDq_finishEntry t.players
  | cancelFinals he =>
    rw [updateStandings_players]
    exact (keepsDq_cancelFinals he).2 hok
  | reopenTournament =>
    rw [updateStandings_players]
    refine keepsDq_map (onlyState_reopenEntry t).userUid fun uid p _ hs => ?_
    simp [reopenEntry, hs]
  | archival sheet he => simp [he, TournamentEvent.takesOff] at hoff

theorem sparesDisqualified_of_keepsDq (h : acceptEvent rs t i = .ok t')
    (hkeep : KeepsDq t.players t'.players) : SparesDisqualified t i := by
  obtain ⟨ops, h⟩ := acceptEvent_eq_ok.1 h
  unfold SparesDisqualified
  split <;> rename_i he
  · rename_i uid
    simp only [applyEvent, he, dropOut, ensure_bind_eq_ok, okOr_bind_eq_ok, pure_eq_ok,
      Prod.mk.injEq] at h
    obtain ⟨-, p, hp, -, -, rfl, -⟩ := h
    exact (keepsDq_dropOut hp).1 hkeep
  · simp only [applyEvent, he, cancelFinals, requireOrganizer, requireState, ensure_bind_eq_ok,
      pure_eq_ok, Prod.mk.injEq] at h
    obtain ⟨-, -, -, rfl, -⟩ := h
    rw [updateStandings_players] at hkeep
    simpa only [SparesDisqualified, he] using (keepsDq_cancelFinals he).1 hkeep
  · trivial

/-! ### Runs of a hosted tournament -/

/-- The input is an event that takes nobody off the roster and spares the disqualified players, or
a sanction that does not lift a disqualification. -/
def HostInput.Spares (t : Tournament) : HostInput → Prop
  | .event i => i.event.takesOff = false ∧ SparesDisqualified t i
  | .sanction change sanctions => ∀ d ∈ change.target t sanctions,
      IsDisqualified t.players d.1 → d.2 = .disqualified

theorem keepsDq_setPlayerState {target : Option (Uid × PlayerState)}
    (h : ∀ d ∈ target, IsDisqualified t.players d.1 → d.2 = .disqualified) :
    KeepsDq t.players (setPlayerState t target).players := by
  cases target with
  | none => exact KeepsDq.refl _
  | some d =>
    refine keepsDq_update (withState_userUid _) fun p hp hs => ?_
    exact h d rfl (isDisqualified_iff.2 ⟨p, hp, hs⟩)

theorem keepsDq_applySanction {sanctions : List Sanction} {change : SanctionChange}
    (h : ∀ d ∈ change.target t sanctions, IsDisqualified t.players d.1 → d.2 = .disqualified) :
    KeepsDq t.players (applySanctionToTournament t sanctions change).players := by
  unfold applySanctionToTournament
  extract_lets target marked
  have hmarked : KeepsDq t.players marked.players := keepsDq_setPlayerState h
  split
  · exact hmarked
  · refine hmarked.trans ?_
    rw [← updateStandings_players marked sanctions]
    refine keepsDq_setPlayerState fun d hd hdq => ?_
    -- the same state is set a second time, over the entry the first time set it on
    rw [updateStandings_players] at hdq
    have hd' : target = some d := hd
    simp only [marked, hd', setPlayerState, isDisqualified_iff,
      findPlayer_update_self (withState_userUid _), Option.map_eq_some_iff] at hdq
    obtain ⟨q, ⟨p, -, rfl⟩, hs⟩ := hdq
    exact hs

/-- In any document, an event that takes nobody off the roster keeps every disqualified player
exactly when none of them drops out and the finals are not cancelled over one of them; and in any
run of such events, and of sanctions that lift no disqualification, they stay disqualified. -/
theorem disqualified_stay (rs : RandomSource) (t : Tournament) :
    (∀ i t', acceptEvent rs t i = .ok t' → i.event.takesOff = false →
      (KeepsDq t.players t'.players ↔ SparesDisqualified t i)) ∧
    ∀ t', ((hostSystem rs).startedAt t).Reaches HostInput.Spares t' →
      KeepsDq t.players t'.players := by
  constructor
  · intro i t' h hoff
    exact ⟨sparesDisqualified_of_keepsDq h,
      fun hok => keepsDq_of_effect hoff hok (effect_of_acceptEvent h)⟩
  · intro t' h
    induction h with
    | init hs =>
      obtain rfl := hs
      exact KeepsDq.refl _
    | @step s i s' _ hok hs hkeep =>
      refine hkeep.trans ?_
      cases i with
      | event i => exact keepsDq_of_effect hok.1 hok.2 (effect_of_acceptEvent hs)
      | sanction change sanctions =>
        obtain rfl := Except.ok.inj hs
        exact keepsDq_applySanction hok

/-- A round is running. -/
def roundRunning : List TournamentEvent :=
  gathering ["a", "b", "c", "d"] ++ [.startRound (some [["a", "b", "c", "d"]])]

/-- The disqualification of a player, as the backend passes it along. -/
def dqOf (uid : Uid) : Sanction := ⟨uid, .disqualification, none, none, none, none⟩

/-- A player disqualified during a round stays so when the organizer finishes the tournament. -/
theorem roundRunning_disqualified_finish :
    ∃ t t', IsDisqualified t.players "a" ∧
      acceptEvent fixedOrder t (sent .finishTournament) = .ok t' ∧
        IsDisqualified t'.players "a" := by
  obtain ⟨t, -, hp⟩ := exists_reaches_of_replay anyEvent (roundRunning.map sent)
    (fun t =>
      let t := applySanctionToTournament t [dqOf "a"] (.disqualify "a")
      decide (IsDisqualified t.players "a") &&
        (acceptEvent fixedOrder t (sent .finishTournament)).isOk) (by decide +kernel)
  rw [Bool.and_eq_true, decide_eq_true_eq] at hp
  obtain ⟨hd, hok⟩ := hp
  cases h : acceptEvent fixedOrder (applySanctionToTournament t [dqOf "a"] (.disqualify "a"))
      (sent .finishTournament) with
  | error e => simp [h, Except.isOk, Except.toBool] at hok
  | ok t' =>
    refine ⟨_, t', hd, h, ?_⟩
    exact ((disqualified_stay fixedOrder _).1 (sent .finishTournament) t' h rfl).2 trivial "a" hd

end Disqualified

/-! ### The defect -/

/-- A player acting alone, with the disqualification among the sanctions. -/
def dropOutOf (uid : Uid) : EventInput :=
  ⟨.dropOut uid, ⟨uid, [], false, [], ""⟩, [dqOf uid], []⟩

/-- A player disqualified during a round drops out and is merely finished. -/
theorem roundRunning_disqualified_dropOut :
    ∃ t t', (hostSystem fixedOrder).Reachable t ∧ IsDisqualified t.players "a" ∧
      acceptEvent fixedOrder t (dropOutOf "a") = .ok t' ∧
        (dropOutOf "a").event.takesOff = false ∧ ¬IsDisqualified t'.players "a" := by
  obtain ⟨t, ht, hp⟩ := exists_reaches_of_replay anyEvent (roundRunning.map sent)
    (fun t =>
      let t := applySanctionToTournament t [dqOf "a"] (.disqualify "a")
      decide (IsDisqualified t.players "a") && leadsTo t (dropOutOf "a") fun t' =>
        !decide (IsDisqualified t'.players "a")) (by decide +kernel)
  rw [Bool.and_eq_true, decide_eq_true_eq] at hp
  obtain ⟨hd, hp⟩ := hp
  obtain ⟨t', h, hp⟩ := exists_of_leadsTo hp
  have hstep : (hostSystem fixedOrder).step t (.sanction (.disqualify "a") [dqOf "a"])
      (applySanctionToTournament t [dqOf "a"] (.disqualify "a")) := rfl
  exact ⟨_, t', (hostReachable_of_reachable ht).step hstep, hd, h, rfl, by simpa using hp⟩

end Archon.Engine

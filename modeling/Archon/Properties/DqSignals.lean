import Archon.Backend.RequestRows
import Archon.Properties.Disqualified
import Archon.Properties.LiftedDisqualification

/-!
# Two signals of a disqualification

A disqualified player is marked on the roster, and a sanction says so. No event marks anybody, and
whoever joins has no disqualification; a change to a sanction is reflected on the mark.
-/

namespace Archon.Engine
open Guards Seating

section Marks

variable {rs : RandomSource} {t t' : Tournament} {i : EventInput} {uid : Uid}
variable {players : List Player} {f : Player → Player}

/-! ### No event disqualifies -/

theorem keepsDq_of_map (hf : ∀ p, (f p).userUid = p.userUid)
    (h : ∀ p, (f p).state = .disqualified → p.state = .disqualified) :
    KeepsDq (players.map f) players := by
  intro uid hd
  obtain ⟨q, hq, hs⟩ := isDisqualified_iff.1 hd
  rw [findPlayer_map hf] at hq
  obtain ⟨p, hp, rfl⟩ := Option.map_eq_some_iff.1 hq
  exact isDisqualified_iff.2 ⟨p, hp, h p hs⟩

theorem keepsDq_of_update (hf : ∀ p, (f p).userUid = p.userUid)
    (h : ∀ p, (f p).state = .disqualified → p.state = .disqualified) :
    KeepsDq (updatePlayer players uid f) players := by
  intro u hd
  obtain ⟨q, hq, hs⟩ := isDisqualified_iff.1 hd
  by_cases hu : u = uid
  · subst hu
    rw [findPlayer_update_self hf] at hq
    obtain ⟨p, hp, rfl⟩ := Option.map_eq_some_iff.1 hq
    exact isDisqualified_iff.2 ⟨p, hp, h p hs⟩
  · rw [findPlayer_update_ne hf hu] at hq
    exact isDisqualified_iff.2 ⟨q, hq, hs⟩

theorem keepsDq_of_push {p : Player} (hp : p.state ≠ .disqualified) :
    KeepsDq (players ++ [p]) players := by
  intro uid hd
  obtain ⟨q, hq, hs⟩ := isDisqualified_iff.1 hd
  rw [findPlayer, List.find?_append, Option.or_eq_some_iff] at hq
  rcases hq with hq | ⟨-, hq⟩
  · exact isDisqualified_iff.2 ⟨q, hq, hs⟩
  · rw [List.mem_singleton.1 (List.mem_of_find?_eq_some hq)] at hs
    exact absurd hs hp

theorem keepsDq_of_foldl {α : Type} {g : List Player → α → List Player}
    (hg : ∀ ps a, KeepsDq (g ps a) ps) (as : List α) : KeepsDq (as.foldl g players) players := by
  induction as generalizing players with
  | nil => exact KeepsDq.refl players
  | cons a as ih => exact ih.trans (hg players a)

theorem keepsDq_of_demote (t : Tournament) (unseated : List Uid) (r : ℕ) :
    KeepsDq (demoteUnseatedPlayers t unseated r).players t.players := by
  refine keepsDq_of_map (fun p => ?_) fun p hs => ?_
  · split
    · split <;> rfl
    · rfl
  · split at hs
    · split at hs
      · cases hs
      · exact hs
    · exact hs

theorem keepsDq_of_joinPlayer (state : TournamentState) (sanctions : List Sanction)
    (ps : List Player) (uid : Uid) : KeepsDq (joinPlayer state sanctions ps uid) ps := by
  rw [joinPlayer_eq]
  split
  · refine keepsDq_of_update (joinedEntry_userUid state) fun p hs => ?_
    unfold joinedEntry at hs
    split at hs
    · exact hs
    · dsimp only at hs
      split at hs <;> cases hs
  · exact KeepsDq.refl ps

theorem keepsDq_of_markFinalists (uids : List Uid) :
    KeepsDq (uids.foldl markFinalist players) players :=
  keepsDq_of_foldl (fun ps uid => by
    refine keepsDq_of_update (fun _ => rfl) fun p hs => ?_
    cases hs) uids

theorem keepsDq_of_effect_rev (hoff : i.event.takesOff = false) (heff : Effect rs t i t') :
    KeepsDq t'.players t.players := by
  have hite : ∀ (c : Player → Prop) [DecidablePred c] (state : PlayerState),
      state ≠ .disqualified → ∀ p : Player,
      (if c p then p.withState state else p).state = .disqualified → p.state = .disqualified := by
    intro c _ state hstate p hs
    split at hs
    · exact absurd hs hstate
    · exact hs
  cases heff with
  | quiet _ hq =>
    refine keepsDq_sameEntry (List.Forall₂.imp (fun p q h => ?_) hq.players.flip)
    exact ⟨h.userUid.symm, h.state.symm, h.toss.symm, h.finalist.symm, h.nonCompeting.symm,
      h.waitlisted.symm, h.result.symm⟩
  | openRegistration | closeRegistration | cancelRegistration | addTable | removeTable =>
    exact KeepsDq.refl _
  | reopenRegistration | checkInAll =>
    exact keepsDq_of_map onlyState_ite.userUid (hite _ _ (by decide))
  | resetCheckIn =>
    refine keepsDq_of_map onlyState_ite.userUid (hite _ _ ?_)
    unfold checkedOutState
    split <;> decide
  | register => exact keepsDq_of_push (by simp [Player.fresh])
  | addPlayer _ _ _ _ p _ _ _ _ hstate =>
    refine keepsDq_of_push ?_
    rcases hstate with hs | ⟨hs, -⟩ <;> simp [hs]
  | leave uid idx he => rcases he with he | he <;> simp [he, TournamentEvent.takesOff] at hoff
  | dropOut => exact keepsDq_of_update (fun _ => rfl) fun _ hs => by cases hs
  | checkIn uid _ name players p _ _ hplayers =>
    have hadmitted : KeepsDq players t.players := by
      rcases hplayers with rfl | ⟨-, -, rfl⟩
      · exact KeepsDq.refl _
      · exact keepsDq_of_push (by simp [Player.fresh])
    refine (keepsDq_of_update (userUid_checkedInEntry t i.decks uid name) fun p hs => ?_).trans
      hadmitted
    unfold checkedInEntry at hs
    extract_lets named at hs
    split at hs
    · cases hs
    · dsimp only at hs
      split at hs <;> cases hs
  | checkOut =>
    refine keepsDq_of_update (fun _ => rfl) fun _ hs => ?_
    change checkedOutState t.state = _ at hs
    unfold checkedOutState at hs
    split at hs <;> cases hs
  | setNonCompeting =>
    rw [updateStandings_players]
    exact keepsDq_of_update (fun _ => rfl) fun _ hs => hs
  | setWaitlisted | setToss => exact keepsDq_of_update (fun _ => rfl) fun _ hs => hs
  | startRound =>
    refine keepsDq_of_map (onlyState_startRoundEntry _ _).userUid fun p hs => ?_
    unfold startRoundEntry at hs
    split at hs
    · split at hs
      · cases hs
      · exact hs
    · split at hs
      · cases hs
      · exact hs
    · exact hs
  | selfOrganizeRound =>
    exact keepsDq_of_map (onlyState_selfOrganizeEntry _).userUid (hite _ _ (by decide))
  | finishRound =>
    rw [updateStandings_players]
    refine keepsDq_of_map (onlyState_finishRoundEntry t _).userUid fun p hs => ?_
    grind [finishRoundEntry, releasedState, Player.withState]
  | cancelRound =>
    rw [updateStandings_players]
    refine keepsDq_of_map (onlyState_cancelRoundEntry _ _).userUid fun p hs => ?_
    grind [cancelRoundEntry, releasedState, Player.withState]
  | restoreRound =>
    rw [updateStandings_players]
    refine keepsDq_of_map (onlyState_restoreRoundEntry _ _ _).userUid fun p hs => ?_
    grind [restoreRoundEntry, Player.withState]
  | swapFinals | swapRound | reseatFinals | scoreFinals | scoreTable | overrideFinals
  | overrideTable | unoverrideFinals | unoverrideTable =>
    rw [updateStandings_players]
    exact KeepsDq.refl _
  | reseatRound =>
    rw [updateStandings_players]
    unfold alterSeatingDoc
    extract_lets reseated
    split
    · unfold reseatRoster
      extract_lets joined left
      refine (keepsDq_of_demote _ left _).trans ?_
      exact keepsDq_of_foldl (keepsDq_of_joinPlayer reseated.state i.sanctions) joined
    · exact KeepsDq.refl _
  | seatPlayer =>
    rw [updateStandings_players]
    refine keepsDq_of_update (fun _ => rfl) fun p hs => ?_
    grind [seatedEntry]
  | unseatPlayer uid _ target =>
    rw [updateStandings_players]
    exact keepsDq_of_demote { t with rounds := t.rounds.modify target (removeSeat uid) }
      [uid] target
  | randomToss =>
    refine tossedPlayers_induction t (KeepsDq · t.players) i.sanctions (KeepsDq.refl _) ?_
    intro ps uid toss hps
    refine KeepsDq.trans ?_ hps
    exact keepsDq_of_update (fun _ => rfl) fun _ hs => hs
  | startFinals => exact keepsDq_of_markFinalists _
  | finishFinals | finishTournament =>
    rw [updateStandings_players]
    refine keepsDq_of_map onlyState_finishEntry.userUid fun p hs => ?_
    unfold finishEntry at hs
    split at hs
    · exact hs
    · cases hs
  | cancelFinals =>
    rw [updateStandings_players]
    refine keepsDq_of_map (userUid_cancelFinalsEntry t) fun p hs => ?_
    unfold cancelFinalsEntry at hs
    split at hs
    · dsimp only at hs
      split at hs <;> cases hs
    · exact hs
  | reopenTournament =>
    rw [updateStandings_players]
    refine keepsDq_of_map (onlyState_reopenEntry t).userUid fun p hs => ?_
    grind [reopenEntry, Player.withState]
  | archival sheet he => simp [he, TournamentEvent.takesOff] at hoff

end Marks

end Archon.Engine

namespace Archon.Backend
open Engine Guards Table

/-! ### The signals -/

/-- The sanction is a disqualification of the member in the tournament, neither lifted nor
deleted. -/
def StoredSanction.Disqualifies (s : StoredSanction) (uid userUid : Uid) : Prop :=
  s.tournamentUid = some uid ∧ s.deletedAt = none ∧ s.userUid = userUid ∧ s.isActiveDq = true

instance (s : StoredSanction) (uid userUid : Uid) : Decidable (s.Disqualifies uid userUid) :=
  inferInstanceAs (Decidable (_ ∧ _ ∧ _ ∧ _))

/-- Every player of the roster is disqualified exactly with a live disqualification. -/
def SignalsAgree (objects : Objects) (uid : Uid) (players : List Player) : Prop :=
  ∀ u, u ≠ "" → playerExists players u = true →
    (IsDisqualified players u ↔ hasActiveDq objects uid u = true)

/-- The event takes no mark off a disqualified player, removes nobody who is entered twice and
enters nobody with a live disqualification. -/
def Heeds (objects : Objects) (uid : Uid) (players : List Player) : TournamentEvent → Prop
  | .dropOut u => ¬IsDisqualified players u
  | .cancelFinals => ∀ p ∈ players, p.finalist = true → ∀ u ∈ p.userUid,
      findPlayer players u = some p → p.state ≠ .disqualified
  | .unregister u | .removePlayer u => (players.filter (Player.isUid u)).length ≤ 1
  | .setArchivalResults sheet => ∀ u ∈ sheet.players, hasActiveDq objects uid u = false
  | _ => True

section Signals

variable {rs : Seating.RandomSource} {x x' : Tournament} {i : EventInput}
variable {env : Env} {objects objects' saved : Objects} {user : User} {uid u : Uid} {c : Call}
variable {t t' : StoredTournament} {players : List Player}

theorem hasActiveDq_iff (h : WellKeyed objects) :
    hasActiveDq objects uid u = true ↔
      ∃ k s, objects.sanction? k = some s ∧ s.Disqualifies uid u := by
  rw [hasActiveDq, List.any_eq_true]
  constructor
  · rintro ⟨s, hs, hdq⟩
    obtain ⟨hmem, hlive⟩ := List.mem_filter.1 hs
    simp only [Bool.and_eq_true, beq_iff_eq] at hlive hdq
    refine ⟨s.uid, s, (mem_sanctions h).1 hmem, hlive.1, hlive.2, hdq.1.1, ?_⟩
    simp [StoredSanction.isActiveDq, hdq.1.2, hdq.2]
  · rintro ⟨k, s, hs, htournament, hlive, huser, hdq⟩
    have huid : s.uid = k := h.uid_eq (sanction?_eq_some.1 hs)
    refine ⟨s, List.mem_filter.2 ⟨(mem_sanctions h).2 (huid.symm ▸ hs), ?_⟩, ?_⟩
    · simp [htournament, hlive]
    · simpa [huser, StoredSanction.isActiveDq] using hdq

theorem hasActiveDq_congr (h : WellKeyed objects) (h' : WellKeyed objects')
    (hsame : ∀ k, objects'.sanction? k = objects.sanction? k) :
    hasActiveDq objects' uid u = hasActiveDq objects uid u := by
  rw [Bool.eq_iff_iff, hasActiveDq_iff h', hasActiveDq_iff h]
  simp only [hsame]

theorem SignalsAgree.congr (hagree : SignalsAgree objects uid players)
    (hsame : ∀ u, hasActiveDq objects' uid u = hasActiveDq objects uid u) :
    SignalsAgree objects' uid players :=
  fun u hu hexists => hsame u ▸ hagree u hu hexists

theorem hasDqSanction_tournamentSanctions :
    hasDqSanction (tournamentSanctions objects uid) u = hasActiveDq objects uid u := by
  rw [Bool.eq_iff_iff]
  constructor
  · intro h
    rw [← Bool.not_eq_false]
    intro hnone
    rw [hasDqSanction_eq_false hnone] at h
    cases h
  · intro h
    obtain ⟨s, hs, hdq⟩ := List.any_eq_true.1 h
    have hlive := (List.mem_filter.1 hs).2
    refine List.any_eq_true.2 ⟨s.toEngine, List.mem_map_of_mem hs, ?_⟩
    simp only [Bool.and_eq_true, beq_iff_eq] at hlive hdq
    simp [StoredSanction.toEngine, isSanctionActive, hlive.2, hdq.1.1, hdq.1.2, hdq.2]

theorem hasActiveDq_of_buildSanctions {uids : List Uid}
    (h : hasDqSanction (buildSanctions objects uid uids) u = false) :
    hasActiveDq objects uid u = false := by
  rw [← hasDqSanction_tournamentSanctions, hasDqSanction, List.any_eq_false]
  rw [hasDqSanction, List.any_eq_false] at h
  intro s hs
  refine h s ?_
  unfold buildSanctions
  extract_lets own suspensions
  rw [List.map_append]
  exact List.mem_append_left _ hs

/-! ### Events -/

theorem takesOff_cases (heff : Effect rs x i x') (hoff : i.event.takesOff = true) :
    (∃ u, (i.event = .unregister u ∨ i.event = .removePlayer u) ∧
      x'.players = x.players.eraseP (Player.isUid u)) ∨
    ∃ sheet, i.event = .setArchivalResults sheet ∧ sheet.winner ∈ sheet.players ∧
      x' = setArchivalResultsDoc x sheet := by
  cases heff with
  | leave u idx he _ hidx =>
    refine .inl ⟨u, he, ?_⟩
    rw [List.eraseP_eq_eraseIdx]
    rw [findPlayerIndex] at hidx
    simp only [hidx]
  | archival sheet he _ _ hwinner => exact .inr ⟨sheet, he, hwinner, rfl⟩
  | quiet hq =>
    cases he : i.event <;> simp [he, TournamentEvent.takesOff, TournamentEvent.isQuiet] at hoff hq
  | _ => simp [*, TournamentEvent.takesOff] at hoff

theorem findPlayer_eraseP {v : Uid} (h : u ≠ v) :
    findPlayer (players.eraseP (Player.isUid v)) u = findPlayer players u := by
  induction players with
  | nil => rfl
  | cons p ps ih =>
    by_cases hp : p.isUid v = true
    · rw [List.eraseP_cons_of_pos hp, findPlayer, findPlayer, List.find?_cons_of_neg]
      rw [isUid_iff] at hp ⊢
      rw [hp, Option.some.injEq]
      exact h.symm
    · rw [List.eraseP_cons_of_neg hp, findPlayer, findPlayer, List.find?_cons, List.find?_cons]
      split
      · rfl
      · exact ih

theorem playerExists_eraseP {v : Uid} (h : (players.filter (Player.isUid v)).length ≤ 1) :
    playerExists (players.eraseP (Player.isUid v)) v = false := by
  induction players with
  | nil => rfl
  | cons p ps ih =>
    by_cases hp : p.isUid v = true
    · rw [List.filter_cons_of_pos hp, List.length_cons] at h
      rw [List.eraseP_cons_of_pos hp, playerExists, List.any_eq_false]
      have hnone : ps.filter (Player.isUid v) = [] := List.length_eq_zero_iff.1 (by omega)
      exact List.filter_eq_nil_iff.1 hnone
    · rw [List.filter_cons_of_neg hp] at h
      rw [List.eraseP_cons_of_neg hp, playerExists, List.any_cons, Bool.eq_false_of_not_eq_true hp,
        Bool.false_or]
      exact ih h

theorem SignalsAgree.eraseP (h : SignalsAgree objects uid players) {v : Uid}
    (honce : (players.filter (Player.isUid v)).length ≤ 1) :
    SignalsAgree objects uid (players.eraseP (Player.isUid v)) := by
  intro u hu hexists
  by_cases hv : u = v
  · rw [hv, playerExists_eraseP honce] at hexists
    cases hexists
  · rw [IsDisqualified, playerState, findPlayer_eraseP hv]
    refine h u hu ?_
    rw [playerExists_iff] at hexists ⊢
    exact ((List.eraseP_sublist).map _).subset hexists

theorem signalsAgree_archival {sheet : ArchivalSheet} (hwinner : sheet.winner ∈ sheet.players)
    (h : ∀ u ∈ sheet.players, hasActiveDq objects uid u = false) :
    SignalsAgree objects uid (setArchivalResultsDoc x sheet).players := by
  intro u hu hexists
  have hlisted : ∀ p ∈ (setArchivalResultsDoc x sheet).players, p.userUid = some u →
      p.state = .finished ∧ u ∈ sheet.players := by
    intro p hp hpu
    rcases List.mem_append.1 hp with hp | hp
    · obtain ⟨v, hv, rfl⟩ := List.mem_map.1 hp
      obtain rfl : v = u := Option.some.inj hpu
      refine ⟨rfl, ?_⟩
      rcases List.mem_cons.1 hv with rfl | hv
      · exact hwinner
      · exact (List.mem_filter.1 hv).1
    · have hnameless := (List.mem_filter.1 hp).2
      rw [hpu, Option.getD_some, beq_iff_eq] at hnameless
      exact absurd hnameless hu
  obtain ⟨p, hp, hpu⟩ := mem_rosterUids.1 (playerExists_iff.1 hexists)
  rw [h u (hlisted p hp hpu).2]
  refine iff_of_false (fun hd => ?_) Bool.false_ne_true
  obtain ⟨q, hq, hs⟩ := isDisqualified_iff.1 hd
  obtain ⟨hmem, hqu⟩ := findPlayer_mem hq
  rw [(hlisted q hmem hqu).1] at hs
  cases hs

theorem SignalsAgree.event (h : SignalsAgree objects uid x.players) (heff : Effect rs x i x')
    (hheeds : Heeds objects uid x.players i.event)
    (hsanctions : ∀ u, hasDqSanction i.sanctions u = false → hasActiveDq objects uid u = false) :
    SignalsAgree objects uid x'.players := by
  cases hoff : i.event.takesOff with
  | true =>
    rcases takesOff_cases heff hoff with ⟨v, he, hplayers⟩ | ⟨sheet, he, hwinner, rfl⟩
    · rw [hplayers]
      rcases he with he | he <;> rw [he] at hheeds <;> exact h.eraseP hheeds
    · rw [he] at hheeds
      exact signalsAgree_archival hwinner hheeds
  | false =>
    have hspares : SparesDisqualified x i := by
      unfold SparesDisqualified
      split <;> rename_i he
      · rwa [he] at hheeds
      · rwa [he] at hheeds
      · trivial
    have hkept := keepsDq_of_effect hoff hspares heff
    have hnew := keepsDq_of_effect_rev hoff heff
    intro u hu hexists
    rw [show IsDisqualified x'.players u ↔ IsDisqualified x.players u from ⟨hnew u, hkept u⟩]
    cases hbefore : playerExists x.players u with
    | true => exact h u hu hbefore
    | false =>
      have hout : ¬IsDisqualified x.players u := fun hd => by
        obtain ⟨p, hp, -⟩ := isDisqualified_iff.1 hd
        exact playerExists_eq_false.1 hbefore (findPlayer_mem_rosterUids hp)
      have hdq : hasDqSanction i.sanctions u = false := by
        rw [playerExists_iff] at hexists
        rw [playerExists_eq_false] at hbefore
        rcases rosterUids_of_effect heff with huids | ⟨v, -, hdq, huids⟩ | ⟨idx, hplayers⟩ |
          ⟨sheet, he, -⟩
        · exact absurd (huids ▸ hexists) hbefore
        · rw [huids, List.mem_append, List.mem_singleton, Option.some.injEq] at hexists
          exact hexists.resolve_left hbefore ▸ hdq
        · rw [hplayers] at hexists
          exact absurd (((List.eraseIdx_sublist _ _).map _).subset hexists) hbefore
        · rw [he] at hoff
          cases hoff
      rw [hsanctions u hdq]
      exact iff_of_false hout Bool.false_ne_true

/-! ### Sanctions -/

theorem isDisqualified_withState {state : PlayerState} {v : Uid} :
    IsDisqualified (updatePlayer players v (Player.withState state)) u ↔
      if u = v then playerExists players u = true ∧ state = .disqualified
      else IsDisqualified players u := by
  split
  · rename_i huv
    subst huv
    rw [isDisqualified_iff, findPlayer_update_self (withState_userUid _)]
    constructor
    · rintro ⟨q, hq, hs⟩
      obtain ⟨p, hp, rfl⟩ := Option.map_eq_some_iff.1 hq
      exact ⟨playerExists_iff.2 (findPlayer_mem_rosterUids hp), hs⟩
    · rintro ⟨hexists, rfl⟩
      rw [playerExists_iff] at hexists
      cases hp : findPlayer players u with
      | none => exact absurd hexists (findPlayer_eq_none.1 hp)
      | some p => exact ⟨_, rfl, rfl⟩
  · rename_i huv
    rw [IsDisqualified, playerState, findPlayer_update_ne (withState_userUid _) huv]
    exact Iff.rfl

theorem isDisqualified_setPlayerState {target : Option (Uid × PlayerState)} :
    IsDisqualified (setPlayerState x target).players u ↔
      match target with
      | some (v, state) => if u = v then playerExists x.players u = true ∧ state = .disqualified
          else IsDisqualified x.players u
      | none => IsDisqualified x.players u := by
  cases target with
  | none => exact Iff.rfl
  | some d => exact isDisqualified_withState

theorem playerExists_setPlayerState {target : Option (Uid × PlayerState)} :
    playerExists (setPlayerState x target).players u = playerExists x.players u := by
  cases target with
  | none => rfl
  | some d =>
    rw [Bool.eq_iff_iff, playerExists_iff, playerExists_iff, setPlayerState]
    dsimp only
    rw [rosterUids_updatePlayer (withState_userUid _)]

theorem players_applySanction {sanctions : List Sanction} {change : SanctionChange} :
    (IsDisqualified (applySanctionToTournament x sanctions change).players u ↔
      match change.target x sanctions with
      | some (v, state) => if u = v then playerExists x.players u = true ∧ state = .disqualified
          else IsDisqualified x.players u
      | none => IsDisqualified x.players u) ∧
    playerExists (applySanctionToTournament x sanctions change).players u =
      playerExists x.players u := by
  unfold applySanctionToTournament
  generalize change.target x sanctions = target
  dsimp only
  split
  · exact ⟨isDisqualified_setPlayerState, playerExists_setPlayerState⟩
  · rw [playerExists_setPlayerState, isDisqualified_setPlayerState, updateStandings_players]
    refine ⟨?_, playerExists_setPlayerState⟩
    -- the same state is set a second time
    rw [playerExists_setPlayerState, isDisqualified_setPlayerState]
    cases target with
    | none => exact Iff.rfl
    | some d =>
      dsimp only
      split <;> rfl

/-- The member whose state the change sets. -/
def person : SanctionChange → Option Uid
  | .disqualify v => some v
  | .restore v => some v
  | .adjust => none

theorem target_eq {sanctions : List Sanction} {change : SanctionChange} :
    change.target x sanctions = (person change).map fun v =>
      (v, match change with
        | .disqualify _ => .disqualified
        | _ => dqRestoreState x sanctions v) := by
  cases change <;> rfl

theorem SignalsAgree.reflected {change : Option SanctionChange}
    (h : SignalsAgree objects uid t.doc.players) (hrow : ReflectedAs env saved uid t change t')
    (hother : ∀ u, change.bind person ≠ some u →
      hasActiveDq saved uid u = hasActiveDq objects uid u)
    (hdq : ∀ v, change = some (.disqualify v) → hasActiveDq saved uid v = true) :
    SignalsAgree saved uid t'.doc.players := by
  intro u hu hexists
  rcases hrow with ⟨rfl, hnothing⟩ | ⟨ch, hch, rfl⟩
  · rw [hother u, h u hu hexists]
    intro hperson
    obtain ⟨ch, hch, hv⟩ := Option.bind_eq_some_iff.1 hperson
    have hnone := (hnothing ch hch).2
    rw [target_eq, hv, Option.map_some, Option.any_some, hexists] at hnone
    cases hnone
  · obtain rfl : change = some ch := hch
    obtain ⟨hmark, hkept⟩ := @players_applySanction t.toEngine u (tournamentSanctions saved uid) ch
    have hbefore : playerExists t.doc.players u = true := hkept.symm.trans hexists
    have hagree := h u hu hbefore
    refine hmark.trans ?_
    rw [target_eq]
    rw [Option.bind_some] at hother
    cases ch with
    | adjust =>
      rw [hother u (by simp [person])]
      exact hagree
    | disqualify v =>
      dsimp only [person, Option.map_some]
      split
      · rename_i huv
        rw [huv, hdq v rfl]
        exact iff_of_true ⟨huv ▸ hbefore, rfl⟩ rfl
      · rename_i huv
        rw [hother u (by simpa [person] using Ne.symm huv)]
        exact hagree
    | restore v =>
      dsimp only [person, Option.map_some]
      split
      · rename_i huv
        rw [huv]
        have hstate : dqRestoreState t.toEngine (tournamentSanctions saved uid) v = .disqualified ↔
            hasActiveDq saved uid v = true := by
          unfold dqRestoreState
          rw [hasDqSanction_tournamentSanctions]
          split
          · rename_i hactive
            exact iff_of_true rfl hactive
          · rename_i hactive
            refine iff_of_false (fun hs => ?_) hactive
            split_ifs at hs
        exact (and_iff_right (huv ▸ hbefore)).trans hstate
      · rename_i huv
        rw [hother u (by simpa [person] using Ne.symm huv)]
        exact hagree

end Signals

end Archon.Backend

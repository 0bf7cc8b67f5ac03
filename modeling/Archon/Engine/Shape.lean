import Mathlib.Data.List.Dedup
import Archon.Engine.Roster
import Archon.Engine.Seats

/-!
# The shape of reachable tournaments

Every roster entry the engine writes names a member, whoever sits in a round is on the roster,
and there are no rounds before registration closes.
-/

namespace Archon.Engine
open Guards Seating

/-! ### Uids of a rewritten roster -/

section Uids

variable (t : Tournament)

theorem withState_self (p : Player) : p = p.withState p.state := rfl

theorem onlyState_startRoundEntry (seated : List Uid) (drop : Bool) :
    OnlyState (startRoundEntry seated drop) := by
  intro p
  unfold startRoundEntry
  split
  · split
    · exact ⟨_, rfl⟩
    · exact ⟨_, withState_self p⟩
  · split
    · exact ⟨_, rfl⟩
    · exact ⟨_, withState_self p⟩
  · exact ⟨_, withState_self p⟩

theorem onlyState_selfOrganizeEntry (seated : List Uid) : OnlyState (selfOrganizeEntry seated) :=
  onlyState_ite

theorem onlyState_finishRoundEntry (target : ℕ) : OnlyState (finishRoundEntry t target) := by
  intro p
  unfold finishRoundEntry
  split
  · split
    · exact ⟨_, rfl⟩
    · exact ⟨_, withState_self p⟩
  · exact ⟨_, withState_self p⟩

theorem onlyState_cancelRoundEntry (target : ℕ) : OnlyState (cancelRoundEntry t target) := by
  intro p
  unfold cancelRoundEntry
  split
  · split
    · exact ⟨_, rfl⟩
    · split
      · exact ⟨_, rfl⟩
      · exact ⟨_, withState_self p⟩
  · exact ⟨_, withState_self p⟩

theorem onlyState_restoreRoundEntry (seated : List Uid) (live : Bool) :
    OnlyState (restoreRoundEntry t seated live) := by
  intro p
  unfold restoreRoundEntry
  split
  · split
    · exact ⟨_, rfl⟩
    · exact ⟨_, withState_self p⟩
  · exact ⟨_, withState_self p⟩

theorem onlyState_finishEntry : OnlyState finishEntry := by
  intro p
  unfold finishEntry
  split
  · exact ⟨_, withState_self p⟩
  · exact ⟨_, rfl⟩

theorem onlyState_reopenEntry : OnlyState (reopenEntry t) := onlyState_ite

theorem userUid_cancelFinalsEntry (p : Player) : (cancelFinalsEntry t p).userUid = p.userUid := by
  unfold cancelFinalsEntry
  split <;> rfl

theorem userUid_checkedInEntry (decks : List DeckObject) (uid : Uid) (name : Option String)
    (p : Player) : (checkedInEntry t decks uid name p).userUid = p.userUid := by
  unfold checkedInEntry
  extract_lets named
  split <;> rfl

theorem waitlisted_checkedInEntry (decks : List DeckObject) (uid : Uid) (name : Option String)
    (p : Player) : (checkedInEntry t decks uid name p).waitlisted = p.waitlisted := by
  unfold checkedInEntry
  extract_lets named
  split <;> rfl

/-- The entry of a player who joins a live round. -/
def joinedEntry (state : TournamentState) (p : Player) : Player :=
  if p.state = .disqualified then p
  else { p with state := if state = .finished then .finished else .playing, waitlisted := false }

theorem joinedEntry_userUid (state : TournamentState) (p : Player) :
    (joinedEntry state p).userUid = p.userUid := by
  unfold joinedEntry
  split <;> rfl

theorem joinPlayer_eq (state : TournamentState) (sanctions : List Sanction) (ps : List Player)
    (u : Uid) : joinPlayer state sanctions ps u =
      if hasDqSanction sanctions u = false then updatePlayer ps u (joinedEntry state) else ps := by
  unfold joinPlayer
  cases hasDqSanction sanctions u <;> rfl

theorem markFinalist_eq (ps : List Player) (u : Uid) : markFinalist ps u =
    if True then updatePlayer ps u (fun p => { p with state := .playing, finalist := true })
    else ps := by
  simp [markFinalist]

theorem rosterUids_joinPlayer (state : TournamentState) (sanctions : List Sanction)
    (players : List Player) (uid : Uid) :
    rosterUids (joinPlayer state sanctions players uid) = rosterUids players := by
  rw [joinPlayer_eq]
  split
  · exact rosterUids_updatePlayer (joinedEntry_userUid state)
  · rfl

theorem rosterUids_demote (unseated : List Uid) (r : ℕ) :
    rosterUids (demoteUnseatedPlayers t unseated r).players = rosterUids t.players := by
  refine rosterUids_map fun p => ?_
  split
  · split <;> rfl
  · rfl

theorem rosterUids_alterSeatingDoc (sanctions : List Sanction) (round : ℕ) (tables : List Table)
    (seating : List (List Uid)) :
    rosterUids (alterSeatingDoc t sanctions round tables seating).players =
      rosterUids t.players := by
  unfold alterSeatingDoc
  extract_lets reseated
  split
  · rw [reseatRoster, rosterUids_demote]
    exact rosterUids_foldl_updatePlayer (rosterUids_joinPlayer _ sanctions) _
  · rfl

theorem rosterUids_markFinalists (uids : List Uid) (players : List Player) :
    rosterUids (uids.foldl markFinalist players) = rosterUids players := by
  refine rosterUids_foldl_updatePlayer (fun ps uid => ?_) uids
  rw [markFinalist, rosterUids_updatePlayer]
  exact fun _ => rfl

theorem tossedPlayers_induction (P : List Player → Prop) (sanctions : List Sanction)
    (h : P t.players)
    (hstep : ∀ ps uid toss, P ps → P (updatePlayer ps uid fun p => { p with toss := toss })) :
    P (tossedPlayers t sanctions) := by
  have assign : ∀ (uids : List Uid) (acc : List Player × ℕ), P acc.1 →
      P (assignTosses acc uids).1 := by
    intro uids
    induction uids with
    | nil => exact fun acc hacc => hacc
    | cons uid uids ih => exact fun acc hacc => ih _ (hstep _ _ _ hacc)
  have loop : ∀ (groups : List (ℕ × List Standing)) (acc : List Player × ℕ), P acc.1 →
      P (groups.foldl (tossGroup (tossSeed t)) acc).1 := by
    intro groups
    induction groups with
    | nil => exact fun acc hacc => hacc
    | cons group groups ih =>
      intro acc hacc
      refine ih _ ?_
      unfold tossGroup
      split
      · exact hacc
      · exact assign _ acc hacc
  exact loop _ _ h

theorem forall_mem_tossedPlayers {P : Player → Prop}
    (hP : ∀ p toss, P p → P { p with toss := toss })
    (sanctions : List Sanction) (h : ∀ p ∈ t.players, P p) :
    ∀ p ∈ tossedPlayers t sanctions, P p := by
  refine tossedPlayers_induction t (fun ps => ∀ p ∈ ps, P p) sanctions h ?_
  intro ps uid toss hps q hq
  rcases mem_updatePlayer hq with ⟨p, hp, rfl⟩ | ⟨hmem, -⟩
  · exact hP p toss (hps p (findPlayer_mem hp).1)
  · exact hps q hmem

theorem rosterUids_tossedPlayers (sanctions : List Sanction) :
    rosterUids (tossedPlayers t sanctions) = rosterUids t.players := by
  refine tossedPlayers_induction t (fun ps => rosterUids ps = rosterUids t.players) sanctions rfl ?_
  intro ps uid toss hps
  rw [rosterUids_updatePlayer, hps]
  exact fun _ => rfl

end Uids

theorem rosterUids_sameEntry {ps qs : List Player} (h : List.Forall₂ SameEntry ps qs) :
    rosterUids qs = rosterUids ps := by
  induction h with
  | nil => rfl
  | cons hp _ ih => simp only [rosterUids, List.map_cons, hp.userUid] at ih ⊢; rw [ih]

/-! ### The invariant -/

/-- Everybody seated in a preliminary round. -/
def seatedUids (rounds : List (List Table)) : List Uid := (roundsUids rounds).flatten

structure Shape (t : Tournament) : Prop where
  named : none ∉ rosterUids t.players
  onRoster : ∀ uid ∈ seatedUids t.rounds, some uid ∈ rosterUids t.players
  early : t.state = .planned ∨ t.state = .registration → t.rounds = []

section Step

variable {rs : RandomSource} {t t' : Tournament} {i : EventInput}

theorem seatedUids_updateStandings (s : List Sanction) :
    seatedUids (updateStandings t s).rounds = seatedUids t.rounds := by
  rw [seatedUids, roundsUids_updateStandings, seatedUids]

theorem updateStandings_rounds_eq_nil (s : List Sanction) :
    (updateStandings t s).rounds = [] ↔ t.rounds = [] := by
  rw [← List.length_eq_zero_iff, updateStandings_length, List.length_eq_zero_iff]

theorem Shape.refresh (h : Shape t) (s : List Sanction) : Shape (updateStandings t s) where
  named := by rw [updateStandings_players]; exact h.named
  onRoster := by
    rw [seatedUids_updateStandings, updateStandings_players]
    exact h.onRoster
  early := by
    rw [updateStandings_state, updateStandings_rounds_eq_nil]
    exact h.early

theorem Shape.keep (h : Shape t) (huids : rosterUids t'.players = rosterUids t.players)
    (hseats : ∀ uid ∈ seatedUids t'.rounds,
      uid ∈ seatedUids t.rounds ∨ some uid ∈ rosterUids t.players)
    (hearly : t'.state = .planned ∨ t'.state = .registration → t'.rounds = []) : Shape t' where
  named := huids ▸ h.named
  onRoster := by
    intro uid huid
    rw [huids]
    rcases hseats uid huid with hs | hs
    · exact h.onRoster uid hs
    · exact hs
  early := hearly

theorem Shape.keepRounds (h : Shape t) (huids : rosterUids t'.players = rosterUids t.players)
    (hrounds : t'.rounds = t.rounds)
    (hearly : t'.state = .planned ∨ t'.state = .registration → t'.rounds = []) : Shape t' :=
  h.keep huids (fun _ huid => .inl (hrounds ▸ huid)) hearly

theorem Shape.push (h : Shape t) {p : Player} {uid : Uid} (hp : p.userUid = some uid) :
    Shape { t with players := t.players ++ [p] } where
  named := by
    have := h.named
    simp_all [rosterUids]
  onRoster := by
    intro u hu
    have := h.onRoster u hu
    simp only [rosterUids, List.map_append, List.mem_append] at this ⊢
    exact .inl this
  early := h.early

theorem not_early {state : TournamentState}
    (h : state = .waiting ∨ state = .playing ∨ state = .finished) {P : Prop} :
    state = .planned ∨ state = .registration → P := by
  rcases h with h | h | h <;> simp [h]

theorem mem_availablePlayers_roster {uid : Uid} (h : uid ∈ availablePlayers t) :
    some uid ∈ rosterUids t.players := by
  obtain ⟨hmem, -⟩ := List.mem_filter.1 h
  obtain ⟨p, hp, hu⟩ := List.mem_filterMap.1 hmem
  exact mem_rosterUids.2 ⟨p, (List.mem_filter.1 hp).1, hu⟩

theorem Shape.init {t : Tournament} (h : (engineSystem rs).init t) : Shape t := by
  obtain ⟨request, actor, h⟩ := h
  rw [createTournament_eq h]
  exact ⟨by simp [createdTournament, rosterUids],
    by simp [createdTournament, seatedUids, roundsUids],
    fun _ => rfl⟩

theorem Shape.modifyRound (h : Shape t) {r : ℕ} {f : List Table → List Table}
    (huids : rosterUids t'.players = rosterUids t.players)
    (hrounds : t'.rounds = t.rounds.modify r f) (hstate : t'.state = t.state)
    (hf : ∀ round, t.rounds[r]? = some round → ∀ uid ∈ roundUids (f round),
      uid ∈ roundUids round ∨ some uid ∈ rosterUids t.players) : Shape t' := by
  refine h.keep huids ?_ fun he => ?_
  · intro uid huid
    rw [hrounds] at huid
    obtain ⟨uids, huids', hmem⟩ := List.mem_flatten.1 huid
    rcases mem_roundsUids_modify huids' with hold | ⟨round, hround, rfl⟩
    · exact .inl (List.mem_flatten.2 ⟨uids, hold, hmem⟩)
    · rcases hf round hround uid hmem with hs | hs
      · exact .inl (List.mem_flatten.2
          ⟨_, List.mem_map_of_mem (List.mem_of_getElem? hround), hs⟩)
      · exact .inr hs
  · rw [hrounds, h.early (hstate ▸ he), List.modify_nil]

theorem Shape.startRound (h : Shape t) {submitted : Option (List (List Uid))}
    {seating : List (List Uid)} (hseating : roundSeating rs t submitted = .ok seating)
    (hstate : t.state = .waiting ∨ t.state = .finished ∨ t.state = .playing) :
    Shape (startRoundDoc t seating) := by
  refine h.keep (rosterUids_map (onlyState_startRoundEntry _ _).userUid) ?_ ?_
  · intro uid huid
    simp only [startRoundDoc, seatedUids, roundsUids_append, List.flatten_append,
      List.mem_append] at huid
    rcases huid with huid | huid
    · exact .inl huid
    · simp only [roundsUids, List.map_cons, List.map_nil, roundUids_fresh, List.flatten_cons,
        List.flatten_nil, List.append_nil] at huid
      exact .inr (mem_availablePlayers_roster
        (mem_playersToSeat ((roundSeating_perm hseating).mem_iff.1 huid)))
  · rcases hstate with hs | hs | hs <;> simp [startRoundDoc, hs]

theorem checkSelfOrganized_ok {uid : Uid} (h : checkSelfOrganized t uid = .ok ⟨⟩) :
    ∃ p, findPlayer t.players uid = some p ∧ p.state ≠ .disqualified ∧
      (p.state = .registered ∨ p.state = .checkedIn) ∧ p.waitlisted = false ∧
      atRoundCap t uid = false := by
  simpa only [checkSelfOrganized, okOr_bind_eq_ok, ensure_bind_eq_ok, ensure_eq_ok] using h

theorem Shape.selfOrganize (h : Shape t) {organizer : Uid} {uids : List Uid}
    {seating : List (List Uid)} (hall : ∀ uid ∈ uids, checkSelfOrganized t uid = .ok ⟨⟩)
    (hperm : seating.flatten.Perm uids) : Shape (selfOrganizeDoc t organizer uids seating) := by
  refine h.keep (rosterUids_map (onlyState_selfOrganizeEntry _).userUid) ?_
    (by simp [selfOrganizeDoc])
  intro uid huid
  simp only [selfOrganizeDoc, seatedUids, roundsUids_append, List.flatten_append,
    List.mem_append] at huid
  rcases huid with huid | huid
  · exact .inl huid
  · simp only [roundsUids, List.map_cons, List.map_nil, roundUids_fresh, List.flatten_cons,
      List.flatten_nil, List.append_nil] at huid
    obtain ⟨p, hp, -⟩ := checkSelfOrganized_ok (hall uid (hperm.mem_iff.1 huid))
    exact .inr (findPlayer_mem_rosterUids hp)

theorem Shape.cancelRound (h : Shape t) (target : ℕ)
    (hstate : t.state = .waiting ∨ t.state = .playing ∨ t.state = .finished) :
    Shape (cancelRoundDoc t target) := by
  refine h.keep (rosterUids_map (onlyState_cancelRoundEntry _ target).userUid) ?_ ?_
  · intro uid huid
    obtain ⟨uids, huids, hmem⟩ := List.mem_flatten.1 huid
    exact .inl (List.mem_flatten.2
      ⟨uids, (roundsUids_cancelledRounds t.rounds target).subset huids, hmem⟩)
  · unfold cancelRoundDoc
    extract_lets cut
    split
    · simp
    · exact not_early hstate

theorem Shape.restoreRound (h : Shape t) {target : ℕ} {tables : List Table}
    (hround : t.rounds[target]? = some tables)
    (hstate : t.state = .playing ∨ t.state = .waiting) :
    Shape (restoreRoundDoc t target tables) := by
  refine h.keep (rosterUids_map (onlyState_restoreRoundEntry _ _ _).userUid) ?_ ?_
  · intro uid huid
    rw [seatedUids, restoreRoundDoc, roundsUids_set_restored hround] at huid
    exact .inl huid
  · unfold restoreRoundDoc
    extract_lets restored live back
    split
    · simp
    · split
      · simp
      · rcases hstate with hs | hs <;> simp [hs]

theorem Shape.alterSeating (h : Shape t) {sanctions : List Sanction} {round : ℕ}
    {tables : List Table} {seating : List (List Uid)} (hreg : t.state ≠ .registration)
    (hplan : t.state ≠ .planned)
    (hexists : ∀ uid ∈ seating.flatten, playerExists t.players uid = true) :
    Shape (alterSeatingDoc t sanctions round tables seating) := by
  refine h.keep (rosterUids_alterSeatingDoc t sanctions round tables seating) ?_ ?_
  · intro uid huid
    rw [rounds_alterSeatingDoc] at huid
    obtain ⟨uids, huids, hmem⟩ := List.mem_flatten.1 huid
    rcases mem_roundsUids_set huids with hold | rfl
    · exact .inl (List.mem_flatten.2 ⟨uids, hold, hmem⟩)
    · rw [roundUids_reseatRound] at hmem
      exact .inr (playerExists_iff.1 (hexists uid hmem))
  · rw [alterSeatingDoc_state]
    rintro (hs | hs)
    · exact absurd hs hplan
    · exact absurd hs hreg

theorem Shape.leave (h : Shape t) (hstate : t.state = .registration ∨ t.rounds = []) (idx : ℕ) :
    Shape { t with players := t.players.eraseIdx idx } := by
  have hrounds : t.rounds = [] := hstate.elim (fun hs => h.early (.inr hs)) id
  refine ⟨fun hnone => h.named ?_, ?_, h.early⟩
  · exact ((List.eraseIdx_sublist t.players idx).map Player.userUid).subset hnone
  · simp [hrounds, seatedUids, roundsUids]

theorem dedup_eq_nil_of_length {α : Type} [DecidableEq α] {xs : List α}
    (h : xs.dedup.length = 0) : xs = [] := by
  rw [List.length_eq_zero_iff] at h
  exact List.eq_nil_iff_forall_not_mem.2 fun a ha => by simpa [h] using List.mem_dedup.2 ha

theorem Shape.archival (h : Shape t) (hplay : playersWithRounds t = 0) (sheet : ArchivalSheet)
    (hstate : t.state = .finished) : Shape (setArchivalResultsDoc t sheet) := by
  have hnone : ∀ uid ∈ seatedUids t.rounds, uid = "" := by
    intro uid huid
    unfold playersWithRounds at hplay
    split at hplay
    · have hnil := dedup_eq_nil_of_length hplay
      rw [List.filter_eq_nil_iff] at hnil
      have hmem : uid ∈ t.rounds.flatMap fun round => round.flatMap Table.uids := by
        simpa [seatedUids, roundsUids, List.flatMap_def, roundUids] using huid
      simpa using hnil uid (List.mem_append_left _ hmem)
    · rename_i hrounds
      have hnil : t.rounds = [] := by simpa using hrounds
      simp [hnil, seatedUids, roundsUids] at huid
  refine ⟨?_, ?_, by simp [setArchivalResultsDoc, hstate]⟩
  · have hnamed := h.named
    simp only [setArchivalResultsDoc, rosterUids, List.map_append, List.mem_append, List.mem_map,
      List.mem_filter, not_or, not_exists, not_and, archivalPlayer] at hnamed ⊢
    constructor
    · rintro p ⟨uid, -, rfl⟩
      simp
    · exact fun p hp => hnamed p hp.1
  · intro uid huid
    obtain ⟨p, hp, hu⟩ := mem_rosterUids.1 (h.onRoster uid huid)
    refine mem_rosterUids.2 ⟨p, List.mem_append_right _ (List.mem_filter.2 ⟨hp, ?_⟩), hu⟩
    rw [hu, hnone uid huid]
    rfl

theorem Shape.step (h : Shape t) (heff : Effect rs t i t') : Shape t' := by
  cases heff with
  | quiet _ hq =>
    refine h.keepRounds (rosterUids_sameEntry hq.players) hq.rounds fun he => ?_
    rw [hq.rounds]
    exact h.early (hq.state ▸ he)
  | openRegistration _ hs => exact h.keepRounds rfl rfl fun _ => h.early (.inl hs)
  | closeRegistration => exact h.keepRounds rfl rfl (by simp)
  | cancelRegistration _ hs => exact h.keepRounds rfl rfl fun _ => h.early (.inr hs)
  | reopenRegistration _ _ hr =>
    refine h.keepRounds (rosterUids_map fun p => ?_) rfl fun _ => hr
    split <;> rfl
  | register => exact h.push rfl
  | addPlayer _ _ _ _ p _ _ _ hp => exact h.push hp.1
  | leave _ idx _ hs => exact h.leave hs idx
  | dropOut =>
    refine h.keepRounds ?_ rfl h.early
    exact rosterUids_updatePlayer fun _ => rfl
  | checkIn uid _ name players _ _ _ hplayers =>
    have hadmitted : Shape { t with players := players } := by
      rcases hplayers with rfl | ⟨-, -, rfl⟩
      · exact h
      · exact h.push rfl
    refine hadmitted.keepRounds ?_ rfl hadmitted.early
    exact rosterUids_updatePlayer (userUid_checkedInEntry t i.decks uid name)
  | checkOut =>
    refine h.keepRounds ?_ rfl h.early
    exact rosterUids_updatePlayer fun _ => rfl
  | checkInAll =>
    refine h.keepRounds (rosterUids_map fun p => ?_) rfl h.early
    split <;> rfl
  | resetCheckIn =>
    refine h.keepRounds (rosterUids_map fun p => ?_) rfl h.early
    split <;> rfl
  | setNonCompeting =>
    refine Shape.refresh ?_ _
    refine h.keepRounds ?_ rfl h.early
    exact rosterUids_updatePlayer fun _ => rfl
  | setWaitlisted =>
    refine h.keepRounds ?_ rfl h.early
    exact rosterUids_updatePlayer fun _ => rfl
  | startRound _ seating _ hs _ hseating => exact h.startRound hseating hs
  | selfOrganizeRound uids seating _ _ _ _ hall hperm => exact h.selfOrganize hall hperm
  | finishRound round tables _ hs =>
    refine Shape.refresh ?_ _
    refine h.keepRounds (rosterUids_map (onlyState_finishRoundEntry t _).userUid) rfl ?_
    rw [finishRoundDoc]
    split
    · simp
    · rcases hs with hs | hs <;> simp [hs]
  | cancelRound round _ hs => exact (h.cancelRound _ hs).refresh _
  | restoreRound target tables _ hs _ hround => exact (h.restoreRound hround hs).refresh _
  | swapFinals =>
    refine Shape.refresh ?_ _
    exact h.keepRounds rfl rfl h.early
  | swapRound round t1 s1 t2 s2 =>
    refine Shape.refresh ?_ _
    refine h.modifyRound rfl rfl rfl fun tables _ uid huid => .inl ?_
    exact (roundUids_swapRound_perm tables t1 s1 t2 s2).mem_iff.1 huid
  | reseatFinals =>
    refine Shape.refresh ?_ _
    exact h.keepRounds rfl rfl h.early
  | reseatRound round seating tables _ hreg hplan _ _ _ hexists =>
    exact (h.alterSeating hreg hplan hexists).refresh _
  | seatPlayer uid table seat round target p tables tb _ _ hp _ _ hround htb =>
    refine Shape.refresh ?_ _
    refine h.modifyRound ?_ rfl rfl fun tables' hround' u hu => ?_
    · exact rosterUids_updatePlayer fun _ => rfl
    · obtain rfl : tables = tables' := Option.some.inj (hround.symm.trans hround')
      rcases List.mem_cons.1 ((roundUids_insertSeat_perm htb seat uid).mem_iff.1 hu) with rfl | hu
      · exact .inr (findPlayer_mem_rosterUids hp)
      · exact .inl hu
  | unseatPlayer uid _ target =>
    refine Shape.refresh ?_ _
    refine h.modifyRound ?_ rfl rfl fun tables' _ u hu => .inl ?_
    · exact rosterUids_demote { t with rounds := t.rounds.modify target (removeSeat uid) } [uid]
        target
    · exact (roundUids_removeSeat uid tables').subset hu
  | addTable =>
    refine h.modifyRound rfl rfl rfl fun tables _ u hu => .inl ?_
    simpa [roundUids, Table.fresh, Table.uids] using hu
  | removeTable table =>
    refine h.modifyRound rfl rfl rfl fun tables _ u hu => .inl ?_
    exact (roundUids_eraseIdx tables table).subset hu
  | scoreFinals =>
    refine Shape.refresh ?_ _
    exact h.keepRounds rfl rfl h.early
  | scoreTable round table scores tables tb written _ _ hround htb hw =>
    refine Shape.refresh ?_ _
    refine h.modifyRound rfl rfl rfl fun tables' hround' u hu => .inl ?_
    obtain rfl : tables = tables' := Option.some.inj (hround.symm.trans hround')
    rwa [roundUids_modify_of_uids] at hu
    intro tb' htb'
    obtain rfl : tb = tb' := Option.some.inj (htb.symm.trans htb')
    exact reportTable_uids hw
  | overrideFinals =>
    refine Shape.refresh ?_ _
    exact h.keepRounds rfl rfl h.early
  | overrideTable =>
    refine Shape.refresh ?_ _
    refine h.modifyRound rfl rfl rfl fun tables' _ u hu => .inl ?_
    rwa [roundUids_modify_of_uids] at hu
    exact fun _ _ => rfl
  | unoverrideFinals =>
    refine Shape.refresh ?_ _
    exact h.keepRounds rfl rfl h.early
  | unoverrideTable =>
    refine Shape.refresh ?_ _
    refine h.modifyRound rfl rfl rfl fun tables' _ u hu => .inl ?_
    rwa [roundUids_modify_of_uids] at hu
    exact fun _ _ => rfl
  | setToss =>
    refine h.keepRounds ?_ rfl h.early
    exact rosterUids_updatePlayer fun _ => rfl
  | randomToss => exact h.keepRounds (rosterUids_tossedPlayers t i.sanctions) rfl h.early
  | startFinals _ hs =>
    refine h.keepRounds (rosterUids_markFinalists _ _) rfl ?_
    rcases hs with hs | hs <;> simp [startFinalsDoc, hs]
  | finishFinals =>
    refine Shape.refresh ?_ _
    exact h.keepRounds (rosterUids_map onlyState_finishEntry.userUid) rfl
      (by simp [finishFinalsDoc])
  | cancelFinals =>
    refine Shape.refresh ?_ _
    exact h.keepRounds (rosterUids_map (userUid_cancelFinalsEntry t)) rfl
      (by simp [cancelFinalsDoc])
  | finishTournament =>
    refine Shape.refresh ?_ _
    exact h.keepRounds (rosterUids_map onlyState_finishEntry.userUid) rfl (by simp)
  | reopenTournament =>
    refine Shape.refresh ?_ _
    refine h.keepRounds (rosterUids_map (onlyState_reopenEntry t).userUid) rfl ?_
    rw [reopenTournamentDoc]
    split <;> simp
  | archival sheet _ hs hplay => exact h.archival hplay sheet hs

theorem Shape.of_reachable {t : Tournament} (h : (engineSystem rs).Reachable t) : Shape t :=
  h.invariant (fun _ => Shape.init) fun _ _ _ hp hs => hp.step (effect_of_acceptEvent hs)

end Step

end Archon.Engine

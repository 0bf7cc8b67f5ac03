import Archon.Engine.Shape

/-!
# What the play leaves on a roster entry

The handlers of the play rewrite an entry's state, toss and marks of the field, never its payment,
its result or the decklist it owes. A property that does not read the rewritten fields survives
every event but those that add entries, the archived sheet and the events outside the play.
-/

namespace Archon.Engine
open Guards Seating

/-- The property reads none of the fields the play rewrites. -/
def PlayBlind (P : Player → Prop) : Prop :=
  ∀ p state toss finalist waitlisted nonCompeting, P p →
    P { p with state, toss, finalist, waitlisted, nonCompeting }

/-- The events that put an entry of their own on the roster. -/
def TournamentEvent.arrives : TournamentEvent → Bool
  | .register _ _ _ => true
  | .addPlayer _ _ _ _ => true
  | .checkIn _ _ _ => true
  | .setArchivalResults _ => true
  | _ => false

section Entries

variable {rs : RandomSource} {t t' : Tournament} {i : EventInput} {P : Player → Prop}
  {players : List Player} {uid : Uid}

theorem PlayBlind.withState (hP : PlayBlind P) {p : Player} (h : P p) (state : PlayerState) :
    P (p.withState state) :=
  hP p state p.toss p.finalist p.waitlisted p.nonCompeting h

theorem PlayBlind.map (hP : PlayBlind P) {f : Player → Player} (hf : OnlyState f)
    (h : ∀ p ∈ players, P p) : ∀ p ∈ players.map f, P p := by
  refine List.forall_mem_map.2 fun p hp => ?_
  obtain ⟨state, hs⟩ := hf p
  rw [hs]
  exact hP.withState (h p hp) state

theorem forall_mem_update {f : Player → Player} (hf : ∀ p, P p → P (f p))
    (h : ∀ p ∈ players, P p) : ∀ p ∈ updatePlayer players uid f, P p :=
  forall_mem_updatePlayer h fun p hp => hf p (h p (findPlayer_mem hp).1)

theorem PlayBlind.demote (hP : PlayBlind P) (unseated : List Uid) (r : ℕ)
    (h : ∀ p ∈ t.players, P p) : ∀ p ∈ (demoteUnseatedPlayers t unseated r).players, P p := by
  refine List.forall_mem_map.2 fun p hp => ?_
  split
  · split
    · exact hP.withState (h p hp) .registered
    · exact h p hp
  · exact h p hp

theorem PlayBlind.alterSeating (hP : PlayBlind P) (sanctions : List Sanction) (round : ℕ)
    (tables : List Table) (seating : List (List Uid)) (h : ∀ p ∈ t.players, P p) :
    ∀ p ∈ (alterSeatingDoc t sanctions round tables seating).players, P p := by
  unfold alterSeatingDoc
  extract_lets reseated
  split
  · refine hP.demote _ _ (forall_mem_foldl (fun ps uid hps => ?_) _ h)
    rw [joinPlayer_eq]
    split
    · refine forall_mem_update (fun p hp => ?_) hps
      unfold joinedEntry
      split
      · exact hp
      · exact hP p _ p.toss p.finalist false p.nonCompeting hp
    · exact hps
  · exact h

theorem PlayBlind.step (hP : PlayBlind P) (heff : Effect rs t i t')
    (hquiet : i.event.isQuiet = true → ∀ p ∈ t'.players, P p)
    (harrives : i.event.arrives = true → ∀ p ∈ t'.players, P p) (h : ∀ p ∈ t.players, P p) :
    ∀ p ∈ t'.players, P p := by
  cases heff with
  | quiet hq => exact hquiet hq
  | register _ _ _ he | addPlayer _ _ _ _ _ he | checkIn _ _ _ _ _ he | archival _ he =>
    exact harrives (by rw [he]; rfl)
  | openRegistration | closeRegistration | cancelRegistration | addTable | removeTable => exact h
  | swapRound | swapFinals | reseatFinals | scoreFinals | scoreTable | overrideFinals
  | overrideTable | unoverrideFinals | unoverrideTable =>
    rw [updateStandings_players]
    exact h
  | leave uid idx => exact fun p hp => h p (List.mem_of_mem_eraseIdx hp)
  | reopenRegistration | checkInAll | resetCheckIn => exact hP.map onlyState_ite h
  | dropOut | checkOut => exact forall_mem_update (fun p hp => hP.withState hp _) h
  | setWaitlisted _ waitlisted =>
    exact forall_mem_update
      (fun p hp => hP p p.state p.toss p.finalist waitlisted p.nonCompeting hp) h
  | setToss _ toss =>
    exact forall_mem_update
      (fun p hp => hP p p.state toss p.finalist p.waitlisted p.nonCompeting hp) h
  | setNonCompeting _ nonCompeting =>
    rw [updateStandings_players]
    exact forall_mem_update
      (fun p hp => hP p p.state p.toss p.finalist p.waitlisted nonCompeting hp) h
  | startRound => exact hP.map (onlyState_startRoundEntry _ _) h
  | selfOrganizeRound => exact hP.map (onlyState_selfOrganizeEntry _) h
  | finishRound =>
    rw [updateStandings_players]
    exact hP.map (onlyState_finishRoundEntry t _) h
  | cancelRound =>
    rw [updateStandings_players]
    exact hP.map (onlyState_cancelRoundEntry _ _) h
  | restoreRound =>
    rw [updateStandings_players]
    exact hP.map (onlyState_restoreRoundEntry _ _ _) h
  | reseatRound round seating tables =>
    rw [updateStandings_players]
    exact hP.alterSeating i.sanctions round tables seating h
  | seatPlayer =>
    rw [updateStandings_players]
    exact forall_mem_update (fun p hp => hP p _ p.toss p.finalist false p.nonCompeting hp) h
  | unseatPlayer uid _ target =>
    rw [updateStandings_players]
    exact PlayBlind.demote (t := { t with rounds := t.rounds.modify target (removeSeat uid) }) hP
      [uid] target h
  | randomToss =>
    exact forall_mem_tossedPlayers t
      (fun p toss hp => hP p p.state toss p.finalist p.waitlisted p.nonCompeting hp) i.sanctions h
  | startFinals =>
    refine forall_mem_foldl (fun ps uid hps => ?_) _ h
    exact forall_mem_update (fun p hp => hP p .playing p.toss true p.waitlisted p.nonCompeting hp)
      hps
  | finishFinals | finishTournament =>
    rw [updateStandings_players]
    exact hP.map onlyState_finishEntry h
  | cancelFinals =>
    rw [updateStandings_players]
    refine List.forall_mem_map.2 fun p hp => ?_
    unfold cancelFinalsEntry
    split
    · exact hP p _ p.toss false p.waitlisted p.nonCompeting (h p hp)
    · exact h p hp
  | reopenTournament =>
    rw [updateStandings_players]
    exact hP.map (onlyState_reopenEntry t) h

/-- What an event does to the uids of the roster: it leaves them, adds a new one at the end, takes
an entry off, or lists an archived sheet. -/
inductive RosterChange (t : Tournament) (i : EventInput) (t' : Tournament) : Prop
  | same : rosterUids t'.players = rosterUids t.players → RosterChange t i t'
  | joined (uid : Uid) : playerExists t.players uid = false →
      rosterUids t'.players = rosterUids t.players ++ [some uid] → RosterChange t i t'
  | left (idx : ℕ) : t'.players = t.players.eraseIdx idx → RosterChange t i t'
  | listed (sheet : ArchivalSheet) : i.event = .setArchivalResults sheet →
      sheet.winner ∈ sheet.players → t' = setArchivalResultsDoc t sheet → RosterChange t i t'

theorem rosterUids_push {uid : Uid} {p : Player} (hp : p.userUid = some uid) :
    rosterUids (players ++ [p]) = rosterUids players ++ [some uid] := by
  rw [rosterUids, List.map_append, List.map_cons, List.map_nil, hp, rosterUids]

theorem rosterUids_of_effect (heff : Effect rs t i t') :
    rosterUids t'.players = rosterUids t.players ∨
    (∃ uid, playerExists t.players uid = false ∧ hasDqSanction i.sanctions uid = false ∧
      rosterUids t'.players = rosterUids t.players ++ [some uid]) ∨
    (∃ idx, t'.players = t.players.eraseIdx idx) ∨
    ∃ sheet, i.event = .setArchivalResults sheet ∧ sheet.winner ∈ sheet.players ∧
      t' = setArchivalResultsDoc t sheet := by
  cases heff with
  | quiet _ hq => exact .inl (rosterUids_sameEntry hq.players)
  | register uid _ _ _ _ _ hnew hdq => exact .inr (.inl ⟨uid, hnew, hdq, rosterUids_push rfl⟩)
  | addPlayer uid _ _ _ p _ hnew hdq hp =>
    exact .inr (.inl ⟨uid, hnew, hdq, rosterUids_push hp.1⟩)
  | checkIn uid _ name players _ _ _ hplayers _ _ _ _ hdq =>
    have huids : rosterUids (updatePlayer players uid (checkedInEntry t i.decks uid name)) =
        rosterUids players :=
      rosterUids_updatePlayer (userUid_checkedInEntry t i.decks uid name)
    rcases hplayers with rfl | ⟨hnew, -, rfl⟩
    · exact .inl huids
    · exact .inr (.inl ⟨uid, hnew, hdq, huids.trans (rosterUids_push rfl)⟩)
  | archival sheet he _ _ hwinner => exact .inr (.inr (.inr ⟨sheet, he, hwinner, rfl⟩))
  | leave uid idx => exact .inr (.inr (.inl ⟨idx, rfl⟩))
  | openRegistration | closeRegistration | cancelRegistration | addTable | removeTable =>
    exact .inl rfl
  | swapRound | swapFinals | reseatFinals | scoreFinals | scoreTable | overrideFinals
  | overrideTable | unoverrideFinals | unoverrideTable =>
    exact .inl (congrArg rosterUids (updateStandings_players _ _))
  | reopenRegistration | checkInAll | resetCheckIn =>
    exact .inl (rosterUids_map onlyState_ite.userUid)
  | dropOut | checkOut | setWaitlisted | setToss =>
    refine .inl (rosterUids_updatePlayer ?_)
    exact fun _ => rfl
  | setNonCompeting | seatPlayer =>
    refine .inl ?_
    rw [updateStandings_players]
    exact rosterUids_updatePlayer fun _ => rfl
  | startRound => exact .inl (rosterUids_map (onlyState_startRoundEntry _ _).userUid)
  | selfOrganizeRound => exact .inl (rosterUids_map (onlyState_selfOrganizeEntry _).userUid)
  | finishRound =>
    refine .inl ?_
    rw [updateStandings_players]
    exact rosterUids_map (onlyState_finishRoundEntry t _).userUid
  | cancelRound =>
    refine .inl ?_
    rw [updateStandings_players]
    exact rosterUids_map (onlyState_cancelRoundEntry _ _).userUid
  | restoreRound =>
    refine .inl ?_
    rw [updateStandings_players]
    exact rosterUids_map (onlyState_restoreRoundEntry _ _ _).userUid
  | reseatRound round seating tables =>
    refine .inl ?_
    rw [updateStandings_players, rosterUids_alterSeatingDoc]
  | unseatPlayer uid _ target =>
    refine .inl ?_
    rw [updateStandings_players]
    exact rosterUids_demote { t with rounds := t.rounds.modify target (removeSeat uid) } [uid]
      target
  | randomToss => exact .inl (rosterUids_tossedPlayers t i.sanctions)
  | startFinals => exact .inl (rosterUids_markFinalists _ _)
  | finishFinals | finishTournament =>
    refine .inl ?_
    rw [updateStandings_players]
    exact rosterUids_map onlyState_finishEntry.userUid
  | cancelFinals =>
    refine .inl ?_
    rw [updateStandings_players]
    exact rosterUids_map (userUid_cancelFinalsEntry t)
  | reopenTournament =>
    refine .inl ?_
    rw [updateStandings_players]
    exact rosterUids_map (onlyState_reopenEntry t).userUid

theorem rosterChange_of_effect (heff : Effect rs t i t') : RosterChange t i t' := by
  rcases rosterUids_of_effect heff with huids | ⟨uid, hnew, -, huids⟩ | ⟨idx, hplayers⟩ |
    ⟨sheet, he, hwinner, hdoc⟩
  · exact .same huids
  · exact .joined uid hnew huids
  · exact .left idx hplayers
  · exact .listed sheet he hwinner hdoc

end Entries

end Archon.Engine

import Archon.Engine.Refresh

/-!
# What an accepted event does

`Effect t i t'` lists, event by event, what `applyEvent` turns the document `t` into, with the
guards the document passed. It is proved once from the handlers; every invariant of the engine
is then a case analysis over it. The events that touch neither rounds, finals, standings nor the
playing state of anybody are one case, `quiet`.
-/

namespace Archon.Engine
open Guards Nested Seating

/-! ### Quiet events -/

/-- Roster entries alike up to payment, decklist mark and shown name. -/
structure SameEntry (p q : Player) : Prop where
  userUid : q.userUid = p.userUid
  state : q.state = p.state
  toss : q.toss = p.toss
  finalist : q.finalist = p.finalist
  nonCompeting : q.nonCompeting = p.nonCompeting
  waitlisted : q.waitlisted = p.waitlisted
  result : q.result = p.result

theorem SameEntry.refl (p : Player) : SameEntry p p := ⟨rfl, rfl, rfl, rfl, rfl, rfl, rfl⟩

/-- Nothing of the play changed. -/
structure Quiet (t t' : Tournament) : Prop where
  state : t'.state = t.state
  rounds : t'.rounds = t.rounds
  finals : t'.finals = t.finals
  winner : t'.winner = t.winner
  standings : t'.standings = t.standings
  players : List.Forall₂ SameEntry t.players t'.players

/-- The events outside the play of the tournament. -/
def TournamentEvent.isQuiet : TournamentEvent → Bool
  | .setPaymentStatus _ _ => true
  | .markAllPaid => true
  | .upsertDeck _ _ _ => true
  | .deleteDeck _ _ _ => true
  | .setDeckAttribution _ _ _ => true
  | .setDeckPrivate _ _ _ => true
  | .viewDeck _ _ => true
  | .raffleDraw _ _ _ _ _ _ => true
  | .raffleUndo => true
  | .raffleClear => true
  | .reportPromos _ _ => true
  | .updateConfig _ => true
  | _ => false

theorem sameEntry_self (ps : List Player) : List.Forall₂ SameEntry ps ps :=
  List.forall₂_same.2 fun p _ => SameEntry.refl p

theorem sameEntry_map {ps : List Player} {f : Player → Player} (h : ∀ p, SameEntry p (f p)) :
    List.Forall₂ SameEntry ps (ps.map f) := by
  rw [List.forall₂_map_right_iff, List.forall₂_same]
  exact fun p _ => h p

theorem sameEntry_modify {ps : List Player} {f : Player → Player} (h : ∀ p, SameEntry p (f p))
    (k : ℕ) : List.Forall₂ SameEntry ps (ps.modify k f) := by
  induction ps generalizing k with
  | nil => simp
  | cons p ps ih =>
    cases k with
    | zero => exact .cons (h p) (sameEntry_self ps)
    | succ k => exact .cons (SameEntry.refl p) (ih k)

theorem sameEntry_updatePlayer {ps : List Player} {f : Player → Player}
    (h : ∀ p, SameEntry p (f p)) (uid : Uid) :
    List.Forall₂ SameEntry ps (updatePlayer ps uid f) := by
  unfold updatePlayer
  split
  · exact sameEntry_modify h _
  · exact sameEntry_self ps

theorem Quiet.refl (t : Tournament) : Quiet t t :=
  ⟨rfl, rfl, rfl, rfl, rfl, sameEntry_self t.players⟩

/-! ### Effects -/

/-- The roster event `register`, `addPlayer` or a walk-in `checkIn` pushes this entry. -/
def newEntryFor (uid : Uid) (p : Player) : Prop :=
  p.userUid = some uid ∧ p.toss = 0 ∧ p.finalist = false ∧ p.nonCompeting = false
    ∧ p.result = Score.zero

/-- What an accepted event does to the document. -/
inductive Effect (rs : RandomSource) (t : Tournament) (i : EventInput) : Tournament → Prop
  | quiet {t' : Tournament} : i.event.isQuiet = true → Quiet t t' → Effect rs t i t'
  | openRegistration : i.event = .openRegistration → t.state = .planned →
      Effect rs t i { t with state := .registration }
  | closeRegistration : i.event = .closeRegistration → t.state = .registration →
      Effect rs t i { t with state := .waiting }
  | cancelRegistration : i.event = .cancelRegistration → t.state = .registration →
      Effect rs t i { t with state := .planned }
  | reopenRegistration : i.event = .reopenRegistration → t.state = .waiting → t.rounds = [] →
      Effect rs t i
        { t with
          state := .registration
          players := t.players.map fun p =>
            if p.state = .checkedIn then p.withState .registered else p }
  | register (uid : Uid) (veknId name : Option String) : i.event = .register uid veknId name →
      (t.state = .registration ∨ t.state = .waiting ∨ t.state = .playing) → t.finals = none →
      playerExists t.players uid = false → hasDqSanction i.sanctions uid = false →
      Effect rs t i
        { t with
          players := t.players ++ [Player.fresh uid .registered (pastRegistrationCap t) name] }
  | addPlayer (uid : Uid) (veknId name : Option String) (waitlist : Bool) (p : Player) :
      i.event = .addPlayer uid veknId name waitlist → playerExists t.players uid = false →
      hasDqSanction i.sanctions uid = false → newEntryFor uid p →
      (p.state = .registered ∨ (p.state = .checkedIn ∧ p.waitlisted = false)) →
      Effect rs t i { t with players := t.players ++ [p] }
  | leave (uid : Uid) (idx : ℕ) : (i.event = .unregister uid ∨ i.event = .removePlayer uid) →
      (t.state = .registration ∨ t.rounds = []) → findPlayerIndex t.players uid = some idx →
      Effect rs t i { t with players := t.players.eraseIdx idx }
  | dropOut (uid : Uid) (p : Player) : i.event = .dropOut uid →
      (t.state = .waiting ∨ t.state = .playing) → findPlayer t.players uid = some p →
      p.state ≠ .finished →
      Effect rs t i { t with players := updatePlayer t.players uid (Player.withState .finished) }
  | checkIn (uid : Uid) (veknId name : Option String) (players : List Player) (p : Player) :
      i.event = .checkIn uid veknId name →
      (t.state = .waiting ∨ t.state = .playing ∨ t.state = .finished) →
      (players = t.players ∨ (playerExists t.players uid = false ∧ t.state ≠ .finished ∧
        players = t.players ++ [Player.fresh uid .registered false name])) →
      findPlayer players uid = some p → p.state ≠ .disqualified → p.waitlisted = false →
      (atRoundCap t uid = false ∨ p.state = .finished) → hasDqSanction i.sanctions uid = false →
      Effect rs t i
        { t with players := updatePlayer players uid (checkedInEntry t i.decks uid name) }
  | checkOut (uid : Uid) (p : Player) : i.event = .checkOut uid →
      (t.state = .waiting ∨ t.state = .finished) → findPlayer t.players uid = some p →
      p.state = .checkedIn →
      Effect rs t i
        { t with
          players := updatePlayer t.players uid (Player.withState (checkedOutState t.state)) }
  | checkInAll : i.event = .checkInAll → (t.state = .waiting ∨ t.state = .finished) →
      Effect rs t i
        { t with
          players := t.players.map fun p =>
            if checksInAll t i.actor i.sanctions p = true then p.withState .checkedIn else p }
  | resetCheckIn : i.event = .resetCheckIn → (t.state = .waiting ∨ t.state = .finished) →
      Effect rs t i
        { t with
          players := t.players.map fun p =>
            if p.state = .checkedIn then p.withState (checkedOutState t.state) else p }
  | setNonCompeting (uid : Uid) (nonCompeting : Bool) :
      i.event = .setNonCompeting uid nonCompeting → t.finals = none → t.state ≠ .finished →
      Effect rs t i
        (updateStandings
          { t with players := updatePlayer t.players uid fun p => { p with nonCompeting } }
          i.sanctions)
  | setWaitlisted (uid : Uid) (waitlisted : Bool) (p : Player) :
      i.event = .setWaitlisted uid waitlisted → findPlayer t.players uid = some p →
      (waitlisted = false ∨ p.state = .registered) →
      Effect rs t i
        { t with players := updatePlayer t.players uid fun p => { p with waitlisted } }
  | startRound (submitted : Option (List (List Uid))) (seating : List (List Uid)) :
      i.event = .startRound submitted →
      (t.state = .waiting ∨ t.state = .finished ∨ t.state = .playing) → t.finals = none →
      roundSeating rs t submitted = .ok seating → Effect rs t i (startRoundDoc t seating)
  | selfOrganizeRound (uids : List Uid) (seating : List (List Uid)) :
      i.event = .selfOrganizeRound uids → (t.state = .waiting ∨ t.state = .playing) →
      t.finals = none → uids.Nodup → (∀ uid ∈ uids, checkSelfOrganized t uid = .ok ⟨⟩) →
      seating.flatten.Perm uids →
      Effect rs t i (selfOrganizeDoc t i.actor.uid uids seating)
  | finishRound (round : Option ℕ) (tables : List Table) : i.event = .finishRound round →
      (t.state = .playing ∨ t.state = .finished) →
      t.rounds[round.getD (t.rounds.length - 1)]? = some tables →
      (∀ tb ∈ tables, tb.state = .finished) →
      Effect rs t i
        (updateStandings (finishRoundDoc t (round.getD (t.rounds.length - 1))) i.sanctions)
  | cancelRound (round : Option ℕ) : i.event = .cancelRound round →
      (t.state = .waiting ∨ t.state = .playing ∨ t.state = .finished) → t.rounds ≠ [] →
      round.getD (t.rounds.length - 1) ≤ t.rounds.length - 1 →
      Effect rs t i
        (updateStandings (cancelRoundDoc t (round.getD (t.rounds.length - 1))) i.sanctions)
  | restoreRound (target : ℕ) (tables : List Table) : i.event = .restoreRound (some target) →
      (t.state = .playing ∨ t.state = .waiting) → t.finals = none →
      t.rounds[target]? = some tables → fullyCancelled tables = true →
      (∀ uid ∈ tables.flatMap Table.uids, checkRestorable t uid = .ok ⟨⟩) →
      Effect rs t i (updateStandings (restoreRoundDoc t target tables) i.sanctions)
  | swapFinals (round t1 s1 t2 s2 : ℕ) (f : FinalsTable) :
      i.event = .swapSeats round t1 s1 t2 s2 → (t.state = .playing ∨ t.state = .finished) →
      round = t.rounds.length → t.finals = some f → s1 < f.seating.length →
      s2 < f.seating.length →
      Effect rs t i (updateStandings { t with finals := some (swapFinals f s1 s2) } i.sanctions)
  | swapRound (round t1 s1 t2 s2 : ℕ) (tables : List Table) (x y : Seat) :
      i.event = .swapSeats round t1 s1 t2 s2 → (t.state = .playing ∨ t.state = .finished) →
      t.rounds[round]? = some tables → getAt (tables.map Table.seating) t1 s1 = some x →
      getAt (tables.map Table.seating) t2 s2 = some y →
      Effect rs t i
        (updateStandings
          { t with rounds := t.rounds.modify round fun r => swapRound r t1 s1 t2 s2 } i.sanctions)
  | reseatFinals (round : ℕ) (seating : List (List Uid)) (f : FinalsTable) :
      i.event = .alterSeating round seating → t.state ≠ .registration → t.state ≠ .planned →
      round = t.rounds.length → t.finals = some f → seating.flatten.Nodup →
      seating.flatten.length = f.seating.length →
      (∀ uid ∈ seating.flatten, uid ∈ f.seating.map Seat.playerUid) →
      Effect rs t i
        (updateStandings { t with finals := some (reseatFinals f seating.flatten) } i.sanctions)
  | reseatRound (round : ℕ) (seating : List (List Uid)) (tables : List Table) :
      i.event = .alterSeating round seating → t.state ≠ .registration → t.state ≠ .planned →
      t.rounds[round]? = some tables → tables.length ≤ seating.length → seating.flatten.Nodup →
      (∀ uid ∈ seating.flatten, playerExists t.players uid = true) →
      Effect rs t i (updateStandings (alterSeatingDoc t i.sanctions round tables seating)
        i.sanctions)
  | seatPlayer (uid : Uid) (table seat : ℕ) (round : Option ℕ) (target : ℕ) (p : Player)
      (tables : List Table) (tb : Table) :
      i.event = .seatPlayer uid table seat round → (t.state = .playing ∨ t.state = .finished) →
      findPlayer t.players uid = some p → seatable t uid p = true →
      resolveLiveRound t.rounds round = .ok target → t.rounds[target]? = some tables →
      tables[table]? = some tb → tb.seating.length < 5 →
      Effect rs t i (updateStandings (seatPlayerDoc t uid table seat target) i.sanctions)
  | unseatPlayer (uid : Uid) (round : Option ℕ) (target : ℕ) (tables : List Table) :
      i.event = .unseatPlayer uid round → (t.state = .playing ∨ t.state = .finished) →
      resolveLiveRound t.rounds round = .ok target → t.rounds[target]? = some tables →
      tables.any (fun tb => tb.seats uid) = true →
      Effect rs t i (updateStandings (unseatPlayerDoc t uid target) i.sanctions)
  | addTable : i.event = .addTable → (t.state = .playing ∨ t.state = .finished) →
      t.rounds ≠ [] →
      Effect rs t i
        { t with
          rounds := t.rounds.modify (t.rounds.length - 1) fun r => r ++ [Table.fresh none []] }
  | removeTable (table : ℕ) (tb : Table) : i.event = .removeTable table →
      (t.state = .playing ∨ t.state = .finished) →
      ((t.rounds[t.rounds.length - 1]?).getD [])[table]? = some tb → tb.seating = [] →
      Effect rs t i
        { t with rounds := t.rounds.modify (t.rounds.length - 1) fun r => r.eraseIdx table }
  | scoreFinals (round table : ℕ) (scores : List SeatScore) (f : FinalsTable)
      (written : List Seat × TableState) : i.event = .setScore round table scores →
      canEditResults i.actor t.state = true → round = t.rounds.length → table = 0 →
      t.finals = some f →
      reportTable t i.actor i.sanctions t.rounds.length f.seating f.state f.override
        (some f.seedOrder) scores = .ok written →
      Effect rs t i
        (updateStandings
          { t with finals := some { f with seating := written.1, state := written.2 } }
          i.sanctions)
  | scoreTable (round table : ℕ) (scores : List SeatScore) (tables : List Table) (tb : Table)
      (written : List Seat × TableState) : i.event = .setScore round table scores →
      canEditResults i.actor t.state = true → t.rounds[round]? = some tables →
      tables[table]? = some tb →
      reportTable t i.actor i.sanctions round tb.seating tb.state tb.override none scores =
        .ok written →
      Effect rs t i
        (updateStandings
          (modifyTable t round table fun tb => { tb with seating := written.1, state := written.2 })
          i.sanctions)
  | overrideFinals (round table : ℕ) (comment : String) (f : FinalsTable) :
      i.event = .override round table comment → canEditResults i.actor t.state = true →
      round = t.rounds.length → table = 0 → t.finals = some f →
      Effect rs t i
        (updateStandings
          { t with
            finals := some { f with override := some ⟨i.actor.uid, comment⟩, state := .finished } }
          i.sanctions)
  | overrideTable (round table : ℕ) (comment : String) (tables : List Table) (tb : Table) :
      i.event = .override round table comment → canEditResults i.actor t.state = true →
      t.rounds[round]? = some tables → tables[table]? = some tb →
      Effect rs t i
        (updateStandings
          (modifyTable t round table fun tb =>
            { tb with override := some ⟨i.actor.uid, comment⟩, state := .finished }) i.sanctions)
  | unoverrideFinals (round table : ℕ) (f : FinalsTable) : i.event = .unoverride round table →
      canEditResults i.actor t.state = true → round = t.rounds.length → table = 0 →
      t.finals = some f →
      Effect rs t i
        (updateStandings
          { t with
            finals :=
              some { f with override := none, state := judgedState (seatVps f.seating) } }
          i.sanctions)
  | unoverrideTable (round table : ℕ) (tables : List Table) (tb : Table) :
      i.event = .unoverride round table → canEditResults i.actor t.state = true →
      t.rounds[round]? = some tables → tables[table]? = some tb →
      Effect rs t i
        (updateStandings
          (modifyTable t round table fun tb =>
            { tb with override := none, state := judgedState (seatVps tb.seating) }) i.sanctions)
  | setToss (uid : Uid) (toss : ℕ) : i.event = .setToss uid toss →
      (t.state = .waiting ∨ t.state = .finished) →
      Effect rs t i { t with players := updatePlayer t.players uid fun p => { p with toss } }
  | randomToss : i.event = .randomToss → (t.state = .waiting ∨ t.state = .finished) →
      Effect rs t i { t with players := tossedPlayers t i.sanctions }
  | startFinals : i.event = .startFinals → (t.state = .waiting ∨ t.state = .finished) →
      2 ≤ countPlayedRounds t → t.finals = none → 5 ≤ (finalsPool t i.sanctions).length →
      Effect rs t i (startFinalsDoc t (qualifiers t i.sanctions))
  | finishFinals (f : FinalsTable) : i.event = .finishFinals →
      (t.state = .playing ∨ t.state = .finished) → t.finals = some f → f.state = .finished →
      Effect rs t i (updateStandings (finishFinalsDoc t i.sanctions f) i.sanctions)
  | cancelFinals : i.event = .cancelFinals → t.state = .playing → t.finals ≠ none →
      Effect rs t i (updateStandings (cancelFinalsDoc t) i.sanctions)
  | finishTournament : i.event = .finishTournament →
      (t.state = .waiting ∨ t.state = .playing ∨ t.state = .finished) →
      Effect rs t i
        (updateStandings { t with state := .finished, players := t.players.map finishEntry }
          i.sanctions)
  | reopenTournament : i.event = .reopenTournament → t.state = .finished →
      Effect rs t i (updateStandings (reopenTournamentDoc t) i.sanctions)
  | archival (sheet : ArchivalSheet) : i.event = .setArchivalResults sheet →
      t.state = .finished → playersWithRounds t = 0 → sheet.winner ∈ sheet.players →
      Effect rs t i (setArchivalResultsDoc t sheet)

/-! ### The handlers have these effects -/

section Handlers

variable {rs : RandomSource} {t t' : Tournament} {i : EventInput} {ops : List DeckOp}

theorem requireUnsanctioned_ok {sanctions : List Sanction} {uid : Uid} {now : String} {x : Unit}
    (h : requireUnsanctioned sanctions uid now = .ok x) : hasDqSanction sanctions uid = false := by
  simp only [requireUnsanctioned, ensure_bind_eq_ok] at h
  exact h.1

theorem register_effect {uid : Uid} {veknId name : Option String}
    (he : i.event = .register uid veknId name)
    (h : register t i.actor i.sanctions uid veknId name = .ok (t', ops)) : Effect rs t i t' := by
  simp only [register, ensure_eq_ok, exists_const, bind_eq_ok, pure_eq_ok, Prod.mk.injEq] at h
  obtain ⟨⟨hstate, -⟩, hfinals, -, -, hnew, x, hdq, rfl, -⟩ := h
  exact .register uid veknId name he hstate hfinals hnew (requireUnsanctioned_ok hdq)

theorem addPlayer_effect {uid : Uid} {veknId name : Option String} {waitlist : Bool}
    (he : i.event = .addPlayer uid veknId name waitlist)
    (h : addPlayer t i.actor i.sanctions i.decks uid veknId name waitlist = .ok (t', ops)) :
    Effect rs t i t' := by
  simp only [addPlayer, requireOrganizer, ensure_eq_ok, exists_const, bind_eq_ok, pure_eq_ok,
    Prod.mk.injEq] at h
  obtain ⟨-, -, hnew, x, hdq, rfl, -⟩ := h
  refine .addPlayer uid veknId name waitlist _ he hnew (requireUnsanctioned_ok hdq)
    ⟨rfl, rfl, rfl, rfl, rfl⟩ ?_
  by_cases hw : t.state = .waiting <;> simp [Player.fresh, hw]

theorem leave_effect {uid : Uid} (he : i.event = .unregister uid)
    (h : unregister t i.actor i.decks uid = .ok (t', ops)) : Effect rs t i t' := by
  simp only [unregister, requireState, ensure_bind_eq_ok, okOr_bind_eq_ok, pure_eq_ok,
    Prod.mk.injEq] at h
  obtain ⟨hstate, -, -, idx, hidx, rfl, -⟩ := h
  exact .leave uid idx (.inl he) (.inl hstate) hidx

theorem removePlayer_effect {uid : Uid} (he : i.event = .removePlayer uid)
    (h : removePlayer t i.actor i.decks uid = .ok (t', ops)) : Effect rs t i t' := by
  simp only [removePlayer, requireOrganizer, ensure_bind_eq_ok, okOr_bind_eq_ok, pure_eq_ok,
    Prod.mk.injEq, List.isEmpty_iff] at h
  obtain ⟨-, -, hrounds, idx, hidx, rfl, -⟩ := h
  exact .leave uid idx (.inr he) (.inr hrounds) hidx

theorem dropOut_effect {uid : Uid} (he : i.event = .dropOut uid)
    (h : dropOut t i.actor uid = .ok (t', ops)) : Effect rs t i t' := by
  simp only [dropOut, ensure_bind_eq_ok, okOr_bind_eq_ok, pure_eq_ok, Prod.mk.injEq] at h
  obtain ⟨hstate, p, hp, hne, -, rfl, -⟩ := h
  exact .dropOut uid p he hstate hp hne

theorem admitAtDoor_ok {uid : Uid} {veknId name : Option String} {players : List Player}
    (h : admitAtDoor t i.actor i.sanctions uid veknId name = .ok players) :
    players = t.players ∨ (playerExists t.players uid = false ∧ t.state ≠ .finished ∧
      players = t.players ++ [Player.fresh uid .registered false name]) := by
  unfold admitAtDoor at h
  split at h
  · exact .inl (pure_eq_ok.1 h).symm
  · rename_i hnew
    simp only [ensure_eq_ok, exists_const, bind_eq_ok, pure_eq_ok] at h
    obtain ⟨hstate, -, -, x, -, rfl⟩ := h
    refine .inr ⟨by simpa using hnew, ?_, rfl⟩
    rcases hstate with hs | hs <;> simp [hs]

theorem checkIn_effect {uid : Uid} {veknId name : Option String}
    (he : i.event = .checkIn uid veknId name)
    (h : checkIn t i.actor i.sanctions i.decks uid veknId name = .ok (t', ops)) :
    Effect rs t i t' := by
  simp only [checkIn, ensure_eq_ok, exists_const, bind_eq_ok, okOr_eq_ok, pure_eq_ok,
    Prod.mk.injEq] at h
  obtain ⟨hstate, -, players, hplayers, p, hp, hdq, hwait, x, hs, hcap, rfl, -⟩ := h
  exact .checkIn uid veknId name players p he hstate (admitAtDoor_ok hplayers) hp hdq hwait hcap
    (requireUnsanctioned_ok hs)

theorem startRound_effect {submitted : Option (List (List Uid))}
    (he : i.event = .startRound submitted)
    (h : startRound rs t i.actor i.decks submitted = .ok (t', ops)) : Effect rs t i t' := by
  simp only [startRound, requireOrganizer, ensure_eq_ok, exists_const, bind_eq_ok, pure_eq_ok,
    Prod.mk.injEq] at h
  obtain ⟨-, hstate, hfinals, -, seating, hseating, rfl, -⟩ := h
  refine .startRound submitted seating he ?_ hfinals hseating
  rcases hstate with hs | hs | hs
  · exact .inl hs
  · exact .inr (.inl hs)
  · exact .inr (.inr hs.2)

theorem selfOrganizeRound_effect {uids : List Uid} (he : i.event = .selfOrganizeRound uids)
    (h : selfOrganizeRound rs t i.actor i.decks uids = .ok (t', ops)) : Effect rs t i t' := by
  simp only [selfOrganizeRound, ensure_eq_ok, exists_const, bind_eq_ok, pure_eq_ok,
    Prod.mk.injEq] at h
  obtain ⟨-, hstate, hfinals, -, hnodup, -, x, hall, computed, hcomputed, rfl, -⟩ := h
  exact .selfOrganizeRound uids computed.1 he hstate hfinals hnodup (forM_eq_ok.1 hall)
    (computeNextRound_perm hcomputed)

theorem unfinishedTables_eq_nil {tables : List Table} (h : unfinishedTables tables = []) :
    ∀ tb ∈ tables, tb.state = .finished := by
  intro tb htb
  simp only [unfinishedTables, List.map_eq_nil_iff, List.filter_eq_nil_iff] at h
  obtain ⟨k, hk, rfl⟩ := List.mem_iff_getElem.1 htb
  have := h (tables[k], k) (by simp [List.mem_zipIdx_iff_getElem?, hk])
  simpa using this

theorem finishRound_effect {round : Option ℕ} (he : i.event = .finishRound round)
    (h : finishRound t i.actor i.sanctions round = .ok (t', ops)) : Effect rs t i t' := by
  simp only [finishRound, requireOrganizer, requireStateOrFinished, ensure_bind_eq_ok,
    okOr_bind_eq_ok, pure_eq_ok, Prod.mk.injEq] at h
  obtain ⟨-, hstate, -, tables, htables, hall, rfl, -⟩ := h
  exact .finishRound round tables he hstate htables (unfinishedTables_eq_nil hall)

theorem cancelRound_effect {round : Option ℕ} (he : i.event = .cancelRound round)
    (h : cancelRound t i.actor i.sanctions i.decks round = .ok (t', ops)) : Effect rs t i t' := by
  simp only [cancelRound, requireOrganizer, ensure_bind_eq_ok, pure_eq_ok, Prod.mk.injEq,
    List.isEmpty_eq_false_iff] at h
  obtain ⟨-, hstate, hrounds, htarget, -, rfl, -⟩ := h
  exact .cancelRound round he hstate hrounds htarget

theorem restoreRound_effect {round : Option ℕ} (he : i.event = .restoreRound round)
    (h : restoreRound t i.actor i.sanctions round = .ok (t', ops)) : Effect rs t i t' := by
  simp only [restoreRound, requireOrganizer, ensure_eq_ok, exists_const, okOr_eq_ok, bind_eq_ok,
    pure_eq_ok, Prod.mk.injEq] at h
  obtain ⟨-, hstate, hfinals, target, rfl, tables, htables, hcancelled, x, hall, rfl, -⟩ := h
  exact .restoreRound target tables he hstate hfinals htables hcancelled (forM_eq_ok.1 hall)

theorem isFinalsRound_iff {round : ℕ} :
    isFinalsRound t round = true ↔ round = t.rounds.length ∧ ∃ f, t.finals = some f := by
  simp [isFinalsRound, Option.isSome_iff_exists]

theorem isFinalsTable_iff {round table : ℕ} :
    isFinalsTable t round table = true ↔
      round = t.rounds.length ∧ table = 0 ∧ ∃ f, t.finals = some f := by
  simp only [isFinalsTable, Bool.and_eq_true, isFinalsRound_iff, beq_iff_eq]
  tauto

theorem swapSeats_effect {round t1 s1 t2 s2 : ℕ} (he : i.event = .swapSeats round t1 s1 t2 s2)
    (h : swapSeats t i.actor i.sanctions round t1 s1 t2 s2 = .ok (t', ops)) :
    Effect rs t i t' := by
  simp only [swapSeats, requireOrganizer, requireStateOrFinished, ensure_bind_eq_ok] at h
  obtain ⟨-, hstate, h⟩ := h
  split at h
  · rename_i hcond
    obtain ⟨hround, f, hf⟩ := isFinalsRound_iff.1 hcond.1
    simp only [ensure_bind_eq_ok, pure_eq_ok, Prod.mk.injEq, hf, Option.elim_some,
      Option.map_some] at h
    obtain ⟨⟨hs1, hs2⟩, rfl, -⟩ := h
    exact .swapFinals round t1 s1 t2 s2 f he hstate hround hf hs1 hs2
  · simp only [okOr_bind_eq_ok, ensure_bind_eq_ok, pure_eq_ok, Prod.mk.injEq,
      Option.isSome_iff_exists] at h
    obtain ⟨tables, htables, -, ⟨⟨x, hx⟩, y, hy⟩, rfl, -⟩ := h
    exact .swapRound round t1 s1 t2 s2 tables x y he hstate htables hx hy

theorem alterSeating_effect {round : ℕ} {seating : List (List Uid)}
    (he : i.event = .alterSeating round seating)
    (h : alterSeating t i.actor i.sanctions i.decks round seating = .ok (t', ops)) :
    Effect rs t i t' := by
  simp only [alterSeating, requireOrganizer, ensure_bind_eq_ok] at h
  obtain ⟨-, hstate, hnodup, h⟩ := h
  have hreg : t.state ≠ .registration := by rcases hstate with hs | hs | hs <;> simp [hs]
  have hplan : t.state ≠ .planned := by rcases hstate with hs | hs | hs <;> simp [hs]
  split at h
  · rename_i hcond
    obtain ⟨hround, f, hf⟩ := isFinalsRound_iff.1 hcond
    simp only [ensure_bind_eq_ok, pure_eq_ok, Prod.mk.injEq, hf, Option.elim_some,
      Option.map_some, List.length_map] at h
    obtain ⟨-, hlen, ⟨-, hsub⟩, rfl, -⟩ := h
    exact .reseatFinals round seating f he hreg hplan hround hf hnodup hlen hsub
  · simp only [bind_eq_ok, okOr_eq_ok, ensure_eq_ok, exists_const, pure_eq_ok,
      Prod.mk.injEq] at h
    obtain ⟨tables, htables, hlen, x, -, -, hexists, -, rfl, -⟩ := h
    exact .reseatRound round seating tables he hreg hplan htables hlen hnodup hexists

theorem seatPlayer_effect {uid : Uid} {table seat : ℕ} {round : Option ℕ}
    (he : i.event = .seatPlayer uid table seat round)
    (h : seatPlayer t i.actor i.sanctions i.decks uid table seat round = .ok (t', ops)) :
    Effect rs t i t' := by
  simp only [seatPlayer, requireOrganizer, requireStateOrFinished, ensure_eq_ok, exists_const,
    okOr_eq_ok, bind_eq_ok, pure_eq_ok, Prod.mk.injEq] at h
  obtain ⟨-, hstate, p, hp, hseatable, -, target, htarget, tb, htb, hfull, rfl, -⟩ := h
  cases hr : t.rounds[target]? with
  | none => simp [hr] at htb
  | some tables =>
    rw [hr] at htb
    exact .seatPlayer uid table seat round target p tables tb he hstate hp hseatable htarget hr
      htb hfull

theorem unseatPlayer_effect {uid : Uid} {round : Option ℕ} (he : i.event = .unseatPlayer uid round)
    (h : unseatPlayer t i.actor i.sanctions i.decks uid round = .ok (t', ops)) :
    Effect rs t i t' := by
  simp only [unseatPlayer, requireOrganizer, requireStateOrFinished, ensure_eq_ok, exists_const,
    bind_eq_ok, pure_eq_ok, Prod.mk.injEq] at h
  obtain ⟨-, hstate, -, target, htarget, hany, rfl, -⟩ := h
  cases hr : t.rounds[target]? with
  | none => simp [hr] at hany
  | some tables =>
    rw [hr] at hany
    exact .unseatPlayer uid round target tables he hstate htarget hr hany

theorem prelimTable_ok {round table : ℕ} {tb : Table} (h : prelimTable t round table = .ok tb) :
    ∃ tables, t.rounds[round]? = some tables ∧ tables[table]? = some tb := by
  simp only [prelimTable, okOr_bind_eq_ok, okOr_eq_ok] at h
  exact h

theorem setScore_effect {round table : ℕ} {scores : List SeatScore}
    (he : i.event = .setScore round table scores)
    (h : setScore t i.actor i.sanctions round table scores = .ok (t', ops)) :
    Effect rs t i t' := by
  simp only [setScore, requireCanEditResults, ensure_bind_eq_ok] at h
  obtain ⟨hedit, h⟩ := h
  split at h
  · rename_i hcond
    obtain ⟨hround, htable, -⟩ := isFinalsTable_iff.1 hcond
    simp only [okOr_eq_ok, bind_eq_ok, pure_eq_ok, Prod.mk.injEq] at h
    obtain ⟨f, hf, written, hw, rfl, -⟩ := h
    exact .scoreFinals round table scores f written he hedit hround htable hf hw
  · simp only [bind_eq_ok, pure_eq_ok, Prod.mk.injEq] at h
    obtain ⟨tb, htb, written, hw, rfl, -⟩ := h
    obtain ⟨tables, htables, htb⟩ := prelimTable_ok htb
    exact .scoreTable round table scores tables tb written he hedit htables htb hw

theorem override_effect {round table : ℕ} {comment : String}
    (he : i.event = .override round table comment)
    (h : override t i.actor i.sanctions round table comment = .ok (t', ops)) :
    Effect rs t i t' := by
  simp only [override, requireOrganizer, requireCanEditResults, ensure_bind_eq_ok] at h
  obtain ⟨-, hedit, h⟩ := h
  split at h
  · rename_i hcond
    obtain ⟨hround, htable, f, hf⟩ := isFinalsTable_iff.1 hcond
    simp only [pure_eq_ok, Prod.mk.injEq, hf, Option.map_some] at h
    obtain ⟨rfl, -⟩ := h
    exact .overrideFinals round table comment f he hedit hround htable hf
  · simp only [bind_eq_ok, pure_eq_ok, Prod.mk.injEq] at h
    obtain ⟨tb, htb, rfl, -⟩ := h
    obtain ⟨tables, htables, htb⟩ := prelimTable_ok htb
    exact .overrideTable round table comment tables tb he hedit htables htb

theorem unoverride_effect {round table : ℕ} (he : i.event = .unoverride round table)
    (h : unoverride t i.actor i.sanctions round table = .ok (t', ops)) : Effect rs t i t' := by
  simp only [unoverride, requireOrganizer, requireCanEditResults, ensure_bind_eq_ok] at h
  obtain ⟨-, hedit, h⟩ := h
  split at h
  · rename_i hcond
    obtain ⟨hround, htable, f, hf⟩ := isFinalsTable_iff.1 hcond
    simp only [pure_eq_ok, Prod.mk.injEq, hf, Option.map_some] at h
    obtain ⟨rfl, -⟩ := h
    exact .unoverrideFinals round table f he hedit hround htable hf
  · simp only [bind_eq_ok, pure_eq_ok, Prod.mk.injEq] at h
    obtain ⟨tb, htb, rfl, -⟩ := h
    obtain ⟨tables, htables, htb⟩ := prelimTable_ok htb
    exact .unoverrideTable round table tables tb he hedit htables htb

/-! #### Registration and check-in -/

theorem openRegistration_effect (he : i.event = .openRegistration)
    (h : openRegistration t i.actor = .ok (t', ops)) : Effect rs t i t' := by
  simp only [openRegistration, requireOrganizer, requireState, ensure_bind_eq_ok, pure_eq_ok,
    Prod.mk.injEq] at h
  obtain ⟨-, hstate, rfl, -⟩ := h
  exact .openRegistration he hstate

theorem closeRegistration_effect (he : i.event = .closeRegistration)
    (h : closeRegistration t i.actor = .ok (t', ops)) : Effect rs t i t' := by
  simp only [closeRegistration, requireOrganizer, requireState, ensure_bind_eq_ok, pure_eq_ok,
    Prod.mk.injEq] at h
  obtain ⟨-, hstate, rfl, -⟩ := h
  exact .closeRegistration he hstate

theorem cancelRegistration_effect (he : i.event = .cancelRegistration)
    (h : cancelRegistration t i.actor = .ok (t', ops)) : Effect rs t i t' := by
  simp only [cancelRegistration, requireOrganizer, requireState, ensure_bind_eq_ok, pure_eq_ok,
    Prod.mk.injEq] at h
  obtain ⟨-, hstate, rfl, -⟩ := h
  exact .cancelRegistration he hstate

theorem reopenRegistration_effect (he : i.event = .reopenRegistration)
    (h : reopenRegistration t i.actor = .ok (t', ops)) : Effect rs t i t' := by
  simp only [reopenRegistration, requireOrganizer, requireState, ensure_bind_eq_ok, pure_eq_ok,
    Prod.mk.injEq, List.isEmpty_iff] at h
  obtain ⟨-, hstate, hrounds, rfl, -⟩ := h
  exact .reopenRegistration he hstate hrounds

theorem checkOut_effect {uid : Uid} (he : i.event = .checkOut uid)
    (h : checkOut t i.actor uid = .ok (t', ops)) : Effect rs t i t' := by
  simp only [checkOut, requireOrganizer, requireStateOrFinished, ensure_bind_eq_ok,
    okOr_bind_eq_ok, pure_eq_ok, Prod.mk.injEq] at h
  obtain ⟨-, hstate, p, hp, hin, rfl, -⟩ := h
  exact .checkOut uid p he hstate hp hin

theorem checkInAll_effect (he : i.event = .checkInAll)
    (h : checkInAll t i.actor i.sanctions = .ok (t', ops)) : Effect rs t i t' := by
  simp only [checkInAll, requireOrganizer, requireStateOrFinished, ensure_bind_eq_ok, pure_eq_ok,
    Prod.mk.injEq] at h
  obtain ⟨-, hstate, rfl, -⟩ := h
  exact .checkInAll he hstate

theorem resetCheckIn_effect (he : i.event = .resetCheckIn)
    (h : resetCheckIn t i.actor = .ok (t', ops)) : Effect rs t i t' := by
  simp only [resetCheckIn, requireOrganizer, requireStateOrFinished, ensure_bind_eq_ok, pure_eq_ok,
    Prod.mk.injEq] at h
  obtain ⟨-, hstate, rfl, -⟩ := h
  exact .resetCheckIn he hstate

theorem setNonCompeting_effect {uid : Uid} {nonCompeting : Bool}
    (he : i.event = .setNonCompeting uid nonCompeting)
    (h : setNonCompeting t i.actor i.sanctions uid nonCompeting = .ok (t', ops)) :
    Effect rs t i t' := by
  simp only [setNonCompeting, requireOrganizer, ensure_bind_eq_ok, pure_eq_ok,
    Prod.mk.injEq] at h
  obtain ⟨-, ⟨hfinals, hstate⟩, -, rfl, -⟩ := h
  exact .setNonCompeting uid nonCompeting he hfinals hstate

theorem setWaitlisted_effect {uid : Uid} {waitlisted : Bool}
    (he : i.event = .setWaitlisted uid waitlisted)
    (h : setWaitlisted t i.actor uid waitlisted = .ok (t', ops)) : Effect rs t i t' := by
  simp only [setWaitlisted, requireOrganizer, ensure_bind_eq_ok, okOr_bind_eq_ok, pure_eq_ok,
    Prod.mk.injEq] at h
  obtain ⟨-, p, hp, hw, rfl, -⟩ := h
  exact .setWaitlisted uid waitlisted p he hp hw

/-! #### Tables, tosses and finals -/

theorem addTable_effect (he : i.event = .addTable) (h : addTable t i.actor = .ok (t', ops)) :
    Effect rs t i t' := by
  simp only [addTable, requireOrganizer, requireStateOrFinished, ensure_bind_eq_ok, pure_eq_ok,
    Prod.mk.injEq, List.isEmpty_eq_false_iff] at h
  obtain ⟨-, hstate, hrounds, rfl, -⟩ := h
  exact .addTable he hstate hrounds

theorem removeTable_effect {table : ℕ} (he : i.event = .removeTable table)
    (h : removeTable t i.actor table = .ok (t', ops)) : Effect rs t i t' := by
  simp only [removeTable, requireOrganizer, requireStateOrFinished, ensure_bind_eq_ok,
    okOr_bind_eq_ok, pure_eq_ok, Prod.mk.injEq, List.isEmpty_iff] at h
  obtain ⟨-, hstate, -, tb, htb, hempty, rfl, -⟩ := h
  exact .removeTable table tb he hstate htb hempty

theorem setToss_effect {uid : Uid} {toss : ℕ} (he : i.event = .setToss uid toss)
    (h : setToss t i.actor uid toss = .ok (t', ops)) : Effect rs t i t' := by
  simp only [setToss, requireOrganizer, requireStateOrFinished, ensure_bind_eq_ok, pure_eq_ok,
    Prod.mk.injEq] at h
  obtain ⟨-, hstate, -, -, rfl, -⟩ := h
  exact .setToss uid toss he hstate

theorem randomToss_effect (he : i.event = .randomToss)
    (h : randomToss t i.actor i.sanctions = .ok (t', ops)) : Effect rs t i t' := by
  simp only [randomToss, requireOrganizer, requireStateOrFinished, ensure_bind_eq_ok, pure_eq_ok,
    Prod.mk.injEq] at h
  obtain ⟨-, hstate, -, rfl, -⟩ := h
  exact .randomToss he hstate

theorem startFinals_effect (he : i.event = .startFinals)
    (h : startFinals t i.actor i.sanctions i.decks = .ok (t', ops)) : Effect rs t i t' := by
  simp only [startFinals, requireOrganizer, requireStateOrFinished, ensure_bind_eq_ok, pure_eq_ok,
    Prod.mk.injEq] at h
  obtain ⟨-, hstate, hplayed, hfinals, hpool, -, rfl, -⟩ := h
  exact .startFinals he hstate hplayed hfinals hpool

theorem finishFinals_effect (he : i.event = .finishFinals)
    (h : finishFinals t i.actor i.sanctions = .ok (t', ops)) : Effect rs t i t' := by
  simp only [finishFinals, requireOrganizer, requireStateOrFinished, ensure_bind_eq_ok,
    okOr_bind_eq_ok, pure_eq_ok, Prod.mk.injEq] at h
  obtain ⟨-, hstate, f, hf, hfinished, rfl, -⟩ := h
  exact .finishFinals f he hstate hf hfinished

theorem cancelFinals_effect (he : i.event = .cancelFinals)
    (h : cancelFinals t i.actor i.sanctions i.decks = .ok (t', ops)) : Effect rs t i t' := by
  simp only [cancelFinals, requireOrganizer, requireState, ensure_bind_eq_ok, pure_eq_ok,
    Prod.mk.injEq] at h
  obtain ⟨-, hstate, hfinals, rfl, -⟩ := h
  exact .cancelFinals he hstate (Option.isSome_iff_ne_none.1 hfinals)

theorem finishTournament_effect (he : i.event = .finishTournament)
    (h : finishTournament t i.actor i.sanctions = .ok (t', ops)) : Effect rs t i t' := by
  simp only [finishTournament, requireOrganizer, ensure_bind_eq_ok, pure_eq_ok,
    Prod.mk.injEq] at h
  obtain ⟨-, hstate, rfl, -⟩ := h
  exact .finishTournament he hstate

theorem reopenTournament_effect (he : i.event = .reopenTournament)
    (h : reopenTournament t i.actor i.sanctions = .ok (t', ops)) : Effect rs t i t' := by
  simp only [reopenTournament, requireOrganizer, requireState, ensure_bind_eq_ok, pure_eq_ok,
    Prod.mk.injEq] at h
  obtain ⟨-, hstate, rfl, -⟩ := h
  exact .reopenTournament he hstate

theorem setArchivalResults_effect {sheet : ArchivalSheet}
    (he : i.event = .setArchivalResults sheet)
    (h : setArchivalResults t i.actor sheet = .ok (t', ops)) : Effect rs t i t' := by
  simp only [setArchivalResults, requireState, ensure_bind_eq_ok, pure_eq_ok,
    Prod.mk.injEq] at h
  obtain ⟨-, hstate, hplay, -, hlisted, -, rfl, -⟩ := h
  exact .archival sheet he hstate hplay hlisted

/-! #### Quiet events -/

theorem setPaymentStatus_quiet {uid : Uid} {status : String}
    (h : setPaymentStatus t i.actor uid status = .ok (t', ops)) : Quiet t t' := by
  simp only [setPaymentStatus, requireOrganizer, ensure_bind_eq_ok, okOr_bind_eq_ok, pure_eq_ok,
    Prod.mk.injEq] at h
  obtain ⟨-, status, -, -, rfl, -⟩ := h
  refine ⟨rfl, rfl, rfl, rfl, rfl, sameEntry_updatePlayer ?_ uid⟩
  exact fun p => ⟨rfl, rfl, rfl, rfl, rfl, rfl, rfl⟩

theorem markAllPaid_quiet (h : markAllPaid t i.actor = .ok (t', ops)) : Quiet t t' := by
  simp only [markAllPaid, requireOrganizer, ensure_bind_eq_ok, pure_eq_ok, Prod.mk.injEq] at h
  obtain ⟨-, rfl, -⟩ := h
  refine ⟨rfl, rfl, rfl, rfl, rfl, sameEntry_map fun p => ?_⟩
  split
  · exact ⟨rfl, rfl, rfl, rfl, rfl, rfl, rfl⟩
  · exact SameEntry.refl p

theorem upsertDeck_quiet {uid : Uid} {deck : DeckUpload} {multideck : Bool}
    (h : upsertDeck t i.actor i.decks uid deck multideck = .ok (t', ops)) : Quiet t t' := by
  simp only [upsertDeck, requireOwnerOfPrivate, ensure_bind_eq_ok, pure_eq_ok,
    Prod.mk.injEq] at h
  obtain ⟨-, -, -, -, -, rfl, -⟩ := h
  refine ⟨rfl, rfl, rfl, rfl, rfl, sameEntry_updatePlayer ?_ uid⟩
  exact fun p => ⟨rfl, rfl, rfl, rfl, rfl, rfl, rfl⟩

theorem deleteDeck_quiet {uid : Uid} {deckIndex : Option ℕ} {multideck : Bool}
    (h : deleteDeck t i.actor i.decks uid deckIndex multideck = .ok (t', ops)) : Quiet t t' := by
  simp only [deleteDeck, requireOwnerOfPrivate, ensure_bind_eq_ok, pure_eq_ok,
    Prod.mk.injEq] at h
  obtain ⟨-, -, -, -, -, rfl, -⟩ := h
  refine ⟨rfl, rfl, rfl, rfl, rfl, ?_⟩
  dsimp only
  split
  · refine sameEntry_updatePlayer (fun p => ?_) uid
    unfold owesDecklist
    split
    · exact ⟨rfl, rfl, rfl, rfl, rfl, rfl, rfl⟩
    · exact SameEntry.refl p
  · exact sameEntry_self t.players

theorem setDeckAttribution_quiet {uid : Uid} {round : Option ℕ} {attribution : Attribution}
    (h : setDeckAttribution t i.actor i.decks uid round attribution = .ok (t', ops)) :
    Quiet t t' := by
  simp only [setDeckAttribution, ensure_bind_eq_ok, okOr_bind_eq_ok, pure_eq_ok,
    Prod.mk.injEq] at h
  obtain ⟨-, d, -, rfl, -⟩ := h
  exact Quiet.refl t

theorem setDeckPrivate_quiet {uid : Uid} {round : Option ℕ} {isPrivate : Bool}
    (h : setDeckPrivate t i.actor i.decks uid round isPrivate = .ok (t', ops)) : Quiet t t' := by
  simp only [setDeckPrivate, ensure_bind_eq_ok, okOr_bind_eq_ok, pure_eq_ok,
    Prod.mk.injEq] at h
  obtain ⟨-, -, d, -, rfl, -⟩ := h
  exact Quiet.refl t

theorem viewDeck_doc {uid : Uid} {round : Option ℕ}
    (h : viewDeck t i.actor i.decks uid round = .ok (t', ops)) : t' = t := by
  simp only [viewDeck, requireOrganizer, ensure_bind_eq_ok] at h
  obtain ⟨-, h⟩ := h
  split at h
  · simp only [pure_eq_ok, Prod.mk.injEq] at h
    exact h.1.symm
  · simp only [okOr_bind_eq_ok] at h
    obtain ⟨d, -, h⟩ := h
    split at h
    all_goals
      simp only [pure_eq_ok, Prod.mk.injEq] at h
      exact h.1.symm

theorem viewDeck_quiet {uid : Uid} {round : Option ℕ}
    (h : viewDeck t i.actor i.decks uid round = .ok (t', ops)) : Quiet t t' :=
  viewDeck_doc h ▸ Quiet.refl t

theorem raffleDraw_quiet {label pool : String} {excludeDrawn : Bool} {count : ℕ} {seed : UInt64}
    {prize : Option Uid}
    (h : raffleDraw t i.actor i.sanctions label pool excludeDrawn count seed prize =
      .ok (t', ops)) : Quiet t t' := by
  simp only [raffleDraw, requireOrganizer, bind_eq_ok, ensure_eq_ok, exists_const, pure_eq_ok,
    Prod.mk.injEq] at h
  obtain ⟨-, -, -, eligible, -, -, rfl, -⟩ := h
  exact ⟨rfl, rfl, rfl, rfl, rfl, sameEntry_self t.players⟩

theorem raffleUndo_quiet (h : raffleUndo t i.actor = .ok (t', ops)) : Quiet t t' := by
  simp only [raffleUndo, requireOrganizer, ensure_bind_eq_ok, pure_eq_ok, Prod.mk.injEq] at h
  obtain ⟨-, -, rfl, -⟩ := h
  exact ⟨rfl, rfl, rfl, rfl, rfl, sameEntry_self t.players⟩

theorem raffleClear_quiet (h : raffleClear t i.actor = .ok (t', ops)) : Quiet t t' := by
  simp only [raffleClear, requireOrganizer, ensure_bind_eq_ok, pure_eq_ok, Prod.mk.injEq] at h
  obtain ⟨-, rfl, -⟩ := h
  exact ⟨rfl, rfl, rfl, rfl, rfl, sameEntry_self t.players⟩

theorem reportPromos_quiet {promos : List PromoDistribution} {source : Option Uid}
    (h : reportPromos t i.actor promos source = .ok (t', ops)) : Quiet t t' := by
  simp only [reportPromos, requireOrganizer, ensure_bind_eq_ok, pure_eq_ok, Prod.mk.injEq] at h
  obtain ⟨-, rfl, -⟩ := h
  exact ⟨rfl, rfl, rfl, rfl, rfl, sameEntry_self t.players⟩

theorem updateConfigDoc_quiet (t : Tournament) (c : ConfigPatch) :
    Quiet t (updateConfigDoc t c) := by
  unfold updateConfigDoc
  extract_lets patched
  split
  · exact ⟨rfl, rfl, rfl, rfl, rfl, sameEntry_map fun p => ⟨rfl, rfl, rfl, rfl, rfl, rfl, rfl⟩⟩
  · exact ⟨rfl, rfl, rfl, rfl, rfl, sameEntry_self t.players⟩

theorem updateConfig_doc {c : ConfigPatch} (h : updateConfig t i.actor c = .ok (t', ops)) :
    t' = updateConfigDoc t c := by
  simp only [updateConfig, bind_eq_ok] at h
  obtain ⟨-, -, -, -, -, -, h⟩ := h
  obtain ⟨-, h⟩ := check_if_eq_ok.1 h
  obtain ⟨-, h⟩ := check_if_eq_ok.1 h
  simp only [bind_eq_ok, pure_eq_ok, Prod.mk.injEq] at h
  obtain ⟨-, -, -, -, -, -, rfl, -⟩ := h
  rfl

theorem updateConfig_quiet {c : ConfigPatch} (h : updateConfig t i.actor c = .ok (t', ops)) :
    Quiet t t' := updateConfig_doc h ▸ updateConfigDoc_quiet t c

end Handlers

theorem effect_of_applyEvent {rs : RandomSource} {t t' : Tournament} {i : EventInput}
    {ops : List DeckOp} (h : applyEvent rs t i = .ok (t', ops)) : Effect rs t i t' := by
  unfold applyEvent at h
  split at h <;> rename_i he
  · exact openRegistration_effect he h
  · exact closeRegistration_effect he h
  · exact cancelRegistration_effect he h
  · exact reopenRegistration_effect he h
  · exact reopenTournament_effect he h
  · exact finishTournament_effect he h
  · exact register_effect he h
  · exact leave_effect he h
  · exact addPlayer_effect he h
  · exact removePlayer_effect he h
  · exact dropOut_effect he h
  · exact checkIn_effect he h
  · exact checkOut_effect he h
  · exact checkInAll_effect he h
  · exact resetCheckIn_effect he h
  · exact .quiet (by rw [he]; rfl) (setPaymentStatus_quiet h)
  · exact .quiet (by rw [he]; rfl) (markAllPaid_quiet h)
  · exact setNonCompeting_effect he h
  · exact setWaitlisted_effect he h
  · exact startRound_effect he h
  · exact finishRound_effect he h
  · exact cancelRound_effect he h
  · exact restoreRound_effect he h
  · exact selfOrganizeRound_effect he h
  · exact swapSeats_effect he h
  · exact seatPlayer_effect he h
  · exact unseatPlayer_effect he h
  · exact addTable_effect he h
  · exact removeTable_effect he h
  · exact setScore_effect he h
  · exact override_effect he h
  · exact unoverride_effect he h
  · exact setToss_effect he h
  · exact randomToss_effect he h
  · exact startFinals_effect he h
  · exact finishFinals_effect he h
  · exact cancelFinals_effect he h
  · exact alterSeating_effect he h
  · exact .quiet (by rw [he]; rfl) (upsertDeck_quiet h)
  · exact .quiet (by rw [he]; rfl) (deleteDeck_quiet h)
  · exact .quiet (by rw [he]; rfl) (setDeckAttribution_quiet h)
  · exact .quiet (by rw [he]; rfl) (setDeckPrivate_quiet h)
  · exact .quiet (by rw [he]; rfl) (viewDeck_quiet h)
  · exact .quiet (by rw [he]; rfl) (raffleDraw_quiet h)
  · exact .quiet (by rw [he]; rfl) (raffleUndo_quiet h)
  · exact .quiet (by rw [he]; rfl) (raffleClear_quiet h)
  · exact .quiet (by rw [he]; rfl) (reportPromos_quiet h)
  · exact .quiet (by rw [he]; rfl) (updateConfig_quiet h)
  · exact setArchivalResults_effect he h

theorem effect_of_acceptEvent {rs : RandomSource} {t t' : Tournament} {i : EventInput}
    (h : acceptEvent rs t i = .ok t') : Effect rs t i t' := by
  obtain ⟨ops, h⟩ := acceptEvent_eq_ok.1 h
  exact effect_of_applyEvent h

end Archon.Engine

import Archon.Engine.Sheet
import Archon.Properties.Disqualified

/-!
# The stored standings

The stored standings are recomputed by the handlers that end with `updateStandings`, and only by
them. The other events leave the sheet as it is; all but the tosses and the start of the finals
also leave what would be computed afresh.
-/

namespace Archon.Engine
open Guards Seating

/-- The stored standings are those computed afresh. -/
def Fresh (t : Tournament) (sanctions : List Sanction) : Prop :=
  t.standings = computePreliminaryStandings t sanctions

instance (t : Tournament) (sanctions : List Sanction) : Decidable (Fresh t sanctions) :=
  inferInstanceAs (Decidable (t.standings = computePreliminaryStandings t sanctions))

/-- The events that end with the recompute. -/
def TournamentEvent.recomputes : TournamentEvent → Bool
  | .reopenTournament => true
  | .finishTournament => true
  | .setNonCompeting _ _ => true
  | .finishRound _ => true
  | .cancelRound _ => true
  | .restoreRound _ => true
  | .swapSeats _ _ _ _ _ => true
  | .alterSeating _ _ => true
  | .seatPlayer _ _ _ _ => true
  | .unseatPlayer _ _ => true
  | .setScore _ _ _ => true
  | .override _ _ _ => true
  | .unoverride _ _ => true
  | .finishFinals => true
  | .cancelFinals => true
  | _ => false

/-- The events that toss. -/
def TournamentEvent.tosses : TournamentEvent → Bool
  | .setToss _ _ => true
  | .randomToss => true
  | _ => false

/-- The event puts an archived sheet in place of the stored one. -/
def TournamentEvent.archives : TournamentEvent → Bool
  | .setArchivalResults _ => true
  | _ => false

/-- The event neither recomputes nor changes what the standings are computed from: it does not
toss, start the finals or archive, and no disqualified player drops out. -/
def LeavesResults (t : Tournament) (i : EventInput) : Prop :=
  i.event.recomputes = false ∧ i.event.tosses = false ∧ i.event.archives = false ∧
  match i.event with
  | .startFinals => False
  | .dropOut uid => ¬IsDisqualified t.players uid
  | _ => True

/-- A row without its toss. -/
def Standing.untossed (row : Standing) : Standing := { row with toss := 0 }

section Freshness

variable {rs : RandomSource} {t t' : Tournament} {i : EventInput} {uid : Uid}
variable {players : List Player} {f : Player → Player}

/-! ### Marks of a rewritten roster -/

theorem sheetMarks_map (hf : ∀ p, (f p).userUid = p.userUid)
    (h : ∀ p, findPlayer players uid = some p → (f p).marks = p.marks) :
    sheetMarks (players.map f) uid = sheetMarks players uid := by
  rw [sheetMarks, findPlayer_map hf, sheetMarks]
  cases hp : findPlayer players uid with
  | none => rfl
  | some p => exact h p hp

theorem sheetMarks_update {u : Uid} (hf : ∀ p, (f p).userUid = p.userUid)
    (h : ∀ p, findPlayer players u = some p → (f p).marks = p.marks) :
    sheetMarks (updatePlayer players u f) uid = sheetMarks players uid := by
  by_cases hu : uid = u
  · subst hu
    rw [sheetMarks, findPlayer_update_self hf, sheetMarks]
    cases hp : findPlayer players uid with
    | none => rfl
    | some p => exact h p hp
  · rw [sheetMarks, findPlayer_update_ne hf hu, sheetMarks]

theorem sheetMarks_push (h : some uid ∈ rosterUids players) (p : Player) :
    sheetMarks (players ++ [p]) uid = sheetMarks players uid := by
  cases hq : findPlayer players uid with
  | none => exact absurd h (findPlayer_eq_none.1 hq)
  | some q => rw [sheetMarks, findPlayer_push hq, sheetMarks, hq]

theorem sheetMarks_sameEntry {ps qs : List Player} (h : List.Forall₂ SameEntry ps qs)
    (huid : some uid ∈ rosterUids ps) : sheetMarks qs uid = sheetMarks ps uid := by
  cases hp : findPlayer ps uid with
  | none => exact absurd huid (findPlayer_eq_none.1 hp)
  | some p =>
    obtain ⟨q, hq, hpq⟩ := findPlayer_sameEntry h hp
    rw [sheetMarks, hq, sheetMarks, hp]
    simp [Player.marks, hpq.state, hpq.toss, hpq.finalist, hpq.nonCompeting]

theorem marks_withState {p : Player} {state : PlayerState}
    (h : state = .disqualified ↔ p.state = .disqualified) :
    (p.withState state).marks = p.marks := by
  have hb : (state == .disqualified) = (p.state == .disqualified) := by
    rw [Bool.eq_iff_iff, beq_iff_eq, beq_iff_eq, h]
  simp [Player.marks, Player.withState, hb]

theorem OnlyState.marks (hf : OnlyState f) {p : Player}
    (h : (f p).state = .disqualified ↔ p.state = .disqualified) : (f p).marks = p.marks := by
  obtain ⟨state, hs⟩ := hf p
  rw [hs] at h ⊢
  exact marks_withState h

/-! ### Results of the rewritten rounds -/

theorem playedAt_append_fresh (rounds : List (List Table)) (organizer : Option Uid)
    (seating : List (List Uid)) (r : ℕ) :
    playedAt (rounds ++ [seating.map (Table.fresh organizer)]) r = playedAt rounds r := by
  have hfresh : (seating.map (Table.fresh organizer)).filter Table.isPlayed = [] := by
    rw [List.filter_eq_nil_iff]
    simp [Table.isPlayed, Table.fresh]
  rcases Nat.lt_trichotomy r rounds.length with hlt | rfl | hgt
  · rw [playedAt, List.getElem?_append_left hlt, playedAt]
  · rw [playedAt_of_length (Nat.le_refl _), playedAt, List.getElem?_concat_length]
    simp [hfresh]
  · rw [playedAt_of_length (Nat.le_of_lt hgt), playedAt_of_length (by simp; omega)]

theorem playedAt_modify {rounds : List (List Table)} {k : ℕ} {g : List Table → List Table}
    (hg : ∀ round, rounds[k]? = some round →
      (g round).filter Table.isPlayed = round.filter Table.isPlayed) (r : ℕ) :
    playedAt (rounds.modify k g) r = playedAt rounds r := by
  rw [playedAt, List.getElem?_modify, playedAt]
  by_cases hk : k = r
  · subst hk
    cases hround : rounds[k]? with
    | none => rfl
    | some round => simp [hg round hround]
  · simp [hk]

theorem filter_played_eraseIdx {round : List Table} {table : ℕ} {tb : Table}
    (htb : round[table]? = some tb) (hempty : tb.seating = []) :
    (round.eraseIdx table).filter Table.isPlayed = round.filter Table.isPlayed := by
  have hnot : tb.isPlayed = false := by simp [Table.isPlayed, hempty]
  induction round generalizing table with
  | nil => rfl
  | cons a round ih =>
    cases table with
    | zero =>
      obtain rfl := Option.some.inj htb
      simp [hnot]
    | succ table => simp only [List.eraseIdx_cons_succ, List.filter_cons, ih htb]

/-! ### Events that leave the results -/

/-- What the standings are computed from is the same in both documents. -/
structure SameInputs (t t' : Tournament) : Prop where
  results : SameResults t t'
  marks : ∀ uid ∈ seatedUids t.rounds, sheetMarks t'.players uid = sheetMarks t.players uid

theorem SameInputs.of_players (hrounds : t'.rounds = t.rounds) (hfinals : t'.finals = t.finals)
    (hmarks : ∀ uid ∈ seatedUids t.rounds,
      sheetMarks t'.players uid = sheetMarks t.players uid) : SameInputs t t' where
  results := SameResults.of_length (fun r => by rw [hrounds]) (by rw [hrounds])
    (by rw [finalsUids, hfinals, finalsUids])
  marks := hmarks

theorem SameInputs.standings (h : SameInputs t t') (sanctions : List Sanction) :
    computePreliminaryStandings t' sanctions = computePreliminaryStandings t sanctions :=
  h.results.standings h.marks sanctions

theorem marks_checkedInEntry {p : Player} (h : p.state ≠ .disqualified) (decks : List DeckObject)
    (uid : Uid) (name : Option String) : (checkedInEntry t decks uid name p).marks = p.marks := by
  have hb : (p.state == .disqualified) = false := by simpa using h
  unfold checkedInEntry
  extract_lets named
  split
  · simp [Player.marks, Player.withState, named, hb]
  · simp only [Player.marks, named, hb]
    split <;> rfl

theorem SameInputs.of_newRound {organizer : Option Uid} {seating : List (List Uid)}
    (hfinals : t.finals = none) (hfinals' : t'.finals = none)
    (hrounds : t'.rounds = t.rounds ++ [seating.map (Table.fresh organizer)])
    (hplayers : t'.players = t.players.map f) (hf : OnlyState f)
    (hdq : ∀ uid p, findPlayer t.players uid = some p →
      ((f p).state = .disqualified ↔ p.state = .disqualified)) : SameInputs t t' where
  results := by
    refine SameResults.of_noFinals (fun r => ?_) hfinals hfinals' (by simp [hrounds])
    rw [hrounds, playedAt_append_fresh]
  marks uid _ := by
    rw [hplayers]
    exact sheetMarks_map hf.userUid fun p hp => hf.marks (hdq uid p hp)

theorem startRoundEntry_disqualified (seated : List Uid) (drop : Bool) (p : Player) :
    (startRoundEntry seated drop p).state = .disqualified ↔ p.state = .disqualified := by
  unfold startRoundEntry
  split
  · split <;> simp_all [Player.withState]
  · split <;> simp_all [Player.withState]
  · rfl

theorem sameInputs_of_effect (hshape : Shape t) (hrounds : t.rounds ≠ [])
    (hok : LeavesResults t i) (heff : Effect rs t i t') : SameInputs t t' := by
  obtain ⟨hno, htoss, harch, hok⟩ := hok
  cases heff with
  | quiet _ hq =>
    refine SameInputs.of_players hq.rounds hq.finals fun uid huid => ?_
    exact sheetMarks_sameEntry hq.players (hshape.onRoster uid huid)
  | openRegistration | closeRegistration | cancelRegistration =>
    exact SameInputs.of_players rfl rfl fun _ _ => rfl
  | reopenRegistration _ _ hnil => exact absurd hnil hrounds
  | register | addPlayer =>
    refine SameInputs.of_players rfl rfl fun uid huid => ?_
    exact sheetMarks_push (hshape.onRoster uid huid) _
  | leave uid idx _ hs =>
    exact absurd (hs.elim (fun hs => hshape.early (.inr hs)) id) hrounds
  | dropOut u p he _ hp =>
    simp only [he] at hok
    refine SameInputs.of_players rfl rfl fun uid _ => ?_
    refine sheetMarks_update (withState_userUid _) fun q hq => marks_withState ?_
    refine iff_of_false (by simp) fun hs => hok ?_
    exact isDisqualified_iff.2 ⟨q, hq, hs⟩
  | checkIn u _ name players p _ _ hplayers hp hs =>
    refine SameInputs.of_players rfl rfl fun uid huid => ?_
    have hadmitted : sheetMarks players uid = sheetMarks t.players uid := by
      rcases hplayers with rfl | ⟨-, -, rfl⟩
      · rfl
      · exact sheetMarks_push (hshape.onRoster uid huid) _
    rw [← hadmitted]
    refine sheetMarks_update (userUid_checkedInEntry t i.decks u name) fun q hq => ?_
    obtain rfl : p = q := Option.some.inj (hp.symm.trans hq)
    exact marks_checkedInEntry hs i.decks u name
  | checkOut u p _ _ hp hs =>
    refine SameInputs.of_players rfl rfl fun uid _ => ?_
    refine sheetMarks_update (withState_userUid _) fun q hq => marks_withState ?_
    obtain rfl : p = q := Option.some.inj (hp.symm.trans hq)
    unfold checkedOutState
    split <;> simp [hs]
  | checkInAll =>
    refine SameInputs.of_players rfl rfl fun uid _ => ?_
    refine sheetMarks_map onlyState_ite.userUid fun p _ => ?_
    split
    · rename_i hc
      refine marks_withState (iff_of_false (by simp) fun hs => ?_)
      simp [checksInAll, hs] at hc
    · rfl
  | resetCheckIn =>
    refine SameInputs.of_players rfl rfl fun uid _ => ?_
    refine sheetMarks_map onlyState_ite.userUid fun p _ => ?_
    split
    · rename_i hs
      refine marks_withState ?_
      unfold checkedOutState
      split <;> simp [hs]
    · rfl
  | setWaitlisted =>
    refine SameInputs.of_players rfl rfl fun uid _ => ?_
    exact sheetMarks_update (fun _ => rfl) fun _ _ => rfl
  | startRound _ seating _ _ hf =>
    exact SameInputs.of_newRound hf hf rfl rfl (onlyState_startRoundEntry _ _)
      fun _ p _ => startRoundEntry_disqualified _ _ p
  | selfOrganizeRound uids seating _ _ hf _ hall =>
    refine SameInputs.of_newRound hf hf rfl rfl (onlyState_selfOrganizeEntry _) fun uid p hp => ?_
    unfold selfOrganizeEntry
    split
    · rename_i hc
      have hmem : uid ∈ uids := by simpa [(findPlayer_mem hp).2] using hc
      obtain ⟨q, hq, hne, -⟩ := checkSelfOrganized_ok (hall uid hmem)
      obtain rfl : p = q := Option.some.inj (hp.symm.trans hq)
      simp [Player.withState, hne]
    · rfl
  | addTable =>
    refine ⟨SameResults.of_length (fun r => ?_) (by simp) rfl, fun _ _ => rfl⟩
    refine playedAt_modify (fun round _ => ?_) r
    simp [Table.isPlayed, Table.fresh]
  | removeTable table tb _ _ htb hempty =>
    refine ⟨SameResults.of_length (fun r => ?_) (by simp) rfl, fun _ _ => rfl⟩
    refine playedAt_modify (fun round hround => ?_) r
    rw [hround, Option.getD_some] at htb
    exact filter_played_eraseIdx htb hempty
  | startFinals he => simp [he] at hok
  | setToss _ _ he | randomToss he => simp [he, TournamentEvent.tosses] at htoss
  | archival _ he => simp [he, TournamentEvent.archives] at harch
  | setNonCompeting _ _ he | finishRound _ _ he | cancelRound _ he | restoreRound _ _ he
  | swapFinals _ _ _ _ _ _ he | swapRound _ _ _ _ _ _ _ _ he | reseatFinals _ _ _ he
  | reseatRound _ _ _ he | seatPlayer _ _ _ _ _ _ _ _ he | unseatPlayer _ _ _ _ he
  | scoreFinals _ _ _ _ _ he | scoreTable _ _ _ _ _ _ he | overrideFinals _ _ _ _ he
  | overrideTable _ _ _ _ _ he | unoverrideFinals _ _ _ he | unoverrideTable _ _ _ _ he
  | finishFinals _ he | cancelFinals he | finishTournament he | reopenTournament he =>
    simp [he, TournamentEvent.recomputes] at hno

/-! ### Events that recompute -/

theorem fresh_updateStandings (s : List Sanction) (h : t.rounds = [] → t.standings = []) :
    Fresh (updateStandings t s) s := by
  rw [Fresh, computePreliminaryStandings_updateStandings]
  by_cases hr : t.rounds = []
  · rw [updateStandings_standings_of_nil t s hr, h hr]
    simp [computePreliminaryStandings, prelimEntries, hr, Tally.ofList, sortByRank]
  · exact updateStandings_standings t s hr

theorem fresh_of_length (s : List Sanction) (hrounds : t.rounds ≠ [])
    (h : t'.rounds.length = t.rounds.length) : Fresh (updateStandings t' s) s := by
  refine fresh_updateStandings s fun hnil => absurd ?_ hrounds
  rw [← List.length_eq_zero_iff, ← h, hnil, List.length_nil]

theorem fresh_or_kept_of_effect (hrounds : t.rounds ≠ []) (harch : i.event.archives = false)
    (heff : Effect rs t i t') :
    (i.event.recomputes = true ∧ Fresh t' i.sanctions) ∨
      (i.event.recomputes = false ∧ t'.standings = t.standings) := by
  cases heff with
  | quiet he hq =>
    refine .inr ⟨?_, hq.standings⟩
    unfold TournamentEvent.isQuiet at he
    split at he <;> simp_all [TournamentEvent.recomputes]
  | archival _ he => simp [he, TournamentEvent.archives] at harch
  | setNonCompeting _ _ he | finishRound _ _ he | swapFinals _ _ _ _ _ _ he
  | reseatFinals _ _ _ he | scoreFinals _ _ _ _ _ he | overrideFinals _ _ _ _ he
  | unoverrideFinals _ _ _ he | finishFinals _ he | cancelFinals he | finishTournament he
  | reopenTournament he =>
    exact .inl ⟨by rw [he]; rfl, fresh_of_length i.sanctions hrounds rfl⟩
  | swapRound _ _ _ _ _ _ _ _ he | scoreTable _ _ _ _ _ _ he | overrideTable _ _ _ _ _ he
  | unoverrideTable _ _ _ _ he =>
    refine .inl ⟨by rw [he]; rfl, fresh_of_length i.sanctions hrounds ?_⟩
    simp [modifyTable]
  | seatPlayer _ _ _ _ _ _ _ _ he | unseatPlayer _ _ _ _ he =>
    refine .inl ⟨by rw [he]; rfl, fresh_of_length i.sanctions hrounds ?_⟩
    simp [seatPlayerDoc, unseatPlayerDoc, demoteUnseatedPlayers]
  | restoreRound _ _ he =>
    refine .inl ⟨by rw [he]; rfl, fresh_of_length i.sanctions hrounds ?_⟩
    simp [restoreRoundDoc]
  | reseatRound _ _ _ he =>
    refine .inl ⟨by rw [he]; rfl, fresh_of_length i.sanctions hrounds ?_⟩
    simp [rounds_alterSeatingDoc]
  | cancelRound _ he =>
    refine .inl ⟨by rw [he]; rfl, fresh_updateStandings i.sanctions fun hnil => ?_⟩
    -- the last round is gone: the handler clears the sheet itself
    exact if_pos (List.isEmpty_iff.2 hnil)
  | openRegistration he | closeRegistration he | cancelRegistration he | reopenRegistration he
  | checkInAll he | resetCheckIn he | addTable he | randomToss he | startFinals he =>
    exact .inr ⟨by rw [he]; rfl, rfl⟩
  | register _ _ _ he | addPlayer _ _ _ _ _ he | dropOut _ _ he | checkIn _ _ _ _ _ he
  | checkOut _ _ he | setWaitlisted _ _ _ he | startRound _ _ he | selfOrganizeRound _ _ he
  | removeTable _ _ he | setToss _ _ he =>
    exact .inr ⟨by rw [he]; rfl, rfl⟩
  | leave _ _ he => rcases he with he | he <;> exact .inr ⟨by rw [he]; rfl, rfl⟩

/-! ### Tosses -/

theorem untossed_perm (h : SameResults t t')
    (hmarks : ∀ uid, ∃ toss, sheetMarks t'.players uid =
      ((sheetMarks t.players uid).1, toss, (sheetMarks t.players uid).2.2))
    (sanctions : List Sanction) :
    ((computePreliminaryStandings t' sanctions).map Standing.untossed).Perm
      ((computePreliminaryStandings t sanctions).map Standing.untossed) := by
  have hrows := h.rows sanctions Standing.untossed fun uid _ sas total => by
    obtain ⟨toss, hm⟩ := hmarks uid
    rw [prelimRow_eq, prelimRow_eq, hm]
    rfl
  have hsorted : ∀ t : Tournament, (computePreliminaryStandings t sanctions).Perm
      (prelimRows t sanctions) := fun t => List.perm_insertionSort _ _
  exact ((hsorted t').map _).trans (hrows ▸ ((hsorted t).map _).symm)

theorem sheetMarks_toss (players : List Player) (u : Uid) (toss : ℕ) (uid : Uid) :
    ∃ n, sheetMarks (updatePlayer players u fun p => { p with toss := toss }) uid =
      ((sheetMarks players uid).1, n, (sheetMarks players uid).2.2) := by
  by_cases hu : uid = u
  · subst hu
    rw [sheetMarks, findPlayer_update_self ?_, sheetMarks]
    · cases findPlayer players uid with
      | none => exact ⟨0, rfl⟩
      | some p => exact ⟨toss, rfl⟩
    · exact fun _ => rfl
  · rw [sheetMarks, findPlayer_update_ne ?_ hu, sheetMarks]
    · exact ⟨_, rfl⟩
    · exact fun _ => rfl

theorem sheetMarks_tossedPlayers (sanctions : List Sanction) (uid : Uid) :
    ∃ n, sheetMarks (tossedPlayers t sanctions) uid =
      ((sheetMarks t.players uid).1, n, (sheetMarks t.players uid).2.2) := by
  refine tossedPlayers_induction t (fun ps => ∃ n, sheetMarks ps uid =
    ((sheetMarks t.players uid).1, n, (sheetMarks t.players uid).2.2)) sanctions ⟨_, rfl⟩ ?_
  rintro ps u toss ⟨n, hn⟩
  obtain ⟨m, hm⟩ := sheetMarks_toss ps u toss uid
  exact ⟨m, by rw [hm, hn]⟩

theorem untossed_of_accept (htoss : i.event.tosses = true) (h : acceptEvent rs t i = .ok t')
    (sanctions : List Sanction) :
    ((computePreliminaryStandings t' sanctions).map Standing.untossed).Perm
      ((computePreliminaryStandings t sanctions).map Standing.untossed) := by
  obtain ⟨ops, h⟩ := acceptEvent_eq_ok.1 h
  have hsame : ∀ players, SameResults t { t with players := players } := fun players =>
    SameResults.of_length (fun _ => rfl) rfl rfl
  unfold TournamentEvent.tosses at htoss
  split at htoss <;> rename_i he
  · rename_i uid toss
    simp only [applyEvent, he, setToss, requireOrganizer, requireStateOrFinished,
      ensure_bind_eq_ok, pure_eq_ok, Prod.mk.injEq] at h
    obtain ⟨-, -, -, -, rfl, -⟩ := h
    exact untossed_perm (hsame _) (sheetMarks_toss _ uid toss) sanctions
  · simp only [applyEvent, he, randomToss, requireOrganizer, requireStateOrFinished,
      ensure_bind_eq_ok, pure_eq_ok, Prod.mk.injEq] at h
    obtain ⟨-, -, -, rfl, -⟩ := h
    exact untossed_perm (hsame _) (sheetMarks_tossedPlayers i.sanctions) sanctions
  · cases htoss

/-- From a reachable document with rounds, an accepted event other than an archived sheet stores
what is computed afresh if it is one that recomputes, and leaves the stored sheet if not. An event
that leaves the results leaves what is computed afresh for any sanctions, so the sheet is as fresh
after it as before; a toss changes that in the toss column and the order alone. -/
theorem standings_after_event (h : (engineSystem rs).Reachable t) (hrounds : t.rounds ≠ [])
    (hs : acceptEvent rs t i = .ok t') (harch : i.event.archives = false) :
    (i.event.recomputes = true → Fresh t' i.sanctions) ∧
    (i.event.recomputes = false → t'.standings = t.standings) ∧
    (LeavesResults t i → ∀ sanctions, Fresh t' sanctions ↔ Fresh t sanctions) ∧
    (i.event.tosses = true → ∀ sanctions,
      ((computePreliminaryStandings t' sanctions).map Standing.untossed).Perm
        ((computePreliminaryStandings t sanctions).map Standing.untossed)) := by
  have heff := effect_of_acceptEvent hs
  have hkept : i.event.recomputes = false → t'.standings = t.standings := by
    intro hno
    rcases fresh_or_kept_of_effect hrounds harch heff with ⟨hyes, -⟩ | ⟨-, hk⟩
    · simp [hyes] at hno
    · exact hk
  refine ⟨fun hyes => ?_, hkept, fun hok sanctions => ?_, fun htoss => untossed_of_accept htoss hs⟩
  · rcases fresh_or_kept_of_effect hrounds harch heff with ⟨-, hfresh⟩ | ⟨hno, -⟩
    · exact hfresh
    · simp [hyes] at hno
  · have hinputs := sameInputs_of_effect (Shape.of_reachable h) hrounds hok heff
    rw [Fresh, Fresh, hinputs.standings, hkept hok.1]

/-- One round is over, by four points for its winner. -/
def firstRoundOver : List TournamentEvent :=
  gathering ["a", "b", "c", "d"] ++
    [.startRound (some [["a", "b", "c", "d"]]), .setScore 0 0 [⟨"a", 4⟩], .finishRound none]

/-- The organizer corrects a result between rounds: the sheet follows. -/
theorem firstRoundOver_setScore :
    ∃ t t', (engineSystem fixedOrder).Reachable t ∧ t.rounds ≠ [] ∧
      acceptEvent fixedOrder t (sent (.setScore 0 0 [⟨"a", 3⟩, ⟨"b", 1⟩])) = .ok t' ∧
        Fresh t' [] := by
  obtain ⟨t, ht, hp⟩ := exists_reaches_of_replay anyEvent (firstRoundOver.map sent)
    (fun t => !t.rounds.isEmpty &&
      (acceptEvent fixedOrder t (sent (.setScore 0 0 [⟨"a", 3⟩, ⟨"b", 1⟩]))).isOk)
    (by decide +kernel)
  rw [Bool.and_eq_true] at hp
  have hrounds : t.rounds ≠ [] := by simpa using hp.1
  cases hs : acceptEvent fixedOrder t (sent (.setScore 0 0 [⟨"a", 3⟩, ⟨"b", 1⟩])) with
  | error e => simp [hs, Except.isOk, Except.toBool] at hp
  | ok t' => exact ⟨t, t', ht, hrounds, hs, (standings_after_event ht hrounds hs rfl).1 rfl⟩

end Freshness

/-! ### Events outside the recompute -/

/-- An event that recomputes nothing leaves the sheet behind the sanctions passed with it: the
disqualified winner keeps the row, which the sanction route has to rewrite. -/
theorem firstRoundOver_not_fresh :
    ∃ t t' i, (engineSystem fixedOrder).Reachable t ∧ t.rounds ≠ [] ∧
      acceptEvent fixedOrder t i = .ok t' ∧ ¬Fresh t' i.sanctions := by
  let i : EventInput := { sent .markAllPaid with sanctions := [dqOf "a"] }
  obtain ⟨t, ht, hp⟩ := exists_reaches_of_replay anyEvent (firstRoundOver.map sent)
    (fun t => !t.rounds.isEmpty && leadsTo t i fun t' => !decide (Fresh t' i.sanctions))
    (by decide +kernel)
  rw [Bool.and_eq_true] at hp
  obtain ⟨hrounds, hp⟩ := hp
  obtain ⟨t', h, hp⟩ := exists_of_leadsTo hp
  exact ⟨t, t', i, ht, by simpa using hrounds, h, by simpa using hp⟩

end Archon.Engine

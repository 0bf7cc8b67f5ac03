import Archon.Backend.Scenario
import Archon.Frontend.LocalActions

/-!
# Two actions at once on a tournament held offline

Two calls of `tournamentAction` on one device, at their awaits. If each saves over the tournament it
read, and over the decks it read where its event looks at them, then both calls through leave what
one and then the other would have left. Nothing in the code sees to it.
-/

namespace Archon.Frontend
open Engine Backend

/-- Deck operations are still to be written. -/
def CallPhase.unwritten : CallPhase → Bool
  | .writing _ (_ :: _) => true
  | _ => false

/-- The tournament is saved. -/
def CallPhase.saved : CallPhase → Bool
  | .writing .. | .resolved => true
  | _ => false

/-- A call saves over the tournament it read. If its event looks at decks it saves over the decks it
read too, and the other call has written its own. -/
def SavesOverWhatItRead (uid : Uid) (calls : Bool → LocalCall) (s : CallState) (b : Bool) : Prop :=
  match s.phases b with
  | .saving current decks _ _ => s.store.tournament = current ∧
      (looksAtDecks current (calls b).event = true →
        getDecksByTournament s.store.decks uid = decks ∧ (s.phases !b).unwritten = false)
  | _ => True

def CallPhase.isResolved : CallPhase → Bool
  | .resolved => true
  | _ => false

theorem isResolved_iff {phase : CallPhase} : phase.isResolved = true ↔ phase = .resolved := by
  cases phase <;> simp [CallPhase.isResolved]

section Calls

variable {rs : Seating.RandomSource} {dir : Directory} {uid : Uid} {calls : Bool → LocalCall}
  {c : LocalCall} {b : Bool} {start store : LocalStore} {s s' : CallState} {decks : DeckStore}
  {phase phase' : CallPhase} {pass : ApplyPass} {writes : List DeckWrite}

/-! ### What is left of a call -/

/-- The writes of `applyDeckOps` at once. -/
def finishWrite (c : LocalCall) (uid : Uid) (pass : ApplyPass) : DeckWrite → ApplyPass
  | .op op => applyDeckOp c.client uid pass op
  | .tombstone d => deleteStep c.client pass d

/-- The decks once the call is through, run alone. -/
def CallPhase.finish (c : LocalCall) (uid : Uid) (decks : DeckStore) : CallPhase → DeckStore
  | .writing pass writes => (writes.foldl (finishWrite c uid) { pass with store := decks }).store
  | _ => decks

theorem CallPhase.finish_written (h : phase.unwritten = false) :
    phase.finish c uid decks = decks := by
  cases phase with
  | writing pass writes =>
    cases writes with
    | nil => rfl
    | cons w writes => cases h
  | _ => rfl

theorem foldl_finishWrite_write (c : LocalCall) (uid : Uid) (pass : ApplyPass) (w : DeckWrite)
    (writes : List DeckWrite) :
    ((c.write uid pass w).2 ++ writes).foldl (finishWrite c uid) (c.write uid pass w).1 =
      (w :: writes).foldl (finishWrite c uid) pass := by
  rw [List.foldl_append, List.foldl_cons]
  congr 1
  cases w with
  | tombstone d => rfl
  | op op =>
    cases op with
    | delete playerUid deckIndex multideck =>
      simp only [LocalCall.write, finishWrite, applyDeckOp]
      split
      · rfl
      · rw [List.foldl_map]
        rfl
    | _ => rfl

theorem finish_saved (c : LocalCall) (uid : Uid) (decks : DeckStore) (existing : List StoredDeck)
    (ops : List DeckOp) :
    (CallPhase.writing ⟨decks, existing, 0, []⟩ (ops.map .op)).finish c uid decks =
      (applyDeckOps c.client decks uid existing ops).store := by
  rw [CallPhase.finish, List.foldl_map]
  rfl

/-! ### The event of a call -/

theorem toOption_eq_some {ε α : Type} {x : Except ε α} {a : α} :
    x.toOption = some a ↔ x = .ok a := by
  cases x <;> simp [Except.toOption]

theorem looksAtDecks_inject (dir : Directory) (t : Tournament) (e : TournamentEvent) :
    looksAtDecks t (injectVeknId dir e) = looksAtDecks t e := by
  cases e <;> rfl

theorem run_blind {current : Tournament} {r : Tournament × List DeckOp}
    {existing : List StoredDeck} (hblind : looksAtDecks current c.event = false)
    (h : c.run rs dir uid current existing = some r) (existing' : List StoredDeck) :
    c.run rs dir uid current existing' = some r ∧ r.2 = [] := by
  rw [← looksAtDecks_inject dir] at hblind
  unfold LocalCall.run at h ⊢
  split at h
  · cases h
  · rename_i hopen
    split at h
    · rename_i horganizer
      rw [if_neg hopen, if_pos horganizer]
      rw [toOption_eq_some] at h
      refine ⟨?_, ops_of_blind hblind h⟩
      rw [toOption_eq_some, ← h]
      exact event_blind hblind _ _
    · cases h

theorem alone_eq_some :
    c.alone rs dir uid start = some store ↔
      ∃ r, c.run rs dir uid start.tournament (getDecksByTournament start.decks uid) = some r ∧
        store = ⟨r.1, (applyDeckOps c.client start.decks uid
          (getDecksByTournament start.decks uid) r.2).store⟩ := by
  simp only [LocalCall.alone, Option.map_eq_some_iff, eq_comm (a := store)]

/-! ### The two calls in turn -/

/-- What the device holds once the calls under way are through. -/
structure Settles (uid : Uid) (calls : Bool → LocalCall) (s : CallState) (store : LocalStore) :
    Prop where
  tournament : s.store.tournament = store.tournament
  decks : ∀ b, (s.phases !b).unwritten = false →
    (s.phases b).finish (calls b) uid s.store.decks = store.decks

/-- The calls that have saved, in some order. -/
structure InTurn (rs : Seating.RandomSource) (dir : Directory) (uid : Uid)
    (calls : Bool → LocalCall) (start : LocalStore) (saved : Bool → Bool) (store : LocalStore) :
    Prop where
  none : (∀ b, saved b = false) → store = start
  one : ∀ b, saved b = true → saved (!b) = false → (calls b).alone rs dir uid start = some store
  both : (∀ b, saved b = true) → ∃ b, inOrder rs dir uid calls b start = some store

/-- What every run from `start` keeps. -/
structure Serial (rs : Seating.RandomSource) (dir : Directory) (uid : Uid)
    (calls : Bool → LocalCall) (start : LocalStore) (s : CallState) : Prop where
  answered : ∀ b current existing result ops, s.phases b = .saving current existing result ops →
    (calls b).run rs dir uid current existing = some (result, ops)
  one : ∀ b, (s.phases b).unwritten = true → (s.phases !b).unwritten = false
  settles : ∃ store, Settles uid calls s store ∧
    InTurn rs dir uid calls start (fun b => (s.phases b).saved) store

@[simp] theorem CallState.to_self (s : CallState) (b : Bool) (phase : CallPhase) :
    (s.to b phase).phases b = phase := Function.update_self ..

@[simp] theorem CallState.to_not (s : CallState) (b : Bool) (phase : CallPhase) :
    (s.to b phase).phases (!b) = s.phases !b := Function.update_of_ne (by simp) ..

@[simp] theorem CallState.to_store (s : CallState) (b : Bool) (phase : CallPhase) :
    (s.to b phase).store = s.store := rfl

theorem Serial.init (h : ∀ b, s.phases b = .waiting) : Serial rs dir uid calls s.store s where
  answered b _ _ _ _ hsaving := by
    rw [h b] at hsaving
    cases hsaving
  one b hunwritten := by
    rw [h b] at hunwritten
    cases hunwritten
  settles := by
    refine ⟨s.store, ⟨rfl, fun b _ => ?_⟩, fun _ => rfl, fun b hsaved => ?_, fun hsaved => ?_⟩
    · rw [h b]
      rfl
    · simp only [h b] at hsaved
      cases hsaved
    · have htrue := hsaved true
      simp only [h true] at htrue
      cases htrue

/-- A move that saves no tournament. -/
structure Move (c : LocalCall) (uid : Uid) (s : CallState) (b : Bool) (decks : DeckStore)
    (phase : CallPhase) : Prop where
  saved : phase.saved = (s.phases b).saved
  unwritten : phase.unwritten = true → (s.phases b).unwritten = true
  finish : phase.finish c uid decks = (s.phases b).finish c uid s.store.decks
  quiet : (s.phases b).unwritten = false → decks = s.store.decks

theorem Serial.move (h : Serial rs dir uid calls start s)
    (hmove : Move (calls b) uid s b decks phase)
    (hanswered : ∀ current existing result ops, phase = .saving current existing result ops →
      (calls b).run rs dir uid current existing = some (result, ops)) :
    Serial rs dir uid calls start
      ({ s with store.decks := decks }.to b phase) := by
  obtain ⟨store, hsettles, hturn⟩ := h.settles
  refine ⟨(Bool.forall_bool' b).2 ⟨?_, ?_⟩, (Bool.forall_bool' b).2 ⟨?_, ?_⟩, store,
    ⟨hsettles.tournament, (Bool.forall_bool' b).2 ⟨?_, ?_⟩⟩, ?_⟩
  · simpa using hanswered
  · simpa using h.answered !b
  · simp only [CallState.to_self, CallState.to_not]
    exact fun hunwritten => h.one b (hmove.unwritten hunwritten)
  · simp only [CallState.to_self, CallState.to_not, Bool.not_not]
    intro hother
    have hmine := h.one (!b) hother
    rw [Bool.not_not] at hmine
    exact Bool.eq_false_of_not_eq_true fun hunwritten => by
      rw [hmove.unwritten hunwritten] at hmine
      cases hmine
  · simp only [CallState.to_self, CallState.to_not]
    intro hother
    exact hmove.finish.trans (hsettles.decks b hother)
  · simp only [CallState.to_self, CallState.to_not, Bool.not_not]
    intro hmine
    cases hbefore : (s.phases b).unwritten with
    | true =>
      have hother := h.one b hbefore
      have hdecks := hsettles.decks b hother
      rw [CallPhase.finish_written hother, ← hdecks, ← hmove.finish,
        CallPhase.finish_written hmine]
      rfl
    | false =>
      have hdecks := hsettles.decks (!b)
      rw [Bool.not_not] at hdecks
      rw [← hdecks hbefore]
      exact congrArg ((s.phases !b).finish (calls !b) uid) (hmove.quiet hbefore)
  · have hsame : (fun c => (({ s with store.decks := decks }.to b phase).phases c).saved) =
        fun c => (s.phases c).saved := by
      funext c
      rcases Bool.eq_or_eq_not c b with rfl | rfl
      · rw [CallState.to_self]
        exact hmove.saved
      · rw [CallState.to_not]
    rw [hsame]
    exact hturn

/-! ### Moves -/

theorem Serial.save {current result : Tournament} {existing : List StoredDeck} {ops : List DeckOp}
    (h : Serial rs dir uid calls start s) (hsaving : s.phases b =
      .saving current existing result ops)
    (hover : SavesOverWhatItRead uid calls s b) :
    Serial rs dir uid calls start ({ s with store.tournament := result }.to b
      (.writing ⟨s.store.decks, existing, 0, []⟩ (ops.map .op))) := by
  obtain ⟨store, hsettles, hturn⟩ := h.settles
  have hrun := h.answered b current existing result ops hsaving
  have hmine : (s.phases b).unwritten = false := by
    rw [hsaving]
    rfl
  have hunsaved : (s.phases b).saved = false := by
    rw [hsaving]
    rfl
  simp only [SavesOverWhatItRead, hsaving] at hover
  obtain ⟨hcurrent, hdecks⟩ := hover
  have hother := hsettles.decks !b
  rw [Bool.not_not] at hother
  have hstored : (s.phases !b).finish (calls !b) uid s.store.decks = store.decks := hother hmine
  set saved : LocalStore := ⟨result, (applyDeckOps (calls b).client store.decks uid
    (getDecksByTournament store.decks uid) ops).store⟩ with hsaved
  -- The call runs on what the device holds once the other is through.
  have halone : (calls b).alone rs dir uid store = some saved ∧
      ((s.phases !b).unwritten = true → ops = []) ∧
      (ops ≠ [] → s.store.decks = store.decks ∧
        getDecksByTournament store.decks uid = existing) := by
    cases hlooks : looksAtDecks current (calls b).event with
    | true =>
      obtain ⟨hexisting, hwritten⟩ := hdecks hlooks
      rw [CallPhase.finish_written hwritten] at hstored
      rw [hstored] at hexisting
      refine ⟨alone_eq_some.2 ⟨(result, ops), ?_, rfl⟩, fun hunwritten => ?_, fun _ =>
        ⟨hstored, hexisting⟩⟩
      · rw [← hsettles.tournament, hcurrent, hexisting]
        exact hrun
      · rw [hwritten] at hunwritten
        cases hunwritten
    | false =>
      obtain ⟨hagain, hnone⟩ := run_blind hlooks hrun (getDecksByTournament store.decks uid)
      refine ⟨alone_eq_some.2 ⟨(result, ops), ?_, rfl⟩, fun _ => hnone, fun hsome =>
        absurd hnone hsome⟩
      rw [← hsettles.tournament, hcurrent]
      exact hagain
  obtain ⟨halone, hblocked, hsame⟩ := halone
  have hwritten : (CallPhase.writing ⟨s.store.decks, existing, 0, []⟩ (ops.map .op)).unwritten =
      false →
      ops = [] := by
    cases ops with
    | nil => exact fun _ => rfl
    | cons op ops => exact Bool.noConfusion
  refine ⟨(Bool.forall_bool' b).2 ⟨?_, ?_⟩, (Bool.forall_bool' b).2 ⟨?_, ?_⟩, saved,
    ⟨rfl, (Bool.forall_bool' b).2 ⟨?_, ?_⟩⟩, ⟨fun hnone => ?_, (Bool.forall_bool' b).2 ⟨?_, ?_⟩,
      fun hboth => ?_⟩⟩
  · rw [CallState.to_self]
    exact fun _ _ _ _ hphase => CallPhase.noConfusion hphase
  · rw [CallState.to_not]
    exact h.answered !b
  · rw [CallState.to_self, CallState.to_not]
    intro hunwritten
    refine Bool.eq_false_of_not_eq_true fun hblock => ?_
    rw [hblocked hblock] at hunwritten
    cases hunwritten
  · rw [CallState.to_not, Bool.not_not, CallState.to_self]
    intro hblock
    rw [hblocked hblock]
    rfl
  · rw [CallState.to_self, CallState.to_not, CallState.to_store]
    intro hfree
    rw [CallPhase.finish_written hfree] at hstored
    refine (finish_saved (calls b) uid s.store.decks existing ops).trans ?_
    by_cases hnone : ops = []
    · rw [hsaved, hnone]
      exact hstored
    · rw [hsaved, (hsame hnone).2, hstored]
  · rw [Bool.not_not, CallState.to_self, CallState.to_not, CallState.to_store]
    intro hfree
    refine hstored.trans ?_
    rw [hsaved, hwritten hfree]
    rfl
  · have hnone := hnone b
    rw [CallState.to_self] at hnone
    cases hnone
  · rw [CallState.to_self, CallState.to_not]
    intro _ hother
    have hstart : store = start := hturn.none ((Bool.forall_bool' b).2 ⟨hunsaved, hother⟩)
    rw [← hstart]
    exact halone
  · rw [Bool.not_not, CallState.to_self]
    exact fun _ hsaved => Bool.noConfusion hsaved
  · have hother := hboth !b
    rw [CallState.to_not] at hother
    have hfirst := hturn.one (!b) hother (by rw [Bool.not_not]; exact hunsaved)
    refine ⟨!b, ?_⟩
    rw [inOrder, hfirst, Option.bind_some, Bool.not_not]
    exact halone

theorem Move.before (hunsaved : (s.phases b).saved = false) (hphase : phase.saved = false) :
    Move c uid s b s.store.decks phase where
  saved := hphase.trans hunsaved.symm
  unwritten hunwritten := by
    cases phase with
    | writing => cases hphase
    | _ => cases hunwritten
  finish := by
    have hwaits : ∀ p : CallPhase, p.saved = false →
        p.finish c uid s.store.decks = s.store.decks := by
      intro p hp
      cases p with
      | writing => cases hp
      | _ => rfl
    rw [hwaits _ hphase, hwaits _ hunsaved]
  quiet _ := rfl

theorem Serial.step (h : Serial rs dir uid calls start s)
    (hover : SavesOverWhatItRead uid calls s b)
    (hstep : callStep rs dir uid calls s b = some s') : Serial rs dir uid calls start s' := by
  unfold callStep at hstep
  cases hphase : s.phases b with
  | waiting =>
    simp only [hphase, Option.some.injEq] at hstep
    subst hstep
    exact h.move (.before (by rw [hphase]; rfl) rfl) fun _ _ _ _ hsaving => by cases hsaving
  | reading current =>
    simp only [hphase] at hstep
    cases hrun : (calls b).run rs dir uid current (getDecksByTournament s.store.decks uid) with
    | some r =>
      simp only [hrun, Option.some.injEq] at hstep
      subst hstep
      refine h.move (.before (by rw [hphase]; rfl) rfl) fun _ _ _ _ hsaving => ?_
      cases hsaving
      exact hrun
    | none =>
      simp only [hrun, Option.some.injEq] at hstep
      subst hstep
      exact h.move (.before (by rw [hphase]; rfl) rfl) fun _ _ _ _ hsaving => by cases hsaving
  | saving current existing result ops =>
    simp only [hphase, Option.some.injEq] at hstep
    subst hstep
    exact h.save hphase hover
  | writing pass writes =>
    cases writes with
    | nil =>
      simp only [hphase, Option.some.injEq] at hstep
      subst hstep
      have hmove : Move (calls b) uid s b s.store.decks .resolved := by
        refine ⟨?_, Bool.noConfusion, ?_, fun _ => rfl⟩
        · rw [hphase]
          rfl
        · rw [hphase]
          rfl
      exact h.move hmove fun _ _ _ _ hsaving => by cases hsaving
    | cons w writes =>
      simp only [hphase, Option.some.injEq] at hstep
      subst hstep
      refine h.move ⟨?_, fun _ => ?_, ?_, fun hwritten => ?_⟩ fun _ _ _ _ hsaving =>
        by cases hsaving
      · rw [hphase]
        rfl
      · rw [hphase]
        rfl
      · rw [hphase]
        exact congrArg ApplyPass.store (foldl_finishWrite_write (calls b) uid _ w writes)
      · rw [hphase] at hwritten
        cases hwritten
  | resolved | rejected =>
    simp only [hphase] at hstep
    cases hstep

/-- Each call saving over what it read, two calls through leave the tournament and its decks as one
and then the other would have. -/
theorem resolved_in_order (hstart : ∀ b, s.phases b = .waiting)
    (h : ((callSystem rs dir uid calls).startedAt s).Reaches (SavesOverWhatItRead uid calls) s')
    (hboth : ∀ b, s'.phases b = .resolved) :
    ∃ b, inOrder rs dir uid calls b s.store = some s'.store := by
  have hserial : Serial rs dir uid calls s.store s' := by
    refine h.invariant (fun x hx => ?_) fun _ _ _ hs hover hstep => hs.step hover hstep
    rw [show x = s from hx]
    exact .init hstart
  obtain ⟨store, hsettles, hturn⟩ := hserial.settles
  have hstore : store = s'.store := by
    have hdecks := hsettles.decks true (by rw [hboth]; rfl)
    rw [hboth] at hdecks
    have htournament := hsettles.tournament
    cases store
    cases hs' : s'.store
    rw [hs'] at hdecks htournament
    simp_all [CallPhase.finish]
  rw [← hstore]
  exact hturn.both fun b => by
    rw [hboth]
    rfl

end Calls

/-! ### Two arrivals -/

def emptyDirectory : Directory := ⟨fun uid => some uid, [], []⟩

/-- An organizer adds a player. -/
def arrival (player : Uid) : LocalCall :=
  ⟨member "prince" [.prince], .addPlayer player (some player) none false, "2026-05-02T10:00:00Z",
    fun k => "deck-" ++ toString k⟩

def arrivals (b : Bool) : LocalCall := if b then arrival "a" else arrival "b"

/-- The event in registration, and no decks. -/
def beforeArrivals : CallState := ⟨⟨event.doc, ∅⟩, fun _ => .waiting⟩

def callTo (s : CallState) (b : Bool) : Except Unit CallState :=
  Guards.okOr (callStep fixedOrder emptyDirectory "event" arrivals s b) ()

/-- The second save takes back the first. -/
theorem arrivals_lost : ¬∀ (rs : Seating.RandomSource) (dir : Directory) (uid : Uid)
    (calls : Bool → LocalCall) (s s' : CallState), (∀ b, s.phases b = .waiting) →
    ((callSystem rs dir uid calls).startedAt s).Reachable s' → (∀ b, s'.phases b = .resolved) →
    ∃ b, (inOrder rs dir uid calls b s.store).map LocalStore.tournament =
      some s'.store.tournament := by
  intro hall
  have hrun : (System.replay callTo (fun _ _ => True) beforeArrivals
      [true, false, true, false, true, false, true, false]).any (fun s =>
        (s.phases true).isResolved && (s.phases false).isResolved
          && s.store.tournament.players.length == 1) = true := by
    decide +kernel
  obtain ⟨s, hs, hend⟩ := (Option.any_eq_true _ _).1 hrun
  rw [Bool.and_eq_true, Bool.and_eq_true, beq_iff_eq] at hend
  obtain ⟨⟨htrue, hfalse⟩, hroster⟩ := hend
  have hreaches : ((callSystem fixedOrder emptyDirectory "event" arrivals).startedAt
      beforeArrivals).Reachable s :=
    System.reaches_replay (fun _ _ _ h => Guards.okOr_eq_ok.1 h) _ beforeArrivals s (.init rfl) hs
  have hboth : ∀ b, s.phases b = .resolved :=
    Bool.forall_bool.2 ⟨isResolved_iff.1 hfalse, isResolved_iff.1 htrue⟩
  have htwo : ∀ b, ((inOrder fixedOrder emptyDirectory "event" arrivals b
      beforeArrivals.store).map LocalStore.tournament).all
        (fun t => t.players.length == 2) = true := by
    decide +kernel
  obtain ⟨b, hin⟩ := hall _ _ _ _ _ _ (fun _ => rfl) hreaches hboth
  have hlong := htwo b
  rw [hin, Option.all_some, beq_iff_eq, hroster] at hlong
  cases hlong

theorem reaches_through {rs : Seating.RandomSource} {dir : Directory} {uid : Uid}
    {calls : Bool → LocalCall} {start s : CallState} {b : Bool} {result : Tournament}
    (h : ((callSystem rs dir uid calls).startedAt start).Reaches (SavesOverWhatItRead uid calls) s)
    (hwaiting : s.phases b = .waiting) (hother : (s.phases !b).unwritten = false)
    (hrun : (calls b).run rs dir uid s.store.tournament (getDecksByTournament s.store.decks uid) =
      some (result, [])) :
    ∃ s', ((callSystem rs dir uid calls).startedAt start).Reaches
        (SavesOverWhatItRead uid calls) s' ∧
      s'.store = { s.store with tournament := result } ∧ s'.phases b = .resolved ∧
      s'.phases (!b) = s.phases !b := by
  set read := s.to b (.reading s.store.tournament)
  set answered := read.to b
    (.saving s.store.tournament (getDecksByTournament s.store.decks uid) result [])
  set saved := { answered with store.tournament := result }.to b
    (.writing ⟨s.store.decks, getDecksByTournament s.store.decks uid, 0, []⟩ [])
  have hread : callStep rs dir uid calls s b = some read := by
    simp only [callStep, hwaiting]
    rfl
  have hanswered : callStep rs dir uid calls read b = some answered := by
    simp only [callStep, read, CallState.to_self, CallState.to_store, hrun]
    rfl
  have hsaved : callStep rs dir uid calls answered b = some saved := by
    simp only [callStep, answered, CallState.to_self]
    rfl
  have hresolved : callStep rs dir uid calls saved b = some (saved.to b .resolved) := by
    simp only [callStep, saved, CallState.to_self]
  have hreads : SavesOverWhatItRead uid calls s b := by
    simp only [SavesOverWhatItRead, hwaiting]
  have hanswers : SavesOverWhatItRead uid calls read b := by
    simp only [SavesOverWhatItRead, read, CallState.to_self]
  have hsaves : SavesOverWhatItRead uid calls answered b := by
    simp only [SavesOverWhatItRead, answered, read, CallState.to_self, CallState.to_not,
      CallState.to_store]
    exact ⟨trivial, fun _ => ⟨trivial, hother⟩⟩
  have hresolves : SavesOverWhatItRead uid calls saved b := by
    simp only [SavesOverWhatItRead, saved, CallState.to_self]
  refine ⟨saved.to b .resolved, (((h.step hreads hread).step hanswers hanswered).step hsaves
    hsaved).step hresolves hresolved, rfl, CallState.to_self .., ?_⟩
  rw [CallState.to_not]
  simp only [saved, CallState.to_not]
  exact (CallState.to_not read b _).trans (CallState.to_not s b _)

/-- One arrival after the other. -/
theorem arrivals_kept : ∃ s', ((callSystem fixedOrder emptyDirectory "event" arrivals).startedAt
      beforeArrivals).Reaches (SavesOverWhatItRead "event" arrivals) s' ∧
    (∀ b, s'.phases b = .resolved) ∧
    ∃ b, inOrder fixedOrder emptyDirectory "event" arrivals b beforeArrivals.store =
      some s'.store := by
  have hruns : (((arrivals true).run fixedOrder emptyDirectory "event" event.doc []).bind fun r =>
      ((arrivals false).run fixedOrder emptyDirectory "event" r.1 []).map fun r' =>
        r.2.isEmpty && r'.2.isEmpty) = some true := by
    decide +kernel
  obtain ⟨⟨first, ops⟩, hfirst, hrest⟩ := Option.bind_eq_some_iff.1 hruns
  obtain ⟨⟨second, ops'⟩, hsecond, hempty⟩ := Option.map_eq_some_iff.1 hrest
  obtain ⟨hops, hops'⟩ := Bool.and_eq_true_iff.1 hempty
  have hnone : ops = [] := List.isEmpty_iff.1 hops
  have hnone' : ops' = [] := List.isEmpty_iff.1 hops'
  subst hnone hnone'
  obtain ⟨s, hs, hstore, htrue, hfalse⟩ :=
    reaches_through (s := beforeArrivals) (b := true) (.init rfl) rfl rfl hfirst
  obtain ⟨s', hs', -, hfalse', htrue'⟩ := reaches_through (b := false) hs hfalse
    (by rw [Bool.not_false, htrue]; rfl) (by rw [hstore]; exact hsecond)
  have hboth : ∀ b, s'.phases b = .resolved := Bool.forall_bool.2 ⟨hfalse', htrue'.trans htrue⟩
  exact ⟨s', hs', hboth, resolved_in_order (fun _ => rfl) hs' hboth⟩

end Archon.Frontend

import Archon.Engine.DeckEmission

/-!
# The decks an event reads

Only the decks of some players bear on what an event is answered and asks of the decks, and only
theirs are in its operations: those of the player it is about, or those of everyone where it stamps
or releases a round or a finished tournament publishes.
-/

namespace Archon.Engine
open Guards Seating

/-- The decks of the player bear on the answer to the event, the document after it apart. -/
def readsDecksOf (t : Tournament) (e : TournamentEvent) (uid : Uid) : Bool :=
  t.state == .finished ||
    match e with
    | .finishTournament | .finishFinals | .cancelRound .. | .cancelFinals | .alterSeating .. => true
    | .startRound .. | .selfOrganizeRound .. | .startFinals | .seatPlayer .. => t.flag .multideck
    | .unregister player | .removePlayer player | .unseatPlayer player _ | .upsertDeck player ..
    | .deleteDeck player .. | .setDeckAttribution player .. | .setDeckPrivate player ..
    | .viewDeck player _ => uid == player
    | _ => false

/-- The operation is about a player who meets `p`, or about a deck of such a player. -/
def DeckOp.Concerns (decks : List DeckObject) (p : Uid → Prop) : DeckOp → Prop
  | .upsert playerUid .. | .delete playerUid .. => p playerUid
  | .setRound deckUid _ | .setPublication deckUid .. | .setAttribution deckUid ..
  | .setPrivate deckUid _ | .logView deckUid .. => ∃ d ∈ decks, d.uid = deckUid ∧ p d.userUid

section Reads

variable {rs : RandomSource} {t : Tournament} {e : TournamentEvent} {actor : ActorContext}
  {sanctions : List Sanction} {decks decks' : List DeckObject} {uid : Uid}

/-! ### Decks of one player -/

theorem any_of_player (p : DeckObject → Bool)
    (h : decks.filter (fun d => d.userUid == uid) = decks'.filter fun d => d.userUid == uid) :
    (decks.any fun d => d.userUid == uid && p d) = decks'.any fun d => d.userUid == uid && p d := by
  rw [← List.any_filter, ← List.any_filter, h]

theorem findDeck_of_player (round : Option ℕ)
    (h : decks.filter (fun d => d.userUid == uid) = decks'.filter fun d => d.userUid == uid) :
    findDeck decks uid round = findDeck decks' uid round := by
  have hsplit : ∀ xs : List DeckObject, findDeck xs uid round =
      (xs.filter fun d => d.userUid == uid).find? fun d => d.round == round := by
    intro xs
    rw [List.find?_filter]
    simp only [findDeck, Bool.decide_and, Bool.decide_eq_true]
  rw [hsplit, hsplit, h]

theorem hasDeck_of_player
    (h : decks.filter (fun d => d.userUid == uid) = decks'.filter fun d => d.userUid == uid) :
    hasDeck decks uid = hasDeck decks' uid := by
  have hany := any_of_player (fun _ => true) h
  simp only [Bool.and_true] at hany
  exact hany

theorem deletePlayerDecks_of_player
    (h : decks.filter (fun d => d.userUid == uid) = decks'.filter fun d => d.userUid == uid) :
    deletePlayerDecks t decks uid = deletePlayerDecks t decks' uid := by
  have hhas := hasDeck_of_player h
  unfold hasDeck at hhas
  rw [deletePlayerDecks, deletePlayerDecks, hhas]

theorem releaseStampedDecks_of_player (rounds : List ℕ)
    (h : decks.filter (fun d => d.userUid == uid) = decks'.filter fun d => d.userUid == uid) :
    releaseStampedDecks decks rounds (some uid) = releaseStampedDecks decks' rounds (some uid) := by
  have hsplit : ∀ xs : List DeckObject, xs.filter (isStampedAt rounds (some uid)) =
      (xs.filter fun d => d.userUid == uid).filter fun d => d.round.any fun r =>
        rounds.contains r := by
    intro xs
    rw [List.filter_filter]
    refine List.filter_congr fun d _ => ?_
    simp [isStampedAt, beq_eq_decide, eq_comm]
  rw [releaseStampedDecks_eq, releaseStampedDecks_eq, hsplit, hsplit, h]

/-! ### The answer to an event -/

theorem unfinished_of_unread (h : readsDecksOf t e uid = false) : t.state ≠ .finished := by
  unfold readsDecksOf at h
  rw [Bool.or_eq_false_iff, beq_eq_false_iff_ne] at h
  exact h.1

theorem unfinished_of_effect {i : EventInput} {t' : Tournament} (h : Effect rs t i t')
    (hread : readsDecksOf t i.event uid = false) : t'.state ≠ .finished := by
  have hstate : t.state ≠ .finished := unfinished_of_unread hread
  cases h with
  | quiet _ hquiet => exact hquiet.state ▸ hstate
  | openRegistration | closeRegistration | cancelRegistration | reopenRegistration =>
    exact TournamentState.noConfusion
  | startRound => simp [startRoundDoc, hstate]
  | selfOrganizeRound => simp [selfOrganizeDoc]
  | startFinals => simp [startFinalsDoc, hstate]
  | finishRound =>
    rw [updateStandings_state, finishRoundDoc]
    dsimp only
    split
    · exact TournamentState.noConfusion
    · exact hstate
  | restoreRound =>
    rw [updateStandings_state, restoreRoundDoc]
    dsimp only
    split_ifs
    · exact TournamentState.noConfusion
    · exact TournamentState.noConfusion
    · exact hstate
  | cancelRound _ he => simp [readsDecksOf, he] at hread
  | cancelFinals he => simp [readsDecksOf, he] at hread
  | reseatFinals _ _ _ he => simp [readsDecksOf, he] at hread
  | reseatRound _ _ _ he => simp [readsDecksOf, he] at hread
  | finishFinals _ he => simp [readsDecksOf, he] at hread
  | finishTournament he => simp [readsDecksOf, he] at hread
  | reopenTournament _ hdone => exact absurd hdone hstate
  | archival _ _ hdone => exact absurd hdone hstate
  | _ => first | exact hstate | (rw [updateStandings_state]; exact hstate)

/-- The operations of an answer, or the error. -/
def Outcome.ops (o : Outcome) : Except EngineError (List DeckOp) := o.map Prod.snd

theorem Outcome.ops_bind {α : Type} (x : Except EngineError α) {f g : α → Outcome}
    (h : ∀ a, Outcome.ops (f a) = Outcome.ops (g a)) :
    Outcome.ops (x >>= f) = Outcome.ops (x >>= g) := by
  cases x with
  | error e => rfl
  | ok a => exact h a

theorem stampRoundDecks_single {doc : Tournament} (h : doc.flag .multideck = false)
    (decks : List DeckObject) (round : ℕ) : stampRoundDecks doc decks round = [] := by
  rw [stampRoundDecks, if_neg (by simp [h])]

theorem applyEvent_ops_congr (hsome : readsDecksOf t e uid = false)
    (h : decks.filter (fun d => readsDecksOf t e d.userUid) =
      decks'.filter fun d => readsDecksOf t e d.userUid) :
    Outcome.ops (applyEvent rs t ⟨e, actor, sanctions, decks⟩) =
      Outcome.ops (applyEvent rs t ⟨e, actor, sanctions, decks'⟩) := by
  have hstate : (t.state == .finished) = false :=
    beq_eq_false_iff_ne.2 (unfinished_of_unread hsome)
  unfold applyEvent
  cases e with
  | unregister player =>
    simp only [readsDecksOf, hstate, Bool.false_or] at h
    simp only [unregister, deletePlayerDecks_of_player h]
  | removePlayer player =>
    simp only [readsDecksOf, hstate, Bool.false_or] at h
    simp only [removePlayer, deletePlayerDecks_of_player h]
  | addPlayer player =>
    exact Outcome.ops_bind _ fun _ => Outcome.ops_bind _ fun _ => Outcome.ops_bind _ fun _ =>
      Outcome.ops_bind _ fun _ => rfl
  | checkIn player =>
    exact Outcome.ops_bind _ fun _ => Outcome.ops_bind _ fun _ => Outcome.ops_bind _ fun _ =>
      Outcome.ops_bind _ fun _ => Outcome.ops_bind _ fun _ => Outcome.ops_bind _ fun _ =>
        Outcome.ops_bind _ fun _ => Outcome.ops_bind _ fun _ => rfl
  | startRound submitted =>
    have hsingle : ∀ seating, (startRoundDoc t seating).flag .multideck = false := fun _ =>
      (Bool.or_eq_false_iff.1 hsome).2
    simp only [startRound, stampRoundDecks_single (hsingle _)]
  | selfOrganizeRound uids =>
    have hsingle : ∀ seating, (selfOrganizeDoc t actor.uid uids seating).flag .multideck = false :=
      fun _ => (Bool.or_eq_false_iff.1 hsome).2
    simp only [selfOrganizeRound, stampRoundDecks_single (hsingle _)]
  | seatPlayer player table seat round =>
    have hsingle : ∀ target, (seatPlayerDoc t player table seat target).flag .multideck = false :=
      fun _ => (Bool.or_eq_false_iff.1 hsome).2
    simp only [seatPlayer, stampRoundDecks_single (hsingle _)]
  | startFinals =>
    have hsingle : (startFinalsDoc t (qualifiers t sanctions)).flag .multideck = false :=
      (Bool.or_eq_false_iff.1 hsome).2
    simp only [startFinals, stampRoundDecks_single hsingle]
  | unseatPlayer player =>
    simp only [readsDecksOf, hstate, Bool.false_or] at h
    simp only [unseatPlayer, releaseStampedDecks_of_player _ h]
  | upsertDeck player =>
    simp only [readsDecksOf, hstate, Bool.false_or] at h
    simp only [upsertDeck, findDeck_of_player _ h, hasDeck_of_player h]
  | deleteDeck player =>
    simp only [readsDecksOf, hstate, Bool.false_or] at h
    simp only [deleteDeck, Bool.and_assoc, any_of_player _ h]
  | setDeckAttribution player =>
    simp only [readsDecksOf, hstate, Bool.false_or] at h
    simp only [setDeckAttribution, findDeck_of_player _ h]
  | setDeckPrivate player =>
    simp only [readsDecksOf, hstate, Bool.false_or] at h
    simp only [setDeckPrivate, findDeck_of_player _ h]
  | viewDeck player =>
    simp only [readsDecksOf, hstate, Bool.false_or] at h
    simp only [viewDeck, findDeck_of_player _ h]
  | cancelRound | cancelFinals | alterSeating =>
    simp [readsDecksOf] at hsome
  | _ => rfl

theorem event_of_unread (hunread : readsDecksOf t e uid = false) :
    processTournamentEvent rs t ⟨e, actor, sanctions, decks⟩ =
      applyEvent rs t ⟨e, actor, sanctions, decks⟩ := by
  rw [processTournamentEvent]
  cases happly : applyEvent rs t ⟨e, actor, sanctions, decks⟩ with
  | error err => rfl
  | ok r =>
    have hafter : r.1.state ≠ .finished :=
      unfinished_of_effect (effect_of_applyEvent happly) hunread
    refine congrArg Except.ok ?_
    rw [if_neg (not_or.2 ⟨unfinished_of_unread hunread, hafter⟩), List.append_nil]

theorem event_ops_congr
    (h : decks.filter (fun d => readsDecksOf t e d.userUid) =
      decks'.filter fun d => readsDecksOf t e d.userUid) :
    Outcome.ops (processTournamentEvent rs t ⟨e, actor, sanctions, decks⟩) =
      Outcome.ops (processTournamentEvent rs t ⟨e, actor, sanctions, decks'⟩) := by
  by_cases hall : ∀ uid, readsDecksOf t e uid = true
  · have hsame : decks = decks' := by simpa [hall] using h
    rw [hsame]
  push Not at hall
  obtain ⟨uid, huid⟩ := hall
  have hunread : readsDecksOf t e uid = false := Bool.eq_false_of_not_eq_true huid
  rw [event_of_unread hunread, event_of_unread hunread, applyEvent_ops_congr hunread h]

/-! ### The decks of the operations -/

theorem concerns_deletePlayerDecks {p : Uid → Prop} (hp : p uid) :
    ∀ op ∈ deletePlayerDecks t decks uid, op.Concerns decks p := by
  unfold deletePlayerDecks
  split
  · exact List.forall_mem_singleton.2 hp
  · exact fun op hop => absurd hop List.not_mem_nil

theorem concerns_releaseStampedDecks {rounds : List ℕ} {p : Uid → Prop} (hp : p uid) :
    ∀ op ∈ releaseStampedDecks decks rounds (some uid), op.Concerns decks p := by
  rw [releaseStampedDecks_eq]
  intro op hop
  obtain ⟨d, hd, rfl⟩ := List.mem_map.1 hop
  obtain ⟨hmem, hat⟩ := List.mem_filter.1 hd
  have huser : d.userUid = uid := by
    simp only [isStampedAt, Bool.and_eq_true, Bool.or_eq_true, beq_iff_eq, reduceCtorEq,
      Option.some.injEq, false_or] at hat
    exact hat.2.symm
  exact ⟨d, hmem, rfl, huser ▸ hp⟩

theorem concerns_stampRoundDecks {doc : Tournament} {round : ℕ} {p : Uid → Prop}
    (h : doc.flag .multideck = false) :
    ∀ op ∈ stampRoundDecks doc decks round, op.Concerns decks p := by
  rw [stampRoundDecks_single h]
  exact fun op hop => absurd hop List.not_mem_nil

theorem user_of_findDeck {round : Option ℕ} {d : DeckObject}
    (h : okOr (findDeck decks uid round) EngineError.deckNotFound = .ok d) :
    d ∈ decks ∧ d.userUid = uid := by
  have hfind : findDeck decks uid round = some d := okOr_eq_ok.1 h
  have huser := List.find?_some hfind
  rw [Bool.and_eq_true, beq_iff_eq] at huser
  exact ⟨List.mem_of_find?_eq_some hfind, huser.1⟩

theorem concerns_of_applyEvent (hsome : readsDecksOf t e uid = false) :
    Emits (applyEvent rs t ⟨e, actor, sanctions, decks⟩) fun ops =>
      ∀ op ∈ ops, op.Concerns decks fun uid => readsDecksOf t e uid = true := by
  have hstate : (t.state == .finished) = false :=
    beq_eq_false_iff_ne.2 (unfinished_of_unread hsome)
  cases hnone : emitsNothing e with
  | true =>
    intro r hr
    rw [emits_nil (i := ⟨e, actor, sanctions, decks⟩) hnone r hr]
    exact fun op hop => absurd hop List.not_mem_nil
  | false =>
    unfold applyEvent
    cases e with
    | unregister player =>
      exact .bind fun _ _ => .bind fun _ _ => .bind fun _ _ => .bind fun _ _ =>
        .pure (concerns_deletePlayerDecks (by simp [readsDecksOf]))
    | removePlayer player =>
      exact .bind fun _ _ => .bind fun _ _ => .bind fun _ _ => .bind fun _ _ =>
        .pure (concerns_deletePlayerDecks (by simp [readsDecksOf]))
    | unseatPlayer player =>
      exact .bind fun _ _ => .bind fun _ _ => .bind fun _ _ => .bind fun _ _ => .bind fun _ _ =>
        .pure (concerns_releaseStampedDecks (by simp [readsDecksOf]))
    | upsertDeck player =>
      exact .bind fun _ _ => .bind fun _ _ => .bind fun _ _ => .bind fun _ _ => .bind fun _ _ =>
        .pure (List.forall_mem_singleton.2 (by simp [DeckOp.Concerns, readsDecksOf]))
    | deleteDeck player =>
      exact .bind fun _ _ => .bind fun _ _ => .bind fun _ _ => .bind fun _ _ => .bind fun _ _ =>
        .pure (List.forall_mem_singleton.2 (by simp [DeckOp.Concerns, readsDecksOf]))
    | setDeckAttribution player =>
      refine .bind fun _ _ => .bind fun d hd => .pure (List.forall_mem_singleton.2 ?_)
      obtain ⟨hmem, huser⟩ := user_of_findDeck hd
      exact ⟨d, hmem, rfl, by simp [readsDecksOf, huser]⟩
    | setDeckPrivate player =>
      refine .bind fun _ _ => .bind fun _ _ => .bind fun d hd =>
        .pure (List.forall_mem_singleton.2 ?_)
      obtain ⟨hmem, huser⟩ := user_of_findDeck hd
      exact ⟨d, hmem, rfl, by simp [readsDecksOf, huser]⟩
    | viewDeck player =>
      refine .bind fun _ _ => .ite (fun _ => .pure ?_) (fun _ => .bind fun d hd =>
        .ite (fun _ => .pure ?_) (fun _ => .pure (List.forall_mem_singleton.2 ?_)))
      · exact fun op hop => absurd hop List.not_mem_nil
      · exact fun op hop => absurd hop List.not_mem_nil
      · obtain ⟨hmem, huser⟩ := user_of_findDeck hd
        exact ⟨d, hmem, rfl, by simp [readsDecksOf, huser]⟩
    | startRound =>
      have hsingle : t.flag .multideck = false := (Bool.or_eq_false_iff.1 hsome).2
      exact .bind fun _ _ => .bind fun _ _ => .bind fun _ _ => .bind fun _ _ => .bind fun _ _ =>
        .pure (concerns_stampRoundDecks hsingle)
    | selfOrganizeRound =>
      have hsingle : t.flag .multideck = false := (Bool.or_eq_false_iff.1 hsome).2
      exact .bind fun _ _ => .bind fun _ _ => .bind fun _ _ => .bind fun _ _ => .bind fun _ _ =>
        .bind fun _ _ => .bind fun _ _ => .bind fun _ _ => .pure (concerns_stampRoundDecks hsingle)
    | seatPlayer =>
      have hsingle : t.flag .multideck = false := (Bool.or_eq_false_iff.1 hsome).2
      exact .bind fun _ _ => .bind fun _ _ => .bind fun _ _ => .bind fun _ _ => .bind fun _ _ =>
        .bind fun _ _ => .bind fun _ _ => .bind fun _ _ => .pure (concerns_stampRoundDecks hsingle)
    | startFinals =>
      have hsingle : t.flag .multideck = false := (Bool.or_eq_false_iff.1 hsome).2
      exact .bind fun _ _ => .bind fun _ _ => .bind fun _ _ => .bind fun _ _ => .bind fun _ _ =>
        .bind fun _ _ => .pure (concerns_stampRoundDecks hsingle)
    | cancelRound | cancelFinals | alterSeating => simp [readsDecksOf] at hsome
    | _ => cases hnone

theorem concerns_of_event {r : Tournament × List DeckOp}
    (h : processTournamentEvent rs t ⟨e, actor, sanctions, decks⟩ = .ok r) :
    ∀ op ∈ r.2, op.Concerns decks fun uid => readsDecksOf t e uid = true := by
  obtain ⟨base, pubs, hops, hbase, hpubs, t', happly, hdoc, hquiet⟩ :=
    emitted_of_processTournamentEvent h
  rw [hops]
  by_cases hall : ∀ uid, readsDecksOf t e uid = true
  · intro op hop
    rcases List.mem_append.1 hop with hop | hop
    · cases hbase with
      | moves hmoves =>
        obtain ⟨d, hd, next, rfl⟩ := hmoves.op hop
        exact ⟨d, hd, rfl, hall _⟩
      | upsert =>
        rw [List.mem_singleton.1 hop]
        exact hall _
      | delete =>
        rw [List.mem_singleton.1 hop]
        exact hall _
      | setAttribution d _ _ hd | setPrivate d _ hd | logView d _ _ _ _ _ hd =>
        rw [List.mem_singleton.1 hop]
        exact ⟨d, hd, rfl, hall _⟩
    · obtain ⟨d, hd, isPublic, isWinner, rfl, -⟩ := hpubs op hop
      exact ⟨d, hd, rfl, hall _⟩
  · push Not at hall
    obtain ⟨uid, huid⟩ := hall
    have hunread : readsDecksOf t e uid = false := Bool.eq_false_of_not_eq_true huid
    have hafter := unfinished_of_effect (effect_of_applyEvent happly) hunread
    rw [hquiet (unfinished_of_unread hunread) hafter, List.append_nil]
    exact concerns_of_applyEvent hunread _ happly

/-! ### Events that look at no deck -/

/-- The decks bear on the answer to the event, or on the document after it. -/
def looksAtDecks (t : Tournament) (e : TournamentEvent) : Bool :=
  t.state == .finished ||
    match e with
    | .finishTournament | .finishFinals | .cancelRound .. | .cancelFinals | .alterSeating ..
    | .unregister .. | .removePlayer .. | .unseatPlayer .. | .upsertDeck .. | .deleteDeck ..
    | .setDeckAttribution .. | .setDeckPrivate .. | .viewDeck .. => true
    | .startRound .. | .selfOrganizeRound .. | .startFinals | .seatPlayer .. => t.flag .multideck
    | .addPlayer .. | .checkIn .. => t.flag .decklistRequired
    | _ => false

theorem readsDecksOf_of_blind (h : looksAtDecks t e = false) (uid : Uid) :
    readsDecksOf t e uid = false := by
  unfold looksAtDecks at h
  unfold readsDecksOf
  cases e <;> simp_all

theorem applyEvent_blind (h : looksAtDecks t e = false) :
    applyEvent rs t ⟨e, actor, sanctions, decks⟩ = applyEvent rs t
      ⟨e, actor, sanctions, decks'⟩ := by
  have hstate := (Bool.or_eq_false_iff.1 h).1
  have hrest := (Bool.or_eq_false_iff.1 h).2
  unfold applyEvent
  cases e with
  | finishTournament | finishFinals | cancelRound | cancelFinals | alterSeating | unregister
  | removePlayer | unseatPlayer | upsertDeck | deleteDeck | setDeckAttribution | setDeckPrivate
  | viewDeck => cases hrest
  | startRound submitted =>
    have hsingle : ∀ seating, (startRoundDoc t seating).flag .multideck = false := fun _ => hrest
    simp only [startRound, stampRoundDecks_single (hsingle _)]
  | selfOrganizeRound uids =>
    have hsingle : ∀ seating, (selfOrganizeDoc t actor.uid uids seating).flag .multideck = false :=
      fun _ => hrest
    simp only [selfOrganizeRound, stampRoundDecks_single (hsingle _)]
  | seatPlayer player table seat round =>
    have hsingle : ∀ target, (seatPlayerDoc t player table seat target).flag .multideck = false :=
      fun _ => hrest
    simp only [seatPlayer, stampRoundDecks_single (hsingle _)]
  | startFinals =>
    have hsingle : (startFinalsDoc t (qualifiers t sanctions)).flag .multideck = false := hrest
    simp only [startFinals, stampRoundDecks_single hsingle]
  | addPlayer =>
    have hnone : t.flag .decklistRequired = false := hrest
    simp only [addPlayer, hnone, Bool.and_false, Bool.false_and]
  | checkIn =>
    have hnone : t.flag .decklistRequired = false := hrest
    have hentry : ∀ player name, checkedInEntry t decks player name =
        checkedInEntry t decks' player name := by
      intro player name
      unfold checkedInEntry
      simp only [hnone, Bool.false_and]
    simp only [checkIn, hentry]
  | _ => rfl

theorem event_blind (h : looksAtDecks t e = false) (decks decks' : List DeckObject) :
    processTournamentEvent rs t ⟨e, actor, sanctions, decks⟩ =
      processTournamentEvent rs t ⟨e, actor, sanctions, decks'⟩ := by
  have hunread : readsDecksOf t e "" = false := readsDecksOf_of_blind h ""
  rw [event_of_unread hunread, event_of_unread hunread, applyEvent_blind h]

theorem ops_of_blind {r : Tournament × List DeckOp} (h : looksAtDecks t e = false)
    (hevent : processTournamentEvent rs t ⟨e, actor, sanctions, decks⟩ = .ok r) : r.2 = [] := by
  rw [event_blind h decks []] at hevent
  rw [List.eq_nil_iff_forall_not_mem]
  intro op hop
  have hconcerns := concerns_of_event hevent op hop
  simp only [readsDecksOf_of_blind h] at hconcerns
  cases op with
  | upsert | delete => cases hconcerns
  | _ =>
    obtain ⟨d, hd, -⟩ := hconcerns
    cases hd

end Reads

end Archon.Engine

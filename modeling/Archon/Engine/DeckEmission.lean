import Mathlib.Data.List.Dedup
import Archon.Engine.Effects
import Archon.Engine.Seats

/-!
# The deck operations of an event

Which operations an accepted event emits: rounds moved (decks released, then decks stamped), one
operation on the decks of one player, or nothing; then the publications of a finished tournament.
-/

namespace Archon.Engine
open Guards Seating

/-! ### Handlers by their operations -/

/-- Whatever the handler accepts, its operations satisfy `P`. -/
def Emits (o : Outcome) (P : List DeckOp → Prop) : Prop := ∀ r, o = .ok r → P r.2

theorem Emits.bind {α : Type} {x : Except EngineError α} {f : α → Outcome}
    {P : List DeckOp → Prop} (h : ∀ a, x = .ok a → Emits (f a) P) : Emits (x >>= f) P := by
  intro r hr
  obtain ⟨a, ha, hfa⟩ := bind_eq_ok.1 hr
  exact h a ha r hfa

theorem Emits.pure {t : Tournament} {ops : List DeckOp} {P : List DeckOp → Prop} (h : P ops) :
    Emits (pure (t, ops)) P := by
  intro r hr
  cases pure_eq_ok.1 hr
  exact h

theorem Emits.ite {c : Prop} [Decidable c] {x y : Outcome} {P : List DeckOp → Prop}
    (hx : c → Emits x P) (hy : ¬c → Emits y P) : Emits (if c then x else y) P := by
  split
  · exact hx ‹_›
  · exact hy ‹_›

/-! ### What moves -/

/-- The decks the event returns to pending. -/
def releases (t : Tournament) (e : TournamentEvent) (d : DeckObject) : Bool :=
  match e, d.round with
  | .cancelRound round, some r =>
    let last := t.rounds.length - 1
    round.getD last == last && decide ((cancelRoundDoc t last).rounds.length ≤ r)
      && decide (r < t.rounds.length)
  | .cancelFinals, some r => r == t.rounds.length
  | .unseatPlayer uid round, some r => d.userUid == uid && r == round.getD (t.rounds.length - 1)
  | .alterSeating round seating, some r =>
    r == round && (roundUids ((t.rounds[round]?).getD [])).contains d.userUid
      && !seating.flatten.contains d.userUid
  | _, _ => false

def releaseOp (d : DeckObject) : DeckOp := .setRound d.uid none

def stampOp (round : ℕ) (d : DeckObject) : DeckOp := .setRound d.uid (some round)

/-- A deck that may be stamped: pending, and no deck of its player stands at the round. -/
def Stampable (decks : List DeckObject) (round : ℕ) (d : DeckObject) : Prop :=
  d ∈ decks ∧ d.round = none ∧ ∀ e ∈ decks, e.userUid = d.userUid → e.round ≠ some round

/-- The decks `back` are released and then the decks `on` stamped at `round`. -/
structure Moves (t : Tournament) (e : TournamentEvent) (decks back on : List DeckObject)
    (round : ℕ) : Prop where
  back_subset : ∀ d ∈ back, d ∈ decks ∧ releases t e d = true
  back_nodup : (decks.map DeckObject.uid).Nodup → (back.map DeckObject.uid).Nodup
  on_stampable : ∀ d ∈ on, Stampable decks round d
  on_nodup : (on.map DeckObject.userUid).Nodup
  apart : ∀ d ∈ back, ∀ d' ∈ on, d.userUid ≠ d'.userUid

/-- The operations of the handler of an event, before the publications. -/
inductive Emitted (t : Tournament) (i : EventInput) : List DeckOp → Prop
  | moves {back on : List DeckObject} {round : ℕ} : Moves t i.event i.decks back on round →
      Emitted t i (back.map releaseOp ++ on.map (stampOp round))
  | upsert (uid : Uid) (deck upload : DeckUpload) (isPublic isWinner isPrivate multideck : Bool) :
      i.event = .upsertDeck uid deck multideck →
      upload.round =
        (if i.actor.isOrganizer = false ∧ t.state ≠ .finished then none else deck.round) →
      Emitted t i [.upsert uid upload isPublic isWinner isPrivate multideck]
  | delete (uid : Uid) (deckIndex : Option ℕ) (multideck : Bool) :
      Emitted t i [.delete uid deckIndex multideck]
  | setAttribution (d : DeckObject) (uid : Uid) (attribution : Attribution) : d ∈ i.decks →
      Emitted t i [.setAttribution d.uid uid attribution]
  | setPrivate (d : DeckObject) (isPrivate : Bool) : d ∈ i.decks →
      Emitted t i [.setPrivate d.uid isPrivate]
  | logView (d : DeckObject) (userUid : Uid) (round : ℕ) (uid : Uid) (viewed : Option ℕ) :
      i.event = .viewDeck uid viewed → d ∈ i.decks → t.state ≠ .finished →
      Emitted t i [.logView d.uid userUid round]

variable {t t' : Tournament} {i : EventInput} {decks back on : List DeckObject} {round : ℕ}
  {e : TournamentEvent}

theorem Emitted.nil : Emitted t i [] := by
  have hnone : Moves t i.event i.decks [] [] 0 := by constructor <;> simp
  exact .moves hnone

theorem Moves.ofBack (hsubset : ∀ d ∈ back, d ∈ decks ∧ releases t e d = true)
    (hnodup : (decks.map DeckObject.uid).Nodup → (back.map DeckObject.uid).Nodup) :
    Moves t e decks back [] 0 where
  back_subset := hsubset
  back_nodup := hnodup
  on_stampable _ hd := absurd hd List.not_mem_nil
  on_nodup := List.nodup_nil
  apart _ _ _ hd' := absurd hd' List.not_mem_nil

theorem Moves.ofOn (hstampable : ∀ d ∈ on, Stampable decks round d)
    (hnodup : (on.map DeckObject.userUid).Nodup) : Moves t e decks [] on round where
  back_subset _ hd := absurd hd List.not_mem_nil
  back_nodup _ := List.nodup_nil
  on_stampable := hstampable
  on_nodup := hnodup
  apart _ hd := absurd hd List.not_mem_nil

theorem Moves.op (h : Moves t e decks back on round) {op : DeckOp}
    (hop : op ∈ back.map releaseOp ++ on.map (stampOp round)) :
    ∃ d ∈ decks, ∃ next, op = .setRound d.uid next := by
  rcases List.mem_append.1 hop with hop | hop
  · obtain ⟨d, hd, rfl⟩ := List.mem_map.1 hop
    exact ⟨d, (h.back_subset d hd).1, none, rfl⟩
  · obtain ⟨d, hd, rfl⟩ := List.mem_map.1 hop
    exact ⟨d, (h.on_stampable d hd).1, some round, rfl⟩

/-! ### Stamping and releasing -/

/-- The decks of the loop so far: stampable, of players now taken, one a player. -/
structure Stamped (t : Tournament) (decks : List DeckObject) (round : ℕ) (taken : List Uid)
    (acc : List Uid × List DeckOp) (on : List DeckObject) : Prop where
  ops : acc.2 = on.map (stampOp round)
  seated : ∀ d ∈ on, d.userUid ∈ seatedInRound t round
  pending : ∀ d ∈ on, d ∈ decks ∧ d.round = none ∧ d.userUid ∉ taken
  nodup : (on.map DeckObject.userUid).Nodup
  taken_subset : taken ⊆ acc.1
  mem_taken : ∀ d ∈ on, d.userUid ∈ acc.1

theorem Stamped.step {taken : List Uid} {acc : List Uid × List DeckOp} {d : DeckObject}
    (h : Stamped t decks round taken acc on) (hd : d ∈ decks) :
    ∃ on', Stamped t decks round taken (stampStep (seatedInRound t round) round acc d) on' := by
  unfold stampStep
  split
  · rename_i hcond
    obtain ⟨hpending, hseated, hfresh⟩ := hcond
    refine ⟨on ++ [d], ?_, ?_, ?_, ?_, ?_, ?_⟩
    · rw [h.ops, List.map_append]
      rfl
    · simpa [or_imp, forall_and, hseated] using h.seated
    · have hnew : d ∈ decks ∧ d.round = none ∧ d.userUid ∉ taken :=
        ⟨hd, hpending, fun hmem => hfresh (h.taken_subset hmem)⟩
      intro x hx
      rcases List.mem_append.1 hx with hx | hx
      · exact h.pending x hx
      · exact List.mem_singleton.1 hx ▸ hnew
    · rw [List.map_append, List.map_singleton, List.nodup_append]
      refine ⟨h.nodup, List.nodup_singleton _, ?_⟩
      rintro a ha b hb rfl
      obtain ⟨x, hx, hxa⟩ := List.mem_map.1 ha
      rw [List.mem_singleton] at hb
      exact hfresh (hb ▸ hxa ▸ h.mem_taken x hx)
    · exact fun x hx => List.mem_cons_of_mem _ (h.taken_subset hx)
    · intro x hx
      rcases List.mem_append.1 hx with hx | hx
      · exact List.mem_cons_of_mem _ (h.mem_taken x hx)
      · rw [List.mem_singleton.1 hx]
        exact List.mem_cons_self ..
  · exact ⟨on, h⟩

theorem stampRoundDecks_eq (t : Tournament) (decks : List DeckObject) (round : ℕ) :
    ∃ on : List DeckObject, stampRoundDecks t decks round = on.map (stampOp round) ∧
      (∀ d ∈ on, Stampable decks round d ∧ d.userUid ∈ seatedInRound t round) ∧
      (on.map DeckObject.userUid).Nodup := by
  unfold stampRoundDecks
  split
  · extract_lets taken
    have hrun : ∃ on, Stamped t decks round taken
        (decks.foldl (stampStep (seatedInRound t round) round) (taken, [])) on := by
      refine List.foldlRecOn decks _ (motive := fun acc => ∃ on, Stamped t decks round taken acc on)
        ⟨[], rfl, ?_, ?_, List.nodup_nil, fun _ hx => hx, ?_⟩ ?_
      · exact fun d hd => absurd hd List.not_mem_nil
      · exact fun d hd => absurd hd List.not_mem_nil
      · exact fun d hd => absurd hd List.not_mem_nil
      · rintro acc ⟨on, hon⟩ d hd
        exact hon.step hd
    obtain ⟨on, hon⟩ := hrun
    refine ⟨on, hon.ops, fun d hd => ⟨?_, hon.seated d hd⟩, hon.nodup⟩
    obtain ⟨hmem, hnone, hfree⟩ := hon.pending d hd
    refine ⟨hmem, hnone, fun x hx huser hround => hfree ?_⟩
    rw [← huser]
    exact List.mem_map_of_mem (List.mem_filter.2 ⟨hx, by simp [hround]⟩)
  · exact ⟨[], rfl, fun d hd => absurd hd List.not_mem_nil, List.nodup_nil⟩

/-- The decks `release_stamped_decks` returns to pending. -/
def isStampedAt (rounds : List ℕ) (player : Option Uid) (d : DeckObject) : Bool :=
  d.round.any (fun r => rounds.contains r) && (player == none || player == some d.userUid)

theorem releaseStampedDecks_eq (decks : List DeckObject) (rounds : List ℕ) (player : Option Uid) :
    releaseStampedDecks decks rounds player =
      (decks.filter (isStampedAt rounds player)).map releaseOp := by
  rw [releaseStampedDecks, ← List.filterMap_eq_map, List.filterMap_filter]
  refine List.filterMap_congr fun d _ => ?_
  cases hr : d.round with
  | none => simp [isStampedAt, hr]
  | some r => simp [isStampedAt, hr, releaseOp]

theorem emitted_release {rounds : List ℕ} {player : Option Uid}
    (h : ∀ d ∈ i.decks, isStampedAt rounds player d = true → releases t i.event d = true) :
    Emitted t i (releaseStampedDecks i.decks rounds player) := by
  have hmoves : Moves t i.event i.decks (i.decks.filter (isStampedAt rounds player)) [] 0 := by
    refine .ofBack (fun d hd => ?_) fun hnodup => ?_
    · obtain ⟨hmem, hat⟩ := List.mem_filter.1 hd
      exact ⟨hmem, h d hmem hat⟩
    · exact hnodup.sublist (List.Sublist.map _ List.filter_sublist)
  rw [releaseStampedDecks_eq, ← List.append_nil (List.map ..)]
  exact .moves hmoves

theorem emitted_stamp (t' : Tournament) (round : ℕ) :
    Emitted t i (stampRoundDecks t' i.decks round) := by
  obtain ⟨on, heq, hon, hnodup⟩ := stampRoundDecks_eq t' i.decks round
  rw [heq, ← List.nil_append (List.map ..)]
  exact .moves (.ofOn (fun d hd => (hon d hd).1) hnodup)

theorem seatedInRound_subset {rounds : List (List Table)} (h : t.rounds = rounds)
    {tables : List Table} (hround : rounds[round]? = some tables) :
    seatedInRound t round ⊆ roundUids tables := by
  unfold seatedInRound
  rw [h, hround]
  intro uid huid
  obtain ⟨tb, htb, hmem⟩ := List.mem_flatMap.1 huid
  exact List.mem_flatMap.2 ⟨tb, (List.mem_filter.1 htb).1, hmem⟩

theorem emitted_reseat {tables : List Table} {seating : List (List Uid)} {sanctions : List Sanction}
    (he : i.event = .alterSeating round seating) (htables : t.rounds[round]? = some tables) :
    Emitted t i (reseatDeckOps (alterSeatingDoc t sanctions round tables seating) i.decks round
      (roundUids tables) seating.flatten) := by
  set doc := alterSeatingDoc t sanctions round tables seating with hdoc
  obtain ⟨on, heq, hon, hnodup⟩ := stampRoundDecks_eq doc i.decks round
  set left := (roundUids tables).dedup.filter fun uid => uid ∉ seating.flatten with hleft
  set back := left.flatMap fun uid => i.decks.filter (isStampedAt [round] (some uid)) with hback
  have hmem : ∀ d ∈ back, d ∈ i.decks ∧ d.round = some round ∧ d.userUid ∈ left := by
    intro d hd
    obtain ⟨uid, huid, hd⟩ := List.mem_flatMap.1 hd
    obtain ⟨hd, hat⟩ := List.mem_filter.1 hd
    cases hr : d.round with
    | none => simp [isStampedAt, hr] at hat
    | some r =>
      simp only [isStampedAt, hr, Option.any_some, List.contains_cons, List.contains_nil,
        Bool.or_false, beq_iff_eq, reduceCtorEq, Option.some.injEq, Bool.and_eq_true,
        Bool.or_eq_true, false_or] at hat
      exact ⟨hd, by rw [hat.1], hat.2 ▸ huid⟩
  have hops : reseatDeckOps doc i.decks round (roundUids tables) seating.flatten =
      back.map releaseOp ++ on.map (stampOp round) := by
    rw [reseatDeckOps, heq, hback, List.map_flatMap]
    simp only [releaseStampedDecks_eq]
    rfl
  rw [hops]
  refine .moves ⟨fun d hd => ?_, fun hdecks => ?_, fun d hd => (hon d hd).1, hnodup, ?_⟩
  · obtain ⟨hd, hround, huid⟩ := hmem d hd
    rw [hleft, List.mem_filter, List.mem_dedup, decide_eq_true_eq] at huid
    refine ⟨hd, ?_⟩
    simp only [releases, he, hround, htables, Option.getD_some, beq_self_eq_true, Bool.true_and,
      Bool.and_eq_true, Bool.not_eq_true', List.contains_iff_mem]
    exact ⟨huid.1, by simpa using huid.2⟩
  · rw [hback, List.map_flatMap, List.nodup_flatMap]
    refine ⟨fun uid _ => hdecks.sublist (List.Sublist.map _ List.filter_sublist), ?_⟩
    have hleftNodup : left.Nodup := (List.nodup_dedup _).filter _
    refine hleftNodup.imp fun {a b} hab => ?_
    intro k hk hk'
    obtain ⟨d, hd, hdk⟩ := List.mem_map.1 hk
    obtain ⟨d', hd', hdk'⟩ := List.mem_map.1 hk'
    obtain ⟨hd, hat⟩ := List.mem_filter.1 hd
    obtain ⟨hd', hat'⟩ := List.mem_filter.1 hd'
    have hsame : d = d' := List.inj_on_of_nodup_map hdecks hd hd' (hdk.trans hdk'.symm)
    subst hsame
    simp only [isStampedAt, Bool.and_eq_true, Bool.or_eq_true, beq_iff_eq, reduceCtorEq,
      Option.some.injEq, false_or] at hat hat'
    exact hab (hat.2.trans hat'.2.symm)
  · intro d hd d' hd' hsame
    have hrounds : doc.rounds = t.rounds.set round (reseatRound tables seating) :=
      rounds_alterSeatingDoc t sanctions round tables seating
    have hlt : round < t.rounds.length := (List.getElem?_eq_some_iff.1 htables).1
    have hseated := seatedInRound_subset hrounds (List.getElem?_set_self hlt) (hon d' hd').2
    rw [roundUids_reseatRound] at hseated
    have huid := (hmem d hd).2.2
    rw [hleft, List.mem_filter, decide_eq_true_eq] at huid
    exact huid.2 (hsame ▸ hseated)

/-! ### Every handler -/

/-- The events whose handlers never emit a deck operation. -/
def emitsNothing : TournamentEvent → Bool
  | .unregister .. | .removePlayer .. | .startRound .. | .cancelRound .. | .selfOrganizeRound ..
  | .seatPlayer .. | .unseatPlayer .. | .startFinals | .cancelFinals | .alterSeating ..
  | .upsertDeck .. | .deleteDeck .. | .setDeckAttribution .. | .setDeckPrivate ..
  | .viewDeck .. => false
  | _ => true

theorem emits_nil {rs : RandomSource} (h : emitsNothing i.event = true) :
    Emits (applyEvent rs t i) (· = []) := by
  unfold applyEvent
  split <;> rename_i he <;> rw [he] at h <;> first | cases h | skip
  all_goals
    dsimp only
    first
      | unfold openRegistration | unfold closeRegistration | unfold cancelRegistration
      | unfold reopenRegistration | unfold reopenTournament | unfold finishTournament
      | unfold register | unfold addPlayer | unfold dropOut | unfold checkIn | unfold checkOut
      | unfold checkInAll | unfold resetCheckIn | unfold setPaymentStatus | unfold markAllPaid
      | unfold setNonCompeting | unfold setWaitlisted | unfold finishRound | unfold restoreRound
      | unfold swapSeats | unfold addTable | unfold removeTable | unfold setScore
      | unfold override | unfold unoverride | unfold setToss | unfold randomToss
      | unfold finishFinals | unfold raffleDraw | unfold raffleUndo | unfold raffleClear
      | unfold reportPromos | unfold updateConfig | unfold setArchivalResults
    repeat' first
      | exact Emits.pure rfl
      | refine Emits.bind fun _ _ => ?_
      | refine Emits.ite (fun _ => ?_) (fun _ => ?_)
      | split

theorem emitted_deletePlayerDecks (uid : Uid) : Emitted t i (deletePlayerDecks t i.decks uid) := by
  unfold deletePlayerDecks
  split
  · exact .delete uid none _
  · exact .nil

theorem emitted_cancelRound {round : Option ℕ} (he : i.event = .cancelRound round) :
    Emits (cancelRound t i.actor i.sanctions i.decks round) (Emitted t i) := by
  refine .bind fun _ _ => .bind fun _ _ => .bind fun _ _ => .bind fun _ _ => .bind fun _ _ =>
    .pure ?_
  split
  · rename_i hlast
    refine emitted_release fun d _ hat => ?_
    cases hr : d.round with
    | none => simp [isStampedAt, hr] at hat
    | some r =>
      simp only [isStampedAt, hr, Option.any_some, List.contains_iff_mem, List.mem_filter,
        List.mem_range, decide_eq_true_eq, Bool.and_eq_true] at hat
      rw [hlast] at hat
      simp only [releases, he, hr, hlast, beq_self_eq_true, Bool.true_and, Bool.and_eq_true,
        decide_eq_true_eq]
      exact ⟨hat.1.2, hat.1.1⟩
  · exact .nil

theorem emitted_cancelFinals (he : i.event = .cancelFinals) :
    Emits (cancelFinals t i.actor i.sanctions i.decks) (Emitted t i) := by
  refine .bind fun _ _ => .bind fun _ _ => .bind fun _ _ => .pure ?_
  refine emitted_release fun d _ hat => ?_
  cases hr : d.round with
  | none => simp [isStampedAt, hr] at hat
  | some r =>
    simp only [isStampedAt, hr, Option.any_some, List.contains_cons, List.contains_nil,
      Bool.or_false, Bool.and_eq_true] at hat
    simp only [releases, he, hr]
    exact hat.1

theorem emitted_unseatPlayer {uid : Uid} {round : Option ℕ}
    (he : i.event = .unseatPlayer uid round) :
    Emits (unseatPlayer t i.actor i.sanctions i.decks uid round) (Emitted t i) := by
  refine .bind fun _ _ => .bind fun _ _ => .bind fun _ _ => .bind fun target htarget =>
    .bind fun _ _ => .pure ?_
  simp only [resolveLiveRound, ensure_bind_eq_ok, pure_eq_ok] at htarget
  obtain ⟨-, -, rfl⟩ := htarget
  refine emitted_release fun d _ hat => ?_
  cases hr : d.round with
  | none => simp [isStampedAt, hr] at hat
  | some r =>
    simp only [isStampedAt, hr, Option.any_some, List.contains_cons, List.contains_nil,
      Bool.or_false, Bool.and_eq_true, Bool.or_eq_true, beq_iff_eq, reduceCtorEq, false_or,
      Option.some.injEq] at hat
    simp only [releases, he, hr, hat.1, ← hat.2, beq_self_eq_true, Bool.and_self]

theorem emitted_alterSeating {round : ℕ} {seating : List (List Uid)}
    (he : i.event = .alterSeating round seating) :
    Emits (alterSeating t i.actor i.sanctions i.decks round seating) (Emitted t i) := by
  refine .bind fun _ _ => .bind fun _ _ => .bind fun _ _ => .ite (fun _ => ?_) (fun _ => ?_)
  · exact .bind fun _ _ => .bind fun _ _ => .bind fun _ _ => .pure .nil
  · refine .bind fun tables htables => .bind fun _ _ => .bind fun _ _ => .bind fun _ _ =>
      .bind fun _ _ => .bind fun _ _ => .pure ?_
    exact emitted_reseat he (okOr_eq_ok.1 htables)

theorem emitted_upsertDeck {uid : Uid} {deck : DeckUpload} {multideck : Bool}
    (he : i.event = .upsertDeck uid deck multideck) :
    Emits (upsertDeck t i.actor i.decks uid deck multideck) (Emitted t i) := by
  refine .bind fun _ _ => .bind fun _ _ => .bind fun _ _ => .bind fun _ _ => .bind fun _ _ =>
    .pure ?_
  exact .upsert uid deck _ _ _ _ multideck he rfl

theorem mem_of_findDeck {uid : Uid} {round : Option ℕ} {d : DeckObject}
    (h : okOr (findDeck decks uid round) EngineError.deckNotFound = .ok d) : d ∈ decks :=
  List.mem_of_find?_eq_some (okOr_eq_ok.1 h)

theorem emitted_viewDeck {uid : Uid} {round : Option ℕ} (he : i.event = .viewDeck uid round) :
    Emits (viewDeck t i.actor i.decks uid round) (Emitted t i) := by
  refine .bind fun _ _ => .ite (fun _ => .pure .nil) (fun hview => ?_)
  refine .bind fun d hd => .ite (fun _ => .pure .nil) (fun _ => .pure ?_)
  exact .logView d _ _ uid round he (mem_of_findDeck hd) fun hstate => hview (.inr hstate)

theorem emitted_of_applyEvent {rs : RandomSource} {r : Tournament × List DeckOp}
    (h : applyEvent rs t i = .ok r) : Emitted t i r.2 := by
  suffices hall : Emits (applyEvent rs t i) (Emitted t i) from hall r h
  cases hnone : emitsNothing i.event with
  | true =>
    intro r hr
    rw [emits_nil hnone r hr]
    exact .nil
  | false =>
    unfold applyEvent
    cases he : i.event with
    | unregister uid =>
      exact .bind fun _ _ => .bind fun _ _ => .bind fun _ _ => .bind fun _ _ =>
        .pure (emitted_deletePlayerDecks uid)
    | removePlayer uid =>
      exact .bind fun _ _ => .bind fun _ _ => .bind fun _ _ => .bind fun _ _ =>
        .pure (emitted_deletePlayerDecks uid)
    | startRound submitted =>
      exact .bind fun _ _ => .bind fun _ _ => .bind fun _ _ => .bind fun _ _ => .bind fun _ _ =>
        .pure (emitted_stamp _ _)
    | selfOrganizeRound uids =>
      exact .bind fun _ _ => .bind fun _ _ => .bind fun _ _ => .bind fun _ _ => .bind fun _ _ =>
        .bind fun _ _ => .bind fun _ _ => .bind fun _ _ => .pure (emitted_stamp _ _)
    | cancelRound => exact emitted_cancelRound he
    | seatPlayer =>
      exact .bind fun _ _ => .bind fun _ _ => .bind fun _ _ => .bind fun _ _ => .bind fun _ _ =>
        .bind fun _ _ => .bind fun _ _ => .bind fun _ _ => .pure (emitted_stamp _ _)
    | unseatPlayer => exact emitted_unseatPlayer he
    | startFinals =>
      exact .bind fun _ _ => .bind fun _ _ => .bind fun _ _ => .bind fun _ _ => .bind fun _ _ =>
        .bind fun _ _ => .pure (emitted_stamp _ _)
    | cancelFinals => exact emitted_cancelFinals he
    | alterSeating => exact emitted_alterSeating he
    | upsertDeck => exact emitted_upsertDeck he
    | deleteDeck uid index multideck =>
      exact .bind fun _ _ => .bind fun _ _ => .bind fun _ _ => .bind fun _ _ => .bind fun _ _ =>
        .pure (.delete uid index multideck)
    | setDeckAttribution uid round attribution =>
      exact .bind fun _ _ => .bind fun d hd =>
        .pure (.setAttribution d uid attribution (mem_of_findDeck hd))
    | setDeckPrivate uid round isPrivate =>
      exact .bind fun _ _ => .bind fun _ _ => .bind fun d hd =>
        .pure (.setPrivate d isPrivate (mem_of_findDeck hd))
    | viewDeck => exact emitted_viewDeck he
    | _ =>
      rw [he] at hnone
      cases hnone

/-! ### The publications -/

/-- Publications of decks that the operations before them do not answer for. -/
def Publishes (decks : List DeckObject) (base pubs : List DeckOp) : Prop :=
  ∀ op ∈ pubs, ∃ d ∈ decks, ∃ isPublic isWinner, op = .setPublication d.uid isPublic isWinner ∧
    d.uid ≠ "" ∧ touchedDeck base d = false

theorem publishes_recomputeDeckPublication (t : Tournament) (decks : List DeckObject)
    (ops : List DeckOp) : Publishes decks ops (recomputeDeckPublication t decks ops) := by
  intro op hop
  obtain ⟨d, hd, hemit⟩ := List.mem_filterMap.1 hop
  obtain ⟨hmem, hfree⟩ := List.mem_filter.1 hd
  dsimp only at hemit
  split_ifs at hemit with hempty hchange
  cases hemit
  rw [Bool.not_eq_true'] at hfree
  exact ⟨d, hmem, _, _, rfl, fun huid => hempty (.inr huid), hfree⟩

theorem emitted_of_processTournamentEvent {rs : RandomSource} {r : Tournament × List DeckOp}
    (h : processTournamentEvent rs t i = .ok r) :
    ∃ base pubs, r.2 = base ++ pubs ∧ Emitted t i base ∧ Publishes i.decks base pubs ∧
      (∃ t', applyEvent rs t i = .ok (t', base) ∧ r.1 = t' ∧
        (t.state ≠ .finished → t'.state ≠ .finished → pubs = [])) := by
  obtain ⟨⟨doc, base⟩, hevent, hr⟩ := bind_eq_ok.1 h
  cases pure_eq_ok.1 hr
  have hbase : Emitted t i base := emitted_of_applyEvent hevent
  by_cases hfinished : t.state = .finished ∨ doc.state = .finished
  · refine ⟨base, _, rfl, hbase, ?_, doc, hevent, rfl, ?_⟩
    · rw [if_pos hfinished]
      exact publishes_recomputeDeckPublication doc i.decks base
    · exact fun hbefore hafter => absurd hfinished (not_or.2 ⟨hbefore, hafter⟩)
  · refine ⟨base, [], by simp [if_neg hfinished], hbase, ?_, doc, hevent, rfl, fun _ _ => rfl⟩
    exact fun op hop => absurd hop List.not_mem_nil

end Archon.Engine

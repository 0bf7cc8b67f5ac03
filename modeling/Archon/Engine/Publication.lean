import Archon.Engine.DeckEmission

/-!
# What a deck shows

The publication pass of an accepted event (`helpers.rs:318`) leaves every deck it looks at with the
flags of the document after the event, whatever single-deck operations came before it.
-/

namespace Archon.Engine
open Guards Seating

/-- The flags of a deck are those of the document: nothing is public before the end. -/
def FollowsTournament (t : Tournament) (d : DeckObject) : Prop :=
  if t.state = .finished then
    d.isPublic = computeDeckPublic t d.userUid d.isPrivate ∧
      d.isWinner = computeDeckWinner t d.userUid
  else d.isPublic = false

instance (t : Tournament) (d : DeckObject) : Decidable (FollowsTournament t d) := by
  unfold FollowsTournament
  infer_instance

/-- The deck `uid` after an operation. Uploads and deletions are no operations on one deck. -/
def onDeck (uid : Uid) (d : DeckObject) : DeckOp → DeckObject
  | .setRound deckUid round => if deckUid = uid then { d with round } else d
  | .setPublication deckUid isPublic isWinner =>
    if deckUid = uid then { d with isPublic, isWinner } else d
  | .setPrivate deckUid isPrivate => if deckUid = uid then { d with isPrivate } else d
  | _ => d

/-- The deck `uid` after the operations, in order. -/
def onDeckAll (ops : List DeckOp) (uid : Uid) (d : DeckObject) : DeckObject :=
  ops.foldl (onDeck uid) d

/-- Nothing is published. -/
def PublishesNone (ops : List DeckOp) : Prop :=
  ∀ op ∈ ops, ∀ deckUid isPublic isWinner, op ≠ .setPublication deckUid isPublic isWinner

section Publication

variable {rs : RandomSource} {t t' : Tournament} {i : EventInput} {ops base : List DeckOp}
  {decks : List DeckObject} {uid : Uid} {d : DeckObject}

/-! ### Operations on one deck -/

theorem onDeckAll_append (ops ops' : List DeckOp) (uid : Uid) (d : DeckObject) :
    onDeckAll (ops ++ ops') uid d = onDeckAll ops' uid (onDeckAll ops uid d) :=
  List.foldl_append ..

theorem onDeckAll_concat (ops : List DeckOp) (op : DeckOp) (uid : Uid) (d : DeckObject) :
    onDeckAll (ops ++ [op]) uid d = onDeck uid (onDeckAll ops uid d) op :=
  onDeckAll_append ops [op] uid d

theorem onDeckAll_of_forall (h : ∀ op ∈ ops, ∀ d, onDeck uid d op = d) (d : DeckObject) :
    onDeckAll ops uid d = d := by
  induction ops with
  | nil => rfl
  | cons op ops ih =>
    rw [List.forall_mem_cons] at h
    rw [onDeckAll, List.foldl_cons, h.1]
    exact ih h.2

theorem onDeckAll_keeps {α : Type} {f : DeckObject → α}
    (h : ∀ op ∈ ops, ∀ d, f (onDeck uid d op) = f d) (d : DeckObject) :
    f (onDeckAll ops uid d) = f d := by
  induction ops generalizing d with
  | nil => rfl
  | cons op ops ih =>
    rw [List.forall_mem_cons] at h
    rw [onDeckAll, List.foldl_cons, ← h.1 d]
    exact ih h.2 _

theorem onDeckAll_userUid (ops : List DeckOp) (uid : Uid) (d : DeckObject) :
    (onDeckAll ops uid d).userUid = d.userUid := by
  refine onDeckAll_keeps (fun op _ d => ?_) d
  cases op <;> simp only [onDeck] <;> split <;> rfl

theorem onDeckAll_flags (h : PublishesNone ops) (uid : Uid) (d : DeckObject) :
    (onDeckAll ops uid d).isPublic = d.isPublic ∧ (onDeckAll ops uid d).isWinner = d.isWinner := by
  have hflags : (fun d : DeckObject => (d.isPublic, d.isWinner)) (onDeckAll ops uid d) =
      (d.isPublic, d.isWinner) := by
    refine onDeckAll_keeps (f := fun d => (d.isPublic, d.isWinner)) (fun op hop d => ?_) d
    cases op with
    | setPublication => exact absurd rfl (h _ hop _ _ _)
    | setRound | setPrivate =>
      simp only [onDeck]
      split <;> rfl
    | _ => rfl
  exact Prod.mk.inj hflags

theorem privateAfter_eq (ops : List DeckOp) (d : DeckObject) :
    privateAfter ops d = (onDeckAll ops d.uid d).isPrivate := by
  induction ops using List.reverseRecOn with
  | nil => rfl
  | append_singleton ops op ih =>
    rw [onDeckAll_concat]
    unfold privateAfter at ih ⊢
    rw [List.reverse_concat, List.findSome?_cons]
    cases op with
    | setPrivate deckUid isPrivate =>
      by_cases hdeck : deckUid = d.uid
      · simp [hdeck, onDeck]
      · simpa [hdeck, onDeck] using ih
    | setRound | setPublication =>
      refine ih.trans ?_
      simp only [onDeck]
      split <;> rfl
    | _ => exact ih

/-! ### The pass -/

/-- The publication the pass appends for a deck. -/
def publicationOf (t : Tournament) (base : List DeckOp) (d : DeckObject) : Option DeckOp :=
  if d.userUid = "" ∨ d.uid = "" then none
  else
    let isPublic := computeDeckPublic t d.userUid (privateAfter base d)
    let isWinner := computeDeckWinner t d.userUid
    if d.isPublic ≠ isPublic ∨ d.isWinner ≠ isWinner then
      some (.setPublication d.uid isPublic isWinner)
    else none

theorem recomputeDeckPublication_eq : recomputeDeckPublication t decks base =
    (decks.filter fun d => !touchedDeck base d).filterMap (publicationOf t base) := rfl

theorem onDeck_publicationOf {op : DeckOp} {e : DeckObject} (hop : publicationOf t base e = some op)
    (hne : e.uid ≠ uid) (d : DeckObject) : onDeck uid d op = d := by
  unfold publicationOf at hop
  dsimp only at hop
  split_ifs at hop
  cases hop
  exact if_neg hne

theorem onDeckAll_recompute (hnodup : (decks.map DeckObject.uid).Nodup) (hd : d ∈ decks)
    (hfree : touchedDeck base d = false) (huser : d.userUid ≠ "") (huid : d.uid ≠ "")
    {e : DeckObject} (hpublic : e.isPublic = d.isPublic) (hwinner : e.isWinner = d.isWinner) :
    let settled := onDeckAll (recomputeDeckPublication t decks base) d.uid e
    settled.isPublic = computeDeckPublic t d.userUid (privateAfter base d) ∧
      settled.isWinner = computeDeckWinner t d.userUid ∧ settled.isPrivate = e.isPrivate := by
  intro settled
  obtain ⟨before, after, rfl⟩ := List.append_of_mem hd
  rw [List.map_append, List.map_cons, List.nodup_append, List.nodup_cons] at hnodup
  obtain ⟨-, ⟨hafter, -⟩, hbefore⟩ := hnodup
  -- The publications of the other decks.
  have hothers : ∀ others : List DeckObject, (∀ x ∈ others, x.uid ≠ d.uid) → ∀ f,
      onDeckAll (recomputeDeckPublication t others base) d.uid f = f := by
    intro others hne
    refine onDeckAll_of_forall fun op hop f => ?_
    rw [recomputeDeckPublication_eq] at hop
    obtain ⟨x, hx, hpub⟩ := List.mem_filterMap.1 hop
    exact onDeck_publicationOf hpub (hne x (List.mem_filter.1 hx).1) f
  have hsplit : recomputeDeckPublication t (before ++ d :: after) base =
      recomputeDeckPublication t before base ++
        ((publicationOf t base d).toList ++ recomputeDeckPublication t after base) := by
    simp only [recomputeDeckPublication_eq, List.filter_append, List.filterMap_append,
      List.filter_cons, hfree, Bool.not_false, if_true, List.filterMap_cons]
    cases publicationOf t base d <;> rfl
  have hsettled : settled = onDeckAll (publicationOf t base d).toList d.uid e := by
    dsimp only [settled]
    rw [hsplit, onDeckAll_append, onDeckAll_append, hothers before, hothers after]
    · exact fun x hx heq => hafter (heq ▸ List.mem_map_of_mem hx)
    · exact fun x hx heq => hbefore _ (List.mem_map_of_mem hx) _ (List.mem_cons_self ..) heq
  rw [hsettled]
  unfold publicationOf
  rw [if_neg (not_or.2 ⟨huser, huid⟩)]
  dsimp only
  split
  · simp [onDeckAll, onDeck]
  · rename_i hsame
    rw [not_or, not_not, not_not] at hsame
    exact ⟨hpublic.trans hsame.1, hwinner.trans hsame.2, rfl⟩

/-! ### An accepted event -/

theorem publishesNone_of_emitted (h : Emitted t i base) : PublishesNone base := by
  intro op hop
  cases h with
  | moves hmoves =>
    obtain ⟨d, -, next, rfl⟩ := hmoves.op hop
    exact fun _ _ _ => DeckOp.noConfusion
  | upsert | delete | setAttribution | setPrivate | logView =>
    rw [List.mem_singleton.1 hop]
    exact fun _ _ _ => DeckOp.noConfusion

theorem ops_of_processTournamentEvent {r : Tournament × List DeckOp}
    (h : processTournamentEvent rs t i = .ok r) : ∃ base, applyEvent rs t i = .ok (r.1, base) ∧
      r.2 = base ++ if t.state = .finished ∨ r.1.state = .finished then
        recomputeDeckPublication r.1 i.decks base else [] := by
  obtain ⟨⟨doc, base⟩, hevent, hr⟩ := bind_eq_ok.1 h
  cases pure_eq_ok.1 hr
  exact ⟨base, hevent, rfl⟩

theorem follows_onDeckAll (hbase : applyEvent rs t i = .ok (t', base))
    (hnodup : (i.decks.map DeckObject.uid).Nodup) (hd : d ∈ i.decks)
    (hfree : touchedDeck base d = false) (huser : d.userUid ≠ "") (huid : d.uid ≠ "")
    (hfollows : FollowsTournament t d) :
    FollowsTournament t' (onDeckAll (base ++ if t.state = .finished ∨ t'.state = .finished then
      recomputeDeckPublication t' i.decks base else []) d.uid d) := by
  obtain ⟨hpublic, hwinner⟩ :=
    onDeckAll_flags (publishesNone_of_emitted (emitted_of_applyEvent hbase)) d.uid d
  rw [onDeckAll_append]
  by_cases hended : t.state = .finished ∨ t'.state = .finished
  · obtain ⟨hpub, hwin, hpriv⟩ :=
      onDeckAll_recompute (t := t') hnodup hd hfree huser huid hpublic hwinner
    rw [if_pos hended]
    unfold FollowsTournament
    rw [hpub, hwin, onDeckAll_userUid, onDeckAll_userUid, hpriv, ← privateAfter_eq]
    split
    · exact ⟨rfl, rfl⟩
    · rename_i hrunning
      exact if_pos hrunning
  · rw [not_or] at hended
    rw [if_neg (not_or.2 hended)]
    unfold FollowsTournament at hfollows ⊢
    rw [if_neg hended.1] at hfollows
    rw [if_neg hended.2]
    exact hpublic.trans hfollows

theorem any_finalist_of_sameEntry {ps qs : List Player} (h : List.Forall₂ SameEntry ps qs) :
    (qs.any fun p => p.isUid uid && p.finalist) = ps.any fun p => p.isUid uid && p.finalist := by
  induction h with
  | nil => rfl
  | cons hp _ ih => rw [List.any_cons, List.any_cons, ih, Player.isUid, hp.userUid, hp.finalist,
      Player.isUid]

theorem follows_of_flags (hpublic : d.isPublic = computeDeckPublic t d.userUid d.isPrivate)
    (hwinner : d.isWinner = computeDeckWinner t d.userUid) : FollowsTournament t d := by
  unfold FollowsTournament
  split
  · exact ⟨hpublic, hwinner⟩
  · rename_i hrunning
    exact hpublic.trans (if_pos hrunning)

theorem follows_congr (hstate : t'.state = t.state) (hwinner : t'.winner = t.winner)
    (hmode : t'.config .decklistsMode = t.config .decklistsMode) (hrounds : t'.rounds = t.rounds)
    (hplayers : List.Forall₂ SameEntry t.players t'.players) :
    FollowsTournament t' d ↔ FollowsTournament t d := by
  unfold FollowsTournament computeDeckPublic computeDeckWinner countPlayerRoundsPlayed
  rw [hstate, hwinner, hmode, hrounds, any_finalist_of_sameEntry hplayers]

theorem upsertDeck_ok {deck : DeckUpload} {multideck : Bool}
    (he : i.event = .upsertDeck uid deck multideck) (h : applyEvent rs t i = .ok (t', base)) :
    (∃ upload isPrivate, base = [.upsert uid upload (computeDeckPublic t uid isPrivate)
      (computeDeckWinner t uid) isPrivate multideck]) ∧
      ∀ d, FollowsTournament t' d ↔ FollowsTournament t d := by
  simp only [applyEvent, he, upsertDeck, requireOwnerOfPrivate, ensure_bind_eq_ok, pure_eq_ok,
    Prod.mk.injEq] at h
  obtain ⟨-, -, -, -, -, rfl, rfl⟩ := h
  refine ⟨⟨_, _, rfl⟩, fun d => ?_⟩
  have hsame := @sameEntry_updatePlayer t.players
    (f := fun p => { p with missingDecklist := false })
      (fun _ => ⟨rfl, rfl, rfl, rfl, rfl, rfl, rfl⟩)
    uid
  exact follows_congr rfl rfl rfl rfl hsame

end Publication

end Archon.Engine

import Archon.Library.Evicting
import Archon.Backend.Frames

/-!
# The live decks of a tournament

What `process_deck_ops` leaves, deck by deck: an operation on one deck is a write under its uid, an
upload writes the deck of its slot or a new one, a deletion takes the decks it matches.
-/

namespace Archon.Backend
open Engine Evicting

/-- A live deck as players and rankings see it. -/
structure LiveDeck where
  userUid : Uid
  round : Option ℕ
  content : DeckContent
  isPublic : Bool
  isWinner : Bool
  deriving DecidableEq, Repr

def StoredDeck.face (d : StoredDeck) : LiveDeck :=
  ⟨d.userUid, d.round, d.content, d.isPublic, d.isWinner⟩

def StoredDeck.isLiveIn (tournamentUid : Uid) (d : StoredDeck) : Bool :=
  d.tournamentUid == tournamentUid && d.deletedAt == none

def StoredDeck.liveFace (tournamentUid : Uid) (d : StoredDeck) : Option LiveDeck :=
  if d.isLiveIn tournamentUid = true then some d.face else none

/-- The live decks of the tournament in the table, each under its uid. -/
def liveDecks (objects : Objects) (tournamentUid uid : Uid) : Option LiveDeck :=
  ((objects.find? uid).bind StoredObject.asDeck).bind (StoredDeck.liveFace tournamentUid)

/-- The decks read before the operations, as they leave them. -/
def held (existing : List StoredDeck) (uid : Uid) : Option LiveDeck :=
  (existing.find? fun d => d.uid == uid).map StoredDeck.face

/-- A list of decks under their uids. -/
def faces (decks : List StoredDeck) : List (Uid × LiveDeck) := decks.map fun d => (d.uid, d.face)

/-! ### Operations on one deck -/

/-- What an upload writes. -/
def uploadedFace (playerUid : Uid) (upload : DeckUpload) (isPublic isWinner : Bool) : LiveDeck :=
  ⟨playerUid, upload.round, upload.content, isPublic, isWinner⟩

/-- The decks an upload looks for. -/
def inSlot (playerUid : Uid) (round : Option ℕ) (d : StoredDeck) : Bool :=
  d.userUid == playerUid && d.round == round

/-- The decks a deletion takes. -/
def takenBy (playerUid : Uid) (deckIndex : Option ℕ) (multideck : Bool) (d : StoredDeck) : Bool :=
  d.userUid == playerUid && (!multideck || d.round == deckIndex)

/-- The deck an operation rewrites and how. Uploads, deletions and views are not among these. -/
def edit : DeckOp → Option (Uid × (LiveDeck → LiveDeck))
  | .setRound deckUid round => some (deckUid, fun d => { d with round })
  | .setPublication deckUid isPublic isWinner =>
    some (deckUid, fun d => { d with isPublic, isWinner })
  | .setAttribution deckUid _ _ => some (deckUid, id)
  | .setPrivate deckUid _ => some (deckUid, id)
  | _ => none

/-- The writes of the operations, over the decks read before them. -/
def editWrites (held : Uid → Option LiveDeck) : List DeckOp → List (Uid × LiveDeck)
  | [] => []
  | op :: ops =>
    match edit op with
    | none => editWrites held ops
    | some (uid, change) =>
      match held uid with
      | none => editWrites held ops
      | some d => (uid, change d) :: editWrites (put held (uid, change d)) ops

/-- The operations on the deck `uid`, in order. -/
def editAll (ops : List DeckOp) (uid : Uid) (d : LiveDeck) : LiveDeck :=
  ops.foldl (fun d op =>
    match edit op with
    | some (deckUid, change) => if deckUid = uid then change d else d
    | none => d) d

/-- The slot the operations leave the deck `uid` in. -/
def roundAfter (ops : List DeckOp) (uid : Uid) (round : Option ℕ) : Option ℕ :=
  ops.foldl (fun round op =>
    match op with
    | .setRound deckUid next => if deckUid = uid then next else round
    | _ => round) round

section Decks

variable {env : Env} {objects : Objects} {tournamentUid uid : Uid} {d : StoredDeck}
  {existing : List StoredDeck} {op : DeckOp} {ops : List DeckOp} {pass : DeckPass}
  {change : LiveDeck → LiveDeck} {h₁ h₂ : Uid → Option LiveDeck}

theorem liveFace_eq_some {f : LiveDeck} :
    d.liveFace tournamentUid = some f ↔ d.isLiveIn tournamentUid = true ∧ d.face = f := by
  unfold StoredDeck.liveFace
  split <;> simp_all

theorem liveDecks_eq_some {f : LiveDeck} :
    liveDecks objects tournamentUid uid = some f ↔
      ∃ d, objects.find? uid = some (.deck d) ∧ d.isLiveIn tournamentUid = true ∧ d.face = f := by
  unfold liveDecks
  simp only [Option.bind_eq_some_iff, liveFace_eq_some]
  constructor
  · rintro ⟨d, ⟨o, ho, hd⟩, hlive⟩
    cases o with
    | deck e =>
      obtain rfl : e = d := by simpa [StoredObject.asDeck] using hd
      exact ⟨e, ho, hlive⟩
    | _ => simp [StoredObject.asDeck] at hd
  · rintro ⟨d, hd, hlive⟩
    exact ⟨d, ⟨_, hd, rfl⟩, hlive⟩

theorem mem_getDecksForTournament (h : WellKeyed objects) :
    d ∈ getDecksForTournament objects tournamentUid ↔
      objects.find? d.uid = some (.deck d) ∧ d.isLiveIn tournamentUid = true := by
  rw [getDecksForTournament, List.mem_filter, mem_decks h]
  rfl

theorem nodup_uid_decks (h : WellKeyed objects) : (objects.decks.map (·.uid)).Nodup := by
  have hkeys : (objects.rows.map Prod.fst).Nodup := by
    rw [Objects.rows, List.map_map]
    exact objects.nodupKeys
  have hsub : (objects.decks.map (·.uid)).Sublist (objects.rows.map Prod.fst) := by
    have hall : ∀ r ∈ objects.rows, ∀ d, r.2.object.asDeck = some d → d.uid = r.1 := by
      rintro ⟨k, o, deletedAt⟩ hr d hd
      cases o with
      | deck e =>
        obtain rfl : e = d := by simpa [StoredObject.asDeck] using hd
        exact h k _ (mem_rows.1 hr)
      | _ => simp [StoredObject.asDeck] at hd
    rw [Objects.decks]
    generalize objects.rows = rows at hall
    induction rows with
    | nil => exact .slnil
    | cons r rows ih =>
      rw [List.forall_mem_cons] at hall
      have hrest := ih hall.2
      cases hd : r.2.object.asDeck with
      | none =>
        simp only [List.filterMap_cons, hd]
        exact hrest.cons _
      | some d =>
        simp only [List.filterMap_cons, hd, List.map_cons, hall.1 d hd]
        exact hrest.cons_cons _
  exact hkeys.sublist hsub

theorem nodup_uid_getDecks (h : WellKeyed objects) :
    ((getDecksForTournament objects tournamentUid).map (·.uid)).Nodup :=
  (nodup_uid_decks h).sublist (List.Sublist.map _ List.filter_sublist)

theorem lists_liveDecks (h : WellKeyed objects) :
    Lists (faces (getDecksForTournament objects tournamentUid))
      (liveDecks objects tournamentUid) where
  nodup := by
    rw [faces, List.map_map]
    exact nodup_uid_getDecks h
  mem uid f := by
    rw [faces, List.mem_map, liveDecks_eq_some]
    constructor
    · rintro ⟨d, hd, heq⟩
      obtain ⟨rfl, rfl⟩ := Prod.mk.inj heq
      obtain ⟨hrow, hlive⟩ := (mem_getDecksForTournament h).1 hd
      exact ⟨d, hrow, hlive, rfl⟩
    · rintro ⟨d, hrow, hlive, rfl⟩
      have huid : d.uid = uid := h.uid_eq hrow
      subst huid
      exact ⟨d, (mem_getDecksForTournament h).2 ⟨hrow, hlive⟩, rfl⟩

theorem find?_uid_eq_some (hnodup : (existing.map (·.uid)).Nodup) :
    existing.find? (fun d => d.uid == uid) = some d ↔ d ∈ existing ∧ d.uid = uid := by
  constructor
  · intro h
    exact ⟨List.mem_of_find?_eq_some h, by simpa using List.find?_some h⟩
  · rintro ⟨hmem, rfl⟩
    have hsome : (existing.find? fun e => e.uid == d.uid).isSome = true :=
      List.find?_isSome.2 ⟨d, hmem, beq_self_eq_true _⟩
    obtain ⟨e, he⟩ := Option.isSome_iff_exists.1 hsome
    have huid : e.uid = d.uid := by simpa using List.find?_some he
    rw [he, List.inj_on_of_nodup_map hnodup (List.mem_of_find?_eq_some he) hmem huid]

theorem held_eq_some (hnodup : (existing.map (·.uid)).Nodup) {f : LiveDeck} :
    held existing uid = some f ↔ ∃ d ∈ existing, d.uid = uid ∧ d.face = f := by
  rw [held, Option.map_eq_some_iff]
  constructor
  · rintro ⟨d, hd, rfl⟩
    obtain ⟨hmem, huid⟩ := (find?_uid_eq_some hnodup).1 hd
    exact ⟨d, hmem, huid, rfl⟩
  · rintro ⟨d, hmem, huid, rfl⟩
    exact ⟨d, (find?_uid_eq_some hnodup).2 ⟨hmem, huid⟩, rfl⟩

theorem held_getDecks (h : WellKeyed objects) :
    held (getDecksForTournament objects tournamentUid) = liveDecks objects tournamentUid := by
  funext uid
  refine Option.ext fun f => ?_
  rw [held_eq_some (nodup_uid_getDecks h), ← (lists_liveDecks h).mem, faces, List.mem_map]
  simp only [Prod.mk.injEq]

theorem find?_replaced (existing : List StoredDeck) (d : StoredDeck) (uid : Uid) :
    (existing.map fun e => if e.uid = d.uid then d else e).find? (fun e => e.uid == uid) =
      if uid = d.uid then (existing.find? fun e => e.uid == uid).map fun _ => d
      else existing.find? fun e => e.uid == uid := by
  induction existing with
  | nil => split <;> rfl
  | cons e es ih =>
    rw [List.map_cons, List.find?_cons, ih, List.find?_cons]
    by_cases he : e.uid = d.uid
    · by_cases huid : uid = d.uid
      · simp [he, huid]
      · have hne : (d.uid == uid) = false := beq_eq_false_iff_ne.2 (Ne.symm huid)
        simp only [he, huid, hne, if_true, if_false]
    · by_cases huid : uid = d.uid
      · subst huid
        have hne : (e.uid == d.uid) = false := beq_eq_false_iff_ne.2 he
        simp only [he, hne, if_true, if_false]
      · simp only [he, huid, if_false]

/-! ### The writes of single-deck operations -/

variable {s : Uid → Option LiveDeck} {f : LiveDeck}

theorem editWrites_skip (hedit : edit op = none) : editWrites s (op :: ops) = editWrites s ops := by
  simp only [editWrites, hedit]

theorem editWrites_absent (hedit : edit op = some (uid, change)) (huid : s uid = none) :
    editWrites s (op :: ops) = editWrites s ops := by
  simp only [editWrites, hedit, huid]

theorem editWrites_present (hedit : edit op = some (uid, change)) (huid : s uid = some f) :
    editWrites s (op :: ops) =
      (uid, change f) :: editWrites (put s (uid, change f)) ops := by
  simp only [editWrites, hedit, huid]

/-! ### One operation -/

theorem liveDecks_saveDeck (hlive : d.isLiveIn tournamentUid = true) :
    liveDecks (saveDeck objects d) tournamentUid =
      put (liveDecks objects tournamentUid) (d.uid, d.face) := by
  funext k
  by_cases hk : k = d.uid
  · subst hk
    rw [put_same (w := (d.uid, d.face)), liveDecks_eq_some]
    exact ⟨d, by simp [saveDeck, saveObject, Objects.find?], hlive, rfl⟩
  · rw [put_ne (w := (d.uid, d.face)) hk]
    have hrow : (saveDeck objects d).find? k = objects.find? k :=
      find?_congr (AList.lookup_insert_ne hk)
    rw [liveDecks, liveDecks, hrow]

theorem liveDecks_saveDeck_dead (hdead : d.isLiveIn tournamentUid = false) :
    liveDecks (saveDeck objects d) tournamentUid =
      Function.update (liveDecks objects tournamentUid) d.uid none := by
  funext k
  by_cases hk : k = d.uid
  · subst hk
    rw [Function.update_self]
    have hrow : (saveDeck objects d).find? d.uid = some (.deck d) := by
      simp [saveDeck, saveObject, Objects.find?]
    simp [liveDecks, hrow, StoredObject.asDeck, StoredDeck.liveFace, hdead]
  · rw [Function.update_of_ne hk]
    have hrow : (saveDeck objects d).find? k = objects.find? k :=
      find?_congr (AList.lookup_insert_ne hk)
    rw [liveDecks, liveDecks, hrow]

/-- The rewriting an operation on one deck asks for: on the face it is `change`. -/
structure Rewrites (change : LiveDeck → LiveDeck) (f : StoredDeck → StoredDeck) : Prop where
  uid : ∀ d, (f d).uid = d.uid
  face : ∀ d, (f d).face = change d.face
  live : ∀ d t, (f d).isLiveIn t = d.isLiveIn t

theorem processDeckOp_edit (env : Env) (tournamentUid : Uid) (pass : DeckPass)
    (hedit : edit op = some (uid, change)) :
    ∃ f, Rewrites change f ∧
      processDeckOp env tournamentUid pass op = pass.change (fun d => d.uid == uid) f := by
  cases op with
  | upsert | delete | logView => cases hedit
  | setRound | setPublication | setAttribution | setPrivate =>
    cases hedit
    exact ⟨_, by constructor <;> intros <;> rfl, rfl⟩

theorem held_replaced {e : StoredDeck} (he : existing.find? (fun e => e.uid == d.uid) = some e) :
    held (existing.map fun e => if e.uid = d.uid then d else e) =
      put (held existing) (d.uid, d.face) := by
  funext k
  rw [held, find?_replaced]
  by_cases hk : k = d.uid
  · subst hk
    rw [if_pos rfl, he, put_same (w := (d.uid, d.face))]
    rfl
  · rw [if_neg hk, put_ne (w := (d.uid, d.face)) hk]
    rfl

/-- The decks the operations rewrite are live in the list read before them. -/
def AllLive (tournamentUid : Uid) (existing : List StoredDeck) (ops : List DeckOp) : Prop :=
  ∀ op ∈ ops, ∀ u c, edit op = some (u, c) → ∀ d, existing.find? (fun e => e.uid == u) = some d →
    d.isLiveIn tournamentUid = true

theorem AllLive.tail (h : AllLive tournamentUid existing (op :: ops)) :
    AllLive tournamentUid existing ops := fun o ho => h o (List.mem_cons_of_mem _ ho)

theorem AllLive.replaced (h : AllLive tournamentUid existing ops)
    (hd : d.isLiveIn tournamentUid = true) :
    AllLive tournamentUid (existing.map fun e => if e.uid = d.uid then d else e) ops := by
  intro o ho u c hedit e he
  rw [find?_replaced] at he
  split at he
  · obtain ⟨-, -, rfl⟩ := Option.map_eq_some_iff.1 he
    exact hd
  · exact h o ho u c hedit e he

theorem liveDecks_edits (hedits : ∀ op ∈ ops, (edit op).isSome = true)
    (hlive : AllLive tournamentUid pass.existing ops) :
    liveDecks (ops.foldl (processDeckOp env tournamentUid) pass).objects tournamentUid =
      putAll (liveDecks pass.objects tournamentUid) (editWrites (held pass.existing) ops) := by
  induction ops generalizing pass with
  | nil => rfl
  | cons op ops ih =>
    rw [List.forall_mem_cons] at hedits
    obtain ⟨⟨u, change⟩, hedit⟩ := Option.isSome_iff_exists.1 hedits.1
    obtain ⟨f, hf, hstep⟩ := processDeckOp_edit env tournamentUid pass hedit
    rw [List.foldl_cons, hstep, DeckPass.change]
    cases hfind : pass.existing.find? fun d => d.uid == u with
    | none =>
      have hheld : held pass.existing u = none := by rw [held, hfind, Option.map_none]
      rw [editWrites_absent hedit hheld]
      exact ih hedits.2 hlive.tail
    | some d =>
      have hdlive : d.isLiveIn tournamentUid = true :=
        hlive op (List.mem_cons_self ..) u change hedit d hfind
      have huid : d.uid = u := by simpa using List.find?_some hfind
      have hheld : held pass.existing u = some d.face := by rw [held, hfind, Option.map_some]
      have hfuid : (f d).uid = u := (hf.uid d).trans huid
      have hsaved : liveDecks (pass.save (f d)).objects tournamentUid =
          put (liveDecks pass.objects tournamentUid) (u, change d.face) := by
        rw [← hfuid, ← hf.face]
        exact liveDecks_saveDeck ((hf.live d tournamentUid).trans hdlive)
      have hheld' : held (pass.save (f d)).existing = put (held pass.existing)
          (u, change d.face) := by
        rw [← hfuid, ← hf.face]
        exact held_replaced (hfuid.symm ▸ hfind)
      rw [editWrites_present hedit hheld]
      refine (ih hedits.2 (hlive.tail.replaced ((hf.live d tournamentUid).trans hdlive))).trans ?_
      rw [hsaved, hheld']
      rfl

theorem editWrites_congr (h : ∀ op ∈ ops, ∀ u c, edit op = some (u, c) → h₁ u = h₂ u) :
    editWrites h₁ ops = editWrites h₂ ops := by
  induction ops generalizing h₁ h₂ with
  | nil => rfl
  | cons op ops ih =>
    rw [List.forall_mem_cons] at h
    cases hedit : edit op with
    | none =>
      rw [editWrites_skip hedit, editWrites_skip hedit]
      exact ih h.2
    | some e =>
      obtain ⟨u, c⟩ := e
      have hu : h₁ u = h₂ u := h.1 u c hedit
      cases hd : h₂ u with
      | none =>
        rw [editWrites_absent hedit (hu.trans hd), editWrites_absent hedit hd]
        exact ih h.2
      | some d =>
        rw [editWrites_present hedit (hu.trans hd), editWrites_present hedit hd]
        refine congrArg _ (ih fun o ho u' c' hedit' => ?_)
        by_cases hk : u' = u
        · subst hk
          rw [put_same (w := (u', c d)), put_same (w := (u', c d))]
        · rw [put_ne (w := (u, c d)) hk, put_ne (w := (u, c d)) hk]
          exact h.2 o ho u' c' hedit'

theorem editAll_cons (op : DeckOp) (ops : List DeckOp) (uid : Uid) (f : LiveDeck) :
    editAll (op :: ops) uid f = editAll ops uid (editAll [op] uid f) := rfl

theorem roundAfter_cons (op : DeckOp) (ops : List DeckOp) (uid : Uid) (r : Option ℕ) :
    roundAfter (op :: ops) uid r = roundAfter ops uid (roundAfter [op] uid r) := rfl

theorem putAll_editWrites (s : Uid → Option LiveDeck) (ops : List DeckOp) (uid : Uid) :
    putAll s (editWrites s ops) uid = (s uid).map (editAll ops uid) := by
  induction ops generalizing s with
  | nil => exact Option.map_id'.symm
  | cons op ops ih =>
    cases hedit : edit op with
    | none =>
      rw [editWrites_skip hedit, ih]
      refine congrArg (Option.map · (s uid)) (funext fun f => ?_)
      rw [editAll_cons]
      refine congrArg _ ?_
      simp [editAll, hedit]
    | some e =>
      obtain ⟨u, c⟩ := e
      have hstep : ∀ f, editAll [op] uid f = if u = uid then c f else f := fun f => by
        simp [editAll, hedit]
      cases hu : s u with
      | none =>
        rw [editWrites_absent hedit hu, ih]
        by_cases hk : u = uid
        · rw [← hk, hu]
          rfl
        · refine congrArg (Option.map · (s uid)) (funext fun f => ?_)
          rw [editAll_cons, hstep, if_neg hk]
      | some d =>
        rw [editWrites_present hedit hu]
        refine (ih (put s (u, c d))).trans ?_
        by_cases hk : u = uid
        · subst hk
          rw [put_same (w := (u, c d)), hu, Option.map_some, Option.map_some, editAll_cons, hstep,
            if_pos rfl]
        · rw [put_ne (w := (u, c d)) (Ne.symm hk)]
          refine congrArg (Option.map · (s uid)) (funext fun f => ?_)
          rw [editAll_cons, hstep, if_neg hk]

theorem editAll_userUid (ops : List DeckOp) (uid : Uid) (f : LiveDeck) :
    (editAll ops uid f).userUid = f.userUid := by
  induction ops generalizing f with
  | nil => rfl
  | cons op ops ih =>
    rw [editAll_cons, ih]
    cases op <;> simp only [editAll, edit, List.foldl_cons, List.foldl_nil] <;> split <;> rfl

theorem editAll_round (ops : List DeckOp) (uid : Uid) (f : LiveDeck) :
    (editAll ops uid f).round = roundAfter ops uid f.round := by
  induction ops generalizing f with
  | nil => rfl
  | cons op ops ih =>
    rw [editAll_cons, roundAfter_cons, ih]
    refine congrArg _ ?_
    cases op <;> simp only [editAll, roundAfter, edit, List.foldl_cons, List.foldl_nil] <;>
      split <;> rfl

theorem mem_editWrites (s : Uid → Option LiveDeck) (ops : List DeckOp) (uid : Uid) :
    (∃ w ∈ editWrites s ops, w.1 = uid) ↔
      s uid ≠ none ∧ ∃ op ∈ ops, ∃ c, edit op = some (uid, c) := by
  induction ops generalizing s with
  | nil => simp [editWrites]
  | cons op ops ih =>
    cases hedit : edit op with
    | none =>
      rw [editWrites_skip hedit, ih]
      simp [hedit]
    | some e =>
      obtain ⟨u, c⟩ := e
      have hhere : (∃ c', some (u, c) = some (uid, c')) ↔ u = uid := by simp
      rw [List.exists_mem_cons_iff, hedit, hhere]
      cases hu : s u with
      | none =>
        rw [editWrites_absent hedit hu, ih]
        refine and_congr_right fun hsome => (or_iff_right ?_).symm
        rintro rfl
        exact hsome hu
      | some d =>
        rw [editWrites_present hedit hu, List.exists_mem_cons_iff, ih]
        by_cases hk : u = uid
        · subst hk
          simp [hu]
        · have hne : uid ≠ u := Ne.symm hk
          simp only [hk, false_or, put_ne (w := (u, c d)) hne]

theorem editWrites_moves {ι : Type} (s : Uid → Option LiveDeck) (toOp : ι → DeckOp)
    (uidOf : ι → Uid)
    (change : LiveDeck → LiveDeck) (hedit : ∀ x, edit (toOp x) = some (uidOf x, change))
    (xs : List ι) (f : ι → LiveDeck) (hread : ∀ x ∈ xs, s (uidOf x) = some (f x))
    (hnodup : (xs.map uidOf).Nodup) (ops : List DeckOp) :
    editWrites s (xs.map toOp ++ ops) =
      xs.map (fun x => (uidOf x, change (f x))) ++
        editWrites (putAll s (xs.map fun x => (uidOf x, change (f x)))) ops := by
  induction xs generalizing s with
  | nil => rfl
  | cons x xs ih =>
    rw [List.forall_mem_cons] at hread
    rw [List.map_cons, List.nodup_cons] at hnodup
    have hread' : ∀ y ∈ xs, put s (uidOf x, change (f x)) (uidOf y) = some (f y) := by
      intro y hy
      have hne : uidOf y ≠ uidOf x := fun heq => hnodup.1 (heq ▸ List.mem_map_of_mem hy)
      rw [put_ne (w := (uidOf x, change (f x))) hne]
      exact hread.2 y hy
    rw [List.map_cons, List.cons_append, editWrites_present (hedit x) hread.1,
      ih _ hread' hnodup.2]
    rfl

/-! ### Uploads, deletions and views -/

variable {playerUid userUid : Uid} {upload : DeckUpload} {isPublic isWinner isPrivate : Bool}
  {multideck : Bool} {deckIndex : Option ℕ} {round : ℕ} {ds : List StoredDeck}

theorem liveDecks_upsert_stored (env : Env) (pass : DeckPass) (isPrivate multideck : Bool)
    (hlive : d.isLiveIn tournamentUid = true)
    (hfind : pass.existing.find? (inSlot playerUid upload.round) = some d) :
    let pass' := processDeckOp env tournamentUid pass
      (.upsert playerUid upload isPublic isWinner isPrivate multideck)
    liveDecks pass'.objects tournamentUid = put (liveDecks pass.objects tournamentUid)
        (d.uid, uploadedFace playerUid upload isPublic isWinner) ∧
      ∀ u ≠ d.uid, pass'.existing.find? (fun e => e.uid == u) =
        pass.existing.find? fun e => e.uid == u := by
  have hslot := List.find?_some hfind
  rw [inSlot, Bool.and_eq_true, beq_iff_eq, beq_iff_eq] at hslot
  have hfind' : (pass.existing.find? fun e => e.userUid == playerUid && e.round == upload.round) =
      some d := hfind
  simp only [processDeckOp, hfind']
  refine ⟨?_, fun u hu => ?_⟩
  · rw [uploadedFace, ← hslot.1]
    exact liveDecks_saveDeck hlive
  · refine (find?_replaced ..).trans ?_
    rw [if_neg hu]

theorem liveDecks_upsert_new (env : Env) (tournamentUid : Uid) (pass : DeckPass)
    (isPrivate multideck : Bool)
    (hfind : pass.existing.find? (inSlot playerUid upload.round) = none) :
    let pass' := processDeckOp env tournamentUid pass
      (.upsert playerUid upload isPublic isWinner isPrivate multideck)
    liveDecks pass'.objects tournamentUid = put (liveDecks pass.objects tournamentUid)
        (env.freshUid pass.created, uploadedFace playerUid upload isPublic isWinner) ∧
      pass'.existing = pass.existing := by
  have hfind' : (pass.existing.find? fun e => e.userUid == playerUid && e.round == upload.round) =
      none := hfind
  simp only [processDeckOp, hfind', and_true]
  refine (liveDecks_saveDeck ?_).trans ?_
  · simp [StoredDeck.isLiveIn, newDeck]
  · rfl

theorem liveDecks_tombstones (ds : List StoredDeck) (pass : DeckPass) :
    let pass' := ds.foldl
      (fun pass d => pass.save { d with deletedAt := some env.now, modified := env.now }) pass
    liveDecks pass'.objects tournamentUid =
        without (liveDecks pass.objects tournamentUid) (ds.map (·.uid)) ∧
      ∀ u ∉ ds.map (·.uid), pass'.existing.find? (fun e => e.uid == u) =
        pass.existing.find? fun e => e.uid == u := by
  induction ds generalizing pass with
  | nil => exact ⟨(without_nil _).symm, fun _ _ => rfl⟩
  | cons d ds ih =>
    have hdead : StoredDeck.isLiveIn tournamentUid
        { d with deletedAt := some env.now, modified := env.now } = false := by
      simp [StoredDeck.isLiveIn]
    obtain ⟨hlive, hexisting⟩ :=
      ih (pass.save { d with deletedAt := some env.now, modified := env.now })
    refine ⟨hlive.trans ?_, fun u hu => ?_⟩
    · rw [List.map_cons, ← without_cons]
      exact congrArg (without · _) (liveDecks_saveDeck_dead hdead)
    · rw [List.map_cons, List.mem_cons, not_or] at hu
      refine (hexisting u hu.2).trans ((find?_replaced ..).trans ?_)
      rw [if_neg hu.1]

theorem liveDecks_delete (env : Env) (tournamentUid : Uid) (pass : DeckPass) (playerUid : Uid)
    (deckIndex : Option ℕ) (multideck : Bool) :
    let pass' := processDeckOp env tournamentUid pass (.delete playerUid deckIndex multideck)
    let gone := (pass.existing.filter (takenBy playerUid deckIndex multideck)).map (·.uid)
    liveDecks pass'.objects tournamentUid = without (liveDecks pass.objects tournamentUid) gone ∧
      ∀ u ∉ gone, pass'.existing.find? (fun e => e.uid == u) =
        pass.existing.find? fun e => e.uid == u :=
  liveDecks_tombstones _ pass

theorem liveDecks_logView (hlive : ∀ d ∈ pass.existing, d.isLiveIn tournamentUid = true ∧
    liveDecks pass.objects tournamentUid d.uid = some d.face) :
    liveDecks (processDeckOp env tournamentUid pass (.logView uid userUid round)).objects
      tournamentUid = liveDecks pass.objects tournamentUid := by
  dsimp only [processDeckOp, DeckPass.change]
  split
  · rename_i d hd
    obtain ⟨hdlive, hface⟩ := hlive d (List.mem_of_find?_eq_some hd)
    refine (liveDecks_saveDeck ?_).trans (put_eq_self ?_)
    · exact hdlive
    · exact hface
  · rfl

end Decks

end Archon.Backend

import Archon.Engine.DeckEmission
import Archon.Backend.LiveDecks

/-!
# The deck operations of an event on the server

The live decks `process_deck_ops` leaves of the operations an accepted event emits: single-deck
operations write their decks, a deletion takes the decks it matches, an upload writes the deck of
its slot or a new one, and the publications after them write decks they do not touch.
-/

namespace Archon.Backend
open Engine Evicting

/-- Operations on single decks read before them that name their deck. -/
def EditsOf (decks : List StoredDeck) (ops : List DeckOp) : Prop :=
  ∀ op ∈ ops, ∃ d ∈ decks, ∃ c, edit op = some (d.uid, c)

/-- The decks the operations name are still as they were read. -/
def StillRead (decks existing : List StoredDeck) (ops : List DeckOp) : Prop :=
  ∀ op ∈ ops, ∀ u c, edit op = some (u, c) →
    existing.find? (fun e => e.uid == u) = decks.find? fun e => e.uid == u

def Named (ops : List DeckOp) (d : StoredDeck) : Prop := ∃ op ∈ ops, ∃ c, edit op = some (d.uid, c)

/-- Operations that leave the slots of decks alone. -/
def KeepSlots (ops : List DeckOp) : Prop :=
  ∀ op ∈ ops, ∀ u c, edit op = some (u, c) → ∀ f : LiveDeck,
    (c f).userUid = f.userUid ∧ (c f).round = f.round

/-- The publications after a head leave the decks of `spared` alone. -/
structure TailOf (decks : List StoredDeck) (spared : StoredDeck → Bool) (pubs : List DeckOp) :
    Prop where
  edits : EditsOf decks pubs
  keep : KeepSlots pubs
  spared : ∀ d ∈ decks, Named pubs d → spared d = false

/-- The uids of the decks of the list that meet `p`. -/
def uidsOf (decks : List StoredDeck) (p : StoredDeck → Bool) : List Uid :=
  (decks.filter p).map (·.uid)

def faceOf (d : DeckObject) : LiveDeck := ⟨d.userUid, d.round, d.content, d.isPublic, d.isWinner⟩

section Runs

variable {env : Env} {objects : Objects} {tournamentUid : Uid} {ops pubs : List DeckOp}
  {d : StoredDeck} {playerUid : Uid} {upload : DeckUpload}
  {isPublic isWinner isPrivate multideck : Bool} {deckIndex : Option ℕ}

theorem live_of_mem (h : WellKeyed objects) {d : StoredDeck}
    (hd : d ∈ getDecksForTournament objects tournamentUid) :
    d.isLiveIn tournamentUid = true ∧ liveDecks objects tournamentUid d.uid = some d.face := by
  obtain ⟨hrow, hlive⟩ := (mem_getDecksForTournament h).1 hd
  exact ⟨hlive, liveDecks_eq_some.2 ⟨d, hrow, hlive, rfl⟩⟩

theorem wellKeyed_processDeckOps (h : WellKeyed objects) (ops : List DeckOp) :
    WellKeyed (processDeckOps env objects tournamentUid ops) :=
  (written_processDeckOps (W := fun _ _ => True) h (fun _ _ _ => trivial) ops
    fun _ _ _ _ _ => trivial).2

theorem inSlot_iff {round : Option ℕ} :
    inSlot playerUid round d = true ↔ d.userUid = playerUid ∧ d.round = round := by
  rw [inSlot, Bool.and_eq_true, beq_iff_eq, beq_iff_eq]

theorem releases_round {t : Tournament} {e : TournamentEvent} {d : DeckObject}
    (h : releases t e d = true) : d.round ≠ none := by
  intro hround
  unfold releases at h
  split at h <;> simp_all

theorem roundAfter_of_keepSlots (h : KeepSlots ops) (uid : Uid) (r : Option ℕ) :
    roundAfter ops uid r = r := by
  induction ops with
  | nil => rfl
  | cons op ops ih =>
    obtain ⟨hhead, hrest⟩ := List.forall_mem_cons.1 h
    refine Eq.trans ?_ (ih hrest)
    rw [roundAfter_cons]
    refine congrArg _ ?_
    cases op with
    | setRound deckUid next =>
      have hnone := (hhead deckUid _ rfl ⟨"", none, ⟨"", "", []⟩, false, false⟩).2
      have hsome := (hhead deckUid _ rfl ⟨"", some 0, ⟨"", "", []⟩, false, false⟩).2
      exact absurd (hnone.symm.trans hsome) (by simp)
    | _ => rfl

theorem constant_editWrites {σ : Type} {slot : LiveDeck → Option σ}
    (hslot : ∀ v w, v.userUid = w.userUid → v.round = w.round → slot v = slot w)
    (s : Uid → Option LiveDeck) (h : KeepSlots ops) : Constant slot s (editWrites s ops) := by
  induction ops generalizing s with
  | nil => exact fun w hw => absurd hw List.not_mem_nil
  | cons op ops ih =>
    obtain ⟨hhead, hrest⟩ := List.forall_mem_cons.1 h
    cases hedit : edit op with
    | none =>
      rw [editWrites_skip hedit]
      exact ih s hrest
    | some e =>
      obtain ⟨u, c⟩ := e
      cases hu : s u with
      | none =>
        rw [editWrites_absent hedit hu]
        exact ih s hrest
      | some f =>
        obtain ⟨huser, hround⟩ := hhead u c hedit f
        have hsame : slot f = slot (c f) := hslot f (c f) huser.symm hround.symm
        rw [editWrites_present hedit hu]
        refine List.forall_mem_cons.2 ⟨⟨f, hu, hsame⟩, fun w hw => ?_⟩
        obtain ⟨v, hv, hkept⟩ := ih (put s (u, c f)) hrest w hw
        by_cases hk : w.1 = u
        · rw [hk, put_same (w := (u, c f))] at hv
          refine ⟨f, hk ▸ hu, ?_⟩
          rw [← hkept, ← Option.some.inj hv]
          exact hsame
        · rw [put_ne (w := (u, c f)) hk] at hv
          exact ⟨v, hv, hkept⟩

/-! ### Single decks -/

theorem server_run (hkeyed : WellKeyed objects)
    (hedits : EditsOf (getDecksForTournament objects tournamentUid) ops) (pass : DeckPass)
    (hread : StillRead (getDecksForTournament objects tournamentUid) pass.existing ops) :
    liveDecks (ops.foldl (processDeckOp env tournamentUid) pass).objects tournamentUid =
      putAll (liveDecks pass.objects tournamentUid)
        (editWrites (liveDecks objects tournamentUid) ops) := by
  rw [liveDecks_edits (fun op hop => ?_) fun op hop u c hedit d hd => ?_]
  · refine congrArg _ (editWrites_congr fun op hop u c hedit => ?_)
    rw [held, hread op hop u c hedit, ← held, held_getDecks hkeyed]
  · obtain ⟨d, -, c, hedit⟩ := hedits op hop
    rw [hedit]
    rfl
  · rw [hread op hop u c hedit] at hd
    exact (live_of_mem hkeyed (List.mem_of_find?_eq_some hd)).1

/-! ### A deletion or an upload, then publications -/

theorem TailOf.stillRead {decks existing all : List StoredDeck} {spared : StoredDeck → Bool}
    (h : TailOf decks spared pubs) {gone : Uid → Prop}
    (hgone : ∀ d ∈ decks, gone d.uid → spared d = true)
    (hfind : ∀ u, ¬gone u → existing.find? (fun e => e.uid == u) = all.find? fun e => e.uid == u) :
    StillRead all existing pubs := by
  intro op hop u c hedit
  obtain ⟨d, hd, c', hedit'⟩ := h.edits op hop
  obtain ⟨rfl, -⟩ : u = d.uid ∧ c = c' := by
    rw [hedit] at hedit'
    exact Prod.mk.inj (Option.some.inj hedit')
  refine hfind d.uid fun hmem => ?_
  have htrue := hgone d hd hmem
  rw [h.spared d hd ⟨op, hop, c, hedit⟩] at htrue
  cases htrue

theorem mem_uidsOf {decks : List StoredDeck} {p : StoredDeck → Bool} {d : StoredDeck}
    (hnodup : (decks.map (·.uid)).Nodup) (hd : d ∈ decks) :
      d.uid ∈ uidsOf decks p ↔ p d = true := by
  rw [uidsOf, List.mem_map]
  constructor
  · rintro ⟨e, he, heq⟩
    obtain ⟨he, hp⟩ := List.mem_filter.1 he
    exact List.inj_on_of_nodup_map hnodup he hd heq ▸ hp
  · exact fun hp => ⟨d, List.mem_filter.2 ⟨hd, hp⟩, rfl⟩

theorem TailOf.writes_without (hkeyed : WellKeyed objects) {p : StoredDeck → Bool}
    (htail : TailOf (getDecksForTournament objects tournamentUid) p pubs) :
    editWrites (liveDecks objects tournamentUid) pubs =
      editWrites (without (liveDecks objects tournamentUid)
        (uidsOf (getDecksForTournament objects tournamentUid) p)) pubs := by
  refine editWrites_congr fun op hop u c hedit => ?_
  obtain ⟨d, hd, c', hedit'⟩ := htail.edits op hop
  obtain ⟨rfl, -⟩ : u = d.uid ∧ c = c' := by
    rw [hedit] at hedit'
    exact Prod.mk.inj (Option.some.inj hedit')
  rw [without, if_neg]
  rw [Archon.Backend.mem_uidsOf (nodup_uid_getDecks hkeyed) hd,
    htail.spared d hd ⟨op, hop, c, hedit⟩]
  exact Bool.false_ne_true

theorem server_delete (hkeyed : WellKeyed objects)
    (htail : TailOf (getDecksForTournament objects tournamentUid)
      (takenBy playerUid deckIndex multideck) pubs) :
    liveDecks (processDeckOps env objects tournamentUid
        (.delete playerUid deckIndex multideck :: pubs)) tournamentUid =
      putAll (without (liveDecks objects tournamentUid)
          (uidsOf (getDecksForTournament objects tournamentUid)
            (takenBy playerUid deckIndex multideck)))
        (editWrites (liveDecks objects tournamentUid) pubs) := by
  obtain ⟨hlive, hexisting⟩ := liveDecks_delete env tournamentUid
    ⟨objects, getDecksForTournament objects tournamentUid, 0⟩ playerUid deckIndex multideck
  rw [uidsOf, ← hlive]
  exact server_run hkeyed htail.edits _
    (htail.stillRead (fun d hd => (mem_uidsOf (nodup_uid_getDecks hkeyed) hd).1) hexisting)

theorem server_upsert_stored (hkeyed : WellKeyed objects)
    (htail : TailOf (getDecksForTournament objects tournamentUid)
      (inSlot playerUid upload.round) pubs)
    (hfind : (getDecksForTournament objects tournamentUid).find? (inSlot playerUid upload.round) =
      some d) :
    liveDecks (processDeckOps env objects tournamentUid
        (.upsert playerUid upload isPublic isWinner isPrivate multideck :: pubs)) tournamentUid =
      putAll (put (liveDecks objects tournamentUid)
          (d.uid, uploadedFace playerUid upload isPublic isWinner))
        (editWrites (liveDecks objects tournamentUid) pubs) := by
  have hmem := List.mem_of_find?_eq_some hfind
  obtain ⟨hlive, hexisting⟩ := liveDecks_upsert_stored env
    ⟨objects, getDecksForTournament objects tournamentUid, 0⟩ isPrivate multideck
    (live_of_mem hkeyed hmem).1 hfind
  rw [← hlive]
  refine server_run hkeyed htail.edits _ (htail.stillRead (fun e he heq => ?_) hexisting)
  rw [List.inj_on_of_nodup_map (nodup_uid_getDecks hkeyed) he hmem heq]
  exact List.find?_some hfind

theorem server_upsert_new (hkeyed : WellKeyed objects)
    (htail : TailOf (getDecksForTournament objects tournamentUid)
      (inSlot playerUid upload.round) pubs)
    (hfind : (getDecksForTournament objects tournamentUid).find? (inSlot playerUid upload.round) =
      none) :
    liveDecks (processDeckOps env objects tournamentUid
        (.upsert playerUid upload isPublic isWinner isPrivate multideck :: pubs)) tournamentUid =
      putAll (put (liveDecks objects tournamentUid)
          (env.freshUid 0, uploadedFace playerUid upload isPublic isWinner))
        (editWrites (liveDecks objects tournamentUid) pubs) := by
  obtain ⟨hlive, hexisting⟩ := liveDecks_upsert_new env tournamentUid
    ⟨objects, getDecksForTournament objects tournamentUid, 0⟩ isPrivate multideck hfind
  rw [← hlive]
  refine server_run hkeyed htail.edits _ fun op hop u c hedit => ?_
  rw [hexisting]

theorem touchedDeck_upsert (playerUid : Uid) (upload : DeckUpload)
    (isPublic isWinner isPrivate multideck : Bool) (d : StoredDeck) :
    touchedDeck [.upsert playerUid upload isPublic isWinner isPrivate multideck] d.toDeckObject =
      inSlot playerUid upload.round d := by
  simp only [touchedDeck, List.any_cons, List.any_nil, Bool.or_false, inSlot]
  rw [Bool.beq_comm, Bool.beq_comm (a := upload.round)]

theorem touchedDeck_delete (playerUid : Uid) (deckIndex : Option ℕ) (multideck : Bool)
    (d : StoredDeck) :
    touchedDeck [.delete playerUid deckIndex multideck] d.toDeckObject =
      takenBy playerUid deckIndex multideck d := by
  simp only [touchedDeck, List.any_cons, List.any_nil, Bool.or_false, takenBy]
  rw [Bool.beq_comm, Bool.beq_comm (a := deckIndex)]

theorem TailOf.cons_edit {decks : List StoredDeck} {p : StoredDeck → Bool} {op : DeckOp}
    {c : LiveDeck → LiveDeck} {d : StoredDeck} (h : TailOf decks p pubs) (hd : d ∈ decks)
    (hop : edit op = some (d.uid, c))
    (hslot : ∀ f, (c f).userUid = f.userUid ∧ (c f).round = f.round) :
    EditsOf decks (op :: pubs) ∧ KeepSlots (op :: pubs) := by
  refine ⟨List.forall_mem_cons.2 ⟨⟨d, hd, c, hop⟩, h.edits⟩,
    List.forall_mem_cons.2 ⟨fun u c' hedit f => ?_, h.keep⟩⟩
  rw [hop] at hedit
  cases hedit
  exact hslot f

theorem tailOf_publishes {decks : List StoredDeck} {stored : List DeckObject} {base : List DeckOp}
    (hdecks : stored.Perm (decks.map StoredDeck.toDeckObject)) (h : Publishes stored base pubs)
    {p : StoredDeck → Bool} (hspared : ∀ d : StoredDeck, touchedDeck base d.toDeckObject = p d)
    (hnodup : (decks.map (·.uid)).Nodup) : TailOf decks p pubs := by
  have hpub : ∀ op ∈ pubs, ∃ d ∈ decks, ∃ isPublic isWinner,
      op = .setPublication d.uid isPublic isWinner ∧ p d = false := by
    intro op hop
    obtain ⟨d, hd, isPublic, isWinner, rfl, -, hfree⟩ := h op hop
    obtain ⟨e, he, rfl⟩ := List.mem_map.1 (hdecks.mem_iff.1 hd)
    exact ⟨e, he, isPublic, isWinner, rfl, (hspared e).symm.trans hfree⟩
  refine ⟨fun op hop => ?_, fun op hop u c hedit f => ?_, fun d hd hnamed => ?_⟩
  · obtain ⟨d, hd, isPublic, isWinner, rfl, -⟩ := hpub op hop
    exact ⟨d, hd, _, rfl⟩
  · obtain ⟨d, hd, isPublic, isWinner, rfl, -⟩ := hpub op hop
    cases hedit
    exact ⟨rfl, rfl⟩
  · obtain ⟨op, hop, c, hedit⟩ := hnamed
    obtain ⟨e, he, isPublic, isWinner, rfl, hfree⟩ := hpub op hop
    have huid : e.uid = d.uid := congrArg Prod.fst (Option.some.inj hedit)
    rwa [← List.inj_on_of_nodup_map hnodup he hd huid]

end Runs

end Archon.Backend

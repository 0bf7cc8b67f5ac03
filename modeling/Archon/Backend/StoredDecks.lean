import Archon.Backend.DeckPasses
import Archon.Backend.TournamentRoutes
import Archon.Engine.Publication

/-!
# The stored decks after an event

What the rows of the live decks hold once the operations of an accepted event are through: a deck
the handler does not answer for has every operation on it applied, an uploaded deck carries the
flags of the upload, and another deck of its slot stays as it was.
-/

namespace Archon.Backend
open Engine Evicting

/-- The live deck of the tournament under the uid. -/
def storedAt (objects : Objects) (tournamentUid uid : Uid) : Option StoredDeck :=
  ((objects.find? uid).bind StoredObject.asDeck).filter (StoredDeck.isLiveIn tournamentUid)

/-- The deck as the engine is handed it. -/
def deckAt (objects : Objects) (tournamentUid uid : Uid) : Option DeckObject :=
  (storedAt objects tournamentUid uid).map StoredDeck.toDeckObject

/-- The decks the operations name are in the list read before them as the table holds them. -/
def ReadsTable (tournamentUid : Uid) (pass : DeckPass) (ops : List DeckOp) : Prop :=
  ∀ op ∈ ops, ∀ u c, edit op = some (u, c) →
    pass.existing.find? (fun e => e.uid == u) = storedAt pass.objects tournamentUid u

section Rows

variable {env : Env} {objects : Objects} {tournamentUid uid : Uid} {d : StoredDeck}
  {op : DeckOp} {ops : List DeckOp} {pass : DeckPass} {change : LiveDeck → LiveDeck}

theorem storedAt_eq_some : storedAt objects tournamentUid uid = some d ↔
    objects.find? uid = some (.deck d) ∧ d.isLiveIn tournamentUid = true := by
  rw [storedAt, Option.filter_eq_some_iff, Option.bind_eq_some_iff]
  refine and_congr_left fun _ => ⟨?_, fun h => ⟨_, h, rfl⟩⟩
  rintro ⟨o, ho, hd⟩
  cases o with
  | deck e => exact ho.trans (congrArg (some ∘ StoredObject.deck) (Option.some.inj hd))
  | _ => cases hd

theorem mem_getDecks_iff (h : WellKeyed objects) :
    d ∈ getDecksForTournament objects tournamentUid ↔
      storedAt objects tournamentUid d.uid = some d := by
  rw [mem_getDecksForTournament h, storedAt_eq_some]

theorem storedAt_uid (h : WellKeyed objects) (hd : storedAt objects tournamentUid uid = some d) :
    d.uid = uid := h.uid_eq (storedAt_eq_some.1 hd).1

theorem find?_getDecks (h : WellKeyed objects) (uid : Uid) :
    (getDecksForTournament objects tournamentUid).find? (fun e => e.uid == uid) =
      storedAt objects tournamentUid uid := by
  refine Option.ext fun d => ?_
  rw [find?_uid_eq_some (nodup_uid_getDecks h), mem_getDecks_iff h]
  constructor
  · rintro ⟨hd, rfl⟩
    exact hd
  · intro hd
    have huid : d.uid = uid := storedAt_uid h hd
    exact ⟨huid ▸ hd, huid⟩

theorem storedAt_saveDeck (objects : Objects) (tournamentUid : Uid) (d : StoredDeck) :
    storedAt (saveDeck objects d) tournamentUid =
      Function.update (storedAt objects tournamentUid) d.uid
        (if d.isLiveIn tournamentUid = true then some d else none) := by
  funext k
  by_cases hk : k = d.uid
  · subst hk
    have hrow : (saveDeck objects d).find? d.uid = some (.deck d) := by
      simp [saveDeck, saveObject, Objects.find?]
    rw [Function.update_self, storedAt, hrow]
    exact Option.filter_some ..
  · rw [Function.update_of_ne hk]
    have hrow : (saveDeck objects d).find? k = objects.find? k :=
      find?_congr (AList.lookup_insert_ne hk)
    rw [storedAt, storedAt, hrow]

/-! ### Operations on one deck -/

theorem processDeckOp_onDeck (env : Env) (tournamentUid : Uid) (pass : DeckPass)
    (hedit : edit op = some (uid, change)) :
    ∃ f : StoredDeck → StoredDeck,
      (∀ d, (f d).uid = d.uid ∧ (f d).isLiveIn tournamentUid = d.isLiveIn tournamentUid ∧
        (f d).toDeckObject = onDeck uid d.toDeckObject op) ∧
      (∀ k ≠ uid, ∀ d, onDeck k d op = d) ∧
      processDeckOp env tournamentUid pass op = pass.change (fun d => d.uid == uid) f := by
  cases op with
  | upsert | delete | logView => cases hedit
  | setAttribution =>
    cases hedit
    refine ⟨_, ?_, fun _ _ _ => rfl, rfl⟩
    exact fun d => ⟨rfl, rfl, rfl⟩
  | setRound | setPublication | setPrivate =>
    cases hedit
    refine ⟨_, ?_, fun k hk d => if_neg (Ne.symm hk), rfl⟩
    exact fun d => ⟨rfl, rfl, (if_pos rfl).symm⟩

theorem deckAt_edits (hedits : ∀ op ∈ ops, (edit op).isSome = true)
    (hread : ReadsTable tournamentUid pass ops) (uid : Uid) :
    deckAt (ops.foldl (processDeckOp env tournamentUid) pass).objects tournamentUid uid =
      (deckAt pass.objects tournamentUid uid).map (onDeckAll ops uid) := by
  induction ops generalizing pass with
  | nil => exact Option.map_id'.symm
  | cons op ops ih =>
    rw [List.forall_mem_cons] at hedits
    obtain ⟨⟨u, change⟩, hedit⟩ := Option.isSome_iff_exists.1 hedits.1
    obtain ⟨f, hf, hother, hstep⟩ := processDeckOp_onDeck env tournamentUid pass hedit
    have hcompose : ∀ k, (onDeckAll ops k ∘ fun d => onDeck k d op) = onDeckAll (op :: ops) k :=
      fun _ => rfl
    have hhere := hread op (List.mem_cons_self ..) u change hedit
    have htail : ReadsTable tournamentUid pass ops :=
        fun o ho => hread o (List.mem_cons_of_mem _ ho)
    rw [List.foldl_cons, hstep, DeckPass.change, hhere, ← hcompose, ← Option.map_map]
    cases hstored : storedAt pass.objects tournamentUid u with
    | none =>
      rw [ih hedits.2 htail]
      refine congrArg _ ?_
      by_cases hk : uid = u
      · rw [hk, deckAt, hstored]
        rfl
      · exact (Option.map_congr fun d _ => hother uid hk d).trans Option.map_id' |>.symm
    | some d =>
      have hlive := (storedAt_eq_some.1 hstored).2
      have huid : d.uid = u := by simpa using List.find?_some (hhere.trans hstored)
      have hsaved : storedAt (pass.save (f d)).objects tournamentUid =
          Function.update (storedAt pass.objects tournamentUid) u (some (f d)) := by
        refine (storedAt_saveDeck ..).trans ?_
        rw [if_pos ((hf d).2.1.trans hlive), (hf d).1, huid]
      rw [ih hedits.2 ?_]
      · refine congrArg _ ?_
        rw [deckAt, deckAt, hsaved]
        by_cases hk : uid = u
        · rw [hk, Function.update_self, hstored, Option.map_some, Option.map_some, Option.map_some,
            (hf d).2.2]
        · rw [Function.update_of_ne hk]
          exact ((Option.map_congr fun d _ => hother uid hk d).trans Option.map_id').symm
      · intro o ho v c hv
        rw [hsaved]
        refine (find?_replaced ..).trans ?_
        rw [(hf d).1, huid]
        by_cases hk : v = u
        · rw [hk, if_pos rfl, Function.update_self, hhere, hstored, Option.map_some]
        · rw [if_neg hk, Function.update_of_ne hk]
          exact htail o ho v c hv

/-! ### An upload or a deletion, then publications -/

variable {saves existing : List StoredDeck} {base pubs : List DeckOp} {decks : List DeckObject}

theorem storedAt_saves (h : uid ∉ saves.map (·.uid)) :
    storedAt (saves.foldl saveDeck objects) tournamentUid uid =
      storedAt objects tournamentUid uid := by
  induction saves generalizing objects with
  | nil => rfl
  | cons d saves ih =>
    rw [List.map_cons, List.mem_cons, not_or] at h
    rw [List.foldl_cons, ih h.2, storedAt_saveDeck, Function.update_of_ne h.1]

theorem storedAt_tombstones (hdead : ∀ d ∈ saves, d.isLiveIn tournamentUid = false)
    (h : uid ∈ saves.map (·.uid)) :
    storedAt (saves.foldl saveDeck objects) tournamentUid uid = none := by
  induction saves generalizing objects with
  | nil => cases h
  | cons d saves ih =>
    rw [List.forall_mem_cons] at hdead
    rw [List.foldl_cons]
    by_cases hlater : uid ∈ saves.map (·.uid)
    · exact ih hdead.2 hlater
    · have hhere : uid = d.uid := by simpa [hlater] using h
      rw [storedAt_saves hlater, storedAt_saveDeck, hhere, Function.update_self, hdead.1]
      rfl

theorem find?_replaced_saves (h : uid ∉ saves.map (·.uid)) :
    (replaced existing saves).find? (fun e => e.uid == uid) =
      existing.find? fun e => e.uid == uid := by
  induction saves generalizing existing with
  | nil => rfl
  | cons d saves ih =>
    rw [List.map_cons, List.mem_cons, not_or] at h
    refine (ih h.2).trans ((find?_replaced ..).trans ?_)
    rw [if_neg h.1]

theorem find?_opLeaves (h : uid ∉ saves.map (·.uid)) :
    (opLeaves existing saves op).find? (fun e => e.uid == uid) =
      existing.find? fun e => e.uid == uid := by
  unfold opLeaves
  split
  · rfl
  · exact find?_replaced_saves h

theorem named_publication (h : Publishes decks base pubs) (hop : op ∈ pubs) {u : Uid}
    {c : LiveDeck → LiveDeck} (hedit : edit op = some (u, c)) :
    ∃ d ∈ decks, d.uid = u ∧ touchedDeck base d = false := by
  obtain ⟨d, hd, isPublic, isWinner, rfl, -, hfree⟩ := h op hop
  exact ⟨d, hd, congrArg Prod.fst (Option.some.inj hedit), hfree⟩

theorem onDeckAll_publications (h : Publishes decks base pubs)
    (hnone : ∀ d ∈ decks, d.uid = uid → touchedDeck base d = true) (d : DeckObject) :
    onDeckAll pubs uid d = d := by
  refine onDeckAll_of_forall (fun op hop d => ?_) d
  obtain ⟨e, he, isPublic, isWinner, rfl, -, hfree⟩ := h op hop
  refine if_neg fun huid => ?_
  rw [hnone e he huid] at hfree
  cases hfree

theorem deckAt_head (h : WellKeyed objects)
    (hview : isView op = false)
    (hsaves : ∀ e ∈ getDecksForTournament objects tournamentUid,
      touchedDeck [op] e.toDeckObject = false → e.uid ∉ (opSaves env tournamentUid
        (getDecksForTournament objects tournamentUid) 0 op).map (·.uid))
    (hpubs : Publishes (engineDecks objects tournamentUid) [op] pubs) (uid : Uid) :
    deckAt (processDeckOps env objects tournamentUid (op :: pubs)) tournamentUid uid =
      (deckAt ((opSaves env tournamentUid (getDecksForTournament objects tournamentUid) 0 op).foldl
        saveDeck objects) tournamentUid uid).map (onDeckAll pubs uid) := by
  have hedits : ∀ o ∈ pubs, (edit o).isSome = true := by
    intro o ho
    obtain ⟨d, -, isPublic, isWinner, rfl, -⟩ := hpubs o ho
    rfl
  rw [processDeckOps, List.foldl_cons, processDeckOp_eq hview]
  refine deckAt_edits hedits (fun o ho u c hedit => ?_) uid
  obtain ⟨d, hd, rfl, hfree⟩ := named_publication hpubs ho hedit
  obtain ⟨e, he, rfl⟩ := List.mem_map.1 hd
  have hunsaved := hsaves e he hfree
  exact (find?_opLeaves hunsaved).trans ((find?_getDecks h _).trans (storedAt_saves hunsaved).symm)

/-! ### What an event leaves -/

theorem touchedDeck_of_edits (h : ∀ op ∈ base, (edit op).isSome = true) (d : DeckObject) :
    touchedDeck base d = false := by
  refine List.any_eq_false.2 fun op hop => ?_
  have hone := h op hop
  cases op <;> simp [edit] at hone ⊢

theorem deckAt_edited (h : WellKeyed objects) (hbase : ∀ op ∈ base, (edit op).isSome = true)
    (hpubs : Publishes (engineDecks objects tournamentUid) base pubs) (uid : Uid) :
    deckAt (processDeckOps env objects tournamentUid (base ++ pubs)) tournamentUid uid =
      (deckAt objects tournamentUid uid).map (onDeckAll (base ++ pubs) uid) := by
  refine @deckAt_edits _ _ _ ⟨objects, getDecksForTournament objects tournamentUid, 0⟩ ?_
    (fun _ _ u _ _ => find?_getDecks h u) uid
  refine List.forall_mem_append.2 ⟨hbase, fun op hop => ?_⟩
  obtain ⟨d, -, isPublic, isWinner, rfl, -⟩ := hpubs op hop
  rfl

theorem deckAt_viewed (h : WellKeyed objects) (deckUid userUid : Uid) (round : ℕ) (uid : Uid) :
    deckAt (processDeckOps env objects tournamentUid [.logView deckUid userUid round])
      tournamentUid uid = deckAt objects tournamentUid uid := by
  rw [viewed_alone, finishOps, finishOps]
  simp only [opReads, isView, if_true, opSaves]
  cases hfind : (getDecksForTournament objects tournamentUid).find? (unviewed deckUid userUid) with
  | none => rfl
  | some d =>
    have hstored := (mem_getDecks_iff h).1 (List.mem_of_find?_eq_some hfind)
    have hlive := (storedAt_eq_some.1 hstored).2
    simp only [Option.map_some, Option.toList_some, List.foldl_cons, List.foldl_nil]
    rw [deckAt, storedAt_saveDeck]
    by_cases hk : uid = d.uid
    · rw [hk, Function.update_self, deckAt, hstored]
      refine (congrArg (Option.map StoredDeck.toDeckObject) (if_pos ?_)).trans rfl
      exact hlive
    · rw [Function.update_of_ne hk, deckAt]

theorem deckAt_deleted (h : WellKeyed objects) {playerUid : Uid} {deckIndex : Option ℕ}
    {multideck : Bool}
    (hpubs : Publishes (engineDecks objects tournamentUid)
      [.delete playerUid deckIndex multideck] pubs) {d' : DeckObject}
    (hd' : deckAt (processDeckOps env objects tournamentUid
      (.delete playerUid deckIndex multideck :: pubs)) tournamentUid uid = some d') :
    ∃ d, deckAt objects tournamentUid uid = some d ∧
      touchedDeck [.delete playerUid deckIndex multideck] d = false ∧
      d' = onDeckAll (.delete playerUid deckIndex multideck :: pubs) uid d := by
  set saves := opSaves env tournamentUid (getDecksForTournament objects tournamentUid) 0
    (.delete playerUid deckIndex multideck) with hsaves
  have hsaved : ∀ k, k ∈ saves.map (·.uid) ↔ ∃ e ∈ getDecksForTournament objects tournamentUid,
      takenBy playerUid deckIndex multideck e = true ∧ e.uid = k := by
    intro k
    simp [hsaves, opSaves, and_assoc]
  have hdead : ∀ d ∈ saves, d.isLiveIn tournamentUid = false := by
    intro d hd
    obtain ⟨e, -, rfl⟩ := List.mem_map.1 hd
    simp [StoredDeck.isLiveIn]
  rw [deckAt_head h rfl ?_ hpubs] at hd'
  · obtain ⟨d, hd, rfl⟩ := Option.map_eq_some_iff.1 hd'
    obtain ⟨e, he, rfl⟩ := Option.map_eq_some_iff.1 hd
    have hunsaved : uid ∉ saves.map (·.uid) := by
      intro hmem
      rw [storedAt_tombstones hdead hmem] at he
      cases he
    rw [storedAt_saves hunsaved] at he
    have huid : e.uid = uid := storedAt_uid h he
    refine ⟨e.toDeckObject, congrArg (Option.map _) he, ?_, rfl⟩
    rw [touchedDeck_delete, Bool.eq_false_iff]
    intro htaken
    refine hunsaved ((hsaved uid).2 ⟨e, (mem_getDecks_iff h).2 ?_, htaken, huid⟩)
    rw [huid, he]
  · intro e he hfree hmem
    obtain ⟨x, hx, htaken, huid⟩ := (hsaved e.uid).1 hmem
    obtain rfl : x = e := List.inj_on_of_nodup_map (nodup_uid_getDecks h) hx he huid
    rw [touchedDeck_delete, htaken] at hfree
    cases hfree

theorem deckAt_uploaded (h : WellKeyed objects) (hfresh : objects.lookup (env.freshUid 0) = none)
    {playerUid : Uid} {upload : DeckUpload} {isPublic isWinner isPrivate multideck : Bool}
    (hpubs : Publishes (engineDecks objects tournamentUid)
      [.upsert playerUid upload isPublic isWinner isPrivate multideck] pubs) {d' : DeckObject}
    (hd' : deckAt (processDeckOps env objects tournamentUid
      (.upsert playerUid upload isPublic isWinner isPrivate multideck :: pubs)) tournamentUid uid =
        some d') :
    (∃ d, deckAt objects tournamentUid uid = some d ∧
      touchedDeck [.upsert playerUid upload isPublic isWinner isPrivate multideck] d = false ∧
      d' = onDeckAll (.upsert playerUid upload isPublic isWinner isPrivate multideck ::
        pubs) uid d) ∨
    deckAt objects tournamentUid uid = some d' ∨
    ((uid = env.freshUid 0 ∨ ∃ d, deckAt objects tournamentUid uid = some d) ∧
      d'.userUid = playerUid ∧ d'.isPublic = isPublic ∧ d'.isWinner = isWinner ∧
      d'.isPrivate = isPrivate) := by
  set op : DeckOp := .upsert playerUid upload isPublic isWinner isPrivate multideck with hop
  set d₀ := ((getDecksForTournament objects tournamentUid).find?
    (inSlot playerUid upload.round)).getD
      (newDeck (env.freshUid 0) tournamentUid playerUid env.now) with hd₀
  have htouched : ∀ e : StoredDeck, touchedDeck [op] e.toDeckObject =
      inSlot playerUid upload.round e := touchedDeck_upsert _ _ _ _ _ _
  have hcases : (d₀ ∈ getDecksForTournament objects tournamentUid ∧
      inSlot playerUid upload.round d₀ = true) ∨
      d₀ = newDeck (env.freshUid 0) tournamentUid playerUid env.now := by
    cases hfind : (getDecksForTournament objects tournamentUid).find?
        (inSlot playerUid upload.round) with
    | none => exact .inr (by rw [hd₀, hfind, Option.getD_none])
    | some e =>
      rw [hfind, Option.getD_some] at hd₀
      exact .inl ⟨hd₀ ▸ List.mem_of_find?_eq_some hfind, hd₀ ▸ List.find?_some hfind⟩
  -- Only decks of the slot share the uid of the deck written.
  have hslot : ∀ e ∈ getDecksForTournament objects tournamentUid, e.uid = d₀.uid →
      inSlot playerUid upload.round e = true := by
    intro e he huid
    rcases hcases with ⟨hmem, hin⟩ | hnew
    · exact List.inj_on_of_nodup_map (nodup_uid_getDecks h) he hmem huid ▸ hin
    · have hrow := (storedAt_eq_some.1 ((mem_getDecks_iff h).1 he)).1
      rw [huid, hnew] at hrow
      rw [show objects.find? (newDeck (env.freshUid 0) tournamentUid playerUid env.now).uid = none
        from congrArg (Option.map Row.object) hfresh] at hrow
      cases hrow
  rw [deckAt_head h rfl ?_ hpubs] at hd'
  · change (deckAt (saveDeck objects (uploaded env upload isPublic isWinner isPrivate d₀))
      tournamentUid uid).map _ = _ at hd'
    obtain ⟨d, hd, rfl⟩ := Option.map_eq_some_iff.1 hd'
    have huid₀ : (uploaded env upload isPublic isWinner isPrivate d₀).uid = d₀.uid := rfl
    rw [deckAt, storedAt_saveDeck, huid₀] at hd
    by_cases hk : uid = d₀.uid
    · have hlive : (uploaded env upload isPublic isWinner isPrivate d₀).isLiveIn tournamentUid =
          true := by
        rcases hcases with ⟨hmem, -⟩ | hnew
        · exact (live_of_mem h hmem).1
        · rw [hnew]
          simp [StoredDeck.isLiveIn, uploaded, newDeck]
      have huser : d₀.userUid = playerUid := by
        rcases hcases with ⟨-, hin⟩ | hnew
        · exact (inSlot_iff.1 hin).1
        · rw [hnew]
          rfl
      have hstored : uid = env.freshUid 0 ∨ ∃ d, deckAt objects tournamentUid uid = some d := by
        rcases hcases with ⟨hmem, -⟩ | hnew
        · exact .inr ⟨d₀.toDeckObject, hk ▸ congrArg (Option.map _) ((mem_getDecks_iff h).1 hmem)⟩
        · exact .inl (by rw [hk, hnew]; rfl)
      rw [hk, Function.update_self, if_pos hlive] at hd
      rw [onDeckAll_publications hpubs, ← Option.some.inj hd]
      · exact .inr (.inr ⟨hstored, huser, rfl, rfl, rfl⟩)
      · rintro x hx hxuid
        obtain ⟨e, he, rfl⟩ := List.mem_map.1 hx
        exact (htouched e).trans (hslot e he (hxuid.trans hk))
    · rw [Function.update_of_ne hk] at hd
      cases hfree : touchedDeck [op] d with
      | false => exact .inl ⟨d, hd, hfree, rfl⟩
      | true =>
        refine .inr (.inl ?_)
        rw [onDeckAll_publications hpubs]
        · exact hd
        · rintro x hx hxuid
          obtain ⟨e, he, rfl⟩ := List.mem_map.1 hx
          have hsame := congrArg (Option.map StoredDeck.toDeckObject) ((mem_getDecks_iff h).1 he)
          rw [show e.uid = uid from hxuid, hd] at hsame
          rwa [← Option.some.inj hsame]
  · intro e he hfree hmem
    have huid : e.uid = d₀.uid := List.mem_singleton.1 hmem
    rw [htouched, hslot e he huid] at hfree
    cases hfree

end Rows

end Archon.Backend

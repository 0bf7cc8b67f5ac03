import Archon.Backend.LiveDecks

/-!
# Deck operations on the client (`frontend/src/lib/tournament-actions.ts`, `db.ts`)

The client applies the operations of its own run of the engine to the decks it keeps. Its `saveDeck`
drops the other live decks of the player's slot, which clears an optimistic deck once the server's
arrives.
-/

namespace Archon.Frontend
open Archon.Engine Archon.Backend Evicting

/-- The `decks` store, by uid. -/
abbrev DeckStore := AList fun _ : Uid => StoredDeck

/-- The index `by-tournament`. -/
def allByTournament (store : DeckStore) (tournamentUid : Uid) : List StoredDeck :=
  (store.entries.map Sigma.snd).filter fun d => d.tournamentUid == tournamentUid

/-- `db.ts:1057`. -/
def getDecksByTournament (store : DeckStore) (tournamentUid : Uid) : List StoredDeck :=
  (allByTournament store tournamentUid).filter fun d => d.deletedAt == none

/-- `db.ts:1094`: another live deck of the same player and round. -/
def isTwin (deck d : StoredDeck) : Bool :=
  d.uid != deck.uid && d.userUid == deck.userUid && d.round == deck.round && d.deletedAt == none

/-- `db.ts:1085`. -/
def saveDeck (store : DeckStore) (deck : StoredDeck) : DeckStore :=
  let existing := if deck.userUid = "" then [] else allByTournament store deck.tournamentUid
  let cleared := (existing.filter (isTwin deck)).foldl (fun store d => store.erase d.uid) store
  cleared.insert deck.uid deck

/-- What `crypto.randomUUID`, the clock and the offline state give. -/
structure Client where
  now : Stamp
  randomUid : ℕ → Uid
  offline : Bool

/-- The loop of `applyDeckOps`: the store, the array of decks it was given, how many decks were
created, and the uids it returns. -/
structure ApplyPass where
  store : DeckStore
  existing : List StoredDeck
  created : ℕ
  affectedUids : List Uid

/-- A deck of the array changed in place and saved. -/
def ApplyPass.save (pass : ApplyPass) (d : StoredDeck) : ApplyPass :=
  { pass with
    store := saveDeck pass.store d
    existing := pass.existing.map fun e => if e.uid = d.uid then d else e
    affectedUids := pass.affectedUids ++ [d.uid] }

/-- The first deck that meets `p`, changed and saved. -/
def ApplyPass.change (pass : ApplyPass) (p : StoredDeck → Bool) (f : StoredDeck → StoredDeck) :
    ApplyPass :=
  match pass.existing.find? p with
  | some d => pass.save (f d)
  | none => pass

/-- `tournament-actions.ts:316-327`, the body of the loop over the decks. -/
def deleteStep (client : Client) (pass : ApplyPass) (d : StoredDeck) : ApplyPass :=
  if client.offline = true then
    pass.save { d with deletedAt := some client.now, modified := client.now }
  else { pass with store := pass.store.erase d.uid }

/-- `tournament-actions.ts:294-311`. -/
def uploadedDeck (client : Client) (tournamentUid uid playerUid : Uid)
    (existing : Option StoredDeck)
    (upload : DeckUpload) (isPublic isWinner isPrivate : Bool) : StoredDeck where
  uid := uid
  userUid := playerUid
  round := upload.round
  isPublic := isPublic
  isWinner := isWinner
  isPrivate := isPrivate
  content := upload.content
  modified := client.now
  tournamentUid := tournamentUid
  attribution := (upload.attribution.or (existing.map (·.attribution))).getD ⟨.anonymous, "", ""⟩
  views := existing.elim [] (·.views)
  deletedAt := none

/-- `tournament-actions.ts:289-368`. An operation whose player, deck or viewer is the empty string
is passed over. -/
def applyDeckOp (client : Client) (tournamentUid : Uid) (pass : ApplyPass) : DeckOp → ApplyPass
  | .upsert playerUid upload isPublic isWinner isPrivate _ =>
    if playerUid = "" then pass
    else
      let existing := pass.existing.find? (inSlot playerUid upload.round)
      let stored := (existing.map (·.uid)).filter (· != "")
      let uid := stored.getD (client.randomUid pass.created)
      let deckObj :=
        uploadedDeck client tournamentUid uid playerUid existing upload isPublic isWinner isPrivate
      { pass with
        store := saveDeck pass.store deckObj
        created := pass.created + 1
        affectedUids := pass.affectedUids ++ [uid] }
  | .delete playerUid deckIndex multideck =>
    if playerUid = "" then pass
    else (pass.existing.filter (takenBy playerUid deckIndex multideck)).foldl
      (deleteStep client) pass
  | .setRound deckUid round =>
    if deckUid = "" then pass
    else pass.change (fun d => d.uid == deckUid) fun d => { d with round, modified := client.now }
  | .setPublication deckUid isPublic isWinner =>
    if deckUid = "" then pass
    else pass.change (fun d => d.uid == deckUid) fun d =>
      { d with isPublic, isWinner, modified := client.now }
  | .setAttribution deckUid _ attribution =>
    if deckUid = "" then pass
    else pass.change (fun d => d.uid == deckUid) fun d =>
      { d with attribution, modified := client.now }
  | .setPrivate deckUid isPrivate =>
    if deckUid = "" then pass
    else pass.change (fun d => d.uid == deckUid) fun d =>
      { d with isPrivate, modified := client.now }
  | .logView deckUid userUid round =>
    if deckUid = "" ∨ userUid = "" then pass
    else pass.change (fun d => d.uid == deckUid && d.views.all fun v => v.userUid != userUid)
      fun d => { d with views := d.views ++ [⟨userUid, round⟩], modified := client.now }

/-- `tournament-actions.ts:286`. -/
def applyDeckOps (client : Client) (store : DeckStore) (tournamentUid : Uid)
    (existing : List StoredDeck) (ops : List DeckOp) : ApplyPass :=
  ops.foldl (applyDeckOp client tournamentUid) ⟨store, existing, 0, []⟩

/-! ### What is left -/

/-- The live decks of the tournament in the store, each under its uid. -/
def storedDecks (store : DeckStore) (tournamentUid uid : Uid) : Option LiveDeck :=
  (store.lookup uid).bind (StoredDeck.liveFace tournamentUid)

def KeyedDecks (store : DeckStore) : Prop := Table.Keyed (fun d : StoredDeck => d.uid) store

/-- The place of a deck that `saveDeck` leaves to one deck. A deck without player has none. -/
def slotOf (d : LiveDeck) : Option (Uid × Option ℕ) :=
  if d.userUid = "" then none else some (d.userUid, d.round)

theorem slotOf_eq {v w : LiveDeck} (h : slotOf v = slotOf w) (hsome : slotOf v ≠ none) :
    v.userUid = w.userUid ∧ v.round = w.round ∧ v.userUid ≠ "" := by
  unfold slotOf at h hsome
  split at h
  · rename_i hempty
    simp [hempty] at hsome
  · rename_i hne
    split at h
    · cases h
    · obtain ⟨huser, hround⟩ := Prod.mk.inj (Option.some.inj h)
      exact ⟨huser, hround, hne⟩

theorem slotOf_congr {v w : LiveDeck} (huser : v.userUid = w.userUid) (hround : v.round = w.round) :
    slotOf v = slotOf w := by
  rw [slotOf, slotOf, huser, hround]

theorem slotOf_ne_none {v : LiveDeck} : slotOf v ≠ none ↔ v.userUid ≠ "" := by
  unfold slotOf
  split <;> simp_all

section Decks

variable {client : Client} {store : DeckStore} {tournamentUid uid : Uid} {d deck : StoredDeck}
  {existing : List StoredDeck} {op : DeckOp} {ops : List DeckOp} {pass : ApplyPass}
  {change : LiveDeck → LiveDeck} {k : Uid}

theorem storedDecks_eq_some {f : LiveDeck} :
    storedDecks store tournamentUid uid = some f ↔
      ∃ d, store.lookup uid = some d ∧ d.isLiveIn tournamentUid = true ∧ d.face = f := by
  unfold storedDecks
  simp only [Option.bind_eq_some_iff, liveFace_eq_some]

theorem mem_store : d ∈ store.entries.map Sigma.snd ↔ ∃ k, store.lookup k = some d := by
  rw [List.mem_map]
  constructor
  · rintro ⟨⟨k, e⟩, he, rfl⟩
    exact ⟨k, AList.mem_lookup_iff.2 he⟩
  · rintro ⟨k, hk⟩
    exact ⟨⟨k, d⟩, AList.mem_lookup_iff.1 hk, rfl⟩

theorem mem_store_iff (h : KeyedDecks store) :
    d ∈ store.entries.map Sigma.snd ↔ store.lookup d.uid = some d := by
  rw [mem_store]
  constructor
  · rintro ⟨k, hk⟩
    have huid : d.uid = k := h k d hk
    rwa [huid]
  · exact fun hd => ⟨d.uid, hd⟩

theorem lookup_eraseAll (ds : List StoredDeck) (store : DeckStore) (k : Uid) :
    (ds.foldl (fun store d => store.erase d.uid) store).lookup k =
      if k ∈ ds.map (·.uid) then none else store.lookup k := by
  induction ds generalizing store with
  | nil => simp
  | cons d ds ih =>
    rw [List.foldl_cons, ih, List.map_cons]
    by_cases hmem : k ∈ ds.map (·.uid)
    · rw [if_pos hmem, if_pos (List.mem_cons_of_mem _ hmem)]
    · rw [if_neg hmem]
      by_cases hk : k = d.uid
      · subst hk
        rw [if_pos (List.mem_cons_self ..), AList.lookup_erase]
      · rw [if_neg (List.not_mem_cons_of_ne_of_not_mem hk hmem), AList.lookup_erase_ne hk]

theorem keyedDecks_eraseAll (h : KeyedDecks store) (ds : List StoredDeck) :
    KeyedDecks (ds.foldl (fun store d => store.erase d.uid) store) := by
  intro k d hd
  rw [lookup_eraseAll] at hd
  split at hd
  · cases hd
  · exact h k d hd

theorem keyedDecks_saveDeck (h : KeyedDecks store) (deck : StoredDeck) :
    KeyedDecks (saveDeck store deck) := Table.keyed_insert (keyedDecks_eraseAll h _) rfl

theorem lookup_saveDeck_ne (h : KeyedDecks store) (hk : k ≠ deck.uid) :
    (saveDeck store deck).lookup k = (store.lookup k).filter fun d =>
      !(deck.userUid != "" && d.tournamentUid == deck.tournamentUid && isTwin deck d) := by
  unfold saveDeck
  extract_lets existing cleared
  rw [AList.lookup_insert_ne hk, lookup_eraseAll]
  cases hd : store.lookup k with
  | none => simp
  | some d =>
    have huid : d.uid = k := h k d hd
    have hmem : k ∈ (existing.filter (isTwin deck)).map (·.uid) ↔
        (deck.userUid != "" && d.tournamentUid == deck.tournamentUid && isTwin deck d) = true := by
      rw [List.mem_map]
      constructor
      · rintro ⟨e, he, hek⟩
        rw [List.mem_filter] at he
        by_cases hempty : deck.userUid = ""
        · simp [existing, hempty] at he
        · simp only [existing, hempty, if_false, allByTournament, List.mem_filter] at he
          have hlookup := (mem_store_iff h).1 he.1.1
          have hed : e = d := by
            have hek' : e.uid = k := hek
            rw [hek', hd] at hlookup
            exact (Option.some.inj hlookup).symm
          subst hed
          simp [hempty, he.1.2, he.2]
      · intro htwin
        simp only [Bool.and_eq_true, bne_iff_ne, ne_eq] at htwin
        obtain ⟨⟨hne, hof⟩, htwin⟩ := htwin
        refine ⟨d, List.mem_filter.2 ⟨?_, htwin⟩, huid⟩
        simp only [existing, hne, if_false, allByTournament, List.mem_filter]
        exact ⟨(mem_store_iff h).2 (huid ▸ hd), hof⟩
    by_cases hin : k ∈ (existing.filter (isTwin deck)).map (·.uid)
    · rw [if_pos hin, Option.filter_some, if_neg]
      rw [hmem.1 hin]
      simp
    · rw [if_neg hin, Option.filter_some, if_pos]
      rw [hmem, Bool.not_eq_true] at hin
      rw [hin]
      rfl

theorem lookup_saveDeck_self : (saveDeck store deck).lookup deck.uid = some deck :=
  AList.lookup_insert _

theorem storedDecks_saveDeck_ne (h : KeyedDecks store) (hof : deck.tournamentUid = tournamentUid)
    (hk : k ≠ deck.uid) :
    storedDecks (saveDeck store deck) tournamentUid k =
      (storedDecks store tournamentUid k).filter fun v =>
        slotOf v = none ∨ slotOf v ≠ slotOf deck.face := by
  rw [storedDecks, storedDecks, lookup_saveDeck_ne h hk]
  cases hd : store.lookup k with
  | none => rfl
  | some d =>
    have huid : d.uid ≠ deck.uid := fun heq => hk ((h k d hd).symm.trans heq)
    cases hlive : d.isLiveIn tournamentUid with
    | false =>
      have hnone : d.liveFace tournamentUid = none := by simp [StoredDeck.liveFace, hlive]
      rw [Option.bind_some, hnone, Option.filter_some]
      split
      · rw [Option.bind_some, hnone]
        rfl
      · rfl
    | true =>
      have hface : d.liveFace tournamentUid = some d.face := by simp [StoredDeck.liveFace, hlive]
      rw [Option.bind_some, hface, Option.filter_some, Option.filter_some]
      simp only [StoredDeck.isLiveIn, Bool.and_eq_true, beq_iff_eq] at hlive
      have hslot : (deck.userUid != "" && d.tournamentUid == deck.tournamentUid && isTwin deck d) =
          !decide (slotOf d.face = none ∨ slotOf d.face ≠ slotOf deck.face) := by
        by_cases hempty : d.userUid = ""
        · by_cases hsame : deck.userUid = ""
          · simp [slotOf, StoredDeck.face, hempty, hsame]
          · simp [isTwin, slotOf, StoredDeck.face, hempty, Ne.symm hsame]
        · by_cases hsame : deck.userUid = ""
          · simp [slotOf, StoredDeck.face, hempty, hsame]
          · have hne : (deck.userUid != "") = true := bne_iff_ne.2 hsame
            have hne' : (d.uid != deck.uid) = true := bne_iff_ne.2 huid
            simp [isTwin, slotOf, StoredDeck.face, hlive.1, hlive.2, hof, hempty, hsame, hne, hne',
              Bool.beq_eq_decide_eq]
      rw [hslot, Bool.not_not]
      split
      · exact hface
      · rfl

theorem storedDecks_saveDeck (h : KeyedDecks store) (hlive : deck.isLiveIn tournamentUid = true) :
    storedDecks (saveDeck store deck) tournamentUid =
      evictingPut slotOf (storedDecks store tournamentUid) (deck.uid, deck.face) := by
  funext k
  by_cases hk : k = deck.uid
  · subst hk
    rw [evictingPut_same (w := (deck.uid, deck.face)), storedDecks_eq_some]
    exact ⟨deck, lookup_saveDeck_self, hlive, rfl⟩
  · have hof : deck.tournamentUid = tournamentUid := by
      simp only [StoredDeck.isLiveIn, Bool.and_eq_true, beq_iff_eq] at hlive
      exact hlive.1
    rw [evictingPut_ne (w := (deck.uid, deck.face)) hk]
    exact storedDecks_saveDeck_ne h hof hk

/-! ### Operations on one deck -/

theorem applyDeckOp_edit (client : Client) (tournamentUid : Uid) (pass : ApplyPass)
    (hedit : edit op = some (uid, change)) (huid : uid ≠ "") :
    ∃ f, Rewrites change f ∧
      applyDeckOp client tournamentUid pass op = pass.change (fun d => d.uid == uid) f := by
  cases op with
  | upsert | delete | logView => cases hedit
  | setRound | setPublication | setAttribution | setPrivate =>
    cases hedit
    simp only [applyDeckOp, if_neg huid]
    exact ⟨_, by constructor <;> intros <;> rfl, rfl⟩

theorem storedDecks_edits (hkeyed : KeyedDecks pass.store)
    (hedits : ∀ op ∈ ops, ∃ u c, edit op = some (u, c) ∧ u ≠ "")
    (hlive : AllLive tournamentUid pass.existing ops) :
    storedDecks (ops.foldl (applyDeckOp client tournamentUid) pass).store tournamentUid =
      evictingPutAll slotOf (storedDecks pass.store tournamentUid)
        (editWrites (held pass.existing) ops) := by
  induction ops generalizing pass with
  | nil => rfl
  | cons op ops ih =>
    rw [List.forall_mem_cons] at hedits
    obtain ⟨⟨u, change, hedit, hu⟩, hrest⟩ := hedits
    obtain ⟨f, hf, hstep⟩ := applyDeckOp_edit client tournamentUid pass hedit hu
    rw [List.foldl_cons, hstep, ApplyPass.change]
    cases hfind : pass.existing.find? fun d => d.uid == u with
    | none =>
      have hheld : held pass.existing u = none := by rw [held, hfind, Option.map_none]
      rw [editWrites_absent hedit hheld]
      exact ih hkeyed hrest hlive.tail
    | some d =>
      have hdlive : d.isLiveIn tournamentUid = true :=
        hlive op (List.mem_cons_self ..) u change hedit d hfind
      have huid : d.uid = u := by simpa using List.find?_some hfind
      have hheld : held pass.existing u = some d.face := by rw [held, hfind, Option.map_some]
      have hfuid : (f d).uid = u := (hf.uid d).trans huid
      have hsaved : storedDecks (pass.save (f d)).store tournamentUid =
          evictingPut slotOf (storedDecks pass.store tournamentUid) (u, change d.face) := by
        rw [← hfuid, ← hf.face]
        exact storedDecks_saveDeck hkeyed ((hf.live d tournamentUid).trans hdlive)
      have hheld' : held (pass.save (f d)).existing = put (held pass.existing)
          (u, change d.face) := by
        rw [← hfuid, ← hf.face]
        exact held_replaced (hfuid.symm ▸ hfind)
      rw [editWrites_present hedit hheld]
      refine (ih (keyedDecks_saveDeck hkeyed _) hrest
        (hlive.tail.replaced ((hf.live d tournamentUid).trans hdlive))).trans ?_
      rw [hsaved, hheld']
      rfl

/-! ### Uploads, deletions and views -/

variable {playerUid userUid : Uid} {upload : DeckUpload} {isPublic isWinner isPrivate : Bool}
  {multideck : Bool} {deckIndex : Option ℕ} {round : ℕ} {ds : List StoredDeck}

theorem applyDeckOp_upsert_nobody (pass : ApplyPass) :
    applyDeckOp client tournamentUid pass
      (.upsert "" upload isPublic isWinner isPrivate multideck) = pass := by
  simp only [applyDeckOp, if_true]

theorem applyDeckOp_delete_nobody (pass : ApplyPass) :
    applyDeckOp client tournamentUid pass (.delete "" deckIndex multideck) = pass := by
  simp only [applyDeckOp, if_true]

theorem storedDecks_upsert (client : Client) (tournamentUid : Uid) (pass : ApplyPass)
    (upload : DeckUpload) (isPublic isWinner isPrivate multideck : Bool)
    (hkeyed : KeyedDecks pass.store) (hplayer : playerUid ≠ "") :
    let existing := pass.existing.find? (inSlot playerUid upload.round)
    let stored := (existing.map (·.uid)).filter (· != "")
    let pass' := applyDeckOp client tournamentUid pass
      (.upsert playerUid upload isPublic isWinner isPrivate multideck)
    storedDecks pass'.store tournamentUid =
        evictingPut slotOf (storedDecks pass.store tournamentUid)
          (stored.getD (client.randomUid pass.created),
            uploadedFace playerUid upload isPublic isWinner) ∧
      pass'.existing = pass.existing ∧ KeyedDecks pass'.store := by
  extract_lets existing stored pass'
  have hpass : pass' = applyDeckOp client tournamentUid pass
    (.upsert playerUid upload isPublic isWinner isPrivate multideck) := rfl
  simp only [applyDeckOp, if_neg hplayer] at hpass
  rw [hpass]
  refine ⟨storedDecks_saveDeck hkeyed ?_, rfl, keyedDecks_saveDeck hkeyed _⟩
  simp [StoredDeck.isLiveIn, uploadedDeck]

/-- What a loop of deletions keeps, `gone` being the decks it is to take. -/
structure Deleting (tournamentUid : Uid) (gone done : List Uid) (start pass : ApplyPass) :
    Prop where
  keyed : KeyedDecks pass.store
  others : ∀ k ∉ gone, storedDecks pass.store tournamentUid k =
    storedDecks start.store tournamentUid k
  taken : ∀ k ∈ done, storedDecks pass.store tournamentUid k = none
  fewer : Sub (storedDecks pass.store tournamentUid) (storedDecks start.store tournamentUid)
  held : ∀ k ∉ gone, pass.existing.find? (fun e => e.uid == k) =
    start.existing.find? fun e => e.uid == k

theorem storedDecks_erase (store : DeckStore) (k : Uid) :
    storedDecks (store.erase d.uid) tournamentUid k =
      if k = d.uid then none else storedDecks store tournamentUid k := by
  split
  · rename_i hk
    rw [storedDecks, hk, AList.lookup_erase]
    rfl
  · rename_i hk
    rw [storedDecks, storedDecks, AList.lookup_erase_ne hk]

theorem Deleting.step {gone done : List Uid} {start : ApplyPass}
    (h : Deleting tournamentUid gone done start pass) (hd : d.uid ∈ gone)
    (hlive : d.isLiveIn tournamentUid = true)
    (hslot : ∀ k v, storedDecks start.store tournamentUid k = some v → slotOf v ≠ none →
      slotOf v = slotOf d.face → k ∈ gone) :
    Deleting tournamentUid gone (done ++ [d.uid]) start (deleteStep client pass d) := by
  unfold deleteStep
  split
  · set dead : StoredDeck := { d with deletedAt := some client.now, modified := client.now }
    have hself : storedDecks (saveDeck pass.store dead) tournamentUid d.uid = none := by
      rw [storedDecks, show d.uid = dead.uid from rfl, lookup_saveDeck_self]
      simp [dead, StoredDeck.liveFace, StoredDeck.isLiveIn]
    have hof : dead.tournamentUid = tournamentUid := by
      simp only [StoredDeck.isLiveIn, Bool.and_eq_true, beq_iff_eq] at hlive
      exact hlive.1
    have hsub : Sub (storedDecks (saveDeck pass.store dead) tournamentUid)
        (storedDecks pass.store tournamentUid) := by
      intro k v hv
      by_cases hk : k = d.uid
      · rw [hk, hself] at hv
        cases hv
      · rw [storedDecks_saveDeck_ne h.keyed hof hk, Option.filter_eq_some_iff] at hv
        exact hv.1
    refine ⟨keyedDecks_saveDeck h.keyed dead, fun k hk => ?_, fun k hk => ?_,
      fun k v hv => h.fewer k v (hsub k v hv), fun k hk => ?_⟩
    · have hne : k ≠ d.uid := fun heq => hk (heq ▸ hd)
      refine Eq.trans ?_ (h.others k hk)
      refine (storedDecks_saveDeck_ne h.keyed hof hne).trans ?_
      cases hv : storedDecks pass.store tournamentUid k with
      | none => rfl
      | some v =>
        rw [Option.filter_some, if_pos]
        rw [decide_eq_true_eq, or_iff_not_imp_left]
        exact fun hsome hsame => hk (hslot k v (h.fewer k v hv) hsome hsame)
    · rcases List.mem_append.1 hk with hk | hk
      · exact hsub.eq_none (h.taken k hk)
      · rw [List.mem_singleton.1 hk]
        exact hself
    · refine Eq.trans ((find?_replaced ..).trans ?_) (h.held k hk)
      exact if_neg fun (heq : k = d.uid) => hk (heq ▸ hd)
  · refine ⟨?_, fun k hk => ?_, fun k hk => ?_, fun k v hv => ?_, h.held⟩
    · exact keyedDecks_eraseAll h.keyed [d]
    · rw [storedDecks_erase, if_neg fun (heq : k = d.uid) => hk (heq ▸ hd)]
      exact h.others k hk
    · rw [storedDecks_erase]
      split
      · rfl
      · rename_i hne
        rcases List.mem_append.1 hk with hk | hk
        · exact h.taken k hk
        · exact absurd (List.mem_singleton.1 hk) hne
    · rw [storedDecks_erase] at hv
      split at hv
      · cases hv
      · exact h.fewer k v hv

theorem deleting_loop {gone : List Uid} {start : ApplyPass} (ds : List StoredDeck) (done : List Uid)
    (h : Deleting tournamentUid gone done start pass) (hds : ∀ d ∈ ds, d.uid ∈ gone ∧
      d.isLiveIn tournamentUid = true ∧ ∀ k v, storedDecks start.store tournamentUid k = some v →
        slotOf v ≠ none → slotOf v = slotOf d.face → k ∈ gone) :
    Deleting tournamentUid gone (done ++ ds.map (·.uid)) start
      (ds.foldl (deleteStep client) pass) := by
  induction ds generalizing pass done with
  | nil => simpa using h
  | cons d ds ih =>
    rw [List.forall_mem_cons] at hds
    obtain ⟨⟨hd, hlive, hslot⟩, hrest⟩ := hds
    have hstep : Deleting tournamentUid gone (done ++ [d.uid]) start (deleteStep client pass d) :=
      h.step hd hlive hslot
    have htail := ih (done ++ [d.uid]) hstep hrest
    rwa [List.append_assoc] at htail

theorem storedDecks_delete (client : Client) (tournamentUid : Uid) (pass : ApplyPass)
    (deckIndex : Option ℕ) (multideck : Bool) (hkeyed : KeyedDecks pass.store)
    (hplayer : playerUid ≠ "")
    (hnodup : (pass.existing.map (·.uid)).Nodup)
    (hlive : ∀ d ∈ pass.existing, d.isLiveIn tournamentUid = true)
    (hstore : ∀ k v, storedDecks pass.store tournamentUid k = some v →
      held pass.existing k = some v) :
    let pass' := applyDeckOp client tournamentUid pass (.delete playerUid deckIndex multideck)
    let gone := (pass.existing.filter (takenBy playerUid deckIndex multideck)).map (·.uid)
    storedDecks pass'.store tournamentUid = without (storedDecks pass.store tournamentUid) gone ∧
      (∀ u ∉ gone, pass'.existing.find? (fun e => e.uid == u) =
        pass.existing.find? fun e => e.uid == u) ∧ KeyedDecks pass'.store := by
  extract_lets pass' gone
  have hpass : pass' = applyDeckOp client tournamentUid pass
    (.delete playerUid deckIndex multideck) := rfl
  simp only [applyDeckOp, if_neg hplayer] at hpass
  have hstart : Deleting tournamentUid gone [] pass pass :=
    ⟨hkeyed, fun _ _ => rfl, fun k hk => absurd hk List.not_mem_nil, Sub.refl _, fun _ _ => rfl⟩
  have hend : Deleting tournamentUid gone ([] ++ gone) pass pass' := by
    rw [hpass]
    refine deleting_loop _ [] hstart fun d hd => ?_
    obtain ⟨hmem, htaken⟩ := List.mem_filter.1 hd
    refine ⟨List.mem_map_of_mem hd, hlive d hmem, fun k v hv hsome hslot => ?_⟩
    obtain ⟨e, he, rfl, rfl⟩ := (held_eq_some hnodup).1 (hstore k v hv)
    obtain ⟨huser, hround, -⟩ := slotOf_eq hslot hsome
    refine List.mem_map_of_mem (List.mem_filter.2 ⟨he, ?_⟩)
    have huser' : e.userUid = d.userUid := huser
    have hround' : e.round = d.round := hround
    rw [takenBy, huser', hround']
    exact htaken
  refine ⟨funext fun k => ?_, hend.held, hend.keyed⟩
  unfold without
  split
  · exact hend.taken k (by simpa using ‹k ∈ gone›)
  · exact hend.others k ‹k ∉ gone›

theorem storedDecks_logView (client : Client) (pass : ApplyPass) (round : ℕ)
    (hkeyed : KeyedDecks pass.store) (huid : uid ≠ "")
    (huser : userUid ≠ "") (hnodup : (pass.existing.map (·.uid)).Nodup)
    (hd : d ∈ pass.existing) (hduid : d.uid = uid) (hlive : d.isLiveIn tournamentUid = true) :
    storedDecks (applyDeckOp client tournamentUid pass (.logView uid userUid round)).store
      tournamentUid =
        if d.views.all (fun v => v.userUid != userUid) = true then
          evictingPut slotOf (storedDecks pass.store tournamentUid) (uid, d.face)
        else storedDecks pass.store tournamentUid := by
  simp only [applyDeckOp, huid, huser, or_self, if_false, ApplyPass.change]
  split
  · rename_i e he
    have hmem := List.mem_of_find?_eq_some he
    have hmeets := List.find?_some he
    rw [Bool.and_eq_true, beq_iff_eq] at hmeets
    have hed : e = d := List.inj_on_of_nodup_map hnodup hmem hd (hmeets.1.trans hduid.symm)
    subst hed
    rw [if_pos hmeets.2, ← hduid]
    exact storedDecks_saveDeck hkeyed hlive
  · rename_i hnone
    rw [List.find?_eq_none] at hnone
    have hfails := hnone d hd
    rw [if_neg]
    intro hall
    exact hfails (by simp [hduid, hall])

/-! ### The store stays keyed -/

theorem keyedDecks_change {p : StoredDeck → Bool} {f : StoredDeck → StoredDeck}
    (h : KeyedDecks pass.store) : KeyedDecks (pass.change p f).store := by
  unfold ApplyPass.change
  split
  · exact keyedDecks_saveDeck h _
  · exact h

theorem keyedDecks_applyDeckOp (h : KeyedDecks pass.store) (op : DeckOp) :
    KeyedDecks (applyDeckOp client tournamentUid pass op).store := by
  cases op with
  | upsert =>
    dsimp only [applyDeckOp]
    split
    · exact h
    · exact keyedDecks_saveDeck h _
  | delete playerUid deckIndex multideck =>
    dsimp only [applyDeckOp]
    split
    · exact h
    · refine List.foldlRecOn _ _ (motive := fun pass : ApplyPass => KeyedDecks pass.store) h
        fun pass' h' d _ => ?_
      unfold deleteStep
      split
      · exact keyedDecks_saveDeck h' _
      · exact keyedDecks_eraseAll h' [d]
  | setRound | setPublication | setAttribution | setPrivate | logView =>
    dsimp only [applyDeckOp]
    split
    · exact h
    · exact keyedDecks_change h

theorem keyedDecks_applyDeckOps (h : KeyedDecks store) (ops : List DeckOp) :
    KeyedDecks (applyDeckOps client store tournamentUid existing ops).store :=
  List.foldlRecOn ops _ (motive := fun pass : ApplyPass => KeyedDecks pass.store) h
    fun _ h' op _ => keyedDecks_applyDeckOp h' op

theorem lists_storedDecks (h : KeyedDecks store) :
    Lists (faces (getDecksByTournament store tournamentUid)) (storedDecks store tournamentUid) where
  nodup := by
    have hall : (store.entries.map Sigma.snd).map (·.uid) = store.entries.map Sigma.fst := by
      rw [List.map_map]
      refine List.map_congr_left fun e he => ?_
      exact h e.1 e.2 (AList.mem_lookup_iff.2 he)
    rw [faces, List.map_map]
    have hsub : (getDecksByTournament store tournamentUid).Sublist (store.entries.map Sigma.snd) :=
      List.filter_sublist.trans List.filter_sublist
    refine List.Nodup.sublist (List.Sublist.map (fun d : StoredDeck => d.uid) hsub) ?_
    rw [hall]
    exact store.nodupKeys
  mem uid f := by
    rw [faces, List.mem_map, storedDecks_eq_some]
    simp only [getDecksByTournament, allByTournament, List.mem_filter, mem_store_iff h,
      Prod.mk.injEq, StoredDeck.isLiveIn, Bool.and_eq_true]
    constructor
    · rintro ⟨d, ⟨⟨hd, hof⟩, hlive⟩, rfl, rfl⟩
      exact ⟨d, hd, ⟨hof, hlive⟩, rfl⟩
    · rintro ⟨d, hd, ⟨hof, hlive⟩, rfl⟩
      have huid : d.uid = uid := h uid d hd
      subst huid
      exact ⟨d, ⟨⟨hd, hof⟩, hlive⟩, rfl, rfl⟩

end Decks

end Archon.Frontend

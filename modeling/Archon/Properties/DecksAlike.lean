import Archon.Backend.DeckRuns
import Archon.Backend.Scenario
import Archon.Frontend.DeckOps

/-!
# Client and server apply deck operations alike

The operations of an accepted event, applied by the server to its table and by the client to its
own decks. The client's `saveDeck` clears the slot it writes to, so the two agree exactly when no
deck that is written ends in the slot of another deck of its player.
-/

namespace Archon.Frontend
open Archon.Engine Archon.Backend Evicting

/-- The operation deletes the deck. -/
def deletes : DeckOp → StoredDeck → Bool
  | .delete playerUid deckIndex multideck, d => takenBy playerUid deckIndex multideck d
  | _, _ => false

/-- The operation has the client save the deck. -/
def rewrites : DeckOp → StoredDeck → Bool
  | .upsert playerUid upload .., d => playerUid != "" && inSlot playerUid upload.round d
  | .setRound deckUid _, d => d.uid == deckUid
  | .setPublication deckUid .., d => d.uid == deckUid
  | .setAttribution deckUid .., d => d.uid == deckUid
  | .setPrivate deckUid _, d => d.uid == deckUid
  | .logView deckUid userUid _, d =>
    d.uid == deckUid && userUid != "" && d.views.all fun v => v.userUid != userUid
  | .delete .., _ => false

/-- No deck that is rewritten ends in the slot of another deck of its player. -/
def KeptApart (decks : List StoredDeck) (ops : List DeckOp) : Prop :=
  ∀ d ∈ decks, (∃ op ∈ ops, rewrites op d = true) → ∀ e ∈ decks, e.uid ≠ d.uid →
    e.userUid = d.userUid → d.userUid ≠ "" →
      roundAfter ops e.uid e.round ≠ roundAfter ops d.uid d.round

/-- The client passes over the empty player: such an upload repeats a stored deck, and such a
deletion finds none. -/
def idleWhenSkipped (decks : List StoredDeck) : DeckOp → Prop
  | .upsert playerUid upload isPublic isWinner _ _ => playerUid = "" →
    (decks.find? (inSlot "" upload.round)).map StoredDeck.face =
      some (uploadedFace "" upload isPublic isWinner)
  | .delete playerUid deckIndex multideck => playerUid = "" →
    ∀ d ∈ decks, takenBy "" deckIndex multideck d = false
  | _ => True

def NothingSkipped (decks : List StoredDeck) (ops : List DeckOp) : Prop :=
  ∀ op ∈ ops, idleWhenSkipped decks op

/-- The device holds the decks of the tournament that the server holds. -/
structure Synced (objects : Objects) (store : DeckStore) (tournamentUid : Uid) : Prop where
  wellKeyed : WellKeyed objects
  keyed : KeyedDecks store
  decks : (getDecksByTournament store tournamentUid).Perm
    (getDecksForTournament objects tournamentUid)
  named : ∀ d ∈ getDecksForTournament objects tournamentUid, d.uid ≠ ""

/-- The two sides are left with the same live decks, and no deck is lost that no
operation deletes. -/
structure AppliedAlike (env : Env) (objects : Objects) (client : Client) (store : DeckStore)
    (tournamentUid : Uid) (ops : List DeckOp) : Prop where
  same :
    ((getDecksByTournament (applyDeckOps client store tournamentUid
        (getDecksByTournament store tournamentUid) ops).store tournamentUid).map
      StoredDeck.face).Perm
    ((getDecksForTournament (processDeckOps env objects tournamentUid ops) tournamentUid).map
      StoredDeck.face)
  server_keeps : ∀ d ∈ getDecksForTournament objects tournamentUid,
    (∀ op ∈ ops, deletes op d = false) →
      ∃ e ∈ getDecksForTournament (processDeckOps env objects tournamentUid ops) tournamentUid,
        e.uid = d.uid
  client_keeps : ∀ d ∈ getDecksForTournament objects tournamentUid,
    (∀ op ∈ ops, deletes op d = false) →
      ∃ e ∈ getDecksByTournament (applyDeckOps client store tournamentUid
        (getDecksByTournament store tournamentUid) ops).store tournamentUid, e.uid = d.uid

section Alike

variable {env : Env} {objects : Objects} {client : Client} {store : DeckStore}
  {tournamentUid : Uid} {ops : List DeckOp} {S S' C' : Uid → Option LiveDeck}
  {ws : List (Uid × LiveDeck)}

theorem Synced.stored_eq (h : Synced objects store tournamentUid) :
    storedDecks store tournamentUid = liveDecks objects tournamentUid := by
  funext uid
  refine Option.ext fun f => ?_
  rw [← (lists_storedDecks h.keyed).mem, ← (lists_liveDecks h.wellKeyed).mem]
  exact (h.decks.map _).mem_iff

theorem Synced.nodup (h : Synced objects store tournamentUid) :
    ((getDecksByTournament store tournamentUid).map (·.uid)).Nodup :=
  (h.decks.map _).nodup_iff.2 (nodup_uid_getDecks h.wellKeyed)

theorem Synced.held_eq (h : Synced objects store tournamentUid) :
    held (getDecksByTournament store tournamentUid) = liveDecks objects tournamentUid := by
  funext uid
  refine Option.ext fun f => ?_
  rw [held_eq_some h.nodup, ← held_getDecks h.wellKeyed,
    held_eq_some (nodup_uid_getDecks h.wellKeyed)]
  simp only [h.decks.mem_iff]

/-- What the two runs leave: live decks `S'` on the server and `C'` on the client. -/
structure Leaves (env : Env) (objects : Objects) (client : Client) (store : DeckStore)
    (tournamentUid : Uid) (ops : List DeckOp) (S' C' : Uid → Option LiveDeck) : Prop where
  server : liveDecks (processDeckOps env objects tournamentUid ops) tournamentUid = S'
  client : storedDecks (applyDeckOps client store tournamentUid
    (getDecksByTournament store tournamentUid) ops).store tournamentUid = C'

theorem Leaves.alike_iff (h : Leaves env objects client store tournamentUid ops S' C')
    (hsync : Synced objects store tournamentUid) :
    ∃ lS lC : List (Uid × LiveDeck), Lists lS S' ∧ Lists lC C' ∧
      (AppliedAlike env objects client store tournamentUid ops ↔
        (lC.map Prod.snd).Perm (lS.map Prod.snd) ∧
        ∀ d ∈ getDecksForTournament objects tournamentUid, (∀ op ∈ ops, deletes op d = false) →
          S' d.uid ≠ none ∧ C' d.uid ≠ none) := by
  have hS : Lists (faces (getDecksForTournament (processDeckOps env objects tournamentUid ops)
      tournamentUid)) S' :=
    h.server ▸ lists_liveDecks (wellKeyed_processDeckOps hsync.wellKeyed ops)
  have hC : Lists (faces (getDecksByTournament (applyDeckOps client store tournamentUid
      (getDecksByTournament store tournamentUid) ops).store tournamentUid)) C' :=
    h.client ▸ lists_storedDecks (keyedDecks_applyDeckOps hsync.keyed ops)
  have hkeyS : ∀ k, (∃ e ∈ getDecksForTournament (processDeckOps env objects tournamentUid ops)
      tournamentUid, e.uid = k) ↔ S' k ≠ none := fun k => by
    rw [← hS.mem_keys, faces, List.map_map, List.mem_map]
    rfl
  have hkeyC : ∀ k, (∃ e ∈ getDecksByTournament (applyDeckOps client store tournamentUid
      (getDecksByTournament store tournamentUid) ops).store tournamentUid, e.uid = k) ↔
      C' k ≠ none := fun k => by
    rw [← hC.mem_keys, faces, List.map_map, List.mem_map]
    rfl
  refine ⟨_, _, hS, hC, ?_⟩
  simp only [faces, List.map_map]
  constructor
  · intro halike
    refine ⟨halike.same, fun d hd hkept => ⟨?_, ?_⟩⟩
    · exact (hkeyS d.uid).1 (halike.server_keeps d hd hkept)
    · exact (hkeyC d.uid).1 (halike.client_keeps d hd hkept)
  · rintro ⟨hsame, hkeep⟩
    exact ⟨hsame, fun d hd hkept => (hkeyS d.uid).2 (hkeep d hd hkept).1,
      fun d hd hkept => (hkeyC d.uid).2 (hkeep d hd hkept).2⟩

theorem Leaves.not_alike (h : Leaves env objects client store tournamentUid ops S' C')
    (hsync : Synced objects store tournamentUid) (hkeys : ∀ k, C' k ≠ none → S' k ≠ none)
    (hlost : ∃ k, S' k ≠ none ∧ C' k = none) :
    ¬AppliedAlike env objects client store tournamentUid ops := by
  obtain ⟨lS, lC, hS, hC, hiff⟩ := h.alike_iff hsync
  obtain ⟨k, hk, hk'⟩ := hlost
  intro halike
  have hlen := (hiff.1 halike).1.length_eq
  rw [List.length_map, List.length_map] at hlen
  exact absurd hlen (hS.length_lt hC hkeys hk hk').ne

theorem Leaves.alike_of_eq (h : Leaves env objects client store tournamentUid ops S' C')
    (hsync : Synced objects store tournamentUid) (heq : C' = S')
    (hkeep : ∀ d ∈ getDecksForTournament objects tournamentUid,
      (∀ op ∈ ops, deletes op d = false) → S' d.uid ≠ none) :
    AppliedAlike env objects client store tournamentUid ops := by
  obtain ⟨lS, lC, hS, hC, hiff⟩ := h.alike_iff hsync
  refine hiff.2 ⟨?_, fun d hd hkept => ⟨hkeep d hd hkept, ?_⟩⟩
  · rw [heq] at hC
    exact (hC.perm hS).map _
  · rw [heq]
    exact hkeep d hd hkept

theorem Leaves.alike_iff_apart
    (h : Leaves env objects client store tournamentUid ops (putAll S ws)
      (evictingPutAll slotOf S ws))
    (hsync : Synced objects store tournamentUid) (hset : Settled slotOf S ws)
    (hkeep : ∀ d ∈ getDecksForTournament objects tournamentUid,
      (∀ op ∈ ops, deletes op d = false) → S d.uid ≠ none) :
    AppliedAlike env objects client store tournamentUid ops ↔ Apart slotOf S ws := by
  rcases hset.eq_or_lost with ⟨hapart, heq⟩ | ⟨hapart, hlost⟩
  · refine iff_of_true (h.alike_of_eq hsync heq fun d hd hkept => ?_) hapart
    rcases putAll_cases S ws d.uid with ⟨-, hsame⟩ | ⟨w, -, -, hput⟩
    · rw [hsame]
      exact hkeep d hd hkept
    · rw [hput]
      exact Option.some_ne_none _
  · refine iff_of_false (h.not_alike hsync (fun k hk => ?_) hlost) hapart
    exact fun hnone => hk ((Sub.refl S).writes ws |>.eq_none hnone)

theorem client_run (hsync : Synced objects store tournamentUid)
    (hedits : EditsOf (getDecksForTournament objects tournamentUid) ops) (pass : ApplyPass)
    (hkeyed : KeyedDecks pass.store)
    (hread : StillRead (getDecksByTournament store tournamentUid) pass.existing ops) :
    storedDecks (ops.foldl (applyDeckOp client tournamentUid) pass).store tournamentUid =
      evictingPutAll slotOf (storedDecks pass.store tournamentUid)
        (editWrites (liveDecks objects tournamentUid) ops) := by
  rw [storedDecks_edits hkeyed (fun op hop => ?_) fun op hop u c hedit d hd => ?_]
  · refine congrArg _ (editWrites_congr fun op hop u c hedit => ?_)
    rw [held, hread op hop u c hedit, ← held, hsync.held_eq]
  · obtain ⟨d, hd, c, hedit⟩ := hedits op hop
    exact ⟨d.uid, c, hedit, hsync.named d hd⟩
  · rw [hread op hop u c hedit] at hd
    have hmem := hsync.decks.mem_iff.1 (List.mem_of_find?_eq_some hd)
    exact (live_of_mem hsync.wellKeyed hmem).1

theorem leaves_edits (hsync : Synced objects store tournamentUid)
    (hedits : EditsOf (getDecksForTournament objects tournamentUid) ops) :
    Leaves env objects client store tournamentUid ops
      (putAll (liveDecks objects tournamentUid) (editWrites (liveDecks objects tournamentUid) ops))
      (evictingPutAll slotOf (liveDecks objects tournamentUid)
        (editWrites (liveDecks objects tournamentUid) ops)) where
  server := server_run hsync.wellKeyed hedits _ fun _ _ _ _ _ => rfl
  client := by
    rw [← hsync.stored_eq]
    refine (client_run hsync hedits _ hsync.keyed fun _ _ _ _ _ => rfl).trans ?_
    rw [hsync.stored_eq]

theorem apart_edits_iff (hkeyed : WellKeyed objects) :
    Apart slotOf (liveDecks objects tournamentUid)
        (editWrites (liveDecks objects tournamentUid) ops) ↔
      ∀ d ∈ getDecksForTournament objects tournamentUid,
        (∃ op ∈ ops, ∃ c, edit op = some (d.uid, c)) →
        ∀ e ∈ getDecksForTournament objects tournamentUid, e.uid ≠ d.uid →
          e.userUid = d.userUid → d.userUid ≠ "" →
          roundAfter ops e.uid e.round ≠ roundAfter ops d.uid d.round := by
  set S := liveDecks objects tournamentUid with hS
  have hend : ∀ d ∈ getDecksForTournament objects tournamentUid,
      putAll S (editWrites S ops) d.uid = some (editAll ops d.uid d.face) := fun d hd => by
    rw [putAll_editWrites, hS, (live_of_mem hkeyed hd).2, Option.map_some]
  have hslot : ∀ d : StoredDeck, slotOf (editAll ops d.uid d.face) =
      if d.userUid = "" then none else some (d.userUid, roundAfter ops d.uid d.round) := by
    intro d
    rw [slotOf, editAll_userUid, editAll_round]
    rfl
  constructor
  · intro hapart d hd hnamed e he hne huser hsome
    obtain ⟨⟨u, f⟩, hw, hu⟩ := (mem_editWrites S ops d.uid).2
      ⟨by simp [hS, (live_of_mem hkeyed hd).2], hnamed⟩
    have hu' : u = d.uid := hu
    subst hu'
    have hslots := hapart _ hw e.uid hne _ _ (hend d hd) (hend e he)
    simp only [hslot, huser, if_neg hsome] at hslots
    intro hround
    exact hslots (Option.some_ne_none _) (by rw [hround])
  · intro hall w hw k hk v v' hv hv' hsome hsame
    obtain ⟨hheld, op, hop, c, hedit⟩ := (mem_editWrites S ops w.1).1 ⟨w, hw, rfl⟩
    have hdeck : ∀ u x, putAll S (editWrites S ops) u = some x →
        ∃ d ∈ getDecksForTournament objects tournamentUid, d.uid = u ∧
          x = editAll ops d.uid d.face := by
      intro u x hx
      rw [putAll_editWrites, Option.map_eq_some_iff] at hx
      obtain ⟨f, hf, rfl⟩ := hx
      obtain ⟨d, hrow, hlive, rfl⟩ := liveDecks_eq_some.1 hf
      have huid : d.uid = u := hkeyed.uid_eq hrow
      exact ⟨d, (mem_getDecksForTournament hkeyed).2 ⟨huid ▸ hrow, hlive⟩, huid, by rw [huid]⟩
    obtain ⟨d, hd, hdw, rfl⟩ := hdeck w.1 v hv
    obtain ⟨e, he, rfl, rfl⟩ := hdeck k v' hv'
    rw [hslot] at hsome
    rw [hslot, hslot] at hsame
    by_cases hempty : d.userUid = ""
    · simp [hempty] at hsome
    · rw [if_neg hempty] at hsame
      by_cases hempty' : e.userUid = ""
      · simp [hempty'] at hsame
      · rw [if_neg hempty', Option.some.injEq, Prod.mk.injEq] at hsame
        exact hall d hd ⟨op, hop, c, hdw ▸ hedit⟩ e he (hdw ▸ hk) hsame.1 hempty hsame.2

theorem rewrites_of_edit {op : DeckOp} {u : Uid} {c : LiveDeck → LiveDeck}
    (hedit : edit op = some (u, c)) (d : StoredDeck) :
    rewrites op d = true ↔ ∃ c, edit op = some (d.uid, c) := by
  cases op with
  | upsert | delete | logView => cases hedit
  | setRound | setPublication | setAttribution | setPrivate =>
    simp only [rewrites, edit, beq_iff_eq, Option.some.injEq, Prod.mk.injEq, exists_and_left,
      exists_eq', and_true]
    exact eq_comm

theorem idleWhenSkipped_of_edit {op : DeckOp} {u : Uid} {c : LiveDeck → LiveDeck}
    {decks : List StoredDeck} (hedit : edit op = some (u, c)) : idleWhenSkipped decks op := by
  cases op with
  | upsert | delete | logView => cases hedit
  | setRound | setPublication | setAttribution | setPrivate => trivial

theorem alike_edits_iff (hsync : Synced objects store tournamentUid)
    (hedits : EditsOf (getDecksForTournament objects tournamentUid) ops)
    (hset : Settled slotOf (liveDecks objects tournamentUid)
      (editWrites (liveDecks objects tournamentUid) ops)) :
    AppliedAlike env objects client store tournamentUid ops ↔
      KeptApart (getDecksForTournament objects tournamentUid) ops ∧
        NothingSkipped (getDecksForTournament objects tournamentUid) ops := by
  have hidle : NothingSkipped (getDecksForTournament objects tournamentUid) ops := fun op hop => by
    obtain ⟨d, -, c, hedit⟩ := hedits op hop
    exact idleWhenSkipped_of_edit hedit
  have hnamed : ∀ d : StoredDeck, (∃ op ∈ ops, rewrites op d = true) ↔
      ∃ op ∈ ops, ∃ c, edit op = some (d.uid, c) := fun d => by
    refine exists_congr fun op => and_congr_right fun hop => ?_
    obtain ⟨e, -, c, hedit⟩ := hedits op hop
    exact rewrites_of_edit hedit d
  rw [and_iff_left hidle, (leaves_edits hsync hedits).alike_iff_apart hsync hset,
    apart_edits_iff hsync.wellKeyed]
  · simp only [KeptApart, hnamed]
  · intro d hd _
    rw [(live_of_mem hsync.wellKeyed hd).2]
    exact Option.some_ne_none _

/-! ### Decks that move -/

theorem constant_slotOf (s : Uid → Option LiveDeck) (h : KeepSlots ops) :
    Constant slotOf s (editWrites s ops) :=
  constant_editWrites (fun _ _ => slotOf_congr) s h

theorem settled_moves {t : Tournament} {e : TournamentEvent} {decks back on : List DeckObject}
    {round : ℕ} {s : Uid → Option LiveDeck} {pubs : List DeckOp} (h : Moves t e decks back on round)
    (hread : ∀ d ∈ decks, s d.uid = some (faceOf d)) (hnodup : (decks.map DeckObject.uid).Nodup)
    (hkeep : KeepSlots pubs) :
    Settled slotOf s (editWrites s (back.map releaseOp ++ on.map (stampOp round) ++ pubs)) := by
  have hback : ∀ d ∈ back, s d.uid = some (faceOf d) := fun d hd => hread d (h.back_subset d hd).1
  have hinj : ∀ d ∈ decks, ∀ d' ∈ decks, d.uid = d'.uid → d = d' := fun d hd d' hd' =>
    List.inj_on_of_nodup_map hnodup hd hd'
  have hon : ∀ d ∈ on, d ∈ decks ∧ d.round = none := fun d hd =>
    ⟨(h.on_stampable d hd).1, (h.on_stampable d hd).2.1⟩
  have honNodup : (on.map DeckObject.uid).Nodup :=
    h.on_nodup.of_map.map_on fun d hd d' hd' => hinj d (hon d hd).1 d' (hon d' hd').1
  have hbackNodup : (back.map DeckObject.uid).Nodup := h.back_nodup hnodup
  have hdisjoint : ∀ d ∈ back, ∀ d' ∈ on, d'.uid ≠ d.uid := by
    intro d hd d' hd' heq
    have hsame := hinj d' (hon d' hd').1 d (h.back_subset d hd).1 heq
    exact h.apart d hd d' hd' (congrArg DeckObject.userUid hsame.symm)
  set ws₁ := back.map fun d => (d.uid, { faceOf d with round := none }) with hws₁
  set ws₂ := on.map fun d => (d.uid, { faceOf d with round := some round }) with hws₂
  have hon' : ∀ d ∈ on, putAll s ws₁ d.uid = some (faceOf d) := by
    intro d hd
    rw [putAll_of_not_mem fun w hw => ?_]
    · exact hread d (hon d hd).1
    · obtain ⟨d', hd', rfl⟩ := List.mem_map.1 hw
      exact fun heq => hdisjoint d' hd' d hd heq.symm
  have hwrites : editWrites s (back.map releaseOp ++ on.map (stampOp round) ++ pubs) =
      ws₁ ++ ws₂ ++ editWrites (putAll s (ws₁ ++ ws₂)) pubs := by
    rw [List.append_assoc, editWrites_moves s releaseOp DeckObject.uid
      (fun f => { f with round := none }) (fun _ => rfl) back faceOf hback hbackNodup,
      editWrites_moves (putAll s ws₁) (stampOp round) DeckObject.uid
      (fun f => { f with round := some round }) (fun _ => rfl) on faceOf hon' honNodup,
      ← putAll_append, List.append_assoc]
  rw [hwrites]
  refine settled_append ?_ (constant_slotOf _ hkeep)
  rw [List.pairwise_append]
  refine ⟨?_, ?_, fun x hx y hy => ?_⟩
  · rw [hws₁, List.pairwise_map]
    refine (List.pairwise_map.1 hbackNodup).imp_of_mem fun {a b} _ hb hab => ⟨Ne.symm hab, ?_⟩
    intro v hv hsome hslot
    -- A released deck stands at a round, the slot written is pending.
    rw [hback b hb] at hv
    have hround : (faceOf b).round = none := Option.some.inj hv ▸ (slotOf_eq hslot hsome).2.1
    exact absurd hround (releases_round (h.back_subset b hb).2)
  · rw [hws₂, List.pairwise_map]
    refine (List.pairwise_map.1 honNodup).imp_of_mem fun {a b} _ hb hab => ⟨Ne.symm hab, ?_⟩
    intro v hv hsome hslot
    rw [hread b (hon b hb).1] at hv
    have hround : (faceOf b).round = some round := Option.some.inj hv ▸ (slotOf_eq hslot hsome).2.1
    exact absurd (hround.symm.trans (hon b hb).2) (Option.some_ne_none _)
  · obtain ⟨d, hd, rfl⟩ := List.mem_map.1 hx
    obtain ⟨d', hd', rfl⟩ := List.mem_map.1 hy
    refine ⟨hdisjoint d hd d' hd', fun v hv hsome hslot => ?_⟩
    rw [hread d' (hon d' hd').1] at hv
    have huser : (faceOf d').userUid = d.userUid := Option.some.inj hv ▸ (slotOf_eq hslot hsome).1
    exact absurd huser.symm (h.apart d hd d' hd')

/-! ### An upload or a deletion, then publications -/

/-- No other deck of its player shares the slot of the deck. -/
def Alone (decks : List StoredDeck) (d : StoredDeck) : Prop :=
  ∀ e ∈ decks, e.uid ≠ d.uid → e.userUid = d.userUid → d.userUid ≠ "" → e.round ≠ d.round

theorem keptApart_cons_iff {decks : List StoredDeck} {op : DeckOp} (hop : edit op = none)
    (hedits : EditsOf decks ops) (hkeep : KeepSlots ops) :
    KeptApart decks (op :: ops) ↔
      ∀ d ∈ decks, rewrites op d = true ∨ Named ops d → Alone decks d := by
  have hall : KeepSlots (op :: ops) := by
    refine List.forall_mem_cons.2 ⟨fun u c hedit => ?_, hkeep⟩
    rw [hop] at hedit
    cases hedit
  refine forall₂_congr fun d _ => ?_
  have hnamed : (∃ o ∈ op :: ops, rewrites o d = true) ↔ rewrites op d = true ∨ Named ops d := by
    rw [List.exists_mem_cons_iff]
    refine or_congr_right (exists_congr fun o => and_congr_right fun ho => ?_)
    obtain ⟨e, -, c, hedit⟩ := hedits o ho
    exact rewrites_of_edit hedit d
  simp only [hnamed, roundAfter_of_keepSlots hall, Alone]

theorem apart_iff_alone (hkeyed : WellKeyed objects) (hkeep : KeepSlots ops)
    (hsub : Sub S (liveDecks objects tournamentUid))
    (hfull : ∀ d ∈ getDecksForTournament objects tournamentUid, Named ops d →
      ∀ e ∈ getDecksForTournament objects tournamentUid, e.userUid = d.userUid →
        e.round = d.round → S e.uid = some e.face) :
    Apart slotOf S (editWrites S ops) ↔
      ∀ d ∈ getDecksForTournament objects tournamentUid, Named ops d →
        Alone (getDecksForTournament objects tournamentUid) d := by
  have hdeck : ∀ u x, S u = some x →
      ∃ d ∈ getDecksForTournament objects tournamentUid, d.uid = u ∧ x = d.face := by
    intro u x hx
    obtain ⟨d, hrow, hlive, rfl⟩ := liveDecks_eq_some.1 (hsub u x hx)
    have huid : d.uid = u := hkeyed.uid_eq hrow
    exact ⟨d, (mem_getDecksForTournament hkeyed).2 ⟨huid ▸ hrow, hlive⟩, huid, rfl⟩
  rw [(constant_slotOf S hkeep).apart_iff]
  constructor
  · intro hall d hd hnamed e he hne huser hsome hround
    have hSd := hfull d hd hnamed d hd rfl rfl
    obtain ⟨⟨u, f⟩, hw, hu⟩ := (mem_editWrites S ops d.uid).2 ⟨by simp [hSd], hnamed⟩
    have hu' : u = d.uid := hu
    subst hu'
    refine hall _ hw e.uid hne _ _ hSd (hfull d hd hnamed e he huser hround) ?_ ?_
    · exact slotOf_ne_none.2 hsome
    · exact slotOf_congr huser hround
  · intro hall w hw k hk v v' hv hv' hsome hslot
    obtain ⟨-, hnamed⟩ := (mem_editWrites S ops w.1).1 ⟨w, hw, rfl⟩
    obtain ⟨d, hd, hdw, rfl⟩ := hdeck w.1 v hv
    obtain ⟨e, he, rfl, rfl⟩ := hdeck k v' hv'
    have hsame := slotOf_eq hslot (hslot ▸ hsome)
    rw [← hdw] at hnamed hk
    refine hall d hd hnamed e he hk hsame.1 (slotOf_ne_none.1 hsome) hsame.2.1

variable {pubs : List DeckOp} {playerUid : Uid} {upload : DeckUpload}
  {isPublic isWinner isPrivate multideck : Bool} {deckIndex : Option ℕ}

theorem Synced.decks_nodup (h : Synced objects store tournamentUid) :
    ((getDecksForTournament objects tournamentUid).map (·.uid)).Nodup :=
  nodup_uid_getDecks h.wellKeyed

theorem nothingSkipped_cons_iff {decks : List StoredDeck} {op : DeckOp} (h : EditsOf decks pubs) :
    NothingSkipped decks (op :: pubs) ↔ idleWhenSkipped decks op := by
  rw [NothingSkipped, List.forall_mem_cons]
  refine and_iff_left fun o ho => ?_
  obtain ⟨e, -, c, hedit⟩ := h o ho
  exact idleWhenSkipped_of_edit hedit

theorem Synced.mem_uidsOf (h : Synced objects store tournamentUid) (p : StoredDeck → Bool)
    (u : Uid) :
    u ∈ uidsOf (getDecksByTournament store tournamentUid) p ↔
      u ∈ uidsOf (getDecksForTournament objects tournamentUid) p :=
  ((h.decks.filter p).map (·.uid)).mem_iff

theorem client_delete (hsync : Synced objects store tournamentUid) (hplayer : playerUid ≠ "")
    (htail : TailOf (getDecksForTournament objects tournamentUid)
      (takenBy playerUid deckIndex multideck) pubs) :
    storedDecks (applyDeckOps client store tournamentUid (getDecksByTournament store tournamentUid)
        (.delete playerUid deckIndex multideck :: pubs)).store tournamentUid =
      evictingPutAll slotOf (without (liveDecks objects tournamentUid)
          (uidsOf (getDecksForTournament objects tournamentUid)
            (takenBy playerUid deckIndex multideck)))
        (editWrites (liveDecks objects tournamentUid) pubs) := by
  obtain ⟨hlive, hexisting, hkeyed⟩ := storedDecks_delete client tournamentUid
    ⟨store, getDecksByTournament store tournamentUid, 0, []⟩ deckIndex multideck hsync.keyed hplayer
    hsync.nodup (fun d hd => (live_of_mem hsync.wellKeyed (hsync.decks.mem_iff.1 hd)).1)
    (fun k v hv => by rw [hsync.held_eq, ← hsync.stored_eq]; exact hv)
  refine (client_run hsync htail.edits _ hkeyed
    (htail.stillRead (fun d hd => (mem_uidsOf hsync.decks_nodup hd).1)
      fun u hu => hexisting u (mt (hsync.mem_uidsOf _ u).1 hu))).trans ?_
  refine congrArg (evictingPutAll slotOf · _) (hlive.trans ?_)
  rw [hsync.stored_eq]
  funext k
  rw [without, without, ← uidsOf]
  simp only [hsync.mem_uidsOf]

theorem alike_delete_iff (hsync : Synced objects store tournamentUid) (hplayer : playerUid ≠ "")
    (htail : TailOf (getDecksForTournament objects tournamentUid)
      (takenBy playerUid deckIndex multideck) pubs) :
    AppliedAlike env objects client store tournamentUid
        (.delete playerUid deckIndex multideck :: pubs) ↔
      KeptApart (getDecksForTournament objects tournamentUid)
          (.delete playerUid deckIndex multideck :: pubs) ∧
        NothingSkipped (getDecksForTournament objects tournamentUid)
          (.delete playerUid deckIndex multideck :: pubs) := by
  have hkept : ∀ d ∈ getDecksForTournament objects tournamentUid,
      takenBy playerUid deckIndex multideck d = false →
      without (liveDecks objects tournamentUid)
        (uidsOf (getDecksForTournament objects tournamentUid)
        (takenBy playerUid deckIndex multideck)) d.uid = some d.face := by
    intro d hd hspared
    rw [without, if_neg]
    · exact (live_of_mem hsync.wellKeyed hd).2
    · rw [mem_uidsOf hsync.decks_nodup hd, hspared]
      exact Bool.false_ne_true
  have hidle : idleWhenSkipped (getDecksForTournament objects tournamentUid)
      (.delete playerUid deckIndex multideck) := fun hempty => absurd hempty hplayer
  have hleaves : Leaves env objects client store tournamentUid
      (.delete playerUid deckIndex multideck :: pubs) _ _ :=
    ⟨server_delete hsync.wellKeyed htail, client_delete hsync hplayer htail⟩
  rw [htail.writes_without hsync.wellKeyed] at hleaves
  rw [hleaves.alike_iff_apart hsync (constant_slotOf _ htail.keep).settled,
    keptApart_cons_iff rfl htail.edits htail.keep, nothingSkipped_cons_iff htail.edits,
    and_iff_left hidle, @apart_iff_alone objects tournamentUid _ _ hsync.wellKeyed htail.keep]
  · simp only [rewrites, Bool.false_eq_true, false_or]
  · intro k v hv
    rw [without] at hv
    split at hv
    · cases hv
    · exact hv
  · intro d hd hnamed e he huser hround
    refine hkept e he ?_
    rw [takenBy, huser, hround, ← takenBy]
    exact htail.spared d hd hnamed
  · intro d hd hkeep
    rw [hkept d hd (hkeep _ (List.mem_cons_self ..))]
    exact Option.some_ne_none _

/-! ### Uploads -/

variable {d d' : StoredDeck}

theorem client_upsert (hsync : Synced objects store tournamentUid) (hplayer : playerUid ≠ "")
    (htail : TailOf (getDecksForTournament objects tournamentUid)
      (inSlot playerUid upload.round) pubs)
    {uid : Uid}
    (huid : (((getDecksByTournament store tournamentUid).find? (inSlot playerUid upload.round)).map
      (·.uid)).getD (client.randomUid 0) = uid) :
    storedDecks (applyDeckOps client store tournamentUid (getDecksByTournament store tournamentUid)
        (.upsert playerUid upload isPublic isWinner isPrivate multideck :: pubs)).store
        tournamentUid =
      evictingPutAll slotOf (evictingPut slotOf (liveDecks objects tournamentUid)
          (uid, uploadedFace playerUid upload isPublic isWinner))
        (editWrites (liveDecks objects tournamentUid) pubs) := by
  obtain ⟨hlive, hexisting, hkeyed⟩ := storedDecks_upsert client tournamentUid
    ⟨store, getDecksByTournament store tournamentUid, 0, []⟩ upload isPublic isWinner isPrivate
    multideck hsync.keyed hplayer
  refine (client_run hsync htail.edits _ hkeyed fun op hop u c hedit => by rw [hexisting]).trans ?_
  refine congrArg (evictingPutAll slotOf · _) (hlive.trans ?_)
  have hkey : (((((getDecksByTournament store tournamentUid).find?
      (inSlot playerUid upload.round)).map (·.uid)).filter (· != "")).getD (client.randomUid 0)) =
      uid := by
    rw [← huid]
    cases hfind : (getDecksByTournament store tournamentUid).find?
      (inSlot playerUid upload.round) with
    | none => rfl
    | some e =>
      have hne := hsync.named e (hsync.decks.mem_iff.1 (List.mem_of_find?_eq_some hfind))
      rw [Option.map_some, Option.filter_some, if_pos (bne_iff_ne.2 hne)]
  rw [hsync.stored_eq]
  exact congrArg (fun k => evictingPut slotOf _ (k, _)) hkey

theorem client_passes_over (hsync : Synced objects store tournamentUid) {op : DeckOp}
    (hop : ∀ pass, applyDeckOp client tournamentUid pass op = pass)
    (hedits : EditsOf (getDecksForTournament objects tournamentUid) pubs) :
    storedDecks (applyDeckOps client store tournamentUid (getDecksByTournament store tournamentUid)
        (op :: pubs)).store tournamentUid =
      evictingPutAll slotOf (liveDecks objects tournamentUid)
        (editWrites (liveDecks objects tournamentUid) pubs) := by
  rw [applyDeckOps, List.foldl_cons, hop, ← hsync.stored_eq]
  refine (client_run hsync hedits _ hsync.keyed fun _ _ _ _ _ => rfl).trans ?_
  rw [hsync.stored_eq]

theorem publication_write (hsync : Synced objects store tournamentUid) {p : StoredDeck → Bool}
    (htail : TailOf (getDecksForTournament objects tournamentUid) p pubs) :
    ∀ w ∈ editWrites (liveDecks objects tournamentUid) pubs,
      ∃ d ∈ getDecksForTournament objects tournamentUid, d.uid = w.1 ∧ p d = false ∧
        slotOf w.2 = slotOf d.face := by
  intro w hw
  obtain ⟨v, hv, hslot⟩ := constant_slotOf _ htail.keep w hw
  obtain ⟨-, hnamed⟩ := (mem_editWrites _ pubs w.1).1 ⟨w, hw, rfl⟩
  obtain ⟨d, hrow, hlive, rfl⟩ := liveDecks_eq_some.1 hv
  have huid : d.uid = w.1 := hsync.wellKeyed.uid_eq hrow
  have hd : d ∈ getDecksForTournament objects tournamentUid :=
    (mem_getDecksForTournament hsync.wellKeyed).2 ⟨huid ▸ hrow, hlive⟩
  rw [← huid] at hnamed
  exact ⟨d, hd, huid, htail.spared d hd hnamed, hslot.symm⟩

theorem slotOf_uploadedFace (hplayer : playerUid ≠ "") :
    slotOf (uploadedFace playerUid upload isPublic isWinner) = some (playerUid, upload.round) :=
  if_neg hplayer

theorem slotOf_face_eq_iff (hplayer : playerUid ≠ "") :
    slotOf d.face = slotOf (uploadedFace playerUid upload isPublic isWinner) ↔
      inSlot playerUid upload.round d = true := by
  rw [inSlot_iff]
  constructor
  · intro h
    have hsome : slotOf d.face ≠ none := by
      rw [h, slotOf_uploadedFace hplayer]
      exact Option.some_ne_none _
    obtain ⟨huser, hround, -⟩ := slotOf_eq h hsome
    exact ⟨huser, hround⟩
  · rintro ⟨huser, hround⟩
    exact slotOf_congr huser hround

theorem keptApart_upsert_iff
    (htail : TailOf (getDecksForTournament objects tournamentUid)
      (inSlot playerUid upload.round) pubs)
    (hplayer : playerUid ≠ "") :
    KeptApart (getDecksForTournament objects tournamentUid)
        (.upsert playerUid upload isPublic isWinner isPrivate multideck :: pubs) ↔
      ∀ d ∈ getDecksForTournament objects tournamentUid,
        inSlot playerUid upload.round d = true ∨ Named pubs d →
          Alone (getDecksForTournament objects tournamentUid) d := by
  rw [keptApart_cons_iff rfl htail.edits htail.keep]
  simp only [rewrites, bne_iff_ne.2 hplayer, Bool.true_and]

theorem alike_upsert_new_iff (hsync : Synced objects store tournamentUid) (hplayer : playerUid ≠ "")
    (htail : TailOf (getDecksForTournament objects tournamentUid)
      (inSlot playerUid upload.round) pubs)
    (hfresh : liveDecks objects tournamentUid (env.freshUid 0) = none)
    (hrandom : liveDecks objects tournamentUid (client.randomUid 0) = none)
    (hnone : ∀ d ∈ getDecksForTournament objects tournamentUid,
      inSlot playerUid upload.round d = false) :
    AppliedAlike env objects client store tournamentUid
        (.upsert playerUid upload isPublic isWinner isPrivate multideck :: pubs) ↔
      KeptApart (getDecksForTournament objects tournamentUid)
        (.upsert playerUid upload isPublic isWinner isPrivate multideck :: pubs) := by
  set S := liveDecks objects tournamentUid with hS
  set W := editWrites S pubs with hW
  set f := uploadedFace playerUid upload isPublic isWinner with hf
  have hwrite := publication_write hsync htail
  have hkey : ∀ u, S u = none → ∀ w ∈ W, w.1 ≠ u := by
    rintro u hu w hw rfl
    obtain ⟨d, hd, huid, -⟩ := hwrite w hw
    rw [← huid, hS, (live_of_mem hsync.wellKeyed hd).2] at hu
    cases hu
  have hfree : ∀ k v, S k = some v → slotOf v ≠ none → slotOf v ≠ slotOf f := by
    intro k v hv _ hslot
    obtain ⟨d, hrow, hlive, rfl⟩ := liveDecks_eq_some.1 hv
    have huid : d.uid = k := hsync.wellKeyed.uid_eq hrow
    have hd := (mem_getDecksForTournament hsync.wellKeyed).2 ⟨huid ▸ hrow, hlive⟩
    have hin := (slotOf_face_eq_iff hplayer).1 hslot
    rw [hnone d hd] at hin
    cases hin
  have hnew : ∀ list : List StoredDeck, (∀ d ∈ list, inSlot playerUid upload.round d = false) →
      list.find? (inSlot playerUid upload.round) = none := fun list hall =>
    List.find?_eq_none.2 fun d hd => by rw [hall d hd]; exact Bool.false_ne_true
  have hserver : liveDecks (processDeckOps env objects tournamentUid
      (.upsert playerUid upload isPublic isWinner isPrivate multideck :: pubs)) tournamentUid =
      put (putAll S W) (env.freshUid 0, f) :=
    (server_upsert_new hsync.wellKeyed htail (hnew _ hnone)).trans (putAll_put_comm (hkey _ hfresh))
  have hclient : storedDecks (applyDeckOps client store tournamentUid
      (getDecksByTournament store tournamentUid)
      (.upsert playerUid upload isPublic isWinner isPrivate multideck ::
        pubs)).store tournamentUid =
      put (evictingPutAll slotOf S W) (client.randomUid 0, f) := by
    have hfind : ((getDecksByTournament store tournamentUid).find?
        (inSlot playerUid upload.round)) = none :=
      hnew _ fun d hd => hnone d (hsync.decks.mem_iff.1 hd)
    refine (client_upsert hsync hplayer htail
      (by rw [hfind, Option.map_none, Option.getD_none])).trans
      ?_
    rw [evictingPut_eq_put fun k _ v hv => hfree k v hv]
    refine evictingPutAll_put_comm (fun w hw => ⟨hkey _ hrandom w hw, fun hslot => ?_⟩) hfree
    obtain ⟨d, hd, -, hspared, hsame⟩ := hwrite w hw
    rw [hsame, slotOf_face_eq_iff hplayer, hspared] at hslot
    cases hslot
  have hleaves : Leaves env objects client store tournamentUid
      (.upsert playerUid upload isPublic isWinner isPrivate multideck :: pubs) _ _ :=
    ⟨hserver, hclient⟩
  obtain ⟨lS, lC, hlS, hlC, hiff⟩ := hleaves.alike_iff hsync
  have hPnone : putAll S W (env.freshUid 0) = none :=
    (putAll_of_not_mem (hkey _ hfresh)).trans hfresh
  have hEnone : evictingPutAll slotOf S W (client.randomUid 0) = none :=
    evictingPutAll_eq_none hrandom (hkey _ hrandom)
  obtain ⟨l₀, hl₀, hpermS⟩ := hlS.of_put hPnone
  obtain ⟨l₁, hl₁, hpermC⟩ := hlC.of_put hEnone
  have halone : KeptApart (getDecksForTournament objects tournamentUid)
      (.upsert playerUid upload isPublic isWinner isPrivate multideck :: pubs) ↔
      Apart slotOf S W := by
    rw [keptApart_upsert_iff htail hplayer, hW, apart_iff_alone hsync.wellKeyed htail.keep
      (Sub.refl _) fun d _ _ e he _ _ => (live_of_mem hsync.wellKeyed he).2]
    refine forall₂_congr fun d hd => ?_
    rw [hnone d hd]
    simp only [Bool.false_eq_true, false_or]
  rw [halone, hiff]
  rcases (constant_slotOf S htail.keep).settled.eq_or_lost with ⟨hapart, heq⟩ | ⟨hapart, k, hk, hk'⟩
  · refine iff_of_true ⟨?_, fun d hd _ => ?_⟩ hapart
    · rw [heq] at hl₁
      have hrest := ((hl₁.perm hl₀).map Prod.snd).cons f
      exact (hpermC.map Prod.snd).trans (hrest.trans (hpermS.map Prod.snd).symm)
    · have hlive : putAll S W d.uid ≠ none := by
        rw [putAll_editWrites, hS, (live_of_mem hsync.wellKeyed hd).2]
        exact Option.some_ne_none _
      have hput : ∀ w : Uid × LiveDeck, put (putAll S W) w d.uid ≠ none := fun w => by
        by_cases hw : d.uid = w.1
        · rw [hw, put_same]
          exact Option.some_ne_none _
        · rw [put_ne hw]
          exact hlive
      rw [heq]
      exact ⟨hput _, hput _⟩
  · refine iff_of_false (fun h => ?_) hapart
    have hlen := h.1.length_eq
    have hless := hl₀.length_lt hl₁
      (fun u hu hnone => hu (((Sub.refl S).writes W).eq_none hnone)) hk hk'
    rw [List.length_map, List.length_map, hpermC.length_eq, hpermS.length_eq, List.length_cons,
      List.length_cons] at hlen
    omega

theorem apart_head_iff (hsync : Synced objects store tournamentUid)
    (hd : d ∈ getDecksForTournament objects tournamentUid) :
    (∀ k ≠ d.uid, ∀ v v', liveDecks objects tournamentUid d.uid = some v →
        liveDecks objects tournamentUid k = some v' → slotOf v ≠ none → slotOf v' ≠ slotOf v) ↔
      Alone (getDecksForTournament objects tournamentUid) d := by
  have hlive : ∀ e ∈ getDecksForTournament objects tournamentUid,
      liveDecks objects tournamentUid e.uid = some e.face :=
    fun e he => (live_of_mem hsync.wellKeyed he).2
  constructor
  · intro hall e he hne hsame hsome hround
    exact hall e.uid hne _ _ (hlive d hd) (hlive e he) (slotOf_ne_none.2 hsome)
      (slotOf_congr hsame hround)
  · intro halone k hk v v' hv hv' hsome hsame
    obtain rfl : d.face = v := Option.some.inj ((hlive d hd).symm.trans hv)
    obtain ⟨e, hrow, helive, rfl⟩ := liveDecks_eq_some.1 hv'
    have huid : e.uid = k := hsync.wellKeyed.uid_eq hrow
    have he := (mem_getDecksForTournament hsync.wellKeyed).2 ⟨huid ▸ hrow, helive⟩
    obtain ⟨heq, hround, -⟩ := slotOf_eq hsame (hsame ▸ hsome)
    exact halone e he (huid ▸ hk) heq (slotOf_ne_none.1 hsome) hround

theorem apart_upsert_iff (isPublic isWinner isPrivate multideck : Bool)
    (hsync : Synced objects store tournamentUid) (hplayer : playerUid ≠ "")
    (htail : TailOf (getDecksForTournament objects tournamentUid)
      (inSlot playerUid upload.round) pubs)
    (hd : d ∈ getDecksForTournament objects tournamentUid)
    (hslot : inSlot playerUid upload.round d = true) :
    Constant slotOf (liveDecks objects tournamentUid)
        ((d.uid, uploadedFace playerUid upload isPublic isWinner) ::
          editWrites (liveDecks objects tournamentUid) pubs) ∧
      (Apart slotOf (liveDecks objects tournamentUid)
          ((d.uid, uploadedFace playerUid upload isPublic isWinner) ::
            editWrites (liveDecks objects tournamentUid) pubs) ↔
        KeptApart (getDecksForTournament objects tournamentUid)
          (.upsert playerUid upload isPublic isWinner isPrivate multideck :: pubs)) := by
  set S := liveDecks objects tournamentUid with hS
  have hlive : ∀ e ∈ getDecksForTournament objects tournamentUid, S e.uid = some e.face :=
    fun e he => (live_of_mem hsync.wellKeyed he).2
  have hconst : Constant slotOf S ((d.uid, uploadedFace playerUid upload isPublic isWinner) ::
      editWrites S pubs) :=
    List.forall_mem_cons.2 ⟨⟨d.face, hlive d hd, (slotOf_face_eq_iff hplayer).2 hslot⟩,
      constant_slotOf S htail.keep⟩
  refine ⟨hconst, ?_⟩
  have hrest := (constant_slotOf S htail.keep).apart_iff
  rw [apart_iff_alone hsync.wellKeyed htail.keep (Sub.refl _)
    fun d _ _ e he _ _ => hlive e he] at hrest
  have huser := (inSlot_iff.1 hslot).1
  rw [hconst.apart_iff, List.forall_mem_cons, apart_head_iff hsync hd, ← hrest,
    keptApart_upsert_iff htail hplayer]
  constructor
  · rintro ⟨halone, hall⟩ e he (hin | hnamed)
    · by_cases hne : d.uid = e.uid
      · rwa [← List.inj_on_of_nodup_map hsync.decks_nodup hd he hne]
      · obtain ⟨heuser, heround⟩ := inSlot_iff.1 hin
        obtain ⟨-, hdround⟩ := inSlot_iff.1 hslot
        exact absurd (heround.trans hdround.symm)
          (halone e he (Ne.symm hne) (heuser.trans huser.symm) (huser ▸ hplayer))
    · exact hall e he hnamed
  · intro hall
    exact ⟨hall d hd (.inl hslot), fun e he hnamed => hall e he (.inr hnamed)⟩

theorem alike_upsert_stored_iff (hsync : Synced objects store tournamentUid)
    (hplayer : playerUid ≠ "")
    (htail : TailOf (getDecksForTournament objects tournamentUid)
      (inSlot playerUid upload.round) pubs)
    (hfind : (getDecksForTournament objects tournamentUid).find? (inSlot playerUid upload.round) =
      some d)
    (hfind' : (getDecksByTournament store tournamentUid).find? (inSlot playerUid upload.round) =
      some d') :
    AppliedAlike env objects client store tournamentUid
        (.upsert playerUid upload isPublic isWinner isPrivate multideck :: pubs) ↔
      KeptApart (getDecksForTournament objects tournamentUid)
        (.upsert playerUid upload isPublic isWinner isPrivate multideck :: pubs) := by
  have hd := List.mem_of_find?_eq_some hfind
  have hd' := hsync.decks.mem_iff.1 (List.mem_of_find?_eq_some hfind')
  have hin := List.find?_some hfind
  have hin' := List.find?_some hfind'
  have hlive : ∀ e ∈ getDecksForTournament objects tournamentUid,
      liveDecks objects tournamentUid e.uid = some e.face :=
    fun e he => (live_of_mem hsync.wellKeyed he).2
  obtain ⟨hconst, hapart⟩ :=
    apart_upsert_iff isPublic isWinner isPrivate multideck hsync hplayer htail hd' hin'
  set S := liveDecks objects tournamentUid with hS
  set f := uploadedFace playerUid upload isPublic isWinner with hf
  have hleaves : Leaves env objects client store tournamentUid
      (.upsert playerUid upload isPublic isWinner isPrivate multideck :: pubs)
      (putAll S ((d.uid, f) :: editWrites S pubs))
      (evictingPutAll slotOf S ((d'.uid, f) :: editWrites S pubs)) :=
    ⟨server_upsert_stored hsync.wellKeyed htail hfind,
      client_upsert hsync hplayer htail (by rw [hfind', Option.map_some, Option.getD_some])⟩
  by_cases hsame : d = d'
  · subst hsame
    rw [← hapart]
    refine hleaves.alike_iff_apart hsync hconst.settled fun e he _ => ?_
    rw [hlive e he]
    exact Option.some_ne_none _
  · have hne : d.uid ≠ d'.uid := fun heq =>
      hsame (List.inj_on_of_nodup_map hsync.decks_nodup hd hd' heq)
    obtain ⟨huser, hround⟩ := inSlot_iff.1 hin
    obtain ⟨huser', hround'⟩ := inSlot_iff.1 hin'
    obtain ⟨hconstS, -⟩ :=
      apart_upsert_iff isPublic isWinner isPrivate multideck hsync hplayer htail hd hin
    have hkeys : ∀ k, putAll S ((d'.uid, f) :: editWrites S pubs) k = none ↔
        putAll S ((d.uid, f) :: editWrites S pubs) k = none := fun k =>
      hconst.putAll_eq_none.trans hconstS.putAll_eq_none.symm
    refine iff_of_false (hleaves.not_alike hsync (fun k hk hnone => ?_) ?_) fun hkept => ?_
    · exact hk (((Sub.refl S).writes _).eq_none ((hkeys k).2 hnone))
    · have hend : ∀ e ∈ getDecksForTournament objects tournamentUid,
          inSlot playerUid upload.round e = true →
          ∃ v, putAll S ((d'.uid, f) :: editWrites S pubs) e.uid = some v ∧
            slotOf v = slotOf f := by
        intro e he hslot
        have hkept := hconst.slot_putAll e.uid
        rw [hlive e he, Option.map_some, (slotOf_face_eq_iff hplayer).2 hslot,
          Option.map_eq_some_iff] at hkept
        exact hkept
      obtain ⟨v, hv, hslot⟩ := hend d' hd' hin'
      obtain ⟨v', hv', hslot'⟩ := hend d hd hin
      rw [slotOf_uploadedFace hplayer] at hslot hslot'
      obtain ⟨x, hx, hlost⟩ :=
        lost_of_shared (Sub.refl S) ⟨_, List.mem_cons_self .., rfl⟩ hne hv hv' hslot hslot'
      exact ⟨x, mt (hkeys x).2 hx, hlost⟩
    · rw [keptApart_upsert_iff htail hplayer] at hkept
      exact hkept d' hd' (.inl hin') d hd hne (huser.trans huser'.symm) (huser' ▸ hplayer)
        (hround.trans hround'.symm)

/-! ### What the client passes over -/

theorem keptApart_skipped_iff (hsync : Synced objects store tournamentUid) {op : DeckOp}
    (hop : edit op = none) (hnever : ∀ d, rewrites op d = false)
    (hedits : EditsOf (getDecksForTournament objects tournamentUid) pubs) (hkeep : KeepSlots pubs) :
    KeptApart (getDecksForTournament objects tournamentUid) (op :: pubs) ↔
      Apart slotOf (liveDecks objects tournamentUid)
        (editWrites (liveDecks objects tournamentUid) pubs) := by
  rw [keptApart_cons_iff hop hedits hkeep, apart_iff_alone hsync.wellKeyed hkeep
    (Sub.refl _) fun d _ _ e he _ _ => (live_of_mem hsync.wellKeyed he).2]
  simp only [hnever, Bool.false_eq_true, false_or]

theorem not_alike_delete_skipped (hsync : Synced objects store tournamentUid)
    (htail : TailOf (getDecksForTournament objects tournamentUid) (takenBy "" deckIndex multideck)
      pubs)
    (hd : d ∈ getDecksForTournament objects tournamentUid)
    (htaken : takenBy "" deckIndex multideck d = true) :
    ¬AppliedAlike env objects client store tournamentUid
      (.delete "" deckIndex multideck :: pubs) := by
  have hleaves : Leaves env objects client store tournamentUid
      (.delete "" deckIndex multideck :: pubs) _ _ :=
    ⟨server_delete hsync.wellKeyed htail,
      client_passes_over hsync applyDeckOp_delete_nobody htail.edits⟩
  obtain ⟨lS, lC, hlS, hlC, hiff⟩ := hleaves.alike_iff hsync
  have hempty : d.userUid = "" := by
    rw [takenBy, Bool.and_eq_true, beq_iff_eq] at htaken
    exact htaken.1
  have hclient : d.face ∈ lC.map Prod.snd := by
    refine List.mem_map.2 ⟨(d.uid, d.face), (hlC.mem _ _).2 ?_, rfl⟩
    refine evictingPutAll_of_slotless (live_of_mem hsync.wellKeyed hd).2 (if_pos hempty) ?_
    intro w hw hkey
    obtain ⟨e, he, huid, hspared, -⟩ := publication_write hsync htail w hw
    rw [List.inj_on_of_nodup_map hsync.decks_nodup he hd (huid.trans hkey), htaken] at hspared
    cases hspared
  intro halike
  obtain ⟨⟨u, f⟩, hmem, hf⟩ := List.mem_map.1 ((hiff.1 halike).1.mem_iff.1 hclient)
  have hserver := (hlS.mem u f).1 hmem
  rw [htail.writes_without hsync.wellKeyed, putAll_editWrites, Option.map_eq_some_iff] at hserver
  obtain ⟨g, hg, rfl⟩ := hserver
  have huser : g.userUid = d.userUid := by
    rw [← editAll_userUid pubs u g]
    exact congrArg LiveDeck.userUid hf
  have hround : g.round = d.round := by
    rw [← roundAfter_of_keepSlots htail.keep u g.round, ← editAll_round pubs u g]
    exact congrArg LiveDeck.round hf
  rw [without] at hg
  split at hg
  · cases hg
  · rename_i hkept
    obtain ⟨e, hrow, hlive, rfl⟩ := liveDecks_eq_some.1 hg
    have heu : e.uid = u := hsync.wellKeyed.uid_eq hrow
    have he := (mem_getDecksForTournament hsync.wellKeyed).2 ⟨heu ▸ hrow, hlive⟩
    refine hkept (heu ▸ (mem_uidsOf hsync.decks_nodup he).2 ?_)
    have huser' : e.userUid = d.userUid := huser
    have hround' : e.round = d.round := hround
    rw [takenBy, huser', hround']
    exact htaken

theorem alike_delete_skipped_iff (hsync : Synced objects store tournamentUid)
    (htail : TailOf (getDecksForTournament objects tournamentUid) (takenBy "" deckIndex multideck)
      pubs) :
    AppliedAlike env objects client store tournamentUid (.delete "" deckIndex multideck :: pubs) ↔
      KeptApart (getDecksForTournament objects tournamentUid)
          (.delete "" deckIndex multideck :: pubs) ∧
        NothingSkipped (getDecksForTournament objects tournamentUid)
          (.delete "" deckIndex multideck :: pubs) := by
  rw [keptApart_skipped_iff hsync rfl (fun _ => rfl) htail.edits htail.keep,
    nothingSkipped_cons_iff htail.edits]
  by_cases hidle : ∀ d ∈ getDecksForTournament objects tournamentUid,
      takenBy "" deckIndex multideck d = false
  · have hnone : uidsOf (getDecksForTournament objects tournamentUid)
        (takenBy "" deckIndex multideck) = [] := by
      rw [uidsOf, List.map_eq_nil_iff, List.filter_eq_nil_iff]
      exact fun d hd => by rw [hidle d hd]; exact Bool.false_ne_true
    have hleaves : Leaves env objects client store tournamentUid
        (.delete "" deckIndex multideck :: pubs) _ _ :=
      ⟨server_delete hsync.wellKeyed htail,
        client_passes_over hsync applyDeckOp_delete_nobody htail.edits⟩
    rw [hnone, without_nil] at hleaves
    rw [hleaves.alike_iff_apart hsync (constant_slotOf _ htail.keep).settled fun d hd _ => by
      rw [(live_of_mem hsync.wellKeyed hd).2]; exact Option.some_ne_none _]
    exact (and_iff_left fun _ => hidle).symm
  · refine iff_of_false ?_ fun h => hidle (h.2 rfl)
    push Not at hidle
    obtain ⟨d, hd, htaken⟩ := hidle
    exact not_alike_delete_skipped hsync htail hd (by simpa using htaken)

theorem alike_upsert_skipped_iff (hsync : Synced objects store tournamentUid)
    (htail : TailOf (getDecksForTournament objects tournamentUid) (inSlot "" upload.round) pubs)
    (hfresh : liveDecks objects tournamentUid (env.freshUid 0) = none) :
    AppliedAlike env objects client store tournamentUid
        (.upsert "" upload isPublic isWinner isPrivate multideck :: pubs) ↔
      KeptApart (getDecksForTournament objects tournamentUid)
          (.upsert "" upload isPublic isWinner isPrivate multideck :: pubs) ∧
        NothingSkipped (getDecksForTournament objects tournamentUid)
          (.upsert "" upload isPublic isWinner isPrivate multideck :: pubs) := by
  rw [keptApart_skipped_iff hsync rfl (fun _ => rfl) htail.edits htail.keep,
    nothingSkipped_cons_iff htail.edits]
  set S := liveDecks objects tournamentUid with hS
  set f := uploadedFace "" upload isPublic isWinner with hf
  have hclient : storedDecks (applyDeckOps client store tournamentUid
      (getDecksByTournament store tournamentUid)
      (.upsert "" upload isPublic isWinner isPrivate multideck :: pubs)).store tournamentUid =
      evictingPutAll slotOf S (editWrites S pubs) :=
    client_passes_over hsync applyDeckOp_upsert_nobody htail.edits
  have hlive : ∀ d ∈ getDecksForTournament objects tournamentUid, S d.uid = some d.face :=
    fun d hd => (live_of_mem hsync.wellKeyed hd).2
  have hset := (constant_slotOf S htail.keep).settled
  cases hfind : (getDecksForTournament objects tournamentUid).find? (inSlot "" upload.round) with
  | some d =>
    have hd := List.mem_of_find?_eq_some hfind
    have hkey : ∀ w ∈ editWrites S pubs, w.1 ≠ d.uid := by
      intro w hw heq
      obtain ⟨e, he, huid, hspared, -⟩ := publication_write hsync htail w hw
      rw [List.inj_on_of_nodup_map hsync.decks_nodup he hd (huid.trans heq),
        List.find?_some hfind] at hspared
      cases hspared
    have hbefore : putAll S (editWrites S pubs) d.uid = some d.face :=
      (putAll_of_not_mem hkey).trans (hlive d hd)
    have hleaves : Leaves env objects client store tournamentUid
        (.upsert "" upload isPublic isWinner isPrivate multideck :: pubs)
        (put (putAll S (editWrites S pubs)) (d.uid, f)) _ :=
      ⟨(server_upsert_stored hsync.wellKeyed htail hfind).trans (putAll_put_comm hkey), hclient⟩
    have hidle : idleWhenSkipped (getDecksForTournament objects tournamentUid)
        (.upsert "" upload isPublic isWinner isPrivate multideck) ↔ d.face = f := by
      rw [idleWhenSkipped, hfind, Option.map_some, Option.some.injEq]
      exact ⟨fun h => h rfl, fun h _ => h⟩
    rw [hidle]
    rcases hset.eq_or_lost with ⟨hapart, heq⟩ | ⟨hapart, k, hk, hk'⟩
    · rw [and_iff_right hapart]
      constructor
      · intro halike
        obtain ⟨lS, lC, hlS, hlC, hiff⟩ := hleaves.alike_iff hsync
        rw [heq, ← put_eq_self (w := (d.uid, d.face)) hbefore] at hlC
        exact hlC.value_eq hlS (hiff.1 halike).1
      · intro hface
        have hsame : put (putAll S (editWrites S pubs)) (d.uid, f) = putAll S (editWrites S pubs) :=
          put_eq_self (w := (d.uid, f)) (hbefore.trans (congrArg some hface))
        refine hleaves.alike_of_eq hsync (heq.trans hsame.symm) fun e he _ => ?_
        rw [hsame, putAll_editWrites, hlive e he]
        exact Option.some_ne_none _
    · have hdom : ∀ u, put (putAll S (editWrites S pubs)) (d.uid, f) u = none →
          putAll S (editWrites S pubs) u = none := by
        intro u hu
        by_cases hud : u = d.uid
        · rw [hud, put_same (w := (d.uid, f))] at hu
          cases hu
        · rwa [put_ne (w := (d.uid, f)) hud] at hu
      refine iff_of_false (hleaves.not_alike hsync (fun u hu hnone => ?_) ?_) fun h => hapart h.1
      · exact hu (((Sub.refl S).writes _).eq_none (hdom u hnone))
      · exact ⟨k, mt (hdom k) hk, hk'⟩
  | none =>
    have hkey : ∀ w ∈ editWrites S pubs, w.1 ≠ env.freshUid 0 := by
      intro w hw heq
      obtain ⟨e, he, huid, -⟩ := publication_write hsync htail w hw
      rw [← heq, ← huid, hlive e he] at hfresh
      cases hfresh
    have hleaves : Leaves env objects client store tournamentUid
        (.upsert "" upload isPublic isWinner isPrivate multideck :: pubs)
        (put (putAll S (editWrites S pubs)) (env.freshUid 0, f)) _ :=
      ⟨(server_upsert_new hsync.wellKeyed htail hfind).trans (putAll_put_comm hkey), hclient⟩
    have hnone : putAll S (editWrites S pubs) (env.freshUid 0) = none :=
      (putAll_of_not_mem hkey).trans hfresh
    refine iff_of_false (hleaves.not_alike hsync (fun u hu => ?_) ⟨env.freshUid 0, ?_, ?_⟩)
      fun h => ?_
    · by_cases huf : u = env.freshUid 0
      · rw [huf, put_same (w := (env.freshUid 0, f))]
        exact Option.some_ne_none _
      · rw [put_ne (w := (env.freshUid 0, f)) huf]
        exact fun h => hu (((Sub.refl S).writes _).eq_none h)
    · rw [put_same (w := (env.freshUid 0, f))]
      exact Option.some_ne_none _
    · exact ((Sub.refl S).writes _).eq_none hnone
    · have hsome := h.2 rfl
      rw [hfind] at hsome
      cases hsome

/-! ### Views -/

theorem alike_logView_iff (hsync : Synced objects store tournamentUid) {userUid : Uid} {round : ℕ}
    (hd : d ∈ getDecksForTournament objects tournamentUid) :
    AppliedAlike env objects client store tournamentUid [.logView d.uid userUid round] ↔
      KeptApart (getDecksForTournament objects tournamentUid) [.logView d.uid userUid round] := by
  set S := liveDecks objects tournamentUid with hS
  have hlive : ∀ e ∈ getDecksForTournament objects tournamentUid, S e.uid = some e.face :=
    fun e he => (live_of_mem hsync.wellKeyed he).2
  have hserver : liveDecks (processDeckOps env objects tournamentUid [.logView d.uid userUid round])
      tournamentUid = S := liveDecks_logView fun e he => live_of_mem hsync.wellKeyed he
  have hkept : KeptApart (getDecksForTournament objects tournamentUid)
      [.logView d.uid userUid round] ↔
      (rewrites (.logView d.uid userUid round) d = true →
        Alone (getDecksForTournament objects tournamentUid) d) := by
    have hnil : EditsOf (getDecksForTournament objects tournamentUid) [] :=
      fun _ hop => absurd hop List.not_mem_nil
    rw [keptApart_cons_iff rfl hnil fun _ hop => absurd hop List.not_mem_nil]
    constructor
    · exact fun hall hwrites => hall d hd (.inl hwrites)
    · rintro hd' e he (hwrites | ⟨_, hop, -⟩)
      · have huid : e.uid = d.uid := by
          simp only [rewrites, Bool.and_eq_true, beq_iff_eq] at hwrites
          exact hwrites.1.1
        have hed := List.inj_on_of_nodup_map hsync.decks_nodup he hd huid
        subst hed
        exact hd' hwrites
      · exact absurd hop List.not_mem_nil
  have hclient : storedDecks (applyDeckOps client store tournamentUid
      (getDecksByTournament store tournamentUid) [.logView d.uid userUid round]).store
      tournamentUid = if rewrites (.logView d.uid userUid round) d = true then
        evictingPutAll slotOf S [(d.uid, d.face)] else S := by
    rw [hS, ← hsync.stored_eq]
    by_cases huser : userUid = ""
    · have hskip : rewrites (.logView d.uid userUid round) d = false := by simp [rewrites, huser]
      rw [hskip, if_neg Bool.false_ne_true]
      simp only [applyDeckOps, List.foldl_cons, List.foldl_nil, applyDeckOp, huser, or_true,
        if_true]
    · have hview := storedDecks_logView client
        ⟨store, getDecksByTournament store tournamentUid, 0, []⟩ round hsync.keyed
        (hsync.named d hd) huser hsync.nodup (hsync.decks.mem_iff.2 hd) rfl
        (live_of_mem hsync.wellKeyed hd).1
      refine hview.trans ?_
      have hsame : rewrites (.logView d.uid userUid round) d =
          d.views.all fun v => v.userUid != userUid := by
        simp [rewrites, huser]
      rw [hsame]
      rfl
  rw [hkept]
  cases hwrites : rewrites (.logView d.uid userUid round) d with
  | false =>
    rw [hwrites, if_neg Bool.false_ne_true] at hclient
    have hleaves : Leaves env objects client store tournamentUid
        [.logView d.uid userUid round] S S :=
      ⟨hserver, hclient⟩
    refine iff_of_true (hleaves.alike_of_eq hsync rfl fun e he _ => ?_)
      fun h => absurd h Bool.false_ne_true
    rw [hlive e he]
    exact Option.some_ne_none _
  | true =>
    rw [hwrites, if_pos rfl] at hclient
    have hsame : putAll S [(d.uid, d.face)] = S := put_eq_self (w := (d.uid, d.face)) (hlive d hd)
    have hleaves : Leaves env objects client store tournamentUid [.logView d.uid userUid round]
        (putAll S [(d.uid, d.face)]) (evictingPutAll slotOf S [(d.uid, d.face)]) :=
      ⟨hserver.trans hsame.symm, hclient⟩
    have hconst : Constant slotOf S [(d.uid, d.face)] :=
      List.forall_mem_singleton.2 ⟨d.face, hlive d hd, rfl⟩
    rw [hleaves.alike_iff_apart hsync hconst.settled fun e he _ => by
      rw [hlive e he]; exact Option.some_ne_none _, hconst.apart_iff, List.forall_mem_singleton,
      apart_head_iff hsync hd]
    exact ⟨fun h _ => h, fun h => h rfl⟩

/-! ### Every accepted event -/

/-- The operations of an accepted event, over any decks of the tournament: client and server are
left alike exactly when no deck the client saves ends in the slot of another one of its player, and
what it passes over changes nothing. -/
theorem decksAlike_iff {rs : Seating.RandomSource} {t : Tournament} {i : EventInput}
    {r : Tournament × List DeckOp} (h : processTournamentEvent rs t i = .ok r)
    (hdecks : i.decks.Perm
      ((getDecksForTournament objects tournamentUid).map StoredDeck.toDeckObject))
    (hsync : Synced objects store tournamentUid) (hfresh : objects.lookup (env.freshUid 0) = none)
    (hrandom : store.lookup (client.randomUid 0) = none) :
    AppliedAlike env objects client store tournamentUid r.2 ↔
      KeptApart (getDecksForTournament objects tournamentUid) r.2 ∧
        NothingSkipped (getDecksForTournament objects tournamentUid) r.2 := by
  obtain ⟨base, pubs, hr, hbase, hpubs, t', hevent, -, hquiet⟩ :=
      emitted_of_processTournamentEvent h
  rw [hr]
  have hfresh' : liveDecks objects tournamentUid (env.freshUid 0) = none := by
    rw [liveDecks, Objects.find?, hfresh]
    rfl
  have hrandom' : liveDecks objects tournamentUid (client.randomUid 0) = none := by
    rw [← hsync.stored_eq, storedDecks, hrandom]
    rfl
  have hstored : ∀ d ∈ i.decks, ∃ e ∈ getDecksForTournament objects tournamentUid,
      e.toDeckObject = d := fun d hd => List.mem_map.1 (hdecks.mem_iff.1 hd)
  have hnodup : (i.decks.map DeckObject.uid).Nodup := by
    refine (hdecks.map DeckObject.uid).nodup_iff.2 ?_
    rw [List.map_map]
    exact hsync.decks_nodup
  have hread : ∀ d ∈ i.decks, liveDecks objects tournamentUid d.uid = some (faceOf d) := by
    intro d hd
    obtain ⟨e, he, rfl⟩ := hstored d hd
    exact (live_of_mem hsync.wellKeyed he).2
  cases hbase with
  | moves hmoves =>
    rename_i back on round
    have htail : TailOf (getDecksForTournament objects tournamentUid) (fun _ => false) pubs := by
      refine tailOf_publishes hdecks hpubs (fun d => ?_) hsync.decks_nodup
      simp [touchedDeck, releaseOp, stampOp]
    refine alike_edits_iff hsync (fun op hop => ?_)
      (settled_moves hmoves hread hnodup htail.keep)
    rcases List.mem_append.1 hop with hop | hop
    · obtain ⟨d, hd, next, rfl⟩ := hmoves.op hop
      obtain ⟨e, he, rfl⟩ := hstored d hd
      exact ⟨e, he, _, rfl⟩
    · exact htail.edits op hop
  | upsert uid deck upload isPublic isWinner isPrivate multideck _ _ =>
    have htail : TailOf (getDecksForTournament objects tournamentUid) (inSlot uid upload.round)
        pubs := tailOf_publishes hdecks hpubs (touchedDeck_upsert _ _ _ _ _ _) hsync.decks_nodup
    by_cases hplayer : uid = ""
    · subst hplayer
      exact alike_upsert_skipped_iff hsync htail hfresh'
    · have hidle : NothingSkipped (getDecksForTournament objects tournamentUid)
          (.upsert uid upload isPublic isWinner isPrivate multideck :: pubs) :=
        (nothingSkipped_cons_iff htail.edits).2 fun hempty => absurd hempty hplayer
      rw [List.singleton_append, and_iff_left hidle]
      cases hfind : (getDecksForTournament objects tournamentUid).find?
          (inSlot uid upload.round) with
      | none =>
        refine alike_upsert_new_iff hsync hplayer htail hfresh' hrandom' fun d hd => ?_
        simpa using List.find?_eq_none.1 hfind d hd
      | some d =>
        have hsome : ((getDecksByTournament store tournamentUid).find?
            (inSlot uid upload.round)).isSome = true := by
          refine List.find?_isSome.2 ⟨d, ?_, List.find?_some hfind⟩
          exact hsync.decks.mem_iff.2 (List.mem_of_find?_eq_some hfind)
        obtain ⟨d', hfind'⟩ := Option.isSome_iff_exists.1 hsome
        exact alike_upsert_stored_iff hsync hplayer htail hfind hfind'
  | delete uid deckIndex multideck =>
    have htail : TailOf (getDecksForTournament objects tournamentUid)
        (takenBy uid deckIndex multideck) pubs :=
      tailOf_publishes hdecks hpubs (touchedDeck_delete _ _ _) hsync.decks_nodup
    by_cases hplayer : uid = ""
    · subst hplayer
      exact alike_delete_skipped_iff hsync htail
    · exact alike_delete_iff hsync hplayer htail
  | setAttribution d uid attribution hd =>
    obtain ⟨e, he, rfl⟩ := hstored d hd
    have htail : TailOf (getDecksForTournament objects tournamentUid) (fun _ => false) pubs :=
      tailOf_publishes hdecks hpubs (fun _ => rfl) hsync.decks_nodup
    refine And.elim (fun hedits hkeep =>
      alike_edits_iff hsync hedits (constant_slotOf _ hkeep).settled) ?_
    exact htail.cons_edit he rfl fun _ => ⟨rfl, rfl⟩
  | setPrivate d isPrivate hd =>
    obtain ⟨e, he, rfl⟩ := hstored d hd
    have htail : TailOf (getDecksForTournament objects tournamentUid) (fun _ => false) pubs :=
      tailOf_publishes hdecks hpubs (fun _ => rfl) hsync.decks_nodup
    refine And.elim (fun hedits hkeep =>
      alike_edits_iff hsync hedits (constant_slotOf _ hkeep).settled) ?_
    exact htail.cons_edit he rfl fun _ => ⟨rfl, rfl⟩
  | logView d userUid round uid viewed he hd hstate =>
    obtain ⟨e, hmem, rfl⟩ := hstored d hd
    have hdoc : t' = t := by
      unfold applyEvent at hevent
      rw [he] at hevent
      exact viewDeck_doc hevent
    have hnone : pubs = [] := hquiet hstate (hdoc ▸ hstate)
    have hidle : NothingSkipped (getDecksForTournament objects tournamentUid)
        [.logView e.uid userUid round] := List.forall_mem_singleton.2 trivial
    rw [hnone, List.append_nil, and_iff_left hidle]
    exact alike_logView_iff hsync hmem

end Alike

/-! ### A round cancelled over a pending deck -/

/-- A multideck event whose first round is on. -/
def playedEvent : Tournament :=
  { createdTournament plainRequest "prince" with
    state := .playing
    players := ["a", "b", "c", "d"].map fun uid => Player.fresh uid .playing false none
    rounds := [[Table.fresh none ["a", "b", "c", "d"]]]
    config := fun f => if f = .multideck then .boolean true else .null }

def deckAt (uid : Uid) (round : Option ℕ) : StoredDeck :=
  { newDeck uid "event" "a" "" with round, content := ⟨uid, "", []⟩ }

def tablet : Client := ⟨"2026-05-02T10:00:00Z", fun _ => "random-uuid-0001", false⟩

/-- The table and the store with the decks. -/
def deckTable (decks : List StoredDeck) : Objects := decks.foldl Backend.saveDeck ∅

def deckStore (decks : List StoredDeck) : DeckStore := decks.foldl saveDeck ∅

theorem synced_of (decks : List StoredDeck)
    (hsame : (getDecksByTournament (deckStore decks) "event").Perm
      (getDecksForTournament (deckTable decks) "event"))
    (hnamed : ∀ d ∈ getDecksForTournament (deckTable decks) "event", d.uid ≠ "") :
    Synced (deckTable decks) (deckStore decks) "event" where
  wellKeyed := List.foldlRecOn decks Backend.saveDeck (motive := WellKeyed)
    (fun _ _ h => absurd h (by simp)) fun _ h d _ => wellKeyed_saveDeck h d
  keyed := List.foldlRecOn decks saveDeck (motive := KeyedDecks)
    (fun _ _ h => absurd h (by simp)) fun _ h d _ => keyedDecks_saveDeck h d
  decks := hsame
  named := hnamed

def cancelInput (decks : List StoredDeck) : EventInput :=
  ⟨.cancelRound none, organizer, [], decks.map StoredDeck.toDeckObject⟩

theorem cancelled_ops (decks : List StoredDeck) (ops : List DeckOp)
    (h : (processTournamentEvent fixedOrder playedEvent (cancelInput decks)).toOption.map Prod.snd =
      some ops) :
    ∃ r, processTournamentEvent fixedOrder playedEvent (cancelInput decks) = .ok r ∧ r.2 = ops := by
  cases hr : processTournamentEvent fixedOrder playedEvent (cancelInput decks) with
  | error e =>
    rw [hr] at h
    cases h
  | ok r =>
    rw [hr] at h
    exact ⟨r, rfl, Option.some.inj h⟩

/-- The player has uploaded a deck for the next round; cancelling the current one loses it on the
device of the organizer. -/
theorem pendingDeck_lost : ¬∀ (rs : Seating.RandomSource) (t : Tournament) (i : EventInput)
    (r : Tournament × List DeckOp), processTournamentEvent rs t i = .ok r →
    ∀ (env : Env) (objects : Objects) (client : Client) (store : DeckStore) (tournamentUid : Uid),
      i.decks.Perm ((getDecksForTournament objects tournamentUid).map StoredDeck.toDeckObject) →
      Synced objects store tournamentUid → objects.lookup (env.freshUid 0) = none →
      store.lookup (client.randomUid 0) = none →
      AppliedAlike env objects client store tournamentUid r.2 := by
  intro hall
  set decks := [deckAt "played" (some 0), deckAt "next" none] with hdecks
  obtain ⟨r, hr, hops⟩ := cancelled_ops decks [.setRound "played" none] (by decide +kernel)
  have hfresh : ∀ k, (deckTable decks).lookup (venue.freshUid k) = none := fun k =>
    (venue_fresh (by decide +kernel) (show "event".length < 11 by decide) k).1
  have halike := hall fixedOrder playedEvent _ r hr venue (deckTable decks) tablet
    (deckStore decks) "event" (by decide +kernel) (synced_of decks (by decide +kernel)
    (by decide +kernel)) (hfresh 0) (by decide +kernel)
  rw [hops] at halike
  have hlost := halike.client_keeps (deckAt "next" none) (by decide +kernel) (by decide +kernel)
  revert hlost
  decide +kernel

/-- Without the pending deck both sides release the deck alike. -/
theorem decksAlike_released :
    ∃ r, processTournamentEvent fixedOrder playedEvent
        (cancelInput [deckAt "played" (some 0)]) = .ok r ∧
      AppliedAlike venue (deckTable [deckAt "played" (some 0)]) tablet
        (deckStore [deckAt "played" (some 0)]) "event" r.2 := by
  obtain ⟨r, hr, hops⟩ :=
    cancelled_ops [deckAt "played" (some 0)] [.setRound "played" none] (by decide +kernel)
  have hfresh : (deckTable [deckAt "played" (some 0)]).lookup (venue.freshUid 0) = none :=
    (venue_fresh (by decide +kernel) (show "event".length < 11 by decide) 0).1
  refine ⟨r, hr, (decksAlike_iff hr (by decide +kernel) (synced_of _ (by decide +kernel)
    (by decide +kernel)) hfresh (by decide +kernel)).2 ⟨?_, ?_⟩⟩
  · rw [hops]
    intro d hd _ e he hne
    have hone : getDecksForTournament (deckTable [deckAt "played" (some 0)]) "event" =
        [deckAt "played" (some 0)] := by decide +kernel
    rw [hone, List.mem_singleton] at hd he
    rw [hd, he] at hne
    exact absurd rfl hne
  · rw [hops]
    exact List.forall_mem_singleton.2 trivial

end Archon.Frontend

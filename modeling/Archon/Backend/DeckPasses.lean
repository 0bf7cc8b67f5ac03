import Archon.Backend.DeckRuns
import Archon.Engine.DeckReads

/-!
# Deck operations save by save

`process_deck_ops` (`decks.py:47`) with every save on its own, as it runs outside the lock of the
tournament. Another request may save decks between any two of them.
-/

namespace Archon.Backend
open Engine

/-! ### One operation -/

/-- The decks with the saved ones in their places. -/
def replaced (existing saves : List StoredDeck) : List StoredDeck :=
  saves.foldl (fun ds d => ds.map fun e => if e.uid = d.uid then d else e) existing

def deckOf (deckUid : Uid) (d : StoredDeck) : Bool := d.uid == deckUid

/-- `decks.py:79-100`. -/
def uploaded (env : Env) (upload : DeckUpload) (isPublic isWinner isPrivate : Bool)
    (d : StoredDeck) : StoredDeck :=
  { d with
    round := upload.round
    content := upload.content
    attribution := upload.attribution.getD d.attribution
    isPublic, isWinner, isPrivate
    modified := env.now }

/-- The deck a view is added to. -/
def unviewed (deckUid userUid : Uid) (d : StoredDeck) : Bool :=
  d.uid == deckUid && d.deletedAt == none && d.views.all fun v => v.userUid != userUid

/-- What an operation saves, in order, over the decks it looks through. -/
def opSaves (env : Env) (tournamentUid : Uid) (existing : List StoredDeck) (created : ℕ) :
    DeckOp → List StoredDeck
  | .upsert playerUid upload isPublic isWinner isPrivate _ =>
    let d := (existing.find? (inSlot playerUid upload.round)).getD
      (newDeck (env.freshUid created) tournamentUid playerUid env.now)
    [uploaded env upload isPublic isWinner isPrivate d]
  | .delete playerUid deckIndex multideck =>
    (existing.filter (takenBy playerUid deckIndex multideck)).map fun d =>
      { d with deletedAt := some env.now, modified := env.now }
  | .setRound deckUid round =>
    ((existing.find? (deckOf deckUid)).map fun d => { d with round, modified := env.now }).toList
  | .setPublication deckUid isPublic isWinner =>
    ((existing.find? (deckOf deckUid)).map fun d =>
      { d with isPublic, isWinner, modified := env.now }).toList
  | .setAttribution deckUid _ attribution =>
    ((existing.find? (deckOf deckUid)).map fun d =>
      { d with attribution, modified := env.now }).toList
  | .setPrivate deckUid isPrivate =>
    ((existing.find? (deckOf deckUid)).map fun d =>
      { d with isPrivate, modified := env.now }).toList
  | .logView deckUid userUid round =>
    ((existing.find? (unviewed deckUid userUid)).map fun d =>
      { d with views := d.views ++ [⟨userUid, round⟩], modified := env.now }).toList

def isView : DeckOp → Bool
  | .logView .. => true
  | _ => false

/-- A view reads the decks again, under the lock (`decks.py:144-147`). -/
def opReads (objects : Objects) (tournamentUid : Uid) (existing : List StoredDeck) (op : DeckOp) :
    List StoredDeck :=
  if isView op = true then getDecksForTournament objects tournamentUid else existing

/-- An upload that finds no deck creates one. -/
def opCreates (existing : List StoredDeck) : DeckOp → Bool
  | .upsert playerUid upload .. => (existing.find? (inSlot playerUid upload.round)).isNone
  | _ => false

/-- The decks read before the operations, after one: created and viewed decks are not among them. -/
def opLeaves (existing saves : List StoredDeck) (op : DeckOp) : List StoredDeck :=
  if isView op = true ∨ opCreates existing op = true then existing else replaced existing saves

/-! ### A pass -/

/-- What is left of a pass: the saves of the operation under way, whether they are under the lock,
and the operations after it. -/
structure Pass where
  existing : List StoredDeck
  created : ℕ
  saves : List StoredDeck
  holds : Bool
  ops : List DeckOp

/-- The next operation is looked up; the saves come one by one. -/
def Pass.start (env : Env) (tournamentUid : Uid) (objects : Objects) (p : Pass) (op : DeckOp)
    (ops : List DeckOp) : Pass :=
  let saves := opSaves env tournamentUid (opReads objects tournamentUid p.existing op) p.created op
  { existing := opLeaves p.existing saves op
    created := p.created + (opCreates p.existing op).toNat
    saves := saves
    holds := isView op && !saves.isEmpty
    ops := ops }

/-- The table once the operations are through, run alone. -/
def finishOps (env : Env) (tournamentUid : Uid) (objects : Objects) (existing : List StoredDeck)
    (created : ℕ) : List DeckOp → Objects
  | [] => objects
  | op :: ops =>
    let saves := opSaves env tournamentUid (opReads objects tournamentUid existing op) created op
    finishOps env tournamentUid (saves.foldl saveDeck objects) (opLeaves existing saves op)
      (created + (opCreates existing op).toNat) ops

def Pass.finish (env : Env) (tournamentUid : Uid) (objects : Objects) (p : Pass) : Objects :=
  finishOps env tournamentUid (p.saves.foldl saveDeck objects) p.existing p.created p.ops

section Passes

variable {env : Env} {tournamentUid : Uid} {objects : Objects} {existing : List StoredDeck}
  {created : ℕ} {op : DeckOp} {ops : List DeckOp} {p : Pass} {d : StoredDeck}

/-! ### As one pass -/

theorem foldl_save (saves : List StoredDeck) (pass : DeckPass) :
    saves.foldl DeckPass.save pass =
      ⟨saves.foldl saveDeck pass.objects, replaced pass.existing saves, pass.created⟩ := by
  induction saves generalizing pass with
  | nil => rfl
  | cons d saves ih =>
    rw [List.foldl_cons, ih]
    rfl

theorem change_eq (objects : Objects) (existing : List StoredDeck) (created : ℕ)
    (q : StoredDeck → Bool) (f : StoredDeck → StoredDeck) :
    DeckPass.change ⟨objects, existing, created⟩ q f =
      ⟨(((existing.find? q).map f).toList).foldl saveDeck objects,
        replaced existing ((existing.find? q).map f).toList, created⟩ := by
  unfold DeckPass.change
  dsimp only
  cases existing.find? q with
  | none => rfl
  | some d => rfl

theorem processDeckOp_eq (hview : isView op = false) :
    processDeckOp env tournamentUid ⟨objects, existing, created⟩ op =
      ⟨(opSaves env tournamentUid existing created op).foldl saveDeck objects,
        opLeaves existing (opSaves env tournamentUid existing created op) op,
        created + (opCreates existing op).toNat⟩ := by
  cases op with
  | upsert playerUid upload isPublic isWinner isPrivate multideck =>
    have hslot : (existing.find? fun d => d.userUid == playerUid && d.round == upload.round) =
        existing.find? (inSlot playerUid upload.round) := rfl
    cases hfind : existing.find? (inSlot playerUid upload.round) with
    | none =>
      rw [processDeckOp, hslot, hfind]
      simp only [opSaves, opLeaves, opCreates, hfind]
      rfl
    | some d =>
      rw [processDeckOp, hslot, hfind]
      simp only [opSaves, opLeaves, opCreates, hfind]
      rfl
  | delete playerUid deckIndex multideck =>
    refine Eq.trans ?_ (foldl_save (opSaves env tournamentUid existing created
      (.delete playerUid deckIndex multideck)) ⟨objects, existing, created⟩)
    exact (List.foldl_map ..).symm
  | setRound | setPublication | setAttribution | setPrivate =>
    exact change_eq objects existing created _ _
  | logView => cases hview

theorem foldl_processDeckOp (h : ∀ op ∈ ops, isView op = false) :
    (ops.foldl (processDeckOp env tournamentUid) ⟨objects, existing, created⟩).objects =
      finishOps env tournamentUid objects existing created ops := by
  induction ops generalizing objects existing created with
  | nil => rfl
  | cons op ops ih =>
    rw [List.forall_mem_cons] at h
    rw [List.foldl_cons, processDeckOp_eq h.1, ih h.2, finishOps, opReads, if_neg (by simp [h.1])]

theorem viewed_alone (deckUid userUid : Uid) (round : ℕ) :
    processDeckOps env objects tournamentUid [.logView deckUid userUid round] =
      finishOps env tournamentUid objects (getDecksForTournament objects tournamentUid) 0
        [.logView deckUid userUid round] := by
  have hchange := change_eq objects (getDecksForTournament objects tournamentUid) 0
    (unviewed deckUid userUid) fun d =>
      { d with views := d.views ++ [⟨userUid, round⟩], modified := env.now }
  exact congrArg DeckPass.objects hchange

theorem view_alone {rs : Seating.RandomSource} {t : Tournament} {i : EventInput}
    {r : Tournament × List DeckOp} (h : processTournamentEvent rs t i = .ok r) :
    (∀ op ∈ r.2, isView op = false) ∨
      ∃ deckUid userUid round, r.2 = [.logView deckUid userUid round] := by
  obtain ⟨base, pubs, hops, hbase, hpubs, t', hevent, hdoc, hquiet⟩ :=
    emitted_of_processTournamentEvent h
  have hpublished : ∀ op ∈ pubs, isView op = false := by
    intro op hop
    obtain ⟨d, -, isPublic, isWinner, rfl, -⟩ := hpubs op hop
    rfl
  rw [hops]
  cases hbase with
  | moves hmoves =>
    refine .inl (List.forall_mem_append.2 ⟨fun op hop => ?_, hpublished⟩)
    obtain ⟨d, -, next, rfl⟩ := hmoves.op hop
    rfl
  | logView d userUid round uid viewed he hd hstate =>
    have hsame : t' = t := by
      unfold applyEvent at hevent
      rw [he] at hevent
      exact viewDeck_doc hevent
    rw [hquiet hstate (hsame ▸ hstate), List.append_nil]
    exact .inr ⟨_, _, _, rfl⟩
  | upsert | delete | setAttribution | setPrivate =>
    exact .inl (List.forall_mem_cons.2 ⟨rfl, hpublished⟩)

theorem processDeckOps_eq {rs : Seating.RandomSource} {t : Tournament} {i : EventInput}
    {r : Tournament × List DeckOp} (h : processTournamentEvent rs t i = .ok r) :
    processDeckOps env objects tournamentUid r.2 =
      finishOps env tournamentUid objects (getDecksForTournament objects tournamentUid) 0 r.2 := by
  rcases view_alone h with hnone | ⟨deckUid, userUid, round, hops⟩
  · exact foldl_processDeckOp hnone
  · rw [hops]
    exact viewed_alone deckUid userUid round

/-! ### The decks of some players -/

/-- The live decks of the tournament whose players are in `who`. -/
def decksOf (who : Uid → Bool) (objects : Objects) (tournamentUid : Uid) : List StoredDeck :=
  (getDecksForTournament objects tournamentUid).filter fun d => who d.userUid

theorem decks_saveDeck (h : WellKeyed objects) (d : StoredDeck) :
    (saveDeck objects d).decks = d :: objects.decks.filter fun e => e.uid != d.uid := by
  have hrest : (objects.rows.filter fun r => r.1 != d.uid).filterMap (fun r => r.2.object.asDeck) =
      objects.decks.filter fun e => e.uid != d.uid := by
    rw [Objects.decks, List.filterMap_filter, List.filter_filterMap]
    refine List.filterMap_congr fun r hr => ?_
    obtain ⟨k, o, deletedAt⟩ := r
    cases o with
    | deck e =>
      have huid : e.uid = k := h k _ (mem_rows.1 hr)
      rw [StoredObject.asDeck, Option.filter_some, huid]
    | _ => exact ite_self none
  rw [Objects.decks, saveDeck, rows_saveObject, ← hrest]
  rfl

theorem decksOf_saveDeck (h : WellKeyed objects) (who : Uid → Bool) (d : StoredDeck) :
    decksOf who (saveDeck objects d) tournamentUid =
      (if d.isLiveIn tournamentUid && who d.userUid then [d] else []) ++
        (decksOf who objects tournamentUid).filter fun e => e.uid != d.uid := by
  have hlive : getDecksForTournament (saveDeck objects d) tournamentUid =
      (if d.isLiveIn tournamentUid then [d] else []) ++
        (getDecksForTournament objects tournamentUid).filter fun e => e.uid != d.uid := by
    rw [getDecksForTournament, decks_saveDeck h, List.filter_cons, getDecksForTournament,
      List.filter_comm]
    cases hd : d.isLiveIn tournamentUid with
    | true => exact if_pos hd
    | false => exact if_neg (by rw [Bool.not_eq_true]; exact hd)
  rw [decksOf, hlive, List.filter_append, decksOf, List.filter_comm]
  congr 1
  cases d.isLiveIn tournamentUid <;> cases hwho : who d.userUid <;> simp [hwho]

/-! ### Rows of decks -/

/-- The row of the deck is a deck of its player. -/
def OnRow (objects : Objects) (d : StoredDeck) : Prop :=
  ∃ e, objects.find? d.uid = some (.deck e) ∧ e.userUid = d.userUid

/-- The deck has its row, or none. -/
def Admits (objects : Objects) (d : StoredDeck) : Prop :=
  OnRow objects d ∨ objects.lookup d.uid = none

/-- The operation is about a player in `who`, or about a stored deck of one. -/
def OnPlayers (who : Uid → Bool) (objects : Objects) : DeckOp → Prop
  | .upsert playerUid .. | .delete playerUid .. => who playerUid = true
  | .setRound deckUid _ | .setPublication deckUid .. | .setAttribution deckUid ..
  | .setPrivate deckUid _ | .logView deckUid .. =>
    ∃ e, objects.find? deckUid = some (.deck e) ∧ who e.userUid = true

/-- The decks read, to be saved and named by what is left of the pass have their rows, and those
still to be saved are of players in `who`. -/
structure Pass.Sound (who : Uid → Bool) (env : Env) (objects : Objects) (p : Pass) : Prop where
  keyed : WellKeyed objects
  read : ∀ d ∈ p.existing, OnRow objects d
  mine : ∀ d ∈ p.saves, who d.userUid = true
  saves : (∀ d ∈ p.saves, OnRow objects d) ∨
    ∃ d k, p.saves = [d] ∧ k < p.created ∧ d.uid = env.freshUid k ∧ objects.lookup d.uid = none
  ops : ∀ op ∈ p.ops, OnPlayers who objects op
  fresh : ∀ k, p.created ≤ k → objects.lookup (env.freshUid k) = none

section Rows

variable {who other : Uid → Bool} {x : StoredDeck} {saves : List StoredDeck}

theorem find?_saveDeck (objects : Objects) (d : StoredDeck) :
    (saveDeck objects d).find? d.uid = some (.deck d) := by
  rw [Objects.find?, saveDeck, saveObject, AList.lookup_insert]
  rfl

theorem lookup_saveDeck_ne {uid : Uid} (h : uid ≠ d.uid) :
    (saveDeck objects d).lookup uid = objects.lookup uid :=
  AList.lookup_insert_ne h

theorem OnRow.lookup_ne (h : OnRow objects d) : objects.lookup d.uid ≠ none := by
  obtain ⟨e, he, -⟩ := h
  intro hnone
  rw [Objects.find?, hnone] at he
  cases he

theorem OnRow.user_eq (h : OnRow objects d) (hx : OnRow objects x) (huid : d.uid = x.uid) :
    d.userUid = x.userUid := by
  obtain ⟨e, he, hd⟩ := h
  obtain ⟨e', he', hx⟩ := hx
  rw [huid, he'] at he
  cases he
  exact hd.symm.trans hx

theorem OnRow.kept (h : OnRow objects d) (hx : Admits objects x) :
    OnRow (saveDeck objects x) d := by
  by_cases huid : d.uid = x.uid
  · rcases hx with hx | hnone
    · exact ⟨x, huid ▸ find?_saveDeck objects x, (h.user_eq hx huid).symm⟩
    · exact absurd (huid ▸ hnone) h.lookup_ne
  · obtain ⟨e, he, huser⟩ := h
    exact ⟨e, (find?_congr (lookup_saveDeck_ne huid)).trans he, huser⟩

theorem OnPlayers.kept (hkeyed : WellKeyed objects) (h : OnPlayers who objects op)
    (hx : Admits objects x) : OnPlayers who (saveDeck objects x) op := by
  have hrow : ∀ uid, (∃ e, objects.find? uid = some (.deck e) ∧ who e.userUid = true) →
      ∃ e, (saveDeck objects x).find? uid = some (.deck e) ∧ who e.userUid = true := by
    rintro uid ⟨e, he, hwho⟩
    have huid : e.uid = uid := hkeyed.uid_eq he
    have hon : OnRow objects e := ⟨e, huid ▸ he, rfl⟩
    obtain ⟨e', he', huser⟩ := hon.kept hx
    exact ⟨e', huid ▸ he', huser ▸ hwho⟩
  cases op with
  | upsert | delete => exact h
  | _ => exact hrow _ h

theorem onRow_of_mem (hkeyed : WellKeyed objects)
    (hd : d ∈ getDecksForTournament objects tournamentUid) : OnRow objects d :=
  ⟨d, ((mem_getDecksForTournament hkeyed).1 hd).1, rfl⟩

/-! ### Saving leaves the decks of other players -/

theorem decksOf_saveDeck_other (hkeyed : WellKeyed objects) (hx : Admits objects x)
    (hother : other x.userUid = false) :
    decksOf other (saveDeck objects x) tournamentUid = decksOf other objects tournamentUid := by
  rw [decksOf_saveDeck hkeyed, hother, Bool.and_false]
  refine List.filter_eq_self.2 fun e he => ?_
  obtain ⟨hmem, hwho⟩ := List.mem_filter.1 he
  have hrow : OnRow objects e := onRow_of_mem hkeyed hmem
  rw [bne_iff_ne]
  intro huid
  rcases hx with hx | hnone
  · rw [hrow.user_eq hx huid, hother] at hwho
    cases hwho
  · exact hrow.lookup_ne (huid ▸ hnone)

/-! ### One move of a pass -/

theorem Pass.Sound.admits (h : p.Sound who env objects) (hsaves : p.saves = d :: saves) :
    Admits objects d := by
  rcases h.saves with hrows | ⟨x, k, hx, -, -, hnone⟩
  · exact .inl (hrows d (hsaves ▸ List.mem_cons_self ..))
  · rw [hsaves] at hx
    obtain ⟨rfl, -⟩ := List.cons.inj hx
    exact .inr hnone

theorem Pass.Sound.named (h : p.Sound who env objects) (hsaves : p.saves = d :: saves) :
    OnRow objects d ∨ ∃ k, k < p.created ∧ d.uid = env.freshUid k := by
  rcases h.saves with hrows | ⟨x, k, hx, hk, huid, -⟩
  · exact .inl (hrows d (hsaves ▸ List.mem_cons_self ..))
  · rw [hsaves] at hx
    obtain ⟨rfl, -⟩ := List.cons.inj hx
    exact .inr ⟨k, hk, huid⟩

theorem Pass.Sound.apart (h : p.Sound who env objects) (hx : Admits objects x)
    (huid : OnRow objects x ∨ ∀ k, x.uid ≠ env.freshUid k) :
      p.Sound who env (saveDeck objects x) := by
  have hfree : ∀ k, objects.lookup (env.freshUid k) = none → env.freshUid k ≠ x.uid := by
    intro k hnone heq
    rcases huid with hrow | hne
    · exact hrow.lookup_ne (heq ▸ hnone)
    · exact hne k heq.symm
  refine ⟨wellKeyed_saveDeck h.keyed x, fun d hd => (h.read d hd).kept hx, h.mine, ?_,
    fun op hop => (h.ops op hop).kept h.keyed hx, fun k hk => ?_⟩
  · rcases h.saves with hrows | ⟨d, k, hd, hk, hname, hnone⟩
    · exact .inl fun d hd => (hrows d hd).kept hx
    · refine .inr ⟨d, k, hd, hk, hname, ?_⟩
      rw [hname] at hnone ⊢
      rw [lookup_saveDeck_ne (hfree k hnone), hnone]
  · rw [lookup_saveDeck_ne (hfree k (h.fresh k hk)), h.fresh k hk]

theorem Pass.Sound.next (h : p.Sound who env objects) (hinj : Function.Injective env.freshUid)
    (hsaves : p.saves = d :: saves) :
    Pass.Sound who env (saveDeck objects d) { p with saves, holds := false } := by
  have hadmits := h.admits hsaves
  refine ⟨wellKeyed_saveDeck h.keyed d, fun e he => (h.read e he).kept hadmits, fun e he => ?_, ?_,
    fun op hop => (h.ops op hop).kept h.keyed hadmits, fun k hk => ?_⟩
  · exact h.mine e (hsaves ▸ List.mem_cons_of_mem _ he)
  · rcases h.saves with hrows | ⟨x, k, hx, -⟩
    · exact .inl fun e he => (hrows e (hsaves ▸ List.mem_cons_of_mem _ he)).kept hadmits
    · rw [hsaves] at hx
      obtain ⟨-, rfl⟩ := List.cons.inj hx
      exact .inl fun e he => absurd he List.not_mem_nil
  · have hnone := h.fresh k hk
    rw [lookup_saveDeck_ne ?_, hnone]
    rintro heq
    rcases h.named hsaves with hrow | ⟨j, hj, hname⟩
    · exact hrow.lookup_ne (heq ▸ hnone)
    · have hkj : k = j := hinj (heq.trans hname)
      have hle : p.created ≤ k := hk
      omega

/-! ### The next operation -/

/-- A deck with the uid and the player of another. -/
def SameRow (d e : StoredDeck) : Prop := d.uid = e.uid ∧ d.userUid = e.userUid

theorem OnRow.same (h : OnRow objects d) (hsame : SameRow x d) : OnRow objects x := by
  obtain ⟨e, he, huser⟩ := h
  exact ⟨e, hsame.1 ▸ he, huser.trans hsame.2.symm⟩

theorem who_of_row {uid : Uid} (hrow : ∃ e, objects.find? uid = some (.deck e) ∧
    who e.userUid = true)
    (hd : OnRow objects d) (huid : d.uid = uid) : who d.userUid = true := by
  obtain ⟨e, he, hwho⟩ := hrow
  obtain ⟨e', he', huser⟩ := hd
  rw [huid, he] at he'
  cases he'
  exact huser ▸ hwho

theorem found_saved {read : List StoredDeck} {q : StoredDeck → Bool} {f : StoredDeck → StoredDeck}
    {uid : Uid} (hrow : ∃ e, objects.find? uid = some (.deck e) ∧ who e.userUid = true)
    (hread : ∀ d ∈ read, OnRow objects d) (hq : ∀ d, q d = true → d.uid = uid)
    (hf : ∀ d, SameRow (f d) d) :
    ∀ x ∈ ((read.find? q).map f).toList, OnRow objects x ∧ who x.userUid = true := by
  intro x hx
  obtain ⟨d, hd, rfl⟩ := Option.map_eq_some_iff.1 (Option.mem_toList.1 hx)
  have hmem := hread d (List.mem_of_find?_eq_some hd)
  refine ⟨hmem.same (hf d), ?_⟩
  rw [(hf d).2]
  exact who_of_row hrow hmem (hq d (List.find?_some hd))

theorem opSaves_rows (env : Env) (tournamentUid : Uid) (created : ℕ) {read : List StoredDeck}
    (hop : OnPlayers who objects op) (hread : ∀ d ∈ read, OnRow objects d)
    (hcreates : opCreates read op = false) :
    ∀ x ∈ opSaves env tournamentUid read created op, OnRow objects x ∧ who x.userUid = true := by
  cases op with
  | upsert playerUid upload isPublic isWinner isPrivate multideck =>
    unfold opCreates at hcreates
    rw [Option.isNone_eq_false_iff, Option.isSome_iff_exists] at hcreates
    obtain ⟨d, hd⟩ := hcreates
    have huser : d.userUid = playerUid := (inSlot_iff.1 (List.find?_some hd)).1
    intro x hx
    rw [opSaves, hd, Option.getD_some] at hx
    rw [List.mem_singleton.1 hx]
    exact ⟨(hread d (List.mem_of_find?_eq_some hd)).same ⟨rfl, rfl⟩, huser.symm ▸ hop⟩
  | delete playerUid deckIndex multideck =>
    intro x hx
    obtain ⟨d, hd, rfl⟩ := List.mem_map.1 hx
    obtain ⟨hmem, htaken⟩ := List.mem_filter.1 hd
    have huser : d.userUid = playerUid := beq_iff_eq.1 (Bool.and_eq_true_iff.1 htaken).1
    exact ⟨(hread d hmem).same ⟨rfl, rfl⟩, huser.symm ▸ hop⟩
  | logView deckUid userUid round =>
    refine found_saved hop hread (fun d hd => ?_) fun d => ⟨rfl, rfl⟩
    unfold unviewed at hd
    rw [Bool.and_eq_true_iff, Bool.and_eq_true_iff] at hd
    exact beq_iff_eq.1 hd.1.1
  | _ => exact found_saved hop hread (fun d hd => beq_iff_eq.1 hd) fun d => ⟨rfl, rfl⟩

theorem opSaves_created (env : Env) (tournamentUid : Uid) (created : ℕ) {read : List StoredDeck}
    (hop : OnPlayers who objects op) (hcreates : opCreates read op = true) :
    ∃ d, opSaves env tournamentUid read created op = [d] ∧ d.uid = env.freshUid created ∧
      who d.userUid = true := by
  cases op with
  | upsert playerUid upload isPublic isWinner isPrivate multideck =>
    refine ⟨_, rfl, ?_⟩
    rw [Option.isNone_iff_eq_none.1 hcreates, Option.getD_none]
    exact ⟨rfl, hop⟩
  | _ => cases hcreates

theorem mem_replaced {existing : List StoredDeck} (hd : d ∈ replaced existing saves) :
    d ∈ existing ∨ d ∈ saves := by
  induction saves generalizing existing with
  | nil => exact .inl hd
  | cons x saves ih =>
    rcases ih hd with hmem | hmem
    · obtain ⟨e, he, heq⟩ := List.mem_map.1 hmem
      split at heq
      · exact .inr (heq ▸ List.mem_cons_self ..)
      · exact .inl (heq ▸ he)
    · exact .inr (List.mem_cons_of_mem _ hmem)

theorem opReads_rows (h : p.Sound who env objects) (tournamentUid : Uid) (op : DeckOp) :
    ∀ d ∈ opReads objects tournamentUid p.existing op, OnRow objects d := by
  unfold opReads
  split
  · exact fun d hd => onRow_of_mem h.keyed hd
  · exact h.read

theorem opCreates_opReads :
    opCreates (opReads objects tournamentUid existing op) op = opCreates existing op := by
  cases op <;> rfl

theorem Pass.Sound.start (h : p.Sound who env objects) (hops : p.ops = op :: ops) :
    (p.start env tournamentUid objects op ops).Sound who env objects := by
  have hop : OnPlayers who objects op := h.ops op (hops ▸ List.mem_cons_self ..)
  have hread := opReads_rows h tournamentUid op
  have hrest : ∀ x ∈ ops, OnPlayers who objects x :=
    fun x hx => h.ops x (hops ▸ List.mem_cons_of_mem _ hx)
  have hsame : opCreates (opReads objects tournamentUid p.existing op) op =
      opCreates p.existing op := opCreates_opReads
  cases hcreates : opCreates p.existing op with
  | true =>
    obtain ⟨d, hsaves, huid, hwho⟩ := opSaves_created env tournamentUid p.created hop
      (hsame.trans hcreates)
    refine ⟨h.keyed, ?_, ?_, .inr ⟨d, p.created, hsaves, ?_, huid, ?_⟩, hrest, fun k hk => ?_⟩
    · rw [Pass.start, opLeaves, if_pos (.inr hcreates)]
      exact h.read
    · rw [Pass.start, hsaves]
      exact List.forall_mem_singleton.2 hwho
    · rw [Pass.start, hcreates]
      exact Nat.lt_succ_self _
    · rw [huid]
      exact h.fresh p.created le_rfl
    · rw [Pass.start, hcreates] at hk
      exact h.fresh k (Nat.le_of_succ_le hk)
  | false =>
    have hrows := opSaves_rows env tournamentUid p.created hop hread (hsame.trans hcreates)
    refine ⟨h.keyed, fun d hd => ?_, fun d hd => (hrows d hd).2, .inl fun d hd => (hrows d hd).1,
      hrest, fun k hk => ?_⟩
    · rw [Pass.start, opLeaves] at hd
      split at hd
      · exact h.read d hd
      · rcases mem_replaced hd with hmem | hmem
        · exact h.read d hmem
        · exact (hrows d hmem).1
    · rw [Pass.start, hcreates] at hk
      exact h.fresh k hk

/-! ### A pass run alone -/

theorem Pass.alone {P : Objects → Pass → Prop} (env : Env) (tournamentUid : Uid)
    (hdone : ∀ objects p, p.saves = [] → p.ops = [] → P objects p)
    (hnext : ∀ objects p d saves, p.saves = d :: saves →
      P (saveDeck objects d) { p with saves, holds := false } → P objects p)
    (hstart : ∀ objects p op ops, p.saves = [] → p.ops = op :: ops →
      P objects (p.start env tournamentUid objects op ops) → P objects p)
    (objects : Objects) (p : Pass) : P objects p := by
  have hsaves : ∀ saves objects p, p.saves = saves →
      (∀ objects p', p'.saves = [] → p'.ops = p.ops → P objects p') → P objects p := by
    intro saves
    induction saves with
    | nil => exact fun objects p hp hall => hall objects p hp rfl
    | cons d saves ih => exact fun objects p hp hall => hnext objects p d saves hp (ih _ _ rfl hall)
  have hops : ∀ ops objects p, p.saves = [] → p.ops = ops → P objects p := by
    intro ops
    induction ops with
    | nil => exact hdone
    | cons op ops ih =>
      exact fun objects p hp hop => hstart objects p op ops hp hop
        (hsaves _ _ _ rfl fun objects p' hp' hop' => ih objects p' hp' hop')
  exact hsaves _ objects p rfl fun objects p' hp' _ => hops _ objects p' hp' rfl

theorem finish_done (hsaves : p.saves = []) (hops : p.ops = []) :
    p.finish env tournamentUid objects = objects := by
  rw [Pass.finish, hsaves, hops]
  rfl

theorem finish_next (hsaves : p.saves = d :: saves) :
    Pass.finish env tournamentUid (saveDeck objects d) { p with saves, holds := false } =
      p.finish env tournamentUid objects := by
  rw [Pass.finish, Pass.finish, hsaves]
  rfl

theorem finish_start (hsaves : p.saves = []) (hops : p.ops = op :: ops) :
    (p.start env tournamentUid objects op ops).finish env tournamentUid objects =
      p.finish env tournamentUid objects := by
  rw [Pass.finish, Pass.finish, hsaves, hops]
  rfl

theorem Pass.Sound.finish_other (hinj : Function.Injective env.freshUid)
    (hother : ∀ uid, who uid = true → other uid = false) (h : p.Sound who env objects) :
    decksOf other (p.finish env tournamentUid objects) tournamentUid =
      decksOf other objects tournamentUid := by
  revert h
  refine Pass.alone (P := fun objects p => p.Sound who env objects →
    decksOf other (p.finish env tournamentUid objects) tournamentUid =
      decksOf other objects tournamentUid) env tournamentUid ?_ ?_ ?_ objects p
  · intro objects p hsaves hops _
    rw [finish_done hsaves hops]
  · intro objects p d saves hsaves ih h
    have hmine : who d.userUid = true := h.mine d (hsaves ▸ List.mem_cons_self ..)
    rw [← finish_next hsaves, ih (h.next hinj hsaves),
      decksOf_saveDeck_other h.keyed (h.admits hsaves) (hother _ hmine)]
  · intro objects p op ops hsaves hops ih h
    rw [← finish_start hsaves hops, ih (h.start hops)]

theorem Pass.Sound.finish_keyed (hinj : Function.Injective env.freshUid)
    (h : p.Sound who env objects) : WellKeyed (p.finish env tournamentUid objects) := by
  revert h
  refine Pass.alone (P := fun objects p => p.Sound who env objects →
    WellKeyed (p.finish env tournamentUid objects)) env tournamentUid ?_ ?_ ?_ objects p
  · intro objects p hsaves hops h
    rw [finish_done hsaves hops]
    exact h.keyed
  · intro objects p d saves hsaves ih h
    rw [← finish_next hsaves]
    exact ih (h.next hinj hsaves)
  · intro objects p op ops hsaves hops ih h
    rw [← finish_start hsaves hops]
    exact ih (h.start hops)

theorem Pass.Sound.finish_unused (hinj : Function.Injective env.freshUid)
    (h : p.Sound who env objects) {uid : Uid} (hnone : objects.lookup uid = none)
    (huid : ∀ k, uid ≠ env.freshUid k) :
    (p.finish env tournamentUid objects).lookup uid = none := by
  revert h hnone
  refine Pass.alone (P := fun objects p => p.Sound who env objects → objects.lookup uid = none →
    (p.finish env tournamentUid objects).lookup uid = none) env tournamentUid ?_ ?_ ?_ objects p
  · intro objects p hsaves hops _ hnone
    rw [finish_done hsaves hops, hnone]
  · intro objects p d saves hsaves ih h hnone
    rw [← finish_next hsaves]
    refine ih (h.next hinj hsaves) ?_
    rw [lookup_saveDeck_ne ?_, hnone]
    rintro rfl
    rcases h.named hsaves with hrow | ⟨k, -, hk⟩
    · exact hrow.lookup_ne hnone
    · exact huid k hk
  · intro objects p op ops hsaves hops ih h hnone
    rw [← finish_start hsaves hops]
    exact ih (h.start hops) hnone

/-! ### A pass sees the decks of its players only -/

/-- The decks an operation acts on, among those it looks through. -/
def opMatches : DeckOp → StoredDeck → Bool
  | .upsert playerUid upload .. => inSlot playerUid upload.round
  | .delete playerUid deckIndex multideck => takenBy playerUid deckIndex multideck
  | .setRound deckUid _ | .setPublication deckUid .. | .setAttribution deckUid ..
  | .setPrivate deckUid _ => deckOf deckUid
  | .logView deckUid userUid _ => unviewed deckUid userUid

theorem who_of_matches (hop : OnPlayers who objects op) (hd : OnRow objects d)
    (hmatch : opMatches op d = true) : who d.userUid = true := by
  cases op with
  | upsert => exact (inSlot_iff.1 hmatch).1.symm ▸ hop
  | delete =>
    have huser := beq_iff_eq.1 (Bool.and_eq_true_iff.1 hmatch).1
    exact huser.symm ▸ hop
  | logView =>
    have huid := (Bool.and_eq_true_iff.1 (Bool.and_eq_true_iff.1 hmatch).1).1
    exact who_of_row hop hd (beq_iff_eq.1 huid)
  | _ => exact who_of_row hop hd (beq_iff_eq.1 hmatch)

theorem find?_filter_of {read : List StoredDeck} {q w : StoredDeck → Bool}
    (h : ∀ d ∈ read, q d = true → w d = true) : (read.filter w).find? q = read.find? q := by
  induction read with
  | nil => rfl
  | cons d read ih =>
    rw [List.forall_mem_cons] at h
    cases hw : w d with
    | true => rw [List.filter_cons_of_pos hw, List.find?_cons, List.find?_cons, ih h.2]
    | false =>
      have hq : ¬q d = true := fun hq => absurd (h.1 hq) (by simp [hw])
      rw [List.filter_cons_of_neg (by simp [hw]), List.find?_cons_of_neg hq, ih h.2]

theorem opSaves_filter (env : Env) (tournamentUid : Uid) (created : ℕ) {read : List StoredDeck}
    {w : StoredDeck → Bool} (h : ∀ d ∈ read, opMatches op d = true → w d = true) :
    opSaves env tournamentUid (read.filter w) created op =
      opSaves env tournamentUid read created op := by
  cases op with
  | delete playerUid deckIndex multideck =>
    have hsame : (read.filter w).filter (takenBy playerUid deckIndex multideck) =
        read.filter (takenBy playerUid deckIndex multideck) := by
      rw [List.filter_filter]
      refine List.filter_congr fun d hd => ?_
      cases htaken : takenBy playerUid deckIndex multideck d with
      | true => rw [Bool.true_and, h d hd htaken]
      | false => rfl
    rw [opSaves, opSaves, hsame]
  | _ =>
    have hfind := find?_filter_of h
    simp only [opMatches] at hfind
    simp only [opSaves, hfind]

theorem opCreates_filter {read : List StoredDeck} {w : StoredDeck → Bool}
    (h : ∀ d ∈ read, opMatches op d = true → w d = true) :
    opCreates (read.filter w) op = opCreates read op := by
  cases op with
  | upsert =>
    have hfind := find?_filter_of h
    simp only [opMatches] at hfind
    simp only [opCreates, hfind]
  | _ => rfl

theorem replaced_filter {existing : List StoredDeck}
    (h : ∀ d ∈ saves, ∀ e ∈ existing, e.uid = d.uid → e.userUid = d.userUid) :
    (replaced existing saves).filter (fun d => who d.userUid) =
      replaced (existing.filter fun d => who d.userUid) saves := by
  induction saves generalizing existing with
  | nil => rfl
  | cons x saves ih =>
    rw [List.forall_mem_cons] at h
    have hfilter : (existing.map fun e => if e.uid = x.uid then x else e).filter
        (fun d => who d.userUid) =
        (existing.filter fun d => who d.userUid).map fun e => if e.uid = x.uid then x else e := by
      rw [List.filter_map]
      refine congrArg (List.map _) (List.filter_congr fun e he => ?_)
      rw [Function.comp_apply]
      split
      · rw [h.1 e he ‹_›]
      · rfl
    have hrest : ∀ d ∈ saves, ∀ e ∈ existing.map (fun e => if e.uid = x.uid then x else e),
        e.uid = d.uid → e.userUid = d.userUid := by
      intro d hd e' he' huid
      obtain ⟨e, he, rfl⟩ := List.mem_map.1 he'
      by_cases hx : e.uid = x.uid
      · rw [if_pos hx] at huid ⊢
        exact (h.1 e he hx).symm.trans (h.2 d hd e he (hx.trans huid))
      · rw [if_neg hx] at huid ⊢
        exact h.2 d hd e he huid
    exact (ih hrest).trans (congrArg (replaced · saves) hfilter)

/-- Two passes alike but for decks read of other players. -/
structure Pass.Alike (who : Uid → Bool) (p q : Pass) : Prop where
  existing : (p.existing.filter fun d => who d.userUid) = q.existing.filter fun d => who d.userUid
  created : p.created = q.created
  saves : p.saves = q.saves
  ops : p.ops = q.ops

theorem Pass.Sound.start_existing (h : p.Sound who env objects) (hops : p.ops = op :: ops) :
    (p.start env tournamentUid objects op ops).existing.filter (fun d => who d.userUid) =
      if isView op = true ∨ opCreates p.existing op = true then
        p.existing.filter fun d => who d.userUid
      else replaced (p.existing.filter fun d => who d.userUid)
        (p.start env tournamentUid objects op ops).saves := by
  have hop : OnPlayers who objects op := h.ops op (hops ▸ List.mem_cons_self ..)
  rw [Pass.start, opLeaves]
  dsimp only
  split
  · rfl
  · rename_i hneither
    have hcreates : opCreates (opReads objects tournamentUid p.existing op) op = false :=
      opCreates_opReads.trans (Bool.eq_false_of_not_eq_true (not_or.1 hneither).2)
    refine replaced_filter fun d hd e he huid => (h.read e he).user_eq ?_ huid
    exact (opSaves_rows env tournamentUid p.created hop (opReads_rows h tournamentUid op)
      hcreates d hd).1

theorem Pass.Alike.start {p q : Pass} {objects' : Objects} (halike : Pass.Alike who p q)
    (h : p.Sound who env objects) (hq : q.Sound who env objects') (hops : p.ops = op :: ops)
    (hdecks : decksOf who objects tournamentUid = decksOf who objects' tournamentUid) :
    Pass.Alike who (p.start env tournamentUid objects op ops)
      (q.start env tournamentUid objects' op ops) := by
  have hop : OnPlayers who objects op := h.ops op (hops ▸ List.mem_cons_self ..)
  have hop' : OnPlayers who objects' op := hq.ops op (halike.ops ▸ hops ▸ List.mem_cons_self ..)
  have hmatch : ∀ d ∈ opReads objects tournamentUid p.existing op, opMatches op d = true →
      who d.userUid = true := fun d hd => who_of_matches hop (opReads_rows h tournamentUid op d hd)
  have hmatch' : ∀ d ∈ opReads objects' tournamentUid q.existing op, opMatches op d = true →
      who d.userUid = true := fun d hd => who_of_matches hop'
        (opReads_rows hq tournamentUid op d hd)
  have hread : (opReads objects tournamentUid p.existing op).filter (fun d => who d.userUid) =
      (opReads objects' tournamentUid q.existing op).filter fun d => who d.userUid := by
    unfold opReads
    split
    · exact hdecks
    · exact halike.existing
  have hsaves : opSaves env tournamentUid
      (opReads objects tournamentUid p.existing op) p.created op =
      opSaves env tournamentUid (opReads objects' tournamentUid q.existing op) q.created op := by
    rw [← opSaves_filter env tournamentUid p.created hmatch, hread, halike.created,
      opSaves_filter env tournamentUid q.created hmatch']
  have hcreates : opCreates p.existing op = opCreates q.existing op := by
    rw [← opCreates_filter fun d hd => who_of_matches hop (h.read d hd), halike.existing,
      opCreates_filter fun d hd => who_of_matches hop' (hq.read d hd)]
  refine ⟨?_, ?_, hsaves, rfl⟩
  · rw [h.start_existing hops, hq.start_existing (halike.ops ▸ hops), hcreates, halike.existing]
    exact congrArg (ite _ _ <| replaced _ ·) hsaves
  · rw [Pass.start, Pass.start, halike.created, hcreates]

theorem Pass.Sound.finish_congr (hinj : Function.Injective env.freshUid)
    (h : p.Sound who env objects) {q : Pass} {objects' : Objects} (hq : q.Sound who env objects')
    (halike : Pass.Alike who p q)
    (hdecks : decksOf who objects tournamentUid = decksOf who objects' tournamentUid) :
    decksOf who (p.finish env tournamentUid objects) tournamentUid =
      decksOf who (q.finish env tournamentUid objects') tournamentUid := by
  revert h q objects'
  refine Pass.alone (P := fun objects p => p.Sound who env objects → ∀ {q : Pass}
    {objects' : Objects}, q.Sound who env objects' → Pass.Alike who p q →
    decksOf who objects tournamentUid = decksOf who objects' tournamentUid →
    decksOf who (p.finish env tournamentUid objects) tournamentUid =
      decksOf who (q.finish env tournamentUid objects') tournamentUid) env tournamentUid
    ?_ ?_ ?_ objects p
  · intro objects p hsaves hops h q objects' hq halike hdecks
    rw [finish_done hsaves hops, finish_done (halike.saves ▸ hsaves) (halike.ops ▸ hops), hdecks]
  · intro objects p d saves hsaves ih h q objects' hq halike hdecks
    have hsaves' : q.saves = d :: saves := halike.saves ▸ hsaves
    rw [← finish_next hsaves, ← finish_next hsaves']
    refine ih (h.next hinj hsaves) (hq.next hinj hsaves')
      ⟨halike.existing, halike.created, rfl, halike.ops⟩ ?_
    rw [decksOf_saveDeck h.keyed, decksOf_saveDeck hq.keyed, hdecks]
  · intro objects p op ops hsaves hops ih h q objects' hq halike hdecks
    have hops' : q.ops = op :: ops := halike.ops ▸ hops
    rw [← finish_start hsaves hops, ← finish_start (halike.saves ▸ hsaves) hops']
    exact ih (h.start hops) (hq.start hops') (halike.start h hq hops hdecks) hdecks

end Rows

end Passes

end Archon.Backend

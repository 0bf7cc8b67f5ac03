import Archon.Backend.Frames
import Archon.Backend.TournamentRoutes
import Archon.Engine.DeckEmission

/-!
# What deck operations leave of the table

Deck operations save decks of one tournament: decks it had, under their players, and new ones of
the players the operations name. The other rows stay as they are, and of the players not named the
same have a deck on record.
-/

namespace Archon.Backend
open Engine Seating

/-! ### The decks saved -/

/-- An operation names the player. -/
def namesPlayer (ops : List DeckOp) (uid : Uid) : Prop := ∃ op ∈ ops, deckOpPlayer op = some uid

/-- A deck of the tournament, under the player it had; only those of players in `named` are ever
deleted. -/
structure KeptDeck (objects : Objects) (tournamentUid : Uid) (named : Uid → Prop) (d : StoredDeck) :
    Prop where
  before : ∃ e ∈ getDecksForTournament objects tournamentUid, d.uid = e.uid ∧ d.userUid = e.userUid
  tournament : d.tournamentUid = tournamentUid
  live : d.deletedAt = none ∨ named d.userUid

/-- A deck under a new uid, of a player in `named`. -/
structure CreatedDeck (env : Env) (tournamentUid : Uid) (named : Uid → Prop) (d : StoredDeck) :
    Prop where
  fresh : ∃ k, d.uid = env.freshUid k
  tournament : d.tournamentUid = tournamentUid
  named : named d.userUid

/-- The table after saves of decks of the tournament. -/
def SavesDecks (env : Env) (tournamentUid : Uid) (named : Uid → Prop) (a b : Objects) : Prop :=
  ∃ saves : List StoredDeck, b = saves.foldl saveDeck a ∧
    ∀ d ∈ saves, KeptDeck a tournamentUid named d ∨ CreatedDeck env tournamentUid named d

section Saves

variable {env : Env} {objects a b : Objects} {tournamentUid uid k : Uid} {named : Uid → Prop}
variable {pass : DeckPass} {d e : StoredDeck} {saves : List StoredDeck}

theorem KeptDeck.edit (h : KeptDeck objects tournamentUid named d) (huid : e.uid = d.uid)
    (huser : e.userUid = d.userUid) (htournament : e.tournamentUid = d.tournamentUid)
    (hlive : e.deletedAt = d.deletedAt) : KeptDeck objects tournamentUid named e where
  before := by
    rw [huid, huser]
    exact h.before
  tournament := htournament.trans h.tournament
  live := by
    rw [huser, hlive]
    exact h.live

theorem SavesDecks.save (h : SavesDecks env tournamentUid named a b)
    (hd : KeptDeck a tournamentUid named d ∨ CreatedDeck env tournamentUid named d) :
    SavesDecks env tournamentUid named a (saveDeck b d) := by
  obtain ⟨saves, rfl, hsaves⟩ := h
  refine ⟨saves ++ [d], by rw [List.foldl_append, List.foldl_cons, List.foldl_nil], ?_⟩
  intro x hx
  rcases List.mem_append.1 hx with hx | hx
  · exact hsaves x hx
  · exact List.mem_singleton.1 hx ▸ hd

/-- What the loop keeps: it has saved decks of the tournament, and the decks read are as saved. -/
structure DeckPass.Tracks (pass : DeckPass) (env : Env) (objects : Objects) (tournamentUid : Uid)
    (named : Uid → Prop) : Prop where
  saved : SavesDecks env tournamentUid named objects pass.objects
  existing : ∀ d ∈ pass.existing, KeptDeck objects tournamentUid named d

theorem DeckPass.Tracks.save (h : pass.Tracks env objects tournamentUid named)
    (hd : KeptDeck objects tournamentUid named d) :
    (pass.save d).Tracks env objects tournamentUid named where
  saved := h.saved.save (.inl hd)
  existing x hx := by
    obtain ⟨y, hy, rfl⟩ := List.mem_map.1 hx
    split
    · exact hd
    · exact h.existing y hy

theorem DeckPass.Tracks.change (h : pass.Tracks env objects tournamentUid named)
    {p : StoredDeck → Bool} {f : StoredDeck → StoredDeck}
    (hf : ∀ d, KeptDeck objects tournamentUid named d →
      KeptDeck objects tournamentUid named (f d)) :
    (pass.change p f).Tracks env objects tournamentUid named := by
  unfold DeckPass.change
  split
  · rename_i d hd
    exact h.save (hf d (h.existing d (List.mem_of_find?_eq_some hd)))
  · exact h

theorem DeckPass.Tracks.op (h : pass.Tracks env objects tournamentUid named) (op : DeckOp)
    (hop : ∀ uid, deckOpPlayer op = some uid → named uid) :
    (processDeckOp env tournamentUid pass op).Tracks env objects tournamentUid named := by
  cases op with
  | upsert playerUid =>
    simp only [processDeckOp]
    split
    · rename_i d hd
      exact h.save ((h.existing d (List.mem_of_find?_eq_some hd)).edit rfl rfl rfl rfl)
    · exact ⟨h.saved.save (.inr ⟨⟨pass.created, rfl⟩, rfl, hop playerUid rfl⟩), h.existing⟩
  | delete playerUid deckIndex multideck =>
    refine List.foldlRecOn
      (motive := fun pass => DeckPass.Tracks pass env objects tournamentUid named) _ _ h
      fun pass' h' d hd => h'.save ?_
    obtain ⟨hmem, hmatch⟩ := List.mem_filter.1 hd
    have huser : d.userUid = playerUid := beq_iff_eq.1 (Bool.and_eq_true _ _ ▸ hmatch).1
    have hkept := h.existing d hmem
    exact ⟨hkept.before, hkept.tournament, .inr (hop d.userUid (huser ▸ rfl))⟩
  | setRound | setPublication | setAttribution | setPrivate | logView =>
    exact h.change fun d hd => hd.edit rfl rfl rfl rfl

theorem kept_of_mem (hd : d ∈ getDecksForTournament objects tournamentUid) :
    KeptDeck objects tournamentUid named d := by
  have hlive := (List.mem_filter.1 hd).2
  simp only [Bool.and_eq_true, beq_iff_eq] at hlive
  exact ⟨⟨d, hd, rfl, rfl⟩, hlive.1, .inl hlive.2⟩

theorem savesDecks_processDeckOps (h : WellKeyed objects) (ops : List DeckOp) :
    SavesDecks env tournamentUid (namesPlayer ops) objects
      (processDeckOps env objects tournamentUid ops) := by
  have hstart : DeckPass.Tracks ⟨objects, getDecksForTournament objects tournamentUid, 0⟩ env
      objects tournamentUid (namesPlayer ops) :=
    ⟨⟨[], rfl, fun d hd => absurd hd List.not_mem_nil⟩, fun _ hd => kept_of_mem hd⟩
  exact (List.foldlRecOn
    (motive := fun pass => DeckPass.Tracks pass env objects tournamentUid (namesPlayer ops)) ops
    (processDeckOp env tournamentUid) hstart fun pass hpass op hop =>
      hpass.op op fun uid huid => ⟨op, hop, huid⟩).saved

theorem savesDecks_withdrawPrivateDecks (h : WellKeyed objects) :
    SavesDecks env tournamentUid (fun _ => False) objects
      (withdrawPrivateDecks env objects tournamentUid) := by
  refine List.foldlRecOn _ _ (motive := SavesDecks env tournamentUid (fun _ => False) objects)
    ⟨[], rfl, fun d hd => absurd hd List.not_mem_nil⟩ fun table htable d hd => ?_
  have hkept : KeptDeck objects tournamentUid (fun _ => False) d :=
    kept_of_mem (List.mem_filter.1 hd).1
  exact htable.save (.inl (hkept.edit rfl rfl rfl rfl))

/-! ### The rows -/

/-- The `deleted_at` column of a deck is the one of its document. -/
def DeckColumns (objects : Objects) : Prop :=
  ∀ uid d deletedAt, objects.lookup uid = some ⟨.deck d, deletedAt⟩ → deletedAt = d.deletedAt

/-- A live deck of the player is on record for the tournament. -/
def HoldsDeck (objects : Objects) (tournamentUid userUid : Uid) : Prop :=
  ∃ uid d, objects.lookup uid = some ⟨.deck d, none⟩ ∧ d.tournamentUid = tournamentUid ∧
    d.userUid = userUid

theorem lookup_saves (a : Objects) (saves : List StoredDeck) (k : Uid) :
    (∃ d ∈ saves, d.uid = k ∧
        (saves.foldl saveDeck a).lookup k = some ⟨.deck d, d.deletedAt⟩) ∨
      (∀ d ∈ saves, d.uid ≠ k) ∧ (saves.foldl saveDeck a).lookup k = a.lookup k := by
  induction saves using List.reverseRecOn with
  | nil => exact .inr ⟨fun d hd => absurd hd List.not_mem_nil, rfl⟩
  | append_singleton saves last ih =>
    rw [List.foldl_append, List.foldl_cons, List.foldl_nil]
    by_cases hk : last.uid = k
    · refine .inl ⟨last, List.mem_append_right _ (List.mem_singleton_self _), hk, ?_⟩
      rw [saveDeck, hk, lookup_saveObject]
    · rw [saveDeck, lookup_saveObject_ne (Ne.symm hk)]
      rcases ih with ⟨d, hd, hkey, hrow⟩ | ⟨hnone, hrow⟩
      · exact .inl ⟨d, List.mem_append_left _ hd, hkey, hrow⟩
      · refine .inr ⟨fun d hd => ?_, hrow⟩
        rcases List.mem_append.1 hd with hd | hd
        · exact hnone d hd
        · exact List.mem_singleton.1 hd ▸ hk

theorem SavesDecks.trans {c : Objects} (h : WellKeyed a)
    (hab : SavesDecks env tournamentUid named a b)
    (hbc : SavesDecks env tournamentUid (fun _ => False) b c) :
    SavesDecks env tournamentUid named a c := by
  obtain ⟨saves, rfl, hsaves⟩ := hab
  obtain ⟨saves', rfl, hsaves'⟩ := hbc
  refine ⟨saves ++ saves', List.foldl_append.symm, fun d hd => ?_⟩
  rcases List.mem_append.1 hd with hd | hd
  · exact hsaves d hd
  have hkept := (hsaves' d hd).resolve_right fun hcreated => hcreated.named
  have hlive : d.deletedAt = none := hkept.live.resolve_right id
  obtain ⟨e, he, huid, huser⟩ := hkept.before
  have hkeyed : WellKeyed (saves.foldl saveDeck a) :=
    List.foldlRecOn saves saveDeck (motive := WellKeyed) h fun table htable x _ =>
      wellKeyed_saveDeck htable x
  obtain ⟨hmem, hof⟩ := List.mem_filter.1 he
  have hrow := (mem_decks hkeyed).1 hmem
  rcases lookup_saves a saves e.uid with ⟨x, hx, hkey, hlookup⟩ | ⟨-, hsame⟩
  · obtain rfl : x = e := by
      rw [Objects.find?, hlookup] at hrow
      exact StoredObject.deck.inj (Option.some.inj hrow)
    rcases hsaves x hx with hxkept | hxcreated
    · obtain ⟨y, hy, hyuid, hyuser⟩ := hxkept.before
      exact .inl ⟨⟨y, hy, huid.trans hyuid, huser.trans hyuser⟩, hkept.tournament, .inl hlive⟩
    · obtain ⟨n, hn⟩ := hxcreated.fresh
      exact .inr ⟨⟨n, huid.trans hn⟩, hkept.tournament, huser ▸ hxcreated.named⟩
  · refine .inl ⟨⟨e, List.mem_filter.2 ⟨(mem_decks h).2 ?_, hof⟩, huid, huser⟩,
      hkept.tournament, .inl hlive⟩
    rwa [find?_congr hsame] at hrow

theorem KeptDeck.row (h : WellKeyed a) (hd : KeptDeck a tournamentUid named d) :
    ∃ e deletedAt, a.lookup d.uid = some ⟨.deck e, deletedAt⟩ ∧ e.deletedAt = none ∧
      e.tournamentUid = tournamentUid ∧ e.userUid = d.userUid := by
  obtain ⟨e, he, huid, huser⟩ := hd.before
  obtain ⟨hmem, hlive⟩ := List.mem_filter.1 he
  simp only [Bool.and_eq_true, beq_iff_eq] at hlive
  obtain ⟨deletedAt, hrow⟩ := find?_eq_some.1 ((mem_decks h).1 hmem)
  exact ⟨e, deletedAt, huid ▸ hrow, hlive.2, hlive.1, huser.symm⟩

theorem SavesDecks.over (h : WellKeyed a) (hfresh : ∀ k, a.lookup (env.freshUid k) = none)
    (hd : KeptDeck a tournamentUid named d ∨ CreatedDeck env tournamentUid named d) :
    ∀ row, a.lookup d.uid = some row → ∃ e, row.object = .deck e := by
  intro row hrow
  rcases hd with hkept | hcreated
  · obtain ⟨e, deletedAt, heq, -⟩ := hkept.row h
    rw [heq, Option.some_inj] at hrow
    exact ⟨e, hrow ▸ rfl⟩
  · obtain ⟨k, hk⟩ := hcreated.fresh
    rw [hk, hfresh] at hrow
    cases hrow

theorem filterMap_saveDeck {α : Type} {g : Uid × Row → Option α}
    (hg : ∀ k e x, g (k, ⟨.deck e, x⟩) = none)
    (hover : ∀ row, b.lookup d.uid = some row → ∃ e, row.object = .deck e) :
    (saveDeck b d).rows.filterMap g = b.rows.filterMap g := by
  refine filterMap_saveObject (hg _ _ _) fun row hrow => ?_
  obtain ⟨o, x⟩ := row
  obtain ⟨e, he⟩ := hover _ hrow
  have ho : o = .deck e := he
  rw [ho]
  exact hg _ _ _

theorem SavesDecks.filterMap_rows (h : WellKeyed a)
    (hfresh : ∀ k, a.lookup (env.freshUid k) = none) (hab : SavesDecks env tournamentUid named a b)
    {α : Type} {g : Uid × Row → Option α} (hg : ∀ k e x, g (k, ⟨.deck e, x⟩) = none) :
    b.rows.filterMap g = a.rows.filterMap g := by
  obtain ⟨saves, rfl, hsaves⟩ := hab
  induction saves using List.reverseRecOn with
  | nil => rfl
  | append_singleton saves last ih =>
    have hlast := hsaves last (List.mem_append_right _ (List.mem_singleton_self _))
    rw [List.foldl_append, List.foldl_cons, List.foldl_nil,
      filterMap_saveDeck hg fun row hrow => ?_, ih fun d hd => hsaves d (List.mem_append_left _ hd)]
    rcases lookup_saves a saves last.uid with ⟨d, -, -, hd⟩ | ⟨-, hsame⟩
    · rw [hd, Option.some_inj] at hrow
      exact ⟨d, hrow ▸ rfl⟩
    · exact SavesDecks.over h hfresh hlast row (hsame ▸ hrow)

theorem SavesDecks.keyed (h : WellKeyed a) (hab : SavesDecks env tournamentUid named a b) :
    WellKeyed b := by
  obtain ⟨saves, rfl, -⟩ := hab
  exact List.foldlRecOn saves saveDeck (motive := WellKeyed) h fun table htable d _ =>
    wellKeyed_saveDeck htable d

theorem SavesDecks.lookup_eq (h : WellKeyed a) (hfresh : ∀ k, a.lookup (env.freshUid k) = none)
    (hab : SavesDecks env tournamentUid named a b) {row : Row} (hrow : a.lookup k = some row)
    (hdeck : ∀ e, row.object ≠ .deck e) : b.lookup k = a.lookup k := by
  obtain ⟨saves, rfl, hsaves⟩ := hab
  rcases lookup_saves a saves k with ⟨d, hd, hkey, -⟩ | ⟨-, hsame⟩
  · obtain ⟨e, he⟩ := SavesDecks.over h hfresh (hsaves d hd) row (hkey ▸ hrow)
    exact absurd he (hdeck e)
  · exact hsame

theorem SavesDecks.holdsDeck_iff (h : WellKeyed a) (hcolumns : DeckColumns a)
    (hfresh : ∀ k, a.lookup (env.freshUid k) = none) (hab : SavesDecks env tournamentUid named a b)
    {userUid : Uid} (hspared : k = tournamentUid → ¬named userUid) :
    HoldsDeck b k userUid ↔ HoldsDeck a k userUid := by
  obtain ⟨saves, rfl, hsaves⟩ := hab
  constructor
  · rintro ⟨uid, d, hrow, htournament, huser⟩
    rcases lookup_saves a saves uid with ⟨e, he, hkey, hlookup⟩ | ⟨-, hsame⟩
    · rw [hlookup, Option.some_inj, Row.mk.injEq, StoredObject.deck.injEq] at hrow
      obtain ⟨rfl, hlive⟩ := hrow
      rcases hsaves e he with hkept | hcreated
      · obtain ⟨x, deletedAt, hx, hxlive, hxtournament, hxuser⟩ := hkept.row h
        have hcolumn : deletedAt = none := (hcolumns _ x _ hx).trans hxlive
        rw [hcolumn] at hx
        refine ⟨e.uid, x, hx, ?_, hxuser.trans huser⟩
        rw [hxtournament, ← htournament, hkept.tournament]
      · exact absurd (huser ▸ hcreated.named) (hspared (htournament ▸ hcreated.tournament))
    · exact ⟨uid, d, hsame ▸ hrow, htournament, huser⟩
  · rintro ⟨uid, d, hrow, htournament, huser⟩
    rcases lookup_saves a saves uid with ⟨e, he, hkey, hlookup⟩ | ⟨-, hsame⟩
    · rcases hsaves e he with hkept | hcreated
      · obtain ⟨x, deletedAt, hx, -, hxtournament, hxuser⟩ := hkept.row h
        rw [hkey, hrow, Option.some_inj, Row.mk.injEq, StoredObject.deck.injEq] at hx
        obtain ⟨rfl, -⟩ := hx
        have hk : k = tournamentUid := htournament.symm.trans hxtournament
        have hlive : e.deletedAt = none :=
          hkept.live.resolve_right (hxuser ▸ huser ▸ hspared hk)
        refine ⟨uid, e, hlive ▸ hlookup, hkept.tournament.trans hk.symm, ?_⟩
        rw [← hxuser, huser]
      · obtain ⟨n, hn⟩ := hcreated.fresh
        rw [← hkey, hn, hfresh] at hrow
        cases hrow
    · exact ⟨uid, d, hsame ▸ hrow, htournament, huser⟩

end Saves

/-! ### The players an event names -/

/-- The events whose operations may name a player. -/
def namesSomeone : TournamentEvent → Bool
  | .unregister .. | .removePlayer .. | .upsertDeck .. | .deleteDeck .. | .setDeckAttribution .. =>
    true
  | _ => false

/-- None of the operations names a player. -/
def NamesNobody (ops : List DeckOp) : Prop := ∀ op ∈ ops, deckOpPlayer op = none

section Names

variable {rs : RandomSource} {t t' : Tournament} {i : EventInput} {decks : List DeckObject}
variable {ops : List DeckOp}

theorem namesNobody_nil : NamesNobody [] := fun _ h => absurd h List.not_mem_nil

theorem namesNobody_stamp (doc : Tournament) (decks : List DeckObject) (round : ℕ) :
    NamesNobody (stampRoundDecks doc decks round) := by
  obtain ⟨on, heq, -⟩ := stampRoundDecks_eq doc decks round
  rw [heq]
  exact List.forall_mem_map.2 fun _ _ => rfl

theorem namesNobody_release (decks : List DeckObject) (rounds : List ℕ) (player : Option Uid) :
    NamesNobody (releaseStampedDecks decks rounds player) := by
  rw [releaseStampedDecks_eq]
  exact List.forall_mem_map.2 fun _ _ => rfl

theorem namesNobody_reseat (doc : Tournament) (decks : List DeckObject) (round : ℕ)
    (before after : List Uid) : NamesNobody (reseatDeckOps doc decks round before after) := by
  intro op hop
  rcases List.mem_append.1 hop with hop | hop
  · obtain ⟨uid, -, hop⟩ := List.mem_flatMap.1 hop
    exact namesNobody_release _ _ _ op hop
  · exact namesNobody_stamp _ _ _ op hop

theorem namesNobody_of_applyEvent (hevent : namesSomeone i.event = false) :
    Emits (applyEvent rs t i) NamesNobody := by
  cases hnone : emitsNothing i.event with
  | true =>
    intro r hr
    rw [emits_nil hnone r hr]
    exact namesNobody_nil
  | false =>
    unfold applyEvent
    cases he : i.event with
    | startRound submitted =>
      exact .bind fun _ _ => .bind fun _ _ => .bind fun _ _ => .bind fun _ _ => .bind fun _ _ =>
        .pure (namesNobody_stamp _ _ _)
    | selfOrganizeRound uids =>
      exact .bind fun _ _ => .bind fun _ _ => .bind fun _ _ => .bind fun _ _ => .bind fun _ _ =>
        .bind fun _ _ => .bind fun _ _ => .bind fun _ _ => .pure (namesNobody_stamp _ _ _)
    | cancelRound =>
      refine .bind fun _ _ => .bind fun _ _ => .bind fun _ _ => .bind fun _ _ => .bind fun _ _ =>
        .pure ?_
      split
      · exact namesNobody_release _ _ _
      · exact namesNobody_nil
    | seatPlayer =>
      exact .bind fun _ _ => .bind fun _ _ => .bind fun _ _ => .bind fun _ _ => .bind fun _ _ =>
        .bind fun _ _ => .bind fun _ _ => .bind fun _ _ => .pure (namesNobody_stamp _ _ _)
    | unseatPlayer =>
      exact .bind fun _ _ => .bind fun _ _ => .bind fun _ _ => .bind fun _ _ => .bind fun _ _ =>
        .pure (namesNobody_release _ _ _)
    | startFinals =>
      exact .bind fun _ _ => .bind fun _ _ => .bind fun _ _ => .bind fun _ _ => .bind fun _ _ =>
        .bind fun _ _ => .pure (namesNobody_stamp _ _ _)
    | cancelFinals =>
      exact .bind fun _ _ => .bind fun _ _ => .bind fun _ _ => .pure (namesNobody_release _ _ _)
    | alterSeating =>
      refine .bind fun _ _ => .bind fun _ _ => .bind fun _ _ => .ite (fun _ => ?_) (fun _ => ?_)
      · exact .bind fun _ _ => .bind fun _ _ => .bind fun _ _ => .pure namesNobody_nil
      · exact .bind fun _ _ => .bind fun _ _ => .bind fun _ _ => .bind fun _ _ => .bind fun _ _ =>
          .bind fun _ _ => .pure (namesNobody_reseat _ _ _ _ _)
    | setDeckPrivate uid round isPrivate =>
      exact .bind fun _ _ => .bind fun _ _ => .bind fun d _ =>
        .pure (List.forall_mem_singleton.2 rfl)
    | viewDeck =>
      refine .bind fun _ _ => .ite (fun _ => .pure namesNobody_nil) (fun _ => ?_)
      exact .bind fun d _ => .ite (fun _ => .pure namesNobody_nil)
        (fun _ => .pure (List.forall_mem_singleton.2 rfl))
    | unregister | removePlayer | upsertDeck | deleteDeck | setDeckAttribution =>
      rw [he] at hevent
      cases hevent
    | _ =>
      rw [he] at hnone
      cases hnone

theorem state_of_namesPlayer {r : Tournament × List DeckOp} {uid : Uid}
    (h : processTournamentEvent rs t i = .ok r) (hnames : namesPlayer r.2 uid) :
    r.1.state = t.state := by
  obtain ⟨base, pubs, hops, -, hpubs, t', happly, hr, -⟩ := emitted_of_processTournamentEvent h
  rw [hr]
  obtain ⟨op, hop, huid⟩ := hnames
  have hbase : op ∈ base := by
    rw [hops, List.mem_append] at hop
    refine hop.resolve_right fun hpub => ?_
    obtain ⟨d, -, isPublic, isWinner, rfl, -⟩ := hpubs op hpub
    cases huid
  cases hevent : namesSomeone i.event with
  | false =>
    rw [namesNobody_of_applyEvent hevent _ happly op hbase] at huid
    cases huid
  | true =>
    cases effect_of_applyEvent happly with
    | quiet _ hquiet => exact hquiet.state
    | leave => rfl
    | _ => simp_all [namesSomeone]

end Names

end Archon.Backend

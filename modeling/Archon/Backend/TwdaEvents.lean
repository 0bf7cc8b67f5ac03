import Archon.Backend.DeckSaves
import Archon.Backend.TwdaImport

/-!
# What the archive import sees of an event

The import reads two things of a live tournament: the archive key it carries and its winner. A
settled entry writes the key of one event, or a new event; decks and winners are left as they are.
-/

namespace Archon.Backend
open Engine Guards

/-! ### Events -/

/-- The archive key and the winner of a live tournament. -/
def eventAt (objects : Objects) (uid : Uid) : Option (Option String × Uid) :=
  ((objects.lookup uid).bind Row.liveTournament).map fun t => (t.twdaId, t.doc.winner)

/-- A live tournament carries the key. -/
def HoldsKey (objects : Objects) (uid : Uid) (entryId : String) : Prop :=
  ∃ winner, eventAt objects uid = some (some entryId, winner)

/-- The table: rows under their uid, which is not empty, the column of a tournament as in its
document, and no empty archive key. -/
structure Corpus (objects : Objects) : Prop where
  keyed : WellKeyed objects
  named : "" ∉ objects
  column : ∀ uid t d, objects.lookup uid = some ⟨.tournament t, d⟩ → d = t.deletedAt
  keys : ∀ uid t d, objects.lookup uid = some ⟨.tournament t, d⟩ →
    t.externalId "twda" ≠ some "" ∧ t.externalId "twda_entry" ≠ some ""

section Events

variable {objects objects' : Objects} {t t' : StoredTournament} {uid tournamentUid userUid : Uid}
variable {entryId : String} {r : TwdaRun} {entry : TwdaEntry} {d : StoredDeck}

theorem eventAt_eq_some {e : Option String × Uid} : eventAt objects uid = some e ↔
    ∃ t, objects.lookup uid = some ⟨.tournament t, none⟩ ∧ (t.twdaId, t.doc.winner) = e := by
  rw [eventAt, Option.map_eq_some_iff]
  refine exists_congr fun t => and_congr_left fun _ => ?_
  rw [Option.bind_eq_some_iff]
  constructor
  · rintro ⟨⟨object, d⟩, hrow, hlive⟩
    unfold Row.liveTournament at hlive
    split at hlive
    · rename_i hd
      obtain rfl : d = none := hd
      cases object <;> simp only [StoredObject.asTournament, Option.some.injEq, reduceCtorEq]
        at hlive
      exact hlive ▸ hrow
    · cases hlive
  · exact fun hrow => ⟨_, hrow, rfl⟩

theorem winnerByTournamentUid_eq : winnerByTournamentUid objects uid =
    (eventAt objects uid).map Prod.snd := by
  rw [eventAt, Option.map_map]
  rfl

theorem mem_deckOwners : userUid ∈ deckOwners objects tournamentUid ↔
    HoldsDeck objects tournamentUid userUid := by
  unfold deckOwners HoldsDeck
  rw [List.mem_filterMap]
  constructor
  · rintro ⟨⟨uid, object, d⟩, hrow, howner⟩
    rw [mem_rows] at hrow
    split at howner
    · rename_i hd
      obtain rfl : d = none := hd
      cases object with
      | deck deck =>
        simp only [StoredObject.asDeck, Option.bind_some] at howner
        split_ifs at howner with htournament
        exact ⟨uid, deck, hrow, htournament, Option.some.inj howner⟩
      | _ => simp [StoredObject.asDeck] at howner
    · cases howner
  · rintro ⟨uid, deck, hrow, htournament, huser⟩
    refine ⟨(uid, ⟨.deck deck, none⟩), mem_rows.2 hrow, ?_⟩
    simp [StoredObject.asDeck, htournament, huser]

/-! ### The keys held -/

theorem mem_tournamentsByTwdaId : (entryId, uid) ∈ tournamentsByTwdaId objects ↔
    HoldsKey objects uid entryId := by
  unfold tournamentsByTwdaId HoldsKey
  rw [List.mem_reverse, List.mem_filterMap]
  constructor
  · rintro ⟨⟨k, row⟩, hrow, hkey⟩
    rw [mem_rows] at hrow
    obtain ⟨t, ht, hkey⟩ := Option.bind_eq_some_iff.1 hkey
    obtain ⟨id, hid, heq⟩ := Option.map_eq_some_iff.1 hkey
    cases heq
    refine ⟨t.doc.winner, ?_⟩
    rw [eventAt, hrow, Option.bind_some, ht, Option.map_some, hid]
  · rintro ⟨winner, hevent⟩
    obtain ⟨t, hrow, heq⟩ := eventAt_eq_some.1 hevent
    obtain ⟨hid, -⟩ := Prod.mk.inj heq
    refine ⟨(uid, ⟨.tournament t, none⟩), mem_rows.2 hrow, ?_⟩
    simp [Row.liveTournament, StoredObject.asTournament, hid]

theorem eventAt_ne_empty (h : Corpus objects) (hevent : eventAt objects uid ≠ none) : uid ≠ "" := by
  rintro rfl
  exact hevent (by rw [eventAt, AList.lookup_eq_none.2 h.named]; rfl)

theorem knownTournament_some
    (h : knownTournament (tournamentsByTwdaId objects) entryId = some uid) :
    HoldsKey objects uid entryId := by
  obtain ⟨hlookup, -⟩ := Option.filter_eq_some_iff.1 h
  obtain ⟨before, after, heq, -⟩ := List.lookup_eq_some_iff.1 hlookup
  exact mem_tournamentsByTwdaId.1 (heq ▸ List.mem_append_right _ (List.mem_cons_self ..))

theorem knownTournament_eq_none (h : Corpus objects) :
    knownTournament (tournamentsByTwdaId objects) entryId = none ↔
      ∀ uid, ¬ HoldsKey objects uid entryId := by
  constructor
  · intro hnone uid hkey
    have hmem := mem_tournamentsByTwdaId.2 hkey
    cases hlookup : (tournamentsByTwdaId objects).lookup entryId with
    | none =>
      have hne := List.lookup_eq_none_iff.1 hlookup _ hmem
      simp at hne
    | some k =>
      obtain ⟨before, after, heq, -⟩ := List.lookup_eq_some_iff.1 hlookup
      obtain ⟨winner, hk⟩ := mem_tournamentsByTwdaId.1
        (heq ▸ List.mem_append_right before (List.mem_cons_self ..))
      have hempty : k ≠ "" := eventAt_ne_empty h (by rw [hk]; simp)
      rw [knownTournament, hlookup] at hnone
      simp [hempty] at hnone
  · intro hnone
    cases hknown : knownTournament (tournamentsByTwdaId objects) entryId with
    | none => rfl
    | some uid => exact absurd (knownTournament_some hknown) (hnone uid)

/-! ### Writing one event -/

/-- One event is written, under a uid that had a tournament or nothing. -/
structure Puts (a b : Objects) (uid : Uid) (event : Option String × Uid) : Prop where
  corpus : Corpus b
  event : eventAt b uid = some event
  other : ∀ k ≠ uid, b.lookup k = a.lookup k
  noDeck : ∀ d x, a.lookup uid ≠ some ⟨.deck d, x⟩

theorem Puts.eventAt_ne {a b : Objects} {e : Option String × Uid} (h : Puts a b uid e) {k : Uid}
    (hk : k ≠ uid) : eventAt b k = eventAt a k := by
  rw [eventAt, h.other k hk, eventAt]

theorem Puts.deck {a b : Objects} {e : Option String × Uid} (h : Puts a b uid e) {k : Uid}
    {x : Option Stamp} : b.lookup k = some ⟨.deck d, x⟩ ↔ a.lookup k = some ⟨.deck d, x⟩ := by
  by_cases hk : k = uid
  · subst hk
    refine ⟨fun hrow => ?_, fun hrow => absurd hrow (h.noDeck d x)⟩
    obtain ⟨t, ht, -⟩ := eventAt_eq_some.1 h.event
    rw [ht] at hrow
    cases hrow
  · rw [h.other k hk]

theorem puts_saveTournament (h : Corpus objects) (huid : t'.uid ≠ "") (hlive : t'.deletedAt = none)
    (hkeys : t'.externalId "twda" ≠ some "" ∧ t'.externalId "twda_entry" ≠ some "")
    (hnoDeck : ∀ d x, objects.lookup t'.uid ≠ some ⟨.deck d, x⟩) :
    Puts objects (saveTournament objects t') t'.uid (t'.twdaId, t'.doc.winner) := by
  have hself : (saveTournament objects t').lookup t'.uid = some ⟨.tournament t', t'.deletedAt⟩ :=
    lookup_saveObject
  have hother : ∀ k ≠ t'.uid, (saveTournament objects t').lookup k = objects.lookup k :=
    fun k hk => lookup_saveTournament_ne hk
  have hrow : ∀ k t d, (saveTournament objects t').lookup k = some ⟨.tournament t, d⟩ →
      (t = t' ∧ d = t'.deletedAt) ∨ objects.lookup k = some ⟨.tournament t, d⟩ := by
    intro k t d hrow
    by_cases hk : k = t'.uid
    · rw [hk, hself] at hrow
      cases hrow
      exact .inl ⟨rfl, rfl⟩
    · exact .inr (hother k hk ▸ hrow)
  refine ⟨⟨wellKeyed_saveTournament h.keyed t', ?_, fun k t d hk => ?_, fun k t d hk => ?_⟩, ?_,
    hother, hnoDeck⟩
  · rw [← AList.lookup_eq_none, hother "" huid.symm, AList.lookup_eq_none]
    exact h.named
  · rcases hrow k t d hk with ⟨rfl, hd⟩ | hold
    · exact hd
    · exact h.column k t d hold
  · rcases hrow k t d hk with ⟨rfl, -⟩ | hold
    · exact hkeys
    · exact h.keys k t d hold
  · exact eventAt_eq_some.2 ⟨t', hlive ▸ hself, rfl⟩

/-! ### Settling -/

theorem twdaId_eq_none_iff (hkeys : t.externalId "twda" ≠ some "" ∧
    t.externalId "twda_entry" ≠ some "") : t.twdaId = none ↔ archiveKey t = "" := by
  unfold StoredTournament.twdaId archiveKey
  cases htwda : t.externalId "twda" with
  | none =>
    cases hentry : t.externalId "twda_entry" with
    | none => simp
    | some e =>
      have he : e ≠ "" := fun heq => hkeys.2 (heq ▸ hentry)
      simp [Option.filter, he]
  | some k =>
    have hk : k ≠ "" := fun heq => hkeys.1 (heq ▸ htwda)
    cases hentry : t.externalId "twda_entry" with
    | none => simp [hk]
    | some e =>
      have he : e ≠ "" := fun heq => hkeys.2 (heq ▸ hentry)
      simp [Option.filter, he]

theorem stampedTournament_keys (hnone : t.twdaId = none) (hentry : entry.id ≠ "") :
    (stampedTournament r entry t).twdaId = some entry.id ∧
      (stampedTournament r entry t).externalId "twda" ≠ some "" ∧
      (stampedTournament r entry t).externalId "twda_entry" ≠ some "" := by
  obtain ⟨htwda, -⟩ := Option.or_eq_none_iff.1 hnone
  have hself : (stampedTournament r entry t).externalId "twda_entry" = some entry.id :=
    lookup_setExternalId_self _ _ _
  have hother : (stampedTournament r entry t).externalId "twda" = none :=
    (lookup_setExternalId (by decide)).trans htwda
  refine ⟨?_, ?_, ?_⟩
  · rw [StoredTournament.twdaId, hself, hother, Option.none_or]
  · rw [hother]
    simp
  · rw [hself]
    simpa using hentry

theorem settleAttachment_spec (h : Corpus objects) (hentry : entry.id ≠ "") (target : Uid) :
    (∃ winner, eventAt objects target = some (none, winner) ∧
      (settleAttachment r entry target objects).2 = true ∧
      Puts objects (settleAttachment r entry target objects).1 target (some entry.id, winner)) ∨
    ((∀ winner, eventAt objects target ≠ some (none, winner)) ∧
      settleAttachment r entry target objects = (objects, false)) := by
  unfold settleAttachment
  cases ht : objects.tournament? target with
  | none =>
    refine .inr ⟨fun winner hevent => ?_, rfl⟩
    obtain ⟨t, hrow, -⟩ := eventAt_eq_some.1 hevent
    rw [tournament?_eq_some.2 (find?_eq_some.2 ⟨none, hrow⟩)] at ht
    cases ht
  | some t =>
    obtain ⟨d, hrow⟩ := find?_eq_some.1 (tournament?_eq_some.1 ht)
    obtain rfl := h.column target t d hrow
    have hkeys := h.keys target t _ hrow
    have huid : t.uid = target := h.keyed target _ hrow
    have hleft : t.deletedAt ≠ none ∨ archiveKey t ≠ "" →
        ∀ winner, eventAt objects target ≠ some (none, winner) := by
      intro hcase winner hevent
      obtain ⟨t₁, hrow₁, heq⟩ := eventAt_eq_some.1 hevent
      rw [hrow] at hrow₁
      simp only [Option.some.injEq, Row.mk.injEq, StoredObject.tournament.injEq] at hrow₁
      obtain ⟨rfl, hlive⟩ := hrow₁
      rcases hcase with hdeleted | hheld
      · exact hdeleted hlive
      · exact hheld ((twdaId_eq_none_iff hkeys).1 (Prod.mk.inj heq).1)
    dsimp only
    split_ifs with hdeleted hheld
    · exact .inr ⟨hleft (.inl hdeleted), rfl⟩
    · exact .inr ⟨hleft (.inr hheld), rfl⟩
    · have hlive : t.deletedAt = none := not_not.1 hdeleted
      have hnone : t.twdaId = none := (twdaId_eq_none_iff hkeys).2 (not_not.1 hheld)
      have hstamped := stampedTournament_keys (r := r) hnone hentry
      rw [hlive] at hrow
      have hnew : (stampedTournament r entry t).uid = target := huid
      have hputs := @puts_saveTournament _ (stampedTournament r entry t) h
        (hnew ▸ eventAt_ne_empty h (by rw [eventAt, hrow]; simp [Row.liveTournament,
          StoredObject.asTournament])) hlive hstamped.2 (by
          rw [hnew, hrow]
          intro d x heq
          cases heq)
      rw [hnew, hstamped.1] at hputs
      exact .inl ⟨t.doc.winner, eventAt_eq_some.2 ⟨t, hrow, by rw [hnone]⟩, rfl, hputs⟩

theorem puts_reconstructed {winnerUid : Uid} {draws : List String} (h : Corpus objects)
    (hentry : entry.id ≠ "") (huid : uid ≠ "") (hnew : uid ∉ objects)
    (hsave : saveCoded objects (reconstructedTournament r entry uid winnerUid) draws =
      .ok objects') :
    Puts objects objects' uid (some entry.id, winnerUid) := by
  simp only [saveCoded, saveIndexed, bind_eq_ok, ensure_eq_ok, exists_const, pure_eq_ok] at hsave
  obtain ⟨code, -, -, rfl⟩ := hsave
  have htwda : ((reconstructedTournament r entry uid winnerUid).withCode code).externalId "twda" =
      some entry.id := rfl
  have hother : ((reconstructedTournament r entry uid winnerUid).withCode code).externalId
      "twda_entry" = none := rfl
  refine @puts_saveTournament _ ((reconstructedTournament r entry uid winnerUid).withCode code) h
    huid rfl ⟨?_, ?_⟩ fun d x hrow => ?_
  · rw [htwda]
    simpa using hentry
  · rw [hother]
    simp
  · exact hnew (AList.lookup_isSome.1 (Option.isSome_iff_exists.2 ⟨_, hrow⟩))

end Events

end Archon.Backend

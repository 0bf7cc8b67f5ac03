import Archon.Library.Preferred
import Archon.Engine.Cards

/-!
# Card names and the order of the entries

Where no two entries carry one numeric id, the name index is the index of preferred owners of all
keys of all entries: the preference the loader asks of two cards when their keys meet is the
preference of their entries, whatever was loaded in between. So the answers to the three lookups
by name do not depend on the order of the entries.
-/

namespace Archon.Engine
open Guards Preferred

/-! ### Entries -/

/-- The entries under their numeric ids, without those the loader rejects. -/
def numbered (entries : List (String × JsonValue)) : List (ℕ × JsonValue) :=
  entries.filterMap fun entry => (parseU32 entry.1.toList).map fun id => (id, entry.2)

/-- One entry added under its id. -/
def addEntry (u : Unicode) (m : CardMap) (entry : ℕ × JsonValue) : CardMap :=
  let card := parseCard entry.1 entry.2
  let cards := m.cards.insert entry.1 card
  ⟨cards, (cardKeys u card entry.2).foldl (indexKey cards entry.1) m.nameIndex⟩

theorem foldlM_loadEntry_eq_ok (u : Unicode) {entries : List (String × JsonValue)}
    {m m' : CardMap} :
    entries.foldlM (loadEntry u) m = .ok m' ↔
      (∀ entry ∈ entries, parseU32 entry.1.toList ≠ none) ∧
        (numbered entries).foldl (addEntry u) m = m' := by
  induction entries generalizing m with
  | nil => simp [numbered]
  | cons entry entries ih =>
    rw [List.foldlM_cons, bind_eq_ok]
    cases hid : parseU32 entry.1.toList with
    | none => simp [loadEntry, hid, okOr]
    | some id =>
      have hentry : loadEntry u m entry = .ok (addEntry u m (id, entry.2)) := by
        simp [loadEntry, hid, okOr, addEntry]
      simp [hentry, ih, numbered, hid]

section Entries

variable (u : Unicode)

/-- The card of an entry. -/
def entryCard (entry : ℕ × JsonValue) : Card := parseCard entry.1 entry.2

/-- A key of the entry. -/
def Names (entry : ℕ × JsonValue) (key : Str) : Prop :=
  key ≠ [] ∧ key ∈ cardKeys u (entryCard entry) entry.2

/-- The preferred card among the entries that have the key. -/
def PreferredCard (entries : List (ℕ × JsonValue)) (key : Str) (card : Card) : Prop :=
  ∃ entry ∈ entries, Names u entry key ∧ card = entryCard entry ∧
    ∀ other ∈ entries, Names u other key → namePref card ≤ namePref (entryCard other)

/-- The keys an entry offers its card under. -/
def entryOffers (entry : ℕ × JsonValue) : List (Str × ℕ) :=
  ((cardKeys u (entryCard entry) entry.2).filter fun key => decide (key ≠ [])).map fun key =>
    (key, entry.1)

/-- The preference of an id, read from the entries. -/
def entryPref (entries : List (ℕ × JsonValue)) (id : ℕ) : ℕ ×ₗ ℕ :=
  toLex ((entries.any fun entry => entry.1 == id && (entryCard entry).adv).toNat, id)

end Entries

section Loaded

variable {u : Unicode} {entries entries' : List (ℕ × JsonValue)} {m : CardMap}

theorem entryPref_injective (entries : List (ℕ × JsonValue)) :
    Function.Injective (entryPref entries) :=
  fun _ _ h => congrArg Prod.snd (toLex.injective h)

theorem mem_entryOffers {entry : ℕ × JsonValue} {key : Str} {id : ℕ} :
    (key, id) ∈ entryOffers u entry ↔ Names u entry key ∧ id = entry.1 := by
  rw [entryOffers, List.mem_map]
  constructor
  · rintro ⟨k, hk, heq⟩
    cases heq
    obtain ⟨hmem, hne⟩ := List.mem_filter.1 hk
    exact ⟨⟨of_decide_eq_true hne, hmem⟩, rfl⟩
  · rintro ⟨⟨hne, hmem⟩, rfl⟩
    exact ⟨key, List.mem_filter.2 ⟨hmem, decide_eq_true hne⟩, rfl⟩

theorem eq_of_fst (hids : (entries.map Prod.fst).Nodup) {e e' : ℕ × JsonValue} (he : e ∈ entries)
    (he' : e' ∈ entries) (h : e.1 = e'.1) : e = e' :=
  List.inj_on_of_nodup_map hids he he' h

theorem entryPref_eq (hids : (entries.map Prod.fst).Nodup) {entry : ℕ × JsonValue}
    (he : entry ∈ entries) : entryPref entries entry.1 = namePref (entryCard entry) := by
  have hany : (entries.any fun e => e.1 == entry.1 && (entryCard e).adv) =
      (entryCard entry).adv := by
    rw [Bool.eq_iff_iff, List.any_eq_true]
    constructor
    · rintro ⟨e, hmem, hadv⟩
      simp only [Bool.and_eq_true, beq_iff_eq] at hadv
      rw [← eq_of_fst hids hmem he hadv.1]
      exact hadv.2
    · intro hadv
      exact ⟨entry, he, by simp [hadv]⟩
  rw [entryPref, hany]
  rfl

/-! ### Keys -/

theorem foldl_indexKey {pref : ℕ → ℕ ×ₗ ℕ} {cards : AList fun _ : ℕ => Card} {id : ℕ} {card : Card}
    (hcard : cards.lookup id = some card) (hpref : namePref card = pref id) (keys : List Str)
    {index : AList fun _ : Str => ℕ}
    (hindex : ∀ k i, index.lookup k = some i →
      ∃ c, cards.lookup i = some c ∧ namePref c = pref i) :
    keys.foldl (indexKey cards id) index =
      ((keys.filter fun key => decide (key ≠ [])).map fun key => (key, id)).foldl (offer pref)
        index := by
  induction keys generalizing index with
  | nil => rfl
  | cons key keys ih =>
    by_cases hkey : key = []
    · rw [List.foldl_cons, indexKey, if_pos hkey, ih hindex,
        List.filter_cons_of_neg (by simp [hkey])]
    · have hstep : indexKey cards id index key = offer pref index (key, id) := by
        unfold indexKey offer
        rw [if_neg hkey]
        dsimp only
        cases hold : index.lookup key with
        | none => rfl
        | some existing =>
          obtain ⟨c, hc, hcpref⟩ := hindex key existing hold
          by_cases hsame : existing = id
          · simp [hsame]
          · by_cases hlt : pref id < pref existing <;>
              simp [hsame, hc, hcard, hcpref, hpref, hlt]
      rw [List.foldl_cons, hstep, List.filter_cons_of_pos (by simp [hkey]), List.map_cons,
        List.foldl_cons]
      refine ih fun k i hi => ?_
      by_cases hk : k = key
      · subst hk
        cases hold : index.lookup k with
        | none =>
          rw [lookup_offer_free hold, Option.some_inj] at hi
          exact ⟨card, hi ▸ hcard, hi ▸ hpref⟩
        | some old =>
          rw [lookup_offer_taken hold, Option.some_inj] at hi
          split_ifs at hi
          · exact ⟨card, hi ▸ hcard, hi ▸ hpref⟩
          · exact hindex k i (hi ▸ hold)
      · rw [lookup_offer_of_ne index hk] at hi
        exact hindex k i hi

/-! ### All entries -/

/-- What is loaded after some of the entries. -/
structure LoadedFrom (u : Unicode) (entries loaded : List (ℕ × JsonValue)) (m : CardMap) :
    Prop where
  cards : ∀ entry ∈ loaded, m.cards.lookup entry.1 = some (entryCard entry)
  others : ∀ id, id ∉ loaded.map Prod.fst → m.cards.lookup id = none
  index : m.nameIndex = (loaded.flatMap (entryOffers u)).foldl (offer (entryPref entries)) ∅

theorem LoadedFrom.add (hids : (entries.map Prod.fst).Nodup) {loaded rest : List (ℕ × JsonValue)}
    {entry : ℕ × JsonValue} (hsplit : entries = loaded ++ entry :: rest)
    (h : LoadedFrom u entries loaded m) :
    LoadedFrom u entries (loaded ++ [entry]) (addEntry u m entry) := by
  have hentry : entry ∈ entries := hsplit ▸ List.mem_append_right _ List.mem_cons_self
  have hloaded : ∀ e ∈ loaded, e ∈ entries := fun e he => hsplit ▸ List.mem_append_left _ he
  have hnew : ∀ e ∈ loaded, e.1 ≠ entry.1 := by
    intro e he heq
    have hsame := eq_of_fst hids (hloaded e he) hentry heq
    rw [hsplit] at hids
    have hnodup := List.Nodup.of_map _ hids
    exact (List.nodup_append.1 hnodup).2.2 e he entry List.mem_cons_self hsame
  have hcards : ∀ e ∈ loaded ++ [entry],
      (m.cards.insert entry.1 (entryCard entry)).lookup e.1 = some (entryCard e) := by
    intro e he
    rcases List.mem_append.1 he with he | he
    · rw [AList.lookup_insert_ne (hnew e he)]
      exact h.cards e he
    · rw [List.mem_singleton.1 he, AList.lookup_insert]
  refine ⟨hcards, fun id hid => ?_, ?_⟩
  · rw [List.map_append, List.mem_append, not_or] at hid
    have hne : id ≠ entry.1 := by simpa using hid.2
    exact (AList.lookup_insert_ne hne).trans (h.others id hid.1)
  · rw [List.flatMap_append, List.foldl_append, ← h.index, List.flatMap_singleton]
    refine foldl_indexKey (AList.lookup_insert _) (entryPref_eq hids hentry).symm _ ?_
    intro k i hi
    rw [h.index, lookup_offers (entryPref_injective _)] at hi
    obtain ⟨e, he, hoffer⟩ := List.mem_flatMap.1 hi.1
    obtain ⟨-, rfl⟩ := mem_entryOffers.1 hoffer
    exact ⟨entryCard e, hcards e (List.mem_append_left _ he),
      (entryPref_eq hids (hloaded e he)).symm⟩

theorem loadedFrom_foldl (hids : (entries.map Prod.fst).Nodup) :
    LoadedFrom u entries entries (entries.foldl (addEntry u) ⟨∅, ∅⟩) := by
  have hrun : ∀ rest loaded m, entries = loaded ++ rest → LoadedFrom u entries loaded m →
      LoadedFrom u entries entries (rest.foldl (addEntry u) m) := by
    intro rest
    induction rest with
    | nil =>
      intro loaded m hsplit h
      rw [List.append_nil] at hsplit
      subst hsplit
      exact h
    | cons entry rest ih =>
      intro loaded m hsplit h
      exact ih (loaded ++ [entry]) _ (by rw [hsplit, List.append_assoc]; rfl) (h.add hids hsplit)
  exact hrun entries [] ⟨∅, ∅⟩ rfl ⟨by simp, by simp, rfl⟩

theorem LoadedFrom.lookup (hids : (entries.map Prod.fst).Nodup)
    (h : LoadedFrom u entries entries m) (key : Str) (card : Card) :
    (m.nameIndex.lookup key).bind m.byId = some card ↔ PreferredCard u entries key card := by
  have hoffers : ∀ id, (key, id) ∈ entries.flatMap (entryOffers u) ↔
      ∃ e ∈ entries, Names u e key ∧ id = e.1 := by
    intro id
    simp only [List.mem_flatMap, mem_entryOffers]
  rw [Option.bind_eq_some_iff]
  simp only [h.index, lookup_offers (entryPref_injective _), IsPreferred, hoffers]
  constructor
  · rintro ⟨id, ⟨⟨e, he, hname, rfl⟩, hmin⟩, hcard⟩
    obtain rfl : entryCard e = card := Option.some.inj ((h.cards e he).symm.trans hcard)
    refine ⟨e, he, hname, rfl, fun other hother hnames => ?_⟩
    rw [← entryPref_eq hids he, ← entryPref_eq hids hother]
    exact hmin other.1 ⟨other, hother, hnames, rfl⟩
  · rintro ⟨e, he, hname, rfl, hmin⟩
    refine ⟨e.1, ⟨⟨e, he, hname, rfl⟩, ?_⟩, h.cards e he⟩
    rintro id ⟨other, hother, hnames, rfl⟩
    rw [entryPref_eq hids he, entryPref_eq hids hother]
    exact hmin other hother hnames

/-! ### Answers -/

theorem LoadedFrom.cards_perm {m' : CardMap} (hperm : entries.Perm entries')
    (h : LoadedFrom u entries entries m) (h' : LoadedFrom u entries' entries' m') (id : ℕ) :
    m.cards.lookup id = m'.cards.lookup id := by
  by_cases hid : id ∈ entries.map Prod.fst
  · obtain ⟨e, he, rfl⟩ := List.mem_map.1 hid
    rw [h.cards e he, h'.cards e (hperm.mem_iff.1 he)]
  · rw [h.others id hid, h'.others id fun hid' => hid ((hperm.map _).mem_iff.2 hid')]

theorem LoadedFrom.index_perm {m' : CardMap} (hperm : entries.Perm entries')
    (h : LoadedFrom u entries entries m) (h' : LoadedFrom u entries' entries' m') (key : Str) :
    m.nameIndex.lookup key = m'.nameIndex.lookup key := by
  have hpref : entryPref entries = entryPref entries' :=
    funext fun id => congrArg (fun b : Bool => toLex (b.toNat, id)) hperm.any_eq
  rw [h.index, h'.index, ← hpref]
  exact lookup_offers_perm (entryPref_injective _) (hperm.flatMap_right _) key

theorem shorterName_eq (normalized : Str) (best : Option (ℕ ×ₗ ℕ)) (entry : Σ _ : Str, ℕ) :
    shorterName normalized best entry =
      if normalized.isPrefixOf entry.1 then
        some (best.elim (toLex (byteLen entry.1, entry.2)) (min (toLex (byteLen entry.1, entry.2))))
      else best := by
  unfold shorterName
  by_cases hstarts : normalized.isPrefixOf entry.1 = true
  · rw [if_pos hstarts, if_pos hstarts]
    cases best with
    | none => rfl
    | some b =>
      by_cases hlt : toLex (byteLen entry.1, entry.2) < b
      · simp [hlt, min_eq_left hlt.le]
      · simp [hlt, min_eq_right (not_lt.1 hlt)]
  · rw [if_neg hstarts, if_neg hstarts]

instance (normalized : Str) : RightCommutative (shorterName normalized) where
  right_comm best x y := by
    simp only [shorterName_eq]
    split_ifs with hx hy
    · cases best with
      | none => exact congrArg some (min_comm _ _)
      | some b => exact congrArg some (min_left_comm _ _ _)
    all_goals rfl

theorem answers_eq {m m' : CardMap} (hcards : ∀ id, m.cards.lookup id = m'.cards.lookup id)
    (hindex : ∀ key, m.nameIndex.lookup key = m'.nameIndex.lookup key) (name : Str) :
    m.byName u name = m'.byName u name ∧ m.byNameExact u name = m'.byNameExact u name ∧
      ∀ group, m.byNameInGroup u name group = m'.byNameInGroup u name group := by
  have hentries : m.nameIndex.entries.Perm m'.nameIndex.entries := by
    refine List.lookup_ext m.nameIndex.nodupKeys m'.nameIndex.nodupKeys fun key id => ?_
    exact Iff.of_eq (congrArg (id ∈ ·) (hindex key))
  have hexact : m.byNameExact u name = m'.byNameExact u name := by
    simp only [CardMap.byNameExact, hindex, hcards]
  refine ⟨?_, hexact, fun group => ?_⟩
  · simp only [CardMap.byName, hindex, hcards, hentries.foldl_eq]
  · simp only [CardMap.byNameInGroup, hindex, hcards, hexact]

end Loaded

theorem numbered_perm {entries entries' : List (String × JsonValue)}
    (hperm : entries.Perm entries') : (numbered entries).Perm (numbered entries') :=
  hperm.filterMap _

/-- Entries with different numeric ids: whatever their order, they load, give one answer to each
lookup by name, and each key finds the preferred card among those that have it. -/
theorem load_order (u : Unicode) {entries entries' : List (String × JsonValue)}
    (hperm : entries.Perm entries') (hids : ((numbered entries).map Prod.fst).Nodup) {m : CardMap}
    (hload : CardMap.load u (.object entries) = .ok m) :
    (∃ m', CardMap.load u (.object entries') = .ok m' ∧
      ∀ name, m.byName u name = m'.byName u name ∧ m.byNameExact u name = m'.byNameExact u name ∧
        ∀ group, m.byNameInGroup u name group = m'.byNameInGroup u name group) ∧
      ∀ key card, (m.nameIndex.lookup key).bind m.byId = some card ↔
        PreferredCard u (numbered entries) key card := by
  obtain ⟨hnumbers, rfl⟩ := (foldlM_loadEntry_eq_ok u).1 hload
  have hids' : ((numbered entries').map Prod.fst).Nodup :=
    ((numbered_perm hperm).map _).nodup_iff.1 hids
  have h := loadedFrom_foldl (u := u) hids
  have h' := loadedFrom_foldl (u := u) hids'
  refine ⟨⟨_, (foldlM_loadEntry_eq_ok u).2 ⟨fun entry he => ?_, rfl⟩, ?_⟩, h.lookup hids⟩
  · exact hnumbers entry (hperm.mem_iff.2 he)
  · exact answers_eq (h.cards_perm (numbered_perm hperm) h') (h.index_perm (numbered_perm hperm) h')

/-- A vampire and its advanced version. -/
def twoVersions : List (String × JsonValue) :=
  [("200002", .object [("printed_name", .text "Gratiano"), ("adv", .boolean true)]),
    ("200003", .object [("printed_name", .text "Gratiano"), ("full_name", .text "Gratiano (G2)")])]

theorem load_order_two : ∃ m, CardMap.load asciiTables (.object twoVersions) = .ok m ∧
    (∃ m', CardMap.load asciiTables (.object twoVersions.reverse) = .ok m' ∧
      ∀ name, m.byName asciiTables name = m'.byName asciiTables name ∧
        m.byNameExact asciiTables name = m'.byNameExact asciiTables name ∧
        ∀ group, m.byNameInGroup asciiTables name group = m'.byNameInGroup asciiTables name group) ∧
      ∀ key card, (m.nameIndex.lookup key).bind m.byId = some card ↔
        PreferredCard asciiTables (numbered twoVersions) key card :=
  ⟨_, rfl, load_order asciiTables (List.reverse_perm _).symm (by decide +kernel) rfl⟩

/-- Two entries under one number, written in two ways. -/
def oneNumber : List (String × JsonValue) :=
  [("1", .object [("printed_name", .text "Zip Gun")]),
    ("01", .object [("printed_name", .text "Anarch Troublemaker")])]

/-- The card of the entry loaded last takes the number, under the names of both. -/
theorem load_order_not_as_claimed :
    ¬ ∀ (u : Unicode) (entries entries' : List (String × JsonValue)) (m m' : CardMap),
      entries.Perm entries' → CardMap.load u (.object entries) = .ok m →
      CardMap.load u (.object entries') = .ok m' →
        ∀ name, m.byName u name = m'.byName u name := by
  intro h
  have hsame := h asciiTables oneNumber oneNumber.reverse _ _ (List.reverse_perm _).symm rfl rfl
    "zip gun".toList
  exact absurd hsame (by decide +kernel)

end Archon.Engine

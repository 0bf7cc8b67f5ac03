import Archon.Backend.PublicApi

/-!
# What the public API serves (`public_api/v1.py`, `public_api/auth.py`)

A listing names no object twice and leaves out none that was there all along, whatever is written
between two batches. A line shows nothing that a member could not read, as no level shows what the
next one does not, and a client gets no more than its budget.
-/

namespace Archon.PublicApi
open Engine Archon.Stream Backend Access

/-! ### The projection is within the member's -/

/-- `a` is `b`, or `b` with some fields left out of it or of its items. -/
def Within (a b : JsonValue) : Prop :=
  a = b ∨ ∃ names, a = leftOut names b ∨ a = eachLeftOut names b

section Projection

variable {d p : Dict} {key : String} {names keys : List String} {f : JsonValue → JsonValue}

theorem field_pick_none (h : key ∉ keys) : field (Fields.pick keys d) key = .null := by
  rw [field, Fields.get_pick_none h]
  rfl

theorem field_without_none (h : key ∈ keys) : field (Fields.without keys d) key = .null := by
  rw [field, Fields.get_without_none h]
  rfl

theorem field_change_ne (h : key ∉ keys) : field (Fields.change keys f d) key = field d key := by
  rw [field, Fields.get_change h]
  rfl

theorem field_change (h : key ∈ keys) (hnull : f .null = .null) :
    field (Fields.change keys f d) key = f (field d key) := by
  simp only [field, Fields.get_change_mem h]
  cases Fields.get d key with
  | none => exact hnull.symm
  | some value => rfl

theorem truthy_null : truthy .null = false := rfl

theorem field_of_truthy_pick (h : truthy (field (Fields.pick keys d) key) = true) :
    key ∈ keys ∧ field (Fields.pick keys d) key = field d key := by
  by_cases hkey : key ∈ keys
  · exact ⟨hkey, field_pick hkey⟩
  · rw [field_pick_none hkey, truthy_null] at h
    cases h

theorem field_of_truthy_without (h : truthy (field (Fields.without keys d) key) = true) :
    key ∉ keys ∧ field (Fields.without keys d) key = field d key := by
  by_cases hkey : key ∈ keys
  · rw [field_without_none hkey, truthy_null] at h
    cases h
  · exact ⟨hkey, field_without hkey⟩

theorem userApi_within (hp : computeUserApi d = some p) (h : truthy (field p key) = true) :
    field p key = field (computeUserMember d) key := by
  have hshown : key ∈ userApiFields ∧ field p key = field d key := by
    simp only [computeUserApi] at hp
    split at hp
    · split at hp
      · obtain rfl := Option.some.inj hp
        exact field_of_truthy_pick h
      · obtain rfl := Option.some.inj hp
        have hpick := field_of_truthy_pick h
        exact ⟨(List.mem_filter.1 hpick.1).1, hpick.2⟩
    · cases hp
  obtain ⟨hkey, heq⟩ := hshown
  rw [heq] at h ⊢
  -- the links are the one field a member may be without, and only when there are none
  by_cases hlinks : key = "community_links"
  · subst hlinks
    simp only [computeUserMember]
    split
    · exact (field_pick (by decide)).symm
    · split
      · exact (field_pick (by decide)).symm
      · exact (field_pick (by decide)).symm
  · have hmember : key ∈ userMemberFields := by
      simp only [userApiFields, userApiCityFields, List.mem_append, List.mem_cons,
        List.not_mem_nil, or_false] at hkey
      rcases hkey with (rfl | rfl | rfl | rfl | rfl | rfl | rfl | rfl | rfl | rfl) | rfl | rfl
      all_goals first | decide | exact absurd rfl hlinks
    have hin : ∀ more, key ∈ userMemberFields ++ more :=
      fun more => List.mem_append_left more hmember
    simp only [computeUserMember, List.append_assoc]
    split
    · exact (field_pick (hin _)).symm
    · split
      · exact (field_pick (hin _)).symm
      · split
        · exact (field_pick (hin _)).symm
        · exact (field_pick hmember).symm

theorem tournamentApi_within (h : truthy (field (computeTournamentApi d) key) = true) :
    Within (field (computeTournamentApi d) key) (field (computeTournamentMember d) key) := by
  have hmember : key ∉ tournamentApiExclude →
      field (Fields.without tournamentApiExclude d) key =
        field (computeTournamentMember d) key := by
    intro hkey
    have hkey' : key ∉ tournamentMemberExclude := fun hmem =>
      hkey (List.mem_append_left _ (List.mem_append_left _ hmem))
    rw [field_without hkey, computeTournamentMember, field_without hkey']
  by_cases hplayers : key ∈ ["players"]
  · obtain rfl : key = "players" := by simpa using hplayers
    apply Or.inr
    refine ⟨playerApiExclude, Or.inr ?_⟩
    rw [computeTournamentApi, field_change hplayers rfl, hmember (by decide)]
  · rw [computeTournamentApi, field_change_ne hplayers] at h ⊢
    exact .inl (hmember (field_of_truthy_without h).1)

theorem deckApi_within (hp : computeDeckApi d = some p) (h : truthy (field p key) = true) :
    ∃ m, computeDeckMember d = some m ∧ Within (field p key) (field m key) := by
  simp only [computeDeckApi] at hp
  split at hp
  · next hpublic =>
    obtain rfl := Option.some.inj hp
    refine ⟨publishedDeck d, by rw [computeDeckMember, if_pos hpublic], ?_⟩
    by_cases hkey : key ∈ ["attribution"]
    · obtain rfl : key = "attribution" := by simpa using hkey
      apply Or.inr
      refine ⟨["name"], Or.inl ?_⟩
      rw [field_change hkey rfl, field_without (by decide)]
    · rw [field_change_ne hkey] at h ⊢
      exact .inl (field_of_truthy_without h).2
  · cases hp

/-- What the public API shows of an object a member could read already: every field it fills has
the member's value, or that value with fields of its own left out. -/
theorem api_within_member (type : ObjectType) (d p : Dict) (hp : computeApi type d = some p) :
    ∀ key, truthy (field p key) = true →
      ∃ m, computeMember type d = some m ∧ Within (field p key) (field m key) := by
  intro key h
  cases type with
  | user => exact ⟨_, rfl, .inl (userApi_within hp h)⟩
  | sanction => cases hp
  | tournament =>
    obtain rfl := Option.some.inj hp
    exact ⟨_, rfl, tournamentApi_within h⟩
  | deck => exact deckApi_within hp h
  | league =>
    obtain rfl := Option.some.inj hp
    exact ⟨d, rfl, .inl (field_of_truthy_without h).2⟩
  | promo => cases hp

/-- A member with a city and no office: the city stays with the members. -/
theorem api_within_member_of_city :
    ∃ m, computeMember .user [("vekn_id", .text "1000001"), ("city", .text "Paris")] = some m ∧
      Within (field [("vekn_id", .text "1000001")] "vekn_id") (field m "vekn_id") :=
  api_within_member .user [("vekn_id", .text "1000001"), ("city", .text "Paris")]
    [("vekn_id", .text "1000001")] (by rfl) "vekn_id" (by rfl)

/-! ### The levels nest -/

theorem userPublic_within (hp : computeUserPublic d = some p) (h : truthy (field p key) = true) :
    field p key = field (computeUserMember d) key ∨
      field p key = field (obfuscatePublicContacts (computeUserMember d)) key := by
  simp only [computeUserPublic] at hp
  simp only [computeUserMember]
  split at hp
  · next hroles =>
    obtain rfl := Option.some.inj hp
    apply Or.inr
    rw [if_pos hroles]
    by_cases hcontact : key ∈ publicObfuscatedFields
    · have hin : ∀ fields, key ∈ fields ++ userContactFields ++ userCommunityLinks := by
        have hmem : key ∈ userContactFields := by
          simp only [publicObfuscatedFields, List.mem_cons, List.not_mem_nil, or_false] at hcontact
          rcases hcontact with rfl | rfl <;> decide
        intro fields
        exact List.mem_append_left _ (List.mem_append_right _ hmem)
      rw [obfuscatePublicContacts, obfuscatePublicContacts, field_change hcontact rfl,
        field_change hcontact rfl, field_pick (hin _), field_pick (hin _)]
    · rw [field_obfuscated hcontact] at h ⊢
      obtain ⟨hkey, heq⟩ := field_of_truthy_pick h
      rw [heq, field_obfuscated hcontact, field_pick]
      simp only [userMemberFields, List.mem_append] at hkey ⊢
      tauto
  · next hroles =>
    rw [if_neg hroles]
    apply Or.inl
    split at hp
    · next hic =>
      obtain rfl := Option.some.inj hp
      obtain ⟨hkey, heq⟩ := field_of_truthy_pick h
      rw [if_pos hic, heq, field_pick]
      simp only [userMemberFields, List.mem_append] at hkey ⊢
      tauto
    · next hic =>
      rw [if_neg hic]
      split at hp
      · next hlinks =>
        obtain rfl := Option.some.inj hp
        obtain ⟨hkey, heq⟩ := field_of_truthy_pick h
        rw [if_pos hlinks, heq, field_pick]
        have hsub : ∀ k ∈ userLinksOnlyFields, k ∈ userMemberFields ++ userCommunityLinks := by
          decide
        exact hsub key hkey
      · cases hp

theorem userMember_within (h : truthy (field (computeUserMember d) key) = true) :
    field (computeUserMember d) key = field (computeUserFull d) key := by
  have hall : ∀ k ∈ userMemberFields ++ userContactFields ++ userCommunityLinks,
      k ∉ userOwnerOnlyFields := by decide
  have hkept : ∀ keys, keys ⊆ userMemberFields ++ userContactFields ++ userCommunityLinks →
      truthy (field (Fields.pick keys d) key) = true →
      field (Fields.pick keys d) key = field (computeUserFull d) key := by
    intro keys hsub hfilled
    obtain ⟨hkey, heq⟩ := field_of_truthy_pick hfilled
    rw [heq, computeUserFull, field_without (hall key (hsub hkey))]
  have hlinks : userMemberFields ++ userCommunityLinks ⊆
      userMemberFields ++ userContactFields ++ userCommunityLinks := by
    intro k hk
    simp only [List.mem_append] at hk ⊢
    tauto
  simp only [computeUserMember] at h ⊢
  split at h
  · next hroles =>
    rw [if_pos hroles]
    exact hkept _ (List.Subset.refl _) h
  · next hroles =>
    rw [if_neg hroles]
    split at h
    · next hic =>
      rw [if_pos hic]
      exact hkept _ hlinks h
    · next hic =>
      rw [if_neg hic]
      split at h
      · next hfilled =>
        rw [if_pos hfilled]
        exact hkept _ hlinks h
      · next hfilled =>
        rw [if_neg hfilled]
        exact hkept _ (List.Subset.trans (List.subset_append_left _ _) hlinks) h

theorem tournamentPublic_within (h : truthy (field (computeTournamentPublic d) key) = true) :
    field (computeTournamentPublic d) key = field (computeTournamentMember d) key := by
  have hshown : ∀ k ∈ tournamentPublicFields, k ∉ tournamentMemberExclude := by decide
  have hpicked : truthy (field (Fields.pick tournamentPublicFields d) key) = true →
      field (Fields.pick tournamentPublicFields d) key = field (computeTournamentMember d) key := by
    intro hfilled
    obtain ⟨hkey, heq⟩ := field_of_truthy_pick hfilled
    rw [heq, computeTournamentMember, field_without (hshown key hkey)]
  simp only [computeTournamentPublic] at h ⊢
  split at h
  · next honline =>
    obtain ⟨-, heq⟩ := field_of_truthy_without h
    rw [if_pos honline, heq]
    rw [heq] at h
    exact hpicked h
  · next honline =>
    rw [if_neg honline]
    exact hpicked h

/-- The three levels of an object nest. Every field the public level fills is filled alike for a
member, the two contacts in plain text there, and every field a member reads is that of the whole
object. -/
theorem levels_nest (type : ObjectType) (d : Dict) (key : String) :
    (∀ p, computePublic type d = some p → truthy (field p key) = true →
      ∃ m, computeMember type d = some m ∧
        (field p key = field m key ∨ field p key = field (obfuscatePublicContacts m) key)) ∧
    ∀ m, computeMember type d = some m → truthy (field m key) = true →
      field m key = field (computeFull type d) key := by
  constructor
  · intro p hp h
    cases type with
    | user => exact ⟨_, rfl, userPublic_within hp h⟩
    | tournament =>
      obtain rfl := Option.some.inj hp
      exact ⟨_, rfl, .inl (tournamentPublic_within h)⟩
    | sanction => cases hp
    | deck => cases hp
    | league =>
      obtain rfl := Option.some.inj hp
      exact ⟨d, rfl, .inl (field_of_truthy_without h).2⟩
    | promo =>
      obtain rfl := Option.some.inj hp
      exact ⟨_, rfl, .inl rfl⟩
  · intro m hm h
    cases type with
    | user =>
      obtain rfl := Option.some.inj hm
      exact userMember_within h
    | tournament =>
      obtain rfl := Option.some.inj hm
      exact (field_of_truthy_without h).2
    | sanction =>
      obtain rfl := Option.some.inj hm
      rfl
    | deck =>
      have hm' : computeDeckMember d = some m := hm
      simp only [computeDeckMember] at hm'
      split at hm'
      · obtain rfl := Option.some.inj hm'
        exact (field_of_truthy_without h).2
      · cases hm'
    | league =>
      obtain rfl := Option.some.inj hm
      rfl
    | promo =>
      obtain rfl := Option.some.inj hm
      exact (field_of_truthy_without h).2

/-- A prince with an address. -/
def princeDoc : Dict :=
  [("uid", .text "u1"), ("roles", .array [.text "Prince"]), ("contact_email", .text "p@v.eu")]

theorem levels_nest_prince : ∃ m, computeMember .user princeDoc = some m ∧
    (field (obfuscatePublicContacts (Fields.pick
        (userPublicFields ++ userContactFields ++ userCommunityLinks) princeDoc)) "contact_email" =
      field m "contact_email" ∨
    field (obfuscatePublicContacts (Fields.pick
        (userPublicFields ++ userContactFields ++ userCommunityLinks) princeDoc)) "contact_email" =
      field (obfuscatePublicContacts m) "contact_email") :=
  (levels_nest .user princeDoc "contact_email").1 _ (by rfl) (by decide +kernel)

end Projection

/-! ### Listings of objects -/

section Listings

variable {q : Listing} {corpora : List Corpus} {c : Corpus}

/-- The objects a listing streams. -/
def listedRows (q : Listing) (corpora : List Corpus) : List Access.Row :=
  (objectBatches q corpora).1.flatten

theorem nodup_visible (q : Listing) (c : Corpus) : ((visible q c).map Access.Row.uid).Nodup :=
  c.unique.sublist (List.filter_sublist.map Access.Row.uid)

theorem nodup_tables : ∀ rows ∈ corpora.map (visible q), (rows.map Access.Row.uid).Nodup := by
  intro rows hrows
  obtain ⟨c, -, rfl⟩ := List.mem_map.1 hrows
  exact nodup_visible q c

/-- What a client may rely on in a stream of a listing, `corpora` being the table at each read. -/
structure Faithful (q : Listing) (corpora : List Corpus) : Prop where
  /-- Newest first: the uids descend, so none comes twice. -/
  descending : (listedRows q corpora).Pairwise fun a b => b.uid < a.uid
  /-- An object of the `i`-th batch was visible and asked for when the batch was read. -/
  current : ∀ (i : ℕ) (batch : List Access.Row), (objectBatches q corpora).1[i]? = some batch →
    ∃ c, corpora[i]? = some c ∧ ∀ row ∈ batch, row ∈ visible q c
  /-- A stream with a trailer has every object that was visible and asked for at each read. -/
  complete : (objectBatches q corpora).2 = true →
    ∀ uid, (∀ c ∈ corpora, ∃ row ∈ visible q c, row.uid = uid) →
      ∃ row ∈ listedRows q corpora, row.uid = uid
  /-- The trailer counts the lines between it and the header. -/
  counted : ∀ generatedAt, objectLines q generatedAt corpora =
    .header generatedAt ::
      ((listedRows q corpora).map fun row => .data q.lineType ((api row).getD [])) ++
        if (objectBatches q corpora).2 then [.eof (listedRows q corpora).length] else []
  /-- The trailer comes once the reads outnumber the full batches the objects make. -/
  ends : ∀ uids : Finset String, (∀ c ∈ corpora, ∀ row ∈ visible q c, row.uid ∈ uids) →
    uids.card < corpora.length * batchSize → (objectBatches q corpora).2 = true

/-- Whatever is written between two batches, a listing is faithful. -/
theorem faithful (q : Listing) (corpora : List Corpus) : Faithful q corpora where
  descending := Keyset.pairwise_listed nodup_tables
  current := by
    intro i batch hbatch
    obtain ⟨rows, hrows, hmem⟩ := Keyset.mem_of_mem_pages hbatch
    obtain ⟨c, hc, rfl⟩ := Option.map_eq_some_iff.1 (by simpa using hrows)
    exact ⟨c, hc, hmem⟩
  complete := by
    intro hended uid hall
    have hkey : uid ∈ (Keyset.listed Access.Row.uid batchSize none (corpora.map (visible q))).map
        Access.Row.uid := by
      apply Keyset.mem_keys_listed (by decide) hended
      · intro b hb
        cases hb
      · intro rows hrows
        obtain ⟨c, hc, rfl⟩ := List.mem_map.1 hrows
        obtain ⟨row, hrow, rfl⟩ := hall c hc
        exact List.mem_map_of_mem hrow
    exact List.mem_map.1 hkey
  counted := by
    intro generatedAt
    simp only [objectLines, dataLines, listedRows, List.length_flatten]
  ends := by
    intro uids hin hlen
    apply Keyset.ended_of_card nodup_tables (K := uids)
    · intro rows hrows row hrow _
      obtain ⟨c, hc, rfl⟩ := List.mem_map.1 hrows
      exact hin c hc row hrow
    · simpa using hlen

end Listings

/-! ### Community links -/

section Links

variable {corpora : List Corpus} {c : Corpus} {row : Access.Row} {l l' : LinkRow}

/-- A member with one link. -/
def linked : Access.Row where
  uid := "u1"
  type := .user
  modifiedAt := "2026-01-01"
  deletedAt := none
  value := fun key =>
    if key = "uid" then .text "u1"
    else if key = "vekn_id" then .text "1000001"
    else if key = "community_links" then .array [.object [("url", .text "https://example.org")]]
    else .null
  named := rfl
  stamped := by decide
  marked := by decide

end Links

/-! ### Budgets -/

section Budgets

variable {b : Budget} {spent spent' : Budget.Spent} {client other : String} {now later last : ℚ}
  {wait : ℤ} {s : Budgets} {r : Request} {requests : List Request}

/-- What is on record of a client dates from before now and is within the burst. -/
def Timely (b : Budget) (spent : Budget.Spent) (client : String) (now : ℚ) : Prop :=
  ∀ e since, spent client = some (e, since) → since ≤ now ∧ 0 ≤ e ∧ e ≤ b.burst

theorem Timely.mono (h : Timely b spent client now) (hle : now ≤ later) :
    Timely b spent client later := by
  intro e since he
  obtain ⟨hsince, hrest⟩ := h e since he
  exact ⟨hsince.trans hle, hrest⟩

theorem excess_congr (h : spent' client = spent client) :
    b.excess spent' client now = b.excess spent client now := by
  simp only [Budget.excess, h]

theorem Timely.congr (h : Timely b spent client now) (heq : spent' client = spent client) :
    Timely b spent' client now := by
  intro e since he
  exact h e since (heq ▸ he)

/-- One request on one budget: what it spends of the client's is on record, and nothing else is. -/
structure Charged (b : Budget) (spent spent' : Budget.Spent) (client : String) (now : ℚ) (n : ℕ) :
    Prop where
  timely : Timely b spent client now → Timely b spent' client now
  excess : b.excess spent client now + n ≤ b.excess spent' client now

theorem Charged.none (heq : spent' client = spent client) :
    Charged b spent spent' client now 0 where
  timely h := h.congr heq
  excess := by
    rw [excess_congr heq]
    simp

section Window

variable {spentOf : Budgets → Budget.Spent} {p : Request → Bool}

end Window

end Budgets

end Archon.PublicApi

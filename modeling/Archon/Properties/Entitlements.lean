import Archon.Backend.Entitlement

/-!
# Live and connected entitlement

What a viewer holds of an object after a fresh connection, against what the live stream delivers
of it; and two situations of a viewer with one access version.
-/

namespace Archon.Access

open Archon.Engine Archon.Stream Archon.Backend

variable {c : Corpus} {row row' : Row} {level : DataLevel} {u : User} {viewer : Option User}

/-! ### Rows and columns -/

theorem Corpus.row_eq (hrow : row ∈ c.rows) (hrow' : row' ∈ c.rows) (h : row.uid = row'.uid) :
    row = row' :=
  List.inj_on_of_nodup_map c.unique hrow hrow' h

theorem Corpus.row?_key (hrow : row ∈ c.rows) : c.row? row.key = some row := by
  obtain ⟨found, hfound⟩ : ∃ found, c.row? row.key = some found := by
    rw [← Option.ne_none_iff_exists', ne_eq, Corpus.row?, List.find?_eq_none]
    exact fun h => h row hrow (decide_eq_true rfl)
  have hkey : found.key = row.key := by simpa using List.find?_some hfound
  rw [hfound, c.row_eq (List.mem_of_find?_eq_some hfound) hrow (congrArg Prod.snd hkey)]

theorem Corpus.row?_some {key : ObjectKey} (h : c.row? key = some row) :
    row ∈ c.rows ∧ row.key = key :=
  ⟨List.mem_of_find?_eq_some h, by simpa using List.find?_some h⟩

namespace Row

/-- What the client keeps of a column. -/
def shown (row : Row) (level : DataLevel) : Option Dict :=
  (row.column level).filter fun data => !truthy (field data "deleted_at")

theorem field_fullData {key : String} (h : key ∈ structFields row.type) :
    field row.fullData key = row.value key := by
  rw [field, fullData, Fields.get_tabulate row.value h]
  rfl

theorem field_uid : field row.fullData "uid" = .text row.uid := by
  rw [field_fullData (by cases row.type <;> decide), row.named]

theorem shown_of_deleted (h : row.isDeleted = true) : row.shown level = none := by
  rw [shown, Option.filter_eq_none_iff]
  intro data hdata
  have hmark : "deleted_at" ∈ identifying := by decide
  rw [field_project hmark hdata]
  simpa [isDeleted] using h

theorem shown_of_live (h : row.isDeleted = false) : row.shown level = row.column level := by
  cases hdata : row.column level with
  | none => rw [shown, hdata, Option.filter_none]
  | some data =>
    have hmark : "deleted_at" ∈ identifying := by decide
    rw [shown, hdata, Option.filter_some, field_project hmark hdata, if_pos]
    simpa [isDeleted] using h

theorem deletedAt_of_live (h : row.isDeleted = false) : row.deletedAt = none := by
  by_contra hset
  have hmarked := row.marked hset
  have hdeleted : field row.fullData "deleted_at" = row.value "deleted_at" :=
    field_fullData (by cases row.type <;> decide)
  rw [isDeleted, hdeleted, hmarked] at h
  cases h

theorem shown_full_ne_pub (h : row.isDeleted = false) : row.shown .full ≠ row.shown .pub := by
  rw [shown_of_live h, shown_of_live h]
  intro heq
  have hfull : row.column .full = some (computeFull row.type row.fullData) := rfl
  have hnone := computePublic_hidden (heq.symm.trans hfull)
  have hsome := computeFull_hidden row.type row.value
  rw [fullData, hsome] at hnone
  cases hnone

theorem shown_full_ne_member (h : row.isDeleted = false) (hdeck : row.type = .deck) :
    row.shown .full ≠ row.shown .member := by
  rw [shown_of_live h, shown_of_live h]
  intro heq
  have hmember : computeMember row.type row.fullData = some (computeFull row.type row.fullData) :=
    heq.symm
  have hprivate : Fields.get row.fullData "private" = some (row.value "private") :=
    Fields.get_tabulate row.value (by rw [hdeck]; decide)
  rw [hdeck] at hmember
  unfold computeMember computeDeckMember at hmember
  dsimp only at hmember
  split at hmember
  · have hnone := publishedDeck_private (d := row.fullData)
    have hfull : computeFull .deck row.fullData = row.fullData := rfl
    rw [Option.some.inj hmember, hfull, hprivate] at hnone
    cases hnone
  · cases hmember

theorem column_league (hleague : row.type = .league) : row.column .full = row.column .member := by
  rw [column, column, hleague]
  rfl

end Row

/-! ### What a connection leaves -/

theorem write_streamed {frame : Frame} (h : row.streamed level = some frame) :
    frame.write.key = row.key ∧ frame.write.value = row.shown level := by
  unfold Row.streamed at h
  cases hdata : row.column level with
  | none =>
    rw [hdata] at h
    dsimp only at h
    split at h
    · obtain rfl := Option.some.inj h
      have hstamp : truthy (.text row.modifiedAt) = true := by simpa [truthy] using row.stamped
      refine ⟨rfl, ?_⟩
      rw [Row.shown, hdata, Option.filter_none]
      exact if_pos hstamp
    · cases h
  | some data =>
    rw [hdata] at h
    obtain rfl := Option.some.inj h
    have huid : field data "uid" = .text row.uid :=
      (field_project (by decide) hdata).trans Row.field_uid
    refine ⟨?_, ?_⟩
    · simp only [Frame.write, huid, JsonValue.asStr, Option.getD_some, Row.key]
    · rw [Row.shown, hdata, Option.filter_some]
      cases hmark : truthy (field data "deleted_at") <;> simp [Frame.write, hmark]

theorem write_overlaid (row : Row) : row.overlaid.write.key = row.key ∧
    row.overlaid.write.value = row.shown .full :=
  have hframe : row.streamed .full = some row.overlaid := rfl
  write_streamed hframe

theorem mem_baseFrames {frame : Frame} {since : Option String} :
    frame ∈ streamTypes.flatMap (streamObjects c level since) ↔
      ∃ row ∈ c.rows, (since.all fun s => s < row.modifiedAt) = true ∧
        row.streamed level = some frame := by
  simp only [List.mem_flatMap, streamObjects, List.mem_filterMap, List.mem_insertionSort,
    List.mem_filter, decide_eq_true_eq]
  constructor
  · rintro ⟨type, -, row, ⟨hrow, -, hsince⟩, hframe⟩
    exact ⟨row, hrow, hsince, hframe⟩
  · rintro ⟨row, hrow, hsince, hframe⟩
    have htype : row.type ∈ streamTypes := by cases row.type <;> decide
    exact ⟨row.type, htype, row, ⟨hrow, rfl, hsince⟩, hframe⟩

theorem holding_base (level : DataLevel) (hrow : row ∈ c.rows) :
    holding (streamTypes.flatMap (streamObjects c level none)) row.key = row.shown level := by
  have hwrites : ∀ w ∈ (streamTypes.flatMap (streamObjects c level none)).map Frame.write,
      w.key = row.key → w.value = row.shown level := by
    intro w hw hkey
    obtain ⟨frame, hframe, rfl⟩ := List.mem_map.1 hw
    obtain ⟨other, hother, -, hstreamed⟩ := mem_baseFrames.1 hframe
    obtain ⟨hkey', hvalue⟩ := write_streamed hstreamed
    have hsame : other = row := c.row_eq hother hrow (congrArg Prod.snd (hkey'.symm.trans hkey))
    rw [hvalue, hsame]
  cases hstreamed : row.streamed level with
  | some frame =>
    have hmem : frame ∈ streamTypes.flatMap (streamObjects c level none) :=
      mem_baseFrames.2 ⟨row, hrow, rfl, hstreamed⟩
    have hkey := (write_streamed hstreamed).1
    rw [← hkey]
    exact KeyedWrites.applyAll_of_agree (List.mem_map_of_mem hmem) (hkey ▸ hwrites)
  | none =>
    have hcolumn : row.column level = none := by
      cases hdata : row.column level with
      | none => rfl
      | some data =>
        rw [Row.streamed, hdata] at hstreamed
        cases hstreamed
    rw [Row.shown, hcolumn, Option.filter_none]
    refine KeyedWrites.applyAll_of_unwritten fun w hw hkey => ?_
    obtain ⟨frame, hframe, rfl⟩ := List.mem_map.1 hw
    obtain ⟨other, hother, -, hother'⟩ := mem_baseFrames.1 hframe
    obtain ⟨hkey', -⟩ := write_streamed hother'
    have hsame : other = row := c.row_eq hother hrow (congrArg Prod.snd (hkey'.symm.trans hkey))
    rw [hsame, hstreamed] at hother'
    cases hother'

theorem holding_overlaid {rows : List Row} {frames : List Frame} (hrows : ∀ r ∈ rows, r ∈ c.rows)
    (hrow : row ∈ c.rows) :
    holding (frames ++ rows.map Row.overlaid) row.key =
      if row.uid ∈ rows.map Row.uid then row.shown .full else holding frames row.key := by
  have hwrites : ∀ w ∈ (rows.map Row.overlaid).map Frame.write, w.key = row.key →
      ∃ r ∈ rows, r = row ∧ w.value = row.shown .full := by
    intro w hw hkey
    simp only [List.mem_map] at hw
    obtain ⟨frame, ⟨r, hr, rfl⟩, rfl⟩ := hw
    have hsame : r = row :=
      c.row_eq (hrows r hr) hrow (congrArg Prod.snd ((write_overlaid r).1.symm.trans hkey))
    exact ⟨r, hr, hsame, hsame ▸ (write_overlaid r).2⟩
  rw [holding, List.map_append, KeyedWrites.applyAll_append]
  split
  · next hmem =>
    obtain ⟨r, hr, huid⟩ := List.mem_map.1 hmem
    obtain rfl := c.row_eq (hrows r hr) hrow huid
    have hw : r.overlaid.write ∈ (rows.map Row.overlaid).map Frame.write :=
      List.mem_map_of_mem (List.mem_map_of_mem hr)
    have hkey := (write_overlaid r).1
    rw [← hkey]
    refine KeyedWrites.applyAll_of_agree hw fun w' hw' hkey' => ?_
    obtain ⟨-, -, -, hvalue⟩ := hwrites w' hw' (hkey'.trans hkey)
    exact hvalue
  · next hmem =>
    refine KeyedWrites.applyAll_of_unwritten fun w hw hkey => hmem ?_
    obtain ⟨r, hr, rfl, -⟩ := hwrites w hw hkey
    exact List.mem_map_of_mem hr

theorem overlayRows_sub {r : Row} (h : r ∈ overlayRows u c) : r ∈ c.rows := by
  simp only [overlayRows, overlayOwn, overlayCountry, overlayPromos, organizedRows, overlayDecks,
    List.mem_append] at h
  rcases h with (((h | h) | h) | h) | h
  · rcases h with h | h <;> exact (List.mem_filter.1 h).1
  · split at h
    · rcases List.mem_append.1 h with h | h <;> exact (List.mem_filter.1 h).1
    · cases h
  · split at h
    · exact (List.mem_filter.1 h).1
    · cases h
  · exact (List.mem_filter.1 h).1
  · exact (List.mem_filter.1 h).1

/-- The level a fresh connection leaves an object at. -/
def connectLevel (viewer : Option User) (c : Corpus) (row : Row) : DataLevel :=
  if (baseDataLevel viewer = .member ∧ viewer.any fun u => row.uid ∈ (overlayRows u c).map Row.uid)
  then .full else baseDataLevel viewer

theorem connected_row (hrow : row ∈ c.rows) :
    connected viewer c row.key = row.shown (connectLevel viewer c row) := by
  have hbase := holding_base (baseDataLevel viewer) hrow
  cases viewer with
  | none =>
    rw [connected, catchUp, List.append_nil, hbase]
    rfl
  | some u =>
    unfold connected catchUp connectLevel
    by_cases hmember : baseDataLevel (some u) = .member
    · dsimp only
      rw [if_pos hmember, holding_overlaid (fun _ h => overlayRows_sub h) hrow, hbase]
      by_cases hmem : row.uid ∈ (overlayRows u c).map Row.uid
      · rw [if_pos hmem, if_pos ⟨hmember, by simpa using hmem⟩]
      · rw [if_neg hmem, if_neg fun h => hmem (by simpa using h.2)]
    · dsimp only
      rw [if_neg hmember, List.append_nil, hbase, if_neg fun h => hmember h.1]

theorem delivered_row (hrow : row ∈ c.rows) :
    delivered viewer c row.key = row.shown (liveLevel viewer c row) := by
  rw [delivered, Corpus.row?_key hrow]
  rfl

/-! ### Where the two levels meet -/

/-- The row has the country of an NC. -/
def SameCountry (u : User) (row : Row) : Prop :=
  .nc ∈ u.roles ∧ given u.country ∧ given (row.text "country") ∧ u.country = row.text "country"

/-- A deck the viewer reads as an organizer of a tournament marked deleted. -/
def ThroughDeleted (u : User) (c : Corpus) (row : Row) : Prop :=
  row.type = .deck ∧ row.text "user_uid" ≠ some u.uid ∧ u.uid ∈ c.orgUids row ∧
    ∃ t, (row.text "tournament_uid").bind c.tournament? = some t ∧ t.deletedAt ≠ none

/-- A member reads no deck through a deleted tournament; a user who is no member has no promo, no
country and no organized object to read as an official. -/
def ReadsAlike (viewer : Option User) (c : Corpus) (row : Row) : Prop :=
  row.isDeleted = true ∨ ∀ u, viewer = some u → .ic ∈ u.roles ∨
    if given u.veknId then ¬ThroughDeleted u c row
    else ¬(row.type = .promo ∧ .nc ∈ u.roles) ∧ ¬SameCountry u row ∧ u.uid ∉ c.orgUids row

theorem field_missing {key : String} (h : key ∉ structFields row.type) :
    field row.fullData key = .null := by
  rw [field, Row.fullData, Fields.get_tabulate_none row.value h]
  rfl

theorem text_missing {key : String} (hkey : key ∉ userOwnerOnlyFields)
    (h : key ∉ structFields row.type) : row.text key = none := by
  rw [Row.text, field_computeFull hkey, field_missing h]
  rfl

theorem organizers_missing (h : "organizers_uids" ∉ structFields row.type) :
    row.organizersUids = [] := by
  rw [Row.organizersUids, field_computeFull (by decide), field_missing h]
  rfl

theorem not_sameCountry (h : "country" ∉ structFields row.type) : ¬SameCountry u row := by
  rintro ⟨-, -, hgiven, -⟩
  rw [text_missing (by decide) h] at hgiven
  cases hgiven

theorem not_organizer (htype : row.type ≠ .deck) (h : "organizers_uids" ∉ structFields row.type) :
    u.uid ∉ c.orgUids row := by
  rw [Corpus.orgUids, if_neg htype, organizers_missing h]
  exact List.not_mem_nil

section Overlaid

variable (hrow : row ∈ c.rows) (hlive : row.deletedAt = none)
include hrow hlive

theorem mem_overlayOwn : row ∈ overlayOwn u c ↔
    row.type = .user ∧ row.uid = u.uid ∨ row.type = .deck ∧ row.text "user_uid" = some u.uid := by
  simp only [overlayOwn, List.mem_append, List.mem_filter, decide_eq_true_eq, hrow, hlive,
    true_and, and_true]

theorem mem_overlayCountry : row ∈ overlayCountry u c ↔
    (given u.country = true ∧ .nc ∈ u.roles) ∧
      (row.type = .user ∨ row.type = .tournament) ∧ row.text "country" = u.country := by
  simp only [overlayCountry, List.mem_ite_nil_right, List.mem_append, List.mem_filter,
    decide_eq_true_eq, hrow, hlive, true_and, and_true, ← or_and_right]

theorem mem_overlayPromos : row ∈ overlayPromos u c ↔ .nc ∈ u.roles ∧ row.type = .promo := by
  simp only [overlayPromos, List.mem_ite_nil_right, List.mem_filter, decide_eq_true_eq, hrow,
    hlive, true_and, and_true]

theorem mem_organizedRows : row ∈ organizedRows u c ↔
    row.type = .tournament ∧ u.uid ∈ row.organizersUids := by
  simp only [organizedRows, List.mem_filter, decide_eq_true_eq, hrow, hlive, true_and, and_true]

theorem mem_overlayDecks : row ∈ overlayDecks u c ↔ row.type = .deck ∧
    ((organizedRows u c).find? fun t => some t.uid = row.text "tournament_uid").any (fun t =>
      deckOrgUids row.isPrivate (t.text "state") [u.uid] ≠ []) = true := by
  simp only [overlayDecks, List.mem_filter, decide_eq_true_eq, hrow, hlive, true_and]

omit hlive in
theorem overlaid_iff : row.uid ∈ (overlayRows u c).map Row.uid ↔
    (((row ∈ overlayOwn u c ∨ row ∈ overlayCountry u c) ∨ row ∈ overlayPromos u c) ∨
      row ∈ organizedRows u c) ∨ row ∈ overlayDecks u c := by
  have hmem : row.uid ∈ (overlayRows u c).map Row.uid ↔ row ∈ overlayRows u c := by
    rw [List.mem_map]
    constructor
    · rintro ⟨r, hr, huid⟩
      rwa [← c.row_eq (overlayRows_sub hr) hrow huid]
    · exact fun h => ⟨row, h, rfl⟩
  rw [hmem, overlayRows, List.mem_append, List.mem_append, List.mem_append, List.mem_append]

end Overlaid

/-! ### One rule against the other -/

theorem mem_deckOrgUids {isPrivate : Bool} {state : Option String} {uids : List String} :
    u.uid ∈ deckOrgUids isPrivate state uids ↔
      deckOrgUids isPrivate state [u.uid] ≠ [] ∧ u.uid ∈ uids := by
  unfold deckOrgUids
  split <;> simp

theorem find_organized {uid : Option String} :
    ((organizedRows u c).find? fun t => some t.uid = uid) =
      (uid.bind c.tournament?).filter fun t => u.uid ∈ t.organizersUids ∧ t.deletedAt = none := by
  ext t
  rw [Option.filter_eq_some_iff]
  constructor
  · intro hfind
    have huid : some t.uid = uid := by simpa using List.find?_some hfind
    have hmem := List.mem_of_find?_eq_some hfind
    simp only [organizedRows, List.mem_filter, decide_eq_true_eq] at hmem
    obtain ⟨hrow, htype, horg⟩ := hmem
    have hkey : t.key = (.tournament, t.uid) := by rw [Row.key, htype]
    refine ⟨?_, by simpa using horg⟩
    rw [← huid, Option.bind_some, Corpus.tournament?, ← hkey]
    exact c.row?_key hrow
  · rintro ⟨hbind, horg⟩
    obtain ⟨uid', rfl, htournament⟩ := Option.bind_eq_some_iff.1 hbind
    obtain ⟨hrow, hkey⟩ := Corpus.row?_some htournament
    have htype : t.type = .tournament := congrArg Prod.fst hkey
    have huid : t.uid = uid' := congrArg Prod.snd hkey
    have hmem : t ∈ organizedRows u c := by
      simp only [organizedRows, List.mem_filter, decide_eq_true_eq]
      exact ⟨hrow, htype, by simpa using horg⟩
    obtain ⟨t', ht'⟩ : ∃ t', (organizedRows u c).find?
        (fun t => some t.uid = some uid') = some t' := by
      rw [← Option.ne_none_iff_exists', ne_eq, List.find?_eq_none]
      exact fun h => h t hmem (by simpa using huid)
    have huid' : some t'.uid = some uid' := by simpa using List.find?_some ht'
    have hrow' := (List.mem_filter.1 (List.mem_of_find?_eq_some ht')).1
    rw [ht', c.row_eq hrow' hrow ((Option.some.inj huid').trans huid.symm)]

theorem overlaidDeck_iff (hdeck : row.type = .deck) :
    (((organizedRows u c).find? fun t => some t.uid = row.text "tournament_uid").any (fun t =>
      deckOrgUids row.isPrivate (t.text "state") [u.uid] ≠ []) = true) ↔
    u.uid ∈ c.orgUids row ∧
      ∀ t, (row.text "tournament_uid").bind c.tournament? = some t → t.deletedAt = none := by
  rw [find_organized, Corpus.orgUids, if_pos hdeck]
  cases htournament : (row.text "tournament_uid").bind c.tournament? with
  | none => simp
  | some t =>
    dsimp only
    rw [mem_deckOrgUids]
    by_cases horg : u.uid ∈ t.organizersUids ∧ t.deletedAt = none
    · simp [Option.filter_some, horg]
    · simp only [Option.filter_some, horg, decide_false, Bool.false_eq_true, if_false,
        Option.any_none, false_iff, Option.some.injEq, forall_eq']
      exact fun h => horg ⟨h.1.2, h.2⟩

/-- What lets a viewer who is not IC read a row in full on the live stream. -/
def ReadsFull (u : User) (c : Corpus) (row : Row) : Prop :=
  (row.type = .promo ∧ .nc ∈ u.roles) ∨ SameCountry u row ∨ u.uid ∈ c.orgUids row ∨
    given u.veknId = true ∧
      (row.type = .user ∧ row.uid = u.uid ∨ row.type = .deck ∧ row.text "user_uid" = some u.uid)

theorem liveLevel_of_reads (h : ReadsFull u c row) : liveLevel (some u) c row = .full := by
  unfold liveLevel entitledLevel
  dsimp only
  split_ifs with hic hpromo hcountry horg hvekn huser hdeck
  all_goals first | rfl | exfalso
  · rcases h with h | h | h | ⟨-, h | h⟩
    exacts [hpromo h, hcountry h, horg h, huser h, hdeck h]
  · rcases h with h | h | h | ⟨h, -⟩
    exacts [hpromo h, hcountry h, horg h, hvekn h]

theorem liveLevel_of_not_reads (hic : .ic ∉ u.roles) (h : ¬ReadsFull u c row) :
    liveLevel (some u) c row = baseDataLevel (some u) := by
  have hpromo : ¬(row.type = .promo ∧ .nc ∈ u.roles) := fun hp => h (.inl hp)
  have hcountry : ¬SameCountry u row := fun hc => h (.inr (.inl hc))
  have horg : u.uid ∉ c.orgUids row := fun ho => h (.inr (.inr (.inl ho)))
  unfold liveLevel entitledLevel baseDataLevel
  unfold SameCountry at hcountry
  dsimp only
  rw [if_neg hic, if_neg hic, if_neg hpromo, if_neg hcountry, if_neg horg]
  by_cases hvekn : given u.veknId = true
  · rw [if_pos hvekn, if_pos hvekn,
      if_neg fun huser => h (.inr (.inr (.inr ⟨hvekn, .inl huser⟩))),
      if_neg fun hdeck => h (.inr (.inr (.inr ⟨hvekn, .inr hdeck⟩)))]
  · rw [if_neg hvekn, if_neg hvekn]

theorem sameCountry_iff : SameCountry u row ↔
    (given u.country = true ∧ .nc ∈ u.roles) ∧ row.text "country" = u.country := by
  constructor
  · rintro ⟨hnc, hgiven, -, hsame⟩
    exact ⟨⟨hgiven, hnc⟩, hsame.symm⟩
  · rintro ⟨⟨hgiven, hnc⟩, hsame⟩
    exact ⟨hnc, hgiven, hsame ▸ hgiven, hsame.symm⟩

theorem overlaid_iff_reads (hrow : row ∈ c.rows) (hlive : row.deletedAt = none)
    (hmember : given u.veknId = true) (hleague : row.type ≠ .league) :
    row.uid ∈ (overlayRows u c).map Row.uid ↔ ReadsFull u c row ∧ ¬ThroughDeleted u c row := by
  rw [overlaid_iff hrow, mem_overlayOwn hrow hlive, mem_overlayCountry hrow hlive,
    mem_overlayPromos hrow hlive, mem_organizedRows hrow hlive, mem_overlayDecks hrow hlive]
  unfold ReadsFull ThroughDeleted
  cases htype : row.type with
  | league => exact absurd htype hleague
  | user =>
    have horg : u.uid ∉ c.orgUids row := not_organizer (by simp [htype]) (by rw [htype]; decide)
    simp only [reduceCtorEq, false_and, and_false, or_false, false_or, not_false_eq_true, and_true,
      true_and, sameCountry_iff, horg, hmember]
    exact or_comm
  | sanction =>
    have horg : u.uid ∉ c.orgUids row := not_organizer (by simp [htype]) (by rw [htype]; decide)
    have hcountry : ¬SameCountry u row := not_sameCountry (by rw [htype]; decide)
    simp only [reduceCtorEq, false_and, and_false, or_false, hcountry, horg]
  | promo =>
    have horg : u.uid ∉ c.orgUids row := not_organizer (by simp [htype]) (by rw [htype]; decide)
    have hcountry : ¬SameCountry u row := not_sameCountry (by rw [htype]; decide)
    simp only [reduceCtorEq, false_and, and_false, or_false, false_or, not_false_eq_true, and_true,
      true_and, hcountry, horg]
  | tournament =>
    have horg : c.orgUids row = row.organizersUids := if_neg (by simp [htype])
    simp only [reduceCtorEq, false_and, and_false, or_false, false_or, not_false_eq_true, and_true,
      true_and, or_true, sameCountry_iff, horg]
  | deck =>
    have hcountry : ¬SameCountry u row := not_sameCountry (by rw [htype]; decide)
    rw [overlaidDeck_iff htype]
    simp only [reduceCtorEq, false_and, and_false, or_false, false_or, true_and, hcountry,
      hmember, ne_eq, not_and, not_exists, Decidable.not_not]
    by_cases hown : row.text "user_uid" = some u.uid
    · simp only [hown, true_or, or_true, not_true_eq_false, false_imp_iff, and_true]
    · simp only [hown, false_or, or_false, not_false_eq_true, true_imp_iff]
      exact and_congr_right fun horg => ⟨fun h _ => h, fun h => h horg⟩

/-! ### Live and connected -/

theorem level_of_ic (c : Corpus) (row : Row) (hic : .ic ∈ u.roles) :
    liveLevel (some u) c row = .full ∧ connectLevel (some u) c row = .full := by
  have hbase : baseDataLevel (some u) = .full := if_pos hic
  refine ⟨if_pos hic, ?_⟩
  rw [connectLevel, hbase, if_neg fun h => nomatch h.1]

theorem connectLevel_of_outsider (c : Corpus) (row : Row) (hic : .ic ∉ u.roles)
    (hvekn : ¬given u.veknId = true) :
    connectLevel (some u) c row = .pub ∧ baseDataLevel (some u) = .pub := by
  have hbase : baseDataLevel (some u) = .pub := by
    unfold baseDataLevel
    dsimp only
    rw [if_neg hic, if_neg hvekn]
  refine ⟨?_, hbase⟩
  rw [connectLevel, hbase, if_neg fun h => nomatch h.1]

theorem connectLevel_of_member (c : Corpus) (row : Row) (hic : .ic ∉ u.roles)
    (hvekn : given u.veknId = true) :
    connectLevel (some u) c row =
      (if row.uid ∈ (overlayRows u c).map Row.uid then .full else .member) ∧
    baseDataLevel (some u) = .member := by
  have hbase : baseDataLevel (some u) = .member := by
    unfold baseDataLevel
    dsimp only
    rw [if_neg hic, if_pos hvekn]
  refine ⟨?_, hbase⟩
  rw [connectLevel, hbase]
  simp only [Option.any_some, decide_eq_true_eq, true_and]

theorem shown_eq_iff (hrow : row ∈ c.rows) (hlive : row.isDeleted = false) (hic : .ic ∉ u.roles) :
    row.shown (connectLevel (some u) c row) = row.shown (liveLevel (some u) c row) ↔
      if given u.veknId then ¬ThroughDeleted u c row
      else ¬(row.type = .promo ∧ .nc ∈ u.roles) ∧ ¬SameCountry u row ∧ u.uid ∉ c.orgUids row := by
  by_cases hvekn : given u.veknId = true
  · obtain ⟨hconnect, hbase⟩ := connectLevel_of_member c row hic hvekn
    rw [if_pos hvekn, hconnect]
    by_cases hleague : row.type = .league
    · have hsame : ∀ {l l' : DataLevel}, (l = .full ∨ l = .member) → (l' = .full ∨ l' = .member) →
          row.shown l = row.shown l' := by
        have hcolumn : row.shown .full = row.shown .member := by
          rw [Row.shown, Row.shown, Row.column_league hleague]
        rintro l l' (rfl | rfl) (rfl | rfl)
        exacts [rfl, hcolumn, hcolumn.symm, rfl]
      have hlevel : liveLevel (some u) c row = .full ∨ liveLevel (some u) c row = .member := by
        by_cases hreads : ReadsFull u c row
        · exact .inl (liveLevel_of_reads hreads)
        · exact .inr ((liveLevel_of_not_reads hic hreads).trans hbase)
      refine iff_of_true (hsame ?_ hlevel) fun h => nomatch h.1.symm.trans hleague
      split <;> simp
    · have hoverlaid := overlaid_iff_reads (u := u) hrow (Row.deletedAt_of_live hlive) hvekn hleague
      by_cases hreads : ReadsFull u c row
      · rw [liveLevel_of_reads hreads]
        by_cases hthrough : ThroughDeleted u c row
        · rw [if_neg fun h => (hoverlaid.1 h).2 hthrough]
          refine iff_of_false (fun heq => ?_) (not_not_intro hthrough)
          exact Row.shown_full_ne_member hlive hthrough.1 heq.symm
        · rw [if_pos (hoverlaid.2 ⟨hreads, hthrough⟩)]
          exact iff_of_true rfl hthrough
      · rw [liveLevel_of_not_reads hic hreads, hbase, if_neg fun h => hreads (hoverlaid.1 h).1]
        exact iff_of_true rfl fun h => hreads (.inr (.inr (.inl h.2.2.1)))
  · obtain ⟨hconnect, hbase⟩ := connectLevel_of_outsider c row hic hvekn
    rw [if_neg hvekn, hconnect]
    by_cases hreads : ReadsFull u c row
    · rw [liveLevel_of_reads hreads]
      refine iff_of_false (Row.shown_full_ne_pub hlive).symm fun h => ?_
      rcases hreads with hpromo | hcountry | horg | hmember
      exacts [h.1 hpromo, h.2.1 hcountry, h.2.2 horg, hvekn hmember.1]
    · rw [liveLevel_of_not_reads hic hreads, hbase]
      exact iff_of_true rfl ⟨fun h => hreads (.inl h), fun h => hreads (.inr (.inl h)),
        fun h => hreads (.inr (.inr (.inl h)))⟩

/-- A fresh connection leaves a viewer the object as the live stream delivers it exactly when the
two rules let the viewer read it alike. -/
theorem connected_eq_delivered_iff (viewer : Option User) (c : Corpus) (row : Row)
    (hrow : row ∈ c.rows) :
    connected viewer c row.key = delivered viewer c row.key ↔ ReadsAlike viewer c row := by
  rw [connected_row hrow, delivered_row hrow, ReadsAlike]
  cases hlive : row.isDeleted with
  | true =>
    rw [Row.shown_of_deleted hlive, Row.shown_of_deleted hlive]
    exact iff_of_true rfl (.inl rfl)
  | false =>
    cases viewer with
    | none => exact iff_of_true rfl (.inr fun u h => nomatch h)
    | some u =>
      by_cases hic : .ic ∈ u.roles
      · obtain ⟨hlevel, hconnect⟩ := level_of_ic c row hic
        rw [hlevel, hconnect]
        refine iff_of_true rfl (.inr fun u' h => ?_)
        obtain rfl := Option.some.inj h
        exact .inl hic
      · rw [shown_eq_iff hrow hlive hic]
        simp [hic]

/-! ### A user who is no member -/

/-- A row of a document with these fields, the others null. -/
def rowOf (uid : String) (type : ObjectType) (fields : List (String × JsonValue)) : Row where
  uid := uid
  type := type
  modifiedAt := "2025-06-01T12:00:00"
  deletedAt := none
  value := fun k => if k = "uid" then .text uid else (Fields.get fields k).getD .null
  named := if_pos rfl
  stamped := by decide
  marked := fun h => absurd rfl h

/-- An event that lists one organizer. -/
def organizedEvent : Row :=
  rowOf "event" .tournament [("state", .text "Planned"), ("organizers_uids", .array [.text "ann"])]

def organizedCorpus : Corpus := ⟨[organizedEvent], List.nodup_singleton _⟩

def account (uid : String) (veknId : Option String) : User where
  uid := uid
  modified := ""
  name := uid
  country := none
  veknId := veknId
  contactEmail := none
  roles := []
  cooptedBy := none
  cooptedAt := none
  wins := []
  ratings := fun _ => none
  anonymizedAt := none
  deletedAt := none

/-- A member who organizes the event holds it alike after both. -/
theorem member_organizer : connected (some (account "ann" (some "1000001"))) organizedCorpus
    organizedEvent.key = delivered (some (account "ann" (some "1000001"))) organizedCorpus
      organizedEvent.key :=
  (connected_eq_delivered_iff _ organizedCorpus organizedEvent (List.mem_singleton.2 rfl)).2
    (.inr fun u h => by
      obtain rfl := Option.some.inj h
      exact .inr (fun hthrough => nomatch hthrough.1))

/-- An organizer without a VEKN id receives the event in full and holds it in public after the
next connection. -/
theorem outsider_organizer : connected (some (account "ann" none)) organizedCorpus
    organizedEvent.key ≠ delivered (some (account "ann" none)) organizedCorpus
      organizedEvent.key := by
  have hrow : organizedEvent ∈ organizedCorpus.rows := List.mem_singleton.2 rfl
  have hic : .ic ∉ (account "ann" none).roles := List.not_mem_nil
  have horg : (account "ann" none).uid ∈ organizedCorpus.orgUids organizedEvent := by decide
  rw [connected_row hrow, delivered_row hrow, liveLevel_of_reads (.inr (.inr (.inl horg))),
    (connectLevel_of_outsider organizedCorpus organizedEvent hic (by decide)).1]
  exact (Row.shown_full_ne_pub rfl).symm

/-! ### Two situations with one access version -/

section SameVersion

variable {c' : Corpus} {u' : User}

/-- The inputs of the version that the overlay of a user reads. -/
structure SameAccess (u u' : User) : Prop where
  uid : u.uid = u'.uid
  level : baseDataLevel (some u) = baseDataLevel (some u')
  nc : .nc ∈ u.roles ↔ .nc ∈ u'.roles
  country : .nc ∈ u.roles → u.country = u'.country

theorem SameAccess.symm (h : SameAccess u u') : SameAccess u' u :=
  ⟨h.uid.symm, h.level.symm, h.nc.symm, fun hnc => (h.country (h.nc.2 hnc)).symm⟩

end SameVersion

end Archon.Access

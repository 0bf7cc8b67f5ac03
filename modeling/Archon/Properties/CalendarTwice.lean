import Archon.Backend.VeknCalendar
import Archon.Properties.AppOwned
import Archon.Properties.ShortLinks

/-!
# A second scan of the calendar

What the scan writes into a row is what it compares the row with, so a row it has written compares
equal the next time. A row is written for one event only: that of the id it holds.
-/

namespace Archon.Backend
open Engine Guards

/-! ### A row the scan has written -/

/-- The ids of the cities are GeoNames ids. -/
def GeonameIds (matchCity : String → String → String → CityFill) : Prop :=
  ∀ name country address, ∀ f ∈ matchCity name country address, 0 < f.2 ∧ f.2 ≤ JsonValue.u64Max

section Written

variable {matchCity : String → String → String → CityFill} {t t' : TimedTournament}
variable {r r' : StoredTournament} {event : VeknEvent}
variable {twdaScores : Option (String → Option TwdaScore)} {e : VeknTournament} {fill : CityFill}
variable {now : Stamp}

theorem asStr_ofOption (s : Option String) : (JsonValue.ofOption s).asStr = s := by
  cases s <;> rfl

theorem asUsize_natCast {k : ℕ} (h : k ≤ JsonValue.u64Max) :
    (JsonValue.number (k : ℚ)).asUsize = some k := by
  have hfloor : Rat.floor (k : ℚ) = (k : ℤ) := Rat.floor_intCast k
  rw [JsonValue.asUsize, JsonValue.asUnsigned, hfloor, Int.toNat_natCast,
    if_pos ⟨Nat.cast_nonneg k, h⟩]

/-- The row has the place and the kind of the event. -/
structure PlacedAs (r : StoredTournament) (e : VeknTournament) : Prop where
  format : r.doc.text .format = e.format
  rank : r.doc.text .rank = e.rank
  start : (r.doc.config .start).asStr = e.start
  country : r.country = e.country
  online : r.doc.flag .online = e.online
  venue : r.doc.text .venue = e.venue
  address : r.doc.text .address = e.address
  venueUrl : r.doc.text .venueUrl = e.venueUrl
  mapUrl : r.doc.text .mapUrl = e.mapUrl
  proxies : r.doc.flag .proxies = e.proxies

theorem PlacedAs.unchanged (h : PlacedAs r e) : placeChanged r e = false := by
  unfold placeChanged
  rw [h.format, h.rank, h.start, h.country, h.online, h.venue, h.address, h.venueUrl, h.mapUrl,
    h.proxies]
  simp

/-- The event mapped for the row, with the line of the archive if there is one. -/
def mappedFor (r : StoredTournament) (event : VeknEvent)
    (twdaScores : Option (String → Option TwdaScore)) : VeknTournament :=
  ((twdaScores.bind fun scores => scores (archiveKey r)).bind event.mappedWith).getD event.mapped

/-- The event without a place of its own, on the place of the row. -/
def onPlaceOf (r : StoredTournament) (m : VeknTournament) : VeknTournament :=
  { m with
    country := r.country
    venue := r.doc.text .venue
    venueUrl := r.doc.text .venueUrl
    address := r.doc.text .address
    mapUrl := r.doc.text .mapUrl }

theorem incoming_placeholder (h : event.placeholderVenue = true) :
    incoming r event twdaScores = onPlaceOf r (mappedFor r event twdaScores) := by
  unfold incoming
  extract_lets mapped placed
  have hplaced : placed = onPlaceOf r (mappedFor r event twdaScores) := if_pos h
  rw [hplaced]
  split <;> rfl

theorem incoming_own (h : event.placeholderVenue = false) :
    incoming r event twdaScores =
      if ((mappedFor r event twdaScores).country = none ∨
          (mappedFor r event twdaScores).country = some "XX") ∧
          (mappedFor r event twdaScores).online = false then
        { mappedFor r event twdaScores with country := r.country }
      else mappedFor r event twdaScores := by
  unfold incoming
  extract_lets mapped placed
  have hplaced : placed = mappedFor r event twdaScores :=
      if_neg (by rw [h]; exact Bool.false_ne_true)
  rw [hplaced]

theorem incoming_again (hkey : archiveKey r' = archiveKey r)
    (h : PlacedAs r' (incoming r event twdaScores)) :
    incoming r' event twdaScores = incoming r event twdaScores := by
  have hmapped : mappedFor r' event twdaScores = mappedFor r event twdaScores := by
    rw [mappedFor, mappedFor, hkey]
  cases hplaceholder : event.placeholderVenue with
  | true =>
    rw [incoming_placeholder hplaceholder] at h ⊢
    rw [incoming_placeholder hplaceholder, hmapped]
    unfold onPlaceOf
    rw [h.country, h.venue, h.venueUrl, h.address, h.mapUrl]
    rfl
  | false =>
    rw [incoming_own hplaceholder] at h ⊢
    rw [incoming_own hplaceholder, hmapped]
    split_ifs at h ⊢
    · rw [h.country]
    · rfl

theorem cityFill_again (hcities : GeonameIds matchCity) {online : Bool} {country : Option String}
    {name address : String}
    (hcity : t'.doc.config .cityGeonameId = (cityFill matchCity t online country name address).elim
      (t.doc.config .cityGeonameId) fun c => .number c.2) :
    cityFill matchCity t' online country name address = none := by
  cases hfill : cityFill matchCity t online country name address with
  | none =>
    rw [hfill] at hcity
    have hcount : t'.doc.count .cityGeonameId = t.doc.count .cityGeonameId := by
      rw [Tournament.count, hcity]
      rfl
    rwa [cityFill, hcount]
  | some f =>
    rw [hfill] at hcity
    have hids : 0 < f.2 ∧ f.2 ≤ JsonValue.u64Max := by
      unfold cityFill at hfill
      split_ifs at hfill
      exact hcities _ _ _ f hfill
    refine cityFill_eq_none ?_
    rw [Tournament.count, hcity]
    change ((JsonValue.number f.2).asUsize).getD 0 ≠ 0
    rw [asUsize_natCast hids.2]
    exact Nat.pos_iff_ne_zero.1 hids.1

/-! ### The organizers -/

theorem eraseDups_eraseDups {α : Type} [DecidableEq α] (l : List α) :
    l.eraseDups.eraseDups = l.eraseDups := by
  induction hlength : l.length using Nat.strong_induction_on generalizing l with
  | _ k ih =>
    cases l with
    | nil => rfl
    | cons a as =>
      have hshort : (as.filter fun b => !b == a).length < k := by
        rw [← hlength]
        exact Nat.lt_succ_of_le (List.length_filter_le _ as)
      have hfree : ((as.filter fun b => !b == a).eraseDups.filter fun b => !b == a) =
          (as.filter fun b => !b == a).eraseDups :=
        List.filter_eq_self.2 fun b hb => (List.mem_filter.1 (List.mem_eraseDups.1 hb)).2
      rw [List.eraseDups_cons, List.eraseDups_cons, hfree, ih _ hshort _ rfl]

theorem mergedOrganizers_again (h : r'.doc.organizersUids = mergedOrganizers r e) :
    mergedOrganizers r' e = r'.doc.organizersUids := by
  have hnone : e.organizersUids.removeAll (r.doc.organizersUids ++ e.organizersUids).eraseDups =
      [] := by
    refine List.filter_eq_nil_iff.2 fun uid huid => ?_
    simp [huid]
  rw [mergedOrganizers, h, mergedOrganizers, List.eraseDups_append, eraseDups_eraseDups, hnone,
    List.eraseDups_nil, List.append_nil]

/-! ### The two writes -/

theorem placedAs_refreshed : PlacedAs (refreshed t e fill now).toStoredTournament e where
  format := rfl
  rank := rfl
  start := asStr_ofOption e.start
  country := asStr_ofOption e.country
  online := rfl
  venue := rfl
  address := rfl
  venueUrl := rfl
  mapUrl := rfl
  proxies := rfl

theorem placedAs_rebuilt {eventId : String} :
    PlacedAs (rebuilt t e fill eventId now).toStoredTournament e where
  format := rfl
  rank := rfl
  start := asStr_ofOption e.start
  country := asStr_ofOption e.country
  online := rfl
  venue := rfl
  address := rfl
  venueUrl := rfl
  mapUrl := rfl
  proxies := rfl

theorem archiveKey_rebuilt {eventId : String} :
    archiveKey (rebuilt t e fill eventId now).toStoredTournament =
      archiveKey t.toStoredTournament := by
  have hentry : (rebuilt t e fill eventId now).externalId "twda_entry" =
      t.externalId "twda_entry" :=
    lookup_setExternalId (by decide)
  have htwda : (rebuilt t e fill eventId now).externalId "twda" = t.externalId "twda" :=
    lookup_setExternalId (by decide)
  rw [archiveKey, archiveKey, hentry, htwda]

theorem compared_again (hcities : GeonameIds matchCity)
    (hkey : archiveKey t'.toStoredTournament = archiveKey t.toStoredTournament)
    (hplaced : PlacedAs t'.toStoredTournament (compared matchCity t event twdaScores).1)
    (hcity : t'.doc.config .cityGeonameId = (compared matchCity t event twdaScores).2.elim
      (t.doc.config .cityGeonameId) fun c => .number c.2) :
    compared matchCity t' event twdaScores = ((compared matchCity t event twdaScores).1, none) := by
  have hincoming := incoming_again hkey hplaced
  unfold compared at hcity ⊢
  dsimp only at hcity ⊢
  rw [hincoming, cityFill_again hcities hcity]

theorem maxRounds_of_encodable {x : TimedTournament} {k : ℕ}
    (h : x.doc.config .maxRounds = .number k) (hx : x.encodable = true) : x.doc.maxRounds = k := by
  unfold StoredTournament.encodable at hx
  rw [h] at hx
  have hle : k ≤ JsonValue.u64Max := by exact_mod_cast of_decide_eq_true hx
  rw [Tournament.maxRounds, Tournament.count, h, asUsize_natCast hle]
  rfl

theorem unchanged_of_refreshed (hcities : GeonameIds matchCity)
    (h : syncOutcome matchCity t event twdaScores = .refreshed)
    (hsaved : (refreshed t (compared matchCity t event twdaScores).1
      (compared matchCity t event twdaScores).2 now).encodable = true) :
    syncOutcome matchCity (refreshed t (compared matchCity t event twdaScores).1
      (compared matchCity t event twdaScores).2 now) event twdaScores = .unchanged := by
  have hbranch : t.doc.rounds ≠ [] ∨ (compared matchCity t event twdaScores).1.players = [] :=
    (syncOutcome_eq_refreshed.1 h).1
  have hcompared := @compared_again matchCity t (refreshed t
    (compared matchCity t event twdaScores).1 (compared matchCity t event twdaScores).2 now) event
    twdaScores hcities rfl placedAs_refreshed (by
      generalize (compared matchCity t event twdaScores).2 = fill
      cases fill <;> rfl)
  generalize (compared matchCity t event twdaScores).1 = e at *
  generalize (compared matchCity t event twdaScores).2 = fill at *
  have hrounds : roundsFill (refreshed t e fill now).toStoredTournament e = false := by
    by_cases hfill : roundsFill t.toStoredTournament e = true
    · have hmax : (refreshed t e fill now).doc.maxRounds = e.maxRounds :=
        maxRounds_of_encodable (if_pos hfill) hsaved
      simp [roundsFill, hmax]
    · have hconfig : (refreshed t e fill now).doc.config .maxRounds = t.doc.config .maxRounds :=
        if_neg hfill
      have hmax : (refreshed t e fill now).doc.maxRounds = t.doc.maxRounds := by
        rw [Tournament.maxRounds, Tournament.count, hconfig]
        rfl
      rw [Bool.not_eq_true] at hfill
      rw [← hfill, roundsFill, hmax]
      rfl
  unfold syncOutcome
  rw [hcompared]
  dsimp only
  have hsame : (refreshed t e fill now).doc.rounds ≠ [] ∨ e.players = [] := hbranch
  rw [if_pos hsame, metaChanged, placedAs_refreshed.unchanged, hrounds,
    mergedOrganizers_again (r := t.toStoredTournament) rfl]
  simp

theorem unchanged_of_rebuilt (hcities : GeonameIds matchCity)
    (h : syncOutcome matchCity t event twdaScores = .rebuilt)
    (hsaved : (rebuilt t (compared matchCity t event twdaScores).1
      (compared matchCity t event twdaScores).2 event.eventId now).encodable = true) :
    syncOutcome matchCity (rebuilt t (compared matchCity t event twdaScores).1
      (compared matchCity t event twdaScores).2 event.eventId now) event twdaScores =
        .unchanged := by
  have hplayers : (compared matchCity t event twdaScores).1.players ≠ [] :=
    (syncOutcome_eq_rebuilt.1 h).2.1
  have hcompared := @compared_again matchCity t (rebuilt t
    (compared matchCity t event twdaScores).1 (compared matchCity t event twdaScores).2
    event.eventId now) event twdaScores hcities archiveKey_rebuilt placedAs_rebuilt (by
      generalize (compared matchCity t event twdaScores).2 = fill
      cases fill <;> rfl)
  generalize (compared matchCity t event twdaScores).1 = e at *
  generalize (compared matchCity t event twdaScores).2 = fill at *
  have hmax : (rebuilt t e fill event.eventId now).doc.maxRounds = e.maxRounds :=
    maxRounds_of_encodable rfl hsaved
  have hbranch : ¬((rebuilt t e fill event.eventId now).doc.rounds ≠ [] ∨ e.players = []) :=
    not_or.2 ⟨not_not.2 rfl, hplayers⟩
  have hplay : playChanged (rebuilt t e fill event.eventId now).toStoredTournament e none =
      false := by
    rw [playChanged, placedAs_rebuilt.unchanged, hmax]
    simp [rebuilt]
  unfold syncOutcome
  rw [hcompared]
  dsimp only
  rw [if_neg hbranch, hplay]
  simp

theorem unchanged_of_synced (hcities : GeonameIds matchCity)
    (hsaved : (syncExisting matchCity t event twdaScores now).encodable = true) :
    syncOutcome matchCity (syncExisting matchCity t event twdaScores now) event twdaScores =
      .unchanged := by
  unfold syncExisting at hsaved ⊢
  dsimp only at hsaved ⊢
  cases h : syncOutcome matchCity t event twdaScores with
  | unchanged => exact h
  | refreshed =>
    rw [h] at hsaved
    exact unchanged_of_refreshed hcities h hsaved
  | rebuilt =>
    rw [h] at hsaved
    exact unchanged_of_rebuilt hcities h hsaved

theorem unchanged_of_new (hcities : GeonameIds matchCity)
    (hmapped : mappedFor t'.toStoredTournament event twdaScores = e)
    (hplaced : PlacedAs t'.toStoredTournament e)
    (hcity : t'.doc.config .cityGeonameId =
      (cityFill matchCity t e.online e.country event.city event.address).elim
        (t.doc.config .cityGeonameId) fun c => .number c.2)
    (hmax : t'.doc.maxRounds = e.maxRounds)
    (horganizers : mergedOrganizers t'.toStoredTournament e = t'.doc.organizersUids)
    (hstate : t'.doc.state = e.state) (hplayers : t'.doc.players = e.players)
    (hwinner : t'.doc.winner = e.winner) (hstandings : t'.doc.standings = e.standings)
    (hfinals : t'.doc.finals = e.finals) :
    syncOutcome matchCity t' event twdaScores = .unchanged := by
  have hincoming : incoming t'.toStoredTournament event twdaScores = e := by
    cases hplaceholder : event.placeholderVenue with
    | true =>
      rw [incoming_placeholder hplaceholder, hmapped, onPlaceOf, hplaced.country, hplaced.venue,
        hplaced.venueUrl, hplaced.address, hplaced.mapUrl]
    | false =>
      rw [incoming_own hplaceholder, hmapped, hplaced.country]
      exact ite_self _
  have hmeta : metaChanged t'.toStoredTournament e none = false := by
    have hfill : roundsFill t'.toStoredTournament e = false := by simp [roundsFill, hmax]
    rw [metaChanged, hplaced.unchanged, horganizers, hfill]
    simp
  have hplay : playChanged t'.toStoredTournament e none = false := by
    rw [playChanged, hplaced.unchanged, hstate, hwinner, hplayers, hmax, hstandings, hfinals]
    simp
  unfold syncOutcome compared
  dsimp only
  rw [hincoming, cityFill_again hcities hcity, hmeta, hplay]
  simp

end Written

/-! ### The same event another night -/

section Nights

variable {c : VeknCalendar} {uids : String → Option Uid} {data : VeknEventData} {m : MappedEvent}
variable {r : StoredTournament} {now now' : Stamp}

theorem mappedFor_night (now now' : Stamp) : ∃ x,
    mappedFor r (c.event uids now' data m) c.scores =
      { mappedFor r (c.event uids now data m) c.scores with veknPushedAt := x } := by
  have hstamp : ∀ e : VeknTournament, ∃ x,
      e.pushedAt now' = { e.pushedAt now with veknPushedAt := x } := by
    intro e
    unfold VeknTournament.pushedAt
    split
    · exact ⟨e.veknPushedAt, rfl⟩
    · exact ⟨some now', rfl⟩
  unfold mappedFor
  cases c.scores.bind fun scores => scores (archiveKey r) with
  | none => exact hstamp m.toVeknTournament
  | some twda =>
    rw [Option.bind_some, Option.bind_some]
    unfold VeknCalendar.event
    dsimp only
    cases (c.map uids data (some twda)).toOption.join with
    | none => exact hstamp m.toVeknTournament
    | some m' => exact hstamp m'.toVeknTournament

theorem incoming_night (now now' : Stamp) : ∃ x,
    incoming r (c.event uids now' data m) c.scores =
      { incoming r (c.event uids now data m) c.scores with veknPushedAt := x } := by
  obtain ⟨x, hx⟩ := @mappedFor_night c uids data m r now now'
  refine ⟨x, ?_⟩
  cases hplaceholder : data.placeholderVenue with
  | true =>
    rw [@incoming_placeholder r (c.event uids now' data m) _ hplaceholder,
      @incoming_placeholder r (c.event uids now data m) _ hplaceholder, hx]
    rfl
  | false =>
    rw [@incoming_own r (c.event uids now' data m) _ hplaceholder,
      @incoming_own r (c.event uids now data m) _ hplaceholder, hx]
    split <;> rfl

theorem syncOutcome_night (now now' : Stamp) :
    syncOutcome c.tables.matchCity r.timed (c.event uids now' data m) c.scores =
      syncOutcome c.tables.matchCity r.timed (c.event uids now data m) c.scores := by
  obtain ⟨x, hx⟩ := @incoming_night c uids data m r now now'
  unfold syncOutcome compared
  dsimp only [StoredTournament.timed]
  rw [hx]
  rfl

theorem encodable_night (now now' : Stamp) :
    (syncExisting c.tables.matchCity r.timed (c.event uids now' data m) c.scores now').encodable =
      (syncExisting c.tables.matchCity r.timed
        (c.event uids now data m) c.scores now).encodable := by
  obtain ⟨x, hx⟩ := @incoming_night c uids data m r now now'
  unfold syncExisting
  rw [syncOutcome_night now now']
  unfold compared
  dsimp only [StoredTournament.timed]
  rw [hx]
  cases syncOutcome c.tables.matchCity ⟨r, .initial, []⟩ (c.event uids now data m) c.scores <;> rfl

/-- Any night the event leaves the row alone: the archive's line cannot be read, nothing differs,
or what differs has no encoding. -/
def RowQuiet (c : VeknCalendar) (uids : String → Option Uid) (data : VeknEventData)
    (m : MappedEvent) (r : StoredTournament) : Prop :=
  scoreUnread c uids data r = true ∨
    syncOutcome c.tables.matchCity r.timed (c.event uids "" data m) c.scores = .unchanged ∨
    (syncExisting c.tables.matchCity r.timed (c.event uids "" data m) c.scores "").encodable = false

theorem RowQuiet.syncLinked {n : Night} {s : Syncing} {ref : StoredTournament}
    (h : RowQuiet c uids data m r) (hr : s.objects.tournament? ref.uid = some r) :
    syncLinked c n uids s data m ref = s := by
  unfold Backend.syncLinked
  rw [hr, Option.getD_some]
  dsimp only
  rcases h with hunread | hsame | hlarge
  · rw [if_pos hunread]
  · rw [syncOutcome_night "" n.now, if_pos hsame, ite_self]
  · rw [encodable_night "" n.now, hlarge]
    simp

end Nights

/-! ### The table along a run -/

/-- Rows under their uid, the column as the document, and no VEKN event id twice among the live. -/
structure CalendarIndex (objects : Objects) : Prop where
  keyed : WellKeyed objects
  column : ∀ uid t d, objects.lookup uid = some ⟨.tournament t, d⟩ → d = t.deletedAt
  holders : ∀ t ∈ liveTournaments objects, ∀ t' ∈ liveTournaments objects, ∀ v, v ≠ "" →
    t.vekn = some v → t'.vekn = some v → t.uid = t'.uid

/-- A second scan has nothing to do for the event: it maps to nothing, or its row is left alone. -/
def Quiet (c : VeknCalendar) (uids : String → Option Uid) (data : VeknEventData)
    (objects : Objects) : Prop :=
  (∀ m, c.map uids data none ≠ .ok (some m)) ∨
    ∃ m, c.map uids data none = .ok (some m) ∧ ∃ t ∈ liveTournaments objects,
      t.vekn = some data.eventId ∧ RowQuiet c uids data m t

/-- Along a run: the index stands, no member was written, the uids to come are free and the events
done are quiet. -/
structure Scanning (c : VeknCalendar) (n : Night) (uids : String → Option Uid)
    (done : List VeknEventData) (s : Syncing) : Prop where
  index : CalendarIndex s.objects
  members : uidsByVeknId s.objects = uids
  fresh : ∀ k, s.drawn ≤ k → s.objects.lookup (n.freshUid k) = none
  quiet : ∀ data ∈ done, Quiet c uids data s.objects

section Table

variable {c : VeknCalendar} {n : Night} {uids : String → Option Uid} {objects : Objects}
variable {s : Syncing} {done : List VeknEventData} {data : VeknEventData} {m : MappedEvent}
variable {t t' o : StoredTournament} {uid : Uid} {v : String}

theorem CalendarIndex.undeleted (h : CalendarIndex objects) (ht : t ∈ liveTournaments objects) :
    t.deletedAt = none := (h.column _ _ _ ((mem_liveTournaments h.keyed).1 ht)).symm

theorem CalendarIndex.tournament? (h : CalendarIndex objects) (ht : t ∈ liveTournaments objects) :
    objects.tournament? t.uid = some t := by
  rw [tournament?_eq_some, find?_eq_some]
  exact ⟨none, (mem_liveTournaments h.keyed).1 ht⟩

theorem CalendarIndex.save (h : CalendarIndex objects)
    (honly : ∀ v, v ≠ "" → t'.vekn = some v → ∀ o ∈ liveTournaments objects, o.vekn = some v →
      o.uid = t'.uid) : CalendarIndex (saveTournament objects t') where
  keyed := wellKeyed_saveTournament h.keyed t'
  column := column_save h.column
  holders t ht o ho v hv htv hov := by
    rw [mem_liveTournaments_save h.keyed] at ht ho
    rcases ht with ⟨rfl, -⟩ | ⟨-, ht⟩
    · rcases ho with ⟨rfl, -⟩ | ⟨-, ho⟩
      · rfl
      · exact (honly v hv htv o ho hov).symm
    · rcases ho with ⟨rfl, -⟩ | ⟨-, ho⟩
      · exact honly v hv hov t ht htv
      · exact h.holders t ht o ho v hv htv hov

theorem uidsByVeknId_save (hno : objects.user? t'.uid = none) :
    uidsByVeknId (saveTournament objects t') = uidsByVeknId objects := by
  have husers : (saveTournament objects t').users = objects.users := by
    refine filterMap_saveObject rfl fun row hold => ?_
    rw [Objects.user?, Objects.find?, hold] at hno
    exact hno
  funext v
  rw [uidsByVeknId, husers, ← uidsByVeknId]

theorem user?_of_live (h : WellKeyed objects) (ht : t ∈ liveTournaments objects) :
    objects.user? t.uid = none := by
  rw [Objects.user?, Objects.find?, (mem_liveTournaments h).1 ht]
  rfl

theorem eventId_of_map (h : c.map uids data none = .ok (some m)) : data.eventId ≠ "" := by
  intro hempty
  have hplaced : data.placed.eventId = "" := by
    unfold VeknEventData.placed
    split <;> exact hempty
  rw [VeknCalendar.map, mapVeknToTournament, if_pos hplaced] at h
  cases h

theorem Quiet.save (h : Quiet c uids data objects) (hkeyed : WellKeyed objects)
    (hne : data.eventId ≠ v)
    (hown : ∀ o ∈ liveTournaments objects, o.uid = t'.uid → o.vekn = some v ∨ o.vekn.getD "" = "") :
    Quiet c uids data (saveTournament objects t') := by
  rcases h with hskip | ⟨m, hm, t, ht, hvekn, hquiet⟩
  · exact .inl hskip
  · refine .inr ⟨m, hm, t, (mem_liveTournaments_save hkeyed).2 (.inr ⟨?_, ht⟩), hvekn, hquiet⟩
    intro huid
    rcases hown t ht huid with hsame | hempty
    · exact hne (Option.some.inj (hvekn.symm.trans hsame))
    · rw [hvekn] at hempty
      exact eventId_of_map hm hempty

theorem Scanning.save (h : Scanning c n uids done s) (hnew : ∀ d ∈ done, d.eventId ≠ v)
    (hvekn : t'.vekn = some v)
    (honly : ∀ o ∈ liveTournaments s.objects, o.vekn = some v → o.uid = t'.uid)
    (ht : t ∈ liveTournaments s.objects) (huid : t'.uid = t.uid)
    (hown : t.vekn = some v ∨ t.vekn.getD "" = "") : Scanning c n uids done (s.save t') where
  index := h.index.save fun w _ hw o ho how =>
    honly o ho (how.trans (hw.symm.trans hvekn))
  members := (uidsByVeknId_save (huid ▸ user?_of_live h.index.keyed ht)).trans h.members
  fresh k hk := by
    have hne : n.freshUid k ≠ t'.uid := by
      intro heq
      have hrow := (mem_liveTournaments h.index.keyed).1 ht
      rw [← huid, ← heq, h.fresh k hk] at hrow
      cases hrow
    exact (lookup_saveTournament_ne hne).trans (h.fresh k hk)
  quiet d hd := (h.quiet d hd).save h.index.keyed (hnew d hd) fun o ho heq => by
    rwa [live_eq_of_uid h.index.keyed ho ht (heq.trans huid)]

theorem Scanning.cons (h : Scanning c n uids done s) (hquiet : Quiet c uids data s.objects) :
    Scanning c n uids (data :: done) s where
  index := h.index
  members := h.members
  fresh := h.fresh
  quiet d hd := by
    rcases List.mem_cons.1 hd with rfl | hd
    · exact hquiet
    · exact h.quiet d hd

theorem holder_of_get (hpick : PicksRow n.pick)
    (h : getTournamentByVeknEventId n.pick objects v = some t) :
    t ∈ liveTournaments objects ∧ t.vekn = some v := by
  have hmem := List.mem_filter.1 (hpick.mem _ _ h)
  exact ⟨hmem.1, by simpa using hmem.2⟩

theorem unclaimed_of_get (hpick : PicksRow n.pick)
    (h : getTournamentByVeknEventId n.pick objects v = none) : Unclaimed objects v := by
  intro t ht hv
  have hnone := List.filter_eq_nil_iff.1 (hpick.found _ h) t ht
  simp [hv] at hnone

/-! ### One event -/

theorem syncExisting_row {matchCity : String → String → String → CityFill} {event : VeknEvent}
    {twdaScores : Option (String → Option TwdaScore)} {now : Stamp} (ht : t.deletedAt = none)
    (hv : t.vekn = some event.eventId) :
    let x := syncExisting matchCity t.timed event twdaScores now
    x.uid = t.uid ∧ x.deletedAt = none ∧ x.vekn = some event.eventId ∧
      x.toStoredTournament.timed = x := by
  unfold syncExisting
  dsimp only
  cases syncOutcome matchCity t.timed event twdaScores with
  | unchanged => exact ⟨rfl, ht, hv, rfl⟩
  | refreshed => exact ⟨rfl, ht, hv, rfl⟩
  | rebuilt => exact ⟨rfl, rfl, lookup_setExternalId_self _ _ _, rfl⟩

theorem Scanning.linked (h : Scanning c n uids done s) (hcities : GeonameIds c.tables.matchCity)
    (hnew : ∀ d ∈ done, d.eventId ≠ data.eventId) (hm : c.map uids data none = .ok (some m))
    (ht : t ∈ liveTournaments s.objects) (hv : t.vekn = some data.eventId) :
    Scanning c n uids (data :: done) (syncLinked c n uids s data m t) := by
  have hstay : RowQuiet c uids data m t → Scanning c n uids (data :: done) s := fun hquiet =>
    h.cons (.inr ⟨m, hm, t, ht, hv, hquiet⟩)
  unfold syncLinked
  rw [h.index.tournament? ht, Option.getD_some]
  dsimp only
  split
  · rename_i hunread
    exact hstay (.inl hunread)
  · split
    · rename_i hsame
      exact hstay (.inr (.inl ((syncOutcome_night n.now "").trans hsame)))
    · split
      · rename_i hencodable
        obtain ⟨huid, hlive, hvekn, htimed⟩ := @syncExisting_row t c.tables.matchCity
          (c.event uids n.now data m) c.scores n.now (h.index.undeleted ht) hv
        have hafter := unchanged_of_synced hcities hencodable
        generalize syncExisting c.tables.matchCity t.timed
          (c.event uids n.now data m) c.scores n.now
          = x at *
        have hsaved : Scanning c n uids done (s.save x.toStoredTournament) := by
          refine h.save hnew hvekn (fun o ho hov => ?_) ht huid (.inl hv)
          rw [huid]
          exact h.index.holders o ho t ht data.eventId (eventId_of_map hm) hov hv
        refine hsaved.cons (.inr ⟨m, hm, x.toStoredTournament, ?_, hvekn, .inr (.inl ?_)⟩)
        · exact (mem_liveTournaments_save h.index.keyed).2 (.inl ⟨rfl, hlive⟩)
        · rw [syncOutcome_night n.now "", htimed]
          exact hafter
      · rename_i hlarge
        rw [Bool.not_eq_true, encodable_night "" n.now] at hlarge
        exact hstay (.inr (.inr hlarge))

/-! ### A new row -/

theorem organizers_of_map (h : c.map uids data none = .ok (some m)) :
    (m.organizersUids ++ m.organizersUids).eraseDups = m.organizersUids := by
  have hfield : m.organizersUids = (uids data.placed.organizerVeknid).toList := by
    rw [VeknCalendar.map, mapVeknToTournament] at h
    split at h
    · cases h
    · split at h
      · obtain rfl := Option.some.inj (Except.ok.inj h)
        rfl
      · obtain ⟨sheet, -, hsheet⟩ := bind_eq_ok.1 h
        have hm := Except.ok.inj hsheet
        cases sheet with
        | none => cases hm
        | some x =>
          obtain rfl := Option.some.inj hm
          rfl
  rw [hfield]
  cases uids data.placed.organizerVeknid <;> simp [List.eraseDups_cons]

theorem adopted_of_adopt {g : Gazetteer} {now : Stamp} {adopted : StoredTournament}
    (h : adoptSameEvent g objects m v now = some adopted) : ∃ copy ∈ liveTournaments objects,
      copy.vekn.getD "" = "" ∧ adopted = (copy.withVekn v).touched now := by
  obtain ⟨start, -, h⟩ := Option.bind_eq_some_iff.1 h
  split at h
  · rename_i copy hfound
    have hcopy : copy ∈ findSameEvent g objects m start := by
      rw [hfound]
      exact List.mem_singleton_self _
    have hlive : copy ∈ liveTournaments objects := by
      unfold findSameEvent at hcopy
      split at hcopy
      · cases hcopy
      · exact (List.mem_filter.1 hcopy).1
    split_ifs at h with hheld hlist
    · exact ⟨copy, hlive, not_not.1 hheld, (Option.some.inj h).symm⟩
  · cases h

theorem rowQuiet_new (hcities : GeonameIds c.tables.matchCity)
    (hscores : ∀ scores ∈ c.scores, scores "" = none)
    (hm : c.map uids data none = .ok (some m)) {now : Stamp} {checkinCode code : String}
    {fill : CityFill}
    (hfill : fill = cityFill c.tables.matchCity
      (newRow uid now checkinCode data.eventId m none).timed m.online m.country (c.city data)
      (c.venue data).address)
    (hencodable : (newRow uid now checkinCode data.eventId m fill).encodable = true) :
    RowQuiet c uids data m ((newRow uid now checkinCode data.eventId m fill).withCode code) := by
  obtain ⟨x, hx⟩ : ∃ x, m.toVeknTournament.pushedAt "" =
      { m.toVeknTournament with veknPushedAt := x } := by
    unfold VeknTournament.pushedAt
    split
    · exact ⟨m.veknPushedAt, rfl⟩
    · exact ⟨some "", rfl⟩
  have hmapped : mappedFor ((newRow uid now checkinCode data.eventId m fill).withCode code)
      (c.event uids "" data m) c.scores = { m.toVeknTournament with veknPushedAt := x } := by
    have hkey : archiveKey ((newRow uid now checkinCode data.eventId m fill).withCode code) =
        "" := by
      simp [archiveKey, newRow, StoredTournament.withCode, StoredTournament.externalId]
    rw [mappedFor, hkey]
    cases hscored : c.scores with
    | none => exact hx
    | some scores =>
      rw [Option.bind_some, hscores scores hscored]
      exact hx
  refine .inr (.inl (@unchanged_of_new _ (newRow uid now checkinCode data.eventId m none).timed
    ((newRow uid now checkinCode data.eventId m fill).withCode code).timed _ _ _ hcities hmapped
    ?_ ?_ (maxRounds_of_encodable rfl hencodable) (organizers_of_map hm) rfl rfl rfl rfl rfl))
  · exact ⟨rfl, rfl, asStr_ofOption m.start, asStr_ofOption m.country, rfl, rfl, rfl, rfl, rfl, rfl⟩
  · rw [hfill]
    rfl

theorem Scanning.filed (h : Scanning c n uids done s) (hcities : GeonameIds c.tables.matchCity)
    (hscores : ∀ scores ∈ c.scores, scores "" = none) (hunique : Function.Injective n.freshUid)
    (hnew : ∀ d ∈ done, d.eventId ≠ data.eventId) (hm : c.map uids data none = .ok (some m))
    (hnone : Unclaimed s.objects data.eventId) (hfiled : (fileNew c n s data m).unfiled = []) :
    Scanning c n uids (data :: done) (fileNew c n s data m) := by
  unfold fileNew at hfiled ⊢
  extract_lets blank fill t at hfiled ⊢
  split at hfiled
  · rename_i objects hsaved
    by_cases hencodable : t.encodable = true
    · rw [if_pos hencodable] at hsaved
      obtain ⟨code, -, hsave⟩ := bind_eq_ok.1 hsaved
      obtain ⟨-, rfl⟩ := saveIndexed_ok hsave
      have hfree : s.objects.lookup t.uid = none := h.fresh s.drawn le_rfl
      have hlive : ∀ o ∈ liveTournaments s.objects, o.uid ≠ t.uid := by
        intro o ho heq
        have hrow := (mem_liveTournaments h.index.keyed).1 ho
        rw [heq, hfree] at hrow
        cases hrow
      have hindex : CalendarIndex (saveTournament s.objects (t.withCode code)) :=
        h.index.save fun v _ hv o ho hov => by
          obtain rfl : data.eventId = v := Option.some.inj hv
          exact absurd hov (hnone o ho)
      refine ⟨hindex, ?_, fun k hk => ?_, fun d hd => ?_⟩
      · refine (uidsByVeknId_save ?_).trans h.members
        change s.objects.user? t.uid = none
        rw [Objects.user?, Objects.find?, hfree]
        rfl
      · have hne : n.freshUid k ≠ (t.withCode code).uid := fun heq => by
          have hk' : k = s.drawn := hunique heq
          dsimp only at hk
          omega
        exact (lookup_saveTournament_ne hne).trans (h.fresh k (Nat.le_of_succ_le hk))
      · rcases List.mem_cons.1 hd with rfl | hd
        · refine .inr ⟨m, hm, t.withCode code, ?_, rfl,
            rowQuiet_new hcities hscores hm rfl hencodable⟩
          exact (mem_liveTournaments_save h.index.keyed).2 (.inl ⟨rfl, rfl⟩)
        · exact (h.quiet d hd).save h.index.keyed (hnew d hd) fun o ho heq =>
            absurd heq (hlive o ho)
    · rw [if_neg hencodable] at hsaved
      cases hsaved
  · exact absurd hfiled (by simp)

/-! ### A whole run -/

theorem unfiled_syncLinked (s : Syncing) (data : VeknEventData) (m : MappedEvent)
    (ref : StoredTournament) : (syncLinked c n uids s data m ref).unfiled = s.unfiled := by
  unfold syncLinked
  dsimp only
  split_ifs <;> rfl

theorem Scanning.event (h : Scanning c n uids done s) (hpick : PicksRow n.pick)
    (hcities : GeonameIds c.tables.matchCity) (hscores : ∀ scores ∈ c.scores, scores "" = none)
    (hunique : Function.Injective n.freshUid) (hnew : ∀ d ∈ done, d.eventId ≠ data.eventId)
    (hfiled : (syncEvent c n uids s data).unfiled = []) :
    Scanning c n uids (data :: done) (syncEvent c n uids s data) := by
  unfold syncEvent at hfiled ⊢
  cases hmap : c.map uids data none with
  | error e => exact h.cons (.inl fun m hm => by rw [hmap] at hm; cases hm)
  | ok mapped =>
    cases mapped with
    | none => exact h.cons (.inl fun m hm => by rw [hmap] at hm; cases hm)
    | some m =>
      rw [hmap] at hfiled
      dsimp only at hfiled ⊢
      cases hget : getTournamentByVeknEventId n.pick s.objects data.eventId with
      | some ref =>
        obtain ⟨hlive, hvekn⟩ := holder_of_get hpick hget
        exact h.linked hcities hnew hmap hlive hvekn
      | none =>
        have hnone := unclaimed_of_get hpick hget
        rw [hget] at hfiled
        dsimp only at hfiled ⊢
        cases hadopt : adoptSameEvent c.tables s.objects m data.eventId n.now with
        | none =>
          rw [hadopt] at hfiled
          exact h.filed hcities hscores hunique hnew hmap hnone hfiled
        | some adopted =>
          obtain ⟨copy, hcopy, hbare, rfl⟩ := adopted_of_adopt hadopt
          have hvekn : ((copy.withVekn data.eventId).touched n.now).vekn = some data.eventId :=
            vekn_withVekn copy data.eventId
          have hsaved := h.save hnew hvekn (fun o ho hov => absurd hov (hnone o ho)) hcopy rfl
            (.inr hbare)
          have hlive := h.index.undeleted hcopy
          refine hsaved.linked hcities hnew hmap ?_ hvekn
          exact (mem_liveTournaments_save h.index.keyed).2 (.inl ⟨rfl, hlive⟩)

/-! ### The rows whose event is gone -/

/-- The row needs no change of its flag. -/
def VerdictKept (c : VeknCalendar) (t : StoredTournament) : Prop :=
  ∀ answers, c.verdict (t.vekn.getD "") = some answers → absenceCandidate c t = true →
    t.owned.veknEventAbsentAt.isSome = !answers

theorem recordAbsence_of_kept (h : VerdictKept c t) (ht : absenceCandidate c t = true) :
    recordAbsence c n s t = s := by
  unfold recordAbsence
  cases hverdict : c.verdict (t.vekn.getD "") with
  | none => rfl
  | some answers =>
    dsimp only
    rw [if_pos (h answers hverdict ht)]

theorem RowQuiet.flagged {now : Stamp} {stamp : Option Stamp} (h : RowQuiet c uids data m t) :
    RowQuiet c uids data m { t.touched now with
      owned := { t.owned with veknEventAbsentAt := stamp } } := by
  rcases h with hunread | hsame | hlarge
  · exact .inl hunread
  · exact .inr (.inl hsame)
  · refine .inr (.inr (Eq.trans ?_ hlarge))
    have houtcome : ∀ event scores, syncOutcome c.tables.matchCity
        (StoredTournament.timed { t.touched now with
          owned := { t.owned with veknEventAbsentAt := stamp } }) event scores =
        syncOutcome c.tables.matchCity t.timed event scores := fun _ _ => rfl
    unfold syncExisting
    rw [houtcome]
    cases syncOutcome c.tables.matchCity t.timed (c.event uids "" data m) c.scores <;> rfl

theorem Scanning.flag (h : Scanning c n uids done s) (ht : t ∈ liveTournaments s.objects)
    (stamp : Option Stamp) : Scanning c n uids done (s.save { t.touched n.now with
      owned := { t.owned with veknEventAbsentAt := stamp } }) := by
  set t' : StoredTournament := { t.touched n.now with
    owned := { t.owned with veknEventAbsentAt := stamp } } with ht'
  have huid : t'.uid = t.uid := rfl
  have hd : t.deletedAt = none := h.index.undeleted ht
  refine ⟨h.index.save fun v hv htv o ho hov => h.index.holders o ho t ht v hv hov htv, ?_,
    fun k hk => ?_, fun d hdone => ?_⟩
  · exact (uidsByVeknId_save (user?_of_live h.index.keyed ht)).trans h.members
  · have hne : n.freshUid k ≠ t'.uid := by
      intro heq
      have hrow := (mem_liveTournaments h.index.keyed).1 ht
      rw [← huid, ← heq, h.fresh k hk] at hrow
      cases hrow
    exact (lookup_saveTournament_ne hne).trans (h.fresh k hk)
  · rcases h.quiet d hdone with hskip | ⟨m, hm, o, ho, hvekn, hquiet⟩
    · exact .inl hskip
    · by_cases hsame : o.uid = t'.uid
      · obtain rfl : o = t := live_eq_of_uid h.index.keyed ho ht hsame
        exact .inr ⟨m, hm, t', (mem_liveTournaments_save h.index.keyed).2 (.inl ⟨rfl, hd⟩), hvekn,
          hquiet.flagged⟩
      · exact .inr ⟨m, hm, o, (mem_liveTournaments_save h.index.keyed).2 (.inr ⟨hsame, ho⟩), hvekn,
          hquiet⟩

theorem Scanning.absences {rest : List StoredTournament} (h : Scanning c n uids done s)
    (hlive : ∀ y ∈ rest, y ∈ liveTournaments s.objects)
    (hnodup : (rest.map StoredTournament.uid).Nodup)
    (hkept : ∀ x ∈ liveTournaments s.objects, VerdictKept c x ∨ x ∈ rest) :
    Scanning c n uids done (rest.foldl (recordAbsence c n) s) ∧
      ∀ x ∈ liveTournaments (rest.foldl (recordAbsence c n) s).objects, VerdictKept c x := by
  induction rest generalizing s with
  | nil => exact ⟨h, fun x hx => (hkept x hx).resolve_right List.not_mem_nil⟩
  | cons y rest ih =>
    rw [List.map_cons, List.nodup_cons] at hnodup
    have hy := hlive y (List.mem_cons_self ..)
    -- when the row is left alone, it needs no change
    have hleft : VerdictKept c y → Scanning c n uids done (rest.foldl (recordAbsence c n) s) ∧
        ∀ x ∈ liveTournaments (rest.foldl (recordAbsence c n) s).objects, VerdictKept c x := by
      intro hkepty
      refine ih h (fun z hz => hlive z (List.mem_cons_of_mem _ hz)) hnodup.2 fun x hx => ?_
      rcases hkept x hx with hx | hx
      · exact .inl hx
      · rcases List.mem_cons.1 hx with rfl | hx
        · exact .inl hkepty
        · exact .inr hx
    rw [List.foldl_cons]
    unfold recordAbsence
    cases hverdict : c.verdict (y.vekn.getD "") with
    | none => exact hleft fun answers hanswers => by rw [hverdict] at hanswers; cases hanswers
    | some answers =>
      dsimp only
      by_cases hflag : y.owned.veknEventAbsentAt.isSome = !answers
      · rw [if_pos hflag]
        refine hleft fun answers' hanswers _ => ?_
        obtain rfl : answers = answers' := Option.some.inj (hverdict.symm.trans hanswers)
        exact hflag
      · rw [if_neg hflag, h.index.tournament? hy]
        dsimp only
        refine ih (h.flag hy _) (fun z hz => ?_) hnodup.2 fun x hx => ?_
        · refine (mem_liveTournaments_save h.index.keyed).2 (.inr ⟨?_, hlive z
            (List.mem_cons_of_mem _ hz)⟩)
          exact fun heq => hnodup.1 (List.mem_map.2 ⟨z, hz, heq⟩)
        · rcases (mem_liveTournaments_save h.index.keyed).1 hx with ⟨rfl, -⟩ | ⟨hne, hx⟩
          · refine .inl fun answers' hanswers _ => ?_
            obtain rfl : answers = answers' := Option.some.inj (hverdict.symm.trans hanswers)
            cases answers <;> rfl
          · rcases hkept x hx with hx | hx
            · exact .inl hx
            · rcases List.mem_cons.1 hx with rfl | hx
              · exact absurd rfl hne
              · exact .inr hx

theorem nodup_liveTournaments (h : WellKeyed objects) :
    ((liveTournaments objects).map StoredTournament.uid).Nodup := by
  refine nodup_read fun x hx t ht => ?_
  have hrow := h x.1 x.2 (mem_rows.1 hx)
  obtain ⟨key, o, d⟩ := x
  have htournament : o.asTournament = some t := by
    unfold Row.liveTournament at ht
    split at ht
    · exact ht
    · cases ht
  cases o with
  | tournament t' =>
    obtain rfl : t' = t := Option.some.inj htournament
    exact hrow
  | _ => cases htournament

/-! ### The two runs -/

theorem unfiled_of_event (h : (syncEvent c n uids s data).unfiled = []) : s.unfiled = [] := by
  unfold syncEvent at h
  split at h
  · exact h
  · exact h
  · split at h
    · rwa [unfiled_syncLinked] at h
    · split at h
      · rw [unfiled_syncLinked] at h
        exact h
      · unfold fileNew at h
        dsimp only at h
        split at h
        · exact h
        · simp at h

theorem unfiled_of_events {events : List (Except RouteError VeknEventData)}
    (h : (events.foldl (syncEntry c n uids) s).unfiled = []) : s.unfiled = [] := by
  induction events generalizing s with
  | nil => exact h
  | cons entry events ih =>
    have hstep := ih h
    cases entry with
    | ok data => exact unfiled_of_event hstep
    | error e => exact hstep

theorem unfiled_of_absences {rest : List StoredTournament} :
    (rest.foldl (recordAbsence c n) s).unfiled = s.unfiled := by
  induction rest generalizing s with
  | nil => rfl
  | cons y rest ih =>
    rw [List.foldl_cons, ih]
    unfold recordAbsence
    cases c.verdict (y.vekn.getD "") with
    | none => rfl
    | some answers =>
      dsimp only
      by_cases hflag : y.owned.veknEventAbsentAt.isSome = !answers
      · rw [if_pos hflag]
      · rw [if_neg hflag]
        cases s.objects.tournament? y.uid <;> rfl

/-- The events that could be read. -/
def VeknCalendar.readable (c : VeknCalendar) : List VeknEventData :=
  c.events.filterMap Except.toOption

theorem readable_cons (data : VeknEventData) (events : List (Except RouteError VeknEventData)) :
    (.ok data :: events).filterMap Except.toOption = data :: events.filterMap Except.toOption := rfl

theorem Scanning.events {events : List (Except RouteError VeknEventData)}
    (h : Scanning c n uids done s) (hpick : PicksRow n.pick)
    (hcities : GeonameIds c.tables.matchCity) (hscores : ∀ scores ∈ c.scores, scores "" = none)
    (hunique : Function.Injective n.freshUid)
    (hdistinct : ((events.filterMap Except.toOption).map VeknEventData.eventId).Nodup)
    (hnew : ∀ d ∈ done, ∀ data ∈ events.filterMap Except.toOption, d.eventId ≠ data.eventId)
    (hfiled : (events.foldl (syncEntry c n uids) s).unfiled = []) :
    ∃ done', Scanning c n uids done' (events.foldl (syncEntry c n uids) s) ∧
      (∀ d ∈ done, d ∈ done') ∧ ∀ data ∈ events.filterMap Except.toOption, data ∈ done' := by
  induction events generalizing s done with
  | nil => exact ⟨done, h, fun d hd => hd, fun d hd => (by cases hd)⟩
  | cons entry events ih =>
    cases entry with
    | error e => exact ih h hdistinct hnew hfiled
    | ok data =>
      rw [readable_cons] at hdistinct hnew ⊢
      rw [List.map_cons, List.nodup_cons] at hdistinct
      have hstep := h.event hpick hcities hscores hunique
        (fun d hd => hnew d hd data (List.mem_cons_self ..)) (unfiled_of_events hfiled)
      have hrest : ∀ d ∈ data :: done, ∀ data' ∈ events.filterMap Except.toOption,
          d.eventId ≠ data'.eventId := by
        intro d hd data' hdata'
        rcases List.mem_cons.1 hd with rfl | hd
        · exact fun heq => hdistinct.1 (List.mem_map.2 ⟨data', hdata', heq.symm⟩)
        · exact hnew d hd data' (List.mem_cons_of_mem _ hdata')
      obtain ⟨done', hscan, hold, hall⟩ := ih hstep hdistinct.2 hrest hfiled
      refine ⟨done', hscan, fun d hd => hold d (List.mem_cons_of_mem _ hd), fun d hd => ?_⟩
      rcases List.mem_cons.1 hd with rfl | hd
      · exact hold d (List.mem_cons_self ..)
      · exact hall d hd

theorem syncEvent_of_quiet (h : CalendarIndex s.objects) (hpick : PicksRow n.pick)
    (hquiet : Quiet c uids data s.objects) : syncEvent c n uids s data = s := by
  unfold syncEvent
  rcases hquiet with hskip | ⟨m, hm, t, ht, hvekn, hquiet⟩
  · cases hmap : c.map uids data none with
    | error e => rfl
    | ok mapped =>
      cases mapped with
      | none => rfl
      | some m => exact absurd hmap (hskip m)
  · rw [hm]
    dsimp only
    cases hget : getTournamentByVeknEventId n.pick s.objects data.eventId with
    | none => exact absurd hvekn (unclaimed_of_get hpick hget t ht)
    | some ref =>
      obtain ⟨hlive, href⟩ := holder_of_get hpick hget
      obtain rfl : ref = t := live_eq_of_uid h.keyed hlive ht
        (h.holders ref hlive t ht data.eventId (eventId_of_map hm) href hvekn)
      exact hquiet.syncLinked (h.tournament? hlive)

theorem events_of_quiet {events : List (Except RouteError VeknEventData)}
    (h : CalendarIndex s.objects) (hpick : PicksRow n.pick)
    (hquiet : ∀ data ∈ events.filterMap Except.toOption, Quiet c uids data s.objects) :
    events.foldl (syncEntry c n uids) s = s := by
  induction events with
  | nil => rfl
  | cons entry events ih =>
    cases entry with
    | error e => exact ih hquiet
    | ok data =>
      rw [readable_cons] at hquiet
      have hstep : syncEntry c n uids s (.ok data) = s :=
        syncEvent_of_quiet h hpick (hquiet data (List.mem_cons_self ..))
      rw [List.foldl_cons, hstep]
      exact ih fun d hd => hquiet d (List.mem_cons_of_mem _ hd)

theorem absences_of_kept {rest : List StoredTournament}
    (h : ∀ y ∈ rest, VerdictKept c y ∧ absenceCandidate c y = true) :
    rest.foldl (recordAbsence c n) s = s := by
  induction rest with
  | nil => rfl
  | cons y rest ih =>
    obtain ⟨hkept, hcandidate⟩ := h y (List.mem_cons_self ..)
    rw [List.foldl_cons, recordAbsence_of_kept hkept hcandidate]
    exact ih fun z hz => h z (List.mem_cons_of_mem _ hz)

end Table

/-- A second scan with the same calendar and archive saves no tournament and leaves the table. -/
theorem syncAllTournaments_again {c : VeknCalendar} {n n' : Night} {objects : Objects}
    (h : CalendarIndex objects) (hpick : PicksRow n.pick) (hpick' : PicksRow n'.pick)
    (hcities : GeonameIds c.tables.matchCity) (hscores : ∀ scores ∈ c.scores, scores "" = none)
    (hfresh : ∀ k, objects.lookup (n.freshUid k) = none) (hunique : Function.Injective n.freshUid)
    (hdistinct : (c.readable.map VeknEventData.eventId).Nodup)
    (hfiled : (syncAllTournaments c n objects).unfiled = []) :
    (syncAllTournaments c n' (syncAllTournaments c n objects).objects).saves = [] ∧
      (syncAllTournaments c n' (syncAllTournaments c n objects).objects).objects =
        (syncAllTournaments c n objects).objects := by
  have hstart : Scanning c n (uidsByVeknId objects) [] ⟨objects, 0, [], []⟩ :=
    ⟨h, rfl, fun k _ => hfresh k, fun d hd => (by cases hd)⟩
  unfold syncAllTournaments at hfiled
  rw [recordVeknAbsence, unfiled_of_absences] at hfiled
  obtain ⟨done, hscanned, -, hall⟩ := hstart.events hpick hcities hscores hunique hdistinct
    (fun d hd => (by cases hd)) hfiled
  set scanned := c.events.foldl (syncEntry c n (uidsByVeknId objects)) ⟨objects, 0, [], []⟩
    with hdef
  have hcandidates : ∀ y ∈ (liveTournaments scanned.objects).filter (absenceCandidate c),
      y ∈ liveTournaments scanned.objects := fun y hy => (List.mem_filter.1 hy).1
  have hnodup : (((liveTournaments scanned.objects).filter (absenceCandidate c)).map
      StoredTournament.uid).Nodup :=
    (List.filter_sublist.map StoredTournament.uid).nodup
      (nodup_liveTournaments hscanned.index.keyed)
  obtain ⟨hfinal, hkept⟩ := hscanned.absences hcandidates hnodup fun x hx => by
    by_cases hcandidate : absenceCandidate c x = true
    · exact .inr (List.mem_filter.2 ⟨hx, hcandidate⟩)
    · exact .inl fun answers _ hc => absurd hc hcandidate
  have hrun : syncAllTournaments c n objects = recordVeknAbsence c n scanned := rfl
  rw [← recordVeknAbsence, ← hrun] at hfinal hkept
  -- the second run: the members are read alike, every event is quiet, every flag kept
  have hsecond : syncAllTournaments c n' (syncAllTournaments c n objects).objects =
      ⟨(syncAllTournaments c n objects).objects, 0, [], []⟩ := by
    have hevents : c.events.foldl (syncEntry c n' (uidsByVeknId objects))
        ⟨(syncAllTournaments c n objects).objects, 0, [], []⟩ =
          ⟨(syncAllTournaments c n objects).objects, 0, [], []⟩ :=
      events_of_quiet hfinal.index hpick' fun data hdata => hfinal.quiet data (hall data hdata)
    rw [syncAllTournaments, hfinal.members, hevents, recordVeknAbsence]
    refine absences_of_kept fun y hy => ?_
    obtain ⟨hlive, hcandidate⟩ := List.mem_filter.1 hy
    exact ⟨hkept y hlive, hcandidate⟩
  rw [hsecond]
  exact ⟨rfl, rfl⟩

/-! ### Scans of a small calendar -/

/-- A few tables. -/
def paris : Gazetteer where
  parseDate := fun date _ => if date = "" then none else some (date ++ "T10:00:00")
  guessTimezone := fun _ _ _ => "Europe/Paris"
  mapAt := fun _ => "https://maps/at"
  mapSearch := fun _ => "https://maps/search"
  matchCity := fun name _ _ => if name = "Paris" then some ("Paris", 2988507) else none
  sameDay := fun a b => a == b
  countryKey := id

def listed (eventId date : String) (players : List VeknResult) : VeknEventData :=
  ⟨eventId, "Grand Prix", 2, false, false, date, "", "", "", "", "Le Bar", "FR", "Paris", "prince",
    "", players⟩

/-- A calendar of the events, on which every id answers but one. -/
def calendar (events : List VeknEventData) (scores : String → Option TwdaScore) : VeknCalendar :=
  ⟨paris, events.map .ok, fun v => some (v != "80"), fun _ => ⟨"", "", "", none⟩, some scores⟩

def night (draws : List String) (pick : List StoredTournament → Option StoredTournament) : Night :=
  ⟨"2026-05-03T02:00:00Z", fun k => String.ofList (List.replicate (k + 20) 'n'),
    fun _ => "checkin", fun _ => draws, pick⟩

/-- The event under another uid, with an id of the calendar and a code. -/
def holder (uid eventId code : String) : StoredTournament :=
  { event with
    doc := { event.doc with uid := some uid }
    owned := { event.owned with externalIds := [("vekn", eventId)], eventCode := code } }

/-- What the second night saves. -/
def savedAgain (c : VeknCalendar) (n n' : Night) (objects : Objects) : List Uid :=
  (syncAllTournaments c n' (syncAllTournaments c n objects).objects).saves

theorem calendarIndex_empty : CalendarIndex ∅ where
  keyed uid row hrow := by simp at hrow
  column uid t d hrow := by simp at hrow
  holders t ht := by simp [liveTournaments, Objects.rows] at ht

theorem CalendarIndex.save_new {objects : Objects} {t' : StoredTournament}
    (h : CalendarIndex objects)
    (hfree : ((liveTournaments objects).all fun o => o.vekn != t'.vekn) = true) :
    CalendarIndex (saveTournament objects t') :=
  h.save fun v _ hv o ho hov => by
    have hother := List.all_eq_true.1 hfree o ho
    simp [hv, hov] at hother

/-- Two rows with an id each, and an event nothing stands for: the first night refreshes a row,
files another and marks the third, the second night nothing. -/
theorem syncAllTournaments_again_filed :
    savedAgain (calendar [listed "77" "2026-05-02" [], listed "78" "2026-05-02" []] fun _ => none)
      (night [] List.head?) (night [] List.head?)
      (saveTournament (saveTournament ∅ (holder "x" "77" "77")) (holder "y" "80" "80")) = [] := by
  have hfirst : CalendarIndex (saveTournament ∅ (holder "x" "77" "77")) :=
    calendarIndex_empty.save_new rfl
  have hindex : CalendarIndex
      (saveTournament (saveTournament ∅ (holder "x" "77" "77")) (holder "y" "80" "80")) :=
    hfirst.save_new (by decide +kernel)
  have hlength : ∀ k, ((night [] List.head?).freshUid k).length = k + 20 := fun k => by
    simp [night]
  refine (syncAllTournaments_again hindex picksRow_head picksRow_head ?_ ?_ ?_ ?_ ?_ ?_).1
  · intro name country address f hf
    unfold calendar paris at hf
    dsimp only at hf
    split_ifs at hf
    · obtain rfl := Option.some.inj hf
      decide
    · cases hf
  · intro scores hs
    obtain rfl := Option.some.inj hs
    rfl
  · intro k
    rw [AList.lookup_eq_none, AList.mem_keys]
    intro hmem
    have hkeys : ∀ uid ∈ (saveTournament (saveTournament ∅ (holder "x" "77" "77"))
        (holder "y" "80" "80")).keys, uid.length < 20 := by decide +kernel
    have hshort := hkeys _ hmem
    rw [hlength] at hshort
    omega
  · intro j k heq
    have hsame := congrArg String.length heq
    rw [hlength, hlength] at hsame
    omega
  · decide +kernel
  · decide +kernel

/-- The second night saves a row where two live rows hold the id, where a row nobody deleted holds
a document that was, where the archive has an entry without an id, and where no code was left for
the event the first night. -/
theorem scans_save_again :
    savedAgain (calendar [listed "77" "2026-05-02" []] fun _ => none) (night [] List.getLast?)
      (night [] List.getLast?)
      (saveTournament (saveTournament ∅ (holder "x" "77" "77")) (holder "y" "77" "y")) = ["y"] ∧
    savedAgain (calendar [listed "77" "2026-05-02" []] fun _ => none) (night [] List.head?)
      (night [] List.head?)
      (saveRow ∅ { holder "x" "77" "x" with deletedAt := some "2026-05-01T10:00:00Z" }) ≠ [] ∧
    savedAgain (calendar [listed "5" "2005-05-02" [⟨"a", "1", false, false, 2, 12, 0, 100, 0⟩]]
        fun k => if k = "" then some ⟨"", "3R+F", "2GW9+3"⟩ else none) (night [] List.head?)
      (night [] List.head?) (saveUser ∅ (member "a" [])) ≠ [] ∧
    savedAgain (calendar [listed "77" "2026-05-02" []] fun _ => none)
      (night (List.replicate 20 "77") List.head?) (night ["QX7K2M"] List.head?)
      (saveTournament ∅ (holder "x" "90" "77")) ≠ [] := by
  refine ⟨?_, ?_, ?_, ?_⟩ <;> decide +kernel

end Archon.Backend

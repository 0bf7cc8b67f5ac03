import Archon.Backend.VeknTournaments

/-!
# What the calendar does not supply

The synchronisation keeps the fields of a linked tournament the calendar says nothing about, except
where it rebuilds a row that had set some of the fields a new row leaves at their default, or files
an event under Storyline that required decklists.
-/

namespace Archon.Backend
open Engine

/-- The configuration keys the calendar answers for, the city with them. -/
def VeknSupplied (f : ConfigField) : Prop :=
  f ∈ [ConfigField.format, .rank, .online, .start, .country, .city, .cityGeonameId, .venue,
    .venueUrl, .address, .mapUrl, .proxies, .maxRounds]

instance (f : ConfigField) : Decidable (VeknSupplied f) := inferInstanceAs (Decidable (_ ∈ _))

/-- Every field the calendar does not answer for is as it was. -/
structure AppOwnedKept (before after : TimedTournament) : Prop where
  uid : after.doc.uid = before.doc.uid
  config : ∀ f, ¬VeknSupplied f → after.doc.config f = before.doc.config f
  city : before.doc.count .cityGeonameId ≠ 0 →
    after.doc.config .city = before.doc.config .city ∧
      after.doc.config .cityGeonameId = before.doc.config .cityGeonameId
  rounds : after.doc.rounds = before.doc.rounds
  raffles : after.doc.raffles = before.doc.raffles
  promosDistributed : after.doc.promosDistributed = before.doc.promosDistributed
  promoStockSourceUid : after.doc.promoStockSourceUid = before.doc.promoStockSourceUid
  reportedPlayerCount : after.doc.reportedPlayerCount = before.doc.reportedPlayerCount
  bannerPath : after.owned.bannerPath = before.owned.bannerPath
  externalIds : ∀ system, system ≠ "vekn" → after.externalId system = before.externalId system
  checkinCode : after.owned.checkinCode = before.owned.checkinCode
  eventCode : after.owned.eventCode = before.owned.eventCode
  veknResultsStale : after.owned.veknResultsStale = before.owned.veknResultsStale
  veknEventAbsentAt : after.owned.veknEventAbsentAt = before.owned.veknEventAbsentAt
  twdaStatus : after.owned.twdaStatus = before.owned.twdaStatus
  lock : after.lock = before.lock
  announcements : after.announcements = before.announcements
  deletedAt : after.deletedAt = before.deletedAt
  timer : after.timer = before.timer
  tableExtraTime : after.tableExtraTime = before.tableExtraTime

/-- The configuration keys a rebuilt row starts afresh. -/
def rebuildResets : List ConfigField :=
  [.registrationUrl, .multideck, .decklistRequired, .description, .standingsMode, .decklistsMode,
    .maxPlayers, .openRounds, .selfOrganizedRounds, .tableRooms, .firstTableNumber,
    .continueRoomNumbering, .roundTime, .finalsTime]

/-- The fields a rebuilt row starts afresh were never set. -/
structure Unset (t : TimedTournament) : Prop where
  config : ∀ f ∈ rebuildResets, t.doc.config f = configDefault f
  raffles : t.doc.raffles = []
  promosDistributed : t.doc.promosDistributed = []
  promoStockSourceUid : t.doc.promoStockSourceUid = some ""
  reportedPlayerCount : t.doc.reportedPlayerCount = some 0
  bannerPath : t.owned.bannerPath = none
  veknResultsStale : t.owned.veknResultsStale = false
  lock : t.lock = .released
  announcements : t.announcements = []
  deletedAt : t.deletedAt = none
  timer : t.timer = .initial
  tableExtraTime : t.tableExtraTime = []

section Kept

variable {matchCity : String → String → String → CityFill} {t : TimedTournament}
  {event : VeknEvent} {twdaScores : Option (String → Option TwdaScore)} {e : VeknTournament}
  {fill : CityFill} {now : Stamp} {eventId : String} {f : ConfigField}

theorem AppOwnedKept.refl (t : TimedTournament) : AppOwnedKept t t := by
  constructor <;> intros <;> first | rfl | exact ⟨rfl, rfl⟩

/-! ### The two branches -/

theorem cityFill_eq_none {online : Bool} {country : Option String} {name address : String}
    (h : t.doc.count .cityGeonameId ≠ 0) :
    cityFill matchCity t online country name address = none := if_pos (.inl h)

theorem refreshed_config (hf : ¬VeknSupplied f) (hd : f ≠ .decklistRequired) :
    (refreshed t e fill now).doc.config f = t.doc.config f := by
  cases f <;> first | rfl | exact absurd rfl hd | exact absurd (by decide) hf

theorem refreshed_kept (hfill : t.doc.count .cityGeonameId ≠ 0 → fill = none)
    (hdeck : e.format = "Storyline" → t.doc.config .decklistRequired = .boolean false) :
    AppOwnedKept t (refreshed t e fill now) where
  uid := rfl
  config f hf := by
    by_cases hd : f = .decklistRequired
    · subst hd
      change (if e.format == "Storyline" then _ else _) = _
      split
      · next hs => exact (hdeck (beq_iff_eq.1 hs)).symm
      · rfl
    · exact refreshed_config hf hd
  city h := by
    obtain rfl := hfill h
    exact ⟨rfl, rfl⟩
  rounds := rfl
  raffles := rfl
  promosDistributed := rfl
  promoStockSourceUid := rfl
  reportedPlayerCount := rfl
  bannerPath := rfl
  externalIds _ _ := rfl
  checkinCode := rfl
  eventCode := rfl
  veknResultsStale := rfl
  veknEventAbsentAt := rfl
  twdaStatus := rfl
  lock := rfl
  announcements := rfl
  deletedAt := rfl
  timer := rfl
  tableExtraTime := rfl

theorem refreshed_storyline (h : AppOwnedKept t (refreshed t e fill now))
    (hs : e.format = "Storyline") : t.doc.config .decklistRequired = .boolean false := by
  have hconfig := h.config .decklistRequired (by decide)
  change (if e.format == "Storyline" then _ else _) = _ at hconfig
  rw [if_pos (beq_iff_eq.2 hs)] at hconfig
  exact hconfig.symm

theorem rebuilt_config (hf : ¬VeknSupplied f) (hr : f ∉ rebuildResets) :
    (rebuilt t e fill eventId now).doc.config f = t.doc.config f := by
  cases f <;> first | rfl | exact absurd (by decide) hf | exact absurd (by decide) hr

theorem rebuilt_reset (h : f ∈ rebuildResets) :
    (rebuilt t e fill eventId now).doc.config f = configDefault f := by
  cases f <;> first | rfl | exact absurd h (by decide)

theorem not_supplied_of_reset (h : f ∈ rebuildResets) : ¬VeknSupplied f := by
  cases f <;> first | decide | exact absurd h (by decide)

theorem rebuilt_kept_iff (hfill : t.doc.count .cityGeonameId ≠ 0 → fill = none)
    (hrounds : t.doc.rounds = []) :
    AppOwnedKept t (rebuilt t e fill eventId now) ↔ Unset t := by
  constructor
  · intro h
    exact
      { config := fun f hf => by
          rw [← h.config f (not_supplied_of_reset hf)]
          exact rebuilt_reset hf
        raffles := h.raffles.symm
        promosDistributed := h.promosDistributed.symm
        promoStockSourceUid := h.promoStockSourceUid.symm
        reportedPlayerCount := h.reportedPlayerCount.symm
        bannerPath := h.bannerPath.symm
        veknResultsStale := h.veknResultsStale.symm
        lock := h.lock.symm
        announcements := h.announcements.symm
        deletedAt := h.deletedAt.symm
        timer := h.timer.symm
        tableExtraTime := h.tableExtraTime.symm }
  · intro h
    exact
      { uid := rfl
        config := fun f hf => by
          by_cases hr : f ∈ rebuildResets
          · exact (rebuilt_reset hr).trans (h.config f hr).symm
          · exact rebuilt_config hf hr
        city := fun hcity => by
          obtain rfl := hfill hcity
          exact ⟨rfl, rfl⟩
        rounds := hrounds.symm
        raffles := h.raffles.symm
        promosDistributed := h.promosDistributed.symm
        promoStockSourceUid := h.promoStockSourceUid.symm
        reportedPlayerCount := h.reportedPlayerCount.symm
        bannerPath := h.bannerPath.symm
        externalIds := fun _ hs => lookup_setExternalId hs
        checkinCode := rfl
        eventCode := rfl
        veknResultsStale := h.veknResultsStale.symm
        veknEventAbsentAt := rfl
        twdaStatus := rfl
        lock := h.lock.symm
        announcements := h.announcements.symm
        deletedAt := h.deletedAt.symm
        timer := h.timer.symm
        tableExtraTime := h.tableExtraTime.symm }

/-! ### The scan -/

theorem compared_fill (h : t.doc.count .cityGeonameId ≠ 0) :
    (compared matchCity t event twdaScores).2 = none := cityFill_eq_none h

/-- No local rounds, results upstream that differ, and the archive answers. -/
def Rebuilds (matchCity : String → String → String → CityFill) (t : TimedTournament)
    (event : VeknEvent) (twdaScores : Option (String → Option TwdaScore)) : Prop :=
  let (e, fill) := compared matchCity t event twdaScores
  t.doc.rounds = [] ∧ e.players ≠ [] ∧ playChanged t.toStoredTournament e fill = true ∧
    archiveHeld t.toStoredTournament twdaScores = false

/-- Local rounds or no results upstream, and metadata that differ. -/
def Refreshes (matchCity : String → String → String → CityFill) (t : TimedTournament)
    (event : VeknEvent) (twdaScores : Option (String → Option TwdaScore)) : Prop :=
  let (e, fill) := compared matchCity t event twdaScores
  (t.doc.rounds ≠ [] ∨ e.players = []) ∧ metaChanged t.toStoredTournament e fill = true

theorem syncOutcome_eq_rebuilt :
    syncOutcome matchCity t event twdaScores = .rebuilt ↔
      Rebuilds matchCity t event twdaScores := by
  unfold syncOutcome Rebuilds
  dsimp only
  by_cases hbranch : t.doc.rounds ≠ [] ∨ (compared matchCity t event twdaScores).1.players = []
  · rw [if_pos hbranch]
    constructor
    · intro h
      split at h <;> cases h
    · rintro ⟨hrounds, hplayers, -⟩
      rcases hbranch with h | h
      · exact absurd hrounds h
      · exact absurd h hplayers
  · rw [if_neg hbranch]
    obtain ⟨hrounds, hplayers⟩ := not_or.1 hbranch
    cases hchanged : playChanged t.toStoredTournament (compared matchCity t event twdaScores).1
        (compared matchCity t event twdaScores).2 <;>
      cases hheld : archiveHeld t.toStoredTournament twdaScores <;> simp
        [not_not.1 hrounds, hplayers]

theorem syncOutcome_eq_refreshed : syncOutcome matchCity t event twdaScores = .refreshed ↔
    Refreshes matchCity t event twdaScores := by
  unfold syncOutcome Refreshes
  dsimp only
  by_cases hbranch : t.doc.rounds ≠ [] ∨ (compared matchCity t event twdaScores).1.players = []
  · rw [if_pos hbranch]
    cases metaChanged t.toStoredTournament (compared matchCity t event twdaScores).1
      (compared matchCity t event twdaScores).2 <;> simp [hbranch]
  · rw [if_neg hbranch]
    constructor
    · intro h
      split at h <;> cases h
    · exact fun h => absurd h.1 hbranch

/-- The row keeps every field the calendar does not supply exactly when it is not rebuilt over a
field that was set, nor refreshed to Storyline while it requires decklists. -/
theorem appOwned_kept_iff (matchCity : String → String → String → CityFill) (t : TimedTournament)
    (event : VeknEvent) (twdaScores : Option (String → Option TwdaScore)) (now : Stamp) :
    AppOwnedKept t (syncExisting matchCity t event twdaScores now) ↔
      (Rebuilds matchCity t event twdaScores → Unset t) ∧
      (Refreshes matchCity t event twdaScores →
        (incoming t.toStoredTournament event twdaScores).format = "Storyline" →
          t.doc.config .decklistRequired = .boolean false) := by
  rw [← syncOutcome_eq_rebuilt, ← syncOutcome_eq_refreshed]
  unfold syncExisting
  dsimp only
  cases houtcome : syncOutcome matchCity t event twdaScores with
  | unchanged => exact ⟨fun _ => ⟨nofun, nofun⟩, fun _ => .refl t⟩
  | refreshed =>
    constructor
    · exact fun h => ⟨nofun, fun _ => refreshed_storyline h⟩
    · exact fun h => refreshed_kept compared_fill (h.2 rfl)
  | rebuilt =>
    rw [rebuilt_kept_iff compared_fill (syncOutcome_eq_rebuilt.1 houtcome).1]
    exact ⟨fun h => ⟨fun _ => h, nofun⟩, fun h => h.1 rfl⟩

end Kept

/-! ### A rebuilt row -/

/-- An event announced with a description, its sign-ups open, linked to event 12345. -/
def announcedEvent : TimedTournament where
  doc := {
    uid := some "t1"
    modified := none
    config := fun
      | .name => .text "Tampere Open"
      | .description => .text "Bring two decks"
      | .maxRounds => .number 3
      | f => configDefault f
    state := .registration
    organizersUids := ["o"]
    players := []
    rounds := []
    finals := none
    winner := ""
    standings := []
    raffles := []
    promosDistributed := []
    promoStockSourceUid := some ""
    reportedPlayerCount := some 0
    externalIdsVekn := "" }
  owned := ⟨none, [("vekn", "12345")], "checkin", "12345", none, false, none, none⟩
  lock := .released
  announcements := []
  deletedAt := none
  timer := .initial
  tableExtraTime := []

/-- Its results, as the calendar publishes them. -/
def publishedResults : VeknEvent where
  eventId := "12345"
  placeholderVenue := false
  city := ""
  address := ""
  mapped := {
    format := "Standard"
    rank := ""
    online := false
    start := none
    country := none
    venue := ""
    venueUrl := ""
    address := ""
    mapUrl := ""
    proxies := false
    maxRounds := 3
    state := .finished
    organizersUids := []
    players := [⟨some "p", .finished, .paid, 0, ⟨2, 5, 0⟩, true, false, false, false, none⟩]
    winner := "p"
    standings := [⟨"p", 1, 5, 0, 0, true, false, false, false⟩]
    finals := none
    veknPushedAt := some "2026-08-30T04:00:00Z" }
  mappedWith _ := none

/-- The rebuilt row has lost the description of the event. -/
theorem description_dropped : ¬AppOwnedKept announcedEvent
    (syncExisting (fun _ _ _ => none) announcedEvent publishedResults (some fun _ => none)
      "2026-08-30T04:00:00Z") := by
  intro h
  have hdescription := congrArg JsonValue.strOrEmpty (h.config .description (by decide))
  revert hdescription
  decide

end Archon.Backend

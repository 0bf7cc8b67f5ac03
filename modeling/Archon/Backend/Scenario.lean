import Archon.Engine.Scenario
import Archon.Backend.RequestRows

/-!
# A stored tournament

An event with two organizers in a small table, and a source of new uids that no short uid clashes
with.
-/

namespace Archon.Backend
open Engine Table

/-- The surroundings of a request. New uids are longer than any stored one. -/
def venue : Env where
  now := "2026-05-02T10:00:00Z"
  wallClock := "2026-05-02T12:00:00"
  maxExpiry := id
  veknPush := false
  placed := id
  patched := fun _ c => some c
  localDate := id
  freshUid := fun k => "new-object-" ++ toString k
  mintedCode := "K7QX2M"
  rated := fun _ _ _ => ⟨0, []⟩
  random := fixedOrder

/-- Every uid in the table is short. -/
def ShortUids (objects : Objects) : Prop := ∀ uid ∈ objects.keys, uid.length < 11

instance (objects : Objects) : Decidable (ShortUids objects) :=
  inferInstanceAs (Decidable (∀ uid ∈ objects.keys, uid.length < 11))

/-- The venue with other new uids. -/
def venueAt (tag : String) : Env := { venue with freshUid := fun k => tag ++ toString k }

theorem venueAt_fresh {objects : Objects} {uid : Uid} {tag : String}
    (h : ∀ k ∈ objects.keys, k.length < tag.length) (huid : uid.length < tag.length) :
    (venueAt tag).Fresh objects uid := by
  intro k
  have hlength : tag.length ≤ ((venueAt tag).freshUid k).length := by
    simp only [venueAt, String.length_append]
    exact Nat.le_add_right _ _
  constructor
  · rw [AList.lookup_eq_none, AList.mem_keys]
    intro hmem
    have hshort := h _ hmem
    omega
  · rintro rfl
    omega

theorem venue_fresh {objects : Objects} {uid : Uid} (h : ShortUids objects)
    (huid : uid.length < 11) : venue.Fresh objects uid :=
  @venueAt_fresh objects uid "new-object-" h huid

/-- A member, with the roles he holds. -/
def member (uid : Uid) (roles : List Role) : User where
  uid := uid
  modified := ""
  name := uid
  country := some "FR"
  veknId := some uid
  contactEmail := none
  roles := roles
  cooptedBy := none
  cooptedAt := none
  wins := []
  ratings := fun _ => none
  anonymizedAt := none
  deletedAt := none

/-- An event in registration, with two organizers and nothing the server owns but its codes. -/
def event : StoredTournament where
  doc :=
    { createdTournament plainRequest "prince" with
      state := .registration, organizersUids := ["prince", "judge"] }
  owned := ⟨none, [], "checkin", "CODE", none, false, none, none⟩
  lock := .released
  announcements := []
  deletedAt := none

/-- The organizers, two players and the event. -/
def eventTable : Objects :=
  [member "prince" [.prince], member "judge" [], member "a" [], member "b" []].foldl saveUser
    (saveTournament ∅ event)

/-- The event held by a device. -/
def lockedEvent : StoredTournament :=
  { event with lock := ⟨true, "tablet", "prince", some "2026-05-02T09:00:00Z"⟩ }

/-- A warning to a player, in some tournament. -/
def warning (uid : Uid) (tournamentUid : Uid) : StoredSanction where
  uid := uid
  modified := ""
  userUid := "a"
  issuedByUid := "judge"
  tournamentUid := some tournamentUid
  level := .warning
  category := .proceduralError
  subcategory := none
  roundNumber := none
  description := "slow play"
  issuedAt := "2026-05-02T09:30:00Z"
  expiresAt := none
  liftedAt := none
  liftedByUid := none
  deletedAt := none

/-- The event held by a device, and a warning given in another event. -/
def lockedTable : Objects :=
  saveSanction (saveRow eventTable lockedEvent) (warning "warning" "elsewhere")

theorem eventTable_keyed : WellKeyed eventTable := by
  have hempty : WellKeyed ∅ := fun _ _ h => by cases h
  exact wellKeyed_saveUser (wellKeyed_saveUser (wellKeyed_saveUser (wellKeyed_saveUser
    (wellKeyed_saveTournament hempty event) _) _) _) _

theorem lockedTable_keyed : WellKeyed lockedTable :=
  wellKeyed_saveSanction (wellKeyed_saveRow eventTable_keyed lockedEvent) _

/-! ### Requests of an organizer -/

def byPrince (request : Request) : Call :=
  ⟨venue, [], member "prince" [.prince], "event", request⟩

/-- It names no player, sanction or deck. -/
def Request.isBare : Request → Bool
  | .goOnline r =>
    r.offlinePlayers.isEmpty && r.offlineSanctions.isEmpty && r.offlineDecks.isEmpty
  | .createSanction .. | .updateSanction .. | .deleteSanction .. => false
  | _ => true

theorem concerns_byPrince {objects : Objects} {request : Request} (h : request.isBare = true) :
    (byPrince request).Concerns objects "event" := by
  cases request with
  | createSanction | updateSanction | deleteSanction => cases h
  | _ => exact rfl

theorem Request.isBare.avoids {request : Request} (h : request.isBare = true) (uid : Uid) :
    request.Avoids uid := by
  cases request with
  | goOnline r =>
    simp only [isBare, Bool.and_eq_true, List.isEmpty_iff] at h
    obtain ⟨⟨hplayers, hsanctions⟩, hdecks⟩ := h
    exact ⟨by simp [hplayers], by simp [hsanctions], by simp [hdecks]⟩
  | _ => trivial

end Archon.Backend

import Archon.Engine.Types
import Archon.Backend.Stream
import Archon.Library.Fields

/-!
# Projections of a document (`access_levels.py`, `models.py`)

What the public, the members and the fully entitled read of an object. A document is what
`msgspec.to_builtins` makes of a struct: a value for each of its fields, in order.
-/

namespace Archon.Access

open Archon.Engine Archon.Stream

abbrev Dict := List (String × JsonValue)

/-- Python's truth of a decoded value. -/
def truthy : JsonValue → Bool
  | .null => false
  | .boolean b => b
  | .number q => q != 0
  | .text s => s != ""
  | .array items => !items.isEmpty
  | .object entries => !entries.isEmpty

/-- `d.get(key)`, where a missing key reads as `None`. -/
def field (d : Dict) (key : String) : JsonValue := (Fields.get d key).getD .null

/-- The texts of a list of texts. -/
def textsOf : JsonValue → List String
  | .array items => items.filterMap JsonValue.asStr
  | _ => []

/-! ### Fields of the structs -/

/-- `models.py:254`. -/
def baseFields : List String := ["uid", "modified", "deleted_at"]

/-- `models.py:303`. -/
def userFields : List String := baseFields ++
  ["name", "country", "vekn_id", "city", "city_geoname_id", "state", "nickname", "roles",
    "avatar_path", "promo_stock", "contact_email", "contact_discord", "discord_id",
    "contact_phone", "phone_is_whatsapp", "github_login", "github_id", "community_links",
    "coopted_by", "coopted_at", "deceased_at", "deceased_by_uid", "anonymized_at",
    "anonymized_by_uid", "vekn_synced", "vekn_synced_at", "local_modifications", "vekn_prefix",
    "calendar_token", "agenda_hidden", "agenda_added", "constructed_online",
    "constructed_offline", "limited_online", "limited_offline", "wins"]

/-- `models.py:410`. -/
def sanctionFields : List String := baseFields ++
  ["user_uid", "issued_by_uid", "tournament_uid", "level", "category", "subcategory",
    "round_number", "description", "issued_at", "expires_at", "lifted_at", "lifted_by_uid"]

/-- `models.py:480`, `597`, `885`. -/
def tournamentFields : List String := baseFields ++
  ["name", "format", "rank", "online", "start", "finish", "timezone", "country", "city",
    "city_geoname_id", "league_uid", "state", "organizers_uids", "venue", "venue_url", "address",
    "map_url", "registration_url", "proxies", "multideck", "decklist_required", "description",
    "standings_mode", "decklists_mode", "max_rounds", "max_players", "open_rounds",
    "self_organized_rounds", "table_rooms", "first_table_number", "continue_room_numbering",
    "round_time", "finals_time", "banner_path", "external_ids", "event_code", "checkin_code",
    "players", "rounds", "finals", "winner", "standings", "reported_player_count", "raffles",
    "promos_distributed", "promo_stock_source_uid", "vekn_pushed_at", "vekn_results_stale",
    "vekn_event_absent_at", "twda_status", "offline_mode", "offline_device_id",
    "offline_user_uid", "offline_since", "timer", "table_extra_time", "announcements"]

/-- `models.py:792`. -/
def deckFields : List String := baseFields ++
  ["tournament_uid", "user_uid", "round", "name", "comments", "cards", "attribution", "public",
    "winner", "private", "views"]

/-- `models.py:465`. -/
def leagueFields : List String := baseFields ++
  ["name", "kind", "standings_mode", "format", "country", "start", "finish", "description",
    "organizers_uids", "parent_uid", "open_to_country_princes", "final"]

/-- `models.py:1035`. -/
def promoFields : List String := baseFields ++
  ["name", "kind", "description", "release_date", "active", "allowed_ranks", "league_uids",
    "image_path", "holdings"]

def structFields : ObjectType → List String
  | .user => userFields
  | .sanction => sanctionFields
  | .tournament => tournamentFields
  | .deck => deckFields
  | .league => leagueFields
  | .promo => promoFields

/-! ### Contacts -/

def obfuscatedPrefix : String := "#b64#"

def publicObfuscatedFields : List String := ["contact_email", "contact_phone"]

def b64Alphabet : List Char :=
  "ABCDEFGHIJKLMNOPQRSTUVWXYZabcdefghijklmnopqrstuvwxyz0123456789+/".toList

/-- The digit of the low six bits. -/
def b64Digit (n : ℕ) : Char := b64Alphabet.getD (n % 64) '='

/-- `base64.b64encode`, three bytes to four digits, the last group padded. -/
def b64encode : List UInt8 → List Char
  | a :: b :: c :: rest =>
    let n := a.toNat * 65536 + b.toNat * 256 + c.toNat
    [b64Digit (n / 262144), b64Digit (n / 4096), b64Digit (n / 64), b64Digit n] ++ b64encode rest
  | [a, b] =>
    let n := a.toNat * 65536 + b.toNat * 256
    [b64Digit (n / 262144), b64Digit (n / 4096), b64Digit (n / 64), '=']
  | [a] =>
    let n := a.toNat * 65536
    [b64Digit (n / 262144), b64Digit (n / 4096), '=', '=']
  | [] => []

/-- `access_levels.py:12`. -/
def obfuscate (value : String) : String :=
  if value.startsWith obfuscatedPrefix then value
  else obfuscatedPrefix ++ String.ofList (b64encode value.toUTF8.toList)

/-- `access_levels.py:18`. -/
def obfuscatePublicContacts (proj : Dict) : Dict :=
  Fields.change publicObfuscatedFields
    (fun value => match value with
      | .text s => if s = "" then value else .text (obfuscate s)
      | value => value) proj

/-! ### Users -/

def userPublicFields : List String :=
  ["uid", "modified", "deleted_at", "name", "country", "roles", "vekn_prefix"]

def userContactFields : List String :=
  ["contact_email", "contact_discord", "discord_id", "contact_phone", "phone_is_whatsapp"]

def userCommunityLinks : List String := ["community_links"]

def userLinksOnlyFields : List String :=
  ["uid", "modified", "deleted_at", "country", "roles", "community_links"]

def userMemberFields : List String :=
  userPublicFields
    ++ ["vekn_id", "city", "city_geoname_id", "state", "nickname", "avatar_path"]
    ++ ["deceased_at", "anonymized_at"] ++ ["discord_id"]
    ++ ["constructed_online", "constructed_offline", "limited_online", "limited_offline", "wins"]

def userOwnerOnlyFields : List String := ["calendar_token", "agenda_hidden", "agenda_added"]

/-- `permissions.rs:829`. -/
def contactPublishingRoles : List String := ["NC", "Prince"]

/-- `permissions.py:62`. -/
def publishesContact (roles : List String) : Bool := roles.any (· ∈ contactPublishingRoles)

/-- `access_levels.py:100`. -/
def computeUserPublic (d : Dict) : Option Dict :=
  let roles := textsOf (field d "roles")
  if publishesContact roles then
    some (obfuscatePublicContacts
      (Fields.pick (userPublicFields ++ userContactFields ++ userCommunityLinks) d))
  else if "IC" ∈ roles then some (Fields.pick (userPublicFields ++ userCommunityLinks) d)
  else if truthy (field d "community_links") then some (Fields.pick userLinksOnlyFields d)
  else none

/-- `access_levels.py:113`. -/
def computeUserMember (d : Dict) : Dict :=
  let roles := textsOf (field d "roles")
  if publishesContact roles then
    Fields.pick (userMemberFields ++ userContactFields ++ userCommunityLinks) d
  else if "IC" ∈ roles then Fields.pick (userMemberFields ++ userCommunityLinks) d
  else if truthy (field d "community_links") then
    Fields.pick (userMemberFields ++ userCommunityLinks) d
  else Fields.pick userMemberFields d

/-- `access_levels.py:138`. -/
def computeUserFull (d : Dict) : Dict := Fields.without userOwnerOnlyFields d

/-! ### Tournaments, decks, leagues and promos -/

def tournamentPublicFields : List String :=
  ["uid", "modified", "deleted_at", "name", "format", "rank", "online", "start", "finish",
    "timezone", "country", "city", "city_geoname_id", "league_uid", "state", "banner_path",
    "venue", "venue_url", "address", "map_url", "registration_url", "description",
    "external_ids", "event_code", "proxies", "multideck", "decklist_required", "max_rounds",
    "max_players", "open_rounds", "self_organized_rounds"]

def tournamentMemberExclude : List String :=
  ["checkin_code", "vekn_pushed_at", "vekn_results_stale", "vekn_event_absent_at", "twda_status"]

/-- `access_levels.py:205`. -/
def computeTournamentPublic (d : Dict) : Dict :=
  let proj := Fields.pick tournamentPublicFields d
  if truthy (field d "online") then Fields.without ["venue_url"] proj else proj

/-- `access_levels.py:214`. -/
def computeTournamentMember (d : Dict) : Dict := Fields.without tournamentMemberExclude d

/-- `models.py:759`. -/
def attributionAnonymous : String := "Anonymous"

/-- `d["attribution"]["kind"]`. -/
def attributionKind (d : Dict) : Option String :=
  match field d "attribution" with
  | .object entries => (field entries "kind").asStr
  | _ => none

/-- `access_levels.py:236`. -/
def publishedDeck (d : Dict) : Dict :=
  let withheld := ["private", "views"] ++
    if attributionKind d = some attributionAnonymous ∧ !truthy (field d "winner")
    then ["user_uid"] else []
  Fields.without withheld d

/-- `access_levels.py:243`. -/
def computeDeckMember (d : Dict) : Option Dict :=
  if truthy (field d "public") then some (publishedDeck d) else none

/-- `access_levels.py:261`. -/
def computeLeaguePublic (d : Dict) : Dict := Fields.without ["organizers_uids"] d

/-- `access_levels.py:265`. -/
def computePromoPublic (d : Dict) : Dict := Fields.without ["holdings"] d

/-! ### By type -/

def computePublic : ObjectType → Dict → Option Dict
  | .user => computeUserPublic
  | .tournament => some ∘ computeTournamentPublic
  | .sanction => fun _ => none
  | .deck => fun _ => none
  | .league => some ∘ computeLeaguePublic
  | .promo => some ∘ computePromoPublic

def computeMember : ObjectType → Dict → Option Dict
  | .user => some ∘ computeUserMember
  | .tournament => some ∘ computeTournamentMember
  | .sanction => some
  | .deck => computeDeckMember
  | .league => some
  | .promo => some ∘ computePromoPublic

def computeFull : ObjectType → Dict → Dict
  | .user => computeUserFull
  | _ => id

def project : DataLevel → ObjectType → Dict → Option Dict
  | .pub => computePublic
  | .member => computeMember
  | .full => fun type d => some (computeFull type d)

/-! ### What a projection keeps -/

section Kept

variable {d p : Dict} {key : String}

theorem field_pick {keys : List String} (h : key ∈ keys) :
    field (Fields.pick keys d) key = field d key := by
  rw [field, Fields.get_pick h]
  rfl

theorem field_without {keys : List String} (h : key ∉ keys) :
    field (Fields.without keys d) key = field d key := by
  rw [field, Fields.get_without h]
  rfl

theorem field_obfuscated (h : key ∉ publicObfuscatedFields) :
    field (obfuscatePublicContacts d) key = field d key := by
  rw [field, obfuscatePublicContacts, Fields.get_change h]
  rfl

/-- What identifies an object and tells it deleted. -/
def identifying : List String := ["uid", "deleted_at"]

theorem field_userPublic (hkey : key ∈ identifying) (h : computeUserPublic d = some p) :
    field p key = field d key := by
  unfold computeUserPublic at h
  simp only [identifying, List.mem_cons, List.not_mem_nil, or_false] at hkey
  dsimp only at h
  split at h
  · obtain rfl := Option.some.inj h
    rw [field_obfuscated (by rcases hkey with rfl | rfl <;> decide)]
    exact field_pick (by rcases hkey with rfl | rfl <;> decide)
  · split at h
    · obtain rfl := Option.some.inj h
      exact field_pick (by rcases hkey with rfl | rfl <;> decide)
    · split at h
      · obtain rfl := Option.some.inj h
        exact field_pick (by rcases hkey with rfl | rfl <;> decide)
      · cases h

theorem field_userMember (hkey : key ∈ identifying) :
    field (computeUserMember d) key = field d key := by
  simp only [identifying, List.mem_cons, List.not_mem_nil, or_false] at hkey
  unfold computeUserMember
  dsimp only
  split
  · exact field_pick (by rcases hkey with rfl | rfl <;> decide)
  · split
    · exact field_pick (by rcases hkey with rfl | rfl <;> decide)
    · split <;> exact field_pick (by rcases hkey with rfl | rfl <;> decide)

theorem field_tournamentPublic (hkey : key ∈ identifying) :
    field (computeTournamentPublic d) key = field d key := by
  simp only [identifying, List.mem_cons, List.not_mem_nil, or_false] at hkey
  have hpick : field (Fields.pick tournamentPublicFields d) key = field d key :=
    field_pick (by rcases hkey with rfl | rfl <;> decide)
  unfold computeTournamentPublic
  dsimp only
  split
  · rw [field_without (by rcases hkey with rfl | rfl <;> decide), hpick]
  · exact hpick

theorem field_publishedDeck (hkey : key ∈ identifying) :
    field (publishedDeck d) key = field d key := by
  simp only [identifying, List.mem_cons, List.not_mem_nil, or_false] at hkey
  unfold publishedDeck
  dsimp only
  split <;> exact field_without (by rcases hkey with rfl | rfl <;> decide)

theorem field_computeFull {type : ObjectType} (h : key ∉ userOwnerOnlyFields) :
    field (computeFull type d) key = field d key := by
  cases type with
  | user => exact field_without h
  | _ => rfl

theorem field_computePublic {type : ObjectType} (hkey : key ∈ identifying)
    (h : computePublic type d = some p) : field p key = field d key := by
  cases type with
  | user => exact field_userPublic hkey h
  | sanction => cases h
  | deck => cases h
  | tournament =>
    obtain rfl := Option.some.inj h
    exact field_tournamentPublic hkey
  | league =>
    obtain rfl := Option.some.inj h
    simp only [identifying, List.mem_cons, List.not_mem_nil, or_false] at hkey
    exact field_without (by rcases hkey with rfl | rfl <;> decide)
  | promo =>
    obtain rfl := Option.some.inj h
    simp only [identifying, List.mem_cons, List.not_mem_nil, or_false] at hkey
    exact field_without (by rcases hkey with rfl | rfl <;> decide)

theorem field_computeMember {type : ObjectType} (hkey : key ∈ identifying)
    (h : computeMember type d = some p) : field p key = field d key := by
  cases type with
  | user =>
    obtain rfl := Option.some.inj h
    exact field_userMember hkey
  | sanction => rw [Option.some.inj h]
  | league => rw [Option.some.inj h]
  | deck =>
    unfold computeMember computeDeckMember at h
    dsimp only at h
    split at h
    · obtain rfl := Option.some.inj h
      exact field_publishedDeck hkey
    · cases h
  | tournament =>
    obtain rfl := Option.some.inj h
    simp only [identifying, List.mem_cons, List.not_mem_nil, or_false] at hkey
    exact field_without (by rcases hkey with rfl | rfl <;> decide)
  | promo =>
    obtain rfl := Option.some.inj h
    simp only [identifying, List.mem_cons, List.not_mem_nil, or_false] at hkey
    exact field_without (by rcases hkey with rfl | rfl <;> decide)

theorem field_project {level : DataLevel} {type : ObjectType} (hkey : key ∈ identifying)
    (h : project level type d = some p) : field p key = field d key := by
  cases level with
  | pub => exact field_computePublic hkey h
  | member => exact field_computeMember hkey h
  | full =>
    obtain rfl := Option.some.inj h
    simp only [identifying, List.mem_cons, List.not_mem_nil, or_false] at hkey
    exact field_computeFull (by rcases hkey with rfl | rfl <;> decide)

end Kept

/-! ### What a projection hides -/

section Hidden

variable {d p : Dict}

theorem userPublic_vekn (h : computeUserPublic d = some p) : Fields.get p "vekn_id" = none := by
  unfold computeUserPublic at h
  dsimp only at h
  split at h
  · obtain rfl := Option.some.inj h
    exact Fields.get_change_none (Fields.get_pick_none (by decide))
  · split at h
    · obtain rfl := Option.some.inj h
      exact Fields.get_pick_none (by decide)
    · split at h
      · obtain rfl := Option.some.inj h
        exact Fields.get_pick_none (by decide)
      · cases h

theorem tournamentPublic_players : Fields.get (computeTournamentPublic d) "players" = none := by
  have hpick : Fields.get (Fields.pick tournamentPublicFields d) "players" = none :=
    Fields.get_pick_none (by decide)
  unfold computeTournamentPublic
  dsimp only
  split
  · rw [Fields.get_without (by decide), hpick]
  · exact hpick

theorem publishedDeck_private : Fields.get (publishedDeck d) "private" = none :=
  Fields.get_without_none (by simp)

/-- The field that tells the full projection from the public one. -/
def hiddenField : ObjectType → String
  | .user => "vekn_id"
  | .tournament => "players"
  | .league => "organizers_uids"
  | .promo => "holdings"
  | .sanction => "uid"
  | .deck => "uid"

theorem computePublic_hidden {type : ObjectType} (h : computePublic type d = some p) :
    Fields.get p (hiddenField type) = none := by
  cases type with
  | user => exact userPublic_vekn h
  | sanction => cases h
  | deck => cases h
  | tournament =>
    obtain rfl := Option.some.inj h
    exact tournamentPublic_players
  | league =>
    obtain rfl := Option.some.inj h
    exact Fields.get_without_none (by decide)
  | promo =>
    obtain rfl := Option.some.inj h
    exact Fields.get_without_none (by decide)

theorem computeFull_hidden (type : ObjectType) (value : String → JsonValue) :
    Fields.get (computeFull type ((structFields type).map fun k => (k, value k)))
      (hiddenField type) = some (value (hiddenField type)) := by
  cases type with
  | user =>
    have hkept : hiddenField .user ∉ userOwnerOnlyFields := by decide
    rw [computeFull, computeUserFull, Fields.get_without hkept]
    exact Fields.get_tabulate value (by decide)
  | _ => exact Fields.get_tabulate value (by decide)

end Hidden

end Archon.Access

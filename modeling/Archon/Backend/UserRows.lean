import Archon.Library.Interleaving
import Archon.Library.KeyedStores
import Archon.Backend.CommunityLinks
import Archon.Backend.Offline

/-!
# Writers of a member's row (`routes/users.py`, `accounts.py`, `ratings.py`, `promo_stock.py`,
`vekn_sync.py`)

Each operation reads rows of members, changes some fields and saves the rows whole, one statement
each. What is saved is kept beside the table in a log, as a history the code does not store.
-/

namespace Archon.UserRows
open Engine Backend Guards CommunityLinks

/-! ### Rows and fields -/

/-- `models.py:298`, without the columns that stand outside the document. -/
structure UserRow extends Member where
  state : Option String
  avatarPath : Option String
  promoStock : List (Uid × ℤ)
  contactDiscord : Option String
  githubLogin : Option String
  githubId : Option String
  deceasedAt : Option Stamp
  deceasedByUid : Option Uid
  anonymizedByUid : Option Uid
  veknSynced : Bool
  veknSyncedAt : Option Stamp
  veknPrefix : Option String

inductive Field where
  | modified | name | country | veknId | city | cityGeonameId | state | nickname | roles
  | avatarPath | promoStock | contactEmail | contactDiscord | discordId | contactPhone
  | phoneIsWhatsapp | githubLogin | githubId | communityLinks | cooptedBy | cooptedAt | deceasedAt
  | deceasedByUid | anonymizedAt | anonymizedByUid | veknSynced | veknSyncedAt
  | localModifications | veknPrefix | rating (category : RatingCategory) | wins | deletedAt
  deriving DecidableEq

namespace Field

def all : List Field :=
  [modified, name, country, veknId, city, cityGeonameId, state, nickname, roles, avatarPath,
    promoStock, contactEmail, contactDiscord, discordId, contactPhone, phoneIsWhatsapp, githubLogin,
    githubId, communityLinks, cooptedBy, cooptedAt, deceasedAt, deceasedByUid, anonymizedAt,
    anonymizedByUid, veknSynced, veknSyncedAt, localModifications, veknPrefix,
    rating .constructedOnline, rating .constructedOffline, rating .limitedOnline,
    rating .limitedOffline, wins, deletedAt]

/-- What a field holds. -/
abbrev Value : Field → Type
  | modified => Stamp
  | name => String
  | country | veknId | city | state | nickname | avatarPath | contactEmail | contactDiscord
  | discordId | contactPhone | githubLogin | githubId | veknPrefix => Option String
  | cityGeonameId => Option ℕ
  | roles => List Role
  | promoStock => List (Uid × ℤ)
  | phoneIsWhatsapp | veknSynced => Bool
  | communityLinks => List CommunityLink
  | cooptedBy | deceasedByUid | anonymizedByUid => Option Uid
  | cooptedAt | deceasedAt | anonymizedAt | veknSyncedAt | deletedAt => Option Stamp
  | localModifications => List String
  | rating _ => Option CategoryRating
  | wins => List Uid

/-- The names under which fields are marked as local. -/
def str : Field → String
  | modified => "modified"
  | name => "name"
  | country => "country"
  | veknId => "vekn_id"
  | city => "city"
  | cityGeonameId => "city_geoname_id"
  | state => "state"
  | nickname => "nickname"
  | roles => "roles"
  | avatarPath => "avatar_path"
  | promoStock => "promo_stock"
  | contactEmail => "contact_email"
  | contactDiscord => "contact_discord"
  | discordId => "discord_id"
  | contactPhone => "contact_phone"
  | phoneIsWhatsapp => "phone_is_whatsapp"
  | githubLogin => "github_login"
  | githubId => "github_id"
  | communityLinks => "community_links"
  | cooptedBy => "coopted_by"
  | cooptedAt => "coopted_at"
  | deceasedAt => "deceased_at"
  | deceasedByUid => "deceased_by_uid"
  | anonymizedAt => "anonymized_at"
  | anonymizedByUid => "anonymized_by_uid"
  | veknSynced => "vekn_synced"
  | veknSyncedAt => "vekn_synced_at"
  | localModifications => "local_modifications"
  | veknPrefix => "vekn_prefix"
  | rating .constructedOnline => "constructed_online"
  | rating .constructedOffline => "constructed_offline"
  | rating .limitedOnline => "limited_online"
  | rating .limitedOffline => "limited_offline"
  | wins => "wins"
  | deletedAt => "deleted_at"

end Field

def UserRow.get (row : UserRow) : (f : Field) → f.Value
  | .modified => row.modified
  | .name => row.name
  | .country => row.country
  | .veknId => row.veknId
  | .city => row.city
  | .cityGeonameId => row.cityGeonameId
  | .state => row.state
  | .nickname => row.nickname
  | .roles => row.roles
  | .avatarPath => row.avatarPath
  | .promoStock => row.promoStock
  | .contactEmail => row.contactEmail
  | .contactDiscord => row.contactDiscord
  | .discordId => row.discordId
  | .contactPhone => row.contactPhone
  | .phoneIsWhatsapp => row.phoneIsWhatsapp
  | .githubLogin => row.githubLogin
  | .githubId => row.githubId
  | .communityLinks => row.communityLinks
  | .cooptedBy => row.cooptedBy
  | .cooptedAt => row.cooptedAt
  | .deceasedAt => row.deceasedAt
  | .deceasedByUid => row.deceasedByUid
  | .anonymizedAt => row.anonymizedAt
  | .anonymizedByUid => row.anonymizedByUid
  | .veknSynced => row.veknSynced
  | .veknSyncedAt => row.veknSyncedAt
  | .localModifications => row.localModifications
  | .veknPrefix => row.veknPrefix
  | .rating category => row.ratings category
  | .wins => row.wins
  | .deletedAt => row.deletedAt

/-- Two rows agree in a field. -/
def Same (f : Field) (a b : UserRow) : Prop := a.get f = b.get f

instance (f : Field) (a b : UserRow) : Decidable (Same f a b) := by
  unfold Same
  cases f <;> infer_instance

/-- What an operation makes of a row it read: the row to save and the fields it sets. -/
structure Saved where
  row : UserRow
  sets : Field → Bool

/-! ### Requests -/

/-- The fields an edit by an official sets, `country` being the one to store. -/
def updateFields (data : UpdateUserRequest) (country : Option String) : List Field :=
  [(Field.name, data.name.isSome), (.country, country.isSome), (.city, data.city.isSome),
    (.cityGeonameId, data.cityGeonameId.isSome), (.state, data.state.isSome),
    (.nickname, data.nickname.isSome), (.roles, data.roles.isSome)].filterMap fun (f, set) =>
      if set then some f else none

/-- `users.py:156`. An edit of nothing saves the row as it was read. -/
def updateUser (registry : Registry) (actor : User) (row : UserRow) (data : UpdateUserRequest) :
    Except RouteError Saved := do
  let country ← storeCountry registry data.country
  let editsProfile := data.editsProfile country
  ensure (editsProfile = true → row.anonymizedAt = none)
    (.http 400 "An anonymized member's profile cannot be edited")
  ensure (canEditUser actor row.toUser = true ∨ (editsProfile = false ∧ data.roles ≠ none))
    (.http 403 "You don't have permission to edit this user")
  ensure (country ≠ none → country ≠ row.country → canChangeCountry actor row.toUser = true)
    (.http 403 "You don't have permission to change this official's country")
  let roles ← editedRoles registry actor row.toUser row.uid data.roles
  let fields := updateFields data country
  if fields = [] then pure ⟨row, fun _ => false⟩
  else pure {
    row := { row with
      modified := registry.now
      name := data.name.getD row.name
      country := country.or row.country
      city := data.city.or row.city
      cityGeonameId := data.cityGeonameId.or row.cityGeonameId
      state := data.state.or row.state
      nickname := data.nickname.or row.nickname
      roles
      localModifications := row.localModifications ∪ fields.map Field.str }
    sets f := f ∈ Field.modified :: .localModifications :: fields }

/-- The fields an edit by the member sets. -/
def profileFields (data : ProfileUpdateRequest) : List Field :=
  [(Field.name, data.name.isSome), (.nickname, data.nickname.isSome),
    (.country, data.country.isSome), (.city, data.city.isSome),
    (.cityGeonameId, data.city == some "" || data.cityGeonameId.isSome),
    (.contactEmail, data.contactEmail.isSome), (.contactPhone, data.contactPhone.isSome),
    (.phoneIsWhatsapp, data.phoneIsWhatsapp.isSome),
    (.communityLinks, data.communityLinks.isSome)].filterMap fun (f, set) =>
      if set then some f else none

/-- `profile.py:100`. -/
def updateCurrentUser (texts : Texts) (now : Stamp) (row : UserRow) (data : ProfileUpdateRequest) :
    Except RouteError Saved := do
  let member ← CommunityLinks.updateCurrentUser texts now row.toMember data
  pure {
    row := { row with toMember := member }
    sets f := f ∈ Field.modified :: .localModifications :: profileFields data }

/-- `permissions.rs:296`. -/
def canMarkDeceased (actor : User) (targetCountry : Option String) : Bool :=
  actor.hasAny [.ic]
    || (actor.hasAny [.nc] && actor.country.isSome && actor.country == targetCountry)

/-- `users.py:483`. -/
def setDeceased (now : Stamp) (actor : User) (row : UserRow) (deceased : Bool) :
    Except RouteError Saved := do
  ensure (actor.uid ≠ row.uid) (.http 403 "You cannot change your own deceased status")
  ensure (canMarkDeceased actor row.country = true) (.http 403 ("Only IC, or the member's national "
    ++ "coordinator, can change deceased status"))
  ensure (deceased = true → row.veknId.getD "" ≠ "")
    (.http 400 "VEKN-less members cannot be marked deceased; delete them instead")
  pure {
    row := { row with
      modified := now
      deceasedAt := if deceased then some now else none
      deceasedByUid := if deceased then some actor.uid else none
      localModifications := row.localModifications ∪ ["deceased_at"] }
    sets f := f ∈ [Field.modified, .deceasedAt, .deceasedByUid, .localModifications] }

/-- `accounts.py:294-306`, `371`. -/
def anonymizedFields : List Field :=
  [.nickname, .avatarPath, .contactEmail, .contactDiscord, .discordId, .contactPhone,
    .phoneIsWhatsapp, .githubLogin, .githubId, .name, .city, .cityGeonameId, .state,
    .communityLinks]

/-- `accounts.py:452`. -/
def anonymized (now : Stamp) (byUid : Uid) (row : UserRow) : Saved where
  row := { row with
    modified := now
    anonymizedAt := some now
    anonymizedByUid := some byUid
    localModifications := row.localModifications ∪ anonymizedFields.map Field.str
    nickname := none, avatarPath := none, contactEmail := none, contactDiscord := none,
    discordId := none, contactPhone := none, phoneIsWhatsapp := false, githubLogin := none,
    githubId := none, city := none, cityGeonameId := none, state := none, communityLinks := []
    name := anonymizedName }
  sets f := f ∈ Field.modified :: .anonymizedAt :: .anonymizedByUid :: .localModifications ::
    anonymizedFields

/-- `users.py:590`, the row of `anonymize_user`. -/
def anonymizeMember (now : Stamp) (actor : User) (row : UserRow) : Except RouteError Saved := do
  ensure (actor.uid ≠ row.uid) (.http 403 "You cannot anonymize your own account")
  ensure (actor.hasAny [.ic] = true) (.http 403 "Only IC can anonymize members")
  ensure (row.veknId.getD "" ≠ "")
    (.http 400 "VEKN-less members cannot be anonymized; delete them instead")
  ensure (row.anonymizedAt = none) (.http 400 "Member is already anonymized")
  pure (anonymized now actor.uid row)

/-! ### Merging -/

/-- `a or b`. -/
def either (a b : Option String) : Option String := (given a).or b

/-- `accounts.py:196-230`. -/
def merged (keep absorbed : UserRow) : UserRow :=
  let sponsorSide :=
    if "coopted_by" ∈ keep.localModifications then keep
    else if "coopted_by" ∈ absorbed.localModifications then absorbed
    else if given keep.cooptedBy ≠ none then keep else absorbed
  let discordSide := if given absorbed.discordId ≠ none then absorbed else keep
  { keep with
    name := if keep.name = "" then absorbed.name else keep.name
    country := either keep.country absorbed.country
    veknId := either keep.veknId absorbed.veknId
    city := either keep.city absorbed.city
    cityGeonameId := (keep.cityGeonameId.filter (· ≠ 0)).or absorbed.cityGeonameId
    state := either keep.state absorbed.state
    nickname := either absorbed.nickname keep.nickname
    roles := keep.roles ∪ absorbed.roles
    avatarPath := either absorbed.avatarPath keep.avatarPath
    contactEmail := either absorbed.contactEmail keep.contactEmail
    contactDiscord := discordSide.contactDiscord
    discordId := discordSide.discordId
    contactPhone := either absorbed.contactPhone keep.contactPhone
    phoneIsWhatsapp := absorbed.phoneIsWhatsapp || keep.phoneIsWhatsapp
    communityLinks := if keep.communityLinks = [] then absorbed.communityLinks
      else keep.communityLinks
    cooptedBy := sponsorSide.cooptedBy
    cooptedAt := sponsorSide.cooptedAt
    veknSynced := keep.veknSynced || absorbed.veknSynced
    veknSyncedAt := keep.veknSyncedAt.or absorbed.veknSyncedAt
    localModifications := keep.localModifications ∪ absorbed.localModifications
    veknPrefix := either keep.veknPrefix absorbed.veknPrefix }

/-- `accounts.py:164`, the row of the survivor; the fields it sets are those it does not keep. -/
def mergeUsers (absorbed keep : UserRow) : Except RouteError Saved := do
  ensure (given absorbed.veknId = none) (.http 400 ("Cannot merge an account that holds a VEKN ID "
    ++ "— VEKN identities are immovable and are never merged away (keep the VEKN account as the "
    ++ "survivor)"))
  ensure (keep.anonymizedAt = none) (.http 400 "Cannot merge into an anonymized member")
  pure ⟨merged keep absorbed, fun f => !decide (Same f (merged keep absorbed) keep)⟩

/-! ### Derived fields -/

/-- `ratings.py:229-251`: the rows whose rating is as computed are not saved. -/
def recomputeRatings (now : Stamp) (category : RatingCategory) (rating : CategoryRating)
    (row : UserRow) : Option Saved :=
  if some rating = row.ratings category then none
  else some {
    row := { row with
      modified := now
      ratings := Function.update row.ratings category (some rating) }
    sets f := f ∈ [Field.rating category, .modified] }

/-- `ratings.py:274-285`. -/
def recomputeWins (now : Stamp) (wins : List Uid) (row : UserRow) : Option Saved :=
  if wins = row.wins then none
  else some { row := { row with wins, modified := now }, sets f := f ∈ [Field.wins, .modified] }

/-- `promo_stock.py:113-118`: one promo in the dictionary of a member. -/
def restock (stock : List (Uid × ℤ)) (promo : Uid × Option ℤ) : List (Uid × ℤ) :=
  match promo.2 with
  | none => stock.filter fun e => e.1 ≠ promo.1
  | some copies =>
    if promo.1 ∈ stock.map Prod.fst then
      stock.map fun e => if e.1 = promo.1 then (e.1, copies) else e
    else stock ++ [(promo.1, copies)]

/-- `promo_stock.py:104-126`. -/
def recomputePromoStock (now : Stamp) (stocks : List (Uid × Option ℤ)) (row : UserRow) :
    Option Saved :=
  let promoStock := stocks.foldl restock row.promoStock
  if promoStock = row.promoStock then none
  else some {
    row := { row with promoStock, modified := now }
    sets f := f ∈ [Field.promoStock, .modified] }

/-! ### The VEKN member sync -/

/-- `vekn_sync.py:540`; the contact email only of an official. -/
structure VeknData where
  name : String
  country : Option String
  veknId : String
  city : Option String
  cityGeonameId : Option ℕ
  state : Option String
  veknPrefix : Option String
  contactEmail : Option String

def veknFields : List Field :=
  [.name, .country, .veknId, .city, .cityGeonameId, .state, .veknPrefix, .contactEmail]

/-- The row with the data of the VEKN in the fields that are not locally modified. -/
def veknMapped (data : VeknData) (row : UserRow) : UserRow :=
  let free (f : Field) : Bool := f.str ∉ row.localModifications
  { row with
    name := if free .name then data.name else row.name
    country := if free .country then data.country else row.country
    veknId := if free .veknId then some data.veknId else row.veknId
    city := if free .city then data.city else row.city
    cityGeonameId := if free .cityGeonameId then data.cityGeonameId else row.cityGeonameId
    state := if free .state then data.state else row.state
    veknPrefix := if free .veknPrefix then data.veknPrefix else row.veknPrefix
    contactEmail := if free .contactEmail then data.contactEmail.or row.contactEmail
      else row.contactEmail }

/-- `vekn_sync.py:615`. -/
def syncMember (now : Stamp) (data : VeknData) (row : UserRow) : Option Saved :=
  let mapped := veknMapped data row
  let changed := veknFields.filter fun f => !decide (Same f mapped row)
  if changed = [] then none
  else some {
    row := { mapped with veknSynced := true, veknSyncedAt := some now, modified := now }
    sets f := f ∈ Field.veknSynced :: .veknSyncedAt :: .modified :: changed }

/-- `vekn_sync.py:711-725`. -/
def inferCooptedBy (now : Stamp) (sponsorUid : Uid) (row : UserRow) : Option Saved :=
  if row.uid = sponsorUid ∨ given row.cooptedBy ≠ none ∨ "coopted_by" ∈ row.localModifications then
    none
  else some {
    row := { row with cooptedBy := some sponsorUid, cooptedAt := none, modified := now }
    sets f := f ∈ [Field.cooptedBy, .cooptedAt, .modified] }

/-- `vekn_sync.py:775-795`; `sponsor` is the one the city or the country of the row has. -/
def inferCooptedByCity (now : Stamp) (sponsor : UserRow → Option Uid) (row : UserRow) :
    Option Saved :=
  match sponsor row with
  | none => none
  | some sponsorUid =>
    if sponsorUid = row.uid ∨ given row.cooptedBy ≠ none ∨ "coopted_by" ∈ row.localModifications
      then
      none
    else some {
      row := { row with cooptedBy := some sponsorUid, modified := now }
      sets f := f ∈ [Field.cooptedBy, .modified] }

/-! ### Operations -/

inductive Operation where
  | updateUser (registry : Registry) (actor : User) (data : UpdateUserRequest)
  | updateCurrentUser (texts : Texts) (data : ProfileUpdateRequest)
  | setDeceased (actor : User) (deceased : Bool)
  | anonymizeUser (actor : User)
  | mergeUsers (absorbed : UserRow)
  /-- `accounts.py:144`. -/
  | reassignCooptedBy (toUserUid : Uid)
  /-- `db.py:701`. -/
  | softDelete
  | recomputeRatings (category : RatingCategory) (rating : Uid → CategoryRating)
  | recomputeWins (wins : Uid → List Uid)
  | recomputePromoStock (stocks : List (Uid × Option ℤ))
  | syncMember (data : VeknData)
  | inferCooptedBy (sponsorUid : Uid)
  | inferCooptedByCity (sponsor : UserRow → Option Uid)

namespace Operation

/-- What the operation saves for a row it read, if it saves it. -/
def save (now : Stamp) (row : UserRow) : Operation → Except RouteError (Option Saved)
  | updateUser registry actor data =>
    some <$> UserRows.updateUser { registry with now } actor row data
  | updateCurrentUser texts data => some <$> UserRows.updateCurrentUser texts now row data
  | setDeceased actor deceased => some <$> UserRows.setDeceased now actor row deceased
  | anonymizeUser actor => some <$> anonymizeMember now actor row
  | mergeUsers absorbed => some <$> UserRows.mergeUsers absorbed row
  | reassignCooptedBy toUserUid =>
    .ok (some ⟨{ row with cooptedBy := some toUserUid }, fun f => f = .cooptedBy⟩)
  | softDelete => do
    ensure (given row.veknId = none)
      (.http 400 "VEKN members cannot be deleted; mark them deceased instead")
    pure (some ⟨{ row with deletedAt := some now, modified := now },
      fun f => f ∈ [Field.deletedAt, .modified]⟩)
  | recomputeRatings category rating =>
    .ok (UserRows.recomputeRatings now category (rating row.uid) row)
  | recomputeWins wins => .ok (UserRows.recomputeWins now (wins row.uid) row)
  | recomputePromoStock stocks => .ok (UserRows.recomputePromoStock now stocks row)
  | syncMember data => .ok (UserRows.syncMember now data row)
  | inferCooptedBy sponsorUid => .ok (UserRows.inferCooptedBy now sponsorUid row)
  | inferCooptedByCity sponsor => .ok (UserRows.inferCooptedByCity now sponsor row)

/-- Whether the operation reads these members in one statement; a merge reads its two in turn. -/
def readsAtOnce (uids : List Uid) : Operation → Bool
  | mergeUsers _ => false
  | reassignCooptedBy _ | recomputeRatings .. | recomputeWins _ | inferCooptedBy _
  | inferCooptedByCity _ => true
  | _ => uids.length == 1

end Operation

/-! ### Interleavings -/

structure State where
  rows : Uid → Option UserRow
  initial : Uid → Option UserRow
  /-- The newest first. -/
  log : List (WholeRows.Save Uid Field UserRow)

/-- `db.py:357`: the row is stored whole. -/
def State.save (s : State) (saved : Saved) : State :=
  { s with
    rows := Function.update s.rows saved.row.uid (some saved.row)
    log := ⟨saved.row.uid, saved.sets, saved.row⟩ :: s.log }

/-- Where an operation stands. -/
inductive Phase where
  | idle
  /-- `accounts.py:169`: the survivor is read. -/
  | merging (keep : UserRow) (deleteUid : Uid)
  /-- The rows read that are still to be saved. -/
  | holding (operation : Operation) (rows : List UserRow)

inductive Input where
  | start (operation : Operation) (uids : List Uid)
  | merge (keepUid deleteUid : Uid)
  | next (now : Stamp)

/-- The rows of the members are read. -/
def State.reads (s : State) (operation : Operation) (uids : List Uid) : Phase :=
  .holding operation (uids.filterMap s.rows)

/-- `accounts.py:169-175`: the absorbed account is read after the survivor. -/
def State.readsAbsorbed (s : State) (keep : UserRow) (deleteUid : Uid) : Phase :=
  match s.rows deleteUid with
  | some absorbed =>
    if keep.uid = deleteUid then .idle else .holding (.mergeUsers absorbed) [keep]
  | none => .idle

/-- The next row is saved or passed over; a refusal ends the request. -/
def State.saves (s : State) (now : Stamp) (operation : Operation) (row : UserRow)
    (rest : List UserRow) : State × Phase :=
  match operation.save now row with
  | .error _ => (s, .idle)
  | .ok none => (s, .holding operation rest)
  | .ok (some saved) => (s.save saved, .holding operation rest)

def step (s : State) : Phase → Input → Option (State × Phase)
  | .idle, .start operation uids =>
    if operation.readsAtOnce uids then some (s, s.reads operation uids) else none
  | .idle, .merge keepUid deleteUid =>
    match s.rows keepUid with
    | some keep => some (s, .merging keep deleteUid)
    | none => some (s, .idle)
  | .merging keep deleteUid, .next _ => some (s, s.readsAbsorbed keep deleteUid)
  | .holding operation (row :: rest), .next now => some (s.saves now operation row rest)
  | .holding _ [], .next _ => some (s, .idle)
  | _, _ => none

def userRows : Program State Phase Input where
  init s := s.rows = s.initial ∧ s.log = [] ∧ ∀ uid, ∀ row ∈ s.rows uid, row.uid = uid
  idle := .idle
  step := step

/-- A row with nothing but what every user has. -/
def rowOf (u : User) : UserRow :=
  { u with
    nickname := none, city := none, cityGeonameId := none, contactPhone := none,
    phoneIsWhatsapp := false, discordId := none, communityLinks := [], localModifications := [],
    state := none, avatarPath := none, promoStock := [], contactDiscord := none,
    githubLogin := none, githubId := none, deceasedAt := none, deceasedByUid := none,
    anonymizedByUid := none, veknSynced := false, veknSyncedAt := none, veknPrefix := none }

end Archon.UserRows

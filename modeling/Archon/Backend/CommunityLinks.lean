import Archon.Library.Ledger
import Archon.Library.Runs
import Archon.Backend.Members

/-!
# Community links (`community_links.py`, `routes/auth/profile.py`, `routes/users.py`)

A member lists links on the profile and sends the whole list with each edit; a moderator edits one
link of another member, addressed by its URL. What is decided about each link is kept beside the
members in a log, as a history the code does not store.
-/

namespace Archon.CommunityLinks
open Engine Backend Guards

/-! ### Links -/

inductive CommunityLinkType where
  | discord | telegram | whatsapp | forum | facebook | website | twitch | youtube | reddit
  | instagram | blog | spotify | x | bluesky | other
  deriving DecidableEq, Repr

namespace CommunityLinkType

def all : List CommunityLinkType :=
  [discord, telegram, whatsapp, forum, facebook, website, twitch, youtube, reddit, instagram, blog,
    spotify, x, bluesky, other]

def value : CommunityLinkType → String
  | discord => "discord"
  | telegram => "telegram"
  | whatsapp => "whatsapp"
  | forum => "forum"
  | facebook => "facebook"
  | website => "website"
  | twitch => "twitch"
  | youtube => "youtube"
  | reddit => "reddit"
  | instagram => "instagram"
  | blog => "blog"
  | spotify => "spotify"
  | x => "x"
  | bluesky => "bluesky"
  | other => "other"

/-- `community.rs:8`, the types placed as content; the others are channels. -/
def isContent : CommunityLinkType → Bool
  | discord | telegram | whatsapp | forum => false
  | _ => true

def ofStr (raw : String) : Option CommunityLinkType := all.find? fun t => t.value == raw

end CommunityLinkType

inductive LinkModeration where
  | hidden | national | global
  deriving DecidableEq, Repr

def LinkModeration.value : LinkModeration → String
  | hidden => "hidden"
  | national => "national"
  | global => "global"

structure CommunityLink where
  type : CommunityLinkType
  url : String
  label : String
  languages : List String
  country : Option String
  moderation : Option LinkModeration
  deriving DecidableEq, Repr

/-- A member, with the fields of the profile a member edits. -/
structure Member extends User where
  nickname : Option String
  city : Option String
  cityGeonameId : Option ℕ
  contactPhone : Option String
  phoneIsWhatsapp : Bool
  discordId : Option String
  communityLinks : List CommunityLink
  localModifications : List String

/-- An optional text that is not empty. -/
def given (text : Option String) : Option String := text.filter (· ≠ "")

/-- The country a link counts for: its own, else its owner's. -/
def effectiveCountry (link : CommunityLink) (owner : Member) : Option String :=
  (given link.country).or owner.country

/-! ### Authority -/

inductive LinkCapability where
  | moderateLink | promoteLinkNational | promoteLinkGlobal

/-- `permissions.rs:408-441`. -/
def linkRule : LinkCapability → Rule
  | .moderateLink => ⟨[.ic], [.nc], false⟩
  | .promoteLinkNational => ⟨[.ic], [.nc], false⟩
  | .promoteLinkGlobal => ⟨[.ic], [], false⟩

/-- `permissions.rs:727`, for a capability without organizers. -/
def checkLink (capability : LinkCapability) (actor : User) (targetCountry : Option String) : Bool :=
  actor.hasAny (linkRule capability).global
    || (actor.hasAny (linkRule capability).sameCountry && actor.country.isSome
      && actor.country == targetCountry)

/-- `permissions.py:148`. -/
def canModerateLink (actor : User) (linkCountry : Option String) : Bool :=
  checkLink .moderateLink actor linkCountry

/-- `permissions.py:154`. -/
def canPromoteLinkNational (actor : User) (linkCountry : Option String) : Bool :=
  checkLink .promoteLinkNational actor linkCountry

/-- `permissions.py:159`. -/
def canPromoteLinkGlobal (actor : User) : Bool := checkLink .promoteLinkGlobal actor none

/-! ### The rules of a link -/

/-- What is made of a text outside this file: Python's `str.upper`, and the shape a country is
stored in. -/
structure Texts where
  upper : String → String
  storedCountry : Option String → Option String

/-- Two letters of ASCII. -/
def twoLetters (country : String) : Bool :=
  country.toList.length == 2 && country.toList.all Char.isAlpha

/-- `community_links.py:124`. -/
def validatedCountry (texts : Texts) (raw fallback : Option String) : Except RouteError String := do
  let country := texts.upper (((given raw).or fallback).getD "")
  ensure (country ≠ "") (.http 422 "A community link needs a country")
  ensure (twoLetters country = true) (.http 422 ("Invalid country: " ++ raw.getD "None"))
  pure country

/-- `community_links.py:91`. -/
def validatedType (raw : String) : Except RouteError CommunityLinkType :=
  okOr (CommunityLinkType.ofStr raw) (.http 422 ("Invalid link type: " ++ raw))

def maxLanguages : ℕ := 5

/-- `len(lang) == 2 and lang.isascii() and lang.islower()`. -/
def languageCode (lang : String) : Bool :=
  let chars := lang.toList
  chars.length == 2 && chars.all (fun c => c.toNat < 128) && chars.any Char.isLower
    && !chars.any Char.isUpper

/-- `community_links.py:100`. -/
def validatedLanguages (languages : List String) (linkType : CommunityLinkType)
    (prior : Option CommunityLink) : Except RouteError (List String) := do
  ensure (languages.length ≤ maxLanguages) (.http 422 "Maximum 5 languages per link")
  match languages.find? fun lang => !languageCode lang with
  | some lang => .error (.http 422 ("Invalid language code: " ++ lang))
  | none =>
    let grandfathered := prior.any fun p => p.type = linkType
    ensure (¬ (linkType.isContent = true ∧ languages = [] ∧ grandfathered = false))
      (.http 422 ("A " ++ linkType.value ++ " link must declare a language"))
    pure languages

/-- `current.value if current else "none"`. -/
def stateValue (current : Option LinkModeration) : String :=
  current.elim "none" LinkModeration.value

/-- `community_links.py:21-35`: the moderation a requested state stands for, and whether the actor
may set it. -/
def authority (actor : User) (state : String) (country : Option String) :
    Option (Option LinkModeration × Bool) :=
  if state = "global" then some (some .global, canPromoteLinkGlobal actor)
  else if state = "national" then some (some .national, canPromoteLinkNational actor country)
  else if state = "none" then some (none, canModerateLink actor country)
  else if state = "hidden" then some (some .hidden, canModerateLink actor country)
  else none

/-- `community_links.py:21`. A state that is already the link's leaves it as it is. -/
def moderationFor (actor : User) (state : String) (country : Option String)
    (current : Option LinkModeration) : Except RouteError (Option LinkModeration) := do
  let (moderation, allowed) ← okOr (authority actor state country)
    (.http 422 ("Invalid moderation: " ++ state))
  ensure (allowed = true) (.http 403 ("You don't have the authority to set a link " ++ state
    ++ " in " ++ country.getD "None"))
  if state = stateValue current then pure current else pure moderation

/-- `(prior and prior.country) or owner.country`. -/
def priorCountry (prior : Option CommunityLink) (owner : Member) : Option String :=
  (given (prior.bind CommunityLink.country)).or owner.country

/-- `community_links.py:51`: the country and moderation a link is saved with. -/
def placement (texts : Texts) (actor : User) (linkType : CommunityLinkType)
    (rawCountry state : Option String) (prior : Option CommunityLink) (owner : Member) :
    Except RouteError (Option String × Option LinkModeration) :=
  let current := prior.bind CommunityLink.moderation
  if linkType.isContent = false then do
    let country ← validatedCountry texts rawCountry (priorCountry prior owner)
    match state with
    | none => pure (some country, current)
    | some state =>
      let moderation ← moderationFor actor state (some country) current
      pure (some country, moderation)
  else
    let pinnedIn := if current = some .national then priorCountry prior owner else none
    match state with
    | none => pure (pinnedIn, current)
    | some state => do
      let sitsIn := (given pinnedIn).or owner.country
      let landsIn ←
        if state = "national" ∧ current ≠ some .national then do
          ensure (current ≠ none → canModerateLink actor sitsIn = true)
            (.http 403 ("Only a moderator in " ++ sitsIn.getD "None" ++ " can pin a "
              ++ stateValue current ++ " link"))
          let country ← validatedCountry texts actor.country none
          pure (some country)
        else do
          ensure (state = "national" → canPromoteLinkNational actor pinnedIn = true)
            (.http 403 ("This link is already pinned in " ++ pinnedIn.getD "None"))
          pure sitsIn
      let moderation ← moderationFor actor state landsIn current
      pure (if moderation = some .national then landsIn else none, moderation)

/-! ### The owner's edit -/

structure CommunityLinkInput where
  type : String
  url : String
  label : String
  languages : List String
  country : Option String
  state : Option String

structure ProfileUpdateRequest where
  name : Option String
  nickname : Option String
  country : Option String
  city : Option String
  cityGeonameId : Option ℕ
  contactEmail : Option String
  contactPhone : Option String
  phoneIsWhatsapp : Option Bool
  communityLinks : Option (List CommunityLinkInput)

/-- `permissions.rs:833`: the ways to reach a member that are filled in. -/
def contactChannels (user : Member) : List String :=
  [user.contactEmail, user.contactPhone, user.discordId].filterMap given

/-- `permissions.rs:847`. -/
def breaksContactFloor (before after : Member) : Bool :=
  after.hasAny [.nc, .prince] && !(contactChannels before).isEmpty
    && (contactChannels after).isEmpty

/-- The fields an edit marks as the member's own. -/
def ProfileUpdateRequest.touched (data : ProfileUpdateRequest) : List String :=
  [("name", data.name.isSome), ("nickname", data.nickname.isSome),
    ("country", data.country.isSome), ("city", data.city.isSome),
    ("city_geoname_id", data.city == some "" || data.cityGeonameId.isSome),
    ("contact_email", data.contactEmail.isSome), ("contact_phone", data.contactPhone.isSome),
    ("phone_is_whatsapp", data.phoneIsWhatsapp.isSome)].filterMap fun (field, set) =>
      if set then some field else none

/-- The country after an edit. -/
def ProfileUpdateRequest.newCountry (texts : Texts) (user : Member) (data : ProfileUpdateRequest) :
    Option String :=
  data.country.elim user.country fun c => texts.storedCountry (some c)

/-- `profile.py:111-162`: the edit but for the links. -/
def editProfile (texts : Texts) (user : Member) (data : ProfileUpdateRequest) :
    Except RouteError Member := do
  let country := data.newCountry texts user
  ensure (data.country.getD "" ≠ "" → country ≠ none)
    (.http 422 ("Invalid country: " ++ data.country.getD ""))
  ensure (country ≠ user.country → canChangeCountry user.toUser user.toUser = true)
    (.http 403 ("An NC or Prince cannot change their own country; it must be changed by IC "
      ++ "(or the country's NC for a Prince)."))
  let edited := { user with
    name := data.name.getD user.name
    nickname := data.nickname.elim user.nickname fun s => given (some s)
    country
    city := data.city.elim user.city fun s => given (some s)
    cityGeonameId := data.cityGeonameId.elim (if data.city = some "" then none
      else user.cityGeonameId) fun n => if n = 0 then none else some n
    contactEmail := data.contactEmail.elim user.contactEmail fun s => given (some s)
    contactPhone := data.contactPhone.elim user.contactPhone fun s => given (some s) }
  ensure (breaksContactFloor user edited = false) (.http 422 ("An NC or Prince must stay "
    ++ "reachable: keep a contact email, a phone number or a linked Discord login"))
  pure { edited with phoneIsWhatsapp := data.phoneIsWhatsapp.getD user.phoneIsWhatsapp }

/-- The link a member had at a URL; of two, the later. -/
def existingByUrl (user : Member) (url : String) : Option CommunityLink :=
  user.communityLinks.reverse.find? fun l => l.url = url

/-- `profile.py:180-200`, one link of the list. -/
def submittedLink (texts : Texts) (user : Member) (link : CommunityLinkInput) :
    Except RouteError CommunityLink := do
  let linkType ← validatedType link.type
  ensure ("http://".toList.isPrefixOf link.url.toList = true ∨
      "https://".toList.isPrefixOf link.url.toList = true)
    (.http 422 ("Invalid URL: " ++ link.url))
  let prior := existingByUrl user link.url
  let languages ← validatedLanguages link.languages linkType prior
  let (country, moderation) ←
    placement texts user.toUser linkType link.country link.state prior user
  pure { type := linkType, url := link.url, label := link.label, languages, country, moderation }

/-- `profile.py:163-201`. -/
def submittedLinks (texts : Texts) (user : Member) (links : List CommunityLinkInput) :
    Except RouteError (List CommunityLink) := do
  ensure (user.veknId.getD "" ≠ "")
    (.http 403 "VEKN membership required to add community links")
  let maxLinks := if user.hasAny officialRoles = true then 10 else 5
  ensure (links.length ≤ maxLinks)
    (.http 422 ("Maximum " ++ toString maxLinks ++ " community links allowed"))
  ensure (links.map CommunityLinkInput.url).Nodup
    (.http 422 "You already have a link to this address")
  links.mapM (submittedLink texts user)

/-- `profile.py:100`. -/
def updateCurrentUser (texts : Texts) (now : Stamp) (user : Member) (data : ProfileUpdateRequest) :
    Except RouteError Member := do
  let edited ← editProfile texts user data
  let links ← data.communityLinks.elim (pure edited.communityLinks) (submittedLinks texts edited)
  pure { edited with
    communityLinks := links
    modified := now
    localModifications := user.localModifications ∪ data.touched }

/-! ### A moderator's edit -/

structure LinkEditRequest where
  url : String
  type : Option String
  label : Option String
  languages : Option (List String)
  country : Option String
  state : Option String

/-- `users.py:419-466`: the link as edited. -/
def editedLink (texts : Texts) (actor : User) (target : Member) (prior : CommunityLink)
    (data : LinkEditRequest) : Except RouteError CommunityLink := do
  let curates := canModerateLink actor (effectiveCountry prior target)
  let pinsContent := prior.type.isContent && prior.moderation.isNone
    && data.state == some "national"
  ensure (curates = true ∨ pinsContent = true)
    (.http 403 "Can only moderate links in your country")
  let linkType ← (given data.type).elim (pure prior.type) validatedType
  let languages ← validatedLanguages (data.languages.getD prior.languages) linkType (some prior)
  let (country, moderation) ←
    placement texts actor linkType data.country data.state (some prior) target
  ensure (given country ≠ none → country ≠ prior.country → canModerateLink actor country = true)
    (.http 403 "Can only move a link into your own country")
  let edited := { prior with
    type := linkType
    label := data.label.getD prior.label
    languages, country, moderation }
  ensure (curates = true ∨ edited = { prior with country, moderation })
    (.http 403 "You can only pin this link into your country")
  pure edited

/-- `users.py:468`. -/
def Member.withLink (target : Member) (now : Stamp) (edited : CommunityLink) : Member :=
  { target with
    communityLinks := target.communityLinks.map fun l => if l.url = edited.url then edited else l
    modified := now }

/-! ### A sequence of requests -/

/-- What an accepted request left a link at: who asked, the country the link stood in before or was
put in if it is new, the country it counts for now, and its moderation. -/
structure Decision where
  actor : User
  owner : Uid
  url : String
  ground : Option String
  country : Option String
  moderation : Option LinkModeration

def Decision.key (d : Decision) : Uid × String := (d.owner, d.url)

structure State where
  members : List Member
  /-- The newest first. -/
  log : List Decision

def State.member? (s : State) (uid : Uid) : Option Member := s.members.find? fun m => m.uid = uid

/-- An accepted request: the member is saved and its decisions are logged. -/
def State.save (s : State) (member : Member) (decisions : List Decision) : State where
  members := s.members.map fun m => if m.uid = member.uid then member else m
  log := decisions ++ s.log

/-- The decision about a link of a member, as before the request and as after it. -/
def decision (actor : User) (before after : Member) (prior : Option CommunityLink)
    (link : CommunityLink) : Decision where
  actor
  owner := after.uid
  url := link.url
  ground := prior.elim (effectiveCountry link after) fun p => effectiveCountry p before
  country := effectiveCountry link after
  moderation := link.moderation

/-- The decisions of an edit by the owner, about each link of the list sent. -/
def ownDecisions (before after : Member) (data : ProfileUpdateRequest) : List Decision :=
  if data.communityLinks.isSome then after.communityLinks.map fun link =>
    decision before.toUser before after (existingByUrl before link.url) link
  else []

inductive Request where
  | profile (data : ProfileUpdateRequest)
  | curate (userUid : Uid) (data : LinkEditRequest)

structure Call where
  now : Stamp
  actorUid : Uid
  request : Request

/-- `profile.py:101` and `users.py:410`. -/
def Call.serve (texts : Texts) (s : State) (call : Call) : Except RouteError State := do
  let actor ← okOr (s.member? call.actorUid) (.http 401 "Authentication required")
  match call.request with
  | .profile data =>
    let after ← updateCurrentUser texts call.now actor data
    pure (s.save after (ownDecisions actor after data))
  | .curate userUid data =>
    let target ← okOr (s.member? userUid) (.http 404 "User not found")
    let prior ← okOr (target.communityLinks.find? fun l => l.url = data.url)
      (.http 404 "Link not found on target user")
    let edited ← editedLink texts actor.toUser target prior data
    let after := target.withLink call.now edited
    pure (s.save after [decision actor.toUser target after (some prior) edited])

/-- The runs from members none of whose links is moderated. -/
def system (texts : Texts) : System State Call where
  init s := s.log = [] ∧ ∀ m ∈ s.members, ∀ l ∈ m.communityLinks, l.moderation = none
  step s call s' := call.serve texts s = .ok s'

end Archon.CommunityLinks

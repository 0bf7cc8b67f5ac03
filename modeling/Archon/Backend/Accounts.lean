import Archon.Backend.UserRows
import Archon.Backend.VeknClaims

/-!
# Accounts, sign-ins and avatars (`accounts.py`, `routes/vekn.py`, `routes/users.py`)

An account is merged into the record of a VEKN id, and the person behind a record is split off it.
Rows, sign-ins and images stand in tables of their own: both operations move the sign-ins and
carry over the path of the avatar, while the image stays under the uid it was uploaded for. The
NDA records, sanctions, decks, tokens and owner columns they move as well decide nothing here.
-/

namespace Archon.Accounts
open Engine Backend Guards Claims CommunityLinks UserRows

/-! ### Tables -/

structure Avatar where
  data : List UInt8
  contentType : String
  deriving DecidableEq, Repr

/-- The tables. `uploader` is the account that stands for the person who uploaded an image: it
follows his sign-ins. -/
structure Store where
  users : AList fun _ : Uid => UserRow
  methods : List AuthRow
  avatars : AList fun _ : Uid => Avatar
  uploader : Uid → Uid

/-- What a request draws: the time, in milliseconds too, a uid, and what it reads in tables
that are left out. -/
structure Draws where
  now : Stamp
  millis : ℕ
  newUid : Uid
  /-- `ratings.py:267`, of the survivor of a merge. -/
  wins : List Uid
  /-- `accounts.py:258`. -/
  suspended : Bool

namespace Store

def rows (s : Store) : List UserRow := s.users.entries.map Sigma.snd

/-- `db.py:671`. -/
def save (s : Store) (row : UserRow) : Store := { s with users := s.users.insert row.uid row }

/-- `db.py:828`. -/
def getUserByVeknId (s : Store) (veknId : String) : Option UserRow :=
  s.rows.find? fun u => u.veknId == some veknId && veknId != ""

/-- `db.py:844`. -/
def isVeknIdClaimed (s : Store) (veknId : String) : Bool :=
  (s.getUserByVeknId veknId).any fun u => !(methodsOf s.methods u.uid).isEmpty

/-- `db.py:945`. -/
def getAuthMethodByIdentifier (s : Store) (methodType identifier : String) : Option AuthRow :=
  s.methods.find? fun m => m.2.methodType == methodType && m.2.identifier == identifier

/-- `models.py:399`, of the account a token names. -/
def optionalUser (s : Store) (actor : Uid) : Option UserRow :=
  (s.users.lookup actor).filter fun u => u.deletedAt.isNone && u.anonymizedAt.isNone

/-- `middleware/auth.py:46`. -/
def currentUser (s : Store) (actor : Uid) : Except RouteError UserRow :=
  okOr (s.optionalUser actor) (.http 401 "User not found")

/-! ### Merging and splitting -/

/-- `accounts.py:82`. -/
def reassignAuthMethods (s : Store) (fromUserUid toUserUid : Uid) : Store :=
  { s with
    methods := (methodsOf s.methods fromUserUid).foldl
      (fun rows m => writeMethod rows (m.1, { m.2 with userUid := toUserUid })) s.methods
    uploader := fun w => if s.uploader w = fromUserUid then toUserUid else s.uploader w }

/-- `ratings.py:274-285`, for one member. -/
def recomputeWins (s : Store) (d : Draws) (uid : Uid) : Store :=
  match (s.users.lookup uid).bind (UserRows.recomputeWins d.now d.wins) with
  | some saved => s.save saved.row
  | none => s

/-- `accounts.py:144`. -/
def reassignCooptedBy (s : Store) (fromUserUid toUserUid : Uid) : Store :=
  (s.rows.filter fun u => u.cooptedBy = some fromUserUid).foldl
    (fun s u => s.save { u with cooptedBy := some toUserUid }) s

/-- `db.py:701`. -/
def softDeleteUser (s : Store) (d : Draws) (uid : Uid) : Except RouteError (Option Store) :=
  match s.users.lookup uid with
  | none => pure none
  | some user => do
    ensure (given user.veknId = none)
      (.http 400 "VEKN members cannot be deleted; mark them deceased instead")
    pure (some (s.save { user with deletedAt := some d.now, modified := d.now }))

/-- `accounts.py:164`, without the case that the survivor is missing. -/
def mergeInto (s : Store) (d : Draws) (keep : UserRow) (deleteUid : Uid) :
    Except RouteError Store :=
  if keep.uid = deleteUid then pure s
  else match s.users.lookup deleteUid with
    | none => pure s
    | some absorbed => do
      let saved ← UserRows.mergeUsers absorbed keep
      let s := (s.save saved.row).reassignAuthMethods deleteUid keep.uid
      let s := (s.recomputeWins d keep.uid).reassignCooptedBy deleteUid keep.uid
      let deleted ← s.softDeleteUser d deleteUid
      pure (deleted.getD s)

/-- `accounts.py:164`. -/
def mergeUsers (s : Store) (d : Draws) (keepUid deleteUid : Uid) :
    Except RouteError (Option Store) :=
  match s.users.lookup keepUid with
  | none => pure none
  | some keep => some <$> s.mergeInto d keep deleteUid

/-- `accounts.py:337`: what is keyed to the uid is left behind. -/
def personalAccount (d : Draws) (row : UserRow) : UserRow :=
  { row with
    uid := d.newUid
    modified := d.now
    localModifications := []
    veknId := none, roles := [], cooptedBy := none, cooptedAt := none, veknSynced := false
    veknSyncedAt := none, veknPrefix := none, communityLinks := [], promoStock := []
    ratings := fun _ => none
    wins := [] }

/-- `accounts.py:356`: what is personal is left out. -/
def veknRecord (d : Draws) (row : UserRow) : UserRow :=
  { row with
    modified := d.now
    localModifications := []
    nickname := none, avatarPath := none, contactEmail := none, contactDiscord := none
    discordId := none, contactPhone := none, phoneIsWhatsapp := false, githubLogin := none
    githubId := none }

/-- `accounts.py:317`, for a row that was read. -/
def detach (s : Store) (d : Draws) (row : UserRow) : Store :=
  ((s.save (personalAccount d row)).reassignAuthMethods row.uid d.newUid).save (veknRecord d row)

/-- `accounts.py:317`. -/
def detachUserFromVekn (s : Store) (d : Draws) (userUid : Uid) : Option Store :=
  (s.users.lookup userUid).map (s.detach d)

/-! ### VEKN ids -/

/-- `permissions.py:123`, the row `manage_vekn`: any as IC, those of one's country as NC. -/
def canManageVekn (actor target : User) : Bool :=
  actor.hasAny [.ic]
    || (actor.hasAny [.nc] && actor.country.isSome && actor.country == target.country)

/-- `vekn.py:35`. -/
def requireManagerForUser (manager target : User) : Except RouteError Unit :=
  ensure (canManageVekn manager target = true)
    (.http 403 "You don't have permission to manage this user's VEKN ID")

/-- `vekn.py:61`. -/
def claimVeknId (s : Store) (d : Draws) (actor : Uid) (veknId : String) :
    Except RouteError Store := do
  let current ← s.currentUser actor
  ensure (given current.veknId = none) (.http 400 "You already have a VEKN ID")
  let veknUser ← okOr (s.getUserByVeknId veknId) (.http 404 "VEKN ID not found")
  ensure (veknUser.anonymizedAt = none)
    (.http 400 "This VEKN ID belongs to an anonymized member")
  ensure (s.isVeknIdClaimed veknId = false)
    (.http 400 "This VEKN ID is already claimed by another user")
  let merged ← s.mergeUsers d veknUser.uid current.uid
  okOr merged (.http 500 "Failed to merge accounts")

/-- `vekn.py:112`. -/
def abandonVeknId (s : Store) (d : Draws) (actor : Uid) : Except RouteError Store := do
  let current ← s.currentUser actor
  ensure (given current.veknId ≠ none) (.http 400 "You don't have a VEKN ID to abandon")
  ensure (d.suspended = false) (.http 403 ("Cannot abandon a VEKN ID while you hold an active "
    ++ "suspension or probation"))
  okOr (s.detachUserFromVekn d current.uid) (.http 500 "Failed to abandon VEKN ID")

/-- `vekn.py:213`. -/
def addresses (s : Store) (user : UserRow) : List String :=
  ((methodsOf s.methods user.uid).filter fun m => m.2.methodType = "email").map
      (fun m => lower m.2.identifier)
    ++ ((user.contactEmail.map fun e => e.trimAscii.toString).filter (· ≠ "")).toList.map lower

/-- `vekn.py:255-272`: the holder is split off his record first. -/
def displace (s : Store) (d : Draws) (veknId : String) (veknUser target : UserRow) :
    Except RouteError Store :=
  if s.isVeknIdClaimed veknId = true then do
    ensure (veknUser.uid = target.uid ∨ ∀ a ∈ s.addresses veknUser, a ∉ s.addresses target)
      (.http 409 ("This VEKN ID's holder shares an email address with this account: ask an IC to "
        ++ "merge the two accounts"))
    pure ((s.detachUserFromVekn d veknUser.uid).getD s)
  else pure s

/-- `vekn.py:225`. -/
def linkVeknToUser (s : Store) (d : Draws) (actor : Uid) (veknId : String) (userUid : Uid) :
    Except RouteError Store := do
  let manager ← s.currentUser actor
  let target ← okOr (s.users.lookup userUid) (.http 404 "Target user not found")
  requireManagerForUser manager.toUser target.toUser
  ensure (∀ v ∈ given target.veknId, v = veknId) (.http 400 "User already has a different VEKN ID")
  let veknUser ← okOr (s.getUserByVeknId veknId) (.http 404 "VEKN ID not found")
  ensure (veknUser.anonymizedAt = none)
    (.http 400 "This VEKN ID belongs to an anonymized member")
  requireManagerForUser manager.toUser veknUser.toUser
  let s ← s.displace d veknId veknUser target
  let merged ← s.mergeUsers d veknUser.uid target.uid
  okOr merged (.http 500 "Failed to link accounts")

/-- `vekn.py:300`. -/
def forceAbandonVeknId (s : Store) (d : Draws) (actor userUid : Uid) : Except RouteError Store := do
  let manager ← s.currentUser actor
  let target ← okOr (s.users.lookup userUid) (.http 404 "Target user not found")
  requireManagerForUser manager.toUser target.toUser
  ensure (given target.veknId ≠ none) (.http 400 "User doesn't have a VEKN ID to abandon")
  ensure (methodsOf s.methods target.uid ≠ [])
    (.http 400 "This VEKN ID is not claimed by anyone — no need to abandon")
  okOr (s.detachUserFromVekn d target.uid) (.http 500 "Failed to abandon VEKN ID")

/-! ### Avatars -/

/-- `users.py:332`. -/
def avatarUrl (uid : Uid) (version : ℕ) : String :=
  "/api/users/" ++ uid ++ "/avatar?v=" ++ toString version

/-- The uid under which the image of a path is served: the third segment. -/
def servedUid (path : String) : Uid :=
  String.ofList ((path.toList.drop "/api/users/".toList.length).takeWhile (· ≠ '/'))

def maxAvatarSize : ℕ := 1024 * 1024

/-- `users.py:295`. The uid is one segment of the address. -/
def uploadAvatar (s : Store) (d : Draws) (actor uid : Uid) (contentType : String)
    (payload : List UInt8) : Except RouteError Store := do
  ensure ('/' ∉ uid.toList) (.http 404 "Not Found")
  let current ← okOr (s.optionalUser actor) (.http 401 "Authentication required")
  ensure (current.uid = uid) (.http 403 "Can only upload your own avatar")
  ensure (contentType ∈ ["image/webp", "image/png", "image/jpeg"])
    (.http 400 "Avatar must be webp, png, or jpeg")
  ensure (payload.length ≤ maxAvatarSize)
    (.http 400 ("Avatar too large. Max size: " ++ toString (maxAvatarSize / 1024) ++ "KB"))
  let s : Store := { s with
    avatars := s.avatars.insert uid ⟨payload, contentType⟩
    uploader := Function.update s.uploader uid uid }
  match s.users.lookup uid with
  | some user =>
    pure (s.save { user with modified := d.now, avatarPath := some (avatarUrl uid d.millis) })
  | none => pure s

/-- `users.py:366`. -/
def deleteAvatar (s : Store) (d : Draws) (actor uid : Uid) : Except RouteError Store := do
  let current ← okOr (s.optionalUser actor) (.http 401 "Authentication required")
  ensure (current.uid = uid) (.http 403 "Can only delete your own avatar")
  ensure (uid ∈ s.avatars) (.http 404 "Avatar not found")
  let s : Store := { s with avatars := s.avatars.erase uid }
  match s.users.lookup uid with
  | some user => pure (s.save { user with modified := d.now, avatarPath := none })
  | none => pure s

/-! ### Other account operations -/

/-- `discord.py:241`. -/
def newDiscordMethod (userUid : Uid) (discordId : String) : AuthMethod where
  userUid
  methodType := "discord"
  identifier := discordId
  email := ""

/-- What Discord says of the account that signs in. -/
structure DiscordUser where
  id : String
  username : String
  globalName : Option String
  email : Option String

/-- `discord.py:261-267`. -/
def noteDiscordMethod (s : Store) (discord : DiscordUser) : Store :=
  match s.getAuthMethodByIdentifier "discord" discord.id with
  | some m =>
    { s with methods := writeMethod s.methods (m.1, { m.2 with email := discord.email.getD "" }) }
  | none => s

/-- `discord.py:271-283`. -/
def discordRow (d : Draws) (discord : DiscordUser) (user : UserRow) : UserRow :=
  let takesName : Bool := (given user.nickname).isNone && (given discord.globalName).isSome
  { user with
    modified := d.now
    discordId := some discord.id
    contactDiscord := if discord.username = "" then none else some discord.username
    nickname := if takesName then discord.globalName else user.nickname
    localModifications := user.localModifications ∪
      (["discord_id", "contact_discord"] ++ if takesName then ["nickname"] else []) }

/-- `discord.py:253`; a row that holds these values already is not saved. -/
def recordDiscordSignIn (s : Store) (d : Draws) (userUid : Uid) (discord : DiscordUser) : Store :=
  match (s.noteDiscordMethod discord).users.lookup userUid with
  | none => s.noteDiscordMethod discord
  | some user =>
    if user.discordId = (discordRow d discord user).discordId
        ∧ user.contactDiscord = (discordRow d discord user).contactDiscord
        ∧ user.nickname = (discordRow d discord user).nickname then s.noteDiscordMethod discord
    else (s.noteDiscordMethod discord).save (discordRow d discord user)

/-- `discord.py:174-194`: the account that signs in with it is merged in, or a sign-in is added. -/
def joinDiscord (s : Store) (d : Draws) (userUid : Uid) (discordId : String) :
    Except RouteError Store :=
  match s.getAuthMethodByIdentifier "discord" discordId with
  | some existing =>
    if existing.2.userUid = userUid then pure s
    else do
      let merged ← s.mergeUsers d userUid existing.2.userUid
      okOr merged (.http 302 "merge_failed")
  | none => pure { s with methods := s.methods ++ [(d.newUid, newDiscordMethod userUid discordId)] }

/-- `discord.py:168-205`: a Discord account is linked to a member signed in. -/
def linkDiscord (s : Store) (d : Draws) (userUid : Uid) (discord : DiscordUser) :
    Except RouteError Store := do
  let _ ← okOr (s.optionalUser userUid) (.http 302 "account_deleted")
  let linked ← s.joinDiscord d userUid discord.id
  pure (linked.recordDiscordSignIn d userUid discord)

/-- `admin.py:142`. -/
def mergeUserAccounts (s : Store) (d : Draws) (actor keepUid deleteUid : Uid) :
    Except RouteError Store := do
  let manager ← s.currentUser actor
  ensure (manager.toUser.hasAny [.ic] = true) (.http 403 "Only IC can merge users")
  ensure (keepUid ∈ s.users) (.http 404 "Keep user not found")
  ensure (deleteUid ∈ s.users) (.http 404 "Delete user not found")
  let merged ← s.mergeUsers d keepUid deleteUid
  okOr merged (.http 500 "Failed to merge users")

/-- `users.py:590`, `accounts.py:433`. -/
def anonymizeMember (s : Store) (d : Draws) (actor uid : Uid) : Except RouteError Store := do
  let current ← s.currentUser actor
  ensure (current.uid ≠ uid) (.http 403 "You cannot anonymize your own account")
  ensure (current.toUser.hasAny [.ic] = true) (.http 403 "Only IC can anonymize members")
  let target ← okOr (s.users.lookup uid) (.http 404 "User not found")
  ensure (given target.veknId ≠ none)
    (.http 400 "VEKN-less members cannot be anonymized; delete them instead")
  ensure (target.anonymizedAt = none) (.http 400 "Member is already anonymized")
  let s : Store := { s with
    methods := s.methods.filter fun m => m.2.userUid ≠ target.uid
    avatars := s.avatars.erase target.uid }
  pure (s.save (anonymized d.now current.uid target).row)

/-- `users.py:619`. -/
def deleteMember (s : Store) (d : Draws) (actor uid : Uid) : Except RouteError Store := do
  let current ← s.currentUser actor
  ensure (current.uid ≠ uid) (.http 403 "You cannot delete your own account")
  ensure (current.toUser.hasAny [.ic] = true) (.http 403 "Only IC can delete members")
  let deleted ← s.softDeleteUser d uid
  okOr deleted (.http 404 "User not found")

/-- The rows that were marked deleted before a time. -/
def purgedUids (s : Store) (before : Stamp) : List Uid :=
  (s.users.entries.filter fun e => e.2.deletedAt.any (· < before)).map Sigma.fst

/-- `db.py:637`: the rows go, with the images under their uids. -/
def purgeDeletedObjects (s : Store) (before : Stamp) : Store :=
  { s with
    users := (s.purgedUids before).foldl (fun users uid => users.erase uid) s.users
    avatars := (s.purgedUids before).foldl (fun avatars uid => avatars.erase uid) s.avatars }

end Store

/-! ### Runs -/

inductive Request where
  | uploadAvatar (uid : Uid) (contentType : String) (payload : List UInt8)
  | deleteAvatar (uid : Uid)
  | claimVeknId (veknId : String)
  | abandonVeknId
  | linkVeknToUser (veknId : String) (userUid : Uid)
  | forceAbandonVeknId (userUid : Uid)
  | linkDiscord (discord : Store.DiscordUser)
  | mergeUserAccounts (keepUid deleteUid : Uid)
  | anonymizeMember (uid : Uid)
  | deleteMember (uid : Uid)
  | purgeDeletedObjects (before : Stamp)

/-- A request, with the account that sends it and what it draws. -/
structure Call where
  actor : Uid
  draws : Draws
  request : Request

def Call.serve (s : Store) (c : Call) : Except RouteError Store :=
  match c.request with
  | .uploadAvatar uid contentType payload =>
    s.uploadAvatar c.draws c.actor uid contentType payload
  | .deleteAvatar uid => s.deleteAvatar c.draws c.actor uid
  | .claimVeknId veknId => s.claimVeknId c.draws c.actor veknId
  | .abandonVeknId => s.abandonVeknId c.draws c.actor
  | .linkVeknToUser veknId userUid => s.linkVeknToUser c.draws c.actor veknId userUid
  | .forceAbandonVeknId userUid => s.forceAbandonVeknId c.draws c.actor userUid
  | .linkDiscord discord => s.linkDiscord c.draws c.actor discord
  | .mergeUserAccounts keepUid deleteUid => s.mergeUserAccounts c.draws c.actor keepUid deleteUid
  | .anonymizeMember uid => s.anonymizeMember c.draws c.actor uid
  | .deleteMember uid => s.deleteMember c.draws c.actor uid
  | .purgeDeletedObjects before => pure (s.purgeDeletedObjects before)

/-- A uid drawn is one that nothing bears yet. -/
def Store.Unused (s : Store) (uid : Uid) : Prop :=
  uid ∉ s.users ∧ uid ∉ s.avatars ∧ ∀ m ∈ s.methods, m.1 ≠ uid ∧ m.2.userUid ≠ uid

instance (s : Store) (uid : Uid) : Decidable (s.Unused uid) :=
  inferInstanceAs (Decidable (uid ∉ s.users ∧ uid ∉ s.avatars ∧ _))

/-- The table of members: rows under their uid, no VEKN id twice, no sign-in twice. -/
structure Store.Indexed (s : Store) : Prop where
  keyed : Table.Keyed (fun u : UserRow => u.uid) s.users
  veknIds : ∀ uid u uid' u', s.users.lookup uid = some u → s.users.lookup uid' = some u' →
    ∀ v, given u.veknId = some v → given u'.veknId = some v → uid = uid'
  methods : (s.methods.map Prod.fst).Nodup

/-- A store of these rows. -/
def storeOf (rows : List UserRow) (methods : List AuthRow) : Store :=
  rows.foldl Store.save ⟨∅, methods, ∅, id⟩

end Archon.Accounts

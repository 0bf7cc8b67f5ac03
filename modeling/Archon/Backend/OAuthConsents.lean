import Archon.Backend.OAuthTokens

/-!
# Consents (`routes/oauth.py`, `db_oauth.py`)

The authorization and revocation requests beside the token requests, one database statement at a
time. What a member approved is a row of `oauth_consents`: it is found by the user, client and
tournament its data names, and updated by its uid column. A statement of a token request that reads
a consent reads the table, and requests read one clock.
-/

namespace Archon.Consents

open OAuth (OAuthClient OAuthAuthorizationCode OAuthToken Claims Phase oauthScopes oauthStep)

/-- `models.py:1132`. -/
structure OAuthConsent where
  uid : String
  userUid : String
  clientId : String
  scopes : List String
  tournamentUid : Option String
  deriving DecidableEq, Repr

/-- A row of `oauth_consents`, its uid column beside its data. -/
structure ConsentRow where
  uid : String
  data : OAuthConsent
  deriving DecidableEq, Repr

/-- What a member lets a client do. -/
structure Grant where
  userUid : String
  clientId : String
  tournamentUid : Option String
  scopes : List String
  deriving DecidableEq, Repr

/-- The columns of the unique index (`schema.sql:152`). -/
def Grant.key (g : Grant) : (String × String) × Option String :=
  ((g.userUid, g.clientId), g.tournamentUid)

/-- The user and the client. -/
def Grant.holder (g : Grant) : String × String := g.key.1

def OAuthConsent.grant (consent : OAuthConsent) : Grant :=
  ⟨consent.userUid, consent.clientId, consent.tournamentUid, consent.scopes⟩

def codeGrant (code : OAuthAuthorizationCode) : Grant :=
  ⟨code.userUid, code.clientId, code.tournamentUid, code.scopes⟩

def tokenGrant (tok : OAuthToken) : Grant :=
  ⟨tok.userUid, tok.clientId, tok.tournamentUid, tok.scopes⟩

/-- What a token request under way asks a pair for: the consent is read by its key. -/
def phaseGrant : Phase → Option Grant
  | .codeConsent client code | .codeUpdate client code =>
    some ⟨code.userUid, client.clientId, code.tournamentUid, code.scopes⟩
  | .refreshConsent client claims _ | .refreshTournament client claims _
  | .refreshUpdate client claims _ =>
    some ⟨claims.sub, client.clientId, claims.tournament, claims.scope⟩
  | .insertAccess _ access _ => some (tokenGrant access)
  | .insertRefresh _ _ refresh => some (tokenGrant refresh)
  | _ => none

/-! ### Requests -/

/-- The query of `GET /authorize`, the body of `POST /authorize`: the member of the session and the
active client of the id given. -/
structure AuthorizeRequest where
  user : String
  client : Option OAuthClient
  redirectUri : String
  scopes : List String
  codeChallenge : String
  tournament : String

/-- `_grant_tournament` (`oauth.py:124`); `running` says whether the event is stored and not
finished. -/
def grantTournament (scopes : List String) (tournament : String) (running : Bool) :
    Option (Option String) :=
  if "event:run" ∉ scopes ∧ tournament ≠ "" then none
  else if tournament = "" then some none
  else if running then some (some tournament)
  else none

/-- What is asked for, when the checks shared by the two endpoints pass (`oauth.py:164-185`,
`263-291`). -/
def AuthorizeRequest.grant? (request : AuthorizeRequest) (running : Bool) : Option Grant :=
  request.client.bind fun client =>
    if request.redirectUri ∉ client.redirectUris
        ∨ ¬(∀ scope ∈ request.scopes, scope ∈ oauthScopes ∧ scope ∈ client.scopes)
        ∨ "api:read" ∈ request.scopes then none
    else (grantTournament request.scopes request.tournament running).map fun tournamentUid =>
      ⟨request.user, client.clientId, tournamentUid, request.scopes⟩

/-- A request under way and the statement it is to run next. -/
inductive Request where
  | idle
  | readConsent (grant : Grant) (redirectUri codeChallenge : String)
  | findConsent (consent : OAuthConsent) (code : OAuthAuthorizationCode)
  | writeConsent (existing : Option OAuthConsent) (consent : OAuthConsent)
      (code : OAuthAuthorizationCode)
  | insertCode (code : OAuthAuthorizationCode)
  | deleteConsent (holder : String × String)

/-- The code, its tokens and the consents, the requests under way, every token inserted with the
consent then stored for it, and the users and clients whose revocation has returned, until a
consent of theirs is recorded. -/
structure State where
  oauth : OAuth.State
  consents : List ConsentRow
  requests : ℕ → Request
  clock : ℕ
  inserted : List (OAuthToken × Option OAuthConsent)
  revoked : List (String × String)

/-- What is drawn for an approval. -/
structure CodeIds where
  consentUid : String
  codeUid : String
  code : String

inductive Action where
  | token (a : OAuth.Action)
  | authorizeGet (r : ℕ) (request : AuthorizeRequest) (responseType codeChallengeMethod : String)
      (running : Bool)
  | authorizePost (r : ℕ) (request : AuthorizeRequest) (approved running : Bool) (ids : CodeIds)
  | readConsent (r : ℕ) (codeUid code : String)
  | findConsent (r : ℕ)
  | writeConsent (r : ℕ)
  | insertCode (r : ℕ)
  | revokeConsent (r : ℕ) (holder : String × String)
  | deleteConsent (r : ℕ)

namespace State

variable (s : State)

def goTo (r : ℕ) (request : Request) : State :=
  { s with requests := Function.update s.requests r request }

/-- `get_oauth_consent` (`db_oauth.py:139`). -/
def consent? (key : (String × String) × Option String) : Option ConsentRow :=
  s.consents.find? fun row => row.data.grant.key = key

/-- Drawn once. -/
def Fresh (ids : List String) : Prop := ids.Nodup ∧ ∀ id ∈ ids, id ∉ s.oauth.ids

instance (ids : List String) : Decidable (s.Fresh ids) := inferInstanceAs (Decidable (_ ∧ _))

def draw (ids : List String) : State :=
  { s with oauth := { s.oauth with ids := s.oauth.ids ++ ids } }

/-- A consent of the holder is recorded. -/
def record (consents : List ConsentRow) (holder : String × String) : State :=
  { s with consents, revoked := s.revoked.filter (· ≠ holder) }

/-- The token request has run its statement; the tokens it inserted are the last of the table. -/
def after (oauth : OAuth.State) : State :=
  { s with
    oauth
    inserted := s.inserted ++ (oauth.tokens.drop s.oauth.tokens.length).map fun tok =>
      (tok, (s.consent? (tokenGrant tok).key).map ConsentRow.data) }

/-- The record of a presented token is stored and not revoked (`middleware/auth.py:83`,
`oauth.py:487-491`). -/
def Accepts (claims : Claims) : Prop := ∃ record ∈ s.oauth.token? claims.jti, record.revoked = false

end State

/-! ### Statements -/

def authCodeLifetime : ℕ := 60

/-- `oauth.py:190-201`, `304-315`. -/
def authCode (g : Grant) (redirectUri codeChallenge codeUid code : String) (now : ℕ) :
    OAuthAuthorizationCode :=
  ⟨codeUid, code, g.clientId, g.userUid, redirectUri, g.scopes, g.tournamentUid, codeChallenge,
    now + authCodeLifetime, false⟩

/-- `oauth.py:143-185`, up to the consent. -/
def authorizeGet (s : State) (r : ℕ) (request : AuthorizeRequest)
    (responseType codeChallengeMethod : String) (running : Bool) : State :=
  if responseType ≠ "code" ∨ request.codeChallenge = "" ∨ codeChallengeMethod ≠ "S256" then s
  else match request.grant? running with
    | none => s
    | some g => s.goTo r (.readConsent g request.redirectUri request.codeChallenge)

/-- `oauth.py:187-206`: a consent that has the scopes gives a code, any other a prompt. -/
def readConsent (s : State) (r : ℕ) (codeUid code : String) (now : ℕ) : Option State :=
  match s.requests r with
  | .readConsent g redirectUri codeChallenge =>
    if (s.consent? g.key).any fun row => ∀ scope ∈ g.scopes, scope ∈ row.data.scopes then
      if s.Fresh [codeUid, code] then
        some ((s.draw [codeUid, code]).goTo r
          (.insertCode (authCode g redirectUri codeChallenge codeUid code now)))
      else none
    else some (s.goTo r .idle)
  | _ => none

/-- `oauth.py:251-315`, up to the upsert. -/
def authorizePost (s : State) (r : ℕ) (request : AuthorizeRequest) (approved running : Bool)
    (ids : CodeIds) (now : ℕ) : State :=
  if approved = false ∨ request.codeChallenge = "" then s
  else match request.grant? running with
    | none => s
    | some g => (s.draw [ids.consentUid, ids.codeUid, ids.code]).goTo r
        (.findConsent ⟨ids.consentUid, g.userUid, g.clientId, g.scopes, g.tournamentUid⟩
          (authCode g request.redirectUri request.codeChallenge ids.codeUid ids.code now))

/-- `db_oauth.py:158-160`. -/
def findConsent (s : State) (r : ℕ) : Option State :=
  match s.requests r with
  | .findConsent consent code =>
    some (s.goTo r
      (.writeConsent ((s.consent? consent.grant.key).map ConsentRow.data) consent code))
  | _ => none

/-- The row of the uid has the consent as its data (`db_oauth.py:162`). -/
def overwritten (consents : List ConsentRow) (uid : String) (consent : OAuthConsent) :
    List ConsentRow :=
  consents.map fun row => if row.uid = uid then { row with data := consent } else row

/-- `db_oauth.py:161-170`: the update goes by the uid in the data that was read, and the insertion
of a second row for a key breaks the unique index. -/
def writeConsent (s : State) (r : ℕ) : Option State :=
  match s.requests r with
  | .writeConsent (some existing) consent code =>
    some (if ∃ row ∈ s.consents, row.uid = existing.uid then
        (s.record (overwritten s.consents existing.uid consent) consent.grant.holder).goTo r
          (.insertCode code)
      else s.goTo r (.insertCode code))
  | .writeConsent none consent code =>
    some (if (s.consent? consent.grant.key).isSome then s.goTo r .idle
      else (s.record (s.consents ++ [⟨consent.uid, consent⟩]) consent.grant.holder).goTo r
        (.insertCode code))
  | _ => none

/-- `db_oauth.py:50`. -/
def insertCode (s : State) (r : ℕ) : Option State :=
  match s.requests r with
  | .insertCode code =>
    some ({ s with oauth := { s.oauth with codes := s.oauth.codes ++ [code] } }.goTo r .idle)
  | _ => none

/-- `revoke_oauth_tokens_for_user_client` (`db_oauth.py:194`), the first statement of
`revoke_consent` (`oauth.py:758`). -/
def revokeTokens (s : State) (r : ℕ) (holder : String × String) : State :=
  { s with oauth := { s.oauth with tokens := s.oauth.tokens.map fun tok =>
      if (tokenGrant tok).holder = holder then { tok with revoked := true } else tok } }.goTo r
    (.deleteConsent holder)

/-- `delete_oauth_consent` (`db_oauth.py:182`), after which `revoke_consent` returns. -/
def deleteConsent (s : State) (r : ℕ) : Option State :=
  match s.requests r with
  | .deleteConsent holder =>
    some ({ s with
      consents := s.consents.filter fun row => row.data.grant.holder ≠ holder
      revoked := s.revoked ++ [holder] }.goTo r .idle)
  | _ => none

/-- A statement of a token request at this time finds the consents as they are stored, and a token
has expired when its record says so. -/
def Answered (s : State) (now : ℕ) : OAuth.Action → Prop
  | .redeem _ _ _ _ _ time => time = now
  | .refresh _ _ claims expired => ∀ c ∈ claims, ∀ record ∈ s.oauth.token? c.jti,
      expired = decide (record.expiresAt ≤ now)
  | .consent t found => ∀ g ∈ phaseGrant (s.oauth.threads t), found = (s.consent? g.key).isSome
  | .update _ time _ => time = now
  | _ => True

instance (s : State) (now : ℕ) : ∀ a, Decidable (Answered s now a)
  | .redeem .. => inferInstanceAs (Decidable (_ = _))
  | .refresh _ _ claims expired => inferInstanceAs (Decidable (∀ c ∈ claims,
      ∀ record ∈ s.oauth.token? c.jti, expired = decide (record.expiresAt ≤ now)))
  | .consent t found => inferInstanceAs (Decidable (∀ g ∈ phaseGrant (s.oauth.threads t),
      found = (s.consent? g.key).isSome))
  | .update .. => inferInstanceAs (Decidable (_ = _))
  | .revoke .. | .tournament .. | .insert .. | .select .. | .revokeNext .. => .isTrue trivial

section Handlers

variable (verifyPkce : String → String → Bool)

/-- One statement at a time of the clock. A request starts on a thread of its own. -/
def consentsStep (s : State) (now : ℕ) : Action → Option State
  | .token a => if Answered s now a then (oauthStep verifyPkce s.oauth a).map s.after else none
  | .authorizeGet r request responseType codeChallengeMethod running =>
    match s.requests r with
    | .idle => some (authorizeGet s r request responseType codeChallengeMethod running)
    | _ => none
  | .authorizePost r request approved running ids =>
    match s.requests r with
    | .idle =>
      if s.Fresh [ids.consentUid, ids.codeUid, ids.code] then
        some (authorizePost s r request approved running ids now)
      else none
    | _ => none
  | .readConsent r codeUid code => readConsent s r codeUid code now
  | .findConsent r => findConsent s r
  | .writeConsent r => writeConsent s r
  | .insertCode r => insertCode s r
  | .revokeConsent r holder =>
    match s.requests r with
    | .idle => some (revokeTokens s r holder)
    | _ => none
  | .deleteConsent r => deleteConsent s r

/-- The interleavings, from empty tables; the clock does not go back. -/
def consentsSystem : System State (ℕ × Action) where
  init s := s.oauth.codes = [] ∧ s.oauth.tokens = [] ∧ (∀ t, s.oauth.threads t = .idle) ∧
    s.oauth.issued = [] ∧ s.oauth.ids = [] ∧ s.consents = [] ∧ (∀ r, s.requests r = .idle) ∧
    s.inserted = [] ∧ s.revoked = []
  step s a s' := s.clock ≤ a.1 ∧ consentsStep verifyPkce { s with clock := a.1 } a.1 a.2 = some s'

end Handlers

end Archon.Consents

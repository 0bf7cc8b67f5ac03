import Mathlib.Data.List.Nodup
import Mathlib.Logic.Function.Basic
import Archon.Library.Runs

/-!
# Authorization codes and token pairs (`routes/oauth.py`, `db_oauth.py`)

The `/token` and `/revoke` requests, one database statement at a time. A request under way is a
phase: what it has read and the statement it is to run next. Consents and tournaments are not
kept, a statement that reads one answers anything. A signed token is the claims it was signed
with, so a request presents the claims of a pair that was handed out, or none when its token does
not verify.
-/

namespace Archon.OAuth

structure OAuthClient where
  clientId : String
  redirectUris : List String
  scopes : List String
  deriving DecidableEq, Repr

/-- `models.py:1089`. -/
structure OAuthAuthorizationCode where
  uid : String
  code : String
  clientId : String
  userUid : String
  redirectUri : String
  scopes : List String
  tournamentUid : Option String
  codeChallenge : String
  expiresAt : ℕ
  used : Bool
  deriving DecidableEq, Repr

inductive TokenType where
  | access
  | refresh
  deriving DecidableEq, Repr

/-- `models.py:1110`. -/
structure OAuthToken where
  uid : String
  tokenJti : String
  clientId : String
  userUid : String
  scopes : List String
  tournamentUid : Option String
  tokenType : TokenType
  expiresAt : ℕ
  revoked : Bool
  parentTokenUid : Option String
  deriving DecidableEq, Repr

/-- The uid the tokens of a lineage share: `parent_token_uid or uid`. -/
def OAuthToken.root (t : OAuthToken) : String := t.parentTokenUid.getD t.uid

/-- The claims of a token, by `_create_oauth_jwt` (`oauth.py:84`). -/
structure Claims where
  sub : String
  type : TokenType
  scope : List String
  clientId : String
  jti : String
  tournament : Option String
  deriving DecidableEq, Repr

def OAuthToken.claims (t : OAuthToken) : Claims :=
  ⟨t.userUid, t.tokenType, t.scopes, t.clientId, t.tokenJti, t.tournamentUid.filter (· ≠ "")⟩

/-! ### Requests under way -/

/-- What a pair is issued for. -/
inductive Source where
  | code (value : String)
  | refresh (jti : String)
  deriving DecidableEq, Repr

inductive Phase where
  | idle
  | codeConsent (client : OAuthClient) (code : OAuthAuthorizationCode)
  | codeUpdate (client : OAuthClient) (code : OAuthAuthorizationCode)
  | refreshConsent (client : OAuthClient) (claims : Claims) (record : OAuthToken)
  | refreshTournament (client : OAuthClient) (claims : Claims) (record : OAuthToken)
  | refreshUpdate (client : OAuthClient) (claims : Claims) (record : OAuthToken)
  | insertAccess (source : Source) (access refresh : OAuthToken)
  | insertRefresh (source : Source) (access refresh : OAuthToken)
  | chainSelect (root : String)
  | chainUpdate (root : String) (pending : List OAuthToken)

/-- A pair handed out. -/
structure Pair where
  source : Source
  access : OAuthToken
  refresh : OAuthToken
  deriving DecidableEq, Repr

/-- The two tables, the requests under way, and what has been answered: the pairs, and the lineages
of which a token was presented to `/revoke` or after its use. -/
structure State where
  codes : List OAuthAuthorizationCode
  tokens : List OAuthToken
  threads : ℕ → Phase
  issued : List Pair
  closed : List String
  /-- The uuids drawn. -/
  ids : List String

/-- The uuids of a pair. -/
structure PairIds where
  accessJti : String
  refreshJti : String
  accessUid : String
  refreshUid : String

def PairIds.all (ids : PairIds) : List String :=
  [ids.accessJti, ids.refreshJti, ids.accessUid, ids.refreshUid]

/-- A uuid is drawn once. -/
def PairIds.Fresh (s : State) (ids : PairIds) : Prop := ids.all.Nodup ∧ ∀ id ∈ ids.all, id ∉ s.ids

instance (s : State) (ids : PairIds) : Decidable (ids.Fresh s) :=
  inferInstanceAs (Decidable (_ ∧ _))

/-- A request, or the next statement of one under way. The client is the one whose id and secret the
request gave, if they are right (`oauth.py:383-393`). -/
inductive Action where
  | redeem (t : ℕ) (client : Option OAuthClient) (code redirectUri codeVerifier : String) (now : ℕ)
  | refresh (t : ℕ) (client : Option OAuthClient) (claims : Option Claims) (expired : Bool)
  | revoke (t : ℕ) (client : Option OAuthClient) (claims : Option Claims)
  | consent (t : ℕ) (found : Bool)
  | tournament (t : ℕ) (running : Bool)
  | update (t : ℕ) (now : ℕ) (ids : PairIds)
  | insert (t : ℕ)
  | select (t : ℕ)
  | revokeNext (t : ℕ)

namespace State

variable (s : State)

def goTo (t : ℕ) (phase : Phase) : State := { s with threads := Function.update s.threads t phase }

/-- The request is answered; of these lineages a token was revoked or presented again. -/
def answer (t : ℕ) (roots : List String) : State :=
  { s.goTo t .idle with closed := s.closed ++ roots }

def code? (value : String) : Option OAuthAuthorizationCode := s.codes.find? fun c => c.code = value

/-- `db_oauth.py:85`. -/
def token? (jti : String) : Option OAuthToken := s.tokens.find? fun t => t.tokenJti = jti

/-- `db_oauth.py:98`, the record written whole. -/
def writeToken (record : OAuthToken) : State :=
  { s with tokens := s.tokens.map fun t => if t.uid = record.uid then record else t }

/-- `db_oauth.py:68`. -/
def writeCode (record : OAuthAuthorizationCode) : State :=
  { s with codes := s.codes.map fun c => if c.uid = record.uid then record else c }

/-- The claims were signed into a token that was handed out. -/
def Signed (claims : Claims) : Prop :=
  ∃ p ∈ s.issued, claims = p.access.claims ∨ claims = p.refresh.claims

instance (claims : Claims) : Decidable (s.Signed claims) :=
  inferInstanceAs (Decidable (∃ p ∈ s.issued, _ ∨ _))

/-- The lineage of a refresh token presented although it is revoked. -/
def reused (claims : Option Claims) : List String :=
  match claims with
  | some c =>
    if c.type = .refresh then
      ((s.token? c.jti).filter fun t => t.revoked).toList.map OAuthToken.root
    else []
  | none => []

/-- The lineage of a presented token. -/
def lineage (claims : Option Claims) : List String :=
  ((claims.bind fun c => s.token? c.jti).map OAuthToken.root).toList

end State

section Reads

variable {s : State} {t : ℕ} {phase : Phase}

@[simp] theorem threads_self : (s.goTo t phase).threads t = phase := Function.update_self ..

theorem threads_other {t' : ℕ} (h : t' ≠ t) : (s.goTo t phase).threads t' = s.threads t' :=
  Function.update_of_ne h ..

theorem token?_some {jti : String} {record : OAuthToken} (h : s.token? jti = some record) :
    record ∈ s.tokens ∧ record.tokenJti = jti :=
  ⟨List.mem_of_find?_eq_some h, by simpa using List.find?_some h⟩

end Reads

/-! ### Statements -/

def accessTokenLifetime : ℕ := 3600

def refreshTokenLifetime : ℕ := 30 * 24 * 3600

/-- `oauth.py:581`. -/
def issueTokenPair (userUid clientId : String) (scopes : List String)
    (tournamentUid parentTokenUid : Option String) (now : ℕ) (ids : PairIds) :
    OAuthToken × OAuthToken :=
  (⟨ids.accessUid, ids.accessJti, clientId, userUid, scopes, tournamentUid, .access,
      now + accessTokenLifetime, false, parentTokenUid⟩,
    ⟨ids.refreshUid, ids.refreshJti, clientId, userUid, scopes, tournamentUid, .refresh,
      now + refreshTokenLifetime, false, some (parentTokenUid.getD ids.accessUid)⟩)

/-- The pair is to be inserted, its uuids are drawn. -/
def State.issue (s : State) (t : ℕ) (source : Source) (pair : OAuthToken × OAuthToken)
    (ids : PairIds) : State :=
  { s.goTo t (.insertAccess source pair.1 pair.2) with ids := s.ids ++ ids.all }

/-- `models.py:1063`. -/
def oauthScopes : List String := ["profile:read", "profile:email", "event:run", "api:read"]

section Handlers

variable (verifyPkce : String → String → Bool)

/-- `oauth.py:404-437`, up to the consent. -/
def redeemCode (s : State) (t : ℕ) (client : Option OAuthClient)
    (code redirectUri codeVerifier : String) (now : ℕ) : State :=
  match client with
  | none => s.answer t []
  | some client =>
    if code = "" ∨ redirectUri = "" ∨ codeVerifier = "" then s.answer t []
    else match s.code? code with
      | none => s.answer t []
      | some authCode =>
        if authCode.used ∨ authCode.clientId ≠ client.clientId ∨ authCode.redirectUri ≠ redirectUri
            ∨ redirectUri ∉ client.redirectUris ∨
              ¬(∀ scope ∈ authCode.scopes, scope ∈ client.scopes)
            ∨ authCode.expiresAt < now ∨ verifyPkce codeVerifier authCode.codeChallenge = false then
          s.answer t []
        else s.goTo t (.codeConsent client authCode)

/-- `oauth.py:468-499`, up to the consent. -/
def presentRefresh (s : State) (t : ℕ) (client : Option OAuthClient) (claims : Option Claims)
    (expired : Bool) : State :=
  match client, claims with
  | some client, some payload =>
    if expired ∨ payload.type ≠ .refresh ∨ payload.clientId ≠ client.clientId then
      s.answer t (s.reused claims)
    else match s.token? payload.jti with
      | none => s.answer t []
      | some record =>
        if record.revoked then
          match record.parentTokenUid with
          | some parent => s.goTo t (.chainSelect parent)
          | none => s.answer t [record.root]
        else s.goTo t (.refreshConsent client payload record)
  | _, _ => s.answer t (s.reused claims)

/-- `oauth.py:643-675`, up to the chain. -/
def presentRevoke (s : State) (t : ℕ) (client : Option OAuthClient) (claims : Option Claims) :
    State :=
  match client, claims with
  | some client, some payload =>
    match s.token? payload.jti with
    | none => s.answer t []
    | some record =>
      if record.clientId = client.clientId then s.goTo t (.chainSelect record.root)
      else s.answer t (s.lineage claims)
  | _, _ => s.answer t (s.lineage claims)

/-- `oauth.py:441`, `503`. -/
def readConsent (s : State) (t : ℕ) (found : Bool) : Option State :=
  match s.threads t with
  | .codeConsent client code =>
    some (if found then s.goTo t (.codeUpdate client code) else s.answer t [])
  | .refreshConsent client claims record =>
    some (if found then
        if claims.tournament = none then s.goTo t (.refreshUpdate client claims record)
        else s.goTo t (.refreshTournament client claims record)
      else s.answer t [])
  | _ => none

/-- `oauth.py:507-509`. -/
def readTournament (s : State) (t : ℕ) (running : Bool) : Option State :=
  match s.threads t with
  | .refreshTournament client claims record =>
    some (if running then s.goTo t (.refreshUpdate client claims record) else s.answer t [])
  | _ => none

/-- `oauth.py:446-465`, `512-546`: the code or the token is written as spent, and the pair made. -/
def writeSpent (s : State) (t : ℕ) (now : ℕ) (ids : PairIds) : Option State :=
  match s.threads t with
  | .codeUpdate client code =>
    some ((s.writeCode { code with used := true }).issue t (.code code.code)
      (issueTokenPair code.userUid client.clientId code.scopes code.tournamentUid none now ids) ids)
  | .refreshUpdate client claims record =>
    let spent := s.writeToken { record with revoked := true }
    if (∀ scope ∈ claims.scope, scope ∈ oauthScopes) ∧ ∀ scope ∈ claims.scope, scope ∈ client.scopes
    then some (spent.issue t (.refresh record.tokenJti)
      (issueTokenPair claims.sub client.clientId claims.scope claims.tournament (some record.root)
        now ids) ids)
    else some (spent.answer t [])
  | _ => none

/-- `oauth.py:633-634`. -/
def insertNext (s : State) (t : ℕ) : Option State :=
  match s.threads t with
  | .insertAccess source access refresh =>
    some ({ s with tokens := s.tokens ++ [access] }.goTo t (.insertRefresh source access refresh))
  | .insertRefresh source access refresh =>
    some { ({ s with tokens := s.tokens ++ [refresh] }.answer t []) with
      issued := s.issued ++ [⟨source, access, refresh⟩] }
  | _ => none

/-- `db_oauth.py:109-113`. -/
def selectChain (s : State) (t : ℕ) : Option State :=
  match s.threads t with
  | .chainSelect root =>
    some (s.goTo t (.chainUpdate root (s.tokens.filter fun tok =>
      (tok.parentTokenUid = some root ∨ tok.uid = root) ∧ tok.revoked = false)))
  | _ => none

/-- `db_oauth.py:115-136`: the next token of the chain, and the answer after the last. -/
def revokeNext (s : State) (t : ℕ) : Option State :=
  match s.threads t with
  | .chainUpdate root (tok :: pending) =>
    some ((s.writeToken { tok with revoked := true }).goTo t (.chainUpdate root pending))
  | .chainUpdate root [] => some (s.answer t [root])
  | _ => none

/-- One statement. A request starts on a thread of its own and presents a signed token. -/
def oauthStep (s : State) : Action → Option State
  | .redeem t client code redirectUri codeVerifier now =>
    match s.threads t with
    | .idle => some (redeemCode verifyPkce s t client code redirectUri codeVerifier now)
    | _ => none
  | .refresh t client claims expired =>
    match s.threads t with
    | .idle => if ∀ c ∈ claims, s.Signed c then some (presentRefresh s t client claims expired)
      else none
    | _ => none
  | .revoke t client claims =>
    match s.threads t with
    | .idle => if ∀ c ∈ claims, s.Signed c then some (presentRevoke s t client claims) else none
    | _ => none
  | .consent t found => readConsent s t found
  | .tournament t running => readTournament s t running
  | .update t now ids => if ids.Fresh s then writeSpent s t now ids else none
  | .insert t => insertNext s t
  | .select t => selectChain s t
  | .revokeNext t => revokeNext s t

/-- The interleavings, from codes told apart by their values and no tokens. -/
def oauthSystem : System State Action where
  init s := (s.codes.map fun c => c.uid).Nodup ∧ (s.codes.map fun c => c.code).Nodup ∧
    s.tokens = [] ∧ (∀ t, s.threads t = .idle) ∧ s.issued = [] ∧ s.closed = [] ∧ s.ids = []
  step s a s' := oauthStep verifyPkce s a = some s'

end Handlers

end Archon.OAuth

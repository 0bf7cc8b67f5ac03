import Archon.Backend.OAuthConsents

/-!
# The consent binds

In a run whose approvals leave no outstanding grant without a scope of its row, and whose
revocations do not overlap the insertions of a pair, every token is inserted within the consent
stored for it, and none of a revoked client is accepted.
-/

namespace Archon.Consents

open OAuth (threads_self threads_other token?_some)
open OAuth (OAuthClient OAuthAuthorizationCode OAuthToken Claims Phase Pair PairIds oauthScopes
  oauthStep)

/-! ### Outstanding grants -/

/-- The grant of a token request that has found its consent. -/
def checked : Phase → Option Grant
  | .codeConsent .. | .refreshConsent .. => none
  | phase => phaseGrant phase

/-- A grant that may still become a pair: an unused code or a live refresh token that has not
expired, or a request under way. -/
inductive Outstanding (s : State) (g : Grant) : Prop where
  | code (code : OAuthAuthorizationCode) (stored : code ∈ s.oauth.codes)
      (unused : code.used = false) (unexpired : s.clock ≤ code.expiresAt)
      (grant : codeGrant code = g)
  | refresh (tok : OAuthToken) (stored : tok ∈ s.oauth.tokens) (type : tok.tokenType = .refresh)
      (live : tok.revoked = false) (unexpired : s.clock < tok.expiresAt)
      (grant : tokenGrant tok = g)
  | token (t : ℕ) (grant : phaseGrant (s.oauth.threads t) = some g)
  | request (r : ℕ) (code : OAuthAuthorizationCode) (phase : s.requests r = .insertCode code)
      (grant : codeGrant code = g)

/-- The row of the key, if any, has the scopes. -/
def Within (consents : List ConsentRow) (g : Grant) : Prop :=
  ∀ row ∈ consents, row.data.grant.key = g.key → ∀ scope ∈ g.scopes, scope ∈ row.data.scopes

/-- The write of an approval leaves its own grant and those outstanding within their rows, the
tokens are revoked while no request of the holder stands between its check and its insertions, and
no check passes between the two statements of a revocation. -/
def Heeded (s : State) (a : ℕ × Action) : Prop :=
  match a.2 with
  | .token (.consent t found) => found = true → ∀ g ∈ phaseGrant (s.oauth.threads t),
      ∀ r, s.requests r ≠ .deleteConsent g.holder
  | .revokeConsent _ holder => ∀ t, ∀ g ∈ checked (s.oauth.threads t), g.holder ≠ holder
  | .writeConsent r =>
    match s.requests r with
    | .writeConsent (some existing) consent _ =>
      ∀ g, Outstanding { s with clock := a.1 } g ∨ g = consent.grant →
        Within (overwritten s.consents existing.uid consent) g
    | .writeConsent none consent _ => s.consent? consent.grant.key = none →
      ∀ g, Outstanding { s with clock := a.1 } g → Within (s.consents ++ [⟨consent.uid, consent⟩]) g
    | _ => True
  | _ => True

/-- A token was inserted within the consent stored for it, and no token of a revoked holder is
accepted. -/
structure Binding (s : State) : Prop where
  issued : ∀ i ∈ s.inserted, ∃ consent ∈ i.2, ∀ scope ∈ i.1.scopes, scope ∈ consent.scopes
  revoked : ∀ holder ∈ s.revoked, ∀ claims, s.oauth.Signed claims →
    (claims.sub, claims.clientId) = holder → ¬s.Accepts claims

/-! ### The invariant -/

/-- The token records a request has read or made. -/
def records : Phase → List OAuthToken
  | .refreshConsent _ _ record | .refreshTournament _ _ record | .refreshUpdate _ _ record =>
    [record]
  | .insertAccess _ access refresh | .insertRefresh _ access refresh => [access, refresh]
  | .chainUpdate _ pending => pending
  | _ => []

/-- A jti has one set of claims, wherever it stands. -/
structure Named (o : OAuth.State) (claimsOf : String → Option Claims) : Prop where
  drawn : ∀ jti claims, claimsOf jti = some claims → jti ∈ o.ids
  rows : ∀ tok ∈ o.tokens, claimsOf tok.tokenJti = some tok.claims
  held : ∀ t, ∀ tok ∈ records (o.threads t), claimsOf tok.tokenJti = some tok.claims
  signed : ∀ claims, o.Signed claims → claimsOf claims.jti = some claims

/-- The consents a request has read or made. -/
def Request.consents : Request → List OAuthConsent
  | .findConsent consent _ => [consent]
  | .writeConsent existing consent _ => consent :: existing.toList
  | _ => []

/-- A uid of a consent has one key, wherever it stands. -/
structure Keyed (s : State) (keyOf : String → Option ((String × String) × Option String)) :
    Prop where
  drawn : ∀ uid key, keyOf uid = some key → uid ∈ s.oauth.ids
  rows : ∀ row ∈ s.consents, keyOf row.uid = some row.data.grant.key ∧
    keyOf row.data.uid = some row.data.grant.key
  held : ∀ r, ∀ consent ∈ (s.requests r).consents, keyOf consent.uid = some consent.grant.key

/-- The tokens of a pair are for one grant. -/
def Paired : Phase → Prop
  | .insertAccess _ access refresh => tokenGrant access = tokenGrant refresh
  | _ => True

/-- What an authorization holds is for one grant, and names no empty tournament. -/
def Request.Formed : Request → Prop
  | .readConsent g _ _ => g.tournamentUid ≠ some ""
  | .findConsent consent code => codeGrant code = consent.grant ∧ consent.tournamentUid ≠ some ""
  | .writeConsent existing consent code => codeGrant code = consent.grant ∧
      consent.tournamentUid ≠ some "" ∧ ∀ e ∈ existing, e.grant.key = consent.grant.key
  | _ => True

/-- A grant that becomes a pair when its consent is found. -/
structure Fits (consents : List ConsentRow) (g : Grant) : Prop where
  tournament : g.tournamentUid ≠ some ""
  within : Within consents g

def Stored (consents : List ConsentRow) (g : Grant) : Prop :=
  ∃ row ∈ consents, row.data.grant.key = g.key

/-- The holder has no live token and none is to be inserted. -/
structure Cut (o : OAuth.State) (holder : String × String) : Prop where
  tokens : ∀ tok ∈ o.tokens, (tokenGrant tok).holder = holder → tok.revoked = true
  quiet : ∀ t, ∀ g ∈ checked (o.threads t), g.holder ≠ holder

/-- One row for a key (`schema.sql:152`). -/
def Unique (consents : List ConsentRow) : Prop := ∀ row ∈ consents, ∀ row' ∈ consents,
  row.data.grant.key = row'.data.grant.key → row = row'

structure Sound (s : State) : Prop where
  named : ∃ claimsOf, Named s.oauth claimsOf
  keyed : ∃ keyOf, Keyed s keyOf
  unique : Unique s.consents
  paired : ∀ t, Paired (s.oauth.threads t)
  formed : ∀ r, (s.requests r).Formed
  fits : ∀ g, Outstanding s g → Fits s.consents g
  stored : ∀ t, ∀ g ∈ checked (s.oauth.threads t), Stored s.consents g
  cutting : ∀ r holder, s.requests r = .deleteConsent holder → Cut s.oauth holder
  cut : ∀ holder ∈ s.revoked,
    Cut s.oauth holder ∧ ∀ row ∈ s.consents, row.data.grant.holder ≠ holder
  issued : ∀ i ∈ s.inserted, ∃ consent ∈ i.2, ∀ scope ∈ i.1.scopes, scope ∈ consent.scopes

variable {s : State} {t r now : ℕ} {phase : Phase} {g : Grant} {holder : String × String}

theorem checked_grant (h : checked phase = some g) : phaseGrant phase = some g := by
  cases phase <;> first | exact h | cases h

theorem consent?_some {key : (String × String) × Option String} {row : ConsentRow}
    (h : s.consent? key = some row) : row ∈ s.consents ∧ row.data.grant.key = key :=
  ⟨List.mem_of_find?_eq_some h, by simpa using List.find?_some h⟩

theorem stored_iff : Stored s.consents g ↔ (s.consent? g.key).isSome = true := by
  simp only [Stored, State.consent?, List.find?_isSome, decide_eq_true_eq]

theorem Named.record {o : OAuth.State} {claimsOf : String → Option Claims} (h : Named o claimsOf)
    {claims : Claims} {record : OAuthToken} (hsigned : o.Signed claims)
    (hrecord : o.token? claims.jti = some record) : record.claims = claims := by
  obtain ⟨hmem, hjti⟩ := token?_some hrecord
  have hrow := h.rows record hmem
  rw [hjti, h.signed claims hsigned] at hrow
  exact (Option.some.inj hrow).symm

theorem Sound.binding (h : Sound s) : Binding s where
  issued := h.issued
  revoked holder hrevoked claims hsigned hholder := by
    rintro ⟨record, hrecord, hlive⟩
    obtain ⟨claimsOf, hnamed⟩ := h.named
    have hclaims := hnamed.record hsigned hrecord
    have hdead := (h.cut holder hrevoked).1.tokens record (token?_some hrecord).1
      (by rw [← hholder, ← hclaims]; rfl)
    rw [hlive] at hdead
    cases hdead

theorem Sound.init {verifyPkce : String → String → Bool}
    (h : (consentsSystem verifyPkce).init s) : Sound s := by
  obtain ⟨hcodes, htokens, hthreads, hissued, -, hconsents, hrequests, hinserted, hrevoked⟩ := h
  refine ⟨⟨fun _ => none, ?_⟩, ⟨fun _ => none, ?_⟩, ?_, ?_, ?_, ?_, ?_, ?_, ?_, ?_⟩
  · constructor <;> simp [htokens, hthreads, records, OAuth.State.Signed, hissued]
  · constructor <;> simp [hconsents, hrequests, Request.consents]
  · simp [Unique, hconsents]
  · simp [hthreads, Paired]
  · simp [hrequests, Request.Formed]
  · rintro g (⟨code, hcode, -⟩ | ⟨tok, htok, -⟩ | ⟨t, hgrant⟩ | ⟨r, code, hphase, -⟩)
    · simp [hcodes] at hcode
    · simp [htokens] at htok
    · simp [hthreads, phaseGrant] at hgrant
    · simp [hrequests] at hphase
  · simp [hthreads, checked, phaseGrant]
  · simp [hrequests]
  · simp [hrevoked]
  · simp [hinserted]

theorem Outstanding.congr {s' : State} (h : Outstanding s' g)
    (hcodes : s'.oauth.codes = s.oauth.codes) (htokens : s'.oauth.tokens = s.oauth.tokens)
    (hthreads : s'.oauth.threads = s.oauth.threads) (hrequests : s'.requests = s.requests)
    (hclock : s.clock ≤ s'.clock) : Outstanding s g := by
  cases h with
  | code code hstored hunused hunexpired hgrant =>
    exact .code code (hcodes ▸ hstored) hunused (Nat.le_trans hclock hunexpired) hgrant
  | refresh tok hstored htype hlive hunexpired hgrant =>
    exact .refresh tok (htokens ▸ hstored) htype hlive (Nat.lt_of_le_of_lt hclock hunexpired) hgrant
  | token t hgrant => exact .token t (hthreads ▸ hgrant)
  | request r code hphase hgrant => exact .request r code (hrequests ▸ hphase) hgrant

theorem Sound.tick (h : Sound s) (hnow : s.clock ≤ now) : Sound { s with clock := now } where
  __ := h
  keyed := by
    obtain ⟨keyOf, hkeyed⟩ := h.keyed
    exact ⟨keyOf, hkeyed.drawn, hkeyed.rows, hkeyed.held⟩
  fits g hg := h.fits g (hg.congr rfl rfl rfl rfl hnow)

/-! ### A token request moves on -/

/-- The token requests have come to this. -/
def State.withOAuth (s : State) (o : OAuth.State) : State := { s with oauth := o }

/-- A phase a token request may enter. -/
structure Admits (s : State) (phase : Phase) : Prop where
  paired : Paired phase
  fits : ∀ g ∈ phaseGrant phase, Fits s.consents g
  stored : ∀ g ∈ checked phase, Stored s.consents g
  quiet : ∀ g ∈ checked phase, ∀ r, s.requests r ≠ .deleteConsent g.holder

theorem goTo_threads {o : OAuth.State} {P : Phase → Prop} (hself : P phase)
    (hother : ∀ t', P (o.threads t')) (t' : ℕ) : P ((o.goTo t phase).threads t') := by
  by_cases ht : t' = t
  · rw [ht, threads_self]
    exact hself
  · rw [threads_other ht]
    exact hother t'

theorem Cut.goTo {o : OAuth.State} (h : Cut o holder)
    (hquiet : ∀ g ∈ checked phase, g.holder ≠ holder) : Cut (o.goTo t phase) holder where
  tokens := h.tokens
  quiet := goTo_threads (P := fun p => ∀ g ∈ checked p, g.holder ≠ holder) hquiet h.quiet

theorem Sound.enter (h : Sound s) (hnamed : ∃ claimsOf, Named (s.oauth.goTo t phase) claimsOf)
    (hphase : Admits s phase) : Sound (s.withOAuth (s.oauth.goTo t phase)) where
  __ := h
  named := hnamed
  keyed := by
    obtain ⟨keyOf, hkeyed⟩ := h.keyed
    exact ⟨keyOf, hkeyed.drawn, hkeyed.rows, hkeyed.held⟩
  paired := goTo_threads hphase.paired h.paired
  fits g hg := by
    cases hg with
    | code code hstored hunused hunexpired hgrant =>
      exact h.fits g (.code code hstored hunused hunexpired hgrant)
    | refresh tok hstored htype hlive hunexpired hgrant =>
      exact h.fits g (.refresh tok hstored htype hlive hunexpired hgrant)
    | token t' hgrant =>
      exact goTo_threads (P := fun p => phaseGrant p = some g → Fits s.consents g)
        (hphase.fits g) (fun t' hgrant => h.fits g (.token t' hgrant)) t' hgrant
    | request r code hrequest hgrant => exact h.fits g (.request r code hrequest hgrant)
  stored := goTo_threads (P := fun p => ∀ g ∈ checked p, Stored s.consents g) hphase.stored h.stored
  cutting r holder hrequest := (h.cutting r holder hrequest).goTo fun g hg heq =>
    hphase.quiet g hg r (heq ▸ hrequest)
  cut holder hholder := by
    obtain ⟨hcut, hrows⟩ := h.cut holder hholder
    refine ⟨hcut.goTo fun g hg heq => ?_, hrows⟩
    obtain ⟨row, hrow, hkey⟩ := hphase.stored g hg
    refine hrows row hrow ?_
    rw [Grant.holder, hkey]
    exact heq

theorem Sound.goTo (h : Sound s) (hrecords : ∀ claimsOf, Named s.oauth claimsOf →
      ∀ tok ∈ records phase, claimsOf tok.tokenJti = some tok.claims) (hphase : Admits s phase) :
    Sound (s.withOAuth (s.oauth.goTo t phase)) := by
  refine h.enter ?_ hphase
  obtain ⟨claimsOf, hnamed⟩ := h.named
  exact ⟨claimsOf, hnamed.drawn, hnamed.rows, goTo_threads
    (P := fun p => ∀ tok ∈ records p, claimsOf tok.tokenJti = some tok.claims)
    (hrecords claimsOf hnamed) hnamed.held, hnamed.signed⟩

theorem admits_quiet (hpaired : Paired phase) (hgrant : phaseGrant phase = none) :
    Admits s phase where
  paired := hpaired
  fits g hg := by
    rw [hgrant] at hg
    cases hg
  stored g hg := by
    have hsome := checked_grant hg
    rw [hgrant] at hsome
    cases hsome
  quiet g hg := by
    have hsome := checked_grant hg
    rw [hgrant] at hsome
    cases hsome

theorem Cut.congr {o o' : OAuth.State} (h : Cut o holder) (htokens : o'.tokens = o.tokens)
    (hthreads : o'.threads = o.threads) : Cut o' holder :=
  ⟨htokens ▸ h.tokens, hthreads ▸ h.quiet⟩

theorem Sound.congr {o : OAuth.State} (h : Sound s) (hnamed : ∃ claimsOf, Named o claimsOf)
    (hfits : ∀ g, Outstanding (s.withOAuth o) g → Fits s.consents g)
    (htokens : o.tokens = s.oauth.tokens) (hthreads : o.threads = s.oauth.threads)
    (hids : ∀ id ∈ s.oauth.ids, id ∈ o.ids) : Sound (s.withOAuth o) where
  named := hnamed
  keyed := by
    obtain ⟨keyOf, hkeyed⟩ := h.keyed
    exact ⟨keyOf, fun uid key huid => hids uid (hkeyed.drawn uid key huid), hkeyed.rows,
      hkeyed.held⟩
  unique := h.unique
  paired t := by
    rw [State.withOAuth, hthreads]
    exact h.paired t
  formed := h.formed
  fits := hfits
  stored t := by
    rw [State.withOAuth, hthreads]
    exact h.stored t
  cutting r holder hrequest := (h.cutting r holder hrequest).congr htokens hthreads
  cut holder hholder := ⟨(h.cut holder hholder).1.congr htokens hthreads, (h.cut holder hholder).2⟩
  issued := h.issued

theorem Sound.close (h : Sound s) (roots : List String) :
    Sound (s.withOAuth { s.oauth with closed := s.oauth.closed ++ roots }) := by
  obtain ⟨claimsOf, hnamed⟩ := h.named
  exact h.congr ⟨claimsOf, hnamed.drawn, hnamed.rows, hnamed.held, hnamed.signed⟩
    (fun g hg => h.fits g (hg.congr rfl rfl rfl rfl (Nat.le_refl _))) rfl rfl fun _ => id

theorem Sound.answer (h : Sound s) (roots : List String) :
    Sound (s.withOAuth (s.oauth.answer t roots)) := by
  have hidle : Sound (s.withOAuth (s.oauth.goTo t .idle)) :=
    h.goTo (by simp [records]) (admits_quiet trivial rfl)
  exact hidle.close roots

/-! ### Codes and tokens are written -/

theorem Sound.codes {codes : List OAuthAuthorizationCode} (h : Sound s)
    (hcodes : ∀ code ∈ codes, code.used = false → s.clock ≤ code.expiresAt →
      Fits s.consents (codeGrant code)) : Sound (s.withOAuth { s.oauth with codes := codes }) := by
  obtain ⟨claimsOf, hnamed⟩ := h.named
  refine h.congr ⟨claimsOf, hnamed.drawn, hnamed.rows, hnamed.held, hnamed.signed⟩
    (fun g hg => ?_) rfl rfl fun _ => id
  cases hg with
  | code code hstored hunused hunexpired hgrant =>
    exact hgrant ▸ hcodes code hstored hunused hunexpired
  | refresh tok hstored htype hlive hunexpired hgrant =>
    exact h.fits g (.refresh tok hstored htype hlive hunexpired hgrant)
  | token t hgrant => exact h.fits g (.token t hgrant)
  | request r code hphase hgrant => exact h.fits g (.request r code hphase hgrant)

theorem Sound.writeCode (h : Sound s) (code : OAuthAuthorizationCode) :
    Sound (s.withOAuth (s.oauth.writeCode { code with used := true })) := by
  refine h.codes fun c hc hunused hunexpired => ?_
  obtain ⟨c₀, hc₀, rfl⟩ := List.mem_map.1 hc
  split at hunused
  · cases hunused
  · next hne =>
    rw [if_neg hne] at hunexpired ⊢
    exact h.fits _ (.code c₀ hc₀ hunused hunexpired rfl)

/-- The jti of the token has its claims. -/
def NamedToken (o : OAuth.State) (tok : OAuthToken) : Prop :=
  ∀ claimsOf, Named o claimsOf → claimsOf tok.tokenJti = some tok.claims

theorem Cut.marked {o : OAuth.State} {tokens : List OAuthToken} (h : Cut o holder)
    (htokens : ∀ tok ∈ tokens, tok ∈ o.tokens ∨ tok.revoked = true) :
    Cut { o with tokens := tokens } holder where
  tokens tok htok hholder := (htokens tok htok).elim (fun hold => h.tokens tok hold hholder) id
  quiet := h.quiet

theorem Sound.marked {tokens : List OAuthToken} (h : Sound s)
    (htokens : ∀ tok ∈ tokens, tok ∈ s.oauth.tokens ∨ tok.revoked = true ∧ NamedToken s.oauth tok) :
    Sound (s.withOAuth { s.oauth with tokens := tokens }) where
  __ := h
  named := by
    obtain ⟨claimsOf, hnamed⟩ := h.named
    refine ⟨claimsOf, hnamed.drawn, fun tok htok => ?_, hnamed.held, hnamed.signed⟩
    exact (htokens tok htok).elim (hnamed.rows tok) fun hdead => hdead.2 claimsOf hnamed
  keyed := by
    obtain ⟨keyOf, hkeyed⟩ := h.keyed
    exact ⟨keyOf, hkeyed.drawn, hkeyed.rows, hkeyed.held⟩
  fits g hg := by
    cases hg with
    | code code hstored hunused hunexpired hgrant =>
      exact h.fits g (.code code hstored hunused hunexpired hgrant)
    | refresh tok hstored htype hlive hunexpired hgrant =>
      rcases htokens tok hstored with hold | ⟨hdead, -⟩
      · exact h.fits g (.refresh tok hold htype hlive hunexpired hgrant)
      · rw [hlive] at hdead
        cases hdead
    | token t hgrant => exact h.fits g (.token t hgrant)
    | request r code hphase hgrant => exact h.fits g (.request r code hphase hgrant)
  cutting r holder hrequest := (h.cutting r holder hrequest).marked fun tok htok =>
    (htokens tok htok).imp_right And.left
  cut holder hholder := ⟨(h.cut holder hholder).1.marked fun tok htok =>
    (htokens tok htok).imp_right And.left, (h.cut holder hholder).2⟩

theorem Sound.writeToken {record : OAuthToken} (h : Sound s) (hrecord : NamedToken s.oauth record) :
    Sound (s.withOAuth (s.oauth.writeToken { record with revoked := true })) := by
  refine h.marked fun tok htok => ?_
  obtain ⟨tok₀, htok₀, rfl⟩ := List.mem_map.1 htok
  split
  · exact .inr ⟨rfl, hrecord⟩
  · exact .inl htok₀

theorem Sound.uncut (h : Sound s) (hg : g ∈ checked (s.oauth.threads t)) :
    g.holder ∉ s.revoked ∧ ∀ r, s.requests r ≠ .deleteConsent g.holder :=
  ⟨fun hrevoked => (h.cut _ hrevoked).1.quiet t g hg rfl,
    fun r hrequest => (h.cutting r _ hrequest).quiet t g hg rfl⟩

/-- What is stored for a grant is what the token was inserted with. -/
def State.insertToken (s : State) (tok : OAuthToken) : State :=
  { s with
    oauth := { s.oauth with tokens := s.oauth.tokens ++ [tok] }
    inserted := s.inserted ++
      [(tok, (s.consent? (tokenGrant tok).key).map ConsentRow.data)] }

theorem Sound.insertToken {tok : OAuthToken} (h : Sound s)
    (hg : tokenGrant tok ∈ checked (s.oauth.threads t)) (hnamed : NamedToken s.oauth tok) :
    Sound (s.insertToken tok) where
  __ := h
  named := by
    obtain ⟨claimsOf, hclaims⟩ := h.named
    refine ⟨claimsOf, hclaims.drawn, fun tok' htok => ?_, hclaims.held, hclaims.signed⟩
    rcases List.mem_append.1 htok with hold | hnew
    · exact hclaims.rows tok' hold
    · exact List.mem_singleton.1 hnew ▸ hnamed claimsOf hclaims
  keyed := by
    obtain ⟨keyOf, hkeyed⟩ := h.keyed
    exact ⟨keyOf, hkeyed.drawn, hkeyed.rows, hkeyed.held⟩
  fits g' hg' := by
    cases hg' with
    | code code hstored hunused hunexpired hgrant =>
      exact h.fits g' (.code code hstored hunused hunexpired hgrant)
    | refresh tok' hstored htype hlive hunexpired hgrant =>
      rcases List.mem_append.1 hstored with hold | hnew
      · exact h.fits g' (.refresh tok' hold htype hlive hunexpired hgrant)
      · obtain rfl := List.mem_singleton.1 hnew
        exact hgrant ▸ h.fits _ (.token t (checked_grant hg))
    | token t hgrant => exact h.fits g' (.token t hgrant)
    | request r code hphase hgrant => exact h.fits g' (.request r code hphase hgrant)
  cutting r holder hrequest := by
    refine ⟨fun tok' htok hholder => ?_, (h.cutting r holder hrequest).quiet⟩
    rcases List.mem_append.1 htok with hold | hnew
    · exact (h.cutting r holder hrequest).tokens tok' hold hholder
    · obtain rfl := List.mem_singleton.1 hnew
      exact absurd (hholder ▸ hrequest) ((h.uncut hg).2 r)
  cut holder hholder := by
    refine ⟨⟨fun tok' htok hsame => ?_, (h.cut holder hholder).1.quiet⟩, (h.cut holder hholder).2⟩
    rcases List.mem_append.1 htok with hold | hnew
    · exact (h.cut holder hholder).1.tokens tok' hold hsame
    · obtain rfl := List.mem_singleton.1 hnew
      exact absurd (hsame ▸ hholder) (h.uncut hg).1
  issued i hi := by
    rcases List.mem_append.1 hi with hi | hi
    · exact h.issued i hi
    · obtain rfl := List.mem_singleton.1 hi
      obtain ⟨row, hrow⟩ := Option.isSome_iff_exists.1 (stored_iff.1 (h.stored t _ hg))
      obtain ⟨hmem, hkey⟩ := consent?_some hrow
      exact ⟨row.data, by simp only [hrow, Option.map_some, Option.mem_def],
        (h.fits _ (.token t (checked_grant hg))).within row hmem hkey⟩

theorem Sound.handOut {p : Pair} (h : Sound s) (haccess : NamedToken s.oauth p.access)
    (hrefresh : NamedToken s.oauth p.refresh) :
    Sound (s.withOAuth { s.oauth with issued := s.oauth.issued ++ [p] }) := by
  obtain ⟨claimsOf, hnamed⟩ := h.named
  refine h.congr ⟨claimsOf, hnamed.drawn, hnamed.rows, hnamed.held, ?_⟩
    (fun g hg => h.fits g (hg.congr rfl rfl rfl rfl (Nat.le_refl _))) rfl rfl fun _ => id
  rintro claims ⟨q, hq, hclaims⟩
  rcases List.mem_append.1 hq with hold | hnew
  · exact hnamed.signed claims ⟨q, hold, hclaims⟩
  · obtain rfl := List.mem_singleton.1 hnew
    rcases hclaims with rfl | rfl
    · exact haccess claimsOf hnamed
    · exact hrefresh claimsOf hnamed

theorem Sound.draw (h : Sound s) (ids : List String) : Sound (s.draw ids) := by
  obtain ⟨claimsOf, hnamed⟩ := h.named
  have hdrawn : ∀ jti claims, claimsOf jti = some claims → jti ∈ s.oauth.ids ++ ids :=
    fun jti claims hjti => List.mem_append_left _ (hnamed.drawn jti claims hjti)
  exact h.congr ⟨claimsOf, hdrawn, hnamed.rows, hnamed.held, hnamed.signed⟩
    (fun g hg => h.fits g (hg.congr rfl rfl rfl rfl (Nat.le_refl _))) rfl rfl
    fun _ => List.mem_append_left _

theorem Named.issue {o : OAuth.State} {claimsOf : String → Option Claims} {ids : PairIds}
    {source : OAuth.Source} {access refresh : OAuthToken} (h : Named o claimsOf)
    (hfresh : ids.Fresh o) (haccess : access.tokenJti = ids.accessJti)
    (hrefresh : refresh.tokenJti = ids.refreshJti) :
    Named (({ o with ids := o.ids ++ ids.all } : OAuth.State).goTo t
        (.insertAccess source access refresh))
      (Function.update (Function.update claimsOf ids.accessJti (some access.claims)) ids.refreshJti
        (some refresh.claims)) := by
  obtain ⟨hnodup, hunused⟩ := hfresh
  have hne : ids.accessJti ≠ ids.refreshJti := by
    intro heq
    simp [PairIds.all, heq] at hnodup
  -- what had claims keeps them
  have hkept : ∀ jti claims, claimsOf jti = some claims →
      Function.update (Function.update claimsOf ids.accessJti (some access.claims)) ids.refreshJti
        (some refresh.claims) jti = some claims := by
    intro jti claims hjti
    have hdrawn := h.drawn jti claims hjti
    have hna : jti ≠ ids.accessJti := fun heq => hunused _ (by simp [PairIds.all]) (heq ▸ hdrawn)
    have hnr : jti ≠ ids.refreshJti := fun heq => hunused _ (by simp [PairIds.all]) (heq ▸ hdrawn)
    rw [Function.update_of_ne hnr, Function.update_of_ne hna, hjti]
  refine ⟨fun jti claims hjti => ?_, fun tok htok => hkept _ _ (h.rows tok htok), ?_,
    fun claims hsigned => hkept _ _ (h.signed claims hsigned)⟩
  · refine List.mem_append.2 ?_
    by_cases hr : jti = ids.refreshJti
    · exact .inr (by simp [PairIds.all, hr])
    · rw [Function.update_of_ne hr] at hjti
      by_cases ha : jti = ids.accessJti
      · exact .inr (by simp [PairIds.all, ha])
      · rw [Function.update_of_ne ha] at hjti
        exact .inl (h.drawn jti claims hjti)
  · refine goTo_threads (P := fun p => ∀ tok ∈ records p, Function.update (Function.update claimsOf
        ids.accessJti (some access.claims)) ids.refreshJti (some refresh.claims) tok.tokenJti =
          some tok.claims) ?_ fun t' tok htok => hkept _ _ (h.held t' tok htok)
    intro tok htok
    rcases List.mem_cons.1 htok with rfl | htok
    · rw [haccess, Function.update_of_ne hne, Function.update_self]
    · obtain rfl := List.mem_singleton.1 htok
      rw [hrefresh, Function.update_self]

theorem Sound.issue {source : OAuth.Source} {parent : Option String} {ids : PairIds} (h : Sound s)
    (hfresh : ids.Fresh s.oauth) (hfits : Fits s.consents g) (hstored : Stored s.consents g)
    (hquiet : ∀ r, s.requests r ≠ .deleteConsent g.holder) :
    Sound (s.withOAuth (s.oauth.issue t source (OAuth.issueTokenPair g.userUid g.clientId g.scopes
      g.tournamentUid parent now ids) ids)) := by
  obtain ⟨claimsOf, hnamed⟩ := h.named
  refine (h.draw ids.all).enter ⟨_, hnamed.issue hfresh rfl rfl⟩ ⟨rfl, ?_, ?_, ?_⟩
  · intro g' hg'
    exact Option.some.inj hg' ▸ hfits
  · intro g' hg'
    exact Option.some.inj hg' ▸ hstored
  · intro g' hg'
    exact Option.some.inj hg' ▸ hquiet

/-! ### Token requests -/

theorem after_of_length {o : OAuth.State} (h : o.tokens.length = s.oauth.tokens.length) :
    s.after o = s.withOAuth o := by
  simp only [State.after, State.withOAuth, List.drop_eq_nil_of_le (Nat.le_of_eq h), List.map_nil,
    List.append_nil]

theorem Sound.stay {o : OAuth.State} (h : Sound (s.withOAuth o))
    (hlength : o.tokens.length = s.oauth.tokens.length) : Sound (s.after o) := by
  rw [after_of_length hlength]
  exact h

theorem Sound.refuse (h : Sound s) (roots : List String) :
    Sound (s.after (s.oauth.answer t roots)) := (h.answer roots).stay rfl

theorem Sound.goOn (h : Sound s) (hrecords : ∀ tok ∈ records phase, NamedToken s.oauth tok)
    (hphase : Admits s phase) : Sound (s.after (s.oauth.goTo t phase)) :=
  (h.goTo (fun claimsOf hnamed tok htok => hrecords tok htok claimsOf hnamed) hphase).stay rfl

theorem named_row {tok : OAuthToken} (h : tok ∈ s.oauth.tokens) : NamedToken s.oauth tok :=
  fun _ hnamed => hnamed.rows tok h

theorem named_held {tok : OAuthToken} (h : tok ∈ records (s.oauth.threads t)) :
    NamedToken s.oauth tok := fun _ hnamed => hnamed.held t tok h

theorem Sound.redeem {verifyPkce : String → String → Bool} {client : Option OAuthClient}
    {code redirectUri codeVerifier : String} (h : Sound s) :
    Sound (s.after (OAuth.redeemCode verifyPkce s.oauth t client code redirectUri codeVerifier
      s.clock)) := by
  unfold OAuth.redeemCode
  split
  · exact h.refuse _
  · next client =>
    split
    · exact h.refuse _
    · split
      · exact h.refuse _
      · next authCode hcode =>
        split
        · exact h.refuse _
        · next hgate =>
          simp only [not_or, Bool.not_eq_true, Decidable.not_not, Nat.not_lt] at hgate
          obtain ⟨hunused, hclient, -, -, -, hunexpired, -⟩ := hgate
          refine h.goOn (fun tok htok => by cases htok) ⟨trivial, fun g hg => ?_,
            fun g hg => (by cases hg), fun g hg => (by cases hg)⟩
          obtain rfl := Option.some.inj hg
          rw [← hclient]
          exact h.fits _ (.code authCode (List.mem_of_find?_eq_some hcode) hunused hunexpired rfl)

theorem Sound.live {claims : Claims} {record : OAuthToken} {clientId : String} (h : Sound s)
    (hsigned : s.oauth.Signed claims) (hrecord : s.oauth.token? claims.jti = some record)
    (htype : claims.type = .refresh) (hlive : record.revoked = false)
    (hunexpired : s.clock < record.expiresAt) (hclient : claims.clientId = clientId) :
    Fits s.consents ⟨claims.sub, clientId, claims.tournament, claims.scope⟩ := by
  obtain ⟨claimsOf, hnamed⟩ := h.named
  have hclaims := hnamed.record hsigned hrecord
  have hfits := h.fits _ (.refresh record (token?_some hrecord).1
    ((congrArg Claims.type hclaims).trans htype) hlive hunexpired rfl)
  have htournament : claims.tournament = record.tournamentUid := by
    rw [← hclaims]
    cases huid : record.tournamentUid with
    | none => simp only [OAuthToken.claims, huid, Option.filter_none]
    | some uid =>
      simp only [OAuthToken.claims, huid]
      exact Option.filter_some_pos (decide_eq_true fun hempty =>
        hfits.tournament (huid.trans (congrArg some hempty)))
  rw [← hclient, htournament, ← hclaims]
  exact hfits

theorem Sound.refresh {client : Option OAuthClient} {claims : Option Claims} {expired : Bool}
    (h : Sound s) (hsigned : ∀ c ∈ claims, s.oauth.Signed c)
    (hexpired : ∀ c ∈ claims, ∀ record ∈ s.oauth.token? c.jti,
      expired = decide (record.expiresAt ≤ s.clock)) :
    Sound (s.after (OAuth.presentRefresh s.oauth t client claims expired)) := by
  unfold OAuth.presentRefresh
  split
  · next client payload =>
    split
    · exact h.refuse _
    · next hgate =>
      simp only [not_or, Bool.not_eq_true, Decidable.not_not] at hgate
      obtain ⟨hin, htype, hclient⟩ := hgate
      split
      · exact h.refuse _
      · next record hrecord =>
        have hmem := (token?_some hrecord).1
        have hunexpired : s.clock < record.expiresAt := by
          have htime := hexpired payload rfl record hrecord
          rw [hin, eq_comm, decide_eq_false_iff_not, Nat.not_le] at htime
          exact htime
        split
        · split
          · exact h.goOn (fun tok htok => by cases htok) (admits_quiet trivial rfl)
          · exact h.refuse _
        · next hlive =>
          refine h.goOn (fun tok htok => ?_) ⟨trivial, fun g hg => ?_, fun g hg => (by cases hg),
            fun g hg => (by cases hg)⟩
          · exact List.mem_singleton.1 htok ▸ named_row hmem
          · obtain rfl := Option.some.inj hg
            exact h.live (hsigned payload rfl) hrecord htype (Bool.not_eq_true _ ▸ hlive) hunexpired
              hclient
  · exact h.refuse _

theorem Sound.revoke {client : Option OAuthClient} {claims : Option Claims} (h : Sound s) :
    Sound (s.after (OAuth.presentRevoke s.oauth t client claims)) := by
  unfold OAuth.presentRevoke
  split
  · split
    · exact h.refuse _
    · split
      · exact h.goOn (fun tok htok => by cases htok) (admits_quiet trivial rfl)
      · exact h.refuse _
  · exact h.refuse _

theorem Sound.passes {phase' : Phase} (h : Sound s) (hphase : s.oauth.threads t = phase)
    (hrecords : records phase' = records phase) (hgrant : phaseGrant phase' = phaseGrant phase)
    (hpaired : Paired phase') (hfound : ∀ g ∈ phaseGrant phase, true = (s.consent? g.key).isSome)
    (hapart : ∀ g ∈ phaseGrant phase, ∀ r, s.requests r ≠ .deleteConsent g.holder) :
    Sound (s.after (s.oauth.goTo t phase')) := by
  refine h.goOn (fun tok htok => named_held (t := t) ?_) ⟨hpaired, fun g hg => ?_, fun g hg => ?_,
    fun g hg => ?_⟩
  · rw [hphase, ← hrecords]
    exact htok
  · rw [hgrant] at hg
    exact h.fits g (.token t (hphase ▸ hg))
  · have hg' := checked_grant hg
    rw [hgrant] at hg'
    exact stored_iff.2 (hfound g hg').symm
  · have hg' := checked_grant hg
    rw [hgrant] at hg'
    exact hapart g hg'

theorem Sound.goesOn {phase' : Phase} (h : Sound s) (hphase : s.oauth.threads t = phase)
    (hrecords : records phase' = records phase) (hgrant : checked phase' = checked phase)
    (hsome : phaseGrant phase' = checked phase) (hpaired : Paired phase') :
    Sound (s.after (s.oauth.goTo t phase')) := by
  refine h.goOn (fun tok htok => named_held (t := t) ?_) ⟨hpaired, fun g hg => ?_, fun g hg => ?_,
    fun g hg => ?_⟩
  · rw [hphase, ← hrecords]
    exact htok
  · rw [hsome, ← hphase] at hg
    exact h.fits g (.token t (checked_grant hg))
  · rw [hgrant, ← hphase] at hg
    exact h.stored t g hg
  · rw [hgrant, ← hphase] at hg
    exact (h.uncut hg).2

theorem Sound.consent {found : Bool} {o : OAuth.State} (h : Sound s)
    (hfound : ∀ g ∈ phaseGrant (s.oauth.threads t), found = (s.consent? g.key).isSome)
    (hapart : found = true → ∀ g ∈ phaseGrant (s.oauth.threads t),
      ∀ r, s.requests r ≠ .deleteConsent g.holder)
    (hs : OAuth.readConsent s.oauth t found = some o) : Sound (s.after o) := by
  unfold OAuth.readConsent at hs
  split at hs
  · next client code hphase =>
    rw [hphase] at hfound hapart
    obtain rfl := Option.some.inj hs
    split
    · next hyes =>
      exact h.passes hphase rfl rfl trivial (hyes ▸ hfound) (hapart hyes)
    · exact h.refuse _
  · next client claims record hphase =>
    rw [hphase] at hfound hapart
    obtain rfl := Option.some.inj hs
    split
    · next hyes =>
      split
      · exact h.passes hphase rfl rfl trivial (hyes ▸ hfound) (hapart hyes)
      · exact h.passes hphase rfl rfl trivial (hyes ▸ hfound) (hapart hyes)
    · exact h.refuse _
  · cases hs

theorem Sound.tournament {running : Bool} {o : OAuth.State} (h : Sound s)
    (hs : OAuth.readTournament s.oauth t running = some o) : Sound (s.after o) := by
  unfold OAuth.readTournament at hs
  split at hs
  · next client claims record hphase =>
    obtain rfl := Option.some.inj hs
    split
    · exact h.goesOn hphase rfl rfl rfl trivial
    · exact h.refuse _
  · cases hs

theorem Sound.update {ids : PairIds} {o : OAuth.State} (h : Sound s) (hfresh : ids.Fresh s.oauth)
    (hs : OAuth.writeSpent s.oauth t now ids = some o) : Sound (s.after o) := by
  unfold OAuth.writeSpent at hs
  split at hs
  · next client code hphase =>
    obtain rfl := Option.some.inj hs
    have hg : (⟨code.userUid, client.clientId, code.tournamentUid, code.scopes⟩ : Grant) ∈
        checked (s.oauth.threads t) := by
      rw [hphase]
      rfl
    rw [after_of_length]
    · exact (h.writeCode code).issue hfresh (h.fits _ (.token t (checked_grant hg)))
        (h.stored t _ hg) (h.uncut hg).2
    · rfl
  · next client claims record hphase =>
    have hg : (⟨claims.sub, client.clientId, claims.tournament, claims.scope⟩ : Grant) ∈
        checked (s.oauth.threads t) := by
      rw [hphase]
      rfl
    have hrecord : NamedToken s.oauth record := named_held (t := t) (by
      rw [hphase]
      exact List.mem_singleton_self record)
    have hspent := h.writeToken hrecord
    dsimp only at hs
    split at hs
    · obtain rfl := Option.some.inj hs
      rw [after_of_length]
      · exact hspent.issue hfresh (h.fits _ (.token t (checked_grant hg))) (h.stored t _ hg)
          (h.uncut hg).2
      · exact List.length_map _
    · obtain rfl := Option.some.inj hs
      exact Sound.stay (s := s) (hspent.answer []) (List.length_map _)
  · cases hs

theorem after_append {o : OAuth.State} {tok : OAuthToken}
    (h : o.tokens = s.oauth.tokens ++ [tok]) :
    s.after o = (s.insertToken tok).withOAuth o := by
  simp only [State.after, State.insertToken, State.withOAuth, h, List.drop_left, List.map_cons,
    List.map_nil]

theorem Sound.insert {o : OAuth.State} (h : Sound s)
    (hs : OAuth.insertNext s.oauth t = some o) : Sound (s.after o) := by
  unfold OAuth.insertNext at hs
  split at hs
  · next source access refresh hphase =>
    obtain rfl := Option.some.inj hs
    have hpaired := h.paired t
    rw [hphase] at hpaired
    have hg : tokenGrant access ∈ checked (s.oauth.threads t) := by
      rw [hphase]
      rfl
    have hheld : ∀ tok ∈ [access, refresh], NamedToken s.oauth tok := fun tok htok =>
      named_held (t := t) (by rw [hphase]; exact htok)
    have hadded := h.insertToken hg (hheld access (List.mem_cons_self ..))
    rw [after_append (show _ = s.oauth.tokens ++ [access] from rfl)]
    refine hadded.goTo (fun claimsOf hnamed tok htok => ?_) ⟨trivial, ?_, ?_, ?_⟩
    · exact hnamed.held t tok (by
        rw [show (s.insertToken access).oauth.threads t = _ from hphase]
        exact htok)
    all_goals
      intro g hgrant
      obtain rfl : tokenGrant refresh = g := Option.some.inj hgrant
      rw [← hpaired]
    · exact h.fits _ (.token t (checked_grant hg))
    · exact h.stored t _ hg
    · exact (h.uncut hg).2
  · next source access refresh hphase =>
    obtain rfl := Option.some.inj hs
    have hg : tokenGrant refresh ∈ checked (s.oauth.threads t) := by
      rw [hphase]
      rfl
    have hheld : ∀ tok ∈ [access, refresh], NamedToken (s.insertToken refresh).oauth tok :=
      fun tok htok => named_held (s := s.insertToken refresh) (t := t) (by
        rw [show (s.insertToken refresh).oauth.threads t = _ from hphase]
        exact htok)
    have hadded := h.insertToken hg fun claimsOf hnamed => hnamed.held t refresh (by
      rw [hphase]
      exact List.mem_cons_of_mem _ (List.mem_singleton_self refresh))
    have hpair := hadded.handOut (p := ⟨source, access, refresh⟩)
      (hheld access (List.mem_cons_self ..))
      (hheld refresh (List.mem_cons_of_mem _ (List.mem_singleton_self refresh)))
    rw [after_append (show _ = s.oauth.tokens ++ [refresh] from rfl)]
    exact hpair.answer []
  · cases hs

theorem Sound.select {o : OAuth.State} (h : Sound s)
    (hs : OAuth.selectChain s.oauth t = some o) : Sound (s.after o) := by
  unfold OAuth.selectChain at hs
  split at hs
  · obtain rfl := Option.some.inj hs
    exact h.goOn (fun tok htok => named_row (List.mem_filter.1 htok).1) (admits_quiet trivial rfl)
  · cases hs

theorem Sound.revokeNext {o : OAuth.State} (h : Sound s)
    (hs : OAuth.revokeNext s.oauth t = some o) : Sound (s.after o) := by
  unfold OAuth.revokeNext at hs
  split at hs
  · next root tok pending hphase =>
    obtain rfl := Option.some.inj hs
    have hheld : ∀ b ∈ tok :: pending, b ∈ records (s.oauth.threads t) := fun b hb => by
      rw [hphase]
      exact hb
    have hspent := h.writeToken (named_held (hheld tok (List.mem_cons_self ..)))
    rw [after_of_length]
    · exact hspent.goTo (fun claimsOf hnamed b hb => hnamed.held t b
        (hheld b (List.mem_cons_of_mem _ hb))) (admits_quiet trivial rfl)
    · exact List.length_map _
  · obtain rfl := Option.some.inj hs
    exact h.refuse _
  · cases hs

/-! ### Authorizations and revocations -/

/-- What a request may come to. -/
structure Takes (s : State) (q : Request) : Prop where
  formed : q.Formed
  code : ∀ code, q = .insertCode code → Fits s.consents (codeGrant code)
  cut : ∀ holder, q = .deleteConsent holder → Cut s.oauth holder

theorem goTo_requests {q : Request} {P : Request → Prop} (hself : P q)
    (hother : ∀ r', P (s.requests r')) (r' : ℕ) : P ((s.goTo r q).requests r') := by
  change P (Function.update s.requests r q r')
  by_cases hr : r' = r
  · rw [hr, Function.update_self]
    exact hself
  · rw [Function.update_of_ne hr]
    exact hother r'

theorem Sound.take {q : Request} (h : Sound s) (hkeyed : ∃ keyOf, Keyed (s.goTo r q) keyOf)
    (htakes : Takes s q) : Sound (s.goTo r q) where
  __ := h
  keyed := hkeyed
  formed := goTo_requests (P := Request.Formed) htakes.formed h.formed
  fits g hg := by
    cases hg with
    | code code hstored hunused hunexpired hgrant =>
      exact h.fits g (.code code hstored hunused hunexpired hgrant)
    | refresh tok hstored htype hlive hunexpired hgrant =>
      exact h.fits g (.refresh tok hstored htype hlive hunexpired hgrant)
    | token t hgrant => exact h.fits g (.token t hgrant)
    | request r' code hphase hgrant =>
      exact hgrant ▸ goTo_requests (P := fun q => q = .insertCode code → Fits s.consents
        (codeGrant code)) (htakes.code code) (fun r₀ hr₀ => h.fits _ (.request r₀ code hr₀ rfl)) r'
          hphase
  cutting r' holder := goTo_requests (P := fun q => q = .deleteConsent holder → Cut s.oauth holder)
    (htakes.cut holder) (fun r₀ => h.cutting r₀ holder) r'

theorem Sound.step {q : Request} (h : Sound s)
    (hheld : ∀ keyOf, Keyed s keyOf → ∀ consent ∈ q.consents,
      keyOf consent.uid = some consent.grant.key) (htakes : Takes s q) : Sound (s.goTo r q) := by
  obtain ⟨keyOf, hkeyed⟩ := h.keyed
  exact h.take ⟨keyOf, hkeyed.drawn, hkeyed.rows, goTo_requests
    (P := fun q => ∀ consent ∈ q.consents, keyOf consent.uid = some consent.grant.key)
    (hheld keyOf hkeyed) hkeyed.held⟩ htakes

theorem Sound.done (h : Sound s) : Sound (s.goTo r .idle) :=
  h.step (fun _ _ consent hconsent => by cases hconsent)
    ⟨trivial, fun _ hcode => (by cases hcode), fun _ hcut => (by cases hcut)⟩

theorem grant?_tournament {request : AuthorizeRequest} {running : Bool}
    (h : request.grant? running = some g) : g.tournamentUid ≠ some "" := by
  obtain ⟨client, -, hgrant⟩ := Option.bind_eq_some_iff.1 h
  obtain ⟨tournamentUid, htournament, rfl⟩ := Option.map_eq_some_iff.1
    (Option.ite_none_left_eq_some.1 hgrant).2
  have hnamed := (Option.ite_none_left_eq_some.1 htournament).2
  intro hempty
  obtain rfl : tournamentUid = some "" := hempty
  split at hnamed
  · cases hnamed
  · next hne =>
    have hsame := Option.some.inj (Option.ite_none_right_eq_some.1 hnamed).2
    exact hne (Option.some.inj hsame)

theorem Sound.authorizeGet {request : AuthorizeRequest} {responseType codeChallengeMethod : String}
    {running : Bool} (h : Sound s) :
    Sound (Consents.authorizeGet s r request responseType codeChallengeMethod running) := by
  unfold Consents.authorizeGet
  split
  · exact h
  · split
    · exact h
    · next g hgrant =>
      exact h.step (fun _ _ consent hconsent => by cases hconsent) ⟨grant?_tournament hgrant,
        fun _ hcode => (by cases hcode), fun _ hcut => (by cases hcut)⟩

theorem Keyed.find {keyOf : String → Option ((String × String) × Option String)} {ids : List String}
    {consent : OAuthConsent} {code : OAuthAuthorizationCode} (h : Keyed s keyOf)
    (hfresh : s.Fresh ids) (huid : consent.uid ∈ ids) :
    Keyed ((s.draw ids).goTo r (.findConsent consent code))
      (Function.update keyOf consent.uid (some consent.grant.key)) := by
  have hkept : ∀ uid key, keyOf uid = some key →
      Function.update keyOf consent.uid (some consent.grant.key) uid = some key := by
    intro uid key hkey
    have hne : uid ≠ consent.uid := fun heq => hfresh.2 _ huid (heq ▸ h.drawn uid key hkey)
    rw [Function.update_of_ne hne, hkey]
  refine ⟨fun uid key hkey => List.mem_append.2 ?_,
    fun row hrow => ⟨hkept _ _ (h.rows row hrow).1, hkept _ _ (h.rows row hrow).2⟩, ?_⟩
  · by_cases heq : uid = consent.uid
    · exact .inr (heq ▸ huid)
    · rw [Function.update_of_ne heq] at hkey
      exact .inl (h.drawn uid key hkey)
  · refine goTo_requests (s := s.draw ids) (P := fun q => ∀ c ∈ q.consents, Function.update keyOf
      consent.uid (some consent.grant.key) c.uid = some c.grant.key) ?_ fun r' c hc =>
        hkept _ _ (h.held r' c hc)
    intro c hc
    obtain rfl := List.mem_singleton.1 hc
    exact Function.update_self ..

theorem Sound.authorizePost {request : AuthorizeRequest} {approved running : Bool} {ids : CodeIds}
    (h : Sound s) (hfresh : s.Fresh [ids.consentUid, ids.codeUid, ids.code]) :
    Sound (Consents.authorizePost s r request approved running ids now) := by
  unfold Consents.authorizePost
  split
  · exact h
  · split
    · exact h
    · next g hgrant =>
      obtain ⟨keyOf, hkeyed⟩ := h.keyed
      exact (h.draw _).take ⟨_, hkeyed.find hfresh (List.mem_cons_self ..)⟩
        ⟨⟨rfl, grant?_tournament hgrant⟩, fun _ hcode => (by cases hcode),
          fun _ hcut => (by cases hcut)⟩

theorem Sound.readConsent {codeUid code : String} {s' : State} (h : Sound s)
    (hs : Consents.readConsent s r codeUid code now = some s') : Sound s' := by
  have hformed := h.formed r
  unfold Consents.readConsent at hs
  split at hs
  · next g redirectUri codeChallenge hphase =>
    rw [hphase] at hformed
    split at hs
    · next hfound =>
      split at hs
      · obtain rfl := Option.some.inj hs
        obtain ⟨row, hrow, hscopes⟩ := (Option.any_eq_true _ _).1 hfound
        obtain ⟨hmem, hkey⟩ := consent?_some hrow
        refine (h.draw _).step (fun _ _ consent hconsent => by cases hconsent)
          ⟨trivial, fun c hc => ?_, fun _ hcut => (by cases hcut)⟩
        obtain rfl := Request.insertCode.inj hc
        refine ⟨hformed, fun row' hrow' hkey' => ?_⟩
        rw [h.unique row' hrow' row hmem (hkey'.trans hkey.symm)]
        exact of_decide_eq_true hscopes
      · cases hs
    · obtain rfl := Option.some.inj hs
      exact h.done
  · cases hs

theorem Sound.findConsent {s' : State} (h : Sound s) (hs : Consents.findConsent s r = some s') :
    Sound s' := by
  have hformed := h.formed r
  unfold Consents.findConsent at hs
  split at hs
  · next consent code hphase =>
    rw [hphase] at hformed
    obtain rfl := Option.some.inj hs
    have hread : ∀ e ∈ (s.consent? consent.grant.key).map ConsentRow.data,
        ∃ row ∈ s.consents, row.data = e ∧ e.grant.key = consent.grant.key := by
      intro e he
      obtain ⟨row, hrow, rfl⟩ := Option.map_eq_some_iff.1 he
      exact ⟨row, (consent?_some hrow).1, rfl, (consent?_some hrow).2⟩
    refine h.step (fun keyOf hkeyed c hc => ?_) ⟨⟨hformed.1, hformed.2, fun e he => ?_⟩,
      fun _ hcode => (by cases hcode), fun _ hcut => (by cases hcut)⟩
    · rcases List.mem_cons.1 hc with rfl | hc
      · exact hkeyed.held r c (by rw [hphase]; exact List.mem_singleton_self c)
      · obtain ⟨row, hrow, rfl, -⟩ := hread c (Option.mem_toList.1 hc)
        exact (hkeyed.rows row hrow).2
    · obtain ⟨-, -, -, hkey⟩ := hread e he
      exact hkey
  · cases hs

theorem Sound.recorded {existing : Option OAuthConsent} {consent : OAuthConsent}
    {code : OAuthAuthorizationCode} {consents : List ConsentRow} (h : Sound s)
    (hphase : s.requests r = .writeConsent existing consent code)
    (hrows : ∀ row ∈ consents, row ∈ s.consents ∨ row.data = consent ∧
      ∀ keyOf, Keyed s keyOf → keyOf row.uid = some consent.grant.key)
    (hunique : Unique consents)
    (hkept : ∀ row ∈ s.consents, ∃ row' ∈ consents, row'.data.grant.key = row.data.grant.key)
    (hwithin : ∀ g, Outstanding s g ∨ g = consent.grant → Within consents g) :
    Sound ((s.record consents consent.grant.holder).goTo r (.insertCode code)) := by
  have hformed := h.formed r
  rw [hphase] at hformed
  have hrecorded : Sound (s.record consents consent.grant.holder) := by
    refine { h with keyed := ?_, unique := hunique, fits := ?_, stored := ?_, cut := ?_ }
    · obtain ⟨keyOf, hkeyed⟩ := h.keyed
      refine ⟨keyOf, hkeyed.drawn, fun row hrow => ?_, hkeyed.held⟩
      rcases hrows row hrow with hold | ⟨hdata, huid⟩
      · exact hkeyed.rows row hold
      · rw [hdata]
        refine ⟨huid keyOf hkeyed, hkeyed.held r consent ?_⟩
        rw [hphase]
        exact List.mem_cons_self ..
    · intro g hg
      have hg' : Outstanding s g := hg.congr rfl rfl rfl rfl (Nat.le_refl _)
      exact ⟨(h.fits g hg').tournament, hwithin g (.inl hg')⟩
    · intro t g hg
      obtain ⟨row, hrow, hkey⟩ := h.stored t g hg
      obtain ⟨row', hrow', hkey'⟩ := hkept row hrow
      exact ⟨row', hrow', hkey'.trans hkey⟩
    · intro holder hholder
      obtain ⟨hrevoked, hne⟩ := List.mem_filter.1 hholder
      obtain ⟨hcut, hnone⟩ := h.cut holder hrevoked
      refine ⟨hcut, fun row hrow => ?_⟩
      rcases hrows row hrow with hold | ⟨hdata, -⟩
      · exact hnone row hold
      · rw [hdata]
        exact fun heq => of_decide_eq_true hne heq.symm
  refine hrecorded.step (fun _ _ c hc => by cases hc) ⟨trivial, fun c hc => ?_,
    fun _ hcut => (by cases hcut)⟩
  obtain rfl := Request.insertCode.inj hc
  rw [hformed.1]
  exact ⟨hformed.2.1, hwithin _ (.inr rfl)⟩

theorem mem_overwritten {consents : List ConsentRow} {uid : String} {consent : OAuthConsent}
    {row : ConsentRow} (h : row ∈ overwritten consents uid consent) :
    ∃ row₀ ∈ consents, row.uid = row₀.uid ∧
      (row₀.uid = uid ∧ row.data = consent ∨ row₀.uid ≠ uid ∧ row = row₀) := by
  obtain ⟨row₀, hrow₀, rfl⟩ := List.mem_map.1 h
  split
  · next huid => exact ⟨row₀, hrow₀, rfl, .inl ⟨huid, rfl⟩⟩
  · next huid => exact ⟨row₀, hrow₀, rfl, .inr ⟨huid, rfl⟩⟩

theorem overwritten_missed {consents : List ConsentRow} {uid : String} {consent : OAuthConsent}
    (h : ¬∃ row ∈ consents, row.uid = uid) : overwritten consents uid consent = consents := by
  have hrows : ∀ row ∈ consents,
      (if row.uid = uid then { row with data := consent } else row) = row :=
    fun row hrow => if_neg fun huid => h ⟨row, hrow, huid⟩
  exact (List.map_congr_left hrows).trans (List.map_id' _)

theorem Sound.writeConsent {s' : State} (h : Sound s)
    (hheeded : Heeded s (s.clock, .writeConsent r)) (hs : Consents.writeConsent s r = some s') :
    Sound s' := by
  have hformed := h.formed r
  unfold Consents.writeConsent at hs
  split at hs
  · next existing consent code hphase =>
    rw [hphase] at hformed
    simp only [Heeded, hphase] at hheeded
    obtain ⟨hcode, htournament, hkey⟩ := hformed
    have hexisting := hkey existing rfl
    have hrowKey : ∀ row ∈ s.consents, row.uid = existing.uid →
        row.data.grant.key = consent.grant.key := by
      intro row hrow huid
      obtain ⟨keyOf, hkeyed⟩ := h.keyed
      have hrowKey := (hkeyed.rows row hrow).1
      rw [huid, hkeyed.held r existing (by
        rw [hphase]
        exact List.mem_cons_of_mem _ (Option.mem_toList.2 rfl))] at hrowKey
      exact (Option.some.inj hrowKey).symm.trans hexisting
    obtain rfl := Option.some.inj hs
    split
    · refine h.recorded hphase (fun row hrow => ?_) ?_ (fun row hrow => ?_) hheeded
      · obtain ⟨row₀, hrow₀, huid, ⟨hsame, hdata⟩ | ⟨-, rfl⟩⟩ := mem_overwritten hrow
        · refine .inr ⟨hdata, fun keyOf hkeyed => ?_⟩
          rw [huid, (hkeyed.rows row₀ hrow₀).1, hrowKey row₀ hrow₀ hsame]
        · exact .inl hrow₀
      · -- an overwritten row keeps its key
        have hkeys : ∀ row ∈ overwritten s.consents existing.uid consent, ∃ row₀ ∈ s.consents,
            (if row₀.uid = existing.uid then { row₀ with data := consent } else row₀) = row ∧
              row.data.grant.key = row₀.data.grant.key := by
          intro row hrow
          obtain ⟨row₀, hrow₀, rfl⟩ := List.mem_map.1 hrow
          refine ⟨row₀, hrow₀, rfl, ?_⟩
          split
          · next huid => exact (hrowKey row₀ hrow₀ huid).symm
          · rfl
        intro row hrow row' hrow' hsame
        obtain ⟨row₀, hrow₀, hrow, hkey₀⟩ := hkeys row hrow
        obtain ⟨row₁, hrow₁, hrow', hkey₁⟩ := hkeys row' hrow'
        rw [← hrow, ← hrow', h.unique row₀ hrow₀ row₁ hrow₁ (hkey₀.symm.trans (hsame.trans hkey₁))]
      · refine ⟨_, List.mem_map_of_mem hrow, ?_⟩
        split
        · next huid => exact (hrowKey row hrow huid).symm
        · rfl
    · next hmissed =>
      have hsame : overwritten s.consents existing.uid consent = s.consents :=
        overwritten_missed hmissed
      refine h.step (fun _ _ c hc => by cases hc) ⟨trivial, fun c hc => ?_,
        fun _ hcut => (by cases hcut)⟩
      obtain rfl := Request.insertCode.inj hc
      rw [hcode]
      exact ⟨htournament, hsame ▸ hheeded _ (.inr rfl)⟩
  · next consent code hphase =>
    simp only [Heeded, hphase] at hheeded
    rw [hphase] at hformed
    obtain rfl := Option.some.inj hs
    split
    · exact h.done
    · next hnone =>
      rw [Bool.not_eq_true, Option.isSome_eq_false_iff, Option.isNone_iff_eq_none] at hnone
      have hother : ∀ row ∈ s.consents, row.data.grant.key ≠ consent.grant.key := by
        intro row hrow hkey
        simpa [hkey] using List.find?_eq_none.1 hnone row hrow
      have huid : ∀ keyOf, Keyed s keyOf → keyOf consent.uid = some consent.grant.key :=
        fun keyOf hkeyed => hkeyed.held r consent (by
          rw [hphase]
          exact List.mem_cons_self ..)
      refine h.recorded hphase (fun row hrow => ?_) ?_ (fun row hrow => ?_) ?_
      · rcases List.mem_append.1 hrow with hold | hnew
        · exact .inl hold
        · obtain rfl := List.mem_singleton.1 hnew
          exact .inr ⟨rfl, huid⟩
      · intro row hrow row' hrow' hsame
        rcases List.mem_append.1 hrow with hold | hnew
        · rcases List.mem_append.1 hrow' with hold' | hnew'
          · exact h.unique row hold row' hold' hsame
          · obtain rfl := List.mem_singleton.1 hnew'
            exact absurd hsame (hother row hold)
        · obtain rfl := List.mem_singleton.1 hnew
          rcases List.mem_append.1 hrow' with hold' | hnew'
          · exact absurd hsame.symm (hother row' hold')
          · exact (List.mem_singleton.1 hnew').symm
      · exact ⟨row, List.mem_append_left _ hrow, rfl⟩
      · rintro g (hg | rfl)
        · exact hheeded hnone g hg
        · intro row hrow hkey
          rcases List.mem_append.1 hrow with hold | hnew
          · exact absurd hkey (hother row hold)
          · obtain rfl := List.mem_singleton.1 hnew
            exact fun _ => id
  · cases hs

theorem Sound.insertCode {s' : State} (h : Sound s) (hs : Consents.insertCode s r = some s') :
    Sound s' := by
  unfold Consents.insertCode at hs
  split at hs
  · next code hphase =>
    obtain rfl := Option.some.inj hs
    refine Sound.done (h.codes fun c hc hunused hunexpired => ?_)
    rcases List.mem_append.1 hc with hold | hnew
    · exact h.fits _ (.code c hold hunused hunexpired rfl)
    · obtain rfl := List.mem_singleton.1 hnew
      exact h.fits _ (.request r c hphase rfl)
  · cases hs

theorem Sound.revokeTokens (h : Sound s)
    (hquiet : ∀ t, ∀ g ∈ checked (s.oauth.threads t), g.holder ≠ holder) :
    Sound (Consents.revokeTokens s r holder) := by
  have hmarked : ∀ tok ∈ s.oauth.tokens.map (fun tok =>
      if (tokenGrant tok).holder = holder then { tok with revoked := true } else tok),
      tok ∈ s.oauth.tokens ∨ tok.revoked = true ∧ NamedToken s.oauth tok := by
    intro tok htok
    obtain ⟨tok₀, htok₀, rfl⟩ := List.mem_map.1 htok
    split
    · exact .inr ⟨rfl, fun _ hnamed => hnamed.rows tok₀ htok₀⟩
    · exact .inl htok₀
  refine (h.marked hmarked).step (fun _ _ c hc => by cases hc) ⟨trivial,
    fun _ hcode => (by cases hcode), fun holder' hcut => ?_⟩
  obtain rfl := Request.deleteConsent.inj hcut
  refine ⟨fun tok htok hholder => ?_, hquiet⟩
  obtain ⟨tok₀, htok₀, rfl⟩ := List.mem_map.1 htok
  split
  · rfl
  · next hne =>
    rw [if_neg hne] at hholder
    exact absurd hholder hne

theorem Sound.deleteConsent {s' : State} (h : Sound s)
    (hs : Consents.deleteConsent s r = some s') : Sound s' := by
  unfold Consents.deleteConsent at hs
  split at hs
  · next holder hphase =>
    obtain rfl := Option.some.inj hs
    have hcut := h.cutting r holder hphase
    have hrows : ∀ row ∈ s.consents.filter fun row => row.data.grant.holder ≠ holder,
        row ∈ s.consents ∧ row.data.grant.holder ≠ holder := fun row hrow =>
      ⟨(List.mem_filter.1 hrow).1, of_decide_eq_true (List.mem_filter.1 hrow).2⟩
    refine Sound.done { h with keyed := ?_, unique := ?_, fits := ?_, stored := ?_, cut := ?_ }
    · obtain ⟨keyOf, hkeyed⟩ := h.keyed
      exact ⟨keyOf, hkeyed.drawn, fun row hrow => hkeyed.rows row (hrows row hrow).1, hkeyed.held⟩
    · exact fun row hrow row' hrow' => h.unique row (hrows row hrow).1 row' (hrows row' hrow').1
    · intro g hg
      have hfits := h.fits g (hg.congr rfl rfl rfl rfl (Nat.le_refl _))
      exact ⟨hfits.tournament, fun row hrow => hfits.within row (hrows row hrow).1⟩
    · intro t g hg
      obtain ⟨row, hrow, hkey⟩ := h.stored t g hg
      refine ⟨row, List.mem_filter.2 ⟨hrow, decide_eq_true ?_⟩, hkey⟩
      rw [Grant.holder, hkey]
      exact hcut.quiet t g hg
    · intro holder' hholder
      rcases List.mem_append.1 hholder with hold | hnew
      · obtain ⟨hcut', hnone⟩ := h.cut holder' hold
        exact ⟨hcut', fun row hrow => hnone row (hrows row hrow).1⟩
      · obtain rfl := List.mem_singleton.1 hnew
        exact ⟨hcut, fun row hrow => (hrows row hrow).2⟩
  · cases hs

/-! ### Runs -/

section Runs

variable {verifyPkce : String → String → Bool} {s' : State}

theorem Sound.token {a : OAuth.Action} (h : Sound s) (hheeded : Heeded s (s.clock, .token a))
    (hanswered : Answered s s.clock a) {o : OAuth.State}
    (hs : oauthStep verifyPkce s.oauth a = some o) : Sound (s.after o) := by
  cases a with
  | redeem t client code redirectUri codeVerifier time =>
    obtain rfl : time = s.clock := hanswered
    simp only [oauthStep] at hs
    split at hs
    · obtain rfl := Option.some.inj hs
      exact h.redeem
    · cases hs
  | refresh t client claims expired =>
    simp only [oauthStep] at hs
    split at hs
    · obtain ⟨hsigned, hs⟩ := Option.ite_none_right_eq_some.1 hs
      obtain rfl := Option.some.inj hs
      exact h.refresh hsigned hanswered
    · cases hs
  | revoke t client claims =>
    simp only [oauthStep] at hs
    split at hs
    · obtain rfl := Option.some.inj (Option.ite_none_right_eq_some.1 hs).2
      exact h.revoke
    · cases hs
  | consent t found => exact h.consent hanswered hheeded hs
  | tournament t running => exact h.tournament hs
  | update t time ids =>
    obtain ⟨hfresh, hs⟩ := Option.ite_none_right_eq_some.1 hs
    exact h.update hfresh hs
  | insert t => exact h.insert hs
  | select t => exact h.select hs
  | revokeNext t => exact h.revokeNext hs

theorem Sound.action {a : Action} (h : Sound s) (hheeded : Heeded s (s.clock, a))
    (hs : consentsStep verifyPkce s s.clock a = some s') : Sound s' := by
  cases a with
  | token a =>
    obtain ⟨hanswered, hs⟩ := Option.ite_none_right_eq_some.1 hs
    obtain ⟨o, ho, rfl⟩ := Option.map_eq_some_iff.1 hs
    exact h.token hheeded hanswered ho
  | authorizeGet r request responseType codeChallengeMethod running =>
    simp only [consentsStep] at hs
    split at hs
    · obtain rfl := Option.some.inj hs
      exact h.authorizeGet
    · cases hs
  | authorizePost r request approved running ids =>
    simp only [consentsStep] at hs
    split at hs
    · obtain ⟨hfresh, hs⟩ := Option.ite_none_right_eq_some.1 hs
      obtain rfl := Option.some.inj hs
      exact h.authorizePost hfresh
    · cases hs
  | readConsent r codeUid code => exact h.readConsent hs
  | findConsent r => exact h.findConsent hs
  | writeConsent r => exact h.writeConsent hheeded hs
  | insertCode r => exact h.insertCode hs
  | revokeConsent r holder =>
    simp only [consentsStep] at hs
    split at hs
    · obtain rfl := Option.some.inj hs
      exact h.revokeTokens hheeded
    · cases hs
  | deleteConsent r => exact h.deleteConsent hs

/-- In a run whose approvals leave every outstanding grant within its row and whose revocations are
apart from the requests between their check and their insertions, a token is inserted within the
consent stored for it, and after a revocation no token of its user and client is accepted until a
consent is recorded. -/
theorem binding_of_reaches (h : (consentsSystem verifyPkce).Reaches Heeded s) : Binding s := by
  refine (h.invariant (fun _ => Sound.init) ?_).binding
  rintro s ⟨now, a⟩ s' hsound hheeded ⟨hnow, hs⟩
  exact (hsound.tick hnow).action hheeded hs

end Runs

/-! ### Approvals and revocations at odds -/

def botClient : OAuthClient := ⟨"bot", ["https://bot/cb"], ["profile:read", "profile:email"]⟩

def noConsents : State := ⟨⟨[], [], fun _ => .idle, [], [], []⟩, [], fun _ => .idle, 0, [], []⟩

def samePkce (verifier challenge : String) : Bool := verifier = challenge

/-- Ann approves the client for these scopes. -/
def approve (scopes : List String) (n : String) : List (ℕ × Action) :=
  [(0, .authorizePost 0 ⟨"ann", some botClient, "https://bot/cb", scopes, "v", ""⟩ true false
      ⟨"c" ++ n, "u" ++ n, "k" ++ n⟩),
    (0, .findConsent 0), (0, .writeConsent 0), (0, .insertCode 0)]

/-- A code is read and its consent is found. -/
def present (code : String) : List (ℕ × Action) :=
  [(1, .token (.redeem 0 (some botClient) code "https://bot/cb" "v" 1)),
    (1, .token (.consent 0 true))]

/-- The code is marked and its pair is inserted. -/
def exchange : List (ℕ × Action) :=
  [(1, .token (.update 0 1 ⟨"aj", "rj", "a", "r"⟩)), (1, .token (.insert 0)),
    (1, .token (.insert 0))]

/-- Ann revokes the client. -/
def revoke : List (ℕ × Action) := [(1, .revokeConsent 1 ("ann", "bot")), (1, .deleteConsent 1)]

/-- The update of the third approval goes by the uid of the second, which no row has. -/
def thirdApproval : List (ℕ × Action) :=
  approve ["profile:read"] "0" ++ approve ["profile:read"] "1" ++
    approve ["profile:read", "profile:email"] "2" ++ present "k2" ++ exchange

/-- The client is approved for less before the first code is exchanged. -/
def narrowed : List (ℕ × Action) :=
  approve ["profile:read", "profile:email"] "0" ++ approve ["profile:read"] "1" ++ present "k0" ++
    exchange

/-- The client is revoked between the check of its code and the insertion of its pair. -/
def revokedBetween : List (ℕ × Action) :=
  approve ["profile:read"] "0" ++ present "k0" ++ revoke ++ exchange

/-- One statement, at a time the clock has not passed. -/
def timedStep (s : State) (a : ℕ × Action) : Option State :=
  if s.clock ≤ a.1 then consentsStep samePkce { s with clock := a.1 } a.1 a.2 else none

theorem reachable_of_run {actions : List (ℕ × Action)} {s : State}
    (hs : actions.foldlM timedStep noConsents = some s) : (consentsSystem samePkce).Reachable s :=
  System.Reachable.foldlM (fun _ _ _ => Option.ite_none_right_eq_some.1) actions noConsents s
    (.init ⟨rfl, rfl, fun _ => rfl, rfl, rfl, rfl, fun _ => rfl, rfl, rfl⟩) hs

theorem heeded_step {s s' : State} (a : ℕ × Action) (h : (consentsSystem samePkce).Reaches Heeded s)
    (hheeded : Heeded s a) (hs : timedStep s a = some s') :
    (consentsSystem samePkce).Reaches Heeded s' :=
  h.step hheeded (Option.ite_none_right_eq_some.1 hs)

def annConsent : OAuthConsent := ⟨"c0", "ann", "bot", ["profile:read"], none⟩

def annCode : OAuthAuthorizationCode := authCode annConsent.grant "https://bot/cb" "v" "u0" "k0" 0

def asked : State := (noConsents.draw ["c0", "u0", "k0"]).goTo 0 (.findConsent annConsent annCode)

def found : State := asked.goTo 0 (.writeConsent none annConsent annCode)

def recorded : State :=
  (found.record [⟨"c0", annConsent⟩] annConsent.grant.holder).goTo 0 (.insertCode annCode)

def approved : State :=
  (recorded.withOAuth { recorded.oauth with codes := [annCode] }).goTo 0 .idle

def presented : State :=
  { approved with clock := 1, oauth := approved.oauth.goTo 0 (.codeConsent botClient annCode) }

def agreed : State := presented.withOAuth (presented.oauth.goTo 0 (.codeUpdate botClient annCode))

def annIds : PairIds := ⟨"aj", "rj", "a", "r"⟩

def annPair : OAuthToken × OAuthToken :=
  OAuth.issueTokenPair "ann" "bot" ["profile:read"] none none 1 annIds

def spent : State := agreed.withOAuth
  ((agreed.oauth.writeCode { annCode with used := true }).issue 0 (.code "k0") annPair annIds)

def half : State := (spent.insertToken annPair.1).withOAuth
  ((spent.insertToken annPair.1).oauth.goTo 0 (.insertRefresh (.code "k0") annPair.1 annPair.2))

def paired : State := (half.insertToken annPair.2).withOAuth
  { (half.insertToken annPair.2).oauth.answer 0 [] with
    issued := [⟨.code "k0", annPair.1, annPair.2⟩] }

def revoking : State := revokeTokens paired 1 ("ann", "bot")

def revokedAnn : State := { revoking with consents := [], revoked := [("ann", "bot")] }.goTo 1 .idle

theorem requests_idle (r : ℕ) : presented.requests r = .idle := by
  cases r with
  | zero => rfl
  | succ r => rfl

theorem threads_idle (t : ℕ) : paired.oauth.threads t = .idle := by
  cases t with
  | zero => rfl
  | succ t => rfl

theorem nothing_outstanding {g : Grant} : ¬Outstanding found g := by
  rintro (⟨code, hcode, -⟩ | ⟨tok, htok, -⟩ | ⟨t, hgrant⟩ | ⟨r, code, hphase, -⟩)
  · cases hcode
  · cases htok
  · cases hgrant
  · cases r with
    | zero => cases hphase
    | succ r => cases hphase

/-- A pair is issued within its consent, and then the client is revoked. -/
theorem binding_revoked : revokedAnn.inserted.length = 2 ∧ revokedAnn.revoked = [("ann", "bot")] ∧
    Binding revokedAnn := by
  have hstart : (consentsSystem samePkce).Reaches Heeded noConsents :=
    .init ⟨rfl, rfl, fun _ => rfl, rfl, rfl, rfl, fun _ => rfl, rfl, rfl⟩
  have hasked : (consentsSystem samePkce).Reaches Heeded asked :=
    heeded_step (approve ["profile:read"] "0")[0] hstart trivial rfl
  have hfound : (consentsSystem samePkce).Reaches Heeded found :=
    heeded_step (0, .findConsent 0) hasked trivial rfl
  have hrecorded : (consentsSystem samePkce).Reaches Heeded recorded :=
    heeded_step (0, .writeConsent 0) hfound (by
      exact fun _ g hg => absurd hg nothing_outstanding) rfl
  have happroved : (consentsSystem samePkce).Reaches Heeded approved :=
    heeded_step (0, .insertCode 0) hrecorded trivial rfl
  have hpresented : (consentsSystem samePkce).Reaches Heeded presented :=
    heeded_step (present "k0")[0] happroved trivial rfl
  have hagreed : (consentsSystem samePkce).Reaches Heeded agreed :=
    heeded_step (1, .token (.consent 0 true)) hpresented (by
      intro _ g _ r hrequest
      rw [requests_idle] at hrequest
      cases hrequest) rfl
  have hspent : (consentsSystem samePkce).Reaches Heeded spent :=
    heeded_step exchange[0] hagreed trivial rfl
  have hhalf : (consentsSystem samePkce).Reaches Heeded half :=
    heeded_step (1, .token (.insert 0)) hspent trivial rfl
  have hpaired : (consentsSystem samePkce).Reaches Heeded paired :=
    heeded_step (1, .token (.insert 0)) hhalf trivial rfl
  have hrevoking : (consentsSystem samePkce).Reaches Heeded revoking :=
    heeded_step (1, .revokeConsent 1 ("ann", "bot")) hpaired (by
      intro t g hg
      rw [threads_idle] at hg
      cases hg) rfl
  have hrevoked : (consentsSystem samePkce).Reaches Heeded revokedAnn :=
    heeded_step (1, .deleteConsent 1) hrevoking trivial rfl
  exact ⟨rfl, rfl, binding_of_reaches hrevoked⟩

/-- The scopes of the tokens inserted and of the consents then stored. -/
def scopesInserted (s : State) : List (List String × Option (List String)) :=
  s.inserted.map fun i => (i.1.scopes, i.2.map OAuthConsent.scopes)

/-- The holder of the pairs handed out and whether their access tokens are revoked. -/
def handedOut (s : State) : List ((String × String) × Option Bool) :=
  s.oauth.issued.map fun p =>
    ((p.access.claims.sub, p.access.claims.clientId),
      (s.oauth.token? p.access.claims.jti).map OAuthToken.revoked)

theorem exceeds_of_run {actions : List (ℕ × Action)}
    (h : (actions.foldlM timedStep noConsents).map (fun s => (scopesInserted s)[0]?) =
      some (some (["profile:read", "profile:email"], some ["profile:read"]))) :
    ∃ s, actions.foldlM timedStep noConsents = some s ∧ (consentsSystem samePkce).Reachable s ∧
      ∃ i ∈ s.inserted, ∃ consent ∈ i.2, ¬∀ scope ∈ i.1.scopes, scope ∈ consent.scopes := by
  obtain ⟨s, hs, hfirst⟩ := Option.map_eq_some_iff.1 h
  obtain ⟨i, hi, hscopes⟩ := List.mem_map.1 (List.mem_of_getElem? hfirst)
  obtain ⟨htoken, hconsent⟩ := Prod.mk.inj hscopes
  obtain ⟨consent, hsome, hread⟩ := Option.map_eq_some_iff.1 hconsent
  refine ⟨s, hs, reachable_of_run hs, i, hi, consent, hsome, fun hall => ?_⟩
  have hemail : "profile:email" ∈ consent.scopes := hall _ (by rw [htoken]; decide)
  rw [hread] at hemail
  exact absurd hemail (by decide)

/-- A pair exceeds the consent that a third approval did not update or that a second has narrowed,
and a token inserted behind a revocation is accepted. -/
theorem consent_passed_over :
    (∀ actions ∈ [thirdApproval, narrowed], ∃ s, actions.foldlM timedStep noConsents = some s ∧
      (consentsSystem samePkce).Reachable s ∧
      ∃ i ∈ s.inserted, ∃ consent ∈ i.2, ¬∀ scope ∈ i.1.scopes, scope ∈ consent.scopes) ∧
    ∃ s, (consentsSystem samePkce).Reachable s ∧ ∃ holder ∈ s.revoked, ∃ claims,
      s.oauth.Signed claims ∧ (claims.sub, claims.clientId) = holder ∧ s.Accepts claims := by
  refine ⟨fun actions hactions => ?_, ?_⟩
  · rcases List.mem_cons.1 hactions with rfl | hactions
    · exact exceeds_of_run (by decide +kernel)
    · obtain rfl := List.mem_singleton.1 hactions
      exact exceeds_of_run (by decide +kernel)
  have hrun : (revokedBetween.foldlM timedStep noConsents).map
      (fun s => (s.revoked, handedOut s)) =
      some ([("ann", "bot")], [(("ann", "bot"), some false)]) := by decide +kernel
  obtain ⟨s, hs, hsame⟩ := Option.map_eq_some_iff.1 hrun
  obtain ⟨hrevoked, hpairs⟩ := Prod.mk.inj hsame
  have hmem : (("ann", "bot"), some false) ∈ handedOut s := by
    rw [hpairs]
    exact List.mem_singleton_self _
  obtain ⟨p, hp, hpair⟩ := List.mem_map.1 hmem
  obtain ⟨hholder, htoken⟩ := Prod.mk.inj hpair
  obtain ⟨record, hrecord, hlive⟩ := Option.map_eq_some_iff.1 htoken
  exact ⟨s, reachable_of_run hs, ("ann", "bot"), by rw [hrevoked]; decide, p.access.claims,
    ⟨p, hp, .inl rfl⟩, hholder, record, hrecord, hlive⟩

end Archon.Consents

import Archon.Backend.OAuthTokens

/-!
# Single use and lineage

Every code and every refresh token yields one pair at most, and a lineage that was revoked or of
which a spent token was presented has no live token, in the runs whose writes find what their
requests had read and where no pair is inserted behind a chain revocation.
-/

namespace Archon.OAuth

/-! ### What a phase holds -/

/-- The token but for the mark of its revocation. -/
def OAuthToken.plain (t : OAuthToken) : OAuthToken := { t with revoked := false }

def OAuthAuthorizationCode.plain (c : OAuthAuthorizationCode) : OAuthAuthorizationCode :=
  { c with used := false }

theorem plain_eq {r r' : OAuthToken} (h : r.plain = r'.plain) :
    r.uid = r'.uid ∧ r.tokenJti = r'.tokenJti ∧ r.parentTokenUid = r'.parentTokenUid := by
  simp only [OAuthToken.plain, OAuthToken.mk.injEq] at h
  exact ⟨h.1, h.2.1, h.2.2.2.2.2.2.2.2.2⟩

/-- The tokens still to insert. -/
def Phase.inserts : Phase → List OAuthToken
  | .insertAccess _ access refresh => [access, refresh]
  | .insertRefresh _ _ refresh => [refresh]
  | _ => []

def Phase.source : Phase → Option Source
  | .insertAccess source _ _ | .insertRefresh source _ _ => some source
  | _ => none

/-- The lineage whose tokens are being revoked one after the other. -/
def Phase.chain : Phase → Option (String × List OAuthToken)
  | .chainUpdate root pending => some (root, pending)
  | _ => none

/-- A write finds its record as the request read it, no chain is selected while a pair of its
lineage is being inserted, and a token of a lineage is given back by the client it was issued to
before it expires. -/
def InTurn (s : State) : Action → Prop
  | .refresh _ client claims expired => s.reused claims ≠ [] →
      expired = false ∧ ∃ c ∈ client, ∃ payload ∈ claims, payload.clientId = c.clientId
  | .revoke _ client claims => ∀ payload ∈ claims, ∀ record ∈ s.token? payload.jti,
      ∃ c ∈ client, record.clientId = c.clientId
  | .update t _ _ =>
    match s.threads t with
    | .codeUpdate _ code => ∀ row ∈ s.codes, row.uid = code.uid → row.used = false
    | .refreshUpdate _ _ record =>
      (∀ row ∈ s.tokens, row.uid = record.uid → row.revoked = false) ∧
        ∀ t' pending, (s.threads t').chain ≠ some (record.root, pending)
    | _ => True
  | .select t =>
    match s.threads t with
    | .chainSelect root => ∀ t', ∀ tok ∈ (s.threads t').inserts, tok.root ≠ root
    | _ => True
  | _ => True

/-- The code is used, or the refresh token revoked. -/
def Spent (s : State) : Source → Prop
  | .code value => ∃ row ∈ s.codes, row.code = value ∧ row.used = true
  | .refresh jti => ∃ row ∈ s.tokens, row.tokenJti = jti ∧ row.revoked = true

/-- A token whose uuids are drawn and which is in the table under none of them. -/
structure New (s : State) (tok : OAuthToken) : Prop where
  uid : tok.uid ∈ s.ids
  jti : tok.tokenJti ∈ s.ids
  root : tok.root ∈ s.ids
  absent : ∀ row ∈ s.tokens, row.uid ≠ tok.uid ∧ row.tokenJti ≠ tok.tokenJti

/-- The two tokens of a pair. -/
structure Formed (access refresh : OAuthToken) : Prop where
  type : access.tokenType = .access
  parent : refresh.parentTokenUid ≠ none

/-- What a request under way has read is in the table, but for its mark. -/
def Known (s : State) : Phase → Prop
  | .idle => True
  | .codeConsent _ code | .codeUpdate _ code =>
    code.plain ∈ s.codes.map OAuthAuthorizationCode.plain
  | .refreshConsent _ _ record | .refreshTournament _ _ record | .refreshUpdate _ _ record =>
    record.plain ∈ s.tokens.map OAuthToken.plain
  | .insertAccess _ access refresh => New s access ∧ New s refresh ∧
    (access.uid ≠ refresh.uid ∧ access.tokenJti ≠ refresh.tokenJti) ∧ Formed access refresh
  | .insertRefresh _ access refresh =>
    access.plain ∈ s.tokens.map OAuthToken.plain ∧ New s refresh ∧ Formed access refresh
  | .chainSelect root => root ∈ s.ids
  | .chainUpdate root pending =>
    root ∈ s.ids ∧ ∀ tok ∈ pending, tok.plain ∈ s.tokens.map OAuthToken.plain

/-- The live tokens of a lineage are among these. -/
def Covers (s : State) (root : String) (pending : List OAuthToken) : Prop :=
  ∀ tok ∈ s.tokens, tok.root = root → tok.revoked = true ∨ tok.uid ∈ pending.map OAuthToken.uid

structure Sound (s : State) : Prop where
  codes : ∀ c ∈ s.codes, ∀ c' ∈ s.codes, c.uid = c'.uid ∨ c.code = c'.code → c = c'
  tokens : ∀ r ∈ s.tokens, ∀ r' ∈ s.tokens, r.uid = r'.uid ∨ r.tokenJti = r'.tokenJti → r = r'
  drawn : ∀ r ∈ s.tokens, r.uid ∈ s.ids ∧ r.tokenJti ∈ s.ids ∧ r.root ∈ s.ids
  known : ∀ t, Known s (s.threads t)
  apart : ∀ t t', t ≠ t' → ∀ a ∈ (s.threads t).inserts, ∀ b ∈ (s.threads t').inserts,
    a.uid ≠ b.uid ∧ a.tokenJti ≠ b.tokenJti
  pairs : ∀ p ∈ s.issued, p.access.plain ∈ s.tokens.map OAuthToken.plain ∧
    p.refresh.plain ∈ s.tokens.map OAuthToken.plain ∧ Formed p.access p.refresh
  spent : ∀ p ∈ s.issued, Spent s p.source
  flight : ∀ t source, (s.threads t).source = some source →
    Spent s source ∧ source ∉ s.issued.map Pair.source
  alone : ∀ t t' source, (s.threads t).source = some source →
    (s.threads t').source = some source → t = t'
  once : (s.issued.map Pair.source).Nodup
  dead : ∀ root ∈ s.closed, root ∈ s.ids ∧ Covers s root [] ∧
    ∀ t, ∀ tok ∈ (s.threads t).inserts, tok.root ≠ root
  chains : ∀ t root pending, (s.threads t).chain = some (root, pending) →
    Covers s root pending ∧ ∀ t', ∀ tok ∈ (s.threads t').inserts, tok.root ≠ root

variable {s : State} {t : ℕ} {phase : Phase}

/-! ### A request moves on -/

/-- A phase a request may enter. -/
structure Enters (s : State) (t : ℕ) (phase : Phase) : Prop where
  known : Known s phase
  apart : ∀ t', t' ≠ t → ∀ a ∈ phase.inserts, ∀ b ∈ (s.threads t').inserts,
    a.uid ≠ b.uid ∧ a.tokenJti ≠ b.tokenJti
  source : ∀ source, phase.source = some source → Spent s source ∧
    source ∉ s.issued.map Pair.source ∧ ∀ t', t' ≠ t → (s.threads t').source ≠ some source
  lineage : ∀ tok ∈ phase.inserts, tok.root ∉ s.closed ∧
    ∀ t', t' ≠ t → ∀ pending, (s.threads t').chain ≠ some (tok.root, pending)
  chain : ∀ root pending, phase.chain = some (root, pending) → Covers s root pending ∧
    ∀ t', t' ≠ t → ∀ tok ∈ (s.threads t').inserts, tok.root ≠ root

theorem chain_inserts {root : String} {pending : List OAuthToken}
    (h : phase.chain = some (root, pending)) : phase.inserts = [] := by
  cases phase <;> first | rfl | cases h

theorem Known.mono {s' : State} (h : Known s phase)
    (hcodes : ∀ c ∈ s.codes.map OAuthAuthorizationCode.plain,
      c ∈ s'.codes.map OAuthAuthorizationCode.plain)
    (htokens : ∀ r ∈ s.tokens.map OAuthToken.plain, r ∈ s'.tokens.map OAuthToken.plain)
    (hids : ∀ id ∈ s.ids, id ∈ s'.ids) (hnew : ∀ tok ∈ phase.inserts, New s tok → New s' tok) :
    Known s' phase := by
  cases phase with
  | idle => trivial
  | codeConsent => exact hcodes _ h
  | codeUpdate => exact hcodes _ h
  | refreshConsent => exact htokens _ h
  | refreshTournament => exact htokens _ h
  | refreshUpdate => exact htokens _ h
  | insertAccess source access refresh =>
    obtain ⟨haccess, hrefresh, hformed⟩ := h
    exact ⟨hnew access (List.mem_cons_self ..) haccess,
      hnew refresh (List.mem_cons_of_mem _ (List.mem_cons_self ..)) hrefresh, hformed⟩
  | insertRefresh source access refresh =>
    obtain ⟨haccess, hrefresh, hformed⟩ := h
    exact ⟨htokens _ haccess, hnew refresh (List.mem_cons_self ..) hrefresh, hformed⟩
  | chainSelect root => exact hids _ h
  | chainUpdate root pending => exact ⟨hids _ h.1, fun tok htok => htokens _ (h.2 tok htok)⟩

theorem Known.congr {s' : State} (h : Known s phase) (hcodes : s'.codes = s.codes)
    (htokens : s'.tokens = s.tokens) (hids : ∀ id ∈ s.ids, id ∈ s'.ids) : Known s' phase := by
  refine h.mono (by rw [hcodes]; exact fun _ => id) (by rw [htokens]; exact fun _ => id) hids ?_
  intro tok _ hnew
  exact ⟨hids _ hnew.uid, hids _ hnew.jti, hids _ hnew.root, htokens ▸ hnew.absent⟩

theorem Sound.goTo (h : Sound s) (henter : Enters s t phase) : Sound (s.goTo t phase) where
  codes := h.codes
  tokens := h.tokens
  drawn := h.drawn
  known t' := by
    refine Known.congr (s := s) ?_ rfl rfl fun _ => id
    by_cases ht : t' = t
    · rw [ht, threads_self]
      exact henter.known
    · rw [threads_other ht]
      exact h.known t'
  apart t₁ t₂ hne := by
    by_cases h₁ : t₁ = t
    · subst h₁
      rw [threads_self, threads_other (Ne.symm hne)]
      exact henter.apart t₂ (Ne.symm hne)
    · rw [threads_other h₁]
      by_cases h₂ : t₂ = t
      · subst h₂
        rw [threads_self]
        intro a ha b hb
        have hapart := henter.apart t₁ h₁ b hb a ha
        exact ⟨hapart.1.symm, hapart.2.symm⟩
      · rw [threads_other h₂]
        exact h.apart t₁ t₂ hne
  pairs := h.pairs
  spent := h.spent
  flight t' source := by
    by_cases ht : t' = t
    · rw [ht, threads_self]
      intro hsource
      obtain ⟨hspent, hissued, -⟩ := henter.source source hsource
      exact ⟨hspent, hissued⟩
    · rw [threads_other ht]
      exact h.flight t' source
  alone t₁ t₂ source := by
    by_cases h₁ : t₁ = t
    · subst h₁
      by_cases h₂ : t₂ = t₁
      · exact fun _ _ => h₂.symm
      · rw [threads_self, threads_other h₂]
        exact fun hsource hsource' => absurd hsource' ((henter.source source hsource).2.2 t₂ h₂)
    · rw [threads_other h₁]
      by_cases h₂ : t₂ = t
      · subst h₂
        rw [threads_self]
        exact fun hsource hsource' => absurd hsource ((henter.source source hsource').2.2 t₁ h₁)
      · rw [threads_other h₂]
        exact h.alone t₁ t₂ source
  once := h.once
  dead root hroot := by
    obtain ⟨hdrawn, hcovers, hquiet⟩ := h.dead root hroot
    refine ⟨hdrawn, hcovers, fun t' => ?_⟩
    by_cases ht : t' = t
    · rw [ht, threads_self]
      exact fun tok htok heq => (henter.lineage tok htok).1 (heq ▸ hroot)
    · rw [threads_other ht]
      exact hquiet t'
  chains t₁ root pending := by
    by_cases h₁ : t₁ = t
    · subst h₁
      rw [threads_self]
      intro hchain
      obtain ⟨hcovers, hquiet⟩ := henter.chain root pending hchain
      refine ⟨hcovers, fun t' => ?_⟩
      by_cases ht : t' = t₁
      · rw [ht, threads_self, chain_inserts hchain]
        exact fun tok htok => absurd htok List.not_mem_nil
      · rw [threads_other ht]
        exact hquiet t' ht
    · rw [threads_other h₁]
      intro hchain
      obtain ⟨hcovers, hquiet⟩ := h.chains t₁ root pending hchain
      refine ⟨hcovers, fun t' => ?_⟩
      by_cases ht : t' = t
      · rw [ht, threads_self]
        intro tok htok heq
        subst heq
        exact (henter.lineage tok htok).2 t₁ h₁ pending hchain
      · rw [threads_other ht]
        exact hquiet t'

theorem enters_quiet (hknown : Known s phase) (hinserts : phase.inserts = [])
    (hsource : phase.source = none) (hchain : phase.chain = none) : Enters s t phase where
  known := hknown
  apart _ _ a ha := by
    rw [hinserts] at ha
    cases ha
  source source hsome := by
    rw [hsource] at hsome
    cases hsome
  lineage tok htok := by
    rw [hinserts] at htok
    cases htok
  chain root pending hsome := by
    rw [hchain] at hsome
    cases hsome

/-- A lineage that may be closed. -/
structure Closes (s : State) (root : String) : Prop where
  drawn : root ∈ s.ids
  covers : Covers s root []
  quiet : ∀ t, ∀ tok ∈ (s.threads t).inserts, tok.root ≠ root

theorem Sound.close {roots : List String} (h : Sound s) (hroots : ∀ root ∈ roots, Closes s root) :
    Sound { s with closed := s.closed ++ roots } where
  __ := h
  known t := Known.congr (h.known t) rfl rfl fun _ => id
  dead root hroot := by
    rcases List.mem_append.1 hroot with hroot | hroot
    · exact h.dead root hroot
    · exact ⟨(hroots root hroot).drawn, (hroots root hroot).covers, (hroots root hroot).quiet⟩

/-! ### A record is marked -/

def OAuthToken.mark (uid : String) (r : OAuthToken) : OAuthToken :=
  if r.uid = uid then { r with revoked := true } else r

def OAuthAuthorizationCode.mark (uid : String) (c : OAuthAuthorizationCode) :
    OAuthAuthorizationCode :=
  if c.uid = uid then { c with used := true } else c

def State.markToken (s : State) (uid : String) : State :=
  { s with tokens := s.tokens.map (OAuthToken.mark uid) }

def State.markCode (s : State) (uid : String) : State :=
  { s with codes := s.codes.map (OAuthAuthorizationCode.mark uid) }

section Mark

variable {uid : String} {r : OAuthToken} {c : OAuthAuthorizationCode}

@[simp] theorem mark_plain : (r.mark uid).plain = r.plain := by
  unfold OAuthToken.mark
  split <;> rfl

@[simp] theorem mark_uid : (r.mark uid).uid = r.uid := by
  unfold OAuthToken.mark
  split <;> rfl

@[simp] theorem mark_jti : (r.mark uid).tokenJti = r.tokenJti := by
  unfold OAuthToken.mark
  split <;> rfl

@[simp] theorem mark_root : (r.mark uid).root = r.root := by
  unfold OAuthToken.mark
  split <;> rfl

theorem mark_revoked (h : r.revoked = true ∨ r.uid = uid) : (r.mark uid).revoked = true := by
  unfold OAuthToken.mark
  split
  · rfl
  · next hne => exact h.resolve_right hne

@[simp] theorem markCode_plain : (c.mark uid).plain = c.plain := by
  unfold OAuthAuthorizationCode.mark
  split <;> rfl

@[simp] theorem markCode_uid : (c.mark uid).uid = c.uid := by
  unfold OAuthAuthorizationCode.mark
  split <;> rfl

@[simp] theorem markCode_code : (c.mark uid).code = c.code := by
  unfold OAuthAuthorizationCode.mark
  split <;> rfl

theorem markCode_used (h : c.used = true ∨ c.uid = uid) : (c.mark uid).used = true := by
  unfold OAuthAuthorizationCode.mark
  split
  · rfl
  · next hne => exact h.resolve_right hne

theorem markToken_plain :
    (s.markToken uid).tokens.map OAuthToken.plain = s.tokens.map OAuthToken.plain := by
  rw [State.markToken, List.map_map]
  exact List.map_congr_left fun r _ => mark_plain

theorem markCode_codes :
    (s.markCode uid).codes.map OAuthAuthorizationCode.plain =
      s.codes.map OAuthAuthorizationCode.plain := by
  rw [State.markCode, List.map_map]
  exact List.map_congr_left fun c _ => markCode_plain

theorem mem_markToken {r : OAuthToken} (h : r ∈ (s.markToken uid).tokens) :
    ∃ r₀ ∈ s.tokens, r₀.mark uid = r := List.mem_map.1 h

theorem New.markToken {tok : OAuthToken} (h : New s tok) : New (s.markToken uid) tok := by
  refine ⟨h.uid, h.jti, h.root, fun row hrow => ?_⟩
  obtain ⟨row₀, hrow₀, rfl⟩ := mem_markToken hrow
  rw [mark_uid, mark_jti]
  exact h.absent row₀ hrow₀

theorem Spent.markToken {source : Source} (h : Spent s source) :
    Spent (s.markToken uid) source := by
  cases source with
  | code value => exact h
  | refresh jti =>
    obtain ⟨row, hrow, hjti, hrevoked⟩ := h
    exact ⟨row.mark uid, List.mem_map_of_mem hrow, mark_jti.trans hjti,
      mark_revoked (.inl hrevoked)⟩

theorem Spent.markCode {source : Source} (h : Spent s source) : Spent (s.markCode uid) source := by
  cases source with
  | refresh jti => exact h
  | code value =>
    obtain ⟨row, hrow, hcode, hused⟩ := h
    exact ⟨row.mark uid, List.mem_map_of_mem hrow, markCode_code.trans hcode,
      markCode_used (.inl hused)⟩

theorem Covers.markToken {root : String} {pending : List OAuthToken} (h : Covers s root pending) :
    Covers (s.markToken uid) root pending := by
  intro tok htok hroot
  obtain ⟨tok₀, htok₀, rfl⟩ := mem_markToken htok
  rw [mark_root] at hroot
  rw [mark_uid]
  exact (h tok₀ htok₀ hroot).imp_left fun hrevoked => mark_revoked (.inl hrevoked)

theorem Covers.next {root : String} {tok : OAuthToken} {pending : List OAuthToken}
    (h : Covers s root (tok :: pending)) : Covers (s.markToken tok.uid) root pending := by
  intro r hr hroot
  obtain ⟨r₀, hr₀, rfl⟩ := mem_markToken hr
  rw [mark_root] at hroot
  rw [mark_uid]
  rcases h r₀ hr₀ hroot with hrevoked | huid
  · exact .inl (mark_revoked (.inl hrevoked))
  · rw [List.map_cons, List.mem_cons] at huid
    exact huid.imp_left fun hsame => mark_revoked (.inr hsame)

theorem Sound.markToken (h : Sound s) : Sound (s.markToken uid) where
  codes := h.codes
  tokens r hr r' hr' hsame := by
    obtain ⟨r₀, hr₀, rfl⟩ := mem_markToken hr
    obtain ⟨r₁, hr₁, rfl⟩ := mem_markToken hr'
    rw [mark_uid, mark_uid, mark_jti, mark_jti] at hsame
    rw [h.tokens r₀ hr₀ r₁ hr₁ hsame]
  drawn r hr := by
    obtain ⟨r₀, hr₀, rfl⟩ := mem_markToken hr
    rw [mark_uid, mark_jti, mark_root]
    exact h.drawn r₀ hr₀
  known t := (h.known t).mono (fun _ => id) (fun _ hr => markToken_plain.symm ▸ hr) (fun _ => id)
    fun _ _ hnew => hnew.markToken
  apart := h.apart
  pairs p hp := by
    rw [markToken_plain]
    exact h.pairs p hp
  spent p hp := (h.spent p hp).markToken
  flight t source hsource := ⟨(h.flight t source hsource).1.markToken,
    (h.flight t source hsource).2⟩
  alone := h.alone
  once := h.once
  dead root hroot := ⟨(h.dead root hroot).1, (h.dead root hroot).2.1.markToken,
    (h.dead root hroot).2.2⟩
  chains t root pending hchain := ⟨(h.chains t root pending hchain).1.markToken,
    (h.chains t root pending hchain).2⟩

theorem Sound.markCode (h : Sound s) : Sound (s.markCode uid) where
  codes c hc c' hc' hsame := by
    obtain ⟨c₀, hc₀, rfl⟩ := List.mem_map.1 hc
    obtain ⟨c₁, hc₁, rfl⟩ := List.mem_map.1 hc'
    rw [markCode_uid, markCode_uid, markCode_code, markCode_code] at hsame
    rw [h.codes c₀ hc₀ c₁ hc₁ hsame]
  tokens := h.tokens
  drawn := h.drawn
  known t := (h.known t).mono (fun _ hc => markCode_codes.symm ▸ hc) (fun _ => id) (fun _ => id)
    fun _ _ hnew => ⟨hnew.uid, hnew.jti, hnew.root, hnew.absent⟩
  apart := h.apart
  pairs := h.pairs
  spent p hp := (h.spent p hp).markCode
  flight t source hsource := ⟨(h.flight t source hsource).1.markCode, (h.flight t source hsource).2⟩
  alone := h.alone
  once := h.once
  dead := h.dead
  chains := h.chains

end Mark

/-! ### A token and a pair are added -/

section Added

variable {tok : OAuthToken}

def State.addToken (s : State) (tok : OAuthToken) : State := { s with tokens := s.tokens ++ [tok] }

theorem mem_addToken {r : OAuthToken} : r ∈ (s.addToken tok).tokens ↔ r ∈ s.tokens ∨ r = tok := by
  rw [State.addToken, List.mem_append, List.mem_singleton]

theorem Spent.addToken {source : Source} (h : Spent s source) : Spent (s.addToken tok) source := by
  cases source with
  | code value => exact h
  | refresh jti =>
    obtain ⟨row, hrow, hspent⟩ := h
    exact ⟨row, mem_addToken.2 (.inl hrow), hspent⟩

theorem Covers.addToken {root : String} {pending : List OAuthToken} (h : Covers s root pending)
    (hroot : tok.root ≠ root) : Covers (s.addToken tok) root pending := by
  intro r hr hr'
  rcases mem_addToken.1 hr with hr | rfl
  · exact h r hr hr'
  · exact absurd hr' hroot

theorem plain_addToken {r : OAuthToken} (h : r ∈ s.tokens.map OAuthToken.plain) :
    r ∈ (s.addToken tok).tokens.map OAuthToken.plain := by
  rw [State.addToken, List.map_append]
  exact List.mem_append_left _ h

theorem Sound.addToken (h : Sound s) (hnew : New s tok)
    (hapart : ∀ t, ∀ b ∈ (s.threads t).inserts, b.uid ≠ tok.uid ∧ b.tokenJti ≠ tok.tokenJti)
    (hclosed : tok.root ∉ s.closed)
    (hchain : ∀ t pending, (s.threads t).chain ≠ some (tok.root, pending)) :
    Sound (s.addToken tok) where
  codes := h.codes
  tokens r hr r' hr' hsame := by
    rcases mem_addToken.1 hr with hold | rfl
    · rcases mem_addToken.1 hr' with hold' | rfl
      · exact h.tokens r hold r' hold' hsame
      · exact absurd hsame (not_or.2 (hnew.absent r hold))
    · rcases mem_addToken.1 hr' with hold' | rfl
      · obtain ⟨huid, hjti⟩ := hnew.absent r' hold'
        exact absurd hsame (not_or.2 ⟨huid.symm, hjti.symm⟩)
      · rfl
  drawn r hr := by
    rcases mem_addToken.1 hr with hr | rfl
    · exact h.drawn r hr
    · exact ⟨hnew.uid, hnew.jti, hnew.root⟩
  known t := by
    refine (h.known t).mono (fun _ => id) (fun _ => plain_addToken) (fun _ => id) ?_
    intro b hb hnew'
    refine ⟨hnew'.uid, hnew'.jti, hnew'.root, fun row hrow => ?_⟩
    rcases mem_addToken.1 hrow with hrow | rfl
    · exact hnew'.absent row hrow
    · exact ⟨(hapart t b hb).1.symm, (hapart t b hb).2.symm⟩
  apart := h.apart
  pairs p hp := ⟨plain_addToken (h.pairs p hp).1, plain_addToken (h.pairs p hp).2.1,
    (h.pairs p hp).2.2⟩
  spent p hp := (h.spent p hp).addToken
  flight t source hsource := ⟨(h.flight t source hsource).1.addToken, (h.flight t source hsource).2⟩
  alone := h.alone
  once := h.once
  dead root hroot := by
    obtain ⟨hdrawn, hcovers, hquiet⟩ := h.dead root hroot
    exact ⟨hdrawn, hcovers.addToken fun heq => hclosed (heq ▸ hroot), hquiet⟩
  chains t root pending hroot := by
    obtain ⟨hcovers, hquiet⟩ := h.chains t root pending hroot
    exact ⟨hcovers.addToken fun heq => hchain t pending (heq ▸ hroot), hquiet⟩

theorem Sound.addPair (h : Sound s) (p : Pair)
    (hpair : p.access.plain ∈ s.tokens.map OAuthToken.plain ∧
      p.refresh.plain ∈ s.tokens.map OAuthToken.plain ∧ Formed p.access p.refresh)
    (hspent : Spent s p.source) (hissued : p.source ∉ s.issued.map Pair.source)
    (hflight : ∀ t, (s.threads t).source ≠ some p.source) :
    Sound { s with issued := s.issued ++ [p] } where
  codes := h.codes
  tokens := h.tokens
  drawn := h.drawn
  known t := (h.known t).congr rfl rfl fun _ => id
  apart := h.apart
  pairs q hq := by
    rcases List.mem_append.1 hq with hq | hq
    · exact h.pairs q hq
    · exact List.mem_singleton.1 hq ▸ hpair
  spent q hq := by
    rcases List.mem_append.1 hq with hq | hq
    · exact h.spent q hq
    · exact List.mem_singleton.1 hq ▸ hspent
  flight t source hsource := by
    refine ⟨(h.flight t source hsource).1, fun hmem => ?_⟩
    rw [List.map_append, List.mem_append, List.map_singleton, List.mem_singleton] at hmem
    rcases hmem with hmem | rfl
    · exact (h.flight t source hsource).2 hmem
    · exact hflight t hsource
  alone := h.alone
  once := by
    rw [List.map_append, List.map_singleton]
    exact List.nodup_append.2 ⟨h.once, List.nodup_singleton _, by
      intro a ha b hb heq
      rw [List.mem_singleton] at hb
      exact hissued (hb ▸ heq ▸ ha)⟩
  dead := h.dead
  chains := h.chains

theorem Sound.draw (h : Sound s) (ids : List String) : Sound { s with ids := s.ids ++ ids } where
  codes := h.codes
  tokens := h.tokens
  drawn r hr := ⟨List.mem_append_left _ (h.drawn r hr).1, List.mem_append_left _ (h.drawn r hr).2.1,
    List.mem_append_left _ (h.drawn r hr).2.2⟩
  known t := (h.known t).congr rfl rfl fun _ => List.mem_append_left _
  apart := h.apart
  pairs := h.pairs
  spent := h.spent
  flight := h.flight
  alone := h.alone
  once := h.once
  dead root hroot := ⟨List.mem_append_left _ (h.dead root hroot).1, (h.dead root hroot).2⟩
  chains := h.chains

end Added

/-! ### Requests and their answers -/

theorem Closes.goTo {root : String} (h : Closes s root) : Closes (s.goTo t .idle) root where
  drawn := h.drawn
  covers := h.covers
  quiet t' := by
    by_cases ht : t' = t
    · rw [ht, threads_self]
      exact fun tok htok => absurd htok List.not_mem_nil
    · rw [threads_other ht]
      exact h.quiet t'

theorem Sound.answer {roots : List String} (h : Sound s)
    (hroots : ∀ root ∈ roots, Closes s root) : Sound (s.answer t roots) :=
  have hidle : Known s .idle := trivial
  (h.goTo (enters_quiet hidle rfl rfl rfl)).close fun root hroot => (hroots root hroot).goTo

theorem Sound.refuse (h : Sound s) : Sound (s.answer t []) :=
  h.answer fun _ hroot => absurd hroot List.not_mem_nil

theorem Sound.redeem {verifyPkce : String → String → Bool} {client : Option OAuthClient}
    {code redirectUri codeVerifier : String} {now : ℕ} (h : Sound s) :
    Sound (redeemCode verifyPkce s t client code redirectUri codeVerifier now) := by
  unfold redeemCode
  split
  · exact h.refuse
  · next client =>
    split
    · exact h.refuse
    · split
      · exact h.refuse
      · next authCode hcode =>
        split
        · exact h.refuse
        · refine h.goTo (enters_quiet ?_ rfl rfl rfl)
          exact List.mem_map_of_mem (List.mem_of_find?_eq_some hcode)

theorem Sound.parent {claims : Claims} {record : OAuthToken} (h : Sound s)
    (hsigned : s.Signed claims) (htype : claims.type = .refresh)
    (hrecord : s.token? claims.jti = some record) : record.parentTokenUid ≠ none := by
  obtain ⟨hmem, hjti⟩ := token?_some hrecord
  obtain ⟨p, hp, hclaims⟩ := hsigned
  obtain ⟨haccess, hrefresh, hformed⟩ := h.pairs p hp
  rcases hclaims with rfl | rfl
  · have haccess' : p.access.tokenType = .refresh := htype
    rw [hformed.type] at haccess'
    cases haccess'
  · obtain ⟨row, hrow, hplain⟩ := List.mem_map.1 hrefresh
    obtain ⟨-, hrowJti, hparent⟩ := plain_eq hplain
    have hsame : record = row := h.tokens record hmem row hrow (.inr (hjti.trans hrowJti.symm))
    rw [hsame, hparent]
    exact hformed.parent

theorem Sound.refresh {client : Option OAuthClient} {claims : Option Claims} {expired : Bool}
    (h : Sound s) (hsigned : ∀ c ∈ claims, s.Signed c)
    (hturn : InTurn s (.refresh t client claims expired)) :
    Sound (presentRefresh s t client claims expired) := by
  -- a request its client or the expiry refuses presents no spent token
  have hrefuse : (∀ c ∈ client, ∀ payload ∈ claims,
      expired ∨ payload.type ≠ .refresh ∨ payload.clientId ≠ c.clientId) →
      Sound (s.answer t (s.reused claims)) := by
    intro hgate
    by_cases hnone : s.reused claims = []
    · rw [hnone]
      exact h.refuse
    · obtain ⟨hexpired, c, hc, payload, hpayload, hclient⟩ := hturn hnone
      obtain rfl := Option.mem_def.1 hpayload
      rcases hgate c hc payload rfl with hgate | hgate | hgate
      · rw [hexpired] at hgate
        cases hgate
      · exact absurd (if_neg hgate) hnone
      · exact absurd hclient hgate
  unfold presentRefresh
  split
  · next client payload =>
    split
    · next hgate =>
      refine hrefuse fun c hc payload' hpayload' => ?_
      obtain rfl := Option.mem_some.1 hc
      obtain rfl := Option.mem_some.1 hpayload'
      exact hgate
    · next hgate =>
      split
      · exact h.refuse
      · next record hrecord =>
        have hmem := (token?_some hrecord).1
        split
        · split
          · next parent hparent =>
            refine h.goTo (enters_quiet ?_ rfl rfl rfl)
            have hroot : record.root = parent := by rw [OAuthToken.root, hparent, Option.getD_some]
            exact hroot ▸ (h.drawn record hmem).2.2
          · next hparent =>
            have htype : payload.type = .refresh := by
              by_contra hne
              exact hgate (.inr (.inl hne))
            exact absurd hparent (h.parent (hsigned payload rfl) htype hrecord)
        · exact h.goTo (enters_quiet (List.mem_map_of_mem hmem) rfl rfl rfl)
  · next hmissing =>
    refine hrefuse fun c hc payload hpayload => ?_
    obtain rfl := Option.mem_def.1 hc
    obtain rfl := Option.mem_def.1 hpayload
    exact absurd rfl (hmissing c payload rfl)

theorem Sound.revoke {client : Option OAuthClient} {claims : Option Claims} (h : Sound s)
    (hturn : InTurn s (.revoke t client claims)) : Sound (presentRevoke s t client claims) := by
  unfold presentRevoke
  split
  · next client payload =>
    split
    · exact h.refuse
    · next record hrecord =>
      split
      · refine h.goTo (enters_quiet ?_ rfl rfl rfl)
        exact (h.drawn record (token?_some hrecord).1).2.2
      · next hclient =>
        obtain ⟨c, hc, hsame⟩ := hturn payload rfl record hrecord
        obtain rfl := Option.mem_some.1 hc
        exact absurd hsame hclient
  · next hmissing =>
    have hnone : s.lineage claims = [] := by
      cases claims with
      | none => rfl
      | some payload =>
        cases hrecord : s.token? payload.jti with
        | none => simp only [State.lineage, Option.bind_some, hrecord, Option.map_none,
            Option.toList_none]
        | some record =>
          obtain ⟨c, hc, -⟩ := hturn payload rfl record hrecord
          obtain rfl := Option.mem_def.1 hc
          exact absurd rfl (hmissing c payload rfl)
    rw [hnone]
    exact h.refuse

theorem Sound.consent {found : Bool} {s' : State} (h : Sound s)
    (hs : readConsent s t found = some s') : Sound s' := by
  have hknown := h.known t
  unfold readConsent at hs
  split at hs
  · next client code hphase =>
    rw [hphase] at hknown
    obtain rfl := Option.some.inj hs
    split
    · exact h.goTo (enters_quiet hknown rfl rfl rfl)
    · exact h.refuse
  · next client claims record hphase =>
    rw [hphase] at hknown
    obtain rfl := Option.some.inj hs
    split
    · split
      · exact h.goTo (enters_quiet hknown rfl rfl rfl)
      · exact h.goTo (enters_quiet hknown rfl rfl rfl)
    · exact h.refuse
  · cases hs

theorem Sound.tournament {running : Bool} {s' : State} (h : Sound s)
    (hs : readTournament s t running = some s') : Sound s' := by
  have hknown := h.known t
  unfold readTournament at hs
  split at hs
  · next client claims record hphase =>
    rw [hphase] at hknown
    obtain rfl := Option.some.inj hs
    split
    · exact h.goTo (enters_quiet hknown rfl rfl rfl)
    · exact h.refuse
  · cases hs

/-! ### Writes -/

theorem writeToken_eq {record : OAuthToken} (h : Sound s)
    (hknown : record.plain ∈ s.tokens.map OAuthToken.plain) :
    s.writeToken { record with revoked := true } = s.markToken record.uid := by
  obtain ⟨row₀, hrow₀, hplain⟩ := List.mem_map.1 hknown
  rw [State.writeToken, State.markToken, State.mk.injEq]
  refine ⟨rfl, List.map_congr_left fun row hrow => ?_, rfl, rfl, rfl, rfl⟩
  unfold OAuthToken.mark
  by_cases huid : row.uid = record.uid
  · have hsame : row = row₀ := h.tokens row hrow row₀ hrow₀
      (.inl (huid.trans (plain_eq hplain).1.symm))
    rw [if_pos huid, if_pos huid, hsame]
    simp only [OAuthToken.plain, OAuthToken.mk.injEq] at hplain ⊢
    simp only [hplain, and_self]
  · rw [if_neg huid, if_neg huid]

theorem writeCode_eq {code : OAuthAuthorizationCode} (h : Sound s)
    (hknown : code.plain ∈ s.codes.map OAuthAuthorizationCode.plain) :
    s.writeCode { code with used := true } = s.markCode code.uid := by
  obtain ⟨row₀, hrow₀, hplain⟩ := List.mem_map.1 hknown
  rw [State.writeCode, State.markCode, State.mk.injEq]
  refine ⟨List.map_congr_left fun row hrow => ?_, rfl, rfl, rfl, rfl, rfl⟩
  unfold OAuthAuthorizationCode.mark
  simp only [OAuthAuthorizationCode.plain, OAuthAuthorizationCode.mk.injEq] at hplain
  by_cases huid : row.uid = code.uid
  · have hsame : row = row₀ := h.codes row hrow row₀ hrow₀ (.inl (huid.trans hplain.1.symm))
    rw [if_pos huid, if_pos huid, hsame]
    simp only [hplain]
  · rw [if_neg huid, if_neg huid]

theorem inserts_new {b : OAuthToken} (h : Sound s) (hb : b ∈ (s.threads t).inserts) : New s b := by
  have hknown := h.known t
  cases hphase : s.threads t with
  | insertAccess source access refresh =>
    rw [hphase] at hb hknown
    rcases List.mem_cons.1 hb with rfl | hb
    · exact hknown.1
    · exact List.mem_singleton.1 hb ▸ hknown.2.1
  | insertRefresh source access refresh =>
    rw [hphase] at hb hknown
    exact List.mem_singleton.1 hb ▸ hknown.2.1
  | _ =>
    rw [hphase] at hb
    cases hb

theorem chain_drawn {root : String} {pending : List OAuthToken} (h : Sound s)
    (hchain : (s.threads t).chain = some (root, pending)) : root ∈ s.ids := by
  have hknown := h.known t
  cases hphase : s.threads t with
  | chainUpdate root' pending' =>
    rw [hphase] at hchain hknown
    obtain ⟨rfl, -⟩ := Prod.mk.inj (Option.some.inj hchain)
    exact hknown.1
  | _ =>
    rw [hphase] at hchain
    cases hchain

/-- The lineage a pair may join. -/
structure Joins (s : State) (root : String) : Prop where
  drawn : root ∈ s.ids
  closed : root ∉ s.closed
  chain : ∀ t pending, (s.threads t).chain ≠ some (root, pending)

theorem Sound.issue {source : Source} {userUid clientId : String} {scopes : List String}
    {tournamentUid parent : Option String} {now : ℕ} {ids : PairIds} (h : Sound s)
    (hfresh : ids.Fresh s) (hspent : Spent s source) (hissued : source ∉ s.issued.map Pair.source)
    (hflight : ∀ t', (s.threads t').source ≠ some source) (hjoins : ∀ root ∈ parent, Joins s root) :
    Sound (s.issue t source (issueTokenPair userUid clientId scopes tournamentUid parent now ids)
      ids) := by
  obtain ⟨hnodup, hunused⟩ := hfresh
  have hdrawn := h.draw ids.all
  -- the root both tokens share
  have hroot : ∀ tok ∈ (Phase.insertAccess source (issueTokenPair userUid clientId scopes
      tournamentUid parent now ids).1 (issueTokenPair userUid clientId scopes tournamentUid parent
        now ids).2).inserts, tok.root = parent.getD ids.accessUid := by
    intro tok htok
    simp only [Phase.inserts, List.mem_cons, List.not_mem_nil, or_false] at htok
    rcases htok with rfl | rfl <;> rfl
  have hjoin : Joins { s with ids := s.ids ++ ids.all } (parent.getD ids.accessUid) := by
    cases parent with
    | none =>
      have hnew : ids.accessUid ∉ s.ids := hunused _ (by simp [PairIds.all])
      refine ⟨List.mem_append_right _ (by simp [PairIds.all]), fun hclosed => ?_,
        fun t' pending hchain => ?_⟩
      · exact hnew (h.dead _ hclosed).1
      · exact hnew (chain_drawn h hchain)
    | some root =>
      obtain ⟨hids, hclosed, hchain⟩ := hjoins root rfl
      exact ⟨List.mem_append_left _ hids, hclosed, hchain⟩
  have hids : ∀ id ∈ ids.all, id ∈ s.ids ++ ids.all ∧
      (∀ row ∈ s.tokens, row.uid ≠ id ∧ row.tokenJti ≠ id) ∧
      ∀ t', ∀ b ∈ (s.threads t').inserts, b.uid ≠ id ∧ b.tokenJti ≠ id := by
    intro id hid
    have hnew := hunused id hid
    refine ⟨List.mem_append_right _ hid, fun row hrow => ⟨?_, ?_⟩, fun t' b hb => ⟨?_, ?_⟩⟩
    · exact fun heq => hnew (heq ▸ (h.drawn row hrow).1)
    · exact fun heq => hnew (heq ▸ (h.drawn row hrow).2.1)
    · exact fun heq => hnew (heq ▸ (inserts_new h hb).uid)
    · exact fun heq => hnew (heq ▸ (inserts_new h hb).jti)
  obtain ⟨hau, hauRows, hauFlight⟩ := hids ids.accessUid (by simp [PairIds.all])
  obtain ⟨haj, hajRows, hajFlight⟩ := hids ids.accessJti (by simp [PairIds.all])
  obtain ⟨hru, hruRows, hruFlight⟩ := hids ids.refreshUid (by simp [PairIds.all])
  obtain ⟨hrj, hrjRows, hrjFlight⟩ := hids ids.refreshJti (by simp [PairIds.all])
  simp only [PairIds.all, List.nodup_cons, List.mem_cons, List.not_mem_nil, or_false, not_or,
    List.nodup_nil, not_false_eq_true, and_true] at hnodup
  refine hdrawn.goTo ⟨⟨⟨hau, haj, hjoin.drawn, ?_⟩, ⟨hru, hrj, hjoin.drawn, ?_⟩,
    ⟨hnodup.2.2, hnodup.1.1⟩, ⟨rfl, by simp [issueTokenPair]⟩⟩, ?_, ?_, ?_, ?_⟩
  · exact fun row hrow => ⟨(hauRows row hrow).1, (hajRows row hrow).2⟩
  · exact fun row hrow => ⟨(hruRows row hrow).1, (hrjRows row hrow).2⟩
  · intro t' _ a ha b hb
    simp only [Phase.inserts, List.mem_cons, List.not_mem_nil, or_false] at ha
    rcases ha with rfl | rfl
    · exact ⟨(hauFlight t' b hb).1.symm, (hajFlight t' b hb).2.symm⟩
    · exact ⟨(hruFlight t' b hb).1.symm, (hrjFlight t' b hb).2.symm⟩
  · intro source' hsource
    obtain rfl := Option.some.inj hsource
    exact ⟨hspent, hissued, fun t' _ => hflight t'⟩
  · intro tok htok
    rw [hroot tok htok]
    exact ⟨hjoin.closed, fun t' _ => hjoin.chain t'⟩
  · intro root pending hchain
    cases hchain

theorem PairIds.Fresh.markToken {uid : String} {ids : PairIds} (h : ids.Fresh s) :
    ids.Fresh (s.markToken uid) := h

theorem PairIds.Fresh.markCode {uid : String} {ids : PairIds} (h : ids.Fresh s) :
    ids.Fresh (s.markCode uid) := h

theorem unspent_code {code : OAuthAuthorizationCode} (h : Sound s)
    (hknown : code.plain ∈ s.codes.map OAuthAuthorizationCode.plain)
    (hunused : ∀ row ∈ s.codes, row.uid = code.uid → row.used = false) :
    ¬Spent s (.code code.code) ∧ Spent (s.markCode code.uid) (.code code.code) := by
  obtain ⟨row₀, hrow₀, hplain⟩ := List.mem_map.1 hknown
  simp only [OAuthAuthorizationCode.plain, OAuthAuthorizationCode.mk.injEq] at hplain
  obtain ⟨huid, hcode, -⟩ := hplain
  constructor
  · rintro ⟨row, hrow, hvalue, hused⟩
    rw [h.codes row hrow row₀ hrow₀ (.inr (hvalue.trans hcode.symm)),
      hunused row₀ hrow₀ huid] at hused
    cases hused
  · exact ⟨row₀.mark code.uid, List.mem_map_of_mem hrow₀, markCode_code.trans hcode,
      markCode_used (.inr huid)⟩

theorem unspent_token {record : OAuthToken} (h : Sound s)
    (hknown : record.plain ∈ s.tokens.map OAuthToken.plain)
    (hlive : ∀ row ∈ s.tokens, row.uid = record.uid → row.revoked = false) :
    ¬Spent s (.refresh record.tokenJti) ∧
      Spent (s.markToken record.uid) (.refresh record.tokenJti) := by
  obtain ⟨row₀, hrow₀, hplain⟩ := List.mem_map.1 hknown
  obtain ⟨huid, hjti, -⟩ := plain_eq hplain
  constructor
  · rintro ⟨row, hrow, hvalue, hrevoked⟩
    rw [h.tokens row hrow row₀ hrow₀ (.inr (hvalue.trans hjti.symm)), hlive row₀ hrow₀ huid]
      at hrevoked
    cases hrevoked
  · exact ⟨row₀.mark record.uid, List.mem_map_of_mem hrow₀, mark_jti.trans hjti,
      mark_revoked (.inr huid)⟩

theorem not_issued {source : Source} (h : Sound s) (hsource : ¬Spent s source) :
    source ∉ s.issued.map Pair.source ∧ ∀ t', (s.threads t').source ≠ some source := by
  constructor
  · intro hmem
    obtain ⟨p, hp, rfl⟩ := List.mem_map.1 hmem
    exact hsource (h.spent p hp)
  · exact fun t' hflight => hsource (h.flight t' source hflight).1

theorem joins_record {record : OAuthToken} (h : Sound s)
    (hknown : record.plain ∈ s.tokens.map OAuthToken.plain)
    (hlive : ∀ row ∈ s.tokens, row.uid = record.uid → row.revoked = false)
    (hchain : ∀ t' pending, (s.threads t').chain ≠ some (record.root, pending)) :
    Joins s record.root := by
  obtain ⟨row₀, hrow₀, hplain⟩ := List.mem_map.1 hknown
  obtain ⟨huid, -, hparent⟩ := plain_eq hplain
  have hroot : row₀.root = record.root := by rw [OAuthToken.root, OAuthToken.root, huid, hparent]
  refine ⟨hroot ▸ (h.drawn row₀ hrow₀).2.2, fun hclosed => ?_, hchain⟩
  have hdead := (h.dead _ hclosed).2.1 row₀ hrow₀ hroot
  rw [hlive row₀ hrow₀ huid] at hdead
  simp at hdead

theorem Sound.update {now : ℕ} {ids : PairIds} {s' : State} (h : Sound s)
    (hfresh : ids.Fresh s) (hturn : InTurn s (.update t now ids))
    (hs : writeSpent s t now ids = some s') : Sound s' := by
  have hknown := h.known t
  unfold writeSpent at hs
  split at hs
  · next client code hphase =>
    simp only [InTurn, hphase] at hturn
    rw [hphase] at hknown
    obtain rfl := Option.some.inj hs
    obtain ⟨hunspent, hspent⟩ := unspent_code h hknown hturn
    obtain ⟨hissued, hflight⟩ := not_issued h hunspent
    rw [writeCode_eq h hknown]
    exact h.markCode.issue hfresh.markCode hspent hissued hflight (fun _ hnone => nomatch hnone)
  · next client claims record hphase =>
    simp only [InTurn, hphase] at hturn
    rw [hphase] at hknown
    obtain ⟨hunspent, hspent⟩ := unspent_token h hknown hturn.1
    obtain ⟨hissued, hflight⟩ := not_issued h hunspent
    have hjoins := joins_record h hknown hturn.1 hturn.2
    dsimp only at hs
    rw [writeToken_eq h hknown] at hs
    split at hs
    · obtain rfl := Option.some.inj hs
      refine h.markToken.issue hfresh.markToken hspent hissued hflight fun root hroot => ?_
      obtain rfl := Option.mem_some.1 hroot
      exact ⟨hjoins.drawn, hjoins.closed, hjoins.chain⟩
    · obtain rfl := Option.some.inj hs
      exact h.markToken.refuse
  · cases hs

/-! ### Insertions and chains -/

theorem insert_lineage {b : OAuthToken} (h : Sound s) (hb : b ∈ (s.threads t).inserts) :
    b.root ∉ s.closed ∧ ∀ t' pending, (s.threads t').chain ≠ some (b.root, pending) :=
  ⟨fun hclosed => (h.dead _ hclosed).2.2 t b hb rfl,
    fun t' pending hchain => (h.chains t' _ pending hchain).2 t b hb rfl⟩

theorem Sound.inserted {tok : OAuthToken} (h : Sound s) (htok : tok ∈ (s.threads t).inserts) :
    Sound ((s.goTo t .idle).addToken tok) := by
  have hidle : Known s .idle := trivial
  have hleft : Sound (s.goTo t .idle) := h.goTo (enters_quiet hidle rfl rfl rfl)
  obtain ⟨hclosed, hchains⟩ := insert_lineage h htok
  have hnew := inserts_new h htok
  refine hleft.addToken ⟨hnew.uid, hnew.jti, hnew.root, hnew.absent⟩ ?_ hclosed ?_
  · intro t' b hb
    by_cases ht : t' = t
    · rw [ht, threads_self] at hb
      cases hb
    · rw [threads_other ht] at hb
      exact h.apart t' t ht b hb tok htok
  · intro t' pending hchain
    by_cases ht : t' = t
    · rw [ht, threads_self] at hchain
      cases hchain
    · rw [threads_other ht] at hchain
      exact hchains t' pending hchain

theorem source_left {source : Source} (tok : OAuthToken) (h : Sound s)
    (hsource : (s.threads t).source = some source) :
    Spent ((s.goTo t .idle).addToken tok) source ∧ source ∉ s.issued.map Pair.source ∧
      ∀ t', (((s.goTo t .idle).addToken tok).threads t').source ≠ some source := by
  obtain ⟨hspent, hissued⟩ := h.flight t source hsource
  have hleft : Spent (s.goTo t .idle) source := by
    cases source with
    | code value => exact hspent
    | refresh jti => exact hspent
  refine ⟨hleft.addToken, hissued, fun t' hsource' => ?_⟩
  by_cases ht : t' = t
  · have hself : ((s.goTo t .idle).addToken tok).threads t' = .idle := by
      rw [ht]
      exact threads_self
    rw [hself] at hsource'
    cases hsource'
  · have hother : ((s.goTo t .idle).addToken tok).threads t' = s.threads t' := threads_other ht
    rw [hother] at hsource'
    exact ht (h.alone t' t source hsource' hsource)

theorem mem_plain_added {tok : OAuthToken} :
    tok.plain ∈ (s.addToken tok).tokens.map OAuthToken.plain :=
  List.mem_map_of_mem (mem_addToken.2 (.inr rfl))

theorem Sound.insertAccess {source : Source} {access refresh : OAuthToken} (h : Sound s)
    (hphase : s.threads t = .insertAccess source access refresh) :
    Sound ((s.addToken access).goTo t (.insertRefresh source access refresh)) := by
  have hknown := h.known t
  rw [hphase] at hknown
  obtain ⟨-, hnew, hne, hformed⟩ := hknown
  have haccess : access ∈ (s.threads t).inserts := by
    rw [hphase]
    exact List.mem_cons_self ..
  have hrefresh : refresh ∈ (s.threads t).inserts := by
    rw [hphase]
    exact List.mem_cons_of_mem _ (List.mem_cons_self ..)
  have hsame : (s.addToken access).goTo t (.insertRefresh source access refresh) =
      ((s.goTo t .idle).addToken access).goTo t (.insertRefresh source access refresh) := by
    simp only [State.goTo, State.addToken, Function.update_idem]
  have hother : ∀ {t'}, t' ≠ t → ((s.goTo t .idle).addToken access).threads t' = s.threads t' :=
    fun ht => threads_other ht
  obtain ⟨hspent, hissued, hflight⟩ := source_left access h
    (show (s.threads t).source = some source by rw [hphase]; rfl)
  obtain ⟨hclosed, hchains⟩ := insert_lineage h hrefresh
  rw [hsame]
  refine (h.inserted haccess).goTo ⟨⟨mem_plain_added, ?_, hformed⟩, ?_, ?_, ?_, ?_⟩
  · refine ⟨hnew.uid, hnew.jti, hnew.root, fun row hrow => ?_⟩
    rcases mem_addToken.1 hrow with hrow | rfl
    · exact hnew.absent row hrow
    · exact hne
  · intro t' ht a ha b hb
    obtain rfl := List.mem_singleton.1 ha
    rw [hother ht] at hb
    exact h.apart t t' (Ne.symm ht) a hrefresh b hb
  · intro src hsrc
    obtain rfl := Option.some.inj hsrc
    exact ⟨hspent, hissued, fun t' _ => hflight t'⟩
  · intro b hb
    obtain rfl := List.mem_singleton.1 hb
    refine ⟨hclosed, fun t' ht pending => ?_⟩
    rw [hother ht]
    exact hchains t' pending
  · intro root pending hchain
    cases hchain

theorem Sound.insertRefresh {source : Source} {access refresh : OAuthToken} (h : Sound s)
    (hphase : s.threads t = .insertRefresh source access refresh) :
    Sound { ((s.addToken refresh).answer t []) with
      issued := s.issued ++ [⟨source, access, refresh⟩] } := by
  have hknown := h.known t
  rw [hphase] at hknown
  obtain ⟨haccess, hnew, hformed⟩ := hknown
  have hrefresh : refresh ∈ (s.threads t).inserts := by
    rw [hphase]
    exact List.mem_cons_self ..
  obtain ⟨hspent, hissued, hflight⟩ := source_left refresh h
    (show (s.threads t).source = some source by rw [hphase]; rfl)
  have hpair := (h.inserted hrefresh).addPair ⟨source, access, refresh⟩
    ⟨plain_addToken haccess, mem_plain_added, hformed⟩ hspent hissued hflight
  have hsame : ({ ((s.addToken refresh).answer t []) with
      issued := s.issued ++ [⟨source, access, refresh⟩] } : State) =
      { (s.goTo t .idle).addToken refresh with
        issued := s.issued ++ [⟨source, access, refresh⟩] } := by
    simp only [State.answer, State.goTo, State.addToken, List.append_nil]
  rw [hsame]
  exact hpair

theorem Sound.insert {s' : State} (h : Sound s) (hs : insertNext s t = some s') : Sound s' := by
  unfold insertNext at hs
  split at hs
  · next source access refresh hphase =>
    obtain rfl := Option.some.inj hs
    exact h.insertAccess hphase
  · next source access refresh hphase =>
    obtain rfl := Option.some.inj hs
    exact h.insertRefresh hphase
  · cases hs

theorem Sound.select {s' : State} (h : Sound s) (hturn : InTurn s (.select t))
    (hs : selectChain s t = some s') : Sound s' := by
  have hknown := h.known t
  unfold selectChain at hs
  split at hs
  · next root hphase =>
    rw [hphase] at hknown
    simp only [InTurn, hphase] at hturn
    obtain rfl := Option.some.inj hs
    refine h.goTo ⟨⟨hknown, fun tok htok => ?_⟩, ?_, ?_, ?_, ?_⟩
    · exact List.mem_map_of_mem (List.mem_filter.1 htok).1
    · intro t' _ a ha
      cases ha
    · intro source hsource
      cases hsource
    · intro tok htok
      cases htok
    · intro root' pending hchain
      obtain ⟨rfl, rfl⟩ := Prod.mk.inj (Option.some.inj hchain)
      refine ⟨fun tok htok hroot => ?_, fun t' _ => hturn t'⟩
      cases hrevoked : tok.revoked with
      | true => exact .inl rfl
      | false =>
        refine .inr (List.mem_map_of_mem (List.mem_filter.2 ⟨htok, decide_eq_true ⟨?_, hrevoked⟩⟩))
        cases hparent : tok.parentTokenUid with
        | none =>
          rw [OAuthToken.root, hparent] at hroot
          exact .inr hroot
        | some parent =>
          rw [OAuthToken.root, hparent, Option.getD_some] at hroot
          exact .inl (congrArg some hroot)
  · cases hs

theorem Sound.revokeNext {s' : State} (h : Sound s) (hs : revokeNext s t = some s') :
    Sound s' := by
  have hknown := h.known t
  unfold OAuth.revokeNext at hs
  split at hs
  · next root tok pending hphase =>
    rw [hphase] at hknown
    obtain rfl := Option.some.inj hs
    obtain ⟨hcovers, hquiet⟩ := h.chains t root (tok :: pending) (by rw [hphase]; rfl)
    rw [writeToken_eq h (hknown.2 tok (List.mem_cons_self ..))]
    refine h.markToken.goTo ⟨⟨hknown.1, fun b hb => ?_⟩, ?_, ?_, ?_, ?_⟩
    · rw [markToken_plain]
      exact hknown.2 b (List.mem_cons_of_mem _ hb)
    · intro t' _ a ha
      cases ha
    · intro source hsource
      cases hsource
    · intro b hb
      cases hb
    · intro root' pending' hchain
      obtain ⟨rfl, rfl⟩ := Prod.mk.inj (Option.some.inj hchain)
      exact ⟨hcovers.next, fun t' _ => hquiet t'⟩
  · next root hphase =>
    rw [hphase] at hknown
    obtain rfl := Option.some.inj hs
    obtain ⟨hcovers, hquiet⟩ := h.chains t root [] (by rw [hphase]; rfl)
    refine h.answer fun root' hroot' => ?_
    obtain rfl := List.mem_singleton.1 hroot'
    exact ⟨hknown.1, hcovers, hquiet⟩
  · cases hs

/-! ### Runs -/

section Runs

variable {verifyPkce : String → String → Bool} {a : Action} {s' : State}

theorem Sound.step (h : Sound s) (hturn : InTurn s a) (hs : oauthStep verifyPkce s a = some s') :
    Sound s' := by
  cases a with
  | redeem t client code redirectUri codeVerifier now =>
    simp only [oauthStep] at hs
    split at hs
    · obtain rfl := Option.some.inj hs
      exact h.redeem
    · cases hs
  | refresh t client claims expired =>
    simp only [oauthStep] at hs
    split at hs
    · split at hs
      · next hsigned =>
        obtain rfl := Option.some.inj hs
        exact h.refresh hsigned hturn
      · cases hs
    · cases hs
  | revoke t client claims =>
    simp only [oauthStep] at hs
    split at hs
    · split at hs
      · obtain rfl := Option.some.inj hs
        exact h.revoke hturn
      · cases hs
    · cases hs
  | consent t found => exact h.consent hs
  | tournament t running => exact h.tournament hs
  | update t now ids =>
    simp only [oauthStep] at hs
    split at hs
    · next hfresh => exact h.update hfresh hturn hs
    · cases hs
  | insert t => exact h.insert hs
  | select t => exact h.select hturn hs
  | revokeNext t => exact h.revokeNext hs

theorem Sound.init (h : (oauthSystem verifyPkce).init s) : Sound s := by
  obtain ⟨huids, hvalues, htokens, hthreads, hissued, hclosed, -⟩ := h
  constructor
  · intro c hc c' hc' hsame
    rcases hsame with huid | hvalue
    · exact List.inj_on_of_nodup_map huids hc hc' huid
    · exact List.inj_on_of_nodup_map hvalues hc hc' hvalue
  all_goals simp [htokens, hthreads, hissued, hclosed, Phase.inserts, Phase.source, Phase.chain,
    Known]

theorem reachable_of_run {actions : List Action} (h : (oauthSystem verifyPkce).Reachable s)
    (hs : actions.foldlM (oauthStep verifyPkce) s = some s') :
    (oauthSystem verifyPkce).Reachable s' := h.foldlM (fun _ _ _ => id) actions s s' hs

end Runs

/-! ### Two requests at once -/

def botClient : OAuthClient := ⟨"bot", ["https://bot/cb"], ["profile:read"]⟩

def grantedCode : OAuthAuthorizationCode :=
  ⟨"c1", "k1", "bot", "ann", "https://bot/cb", ["profile:read"], none, "v1", 60, false⟩

def granted : State := ⟨[grantedCode], [], fun _ => .idle, [], [], []⟩

def botIds (n : String) : PairIds := ⟨"aj" ++ n, "rj" ++ n, "a" ++ n, "r" ++ n⟩

def redeemK1 (t : ℕ) : Action := .redeem t (some botClient) "k1" "https://bot/cb" "v1" 10

/-- The claims of the first refresh token. -/
def firstRefresh : Claims := ⟨"ann", .refresh, ["profile:read"], "bot", "rj0", none⟩

/-- The code is redeemed once. -/
def redeemedOnce : List Action :=
  [redeemK1 0, .consent 0 true, .update 0 10 (botIds "0"), .insert 0, .insert 0]

/-- The lineage is revoked between the write of a refresh token and the insertion of its pair. -/
def revokedBetween : List Action :=
  redeemedOnce ++ [.refresh 1 (some botClient) (some firstRefresh) false, .consent 1 true,
    .update 1 20 (botIds "1"), .revoke 2 (some botClient) (some firstRefresh), .select 2,
    .revokeNext 2, .revokeNext 2, .insert 1, .insert 1]

def samePkce (verifier challenge : String) : Bool := verifier = challenge

end Archon.OAuth

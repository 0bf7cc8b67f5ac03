import Archon.Backend.Frames

/-!
# The rows go-online writes

The rows of the members it matches or mints, the row of the tournament, the sanctions and decks
submitted with it and the tournament's own decks; after that the members whose wins and ratings
are recomputed.
-/

namespace Archon.Backend
open Engine Guards Table

/-- The source of new uids: none is stored, nor the uid of the tournament. -/
def Env.Fresh (env : Env) (objects : Objects) (uid : Uid) : Prop :=
  ∀ k, objects.lookup (env.freshUid k) = none ∧ env.freshUid k ≠ uid

section OnlineRows

variable {env : Env} {store : Store} {objects objects' : Objects} {Q : Uid → Prop}
variable {V W : Uid → StoredObject → Prop}
variable {user u : User} {uid : Uid} {request : GoOnlineRequest} {r : Resolution}

/-! ### Taking and breaking the lock -/

theorem goOffline_eq_ok {deviceId : String} :
    goOffline env objects user uid deviceId = .ok objects' ↔
      ∃ t, objects.tournament? uid = some t ∧ canTakeTournamentOffline user t = true ∧
        t.lock.offlineMode = false ∧ objects' = saveRow objects
          { t.touched env.now with lock := ⟨true, deviceId, user.uid, some env.now⟩ } := by
  simp only [goOffline, okOr_bind_eq_ok, ensure_bind_eq_ok, pure_eq_ok, @eq_comm _ objects']

theorem forceTakeover_eq_ok {deviceId : String} :
    forceTakeover env objects user uid deviceId = .ok objects' ↔
      ∃ t, objects.tournament? uid = some t ∧ canTakeTournamentOffline user t = true ∧
        t.lock.offlineMode = true ∧ objects' = saveRow objects
          { t.touched env.now with
            lock := { t.lock with offlineDeviceId := deviceId, offlineUserUid := user.uid } } := by
  simp only [forceTakeover, okOr_bind_eq_ok, ensure_bind_eq_ok, pure_eq_ok, @eq_comm _ objects']

theorem forceUnlock_eq_ok {oauthClient : Option String} :
    forceUnlock env objects user oauthClient uid = .ok objects' ↔
      oauthClient = none ∧ canForceUnlockTournament user = true ∧
        ∃ t, objects.tournament? uid = some t ∧ t.lock.offlineMode = true ∧
          objects' = saveRow objects { t.touched env.now with lock := .released } := by
  simp only [forceUnlock, okOr_bind_eq_ok, ensure_bind_eq_ok, pure_eq_ok, @eq_comm _ objects']

theorem syncOffline_eq_ok {deviceId : String} {payload t : StoredTournament}
    (ht : objects.tournament? uid = some t) :
    syncOffline env objects user uid deviceId payload = .ok objects' ↔
      (t.lock.offlineMode = true ∧ isOrganizer user t = true ∧ t.lock.offlineDeviceId = deviceId) ∧
      uidMismatch uid payload = false ∧ objects' = saveRow objects (scrubAnonymizedCopies objects
        (env.localTimes ((snapshotOver env (some t) user deviceId
          (pinned env uid payload)).touched env.now))) := by
  simp only [syncOffline, ht, ensure_bind_eq_ok, pure_eq_ok, @eq_comm _ objects',
    and_assoc]

theorem syncOffline_row {deviceId : String} {payload : StoredTournament}
    (h : syncOffline env objects user uid deviceId payload = .ok objects') :
    ∃ row : StoredTournament, row.uid = uid ∧ objects' = saveRow objects row := by
  cases ht : objects.tournament? uid with
  | some t =>
    obtain ⟨-, -, rfl⟩ := (syncOffline_eq_ok ht).1 h
    exact ⟨_, rfl, rfl⟩
  | none =>
    simp only [syncOffline, ht, bind_eq_ok, ensure_eq_ok, pure_eq_ok] at h
    obtain ⟨-, -, -, -, rfl⟩ := h
    exact ⟨_, rfl, rfl⟩

/-! ### Members matched and minted -/

theorem getUserByEmail_mem {authMethods : List AuthMethod} {email : String}
    (h : getUserByEmail objects authMethods email = some u) : u ∈ objects.users := by
  unfold getUserByEmail at h
  extract_lets byMethod byContact ranks at h
  rw [Option.bind_eq_some_iff] at h
  obtain ⟨us, hus, hu⟩ := h
  have hlive : ∀ v ∈ us, v ∈ objects.liveUsers := by
    have hmem := List.mem_of_find?_eq_some hus
    simp only [ranks, byMethod, byContact, List.mem_cons, List.not_mem_nil, or_false] at hmem
    rcases hmem with rfl | rfl | rfl <;> exact fun v hv => (List.mem_filter.1 hv).1
  -- the smallest uid is that of one of the members compared
  have hbest : ∀ v, us.foldl (fun best u => some (best.elim u fun b =>
      if u.uid < b.uid then u else b)) none = some v → v ∈ us := by
    refine List.foldlRecOn us _ (motive := fun best => ∀ v, best = some v → v ∈ us)
      (fun v hv => by cases hv) fun best hbest w hw v hv => ?_
    cases best with
    | none => exact Option.some.inj hv ▸ hw
    | some b =>
      rw [Option.elim_some, Option.some.injEq] at hv
      split_ifs at hv
      · exact hv ▸ hw
      · exact hbest v (congrArg some hv)
  exact liveUsers_subset (hlive u (hbest u hu))

theorem matchOfflinePlayer_mem {authMethods : List AuthMethod} {p : OfflinePlayerData}
    (h : matchOfflinePlayer objects authMethods p = some u) : u ∈ objects.users := by
  unfold matchOfflinePlayer at h
  extract_lets named at h
  rcases Option.or_eq_some_iff.1 h with h | ⟨-, h⟩
  · obtain ⟨id, -, hid⟩ := Option.bind_eq_some_iff.1 h
    split_ifs at hid
    exact List.mem_of_find?_eq_some hid
  · split_ifs at h
    exact getUserByEmail_mem h

/-- The uids the request's players resolved to. -/
def Resolution.resolved (r : Resolution) (uid : Uid) : Prop := ∃ temp, (temp, uid) ∈ r.uidMap

/-- What the loop over the players keeps: it writes the rows of the members it resolves to, who
are members already or have a new uid. -/
structure Resolution.Sound (store : Objects) (temps : List Uid) (r : Resolution) : Prop where
  written : Written (fun uid o => r.resolved uid ∧ ∃ u, o = .user u) store r.objects
  keyed : WellKeyed r.objects
  known : ∀ uid, r.resolved uid → IsUser store uid ∨ store.lookup uid = none
  keys : ∀ e ∈ r.uidMap, e.1 ∈ temps

theorem coopted_uid (env : Env) (objects : Objects) (organizer : Uid) (u : User) :
    (coopted env objects organizer u).uid = u.uid := by
  unfold coopted
  split <;> rfl

theorem Resolution.Sound.step {table : Objects} {temps : List Uid} (h : r.Sound table temps)
    (hfresh : ∀ k, table.lookup (env.freshUid k) = none) {p : OfflinePlayerData}
    (hp : p.tempUid ∈ temps) (authMethods : List AuthMethod) (country : Option String)
    (organizer : Uid) :
    (resolveOfflinePlayer env authMethods country organizer r p).Sound table temps := by
  -- both branches remember a pair, and at most save the row of its uid
  have hpair : ∀ (r' : Resolution) (v : User), r'.uidMap = (p.tempUid, v.uid) :: r.uidMap →
      (r'.objects = r.objects ∨ r'.objects = saveUser r.objects v) →
      (IsUser table v.uid ∨ table.lookup v.uid = none) → r'.Sound table temps := by
    intro r' v hmap hobjects hv
    have hresolved : ∀ uid, r.resolved uid → r'.resolved uid := by
      rintro uid ⟨temp, htemp⟩
      exact ⟨temp, by rw [hmap]; exact List.mem_cons_of_mem _ htemp⟩
    have hnew : r'.resolved v.uid := ⟨p.tempUid, by rw [hmap]; exact List.mem_cons_self ..⟩
    constructor
    case written =>
      have hbefore := h.written.mono fun uid row hW => And.imp_left (hresolved uid) hW
      rcases hobjects with hobjects | hobjects <;> rw [hobjects]
      · exact hbefore
      · exact hbefore.trans (written_saveUser (W := fun uid o => r'.resolved uid ∧ ∃ u, o = .user u)
          ⟨hnew, v, rfl⟩)
    case keyed =>
      rcases hobjects with hobjects | hobjects <;> rw [hobjects]
      · exact h.keyed
      · exact wellKeyed_saveUser h.keyed v
    case known =>
      rintro uid ⟨temp, htemp⟩
      rw [hmap, List.mem_cons, Prod.mk.injEq] at htemp
      rcases htemp with ⟨-, rfl⟩ | htemp
      · exact hv
      · exact h.known uid ⟨temp, htemp⟩
    case keys =>
      intro e he
      rw [hmap, List.mem_cons] at he
      rcases he with rfl | he
      · exact hp
      · exact h.keys e he
  unfold resolveOfflinePlayer
  extract_lets remember
  cases hmatch : matchOfflinePlayer r.objects authMethods p with
  | some v =>
    have hv : IsUser r.objects v.uid := by
      rw [IsUser, (mem_users h.keyed).1 (matchOfflinePlayer_mem hmatch), Option.isSome_some]
    refine hpair _ (coopted env r.objects organizer v) rfl ?_ ?_
    · dsimp only [remember]
      split
      · exact .inr rfl
      · exact .inl rfl
    · rw [coopted_uid]
      rcases isUser_of_written h.written hv with ⟨-, hres, -⟩ | hstored
      · exact h.known _ hres
      · exact .inl hstored
  | none =>
    exact hpair _ (mintedUser env r.objects r.accountsCreated country organizer p) rfl (.inr rfl)
      (.inr (hfresh _))

theorem Resolution.sound_of_resolve (hkeyed : WellKeyed store.objects)
    (hfresh : ∀ k, store.objects.lookup (env.freshUid k) = none) (country : Option String)
    (organizer : Uid) (players : List OfflinePlayerData) :
    (resolveOfflinePlayers env store country organizer players).Sound store.objects
      (players.map OfflinePlayerData.tempUid) := by
  refine List.foldlRecOn players _
    (motive := fun r => Resolution.Sound store.objects (players.map OfflinePlayerData.tempUid) r)
    ⟨Writes.refl _ _, hkeyed, ?_, ?_⟩ fun r h p hp => ?_
  · rintro uid ⟨temp, htemp⟩
    cases htemp
  · intro e he
    cases he
  · exact h.step hfresh (List.mem_map_of_mem hp) _ _ _

theorem Resolution.Sound.uid_eq {table : Objects} {temps : List Uid} (h : r.Sound table temps)
    (huid : uid ∉ temps) : r.uid uid = uid := by
  have hnone : r.uidMap.lookup uid = none := by
    rw [List.lookup_eq_none_iff]
    intro e he
    have hne : uid ≠ e.1 := fun heq => huid (heq ▸ h.keys e he)
    simpa using hne
  rw [Resolution.uid, hnone, Option.getD_none]

theorem Resolution.Sound.tournament? {table : Objects} {temps : List Uid} (h : r.Sound table temps)
    {t : StoredTournament} (ht : table.tournament? uid = some t) :
    r.objects.tournament? uid = some t := by
  rw [← ht]
  refine tournament?_congr (h.written.lookup_eq fun row hres => ?_)
  rcases h.known uid hres.1 with huser | hnone
  · exact ne_of_isUser ht huser rfl
  · rw [tournament?_eq_some, Objects.find?, hnone] at ht
    cases ht

/-! ### The submitted sanctions and decks -/

theorem written_saveOfflineSanctions (h : WellKeyed objects) (sanctions : List StoredSanction)
    (hW : ∀ s ∈ sanctions, W s.uid (.sanction { s with userUid := r.uid s.userUid })) :
    Written W objects (saveOfflineSanctions r objects sanctions) ∧
      WellKeyed (saveOfflineSanctions r objects sanctions) := by
  refine List.foldlRecOn sanctions _
    (motive := fun table => Written W objects table ∧ WellKeyed table) ⟨Writes.refl _ _, h⟩
    fun table ⟨hwritten, hkeyed⟩ s hs => ?_
  exact ⟨hwritten.trans (written_saveSanction (hW s hs)), wellKeyed_saveSanction hkeyed _⟩

theorem submittedDeck_uid {stored : Option StoredDeck} {sub : DeckSubmission} {d : StoredDeck}
    (h : submittedDeck r uid stored sub = some d)
    (hstored : ∀ d ∈ stored, some d.uid = sub.uid) : sub.uid = some d.uid := by
  simp only [submittedDeck, Option.bind_eq_bind, Option.bind_eq_some_iff, Option.pure_def,
    Option.some.injEq] at h
  obtain ⟨k, hk, -, -, -, -, -, -, rfl⟩ := h
  rcases Option.or_eq_some_iff.1 hk with hk | ⟨hnone, hk⟩
  · exact hk
  · obtain ⟨e, he, rfl⟩ := Option.map_eq_some_iff.1 hk
    rw [← hstored e he] at hnone
    cases hnone

theorem written_saveOfflineDecks {submissions : List DeckSubmission} (h : WellKeyed objects)
    (hW : ∀ sub ∈ submissions, ∀ k ∈ sub.uid, ∀ d, W k (.deck d))
    (hsaved : saveOfflineDecks r uid objects submissions = .ok objects') :
    Written W objects objects' ∧ WellKeyed objects' := by
  refine foldlM_invariant_mem (P := fun table => Written W objects table ∧ WellKeyed table)
    submissions _ _ (fun table sub hsub table' ⟨hwritten, hkeyed⟩ hstep => ?_)
    ⟨Writes.refl _ _, h⟩ hsaved
  simp only [okOr_bind_eq_ok, pure_eq_ok] at hstep
  obtain ⟨d, hd, rfl⟩ := hstep
  have huid := submittedDeck_uid hd fun e he => by
    have hfound := List.find?_some he
    exact eq_of_beq hfound
  exact ⟨hwritten.trans (written_saveDeck (hW sub hsub d.uid huid d)), wellKeyed_saveDeck hkeyed d⟩

theorem written_satellites {sanctions : List StoredSanction} {submissions : List DeckSubmission}
    (h : WellKeyed objects)
    (hsanctions : ∀ s ∈ sanctions, W s.uid (.sanction { s with userUid := r.uid s.userUid }))
    (hdecks : ∀ sub ∈ submissions, ∀ k ∈ sub.uid, ∀ d, W k (.deck d))
    (hsaved : saveOfflineDecks r uid (saveOfflineSanctions r objects sanctions) submissions =
      .ok objects') : Written W objects objects' ∧ WellKeyed objects' := by
  have hfirst := written_saveOfflineSanctions (r := r) h sanctions hsanctions
  have hsecond := written_saveOfflineDecks hfirst.2 hdecks hsaved
  exact ⟨hfirst.1.trans hsecond.1, hsecond.2⟩

/-! ### The row of the tournament -/

theorem broughtOnline_eq_ok {stored : Option StoredTournament} {payload t : StoredTournament} :
    broughtOnline env r request stored payload = .ok t ↔
      (imposed stored payload).fixedTexts.all (fun s => r.uid s == s) = true ∧
      t = scrubAnonymizedCopies r.objects (ensureEventCode env r.objects (markStale stored
        (stampFinish env (assertDisqualified r request.offlineSanctions (env.localTimes
          ({ remapTournament r.uid (imposed stored payload) with lock := .released }.touched
            env.now)))))) := by
  simp only [broughtOnline, remapped?, okOr_bind_eq_ok, pure_eq_ok, Option.ite_none_right_eq_some,
    Option.some.injEq]
  constructor
  · rintro ⟨t', ⟨hfixed, rfl⟩, rfl⟩
    exact ⟨hfixed, rfl⟩
  · rintro ⟨hfixed, rfl⟩
    exact ⟨_, ⟨hfixed, rfl⟩, rfl⟩

theorem doc_ensureEventCode (env : Env) (objects : Objects) (t : StoredTournament) :
    (ensureEventCode env objects t).doc = t.doc := by
  unfold ensureEventCode
  split <;> rfl

theorem doc_markStale (stored : Option StoredTournament) (t : StoredTournament) :
    (markStale stored t).doc = t.doc := by
  unfold markStale
  split <;> rfl

theorem uid_stampFinish (env : Env) (t : StoredTournament) :
    (stampFinish env t).doc.uid = t.doc.uid := by
  unfold stampFinish
  split <;> rfl

theorem doc_imposed_uid (stored : Option StoredTournament) (payload : StoredTournament) :
    (imposed stored payload).doc.uid = payload.doc.uid := by
  cases stored <;> rfl

theorem uid_broughtOnline {stored : Option StoredTournament} {payload t : StoredTournament}
    (h : broughtOnline env r request stored payload = .ok t) :
    t.doc.uid = payload.doc.uid.map r.uid := by
  obtain ⟨-, rfl⟩ := broughtOnline_eq_ok.1 h
  simp only [scrubAnonymizedCopies, scrub, doc_ensureEventCode, doc_markStale, uid_stampFinish]
  exact congrArg (Option.map r.uid) (doc_imposed_uid stored payload)

/-! ### The transaction -/

/-- Whom the players of the request resolve to, and the table with the members minted. -/
def onlineResolution (env : Env) (store : Store) (user : User) (uid : Uid)
    (request : GoOnlineRequest) : Resolution :=
  resolveOfflinePlayers env store (pinned env uid request.tournament).country user.uid
    request.offlinePlayers

theorem gateGoOnline_eq_ok {payload : StoredTournament}
    (h : gateGoOnline env objects user uid request = .ok payload) :
    payload = pinned env uid request.tournament ∧
      ∀ t, objects.tournament? uid = some t → checkLock t user request = .ok () := by
  rw [gateGoOnline, ensure_bind_eq_ok] at h
  cases ht : objects.tournament? uid with
  | none =>
    simp only [ht, bind_eq_ok, pure_eq_ok] at h
    obtain ⟨-, ⟨⟩, -, rfl⟩ := h
    exact ⟨rfl, fun t hnone => by cases hnone⟩
  | some t =>
    simp only [ht, bind_eq_ok, pure_eq_ok] at h
    obtain ⟨-, ⟨⟩, hlock, rfl⟩ := h
    exact ⟨rfl, fun t' heq => Option.some.inj heq ▸ hlock⟩

theorem goOnline_eq_ok {summary : GoOnlineSummary}
    (h : goOnline env store user uid request = (objects', .ok summary)) :
    (∀ t, store.objects.tournament? uid = some t → checkLock t user request = .ok ()) ∧
      ∃ mid updated, reconcile env (onlineResolution env store user uid request) user uid request
          (pinned env uid request.tournament) = .ok (mid, updated) ∧
        objects' = afterOnline env uid request mid updated := by
  unfold goOnline at h
  split at h
  · simp at h
  · rename_i payload hgate
    obtain ⟨rfl, hlock⟩ := gateGoOnline_eq_ok hgate
    refine ⟨hlock, ?_⟩
    extract_lets r at h
    split at h
    · simp at h
    · rename_i mid updated hok
      rw [Prod.mk.injEq] at h
      exact ⟨mid, updated, hok, h.1.symm⟩

theorem goOnline_eq_error {e : RouteError}
    (h : goOnline env store user uid request = (objects', .error e)) :
    objects' = store.objects ∨
      objects' = (onlineResolution env store user uid request).objects := by
  unfold goOnline at h
  split at h
  · exact .inl (Prod.mk.inj h).1.symm
  · rename_i payload hgate
    obtain ⟨rfl, -⟩ := gateGoOnline_eq_ok hgate
    extract_lets r at h
    split at h
    · exact .inr (Prod.mk.inj h).1.symm
    · simp at h

theorem reconcile_eq_ok {payload updated : StoredTournament} {mid : Objects} :
    reconcile env r user uid request payload = .ok (mid, updated) ↔
      duplicateParticipants r payload = false ∧
      (∀ t, r.objects.tournament? uid = some t → checkLock t user request = .ok ()) ∧
      broughtOnline env r request (r.objects.tournament? uid) payload = .ok updated ∧
      saveOfflineDecks r uid
        (saveOfflineSanctions r (saveRow r.objects updated) request.offlineSanctions)
        request.offlineDecks = .ok mid := by
  rw [reconcile, ensure_bind_eq_ok]
  refine and_congr_right fun _ => ?_
  cases ht : r.objects.tournament? uid with
  | none =>
    simp only [bind_eq_ok, pure_eq_ok, Prod.mk.injEq, reduceCtorEq, false_imp_iff, implies_true,
      true_and]
    constructor
    · rintro ⟨t, hbrought, mid', hmid, rfl, rfl⟩
      exact ⟨hbrought, hmid⟩
    · rintro ⟨hbrought, hmid⟩
      exact ⟨updated, hbrought, mid, hmid, rfl, rfl⟩
  | some t =>
    simp only [bind_eq_ok, pure_eq_ok, Prod.mk.injEq, Option.some.injEq, forall_eq']
    constructor
    · rintro ⟨⟨⟩, hlock, t, hbrought, mid', hmid, rfl, rfl⟩
      exact ⟨hlock, hbrought, hmid⟩
    · rintro ⟨hlock, hbrought, hmid⟩
      exact ⟨⟨⟩, hlock, updated, hbrought, mid, hmid, rfl, rfl⟩

/-- The uids the request names do not include the tournament's own, among temporary uids or
submitted objects. -/
structure GoOnlineRequest.Avoids (request : GoOnlineRequest) (uid : Uid) : Prop where
  temps : uid ∉ request.offlinePlayers.map OfflinePlayerData.tempUid
  sanctions : ∀ s ∈ request.offlineSanctions, s.uid ≠ uid
  decks : ∀ d ∈ request.offlineDecks, d.uid ≠ some uid

theorem tournament?_reconcile {table mid : Objects} {updated : StoredTournament}
    (hr : r.Sound table (request.offlinePlayers.map OfflinePlayerData.tempUid))
    (havoids : request.Avoids uid)
    (h : reconcile env r user uid request (pinned env uid request.tournament) =
      .ok (mid, updated)) :
    updated.uid = uid ∧ mid.tournament? uid = some updated ∧ WellKeyed mid := by
  obtain ⟨-, -, hrow, hmid⟩ := reconcile_eq_ok.1 h
  have huid : updated.uid = uid := by
    have hdoc := uid_broughtOnline hrow
    simp only [pinned, Option.map_some, hr.uid_eq havoids.temps] at hdoc
    rw [StoredTournament.uid, hdoc, Option.getD_some]
  have hsatellites := written_satellites (W := fun k _ => k ≠ uid)
    (wellKeyed_saveRow hr.keyed updated) (fun s hs => havoids.sanctions s hs)
    (fun sub hsub k hk _ (heq : k = uid) => havoids.decks sub hsub (heq ▸ hk)) hmid
  refine ⟨huid, ?_, hsatellites.2⟩
  rw [tournament?_congr (hsatellites.1.lookup_eq fun _ hne => hne rfl)]
  conv_lhs => rw [← huid]
  exact tournament?_saveRow

/-! ### After the commit -/

/-- The row after the recompute over the submitted sanctions. -/
def RecomputedRow (env : Env) (updated row : StoredTournament) : Prop :=
  row = updated ∨ ∃ sanctions,
    row = updated.withDoc (applySanctionToTournament updated.toEngine sanctions .adjust) env.now

theorem recompute_spec {updated : StoredTournament} (h : WellKeyed objects)
    (hrow : objects.tournament? uid = some updated) (hVQ : ∀ k o, V k o → Q k)
    (hVW : ∀ k o, V k o → W k o) (hVrow : ∀ t, V uid (.tournament t))
    (hdecks : ∀ k d, IsDeckOf objects uid k → V k (.deck d)) :
    ∃ row, (reflectSanction env objects uid .adjust).tournament? uid = some row ∧
      RecomputedRow env updated row ∧
      ((row.doc.state = .finished → ∀ k, k = updated.doc.winner ∨ k = row.doc.winner →
        (∃ o, V k o) ∨ IsUser objects k → ∀ u, W k (.user u)) →
        Framed W Q objects (reflectSanction env objects uid .adjust)) ∧
      (∀ k, IsUser (reflectSanction env objects uid .adjust) k → (∃ o, V k o) ∨ IsUser objects k) ∧
      WellKeyed (reflectSanction env objects uid .adjust) := by
  have huid : updated.uid = uid := h.uid_eq (tournament?_eq_some.1 hrow)
  have hafter := @tournament?_reflectSanction env objects uid updated .adjust h hrow
  have husers : ∀ k, IsUser (reflectSanction env objects uid .adjust) k →
      (∃ o, V k o) ∨ IsUser objects k := fun k hk =>
    isUser_reflectSanction h hrow hdecks hk
  have hspec := @framed_reflectSanction env objects uid V W updated Q .adjust h hrow hVQ hVW hdecks
  rcases hspec with heq | hframed
  · rw [heq] at husers ⊢
    exact ⟨updated, hrow, .inl rfl, fun _ => Framed.refl h, husers, h⟩
  · rcases hafter.1 with heq | hreflected
    · rw [heq] at husers ⊢
      exact ⟨updated, hrow, .inl rfl, fun _ => Framed.refl h, husers, h⟩
    · refine ⟨_, hreflected, .inr ⟨_, rfl⟩, fun hwinners => ?_, husers, hafter.2⟩
      have hsaved : Written V objects
          (saveTournament objects (reflectedRow env objects uid updated .adjust)) := by
        refine written_saveTournament ?_
        rw [uid_reflectedRow, huid]
        exact hVrow _
      exact (Framed.of_written hVQ hVW hsaved (wellKeyed_saveTournament h _)).trans
        (hframed hwinners)

theorem afterOnline_spec {updated : StoredTournament} {mid : Objects} (h : WellKeyed mid)
    (hrow : mid.tournament? uid = some updated) (hVQ : ∀ k o, V k o → Q k)
    (hVW : ∀ k o, V k o → W k o) (hVrow : ∀ t, V uid (.tournament t))
    (hdecks : ∀ k d, IsDeckOf mid uid k → V k (.deck d)) :
    ∃ row, (afterOnline env uid request mid updated).tournament? uid = some row ∧
      RecomputedRow env updated row ∧
      ((row.doc.state = .finished → ∀ k,
        k ∈ row.doc.players.filterMap Player.userUid ∨ k = updated.doc.winner ∨ k = row.doc.winner →
          (∃ o, V k o) ∨ IsUser mid k → ∀ u, W k (.user u)) →
        Framed W Q mid (afterOnline env uid request mid updated)) := by
  have huid : updated.uid = uid := h.uid_eq (tournament?_eq_some.1 hrow)
  unfold afterOnline
  extract_lets withdrawn reflected row players rated
  -- the private decks of the tournament
  have hwithdrawn : ∀ X : Uid → StoredObject → Prop, (∀ k d, IsDeckOf mid uid k → X k (.deck d)) →
      Written X mid withdrawn ∧ WellKeyed withdrawn := by
    intro X hX
    dsimp only [withdrawn]
    split
    · rw [huid]
      exact written_withdrawPrivateDecks h hX
    · exact ⟨Writes.refl _ mid, h⟩
  have hstart := hwithdrawn V hdecks
  have hkept : withdrawn.tournament? uid = some updated := by
    rw [← hrow]
    have hother := hwithdrawn (fun k _ => k ≠ uid) fun _ _ hk => ne_of_isDeckOf hrow hk
    exact tournament?_congr (hother.1.lookup_eq fun _ hne => hne rfl)
  have hdecks' : ∀ k d, IsDeckOf withdrawn uid k → V k (.deck d) := by
    intro k d hk
    have hdeckOf := (hwithdrawn (fun k _ => IsDeckOf mid uid k) fun _ _ hk => hk).1
    exact hdecks k d ((isDeckOf_of_written hdeckOf hk).elim (fun ⟨_, h⟩ => h) id)
  have husers : ∀ k, (∃ o, V k o) ∨ IsUser withdrawn k → (∃ o, V k o) ∨ IsUser mid k :=
    fun k hk => hk.elim .inl fun hu => isUser_of_written hstart.1 hu
  -- the recompute
  have hreflected : reflected.tournament? uid = some row ∧ RecomputedRow env updated row ∧
      ((row.doc.state = .finished → ∀ k, k = updated.doc.winner ∨ k = row.doc.winner →
        (∃ o, V k o) ∨ IsUser withdrawn k → ∀ u, W k (.user u)) → Framed W Q withdrawn reflected) ∧
      (∀ k, IsUser reflected k → (∃ o, V k o) ∨ IsUser withdrawn k) ∧ WellKeyed reflected := by
    dsimp only [row, reflected]
    split
    · exact ⟨hkept, .inl rfl, fun _ => Framed.refl hstart.2, fun _ => .inr, hstart.2⟩
    · obtain ⟨row', hrow', hrest⟩ :=
        recompute_spec hstart.2 hkept hVQ hVW hVrow hdecks'
      rw [hrow', Option.getD_some]
      exact ⟨rfl, hrest⟩
  obtain ⟨hrow', hrecomputed, hframed, hmembers, hkeyed⟩ := hreflected
  have hfirst := Framed.of_written hVQ hVW hstart.1 hstart.2
  split_ifs with hfin
  · refine ⟨row, ?_, hrecomputed, fun hW => ?_⟩
    · rw [← hrow']
      have hother : Framed (fun k _ => k ≠ uid) (fun _ => True) reflected
          (recomputeWins env rated players) :=
        framed_recomputePlayers hkeyed players (ratingCategory row.doc)
          fun _ _ hk _ => ne_of_isUser hrow' hk
      exact tournament?_congr (hother.written.lookup_eq fun _ hne => hne rfl)
    · have hreflected := hframed fun hfin k hk hu => hW hfin k (.inr hk) (husers k hu)
      refine hfirst.trans (hreflected.trans (framed_recomputePlayers hkeyed players _ ?_))
      exact fun k hk hu => hW hfin k (.inl (List.mem_of_mem_filter hk)) (husers k (hmembers k hu))
  · exact ⟨row, hrow', hrecomputed, fun _ => hfirst.trans (hframed fun hfin' => absurd hfin' hfin)⟩

end OnlineRows

end Archon.Backend

import Archon.Library.Runs
import Archon.Backend.Scenario
import Archon.Backend.ServerWrites

/-!
# Fields the server owns

Go-online puts the server's fields back from the stored row, but sync-offline has overwritten them
there with the device's copy, all but the archive status. Beside the stores runs the value the
fields would have from the server's own writes alone.
-/

namespace Archon.Backend
open Engine Guards Table

/-! ### Offline runs -/

/-- What reaches a hosted tournament here: the four offline routes, the emergency unlock and the
server's own writes. -/
inductive LockRequest where
  | goOffline (deviceId : String)
  | forceTakeover (deviceId : String)
  | forceUnlock (oauthClient : Option String)
  | syncOffline (deviceId : String) (payload : StoredTournament)
  | goOnline (request : GoOnlineRequest)
  | write (w : ServerWrite)

/-- A request by a user on the tournament of a path. -/
structure LockCall where
  env : Env
  user : User
  path : Uid
  request : LockRequest

/-- The stores, and the server's fields as its own writes alone leave them. -/
structure Hosted where
  store : Store
  alone : ServerOwned

def Hosted.withObjects (s : Hosted) (objects : Objects) : Hosted :=
  { s with store := { s.store with objects } }

/-- The marks go-online sets itself: results that differ are stale, and an event without a code
gets one. `before` is the row it read, `updated` the row it saved and `after` the recomputed one. -/
def settle (env : Env) (objects : Objects) (before updated after : StoredTournament)
    (alone : ServerOwned) : ServerOwned :=
  ((ensureEventCode env objects (markStale (some { before with owned := alone })
    { updated with owned := alone })).withDoc after.doc env.now).owned

/-- The server's fields after a go-online, off those before it. -/
def Hosted.settled (uid : Uid) (s : Hosted) (env : Env) (user : User) (request : GoOnlineRequest) :
    ServerOwned :=
  let r := onlineResolution env s.store user uid request
  match r.objects.tournament? uid,
    reconcile env r user uid request (pinned env uid request.tournament) with
  | some before, .ok (mid, updated) =>
    match (afterOnline env uid request mid updated).tournament? uid with
    | some after => settle env r.objects before updated after s.alone
    | none => s.alone
  | _, _ => s.alone

/-- One request on some tournament; `alone` follows the one of `uid`. A refused go-online keeps the
members it made. -/
def Hosted.advance (uid : Uid) (s : Hosted) (c : LockCall) : Except RouteError Hosted := do
  match c.request with
  | .goOffline deviceId =>
    let objects ← goOffline c.env s.store.objects c.user c.path deviceId
    pure (s.withObjects objects)
  | .forceTakeover deviceId =>
    let objects ← forceTakeover c.env s.store.objects c.user c.path deviceId
    pure (s.withObjects objects)
  | .forceUnlock oauthClient =>
    let objects ← forceUnlock c.env s.store.objects c.user oauthClient c.path
    pure (s.withObjects objects)
  | .syncOffline deviceId payload =>
    let objects ← syncOffline c.env s.store.objects c.user c.path deviceId payload
    pure (s.withObjects objects)
  | .goOnline request =>
    match goOnline c.env s.store c.user c.path request with
    | (objects, .ok _) =>
      pure { s.withObjects objects with
        alone := if c.path = uid then s.settled uid c.env c.user request else s.alone }
    | (objects, .error _) => pure (s.withObjects objects)
  | .write w =>
    let t ← okOr (s.store.objects.tournament? c.path) (.http 404 "Tournament not found")
    ensure (w.accepted t = true) (.http 423 "Tournament is in offline mode")
    pure
      { s.withObjects (saveTournament s.store.objects (w.apply c.env s.store.objects t)) with
        alone :=
          if c.path = uid then (w.apply c.env s.store.objects { t with owned := s.alone }).owned
          else s.alone }

/-- A tournament stored on the server, and requests on it and on others. New uids are stored
nowhere. -/
def lockSystem (uid : Uid) : System Hosted LockCall where
  init s := WellKeyed s.store.objects ∧ (s.store.objects.tournament? uid).map
    (·.owned) = some s.alone
  step s c s' := c.env.Fresh s.store.objects c.path ∧ s.advance uid c = .ok s'

/-- The stored fields are those of the server's own writes. -/
def Hosted.Authoritative (uid : Uid) (s : Hosted) : Prop :=
  (s.store.objects.tournament? uid).map (·.owned) = some s.alone

/-- The texts among the server's fields that the remap of a go-online can replace. -/
def ServerOwned.texts (o : ServerOwned) : List String :=
  o.bannerPath.toList ++ o.externalIds.map Prod.snd ++ [o.checkinCode, o.eventCode]
    ++ o.twdaStatus.elim [] fun s => [s.reason, s.prUrl]

/-- A backup of the tournament carries the stored values of the server's fields. A go-online names
no temporary uid that stands among them, and no object by the uid of a tournament. -/
def Hosted.Trusts (uid : Uid) (s : Hosted) (c : LockCall) : Prop :=
  match c.request with
  | .syncOffline _ payload => c.path = uid → ∀ t, s.store.objects.tournament? uid = some t →
      { payload.owned with twdaStatus := t.owned.twdaStatus } = t.owned
  | .goOnline request => request.Avoids c.path ∧ request.Avoids uid ∧
      (c.path = uid → ∀ t, s.store.objects.tournament? uid = some t →
        ∀ p ∈ request.offlinePlayers, p.tempUid ∉ t.owned.texts)
  | _ => True

section ServerOwned

variable {env : Env} {s s' : Hosted} {c : LockCall} {uid : Uid} {user : User} {r : Resolution}
variable {request : GoOnlineRequest} {objects objects' : Objects} {t u updated : StoredTournament}

/-! ### The marks of go-online -/

theorem remapOwned_of_fixed {f : String → String} {o : ServerOwned}
    (h : ∀ s ∈ o.texts, f s = s) : remapOwned f o = o := by
  have hpath : o.bannerPath.map f = o.bannerPath := by
    cases hb : o.bannerPath with
    | none => rfl
    | some path => simp [h path (by simp [ServerOwned.texts, hb])]
  have hids : o.externalIds.map (fun e => (e.1, f e.2)) = o.externalIds := by
    have hid : ∀ e ∈ o.externalIds, (e.1, f e.2) = id e := by
      intro e he
      have hmem : e.2 ∈ o.texts := by
        simp only [ServerOwned.texts, List.mem_append]
        exact .inl (.inl (.inr (List.mem_map_of_mem he)))
      rw [h e.2 hmem, id]
    rw [List.map_congr_left hid, List.map_id]
  have hcheckin := h o.checkinCode (by simp [ServerOwned.texts])
  have hcode := h o.eventCode (by simp [ServerOwned.texts])
  have hstatus : (o.twdaStatus.map fun s => { s with reason := f s.reason, prUrl := f s.prUrl }) =
      o.twdaStatus := by
    cases hs : o.twdaStatus with
    | none => rfl
    | some status =>
      have hreason := h status.reason (by simp [ServerOwned.texts, hs])
      have hurl := h status.prUrl (by simp [ServerOwned.texts, hs])
      simp [hreason, hurl]
  simp only [remapOwned, hpath, hids, hcheckin, hcode, hstatus]

theorem owned_marks_congr (hu : t.owned = u.owned) {before : StoredTournament}
    (hdiffer : resultsDiffer before.doc t.doc = resultsDiffer before.doc u.doc) :
    (ensureEventCode env objects (markStale (some before) t)).owned =
      (ensureEventCode env objects (markStale (some before) u)).owned := by
  have hstale : (markStale (some before) t).owned = (markStale (some before) u).owned := by
    simp only [markStale, Option.any_some, hdiffer]
    split
    · rw [hu]
    · exact hu
  simp only [ensureEventCode, resolveEventCode, StoredTournament.externalId, hstale]
  split
  · rfl
  · exact hstale

theorem owned_broughtOnline {payload : StoredTournament}
    (h : broughtOnline env r request (some t) payload = .ok updated)
    (hfixed : ∀ s ∈ t.owned.texts, r.uid s = s) :
    updated.owned = (ensureEventCode env r.objects
      (markStale (some t) { updated with owned := t.owned })).owned := by
  obtain ⟨-, rfl⟩ := broughtOnline_eq_ok.1 h
  refine @owned_marks_congr env r.objects _ _ ?_ t ?_
  · have hstamp : ∀ t : StoredTournament, (stampFinish env t).owned = t.owned := by
      intro t
      unfold stampFinish
      split <;> rfl
    rw [hstamp]
    exact remapOwned_of_fixed hfixed
  · simp only [scrubAnonymizedCopies, scrub, doc_ensureEventCode, doc_markStale, resultsDiffer]

theorem owned_recomputed {row : StoredTournament} (h : RecomputedRow env updated row) :
    row.owned = (updated.withDoc row.doc env.now).owned := by
  rcases h with rfl | ⟨sanctions, rfl⟩
  · simp [StoredTournament.withDoc, resultsDiffer_self]
  · rfl

theorem owned_withDoc_congr {doc : Tournament} {now : Stamp} (hu : t.owned = u.owned)
    (hdoc : t.doc = u.doc) : (t.withDoc doc now).owned = (u.withDoc doc now).owned := by
  simp only [StoredTournament.withDoc, hu, hdoc]

/-! ### One request -/

theorem goOnline_owned (hkeyed : WellKeyed s.store.objects)
    (hfresh : env.Fresh s.store.objects uid) (ht : s.store.objects.tournament? uid = some t)
    (halone : t.owned = s.alone) (havoids : request.Avoids uid)
    (htexts : ∀ p ∈ request.offlinePlayers, p.tempUid ∉ t.owned.texts)
    {summary : GoOnlineSummary}
    (h : goOnline env s.store user uid request = (objects', .ok summary)) :
    WellKeyed objects' ∧
      (objects'.tournament? uid).map (·.owned) = some (s.settled uid env user request) := by
  obtain ⟨-, mid, updated, hok, rfl⟩ := goOnline_eq_ok h
  have hr : (onlineResolution env s.store user uid request).Sound s.store.objects _ :=
    Resolution.sound_of_resolve hkeyed (fun k => (hfresh k).1) _ _ _
  simp only [Hosted.settled, hok]
  generalize onlineResolution env s.store user uid request = r at hr hok ⊢
  -- the row the transaction read is the stored one
  have hstored := hr.tournament? ht
  obtain ⟨-, hrow, hkeyed'⟩ := tournament?_reconcile hr havoids hok
  obtain ⟨row, hrow', hrecomputed, hframed⟩ := @afterOnline_spec env (fun _ => True)
    (fun _ _ => True) (fun _ _ => True) uid request updated mid hkeyed' hrow
    (fun _ _ _ => trivial) (fun _ _ _ => trivial) (fun _ => trivial) fun _ _ _ => trivial
  refine ⟨(hframed fun _ _ _ _ _ => trivial).keyed, ?_⟩
  have hfixed : ∀ x ∈ t.owned.texts, r.uid x = x := fun x hx =>
    hr.uid_eq fun hmem => by
      obtain ⟨p, hp, rfl⟩ := List.mem_map.1 hmem
      exact htexts p hp hx
  have hbrought := (reconcile_eq_ok.1 hok).2.2.1
  rw [hstored] at hbrought
  have howned := owned_broughtOnline hbrought hfixed
  rw [hrow', Option.map_some, hstored]
  simp only [hrow', settle, owned_recomputed hrecomputed, ← halone]
  refine congrArg some (owned_withDoc_congr howned ?_)
  rw [doc_ensureEventCode, doc_markStale]

theorem goOnline_refused {path : Uid} (hkeyed : WellKeyed s.store.objects)
    (hfresh : ∀ k, s.store.objects.lookup (env.freshUid k) = none)
    (ht : s.store.objects.tournament? uid = some t) {e : RouteError}
    (h : goOnline env s.store user path request = (objects', .error e)) :
    WellKeyed objects' ∧ objects'.tournament? uid = some t := by
  have hr : (onlineResolution env s.store user path request).Sound s.store.objects _ :=
    Resolution.sound_of_resolve hkeyed hfresh _ _ _
  rcases goOnline_eq_error h with rfl | rfl
  · exact ⟨hkeyed, ht⟩
  · exact ⟨hr.keyed, hr.tournament? ht⟩

theorem goOnline_elsewhere {path : Uid} (hkeyed : WellKeyed s.store.objects)
    (hfresh : env.Fresh s.store.objects path) (ht : s.store.objects.tournament? uid = some t)
    (hpath : path ≠ uid) (havoids : request.Avoids path) (havoids' : request.Avoids uid)
    {summary : GoOnlineSummary}
    (h : goOnline env s.store user path request = (objects', .ok summary)) :
    WellKeyed objects' ∧ objects'.tournament? uid = some t := by
  obtain ⟨-, mid, updated, hok, rfl⟩ := goOnline_eq_ok h
  have hr : (onlineResolution env s.store user path request).Sound s.store.objects _ :=
    Resolution.sound_of_resolve hkeyed (fun k => (hfresh k).1) _ _ _
  generalize onlineResolution env s.store user path request = r at hr hok
  obtain ⟨hupdated, hrow, hkeyed'⟩ := tournament?_reconcile hr havoids hok
  have hmid : mid.tournament? uid = some t := by
    have hsatellites := written_satellites (W := fun k _ => k ≠ uid)
      (wellKeyed_saveRow hr.keyed updated) (fun s hs => havoids'.sanctions s hs)
      (fun sub hsub k hk _ (heq : k = uid) => havoids'.decks sub hsub (heq ▸ hk))
      (reconcile_eq_ok.1 hok).2.2.2
    rw [tournament?_congr (hsatellites.1.lookup_eq fun _ hne => hne rfl), ← hr.tournament? ht]
    refine tournament?_congr (lookup_saveObject_ne ?_)
    rw [hupdated]
    exact hpath.symm
  obtain ⟨row, -, -, hframed⟩ := @afterOnline_spec env (fun k => k ≠ uid) (fun k _ => k ≠ uid)
    (fun k _ => k ≠ uid) path request updated mid hkeyed' hrow (fun _ _ hk => hk)
    (fun _ _ hk => hk) (fun _ => hpath) fun _ _ hk => ne_of_isDeckOf hmid hk
  have hframed := hframed fun _ _ _ hk _ =>
    hk.elim (fun hV => hV.elim fun _ hne => hne) (ne_of_isUser hmid)
  refine ⟨hframed.keyed, ?_⟩
  rw [tournament?_congr (hframed.written.lookup_eq fun _ hne => hne rfl), hmid]

/-- What a run keeps: rows stand under their uids, and the fields are those of the server's own
writes. -/
def Hosted.Kept (uid : Uid) (s : Hosted) : Prop :=
  WellKeyed s.store.objects ∧ s.Authoritative uid

theorem Hosted.Kept.of_save (hkeyed : WellKeyed s.store.objects)
    (ht : s.store.objects.tournament? uid = some t) (halone : t.owned = s.alone)
    (hu : u.uid = t.uid) (howned : u.owned = t.owned) :
    (s.withObjects (saveRow s.store.objects u)).Kept uid := by
  refine ⟨wellKeyed_saveRow hkeyed u, ?_⟩
  simp only [Authoritative, withObjects, tournament?_saveRow_of hkeyed ht hu, Option.map_some,
    howned, halone]

theorem Hosted.Kept.of_other (h : s.Kept uid) (hu : u.uid ≠ uid) :
    (s.withObjects (saveRow s.store.objects u)).Kept uid := by
  refine ⟨wellKeyed_saveRow h.1 u, ?_⟩
  have hsame : (saveRow s.store.objects u).tournament? uid = s.store.objects.tournament? uid :=
    tournament?_congr (lookup_saveObject_ne hu.symm)
  simp only [Authoritative, withObjects, hsame]
  exact h.2

theorem Hosted.Kept.step_self (h : s.Kept uid) (htrusts : s.Trusts uid c) (hpath : c.path = uid)
    (hstep : (lockSystem uid).step s c s') : s'.Kept uid := by
  obtain ⟨hfresh, hadvance⟩ := hstep
  obtain ⟨hkeyed, howned⟩ := h
  obtain ⟨t, ht, halone⟩ := Option.map_eq_some_iff.1 howned
  unfold advance at hadvance
  cases hc : c.request with
  | goOffline deviceId =>
    simp only [hc, hpath, bind_eq_ok, pure_eq_ok, goOffline_eq_ok] at hadvance
    obtain ⟨objects, ⟨t', ht', -, -, rfl⟩, rfl⟩ := hadvance
    obtain rfl : t = t' := Option.some.inj (ht.symm.trans ht')
    exact .of_save hkeyed ht halone rfl rfl
  | forceTakeover deviceId =>
    simp only [hc, hpath, bind_eq_ok, pure_eq_ok, forceTakeover_eq_ok] at hadvance
    obtain ⟨objects, ⟨t', ht', -, -, rfl⟩, rfl⟩ := hadvance
    obtain rfl : t = t' := Option.some.inj (ht.symm.trans ht')
    exact .of_save hkeyed ht halone rfl rfl
  | forceUnlock oauthClient =>
    simp only [hc, hpath, bind_eq_ok, pure_eq_ok, forceUnlock_eq_ok] at hadvance
    obtain ⟨objects, ⟨-, -, t', ht', -, rfl⟩, rfl⟩ := hadvance
    obtain rfl : t = t' := Option.some.inj (ht.symm.trans ht')
    exact .of_save hkeyed ht halone rfl rfl
  | syncOffline deviceId payload =>
    simp only [hc, hpath, bind_eq_ok, pure_eq_ok, syncOffline_eq_ok ht] at hadvance
    obtain ⟨objects, ⟨-, -, rfl⟩, rfl⟩ := hadvance
    simp only [Trusts, hc] at htrusts
    refine .of_save hkeyed ht halone ?_ (htrusts hpath t ht)
    exact (hkeyed.uid_eq (tournament?_eq_some.1 ht)).symm
  | goOnline request =>
    simp only [hc, hpath, if_true] at hadvance
    simp only [Trusts, hc] at htrusts
    rw [hpath] at hfresh
    split at hadvance <;> rename_i objects result hgo
    · obtain rfl := pure_eq_ok.1 hadvance
      exact goOnline_owned hkeyed hfresh ht halone htrusts.2.1 (htrusts.2.2 hpath t ht) hgo
    · obtain rfl := pure_eq_ok.1 hadvance
      obtain ⟨hkeyed', ht'⟩ := goOnline_refused hkeyed (fun k => (hfresh k).1) ht hgo
      exact ⟨hkeyed', by simp only [Authoritative, withObjects, ht', Option.map_some, halone]⟩
  | write w =>
    simp only [hc, hpath, if_true, okOr_bind_eq_ok, ensure_bind_eq_ok, pure_eq_ok] at hadvance
    obtain ⟨t', ht', -, rfl⟩ := hadvance
    obtain rfl : t = t' := Option.some.inj (ht.symm.trans ht')
    refine ⟨wellKeyed_saveTournament hkeyed _, ?_⟩
    simp only [Authoritative, withObjects,
      tournament?_saveTournament_of hkeyed ht ServerWrite.uid_apply, Option.map_some, ← halone]

theorem Hosted.Kept.step_other (h : s.Kept uid) (htrusts : s.Trusts uid c) (hpath : c.path ≠ uid)
    (hstep : (lockSystem uid).step s c s') : s'.Kept uid := by
  obtain ⟨hfresh, hadvance⟩ := hstep
  obtain ⟨t, ht, halone⟩ := Option.map_eq_some_iff.1 h.2
  have hother : ∀ t', s.store.objects.tournament? c.path = some t' → t'.uid ≠ uid := by
    intro t' ht' heq
    exact hpath ((h.1.uid_eq (tournament?_eq_some.1 ht')).symm.trans heq)
  unfold advance at hadvance
  cases hc : c.request with
  | goOffline deviceId =>
    simp only [hc, bind_eq_ok, pure_eq_ok, goOffline_eq_ok] at hadvance
    obtain ⟨objects, ⟨t', ht', -, -, rfl⟩, rfl⟩ := hadvance
    exact h.of_other (hother t' ht')
  | forceTakeover deviceId =>
    simp only [hc, bind_eq_ok, pure_eq_ok, forceTakeover_eq_ok] at hadvance
    obtain ⟨objects, ⟨t', ht', -, -, rfl⟩, rfl⟩ := hadvance
    exact h.of_other (hother t' ht')
  | forceUnlock oauthClient =>
    simp only [hc, bind_eq_ok, pure_eq_ok, forceUnlock_eq_ok] at hadvance
    obtain ⟨objects, ⟨-, -, t', ht', -, rfl⟩, rfl⟩ := hadvance
    exact h.of_other (hother t' ht')
  | syncOffline deviceId payload =>
    simp only [hc, bind_eq_ok, pure_eq_ok] at hadvance
    obtain ⟨objects, hsync, rfl⟩ := hadvance
    obtain ⟨row, hrow, rfl⟩ := syncOffline_row hsync
    exact h.of_other (by rwa [hrow])
  | goOnline request =>
    simp only [hc, if_neg hpath] at hadvance
    simp only [Trusts, hc] at htrusts
    split at hadvance <;> rename_i objects result hgo
    · obtain rfl := pure_eq_ok.1 hadvance
      obtain ⟨hkeyed', ht'⟩ := goOnline_elsewhere h.1 hfresh ht hpath htrusts.1 htrusts.2.1 hgo
      exact ⟨hkeyed', by simp only [Authoritative, withObjects, ht', Option.map_some, halone]⟩
    · obtain rfl := pure_eq_ok.1 hadvance
      obtain ⟨hkeyed', ht'⟩ := goOnline_refused h.1 (fun k => (hfresh k).1) ht hgo
      exact ⟨hkeyed', by simp only [Authoritative, withObjects, ht', Option.map_some, halone]⟩
  | write w =>
    simp only [hc, if_neg hpath, okOr_bind_eq_ok, ensure_bind_eq_ok, pure_eq_ok] at hadvance
    obtain ⟨t', ht', -, rfl⟩ := hadvance
    refine ⟨wellKeyed_saveTournament h.1 _, ?_⟩
    have hne : uid ≠ (w.apply c.env s.store.objects t').uid := by
      rw [ServerWrite.uid_apply]
      exact (hother t' ht').symm
    simp only [Authoritative, withObjects, tournament?_congr (lookup_saveTournament_ne hne), ht,
      Option.map_some, halone]

/-- In every run whose backups carry the server's fields as stored and whose go-onlines name no
temporary uid among them, the stored fields are what the server's own writes alone leave: no
client payload sets, clears or changes one. -/
theorem serverOwned_of_reaches (uid : Uid) (s : Hosted)
    (h : (lockSystem uid).Reaches (Hosted.Trusts uid) s) : s.Authoritative uid :=
  (System.Reaches.invariant (P := Hosted.Kept uid) (fun _ hs => hs)
    (fun _ c _ hs htrusts hstep => by
      by_cases hpath : c.path = uid
      · exact hs.step_self htrusts hpath hstep
      · exact hs.step_other htrusts hpath hstep) h).2

/-! ### Runs of the stored event -/

/-- A request on the event of the venue. -/
def onEvent (x : User × LockRequest) : LockCall := ⟨venue, x.1, "event", x.2⟩

def hostedEvent : Hosted := ⟨⟨eventTable, []⟩, event.owned⟩

/-- A replay of requests that meet `pass`, from the stored event. -/
def replayRequests (pass : Hosted → User × LockRequest → Bool) (xs : List (User × LockRequest)) :
    Option Hosted :=
  System.replay (fun s x => s.advance "event" (onEvent x))
    (fun s x => ShortUids s.store.objects ∧ pass s x = true) hostedEvent xs

theorem exists_reaches_of_requests (ok : Hosted → LockCall → Prop)
    (pass : Hosted → User × LockRequest → Bool) (hok : ∀ s x, pass s x = true → ok s (onEvent x))
    (xs : List (User × LockRequest)) (p : Hosted → Bool)
    (h : (replayRequests pass xs).any p = true) :
    ∃ s, (lockSystem "event").Reaches ok s ∧ p s = true := by
  cases hr : replayRequests pass xs with
  | none => simp [hr] at h
  | some s =>
    rw [hr, Option.any_some] at h
    have hinit : (lockSystem "event").init hostedEvent := ⟨eventTable_keyed, rfl⟩
    have hshort : "event".length < 11 := by decide
    have hstep : ∀ s x s', ShortUids s.store.objects ∧ pass s x = true →
        s.advance "event" (onEvent x) = .ok s' → (lockSystem "event").step s (onEvent x) s' :=
      fun s x s' hx hs => ⟨venue_fresh hx.1 hshort, hs⟩
    exact ⟨s, System.reaches_replay_of (fun s x hx => hok s x hx.2) hstep xs hostedEvent s
      (.init hinit) hr, h⟩

/-- The push of the event sets its VEKN id while a device holds it, and the device goes online with
the copy it took before. -/
def pushedOffline : List (User × LockRequest) :=
  [(member "prince" [.prince], .goOffline "tablet"),
    (member "prince" [.prince], .write (.externalId "vekn" "9999")),
    (member "prince" [.prince], .goOnline ⟨"tablet", event, [], [], [], false⟩)]

/-- The VEKN id is in the row after go-online. -/
theorem pushedOffline_serverOwned :
    ∃ s t, (lockSystem "event").Reaches (Hosted.Trusts "event") s ∧
      s.store.objects.tournament? "event" = some t ∧ t.owned = s.alone ∧
      t.lock.offlineMode = false ∧ t.externalId "vekn" = some "9999" := by
  have hok : ∀ (s : Hosted) (x : User × LockRequest), (match x.2 with
      | .syncOffline .. => false
      | .goOnline r => r.offlinePlayers.isEmpty && r.offlineSanctions.isEmpty
          && r.offlineDecks.isEmpty
      | _ => true) = true → s.Trusts "event" (onEvent x) := by
    rintro s ⟨u, request⟩ hx
    cases request with
    | goOnline r =>
      simp only [Bool.and_eq_true, List.isEmpty_iff] at hx
      obtain ⟨⟨hplayers, hsanctions⟩, hdecks⟩ := hx
      have havoids : r.Avoids "event" := by
        constructor <;> simp [hplayers, hsanctions, hdecks]
      exact ⟨havoids, havoids, fun _ _ _ => by simp [hplayers]⟩
    | syncOffline => cases hx
    | _ => trivial
  obtain ⟨s, hs, hp⟩ := exists_reaches_of_requests _ _ hok pushedOffline
    (fun s => (s.store.objects.tournament? "event").any fun t =>
      !t.lock.offlineMode && t.externalId "vekn" == some "9999") (by decide +kernel)
  obtain ⟨t, ht, hp⟩ := (Option.any_eq_true _ _).1 hp
  rw [Bool.and_eq_true, Bool.not_eq_true', beq_iff_eq] at hp
  have howned := serverOwned_of_reaches "event" s hs
  rw [Hosted.Authoritative, ht, Option.map_some, Option.some.injEq] at howned
  exact ⟨s, t, hs, ht, howned, hp⟩

end ServerOwned

/-! ### The defect -/

/-- The same with a backup of the copy in between. -/
def backedUpStale : List (User × LockRequest) :=
  pushedOffline.take 2 ++ (member "prince" [.prince], .syncOffline "tablet" event) ::
    pushedOffline.drop 2

/-- The backup writes its stale fields over the stored ones, and go-online puts those back: the
VEKN id that gates deletion and a second push is gone. -/
theorem backedUpStale_not_authoritative :
    ∃ s t, (lockSystem "event").Reachable s ∧ s.store.objects.tournament? "event" = some t ∧
      t.lock.offlineMode = false ∧ t.externalId "vekn" = none ∧
      s.alone.externalIds = [("vekn", "9999")] ∧ ¬s.Authoritative "event" := by
  obtain ⟨s, hs, hp⟩ := exists_reaches_of_requests (fun _ _ => True) (fun _ _ => true)
    (fun _ _ _ => trivial) backedUpStale
    (fun s => s.alone.externalIds == [("vekn", "9999")] &&
      (s.store.objects.tournament? "event").any fun t =>
        !t.lock.offlineMode && t.owned.externalIds == []) (by decide +kernel)
  rw [Bool.and_eq_true, beq_iff_eq] at hp
  obtain ⟨halone, hp⟩ := hp
  obtain ⟨t, ht, hp⟩ := (Option.any_eq_true _ _).1 hp
  rw [Bool.and_eq_true, Bool.not_eq_true', beq_iff_eq] at hp
  refine ⟨s, t, hs, ht, hp.1, by simp [StoredTournament.externalId, hp.2], halone, ?_⟩
  rw [Hosted.Authoritative, ht, Option.map_some, Option.some.injEq]
  intro howned
  rw [← howned, hp.2] at halone
  cases halone

end Archon.Backend

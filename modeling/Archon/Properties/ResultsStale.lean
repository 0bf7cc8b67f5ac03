import Archon.Backend.RequestRows
import Archon.Backend.Scenario

/-!
# Results that differ from those pushed are marked stale

Once results are pushed to the VEKN they cannot be corrected there, so `vekn_results_stale` is
raised when winner, standings, finals or rounds change, and never cleared. An action, a sanction
and a go-online compare the row before and after. A backup of the offline device replaces the row
with its flag, and an import replaces the results without comparing.
-/

namespace Archon.Backend
open Engine Guards Table

/-- The table, and the results of the tournament as last pushed. -/
structure PushedState where
  objects : Objects
  pushed : Option Tournament

inductive PushInput where
  /-- An accepted request about the tournament. -/
  | request (c : Call)
  /-- `vekn_push.py:333`: the stamp that follows the upload of the results sent. -/
  | stamp (env : Env) (sent : Tournament)
  /-- Any write that leaves the row: members, decks, other tournaments, refused requests. -/
  | elsewhere (objects : Objects)

/-- A tournament stored on the server, what is asked of it and the pushes of its results. -/
def pushSystem (uid : Uid) : System PushedState PushInput where
  init s := WellKeyed s.objects ∧ (s.objects.tournament? uid).isSome = true ∧ s.pushed = none
  step s i s' := match i with
    | .request c => c.env.Fresh s.objects uid ∧ c.Concerns s.objects uid ∧
        serve s.objects c = .ok s'.objects ∧ s'.pushed = s.pushed
    | .stamp env sent => ∃ t, s.objects.tournament? uid = some t ∧ s'.pushed = some sent ∧
        s'.objects = saveTournament s.objects (ServerWrite.resultsPushed.apply env s.objects t)
    | .elsewhere objects => WellKeyed objects ∧
        objects.tournament? uid = s.objects.tournament? uid ∧ s' = { s with objects }

/-- Where the results of the row differ from those last pushed, the flag is raised. -/
def PushedState.Flagged (uid : Uid) (s : PushedState) : Prop :=
  ∀ t sent, s.objects.tournament? uid = some t → s.pushed = some sent →
    resultsDiffer sent t.doc = true → t.owned.veknResultsStale = true

/-- What the code relies on and does not check: a backup of the device keeps the stamp of the push
and a raised flag, and raises the flag with results that differ from the stored ones; an import
into a pushed tournament whose flag is down brings the results it has; the results sent in a push
are still those of the row when it is stamped. A go-online names nothing by the tournament's
uid. -/
def PushInput.Marks (uid : Uid) (s : PushedState) : PushInput → Prop
  | .request c => c.request.Avoids uid ∧
    ∀ t, s.objects.tournament? uid = some t → t.owned.veknPushedAt.isSome = true →
    match c.request with
    | .syncOffline _ payload => payload.owned.veknPushedAt.isSome = true ∧
        ((t.owned.veknResultsStale || resultsDiffer t.doc payload.doc) = true →
          payload.owned.veknResultsStale = true)
    | .archonImport results => t.owned.veknResultsStale = false →
        resultsDiffer t.doc { t.doc with
          winner := results.winner, standings := results.standings
          finals := results.finals, rounds := results.rounds } = false
    | _ => True
  | .stamp _ sent => ∀ t, s.objects.tournament? uid = some t →
      resultsDiffer sent t.doc = true → t.owned.veknResultsStale = true
  | .elsewhere _ => True

section ResultsStale

variable {env : Env} {objects objects' : Objects} {user : User} {uid : Uid} {c : Call}
variable {t t' u : StoredTournament} {s s' : PushedState} {i : PushInput}

/-! ### Documents with the same results -/

theorem resultsDiffer_eq_false {a b : Tournament} : resultsDiffer a b = false ↔
    a.winner = b.winner ∧ a.standings = b.standings ∧ a.finals = b.finals ∧
      a.rounds = b.rounds := by
  simp only [resultsDiffer, Bool.or_eq_false_iff, bne_eq_false_iff_eq, and_assoc]

/-- The row `t'` has the results of `t`, or the flag of a pushed tournament is raised; the stamp of
the push and a raised flag stay. -/
structure Sticky (t t' : StoredTournament) : Prop where
  pushed : t.owned.veknPushedAt.isSome = true → t'.owned.veknPushedAt.isSome = true
  stale : t.owned.veknResultsStale = true → t'.owned.veknResultsStale = true
  marked : t.owned.veknPushedAt.isSome = true → resultsDiffer t.doc t'.doc = true →
    t'.owned.veknResultsStale = true

theorem Sticky.trans (h : Sticky t t') (h' : Sticky t' u) : Sticky t u where
  pushed hp := h'.pushed (h.pushed hp)
  stale hs := h'.stale (h.stale hs)
  marked hp hdiffer := by
    cases hfirst : resultsDiffer t.doc t'.doc with
    | true => exact h'.stale (h.marked hp hfirst)
    | false =>
      obtain ⟨hw, hst, hf, hr⟩ := resultsDiffer_eq_false.1 hfirst
      refine h'.marked (h.pushed hp) ?_
      rw [← hdiffer]
      simp only [resultsDiffer, hw, hst, hf, hr]

theorem sticky_of_same (hdoc : resultsDiffer t.doc t'.doc = false)
    (hpushed : t'.owned.veknPushedAt = t.owned.veknPushedAt)
    (hstale : t'.owned.veknResultsStale = t.owned.veknResultsStale) : Sticky t t' where
  pushed hp := hpushed ▸ hp
  stale hs := hstale ▸ hs
  marked _ hdiffer := by
    rw [hdoc] at hdiffer
    cases hdiffer

theorem Sticky.refl (t : StoredTournament) : Sticky t t :=
  sticky_of_same (resultsDiffer_self t.doc) rfl rfl

theorem sticky_withDoc (t : StoredTournament) (doc : Tournament) (now : Stamp) :
    Sticky t (t.withDoc doc now) where
  pushed hp := hp
  stale hs := by simp only [StoredTournament.withDoc, hs, Bool.true_or]
  marked hp hdiffer := by
    have hdoc : resultsDiffer t.doc doc = true := hdiffer
    simp only [StoredTournament.withDoc, hp, hdoc, Bool.and_self, Bool.or_true]

theorem sticky_localTimes (env : Env) (t : StoredTournament) : Sticky t (env.localTimes t) :=
  sticky_of_same (resultsDiffer_self t.doc) rfl rfl

theorem sticky_stampFinish (env : Env) (t : StoredTournament) : Sticky t (stampFinish env t) := by
  unfold stampFinish
  split
  · exact sticky_of_same (resultsDiffer_self t.doc) rfl rfl
  · exact Sticky.refl t

theorem sticky_eventRow (env : Env) (t : StoredTournament) (doc : Tournament) :
    Sticky t (eventRow env t doc) := by
  have hlocal : Sticky t (env.localTimes (t.withDoc doc env.now)) :=
    (sticky_withDoc t doc env.now).trans (sticky_localTimes env _)
  unfold eventRow
  split
  · exact hlocal
  · exact hlocal.trans (sticky_stampFinish env _)

theorem sticky_reflectedAs {saved : Objects} {change : Option SanctionChange}
    (h : ReflectedAs env saved uid t change t') : Sticky t t' := by
  rcases h with ⟨rfl, -⟩ | ⟨ch, -, rfl⟩
  · exact Sticky.refl _
  · exact sticky_withDoc t _ env.now

/-! ### Bulk registration and go-online -/

theorem doc_bulkPass {store : Store} {request : BulkRegisterRequest} :
    ∃ players, (bulkPass env store user uid request t).doc = { t.toEngine with players } := by
  refine bulkPass_invariant (P := fun d => ∃ players, d = { t.toEngine with players })
    (fun d d' j hevent hd haccept => ?_) ⟨t.toEngine.players, rfl⟩
  obtain ⟨players, rfl⟩ := hd
  obtain ⟨ops, haccept⟩ := acceptEvent_eq_ok.1 haccept
  rcases hevent with ⟨u, veknId, he⟩ | ⟨u, he⟩
  · simp only [applyEvent, he, addPlayer, bind_eq_ok, ensure_eq_ok, pure_eq_ok,
      Prod.mk.injEq] at haccept
    obtain ⟨-, -, -, -, -, -, -, -, rfl, -⟩ := haccept
    exact ⟨_, rfl⟩
  · simp only [applyEvent, he, setPaymentStatus, bind_eq_ok, okOr_eq_ok, ensure_eq_ok,
      pure_eq_ok, Prod.mk.injEq] at haccept
    obtain ⟨-, -, -, -, -, -, rfl, -⟩ := haccept
    exact ⟨_, rfl⟩

theorem sticky_broughtOnline {r : Resolution} {request : GoOnlineRequest}
    {payload updated : StoredTournament}
    (h : broughtOnline env r request (some t) payload = .ok updated) : Sticky t updated := by
  obtain ⟨-, rfl⟩ := broughtOnline_eq_ok.1 h
  generalize hx : stampFinish env (assertDisqualified r request.offlineSanctions (env.localTimes
    ({ remapTournament r.uid (imposed (some t) payload) with lock := .released }.touched
      env.now))) = x
  have howned : x.owned = remapOwned r.uid t.owned := by
    rw [← hx]
    unfold stampFinish
    split <;> rfl
  have hmarked : Sticky t (markStale (some t) x) := by
    unfold markStale
    rw [Option.any_some]
    split
    · exact ⟨fun hp => by rw [howned]; exact hp, fun _ => rfl, fun _ _ => rfl⟩
    · rename_i hsame
      refine ⟨fun hp => by rw [howned]; exact hp, fun hs => by rw [howned]; exact hs,
        fun hp hdiffer => ?_⟩
      rw [hp, hdiffer] at hsame
      exact absurd rfl hsame
  have hcode : ∀ y : StoredTournament, Sticky y (ensureEventCode env r.objects y) := by
    intro y
    unfold ensureEventCode
    split
    · exact sticky_of_same (resultsDiffer_self y.doc) rfl rfl
    · exact Sticky.refl y
  have hscrub : ∀ y : StoredTournament, Sticky y (scrubAnonymizedCopies r.objects y) :=
    fun y => sticky_of_same (resultsDiffer_self y.doc) rfl rfl
  exact (hmarked.trans (hcode _)).trans (hscrub _)

/-! ### Every request -/

theorem sticky_rowAfter (ht : s.objects.tournament? uid = some t)
    (hpushed : t.owned.veknPushedAt.isSome = true) (hmarks : (PushInput.request c).Marks uid s)
    (hrow : RowAfter c.env s.objects c.user uid t c.request t') : Sticky t t' := by
  have hmarks := hmarks.2 t ht hpushed
  obtain ⟨env, authMethods, user, path, request⟩ := c
  cases request with
  | action oauthTournament event =>
    obtain ⟨-, placed, identified, actor, doc, -, -, -, rfl⟩ := hrow
    exact sticky_eventRow env t doc
  | addOrganizer organizerUid =>
    have heq : t' = _ := hrow
    rw [heq]
    split
    · exact Sticky.refl t
    · exact sticky_of_same (resultsDiffer_self t.doc) rfl rfl
  | removeOrganizer organizerUid =>
    have heq : t' = _ := hrow
    rw [heq]
    split
    · exact sticky_of_same (resultsDiffer_self t.doc) rfl rfl
    · exact Sticky.refl t
  | uploadBanner image =>
    obtain ⟨-, rfl⟩ := hrow
    exact sticky_of_same (resultsDiffer_self t.doc) rfl rfl
  | deleteBanner deleted =>
    obtain ⟨-, rfl⟩ := hrow
    split
    · exact Sticky.refl t
    · exact sticky_of_same (resultsDiffer_self t.doc) rfl rfl
  | postAnnouncement id body =>
    obtain ⟨-, announcements, rfl⟩ := hrow
    exact sticky_of_same (resultsDiffer_self t.doc) rfl rfl
  | deleteAnnouncement id =>
    obtain ⟨-, announcements, rfl⟩ := hrow
    exact sticky_of_same (resultsDiffer_self t.doc) rfl rfl
  | saveTimer =>
    obtain ⟨-, rfl⟩ := hrow
    exact sticky_of_same (resultsDiffer_self t.doc) rfl rfl
  | bulkRegister request =>
    obtain ⟨authMethods', rfl⟩ := hrow
    obtain ⟨players, hdoc⟩ := @doc_bulkPass env user uid t ⟨s.objects, authMethods'⟩ request
    refine sticky_of_same ?_ rfl rfl
    rw [hdoc]
    exact resultsDiffer_self t.doc
  | archonImport results =>
    have heq : t' = importedRow env t results := hrow
    rw [heq]
    refine ⟨fun hp => hp, fun hs => hs, fun _ hdiffer => ?_⟩
    cases hstale : t.owned.veknResultsStale with
    | true => exact hstale
    | false =>
      have hsame := hmarks hstale
      have hdiffer : resultsDiffer t.doc { t.doc with
          winner := results.winner, standings := results.standings
          finals := results.finals, rounds := results.rounds } = true := hdiffer
      rw [hsame] at hdiffer
      cases hdiffer
  | deleteTournament =>
    obtain ⟨-, rfl⟩ := hrow
    exact sticky_of_same (resultsDiffer_self t.doc) rfl rfl
  | createSanction oauthTournament request => exact sticky_reflectedAs hrow
  | updateSanction sanctionUid request =>
    obtain ⟨_, -, hreflected⟩ := hrow
    exact sticky_reflectedAs hreflected
  | deleteSanction sanctionUid =>
    obtain ⟨_, -, hreflected⟩ := hrow
    exact sticky_reflectedAs hreflected
  | goOffline deviceId =>
    obtain ⟨-, rfl⟩ := hrow
    exact sticky_of_same (resultsDiffer_self t.doc) rfl rfl
  | forceTakeover deviceId =>
    obtain ⟨-, rfl⟩ := hrow
    exact sticky_of_same (resultsDiffer_self t.doc) rfl rfl
  | forceUnlock oauthClient =>
    obtain ⟨-, rfl⟩ := hrow
    exact sticky_of_same (resultsDiffer_self t.doc) rfl rfl
  | syncOffline deviceId payload =>
    obtain ⟨-, rfl⟩ := hrow
    obtain ⟨hkept, hraised⟩ := hmarks
    refine ⟨fun _ => hkept, fun hs => hraised ?_, fun _ hdiffer => hraised ?_⟩
    · rw [hs, Bool.true_or]
    · have hpayload : resultsDiffer t.doc payload.doc = true := hdiffer
      rw [hpayload, Bool.or_true]
  | goOnline request =>
    obtain ⟨-, r, updated, -, hbrought, hrecomputed⟩ := hrow
    have hupdated : Sticky t updated := sticky_broughtOnline hbrought
    rcases hrecomputed with rfl | ⟨sanctions, rfl⟩
    · exact hupdated
    · exact hupdated.trans (sticky_withDoc updated _ env.now)

/-! ### Runs -/

/-- What a run keeps: the row of a pushed tournament carries the stamp, and its flag is raised
where its results differ from those pushed. -/
structure PushedState.Kept (uid : Uid) (s : PushedState) : Prop where
  keyed : WellKeyed s.objects
  present : ∃ t, s.objects.tournament? uid = some t
  flagged : ∀ t sent, s.objects.tournament? uid = some t → s.pushed = some sent →
    t.owned.veknPushedAt.isSome = true ∧
      (resultsDiffer sent t.doc = true → t.owned.veknResultsStale = true)

theorem PushedState.Kept.of_sticky (h : s.Kept uid) (ht : s.objects.tournament? uid = some t)
    (hkeyed : WellKeyed s'.objects) (ht' : s'.objects.tournament? uid = some t')
    (hpushed : s'.pushed = s.pushed)
    (hsticky : t.owned.veknPushedAt.isSome = true → Sticky t t') : s'.Kept uid := by
  refine ⟨hkeyed, ⟨t', ht'⟩, fun u sent hu hsent => ?_⟩
  obtain rfl : t' = u := Option.some.inj (ht'.symm.trans hu)
  obtain ⟨hstamp, hflag⟩ := h.flagged t sent ht (hpushed ▸ hsent)
  have hstep := hsticky hstamp
  refine ⟨hstep.pushed hstamp, fun hdiffer => ?_⟩
  cases hbefore : resultsDiffer sent t.doc with
  | true => exact hstep.stale (hflag hbefore)
  | false =>
    obtain ⟨hw, hst, hf, hr⟩ := resultsDiffer_eq_false.1 hbefore
    refine hstep.marked hstamp ?_
    rw [← hdiffer]
    simp only [resultsDiffer, hw, hst, hf, hr]

theorem PushedState.Kept.step (h : s.Kept uid) (hmarks : i.Marks uid s)
    (hstep : (pushSystem uid).step s i s') : s'.Kept uid := by
  obtain ⟨t, ht⟩ := h.present
  cases i with
  | request c =>
    obtain ⟨hfresh, hconcerns, hserve, hpushed⟩ := hstep
    obtain ⟨hkeyed, t', ht', hrow⟩ := row_of_serve h.keyed hfresh ht hconcerns
      hmarks.1 hserve
    exact h.of_sticky ht hkeyed ht' hpushed fun hstamp => sticky_rowAfter ht hstamp hmarks hrow
  | stamp env sent =>
    obtain ⟨t₀, ht₀, hpushed, hsaved⟩ := hstep
    obtain rfl : t₀ = t := Option.some.inj (ht₀.symm.trans ht)
    have hrow : s'.objects.tournament? uid =
        some (ServerWrite.resultsPushed.apply env s.objects t₀) := by
      rw [hsaved]
      exact tournament?_saveTournament_of h.keyed ht ServerWrite.uid_apply
    refine ⟨?_, ⟨_, hrow⟩, fun u sent' hu hsent => ?_⟩
    · rw [hsaved]
      exact wellKeyed_saveTournament h.keyed _
    · obtain rfl := Option.some.inj (hrow.symm.trans hu)
      obtain rfl : sent = sent' := Option.some.inj (hpushed.symm.trans hsent)
      exact ⟨rfl, hmarks t₀ ht⟩
  | elsewhere objects =>
    obtain ⟨hkeyed, hsame, rfl⟩ := hstep
    exact h.of_sticky ht hkeyed (hsame.trans ht) rfl fun _ => Sticky.refl t

/-- In every run whose backups and imports mark what they change, the flag is raised whenever the
results differ from those last pushed. -/
theorem flagged_of_reaches (uid : Uid) (s : PushedState)
    (h : (pushSystem uid).Reaches (fun s i => i.Marks uid s) s) : s.Flagged uid := by
  have hkept : s.Kept uid := h.invariant
    (fun s₀ hinit => by
      obtain ⟨hkeyed, hpresent, hnone⟩ := hinit
      refine ⟨hkeyed, Option.isSome_iff_exists.1 hpresent, fun t sent _ hsent => ?_⟩
      rw [hnone] at hsent
      cases hsent)
    fun s₀ i s₁ hs hmarks hstep => hs.step hmarks hstep
  exact fun t sent ht hsent => (hkept.flagged t sent ht hsent).2

end ResultsStale

/-! ### Runs of the stored event -/

def pushedEvent : PushedState := ⟨eventTable, none⟩

/-- A request of the organizer, or the stamp of a push of the results of the event. -/
def pushInput : Option Request → PushInput
  | some request => .request (byPrince request)
  | none => .stamp venue event.doc

def pushStep (s : PushedState) : Option Request → Except RouteError PushedState
  | some request => do
    let objects ← serve s.objects (byPrince request)
    pure { s with objects }
  | none => do
    let t ← okOr (s.objects.tournament? "event") (.http 404 "Tournament not found")
    pure ⟨saveTournament s.objects (ServerWrite.resultsPushed.apply venue s.objects t),
      some event.doc⟩

/-- A replay of bare requests and stamps that meet `pass`. -/
def replayPushes (pass : PushedState → Option Request → Bool) (xs : List (Option Request)) :
    Option PushedState :=
  System.replay pushStep
    (fun s x => ShortUids s.objects ∧ x.all Request.isBare = true ∧ pass s x = true) pushedEvent xs

theorem reaches_replayPushes {ok : PushedState → PushInput → Prop}
    {pass : PushedState → Option Request → Bool} (hok : ∀ s x, pass s x = true → ok s (pushInput x))
    {xs : List (Option Request)} {s : PushedState} (h : replayPushes pass xs = some s) :
    (pushSystem "event").Reaches ok s := by
  have hinit : (pushSystem "event").init pushedEvent := ⟨eventTable_keyed, by decide +kernel, rfl⟩
  have hshort : "event".length < 11 := by decide
  refine System.reaches_replay_of (fun s x hx => hok s x hx.2.2) (fun s x s' hx hstep => ?_) xs
    pushedEvent s (.init hinit) h
  cases x with
  | some request =>
    obtain ⟨objects, hserve, hs'⟩ := bind_eq_ok.1 hstep
    obtain rfl := pure_eq_ok.1 hs'
    exact ⟨venue_fresh hx.1 hshort, concerns_byPrince hx.2.1, hserve, rfl⟩
  | none =>
    obtain ⟨t, ht, hs'⟩ := okOr_bind_eq_ok.1 hstep
    obtain rfl := pure_eq_ok.1 hs'
    exact ⟨t, ht, rfl, rfl⟩

/-- The event as a device reports it, with its winner. -/
def wonEvent : StoredTournament :=
  { event with doc := { event.doc with winner := "a" }
               owned := { event.owned with veknPushedAt := some venue.now } }

/-- A stamp of the stored results, and a bare round trip without backups. -/
def withoutBackups (s : PushedState) : Option Request → Bool
  | none => (s.objects.tournament? "event").all fun t => !resultsDiffer event.doc t.doc
  | some (.goOffline _) => true
  | some (.goOnline request) => (Request.goOnline request).isBare
  | _ => false

theorem marks_withoutBackups {s : PushedState} {x : Option Request}
    (h : withoutBackups s x = true) : (pushInput x).Marks "event" s := by
  cases x with
  | none =>
    intro t ht hdiffer
    rw [withoutBackups, ht, Option.all_some, hdiffer] at h
    cases h
  | some request =>
    cases request with
    | goOffline deviceId => exact ⟨trivial, fun _ _ _ => trivial⟩
    | goOnline request =>
      have hbare : (Request.goOnline request).isBare = true := h
      exact ⟨Request.isBare.avoids hbare "event", fun _ _ _ => trivial⟩
    | _ => cases h

/-- A pushed event brought online with another winner has its flag raised. -/
theorem wonOnline_flagged :
    ∃ (s : PushedState) (t : StoredTournament), s.Flagged "event" ∧
      s.objects.tournament? "event" = some t ∧ t.lock.offlineMode = false ∧
      t.owned.veknResultsStale = true := by
  have hrun : (replayPushes withoutBackups
      [none, some (.goOffline "tablet"),
        some (.goOnline ⟨"tablet", wonEvent, [], [], [], false⟩)]).any (fun s =>
      (s.objects.tournament? "event").any fun t =>
        !t.lock.offlineMode && t.owned.veknResultsStale) = true := by
    decide +kernel
  obtain ⟨s, hs, hresult⟩ := (Option.any_eq_true _ _).1 hrun
  obtain ⟨t, ht, hrow⟩ := (Option.any_eq_true _ _).1 hresult
  rw [Bool.and_eq_true, Bool.not_eq_true'] at hrow
  have hreaches := @reaches_replayPushes (fun s i => i.Marks "event" s) _
    (fun _ _ => marks_withoutBackups) _ s hs
  exact ⟨s, t, flagged_of_reaches "event" s hreaches, ht, hrow⟩

/-- The device backs the winner up before it goes online with it: the flag stays down. -/
theorem backedUpWinner_unflagged :
    ¬∀ s, (pushSystem "event").Reachable s → s.Flagged "event" := by
  intro hall
  have hrun : (replayPushes (fun _ _ => true)
      [none, some (.goOffline "tablet"), some (.syncOffline "tablet" wonEvent),
        some (.goOnline ⟨"tablet", wonEvent, [], [], [], false⟩)]).any (fun s =>
      (s.objects.tournament? "event").any fun t =>
        s.pushed.any (fun sent => resultsDiffer sent t.doc) && !t.owned.veknResultsStale) =
          true := by
    decide +kernel
  obtain ⟨s, hs, hresult⟩ := (Option.any_eq_true _ _).1 hrun
  obtain ⟨t, ht, hrow⟩ := (Option.any_eq_true _ _).1 hresult
  rw [Bool.and_eq_true] at hrow
  obtain ⟨sent, hsent, hdiffer⟩ := (Option.any_eq_true _ _).1 hrow.1
  have hreaches := @reaches_replayPushes (fun _ _ => True) _ (fun _ _ _ => trivial) _ s hs
  have hstale : t.owned.veknResultsStale = true := hall s hreaches t sent ht hsent hdiffer
  rw [hstale] at hrow
  exact absurd hrow.2 (by decide)

end Archon.Backend

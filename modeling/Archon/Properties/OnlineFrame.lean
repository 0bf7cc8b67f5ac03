import Archon.Backend.Scenario

/-!
# Go-online and the rows of others

The submitted sanctions and decks are saved under the uids they come with, so a uid that belongs to
another tournament's row replaces it. With uids that are new or the tournament's own, go-online
writes the tournament's row, sanctions and decks, the members it matches or mints, and the wins
and ratings of the players of a tournament it brings online finished.
-/

namespace Archon.Backend
open Engine Guards Table

/-- The row is a sanction or a deck of the tournament. -/
def IsSatellite (objects : Objects) (tournamentUid uid : Uid) : Prop :=
  (∃ s, objects.sanction? uid = some s ∧ s.tournamentUid = some tournamentUid) ∨
    IsDeckOf objects tournamentUid uid

/-- A uid that a sanction or deck of the tournament can be saved under without replacing a row of
another. -/
def Submittable (objects : Objects) (tournamentUid uid : Uid) : Prop :=
  uid ≠ tournamentUid ∧ (objects.lookup uid = none ∨ IsSatellite objects tournamentUid uid)

/-- The uids of the request clash with no row of another: the path names a tournament or nothing,
the submitted sanctions and decks are new or the tournament's own, and no player's temporary uid is
the tournament's. -/
structure GoOnlineRequest.Unclashing (request : GoOnlineRequest) (objects : Objects) (uid : Uid) :
    Prop where
  path : ∀ o, objects.find? uid = some o → ∃ t, o = .tournament t
  temps : uid ∉ request.offlinePlayers.map OfflinePlayerData.tempUid
  sanctions : ∀ s ∈ request.offlineSanctions, Submittable objects uid s.uid
  decks : ∀ d ∈ request.offlineDecks, ∀ k ∈ d.uid, Submittable objects uid k

/-- The players of a tournament that is finished once online, its winner and the one submitted. -/
def CreditedBy (r : Resolution) (request : GoOnlineRequest) (uid : Uid) (objects' : Objects)
    (k : Uid) : Prop :=
  ∃ t, objects'.tournament? uid = some t ∧ t.doc.state = .finished ∧
    (k ∈ t.doc.players.filterMap Player.userUid ∨ k = r.uid request.tournament.doc.winner ∨
      k = t.doc.winner)

section OnlineFrame

variable {env : Env} {store : Store} {objects objects' mid : Objects} {user u : User} {uid k : Uid}
variable {request : GoOnlineRequest} {r : Resolution} {s : StoredSanction} {d : StoredDeck}
variable {updated : StoredTournament}

theorem GoOnlineRequest.Unclashing.avoids (h : request.Unclashing objects uid) :
    request.Avoids uid where
  temps := h.temps
  sanctions s hs := (h.sanctions s hs).1
  decks d hd heq := (h.decks d hd uid heq).1 rfl

/-- The rows go-online writes for itself: the tournament's, new ones, those of the members it
resolved to and the tournament's sanctions and decks. -/
def Own (objects : Objects) (r : Resolution) (uid k : Uid) : Prop :=
  k = uid ∨ objects.lookup k = none ∨ r.resolved k ∨ IsSatellite objects uid k

theorem own_of_submittable (h : Submittable objects uid k) : Own objects r uid k :=
  h.2.elim (fun hnew => .inr (.inl hnew)) fun hsat => .inr (.inr (.inr hsat))

theorem not_own_of_find {o : StoredObject} {temps : List Uid} (hr : r.Sound objects temps)
    (hpath : ∀ o, objects.find? uid = some o → ∃ t, o = .tournament t)
    (ho : objects.find? k = some o) (htournament : ∀ t, o ≠ .tournament t)
    (hresolved : ∀ u, o = .user u → ¬r.resolved k)
    (hsanction : ∀ s, o = .sanction s → s.tournamentUid ≠ some uid)
    (hdeck : ∀ d, o = .deck d → d.tournamentUid ≠ uid) : ¬Own objects r uid k := by
  obtain ⟨deletedAt, hrow⟩ := find?_eq_some.1 ho
  rintro (rfl | hnone | hres | ⟨s, hs, hof⟩ | ⟨d, hd, hof⟩)
  · obtain ⟨t, ht⟩ := hpath o ho
    exact htournament t ht
  · rw [hrow] at hnone
    cases hnone
  · rcases hr.known k hres with huser | hnone
    · obtain ⟨u, hu⟩ := Option.isSome_iff_exists.1 huser
      rw [user?_eq_some, ho, Option.some.injEq] at hu
      exact hresolved u hu hres
    · rw [hrow] at hnone
      cases hnone
  · rw [sanction?_eq_some, ho, Option.some.injEq] at hs
    exact hsanction s hs hof
  · rw [ho, Option.some.injEq] at hd
    exact hdeck d hd hof

theorem written_reconcile
    (hr : r.Sound objects (request.offlinePlayers.map OfflinePlayerData.tempUid))
    (hrequest : request.Unclashing objects uid)
    (h : reconcile env r user uid request (pinned env uid request.tournament) =
      .ok (mid, updated)) : Written (fun k _ => Own objects r uid k) objects mid := by
  obtain ⟨-, -, -, hmid⟩ := reconcile_eq_ok.1 h
  have huid : updated.uid = uid := (tournament?_reconcile hr hrequest.avoids h).1
  have hresolved : Written (fun k _ => Own objects r uid k) objects r.objects :=
    hr.written.mono fun k row hk => .inr (.inr (.inl hk.1))
  have hrow : Written (fun k _ => Own objects r uid k) r.objects (saveRow r.objects updated) :=
    written_saveRow (W := fun k _ => Own objects r uid k) (.inl huid)
  have hsatellites := written_satellites (W := fun k _ => Own objects r uid k)
    (wellKeyed_saveRow hr.keyed updated)
    (fun s hs => own_of_submittable (hrequest.sanctions s hs))
    (fun sub hsub k hk _ => own_of_submittable (hrequest.decks sub hsub k hk)) hmid
  exact (hresolved.trans hrow).trans hsatellites.1

theorem winner_broughtOnline {stored : Option StoredTournament} {payload t : StoredTournament}
    (h : broughtOnline env r request stored payload = .ok t) :
    t.doc.winner = r.uid payload.doc.winner := by
  obtain ⟨-, rfl⟩ := broughtOnline_eq_ok.1 h
  simp only [scrubAnonymizedCopies, scrub, doc_ensureEventCode, doc_markStale]
  have hstamp : ∀ t : StoredTournament, (stampFinish env t).doc.winner = t.doc.winner := by
    intro t
    unfold stampFinish
    split <;> rfl
  rw [hstamp]
  cases stored <;> rfl

theorem framed_goOnline (hkeyed : WellKeyed store.objects) (hfresh : env.Fresh store.objects uid)
    (hrequest : request.Unclashing store.objects uid) {summary : GoOnlineSummary}
    (h : goOnline env store user uid request = (objects', .ok summary)) :
    Framed
      (fun k _ => Own store.objects (onlineResolution env store user uid request) uid k ∨
        IsUser store.objects k ∧
          CreditedBy (onlineResolution env store user uid request) request uid objects' k)
      (Own store.objects (onlineResolution env store user uid request) uid)
      store.objects objects' := by
  obtain ⟨-, mid, updated, hok, rfl⟩ := goOnline_eq_ok h
  have hr : (onlineResolution env store user uid request).Sound store.objects _ :=
    Resolution.sound_of_resolve hkeyed (fun k => (hfresh k).1) _ _ _
  generalize onlineResolution env store user uid request = r at hr hok ⊢
  have hmid := written_reconcile hr hrequest hok
  obtain ⟨-, hrow, hkeyed'⟩ := tournament?_reconcile hr hrequest.avoids hok
  have hwinner := winner_broughtOnline (reconcile_eq_ok.1 hok).2.2.1
  obtain ⟨row, hrow', -, hframed⟩ := @afterOnline_spec env (Own store.objects r uid)
    (fun k _ => Own store.objects r uid k)
    (fun k _ => Own store.objects r uid k ∨ IsUser store.objects k ∧
      CreditedBy r request uid (afterOnline env uid request mid updated) k) uid request updated mid
    hkeyed' hrow (fun k _ hk => hk) (fun k _ hk => .inl hk) (fun _ => .inl rfl)
    (fun k _ hk => (isDeckOf_of_written hmid hk).elim (fun ⟨_, hown⟩ => hown)
      fun hd => .inr (.inr (.inr (.inr hd))))
  refine (Framed.of_written (V := fun k _ => Own store.objects r uid k) (fun k _ hk => hk)
    (fun k _ hk => .inl hk) hmid hkeyed').trans (hframed fun hfin k hk hu _ => ?_)
  have hmember : Own store.objects r uid k ∨ IsUser store.objects k := by
    rcases hu with ⟨-, hown⟩ | hu
    · exact .inl hown
    · exact (isUser_of_written hmid hu).imp (fun ⟨_, hown⟩ => hown) id
  rcases hmember with hown | hstored
  · exact .inl hown
  · refine .inr ⟨hstored, row, hrow', hfin, ?_⟩
    rwa [hwinner] at hk

/-- Over every stored table, an accepted go-online whose uids clash with no row of another leaves
every sanction and deck of other tournaments, and every member it neither matches nor mints but for
the wins and ratings of the players and winners of a tournament it brings online finished. -/
theorem goOnline_frame (env : Env) (store : Store) (user : User) (uid : Uid)
    (request : GoOnlineRequest) (objects' : Objects) (summary : GoOnlineSummary)
    (hkeyed : WellKeyed store.objects) (hfresh : env.Fresh store.objects uid)
    (hrequest : request.Unclashing store.objects uid)
    (h : goOnline env store user uid request = (objects', .ok summary)) :
    (∀ k s, store.objects.sanction? k = some s → s.tournamentUid ≠ some uid →
      objects'.lookup k = store.objects.lookup k) ∧
    (∀ k d, store.objects.find? k = some (.deck d) → d.tournamentUid ≠ uid →
      objects'.lookup k = store.objects.lookup k) ∧
    (∀ k u, store.objects.user? k = some u →
      ¬(onlineResolution env store user uid request).resolved k →
      (∃ u', objects'.user? k = some u' ∧ Rerated u u') ∧
      (¬CreditedBy (onlineResolution env store user uid request) request uid objects' k →
        objects'.lookup k = store.objects.lookup k)) := by
  have hframed := framed_goOnline hkeyed hfresh hrequest h
  have hr : (onlineResolution env store user uid request).Sound store.objects _ :=
    Resolution.sound_of_resolve hkeyed (fun k => (hfresh k).1) _ _ _
  have hnotUser : ∀ k o, store.objects.find? k = some o → (∀ u, o ≠ .user u) →
      ¬IsUser store.objects k := by
    intro k o ho hne hu
    obtain ⟨u, hu⟩ := Option.isSome_iff_exists.1 hu
    rw [user?_eq_some, ho, Option.some.injEq] at hu
    exact hne u hu
  refine ⟨fun k s hs hof => ?_, fun k d hd hof => ?_, fun k u hu hres => ?_⟩
  · rw [sanction?_eq_some] at hs
    refine hframed.written.lookup_eq fun _ => ?_
    rintro (hown | ⟨huser, -⟩)
    · exact not_own_of_find hr hrequest.path hs (by simp) (by simp) (by simpa using hof) (by simp)
        hown
    · exact hnotUser k _ hs (by simp) huser
  · refine hframed.written.lookup_eq fun _ => ?_
    rintro (hown | ⟨huser, -⟩)
    · exact not_own_of_find hr hrequest.path hd (by simp) (by simp) (by simp) (by simpa using hof)
        hown
    · exact hnotUser k _ hd (by simp) huser
  · have hnot : ¬Own store.objects (onlineResolution env store user uid request) uid k :=
      not_own_of_find hr hrequest.path (user?_eq_some.1 hu) (by simp) (fun _ _ => hres) (by simp)
        (by simp)
    refine ⟨hframed.rerated k u hnot hu, fun hcredited => hframed.written.lookup_eq fun _ => ?_⟩
    rintro (hown | ⟨-, hcred⟩)
    · exact hnot hown
    · exact hcredited hcred

end OnlineFrame

/-! ### Requests at the stored event -/

def isAccepted {α : Type} : Except RouteError α → Bool
  | .ok _ => true
  | .error _ => false

/-- The go-online of the event by its organizer. -/
def bringOnline (request : GoOnlineRequest) : Objects × Except RouteError GoOnlineSummary :=
  goOnline venue ⟨lockedTable, []⟩ (member "prince" [.prince]) "event" request

theorem exists_of_bringOnline (request : GoOnlineRequest)
    (h : isAccepted (bringOnline request).2 = true) :
    ∃ summary, goOnline venue ⟨lockedTable, []⟩ (member "prince" [.prince]) "event" request =
      ((bringOnline request).1, .ok summary) := by
  cases hresult : (bringOnline request).2 with
  | ok summary => exact ⟨summary, Prod.ext rfl hresult⟩
  | error e =>
    rw [hresult] at h
    cases h

/-- With a warning of its own, the event leaves the one given elsewhere. -/
theorem goOnline_frame_ownWarning :
    ∃ objects' summary, goOnline venue ⟨lockedTable, []⟩ (member "prince" [.prince]) "event"
        ⟨"tablet", event, [], [warning "own" "event"], [], false⟩ = (objects', .ok summary) ∧
      objects'.lookup "warning" = lockedTable.lookup "warning" := by
  have hfresh : venue.Fresh lockedTable "event" := venue_fresh (by decide +kernel) (by decide)
  have hrequest : GoOnlineRequest.Unclashing
      ⟨"tablet", event, [], [warning "own" "event"], [], false⟩ lockedTable "event" := by
    refine ⟨fun o ho => ⟨lockedEvent, ?_⟩, by simp, fun s hs => ?_, fun d hd => by cases hd⟩
    · exact (Option.some.inj ho).symm
    · obtain rfl := List.mem_singleton.1 hs
      exact ⟨by decide, .inl rfl⟩
  obtain ⟨summary, h⟩ := exists_of_bringOnline
    ⟨"tablet", event, [], [warning "own" "event"], [], false⟩ (by decide +kernel)
  have hframe := goOnline_frame venue ⟨lockedTable, []⟩ _ "event" _ _ summary lockedTable_keyed
    hfresh hrequest h
  exact ⟨_, summary, h, hframe.1 "warning" (warning "warning" "elsewhere") rfl (by decide)⟩

/-- The event played to its end offline, with a member on its roster. -/
def playedOut : StoredTournament :=
  let entry : Player :=
    ⟨some "a", .finished, .paid, 0, Score.zero, false, false, false, false, none⟩
  { event with doc := { event.doc with state := .finished, players := [entry] } }

/-- The ratings of a player of an event finished offline are recomputed at once, though the request
neither matches nor mints him. -/
theorem playedOut_rated :
    ∃ objects' summary, goOnline venue ⟨lockedTable, []⟩ (member "prince" [.prince]) "event"
        ⟨"tablet", playedOut, [], [], [], false⟩ = (objects', .ok summary) ∧
      (∃ u, lockedTable.user? "a" = some u) ∧
      ¬(onlineResolution venue ⟨lockedTable, []⟩ (member "prince" [.prince]) "event"
        ⟨"tablet", playedOut, [], [], [], false⟩).resolved "a" ∧
      objects'.lookup "a" ≠ lockedTable.lookup "a" := by
  obtain ⟨summary, h⟩ := exists_of_bringOnline ⟨"tablet", playedOut, [], [], [], false⟩
    (by decide +kernel)
  refine ⟨_, summary, h, ⟨_, rfl⟩, ?_, fun heq => ?_⟩
  · rintro ⟨temp, htemp⟩
    cases htemp
  · have hbefore : (lockedTable.user? "a").any (fun u => (u.ratings .constructedOffline).isSome) =
        false := by decide +kernel
    rw [← user?_congr heq] at hbefore
    revert hbefore
    decide +kernel

end Archon.Backend

import Archon.Backend.Saves
import Archon.Backend.Scenario

/-!
# Soft deletion agrees in the row and in its document

The tombstone of an object stands in its document and in the `deleted_at` column beside it. Saves
from objects keep the two together. The routes that hand a tournament to `save_object` without the
argument clear the column, so a write to a deleted tournament brings its row back to the queries
that filter on it: an action, an announcement, a registration in bulk, an import, a change of the
lock, or the scrub of a member's name.
-/

namespace Archon.Backend
open Engine Guards Table

/-! ### Reading the column -/

/-- The tournaments of the rows whose `deleted_at` column is null (`db.py:1142`, `1160`, `1256`). -/
def Objects.liveTournaments (objects : Objects) : List StoredTournament :=
  objects.rows.filterMap fun r => if r.2.deletedAt = none then r.2.object.asTournament else none

/-- The column of a row is null exactly when its document is not deleted. -/
def Row.Agrees (r : Row) : Prop := r.deletedAt = none ↔ r.object.deletedAt = none

/-- The tombstones of a table: in the column as in the document, and no deleted tournament read by
a query that filters on the column. -/
structure TombstonesAgree (objects : Objects) : Prop where
  column : ∀ uid r, objects.lookup uid = some r → r.Agrees
  live : ∀ t ∈ objects.liveTournaments, t.deletedAt = none
  wins : ∀ userUid, ∀ won ∈ tournamentWins objects userUid,
    ∃ t, objects.tournament? won = some t ∧ t.deletedAt = none

/-! ### The writes of the backend -/

/-- `accounts.py:387`: the row holds a copy of the member's name. -/
def namesMember (userUid : Uid) (t : StoredTournament) : Bool :=
  (t.doc.players.any fun p => p.userUid == some userUid && p.displayName.any (· != ""))
    || t.announcements.any fun a => a.authorUid == userUid && a.authorName != anonymizedName

/-- `accounts.py:405`: the tournaments with a copy of the member's name, scrubbed one by one. -/
def scrubTournamentCopies (env : Env) (objects : Objects) (userUid : Uid) : Objects :=
  let uids := objects.rows.filterMap fun r =>
    if r.2.object.asTournament.any (fun t =>
      (t.doc.players.any fun p => p.userUid == some userUid)
        || t.announcements.any fun a => a.authorUid == userUid) = true then some r.1 else none
  uids.foldl (fun objects uid =>
    match objects.tournament? uid with
    | some t =>
      if namesMember userUid t = true then
        saveRow objects ((scrub t fun u => u == userUid).touched env.now)
      else objects
    | none => objects) objects

/-- What the backend does to the objects table. -/
inductive BackendWrite where
  /-- An accepted request about a tournament. -/
  | request (c : Call)
  /-- A go-online refused after its members were made. -/
  | refused (c : Call)
  /-- `accounts.py:405`, at the anonymization of a member. -/
  | scrub (env : Env) (userUid : Uid)
  /-- Any other object saved through its model: members, merges, synchronisations, promos. -/
  | model (o : StoredObject)
  /-- `migrations.py:67`: a row saved again with the column it has. -/
  | migrated (uid : Uid) (object : StoredObject)
  /-- `db.py:475`, `636`. -/
  | deleted (uid : Uid)

/-- The table after a write. -/
def BackendWrite.Leads (objects : Objects) (objects' : Objects) : BackendWrite → Prop
  | request c => serve objects c = .ok objects'
  | refused c => ∃ request e, c.request = .goOnline request ∧
      goOnline c.env (c.store objects) c.user c.path request = (objects', .error e)
  | scrub env userUid => objects' = scrubTournamentCopies env objects userUid
  | model o => objects' = saveModel objects o
  | migrated uid object => ∃ r, objects.lookup uid = some r ∧
      object.deletedAt = r.object.deletedAt ∧ objects' = saveObject objects uid object r.deletedAt
  | deleted uid => objects' = objects.erase uid

/-- The objects tables the backend produces. -/
def backendSystem : System Objects BackendWrite where
  init objects := objects = ∅
  step objects w objects' := w.Leads objects objects'

/-- The `deleted_at` of the document a request hands to `save_object` without the argument. -/
def Request.tombstone (objects : Objects) (path : Uid) : Request → Option Stamp
  | .syncOffline _ payload => payload.deletedAt
  | .goOnline request => request.tournament.deletedAt
  | .action .. | .postAnnouncement .. | .deleteAnnouncement .. | .saveTimer | .bulkRegister ..
  | .archonImport .. | .goOffline .. | .forceTakeover .. | .forceUnlock .. =>
    (objects.tournament? path).bind StoredTournament.deletedAt
  | _ => none

/-- The write saves no deleted tournament past its column. -/
def SavesLive (objects : Objects) : BackendWrite → Prop
  | .request c => c.request.tombstone objects c.path = none
  | .scrub _ userUid => ∀ uid t, objects.tournament? uid = some t → namesMember userUid t = true →
      t.deletedAt = none
  | _ => True

section Tombstones

variable {env : Env} {objects objects' base a b : Objects} {c : Call} {r : Resolution} {uid : Uid}
variable {user : User} {t : StoredTournament} {tombstone : Option Stamp}

/-! ### Rows that agree -/

/-- Every row of the table agrees with its document. -/
def Agrees (objects : Objects) : Prop := ∀ uid r, objects.lookup uid = some r → r.Agrees

theorem agrees_saveObject {o : StoredObject} {deletedAt : Option Stamp} (h : Agrees objects)
    (ho : (⟨o, deletedAt⟩ : Row).Agrees) : Agrees (saveObject objects uid o deletedAt) := by
  intro k row hrow
  by_cases hk : k = uid
  · rw [hk, lookup_saveObject, Option.some.injEq] at hrow
    exact hrow ▸ ho
  · rw [lookup_saveObject_ne hk] at hrow
    exact h k row hrow

theorem Saves.agrees (h : Saves a b) (ha : Agrees a) : Agrees b :=
  h.invariant (fun _ _ hb => agrees_saveObject hb Iff.rfl) ha

theorem agrees_saveRow (h : Agrees objects) (ht : t.deletedAt = none) :
    Agrees (saveRow objects t) :=
  agrees_saveObject h ⟨fun _ => ht, fun _ => rfl⟩

theorem asTournament_eq_some {o : StoredObject} (h : o.asTournament = some t) :
    o = .tournament t := by
  cases o with
  | tournament t' => exact congrArg StoredObject.tournament (Option.some.inj h)
  | _ => cases h

theorem Agrees.tombstones (h : Agrees objects) : TombstonesAgree objects where
  column := h
  live t ht := by
    obtain ⟨x, hx, hread⟩ := List.mem_filterMap.1 ht
    split_ifs at hread with hnull
    have hrow : x.2.Agrees := h x.1 x.2 (mem_rows.1 hx)
    have hdoc : x.2.object.deletedAt = none := hrow.1 hnull
    rwa [asTournament_eq_some hread] at hdoc
  wins userUid won hwon := by
    unfold tournamentWins at hwon
    rw [List.mem_insertionSort, List.mem_filterMap] at hwon
    obtain ⟨x, hx, hread⟩ := hwon
    obtain ⟨t, ht, hwin⟩ := Option.bind_eq_some_iff.1 hread
    split_ifs at hwin with hcounts
    obtain rfl : x.1 = won := Option.some.inj hwin
    have hobject : x.2.object = .tournament t := asTournament_eq_some ht
    have hnull : x.2.deletedAt = none := by
      simp only [Bool.and_eq_true, hofCandidate, beq_iff_eq] at hcounts
      tauto
    have hrow : objects.lookup x.1 = some x.2 := mem_rows.1 hx
    refine ⟨t, ?_, ?_⟩
    · rw [tournament?_eq_some, find?_eq_some]
      exact ⟨x.2.deletedAt, by rw [hrow, ← hobject]⟩
    · have hdoc : x.2.object.deletedAt = none := (h x.1 x.2 hrow).1 hnull
      rwa [hobject] at hdoc

/-! ### Requests -/

/-- One row handed to `save_object` without its column, among saves from objects. -/
def SavesPast (tombstone : Option Stamp) (a b : Objects) : Prop :=
  ∃ base t, Saves a base ∧ t.deletedAt = tombstone ∧ Saves (saveRow base t) b

theorem SavesPast.agrees (h : SavesPast none a b) (ha : Agrees a) : Agrees b := by
  obtain ⟨base, t, hbase, ht, hrest⟩ := h
  exact hrest.agrees (agrees_saveRow (hbase.agrees ha) ht)

theorem savesPast_row {t t' : StoredTournament} (ht : objects.tournament? uid = some t)
    (hkept : t'.deletedAt = t.deletedAt) (hrest : Saves (saveRow objects t') objects') :
    SavesPast ((objects.tournament? uid).bind StoredTournament.deletedAt) objects objects' := by
  rw [ht, Option.bind_some]
  exact ⟨objects, t', .refl, hkept, hrest⟩

theorem deletedAt_stampFinish (env : Env) (t : StoredTournament) :
    (stampFinish env t).deletedAt = t.deletedAt := by
  unfold stampFinish
  split <;> rfl

theorem saves_reflectOn (env : Env) (objects : Objects) (uid : Uid)
    (change : Option SanctionChange) : Saves objects (reflectOn env objects uid change) := by
  cases change with
  | none => exact .refl
  | some change => exact saves_reflectSanction

theorem savesPast_tournamentAction {oauthTournament : Option Uid} {event : TournamentEvent}
    (h : tournamentAction env objects user uid oauthTournament event = .ok objects') :
    SavesPast ((objects.tournament? uid).bind StoredTournament.deletedAt) objects objects' := by
  obtain ⟨t, ht, -, placed, identified, actor, updated, ops, -, -, hevent, rfl⟩ :=
    tournamentAction_eq_ok h
  obtain ⟨doc, -, hupdated⟩ := processEvent_eq_ok hevent
  refine savesPast_row ht ?_ saves_afterEvent
  rw [hupdated]
  split
  · rfl
  · exact deletedAt_stampFinish env _

theorem savesPast_syncOffline {deviceId : String} {payload : StoredTournament}
    (h : syncOffline env objects user uid deviceId payload = .ok objects') :
    SavesPast payload.deletedAt objects objects' := by
  cases ht : objects.tournament? uid with
  | some t =>
    obtain ⟨-, -, rfl⟩ := (syncOffline_eq_ok ht).1 h
    refine ⟨objects, _, .refl, ?_, .refl⟩
    rfl
  | none =>
    simp only [syncOffline, ht, bind_eq_ok, ensure_eq_ok, pure_eq_ok] at h
    obtain ⟨-, -, -, -, rfl⟩ := h
    refine ⟨objects, _, .refl, ?_, .refl⟩
    rfl

theorem deletedAt_broughtOnline {request : GoOnlineRequest} {stored : Option StoredTournament}
    {payload : StoredTournament} (h : broughtOnline env r request stored payload = .ok t) :
    t.deletedAt = payload.deletedAt := by
  obtain ⟨-, rfl⟩ := broughtOnline_eq_ok.1 h
  have hcode : ∀ t : StoredTournament,
      (ensureEventCode env r.objects t).deletedAt = t.deletedAt := by
    intro t
    unfold ensureEventCode
    split <;> rfl
  have hstale : ∀ t : StoredTournament, (markStale stored t).deletedAt = t.deletedAt := by
    intro t
    unfold markStale
    split <;> rfl
  simp only [scrubAnonymizedCopies, scrub, hcode, hstale, deletedAt_stampFinish]
  cases stored <;> rfl

theorem savesPast_goOnline {store : Store} {request : GoOnlineRequest} {summary : GoOnlineSummary}
    (h : goOnline env store user uid request = (objects', .ok summary)) :
    SavesPast request.tournament.deletedAt store.objects objects' := by
  obtain ⟨-, mid, updated, hmid, rfl⟩ := goOnline_eq_ok h
  obtain ⟨-, -, hbrought, hdecks⟩ := reconcile_eq_ok.1 hmid
  have hresolved : Saves store.objects (onlineResolution env store user uid request).objects :=
    saves_resolveOfflinePlayers store _ user.uid request.offlinePlayers
  have hsaved := (saves_saveOfflineSanctions request.offlineSanctions).trans
    (saves_saveOfflineDecks hdecks)
  have hafter : Saves mid (afterOnline env uid request mid updated) := saves_afterOnline
  have hkept := deletedAt_broughtOnline hbrought
  exact ⟨_, updated, hresolved, hkept, hsaved.trans hafter⟩

theorem saves_of_serve (h : serve objects c = .ok objects') :
    Saves objects objects' ∨ SavesPast (c.request.tombstone objects c.path) objects objects' := by
  unfold serve at h
  cases hrequest : c.request with
  | action oauthTournament event =>
    rw [hrequest] at h
    exact .inr (savesPast_tournamentAction h)
  | addOrganizer organizerUid =>
    rw [hrequest] at h
    obtain ⟨t, -, -, rfl⟩ := addOrganizer_eq_ok h
    refine .inl ?_
    split
    · exact .refl
    · exact .one (.tournament _)
  | removeOrganizer organizerUid =>
    rw [hrequest] at h
    obtain ⟨t, -, -, rfl⟩ := removeOrganizer_eq_ok h
    refine .inl ?_
    split
    · exact .one (.tournament _)
    · exact .refl
  | uploadBanner path =>
    rw [hrequest] at h
    obtain ⟨t, -, -, -, rfl⟩ := uploadBanner_eq_ok h
    exact .inl (.one (.tournament _))
  | deleteBanner deleted =>
    rw [hrequest] at h
    obtain ⟨t, -, -, -, rfl⟩ := deleteBanner_eq_ok h
    refine .inl ?_
    split
    · exact .refl
    · exact .one (.tournament _)
  | postAnnouncement id body =>
    rw [hrequest] at h
    obtain ⟨t, announcements, ht, -, -, rfl⟩ := postAnnouncement_eq_ok h
    refine .inr (savesPast_row ht ?_ .refl)
    rfl
  | deleteAnnouncement id =>
    rw [hrequest] at h
    obtain ⟨t, announcements, ht, -, -, rfl⟩ := deleteAnnouncement_eq_ok h
    refine .inr (savesPast_row ht ?_ .refl)
    rfl
  | saveTimer =>
    rw [hrequest] at h
    obtain ⟨t, ht, -, -, rfl⟩ := saveTimer_eq_ok h
    refine .inr (savesPast_row ht ?_ .refl)
    rfl
  | bulkRegister request =>
    rw [hrequest] at h
    obtain ⟨t, ht, -, -, rfl⟩ := bulkRegister_eq_ok h
    refine .inr (savesPast_row ht ?_ .refl)
    rfl
  | archonImport results =>
    rw [hrequest] at h
    obtain ⟨t, ht, -, rfl⟩ := archonImport_eq_ok h
    refine .inr (savesPast_row ht ?_
      (saves_withdrawPrivateDecks.trans (saves_recomputePlayers _ _)))
    rfl
  | deleteTournament =>
    rw [hrequest] at h
    obtain ⟨t, -, -, -, rfl⟩ := deleteTournament_eq_ok h
    refine .inl ?_
    split
    · exact (saves_softDeleteTournament t).trans (saves_recomputePlayers _ _)
    · exact saves_softDeleteTournament t
  | createSanction oauthTournament request =>
    rw [hrequest] at h
    obtain ⟨-, -, rfl⟩ := createSanction_eq_ok h
    exact .inl ((Saves.one (.sanction _)).trans (saves_reflectOn _ _ _ _))
  | updateSanction sanctionUid request =>
    rw [hrequest] at h
    obtain ⟨s, -, -, rfl⟩ := updateSanction_eq_ok h
    exact .inl ((Saves.one (.sanction _)).trans (saves_reflectOn _ _ _ _))
  | deleteSanction sanctionUid =>
    rw [hrequest] at h
    obtain ⟨s, -, -, rfl⟩ := deleteSanction_eq_ok h
    exact .inl ((Saves.one (.sanction _)).trans (saves_reflectOn _ _ _ _))
  | goOffline deviceId =>
    rw [hrequest] at h
    obtain ⟨t, ht, -, -, rfl⟩ := goOffline_eq_ok.1 h
    refine .inr (savesPast_row ht ?_ .refl)
    rfl
  | forceTakeover deviceId =>
    rw [hrequest] at h
    obtain ⟨t, ht, -, -, rfl⟩ := forceTakeover_eq_ok.1 h
    refine .inr (savesPast_row ht ?_ .refl)
    rfl
  | forceUnlock oauthClient =>
    rw [hrequest] at h
    obtain ⟨-, -, t, ht, -, rfl⟩ := forceUnlock_eq_ok.1 h
    refine .inr (savesPast_row ht ?_ .refl)
    rfl
  | syncOffline deviceId payload =>
    rw [hrequest] at h
    exact .inr (savesPast_syncOffline h)
  | goOnline request =>
    rw [hrequest] at h
    dsimp only at h
    cases hresult : (goOnline c.env (c.store objects) c.user c.path request).2 with
    | error e =>
      rw [hresult] at h
      cases h
    | ok summary =>
      rw [hresult] at h
      obtain rfl : (goOnline c.env (c.store objects) c.user c.path request).1 = objects' :=
        Except.ok.inj h
      exact .inr (savesPast_goOnline (Prod.ext rfl hresult))

/-! ### Other writes -/

theorem agrees_scrubTournamentCopies {userUid : Uid} (h : Agrees objects)
    (hlive : ∀ uid t, objects.tournament? uid = some t → namesMember userUid t = true →
      t.deletedAt = none) : Agrees (scrubTournamentCopies env objects userUid) := by
  unfold scrubTournamentCopies
  extract_lets uids
  -- a scrubbed row is saved live, and the rows left to scrub are as before or scrubbed
  refine (List.foldlRecOn uids _ (motive := fun table => Agrees table ∧
    ∀ uid t, table.tournament? uid = some t → namesMember userUid t = true → t.deletedAt = none)
    ⟨h, hlive⟩ fun table htable k _ => ?_).1
  cases ht : table.tournament? k with
  | none => exact htable
  | some t =>
    dsimp only
    split
    · rename_i hnames
      have hnone : t.deletedAt = none := htable.2 k t ht hnames
      refine ⟨agrees_saveRow htable.1 hnone, fun uid t' ht' hnames' => ?_⟩
      rw [Objects.tournament?, Objects.find?] at ht'
      by_cases huid : uid = ((scrub t fun u => u == userUid).touched env.now).uid
      · rw [huid, saveRow, lookup_saveObject] at ht'
        exact (congrArg StoredTournament.deletedAt (Option.some.inj ht')).symm.trans hnone
      · rw [saveRow, lookup_saveObject_ne huid] at ht'
        exact htable.2 uid t' ht' hnames'
    · exact htable

theorem agrees_erase (h : Agrees objects) (uid : Uid) : Agrees (objects.erase uid) := by
  intro k row hrow
  by_cases hk : k = uid
  · rw [hk, AList.lookup_erase] at hrow
    cases hrow
  · rw [AList.lookup_erase_ne hk] at hrow
    exact h k row hrow

theorem agrees_of_leads {w : BackendWrite} (h : Agrees objects) (hlive : SavesLive objects w)
    (hstep : w.Leads objects objects') : Agrees objects' := by
  cases w with
  | request c =>
    have htombstone : c.request.tombstone objects c.path = none := hlive
    rcases saves_of_serve hstep with hsaves | hpast
    · exact hsaves.agrees h
    · rw [htombstone] at hpast
      exact hpast.agrees h
  | refused c =>
    obtain ⟨request, e, -, hrefused⟩ := hstep
    rcases goOnline_eq_error hrefused with rfl | rfl
    · exact h
    · exact Saves.agrees (saves_resolveOfflinePlayers (c.store objects) _ c.user.uid
        request.offlinePlayers) h
  | scrub env userUid =>
    obtain rfl := hstep
    exact agrees_scrubTournamentCopies h hlive
  | model o =>
    obtain rfl := hstep
    exact (Saves.one o).agrees h
  | migrated uid object =>
    obtain ⟨row, hrow, hkept, rfl⟩ := hstep
    refine agrees_saveObject h ?_
    rw [Row.Agrees, hkept]
    exact h uid row hrow
  | deleted uid =>
    obtain rfl := hstep
    exact agrees_erase h uid

/-- While no deleted tournament is saved past its column, the tombstones of every table the backend
produces stand in the column as in the document, and its queries read live tournaments only. -/
theorem tombstonesAgree_of_reaches (h : backendSystem.Reaches SavesLive objects) :
    TombstonesAgree objects := by
  have hagrees : Agrees objects := by
    refine h.invariant (fun table hinit => ?_) fun table w table' htable hlive hstep => ?_
    · obtain rfl := hinit
      intro uid row hrow
      cases hrow
    · exact agrees_of_leads htable hlive hstep
  exact hagrees.tombstones

end Tombstones

/-! ### Runs of the stored event -/

theorem reaches_eventTable : backendSystem.Reaches SavesLive eventTable := by
  have hsaves : ∀ objects, backendSystem.Reaches SavesLive objects → ∀ o,
      backendSystem.Reaches SavesLive (saveModel objects o) := by
    intro objects h o
    have hlive : SavesLive objects (.model o) := trivial
    have hstep : backendSystem.step objects (.model o) (saveModel objects o) := rfl
    exact h.step hlive hstep
  have hempty : backendSystem.Reaches SavesLive ∅ := .init rfl
  exact hsaves _ (hsaves _ (hsaves _ (hsaves _ (hsaves _ hempty (.tournament event))
    (.user (member "prince" [.prince]))) (.user (member "judge" [])))
    (.user (member "a" []))) (.user (member "b" []))

/-- The requests of the organizer, from the stored event. -/
def replayPrince (pass : Objects → Request → Prop) [∀ s x, Decidable (pass s x)]
    (requests : List Request) : Option Objects :=
  System.replay (fun objects request => serve objects (byPrince request)) pass eventTable requests

theorem reaches_replayPrince {ok : Objects → BackendWrite → Prop}
    (pass : Objects → Request → Prop) [∀ s x, Decidable (pass s x)]
    (hok : ∀ s x, pass s x → ok s (.request (byPrince x)))
    (hinit : backendSystem.Reaches ok eventTable) {requests : List Request} {objects : Objects}
    (h : replayPrince pass requests = some objects) : backendSystem.Reaches ok objects :=
  System.reaches_replay_of hok (fun _ _ _ _ hserve => hserve) requests eventTable objects hinit h

/-- The event is deleted: it leaves the live tournaments, its row stays. -/
theorem deletedEvent_tombstones :
    ∃ objects, TombstonesAgree objects ∧ objects.liveTournaments.isEmpty = true ∧
      (objects.tournament? "event").isSome = true := by
  have hrun : (replayPrince (fun objects request => request.tombstone objects "event" = none)
      [.deleteTournament]).any (fun objects => objects.liveTournaments.isEmpty &&
        (objects.tournament? "event").isSome) = true := by
    decide +kernel
  obtain ⟨objects, hobjects, hresult⟩ := (Option.any_eq_true _ _).1 hrun
  rw [Bool.and_eq_true] at hresult
  have hreaches := reaches_replayPrince
    (fun objects request => request.tombstone objects "event" = none) (fun _ _ h => h)
    reaches_eventTable hobjects
  exact ⟨objects, tombstonesAgree_of_reaches hreaches, hresult⟩

/-- Closing the registration of the deleted event brings it back to the live tournaments. -/
theorem closedDeleted_disagrees :
    ¬∀ objects, backendSystem.Reachable objects → TombstonesAgree objects := by
  intro hall
  have hrun : (replayPrince (fun _ _ => True)
      [.deleteTournament, .action none .closeRegistration]).any (fun objects =>
        objects.liveTournaments.any fun t => t.deletedAt.isSome) = true := by
    decide +kernel
  obtain ⟨objects, hobjects, hresult⟩ := (Option.any_eq_true _ _).1 hrun
  obtain ⟨t, ht, hdeleted⟩ := List.any_eq_true.1 hresult
  have hreaches := reaches_replayPrince _ (fun _ _ _ => trivial) reaches_eventTable.reachable
    hobjects
  have hlive : t.deletedAt = none := (hall objects hreaches).live t ht
  rw [hlive] at hdeleted
  cases hdeleted

end Archon.Backend

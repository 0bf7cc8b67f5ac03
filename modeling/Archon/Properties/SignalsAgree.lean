import Archon.Backend.Scenario
import Archon.Properties.DqSignals

/-!
# The signals of a disqualification agree along a run

The sanction routes write both the sanction and the mark on the roster. `DropOut` and `CancelFinals`
take the mark off alone, an archived sheet is entered without looking at the sanctions, and the
roster a device sends replaces the stored one.
-/

namespace Archon.Backend
open Engine Guards Table

section Signals

variable {env : Env} {objects objects' saved : Objects} {user : User} {uid u : Uid}
variable {t t' : StoredTournament} {players : List Player}

/-! ### The sanctions saved -/

theorem sanction?_saveSanction (objects : Objects) (s : StoredSanction) (k : Uid) :
    (saveSanction objects s).sanction? k = if k = s.uid then some s else objects.sanction? k := by
  split
  · rename_i hk
    rw [Objects.sanction?, Objects.find?, saveSanction, hk, lookup_saveObject]
    rfl
  · rename_i hk
    exact sanction?_congr (lookup_saveObject_ne hk)

theorem hasActiveDq_saveSanction (h : WellKeyed objects) {s : StoredSanction}
    (hsame : s.Disqualifies uid u ↔ ∃ s₀, objects.sanction? s.uid = some s₀ ∧
      s₀.Disqualifies uid u) :
    hasActiveDq (saveSanction objects s) uid u = hasActiveDq objects uid u := by
  rw [Bool.eq_iff_iff, hasActiveDq_iff (wellKeyed_saveSanction h s), hasActiveDq_iff h]
  constructor
  · rintro ⟨k, s', hs', hdq⟩
    rw [sanction?_saveSanction] at hs'
    split at hs'
    · obtain rfl := Option.some.inj hs'
      obtain ⟨s₀, hs₀, hdq₀⟩ := hsame.1 hdq
      exact ⟨s.uid, s₀, hs₀, hdq₀⟩
    · exact ⟨k, s', hs', hdq⟩
  · rintro ⟨k, s', hs', hdq⟩
    by_cases hk : k = s.uid
    · refine ⟨k, s, by rw [sanction?_saveSanction, if_pos hk], hsame.2 ⟨s', ?_, hdq⟩⟩
      rw [← hk]
      exact hs'
    · exact ⟨k, s', by rw [sanction?_saveSanction, if_neg hk, hs'], hdq⟩

theorem hasActiveDq_saved (h : WellKeyed objects) {s : StoredSanction}
    (hdq : s.Disqualifies uid u) : hasActiveDq (saveSanction objects s) uid u = true :=
  (hasActiveDq_iff (wellKeyed_saveSanction h s)).2
    ⟨s.uid, s, by rw [sanction?_saveSanction, if_pos rfl], hdq⟩

/-- The table with a tournament whose signals agree. -/
structure Agreeing (objects : Objects) (uid : Uid) : Prop where
  keyed : WellKeyed objects
  row : ∃ t, objects.tournament? uid = some t ∧ SignalsAgree objects uid t.doc.players

theorem Agreeing.sanction {s : StoredSanction} {change : Option SanctionChange}
    (h : Agreeing objects uid) (hne : s.uid ≠ uid)
    (hother : ∀ u, change.bind person ≠ some u → (s.Disqualifies uid u ↔
      ∃ s₀, objects.sanction? s.uid = some s₀ ∧ s₀.Disqualifies uid u))
    (hdq : ∀ v, change = some (.disqualify v) → s.Disqualifies uid v) :
    Agreeing (reflectOn env (saveSanction objects s) uid change) uid := by
  obtain ⟨t, ht, hagree⟩ := h.row
  have hsaved := wellKeyed_saveSanction h.keyed s
  have hrow := tournament?_saveSanction ht hne
  obtain ⟨hkeyed, t', ht', hreflected⟩ := @row_of_reflectOn env uid t _ change hsaved hrow
  refine ⟨hkeyed, t', ht', ?_⟩
  refine SignalsAgree.congr (hagree.reflected hreflected (fun u hu => ?_) fun v hv => ?_) fun u =>
    hasActiveDq_congr hsaved hkeyed (sanction?_reflectOn hsaved hrow)
  · exact hasActiveDq_saveSanction h.keyed (hother u hu)
  · exact hasActiveDq_saved h.keyed (hdq v hv)

theorem Agreeing.create {oauthTournament : Option Uid} {request : CreateSanctionRequest}
    (h : Agreeing objects uid) (hfresh : env.Fresh objects uid)
    (hof : request.tournamentUid = some uid)
    (hserve : createSanction env objects user oauthTournament request = .ok objects') :
    Agreeing objects' uid := by
  obtain ⟨-, -, rfl⟩ := createSanction_eq_ok hserve
  rw [hof, Option.getD_some]
  have hnone : objects.sanction? (newSanction env user request).uid = none := by
    rw [Objects.sanction?, Objects.find?]
    rw [show objects.lookup (newSanction env user request).uid = none from (hfresh 0).1]
    rfl
  refine h.sanction (hfresh 0).2 (fun u hu => ?_) fun v hv => ?_
  · rw [hnone]
    refine iff_of_false (fun hdq => ?_) (by simp)
    obtain ⟨-, -, huser, hactive⟩ := hdq
    have hlevel : request.level = .disqualification := by
      simpa [StoredSanction.isActiveDq, newSanction] using hactive
    rw [CreateSanctionRequest.change, if_pos hlevel] at hu
    exact hu (congrArg some huser)
  · unfold CreateSanctionRequest.change at hv
    split_ifs at hv with hlevel hadjust
    · obtain rfl : request.userUid = v := by simpa using hv
      exact ⟨hof, rfl, rfl, by simp [StoredSanction.isActiveDq, newSanction, hlevel]⟩
    · cases hv

theorem level_of_isActiveDq {s : StoredSanction} {request : UpdateSanctionRequest}
    (hbefore : s.isActiveDq ≠ (updatedSanction env user s request).isActiveDq)
    (hafter : (updatedSanction env user s request).isActiveDq = true) :
    request.level = some .disqualification := by
  rw [hafter] at hbefore
  simp only [StoredSanction.isActiveDq, updatedSanction, Bool.and_eq_true, beq_iff_eq, ne_eq,
    not_and] at hbefore hafter
  obtain ⟨hlevel, hlifted⟩ := hafter
  have hnot : s.liftedAt = none := by
    split at hlifted
    · cases hlifted
    · exact hlifted
  cases hgiven : request.level with
  | none =>
    rw [hgiven, Option.getD_none] at hlevel
    exact absurd hnot (hbefore hlevel)
  | some level =>
    rw [hgiven, Option.getD_some] at hlevel
    rw [hlevel]

theorem Agreeing.update {sanctionUid : Uid} {request : UpdateSanctionRequest} {s : StoredSanction}
    (h : Agreeing objects uid) (huid : uid ≠ "") (hs : objects.sanction? sanctionUid = some s)
    (hof : s.tournamentUid = some uid)
    (hlive : request.level = some .disqualification → s.deletedAt = none)
    (hserve : updateSanction env objects user sanctionUid request = .ok objects') :
    Agreeing objects' uid := by
  obtain ⟨s', hs', -, rfl⟩ := updateSanction_eq_ok hserve
  obtain rfl : s = s' := Option.some.inj (hs.symm.trans hs')
  obtain ⟨t, ht, -⟩ := h.row
  have hstored : s.uid = sanctionUid := h.keyed.uid_eq (sanction?_eq_some.1 hs)
  have hchange : updatedChange s (updatedSanction env user s request) =
      if s.isActiveDq ≠ (updatedSanction env user s request).isActiveDq then
        some (if (updatedSanction env user s request).isActiveDq = true then .disqualify s.userUid
          else .restore s.userUid)
      else if (updatedSanction env user s request).level = .standingsAdjustment ∨
          s.level = .standingsAdjustment then some .adjust
      else none := by
    rw [updatedChange, hof, Option.getD_some, if_neg huid]
  rw [hof, Option.getD_some]
  have hne : (updatedSanction env user s request).uid ≠ uid := by
    have hstored := ne_of_sanction? h.keyed ht hs
    exact hstored
  refine h.sanction hne (fun u hu => ?_) fun v hv => ?_
  · change _ ↔ ∃ s₀, objects.sanction? s.uid = some s₀ ∧ _
    rw [hstored, hs]
    simp only [Option.some.injEq, exists_eq_left']
    refine and_congr_right fun _ => and_congr_right fun _ => and_congr_right fun huser => ?_
    by_cases hactive : s.isActiveDq = (updatedSanction env user s request).isActiveDq
    · rw [hactive]
    · refine absurd ?_ hu
      rw [hchange, if_pos hactive]
      have hsame : s.userUid = u := huser
      split <;> exact congrArg some hsame
  · rw [hchange] at hv
    split_ifs at hv with hactive hnow hadjust
    · obtain rfl : s.userUid = v := by simpa using hv
      exact ⟨hof, hlive (level_of_isActiveDq hactive hnow), rfl, hnow⟩
    · cases hv
    · cases hv

theorem Agreeing.delete {sanctionUid : Uid} {s : StoredSanction} (h : Agreeing objects uid)
    (huid : uid ≠ "") (hs : objects.sanction? sanctionUid = some s)
    (hof : s.tournamentUid = some uid)
    (hserve : deleteSanction env objects user sanctionUid = .ok objects') :
    Agreeing objects' uid := by
  obtain ⟨s', hs', -, rfl⟩ := deleteSanction_eq_ok hserve
  obtain rfl : s = s' := Option.some.inj (hs.symm.trans hs')
  obtain ⟨t, ht, -⟩ := h.row
  have hstored : s.uid = sanctionUid := h.keyed.uid_eq (sanction?_eq_some.1 hs)
  have hne : s.uid ≠ uid := ne_of_sanction? h.keyed ht hs
  have hname : s.tournamentUid.getD "" = uid := by rw [hof, Option.getD_some]
  rw [hname]
  refine h.sanction (s := { s with modified := env.now, deletedAt := some env.now }) hne
    (fun u hu => ?_) fun v hv => ?_
  · rw [show objects.sanction? s.uid = some s by rw [hstored, hs]]
    simp only [Option.some.injEq, exists_eq_left']
    refine iff_of_false (fun hdq => ?_) fun hdq => hu ?_
    · cases hdq.2.1
    obtain ⟨-, -, huser, hactive⟩ := hdq
    simp only [StoredSanction.isActiveDq, Bool.and_eq_true, beq_iff_eq] at hactive
    rw [StoredSanction.deletedChange, hname, if_neg (by simp [huid, hactive.2]), if_pos hactive.1]
    exact congrArg some huser
  · unfold StoredSanction.deletedChange at hv
    split_ifs at hv <;> cases hv

/-! ### Actions and the lock -/

theorem identifiedEvent_eq {event identified : TournamentEvent}
    (h : identifiedEvent objects event = .ok identified) :
    identified = event ∨ ∃ id, identified = withVeknId id event := by
  unfold identifiedEvent at h
  split at h
  · exact .inl (Except.ok.inj h).symm
  · simp only [ensure_bind_eq_ok, okOr_bind_eq_ok, pure_eq_ok] at h
    obtain ⟨-, target, -, rfl⟩ := h
    exact .inr ⟨_, rfl⟩

theorem heeds_identified {event placed identified : TournamentEvent}
    (hplaced : placedEvent env t event = .ok placed)
    (hidentified : identifiedEvent objects placed = .ok identified)
    (h : Heeds objects uid players event) : Heeds objects uid players identified := by
  have hheeds : Heeds objects uid players placed := by
    cases event with
    | updateConfig c =>
      simp only [placedEvent, okOr_bind_eq_ok, pure_eq_ok] at hplaced
      obtain ⟨c', -, rfl⟩ := hplaced
      trivial
    | _ =>
      obtain rfl := Except.ok.inj hplaced
      exact h
  rcases identifiedEvent_eq hidentified with rfl | ⟨id, rfl⟩
  · exact hheeds
  · cases placed <;> exact hheeds

theorem Agreeing.saveRow (h : Agreeing objects uid) (ht : objects.tournament? uid = some t)
    (hu : t'.uid = t.uid) (hplayers : SignalsAgree objects uid t'.doc.players) :
    Agreeing (saveRow objects t') uid := by
  have hkeyed := wellKeyed_saveRow h.keyed t'
  have huid : t'.uid = uid := hu.trans (h.keyed.uid_eq (tournament?_eq_some.1 ht))
  refine ⟨hkeyed, t', tournament?_saveRow_of h.keyed ht hu, hplayers.congr fun u => ?_⟩
  exact hasActiveDq_congr h.keyed hkeyed (sanction?_saveObject (huid.symm ▸ ht))

theorem Agreeing.of_spares (h : Agreeing objects uid) (hspares : Spares objects objects') :
    Agreeing objects' uid := by
  obtain ⟨t, ht, hagree⟩ := h.row
  refine ⟨hspares.keyed, t, (hspares.tournaments uid).trans ht, hagree.congr fun u => ?_⟩
  exact hasActiveDq_congr h.keyed hspares.keyed hspares.sanctions

theorem players_eventRow {doc : Tournament} : (eventRow env t doc).doc.players = doc.players := by
  unfold eventRow
  split
  · rfl
  · unfold stampFinish
    split <;> rfl

theorem Agreeing.action {oauthTournament : Option Uid} {event : TournamentEvent}
    (h : Agreeing objects uid) (hfresh : env.Fresh objects uid)
    (hheeds : ∀ t, objects.tournament? uid = some t → Heeds objects uid t.doc.players event)
    (hserve : tournamentAction env objects user uid oauthTournament event = .ok objects') :
    Agreeing objects' uid := by
  obtain ⟨t, ht, -, placed, identified, actor, updated, ops, hplaced, hidentified, hevent, rfl⟩ :=
    tournamentAction_eq_ok hserve
  obtain ⟨t', ht', hagree⟩ := h.row
  obtain rfl : t = t' := Option.some.inj (ht.symm.trans ht')
  obtain ⟨doc, haccept, hupdated⟩ := processEvent_eq_ok hevent
  have hrow : updated = eventRow env t doc := hupdated
  have hu : updated.uid = t.uid := hrow ▸ uid_eventRow haccept
  have huid : t.uid = uid := h.keyed.uid_eq (tournament?_eq_some.1 ht)
  have hplayers : SignalsAgree objects uid updated.doc.players := by
    rw [hrow, players_eventRow]
    have hidentified := heeds_identified hplaced hidentified (hheeds t ht)
    have heff := effect_of_acceptEvent haccept
    have hbefore : SignalsAgree objects uid t.toEngine.players := hagree
    refine hbefore.event heff hidentified fun u hu => ?_
    rw [huid] at hu
    exact hasActiveDq_of_buildSanctions hu
  exact (h.saveRow ht hu hplayers).of_spares
    (spares_afterEvent (wellKeyed_saveRow h.keyed updated) (fresh_saveRow hfresh h.keyed ht hu))

theorem signalsAgree_map {f : Player → Player} (huid : ∀ p, (f p).userUid = p.userUid)
    (hstate : ∀ p, (f p).state = p.state) (h : SignalsAgree objects uid players) :
    SignalsAgree objects uid (players.map f) := by
  intro u hu hexists
  rw [playerExists_iff, rosterUids_map huid, ← playerExists_iff] at hexists
  rw [IsDisqualified, playerState, findPlayer_map huid, Option.map_map]
  rw [show Player.state ∘ f = Player.state from funext hstate]
  exact h u hu hexists

/-- The entry of an anonymized member, without a shown name. -/
def scrubEntry (anonymized : Uid → Bool) (p : Player) : Player :=
  if p.userUid.any anonymized && p.displayName.any (· != "") then { p with displayName := none }
  else p

theorem scrubEntry_userUid (anonymized : Uid → Bool) (p : Player) :
    (scrubEntry anonymized p).userUid = p.userUid := by
  unfold scrubEntry
  split <;> rfl

theorem scrubEntry_state (anonymized : Uid → Bool) (p : Player) :
    (scrubEntry anonymized p).state = p.state := by
  unfold scrubEntry
  split <;> rfl

theorem Agreeing.sync {deviceId : String} {payload : StoredTournament} (h : Agreeing objects uid)
    (hpayload : SignalsAgree objects uid payload.doc.players)
    (hserve : syncOffline env objects user uid deviceId payload = .ok objects') :
    Agreeing objects' uid := by
  obtain ⟨t, ht, -⟩ := h.row
  obtain ⟨-, -, rfl⟩ := (syncOffline_eq_ok ht).1 hserve
  have huid : t.uid = uid := h.keyed.uid_eq (tournament?_eq_some.1 ht)
  refine h.saveRow ht huid.symm ?_
  exact signalsAgree_map (scrubEntry_userUid _) (scrubEntry_state _) hpayload

/-! ### A device that comes back -/

/-- A live disqualification of the member is submitted. -/
def GoOnlineRequest.Disqualifies (request : GoOnlineRequest) (r : Resolution) (u : Uid) : Prop :=
  ∃ s ∈ request.offlineSanctions, s.isActiveDq = true ∧ s.deletedAt = none ∧ r.uid s.userUid = u

/-- A live disqualification of the member is stored, and no submitted sanction replaces it. -/
def GoOnlineRequest.Keeps (request : GoOnlineRequest) (objects : Objects) (uid u : Uid) : Prop :=
  ∃ k s, objects.sanction? k = some s ∧ s.Disqualifies uid u ∧
    ∀ s' ∈ request.offlineSanctions, s'.uid ≠ k

/-- The submitted sanctions have uids of their own, among themselves and beside the decks, and the
disqualifications are of this tournament; the submitted roster disqualifies whom the sanctions,
stored and submitted, disqualify. `r` says whom the players met offline stand for. -/
structure GoOnlineRequest.Carries (request : GoOnlineRequest) (objects : Objects) (uid : Uid)
    (r : Resolution) : Prop where
  distinct : (request.offlineSanctions.map StoredSanction.uid).Nodup
  decks : ∀ d ∈ request.offlineDecks, ∀ k ∈ d.uid, objects.sanction? k = none ∧
    ∀ s ∈ request.offlineSanctions, s.uid ≠ k
  here : ∀ s ∈ request.offlineSanctions, s.isActiveDq = true → s.deletedAt = none →
    s.tournamentUid = some uid
  agrees : ∀ p ∈ request.tournament.doc.players, ∀ v ∈ p.userUid,
    (p.state = .disqualified ∨ request.Disqualifies r (r.uid v)) ↔
      (request.Keeps objects uid (r.uid v) ∨ request.Disqualifies r (r.uid v))

theorem find?_sanction {s : StoredSanction} {sanctions : List StoredSanction}
    (hnodup : (sanctions.map StoredSanction.uid).Nodup) (hs : s ∈ sanctions) :
    sanctions.find? (fun s' => s'.uid == s.uid) = some s := by
  induction sanctions with
  | nil => cases hs
  | cons a as ih =>
    rw [List.map_cons, List.nodup_cons] at hnodup
    rw [List.find?_cons]
    rcases List.mem_cons.1 hs with rfl | hs
    · rw [beq_self_eq_true]
    · have hne : (a.uid == s.uid) = false := by
        rw [beq_eq_false_iff_ne]
        exact fun heq => hnodup.1 (heq ▸ List.mem_map_of_mem hs)
      rw [hne]
      exact ih hnodup.2 hs

theorem sanction?_saveOfflineSanctions {r : Resolution} {sanctions : List StoredSanction}
    (hnodup : (sanctions.map StoredSanction.uid).Nodup) (k : Uid) :
    (saveOfflineSanctions r objects sanctions).sanction? k =
      match sanctions.find? (fun s => s.uid == k) with
      | some s => some { s with userUid := r.uid s.userUid }
      | none => objects.sanction? k := by
  induction sanctions generalizing objects with
  | nil => rfl
  | cons a as ih =>
    rw [List.map_cons, List.nodup_cons] at hnodup
    change (saveOfflineSanctions r (saveSanction objects { a with userUid := r.uid a.userUid })
      as).sanction? k = _
    rw [ih hnodup.2, List.find?_cons]
    by_cases hk : a.uid = k
    · have hnone : as.find? (fun s => s.uid == k) = none := by
        rw [List.find?_eq_none]
        intro s hs heq
        exact hnodup.1 (by rw [hk, ← eq_of_beq heq]; exact List.mem_map_of_mem hs)
      have htrue : (a.uid == k) = true := beq_iff_eq.2 hk
      rw [hnone, htrue, sanction?_saveSanction]
      exact if_pos hk.symm
    · have hfalse : (a.uid == k) = false := beq_eq_false_iff_ne.2 hk
      rw [hfalse, sanction?_saveSanction]
      dsimp only
      rw [if_neg (Ne.symm hk)]

theorem hasActiveDq_submitted {r : Resolution} {request : GoOnlineRequest}
    (hkeyed : WellKeyed objects') (hcarries : request.Carries objects uid r)
    (hsanctions : ∀ k, objects'.sanction? k =
      match request.offlineSanctions.find? (fun s => s.uid == k) with
      | some s => some { s with userUid := r.uid s.userUid }
      | none => objects.sanction? k) :
    hasActiveDq objects' uid u = true ↔
      request.Keeps objects uid u ∨ request.Disqualifies r u := by
  rw [hasActiveDq_iff hkeyed]
  constructor
  · rintro ⟨k, s, hs, hdq⟩
    rw [hsanctions] at hs
    cases hfind : request.offlineSanctions.find? (fun s => s.uid == k) with
    | none =>
      rw [hfind] at hs
      refine .inl ⟨k, s, hs, hdq, fun s' hs' heq => ?_⟩
      exact List.find?_eq_none.1 hfind s' hs' (beq_iff_eq.2 heq)
    | some s' =>
      rw [hfind] at hs
      obtain rfl := Option.some.inj hs
      obtain ⟨-, hlive, huser, hactive⟩ := hdq
      exact .inr ⟨s', List.mem_of_find?_eq_some hfind, hactive, hlive, huser⟩
  · rintro (⟨k, s, hs, hdq, hapart⟩ | ⟨s, hs, hactive, hlive, huser⟩)
    · refine ⟨k, s, ?_, hdq⟩
      rw [hsanctions, List.find?_eq_none.2 fun s' hs' heq => hapart s' hs' (eq_of_beq heq)]
      exact hs
    · refine ⟨s.uid, { s with userUid := r.uid s.userUid }, ?_,
        hcarries.here s hs hactive hlive, hlive, huser, hactive⟩
      rw [hsanctions, find?_sanction hcarries.distinct hs]

/-- The entry as go-online saves it: whom it stands for, disqualified with a submitted sanction, and
without the shown name of an anonymized member. -/
def onlineEntry (r : Resolution) (request : GoOnlineRequest) (anonymized : Uid → Bool)
    (p : Player) : Player :=
  let q := remapPlayer r.uid p
  let active := (request.offlineSanctions.filter fun s =>
    s.level == .disqualification && s.liftedAt == none && s.deletedAt == none).map fun s =>
      r.uid s.userUid
  scrubEntry anonymized
    (if q.userUid.any fun u => decide (u ∈ active) then q.withState .disqualified else q)

theorem players_broughtOnline {r : Resolution} {request : GoOnlineRequest}
    {updated : StoredTournament}
    (h : broughtOnline env r request (some t) (pinned env uid request.tournament) = .ok updated) :
    updated.doc.players = request.tournament.doc.players.map
      (onlineEntry r request fun uid => (r.objects.user? uid).any fun u =>
        u.anonymizedAt.isSome) := by
  obtain ⟨-, rfl⟩ := broughtOnline_eq_ok.1 h
  have hstamp : ∀ t : StoredTournament, (stampFinish env t).doc.players = t.doc.players := by
    intro t
    unfold stampFinish
    split <;> rfl
  simp only [scrubAnonymizedCopies, scrub, doc_ensureEventCode, doc_markStale, hstamp,
    assertDisqualified, Env.localTimes, StoredTournament.touched, remapTournament, remapDoc,
    imposed, pinned, List.map_map]
  rfl

theorem onlineEntry_spec (r : Resolution) (request : GoOnlineRequest) (anonymized : Uid → Bool)
    (p : Player) :
    (onlineEntry r request anonymized p).userUid = p.userUid.map r.uid ∧
      ((onlineEntry r request anonymized p).state = .disqualified ↔
        p.state = .disqualified ∨ ∃ v ∈ p.userUid, request.Disqualifies r (r.uid v)) := by
  unfold onlineEntry
  extract_lets q active
  rw [scrubEntry_userUid, scrubEntry_state]
  have hactive : ∀ u, u ∈ active ↔ request.Disqualifies r u := by
    intro u
    simp only [active, List.mem_map, List.mem_filter, Bool.and_eq_true, beq_iff_eq,
      GoOnlineRequest.Disqualifies, StoredSanction.isActiveDq]
    constructor
    · rintro ⟨s, ⟨hs, ⟨hlevel, hlifted⟩, hlive⟩, huser⟩
      exact ⟨s, hs, ⟨hlevel, hlifted⟩, hlive, huser⟩
    · rintro ⟨s, hs, ⟨hlevel, hlifted⟩, hlive, huser⟩
      exact ⟨s, ⟨hs, ⟨hlevel, hlifted⟩, hlive⟩, huser⟩
  have hany : q.userUid.any (fun u => decide (u ∈ active)) = true ↔
      ∃ v ∈ p.userUid, request.Disqualifies r (r.uid v) := by
    simp only [q, remapPlayer, Option.any_eq_true, Option.map_eq_some_iff, decide_eq_true_eq,
      hactive, Option.mem_def]
    constructor
    · rintro ⟨u, ⟨v, hv, rfl⟩, hu⟩
      exact ⟨v, hv, hu⟩
    · rintro ⟨v, hv, hu⟩
      exact ⟨_, ⟨v, hv, rfl⟩, hu⟩
  split
  · rename_i hdq
    exact ⟨rfl, iff_of_true rfl (.inr (hany.1 hdq))⟩
  · rename_i hdq
    refine ⟨rfl, ?_⟩
    change p.state = .disqualified ↔ _
    exact ⟨.inl, fun h => h.resolve_right (hdq ∘ hany.2)⟩

theorem signalsAgree_online {r : Resolution} {request : GoOnlineRequest}
    (hkeyed : WellKeyed objects') (hcarries : request.Carries objects uid r)
    (hsanctions : ∀ k, objects'.sanction? k =
      match request.offlineSanctions.find? (fun s => s.uid == k) with
      | some s => some { s with userUid := r.uid s.userUid }
      | none => objects.sanction? k) (anonymized : Uid → Bool) :
    SignalsAgree objects' uid
      (request.tournament.doc.players.map (onlineEntry r request anonymized)) := by
  intro u _ hexists
  rw [hasActiveDq_submitted hkeyed hcarries hsanctions]
  have hfound : ∃ q, findPlayer
      (request.tournament.doc.players.map (onlineEntry r request anonymized)) u = some q := by
    rw [playerExists_iff] at hexists
    cases hq : findPlayer (request.tournament.doc.players.map
        (onlineEntry r request anonymized)) u with
    | none => exact absurd hexists (findPlayer_eq_none.1 hq)
    | some q => exact ⟨q, rfl⟩
  obtain ⟨q, hq⟩ := hfound
  obtain ⟨hmem, hqu⟩ := findPlayer_mem hq
  obtain ⟨p, hp, rfl⟩ := List.mem_map.1 hmem
  obtain ⟨huid, hstate⟩ := onlineEntry_spec r request anonymized p
  obtain ⟨v, hv, rfl⟩ := Option.map_eq_some_iff.1 (huid.symm.trans hqu)
  rw [← hcarries.agrees p hp v hv]
  have hmarked : IsDisqualified (request.tournament.doc.players.map
      (onlineEntry r request anonymized)) (r.uid v) ↔
      (onlineEntry r request anonymized p).state = .disqualified := by
    rw [IsDisqualified, playerState, hq, Option.map_some, Option.some.injEq]
  rw [hmarked, hstate, hv]
  simp only [Option.mem_def, Option.some.injEq, exists_eq_left']

theorem sanction?_resolved {r : Resolution} {temps : List Uid} (hr : r.Sound objects temps)
    (k : Uid) : r.objects.sanction? k = objects.sanction? k := by
  rcases hr.written k with heq | ⟨row, hrow, hres, v, hv⟩
  · exact sanction?_congr heq
  · have hafter : r.objects.find? k = some (.user v) := by
      rw [Objects.find?, hrow, Option.map_some, hv]
    rw [(readers_of_find? hafter).2]
    rcases hr.known k hres with huser | hnone
    · obtain ⟨w, hw⟩ := Option.isSome_iff_exists.1 huser
      obtain ⟨o, ho, hwo⟩ := Option.bind_eq_some_iff.1 hw
      rw [(readers_of_find? ho).2]
      cases o <;> simp [StoredObject.asUser, StoredObject.asSanction] at hwo ⊢
    · rw [(readers_of_lookup hnone).2]
      rfl

theorem sanction?_reconcile {r : Resolution} {request : GoOnlineRequest} {mid : Objects}
    {updated : StoredTournament} {temps : List Uid} (hr : r.Sound objects temps)
    (ht : objects.tournament? uid = some t) (hu : updated.uid = uid)
    (hcarries : request.Carries objects uid r)
    (hsaved : saveOfflineDecks r uid
      (saveOfflineSanctions r (saveRow r.objects updated) request.offlineSanctions)
      request.offlineDecks = .ok mid) (k : Uid) :
    mid.sanction? k =
      match request.offlineSanctions.find? (fun s => s.uid == k) with
      | some s => some { s with userUid := r.uid s.userUid }
      | none => objects.sanction? k := by
  have hrow : ∀ k, (saveRow r.objects updated).sanction? k = objects.sanction? k := fun k =>
    (sanction?_saveObject (hu.symm ▸ hr.tournament? ht) k).trans (sanction?_resolved hr k)
  have hkeyed := (written_saveOfflineSanctions (r := r) (W := fun _ _ => True)
    (wellKeyed_saveRow hr.keyed updated) request.offlineSanctions fun _ _ => trivial).2
  have hbefore := @sanction?_saveOfflineSanctions (saveRow r.objects updated) r _
    hcarries.distinct k
  rw [hrow] at hbefore
  have hwritten := (written_saveOfflineDecks (W := fun k o => (∃ d ∈ request.offlineDecks,
    d.uid = some k) ∧ ∃ d, o = .deck d) hkeyed (fun sub hsub k hk d => ⟨⟨sub, hsub, hk⟩, d, rfl⟩)
    hsaved).1
  rcases hwritten k with heq | ⟨row, hlookup, ⟨sub, hsub, hk⟩, d, hd⟩
  · exact (sanction?_congr heq).trans hbefore
  · have hafter : mid.find? k = some (.deck d) := by
      rw [Objects.find?, hlookup, Option.map_some, hd]
    obtain ⟨hnone, hapart⟩ := hcarries.decks sub hsub k hk
    rw [(readers_of_find? hafter).2, List.find?_eq_none.2 fun s hs heq =>
      hapart s hs (eq_of_beq heq)]
    exact hnone.symm

theorem Agreeing.online {store : Store} {request : GoOnlineRequest} {summary : GoOnlineSummary}
    (h : Agreeing store.objects uid) (hfresh : env.Fresh store.objects uid)
    (havoids : request.Avoids uid)
    (hcarries : request.Carries store.objects uid (onlineResolution env store user uid request))
    (hserve : goOnline env store user uid request = (objects', .ok summary)) :
    Agreeing objects' uid := by
  obtain ⟨t, ht, -⟩ := h.row
  obtain ⟨-, mid, updated, hok, rfl⟩ := goOnline_eq_ok hserve
  have hr : (onlineResolution env store user uid request).Sound store.objects _ :=
    Resolution.sound_of_resolve h.keyed (fun k => (hfresh k).1) _ _ _
  obtain ⟨hu, hrow, hmid⟩ := tournament?_reconcile hr havoids hok
  obtain ⟨-, -, hbrought, hsaved⟩ := reconcile_eq_ok.1 hok
  rw [hr.tournament? ht] at hbrought
  obtain ⟨row, hrecomputed, hspares⟩ := @spares_afterOnline env mid uid request updated hmid hrow
  have huid : row.uid = updated.uid := by
    rcases hrecomputed with rfl | ⟨sanctions, rfl⟩
    · rfl
    · have hdoc := uid_applySanction updated.toEngine sanctions .adjust
      exact congrArg (fun u : Option Uid => u.getD "") hdoc
  have hsanctions : ∀ k, (afterOnline env uid request mid updated).sanction? k = mid.sanction? k :=
    fun k => (hspares.sanctions k).trans
      (sanction?_saveObject (huid.trans hu ▸ hrow) k)
  refine ⟨hspares.keyed, row, (hspares.tournaments uid).trans
    (tournament?_saveTournament_of hmid hrow huid), ?_⟩
  have hagree : SignalsAgree (afterOnline env uid request mid updated) uid updated.doc.players := by
    rw [players_broughtOnline hbrought]
    exact signalsAgree_online hspares.keyed hcarries (fun k => (hsanctions k).trans
      (sanction?_reconcile hr ht hu hcarries hsaved k)) _
  rcases hrecomputed with rfl | ⟨sanctions, rfl⟩
  · exact hagree
  · intro u hne hexists
    obtain ⟨hmark, hkept⟩ := @players_applySanction updated.toEngine u sanctions .adjust
    exact hmark.trans (hagree u hne (hkept.symm.trans hexists))

/-! ### Runs -/

/-- The sanction routes, the actions and the offline routes. -/
def Request.movesSignals : Request → Bool
  | .action .. | .createSanction .. | .updateSanction .. | .deleteSanction .. | .goOffline ..
  | .forceTakeover .. | .forceUnlock .. | .syncOffline .. | .goOnline .. => true
  | _ => false

end Signals

/-- A stored tournament whose signals agree, and the accepted requests about it. New uids are
stored nowhere. -/
def signalsSystem (uid : Uid) : System Objects Call where
  init objects := uid ≠ "" ∧ Agreeing objects uid
  step objects c objects' := c.request.movesSignals = true ∧ c.env.Fresh objects uid ∧
    c.Concerns objects uid ∧ serve objects c = .ok objects'

/-- What the code relies on and does not check: the event heeds the disqualified players, a sanction
whose level is raised to a disqualification is not deleted, and a roster sent by a device agrees
with the sanctions. -/
def Call.Heeds (uid : Uid) (objects : Objects) (c : Call) : Prop :=
  match c.request with
  | .action _ event => ∀ t, objects.tournament? uid = some t →
      Backend.Heeds objects uid t.doc.players event
  | .updateSanction sanctionUid request => request.level = some .disqualification →
      ∀ s, objects.sanction? sanctionUid = some s → s.deletedAt = none
  | .syncOffline _ payload => SignalsAgree objects uid payload.doc.players
  | .goOnline request => request.Avoids uid ∧ request.Carries objects uid
      (onlineResolution c.env (c.store objects) c.user uid request)
  | _ => True

section Runs

variable {objects objects' : Objects} {uid : Uid} {c : Call}

theorem Agreeing.step (h : Agreeing objects uid) (huid : uid ≠ "") (hheeds : c.Heeds uid objects)
    (hstep : (signalsSystem uid).step objects c objects') : Agreeing objects' uid := by
  obtain ⟨hmoves, hfresh, hconcerns, hserve⟩ := hstep
  obtain ⟨t, ht, hagree⟩ := h.row
  obtain ⟨env, authMethods, user, path, request⟩ := c
  cases request with
  | action oauthTournament event =>
    obtain rfl : path = uid := hconcerns
    exact h.action hfresh hheeds hserve
  | createSanction oauthTournament request => exact h.create hfresh hconcerns hserve
  | updateSanction sanctionUid request =>
    obtain ⟨s, hs, -⟩ := updateSanction_eq_ok hserve
    exact h.update huid hs (hconcerns s hs) (fun hlevel => hheeds hlevel s hs) hserve
  | deleteSanction sanctionUid =>
    obtain ⟨s, hs, -⟩ := deleteSanction_eq_ok hserve
    exact h.delete huid hs (hconcerns s hs) hserve
  | goOffline deviceId =>
    obtain rfl : path = uid := hconcerns
    obtain ⟨t', ht', -, -, rfl⟩ := goOffline_eq_ok.1 hserve
    obtain rfl : t = t' := Option.some.inj (ht.symm.trans ht')
    exact h.saveRow ht rfl hagree
  | forceTakeover deviceId =>
    obtain rfl : path = uid := hconcerns
    obtain ⟨t', ht', -, -, rfl⟩ := forceTakeover_eq_ok.1 hserve
    obtain rfl : t = t' := Option.some.inj (ht.symm.trans ht')
    exact h.saveRow ht rfl hagree
  | forceUnlock oauthClient =>
    obtain rfl : path = uid := hconcerns
    obtain ⟨-, -, t', ht', -, rfl⟩ := forceUnlock_eq_ok.1 hserve
    obtain rfl : t = t' := Option.some.inj (ht.symm.trans ht')
    exact h.saveRow ht rfl hagree
  | syncOffline deviceId payload =>
    obtain rfl : path = uid := hconcerns
    exact h.sync hheeds hserve
  | goOnline request =>
    obtain rfl : path = uid := hconcerns
    unfold serve at hserve
    dsimp only at hserve
    cases hresult : (goOnline env ⟨objects, authMethods⟩ user path request).2 with
    | error e =>
      rw [Call.store, hresult] at hserve
      cases hserve
    | ok summary =>
      rw [Call.store, hresult] at hserve
      obtain rfl := Except.ok.inj hserve
      have hstore : Agreeing (⟨objects, authMethods⟩ : Store).objects path := h
      exact hstore.online hfresh hheeds.1 hheeds.2 (Prod.ext rfl hresult)
  | _ => cases hmoves

/-- In every run whose requests heed the disqualified players, every rostered player is marked
exactly with a live disqualification. -/
theorem signalsAgree_of_reaches (h : (signalsSystem uid).Reaches (fun objects c =>
    c.Heeds uid objects) objects) :
    ∀ t, objects.tournament? uid = some t → SignalsAgree objects uid t.doc.players := by
  have hagreeing : uid ≠ "" ∧ Agreeing objects uid :=
    System.Reaches.invariant (P := fun objects => uid ≠ "" ∧ Agreeing objects uid) (fun _ => id)
      (fun _ _ _ hp hheeds hstep => ⟨hp.1, hp.2.step hp.1 hheeds hstep⟩) h
  intro t ht
  obtain ⟨t', ht', hagree⟩ := hagreeing.2.row
  obtain rfl := Option.some.inj (ht.symm.trans ht')
  exact hagree

end Runs

/-! ### A disqualified player drops out -/

/-- A request of the organizer, its new uids under a tag. -/
def tagged (x : String × Request) : Call :=
  ⟨venueAt x.1, [], member "prince" [.prince], "event", x.2⟩

/-- The disqualification of the first player, and events. -/
def dqOrEvent : Request → Bool
  | .action .. => true
  | .createSanction _ request => request.tournamentUid == some "event"
  | _ => false

theorem checkinTable_agreeing : (signalsSystem "event").init checkinTable := by
  refine ⟨by decide, checkinTable_keyed, checkinEvent, rfl, fun u _ _ => ?_⟩
  have hnone : getSanctionsForTournament checkinTable "event" = [] := by decide +kernel
  have hinactive : hasActiveDq checkinTable "event" u = false := by
    rw [hasActiveDq, hnone]
    rfl
  rw [hinactive]
  refine iff_of_false (fun hd => ?_) Bool.false_ne_true
  obtain ⟨p, hp, hs⟩ := isDisqualified_iff.1 hd
  have hmem := (findPlayer_mem hp).1
  simp only [checkinEvent, List.mem_cons, List.not_mem_nil, or_false] at hmem
  rcases hmem with rfl | rfl <;> cases hs

/-- A replay of tagged requests that meet `pass`. -/
def replayTagged (pass : Request → Bool) (xs : List (String × Request)) : Option Objects :=
  System.replay (fun objects x => serve objects (tagged x)) (fun objects x =>
    ((∀ k ∈ objects.keys, k.length < x.1.length) ∧ "event".length < x.1.length) ∧
      dqOrEvent x.2 = true ∧ pass x.2 = true) checkinTable xs

theorem reaches_replayTagged {ok : Objects → Call → Prop} {pass : Request → Bool}
    (hok : ∀ objects x, pass x.2 = true → ok objects (tagged x)) {xs : List (String × Request)}
    {objects : Objects} (h : replayTagged pass xs = some objects) :
    (signalsSystem "event").Reaches ok objects := by
  refine System.reaches_replay_of (fun s x hx => hok s x hx.2.2) (fun s x s' hx hstep => ?_) xs
    checkinTable objects (.init checkinTable_agreeing) h
  obtain ⟨⟨hkeys, htag⟩, hkind, -⟩ := hx
  obtain ⟨tag, request⟩ := x
  refine ⟨?_, venueAt_fresh hkeys htag, ?_, hstep⟩
  · cases request <;> first | rfl | cases hkind
  · cases request with
    | action => exact rfl
    | createSanction oauthTournament request => exact eq_of_beq hkind
    | _ => cases hkind

/-- A disqualification alone is in both signals. -/
theorem disqualified_agree : ∃ (objects : Objects) (t : StoredTournament),
    objects.tournament? "event" = some t ∧ IsDisqualified t.doc.players "a" ∧
      SignalsAgree objects "event" t.doc.players := by
  have hrun : (replayTagged (fun r => r matches .createSanction ..)
      [("new-object-", .createSanction none (mistaken "a"))]).any (fun objects =>
        (objects.tournament? "event").any fun t =>
          decide (IsDisqualified t.doc.players "a")) = true := by
    decide +kernel
  obtain ⟨objects, hobjects, hresult⟩ := (Option.any_eq_true _ _).1 hrun
  obtain ⟨t, ht, hdq⟩ := (Option.any_eq_true _ _).1 hresult
  have hreaches := @reaches_replayTagged (fun objects c => c.Heeds "event" objects) _
    (fun _ x hx => by
      obtain ⟨tag, request⟩ := x
      cases request <;> first | trivial | cases hx) _ objects hobjects
  exact ⟨objects, t, ht, of_decide_eq_true hdq, signalsAgree_of_reaches hreaches t ht⟩

/-- The player drops out: the sanction stands, the mark is gone. -/
theorem dropped_out_disagree : ∃ (objects : Objects) (t : StoredTournament),
    (signalsSystem "event").Reachable objects ∧ objects.tournament? "event" = some t ∧
      ¬SignalsAgree objects "event" t.doc.players := by
  have hrun : (replayTagged (fun _ => true)
      [("new-object-", .createSanction none (mistaken "a")),
        ("another-object-", .action none (.dropOut "a"))]).any (fun objects =>
        (objects.tournament? "event").any fun t =>
          playerExists t.doc.players "a" && !decide (IsDisqualified t.doc.players "a") &&
            hasActiveDq objects "event" "a") = true := by
    decide +kernel
  obtain ⟨objects, hobjects, hresult⟩ := (Option.any_eq_true _ _).1 hrun
  obtain ⟨t, ht, hdq⟩ := (Option.any_eq_true _ _).1 hresult
  rw [Bool.and_eq_true, Bool.and_eq_true, Bool.not_eq_true', decide_eq_false_iff_not] at hdq
  obtain ⟨⟨hexists, hunmarked⟩, hactive⟩ := hdq
  have hreaches := @reaches_replayTagged (fun _ _ => True) _ (fun _ _ _ => trivial) _ objects
    hobjects
  exact ⟨objects, t, hreaches, ht, fun h =>
    hunmarked ((h "a" (by decide) hexists).2 hactive)⟩

end Archon.Backend

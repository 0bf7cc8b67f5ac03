import Archon.Backend.Offline

/-!
# The server's own writes to a tournament row

The fields a client never owns change by the banner routes, the VEKN push and synchronisation, the
submission to the archive and the stamp of the event code. Each reads the current row under its
lock and saves it with the field changed; the results marked stale follow a change of the document.
-/

namespace Archon.Backend
open Engine

/-- `external_ids[system] = id`. -/
def setExternalId (ids : List (String × String)) (system id : String) : List (String × String) :=
  if ids.any (fun e => e.1 == system) then
    ids.map fun e => if e.1 = system then (system, id) else e
  else ids ++ [(system, id)]

theorem lookup_map_setExternalId {ids : List (String × String)} {system s id : String}
    (h : s ≠ system) :
    (ids.map fun e => if e.1 = system then (system, id) else e).lookup s = ids.lookup s := by
  induction ids with
  | nil => rfl
  | cons p ids ih =>
    obtain ⟨k, v⟩ := p
    rw [List.map_cons]
    by_cases hk : k = system
    · have hsk : (s == k) = false := by simpa [hk] using h
      have hss : (s == system) = false := by simpa using h
      rw [if_pos hk, List.lookup_cons, List.lookup_cons, hsk, hss]
      exact ih
    · rw [if_neg hk, List.lookup_cons, List.lookup_cons, ih]

theorem lookup_setExternalId {ids : List (String × String)} {system s id : String}
    (h : s ≠ system) : (setExternalId ids system id).lookup s = ids.lookup s := by
  unfold setExternalId
  split
  · exact lookup_map_setExternalId h
  · have hs : (s == system) = false := by simpa using h
    rw [List.lookup_append, List.lookup_cons, hs]
    exact Option.or_none ..

theorem lookup_setExternalId_self (ids : List (String × String)) (system id : String) :
    (setExternalId ids system id).lookup system = some id := by
  unfold setExternalId
  split
  · rename_i hany
    induction ids with
    | nil => simp at hany
    | cons e ids ih =>
      rw [List.map_cons]
      by_cases he : e.1 = system
      · rw [if_pos he, List.lookup_cons, beq_self_eq_true]
      · rw [if_neg he]
        have hne : (system == e.1) = false := by simpa using Ne.symm he
        obtain ⟨k, v⟩ := e
        rw [List.lookup_cons, hne]
        refine ih ?_
        simpa [he] using hany
  · rename_i hany
    rw [List.lookup_append, List.lookup_eq_none_iff.2 ?_, Option.none_or]
    · simp
    · intro e he
      rw [Bool.not_eq_true, List.any_eq_false] at hany
      rw [bne_iff_ne]
      exact fun heq => hany e he (by rw [heq, beq_self_eq_true])

inductive ServerWrite where
  /-- `tournaments.py:503`, `571`. -/
  | banner (path : Option String)
  /-- `vekn_push.py:272`, `vekn_tournament_sync.py:457`, `twda_import.py:301`. -/
  | externalId (system id : String)
  /-- `vekn_push.py:335`. -/
  | resultsPushed
  /-- `vekn_tournament_sync.py:469`. -/
  | eventAbsence (gone : Bool)
  /-- `twda.py:372`. -/
  | twdaRecorded (outcome : TwdaOutcome) (reason prUrl : String)
  /-- `db.py:1241`. -/
  | eventCodeEnsured
  /-- An event or a reflected sanction that changed the document. -/
  | document (doc : Tournament)
  /-- `vekn_tournament_sync.py:719`: the row of an event without rounds, rebuilt. -/
  | rebuilt (doc : Tournament) (externalIds : List (String × String)) (pushedAt : Option Stamp)

/-- The banner routes refuse a locked tournament; the others write it. -/
def ServerWrite.accepted (t : StoredTournament) : ServerWrite → Bool
  | banner _ => !t.lock.offlineMode
  | rebuilt .. => t.doc.rounds.isEmpty
  | _ => true

/-- The row after the write. -/
def ServerWrite.apply (env : Env) (objects : Objects) (t : StoredTournament) :
    ServerWrite → StoredTournament
  | banner path => { t.touched env.now with owned := { t.owned with bannerPath := path } }
  | externalId system id =>
    { t.touched env.now with
      owned := { t.owned with externalIds := setExternalId t.owned.externalIds system id } }
  | resultsPushed =>
    { t.touched env.now with owned := { t.owned with veknPushedAt := some env.now } }
  | eventAbsence gone =>
    -- an absence already recorded keeps the instant it was first confirmed
    if gone = t.owned.veknEventAbsentAt.isSome then t
    else
      { t.touched env.now with
        owned := { t.owned with veknEventAbsentAt := if gone then some env.now else none } }
  | twdaRecorded outcome reason prUrl =>
    if t.owned.twdaStatus.any fun s =>
        s.outcome == outcome && s.reason == reason && s.prUrl == prUrl then t
    else
      { t.touched env.now with
        owned := { t.owned with twdaStatus := some ⟨outcome, reason, prUrl, some env.now⟩ } }
  | eventCodeEnsured =>
    if t.owned.eventCode = "" then ensureEventCode env objects (t.touched env.now) else t
  | document doc => t.withDoc { doc with uid := t.doc.uid } env.now
  | rebuilt doc externalIds pushedAt =>
    { doc := { doc with uid := t.doc.uid, modified := some env.now }
      owned := { t.owned with
        bannerPath := none
        externalIds := externalIds.foldl (fun ids e =>
          setExternalId ids e.1 e.2) t.owned.externalIds
        veknPushedAt := pushedAt
        veknResultsStale := false }
      lock := .released
      announcements := []
      deletedAt := none }

section ServerWrites

variable {env : Env} {objects : Objects} {t : StoredTournament} {w : ServerWrite}

theorem ServerWrite.uid_apply : (w.apply env objects t).uid = t.uid := by
  cases w with
  | twdaRecorded | eventAbsence =>
    simp only [apply]
    split <;> rfl
  | eventCodeEnsured =>
    simp only [apply, ensureEventCode]
    split
    · split <;> rfl
    · rfl
  | _ => rfl

end ServerWrites

end Archon.Backend

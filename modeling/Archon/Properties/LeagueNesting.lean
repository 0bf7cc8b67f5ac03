import Archon.Backend.Leagues
import Archon.Backend.Scenario

/-!
# Nesting of leagues

A meta league never has a parent and the kind of a league never changes, so the hierarchy has two
levels. A meta league with live children is not deleted; but a league can be attached to a meta
league that is deleted already, since the attaching routes find deleted rows like any other.
-/

namespace Archon.Backend
open Engine Guards

section Nesting

variable {leagues leagues' : Leagues} {call : LeagueCall}

/-- A live meta league. -/
def IsRoot (leagues : Leagues) (uid : Uid) : Prop :=
  ∃ m, leagues.lookup uid = some m ∧ m.kind = .metaLeague ∧ m.deletedAt = none

/-- Every live league with a parent has a live meta league above it, which has none. -/
def LeaguesNested (leagues : Leagues) : Prop :=
  ∀ uid l, leagues.lookup uid = some l → l.deletedAt = none → ∀ p, l.parent = some p →
    ∃ m, leagues.lookup p = some m ∧ m.deletedAt = none ∧ m.kind = .metaLeague ∧ m.parent = none

/-- No live league is attached to a deleted one. -/
def AttachesToLive (leagues : Leagues) (call : LeagueCall) : Prop :=
  match call.request with
  | .create data => ∀ p ∈ truthy data.parentUid, ∀ m ∈ leagues.lookup p, m.deletedAt = none
  | .update uid data => ∀ p ∈ data.parentUid.bind truthy, ∀ l ∈ leagues.lookup uid,
      l.deletedAt = none → ∀ m ∈ leagues.lookup p, m.deletedAt = none
  | _ => True

instance (leagues : Leagues) (call : LeagueCall) : Decidable (AttachesToLive leagues call) := by
  unfold AttachesToLive
  split <;> infer_instance

/-- The invariant: rows under their uid, no parent above a meta league, a live one above a live
league that has a parent. -/
structure LeagueTree (leagues : Leagues) : Prop where
  named : ∀ uid l, leagues.lookup uid = some l → l.uid = uid
  flat : ∀ uid l, leagues.lookup uid = some l → l.kind = .metaLeague → l.parent = none
  rooted : ∀ uid l, leagues.lookup uid = some l → l.deletedAt = none →
    ∀ p, l.parent = some p → IsRoot leagues p

theorem LeagueTree.nested (h : LeagueTree leagues) : LeaguesNested leagues := by
  intro uid l hl hlive p hp
  obtain ⟨m, hm, hkind, hdeleted⟩ := h.rooted uid l hl hlive p hp
  exact ⟨m, hm, hdeleted, hkind, h.flat p m hm hkind⟩

theorem leagueTree_empty : LeagueTree ∅ where
  named uid l hl := by simp at hl
  flat uid l hl := by simp at hl
  rooted uid l hl := by simp at hl

/-! ### Saving a league -/

theorem LeagueTree.save (h : LeagueTree leagues) {l : League}
    (hkind : ∀ l₀, leagues.lookup l.uid = some l₀ → l.kind = l₀.kind)
    (hflat : l.kind = .metaLeague → l.parent = none)
    (hrooted : l.deletedAt = none → ∀ p, l.parent = some p → IsRoot leagues p)
    (hlive : ∀ uid c, leagues.lookup uid = some c → c.deletedAt = none →
      c.parent = some l.uid → l.deletedAt = none) : LeagueTree (saveLeague leagues l) := by
  -- A root stays one unless it is the row saved.
  have hother : ∀ p, p ≠ l.uid → IsRoot leagues p → IsRoot (saveLeague leagues l) p := by
    rintro p hp ⟨m, hm, hroot⟩
    exact ⟨m, by rwa [saveLeague, AList.lookup_insert_ne hp], hroot⟩
  refine ⟨fun uid c hc => ?_, fun uid c hc => ?_, fun uid c hc hdeleted p hp => ?_⟩
  · by_cases huid : uid = l.uid
    · rw [huid, saveLeague, AList.lookup_insert] at hc
      rw [huid, ← Option.some.inj hc]
    · rw [saveLeague, AList.lookup_insert_ne huid] at hc
      exact h.named uid c hc
  · by_cases huid : uid = l.uid
    · rw [huid, saveLeague, AList.lookup_insert] at hc
      rw [← Option.some.inj hc]
      exact hflat
    · rw [saveLeague, AList.lookup_insert_ne huid] at hc
      exact h.flat uid c hc
  · by_cases huid : uid = l.uid
    · rw [huid, saveLeague, AList.lookup_insert] at hc
      obtain rfl := Option.some.inj hc
      have hroot := hrooted hdeleted p hp
      refine hother p (fun heq => ?_) hroot
      obtain ⟨m, hm, hmeta, -⟩ := hroot
      rw [heq] at hm
      rw [hflat ((hkind m hm).trans hmeta)] at hp
      cases hp
    · rw [saveLeague, AList.lookup_insert_ne huid] at hc
      have hroot := h.rooted uid c hc hdeleted p hp
      by_cases heq : p = l.uid
      · obtain ⟨m, hm, hmeta, -⟩ := hroot
        rw [heq] at hm hp ⊢
        exact ⟨l, AList.lookup_insert _, (hkind m hm).trans hmeta, hlive uid c hc hdeleted hp⟩
      · exact hother p heq hroot

theorem LeagueTree.edit (h : LeagueTree leagues) {uid : Uid} {l₀ l : League}
    (hl₀ : leagues.lookup uid = some l₀) (huid : l.uid = l₀.uid) (hkind : l.kind = l₀.kind)
    (hdeleted : l.deletedAt = l₀.deletedAt)
    (hflat : l.kind = .metaLeague → l.parent = none)
    (hrooted : l.deletedAt = none → ∀ p, l.parent = some p → IsRoot leagues p) :
    LeagueTree (saveLeague leagues l) := by
  have hname : l.uid = uid := huid.trans (h.named uid l₀ hl₀)
  refine h.save (fun m hm => ?_) hflat hrooted fun cuid c hc hcdeleted hp => ?_
  · rw [hname, hl₀] at hm
    rw [hkind, Option.some.inj hm]
  · obtain ⟨m, hm, -, hmdeleted⟩ := h.rooted cuid c hc hcdeleted _ hp
    rw [hname, hl₀] at hm
    rw [hdeleted, Option.some.inj hm, hmdeleted]

theorem LeagueTree.editRest (h : LeagueTree leagues) {uid : Uid} {l₀ l : League}
    (hl₀ : leagues.lookup uid = some l₀) (huid : l.uid = l₀.uid) (hkind : l.kind = l₀.kind)
    (hdeleted : l.deletedAt = l₀.deletedAt) (hparent : l.parentUid = l₀.parentUid) :
    LeagueTree (saveLeague leagues l) := by
  have hparent' : l.parent = l₀.parent := by rw [League.parent, hparent, League.parent]
  refine h.edit hl₀ huid hkind hdeleted (fun hmeta => ?_) fun hlive p hp => ?_
  · rw [hparent']
    exact h.flat uid l₀ hl₀ (hkind ▸ hmeta)
  · rw [hparent'] at hp
    exact h.rooted uid l₀ hl₀ (hdeleted ▸ hlive) p hp

/-! ### The routes -/

theorem checkParent_ok {p : Uid} {x : Unit} (h : checkParent leagues p = .ok x) :
    ∃ m, leagues.lookup p = some m ∧ m.kind = .metaLeague := by
  simp only [checkParent, bind_eq_ok, okOr_eq_ok, ensure_eq_ok, exists_const] at h
  obtain ⟨m, hm, hkind, -⟩ := h
  exact ⟨m, hm, hkind⟩

theorem editedLeague_ok {user : Option User} {uid : Uid} {refusal : String} {l : League}
    (h : editedLeague leagues user uid refusal = .ok l) : leagues.lookup uid = some l := by
  simp only [editedLeague, bind_eq_ok, okOr_eq_ok, ensure_eq_ok, exists_const, pure_eq_ok] at h
  obtain ⟨-, -, l', hl, -, rfl⟩ := h
  exact hl

theorem LeagueTree.create (h : LeagueTree leagues) {data : LeagueCreate}
    (hfresh : call.registry.newUid ∉ leagues)
    (hok : ∀ p ∈ truthy data.parentUid, ∀ m ∈ leagues.lookup p, m.deletedAt = none)
    (hs : createLeague call.registry leagues call.user data = .ok leagues') :
    LeagueTree leagues' := by
  simp only [createLeague, bind_eq_ok, okOr_eq_ok, ensure_eq_ok, exists_const, pure_eq_ok] at hs
  obtain ⟨user, -, -, _, hparent, hmeta, country, -, rfl⟩ := hs
  have hnew : leagues.lookup call.registry.newUid = none := AList.lookup_eq_none.2 hfresh
  refine h.save (fun l₀ hl₀ => ?_) hmeta (fun _ p hp => ?_) fun uid c hc hlive hp => ?_
  · exact absurd (hnew.symm.trans hl₀) (by simp)
  · replace hp : truthy data.parentUid = some p := hp
    rw [hp] at hparent
    obtain ⟨m, hm, hkind⟩ := checkParent_ok hparent
    exact ⟨m, hm, hkind, hok p hp m hm⟩
  · rfl

theorem LeagueTree.update (h : LeagueTree leagues) {uid : Uid} {data : LeagueUpdate}
    (hok : ∀ p ∈ data.parentUid.bind truthy, ∀ l ∈ leagues.lookup uid,
      l.deletedAt = none → ∀ m ∈ leagues.lookup p, m.deletedAt = none)
    (hs : updateLeague call.registry leagues call.user uid data = .ok leagues') :
    LeagueTree leagues' := by
  simp only [updateLeague, bind_eq_ok, pure_eq_ok] at hs
  obtain ⟨l, hl, country, -, _, hcheck, rfl⟩ := hs
  have hrow := editedLeague_ok hl
  cases hdata : data.parentUid with
  | none => exact h.editRest hrow rfl rfl rfl (by simp [updatedLeague, hdata])
  | some newParent =>
    rw [hdata] at hcheck hok
    simp only [Option.elim_some, checkNewParent, bind_eq_ok, ensure_eq_ok, exists_const] at hcheck
    obtain ⟨hkind, hcheck⟩ := hcheck
    have hparent : (updatedLeague call.registry l data country).parent = truthy newParent := by
      simp [League.parent, updatedLeague, hdata]
    refine h.edit hrow rfl rfl rfl (fun hmeta => absurd hmeta hkind) fun hlive p hp => ?_
    rw [hparent] at hp
    rw [hp] at hcheck
    simp only [Option.elim_some, bind_eq_ok, ensure_eq_ok, exists_const] at hcheck
    obtain ⟨m, hm, hmeta⟩ := checkParent_ok hcheck.2
    exact ⟨m, hm, hmeta, hok p hp l hrow hlive m hm⟩

theorem LeagueTree.delete (h : LeagueTree leagues) {uid : Uid}
    (hs : deleteLeague call.registry leagues call.user uid = .ok leagues') :
    LeagueTree leagues' := by
  simp only [deleteLeague, bind_eq_ok, ensure_eq_ok, exists_const, pure_eq_ok] at hs
  obtain ⟨l, hl, hchildren, rfl⟩ := hs
  have hrow := editedLeague_ok hl
  have hname := h.named uid l hrow
  refine h.save (fun m hm => ?_) (h.flat uid l hrow) (fun hlive => absurd hlive (by simp))
    fun cuid c hc hlive hp => ?_
  · rw [hname, hrow] at hm
    rw [← Option.some.inj hm]
  · -- A live child would have been seen.
    rw [hname] at hp
    obtain ⟨m, hm, hmeta, -⟩ := h.rooted cuid c hc hlive uid hp
    rw [hrow] at hm
    obtain rfl := Option.some.inj hm
    have hmem : c ∈ getChildLeagues leagues uid := by
      refine List.mem_filter.2 ⟨List.mem_map.2 ⟨⟨cuid, c⟩, AList.mem_lookup_iff.1 hc, rfl⟩, ?_⟩
      simpa using (Option.filter_eq_some_iff.1 hp).1
    exact absurd hlive (hchildren hmeta c hmem)

theorem LeagueTree.step (h : LeagueTree leagues) (hok : AttachesToLive leagues call)
    (hs : leagueSystem.step leagues call leagues') : LeagueTree leagues' := by
  obtain ⟨hfresh, hs⟩ := hs
  unfold LeagueCall.serve at hs
  unfold AttachesToLive at hok
  cases hrequest : call.request with
  | create data =>
    rw [hrequest] at hs hok
    exact h.create hfresh hok hs
  | update uid data =>
    rw [hrequest] at hs hok
    exact h.update hok hs
  | delete uid =>
    rw [hrequest] at hs
    exact h.delete hs
  | addOrganizer uid userUid =>
    rw [hrequest] at hs
    simp only [addLeagueOrganizer, bind_eq_ok, ensure_eq_ok, exists_const] at hs
    obtain ⟨l, hl, -, hs⟩ := hs
    split at hs
    · exact pure_eq_ok.1 hs ▸ h
    · exact pure_eq_ok.1 hs ▸ h.editRest (editedLeague_ok hl) rfl rfl rfl rfl
  | removeOrganizer uid organizerUid =>
    rw [hrequest] at hs
    simp only [removeLeagueOrganizer, bind_eq_ok] at hs
    obtain ⟨l, hl, hs⟩ := hs
    split at hs
    · simp only [bind_eq_ok, ensure_eq_ok, exists_const, pure_eq_ok] at hs
      exact hs.2 ▸ h.editRest (editedLeague_ok hl) rfl rfl rfl rfl
    · exact pure_eq_ok.1 hs ▸ h

theorem LeagueTree.attaches_of_nested (h : LeagueTree leagues)
    (hs : leagueSystem.step leagues call leagues') (hnested : LeaguesNested leagues') :
    AttachesToLive leagues call := by
  obtain ⟨hfresh, hs⟩ := hs
  unfold LeagueCall.serve at hs
  unfold AttachesToLive
  cases hrequest : call.request with
  | create data =>
    rw [hrequest] at hs
    simp only [createLeague, bind_eq_ok, okOr_eq_ok, ensure_eq_ok, exists_const, pure_eq_ok] at hs
    obtain ⟨user, -, -, _, -, -, country, -, rfl⟩ := hs
    intro p hp m hm
    have hne : p ≠ (newLeague call.registry user data country).uid := by
      rintro rfl
      exact absurd ((AList.lookup_eq_none.2 hfresh).symm.trans hm) (by simp)
    obtain ⟨m', hm', hlive, -⟩ := hnested call.registry.newUid _ (AList.lookup_insert _) rfl p hp
    rw [saveLeague, AList.lookup_insert_ne hne] at hm'
    rwa [Option.some.inj (hm.symm.trans hm')]
  | update uid data =>
    rw [hrequest] at hs
    simp only [updateLeague, bind_eq_ok, pure_eq_ok] at hs
    obtain ⟨l, hl, country, -, _, hcheck, rfl⟩ := hs
    intro p hp l' hl' hlive m hm
    obtain ⟨newParent, hdata, hp⟩ := Option.bind_eq_some_iff.1 hp
    have hrow := editedLeague_ok hl
    obtain rfl := Option.some.inj (hrow.symm.trans hl')
    have hname := h.named uid l hrow
    rw [hdata] at hcheck
    simp only [Option.elim_some, checkNewParent, hp, bind_eq_ok, ensure_eq_ok, exists_const]
      at hcheck
    have hne : p ≠ l.uid := hname ▸ hcheck.2.1
    have hparent : (updatedLeague call.registry l data country).parent = some p := by
      rw [League.parent, updatedLeague, hdata]
      exact hp
    obtain ⟨m', hm', hlive', -⟩ :=
      hnested l.uid (updatedLeague call.registry l data country) (AList.lookup_insert _) hlive p
        hparent
    have hother : (saveLeague leagues (updatedLeague call.registry l data country)).lookup p =
        leagues.lookup p := AList.lookup_insert_ne hne
    rw [hother] at hm'
    rwa [Option.some.inj (hm.symm.trans hm')]
  | _ => trivial

/-- In every run that attaches no live league to a deleted one, every live league with a parent
has a live meta league above it, which has none; the next request keeps that exactly when it
attaches no live league to a deleted one either. -/
theorem leaguesNested_of_reaches (h : leagueSystem.Reaches AttachesToLive leagues) :
    LeaguesNested leagues ∧ ∀ call leagues', leagueSystem.step leagues call leagues' →
      (LeaguesNested leagues' ↔ AttachesToLive leagues call) := by
  have htree : LeagueTree leagues := by
    refine h.invariant (fun s hs => ?_) fun s i s' hp hok hs => hp.step hok hs
    rw [show s = ∅ from hs]
    exact leagueTree_empty
  exact ⟨htree.nested, fun call leagues' hs =>
    ⟨htree.attaches_of_nested hs, fun hok => (htree.step hok hs).nested⟩⟩

/-! ### Runs -/

/-- The official who runs the leagues. -/
def leagueOfficial : User := member "ic" [.ic]

/-- A request of the official, with the uid a new league would get. -/
def leagueCall (newUid : Uid) (request : LeagueRequest) : LeagueCall :=
  ⟨⟨"", newUid, id, [], fun _ => false⟩, fun _ => none, some leagueOfficial, request⟩

/-- The rows after the requests, if all are accepted, under new uids, and meet the condition. -/
def leaguesAfter (ok : Leagues → LeagueCall → Prop) [∀ s i, Decidable (ok s i)]
    (calls : List LeagueCall) : Option Leagues :=
  System.replay (fun s i => LeagueCall.serve s i)
    (fun s i => i.registry.newUid ∉ s ∧ ok s i) ∅ calls

theorem exists_reaches_of_leaguesAfter (ok : Leagues → LeagueCall → Prop)
    [∀ s i, Decidable (ok s i)] (calls : List LeagueCall) (p : Leagues → Bool)
    (h : (leaguesAfter ok calls).any p = true) :
    ∃ leagues, leagueSystem.Reaches ok leagues ∧ p leagues = true := by
  cases hr : leaguesAfter ok calls with
  | none => simp [hr] at h
  | some leagues =>
    rw [hr, Option.any_some] at h
    have hstep : ∀ s i s', i.registry.newUid ∉ s ∧ ok s i → LeagueCall.serve s i = .ok s' →
        leagueSystem.step s i s' := fun _ _ _ hi hs => ⟨hi.1, hs⟩
    exact ⟨leagues, System.reaches_replay_of (fun _ _ hi => hi.2) hstep calls ∅ leagues
      (.init rfl) hr, h⟩

/-- A meta league with a league under it. -/
theorem leaguesNested_oneChild :
    ∃ leagues, (∃ l, leagues.lookup "cup" = some l ∧ l.deletedAt = none ∧ l.parent = some "meta") ∧
      LeaguesNested leagues := by
  obtain ⟨leagues, hreach, hp⟩ := exists_reaches_of_leaguesAfter AttachesToLive
    [leagueCall "meta" (.create { name := "Meta", kind := .metaLeague }),
      leagueCall "cup" (.create { name := "Cup", parentUid := some "meta" })]
    (fun s => (s.lookup "cup").any fun l => l.deletedAt == none && l.parent == some "meta")
    (by decide +kernel)
  obtain ⟨l, hl, hp⟩ := (Option.any_eq_true _ _).1 hp
  simp only [Bool.and_eq_true, beq_iff_eq] at hp
  exact ⟨leagues, ⟨l, hl, hp⟩, (leaguesNested_of_reaches hreach).1⟩

/-- A league created under a meta league that was deleted before. -/
theorem not_leaguesNested : ∃ leagues, leagueSystem.Reachable leagues ∧
    ¬ LeaguesNested leagues := by
  obtain ⟨leagues, hreach, hp⟩ := exists_reaches_of_leaguesAfter (fun _ _ => True)
    [leagueCall "meta" (.create { name := "Meta", kind := .metaLeague }),
      leagueCall "x" (.delete "meta"),
      leagueCall "cup" (.create { name := "Cup", parentUid := some "meta" })]
    (fun s => (s.lookup "cup").any (fun l => l.deletedAt == none && l.parent == some "meta")
      && (s.lookup "meta").any fun m => m.deletedAt != none)
    (by decide +kernel)
  simp only [Bool.and_eq_true, Option.any_eq_true, beq_iff_eq, bne_iff_ne] at hp
  obtain ⟨⟨l, hl, hlive, hparent⟩, m, hm, hdeleted⟩ := hp
  refine ⟨leagues, hreach, fun hnested => ?_⟩
  obtain ⟨m', hm', hlive', -⟩ := hnested "cup" l hl hlive "meta" hparent
  obtain rfl := Option.some.inj (hm.symm.trans hm')
  exact hdeleted hlive'

end Nesting

end Archon.Backend

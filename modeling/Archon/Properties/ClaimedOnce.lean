import Archon.Backend.Scenario
import Archon.Backend.VeknClaims

/-!
# A VEKN id is claimed by one person

At most one claim of an id is accepted, and the sign-ins of two accounts never come to stand under
one, in the runs where a test that finds no sign-in is not preceded by another test of the record
that found none.
-/

namespace Archon.Claims
open Engine Backend Program

/-! ### The property and the condition -/

/-- One claim of an id is accepted, and sign-ins under one account come from one account. -/
structure ClaimedOnce (s : State) : Prop where
  once : (s.accepted.map Claim.veknId).Nodup
  apart : ∀ m ∈ s.methods, ∀ m' ∈ s.methods, m.2.userUid = m'.2.userUid →
    s.origin m.1 = s.origin m'.1

/-- A test finds a sign-in, or no other test of the record has found none. -/
def InTurn (s : Threads ℕ State Phase) (i : ℕ × Input) : Prop :=
  match s.phase i.1, i.2 with
  | .methods _ found, .next _ =>
    methodsOf s.shared.methods found ≠ [] ∨ ∀ c ∈ s.shared.passed, c.record ≠ found
  | _, _ => True

instance (s : Threads ℕ State Phase) (i : ℕ × Input) : Decidable (InTurn s i) := by
  unfold InTurn
  split <;> infer_instance

/-! ### The invariant -/

/-- The member of the table under the uid bears this id, or none. -/
def HasId (objects : Objects) (uid : Uid) (id : String) : Prop :=
  ∃ u, objects.user? uid = some u ∧ u.veknId.getD "" = id

structure Inv (s : State) : Prop where
  keyed : WellKeyed s.objects
  unique : UniqueIds s.objects
  origin : ∀ m ∈ s.methods, m.2.userUid = s.origin m.1 ∨
    ∃ c ∈ s.passed, c.actor = s.origin m.1 ∧ c.record = m.2.userUid
  actor : ∀ c ∈ s.passed, HasId s.objects c.actor ""
  record : ∀ c ∈ s.passed, c.veknId ≠ "" ∧ HasId s.objects c.record c.veknId
  bare : ∀ c ∈ s.passed, ∀ m ∈ s.methods, s.origin m.1 ≠ c.record
  distinct : (s.passed.map Claim.veknId).Nodup
  accepted : s.accepted ⊆ s.passed ∧ s.accepted.Nodup

/-- A claim past its test and not accepted yet. -/
def InFlight (s : State) (c : Claim) : Prop := c ∈ s.passed ∧ c ∉ s.accepted

/-- What a request knows at its next statement. -/
def Known (s : State) : Phase → Prop
  | .idle => True
  | .find actor _ => HasId s.objects actor ""
  | .test actor record veknId =>
    HasId s.objects actor "" ∧ veknId ≠ "" ∧ HasId s.objects record veknId
  | .methods c found =>
    HasId s.objects c.actor "" ∧ c.veknId ≠ "" ∧ HasId s.objects c.record c.veknId ∧
      found = c.record
  | .keep c | .select c | .retire c => InFlight s c
  | .delete c keep | .merge c keep _ =>
    InFlight s c ∧ keep.uid = c.record ∧ keep.veknId.getD "" = c.veknId
  | .move c pending => InFlight s c ∧ ∀ row ∈ pending, s.origin row.1 = c.actor
  | .bury c u => InFlight s c ∧ u.uid = c.actor ∧ u.veknId.getD "" = ""

/-- Two requests do not stand for one claim. -/
def Distinct (p q : Phase) : Prop := ∀ c, p.claim = some c → q.claim ≠ some c

def annotation : Annotation State Phase := ⟨Inv, Known, Distinct⟩

section Tables

variable {objects : Objects} {u : User} {uid : Uid} {id id' : String}

/-! ### Ids of the members -/

theorem HasId.unique (h : HasId objects uid id) (h' : HasId objects uid id') : id = id' := by
  obtain ⟨u, hu, rfl⟩ := h
  obtain ⟨u', hu', rfl⟩ := h'
  rw [hu] at hu'
  rw [Option.some.inj hu']

theorem HasId.save (h : HasId objects uid id) (hu : HasId objects u.uid (u.veknId.getD "")) :
    HasId (saveUser objects u) uid id := by
  by_cases huid : uid = u.uid
  · subst huid
    exact ⟨u, user?_saveUser .., hu.unique h⟩
  · obtain ⟨v, hv, hid⟩ := h
    exact ⟨v, (user?_saveUser_ne huid).trans hv, hid⟩

theorem uniqueIds_save (hkeyed : WellKeyed objects) (h : UniqueIds objects)
    (hu : HasId objects u.uid (u.veknId.getD "")) : UniqueIds (saveUser objects u) := by
  have hrow : ∀ v ∈ (saveUser objects u).users, ∃ w ∈ objects.users, w.uid = v.uid ∧
      w.veknId.getD "" = v.veknId.getD "" := by
    intro v hv
    have hv' := (mem_users (wellKeyed_saveUser hkeyed u)).1 hv
    by_cases huid : v.uid = u.uid
    · rw [huid, user?_saveUser] at hv'
      obtain rfl := Option.some.inj hv'
      obtain ⟨w, hw, hid⟩ := hu
      have hwuid : w.uid = u.uid := hkeyed.uid_eq (user?_eq_some.1 hw)
      exact ⟨w, (mem_users hkeyed).2 (hwuid ▸ hw), hwuid, hid⟩
    · rw [user?_saveUser_ne huid] at hv'
      exact ⟨v, (mem_users hkeyed).2 hv', rfl, rfl⟩
  intro v hv v' hv' hne heq
  obtain ⟨w, hw, hwuid, hwid⟩ := hrow v hv
  obtain ⟨w', hw', hwuid', hwid'⟩ := hrow v' hv'
  rw [← hwuid, ← hwuid']
  exact h w hw w' hw' (hwid ▸ hne) (by rw [hwid, hwid', heq])

theorem record_unique (hkeyed : WellKeyed objects) (h : UniqueIds objects) {uid' : Uid}
    (hid : id ≠ "") (hu : HasId objects uid id) (hu' : HasId objects uid' id) : uid = uid' := by
  obtain ⟨u, hu, heq⟩ := hu
  obtain ⟨u', hu', heq'⟩ := hu'
  have huid : u.uid = uid := hkeyed.uid_eq (user?_eq_some.1 hu)
  have huid' : u'.uid = uid' := hkeyed.uid_eq (user?_eq_some.1 hu')
  rw [← huid, ← huid']
  exact h u ((mem_users hkeyed).2 (huid ▸ hu)) u' ((mem_users hkeyed).2 (huid' ▸ hu'))
    (heq ▸ hid) (by rw [heq, heq'])

theorem hasId_of_getUserByVeknId (hkeyed : WellKeyed objects)
    (h : getUserByVeknId objects id = some u) : id ≠ "" ∧ HasId objects u.uid id := by
  have hspec := List.find?_some h
  rw [Bool.and_eq_true, beq_iff_eq, bne_iff_ne] at hspec
  exact ⟨hspec.2, u, (mem_users hkeyed).1 (List.mem_of_find?_eq_some h), by rw [hspec.1]; rfl⟩

theorem getUserByVeknId_isSome (hkeyed : WellKeyed objects) (hid : id ≠ "")
    (h : HasId objects uid id) : ∃ u, getUserByVeknId objects id = some u := by
  obtain ⟨u, hu, heq⟩ := h
  have huid : u.uid = uid := hkeyed.uid_eq (user?_eq_some.1 hu)
  have hmem : u ∈ objects.users := (mem_users hkeyed).2 (huid ▸ hu)
  refine Option.isSome_iff_exists.1 (List.find?_isSome.2 ⟨u, hmem, ?_⟩)
  rw [Bool.and_eq_true, beq_iff_eq, bne_iff_ne]
  refine ⟨?_, hid⟩
  cases hv : u.veknId with
  | none =>
    rw [hv] at heq
    exact absurd heq.symm hid
  | some v =>
    rw [hv] at heq
    exact congrArg some heq

end Tables

theorem Inv.claimedOnce {s : State} (h : Inv s) : ClaimedOnce s where
  once := h.accepted.2.map_on fun c hc c' hc' heq =>
    List.inj_on_of_nodup_map h.distinct (h.accepted.1 hc) (h.accepted.1 hc') heq
  apart m hm m' hm' heq := by
    -- a sign-in stands at home, or under the record its account claimed
    rcases h.origin m hm with hhome | ⟨c, hc, hactor, hrecord⟩ <;>
      rcases h.origin m' hm' with hhome' | ⟨c', hc', hactor', hrecord'⟩
    · rw [← hhome, ← hhome', heq]
    · exact absurd (hhome.symm.trans (heq.trans hrecord'.symm)) (h.bare c' hc' m hm)
    · exact absurd (hhome'.symm.trans (heq.symm.trans hrecord.symm)) (h.bare c hc m' hm')
    · have hrec : c.record = c'.record := hrecord.trans (heq.trans hrecord'.symm)
      have hid : c.veknId = c'.veknId :=
        (h.record c hc).2.unique (hrec ▸ (h.record c' hc').2)
      obtain rfl := List.inj_on_of_nodup_map h.distinct hc hc' hid
      rw [← hactor, ← hactor']

section Steps

variable {s s' : State} {p : Phase} {c : Claim} {u : User} {row : AuthRow}

/-! ### What a step leaves to the others -/

theorem Known.mono (h : Known s p)
    (hids : ∀ uid id, HasId s.objects uid id → HasId s'.objects uid id)
    (hpassed : s.passed ⊆ s'.passed) (horigin : s'.origin = s.origin)
    (haccepted : ∀ c, p.claim = some c → c ∈ s'.accepted → c ∈ s.accepted) : Known s' p := by
  have hflight : ∀ c, p.claim = some c → InFlight s c → InFlight s' c := fun c hc hin =>
    ⟨hpassed hin.1, fun hmem => hin.2 (haccepted c hc hmem)⟩
  cases p with
  | idle => trivial
  | find => exact hids _ _ h
  | test => exact ⟨hids _ _ h.1, h.2.1, hids _ _ h.2.2⟩
  | methods => exact ⟨hids _ _ h.1, h.2.1, hids _ _ h.2.2.1, h.2.2.2⟩
  | keep => exact hflight _ rfl h
  | delete => exact ⟨hflight _ rfl h.1, h.2⟩
  | merge => exact ⟨hflight _ rfl h.1, h.2⟩
  | select => exact hflight _ rfl h
  | move c pending => exact ⟨hflight _ rfl h.1, fun row hrow => horigin ▸ h.2 row hrow⟩
  | retire => exact hflight _ rfl h
  | bury => exact ⟨hflight _ rfl h.1, h.2⟩

/-! ### What a step does to the tables -/

theorem Inv.save (h : Inv s) (hu : HasId s.objects u.uid (u.veknId.getD "")) :
    Inv { s with objects := saveUser s.objects u } :=
  { h with
    keyed := wellKeyed_saveUser h.keyed u
    unique := uniqueIds_save h.keyed h.unique hu
    actor := fun c hc => (h.actor c hc).save hu
    record := fun c hc => ⟨(h.record c hc).1, (h.record c hc).2.save hu⟩ }

theorem Inv.pass (h : Inv s) (hactor : HasId s.objects c.actor "") (hid : c.veknId ≠ "")
    (hrecord : HasId s.objects c.record c.veknId) (hnone : methodsOf s.methods c.record = [])
    (hfirst : ∀ c' ∈ s.passed, c'.record ≠ c.record) : Inv (s.pass c) := by
  have hbare : ∀ m ∈ s.methods, m.2.userUid ≠ c.record := by
    intro m hm heq
    have hmem : m ∈ methodsOf s.methods c.record := List.mem_filter.2 ⟨hm, decide_eq_true heq⟩
    rw [hnone] at hmem
    cases hmem
  have hne : ∀ uid, HasId s.objects uid "" → uid ≠ c.record := by
    rintro uid hless rfl
    exact hid (hrecord.unique hless)
  refine
    { keyed := h.keyed
      unique := h.unique
      origin := fun m hm => (h.origin m hm).imp_right fun ⟨c', hc', hmoved⟩ =>
        ⟨c', List.mem_append_left _ hc', hmoved⟩
      actor := fun c' hc' => ?_
      record := fun c' hc' => ?_
      bare := fun c' hc' m hm => ?_
      distinct := ?_
      accepted := ⟨fun c' hc' => List.mem_append_left _ (h.accepted.1 hc'), h.accepted.2⟩ }
  · rcases List.mem_append.1 hc' with hc' | hc'
    · exact h.actor c' hc'
    · obtain rfl := List.mem_singleton.1 hc'
      exact hactor
  · rcases List.mem_append.1 hc' with hc' | hc'
    · exact h.record c' hc'
    · obtain rfl := List.mem_singleton.1 hc'
      exact ⟨hid, hrecord⟩
  · rcases List.mem_append.1 hc' with hc' | hc'
    · exact h.bare c' hc' m hm
    · obtain rfl := List.mem_singleton.1 hc'
      -- a sign-in of the record would still stand there: members with an id claim nothing
      rcases h.origin m hm with hhome | ⟨c₁, hc₁, hactor₁, -⟩
      · exact hhome ▸ hbare m hm
      · exact hactor₁ ▸ hne _ (h.actor c₁ hc₁)
  · change ((s.passed ++ [c]).map Claim.veknId).Nodup
    rw [List.map_append, List.nodup_append]
    refine ⟨h.distinct, List.nodup_singleton _, ?_⟩
    rintro _ hx _ hy rfl
    obtain ⟨c', hc', heq⟩ := List.mem_map.1 hx
    rw [List.map_singleton, List.mem_singleton] at hy
    have hsame : HasId s.objects c'.record c.veknId := hy ▸ heq ▸ (h.record c' hc').2
    exact hfirst c' hc' (record_unique h.keyed h.unique hid hsame hrecord)

theorem Inv.move (h : Inv s) (hc : c ∈ s.passed) (hrow : s.origin row.1 = c.actor) :
    Inv { s with
      methods := writeMethod s.methods (row.1, { row.2 with userUid := c.record }) } := by
  have hmem : ∀ m ∈ writeMethod s.methods (row.1, { row.2 with userUid := c.record }),
      m ∈ s.methods ∨ s.origin m.1 = c.actor ∧ m.2.userUid = c.record := by
    intro m hm
    obtain ⟨m₀, hm₀, heq⟩ := List.mem_map.1 hm
    split_ifs at heq
    · subst heq
      exact .inr ⟨hrow, rfl⟩
    · exact .inl (heq ▸ hm₀)
  have horigin : ∀ m ∈ writeMethod s.methods (row.1, { row.2 with userUid := c.record }),
      ∃ m₀ ∈ s.methods, s.origin m₀.1 = s.origin m.1 := by
    intro m hm
    obtain ⟨m₀, hm₀, heq⟩ := List.mem_map.1 hm
    split_ifs at heq with hsame
    · exact ⟨m₀, hm₀, by rw [← heq, hsame]⟩
    · exact ⟨m₀, hm₀, by rw [heq]⟩
  exact
    { h with
      origin := fun m hm => by
        rcases hmem m hm with hm | ⟨hactor, hrecord⟩
        · exact h.origin m hm
        · exact .inr ⟨c, hc, hactor.symm, hrecord.symm⟩
      bare := fun c' hc' m hm => by
        obtain ⟨m₀, hm₀, heq⟩ := horigin m hm
        exact heq ▸ h.bare c' hc' m₀ hm₀ }

theorem Inv.accept (h : Inv s) (hflight : InFlight s c) :
    Inv { s with accepted := s.accepted ++ [c] } :=
  { h with
    accepted := by
      refine ⟨List.append_subset.2 ⟨h.accepted.1, by simpa using hflight.1⟩, ?_⟩
      rw [List.nodup_append]
      refine ⟨h.accepted.2, List.nodup_singleton _, ?_⟩
      rintro c' hc' _ hc rfl
      exact hflight.2 (List.mem_singleton.1 hc ▸ hc') }

theorem Known.inFlight (h : Known s p) (hc : p.claim = some c) : InFlight s c := by
  cases p with
  | idle | find | test | methods => cases hc
  | keep | select | retire => exact Option.some.inj hc ▸ h
  | delete | merge | move | bury => exact Option.some.inj hc ▸ h.1

end Steps

section Runs

variable {sponsor : User → User → User} {s : Threads ℕ State Phase} {t : ℕ}
  {next : State × Phase} {i : Input}

/-! ### Runs -/

theorem kept_of (hs : annotation.Holds s) (hinv : Inv next.1) (hknown : Known next.1 next.2)
    (hids : ∀ uid id, HasId s.shared.objects uid id → HasId next.1.objects uid id)
    (hpassed : s.shared.passed ⊆ next.1.passed) (horigin : next.1.origin = s.shared.origin)
    (haccepted : ∀ c ∈ next.1.accepted, c ∈ s.shared.accepted ∨ (s.phase t).claim = some c)
    (hclaim : ∀ c, next.2.claim = some c → (s.phase t).claim = some c ∨ c ∉ s.shared.passed) :
    annotation.Kept s t next where
  shared := hinv
  phase := hknown
  others t' ht := by
    refine Known.mono (hs.phase t') hids hpassed horigin fun c hc hmem => ?_
    rcases haccepted c hmem with hmem | hown
    · exact hmem
    · exact absurd hc (hs.pair t t' ht.symm c hown)
  pair t' ht := by
    have hne : Distinct next.2 (s.phase t') := by
      intro c hc hc'
      rcases hclaim c hc with hown | hfresh
      · exact hs.pair t t' ht.symm c hown hc'
      · exact hfresh (Known.inFlight (hs.phase t') hc').1
    exact ⟨hne, fun c hc hc' => hne c hc' hc⟩

theorem kept_read (hs : annotation.Holds s) {p : Phase} (hknown : Known s.shared p)
    (hclaim : ∀ c, p.claim = some c → (s.phase t).claim = some c) :
    annotation.Kept s t (s.shared, p) :=
  kept_of hs hs.shared hknown (fun _ _ => id) (List.Subset.refl _) rfl (fun _ => .inl)
    fun c hc => .inl (hclaim c hc)

theorem hasId_mergedUser {objects : Objects} {keep delete : User} {c : Claim}
    (hid : c.veknId ≠ "") (hrecord : HasId objects c.record c.veknId) (huid : keep.uid = c.record)
    (hkeep : keep.veknId.getD "" = c.veknId) :
    HasId objects (mergedUser sponsor keep delete).uid
      ((mergedUser sponsor keep delete).veknId.getD "") := by
  have hne : keep.veknId.getD "" ≠ "" := hkeep ▸ hid
  have hmerged : (mergedUser sponsor keep delete).veknId = keep.veknId := if_neg hne
  rw [hmerged, hkeep]
  exact huid ▸ hrecord

theorem kept_of_advance {now : Stamp} (hs : annotation.Holds s)
    (hok : InTurn s (t, .next now)) (h : advance sponsor s.shared now (s.phase t) = some next) :
    annotation.Kept s t next := by
  have hknown := hs.phase t
  have hinv := hs.shared
  change Known s.shared (s.phase t) at hknown
  change Inv s.shared at hinv
  have hfrom : ∀ {p}, s.phase t = p → ∀ c, p.claim = some c → (s.phase t).claim = some c :=
    fun hp c hc => hp ▸ hc
  cases hp : s.phase t with
  | idle =>
    rw [hp] at h
    cases h
  | find actor veknId =>
    rw [hp] at h hknown
    obtain rfl := Option.some.inj h
    refine kept_read hs ?_ fun c hc => ?_
    · split
      · next u hu =>
        obtain ⟨hne, hid⟩ := hasId_of_getUserByVeknId hinv.keyed hu
        split_ifs
        · exact ⟨hknown, hne, hid⟩
        · trivial
      · trivial
    · split at hc
      · split_ifs at hc <;> cases hc
      · cases hc
  | test actor record veknId =>
    rw [hp] at h hknown
    obtain ⟨hactor, hne, hrecord⟩ := hknown
    obtain ⟨u, hu⟩ := getUserByVeknId_isSome hinv.keyed hne hrecord
    rw [advance, hu] at h
    obtain rfl := Option.some.inj h
    have huid := record_unique hinv.keyed hinv.unique hne
      (hasId_of_getUserByVeknId hinv.keyed hu).2 hrecord
    exact kept_read hs ⟨hactor, hne, hrecord, huid⟩ nofun
  | methods c found =>
    have hturn : methodsOf s.shared.methods found ≠ [] ∨ ∀ c ∈ s.shared.passed,
        c.record ≠ found := by
      simpa only [InTurn, hp] using hok
    rw [hp] at h hknown
    obtain ⟨hactor, hne, hrecord, rfl⟩ := hknown
    obtain rfl := Option.some.inj h
    by_cases hnone : methodsOf s.shared.methods c.record = []
    · rw [if_pos hnone]
      have hfirst := hturn.resolve_left fun hsome => hsome hnone
      have hfresh : c ∉ s.shared.passed := fun hmem => hfirst c hmem rfl
      refine kept_of hs (hinv.pass hactor hne hrecord hnone hfirst) ?_ (fun _ _ => id)
        (List.subset_append_left ..) rfl (fun _ => .inl) fun c' hc' => ?_
      · exact ⟨List.mem_append_right _ (List.mem_singleton_self c),
          fun hmem => hfresh (hinv.accepted.1 hmem)⟩
      · obtain rfl := Option.some.inj hc'
        exact .inr hfresh
    · rw [if_neg hnone]
      exact kept_read hs trivial nofun
  | keep c =>
    rw [hp] at h hknown
    obtain rfl := Option.some.inj h
    obtain ⟨keep, hkeep, hid⟩ := (hinv.record c hknown.1).2
    rw [hkeep]
    have huid : keep.uid = c.record := hinv.keyed.uid_eq (user?_eq_some.1 hkeep)
    exact kept_read hs ⟨hknown, huid, hid⟩ fun c' hc' => hfrom hp c' hc'
  | delete c keep =>
    rw [hp] at h hknown
    obtain rfl := Option.some.inj h
    obtain ⟨hflight, huid, hid⟩ := hknown
    obtain ⟨delete, hdelete, hless⟩ := hinv.actor c hflight.1
    have hapart : c.record ≠ c.actor := by
      intro heq
      have hboth := heq ▸ (hinv.record c hflight.1).2
      exact (hinv.record c hflight.1).1 (hboth.unique (hinv.actor c hflight.1))
    rw [hdelete]
    dsimp only
    rw [if_neg hapart]
    refine kept_read hs ?_ fun c' hc' => ?_
    · split_ifs
      · trivial
      · exact ⟨hflight, huid, hid⟩
    · split_ifs at hc'
      · cases hc'
      · exact hfrom hp c' hc'
  | merge c keep delete =>
    rw [hp] at h hknown
    obtain rfl := Option.some.inj h
    obtain ⟨hflight, huid, hid⟩ := hknown
    obtain ⟨hne, hrecord⟩ := hinv.record c hflight.1
    have hmerged := @hasId_mergedUser sponsor _ _ delete _ hne hrecord huid hid
    exact kept_of hs (hinv.save hmerged) hflight (fun _ _ h => h.save hmerged)
      (List.Subset.refl _) rfl (fun _ => .inl) fun c' hc' => .inl (hfrom hp c' hc')
  | select c =>
    rw [hp] at h hknown
    obtain rfl := Option.some.inj h
    refine kept_read hs ⟨hknown, fun row hrow => ?_⟩ fun c' hc' => hfrom hp c' hc'
    obtain ⟨hrow, hactor⟩ := List.mem_filter.1 hrow
    have hat : row.2.userUid = c.actor := of_decide_eq_true hactor
    -- nobody claims the claimant: he has no id
    rcases hinv.origin row hrow with hhome | ⟨c', hc', -, hrecord⟩
    · exact hhome.symm.trans hat
    · obtain ⟨hne, hid⟩ := hinv.record c' hc'
      rw [hrecord, hat] at hid
      exact absurd (hid.unique (hinv.actor c hknown.1)) hne
  | move c pending =>
    rw [hp] at h hknown
    obtain rfl := Option.some.inj h
    obtain ⟨hflight, hpending⟩ := hknown
    cases pending with
    | nil => exact kept_read hs hflight fun c' hc' => hfrom hp c' hc'
    | cons row rest =>
      rw [List.forall_mem_cons] at hpending
      exact kept_of hs (hinv.move hflight.1 hpending.1) ⟨hflight, hpending.2⟩ (fun _ _ => id)
        (List.Subset.refl _) rfl (fun _ => .inl) fun c' hc' => .inl (hfrom hp c' hc')
  | retire c =>
    rw [hp] at h hknown
    obtain rfl := Option.some.inj h
    obtain ⟨u, hu, hless⟩ := hinv.actor c hknown.1
    have huid : u.uid = c.actor := hinv.keyed.uid_eq (user?_eq_some.1 hu)
    rw [hu]
    dsimp only
    rw [if_neg (not_not.2 hless)]
    exact kept_read hs ⟨hknown, huid, hless⟩ fun c' hc' => hfrom hp c' hc'
  | bury c u =>
    rw [hp] at h hknown
    obtain rfl := Option.some.inj h
    obtain ⟨hflight, huid, hless⟩ := hknown
    have hrow : HasId s.shared.objects (tombstone u now).uid
        ((tombstone u now).veknId.getD "") := by
      change HasId s.shared.objects u.uid (u.veknId.getD "")
      rw [huid, hless]
      exact hinv.actor c hflight.1
    refine kept_of hs ((hinv.save hrow).accept hflight) trivial (fun _ _ h => h.save hrow)
      (List.Subset.refl _) rfl (fun c' hc' => ?_) nofun
    rcases List.mem_append.1 hc' with hc' | hc'
    · exact .inl hc'
    · obtain rfl := List.mem_singleton.1 hc'
      exact .inr (hfrom hp c' rfl)

theorem kept_of_step (hs : annotation.Holds s) (hok : InTurn s (t, i))
    (h : (claims sponsor).step s.shared (s.phase t) i = some next) : annotation.Kept s t next := by
  cases i with
  | next now => exact kept_of_advance hs hok h
  | claim actor veknId =>
    simp only [claims] at h
    split at h
    · next hidle =>
      obtain rfl := Option.some.inj h
      unfold start
      split
      · next u hu =>
        refine kept_read hs ?_ fun c hc => ?_
        · split_ifs with hless
          · exact ⟨u, hu, hless.2⟩
          · trivial
        · split_ifs at hc <;> cases hc
      · exact kept_read hs trivial nofun
    · cases h

theorem inv_of_init {x : State} (h : (claims sponsor).init x) : Inv x := by
  obtain ⟨hkeyed, hunique, horigin, hpassed, haccepted⟩ := h
  have hnone : ∀ c, c ∉ x.passed := fun c hc => by
    rw [hpassed] at hc
    cases hc
  exact
    { keyed := hkeyed
      unique := hunique
      origin := fun m hm => .inl (horigin m hm).symm
      actor := fun c hc => absurd hc (hnone c)
      record := fun c hc => absurd hc (hnone c)
      bare := fun c hc => absurd hc (hnone c)
      distinct := by
        rw [hpassed]
        exact List.nodup_nil
      accepted := by
        rw [haccepted]
        exact ⟨List.nil_subset _, List.nodup_nil⟩ }

/-- In the runs of tests in turn, an id is claimed by one person. -/
theorem claimedOnce_of_reaches (h : (claims sponsor).system.Reaches InTurn s) :
    ClaimedOnce s.shared := by
  have hholds : annotation.Holds s := holds_of_reaches
    (fun x hx => ⟨inv_of_init hx, trivial⟩) (fun _ hc => nomatch hc)
    (fun s t i next hs hok hnext => kept_of_step hs hok hnext) h
  exact hholds.shared.claimedOnce

end Runs

/-! ### Two claims at once -/

/-- A record bearing an id, and two members without one, each with a sign-in. -/
def unclaimed : State where
  objects := [member "1000001" [], { member "ann" [] with veknId := none },
    { member "bob" [] with veknId := none }].foldl saveUser ∅
  methods := [("m1", ⟨"ann", "email", "ann@example.com", ""⟩),
    ("m2", ⟨"bob", "email", "bob@example.com", ""⟩)]
  origin := fun m => if m = "m1" then "ann" else "bob"
  passed := []
  accepted := []

def unclaimedRequests : Threads ℕ State Phase := ⟨unclaimed, fun _ => .idle⟩

def keepsOwn (keep _delete : User) : User := keep

theorem unclaimed_init : (claims keepsOwn).system.init unclaimedRequests := by
  have hempty : WellKeyed ∅ := fun _ _ h => by cases h
  exact ⟨⟨wellKeyed_saveUser (wellKeyed_saveUser (wellKeyed_saveUser hempty _) _) _, by decide,
    by decide, rfl, rfl⟩, fun _ => rfl⟩

def claimBy (t : ℕ) (actor : Uid) : ℕ × Input := (t, .claim actor "1000001")

def steps (t n : ℕ) : List (ℕ × Input) := List.replicate n (t, .next "2026-05-02T10:00:00Z")

/-- One claim alone, then another, which is refused. -/
def claimedInTurn : List (ℕ × Input) :=
  claimBy 0 "ann" :: steps 0 11 ++ claimBy 1 "bob" :: steps 1 3

/-- The first claim is accepted. -/
theorem claimed_in_turn : ∃ s : Threads ℕ State Phase,
    s.shared.accepted = [⟨"ann", "1000001", "1000001"⟩] ∧ ClaimedOnce s.shared := by
  have hrun : ((claims keepsOwn).runIn InTurn unclaimedRequests claimedInTurn).map
      (fun s => s.shared.accepted) = some [⟨"ann", "1000001", "1000001"⟩] := by decide +kernel
  obtain ⟨s, hs, heq⟩ := Option.map_eq_some_iff.1 hrun
  exact ⟨s, heq, claimedOnce_of_reaches (reaches_runIn claimedInTurn _ _ (.init unclaimed_init) hs)⟩

/-- Both requests test the record before either moves a sign-in. -/
def claimedTogether : List (ℕ × Input) :=
  [claimBy 0 "ann", claimBy 1 "bob"] ++ steps 0 3 ++ steps 1 3 ++ steps 0 8 ++ steps 1 8

/-- Both claims are accepted, and the sign-ins of both stand under the record. -/
theorem claimed_together :
    ∃ s : Threads ℕ State Phase, (claims keepsOwn).system.Reachable s ∧ ¬ClaimedOnce s.shared ∧
      s.shared.methods.map (fun m => m.2.userUid) = ["1000001", "1000001"] := by
  have hrun : ((claims keepsOwn).run unclaimedRequests claimedTogether).map
      (fun s => (s.shared.accepted.map Claim.veknId, s.shared.methods.map fun m => m.2.userUid)) =
      some (["1000001", "1000001"], ["1000001", "1000001"]) := by
    decide +kernel
  obtain ⟨s, hs, heq⟩ := Option.map_eq_some_iff.1 hrun
  refine ⟨s, reachable_run (.init unclaimed_init) hs, fun h => ?_, congrArg Prod.snd heq⟩
  have honce := h.once
  rw [show s.shared.accepted.map Claim.veknId = _ from congrArg Prod.fst heq] at honce
  revert honce
  decide

end Archon.Claims

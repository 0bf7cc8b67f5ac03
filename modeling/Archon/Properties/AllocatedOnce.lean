import Archon.Backend.Frames
import Archon.Backend.Scenario
import Archon.Backend.VeknIds

/-!
# A VEKN id is allocated once

No two requests receive one id, no save fails on the index and no id that was given is overwritten,
in the runs where an id is searched for while nobody holds one, and where the member to save still
has none.
-/

namespace Archon.VeknIds
open Engine Backend Guards

/-! ### The property and the condition -/

/-- The numbers the search passes over. -/
def taken (objects : Objects) : List ℕ := objects.users.filterMap fun u => u.veknId.bind veknNumber

/-- An id of nine digits is free, or the first one of ten is. -/
def GapLeft (objects : Objects) : Prop :=
  (∃ n, 1000000 ≤ n ∧ n < 1000000000 ∧ n ∉ taken objects) ∨
    ∀ u ∈ objects.users, u.veknId ≠ some (toString 1000000000)

/-- An id is searched for while no request holds one, and a member is saved over a row without. -/
def InTurn (s : State) : Action → Prop
  | .allocate _ => (∀ t, (s.threads t).saving = none) ∧ GapLeft s.objects
  | .save t => ∀ member ∈ (s.threads t).saving, ∀ u, s.objects.user? member.uid = some u →
      u.veknId.getD "" = ""
  | _ => True

/-- Only a member without an id is coopted. -/
def Blank : Phase → Prop
  | .allocate (.coopt _ _ target) _ => target.veknId.getD "" = ""
  | _ => True

/-- What a request is to save, as it was received. -/
def carried (member : User) : Uid × String := (member.uid, member.veknId.getD "")

structure Sound (s : State) : Prop where
  keyed : WellKeyed s.objects
  blank : ∀ t, Blank (s.threads t)
  alone : ∀ t t' u u', (s.threads t).saving = some u → (s.threads t').saving = some u' → t = t'
  given : ∀ t u, (s.threads t).saving = some u → u.veknId.getD "" ≠ ""
  apart : ∀ t u, (s.threads t).saving = some u → ∀ v ∈ s.objects.users, v.veknId ≠ u.veknId
  distinct : (s.received.map Prod.snd).Nodup
  settled : ∀ p ∈ s.received,
    p ∈ s.saved ∨ ∃ t u, (s.threads t).saving = some u ∧ p = carried u
  kept : ∀ p ∈ s.saved, p.2 ≠ "" ∧ ∃ u, s.objects.user? p.1 = some u ∧ u.veknId = some p.2
  admitted : s.refused = []

section Numbers

variable {s : String} {n : ℕ} {objects : Objects} {u : User}

/-! ### Numbers and their digits -/

theorem foldl_digits_lt (cs : List Char) (hcs : ∀ c ∈ cs, c.isDigit = true) (n : ℕ) :
    cs.foldl (fun n c => 10 * n + (c.toNat - 48)) n < (n + 1) * 10 ^ cs.length := by
  induction cs generalizing n with
  | nil => simp
  | cons c cs ih =>
    rw [List.forall_mem_cons] at hcs
    have hdigit : c.toNat ≤ 57 := by
      have hc := hcs.1
      simp only [Char.isDigit, Bool.and_eq_true, decide_eq_true_eq] at hc
      exact hc.2
    have hrest := ih hcs.2 (10 * n + (c.toNat - 48))
    have hstep : (10 * n + (c.toNat - 48) + 1) * 10 ^ cs.length ≤ (10 * (n + 1)) * 10 ^ cs.length :=
      Nat.mul_le_mul_right _ (by omega)
    rw [List.foldl_cons, List.length_cons, pow_succ']
    calc _ < (10 * n + (c.toNat - 48) + 1) * 10 ^ cs.length := hrest
      _ ≤ (10 * (n + 1)) * 10 ^ cs.length := hstep
      _ = (n + 1) * (10 * 10 ^ cs.length) := by ring

theorem veknNumber_lt (h : veknNumber s = some n) : n < 1000000000 := by
  unfold veknNumber at h
  split at h
  · next hs =>
    obtain ⟨-, hlength, hdigits⟩ := hs
    have hlt := foldl_digits_lt s.toList (List.all_eq_true.1 hdigits) 0
    rw [Option.some.inj h, String.length_toList, Nat.zero_add, one_mul] at hlt
    exact hlt.trans_le (Nat.pow_le_pow_right (by omega) hlength)
  · cases h

theorem veknNumber_toString (hn : n < 1000000000) : veknNumber (toString n) = some n := by
  have hlist : (toString n).toList = Nat.toDigits 10 n := Nat.toList_repr
  have hlength : (toString n).length = (Nat.toDigits 10 n).length := by
    rw [← String.length_toList, hlist]
  unfold veknNumber
  rw [if_pos ?_, hlist]
  · exact congrArg some (Nat.ofDigitChars_eq_foldl.symm.trans Nat.ofDigitChars_ten_toDigits)
  · refine ⟨?_, ?_, ?_⟩
    · rw [hlength]
      exact Nat.length_toDigits_pos
    · rw [hlength]
      exact (Nat.length_toDigits_le_iff (by omega) (by omega)).2 hn
    · rw [hlist, List.all_eq_true]
      exact fun c hc => Nat.isDigit_of_mem_toDigits (by omega) (by omega) hc

theorem mem_taken (hu : u ∈ objects.users) (hid : u.veknId = some s) (hn : veknNumber s = some n) :
    n ∈ taken objects := by
  refine List.mem_filterMap.2 ⟨u, hu, ?_⟩
  rw [hid]
  exact hn

theorem allocateNextVeknId_eq (objects : Objects) :
    allocateNextVeknId objects = toString (firstGap 1000000 (taken objects)) := rfl

theorem allocateNextVeknId_ne_empty (objects : Objects) : allocateNextVeknId objects ≠ "" := by
  rw [allocateNextVeknId_eq]
  intro h
  have hlist : (toString (firstGap 1000000 (taken objects))).toList = Nat.toDigits 10 _ :=
    Nat.toList_repr
  rw [h] at hlist
  exact Nat.toDigits_ne_nil hlist.symm

theorem allocateNextVeknId_free (hgap : GapLeft objects) (hu : u ∈ objects.users) :
    u.veknId ≠ some (allocateNextVeknId objects) := by
  intro hid
  rw [allocateNextVeknId_eq] at hid
  have hsmall : ¬firstGap 1000000 (taken objects) < 1000000000 := fun hlt =>
    firstGap_not_mem 1000000 (taken objects) (mem_taken hu hid (veknNumber_toString hlt))
  rcases hgap with ⟨n, hle, hlt, hfree⟩ | hten
  · exact hsmall ((firstGap_le hle hfree).trans_lt hlt)
  · have hfree : 1000000000 ∉ taken objects := by
      intro hmem
      obtain ⟨v, -, hv⟩ := List.mem_filterMap.1 hmem
      obtain ⟨id, -, hnumber⟩ := Option.bind_eq_some_iff.1 hv
      exact absurd (veknNumber_lt hnumber) (by omega)
    have hle := @firstGap_le 1000000 _ _ (by omega) hfree
    have heq : firstGap 1000000 (taken objects) = 1000000000 := by omega
    exact hten u hu (heq ▸ hid)

end Numbers

section Steps

variable {s s' : State} {t : ℕ} {phase : Phase} {member : User} {loop : Option OfflineLoop}
  {c : Candidate} {a : Action}

/-! ### A request moves on -/

@[simp] theorem threads_self : (s.goTo t phase).threads t = phase := Function.update_self ..

theorem threads_other {t' : ℕ} (h : t' ≠ t) : (s.goTo t phase).threads t' = s.threads t' :=
  Function.update_of_ne h ..

theorem saving_update {t' : ℕ} {u : User} (hphase : phase.saving = none)
    (h : ((s.goTo t phase).threads t').saving = some u) : (s.threads t').saving = some u := by
  by_cases ht : t' = t
  · rw [ht, threads_self, hphase] at h
    cases h
  · rwa [threads_other ht] at h

theorem Sound.goTo (h : Sound s) (hold : (s.threads t).saving = none)
    (hphase : phase.saving = none) (hblank : Blank phase) : Sound (s.goTo t phase) where
  keyed := h.keyed
  blank := (Function.forall_update_iff s.threads fun _ p => Blank p).2
    ⟨hblank, fun t' _ => h.blank t'⟩
  alone t₁ t₂ u u' h₁ h₂ := h.alone t₁ t₂ u u' (saving_update hphase h₁) (saving_update hphase h₂)
  given t' u hu := h.given t' u (saving_update hphase hu)
  apart t' u hu := h.apart t' u (saving_update hphase hu)
  distinct := h.distinct
  settled p hp := by
    rcases h.settled p hp with hsaved | ⟨t', u, hu, heq⟩
    · exact .inl hsaved
    · refine .inr ⟨t', u, ?_, heq⟩
      have hne : t' ≠ t := by
        rintro rfl
        rw [hold] at hu
        cases hu
      rwa [threads_other hne]
  kept := h.kept
  admitted := h.admitted

theorem Sound.draw (h : Sound s) (drawn : List Uid) : Sound { s with drawn } := { h with }

/-! ### The search -/

theorem member_veknId (hblank : Blank (.allocate c loop)) (objects : Objects) :
    (c.member objects).veknId = some (allocateNextVeknId objects) := by
  cases c with
  | create => rfl
  | mint => rfl
  | coopt env organizer target => exact congrArg User.veknId (if_pos hblank)

theorem Sound.receive (h : Sound s) (hblank : Blank (.allocate c loop))
    (hfree : ∀ t', (s.threads t').saving = none) (hgap : GapLeft s.objects) (drawn : List Uid) :
    Sound { s.goTo t (.save (c.member s.objects) loop) with
      received := s.received ++ [carried (c.member s.objects)]
      drawn } := by
  have hid := member_veknId hblank s.objects
  have hsaving : ∀ t' u, ((s.goTo t (.save (c.member s.objects) loop)).threads t').saving = some u →
      t' = t ∧ u = c.member s.objects := by
    intro t' u hu
    by_cases ht : t' = t
    · rw [ht, threads_self] at hu
      exact ⟨ht, (Option.some.inj hu).symm⟩
    · rw [threads_other ht, hfree t'] at hu
      cases hu
  have hnone : ∀ u ∈ s.objects.users, u.veknId ≠ (c.member s.objects).veknId := by
    intro u hu
    rw [hid]
    exact allocateNextVeknId_free hgap hu
  exact
    { keyed := h.keyed
      blank := (Function.forall_update_iff s.threads fun _ p => Blank p).2
        ⟨trivial, fun t' _ => h.blank t'⟩
      alone := fun t₁ t₂ u u' h₁ h₂ => (hsaving t₁ u h₁).1.trans (hsaving t₂ u' h₂).1.symm
      given := fun t' u hu => by
        rw [(hsaving t' u hu).2, hid]
        exact allocateNextVeknId_ne_empty s.objects
      apart := fun t' u hu => (hsaving t' u hu).2 ▸ hnone
      distinct := by
        rw [List.map_append, List.nodup_append]
        refine ⟨h.distinct, List.nodup_singleton _, ?_⟩
        rintro _ hx _ hy rfl
        -- what was received before is in the table by now
        obtain ⟨p, hp, heq⟩ := List.mem_map.1 hx
        have hsaved : p ∈ s.saved := by
          rcases h.settled p hp with hsaved | ⟨t', u, hu, -⟩
          · exact hsaved
          · rw [hfree t'] at hu
            cases hu
        obtain ⟨-, u, hu, hpid⟩ := h.kept p hsaved
        have huid : u.uid = p.1 := h.keyed.uid_eq (user?_eq_some.1 hu)
        refine hnone u ((mem_users h.keyed).2 (huid ▸ hu)) ?_
        rw [List.map_singleton, List.mem_singleton] at hy
        rw [hpid, heq, hy, hid, carried, hid]
        rfl
      settled := fun p hp => by
        rcases List.mem_append.1 hp with hp | hp
        · rcases h.settled p hp with hsaved | ⟨t', u, hu, -⟩
          · exact .inl hsaved
          · rw [hfree t'] at hu
            cases hu
        · refine .inr ⟨t, c.member s.objects, ?_, List.mem_singleton.1 hp⟩
          change ((s.goTo t _).threads t).saving = _
          rw [threads_self]
          rfl
      kept := h.kept
      admitted := h.admitted }

/-! ### The save -/

theorem indexAdmits_of_apart {objects : Objects}
    (h : ∀ v ∈ objects.users, v.veknId ≠ member.veknId) : indexAdmits objects member = true := by
  unfold indexAdmits
  rw [Bool.or_eq_true, List.all_eq_true]
  refine .inr fun v hv => ?_
  rw [Bool.or_eq_true, bne_iff_ne]
  exact .inr (h v hv)

theorem Sound.save (h : Sound s) (hthread : s.threads t = .save member loop)
    (hrow : ∀ u, s.objects.user? member.uid = some u → u.veknId.getD "" = "") :
    Sound { s.goTo t (resume loop) with
      objects := saveUser s.objects member
      saved := s.saved ++ [carried member] } := by
  have hsaving : (s.threads t).saving = some member := congrArg Phase.saving hthread
  have hresume : (resume loop).saving = none := by cases loop <;> rfl
  have hnone : ∀ t', ((s.goTo t (resume loop)).threads t').saving = none := by
    intro t'
    by_cases ht : t' = t
    · rw [ht, threads_self, hresume]
    · rw [threads_other ht, Option.eq_none_iff_forall_not_mem]
      exact fun u hu => ht (h.alone t' t u member hu hsaving)
  have hgiven := h.given t member hsaving
  have hcarried : member.veknId = some (carried member).2 := by
    cases hid : member.veknId with
    | none => exact absurd (by rw [hid]; rfl) hgiven
    | some id => simp [carried, hid]
  exact
    { keyed := wellKeyed_saveUser h.keyed member
      blank := (Function.forall_update_iff s.threads fun _ p => Blank p).2
        ⟨by cases loop <;> trivial, fun t' _ => h.blank t'⟩
      alone := fun t₁ _ _ _ h₁ _ => absurd h₁ (by rw [hnone t₁]; nofun)
      given := fun t' _ hu => absurd hu (by rw [hnone t']; nofun)
      apart := fun t' _ hu => absurd hu (by rw [hnone t']; nofun)
      distinct := h.distinct
      settled := fun p hp => by
        rcases h.settled p hp with hsaved | ⟨t', u, hu, heq⟩
        · exact .inl (List.mem_append_left _ hsaved)
        · obtain rfl := h.alone t' t u member hu hsaving
          obtain rfl := Option.some.inj (hu.symm.trans hsaving)
          exact .inl (List.mem_append_right _ (List.mem_singleton.2 heq))
      kept := fun p hp => by
        rcases List.mem_append.1 hp with hp | hp
        · obtain ⟨hne, u, hu, hpid⟩ := h.kept p hp
          refine ⟨hne, u, ?_, hpid⟩
          have huid : p.1 ≠ member.uid := by
            intro heq
            have hempty := hrow u (heq ▸ hu)
            rw [hpid] at hempty
            exact hne hempty
          exact (user?_saveUser_ne huid).trans hu
        · obtain rfl := List.mem_singleton.1 hp
          exact ⟨hgiven, member, user?_saveUser .., hcarried⟩
      admitted := h.admitted }

/-! ### Runs -/

theorem Sound.init (h : veknSystem.init s) : Sound s := by
  obtain ⟨hkeyed, -, hidle, hreceived, hsaved, hrefused, -⟩ := h
  have hnone : ∀ t, (s.threads t).saving = none := fun t => by rw [hidle t]; rfl
  exact
    { keyed := hkeyed
      blank := fun t => by rw [hidle t]; trivial
      alone := fun t₁ _ _ _ h₁ _ => absurd h₁ (by rw [hnone t₁]; nofun)
      given := fun t _ hu => absurd hu (by rw [hnone t]; nofun)
      apart := fun t _ hu => absurd hu (by rw [hnone t]; nofun)
      distinct := by
        rw [hreceived]
        exact List.nodup_nil
      settled := fun p hp => by
        rw [hreceived] at hp
        exact absurd hp List.not_mem_nil
      kept := fun p hp => by
        rw [hsaved] at hp
        exact absurd hp List.not_mem_nil
      admitted := hrefused }

theorem blank_of_checkSponsor {objects : Objects} {manager target : User} {uid : Uid}
    (h : checkSponsor objects manager uid = .ok target) : target.veknId.getD "" = "" := by
  unfold checkSponsor at h
  simp only [ensure_bind_eq_ok, okOr_bind_eq_ok, pure_eq_ok] at h
  obtain ⟨-, _, -, hid, rfl⟩ := h
  exact hid

theorem Sound.step (h : Sound s) (ha : InTurn s a) (hs : veknStep s a = some s') : Sound s' := by
  cases a with
  | create t registry actor existing data =>
    simp only [veknStep] at hs
    split at hs
    · next hidle =>
      obtain rfl := Option.some.inj hs
      unfold beginCreate
      split
      · exact h.goTo (congrArg Phase.saving hidle) rfl trivial
      · exact h
    · cases hs
  | sponsor t env manager target =>
    simp only [veknStep] at hs
    split at hs
    · next hidle =>
      obtain rfl := Option.some.inj hs
      unfold beginSponsor
      split
      · next hcheck =>
        exact h.goTo (congrArg Phase.saving hidle) rfl (blank_of_checkSponsor hcheck)
      · exact h
    · cases hs
  | goOnline t loop =>
    simp only [veknStep] at hs
    split at hs
    · next hidle =>
      obtain rfl := Option.some.inj hs
      exact h.goTo (congrArg Phase.saving hidle) rfl trivial
    · cases hs
  | lookupVekn t =>
    simp only [veknStep, lookupVekn] at hs
    split at hs
    · next loop hthread =>
      have hold := congrArg Phase.saving hthread
      split at hs
      · obtain rfl := Option.some.inj hs
        exact h.goTo hold rfl trivial
      · obtain rfl := Option.some.inj hs
        refine h.goTo hold ?_ ?_
        · split_ifs <;> rfl
        · split_ifs <;> trivial
    · cases hs
  | lookupEmail t =>
    simp only [veknStep, lookupEmail] at hs
    split at hs
    · next p loop hthread =>
      obtain rfl := Option.some.inj hs
      refine h.goTo (congrArg Phase.saving hthread) ?_ ?_
      · split
        · split_ifs <;> rfl
        · rfl
      · split
        · split_ifs with hempty
          · exact hempty
          · trivial
        · trivial
    · cases hs
  | allocate t =>
    simp only [veknStep, allocate] at hs
    split at hs
    · next c loop hthread =>
      split_ifs at hs with hfresh happroved
      · obtain rfl := Option.some.inj hs
        exact h.receive (hthread ▸ h.blank t) ha.1 ha.2 _
      · obtain rfl := Option.some.inj hs
        have hanswered : Sound (s.goTo t .idle) := h.goTo (ha.1 t) rfl trivial
        exact hanswered.draw _
    · cases hs
  | save t =>
    simp only [veknStep, VeknIds.save] at hs
    split at hs
    · next member loop hthread =>
      have hsaving : (s.threads t).saving = some member := congrArg Phase.saving hthread
      rw [if_pos (indexAdmits_of_apart (h.apart t member hsaving))] at hs
      obtain rfl := Option.some.inj hs
      exact h.save hthread (ha member hsaving)
    · cases hs

end Steps

/-! ### Two requests at once -/

theorem turn_step {s s' : State} (a : Action) (h : veknSystem.Reaches InTurn s) (hturn : InTurn s a)
    (hs : veknStep s a = some s') : veknSystem.Reaches InTurn s' := h.step hturn hs

end Archon.VeknIds

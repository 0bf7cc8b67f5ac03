import Archon.Backend.Members
import Archon.Backend.Scenario

/-!
# Appointments and countries (`routes/users.py`, `permissions.rs:623-821`)

What an accepted request does to one member record: the roles and the country it changes are those
the actor may change on the member as he was. Without an IC among the actors only Prince and PT are
granted, and a country gains a Prince by its own NC or from the country of the NC who moves him.
-/

namespace Archon.Backend
open Engine Guards

/-! ### The matrix -/

section Matrix

variable {actor target : User} {role : Role} {nda : Bool} {c : String}

/-- The actor is an NC of the country. -/
def NcOf (actor : User) (c : String) : Prop := .nc ∈ actor.roles ∧ actor.country = some c

theorem canChangeRole_of_nonIc (hic : .ic ∉ actor.roles)
    (h : canChangeRole actor target role nda = true) :
    role = .pt ∨ (role = .prince ∧ ∃ c, NcOf actor c ∧ target.country = some c) := by
  unfold canChangeRole at h
  split_ifs at h with hvekn hnda hglobal hsame
  · obtain ⟨r, hr, hheld⟩ := List.any_eq_true.1 hglobal
    have hheld : r ∈ actor.roles := by simpa using hheld
    cases role <;> simp [appointmentFor] at hr
    case pt => exact .inl rfl
    all_goals exact absurd (hr ▸ hheld) hic
  · obtain ⟨r, hr, hheld⟩ := List.any_eq_true.1 hsame
    have hheld : r ∈ actor.roles := by simpa using hheld
    cases role <;> simp [appointmentFor] at hr
    case prince =>
      rw [Bool.and_eq_true, beq_iff_eq] at h
      obtain ⟨c, hc⟩ := Option.isSome_iff_exists.1 h.1
      exact .inr ⟨rfl, c, ⟨hr ▸ hheld, hc⟩, by rw [← h.2, hc]⟩

theorem ncOf_of_canChangeCountry (hic : .ic ∉ actor.roles) (hprince : .prince ∈ target.roles)
    (h : canChangeCountry actor target = true) :
    ∃ c, NcOf actor c ∧ target.country = some c := by
  unfold canChangeCountry at h
  split at h
  · rename_i highest hhighest
    rcases canChangeRole_of_nonIc hic h with rfl | ⟨-, hnc⟩
    · have hmem := List.mem_of_find?_eq_some hhighest
      simp [officialRolesByAuthority] at hmem
    · exact hnc
  · rename_i hnone
    have hno := List.find?_eq_none.1 hnone .prince (by decide)
    simp [hprince] at hno

end Matrix

/-! ### One request -/

section Requests

variable {registry : Registry} {objects objects' : Objects} {actorUid uid : Uid} {actor : User}

theorem of_checkRoles {target : User} {nda : Bool} {verb : String} {roles : List Role}
    (h : checkRoles actor target nda verb roles = .ok ()) :
    ∀ r ∈ roles, canChangeRole actor target r nda = true := by
  unfold checkRoles at h
  split at h
  · cases h
  · rename_i hnone
    intro r hr
    simpa using List.find?_eq_none.1 hnone r hr

theorem mem_changedRoles {old new : List Role} {r : Role} :
    r ∈ changedRoles old new ↔ (r ∈ new ∧ r ∉ old) ∨ (r ∈ old ∧ r ∉ new) := by
  simp [changedRoles]

theorem mem_validateRoles {names : List String} {roles : List Role} {r : Role}
    (h : validateRoles names = .ok roles) (hr : r ∈ roles) : r.asStr ∈ names := by
  unfold validateRoles at h
  have hparsed : ∀ (names : List String) (roles : List Role), (names.mapM fun s =>
      okOr (Role.ofStr s) (RouteError.http 400 ("Invalid role: " ++ s ++ ". Valid roles: ['"
        ++ "', '".intercalate (Role.all.map Role.asStr) ++ "']"))) = .ok roles →
        r ∈ roles → r.asStr ∈ names := by
    intro names
    induction names with
    | nil =>
      intro roles h hr
      cases h
      cases hr
    | cons s names ih =>
      intro roles h hr
      rw [List.mapM_cons, bind_eq_ok] at h
      obtain ⟨r', hr', h⟩ := h
      obtain ⟨rest, hrest, h⟩ := bind_eq_ok.1 h
      cases h
      rcases List.mem_cons.1 hr with rfl | hr
      · have hs := List.find?_some (okOr_eq_ok.1 hr')
        exact List.mem_cons.2 (.inl (eq_of_beq hs))
      · exact List.mem_cons_of_mem s (ih rest hrest hr)
  exact (List.mem_filter.1 (hparsed _ roles h hr)).1

theorem of_createUser {data : CreateUserRequest}
    (h : createUser registry objects actorUid data = .ok objects') :
    ∃ actor u, objects.user? actorUid = some actor ∧ objects' = saveUser objects u ∧
      ∀ r ∈ u.roles, canChangeRole actor u r false = true := by
  simp only [createUser, bind_eq_ok, okOr_eq_ok, ensure_eq_ok, pure_eq_ok] at h
  obtain ⟨country, -, actor, hactor, _, -, roles, -, _, -, _, hroles, rfl⟩ := h
  exact ⟨actor, _, hactor, rfl, of_checkRoles hroles⟩

theorem of_updateUser {data : UpdateUserRequest}
    (h : updateUser registry objects actorUid uid data = .ok objects') :
    ∃ actor u u', objects.user? actorUid = some actor ∧ objects.user? uid = some u ∧
      objects' = saveUser objects u' ∧ u'.uid = u.uid ∧
      (∀ r ∈ u'.roles, r ∉ u.roles →
        canChangeRole actor u r (registry.userHasNda uid) = true ∧
          r.asStr ∈ data.roles.getD []) ∧
      (u'.country ≠ u.country → canChangeCountry actor u = true ∧
        registry.storedCountry data.country = u'.country) := by
  simp only [updateUser, bind_eq_ok, okOr_eq_ok, ensure_eq_ok] at h
  obtain ⟨country, hcountry, actor, hactor, u, hu, _, -, _, -, _, hmove, roles, hroles, hsave⟩ := h
  have hstored : registry.storedCountry data.country = country := by
    unfold storeCountry at hcountry
    dsimp only at hcountry
    split_ifs at hcountry
    cases hcountry
    rfl
  have hgranted : ∀ r ∈ roles, r ∉ u.roles →
      canChangeRole actor u r (registry.userHasNda uid) = true ∧
        r.asStr ∈ data.roles.getD [] := by
    intro r hr hnew
    cases hdata : data.roles with
    | none =>
      rw [hdata] at hroles
      cases hroles
      exact absurd hr hnew
    | some names =>
      simp only [hdata, editedRoles, bind_eq_ok, ensure_eq_ok, pure_eq_ok] at hroles
      obtain ⟨parsed, hparsed, _, hchecked, _, -, rfl⟩ := hroles
      exact ⟨of_checkRoles hchecked r (mem_changedRoles.2 (.inl ⟨hr, hnew⟩)),
        mem_validateRoles hparsed hr⟩
  split_ifs at hsave
  · cases hsave
    refine ⟨actor, u, _, hactor, hu, rfl, rfl, hgranted, fun hne => ?_⟩
    cases hc : country with
    | none => simp [hc] at hne
    | some c =>
      have hne' : some c ≠ u.country := by simpa [hc] using hne
      exact ⟨hmove (by simp [hc]) (by rw [hc]; exact hne'), by simp [hstored, hc]⟩
  · cases hsave
    exact ⟨actor, u, u, hactor, hu, rfl, rfl, fun r hr hnew => absurd hr hnew,
      fun hne => absurd rfl hne⟩

end Requests

/-! ### Sequences of requests -/

def HoldsRole (objects : Objects) (uid : Uid) (r : Role) : Prop :=
  ∃ u, objects.user? uid = some u ∧ r ∈ u.roles

def IsPrinceOf (objects : Objects) (uid : Uid) (c : String) : Prop :=
  ∃ u, objects.user? uid = some u ∧ .prince ∈ u.roles ∧ u.country = some c

/-- The actor is, at the time of the request, someone who meets `P`. -/
def MemberCall.By (call : MemberCall) (objects : Objects) (P : User → Prop) : Prop :=
  ∃ actor, objects.user? call.actorUid = some actor ∧ P actor

/-- An edit by which an NC moves a member of his own country into `c`, who is Prince already or is
made Prince by the same request. -/
def MemberCall.MovesPrince (call : MemberCall) (objects : Objects) (c : String) : Prop :=
  ∃ uid data u d, call.request = .update uid data ∧ objects.user? uid = some u ∧
    call.By objects (fun actor => NcOf actor d) ∧ u.country = some d ∧
    call.registry.storedCountry data.country = some c ∧
    (.prince ∈ u.roles ∨ "Prince" ∈ data.roles.getD [])

section Sequences

variable {call : MemberCall} {objects objects' start : Objects} {uid : Uid} {c : String}

theorem of_serve (h : WellKeyed objects) (hserve : call.serve objects = .ok objects') :
    ∃ actor u', objects.user? call.actorUid = some actor ∧ objects' = saveUser objects u' ∧
      ((∀ r ∈ u'.roles, canChangeRole actor u' r false = true) ∨
        ∃ data u, call.request = .update u'.uid data ∧ objects.user? u'.uid = some u ∧
          (∀ r ∈ u'.roles, r ∉ u.roles →
            canChangeRole actor u r (call.registry.userHasNda u'.uid) = true ∧
              r.asStr ∈ data.roles.getD []) ∧
          (u'.country ≠ u.country → canChangeCountry actor u = true ∧
            call.registry.storedCountry data.country = u'.country)) := by
  unfold MemberCall.serve at hserve
  split at hserve
  · obtain ⟨actor, u, hactor, hsave, hroles⟩ := of_createUser hserve
    exact ⟨actor, u, hactor, hsave, .inl hroles⟩
  · rename_i uid data hrequest
    obtain ⟨actor, u, u', hactor, hu, hsave, huid, hroles, hcountry⟩ := of_updateUser hserve
    obtain rfl : u'.uid = uid := huid.trans (h.uid_eq (user?_eq_some.1 hu))
    exact ⟨actor, u', hactor, hsave, .inr ⟨data, u, hrequest, hu, hroles, hcountry⟩⟩

theorem holdsRole_step (h : WellKeyed objects) (hserve : call.serve objects = .ok objects')
    (hic : ¬call.By objects fun actor => .ic ∈ actor.roles) {r : Role}
    (hr : HoldsRole objects' uid r) : HoldsRole objects uid r ∨ r = .prince ∨ r = .pt := by
  obtain ⟨actor, u', hactor, rfl, hwrote⟩ := of_serve h hserve
  have hnonIc : .ic ∉ actor.roles := fun hmem => hic ⟨actor, hactor, hmem⟩
  obtain ⟨v, hv, hheld⟩ := hr
  by_cases huid : uid = u'.uid
  · subst huid
    rw [user?_saveUser, Option.some_inj] at hv
    subst hv
    have hgranted : ∀ {target nda}, canChangeRole actor target r nda = true →
        r = .prince ∨ r = .pt := fun hchange =>
      (canChangeRole_of_nonIc hnonIc hchange).elim .inr fun hprince => .inl hprince.1
    rcases hwrote with hroles | ⟨data, u, -, hu, hroles, -⟩
    · exact .inr (hgranted (hroles r hheld))
    · by_cases hbefore : r ∈ u.roles
      · exact .inl ⟨u, hu, hbefore⟩
      · exact .inr (hgranted (hroles r hheld hbefore).1)
  · rw [user?_saveUser_ne huid] at hv
    exact .inl ⟨v, hv, hheld⟩

theorem isPrinceOf_step (h : WellKeyed objects) (hserve : call.serve objects = .ok objects')
    (hic : ¬call.By objects fun actor => .ic ∈ actor.roles)
    (hnc : ¬call.By objects fun actor => NcOf actor c) (hmove : ¬call.MovesPrince objects c)
    (hr : IsPrinceOf objects' uid c) : IsPrinceOf objects uid c := by
  obtain ⟨actor, u', hactor, rfl, hwrote⟩ := of_serve h hserve
  have hnonIc : .ic ∉ actor.roles := fun hmem => hic ⟨actor, hactor, hmem⟩
  obtain ⟨v, hv, hprince, hcountry⟩ := hr
  by_cases huid : uid = u'.uid
  · subst huid
    rw [user?_saveUser, Option.some_inj] at hv
    subst hv
    rcases hwrote with hroles | ⟨data, u, hrequest, hu, hroles, hplace⟩
    · -- a new Prince is one of the country of the NC who creates him
      rcases canChangeRole_of_nonIc hnonIc (hroles .prince hprince) with hpt | ⟨-, d, hd, hin⟩
      · cases hpt
      · rw [hcountry, Option.some_inj] at hin
        exact absurd ⟨actor, hactor, hin ▸ hd⟩ hnc
    · -- the appointment and the move are both checked in the country he was in
      have hmoved : ∀ d, NcOf actor d → u.country = some d →
          (.prince ∈ u.roles ∨ "Prince" ∈ data.roles.getD []) → False := by
        intro d hd hin hbecomes
        by_cases hsame : d = c
        · exact hnc ⟨actor, hactor, hsame ▸ hd⟩
        · have hne : u'.country ≠ u.country := by
            rw [hcountry, hin]
            exact fun heq => hsame (Option.some_inj.1 heq).symm
          exact hmove ⟨_, data, u, d, hrequest, hu, ⟨actor, hactor, hd⟩, hin,
            (hplace hne).2.trans hcountry, hbecomes⟩
      by_cases hbefore : .prince ∈ u.roles
      · by_cases hstays : u'.country = u.country
        · exact ⟨u, hu, hbefore, hstays ▸ hcountry⟩
        · obtain ⟨d, hd, hin⟩ := ncOf_of_canChangeCountry hnonIc hbefore (hplace hstays).1
          exact (hmoved d hd hin (.inl hbefore)).elim
      · obtain ⟨hchange, hnamed⟩ := hroles .prince hprince hbefore
        rcases canChangeRole_of_nonIc hnonIc hchange with hpt | ⟨-, d, hd, hin⟩
        · cases hpt
        · exact (hmoved d hd hin (.inr hnamed)).elim
  · rw [user?_saveUser_ne huid] at hv
    exact ⟨v, hv, hprince, hcountry⟩

theorem wellKeyed_serve (h : WellKeyed objects) (hserve : call.serve objects = .ok objects') :
    WellKeyed objects' := by
  obtain ⟨-, u', -, rfl, -⟩ := of_serve h hserve
  exact wellKeyed_saveUser h u'

/-- Over any sequence of accepted requests by actors none of whom holds IC at the time: nobody gains
a role but Prince and PT; and a country none of whose NCs is among the actors, and into which no NC
moves a Prince out of his own, gains no Prince. -/
theorem appointments_stay (h : WellKeyed start) :
    (∀ objects, (memberSystem.startedAt start).Reaches
        (fun table call => ¬call.By table fun actor => .ic ∈ actor.roles) objects →
      ∀ uid r, HoldsRole objects uid r → HoldsRole start uid r ∨ r = .prince ∨ r = .pt) ∧
    ∀ (c : String) (objects : Objects), (memberSystem.startedAt start).Reaches
        (fun table call => (¬call.By table fun actor => .ic ∈ actor.roles) ∧
          (¬call.By table fun actor => NcOf actor c) ∧ ¬call.MovesPrince table c) objects →
      ∀ uid, IsPrinceOf objects uid c → IsPrinceOf start uid c := by
  constructor
  · intro objects hrun
    refine (System.Reaches.invariant (P := fun table => WellKeyed table ∧
      ∀ uid r, HoldsRole table uid r → HoldsRole start uid r ∨ r = .prince ∨ r = .pt)
      ?_ ?_ hrun).2
    · rintro table rfl
      exact ⟨h, fun uid r hr => .inl hr⟩
    · rintro table call table' ⟨hkeyed, hroles⟩ hic hserve
      refine ⟨wellKeyed_serve hkeyed hserve, fun uid r hr => ?_⟩
      exact (holdsRole_step hkeyed hserve hic hr).elim (hroles uid r) .inr
  · intro c objects hrun
    refine (System.Reaches.invariant (P := fun table => WellKeyed table ∧
      ∀ uid, IsPrinceOf table uid c → IsPrinceOf start uid c) ?_ ?_ hrun).2
    · rintro table rfl
      exact ⟨h, fun uid hr => hr⟩
    · rintro table call table' ⟨hkeyed, hprinces⟩ ⟨hic, hnc, hmove⟩ hserve
      refine ⟨wellKeyed_serve hkeyed hserve, fun uid hr => ?_⟩
      exact hprinces uid (isPrinceOf_step hkeyed hserve hic hnc hmove hr)

end Sequences

/-! ### One request with a role and a country -/

/-- An NC and a member of one country. -/
def countryTable : Objects := [member "nc" [.nc], member "a" []].foldl saveUser ∅

theorem countryTable_keyed : WellKeyed countryTable := by
  have hempty : WellKeyed ∅ := fun _ _ h => by cases h
  exact wellKeyed_saveUser (wellKeyed_saveUser hempty _) _

/-- The NC makes the member Prince and moves him abroad. -/
def princeAbroad : MemberCall where
  registry := ⟨"2026-05-02T10:00:00Z", "new", id, [], fun _ => false⟩
  actorUid := "nc"
  request := .update "a" ⟨none, some "DE", none, none, none, none, some ["Prince"]⟩

theorem not_by_princeAbroad {P : User → Prop} (h : ¬P (member "nc" [.nc])) :
    ¬princeAbroad.By countryTable P := by
  rintro ⟨actor, hactor, hP⟩
  have hnc : countryTable.user? "nc" = some (member "nc" [.nc]) := rfl
  obtain rfl : member "nc" [.nc] = actor := Option.some_inj.1 (hnc.symm.trans hactor)
  exact h hP

theorem princeAbroad_served : ∃ objects, princeAbroad.serve countryTable = .ok objects ∧
    IsPrinceOf objects "a" "DE" := by
  have hserved : ((princeAbroad.serve countryTable).toOption.any fun table =>
      (table.user? "a").any fun u => decide (.prince ∈ u.roles) && u.country == some "DE") =
        true := by decide +kernel
  obtain ⟨objects, hobjects, hprince⟩ := (Option.any_eq_true _ _).1 hserved
  obtain ⟨u, hu, hprince⟩ := (Option.any_eq_true _ _).1 hprince
  rw [Bool.and_eq_true, decide_eq_true_eq, beq_iff_eq] at hprince
  refine ⟨objects, ?_, u, hu, hprince⟩
  cases hserve : princeAbroad.serve countryTable with
  | ok table =>
    rw [hserve] at hobjects
    cases hobjects
    rfl
  | error e =>
    rw [hserve] at hobjects
    cases hobjects

/-- Nobody but the member abroad is made Prince, of no other country. -/
theorem appointments_stay_princeAbroad : ∃ objects,
    (∀ uid r, HoldsRole objects uid r → HoldsRole countryTable uid r ∨ r = .prince ∨ r = .pt) ∧
      ∀ uid, IsPrinceOf objects uid "IT" → IsPrinceOf countryTable uid "IT" := by
  obtain ⟨objects, hserve, -⟩ := princeAbroad_served
  have hic : ¬princeAbroad.By countryTable fun actor => .ic ∈ actor.roles :=
    not_by_princeAbroad (by decide)
  have hnc : ¬princeAbroad.By countryTable fun actor => NcOf actor "IT" :=
    not_by_princeAbroad fun h => absurd h.2 (by decide)
  have hmove : ¬princeAbroad.MovesPrince countryTable "IT" := by
    rintro ⟨uid, data, u, d, hrequest, -, -, -, hcountry, -⟩
    cases hrequest
    revert hcountry
    decide
  have hstay := appointments_stay countryTable_keyed
  exact ⟨objects, hstay.1 objects (.step (.init rfl) hic hserve),
    hstay.2 "IT" objects (.step (.init rfl) ⟨hic, hnc, hmove⟩ hserve)⟩

/-- The only actor is NC of another country, and yet the member is Prince abroad. -/
theorem not_appointments_stay :
    ¬∀ start : Objects, WellKeyed start → ∀ (c : String) (objects : Objects),
      (memberSystem.startedAt start).Reaches
        (fun table call => (¬call.By table fun actor => .ic ∈ actor.roles) ∧
          ¬call.By table fun actor => NcOf actor c) objects →
      ∀ uid, IsPrinceOf objects uid c → IsPrinceOf start uid c := by
  intro h
  obtain ⟨objects, hserve, hprince⟩ := princeAbroad_served
  have hic : ¬princeAbroad.By countryTable fun actor => .ic ∈ actor.roles :=
    not_by_princeAbroad (by decide)
  have hnc : ¬princeAbroad.By countryTable fun actor => NcOf actor "DE" :=
    not_by_princeAbroad fun h => absurd h.2 (by decide)
  obtain ⟨u, hu, hbefore, -⟩ := h countryTable countryTable_keyed "DE" objects
    (.step (.init rfl) ⟨hic, hnc⟩ hserve) "a" hprince
  have ha : countryTable.user? "a" = some (member "a" []) := rfl
  rw [ha, Option.some_inj] at hu
  subst hu
  cases hbefore

end Archon.Backend

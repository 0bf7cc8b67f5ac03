import Archon.Properties.OnlineFrame

/-!
# Going online again after a failure (`routes/tournaments.py:1956`, `2057`)

Members are matched and minted before the locked checks, each save on its own, so an attempt that
fails later keeps them. A player with an address is found by it at the next attempt; one without is
minted once an attempt.
-/

namespace Archon.Backend
open Engine Guards Table

/-! ### Attempts -/

/-- One attempt; the request may be cut short after so many of its players, or in the transaction
once all of them are resolved. -/
structure Attempt where
  env : Env
  user : User
  request : GoOnlineRequest
  cut : Option ℕ

namespace Attempt

/-- The loop over the first `k` players. -/
def resolvedUpTo (a : Attempt) (store : Store) (uid : Uid) (k : ℕ) : Resolution :=
  resolveOfflinePlayers a.env store (pinned a.env uid a.request.tournament).country a.user.uid
    (a.request.offlinePlayers.take k)

def run (a : Attempt) (store : Store) (uid : Uid) : Objects × Except RouteError GoOnlineSummary :=
  match a.cut with
  | none => goOnline a.env store a.user uid a.request
  | some k =>
    match gateGoOnline a.env store.objects a.user uid a.request with
    | .error e => (store.objects, .error e)
    | .ok _ => ((a.resolvedUpTo store uid k).objects, .error (.http 500 "Internal Server Error"))

/-- The new uids are new, to the sign-ins as well, and apart. -/
structure Fresh (a : Attempt) (store : Store) : Prop where
  unused : ∀ k, store.objects.lookup (a.env.freshUid k) = none
  unsigned : ∀ k, ∀ m ∈ store.authMethods, m.userUid ≠ a.env.freshUid k
  apart : Function.Injective a.env.freshUid

end Attempt

/-- The rows of members and the sign-ins are the same; others may differ. -/
structure SameMembers (a b : Store) : Prop where
  keyed : WellKeyed b.objects
  authMethods : b.authMethods = a.authMethods
  rows : ∀ k u d, b.objects.lookup k = some ⟨.user u, d⟩ ↔ a.objects.lookup k = some ⟨.user u, d⟩

/-- Failed attempts with one list of players. In between the tournament may change, as when another
device takes the lock over. -/
inductive Retries (uid : Uid) (players : List OfflinePlayerData) (s : Store) : ℕ → Store → Prop
  | start : Retries uid players s 0 s
  | failed {n : ℕ} {t : Store} (a : Attempt) (objects : Objects) (e : RouteError) :
      Retries uid players s n t → a.Fresh t → a.request.offlinePlayers = players →
      a.run t uid = (objects, .error e) → Retries uid players s (n + 1) ⟨objects, t.authMethods⟩
  | between {n : ℕ} {t t' : Store} :
      Retries uid players s n t → SameMembers t t' → Retries uid players s n t'

/-- The members of a table who are not in an earlier one. -/
def newMembers (before after : Objects) : List User :=
  after.users.filter fun u => (before.user? u.uid).isNone

/-- No member is found for the player. -/
def unmatched (s : Store) (p : OfflinePlayerData) : Bool :=
  (matchOfflinePlayer s.objects s.authMethods p).isNone

/-- One member for each player with an address who is nobody's yet, and one for each attempt and
each of the others. -/
def mintBound (s : Store) (players : List OfflinePlayerData) (attempts : ℕ) : ℕ :=
  ((players.filter (unmatched s)).map fun p => if p.address = "" then attempts else 1).sum

/-- A failed attempt leaves each row, but for members without a VEKN id, who may be given one, and
new members for players who match nobody. -/
def SparedRow (s : Store) (players : List OfflinePlayerData) (objects : Objects) (k : Uid) : Prop :=
  objects.lookup k = s.objects.lookup k ∨
  (∃ u u', s.objects.user? k = some u ∧ u.veknId.getD "" = "" ∧ objects.user? k = some u' ∧
    u' = { u with
      veknId := u'.veknId, cooptedBy := u'.cooptedBy, cooptedAt := u'.cooptedAt
      modified := u'.modified }) ∨
  (s.objects.lookup k = none ∧ ∃ p ∈ players, unmatched s p = true ∧
    ∃ u', objects.user? k = some u' ∧ u'.name = p.name)

/-- A live row is of a member who is not deleted. -/
def MembersAgree (objects : Objects) : Prop :=
  ∀ k u, objects.lookup k = some ⟨.user u, none⟩ → u.deletedAt = none

section OnlineRetries

variable {objects objects' a b c : Objects} {authMethods : List AuthMethod} {uid k : Uid}
variable {u : User} {p : OfflinePlayerData} {s t : Store} {players : List OfflinePlayerData}

/-! ### Who is found -/

/-- The ways an address leads to a member. -/
def reachedBy (authMethods : List AuthMethod) (email : String) (u : User) : Bool :=
  (authMethods.any fun a => a.userUid == u.uid &&
    (a.methodType == "email" && a.identifier == lower email))
    || (authMethods.any fun a =>
      a.userUid == u.uid && (a.methodType == "discord" && lower a.email == lower email))
    || (u.contactEmail.map lower == some (lower email)
      && !authMethods.any fun a => a.userUid == u.uid)

theorem isSome_foldl_best (us : List User) (best : Option User) (h : best.isSome = true ∨ us ≠ []) :
    (us.foldl (fun best u => some (best.elim u fun b => if u.uid < b.uid then u else b))
      best).isSome = true := by
  induction us generalizing best with
  | nil =>
    rcases h with h | h
    · exact h
    · exact absurd rfl h
  | cons u us ih => exact ih _ (.inl rfl)

theorem isSome_getUserByEmail {email : String} :
    (getUserByEmail objects authMethods email).isSome = true ↔
      ∃ u ∈ objects.liveUsers, reachedBy authMethods email u = true := by
  unfold getUserByEmail
  extract_lets byMethod byContact ranks
  have hany : (∃ u ∈ objects.liveUsers, reachedBy authMethods email u = true) ↔
      ∃ us ∈ ranks, us ≠ [] := by
    simp only [ranks, byMethod, byContact, List.mem_cons, List.not_mem_nil, or_false,
      exists_eq_or_imp, exists_eq_left, ne_eq, List.filter_eq_nil_iff, reachedBy, Bool.or_eq_true]
    push Not
    constructor
    · rintro ⟨u, hu, (h | h) | h⟩
      · exact .inl ⟨u, hu, h⟩
      · exact .inr (.inl ⟨u, hu, h⟩)
      · exact .inr (.inr ⟨u, hu, h⟩)
    · rintro (⟨u, hu, h⟩ | ⟨u, hu, h⟩ | ⟨u, hu, h⟩)
      · exact ⟨u, hu, .inl (.inl h)⟩
      · exact ⟨u, hu, .inl (.inr h)⟩
      · exact ⟨u, hu, .inr h⟩
  rw [hany]
  constructor
  · intro h
    obtain ⟨u, hu⟩ := Option.isSome_iff_exists.1 h
    obtain ⟨us, hus, -⟩ := Option.bind_eq_some_iff.1 hu
    refine ⟨us, List.mem_of_find?_eq_some hus, ?_⟩
    have hsome := List.find?_some hus
    rintro rfl
    cases hsome
  · rintro ⟨us, hus, hne⟩
    have hfound : (ranks.find? fun us => !us.isEmpty).isSome = true := by
      rw [List.find?_isSome]
      exact ⟨us, hus, by simpa using hne⟩
    obtain ⟨first, hfirst⟩ := Option.isSome_iff_exists.1 hfound
    rw [hfirst, Option.bind_some]
    refine isSome_foldl_best first none (.inr ?_)
    have hsome := List.find?_some hfirst
    rintro rfl
    cases hsome

theorem isSome_matchOfflinePlayer :
    (matchOfflinePlayer objects authMethods p).isSome = true ↔
      (∃ id, p.veknId = some id ∧ id ≠ "" ∧ isTemp id = false ∧
        ∃ u ∈ objects.users, u.veknId = some id) ∨
      (p.address ≠ "" ∧ ∃ u ∈ objects.liveUsers, reachedBy authMethods p.address u = true) := by
  unfold matchOfflinePlayer
  extract_lets named
  rw [Option.isSome_or, Bool.or_eq_true]
  refine or_congr ?_ ?_
  · dsimp only [named]
    cases p.veknId with
    | none => simp
    | some id =>
      rw [Option.bind_some]
      split_ifs with h
      · simp only [Option.isSome_none, Bool.false_eq_true, Option.some.injEq, false_iff]
        rintro ⟨_, rfl, hne, htemp, -⟩
        rcases h with h | h
        · exact hne h
        · rw [h] at htemp
          cases htemp
      · push Not at h
        have htemp : isTemp id = false := Bool.eq_false_iff.2 h.2
        simp only [getUserByVeknId, List.find?_isSome, Option.some.injEq]
        constructor
        · rintro ⟨u, hu, hid⟩
          rw [Bool.and_eq_true, beq_iff_eq] at hid
          exact ⟨id, rfl, h.1, htemp, u, hu, hid.1⟩
        · rintro ⟨_, rfl, -, -, u, hu, hid⟩
          exact ⟨u, hu, by simp [hid, h.1]⟩
  · split_ifs with h
    · simp [h]
    · rw [isSome_getUserByEmail]
      simp [h]

/-! ### Who stays found -/

/-- Every member is still there, live if he was, under the same address, and with the same VEKN id
if he had one. -/
def Grown (a b : Objects) : Prop :=
  ∀ k u d, a.lookup k = some ⟨.user u, d⟩ → ∃ u' d', b.lookup k = some ⟨.user u', d'⟩ ∧
    (d = none → d' = none) ∧ u'.contactEmail = u.contactEmail ∧
    (u.veknId.getD "" ≠ "" → u'.veknId = u.veknId)

theorem Grown.refl (a : Objects) : Grown a a := fun _ u d h => ⟨u, d, h, id, rfl, fun _ => rfl⟩

theorem Grown.trans (h : Grown a b) (h' : Grown b c) : Grown a c := by
  intro k u d hu
  obtain ⟨v, dv, hv, hlive, hmail, hid⟩ := h k u d hu
  obtain ⟨w, dw, hw, hlive', hmail', hid'⟩ := h' k v dv hv
  refine ⟨w, dw, hw, fun hd => hlive' (hlive hd), hmail'.trans hmail, fun hne => ?_⟩
  have hsame := hid hne
  exact (hid' (hsame ▸ hne)).trans hsame

theorem SameMembers.grown (h : SameMembers s t) : Grown s.objects t.objects := fun k u d hu =>
  ⟨u, d, (h.rows k u d).2 hu, id, rfl, fun _ => rfl⟩

theorem lookup_of_mem_users (h : WellKeyed objects) (hu : u ∈ objects.users) :
    ∃ d, objects.lookup u.uid = some ⟨.user u, d⟩ :=
  find?_eq_some.1 (user?_eq_some.1 ((mem_users h).1 hu))

theorem mem_users_of_lookup (h : WellKeyed objects) {d : Option Stamp}
    (hu : objects.lookup k = some ⟨.user u, d⟩) : u ∈ objects.users := by
  have hk : u.uid = k := h k _ hu
  exact (mem_users h).2 (user?_eq_some.2 (find?_eq_some.2 ⟨d, hk ▸ hu⟩))

theorem mem_liveUsers (h : WellKeyed objects) :
    u ∈ objects.liveUsers ↔ objects.lookup u.uid = some ⟨.user u, none⟩ := by
  rw [Objects.liveUsers, List.mem_filterMap]
  constructor
  · rintro ⟨⟨k, o, d⟩, hx, hu⟩
    split_ifs at hu with hd
    cases o with
    | user v =>
      obtain rfl : v = u := Option.some.inj hu
      have hrow := mem_rows.1 hx
      have hk : v.uid = k := h k _ hrow
      have hnone : d = none := hd
      rw [hnone] at hrow
      exact hk ▸ hrow
    | _ => cases hu
  · exact fun hrow => ⟨(u.uid, ⟨.user u, none⟩), mem_rows.2 hrow, rfl⟩

theorem reachedBy_congr {email : String} {v : User} (huid : v.uid = u.uid)
    (hmail : v.contactEmail = u.contactEmail) :
    reachedBy authMethods email v = reachedBy authMethods email u := by
  unfold reachedBy
  rw [huid, hmail]

theorem Grown.matched (h : Grown a b) (ha : WellKeyed a) (hb : WellKeyed b)
    (hmatched : (matchOfflinePlayer a authMethods p).isSome = true) :
    (matchOfflinePlayer b authMethods p).isSome = true := by
  rw [isSome_matchOfflinePlayer] at hmatched ⊢
  rcases hmatched with ⟨id, hid, hne, htemp, u, hu, huid⟩ | ⟨haddress, u, hu, hreached⟩
  · obtain ⟨d, hrow⟩ := lookup_of_mem_users ha hu
    obtain ⟨u', d', hrow', -, -, hkept⟩ := h _ u d hrow
    refine .inl ⟨id, hid, hne, htemp, u', mem_users_of_lookup hb hrow', ?_⟩
    have hgiven : u.veknId.getD "" ≠ "" := by
      rw [huid]
      exact hne
    exact (hkept hgiven).trans huid
  · obtain ⟨u', d', hrow', hlive, hmail, -⟩ := h _ u none ((mem_liveUsers ha).1 hu)
    have hkey : u'.uid = u.uid := hb _ _ hrow'
    refine .inr ⟨haddress, u', ?_, (reachedBy_congr hkey hmail).trans hreached⟩
    rw [hlive rfl] at hrow'
    exact (mem_liveUsers hb).2 (hkey ▸ hrow')

/-! ### One player -/

theorem contactEmail_coopted (env : Env) (objects : Objects) (organizer : Uid) (u : User) :
    (coopted env objects organizer u).contactEmail = u.contactEmail := by
  unfold coopted
  split <;> rfl

theorem deletedAt_coopted (env : Env) (objects : Objects) (organizer : Uid) (u : User) :
    (coopted env objects organizer u).deletedAt = u.deletedAt := by
  unfold coopted
  split <;> rfl

theorem grown_saveUser {u' : User} {d : Option Stamp} (hagree : MembersAgree a)
    (hrow : a.lookup u.uid = some ⟨.user u, d⟩) (huid : u'.uid = u.uid)
    (hmail : u'.contactEmail = u.contactEmail) (hdeleted : u'.deletedAt = u.deletedAt)
    (hid : u.veknId.getD "" ≠ "" → u'.veknId = u.veknId) : Grown a (saveUser a u') := by
  intro k v d' hv
  by_cases hk : k = u.uid
  · rw [hk, hrow, Option.some.injEq, Row.mk.injEq, StoredObject.user.injEq] at hv
    obtain ⟨rfl, rfl⟩ := hv
    refine ⟨u', u'.deletedAt, ?_, fun hd => ?_, hmail, hid⟩
    · rw [hk, ← huid]
      exact lookup_saveObject
    · rw [hdeleted]
      exact hagree _ _ (hd ▸ hrow)
  · refine ⟨v, d', ?_, id, rfl, fun _ => rfl⟩
    rw [← hv]
    exact lookup_saveObject_ne (huid ▸ hk)

theorem grown_saveUser_new (hnew : a.lookup u.uid = none) : Grown a (saveUser a u) := by
  intro k v d hv
  have hk : k ≠ u.uid := by
    rintro rfl
    rw [hnew] at hv
    cases hv
  exact ⟨v, d, (lookup_saveObject_ne hk).trans hv, id, rfl, fun _ => rfl⟩

theorem membersAgree_saveUser (h : MembersAgree a) : MembersAgree (saveUser a u) := by
  intro k v hv
  by_cases hk : k = u.uid
  · rw [hk] at hv
    have hrow : (saveUser a u).lookup u.uid = some ⟨.user u, u.deletedAt⟩ := lookup_saveObject
    rw [hrow, Option.some.injEq, Row.mk.injEq, StoredObject.user.injEq] at hv
    obtain ⟨rfl, hd⟩ := hv
    exact hd
  · exact h k v ((lookup_saveObject_ne hk).symm.trans hv)

theorem isUser_saveUser (h : IsUser (saveUser a u) k) : k = u.uid ∨ IsUser a k := by
  by_cases hk : k = u.uid
  · exact .inl hk
  · rw [IsUser, user?_saveUser_ne hk] at h
    exact .inr h

theorem matched_minted {env : Env} {created : ℕ} {country : Option String} {organizer : Uid}
    (hkeyed : WellKeyed a) (haddress : p.address ≠ "")
    (hunsigned : ∀ m ∈ authMethods, m.userUid ≠ env.freshUid created) :
    (matchOfflinePlayer (saveUser a (mintedUser env a created country organizer p)) authMethods
      p).isSome = true := by
  set u := mintedUser env a created country organizer p with hu
  have hrow : (saveUser a u).lookup u.uid = some ⟨.user u, none⟩ := lookup_saveObject
  rw [isSome_matchOfflinePlayer]
  refine .inr ⟨haddress, u, (mem_liveUsers (wellKeyed_saveUser hkeyed u)).2 hrow, ?_⟩
  have hmail : u.contactEmail = some p.address := if_neg haddress
  have hnobody : (authMethods.any fun m => m.userUid == u.uid) = false := by
    rw [List.any_eq_false]
    intro m hm hsame
    exact hunsigned m hm (eq_of_beq hsame)
  unfold reachedBy
  rw [hmail, hnobody]
  simp

/-! ### The loop over the players -/

/-- The players with an address who match nobody. -/
def unmet (players : List OfflinePlayerData) (s : Store) : ℕ :=
  players.countP fun p => decide (p.address ≠ "") && unmatched s p

/-- The players without an address who match nobody. -/
def nameless (players : List OfflinePlayerData) (s : Store) : ℕ :=
  players.countP fun p => decide (p.address = "") && unmatched s p

theorem Grown.unmatched_le (h : Grown a b) (ha : WellKeyed a) (hb : WellKeyed b)
    (hp : unmatched ⟨b, authMethods⟩ p = true) : unmatched ⟨a, authMethods⟩ p = true := by
  unfold unmatched at hp ⊢
  rw [Option.isNone_iff_eq_none] at hp ⊢
  by_contra hne
  have hsome := h.matched ha hb (Option.isSome_iff_ne_none.2 hne)
  rw [hp] at hsome
  cases hsome

theorem Grown.unmet_le (h : Grown a b) (ha : WellKeyed a) (hb : WellKeyed b) :
    unmet players ⟨b, authMethods⟩ ≤ unmet players ⟨a, authMethods⟩ := by
  refine List.countP_mono_left fun p _ hp => ?_
  rw [Bool.and_eq_true] at hp ⊢
  exact ⟨hp.1, h.unmatched_le ha hb hp.2⟩

theorem Grown.nameless_le (h : Grown a b) (ha : WellKeyed a) (hb : WellKeyed b) :
    nameless players ⟨b, authMethods⟩ ≤ nameless players ⟨a, authMethods⟩ := by
  refine List.countP_mono_left fun p _ hp => ?_
  rw [Bool.and_eq_true] at hp ⊢
  exact ⟨hp.1, h.unmatched_le ha hb hp.2⟩

theorem Grown.unmet_lt (h : Grown a b) (ha : WellKeyed a) (hb : WellKeyed b) (hp : p ∈ players)
    (haddress : p.address ≠ "") (hbefore : unmatched ⟨a, authMethods⟩ p = true)
    (hafter : unmatched ⟨b, authMethods⟩ p = false) :
    unmet players ⟨b, authMethods⟩ + 1 ≤ unmet players ⟨a, authMethods⟩ := by
  obtain ⟨front, back, rfl⟩ := List.append_of_mem hp
  have hfront : unmet front ⟨b, authMethods⟩ ≤ unmet front ⟨a, authMethods⟩ := h.unmet_le ha hb
  have hback : unmet back ⟨b, authMethods⟩ ≤ unmet back ⟨a, authMethods⟩ := h.unmet_le ha hb
  unfold unmet at hfront hback ⊢
  rw [List.countP_append, List.countP_append, List.countP_cons_of_neg (by simp [hafter]),
    List.countP_cons_of_pos (by simp [hbefore, haddress])]
  omega

/-- What the loop over the players `done` has kept since the store `s`. -/
structure Looped (s : Store) (env : Env) (players done : List OfflinePlayerData) (r : Resolution) :
    Prop where
  keyed : WellKeyed r.objects
  agree : MembersAgree r.objects
  grown : Grown s.objects r.objects
  minted : ∀ k, IsUser r.objects k →
    IsUser s.objects k ∨ ∃ i < r.accountsCreated, k = env.freshUid i
  free : ∀ i, r.accountsCreated ≤ i → r.objects.lookup (env.freshUid i) = none
  bound : r.accountsCreated + unmet players ⟨r.objects, s.authMethods⟩ ≤
    unmet players s + nameless done s
  spared : ∀ k, SparedRow s players r.objects k

section Loop

variable {env : Env} {done : List OfflinePlayerData} {r : Resolution} {country : Option String}
variable {organizer : Uid}

theorem nameless_concat_le : nameless done s ≤ nameless (done ++ [p]) s := by
  unfold nameless
  rw [List.countP_append]
  exact Nat.le_add_right _ _

theorem sparedRow_congr (hsame : objects'.lookup k = objects.lookup k)
    (h : SparedRow s players objects k) : SparedRow s players objects' k := by
  rcases h with hold | ⟨v, v', hv, hblank, hv', hshape⟩ | ⟨hnone, q, hq, hqnone, v, hv, hname⟩
  · exact .inl (hsame.trans hold)
  · exact .inr (.inl ⟨v, v', hv, hblank, (user?_congr hsame).trans hv', hshape⟩)
  · exact .inr (.inr ⟨hnone, q, hq, hqnone, v, (user?_congr hsame).trans hv, hname⟩)

theorem Looped.matched (h : Looped s env players done r)
    (hu : u ∈ r.objects.users) (hblank : u.veknId.getD "" = "") :
    Looped s env players (done ++ [p])
      { r with objects := saveUser r.objects (coopted env r.objects organizer u) } := by
  have huid := coopted_uid env r.objects organizer u
  obtain ⟨d, hrow⟩ := lookup_of_mem_users h.keyed hu
  have hstep : Grown r.objects (saveUser r.objects (coopted env r.objects organizer u)) :=
    grown_saveUser h.agree hrow huid (contactEmail_coopted ..) (deletedAt_coopted ..)
      fun hne => absurd hblank hne
  have hkeyed := wellKeyed_saveUser h.keyed (coopted env r.objects organizer u)
  have hstored : IsUser r.objects u.uid := by
    rw [IsUser, (mem_users h.keyed).1 hu, Option.isSome_some]
  have hshape : coopted env r.objects organizer u = { u with
      veknId := (coopted env r.objects organizer u).veknId
      cooptedBy := (coopted env r.objects organizer u).cooptedBy
      cooptedAt := (coopted env r.objects organizer u).cooptedAt
      modified := (coopted env r.objects organizer u).modified } := by
    rw [coopted, if_pos hblank]
  have hread : (saveUser r.objects (coopted env r.objects organizer u)).user? u.uid =
      some (coopted env r.objects organizer u) := by
    rw [← huid]
    exact user?_saveUser _ _
  refine ⟨hkeyed, membersAgree_saveUser h.agree, h.grown.trans hstep, fun k hk =>
    ?_, fun i hi => ?_,
    ?_, fun k => ?_⟩
  · rcases isUser_saveUser hk with rfl | hk
    · exact h.minted _ (huid ▸ hstored)
    · exact h.minted k hk
  · have hne : env.freshUid i ≠ (coopted env r.objects organizer u).uid := by
      intro heq
      rw [huid] at heq
      have hnone := h.free i hi
      rw [heq, hrow] at hnone
      cases hnone
    exact (lookup_saveObject_ne hne).trans (h.free i hi)
  · have hunmet : unmet players ⟨saveUser r.objects (coopted env r.objects organizer u),
        s.authMethods⟩ ≤ unmet players ⟨r.objects, s.authMethods⟩ := hstep.unmet_le h.keyed hkeyed
    have hnameless : nameless done s ≤ nameless (done ++ [p]) s := nameless_concat_le
    have hbound := h.bound
    dsimp only
    omega
  · by_cases hk : k = u.uid
    · subst hk
      rcases h.spared u.uid with hsame | ⟨v, v', hv, hvblank, hv', hvshape⟩ |
        ⟨hnone, q, hq, hqnone, v, hv, hname⟩
      · refine .inr (.inl ⟨u, _, ?_, hblank, hread, hshape⟩)
        rw [← user?_congr hsame]
        exact (mem_users h.keyed).1 hu
      · have heq : v' = u := Option.some.inj (hv'.symm.trans ((mem_users h.keyed).1 hu))
        refine .inr (.inl ⟨v, _, hv, hvblank, hread, ?_⟩)
        rw [hshape]
        rw [heq] at hvshape
        rw [hvshape]
      · have heq : v = u := Option.some.inj (hv.symm.trans ((mem_users h.keyed).1 hu))
        refine .inr (.inr ⟨hnone, q, hq, hqnone, _, hread, ?_⟩)
        rw [hshape, ← hname, heq]
    · have hsame : (saveUser r.objects (coopted env r.objects organizer u)).lookup k =
          r.objects.lookup k := lookup_saveObject_ne (huid ▸ hk)
      exact sparedRow_congr hsame (h.spared k)

theorem Looped.mint (h : Looped s env players done r) (hs : WellKeyed s.objects)
    (hunused : ∀ i, s.objects.lookup (env.freshUid i) = none)
    (hunsigned : ∀ i, ∀ m ∈ s.authMethods, m.userUid ≠ env.freshUid i)
    (hapart : Function.Injective env.freshUid) (hp : p ∈ players)
    (hnone : matchOfflinePlayer r.objects s.authMethods p = none) :
    Looped s env players (done ++ [p])
      { r with
        objects := saveUser r.objects
          (mintedUser env r.objects r.accountsCreated country organizer p)
        accountsCreated := r.accountsCreated + 1 } := by
  set u := mintedUser env r.objects r.accountsCreated country organizer p with hu
  have huid : u.uid = env.freshUid r.accountsCreated := rfl
  have hnew : r.objects.lookup u.uid = none := h.free _ le_rfl
  have hstep : Grown r.objects (saveUser r.objects u) := grown_saveUser_new hnew
  have hkeyed := wellKeyed_saveUser h.keyed u
  have hbefore : unmatched ⟨r.objects, s.authMethods⟩ p = true := by
    rw [unmatched, hnone, Option.isNone_none]
  have hstart : unmatched s p = true := h.grown.unmatched_le hs h.keyed hbefore
  refine ⟨hkeyed, membersAgree_saveUser h.agree, h.grown.trans hstep, fun k hk =>
    ?_, fun i hi => ?_,
    ?_, fun k => ?_⟩
  · rcases isUser_saveUser hk with rfl | hk
    · exact .inr ⟨r.accountsCreated, Nat.lt_succ_self _, rfl⟩
    · rcases h.minted k hk with hold | ⟨i, hi, heq⟩
      · exact .inl hold
      · exact .inr ⟨i, Nat.lt_succ_of_lt hi, heq⟩
  · have hne : env.freshUid i ≠ u.uid := by
      intro heq
      have hlt : r.accountsCreated + 1 ≤ i := hi
      have hi' := hapart heq
      omega
    exact (lookup_saveObject_ne hne).trans (h.free i (Nat.le_of_succ_le hi))
  · have hbound := h.bound
    have hunmet : unmet players ⟨saveUser r.objects u, s.authMethods⟩ ≤
        unmet players ⟨r.objects, s.authMethods⟩ := hstep.unmet_le h.keyed hkeyed
    by_cases haddress : p.address = ""
    · have hcount : nameless (done ++ [p]) s = nameless done s + 1 := by
        unfold nameless
        rw [List.countP_append, List.countP_singleton, if_pos (by simp [haddress, hstart])]
      dsimp only
      omega
    · have hafter : unmatched ⟨saveUser r.objects u, s.authMethods⟩ p = false := by
        have hfound := @matched_minted r.objects s.authMethods p env r.accountsCreated country
          organizer h.keyed haddress (hunsigned r.accountsCreated)
        rw [unmatched, Option.isNone_eq_false_iff]
        exact hfound
      have hless := hstep.unmet_lt h.keyed hkeyed hp haddress hbefore hafter
      have hnameless : nameless done s ≤ nameless (done ++ [p]) s := nameless_concat_le
      dsimp only
      omega
  · by_cases hk : k = u.uid
    · rw [hk]
      exact .inr (.inr ⟨hunused _, p, hp, hstart, u, user?_saveUser _ _, rfl⟩)
    · have hsame : (saveUser r.objects u).lookup k = r.objects.lookup k := lookup_saveObject_ne hk
      exact sparedRow_congr hsame (h.spared k)

theorem looped_resolve (hs : WellKeyed s.objects) (hagree : MembersAgree s.objects)
    (hunused : ∀ i, s.objects.lookup (env.freshUid i) = none)
    (hunsigned : ∀ i, ∀ m ∈ s.authMethods, m.userUid ≠ env.freshUid i)
    (hapart : Function.Injective env.freshUid) (country : Option String) (organizer : Uid)
    (done : List OfflinePlayerData) (hdone : ∀ p ∈ done, p ∈ players) :
    Looped s env players done (resolveOfflinePlayers env s country organizer done) := by
  induction done using List.reverseRecOn with
  | nil =>
    refine ⟨hs, hagree, Grown.refl _, fun k hk => .inl hk, fun i _ => hunused i, ?_, fun k =>
      .inl rfl⟩
    exact (Nat.zero_add _).le.trans (Nat.le_add_right _ _)
  | append_singleton done p ih =>
    have h := ih fun q hq => hdone q (List.mem_append_left _ hq)
    have hp : p ∈ players := hdone p (by simp)
    have hfold : resolveOfflinePlayers env s country organizer (done ++ [p]) =
        resolveOfflinePlayer env s.authMethods country organizer
          (resolveOfflinePlayers env s country organizer done) p := by
      rw [resolveOfflinePlayers, List.foldl_append]
      rfl
    rw [hfold]
    generalize resolveOfflinePlayers env s country organizer done = r at h
    unfold resolveOfflinePlayer
    extract_lets remember
    cases hmatch : matchOfflinePlayer r.objects s.authMethods p with
    | some u =>
      have hu := matchOfflinePlayer_mem hmatch
      by_cases hblank : u.veknId.getD "" = ""
      · have hmatched := @Looped.matched u p s players env done r organizer h hu hblank
        dsimp only [remember]
        rw [if_pos hblank]
        exact ⟨hmatched.keyed, hmatched.agree, hmatched.grown, hmatched.minted, hmatched.free,
          hmatched.bound, hmatched.spared⟩
      · dsimp only [remember]
        rw [if_neg hblank]
        refine ⟨h.keyed, h.agree, h.grown, h.minted, h.free, ?_, h.spared⟩
        exact h.bound.trans (Nat.add_le_add_left nameless_concat_le _)
    | none =>
      have hminted := @Looped.mint p s players env done r country organizer h hs hunused
        hunsigned hapart hp hmatch
      exact ⟨hminted.keyed, hminted.agree, hminted.grown, hminted.minted, hminted.free,
        hminted.bound, hminted.spared⟩

end Loop

/-! ### One attempt -/

theorem run_eq_error {a : Attempt} {e : RouteError} (h : a.run t uid = (objects, .error e)) :
    objects = t.objects ∨ ∃ done, done <+: a.request.offlinePlayers ∧
      objects = (resolveOfflinePlayers a.env t (pinned a.env uid a.request.tournament).country
        a.user.uid done).objects := by
  unfold Attempt.run at h
  split at h
  · rcases goOnline_eq_error h with heq | heq
    · exact .inl heq
    · exact .inr ⟨_, List.prefix_refl _, heq⟩
  · rename_i j hcut
    split at h
    · exact .inl (Prod.mk.inj h).1.symm
    · exact .inr ⟨_, List.take_prefix j _, (Prod.mk.inj h).1.symm⟩

theorem run_of_gate {a : Attempt} {e : RouteError}
    (h : gateGoOnline a.env t.objects a.user uid a.request = .error e) :
    (a.run t uid).1 = t.objects := by
  unfold Attempt.run
  split
  · rw [goOnline, h]
  · rw [h]

theorem run_eq_ok {a : Attempt} {summary : GoOnlineSummary}
    (h : a.run t uid = (objects, .ok summary)) :
    goOnline a.env t a.user uid a.request = (objects, .ok summary) := by
  unfold Attempt.run at h
  split at h
  · exact h
  · split at h
    · simp at h
    · simp at h

/-- Rows of members are written for those of the first table only. -/
def KnownMember (objects : Objects) (k : Uid) (o : StoredObject) : Prop :=
  o.asUser.isSome = true → IsUser objects k

theorem isUser_of_knownMember (h : Written (KnownMember a) a b) (hk : IsUser b k) : IsUser a k := by
  rcases h k with heq | ⟨row, hrow, hknown⟩
  · rwa [IsUser, user?_congr heq] at hk
  · refine hknown ?_
    rw [IsUser, Objects.user?, Objects.find?, hrow] at hk
    exact hk

theorem knownMember_recompute (h : Written (KnownMember a) a b)
    (hc : Framed (KnownMember b) (fun _ => True) b c) :
    Written (KnownMember a) a c ∧ WellKeyed c := by
  refine ⟨h.trans (hc.written.mono fun k row hrow huser => ?_), hc.keyed⟩
  exact isUser_of_knownMember h (hrow huser)

theorem knownMember_reflectSanction {env : Env} {change : SanctionChange} (hb : WellKeyed b)
    (h : Written (KnownMember a) a b) :
    Written (KnownMember a) a (reflectSanction env b uid change) ∧
      WellKeyed (reflectSanction env b uid change) := by
  unfold reflectSanction
  split
  · exact ⟨h, hb⟩
  · rename_i t _
    extract_lets sanctions doc found saved ops decked
    have hsaved : Written (KnownMember a) a saved :=
      h.trans (written_saveTournament (W := KnownMember a) fun hsome => by cases hsome)
    have hdecks := @written_processDeckOps env saved uid (KnownMember a)
      (wellKeyed_saveTournament hb _) (fun k d _ hsome => by cases hsome) ops
      fun op _ _ k d hsome => by cases hsome
    have hdecked : Written (KnownMember a) a decked := hsaved.trans hdecks.1
    split_ifs
    · exact ⟨h, hb⟩
    · exact knownMember_recompute hdecked
        (framed_recomputeWins hdecks.2 _ fun k _ hk _ _ => hk)
    · exact ⟨hdecked, hdecks.2⟩

theorem knownMember_afterOnline {env : Env} {request : GoOnlineRequest} {updated : StoredTournament}
    (hb : WellKeyed b) (h : Written (KnownMember a) a b) :
    Written (KnownMember a) a (afterOnline env uid request b updated) ∧
      WellKeyed (afterOnline env uid request b updated) := by
  unfold afterOnline
  extract_lets withdrawn reflected row players rated
  have hwithdrawn : Written (KnownMember a) a withdrawn ∧ WellKeyed withdrawn := by
    dsimp only [withdrawn]
    split
    · have hdecks := @written_withdrawPrivateDecks env b updated.uid (KnownMember a) hb
        fun k d _ hsome => by cases hsome
      exact ⟨h.trans hdecks.1, hdecks.2⟩
    · exact ⟨h, hb⟩
  have hreflected : Written (KnownMember a) a reflected ∧ WellKeyed reflected := by
    dsimp only [reflected]
    split
    · exact hwithdrawn
    · exact knownMember_reflectSanction hwithdrawn.2 hwithdrawn.1
  split
  · exact knownMember_recompute hreflected.1
      (framed_recomputePlayers hreflected.2 players _ fun k _ hk _ _ => hk)
  · exact hreflected

theorem members_goOnline {env : Env} {user : User} {request : GoOnlineRequest}
    {summary : GoOnlineSummary}
    (hkeyed : WellKeyed (onlineResolution env t user uid request).objects)
    (h : goOnline env t user uid request = (objects, .ok summary)) :
    (∀ k, IsUser objects k → IsUser (onlineResolution env t user uid request).objects k) ∧
      WellKeyed objects := by
  obtain ⟨-, mid, updated, hmid, rfl⟩ := goOnline_eq_ok h
  obtain ⟨-, -, -, hdecks⟩ := reconcile_eq_ok.1 hmid
  set r := onlineResolution env t user uid request with hr
  have hrow : Written (KnownMember r.objects) r.objects (saveRow r.objects updated) :=
    written_saveRow fun hsome => by cases hsome
  have hrest := written_satellites (W := KnownMember r.objects) (wellKeyed_saveRow hkeyed updated)
    (fun s _ hsome => by cases hsome) (fun sub _ k _ d hsome => by cases hsome) hdecks
  have hafter := @knownMember_afterOnline r.objects mid uid env request updated hrest.2
    (hrow.trans hrest.1)
  exact ⟨fun k hk => isUser_of_knownMember hafter.1 hk, hafter.2⟩

/-! ### A run of attempts -/

/-- What failed attempts have kept since the store `s`. -/
structure Retried (s : Store) (players : List OfflinePlayerData) (n : ℕ) (t : Store) : Prop where
  keyed : WellKeyed t.objects
  agree : MembersAgree t.objects
  authMethods : t.authMethods = s.authMethods
  grown : Grown s.objects t.objects
  minted : ∃ minted : List Uid,
    (∀ k, IsUser t.objects k → IsUser s.objects k ∨ k ∈ minted) ∧
      minted.length + unmet players t ≤ unmet players s + n * nameless players s

theorem IsUser.of_sameMembers (h : SameMembers s t) (hk : IsUser t.objects k) :
    IsUser s.objects k := by
  obtain ⟨u, hu⟩ := Option.isSome_iff_exists.1 hk
  obtain ⟨d, hd⟩ := find?_eq_some.1 (user?_eq_some.1 hu)
  rw [IsUser, user?_eq_some.2 (find?_eq_some.2 ⟨d, (h.rows k u d).1 hd⟩), Option.isSome_some]

theorem Retried.between {n : ℕ} {t' : Store} (h : Retried s players n t)
    (hsame : SameMembers t t') :
    Retried s players n t' := by
  obtain ⟨minted, hminted, hbound⟩ := h.minted
  refine ⟨hsame.keyed, fun k u hu => h.agree k u ((hsame.rows k u none).1 hu),
    hsame.authMethods.trans h.authMethods, h.grown.trans hsame.grown, minted, fun k hk => ?_, ?_⟩
  · exact hminted k (IsUser.of_sameMembers hsame hk)
  · have hunmet : unmet players ⟨t'.objects, t.authMethods⟩ ≤ unmet players
      ⟨t.objects, t.authMethods⟩ :=
      hsame.grown.unmet_le h.keyed hsame.keyed
    rw [← hsame.authMethods] at hunmet
    have hle : unmet players t' ≤ unmet players t := hunmet.trans (by rw [hsame.authMethods])
    omega

theorem Retried.loop {n : ℕ} {env : Env} {done : List OfflinePlayerData} {r : Resolution}
    (h : Retried s players n t) (hs : WellKeyed s.objects) (hloop : Looped t env players done r)
    (hdone : done <+: players) : Retried s players (n + 1) ⟨r.objects, t.authMethods⟩ := by
  obtain ⟨minted, hminted, hbound⟩ := h.minted
  refine ⟨hloop.keyed, hloop.agree, h.authMethods, h.grown.trans hloop.grown,
    minted ++ (List.range r.accountsCreated).map env.freshUid, fun k hk => ?_, ?_⟩
  · rcases hloop.minted k hk with hold | ⟨i, hi, rfl⟩
    · rcases hminted k hold with hold | hnew
      · exact .inl hold
      · exact .inr (List.mem_append_left _ hnew)
    · exact .inr (List.mem_append_right _ (List.mem_map_of_mem (List.mem_range.2 hi)))
  · have hloopBound := hloop.bound
    have hprefix : nameless done t ≤ nameless players t := hdone.sublist.countP_le
    have hfewer : nameless players ⟨t.objects, s.authMethods⟩ ≤
        nameless players ⟨s.objects, s.authMethods⟩ := h.grown.nameless_le hs h.keyed
    rw [← h.authMethods] at hfewer
    have hnameless : nameless players t ≤ nameless players s :=
      hfewer.trans (by rw [h.authMethods])
    rw [List.length_append, List.length_map, List.length_range, Nat.succ_mul]
    omega

theorem Retried.more {n : ℕ} (h : Retried s players n t) : Retried s players (n + 1) t := by
  obtain ⟨minted, hminted, hbound⟩ := h.minted
  refine ⟨h.keyed, h.agree, h.authMethods, h.grown, minted, hminted, ?_⟩
  rw [Nat.succ_mul]
  omega

theorem looped_attempt {a : Attempt} (ht : WellKeyed t.objects) (hagree : MembersAgree t.objects)
    (hfresh : a.Fresh t) {done : List OfflinePlayerData} (hdone : done <+: players) :
    Looped t a.env players done (resolveOfflinePlayers a.env t
      (pinned a.env uid a.request.tournament).country a.user.uid done) :=
  looped_resolve ht hagree hfresh.unused hfresh.unsigned hfresh.apart _ _ _
    fun _ hp => hdone.subset hp

theorem retried_of_retries {n : ℕ} (hs : WellKeyed s.objects) (hagree : MembersAgree s.objects)
    (h : Retries uid players s n t) : Retried s players n t := by
  induction h with
  | start =>
    refine ⟨hs, hagree, rfl, Grown.refl _, [], fun k hk => .inl hk, ?_⟩
    simp
  | failed a objects e _ hfresh hplayers hrun ih =>
    rcases run_eq_error hrun with rfl | ⟨done, hdone, rfl⟩
    · exact ih.more
    · rw [hplayers] at hdone
      exact ih.loop hs (looped_attempt ih.keyed ih.agree hfresh hdone) hdone
  | between _ hsame ih => exact ih.between hsame

/-! ### The members minted -/

theorem nodup_users (h : WellKeyed objects) : (objects.users.map User.uid).Nodup := by
  refine nodup_read fun x hx u hu => ?_
  have hrow := h x.1 x.2 (mem_rows.1 hx)
  obtain ⟨key, o, d⟩ := x
  cases o with
  | user v =>
    obtain rfl : v = u := Option.some.inj hu
    exact hrow
  | _ => cases hu

theorem length_newMembers_le {minted : List Uid} (hb : WellKeyed b)
    (h : ∀ k, IsUser b k → IsUser a k ∨ k ∈ minted) :
    (newMembers a b).length ≤ minted.length := by
  have hnodup : ((newMembers a b).map User.uid).Nodup :=
    (List.filter_sublist.map User.uid).nodup (nodup_users hb)
  have hsubset : (newMembers a b).map User.uid ⊆ minted := by
    intro k hk
    obtain ⟨u, hu, rfl⟩ := List.mem_map.1 hk
    obtain ⟨hmem, hnew⟩ := List.mem_filter.1 hu
    have hstored : IsUser b u.uid := by
      rw [IsUser, (mem_users hb).1 hmem, Option.isSome_some]
    rcases h _ hstored with hold | hnew'
    · rw [IsUser, ← Option.not_isNone, hnew] at hold
      cases hold
    · exact hnew'
  have hlength := (List.subperm_of_subset hnodup hsubset).length_le
  rwa [List.length_map] at hlength

theorem mintBound_eq (s : Store) (players : List OfflinePlayerData) (n : ℕ) :
    mintBound s players n = unmet players s + n * nameless players s := by
  unfold mintBound unmet nameless
  induction players with
  | nil => simp
  | cons p players ih =>
    by_cases hp : unmatched s p = true
    · rw [List.filter_cons_of_pos hp, List.map_cons, List.sum_cons, ih]
      by_cases haddress : p.address = ""
      · rw [if_pos haddress, List.countP_cons_of_neg (by simp [haddress]),
          List.countP_cons_of_pos (by simp [haddress, hp]), Nat.mul_succ]
        omega
      · rw [if_neg haddress, List.countP_cons_of_pos (by simp [haddress, hp]),
          List.countP_cons_of_neg (by simp [haddress])]
        omega
    · rw [List.filter_cons_of_neg hp, ih, List.countP_cons_of_neg (by simp [hp]),
        List.countP_cons_of_neg (by simp [hp])]

/-- After failed attempts, one that succeeds leaves one new member for each player with an address
who matched nobody, and one for each attempt and each other player who did; one that fails leaves
the rest as it was, and all of it when the first checks refuse. -/
theorem goOnline_retries (s t : Store) (uid : Uid) (players : List OfflinePlayerData) (n : ℕ)
    (a : Attempt) (hs : WellKeyed s.objects) (hagree : MembersAgree s.objects)
    (h : Retries uid players s n t) (hfresh : a.Fresh t)
    (hplayers : a.request.offlinePlayers = players) :
    (∀ objects summary, a.run t uid = (objects, .ok summary) →
      (newMembers s.objects objects).length ≤ mintBound s players (n + 1)) ∧
    (∀ objects e, a.run t uid = (objects, .error e) → ∀ k, SparedRow t players objects k) ∧
    (∀ e, gateGoOnline a.env t.objects a.user uid a.request = .error e →
      (a.run t uid).1 = t.objects) := by
  have hrun := retried_of_retries hs hagree h
  refine ⟨fun objects summary hok => ?_, fun objects e hfail k => ?_, fun e => run_of_gate⟩
  · have hdone : a.request.offlinePlayers <+: players := hplayers ▸ List.prefix_refl _
    have hloop : Looped t a.env players a.request.offlinePlayers (resolveOfflinePlayers a.env t
        (pinned a.env uid a.request.tournament).country a.user.uid a.request.offlinePlayers) :=
      looped_attempt hrun.keyed hrun.agree hfresh hdone
    obtain ⟨minted, hminted, hbound⟩ := (hrun.loop hs hloop hdone).minted
    have hgo := run_eq_ok hok
    obtain ⟨hmembers, hkeyed⟩ := members_goOnline hloop.keyed hgo
    have hlength := length_newMembers_le hkeyed fun k hk => hminted k (hmembers k hk)
    rw [mintBound_eq]
    omega
  · rcases run_eq_error hfail with rfl | ⟨done, hdone, rfl⟩
    · exact .inl rfl
    · rw [hplayers] at hdone
      exact (looped_attempt hrun.keyed hrun.agree hfresh hdone).spared k

end OnlineRetries

/-! ### A player without an address -/

/-- The event is brought online from its device, with players met offline. -/
def bringing (start : String) (players : List OfflinePlayerData) (cut : Option ℕ) : Attempt where
  env := { venue with freshUid := fun k => start ++ toString k }
  user := member "prince" [.prince]
  request := ⟨"tablet", event, players, [], [], false⟩
  cut

theorem toString_injective {i j : ℕ} (h : toString i = toString j) : i = j := by
  have hlist : Nat.toDigits 10 i = Nat.toDigits 10 j := by
    rw [← Nat.toList_repr, ← Nat.toList_repr]
    exact congrArg String.toList h
  rw [← @Nat.ofDigitChars_ten_toDigits i, hlist, Nat.ofDigitChars_ten_toDigits]

theorem bringing_fresh {start : String} {players : List OfflinePlayerData} {cut : Option ℕ}
    (h : ∀ k ∈ objects.keys, k.length ≤ start.length) :
    (bringing start players cut).Fresh ⟨objects, []⟩ where
  unused k := by
    rw [AList.lookup_eq_none, AList.mem_keys]
    intro hmem
    have hshort := h _ hmem
    have hdigits : 0 < (toString k).length := by
      have hlist : (toString k).toList = Nat.toDigits 10 k := Nat.toList_repr
      rw [← String.length_toList, hlist]
      exact Nat.length_toDigits_pos
    simp only [bringing, String.length_append] at hshort
    omega
  unsigned k m hm := by cases hm
  apart i j heq := toString_injective ((String.append_right_inj start).1 heq)

theorem lockedTable_agree : MembersAgree lockedTable := by
  have hrows : (lockedTable.rows.all fun x =>
      x.2.object.asUser.all fun u => u.deletedAt.isNone) = true := by decide +kernel
  intro k u hu
  have hmem : (k, (⟨.user u, none⟩ : Row)) ∈ lockedTable.rows := mem_rows.2 hu
  have hlive := List.all_eq_true.1 hrows _ hmem
  exact Option.isNone_iff_eq_none.1 hlive

/-- One player with a name only, and one with the VEKN id of a member. -/
def metOffline : List OfflinePlayerData :=
  [⟨"TEMP-7", "Bob", none, none⟩, ⟨"TEMP-8", "Ann", some "a", none⟩]

/-- The connection drops in the transaction. -/
def dropped : Objects × Except RouteError GoOnlineSummary :=
  (bringing "first-object-" metOffline (some 2)).run ⟨lockedTable, []⟩ "event"

def sentAgain : Objects × Except RouteError GoOnlineSummary :=
  (bringing "another-new-object-" metOffline none).run ⟨dropped.1, []⟩ "event"

theorem retries_dropped : Retries "event" metOffline ⟨lockedTable, []⟩ 1 ⟨dropped.1, []⟩ := by
  have hrefused : isAccepted dropped.2 = false := by decide +kernel
  cases hresult : dropped.2 with
  | ok summary =>
    rw [hresult] at hrefused
    cases hrefused
  | error e =>
    exact .failed _ _ e .start (bringing_fresh (by decide +kernel)) rfl (Prod.ext rfl hresult)

theorem exists_of_sentAgain : ∃ summary, sentAgain = (sentAgain.1, .ok summary) := by
  have haccepted : isAccepted sentAgain.2 = true := by decide +kernel
  cases hresult : sentAgain.2 with
  | ok summary => exact ⟨summary, Prod.ext rfl hresult⟩
  | error e =>
    rw [hresult] at haccepted
    cases haccepted

/-- Ann is found at both attempts, Bob is minted at each. -/
theorem goOnline_retries_dropped : (newMembers lockedTable sentAgain.1).length ≤ 2 := by
  obtain ⟨summary, hok⟩ := exists_of_sentAgain
  have hall := goOnline_retries ⟨lockedTable, []⟩ ⟨dropped.1, []⟩ "event" metOffline 1
    (bringing "another-new-object-" metOffline none) lockedTable_keyed lockedTable_agree
    retries_dropped (bringing_fresh (by decide +kernel)) rfl
  have hbound : mintBound ⟨lockedTable, []⟩ metOffline 2 = 2 := by decide +kernel
  exact hbound ▸ hall.1 _ summary hok

/-- One player matches nobody, and two members are minted. -/
theorem retries_mint_nameless : ¬ ∀ (s t : Store) (uid : Uid) (players : List OfflinePlayerData)
    (n : ℕ) (a : Attempt) (objects : Objects) (summary : GoOnlineSummary),
    WellKeyed s.objects → MembersAgree s.objects → Retries uid players s n t → a.Fresh t →
    a.request.offlinePlayers = players → a.run t uid = (objects, .ok summary) →
    (newMembers s.objects objects).length ≤ (players.filter (unmatched s)).length := by
  intro h
  obtain ⟨summary, hok⟩ := exists_of_sentAgain
  have hbound := h ⟨lockedTable, []⟩ ⟨dropped.1, []⟩ "event" metOffline 1
    (bringing "another-new-object-" metOffline none) _ summary lockedTable_keyed lockedTable_agree
    retries_dropped (bringing_fresh (by decide +kernel)) rfl hok
  revert hbound
  decide +kernel

end Archon.Backend

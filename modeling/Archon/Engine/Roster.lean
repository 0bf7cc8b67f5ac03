import Archon.Engine.Effects

/-!
# The roster under the handlers

A handler rewrites every entry with a map, the first entry of one uid with `updatePlayer`, or
pushes an entry. Entries keep their uid; `updatePlayer` leaves the entries after the first one of
the uid as they are.
-/

namespace Archon.Engine

/-! ### Looking up and updating -/

/-- The roster as the list of its uids. -/
def rosterUids (players : List Player) : List (Option Uid) := players.map Player.userUid

/-- The entries of `uid` after the first one. -/
def laterEntries (players : List Player) (uid : Uid) : List Player :=
  (players.filter (Player.isUid uid)).tail

section Roster

variable {players : List Player} {uid : Uid} {f : Player → Player}

theorem isUid_iff {p : Player} : p.isUid uid = true ↔ p.userUid = some uid := by
  simp [Player.isUid]

theorem mem_rosterUids : some uid ∈ rosterUids players ↔ ∃ p ∈ players, p.userUid = some uid := by
  simp [rosterUids]

theorem playerExists_iff : playerExists players uid = true ↔ some uid ∈ rosterUids players := by
  simp [playerExists, mem_rosterUids, isUid_iff]

theorem playerExists_eq_false :
    playerExists players uid = false ↔ some uid ∉ rosterUids players := by
  rw [← Bool.not_eq_true, playerExists_iff]

theorem findPlayer_mem {p : Player} (h : findPlayer players uid = some p) :
    p ∈ players ∧ p.userUid = some uid :=
  ⟨List.mem_of_find?_eq_some h, isUid_iff.1 (List.find?_some h)⟩

theorem findPlayer_mem_rosterUids {p : Player} (h : findPlayer players uid = some p) :
    some uid ∈ rosterUids players :=
  mem_rosterUids.2 ⟨p, findPlayer_mem h⟩

theorem findPlayer_eq_none : findPlayer players uid = none ↔ some uid ∉ rosterUids players := by
  simp [findPlayer, mem_rosterUids, isUid_iff]

theorem updatePlayer_cons (p : Player) :
    updatePlayer (p :: players) uid f =
      if p.isUid uid = true then f p :: players else p :: updatePlayer players uid f := by
  unfold updatePlayer findPlayerIndex
  rw [List.findIdx?_cons]
  by_cases h : p.isUid uid = true
  · simp [h]
  · simp only [h]
    cases players.findIdx? (Player.isUid uid) <;> simp

theorem mem_updatePlayer {q : Player} (h : q ∈ updatePlayer players uid f) :
    (∃ p, findPlayer players uid = some p ∧ q = f p) ∨
      (q ∈ players ∧ (q.userUid = some uid → q ∈ laterEntries players uid)) := by
  induction players with
  | nil => simp [updatePlayer, findPlayerIndex] at h
  | cons p ps ih =>
    rw [updatePlayer_cons] at h
    by_cases hp : p.isUid uid = true
    · rw [if_pos hp] at h
      rcases List.mem_cons.1 h with rfl | hq
      · exact .inl ⟨p, by simp [findPlayer, hp], rfl⟩
      · refine .inr ⟨List.mem_cons_of_mem _ hq, fun hu => ?_⟩
        simp [laterEntries, hp, hq, isUid_iff.2 hu]
    · rw [if_neg hp] at h
      rcases List.mem_cons.1 h with rfl | hq
      · exact .inr ⟨List.mem_cons_self, fun hu => absurd (isUid_iff.2 hu) hp⟩
      · rcases ih hq with ⟨p', hp', rfl⟩ | ⟨hmem, hlater⟩
        · exact .inl ⟨p', by simpa [findPlayer, hp] using hp', rfl⟩
        · refine .inr ⟨List.mem_cons_of_mem _ hmem, fun hu => ?_⟩
          simpa [laterEntries, hp] using hlater hu

theorem forall_mem_updatePlayer {P : Player → Prop} {players : List Player} {f : Player → Player}
    (h : ∀ p ∈ players, P p) (hf : ∀ p, findPlayer players uid = some p → P (f p)) :
    ∀ p ∈ updatePlayer players uid f, P p := by
  intro q hq
  rcases mem_updatePlayer hq with ⟨p, hp, rfl⟩ | ⟨hmem, -⟩
  · exact hf p hp
  · exact h q hmem

theorem forall_mem_foldl {P : Player → Prop} {α : Type} {g : List Player → α → List Player}
    (hg : ∀ ps a, (∀ p ∈ ps, P p) → ∀ p ∈ g ps a, P p) (as : List α) (h : ∀ p ∈ players, P p) :
    ∀ p ∈ as.foldl g players, P p := by
  induction as generalizing players with
  | nil => exact h
  | cons a as ih => exact ih (hg players a h)

theorem laterEntries_mem {q : Player} (h : q ∈ laterEntries players uid) :
    q ∈ players ∧ q.userUid = some uid := by
  have hmem := List.mem_filter.1 (List.mem_of_mem_tail h)
  exact ⟨hmem.1, isUid_iff.1 hmem.2⟩

/-! ### Uids stay -/

theorem rosterUids_map (hf : ∀ p, (f p).userUid = p.userUid) :
    rosterUids (players.map f) = rosterUids players := by
  simp [rosterUids, hf]

theorem rosterUids_updatePlayer (hf : ∀ p, (f p).userUid = p.userUid) :
    rosterUids (updatePlayer players uid f) = rosterUids players := by
  induction players with
  | nil => rfl
  | cons p ps ih =>
    rw [updatePlayer_cons]
    split
    · simp [rosterUids, hf]
    · simpa [rosterUids] using ih

theorem rosterUids_foldl_updatePlayer {α : Type} {g : List Player → α → List Player}
    (hg : ∀ ps a, rosterUids (g ps a) = rosterUids ps) (as : List α) :
    rosterUids (as.foldl g players) = rosterUids players := by
  induction as generalizing players with
  | nil => rfl
  | cons a as ih => rw [List.foldl_cons, ih, hg]

/-! ### Entries rewritten in their state only -/

/-- The rewriting changes nothing but the state. -/
def OnlyState (f : Player → Player) : Prop := ∀ p, ∃ state, f p = p.withState state

section OnlyState

variable {h : Player → Player} (hh : OnlyState h) (p : Player)
include hh

theorem OnlyState.userUid : (h p).userUid = p.userUid := by
  obtain ⟨state, hs⟩ := hh p
  rw [hs, Player.withState]

theorem OnlyState.waitlisted : (h p).waitlisted = p.waitlisted := by
  obtain ⟨state, hs⟩ := hh p
  rw [hs, Player.withState]

theorem OnlyState.toss : (h p).toss = p.toss := by
  obtain ⟨state, hs⟩ := hh p
  rw [hs, Player.withState]

theorem OnlyState.finalist : (h p).finalist = p.finalist := by
  obtain ⟨state, hs⟩ := hh p
  rw [hs, Player.withState]

theorem OnlyState.result : (h p).result = p.result := by
  obtain ⟨state, hs⟩ := hh p
  rw [hs, Player.withState]

theorem OnlyState.nonCompeting : (h p).nonCompeting = p.nonCompeting := by
  obtain ⟨state, hs⟩ := hh p
  rw [hs, Player.withState]

end OnlyState

theorem onlyState_ite {c : Player → Prop} [DecidablePred c] {state : Player → PlayerState} :
    OnlyState fun p => if c p then p.withState (state p) else p := by
  intro p
  by_cases h : c p
  · exact ⟨state p, by simp [h]⟩
  · exact ⟨p.state, by simp [h, Player.withState]⟩

/-! ### Every entry of a member -/

/-- `Q` holds of every entry of `uid`. -/
def EveryEntry (Q : Player → Prop) (players : List Player) (uid : Uid) : Prop :=
  ∀ p ∈ players, p.userUid = some uid → Q p

instance (Q : Player → Prop) [DecidablePred Q] (players : List Player) (uid : Uid) :
    Decidable (EveryEntry Q players uid) :=
  inferInstanceAs (Decidable (∀ p ∈ players, p.userUid = some uid → Q p))

variable {Q : Player → Prop} {u : Uid}

theorem everyEntry_map (hf : ∀ p, (f p).userUid = p.userUid)
    (h : ∀ p ∈ players, p.userUid = some uid → Q (f p)) : EveryEntry Q (players.map f) uid := by
  intro q hq hu
  obtain ⟨p, hp, rfl⟩ := List.mem_map.1 hq
  exact h p hp ((hf p).symm.trans hu)

theorem EveryEntry.mono {R : Player → Prop} (h : EveryEntry Q players uid)
    (hQR : ∀ p ∈ players, Q p → R p) :
    EveryEntry R players uid :=
  fun p hp hu => hQR p hp (h p hp hu)

theorem EveryEntry.push (h : EveryEntry Q players uid) {p : Player}
    (hp : p.userUid ≠ some uid) : EveryEntry Q (players ++ [p]) uid := by
  intro q hq hu
  rcases List.mem_append.1 hq with hold | hnew
  · exact h q hold hu
  · obtain rfl := List.mem_singleton.1 hnew
    exact absurd hu hp

theorem EveryEntry.later (h : EveryEntry Q players uid) : ∀ p ∈ laterEntries players uid, Q p :=
  fun p hp => h p (laterEntries_mem hp).1 (laterEntries_mem hp).2

theorem EveryEntry.update (h : EveryEntry Q players u) (hf : ∀ p, (f p).userUid = p.userUid)
    (hkeep : ∀ p, Q p → Q (f p)) : EveryEntry Q (updatePlayer players uid f) u := by
  intro q hq hu
  rcases mem_updatePlayer hq with ⟨p, hp, rfl⟩ | ⟨hmem, -⟩
  · exact hkeep p (h p (findPlayer_mem hp).1 ((hf p).symm.trans hu))
  · exact h q hmem hu

theorem findPlayer_update_self (hf : ∀ p, (f p).userUid = p.userUid) :
    findPlayer (updatePlayer players uid f) uid = (findPlayer players uid).map f := by
  induction players with
  | nil => rfl
  | cons p ps ih =>
    rw [updatePlayer_cons]
    unfold findPlayer at ih ⊢
    split
    · rename_i hp
      have hfp : (f p).isUid uid = true := by rw [Player.isUid, hf]; exact hp
      simp [hp, hfp]
    · rename_i hp
      simp only [List.find?_cons, hp, ih]

theorem findPlayer_map (hf : ∀ p, (f p).userUid = p.userUid) (uid : Uid) :
    findPlayer (players.map f) uid = (findPlayer players uid).map f := by
  have huid : Player.isUid uid ∘ f = Player.isUid uid := by
    funext p
    simp [Player.isUid, hf]
  rw [findPlayer, List.find?_map, huid, findPlayer]

theorem findPlayer_push {p : Player} (h : findPlayer players uid = some p) (q : Player) :
    findPlayer (players ++ [q]) uid = some p := by
  rw [findPlayer, List.find?_append, ← findPlayer, h, Option.some_or]

theorem EveryEntry.update_ne (h : EveryEntry Q players u) (hf : ∀ p, (f p).userUid = p.userUid)
    (hne : u ≠ uid) : EveryEntry Q (updatePlayer players uid f) u := by
  intro q hq hu
  rcases mem_updatePlayer hq with ⟨p, hp, rfl⟩ | ⟨hmem, -⟩
  · rw [hf, (findPlayer_mem hp).2] at hu
    exact absurd (Option.some.inj hu).symm hne
  · exact h q hmem hu

theorem everyEntry_update (hset : ∀ p, findPlayer players uid = some p → Q (f p))
    (hlater : ∀ p ∈ laterEntries players uid, Q p) :
    EveryEntry Q (updatePlayer players uid f) uid := by
  intro q hq hu
  rcases mem_updatePlayer hq with ⟨p, hp, rfl⟩ | ⟨-, hlate⟩
  · exact hset p hp
  · exact hlater q (hlate hu)

theorem filter_isUid_update (hf : ∀ p, (f p).userUid = p.userUid) (hne : u ≠ uid) :
    (updatePlayer players uid f).filter (Player.isUid u) = players.filter (Player.isUid u) := by
  induction players with
  | nil => rfl
  | cons p ps ih =>
    rw [updatePlayer_cons]
    split
    · rename_i hp
      have h1 : p.isUid u = false := by
        rw [isUid_iff] at hp
        simp [Player.isUid, hp, Ne.symm hne]
      have h2 : (f p).isUid u = false := by rw [Player.isUid, hf]; exact h1
      simp [h1, h2]
    · rw [List.filter_cons, List.filter_cons, ih]

theorem laterEntries_update (hf : ∀ p, (f p).userUid = p.userUid) (hne : u ≠ uid) :
    laterEntries (updatePlayer players uid f) u = laterEntries players u := by
  rw [laterEntries, filter_isUid_update hf hne, laterEntries]

theorem findPlayer_eq_head (players : List Player) (uid : Uid) :
    findPlayer players uid = (players.filter (Player.isUid uid)).head? := by
  rw [List.head?_filter, findPlayer]

theorem findPlayer_update_ne (hf : ∀ p, (f p).userUid = p.userUid) (hne : u ≠ uid) :
    findPlayer (updatePlayer players uid f) u = findPlayer players u := by
  rw [findPlayer_eq_head, filter_isUid_update hf hne, findPlayer_eq_head]

theorem exists_mem_of_forall₂ {rel : Player → Player → Prop} {ps qs : List Player}
    (h : List.Forall₂ rel ps qs) {q : Player} (hq : q ∈ qs) : ∃ p ∈ ps, rel p q := by
  induction h with
  | nil => cases hq
  | cons hrel _ ih =>
    rcases List.mem_cons.1 hq with rfl | hq
    · exact ⟨_, List.mem_cons_self, hrel⟩
    · obtain ⟨p, hp, hpq⟩ := ih hq
      exact ⟨p, List.mem_cons_of_mem _ hp, hpq⟩

theorem findPlayer_sameEntry {ps qs : List Player} (h : List.Forall₂ SameEntry ps qs)
    {p : Player} (hp : findPlayer ps uid = some p) :
    ∃ q, findPlayer qs uid = some q ∧ SameEntry p q := by
  induction h with
  | nil => cases hp
  | @cons a b ps qs hab _ ih =>
    have huid : b.isUid uid = a.isUid uid := by rw [Player.isUid, hab.userUid, Player.isUid]
    unfold findPlayer at hp ih ⊢
    rw [List.find?_cons] at hp ⊢
    rw [huid]
    split at hp
    · obtain rfl := Option.some.inj hp
      exact ⟨b, rfl, hab⟩
    · exact ih hp

theorem EveryEntry.sameEntry {ps qs : List Player} (h : EveryEntry Q ps uid)
    (hsame : List.Forall₂ SameEntry ps qs) (hQ : ∀ p q, SameEntry p q → Q p → Q q) :
    EveryEntry Q qs uid := by
  intro q hq hu
  obtain ⟨p, hp, hpq⟩ := exists_mem_of_forall₂ hsame hq
  exact hQ p q hpq (h p hp (hpq.userUid.symm.trans hu))

section Fold

variable {g : List Player → Uid → List Player} {good : Uid → Prop} [DecidablePred good]

theorem EveryEntry.foldl (hg : ∀ ps a, g ps a = if good a then updatePlayer ps a f else ps)
    (hf : ∀ p, (f p).userUid = p.userUid) (hkeep : ∀ p, Q p → Q (f p)) (uids : List Uid)
    (h : EveryEntry Q players u) : EveryEntry Q (uids.foldl g players) u := by
  induction uids generalizing players with
  | nil => exact h
  | cons a uids ih =>
    refine ih ?_
    rw [hg]
    split
    · exact h.update hf hkeep
    · exact h

theorem everyEntry_foldl (hg : ∀ ps a, g ps a = if good a then updatePlayer ps a f else ps)
    (hf : ∀ p, (f p).userUid = p.userUid) (hkeep : ∀ p, Q p → Q (f p))
    (R : Player → Prop) (hset : ∀ p, R p → Q (f p)) {uids : List Uid} (hu : u ∈ uids)
    (hgood : good u)
    (hfirst : ∀ p, findPlayer players u = some p → R p)
    (hlater : ∀ p ∈ laterEntries players u, Q p) : EveryEntry Q (uids.foldl g players) u := by
  induction uids generalizing players with
  | nil => cases hu
  | cons a uids ih =>
    rw [List.foldl_cons, hg]
    by_cases ha : u = a
    · subst ha
      rw [if_pos hgood]
      refine EveryEntry.foldl hg hf hkeep uids ?_
      exact everyEntry_update (fun p hp => hset p (hfirst p hp)) hlater
    · have hmem : u ∈ uids := (List.mem_cons.1 hu).resolve_left ha
      split
      · refine ih hmem ?_ ?_
        · rwa [findPlayer_update_ne hf ha]
        · rwa [laterEntries_update hf ha]
      · exact ih hmem hfirst hlater

end Fold

end Roster

end Archon.Engine

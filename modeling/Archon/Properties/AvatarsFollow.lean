import Archon.Properties.LinkedSignIns
import Archon.Library.Runs

/-!
# Avatars follow their owner

The image of an avatar stays under the uid it was uploaded for, while its path is carried from row
to row. An account therefore shows the image of its owner as long as nothing is done at the uid
another account's path names: no upload, deletion, anonymisation or purge.
-/

namespace Archon.Accounts
open Engine Backend Guards Claims CommunityLinks UserRows
open Store (avatarUrl servedUid)

/-! ### The property and the condition -/

/-- The image of the path is stored, and was uploaded by the person behind the account. -/
def Store.Shows (s : Store) (uid : Uid) (path : Option String) : Prop :=
  ∀ p, given path = some p → servedUid p ∈ s.avatars ∧ s.uploader (servedUid p) = uid

/-- Every live account shows an image of its own, if any. -/
def AvatarsFollow (s : Store) : Prop :=
  ∀ uid u, s.users.lookup uid = some u → u.deletedAt = none → s.Shows uid u.avatarPath

/-- Another live account shows the image stored under the uid. -/
def Store.ShownElsewhere (s : Store) (uid : Uid) : Prop :=
  ∃ u ∈ s.rows, u.uid ≠ uid ∧ u.deletedAt = none ∧
    (given u.avatarPath).map servedUid = some uid

/-- The image the account names is there, uploaded by its person or by one of these. -/
def Store.Brings (s : Store) (uid : Uid) (others : List Uid) : Prop :=
  ∀ u ∈ s.users.lookup uid, ∀ p ∈ given u.avatarPath,
    servedUid p ∈ s.avatars ∧ s.uploader (servedUid p) ∈ uid :: others

/-- The account may be merged into the other: the other is a tombstone, or the path it would take
over names an image of one of the two. -/
def Store.Absorbable (s : Store) (keepUid deleteUid : Uid) : Prop :=
  keepUid ≠ deleteUid → ∀ keep ∈ s.users.lookup keepUid, keep.deletedAt = none →
    s.Brings deleteUid [keepUid]

/-- Nothing is done at a uid whose image another live account shows, and no tombstone is absorbed
that names an image which is gone or not its own. -/
def Undisturbed (s : Store) (c : Call) : Prop :=
  match c.request with
  | .uploadAvatar uid _ _ => ¬ s.ShownElsewhere uid
  | .deleteAvatar uid => ¬ s.ShownElsewhere uid
  | .anonymizeMember uid => ¬ s.ShownElsewhere uid
  | .purgeDeletedObjects before => ∀ uid ∈ s.purgedUids before, ¬ s.ShownElsewhere uid
  | .mergeUserAccounts keepUid deleteUid => s.Absorbable keepUid deleteUid
  | .linkDiscord discord => ∀ m ∈ s.getAuthMethodByIdentifier "discord" discord.id,
      s.Absorbable c.actor m.2.userUid
  | .linkVeknToUser veknId userUid => ∀ keep ∈ s.getUserByVeknId veknId,
      keep.uid ≠ userUid → keep.deletedAt = none →
        s.Brings userUid (if s.isVeknIdClaimed veknId = true then [] else [keep.uid])
  | _ => True

section Avatars

variable {s s' : Store} {d : Draws} {uid w : Uid} {u row keep absorbed : UserRow}
variable {path : Option String} {x : Standing}

/-! ### Paths -/

theorem servedUid_avatarUrl (h : '/' ∉ uid.toList) (version : ℕ) :
    servedUid (avatarUrl uid version) = uid := by
  have hpath : (avatarUrl uid version).toList = "/api/users/".toList ++
      (uid.toList ++ '/' :: ("avatar?v=".toList ++ (toString version).toList)) := by
    simp [avatarUrl]
  have hne : ∀ c ∈ uid.toList, decide (c ≠ '/') = true := fun c hc =>
    decide_eq_true fun heq => h (heq ▸ hc)
  rw [servedUid, hpath, List.drop_left, List.takeWhile_append_of_pos hne,
    List.takeWhile_cons_of_neg (by decide), List.append_nil, String.ofList_toList]

theorem avatarsFollow_iff : AvatarsFollow s ↔
    ∀ uid x, s.standing uid = some x → x.deletedAt = none → s.Shows uid x.avatarPath := by
  constructor
  · intro h uid x hx hlive
    obtain ⟨u, hu, rfl⟩ := lookup_of_standing hx
    exact h uid u hu hlive
  · exact fun h uid u hu hlive => h uid _ (standing_of_lookup hu) hlive

theorem shownElsewhere_iff (hk : s.WellKeyed) : s.ShownElsewhere w ↔
    ∃ uid x, uid ≠ w ∧ s.standing uid = some x ∧ x.deletedAt = none ∧
      (given x.avatarPath).map servedUid = some w := by
  constructor
  · rintro ⟨u, hu, hne, hlive, hpath⟩
    exact ⟨u.uid, standingOf u, hne, standing_of_lookup ((mem_store_rows hk).1 hu), hlive, hpath⟩
  · rintro ⟨uid, x, hne, hx, hlive, hpath⟩
    obtain ⟨u, hu, rfl⟩ := lookup_of_standing hx
    obtain rfl : u.uid = uid := hk uid u hu
    exact ⟨u, (mem_store_rows hk).2 hu, hne, hlive, hpath⟩

theorem shows_none (s : Store) (uid : Uid) : s.Shows uid none := fun p hp => by cases hp

/-! ### Images that change at one uid -/

/-- Images and rows change at one uid only. -/
structure TouchedAt (s s' : Store) (w : Uid) : Prop where
  wellKeyed : s'.WellKeyed
  images : ∀ w' ≠ w, (w' ∈ s'.avatars ↔ w' ∈ s.avatars) ∧ s'.uploader w' = s.uploader w'
  standing : ∀ uid ≠ w, s'.standing uid = s.standing uid
  own : ∀ x, s'.standing w = some x → x.deletedAt = none → s'.Shows w x.avatarPath
  /-- Nobody else's image is under the uid now. -/
  taken : w ∈ s'.avatars → s'.uploader w = w

theorem TouchedAt.avatarsFollow_iff (h : TouchedAt s s' w) (hk : s.WellKeyed)
    (hs : AvatarsFollow s) : AvatarsFollow s' ↔ ¬ s.ShownElsewhere w := by
  rw [shownElsewhere_iff hk]
  rw [Accounts.avatarsFollow_iff] at hs ⊢
  constructor
  · rintro hs' ⟨uid, x, hne, hx, hlive, hpath⟩
    obtain ⟨p, hp, rfl⟩ := Option.map_eq_some_iff.1 hpath
    have hstands := (h.standing uid hne).trans hx
    obtain ⟨hstored, hown⟩ := hs' uid x hstands hlive p hp
    exact hne (hown.symm.trans (h.taken hstored))
  · intro hnot uid x hx hlive
    by_cases hne : uid = w
    · subst hne
      exact h.own x hx hlive
    · rw [h.standing uid hne] at hx
      intro p hp
      have hp' : servedUid p ≠ w := fun heq =>
        hnot ⟨uid, x, hne, hx, hlive, by rw [hp, Option.map_some, heq]⟩
      obtain ⟨hstored, hown⟩ := hs uid x hx hlive p hp
      exact ⟨(h.images _ hp').1.2 hstored, (h.images _ hp').2.trans hown⟩

/-! ### Merging and splitting -/

theorem Split.avatarsFollow (h : Split s s' d row) (hrow : s.users.lookup row.uid = some row)
    (hs : AvatarsFollow s) : AvatarsFollow s' := by
  rw [Accounts.avatarsFollow_iff] at hs ⊢
  intro uid x hx hlive
  have himage : ∀ w, w ∈ s'.avatars ↔ w ∈ s.avatars := fun w => by rw [h.avatars]
  have huploader : ∀ w, s'.uploader w = if s.uploader w = row.uid then d.newUid else s.uploader w :=
    fun w => congrFun h.uploader w
  rw [h.standing] at hx
  split_ifs at hx with hself hnew
  · obtain rfl := Option.some.inj hx
    exact shows_none s' uid
  · obtain rfl := Option.some.inj hx
    intro p hp
    obtain ⟨hstored, hown⟩ := hs row.uid _ (standing_of_lookup hrow) hlive p hp
    exact ⟨(himage _).2 hstored, by rw [huploader, if_pos hown, hnew]⟩
  · intro p hp
    obtain ⟨hstored, hown⟩ := hs uid x hx hlive p hp
    exact ⟨(himage _).2 hstored, by rw [huploader, if_neg (hown ▸ hself), hown]⟩

theorem given_either (a b : Option String) : given (either a b) = (given a).or (given b) := by
  cases a with
  | none => rfl
  | some a => by_cases h : a = "" <;> simp [either, given, Option.filter, h]

theorem Merged.avatarsFollow_iff (h : Merged s s' d keep absorbed)
    (hkeep : s.users.lookup keep.uid = some keep)
    (habsorbed : s.users.lookup absorbed.uid = some absorbed) (hne : keep.uid ≠ absorbed.uid)
    (hs : AvatarsFollow s) :
    AvatarsFollow s' ↔ (keep.deletedAt = none → s.Brings absorbed.uid [keep.uid]) := by
  rw [Accounts.avatarsFollow_iff] at hs ⊢
  have himage : ∀ w, w ∈ s'.avatars ↔ w ∈ s.avatars := fun w => by rw [h.avatars]
  have huploader : ∀ w, s'.uploader w =
      if s.uploader w = absorbed.uid then keep.uid else s.uploader w := congrFun h.uploader
  have hpath : given (merged keep absorbed).avatarPath =
      (given absorbed.avatarPath).or (given keep.avatarPath) := given_either _ _
  have hkept : s'.standing keep.uid = some (standingOf (merged keep absorbed)) := by
    rw [h.standing, if_neg hne, if_pos rfl]
  constructor
  · intro hs' hlive u hu p hp
    obtain rfl := Option.some.inj (habsorbed.symm.trans hu)
    have htaken : given (standingOf (merged keep absorbed)).avatarPath = some p :=
      hpath.trans (by rw [Option.mem_def.1 hp, Option.some_or])
    obtain ⟨hstored, hown⟩ := hs' keep.uid _ hkept hlive p htaken
    refine ⟨(himage _).1 hstored, ?_⟩
    rw [huploader] at hown
    split_ifs at hown with hfrom
    · exact hfrom ▸ List.mem_cons_self ..
    · exact hown ▸ List.mem_cons_of_mem _ (List.mem_singleton_self _)
  · intro hbrings uid x hx hlive
    rw [h.standing] at hx
    split_ifs at hx with hgone hself
    · obtain rfl := Option.some.inj hx
      cases hlive
    · subst hself
      obtain rfl := Option.some.inj hx
      intro p hp
      have hp' := hpath.symm.trans hp
      cases htaken : given absorbed.avatarPath with
      | some p' =>
        rw [htaken, Option.some_or] at hp'
        obtain rfl := Option.some.inj hp'
        obtain ⟨hstored, hfrom⟩ := hbrings hlive absorbed habsorbed p' htaken
        refine ⟨(himage _).2 hstored, ?_⟩
        rw [huploader]
        split_ifs with hmoved
        · rfl
        · rcases List.mem_cons.1 hfrom with heq | hkeepOwn
          · exact absurd heq hmoved
          · exact List.mem_singleton.1 hkeepOwn
      | none =>
        rw [htaken, Option.none_or] at hp'
        obtain ⟨hstored, hown⟩ := hs keep.uid _ (standing_of_lookup hkeep) hlive p hp'
        exact ⟨(himage _).2 hstored, by rw [huploader, if_neg (hown ▸ hne), hown]⟩
    · intro p hp
      obtain ⟨hstored, hown⟩ := hs uid x hx hlive p hp
      exact ⟨(himage _).2 hstored, by rw [huploader, if_neg (hown ▸ hgone), hown]⟩

theorem brings_iff {others : List Uid} : s.Brings uid others ↔
    ∀ x, s.standing uid = some x → ∀ p, given x.avatarPath = some p →
      servedUid p ∈ s.avatars ∧ s.uploader (servedUid p) ∈ uid :: others := by
  constructor
  · intro h x hx p hp
    obtain ⟨u, hu, rfl⟩ := lookup_of_standing hx
    exact h u hu p hp
  · exact fun h u hu p hp => h _ (standing_of_lookup hu) p hp

theorem AvatarsFollow.brings (hs : AvatarsFollow s) (hu : s.users.lookup uid = some u)
    (hlive : u.deletedAt = none) (others : List Uid) : s.Brings uid others := by
  intro u' hu' p hp
  obtain rfl := Option.some.inj (hu.symm.trans hu')
  obtain ⟨hstored, hown⟩ := hs uid u hu hlive p hp
  exact ⟨hstored, hown ▸ List.mem_cons_self ..⟩

theorem mergeUsers_avatarsFollow {keepUid deleteUid : Uid} (hk : s.WellKeyed)
    (hs : AvatarsFollow s) (h : s.mergeUsers d keepUid deleteUid = .ok (some s')) :
    s'.WellKeyed ∧ (AvatarsFollow s' ↔ s.Absorbable keepUid deleteUid) := by
  cases hkeep : s.users.lookup keepUid with
  | none =>
    rw [Store.mergeUsers, hkeep] at h
    cases h
  | some keep =>
    obtain rfl : keep.uid = keepUid := hk keepUid keep hkeep
    by_cases hne : keep.uid = deleteUid
    · rw [← hne] at h
      obtain rfl := mergeUsers_self hk hkeep h
      exact ⟨hk, fun _ hne' => absurd hne hne', fun _ => hs⟩
    · cases habsorbed : s.users.lookup deleteUid with
      | none =>
        rw [Store.mergeUsers, hkeep] at h
        simp only [Store.mergeInto, if_neg hne, habsorbed] at h
        cases h
        refine ⟨hk, fun _ _ _ _ _ u hu => ?_, fun _ => hs⟩
        rw [habsorbed] at hu
        cases hu
      | some absorbed =>
        obtain rfl : absorbed.uid = deleteUid := hk deleteUid absorbed habsorbed
        have hmerged := merged_of_mergeUsers hk hkeep habsorbed hne h
        refine ⟨hmerged.wellKeyed, (hmerged.avatarsFollow_iff hkeep habsorbed hne hs).trans ?_⟩
        constructor
        · intro hbrings _ keep' hkeep' hlive
          obtain rfl := Option.some.inj (hkeep.symm.trans hkeep')
          exact hbrings hlive
        · exact fun h hlive => h hne keep hkeep hlive

theorem avatarsFollow_congr (havatars : s'.avatars = s.avatars)
    (huploader : s'.uploader = s.uploader)
    (hstanding : ∀ uid, s'.standing uid = s.standing uid) :
    AvatarsFollow s' ↔ AvatarsFollow s := by
  rw [avatarsFollow_iff, avatarsFollow_iff]
  simp only [Store.Shows, havatars, huploader, hstanding]

theorem Split.brings_iff (h : Split s s' d row) (hself : uid ≠ row.uid) (hnew : uid ≠ d.newUid)
    (hrow : row.uid ≠ d.newUid) : s'.Brings uid [row.uid] ↔ s.Brings uid [] := by
  rw [Accounts.brings_iff, Accounts.brings_iff, h.standing, if_neg hself, if_neg hnew]
  refine forall₂_congr fun x _ => forall₂_congr fun p _ => and_congr (by rw [h.avatars]) ?_
  have huploader : s'.uploader (servedUid p) =
      if s.uploader (servedUid p) = row.uid then d.newUid else s.uploader (servedUid p) :=
    congrFun h.uploader _
  rw [huploader, List.mem_cons, List.mem_cons, List.mem_singleton]
  split_ifs with hfrom
  · rw [hfrom]
    simp [hself.symm, hnew.symm, hrow.symm]
  · simp [hfrom]

theorem Store.Unused.ne (h : s.Unused d.newUid) (hu : s.users.lookup uid = some u) :
    uid ≠ d.newUid := fun heq =>
  h.1 (heq ▸ AList.lookup_isSome.1 (Option.isSome_iff_exists.2 ⟨u, hu⟩))

end Avatars

section Requests

variable {s s' : Store} {d : Draws} {actor uid : Uid} {u : UserRow}

/-! ### Requests -/

theorem optionalUser_eq_some (hk : s.WellKeyed) (h : s.optionalUser actor = some u) :
    s.users.lookup actor = some u ∧ u.deletedAt = none ∧ u.uid = actor := by
  rw [Store.optionalUser, Option.filter_eq_some_iff, Bool.and_eq_true,
    Option.isNone_iff_eq_none] at h
  exact ⟨h.1, h.2.1, hk actor u h.1⟩

theorem currentUser_eq_ok (hk : s.WellKeyed) (h : s.currentUser actor = .ok u) :
    s.users.lookup actor = some u ∧ u.deletedAt = none ∧ u.uid = actor :=
  optionalUser_eq_some hk (okOr_eq_ok.1 h)

theorem standing_save_ne {w : Uid} {row : UserRow} (hrow : row.uid = w) :
    ∀ uid ≠ w, (s.save row).standing uid = s.standing uid := fun uid hne => by
  rw [standing_save, if_neg (hrow ▸ hne)]

theorem eq_of_standing_save {w : Uid} {row : UserRow} {x : Standing} (hrow : row.uid = w)
    (hx : (s.save row).standing w = some x) : x = standingOf row := by
  rw [standing_save, if_pos hrow.symm] at hx
  exact (Option.some.inj hx).symm

theorem uploadAvatar_avatarsFollow {contentType : String} {payload : List UInt8} (hk : s.WellKeyed)
    (hs : AvatarsFollow s) (h : s.uploadAvatar d actor uid contentType payload = .ok s') :
    s'.WellKeyed ∧ (AvatarsFollow s' ↔ ¬ s.ShownElsewhere uid) := by
  simp only [Store.uploadAvatar, bind_eq_ok, okOr_eq_ok, ensure_eq_ok, exists_const] at h
  obtain ⟨hsegment, current, hcurrent, rfl, -, -, h⟩ := h
  obtain ⟨hrow, -, rfl⟩ := optionalUser_eq_some hk hcurrent
  rw [hrow] at h
  obtain rfl := pure_eq_ok.1 h
  have hkeyed := wellKeyed_save (s := { s with
    avatars := s.avatars.insert current.uid ⟨payload, contentType⟩
    uploader := Function.update s.uploader current.uid current.uid }) hk
    { current with modified := d.now, avatarPath := some (avatarUrl current.uid d.millis) }
  refine ⟨hkeyed, TouchedAt.avatarsFollow_iff ⟨hkeyed, fun w hw => ⟨?_, ?_⟩, ?_, ?_, ?_⟩ hk hs⟩
  · exact AList.mem_insert _ |>.trans (or_iff_right hw)
  · exact Function.update_of_ne hw _ _
  · exact standing_save_ne rfl
  · intro x hx _ p hp
    obtain rfl := eq_of_standing_save rfl hx
    obtain rfl := Option.some.inj (given_eq_some.1 hp).1
    rw [servedUid_avatarUrl hsegment]
    exact ⟨(AList.mem_insert _).2 (.inl rfl), Function.update_self ..⟩
  · exact fun _ => Function.update_self ..

theorem avatarsFollow_dropped {w : Uid} {row : UserRow} {methods : List AuthRow}
    (hk : s.WellKeyed) (hs : AvatarsFollow s)
    (h : s' = Store.save { s with methods, avatars := s.avatars.erase w } row)
    (hrow : row.uid = w) (hpath : row.avatarPath = none) :
    s'.WellKeyed ∧ (AvatarsFollow s' ↔ ¬ s.ShownElsewhere w) := by
  subst h
  have hkeyed := wellKeyed_save (s := { s with methods, avatars := s.avatars.erase w }) hk row
  refine ⟨hkeyed, TouchedAt.avatarsFollow_iff ⟨hkeyed, fun w' hw => ⟨?_, rfl⟩, ?_, ?_, ?_⟩ hk hs⟩
  · exact AList.mem_erase.trans (and_iff_right hw)
  · exact standing_save_ne hrow
  · intro x hx _
    obtain rfl := eq_of_standing_save hrow hx
    rw [show (standingOf row).avatarPath = none from hpath]
    exact shows_none _ _
  · exact fun hmem => absurd rfl (AList.mem_erase.1 hmem).1

theorem deleteAvatar_avatarsFollow (hk : s.WellKeyed) (hs : AvatarsFollow s)
    (h : s.deleteAvatar d actor uid = .ok s') :
    s'.WellKeyed ∧ (AvatarsFollow s' ↔ ¬ s.ShownElsewhere uid) := by
  simp only [Store.deleteAvatar, bind_eq_ok, okOr_eq_ok, ensure_eq_ok, exists_const] at h
  obtain ⟨current, hcurrent, rfl, -, h⟩ := h
  obtain ⟨hrow, -, rfl⟩ := optionalUser_eq_some hk hcurrent
  rw [hrow] at h
  exact avatarsFollow_dropped hk hs (pure_eq_ok.1 h).symm rfl rfl

theorem anonymizeMember_avatarsFollow (hk : s.WellKeyed) (hs : AvatarsFollow s)
    (h : s.anonymizeMember d actor uid = .ok s') :
    s'.WellKeyed ∧ (AvatarsFollow s' ↔ ¬ s.ShownElsewhere uid) := by
  simp only [Store.anonymizeMember, bind_eq_ok, okOr_eq_ok, ensure_eq_ok, exists_const,
    pure_eq_ok] at h
  obtain ⟨current, -, -, -, target, htarget, -, -, h⟩ := h
  obtain rfl : target.uid = uid := hk uid target htarget
  exact avatarsFollow_dropped hk hs h.symm rfl rfl

theorem split_avatarsFollow (hk : s.WellKeyed) (hs : AvatarsFollow s)
    (h : s.detachUserFromVekn d uid = some s') : s'.WellKeyed ∧ AvatarsFollow s' := by
  obtain ⟨row, hrow, rfl⟩ := Option.map_eq_some_iff.1 h
  obtain rfl : row.uid = uid := hk uid row hrow
  have hsplit := split_detach hk d row
  exact ⟨hsplit.wellKeyed, hsplit.avatarsFollow hrow hs⟩

theorem claimVeknId_avatarsFollow {veknId : String} (hk : s.WellKeyed) (hs : AvatarsFollow s)
    (h : s.claimVeknId d actor veknId = .ok s') : s'.WellKeyed ∧ AvatarsFollow s' := by
  simp only [Store.claimVeknId, bind_eq_ok, okOr_eq_ok, ensure_eq_ok, exists_const] at h
  obtain ⟨current, hcurrent, -, veknUser, -, -, -, merged, hmerge, rfl⟩ := h
  obtain ⟨hrow, hlive, rfl⟩ := currentUser_eq_ok hk hcurrent
  obtain ⟨hkeyed, hiff⟩ := mergeUsers_avatarsFollow hk hs hmerge
  exact ⟨hkeyed, hiff.2 fun _ _ _ _ => hs.brings hrow hlive _⟩

theorem softDeleteUser_avatarsFollow (hk : s.WellKeyed) (hs : AvatarsFollow s)
    (h : s.softDeleteUser d uid = .ok (some s')) : s'.WellKeyed ∧ AvatarsFollow s' := by
  unfold Store.softDeleteUser at h
  split at h
  · cases h
  · rename_i user huser
    simp only [bind_eq_ok, ensure_eq_ok, exists_const, pure_eq_ok, Option.some.injEq] at h
    obtain ⟨-, rfl⟩ := h
    refine ⟨wellKeyed_save hk _, ?_⟩
    rw [avatarsFollow_iff] at hs ⊢
    intro uid' x hx hlive
    rw [standing_save] at hx
    split_ifs at hx
    · obtain rfl := Option.some.inj hx
      cases hlive
    · exact hs uid' x hx hlive

theorem linkVeknToUser_avatarsFollow {veknId : String} (hk : s.WellKeyed) (hs : AvatarsFollow s)
    (hunused : s.Unused d.newUid) (h : s.linkVeknToUser d actor veknId uid = .ok s') :
    s'.WellKeyed ∧ (AvatarsFollow s' ↔ ∀ keep ∈ s.getUserByVeknId veknId, keep.uid ≠ uid →
      keep.deletedAt = none →
        s.Brings uid (if s.isVeknIdClaimed veknId = true then [] else [keep.uid])) := by
  obtain ⟨holder, row, hlinked⟩ := linked_of_link hk h
  obtain rfl : row.uid = uid := hk uid row hlinked.found
  have hheld := (store_getUserByVeknId_some hk hlinked.held).1
  have hmerge := hlinked.steps
  have hread : ∀ {P : UserRow → Prop},
      (∀ keep ∈ s.getUserByVeknId veknId, P keep) ↔ P holder := fun {P} =>
    ⟨fun h => h holder hlinked.held, fun h keep hkeep =>
      Option.some.inj (hlinked.held.symm.trans hkeep) ▸ h⟩
  rw [hread]
  split_ifs at hmerge ⊢ with hclaimed
  · have hsplit := split_detach hk d holder
    have hs₁ := hsplit.avatarsFollow hheld hs
    obtain ⟨hkeyed, hiff⟩ := mergeUsers_avatarsFollow hsplit.wellKeyed hs₁ hmerge
    refine ⟨hkeyed, hiff.trans (forall_congr' fun hne => ?_)⟩
    rw [hsplit.brings_iff hne.symm (hunused.ne hlinked.found) (hunused.ne hheld)]
    have hkeep := hsplit.standing holder.uid
    rw [if_pos rfl] at hkeep
    obtain ⟨keep, hrow, hstands⟩ := lookup_of_standing hkeep
    have hdeleted : keep.deletedAt = holder.deletedAt := congrArg Standing.deletedAt hstands
    constructor
    · exact fun h hlive => h keep hrow (hdeleted.trans hlive)
    · intro h keep' hkeep' hlive
      obtain rfl := Option.some.inj (hrow.symm.trans hkeep')
      exact h (hdeleted.symm.trans hlive)
  · obtain ⟨hkeyed, hiff⟩ := mergeUsers_avatarsFollow hk hs hmerge
    refine ⟨hkeyed, hiff.trans (forall_congr' fun hne => ?_)⟩
    constructor
    · exact fun h hlive => h holder hheld hlive
    · intro h keep hkeep hlive
      obtain rfl := Option.some.inj (hheld.symm.trans hkeep)
      exact h hlive

theorem noteDiscordMethod_same (s : Store) (discord : Store.DiscordUser) :
    (s.noteDiscordMethod discord).users = s.users ∧
      (s.noteDiscordMethod discord).avatars = s.avatars ∧
      (s.noteDiscordMethod discord).uploader = s.uploader := by
  unfold Store.noteDiscordMethod
  split <;> exact ⟨rfl, rfl, rfl⟩

theorem recordDiscordSignIn_avatarsFollow (hk : s.WellKeyed) (discord : Store.DiscordUser) :
    (s.recordDiscordSignIn d uid discord).WellKeyed ∧
      (AvatarsFollow (s.recordDiscordSignIn d uid discord) ↔ AvatarsFollow s) := by
  obtain ⟨husers, havatars, huploader⟩ := noteDiscordMethod_same s discord
  unfold Store.recordDiscordSignIn
  generalize s.noteDiscordMethod discord = noted at husers havatars huploader ⊢
  have hk₁ : noted.WellKeyed := by rwa [Store.WellKeyed, husers]
  have hstanding : ∀ uid, noted.standing uid = s.standing uid := fun uid => by
    rw [Store.standing, husers, Store.standing]
  have hnoted := avatarsFollow_congr havatars huploader hstanding
  split
  · exact ⟨hk₁, hnoted⟩
  · rename_i user hu
    obtain rfl : user.uid = uid := hk₁ uid user hu
    have hstands : noted.standing user.uid = some (standingOf user) := standing_of_lookup hu
    have halike : Alike noted (noted.save (Store.discordRow d discord user)) := alike_save hstands
    split_ifs
    · exact ⟨hk₁, hnoted⟩
    · have hsaved := avatarsFollow_congr halike.avatars halike.uploader halike.standing
      exact ⟨wellKeyed_save hk₁ _, hsaved.trans hnoted⟩

theorem joinDiscord_avatarsFollow {discordId : String} (hk : s.WellKeyed) (hs : AvatarsFollow s)
    (h : s.joinDiscord d actor discordId = .ok s') :
    s'.WellKeyed ∧ (AvatarsFollow s' ↔ ∀ m ∈ s.getAuthMethodByIdentifier "discord" discordId,
      s.Absorbable actor m.2.userUid) := by
  unfold Store.joinDiscord at h
  split at h
  · rename_i existing hexisting
    rw [hexisting]
    simp only [Option.mem_some_iff, forall_eq']
    split_ifs at h with hown
    · obtain rfl := pure_eq_ok.1 h
      exact ⟨hk, fun _ hne => absurd hown.symm hne, fun _ => hs⟩
    · simp only [bind_eq_ok, okOr_eq_ok] at h
      obtain ⟨merged, hmerge, rfl⟩ := h
      exact mergeUsers_avatarsFollow hk hs hmerge
  · rename_i hnone
    obtain rfl := pure_eq_ok.1 h
    refine ⟨hk, fun _ m hm => ?_, fun _ => (avatarsFollow_congr rfl rfl fun _ => rfl).2 hs⟩
    rw [hnone] at hm
    cases hm

theorem linkDiscord_avatarsFollow {discord : Store.DiscordUser} (hk : s.WellKeyed)
    (hs : AvatarsFollow s) (h : s.linkDiscord d actor discord = .ok s') :
    s'.WellKeyed ∧ (AvatarsFollow s' ↔ ∀ m ∈ s.getAuthMethodByIdentifier "discord" discord.id,
      s.Absorbable actor m.2.userUid) := by
  simp only [Store.linkDiscord, bind_eq_ok, okOr_eq_ok, pure_eq_ok] at h
  obtain ⟨current, -, linked, hlinked, rfl⟩ := h
  obtain ⟨hk₁, hiff⟩ := joinDiscord_avatarsFollow hk hs hlinked
  obtain ⟨hkeyed, hrecord⟩ := recordDiscordSignIn_avatarsFollow hk₁ discord
  exact ⟨hkeyed, hrecord.trans hiff⟩

/-! ### Purging -/

theorem lookup_foldl_erase {V : Type} (uids : List Uid) (t : AList fun _ : Uid => V) (w : Uid) :
    (uids.foldl (fun t uid => t.erase uid) t).lookup w = if w ∈ uids then none else t.lookup w := by
  induction uids generalizing t with
  | nil => simp
  | cons uid uids ih =>
    rw [List.foldl_cons, ih]
    by_cases hw : w ∈ uids
    · rw [if_pos hw, if_pos (List.mem_cons_of_mem _ hw)]
    · rw [if_neg hw]
      by_cases heq : w = uid
      · rw [heq, AList.lookup_erase, if_pos (List.mem_cons_self ..)]
      · rw [AList.lookup_erase_ne heq, if_neg (List.not_mem_cons_of_ne_of_not_mem heq hw)]

theorem purge_avatarsFollow {before : Stamp} (hk : s.WellKeyed) (hs : AvatarsFollow s) :
    (s.purgeDeletedObjects before).WellKeyed ∧
      (AvatarsFollow (s.purgeDeletedObjects before) ↔
        ∀ uid ∈ s.purgedUids before, ¬ s.ShownElsewhere uid) := by
  have husers : ∀ uid, (s.purgeDeletedObjects before).users.lookup uid =
      if uid ∈ s.purgedUids before then none else s.users.lookup uid := lookup_foldl_erase _ _
  have himage : ∀ w, w ∈ (s.purgeDeletedObjects before).avatars ↔
      w ∉ s.purgedUids before ∧ w ∈ s.avatars := fun w => by
    have hlookup := lookup_foldl_erase (s.purgedUids before) s.avatars w
    rw [← AList.lookup_isSome, ← AList.lookup_isSome, Store.purgeDeletedObjects, hlookup]
    by_cases hw : w ∈ s.purgedUids before <;> simp [hw]
  have hpurged : ∀ uid ∈ s.purgedUids before, ∀ u, s.users.lookup uid = some u →
      u.deletedAt ≠ none := by
    intro uid huid u hu hlive
    obtain ⟨⟨_, u'⟩, he, rfl⟩ := List.mem_map.1 huid
    obtain ⟨hmem, hdeleted⟩ := List.mem_filter.1 he
    obtain rfl := Option.some.inj (hu.symm.trans (AList.mem_lookup_iff.2 hmem))
    rw [hlive] at hdeleted
    cases hdeleted
  refine ⟨fun uid u hu => ?_, ?_⟩
  · rw [husers] at hu
    split_ifs at hu
    exact hk uid u hu
  · constructor
    · rintro hs' w hw ⟨u, hu, hne, hlive, hpath⟩
      obtain ⟨p, hp, rfl⟩ := Option.map_eq_some_iff.1 hpath
      have hrow := (mem_store_rows hk).1 hu
      have hkept : (s.purgeDeletedObjects before).users.lookup u.uid = some u := by
        rw [husers, if_neg fun hmem => hpurged _ hmem u hrow hlive, hrow]
      exact ((himage _).1 (hs' u.uid u hkept hlive p hp).1).1 hw
    · intro hnot uid u hu hlive p hp
      rw [husers] at hu
      split_ifs at hu with hgone
      obtain ⟨hstored, hown⟩ := hs uid u hu hlive p hp
      obtain rfl : u.uid = uid := hk uid u hu
      refine ⟨(himage _).2 ⟨fun hw => hnot _ hw ?_, hstored⟩, hown⟩
      refine ⟨u, (mem_store_rows hk).2 hu, fun heq => hgone (heq ▸ hw), hlive, ?_⟩
      rw [hp, Option.map_some]

/-! ### Runs -/

/-- Any requests, from tables in which every live account shows an image of its own, if any. -/
def accountSystem : System Store Call where
  init s := s.Indexed ∧ AvatarsFollow s
  step s c s' := s.Unused c.draws.newUid ∧ c.serve s = .ok s'

theorem avatarsFollow_step_iff {c : Call} (hk : s.WellKeyed) (hs : AvatarsFollow s)
    (h : accountSystem.step s c s') :
    s'.WellKeyed ∧ (AvatarsFollow s' ↔ Undisturbed s c) := by
  obtain ⟨hunused, h⟩ := h
  have always : s'.WellKeyed ∧ AvatarsFollow s' → s'.WellKeyed ∧ (AvatarsFollow s' ↔ True) :=
    fun h => ⟨h.1, iff_true_intro h.2⟩
  unfold Call.serve at h
  unfold Undisturbed
  cases hrequest : c.request with
  | uploadAvatar uid contentType payload =>
    rw [hrequest] at h
    exact uploadAvatar_avatarsFollow hk hs h
  | deleteAvatar uid =>
    rw [hrequest] at h
    exact deleteAvatar_avatarsFollow hk hs h
  | claimVeknId veknId =>
    rw [hrequest] at h
    exact always (claimVeknId_avatarsFollow hk hs h)
  | abandonVeknId =>
    rw [hrequest] at h
    simp only [Store.abandonVeknId, bind_eq_ok, okOr_eq_ok, ensure_eq_ok, exists_const] at h
    obtain ⟨current, -, -, -, hdetach⟩ := h
    exact always (split_avatarsFollow hk hs hdetach)
  | linkVeknToUser veknId userUid =>
    rw [hrequest] at h
    exact linkVeknToUser_avatarsFollow hk hs hunused h
  | forceAbandonVeknId userUid =>
    rw [hrequest] at h
    simp only [Store.forceAbandonVeknId, Store.requireManagerForUser, bind_eq_ok, okOr_eq_ok,
      ensure_eq_ok, exists_const] at h
    obtain ⟨manager, -, target, -, -, -, -, hdetach⟩ := h
    exact always (split_avatarsFollow hk hs hdetach)
  | linkDiscord discord =>
    rw [hrequest] at h
    exact linkDiscord_avatarsFollow hk hs h
  | mergeUserAccounts keepUid deleteUid =>
    rw [hrequest] at h
    simp only [Store.mergeUserAccounts, bind_eq_ok, okOr_eq_ok, ensure_eq_ok, exists_const] at h
    obtain ⟨manager, -, -, -, -, merged, hmerge, rfl⟩ := h
    exact mergeUsers_avatarsFollow hk hs hmerge
  | anonymizeMember uid =>
    rw [hrequest] at h
    exact anonymizeMember_avatarsFollow hk hs h
  | deleteMember uid =>
    rw [hrequest] at h
    simp only [Store.deleteMember, bind_eq_ok, okOr_eq_ok, ensure_eq_ok, exists_const] at h
    obtain ⟨current, -, -, -, deleted, hdeleted, rfl⟩ := h
    exact always (softDeleteUser_avatarsFollow hk hs hdeleted)
  | purgeDeletedObjects before =>
    rw [hrequest] at h
    obtain rfl := pure_eq_ok.1 h
    exact purge_avatarsFollow hk hs

/-- In every run that disturbs no image another account shows, every live account shows an image of
its own, if any; the next request keeps that exactly when it disturbs none either. -/
theorem avatarsFollow_of_reaches (h : accountSystem.Reaches Undisturbed s) :
    AvatarsFollow s ∧ ∀ c s', accountSystem.step s c s' → (AvatarsFollow s' ↔ Undisturbed s c) := by
  have hinv : s.WellKeyed ∧ AvatarsFollow s := by
    have hinit : ∀ s, accountSystem.init s → s.WellKeyed ∧ AvatarsFollow s :=
      fun _ hs => ⟨hs.1.keyed, hs.2⟩
    refine h.invariant hinit fun s c s' hp hok hs => ?_
    obtain ⟨hk, hiff⟩ := avatarsFollow_step_iff hp.1 hp.2 hs
    exact ⟨hk, hiff.2 hok⟩
  exact ⟨hinv.2, fun c s' hs => (avatarsFollow_step_iff hinv.1 hinv.2 hs).2⟩

end Requests

/-! ### A claimed record -/

instance (s : Store) (uid : Uid) : Decidable (s.ShownElsewhere uid) :=
  inferInstanceAs (Decidable (∃ u ∈ s.rows, _))

instance (s : Store) (uid : Uid) (others : List Uid) : Decidable (s.Brings uid others) :=
  inferInstanceAs (Decidable (∀ u ∈ s.users.lookup uid, ∀ p ∈ given u.avatarPath, _))

instance (s : Store) (keepUid deleteUid : Uid) : Decidable (s.Absorbable keepUid deleteUid) :=
  inferInstanceAs (Decidable (_ → ∀ keep ∈ s.users.lookup keepUid, _ → _))

instance (s : Store) (c : Call) : Decidable (Undisturbed s c) := by
  unfold Undisturbed
  split <;> infer_instance

/-- A record nobody signs in with, and an account without a VEKN id. -/
def claimStore : Store :=
  storeOf [rowOf (member "1000001" []), rowOf { member "una" [] with veknId := none }]
    [("m2", ⟨"una", "email", "una@x.org", ""⟩)]

def call (actor : Uid) (request : Request) : Call :=
  ⟨actor, ⟨"2026-05-02T10:00:00Z", 1, "u9", [], false⟩, request⟩

/-- Una uploads an avatar and claims the record. -/
def claiming : List Call :=
  [call "una" (.uploadAvatar "una" "image/png" [0]), call "una" (.claimVeknId "1000001")]

theorem accountSystem_init_claimStore : accountSystem.init claimStore := by
  refine ⟨indexed_storeOf _ _ (by decide +kernel) (by decide +kernel), ?_⟩
  have hbare : ∀ u ∈ claimStore.rows, u.avatarPath = none := by decide +kernel
  have hk : claimStore.WellKeyed :=
    (indexed_storeOf _ _ (by decide +kernel) (by decide +kernel) : claimStore.Indexed).keyed
  intro uid u hu _ p hp
  obtain rfl : u.uid = uid := hk uid u hu
  rw [hbare u ((mem_store_rows hk).2 hu)] at hp
  cases hp

/-- The tables after the requests, if all are accepted, draw unused uids and meet the condition. -/
def storeAfter (ok : Store → Call → Prop) [∀ s c, Decidable (ok s c)] (calls : List Call) :
    Option Store :=
  System.replay Call.serve (fun s c => s.Unused c.draws.newUid ∧ ok s c) claimStore calls

theorem exists_reaches_of_storeAfter (ok : Store → Call → Prop) [∀ s c, Decidable (ok s c)]
    (calls : List Call) (p : Store → Bool) (h : (storeAfter ok calls).any p = true) :
    ∃ s, accountSystem.Reaches ok s ∧ p s = true := by
  obtain ⟨s, hs, hp⟩ := (Option.any_eq_true _ _).1 h
  have hstep : ∀ s c s', s.Unused c.draws.newUid ∧ ok s c → Call.serve s c = .ok s' →
      accountSystem.step s c s' := fun _ _ _ hi hs => ⟨hi.1, hs⟩
  exact ⟨s, System.reaches_replay_of (fun _ _ hi => hi.2) hstep calls claimStore s
    (.init accountSystem_init_claimStore) hs, hp⟩

/-- Whether the record shows the image stored for Una's old account. -/
def showsUna (s : Store) : Bool :=
  (s.users.lookup "1000001").any fun u => u.deletedAt.isNone &&
    (given u.avatarPath).map servedUid == some "una"

/-- The record shows the avatar of the account merged into it. -/
theorem avatarsFollow_claim : ∃ s, showsUna s = true ∧ AvatarsFollow s := by
  obtain ⟨s, hreach, hshows⟩ := exists_reaches_of_storeAfter Undisturbed claiming showsUna
    (by decide +kernel)
  exact ⟨s, hshows, (avatarsFollow_of_reaches hreach).1⟩

/-- The tombstone of the merged account is purged, and its image with it. -/
theorem not_avatarsFollow : ∃ s, accountSystem.Reachable s ∧ ¬ AvatarsFollow s := by
  obtain ⟨s, hreach, hp⟩ := exists_reaches_of_storeAfter (fun _ _ => True)
    (claiming ++ [call "" (.purgeDeletedObjects "2026-07-02T10:00:00Z")])
    (fun s => showsUna s && decide ("una" ∉ s.avatars)) (by decide +kernel)
  rw [Bool.and_eq_true, decide_eq_true_eq] at hp
  obtain ⟨hshows, hgone⟩ := hp
  obtain ⟨u, hu, hpath⟩ := (Option.any_eq_true _ _).1 hshows
  rw [Bool.and_eq_true, Option.isNone_iff_eq_none, beq_iff_eq, Option.map_eq_some_iff] at hpath
  obtain ⟨hlive, p, hp, hserved⟩ := hpath
  refine ⟨s, hreach, fun hs => hgone ?_⟩
  exact hserved ▸ (hs "1000001" u hu hlive p hp).1

end Archon.Accounts

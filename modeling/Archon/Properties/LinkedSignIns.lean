import Archon.Backend.AccountFrames
import Archon.Backend.Scenario

/-!
# The sign-ins of a linked VEKN id

Linking an id to an account moves the sign-ins of the account to the record and those of a displaced
holder to an account of his own. An account that holds the id already and signs in with it is
displaced from itself: the holder is split off without a look at who he is.
-/

namespace Archon.Accounts
open Engine Backend Guards Claims CommunityLinks UserRows

/-! ### The property and the condition -/

/-- The account has the sign-ins another had before, and no others. -/
def OwnsExactly (s' : Store) (uid : Uid) (s : Store) (before : Uid) : Prop :=
  ∀ m, m ∈ methodsOf s'.methods uid ↔ ∃ m₀ ∈ methodsOf s.methods before, m = owned uid m₀

/-- The sign-ins the holder had stand under one other live account, which has no VEKN id. -/
def MovesOut (s' : Store) (s : Store) (holder : Uid) : Prop :=
  ∃ uid u, uid ≠ holder ∧ s'.users.lookup uid = some u ∧ u.deletedAt = none ∧
    given u.veknId = none ∧ ∀ m ∈ methodsOf s.methods holder, owned uid m ∈ s'.methods

/-- The id ends up with the sign-ins of the target, a displaced holder keeps his, and an account
that holds the id already is left as it is. -/
structure LinkMoves (s s' : Store) (veknId : String) (target : Uid) : Prop where
  linked : ∃ u, s'.getUserByVeknId veknId = some u ∧ OwnsExactly s' u.uid s target
  displaced : ∀ u, s.getUserByVeknId veknId = some u → u.uid ≠ target →
    s.isVeknIdClaimed veknId = true → MovesOut s' s u.uid
  same : ∀ u, s.getUserByVeknId veknId = some u → u.uid = target →
    s'.users = s.users ∧ s'.methods = s.methods

/-- An id with sign-ins is held by a live account other than the target. -/
def HeldByOther (s : Store) (veknId : String) (target : Uid) : Prop :=
  s.isVeknIdClaimed veknId = true →
    ∀ u, s.getUserByVeknId veknId = some u → u.uid ≠ target ∧ u.deletedAt = none

section Links

variable {s s' : Store} {d : Draws} {actor uid target newUid : Uid} {veknId : String}
variable {u row keep absorbed holder : UserRow} {m : AuthRow}

/-! ### Who bears an id -/

/-- The id is borne by this account only. -/
def BornBy (s : Store) (veknId : String) (uid : Uid) : Prop :=
  ∀ uid', (∃ x, s.standing uid' = some x ∧ given x.veknId = some veknId) ↔ uid' = uid

theorem given_eq_some {text : Option String} {v : String} :
    given text = some v ↔ text = some v ∧ v ≠ "" := by
  rw [given, Option.filter_eq_some_iff, decide_eq_true_eq]

theorem store_getUserByVeknId_some (hk : s.WellKeyed) (h : s.getUserByVeknId veknId = some u) :
    s.users.lookup u.uid = some u ∧ given u.veknId = some veknId := by
  have hmem := List.mem_of_find?_eq_some h
  have hbears := List.find?_some h
  simp only [Bool.and_eq_true, beq_iff_eq, bne_iff_ne] at hbears
  exact ⟨(mem_store_rows hk).1 hmem, given_eq_some.2 hbears⟩

theorem BornBy.found (hk : s.WellKeyed) (h : BornBy s veknId uid) :
    ∃ u, s.getUserByVeknId veknId = some u ∧ u.uid = uid := by
  obtain ⟨x, hx, hbears⟩ := (h uid).2 rfl
  obtain ⟨u, hu, rfl⟩ := lookup_of_standing hx
  have huid : u.uid = uid := hk uid u hu
  have hfound : (s.getUserByVeknId veknId).isSome = true := by
    refine List.find?_isSome.2 ⟨u, (mem_store_rows hk).2 (huid.symm ▸ hu), ?_⟩
    obtain ⟨hv, hne⟩ := given_eq_some.1 hbears
    exact Bool.and_eq_true_iff.2 ⟨beq_iff_eq.2 hv, bne_iff_ne.2 hne⟩
  obtain ⟨u', hu'⟩ := Option.isSome_iff_exists.1 hfound
  obtain ⟨hrow, hv⟩ := store_getUserByVeknId_some hk hu'
  exact ⟨u', hu', (h u'.uid).1 ⟨_, standing_of_lookup hrow, hv⟩⟩

theorem Store.Indexed.bornBy (hs : s.Indexed) (h : s.getUserByVeknId veknId = some u) :
    BornBy s veknId u.uid := by
  obtain ⟨hu, hv⟩ := store_getUserByVeknId_some hs.keyed h
  refine fun uid => ⟨?_, ?_⟩
  · rintro ⟨x, hx, hbears⟩
    obtain ⟨u', hu', rfl⟩ := lookup_of_standing hx
    exact hs.veknIds uid u' u.uid u hu' hu veknId hbears hv
  · rintro rfl
    exact ⟨_, standing_of_lookup hu, hv⟩

theorem BornBy.split (h : BornBy s veknId row.uid) (hrow : given row.veknId = some veknId)
    (hsplit : Split s s' d row) : BornBy s' veknId row.uid := by
  intro uid
  rw [hsplit.standing]
  split_ifs with huid hfresh
  · exact ⟨fun _ => huid, fun _ => ⟨_, rfl, hrow⟩⟩
  · refine ⟨?_, fun heq => absurd heq huid⟩
    rintro ⟨x, hx, hbears⟩
    obtain rfl := Option.some.inj hx
    cases hbears
  · exact h uid

theorem BornBy.merged (h : BornBy s veknId keep.uid) (hkeep : given keep.veknId = some veknId)
    (hne : keep.uid ≠ absorbed.uid) (hmerged : Merged s s' d keep absorbed) :
    BornBy s' veknId keep.uid := by
  intro uid
  rw [hmerged.standing]
  split_ifs with habsorbed hkept
  · refine ⟨?_, fun heq => absurd (heq.symm.trans habsorbed) hne⟩
    rintro ⟨x, hx, hbears⟩
    obtain rfl := Option.some.inj hx
    exact absurd (hmerged.bare.symm.trans hbears) (by simp)
  · refine ⟨fun _ => hkept, fun _ => ⟨_, rfl, ?_⟩⟩
    have hid : (UserRows.merged keep absorbed).veknId = some veknId := by
      change either keep.veknId absorbed.veknId = some veknId
      rw [either, hkeep, Option.some_or]
    exact given_eq_some.2 ⟨hid, (given_eq_some.1 hkeep).2⟩
  · exact h uid

/-! ### Whose sign-ins they are -/

theorem mem_methodsOf {rows : List AuthRow} :
    m ∈ methodsOf rows uid ↔ m ∈ rows ∧ m.2.userUid = uid := by
  rw [methodsOf, List.mem_filter, decide_eq_true_eq]

theorem isVeknIdClaimed_iff (h : s.getUserByVeknId veknId = some u) :
    s.isVeknIdClaimed veknId = true ↔ methodsOf s.methods u.uid ≠ [] := by
  rw [Store.isVeknIdClaimed, h]
  simp

theorem ownsExactly_self (s : Store) (uid : Uid) : OwnsExactly s uid s uid := by
  intro m
  constructor
  · intro hm
    have huid := (mem_methodsOf.1 hm).2
    refine ⟨m, hm, ?_⟩
    rw [owned, ← huid]
  · rintro ⟨m₀, hm₀, rfl⟩
    have huid := (mem_methodsOf.1 hm₀).2
    have hsame : owned uid m₀ = m₀ := by rw [owned, ← huid]
    exact hsame.symm ▸ hm₀

theorem ownsExactly_reassign (hs : (s.methods.map Prod.fst).Nodup)
    (hnone : methodsOf s.methods uid = [])
    (h : s'.methods = (s.reassignAuthMethods target uid).methods) :
    OwnsExactly s' uid s target := by
  intro m
  rw [mem_methodsOf, h, reassignAuthMethods_methods hs, List.mem_map]
  constructor
  · rintro ⟨⟨m₀, hm₀, rfl⟩, huid⟩
    by_cases htarget : m₀.2.userUid = target
    · rw [if_pos htarget] at huid ⊢
      exact ⟨m₀, mem_methodsOf.2 ⟨hm₀, htarget⟩, rfl⟩
    · rw [if_neg htarget] at huid
      have hmem : m₀ ∈ methodsOf s.methods uid := mem_methodsOf.2 ⟨hm₀, huid⟩
      rw [hnone] at hmem
      cases hmem
  · rintro ⟨m₀, hm₀, rfl⟩
    obtain ⟨hmem, htarget⟩ := mem_methodsOf.1 hm₀
    exact ⟨⟨m₀, hmem, if_pos htarget⟩, rfl⟩

theorem mem_reassignAuthMethods (hs : (s.methods.map Prod.fst).Nodup) {fromUserUid toUserUid : Uid}
    (hm : m ∈ s.methods) (hne : m.2.userUid ≠ fromUserUid) :
    m ∈ (s.reassignAuthMethods fromUserUid toUserUid).methods := by
  rw [reassignAuthMethods_methods hs]
  exact List.mem_map.2 ⟨m, hm, if_neg hne⟩

theorem owned_mem_reassignAuthMethods (hs : (s.methods.map Prod.fst).Nodup)
    {fromUserUid toUserUid : Uid} (hm : m ∈ methodsOf s.methods fromUserUid) :
    owned toUserUid m ∈ (s.reassignAuthMethods fromUserUid toUserUid).methods := by
  obtain ⟨hmem, hfrom⟩ := mem_methodsOf.1 hm
  rw [reassignAuthMethods_methods hs]
  exact List.mem_map.2 ⟨m, hmem, if_pos hfrom⟩

theorem methodsOf_reassigned (hs : (s.methods.map Prod.fst).Nodup) {fromUserUid toUserUid : Uid}
    (hne : toUserUid ≠ fromUserUid) :
    methodsOf (s.reassignAuthMethods fromUserUid toUserUid).methods fromUserUid = [] := by
  refine List.eq_nil_iff_forall_not_mem.2 fun m hm => ?_
  rw [mem_methodsOf, reassignAuthMethods_methods hs, List.mem_map] at hm
  obtain ⟨⟨m₀, -, rfl⟩, huid⟩ := hm
  by_cases hfrom : m₀.2.userUid = fromUserUid
  · rw [if_pos hfrom] at huid
    exact hne huid
  · rw [if_neg hfrom] at huid
    exact hfrom huid

theorem mem_methodsOf_reassigned (hs : (s.methods.map Prod.fst).Nodup)
    {fromUserUid toUserUid : Uid} (hfrom : uid ≠ fromUserUid) (hto : uid ≠ toUserUid) :
    m ∈ methodsOf (s.reassignAuthMethods fromUserUid toUserUid).methods uid ↔
      m ∈ methodsOf s.methods uid := by
  rw [mem_methodsOf, mem_methodsOf]
  constructor
  · rw [reassignAuthMethods_methods hs, List.mem_map]
    rintro ⟨⟨m₀, hm₀, rfl⟩, huid⟩
    by_cases heq : m₀.2.userUid = fromUserUid
    · rw [if_pos heq] at huid
      exact absurd huid.symm hto
    · rw [if_neg heq] at huid ⊢
      exact ⟨hm₀, huid⟩
  · rintro ⟨hm, huid⟩
    exact ⟨mem_reassignAuthMethods hs hm (huid.symm ▸ hfrom), huid⟩

/-! ### The cases of a link -/

/-- What an accepted link has read, and the two steps it took. -/
structure Linked (s s' : Store) (d : Draws) (veknId : String) (target : Uid)
    (holder row : UserRow) : Prop where
  found : s.users.lookup target = some row
  held : s.getUserByVeknId veknId = some holder
  steps : (if s.isVeknIdClaimed veknId = true then s.detach d holder else s).mergeUsers d
    holder.uid target = .ok (some s')

theorem linked_of_link (hk : s.WellKeyed) (h : s.linkVeknToUser d actor veknId target = .ok s') :
    ∃ holder row, Linked s s' d veknId target holder row := by
  simp only [Store.linkVeknToUser, Store.requireManagerForUser, bind_eq_ok, okOr_eq_ok,
    ensure_eq_ok, exists_const] at h
  obtain ⟨manager, -, row, hrow, -, -, holder, hholder, -, -, s₁, hs₁, merged, hmerged, rfl⟩ := h
  obtain rfl : row.uid = target := hk target row hrow
  refine ⟨holder, row, hrow, hholder, ?_⟩
  have hs : (if s.isVeknIdClaimed veknId = true then s.detach d holder else s) = s₁ := by
    rw [Store.displace] at hs₁
    split_ifs at hs₁ ⊢ with hclaimed
    · simp only [bind_eq_ok, ensure_eq_ok, exists_const, pure_eq_ok] at hs₁
      rw [← hs₁.2, Store.detachUserFromVekn, (store_getUserByVeknId_some hk hholder).1,
        Option.map_some, Option.getD_some]
    · exact pure_eq_ok.1 hs₁
  rw [hs]
  exact hmerged

theorem mergeUsers_self (hk : s.WellKeyed) (hrow : s.users.lookup uid = some row)
    (h : s.mergeUsers d uid uid = .ok (some s')) : s' = s := by
  have huid : row.uid = uid := hk uid row hrow
  rw [Store.mergeUsers, hrow] at h
  simp only [Store.mergeInto, if_pos huid] at h
  cases h
  rfl

theorem merged_of_mergeUsers (hk : s.WellKeyed) (hkeep : s.users.lookup keep.uid = some keep)
    (habsorbed : s.users.lookup target = some absorbed) (hne : keep.uid ≠ target)
    (h : s.mergeUsers d keep.uid target = .ok (some s')) : Merged s s' d keep absorbed := by
  rw [Store.mergeUsers, hkeep] at h
  simp only [Functor.map, Except.map] at h
  split at h
  · cases h
  · rename_i hinto
    cases h
    exact merged_of_mergeInto hk habsorbed hne hinto

theorem linkMoves_unclaimed (hs : s.Indexed) (h : Linked s s' d veknId target holder row)
    (hclaimed : methodsOf s.methods holder.uid = [])
    (hmerge : s.mergeUsers d holder.uid target = .ok (some s')) :
    LinkMoves s s' veknId target := by
  obtain ⟨hlookup, hbears⟩ := store_getUserByVeknId_some hs.keyed h.held
  by_cases hself : holder.uid = target
  · rw [← hself] at hmerge
    obtain rfl := mergeUsers_self hs.keyed hlookup hmerge
    refine ⟨⟨holder, h.held, hself ▸ ownsExactly_self _ _⟩, fun u hu hne => ?_,
      fun _ _ _ => ⟨rfl, rfl⟩⟩
    obtain rfl := Option.some.inj (h.held.symm.trans hu)
    exact absurd hself hne
  · have hmerged := merged_of_mergeUsers hs.keyed hlookup h.found hself hmerge
    have huid : row.uid = target := hs.keyed target row h.found
    obtain ⟨u, hu, heq⟩ := ((hs.bornBy h.held).merged hbears (huid.symm ▸ hself) hmerged).found
      hmerged.wellKeyed
    refine ⟨⟨u, hu, ?_⟩, fun u' hu' _ hsome => ?_, fun u' hu' heq' => ?_⟩
    · rw [heq]
      exact ownsExactly_reassign hs.methods hclaimed (huid ▸ hmerged.methods)
    · exact absurd hclaimed ((isVeknIdClaimed_iff h.held).1 hsome)
    · obtain rfl := Option.some.inj (h.held.symm.trans hu')
      exact absurd heq' hself

/-- The holder is split off the record, and the target merged into it. -/
structure Displaced (s s' : Store) (d : Draws) (holder row : UserRow) : Prop where
  distinct : holder.uid ≠ row.uid
  newUid : holder.uid ≠ d.newUid ∧ row.uid ≠ d.newUid
  steps : ∃ s₁ keep absorbed, Split s s₁ d holder ∧ Merged s₁ s' d keep absorbed ∧
    standingOf keep = { standingOf holder with avatarPath := none } ∧
    standingOf absorbed = standingOf row

theorem displaced_of_linked (hk : s.WellKeyed) (hunused : s.Unused d.newUid)
    (h : Linked s s' d veknId target holder row) (hne : holder.uid ≠ target)
    (hmerge : (s.detach d holder).mergeUsers d holder.uid target = .ok (some s')) :
    Displaced s s' d holder row := by
  obtain rfl : row.uid = target := hk target row h.found
  have hheld := (store_getUserByVeknId_some hk h.held).1
  have hused : ∀ {u : UserRow}, s.users.lookup u.uid = some u → u.uid ≠ d.newUid := fun hu heq =>
    hunused.1 (heq ▸ AList.lookup_isSome.1 (Option.isSome_iff_exists.2 ⟨_, hu⟩))
  have hsplit := split_detach hk d holder
  have hkeep : (s.detach d holder).standing holder.uid =
      some { standingOf holder with avatarPath := none } := by
    rw [hsplit.standing, if_pos rfl]
  have habsorbed : (s.detach d holder).standing row.uid = some (standingOf row) := by
    rw [hsplit.standing, if_neg (Ne.symm hne), if_neg (hused h.found)]
    exact standing_of_lookup h.found
  obtain ⟨keep, hkeeprow, hkeep⟩ := lookup_of_standing hkeep
  obtain ⟨absorbed, habsorbedrow, habsorbed⟩ := lookup_of_standing habsorbed
  have huid : keep.uid = holder.uid := congrArg Standing.uid hkeep
  rw [← huid] at hkeeprow hmerge
  have hmerged := merged_of_mergeUsers hsplit.wellKeyed hkeeprow habsorbedrow (huid ▸ hne) hmerge
  exact ⟨hne, ⟨hused hheld, hused h.found⟩, _, keep, absorbed, hsplit, hmerged, hkeep, habsorbed⟩

theorem Displaced.methods (h : Displaced s s' d holder row) (hs : (s.methods.map Prod.fst).Nodup) :
    OwnsExactly s' holder.uid s row.uid ∧
      (∀ m ∈ methodsOf s.methods holder.uid, owned d.newUid m ∈ s'.methods) ∧
      (s'.methods.map Prod.fst).Nodup := by
  obtain ⟨s₁, keep, absorbed, hsplit, hmerged, hkeep, habsorbed⟩ := h.steps
  have huid : keep.uid = holder.uid := congrArg Standing.uid hkeep
  have huid' : absorbed.uid = row.uid := congrArg Standing.uid habsorbed
  have hkeys : (s₁.methods.map Prod.fst).Nodup :=
    hsplit.methods ▸ nodup_reassignAuthMethods hs _ _
  have hmethods := hmerged.methods
  rw [huid, huid'] at hmethods
  refine ⟨fun m => ?_, fun m hm => ?_, ?_⟩
  · have hempty : methodsOf s₁.methods holder.uid = [] :=
      hsplit.methods ▸ methodsOf_reassigned hs h.newUid.1.symm
    rw [ownsExactly_reassign hkeys hempty hmethods m]
    refine exists_congr fun m₀ => and_congr_left fun _ => ?_
    rw [hsplit.methods]
    exact mem_methodsOf_reassigned hs h.distinct.symm h.newUid.2
  · have hmem : owned d.newUid m ∈ s₁.methods :=
      hsplit.methods ▸ owned_mem_reassignAuthMethods hs hm
    rw [hmethods]
    exact mem_reassignAuthMethods hkeys hmem h.newUid.2.symm
  · rw [hmethods]
    exact nodup_reassignAuthMethods hkeys _ _

theorem Displaced.newRow (h : Displaced s s' d holder row) :
    ∃ u, s'.users.lookup d.newUid = some u ∧ u.deletedAt = holder.deletedAt ∧
      given u.veknId = none := by
  obtain ⟨s₁, keep, absorbed, hsplit, hmerged, hkeep, habsorbed⟩ := h.steps
  have huid : keep.uid = holder.uid := congrArg Standing.uid hkeep
  have huid' : absorbed.uid = row.uid := congrArg Standing.uid habsorbed
  have hstanding := hmerged.standing d.newUid
  rw [huid, huid', if_neg h.newUid.2.symm, if_neg h.newUid.1.symm, hsplit.standing,
    if_neg h.newUid.1.symm, if_pos rfl] at hstanding
  obtain ⟨u, hu, hstands⟩ := lookup_of_standing hstanding
  have hvekn : u.veknId = none := congrArg Standing.veknId hstands
  exact ⟨u, hu, congrArg Standing.deletedAt hstands, by rw [hvekn]; rfl⟩

theorem Displaced.movesOut_iff (h : Displaced s s' d holder row)
    (hs : (s.methods.map Prod.fst).Nodup) (hclaimed : methodsOf s.methods holder.uid ≠ []) :
    MovesOut s' s holder.uid ↔ holder.deletedAt = none := by
  obtain ⟨-, hmoved, hkeys⟩ := h.methods hs
  obtain ⟨u, hu, hdeleted, hbare⟩ := h.newRow
  constructor
  · rintro ⟨uid, u', -, hu', hlive, -, hall⟩
    obtain ⟨m, hm⟩ := List.exists_mem_of_ne_nil _ hclaimed
    have heq : owned uid m = owned d.newUid m :=
      List.inj_on_of_nodup_map hkeys (hall m hm) (hmoved m hm) rfl
    have huid : uid = d.newUid := congrArg (fun m : AuthRow => m.2.userUid) heq
    rw [huid, hu] at hu'
    obtain rfl := Option.some.inj hu'
    exact hdeleted.symm.trans hlive
  · exact fun hlive => ⟨d.newUid, u, h.newUid.1.symm, hu, hdeleted.trans hlive, hbare, hmoved⟩

theorem Displaced.bornBy (h : Displaced s s' d holder row) (hs : s.Indexed)
    (hheld : s.getUserByVeknId veknId = some holder) :
    s'.WellKeyed ∧ BornBy s' veknId holder.uid := by
  obtain ⟨s₁, keep, absorbed, hsplit, hmerged, hkeep, habsorbed⟩ := h.steps
  have hbears := (store_getUserByVeknId_some hs.keyed hheld).2
  have huid : keep.uid = holder.uid := congrArg Standing.uid hkeep
  have huid' : absorbed.uid = row.uid := congrArg Standing.uid habsorbed
  have hvekn : keep.veknId = holder.veknId := congrArg Standing.veknId hkeep
  have hborn := (hs.bornBy hheld).split hbears hsplit
  rw [← huid] at hborn ⊢
  exact ⟨hmerged.wellKeyed, hborn.merged (hvekn.symm ▸ hbears)
    (huid.symm ▸ huid'.symm ▸ h.distinct) hmerged⟩

theorem not_linkMoves_self (hk : s.WellKeyed) (hunused : s.Unused d.newUid)
    (h : Linked s s' d veknId target holder row) (hself : holder.uid = target)
    (hmerge : (s.detach d holder).mergeUsers d holder.uid target = .ok (some s')) :
    ¬ LinkMoves s s' veknId target := by
  intro hmoves
  have hsplit := split_detach hk d holder
  have hkeep : (s.detach d holder).standing holder.uid =
      some { standingOf holder with avatarPath := none } := by
    rw [hsplit.standing, if_pos rfl]
  obtain ⟨keep, hrow, -⟩ := lookup_of_standing hkeep
  rw [← hself] at hmerge
  obtain rfl := mergeUsers_self hsplit.wellKeyed hrow hmerge
  have hheld := (store_getUserByVeknId_some hk h.held).1
  have hused : d.newUid ≠ holder.uid := fun heq =>
    hunused.1 (heq ▸ AList.lookup_isSome.1 (Option.isSome_iff_exists.2 ⟨_, hheld⟩))
  have hnew := hsplit.standing d.newUid
  rw [if_neg hused, if_pos rfl, Store.standing, (hmoves.same holder h.held hself).1,
    AList.lookup_eq_none.2 hunused.1] at hnew
  cases hnew

/-- An accepted link moves the sign-ins as it should exactly when the id is unclaimed, or held by a
live account other than the target. -/
theorem linkMoves_iff (hs : s.Indexed) (hunused : s.Unused d.newUid)
    (h : s.linkVeknToUser d actor veknId target = .ok s') :
    LinkMoves s s' veknId target ↔ HeldByOther s veknId target := by
  obtain ⟨holder, row, hlinked⟩ := linked_of_link hs.keyed h
  have hmerge := hlinked.steps
  unfold HeldByOther
  have hclaimed := isVeknIdClaimed_iff hlinked.held
  split_ifs at hmerge with hsome
  · have hmethods := hclaimed.1 hsome
    by_cases hself : holder.uid = target
    · have hnot := not_linkMoves_self hs.keyed hunused hlinked hself hmerge
      exact ⟨fun hmoves => absurd hmoves hnot, fun hheld =>
        absurd hself (hheld hsome holder hlinked.held).1⟩
    · have hdisplaced := displaced_of_linked hs.keyed hunused hlinked hself hmerge
      have huid : row.uid = target := hs.keyed target row hlinked.found
      have hout := hdisplaced.movesOut_iff hs.methods hmethods
      constructor
      · intro hmoves _ u hu
        obtain rfl := Option.some.inj (hlinked.held.symm.trans hu)
        exact ⟨hself, hout.1 (hmoves.displaced holder hlinked.held hself hsome)⟩
      · intro hheld
        obtain ⟨hk, hborn⟩ := hdisplaced.bornBy hs hlinked.held
        obtain ⟨u, hu, heq⟩ := hborn.found hk
        refine ⟨⟨u, hu, ?_⟩, fun u' hu' _ _ => ?_, fun u' hu' heq' => ?_⟩
        · rw [heq, ← huid]
          exact (hdisplaced.methods hs.methods).1
        · obtain rfl := Option.some.inj (hlinked.held.symm.trans hu')
          exact hout.2 (hheld hsome holder hlinked.held).2
        · obtain rfl := Option.some.inj (hlinked.held.symm.trans hu')
          exact absurd heq' hself
  · have hnone : methodsOf s.methods holder.uid = [] := by
      by_contra hne
      exact hsome (hclaimed.2 hne)
    exact ⟨fun _ hc => absurd hc hsome, fun _ => linkMoves_unclaimed hs hlinked hnone hmerge⟩

end Links

/-! ### Links of one id -/

/-- An official, the holder of an id with a sign-in of his own, and an account without an id. -/
def linkStore : Store :=
  storeOf [rowOf (member "ivy" [.ic]), rowOf (member "1000001" []),
      rowOf { member "una" [] with veknId := none }]
    [("m1", ⟨"1000001", "email", "hal@x.org", ""⟩), ("m2", ⟨"una", "email", "una@x.org", ""⟩)]

def linkDraws : Draws := ⟨"2026-05-02T10:00:00Z", 0, "u9", [], false⟩

theorem indexed_linkStore : linkStore.Indexed :=
  indexed_storeOf _ _ (by decide +kernel) (by decide +kernel)

theorem unused_linkDraws : linkStore.Unused linkDraws.newUid := by decide +kernel

/-- Whose sign-ins they are after a link of the id. -/
def ownersAfterLink (target : Uid) : Option (List (Uid × Uid)) :=
  (linkStore.linkVeknToUser linkDraws "ivy" "1000001" target).toOption.map fun s =>
    s.methods.map fun m => (m.1, m.2.userUid)

theorem linked_of_ownersAfterLink {target : Uid} {owners : List (Uid × Uid)}
    (h : ownersAfterLink target = some owners) :
    ∃ s', linkStore.linkVeknToUser linkDraws "ivy" "1000001" target = .ok s' := by
  obtain ⟨s', hs', -⟩ := Option.map_eq_some_iff.1 h
  cases hlink : linkStore.linkVeknToUser linkDraws "ivy" "1000001" target with
  | error e => rw [hlink] at hs'; cases hs'
  | ok s => exact ⟨s, rfl⟩

/-- The holder is displaced by another account. -/
theorem linkMoves_other : ∃ s',
    linkStore.linkVeknToUser linkDraws "ivy" "1000001" "una" = .ok s' ∧
      LinkMoves linkStore s' "1000001" "una" := by
  have howners : ownersAfterLink "una" = some [("m1", "u9"), ("m2", "1000001")] := by
    decide +kernel
  obtain ⟨s', hs'⟩ := linked_of_ownersAfterLink howners
  refine ⟨s', hs', (linkMoves_iff indexed_linkStore unused_linkDraws hs').2 fun _ u hu => ?_⟩
  have hheld : (linkStore.getUserByVeknId "1000001").all
      fun u => u.uid != "una" && u.deletedAt.isNone := by decide +kernel
  rw [hu, Option.all_some, Bool.and_eq_true, bne_iff_ne, Option.isNone_iff_eq_none] at hheld
  exact hheld

/-- The id is linked to the account that holds it: the sign-in is gone from it. -/
theorem not_linkMoves : ∃ s',
    linkStore.linkVeknToUser linkDraws "ivy" "1000001" "1000001" = .ok s' ∧
      ¬ LinkMoves linkStore s' "1000001" "1000001" := by
  have howners : ownersAfterLink "1000001" = some [("m1", "u9"), ("m2", "una")] := by
    decide +kernel
  obtain ⟨s', hs'⟩ := linked_of_ownersAfterLink howners
  refine ⟨s', hs', fun hmoves => ?_⟩
  have hheld : (linkStore.getUserByVeknId "1000001").any fun u => u.uid == "1000001" := by
    decide +kernel
  obtain ⟨u, hu, huid⟩ := (Option.any_eq_true _ _).1 hheld
  have hsame := (hmoves.same u hu (beq_iff_eq.1 huid)).2
  rw [ownersAfterLink, hs', Except.toOption, Option.map_some, hsame] at howners
  revert howners
  decide +kernel

end Archon.Accounts

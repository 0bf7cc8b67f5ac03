import Archon.Backend.Accounts

/-!
# What the account operations make of a row

The operations on accounts are followed through four fields of a row: its uid, its VEKN id, the path
of its avatar and its tombstone. A merge sets them of two rows and a split of two; the passes on
wins and sponsors leave them as they are.
-/

namespace Archon.Accounts
open Engine Backend Guards Claims CommunityLinks UserRows

/-! ### Standings -/

/-- Where an account stands. -/
structure Standing where
  uid : Uid
  veknId : Option String
  avatarPath : Option String
  deletedAt : Option Stamp
  deriving DecidableEq, Repr

def standingOf (u : UserRow) : Standing := ⟨u.uid, u.veknId, u.avatarPath, u.deletedAt⟩

def Store.standing (s : Store) (uid : Uid) : Option Standing :=
  (s.users.lookup uid).map standingOf

/-- The sign-ins and images are the same, and so is where each account stands. -/
structure Alike (s s' : Store) : Prop where
  methods : s'.methods = s.methods
  avatars : s'.avatars = s.avatars
  uploader : s'.uploader = s.uploader
  standing : ∀ uid, s'.standing uid = s.standing uid

/-- A row given over to another account. -/
def owned (uid : Uid) (m : AuthRow) : AuthRow := (m.1, { m.2 with userUid := uid })

section Frames

variable {s s' s'' : Store} {d : Draws} {uid deleteUid : Uid} {u row keep absorbed : UserRow}
variable {m : AuthRow} {v : String}

theorem Alike.refl (s : Store) : Alike s s := ⟨rfl, rfl, rfl, fun _ => rfl⟩

theorem Alike.trans (h : Alike s s') (h' : Alike s' s'') : Alike s s'' where
  methods := h'.methods.trans h.methods
  avatars := h'.avatars.trans h.avatars
  uploader := h'.uploader.trans h.uploader
  standing uid := (h'.standing uid).trans (h.standing uid)

/-- Rows stand under their uid. -/
def Store.WellKeyed (s : Store) : Prop := Table.Keyed (fun u : UserRow => u.uid) s.users

theorem standing_of_lookup (h : s.users.lookup uid = some u) :
    s.standing uid = some (standingOf u) := by
  rw [Store.standing, h, Option.map_some]

theorem lookup_of_standing {x : Standing} (h : s.standing uid = some x) :
    ∃ u, s.users.lookup uid = some u ∧ standingOf u = x := Option.map_eq_some_iff.1 h

theorem Alike.wellKeyed (h : Alike s s') (hk : s.WellKeyed) : s'.WellKeyed := by
  intro uid u hu
  have hs := (h.standing uid).symm.trans (standing_of_lookup hu)
  obtain ⟨u', hu', heq⟩ := lookup_of_standing hs
  have huid : u'.uid = u.uid := congrArg Standing.uid heq
  exact huid.symm.trans (hk uid u' hu')

theorem mem_store_rows (hk : s.WellKeyed) : u ∈ s.rows ↔ s.users.lookup u.uid = some u := by
  unfold Store.rows
  rw [List.mem_map]
  constructor
  · rintro ⟨⟨uid, u'⟩, he, rfl⟩
    have hlookup : s.users.lookup uid = some u' := AList.mem_lookup_iff.2 he
    have huid : u'.uid = uid := hk uid u' hlookup
    exact huid.symm ▸ hlookup
  · intro h
    exact ⟨⟨u.uid, u⟩, AList.mem_lookup_iff.1 h, rfl⟩

/-! ### Saving a row -/

theorem standing_save (s : Store) (row : UserRow) (uid : Uid) :
    (s.save row).standing uid = if uid = row.uid then some (standingOf row)
      else s.standing uid := by
  unfold Store.standing Store.save
  split
  · rename_i h
    rw [h, AList.lookup_insert, Option.map_some]
  · rename_i h
    rw [AList.lookup_insert_ne h]

theorem wellKeyed_save (hk : s.WellKeyed) (row : UserRow) : (s.save row).WellKeyed :=
  Table.keyed_insert hk rfl

theorem alike_save (h : s.standing row.uid = some (standingOf row)) : Alike s (s.save row) where
  methods := rfl
  avatars := rfl
  uploader := rfl
  standing uid := by
    rw [standing_save]
    split
    · rename_i heq
      rw [heq, h]
    · rfl

theorem alike_recomputeWins (hk : s.WellKeyed) : Alike s (s.recomputeWins d uid) := by
  unfold Store.recomputeWins
  cases hu : s.users.lookup uid with
  | none => exact .refl s
  | some u =>
    rw [Option.bind_some, UserRows.recomputeWins]
    split_ifs with hwins
    · exact .refl s
    · refine alike_save ?_
      obtain rfl : u.uid = uid := hk uid u hu
      have hstands : s.standing u.uid = some (standingOf u) := standing_of_lookup hu
      exact hstands

theorem alike_reassignCooptedBy (hk : s.WellKeyed) (fromUserUid toUserUid : Uid) :
    Alike s (s.reassignCooptedBy fromUserUid toUserUid) := by
  unfold Store.reassignCooptedBy
  have hrows : ∀ u ∈ s.rows.filter (fun u => u.cooptedBy = some fromUserUid),
      s.standing u.uid = some (standingOf u) := fun u hu =>
    standing_of_lookup ((mem_store_rows hk).1 (List.mem_of_mem_filter hu))
  revert hrows
  generalize s.rows.filter (fun u => u.cooptedBy = some fromUserUid) = rows
  clear hk
  induction rows generalizing s with
  | nil => exact fun _ => .refl s
  | cons u rows ih =>
    intro hrows
    have hu : Alike s (s.save { u with cooptedBy := some toUserUid }) :=
      alike_save (hrows u (List.mem_cons_self ..))
    refine hu.trans (ih fun u' hu' => ?_)
    rw [hu.standing]
    exact hrows u' (List.mem_cons_of_mem _ hu')

theorem indexed_storeOf (rows : List UserRow) (methods : List AuthRow)
    (hids : ∀ u ∈ (storeOf rows methods).rows, ∀ u' ∈ (storeOf rows methods).rows,
      given u.veknId ≠ none → given u.veknId = given u'.veknId → u.uid = u'.uid)
    (hmethods : (methods.map Prod.fst).Nodup) : (storeOf rows methods).Indexed := by
  have hsaved : ∀ (rows : List UserRow) (s : Store), s.WellKeyed →
      (rows.foldl Store.save s).WellKeyed ∧ (rows.foldl Store.save s).methods = s.methods := by
    intro rows
    induction rows with
    | nil => exact fun s hk => ⟨hk, rfl⟩
    | cons row rows ih => exact fun s hk => ih (s.save row) (wellKeyed_save hk row)
  obtain ⟨hk, hsame⟩ := hsaved rows ⟨∅, methods, ∅, id⟩ fun uid u hu => by cases hu
  have hmem : ∀ {uid u}, (storeOf rows methods).users.lookup uid = some u →
      u ∈ (storeOf rows methods).rows ∧ u.uid = uid := by
    intro uid u hu
    obtain rfl : u.uid = uid := hk uid u hu
    exact ⟨(mem_store_rows hk).2 hu, rfl⟩
  refine ⟨hk, fun uid u uid' u' hu hu' v hv hv' => ?_, hsame.symm ▸ hmethods⟩
  have hsome : given u.veknId ≠ none := by simp [hv]
  have huid := hids u (hmem hu).1 u' (hmem hu').1 hsome (hv.trans hv'.symm)
  exact (hmem hu).2.symm.trans (huid.trans (hmem hu').2)

/-! ### Moving sign-ins -/

theorem writeMethod_owned {rows : List AuthRow} (hrows : (rows.map Prod.fst).Nodup)
    (hm : m ∈ rows) :
    writeMethod rows (owned uid m) = rows.map fun m' => if m' = m then owned uid m else m' := by
  refine List.map_congr_left fun m' hm' => ?_
  have hiff : m'.1 = m.1 ↔ m' = m :=
    ⟨fun h => List.inj_on_of_nodup_map hrows hm' hm h, fun h => congrArg Prod.fst h⟩
  exact if_congr hiff rfl rfl

theorem foldl_writeMethod {rows : List AuthRow} (hrows : (rows.map Prod.fst).Nodup)
    (moved : List AuthRow) (hmoved : (moved.map Prod.fst).Nodup) (hsub : moved ⊆ rows) :
    moved.foldl (fun rows m => writeMethod rows (owned uid m)) rows =
      rows.map fun m => if m ∈ moved then owned uid m else m := by
  induction moved generalizing rows with
  | nil => simp
  | cons m moved ih =>
    rw [List.map_cons, List.nodup_cons] at hmoved
    have hm : m ∈ rows := hsub (List.mem_cons_self ..)
    have hkeys : (writeMethod rows (owned uid m)).map Prod.fst = rows.map Prod.fst := by
      rw [writeMethod_owned hrows hm, List.map_map]
      refine List.map_congr_left fun m' _ => ?_
      by_cases h : m' = m <;> simp [h, owned]
    have hother : ∀ m' ∈ moved, m'.1 ≠ m.1 := fun m' hm' h =>
      hmoved.1 (List.mem_map.2 ⟨m', hm', h⟩)
    have hsub' : moved ⊆ writeMethod rows (owned uid m) := fun m' hm' => by
      rw [writeMethod_owned hrows hm]
      refine List.mem_map.2 ⟨m', hsub (List.mem_cons_of_mem _ hm'), if_neg ?_⟩
      exact fun h => hother m' hm' (congrArg Prod.fst h)
    rw [List.foldl_cons, ih (hkeys ▸ hrows) hmoved.2 hsub', writeMethod_owned hrows hm,
      List.map_map]
    refine List.map_congr_left fun m' _ => ?_
    by_cases h : m' = m
    · have hnot : owned uid m ∉ moved := fun hmem => hother _ hmem rfl
      simp [h, hnot]
    · simp [h]

theorem reassignAuthMethods_methods (hs : (s.methods.map Prod.fst).Nodup)
    (fromUserUid toUserUid : Uid) :
    (s.reassignAuthMethods fromUserUid toUserUid).methods =
      s.methods.map fun m => if m.2.userUid = fromUserUid then owned toUserUid m else m := by
  have hfold := @foldl_writeMethod toUserUid _ hs (methodsOf s.methods fromUserUid)
    (hs.sublist (List.filter_sublist.map _)) List.filter_sublist.subset
  refine hfold.trans (List.map_congr_left fun m hm => ?_)
  simp [methodsOf, hm]

theorem nodup_reassignAuthMethods (hs : (s.methods.map Prod.fst).Nodup)
    (fromUserUid toUserUid : Uid) :
    ((s.reassignAuthMethods fromUserUid toUserUid).methods.map Prod.fst).Nodup := by
  have hkeys : (s.reassignAuthMethods fromUserUid toUserUid).methods.map Prod.fst =
      s.methods.map Prod.fst := by
    rw [reassignAuthMethods_methods hs, List.map_map]
    refine List.map_congr_left fun m _ => ?_
    by_cases h : m.2.userUid = fromUserUid <;> simp [h, owned]
  rwa [hkeys]

/-! ### Merging -/

/-- What a merge makes of the tables. -/
structure Merged (s s' : Store) (d : Draws) (keep absorbed : UserRow) : Prop where
  bare : given absorbed.veknId = none
  methods : s'.methods = (s.reassignAuthMethods absorbed.uid keep.uid).methods
  avatars : s'.avatars = s.avatars
  uploader : s'.uploader = (s.reassignAuthMethods absorbed.uid keep.uid).uploader
  wellKeyed : s'.WellKeyed
  standing : ∀ uid, s'.standing uid =
    if uid = absorbed.uid then some { standingOf absorbed with deletedAt := some d.now }
    else if uid = keep.uid then some (standingOf (merged keep absorbed))
    else s.standing uid

theorem merged_of_mergeInto (hk : s.WellKeyed)
    (habsorbed : s.users.lookup deleteUid = some absorbed)
    (hne : keep.uid ≠ deleteUid) (h : s.mergeInto d keep deleteUid = .ok s') :
    Merged s s' d keep absorbed := by
  obtain rfl : absorbed.uid = deleteUid := hk deleteUid absorbed habsorbed
  rw [Store.mergeInto, if_neg hne, habsorbed] at h
  simp only [UserRows.mergeUsers, bind_eq_ok, ensure_eq_ok, exists_const, pure_eq_ok] at h
  obtain ⟨saved, ⟨hbare, -, rfl⟩, deleted, hdeleted, rfl⟩ := h
  set s₁ := (s.save (merged keep absorbed)).reassignAuthMethods absorbed.uid keep.uid with hs₁
  have hk₁ : s₁.WellKeyed := wellKeyed_save hk (merged keep absorbed)
  have hwins : Alike s₁ (s₁.recomputeWins d keep.uid) := alike_recomputeWins hk₁
  have halike := hwins.trans (alike_reassignCooptedBy (hwins.wellKeyed hk₁) absorbed.uid keep.uid)
  have hk₂ := halike.wellKeyed hk₁
  set s₂ := (s₁.recomputeWins d keep.uid).reassignCooptedBy absorbed.uid keep.uid with hs₂
  have hstanding₁ : ∀ uid, s₁.standing uid =
      if uid = keep.uid then some (standingOf (merged keep absorbed)) else s.standing uid :=
    standing_save s (merged keep absorbed)
  have hrow : s₂.standing absorbed.uid = some (standingOf absorbed) := by
    rw [halike.standing, hstanding₁, if_neg (Ne.symm hne)]
    exact standing_of_lookup habsorbed
  obtain ⟨u, hu, hstands⟩ := lookup_of_standing hrow
  have huid : u.uid = absorbed.uid := congrArg Standing.uid hstands
  rw [Store.softDeleteUser, hu] at hdeleted
  simp only [bind_eq_ok, ensure_eq_ok, exists_const, pure_eq_ok] at hdeleted
  obtain ⟨-, rfl⟩ := hdeleted
  refine ⟨hbare, halike.methods, halike.avatars, halike.uploader,
    wellKeyed_save hk₂ _, fun uid => ?_⟩
  rw [Option.getD_some, standing_save, halike.standing, hstanding₁]
  have hset : standingOf { u with deletedAt := some d.now, modified := d.now } =
      { standingOf absorbed with deletedAt := some d.now } := by
    rw [← hstands]
    rfl
  rw [hset]
  exact if_congr (by rw [huid]) rfl rfl

/-! ### Splitting -/

/-- What a split makes of the tables. -/
structure Split (s s' : Store) (d : Draws) (row : UserRow) : Prop where
  methods : s'.methods = (s.reassignAuthMethods row.uid d.newUid).methods
  avatars : s'.avatars = s.avatars
  uploader : s'.uploader = (s.reassignAuthMethods row.uid d.newUid).uploader
  wellKeyed : s'.WellKeyed
  standing : ∀ uid, s'.standing uid =
    if uid = row.uid then some { standingOf row with avatarPath := none }
    else if uid = d.newUid then some { standingOf row with uid := d.newUid, veknId := none }
    else s.standing uid

theorem split_detach (hk : s.WellKeyed) (d : Draws) (row : UserRow) :
    Split s (s.detach d row) d row where
  methods := rfl
  avatars := rfl
  uploader := rfl
  wellKeyed := wellKeyed_save (wellKeyed_save hk (Store.personalAccount d row))
    (Store.veknRecord d row)
  standing uid := by
    have hsaved :
        ((s.save (Store.personalAccount d row)).reassignAuthMethods row.uid d.newUid).standing uid =
          (s.save (Store.personalAccount d row)).standing uid := rfl
    rw [Store.detach, standing_save, hsaved, standing_save]
    rfl

end Frames

end Archon.Accounts

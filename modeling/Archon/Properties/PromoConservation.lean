import Archon.Backend.PromoStock
import Archon.Backend.Scenario

/-!
# Promo stock is conserved (`promo_stock.py:49`)

What the recompute collects for a promo is a tally of the movements of its ledger entries and of
the attributed reports. It is summed, stored under the promo and, read across, under the members.
A second pass finds everything as it would write it.
-/

namespace Archon.PromoStock
open Engine Backend UserRows CommunityLinks

/-! ### The movements of one promo -/

/-- Who is credited or debited by an entry, the holding added. -/
def movements (e : LedgerEntry) : List (Uid × Holding) :=
  if e.kind = .intake then [(e.fromUid, (e.qty, e.qty))]
  else (if e.kind = .assignment then
      (given e.toUid).toList.map fun assignee => (assignee, (e.qty, e.qty))
    else []) ++ [(e.fromUid, (0, -e.qty))]

/-- All movements of a promo: its entries, then the reports. -/
def StockStore.movements (s : StockStore) (promo : Uid) : List (Uid × Holding) :=
  (s.ledger.filter fun e => e.promoUid = promo).flatMap PromoStock.movements ++
    (getTournamentPromoAttributions s [promo]).map fun a => (a.2.1, (0, -a.2.2))

section Collected

variable {s : StockStore} {targets : List Uid} {promo : Uid}

theorem hold_apply (h : Holdings) (promo' holder : Uid) (amount : Holding) (promo : Uid) :
    h.hold promo' holder amount promo =
      if promo' = promo then Tally.add (h promo) holder amount else h promo := by
  unfold Holdings.hold
  by_cases hpromo : promo' = promo
  · subst hpromo
    rw [Function.update_self, if_pos rfl]
  · rw [Function.update_of_ne (Ne.symm hpromo), if_neg hpromo]

theorem countEntry_apply (h : Holdings) (e : LedgerEntry) (promo : Uid) :
    countEntry h e promo = if e.promoUid = promo then
      (movements e).foldl (fun t kv => Tally.add t kv.1 kv.2) (h promo) else h promo := by
  unfold countEntry movements
  by_cases hintake : e.kind = .intake
  · simp only [hintake, if_true, hold_apply, List.foldl_cons, List.foldl_nil]
  · by_cases hassign : e.kind = .assignment
    · cases hto : given e.toUid with
      | none => simp [hassign, hold_apply]
      | some assignee => by_cases hpromo : e.promoUid = promo <;>
          simp [hassign, hold_apply, hpromo]
    · simp [hintake, hassign, hold_apply]

theorem foldl_countEntry (h : Holdings) (entries : List LedgerEntry) (promo : Uid) :
    entries.foldl countEntry h promo =
      ((entries.filter fun e => e.promoUid = promo).flatMap movements).foldl
        (fun t kv => Tally.add t kv.1 kv.2) (h promo) := by
  induction entries generalizing h with
  | nil => rfl
  | cons e entries ih =>
    rw [List.foldl_cons, ih, countEntry_apply]
    by_cases hpromo : e.promoUid = promo
    · rw [if_pos hpromo, List.filter_cons_of_pos (by simpa), List.flatMap_cons, List.foldl_append]
    · rw [if_neg hpromo, List.filter_cons_of_neg (by simpa)]

theorem foldl_countAttribution (h : Holdings) (as : List (Uid × Uid × ℤ)) (promo : Uid) :
    as.foldl countAttribution h promo =
      ((as.filter fun a => a.1 = promo).map fun a => (a.2.1, ((0, -a.2.2) : Holding))).foldl
        (fun t kv => Tally.add t kv.1 kv.2) (h promo) := by
  induction as generalizing h with
  | nil => rfl
  | cons a as ih =>
    rw [List.foldl_cons, ih, countAttribution, hold_apply]
    by_cases hpromo : a.1 = promo
    · rw [if_pos hpromo, List.filter_cons_of_pos (by simpa), List.map_cons, List.foldl_cons]
    · rw [if_neg hpromo, List.filter_cons_of_neg (by simpa)]

theorem filter_attributions (s : StockStore) (hpromo : promo ∈ targets) :
    (getTournamentPromoAttributions s targets).filter (fun a => a.1 = promo) =
      getTournamentPromoAttributions s [promo] := by
  unfold getTournamentPromoAttributions
  rw [List.filter_flatMap]
  refine List.flatMap_congr fun t _ => ?_
  cases given t.stockSourceUid with
  | none => rfl
  | some source =>
    rw [List.filter_filterMap]
    refine List.filterMap_congr fun r _ => ?_
    cases r.promoUid with
    | none => rfl
    | some p =>
      by_cases hp : p = promo
      · simp [Option.filter, hp, hpromo]
      · by_cases hmem : p ∈ targets <;> simp [Option.filter, hp, hmem]

theorem collected_apply (s : StockStore) (hpromo : promo ∈ targets) :
    collected s targets promo = Tally.ofList (s.movements promo) := by
  have hentries : (s.ledger.filter fun e => e.promoUid ∈ targets).filter
      (fun e => e.promoUid = promo) = s.ledger.filter fun e => e.promoUid = promo := by
    rw [List.filter_filter]
    refine List.filter_congr fun e _ => ?_
    by_cases he : e.promoUid = promo <;> simp [he, hpromo]
  rw [collected, foldl_countAttribution, foldl_countEntry, hentries, filter_attributions s hpromo,
    ← List.foldl_append]
  rfl

theorem nodup_collected (s : StockStore) (hpromo : promo ∈ targets) :
    ((collected s targets promo).map Prod.fst).Nodup := by
  rw [collected_apply s hpromo]
  exact Tally.nodup_keys_ofList _

end Collected

/-! ### What the movements sum to -/

/-- Copies of a promo moved by the entries of a kind. -/
def StockStore.copies (s : StockStore) (promo : Uid) (p : LedgerEntry → Bool) : ℤ :=
  ((s.ledger.filter fun e => e.promoUid == promo && p e).map LedgerEntry.qty).sum

def StockStore.intakes (s : StockStore) (promo : Uid) : ℤ :=
  s.copies promo fun e => e.kind == .intake

def StockStore.distributions (s : StockStore) (promo : Uid) : ℤ :=
  s.copies promo fun e => e.kind == .distribution

/-- Assignments without a recipient. -/
def StockStore.unassigned (s : StockStore) (promo : Uid) : ℤ :=
  s.copies promo fun e => e.kind == .assignment && given e.toUid == none

/-- Copies live tournaments with a stock source report. -/
def StockStore.attributed (s : StockStore) (promo : Uid) : ℤ :=
  ((getTournamentPromoAttributions s [promo]).map fun a => a.2.2).sum

theorem sum_movements (e : LedgerEntry) : ((movements e).map fun m => m.2.2).sum =
    (if e.kind == .intake then e.qty else 0) - (if e.kind == .distribution then e.qty else 0) -
      (if e.kind == .assignment && given e.toUid == none then e.qty else 0) := by
  unfold movements
  cases hkind : e.kind with
  | intake => simp
  | distribution => simp
  | assignment => cases hto : given e.toUid <;> simp

theorem copies_cons (s : StockStore) (e : LedgerEntry) (promo : Uid) (p : LedgerEntry → Bool) :
    ({ s with ledger := e :: s.ledger } : StockStore).copies promo p =
      (if e.promoUid = promo then if p e then e.qty else 0 else 0) + s.copies promo p := by
  unfold StockStore.copies
  by_cases hpromo : e.promoUid = promo
  · cases hp : p e with
    | true => rw [List.filter_cons_of_pos (by simp [hpromo, hp])]; simp [hpromo]
    | false => rw [List.filter_cons_of_neg (by simp [hp])]; simp
  · rw [List.filter_cons_of_neg (by simp [hpromo])]
    simp [hpromo]

theorem sum_ledger (s : StockStore) (promo : Uid) :
    (((s.ledger.filter fun e => e.promoUid = promo).flatMap movements).map fun m => m.2.2).sum =
      s.intakes promo - s.distributions promo - s.unassigned promo := by
  obtain ⟨promos, users, ledger, reports⟩ := s
  induction ledger with
  | nil => rfl
  | cons e ledger ih =>
    have hcons := copies_cons ⟨promos, users, ledger, reports⟩ e promo
    unfold StockStore.intakes StockStore.distributions StockStore.unassigned at ih ⊢
    rw [hcons, hcons, hcons]
    by_cases hpromo : e.promoUid = promo
    · rw [List.filter_cons_of_pos (by simpa), List.flatMap_cons, List.map_append, List.sum_append,
        ih, sum_movements]
      simp only [hpromo, if_true]
      ring
    · rw [List.filter_cons_of_neg (by simpa), ih]
      simp [hpromo]

theorem sum_attributions (as : List (Uid × Uid × ℤ)) :
    ((as.map fun a => (a.2.1, ((0, -a.2.2) : Holding))).map fun m => m.2.2).sum =
      -(as.map fun a => a.2.2).sum := by
  induction as with
  | nil => rfl
  | cons a as ih =>
    simp only [List.map_cons, List.sum_cons, ih]
    ring

theorem sum_remaining (s : StockStore) (promo : Uid) :
    ((Tally.ofList (s.movements promo)).map fun h => h.2.2).sum =
      s.intakes promo - s.distributions promo - s.unassigned promo - s.attributed promo := by
  have hsnd : ∀ xs : List (Uid × Holding),
      (xs.map fun h => h.2.2).sum = ((xs.map Prod.snd).sum).2 := by
    intro xs
    induction xs with
    | nil => rfl
    | cons x xs ih => rw [List.map_cons, List.sum_cons, ih, List.map_cons, List.sum_cons,
      Prod.snd_add]
  rw [hsnd, Tally.sum_ofList, ← hsnd, StockStore.movements, List.map_append, List.sum_append,
    sum_ledger, sum_attributions]
  exact (sub_eq_add_neg _ _).symm

/-! ### One member -/

section Restock

variable {stock : List (Uid × ℤ)} {targets : List Uid} {now : Stamp} {h : Holdings}

theorem get_restock (stock : List (Uid × ℤ)) (entry : Uid × Option ℤ) (promo : Uid) :
    Fields.get (restock stock entry) promo =
      if entry.1 = promo then entry.2 else Fields.get stock promo := by
  obtain ⟨key, copies⟩ := entry
  cases copies with
  | none =>
    have hnone : restock stock (key, none) = Fields.without [key] stock := by
      simp [restock, Fields.without]
    rw [hnone]
    by_cases hkey : key = promo
    · rw [if_pos hkey, Fields.get_without_none (by simp [hkey])]
    · rw [if_neg hkey, Fields.get_without (by simp [Ne.symm hkey])]
  | some copies =>
    by_cases hmem : key ∈ stock.map Prod.fst
    · have hsome : restock stock (key, some copies) = Fields.change [key]
        (fun _ => copies) stock := by
        simp only [restock, if_pos hmem, Fields.change, List.mem_singleton]
      rw [hsome]
      by_cases hkey : key = promo
      · obtain ⟨v, hv⟩ := Option.ne_none_iff_exists'.1
          (mt Fields.get_eq_none_iff.1 (not_not.2 hmem))
        rw [if_pos hkey, Fields.get_change_mem (by simp [hkey]), ← hkey, hv]
        rfl
      · rw [if_neg hkey, Fields.get_change (by simp [Ne.symm hkey])]
    · have hsome : restock stock (key, some copies) = stock ++ [(key, copies)] := if_neg hmem
      rw [hsome, Fields.get_append]
      by_cases hkey : key = promo
      · rw [if_pos hkey, Fields.get_eq_none_iff.2 (hkey ▸ hmem), Option.none_or]
        simp [Fields.get, hkey]
      · have hlast : Fields.get [(key, copies)] promo = none := by simp [Fields.get, hkey]
        rw [if_neg hkey, hlast, Option.or_none]

/-- The dictionary already reads the value everywhere. -/
def Stocked (stock : List (Uid × ℤ)) (entry : Uid × Option ℤ) : Prop :=
  entry.2.elim (entry.1 ∉ stock.map Prod.fst) fun copies =>
    entry.1 ∈ stock.map Prod.fst ∧ ∀ e ∈ stock, e.1 = entry.1 → e.2 = copies

theorem restock_of_stocked {entry : Uid × Option ℤ} (hs : Stocked stock entry) :
    restock stock entry = stock := by
  obtain ⟨key, copies⟩ := entry
  cases copies with
  | none =>
    refine List.filter_eq_self.2 fun e he => decide_eq_true ?_
    rintro rfl
    exact hs (List.mem_map_of_mem he)
  | some copies =>
    have hkeep : ∀ e ∈ stock, (if e.1 = key then (e.1, copies) else e) = e := by
      intro e he
      split
      · rw [← hs.2 e he ‹_›]
      · rfl
    exact (if_pos hs.1).trans ((List.map_congr_left hkeep).trans (List.map_id' stock))

theorem stocked_restock (stock : List (Uid × ℤ)) (entry : Uid × Option ℤ) :
    Stocked (restock stock entry) entry := by
  obtain ⟨key, copies⟩ := entry
  cases copies with
  | none =>
    intro hmem
    obtain ⟨e, he, hkey⟩ := List.mem_map.1 hmem
    exact of_decide_eq_true (List.mem_filter.1 he).2 hkey
  | some copies =>
    by_cases hmem : key ∈ stock.map Prod.fst
    · have hsome : restock stock (key, some copies) =
          stock.map fun e => if e.1 = key then (e.1, copies) else e := if_pos hmem
      have hname : ∀ e : Uid × ℤ, (if e.1 = key then (e.1, copies) else e).1 = e.1 := by
        intro e
        split <;> rfl
      rw [hsome]
      constructor
      · rw [List.map_map, show Prod.fst ∘ (fun e : Uid × ℤ =>
          if e.1 = key then (e.1, copies) else e) = Prod.fst from funext hname]
        exact hmem
      · intro e he hkey
        obtain ⟨e', he', rfl⟩ := List.mem_map.1 he
        rw [hname] at hkey
        rw [if_pos hkey]
    · have hsome : restock stock (key, some copies) = stock ++ [(key, copies)] := if_neg hmem
      rw [hsome]
      constructor
      · simp
      · intro e he (hkey : e.1 = key)
        rcases List.mem_append.1 he with he | he
        · exact absurd (List.mem_map_of_mem he) (hkey ▸ hmem)
        · rw [List.mem_singleton.1 he]

theorem Stocked.restock_ne {entry : Uid × Option ℤ} (hs : Stocked stock entry)
    {other : Uid × Option ℤ} (hne : other.1 ≠ entry.1) : Stocked (restock stock other) entry := by
  have hmem : ∀ e : Uid × ℤ, e.1 = entry.1 → (e ∈ restock stock other ↔ e ∈ stock) := by
    intro e he
    have heother : e.1 ≠ other.1 := fun h => hne (h.symm.trans he)
    obtain ⟨key, copies⟩ := other
    cases copies with
    | none => simp [restock, heother]
    | some copies =>
      by_cases hkey : key ∈ stock.map Prod.fst
      · have hsome : restock stock (key, some copies) =
            stock.map fun e => if e.1 = key then (e.1, copies) else e := if_pos hkey
        rw [hsome, List.mem_map]
        constructor
        · rintro ⟨e', he', rfl⟩
          split at heother
          · exact absurd ‹_› heother
          · rwa [if_neg heother]
        · exact fun h => ⟨e, h, if_neg heother⟩
      · have hsome : restock stock (key, some copies) = stock ++ [(key, copies)] := if_neg hkey
        have hlast : e ≠ (key, copies) := fun h => heother (congrArg Prod.fst h)
        rw [hsome, List.mem_append, List.mem_singleton, or_iff_left hlast]
  have hkeys : entry.1 ∈ (restock stock other).map Prod.fst ↔ entry.1 ∈ stock.map Prod.fst := by
    simp only [List.mem_map]
    constructor
    · rintro ⟨e, he, hkey⟩
      exact ⟨e, (hmem e hkey).1 he, hkey⟩
    · rintro ⟨e, he, hkey⟩
      exact ⟨e, (hmem e hkey).2 he, hkey⟩
  obtain ⟨key, copies⟩ := entry
  cases copies with
  | none => exact fun h => hs (hkeys.1 h)
  | some copies => exact ⟨hkeys.2 hs.1, fun e he hkey => hs.2 e ((hmem e hkey).1 he) hkey⟩

theorem stocked_foldl_restock (stock : List (Uid × ℤ)) (value : Uid → Option ℤ) (promo : Uid)
    (hpromo : promo ∈ targets ∨ Stocked stock (promo, value promo)) :
    Stocked ((targets.map fun p => (p, value p)).foldl restock stock) (promo, value promo) := by
  induction targets generalizing stock with
  | nil => exact hpromo.resolve_left List.not_mem_nil
  | cons p targets ih =>
    rw [List.map_cons, List.foldl_cons]
    by_cases hp : p = promo
    · subst hp
      exact ih _ (.inr (stocked_restock stock (p, value p)))
    · refine ih _ ?_
      rcases hpromo with hmem | hs
      · exact .inl ((List.mem_cons.1 hmem).resolve_left (Ne.symm hp))
      · exact .inr (hs.restock_ne hp)

theorem foldl_restock_of_stocked {entries : List (Uid × Option ℤ)}
    (hs : ∀ entry ∈ entries, Stocked stock entry) : entries.foldl restock stock = stock := by
  induction entries with
  | nil => rfl
  | cons entry entries ih =>
    rw [List.foldl_cons, restock_of_stocked (hs entry List.mem_cons_self)]
    exact ih fun entry' h => hs entry' (List.mem_cons_of_mem _ h)

theorem get_foldl_restock (stock : List (Uid × ℤ)) (value : Uid → Option ℤ) (promo : Uid) :
    Fields.get ((targets.map fun p => (p, value p)).foldl restock stock) promo =
      if promo ∈ targets then value promo else Fields.get stock promo := by
  induction targets generalizing stock with
  | nil => rfl
  | cons p targets ih =>
    rw [List.map_cons, List.foldl_cons, ih, get_restock]
    by_cases hp : p = promo
    · simp [hp]
    · simp [hp, Ne.symm hp]

/-! ### The pass over a member -/

theorem promoStock_settleUser (row : UserRow) : (settleUser now h targets row).promoStock =
    (stocksOf h targets row.uid).foldl restock row.promoStock := by
  unfold settleUser recomputePromoStock
  dsimp only
  split
  · rename_i heq
    exact heq.symm
  · rfl

theorem settleUser_self {row : UserRow}
    (hs : ∀ entry ∈ stocksOf h targets row.uid, Stocked row.promoStock entry) :
    settleUser now h targets row = row := by
  have hsame := foldl_restock_of_stocked hs
  unfold settleUser recomputePromoStock
  dsimp only
  rw [if_pos hsame]
  rfl

theorem settleUser_uid (row : UserRow) : (settleUser now h targets row).uid = row.uid ∧
    (settleUser now h targets row).deletedAt = row.deletedAt := by
  unfold settleUser recomputePromoStock
  dsimp only
  split
  · exact ⟨rfl, rfl⟩
  · exact ⟨rfl, rfl⟩

theorem get_settleUser (row : UserRow) (promo : Uid) :
    Fields.get (settleUser now h targets row).promoStock promo =
      if promo ∈ targets then (Fields.get (h promo) row.uid).map Prod.snd
      else Fields.get row.promoStock promo := by
  rw [promoStock_settleUser]
  exact get_foldl_restock row.promoStock (fun p => (Fields.get (h p) row.uid).map Prod.snd) promo

theorem settleUser_settleUser (later : Stamp) (row : UserRow) :
    settleUser later h targets (settleUser now h targets row) = settleUser now h targets row := by
  refine settleUser_self fun entry hentry => ?_
  rw [(settleUser_uid row).1] at hentry
  obtain ⟨promo, hpromo, rfl⟩ := List.mem_map.1 hentry
  rw [promoStock_settleUser]
  exact stocked_foldl_restock row.promoStock
    (fun p => (Fields.get (h p) row.uid).map Prod.snd) promo (.inl hpromo)

end Restock

/-! ### The whole pass -/

section Pass

variable {now later : Stamp} {s t : StockStore} {promoUids : Option (List Uid)}
variable {targets : List Uid} {promo : Uid}

/-- The row of a promo after the pass. -/
def promoAfter (now : Stamp) (s : StockStore) (targets : List Uid) (row : PromoRow) : PromoRow :=
  if row.uid ∈ targets then settlePromo now (collected s targets) row else row

/-- The row of a member after the pass. -/
def userAfter (now : Stamp) (s : StockStore) (targets : List Uid) (row : UserRow) : UserRow :=
  if row.uid ∈ stockedUsers s (collected s targets) targets then
    settleUser now (collected s targets) targets row
  else row

theorem recompute_eq (now : Stamp) (promoUids : Option (List Uid)) (s : StockStore) :
    recompute now promoUids s =
      { s with
        promos := s.promos.map (promoAfter now s (targetUids s promoUids))
        users := s.users.map (userAfter now s (targetUids s promoUids)) } := by
  unfold recompute
  dsimp only
  split
  · rename_i hnone
    have hpromos : s.promos.map (promoAfter now s []) = s.promos := by
      conv_rhs => rw [← List.map_id s.promos]
      exact List.map_congr_left fun row _ => if_neg List.not_mem_nil
    have hkeyed : stockedUsers s (collected s []) [] = [] := by
      simp [stockedUsers, getUsersWithPromoStockKeys]
    have husers : s.users.map (userAfter now s []) = s.users := by
      conv_rhs => rw [← List.map_id s.users]
      refine List.map_congr_left fun row _ => ?_
      rw [userAfter, hkeyed]
      exact if_neg List.not_mem_nil
    rw [hnone, hpromos, husers]
  · rfl

/-! ### Promos -/

theorem settlePromo_uid (h : Holdings) (row : PromoRow) : (settlePromo now h row).uid = row.uid ∧
    (settlePromo now h row).deletedAt = row.deletedAt := by
  unfold settlePromo
  split
  · exact ⟨rfl, rfl⟩
  · exact ⟨rfl, rfl⟩

theorem promoAfter_uid (row : PromoRow) : (promoAfter now s targets row).uid = row.uid ∧
    (promoAfter now s targets row).deletedAt = row.deletedAt := by
  unfold promoAfter
  split
  · exact settlePromo_uid _ row
  · exact ⟨rfl, rfl⟩

theorem holdings_settlePromo (h : Holdings) (row : PromoRow) :
    (settlePromo now h row).holdings.Perm (h row.uid) := by
  unfold settlePromo
  split
  · assumption
  · exact List.Perm.refl _

theorem settlePromo_self {h : Holdings} {row : PromoRow} (hrow : row.holdings.Perm (h row.uid)) :
    settlePromo now h row = row := if_pos hrow

theorem promoAfter_promoAfter (row : PromoRow) :
    promoAfter later s targets (promoAfter now s targets row) = promoAfter now s targets row := by
  unfold promoAfter
  by_cases hrow : row.uid ∈ targets
  · have huid := (@settlePromo_uid now (collected s targets) row).1
    rw [if_pos hrow, huid, if_pos hrow]
    refine settlePromo_self ?_
    rw [huid]
    exact holdings_settlePromo _ row
  · rw [if_neg hrow, if_neg hrow]

/-! ### Targets -/

theorem mem_targetUids {uid : Uid} : uid ∈ targetUids s promoUids ↔
    (∃ row ∈ s.promos, row.deletedAt = none ∧ row.uid = uid) ∧
      ∀ wanted ∈ promoUids, uid ∈ wanted := by
  cases promoUids <;> simp [targetUids, and_assoc]

theorem targetUids_recompute (others : Option (List Uid)) :
    targetUids (recompute now promoUids s) others = targetUids s others := by
  have hlive : ∀ rows : List PromoRow,
      (((rows.map (promoAfter now s (targetUids s promoUids))).filter fun p =>
        p.deletedAt = none).map PromoRow.uid) =
          (rows.filter fun p => p.deletedAt = none).map PromoRow.uid := by
    intro rows
    rw [List.filter_map, List.map_map]
    refine congrArg₂ List.map (funext fun row => promoAfter_uid row |>.1) ?_
    exact List.filter_congr fun row _ => by rw [Function.comp_apply, (promoAfter_uid row).2]
  rw [recompute_eq, targetUids, hlive]
  rfl

theorem collected_recompute : collected (recompute now promoUids s) targets =
    collected s targets := by
  rw [recompute_eq]
  rfl

/-! ### Members -/

theorem userAfter_uid (row : UserRow) : (userAfter now s targets row).uid = row.uid ∧
    (userAfter now s targets row).deletedAt = row.deletedAt := by
  unfold userAfter
  split
  · exact settleUser_uid row
  · exact ⟨rfl, rfl⟩

theorem get_userAfter {row : UserRow} (hrow : row ∈ s.users) (hlive : row.deletedAt = none)
    (promo : Uid) : Fields.get (userAfter now s targets row).promoStock promo =
      if promo ∈ targets then
        (Fields.get (Tally.ofList (s.movements promo)) row.uid).map Prod.snd
      else Fields.get row.promoStock promo := by
  unfold userAfter
  by_cases hpromo : promo ∈ targets
  · rw [if_pos hpromo, ← collected_apply s hpromo]
    split
    · rw [get_settleUser, if_pos hpromo]
    · rename_i hout
      rw [stockedUsers, List.mem_append, not_or] at hout
      have hholder : row.uid ∉ (collected s targets promo).map Prod.fst := fun h =>
        hout.1 (List.mem_flatMap.2 ⟨promo, hpromo, h⟩)
      have hkey : promo ∉ row.promoStock.map Prod.fst := fun h =>
        hout.2 (List.mem_map.2 ⟨row, List.mem_filter.2
          ⟨hrow, decide_eq_true ⟨hlive, promo, h, hpromo⟩⟩, rfl⟩)
      rw [Fields.get_eq_none_iff.2 hholder, Fields.get_eq_none_iff.2 hkey]
      rfl
  · rw [if_neg hpromo]
    split
    · rw [get_settleUser, if_neg hpromo]
    · rfl

theorem userAfter_userAfter (row : UserRow) :
    userAfter later (recompute now promoUids s) (targetUids s promoUids)
      (userAfter now s (targetUids s promoUids) row) =
        userAfter now s (targetUids s promoUids) row := by
  set targets := targetUids s promoUids with htargets
  have hcollected : collected (recompute now promoUids s) targets = collected s targets :=
    collected_recompute
  by_cases hvisited : row.uid ∈ stockedUsers s (collected s targets) targets
  · have hrow' : userAfter now s targets row = settleUser now (collected s targets) targets row :=
      if_pos hvisited
    rw [hrow', userAfter, hcollected]
    split
    · exact settleUser_settleUser later row
    · rfl
  · have hrow' : userAfter now s targets row = row := if_neg hvisited
    rw [hrow', userAfter, hcollected]
    refine if_neg fun hlater => hvisited ?_
    rw [stockedUsers, List.mem_append] at hlater ⊢
    refine hlater.imp_right fun hkeyed => ?_
    obtain ⟨row₂, hrow₂, huid⟩ := List.mem_map.1 hkeyed
    obtain ⟨hmem, hcond⟩ := List.mem_filter.1 hrow₂
    rw [recompute_eq] at hmem
    obtain ⟨row₁, hrow₁, rfl⟩ := List.mem_map.1 hmem
    rw [(userAfter_uid row₁).1] at huid
    have hsame : userAfter now s targets row₁ = row₁ := if_neg (by rw [huid]; exact hvisited)
    rw [← htargets, hsame] at hcond
    exact List.mem_map.2 ⟨row₁, List.mem_filter.2 ⟨hrow₁, hcond⟩, huid⟩

/-! ### The aggregates -/

/-- What remains of every live promo is what came in less what went out, and live members hold it
as the promo has it. -/
structure Conserves (s after : StockStore) : Prop where
  remaining : ∀ row ∈ after.promos, row.deletedAt = none →
    (row.holdings.map fun h => h.2.2).sum = s.intakes row.uid - s.distributions row.uid -
      s.unassigned row.uid - s.attributed row.uid
  stock : ∀ row ∈ after.promos, row.deletedAt = none → ∀ u ∈ after.users, u.deletedAt = none →
    Fields.get u.promoStock row.uid = (Fields.get row.holdings u.uid).map Prod.snd

/-- The same rows, the dictionaries of the promos in another order. -/
structure SameStock (a b : StockStore) : Prop where
  promos : List.Forall₂ (fun p q => p.holdings.Perm q.holdings ∧
    p = { q with holdings := p.holdings }) a.promos b.promos
  users : a.users = b.users

/-- A pass over the wanted promos beside the full one, row by row: the same holdings and, for live
members, the same stock of the wanted promos; nothing else is touched. -/
structure Restricts (wanted : List Uid) (s part full : StockStore) : Prop where
  promos : List.Forall₂ (fun p q => p.uid ∈ wanted → p = q) part.promos full.promos
  otherPromos : List.Forall₂ (fun p q => p.uid ∉ wanted → p = q) part.promos s.promos
  users : List.Forall₂ (fun u v => u.uid = v.uid ∧ (u.deletedAt = none →
    ∀ promo ∈ wanted, Fields.get u.promoStock promo = Fields.get v.promoStock promo))
    part.users full.users
  otherUsers : List.Forall₂ (fun u v =>
    u = { v with promoStock := u.promoStock, modified := u.modified } ∧
    ∀ promo ∉ wanted, Fields.get u.promoStock promo = Fields.get v.promoStock promo)
    part.users s.users

theorem holdings_promoAfter {row : PromoRow} (hrow : row.uid ∈ targets) :
    (promoAfter now s targets row).holdings.Perm (Tally.ofList (s.movements row.uid)) := by
  rw [promoAfter, if_pos hrow, ← collected_apply s hrow]
  exact holdings_settlePromo _ row

theorem conserves_recompute (now : Stamp) (s : StockStore) :
    Conserves s (recompute now none s) := by
  have htarget : ∀ row ∈ s.promos, row.deletedAt = none → row.uid ∈ targetUids s none :=
    fun row hrow hlive => mem_targetUids.2 ⟨⟨row, hrow, hlive, rfl⟩, fun _ h => by cases h⟩
  rw [recompute_eq]
  constructor
  · intro row' hrow' hlive
    obtain ⟨row, hrow, rfl⟩ := List.mem_map.1 hrow'
    rw [(promoAfter_uid row).2] at hlive
    rw [(promoAfter_uid row).1, ← sum_remaining]
    exact ((holdings_promoAfter (htarget row hrow hlive)).map _).sum_eq
  · intro row' hrow' hlive u' hu' hulive
    obtain ⟨row, hrow, rfl⟩ := List.mem_map.1 hrow'
    obtain ⟨u, hu, rfl⟩ := List.mem_map.1 hu'
    rw [(promoAfter_uid row).2] at hlive
    rw [(userAfter_uid u).2] at hulive
    have hmem := htarget row hrow hlive
    rw [(promoAfter_uid row).1, get_userAfter hu hulive, if_pos hmem, (userAfter_uid u).1,
      Fields.get_perm (holdings_promoAfter hmem).symm (Tally.nodup_keys_ofList _)]

theorem recompute_recompute (now later : Stamp) (promoUids : Option (List Uid)) (s : StockStore) :
    recompute later promoUids (recompute now promoUids s) = recompute now promoUids s := by
  have hpromosEq := congrArg StockStore.promos (recompute_eq now promoUids s)
  have husersEq := congrArg StockStore.users (recompute_eq now promoUids s)
  have hpromos : (recompute now promoUids s).promos.map
      (promoAfter later (recompute now promoUids s) (targetUids s promoUids)) =
        (recompute now promoUids s).promos := by
    have hsame : promoAfter later (recompute now promoUids s) (targetUids s promoUids) =
        promoAfter later s (targetUids s promoUids) := by
      funext row
      rw [promoAfter, promoAfter, collected_recompute]
    rw [hsame, hpromosEq, List.map_map]
    exact List.map_congr_left fun row _ => promoAfter_promoAfter row
  have husers : (recompute now promoUids s).users.map
      (userAfter later (recompute now promoUids s) (targetUids s promoUids)) =
        (recompute now promoUids s).users := by
    rw [husersEq, List.map_map]
    exact List.map_congr_left fun row _ => userAfter_userAfter row
  rw [recompute_eq later, targetUids_recompute, hpromos, husers]

/-! ### Order and parts -/

theorem movements_perm (hledger : t.ledger.Perm s.ledger) (hreports : t.reports.Perm s.reports)
    (promo : Uid) : (t.movements promo).Perm (s.movements promo) :=
  ((hledger.filter _).flatMap_right _).append (((hreports.filter _).flatMap_right _).map _)

theorem recompute_perm (now : Stamp) (hpromos : t.promos = s.promos) (husers : t.users = s.users)
    (hledger : t.ledger.Perm s.ledger) (hreports : t.reports.Perm s.reports) :
    SameStock (recompute now promoUids t) (recompute now promoUids s) := by
  have htargets : targetUids t promoUids = targetUids s promoUids := by
    rw [targetUids, targetUids, hpromos]
  have hcollected : ∀ promo ∈ targetUids s promoUids,
      (collected t (targetUids s promoUids) promo).Perm
        (collected s (targetUids s promoUids) promo) := by
    intro promo hpromo
    rw [collected_apply t hpromo, collected_apply s hpromo]
    exact Tally.ofList_perm (movements_perm hledger hreports promo)
  have hget : ∀ promo ∈ targetUids s promoUids, ∀ holder,
      Fields.get (collected t (targetUids s promoUids) promo) holder =
        Fields.get (collected s (targetUids s promoUids) promo) holder :=
    fun promo hpromo => Fields.get_perm (hcollected promo hpromo) (nodup_collected t hpromo)
  rw [recompute_eq, recompute_eq, htargets, hpromos, husers]
  constructor
  · rw [List.forall₂_map_left_iff, List.forall₂_map_right_iff, List.forall₂_same]
    intro row hrow
    unfold promoAfter
    split
    · rename_i hmem
      have hperm := hcollected row.uid hmem
      unfold settlePromo
      by_cases hsame : row.holdings.Perm (collected s (targetUids s promoUids) row.uid)
      · rw [if_pos hsame, if_pos (hsame.trans hperm.symm)]
        exact ⟨List.Perm.refl _, rfl⟩
      · rw [if_neg hsame, if_neg fun h => hsame (h.trans hperm)]
        exact ⟨hperm, rfl⟩
    · exact ⟨List.Perm.refl _, rfl⟩
  · refine List.map_congr_left fun row hrow => ?_
    have hstocks : stocksOf (collected t (targetUids s promoUids))
        (targetUids s promoUids) row.uid =
        stocksOf (collected s (targetUids s promoUids)) (targetUids s promoUids) row.uid :=
      List.map_congr_left fun promo hpromo => by rw [hget promo hpromo]
    have hvisited : row.uid ∈ stockedUsers t (collected t (targetUids s promoUids))
        (targetUids s promoUids) ↔ row.uid ∈ stockedUsers s
          (collected s (targetUids s promoUids)) (targetUids s promoUids) := by
      rw [stockedUsers, stockedUsers, List.mem_append, List.mem_append]
      have hkeyed : getUsersWithPromoStockKeys t (targetUids s promoUids) =
          getUsersWithPromoStockKeys s (targetUids s promoUids) := by
        rw [getUsersWithPromoStockKeys, husers]
        rfl
      rw [hkeyed, List.mem_flatMap, List.mem_flatMap]
      refine or_congr_left (exists_congr fun promo => and_congr_right fun hpromo => ?_)
      exact ((hcollected promo hpromo).map _).mem_iff
    simp only [userAfter, settleUser, hstocks, hvisited]

theorem restricts_recompute (now : Stamp) (s : StockStore) (wanted : List Uid) :
    Restricts wanted s (recompute now (some wanted) s) (recompute now none s) := by
  have htargets : ∀ uid, uid ∈ targetUids s (some wanted) ↔
      uid ∈ targetUids s none ∧ uid ∈ wanted := by
    intro uid
    rw [mem_targetUids, mem_targetUids]
    simp
  rw [recompute_eq, recompute_eq]
  constructor
  · rw [List.forall₂_map_left_iff, List.forall₂_map_right_iff, List.forall₂_same]
    intro row hrow hwanted
    rw [(promoAfter_uid row).1] at hwanted
    unfold promoAfter settlePromo
    by_cases hmem : row.uid ∈ targetUids s none
    · have hpart := (htargets row.uid).2 ⟨hmem, hwanted⟩
      rw [if_pos hmem, if_pos hpart, collected_apply s hmem, collected_apply s hpart]
    · rw [if_neg hmem, if_neg fun h => hmem ((htargets row.uid).1 h).1]
  · rw [List.forall₂_map_left_iff, List.forall₂_same]
    intro row hrow hout
    rw [(promoAfter_uid row).1] at hout
    exact if_neg fun h => hout ((htargets row.uid).1 h).2
  · rw [List.forall₂_map_left_iff, List.forall₂_map_right_iff, List.forall₂_same]
    intro row hrow
    rw [(userAfter_uid row).1, (userAfter_uid row).1, (userAfter_uid row).2]
    refine ⟨rfl, fun hlive promo hpromo => ?_⟩
    rw [get_userAfter hrow hlive, get_userAfter hrow hlive]
    simp only [htargets, hpromo, and_true]
  · rw [List.forall₂_map_left_iff, List.forall₂_same]
    intro row hrow
    constructor
    · unfold userAfter settleUser recomputePromoStock
      dsimp only
      split
      · split <;> rfl
      · rfl
    · intro promo hpromo
      have hout : promo ∉ targetUids s (some wanted) := fun h => hpromo ((htargets promo).1 h).2
      unfold userAfter
      split
      · rw [get_settleUser, if_neg hout]
      · rfl

/-- The full pass conserves every promo and agrees with the stocks of live members, is idempotent,
does not depend on the order of its sources, and a pass over some promos does to these, as live
members hold them, what the full one does, and nothing else. -/
theorem promo_stock_conserved (now later : Stamp) (s : StockStore) :
    Conserves s (recompute now none s) ∧
    recompute later none (recompute now none s) = recompute now none s ∧
    (∀ t : StockStore, t.promos = s.promos → t.users = s.users → t.ledger.Perm s.ledger →
      t.reports.Perm s.reports → SameStock (recompute now none t) (recompute now none s)) ∧
    ∀ wanted, Restricts wanted s (recompute now (some wanted) s) (recompute now none s) :=
  ⟨conserves_recompute now s, recompute_recompute now later none s,
    fun _ hpromos husers hledger hreports => recompute_perm now hpromos husers hledger hreports,
    fun wanted => restricts_recompute now s wanted⟩

/-! ### An absorbed account -/

/-- An account that was merged away still has a key, and the ledger names it for another promo. -/
def absorbedHolder : StockStore where
  promos := [⟨"sticker", "", none, []⟩, ⟨"token", "", none, []⟩]
  users := [{ rowOf (Backend.member "absorbed" []) with
    deletedAt := some "2026", promoStock := [("sticker", 3)] }]
  ledger := [⟨.intake, "token", 1, "absorbed", none⟩]
  reports := []

/-- The full pass cleans the key of the tombstone, the pass over its promo does not. -/
theorem absorbedHolder_key :
    (recompute "" (some ["sticker"]) absorbedHolder).users.map
      (fun u => Fields.get u.promoStock "sticker") = [some 3] ∧
    (recompute "" none absorbedHolder).users.map
      (fun u => Fields.get u.promoStock "sticker") = [none] := by
  decide

end Pass

end Archon.PromoStock

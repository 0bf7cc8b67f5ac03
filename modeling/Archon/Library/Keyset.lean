import Mathlib.Data.Finset.Card
import Mathlib.Data.List.Nodup
import Mathlib.Data.List.Sort

/-!
# Keyset pagination

A listing read a page at a time, the greatest keys first: a page holds the first rows below the
last key of the page before it. The table may change between two pages. The keys still descend
over all the pages, so none is listed twice, and a key that no page found missing is listed.
-/

namespace Keyset

variable {κ α : Type*} [LinearOrder κ] (key : α → κ) (size : ℕ)

/-- The rows a page may hold: those below the last key listed, all of them before the first. -/
def below (bound : Option κ) (rows : List α) : List α :=
  rows.filter fun r => bound.all fun b => decide (key r < b)

def descending (rows : List α) : List α := rows.mergeSort fun a b => decide (key b ≤ key a)

/-- The page after `bound`: in descending order, no more than `size` rows. -/
def page (bound : Option κ) (rows : List α) : List α :=
  (descending key (below key bound rows)).take size

/-- The pages after `bound`, and whether the listing came to its end. The tables are what the
reads of the pages find, one after the other. -/
def pages : Option κ → List (List α) → List (List α) × Bool
  | _, [] => ([], false)
  | bound, rows :: later =>
    match (page key size bound rows).getLast? with
    | none => ([], true)
    | some last =>
      if (page key size bound rows).length < size then ([page key size bound rows], true)
      else
        let rest := pages (some (key last)) later
        (page key size bound rows :: rest.1, rest.2)

/-- Everything listed, page after page. -/
def listed (bound : Option κ) (tables : List (List α)) : List α :=
  (pages key size bound tables).1.flatten

variable {key size} {bound : Option κ} {rows : List α} {tables : List (List α)} {r last : α} {k : κ}

/-! ### One page -/

theorem mem_below : r ∈ below key bound rows ↔ r ∈ rows ∧ ∀ b ∈ bound, key r < b := by
  cases bound <;> simp [below]

theorem mem_descending : r ∈ descending key rows ↔ r ∈ rows :=
  (List.mergeSort_perm rows _).mem_iff

theorem pairwise_descending (rows : List α) :
    (descending key rows).Pairwise fun a b => key b ≤ key a := by
  have htrans : ∀ a b c : α, decide (key b ≤ key a) = true → decide (key c ≤ key b) = true →
      decide (key c ≤ key a) = true := by
    intro a b c hab hbc
    exact decide_eq_true ((of_decide_eq_true hbc).trans (of_decide_eq_true hab))
  have htotal : ∀ a b : α, (decide (key b ≤ key a) || decide (key a ≤ key b)) = true := by
    intro a b
    rcases le_total (key b) (key a) with h | h <;> simp [h]
  exact (List.pairwise_mergeSort htrans htotal rows).imp of_decide_eq_true

theorem of_mem_page (h : r ∈ page key size bound rows) : r ∈ rows ∧ ∀ b ∈ bound, key r < b :=
  mem_below.1 (mem_descending.1 (List.mem_of_mem_take h))

theorem nodup_page (h : (rows.map key).Nodup) : ((page key size bound rows).map key).Nodup := by
  have hbelow : ((below key bound rows).map key).Nodup :=
    h.sublist (List.filter_sublist.map key)
  have hsorted : ((descending key (below key bound rows)).map key).Nodup :=
    ((List.mergeSort_perm _ _).map key).nodup_iff.2 hbelow
  exact hsorted.sublist ((List.take_sublist _ _).map key)

theorem pairwise_page (h : (rows.map key).Nodup) :
    (page key size bound rows).Pairwise fun a b => key b < key a := by
  have hle : (page key size bound rows).Pairwise fun a b => key b ≤ key a :=
    (pairwise_descending _).sublist (List.take_sublist _ _)
  have hne : (page key size bound rows).Pairwise fun a b => key a ≠ key b :=
    List.pairwise_map.1 (nodup_page h)
  exact (hle.and hne).imp fun hab => lt_of_le_of_ne hab.1 (Ne.symm hab.2)

theorem mem_page_or (hr : r ∈ rows) (hbound : ∀ b ∈ bound, key r < b) :
    r ∈ page key size bound rows ∨
      (page key size bound rows).length = size ∧ ∀ x ∈ page key size bound rows, key r ≤ key x := by
  have hmem : r ∈ descending key (below key bound rows) :=
    mem_descending.2 (mem_below.2 ⟨hr, hbound⟩)
  have hsplit := List.take_append_drop size (descending key (below key bound rows))
  rw [← hsplit, List.mem_append] at hmem
  rcases hmem with htake | hdrop
  · exact .inl htake
  · apply Or.inr
    constructor
    · have hpos : 0 < ((descending key (below key bound rows)).drop size).length :=
        List.length_pos_of_mem hdrop
      simp only [List.length_drop] at hpos
      simp only [page, List.length_take]
      omega
    · intro x hx
      have hle : (descending key (below key bound rows)).Pairwise fun a b => key b ≤ key a :=
        pairwise_descending _
      rw [← hsplit, List.pairwise_append] at hle
      exact hle.2.2 x hx r hdrop

theorem getLast_le (h : (rows.map key).Nodup)
    (hlast : (page key size bound rows).getLast? = some last) {x : α}
    (hx : x ∈ page key size bound rows) : key last ≤ key x := by
  obtain ⟨front, hfront⟩ := List.getLast?_eq_some_iff.1 hlast
  have hlt : (page key size bound rows).Pairwise fun a b => key b < key a := pairwise_page h
  rw [hfront, List.pairwise_append] at hlt
  rw [hfront, List.mem_append, List.mem_singleton] at hx
  rcases hx with hx | rfl
  · exact (hlt.2.2 x hx last (List.mem_singleton_self _)).le
  · exact le_rfl

/-! ### Page after page -/

@[simp] theorem listed_nil : listed key size bound [] = [] := rfl

theorem listed_cons_cases (key : α → κ) (size : ℕ) (bound : Option κ) (rows : List α)
    (tables : List (List α)) :
    (page key size bound rows = [] ∧ pages key size bound (rows :: tables) = ([], true)) ∨
    (∃ last, (page key size bound rows).getLast? = some last ∧
      (page key size bound rows).length < size ∧
      pages key size bound (rows :: tables) = ([page key size bound rows], true)) ∨
    ∃ last, (page key size bound rows).getLast? = some last ∧
      (page key size bound rows).length = size ∧
      pages key size bound (rows :: tables) =
        (page key size bound rows :: (pages key size (some (key last)) tables).1,
          (pages key size (some (key last)) tables).2) := by
  have hle : (page key size bound rows).length ≤ size := List.length_take_le ..
  cases hlast : (page key size bound rows).getLast? with
  | none =>
    apply Or.inl
    exact ⟨List.getLast?_eq_none_iff.1 hlast, by simp only [pages, hlast]⟩
  | some last =>
    apply Or.inr
    by_cases hlen : (page key size bound rows).length < size
    · exact .inl ⟨last, rfl, hlen, by simp only [pages, hlast, if_pos hlen]⟩
    · exact .inr ⟨last, rfl, by omega, by simp only [pages, hlast, if_neg hlen]⟩

theorem lt_of_mem_listed (hr : r ∈ listed key size bound tables) : ∀ b ∈ bound, key r < b := by
  induction tables generalizing bound with
  | nil => cases hr
  | cons rows tables ih =>
    rcases listed_cons_cases key size bound rows tables with
      ⟨-, heq⟩ | ⟨last, -, -, heq⟩ | ⟨last, hlast, -, heq⟩
    · simp [listed, heq] at hr
    · simp only [listed, heq, List.flatten_singleton] at hr
      exact (of_mem_page hr).2
    · simp only [listed, heq, List.flatten_cons, List.mem_append] at hr
      rcases hr with hr | hr
      · exact (of_mem_page hr).2
      · intro b hb
        have hlt : key r < key last := ih hr (key last) rfl
        exact hlt.trans ((of_mem_page (List.mem_of_getLast? hlast)).2 b hb)

theorem pairwise_listed (h : ∀ rows ∈ tables, (rows.map key).Nodup) :
    (listed key size bound tables).Pairwise fun a b => key b < key a := by
  induction tables generalizing bound with
  | nil => exact List.Pairwise.nil
  | cons rows tables ih =>
    have hrows := h rows (List.mem_cons_self ..)
    have hlater := fun t ht => h t (List.mem_cons_of_mem rows ht)
    rcases listed_cons_cases key size bound rows tables with
      ⟨-, heq⟩ | ⟨last, -, -, heq⟩ | ⟨last, hlast, -, heq⟩
    · simp [listed, heq]
    · simp only [listed, heq, List.flatten_singleton]
      exact pairwise_page hrows
    · simp only [listed, heq, List.flatten_cons]
      apply List.pairwise_append.2
      refine ⟨pairwise_page hrows, ih hlater, ?_⟩
      intro a ha b hb
      have hlt : key b < key last := lt_of_mem_listed hb (key last) rfl
      exact hlt.trans_le (getLast_le hrows hlast ha)

theorem mem_of_mem_pages {i : ℕ} {p : List α}
    (hp : (pages key size bound tables).1[i]? = some p) :
    ∃ rows, tables[i]? = some rows ∧ ∀ r ∈ p, r ∈ rows := by
  induction tables generalizing bound i with
  | nil => simp [pages] at hp
  | cons rows tables ih =>
    have hfirst : ∀ r ∈ page key size bound rows, r ∈ rows := fun r hr => (of_mem_page hr).1
    rcases listed_cons_cases key size bound rows tables with
      ⟨-, heq⟩ | ⟨last, -, -, heq⟩ | ⟨last, -, -, heq⟩
    · simp [heq] at hp
    · rw [heq] at hp
      cases i with
      | zero =>
        obtain rfl : page key size bound rows = p := by simpa using hp
        exact ⟨rows, rfl, hfirst⟩
      | succ i => simp at hp
    · rw [heq] at hp
      cases i with
      | zero =>
        obtain rfl : page key size bound rows = p := by simpa using hp
        exact ⟨rows, rfl, hfirst⟩
      | succ i => exact ih (i := i) (by simpa using hp)

theorem mem_keys_listed (hsize : 0 < size)
    (hended : (pages key size bound tables).2 = true) (hbound : ∀ b ∈ bound, k < b)
    (hk : ∀ rows ∈ tables, k ∈ rows.map key) : k ∈ (listed key size bound tables).map key := by
  induction tables generalizing bound with
  | nil => simp [pages] at hended
  | cons rows tables ih =>
    obtain ⟨r, hr, rfl⟩ := List.mem_map.1 (hk rows (List.mem_cons_self ..))
    have hmem : r ∈ page key size bound rows ∨ (page key size bound rows).length = size ∧
        ∀ x ∈ page key size bound rows, key r ≤ key x := mem_page_or hr hbound
    rcases listed_cons_cases key size bound rows tables with
      ⟨hnil, heq⟩ | ⟨last, -, hlen, heq⟩ | ⟨last, hlast, hlen, heq⟩
    · rw [hnil] at hmem
      rcases hmem with hmem | ⟨hlen, -⟩
      · cases hmem
      · simp only [List.length_nil] at hlen
        omega
    · simp only [listed, heq, List.flatten_singleton]
      rcases hmem with hmem | ⟨hfull, -⟩
      · exact List.mem_map_of_mem hmem
      · omega
    · simp only [listed, heq, List.flatten_cons, List.map_append, List.mem_append]
      rcases hmem with hmem | ⟨-, hafter⟩
      · exact .inl (List.mem_map_of_mem hmem)
      · have hlastmem := List.mem_of_getLast? hlast
        rcases lt_or_eq_of_le (hafter last hlastmem) with hlt | hkey
        · apply Or.inr
          rw [heq] at hended
          apply ih hended
          · intro b hb
            obtain rfl := Option.some.inj hb
            exact hlt
          · exact fun t ht => hk t (List.mem_cons_of_mem rows ht)
        · exact .inl (hkey ▸ List.mem_map_of_mem hlastmem)

theorem ended_of_card (h : ∀ rows ∈ tables, (rows.map key).Nodup) {K : Finset κ}
    (hK : ∀ rows ∈ tables, ∀ r ∈ rows, (∀ b ∈ bound, key r < b) → key r ∈ K)
    (hlen : K.card < tables.length * size) : (pages key size bound tables).2 = true := by
  induction tables generalizing bound K with
  | nil => simp at hlen
  | cons rows tables ih =>
    rcases listed_cons_cases key size bound rows tables with
      ⟨-, heq⟩ | ⟨last, -, -, heq⟩ | ⟨last, hlast, hfull, heq⟩
    · rw [heq]
    · rw [heq]
    · rw [heq]
      have hrows := h rows (List.mem_cons_self ..)
      -- the keys below the page, and the page itself, share out the keys of `K`
      have hpage : ((page key size bound rows).map key).toFinset.card = size := by
        rw [List.toFinset_card_of_nodup (nodup_page hrows), List.length_map, hfull]
      have hdisj : Disjoint ((page key size bound rows).map key).toFinset
          (K.filter fun k => k < key last) := by
        apply Finset.disjoint_left.2
        intro k hk hlt
        obtain ⟨r, hr, rfl⟩ := List.mem_map.1 (List.mem_toFinset.1 hk)
        exact absurd (getLast_le hrows hlast hr) (not_le.2 (Finset.mem_filter.1 hlt).2)
      have hsub : ((page key size bound rows).map key).toFinset
          ∪ (K.filter fun k => k < key last) ⊆ K := by
        intro k hk
        rcases Finset.mem_union.1 hk with hk | hk
        · obtain ⟨r, hr, rfl⟩ := List.mem_map.1 (List.mem_toFinset.1 hk)
          exact hK rows (List.mem_cons_self ..) r (of_mem_page hr).1 (of_mem_page hr).2
        · exact (Finset.mem_filter.1 hk).1
      have hcard := Finset.card_le_card hsub
      rw [Finset.card_union_of_disjoint hdisj, hpage] at hcard
      simp only [List.length_cons, Nat.succ_mul] at hlen
      apply ih (K := K.filter fun k => k < key last)
        (fun t ht => h t (List.mem_cons_of_mem rows ht)) ?_ (by omega)
      intro t ht r hr hlt
      have hbelow : key r < key last := hlt (key last) rfl
      have hin : ∀ b ∈ bound, key r < b := fun b hb =>
        hbelow.trans ((of_mem_page (List.mem_of_getLast? hlast)).2 b hb)
      exact Finset.mem_filter.2 ⟨hK t (List.mem_cons_of_mem rows ht) r hr hin, hbelow⟩

/-! ### Groups -/

end Keyset

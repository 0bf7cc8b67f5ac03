import Mathlib.Data.List.AList
import Mathlib.Data.Finset.Max

/-!
# An index of preferred owners

Owners are offered under keys, one after the other, and the preferred owner of a key keeps it.
Where no two owners are equally preferred, the owner of a key is the preferred one among all that
were offered, whatever the order of the offers.
-/

namespace Archon.Preferred

variable {κ ι o : Type} [DecidableEq κ] [DecidableEq ι] [LinearOrder o]

/-- One offer: a free key is taken, a taken one only by a preferred owner. -/
def offer (pref : ι → o) (index : AList fun _ : κ => ι) (entry : κ × ι) : AList fun _ : κ => ι :=
  match index.lookup entry.1 with
  | some old =>
    if old ≠ entry.2 ∧ ¬ pref entry.2 < pref old then index else index.insert entry.1 entry.2
  | none => index.insert entry.1 entry.2

/-- The preferred owner among those offered under the key. -/
def IsPreferred (pref : ι → o) (entries : List (κ × ι)) (k : κ) (i : ι) : Prop :=
  (k, i) ∈ entries ∧ ∀ j, (k, j) ∈ entries → pref i ≤ pref j

variable {pref : ι → o} {entries entries' : List (κ × ι)} {k : κ} {i j : ι}

omit [DecidableEq κ] [DecidableEq ι] in
theorem IsPreferred.perm (hperm : entries.Perm entries') :
    IsPreferred pref entries k i ↔ IsPreferred pref entries' k i := by
  simp only [IsPreferred, hperm.mem_iff]

theorem exists_isPreferred (hj : (k, j) ∈ entries) : ∃ i, IsPreferred pref entries k i := by
  obtain ⟨⟨key, i⟩, hmem, hmin⟩ :=
    (entries.toFinset.filter fun entry => entry.1 = k).exists_min_image (fun entry => pref entry.2)
      ⟨(k, j), by simpa using hj⟩
  simp only [Finset.mem_filter, List.mem_toFinset] at hmem hmin
  obtain ⟨hmem, rfl⟩ := hmem
  exact ⟨i, hmem, fun j hj => hmin (key, j) ⟨hj, rfl⟩⟩

theorem lookup_offer_of_ne (index : AList fun _ : κ => ι) {entry : κ × ι} (hk : k ≠ entry.1) :
    (offer pref index entry).lookup k = index.lookup k := by
  unfold offer
  split
  · split_ifs
    · rfl
    · exact AList.lookup_insert_ne hk
  · exact AList.lookup_insert_ne hk

theorem lookup_offer_free {index : AList fun _ : κ => ι} (hfree : index.lookup k = none) (i : ι) :
    (offer pref index (k, i)).lookup k = some i := by
  simp [offer, hfree, AList.lookup_insert]

theorem lookup_offer_taken {index : AList fun _ : κ => ι} {old : ι}
    (htaken : index.lookup k = some old) (i : ι) :
    (offer pref index (k, i)).lookup k = some (if pref i < pref old then i else old) := by
  unfold offer
  rw [htaken]
  dsimp only
  split_ifs with hkeep hlt hlt
  · exact absurd hlt hkeep.2
  · exact htaken
  · rw [AList.lookup_insert]
  · -- The owner offers again.
    have hsame : old = i := not_not.1 fun hne => hkeep ⟨hne, hlt⟩
    rw [AList.lookup_insert, hsame]

theorem lookup_offer (hpref : Function.Injective pref) {index : AList fun _ : κ => ι}
    (hindex : ∀ k i, index.lookup k = some i ↔ IsPreferred pref entries k i) (entry : κ × ι) (k : κ)
    (i : ι) :
    (offer pref index entry).lookup k = some i ↔ IsPreferred pref (entries ++ [entry]) k i := by
  obtain ⟨key, new⟩ := entry
  by_cases hk : k = key
  · subst hk
    cases hold : index.lookup k with
    | none =>
      have hnone : ∀ j, (k, j) ∉ entries := by
        intro j hj
        obtain ⟨i, hi⟩ : ∃ i, IsPreferred pref entries k i := exists_isPreferred hj
        exact absurd ((hindex k i).2 hi) (by simp [hold])
      rw [lookup_offer_free hold, Option.some_inj]
      simp only [IsPreferred, List.mem_append, hnone, List.mem_singleton, Prod.mk.injEq, true_and,
        false_or, forall_eq]
      exact ⟨fun h => ⟨h.symm, h ▸ le_rfl⟩, fun h => h.1.symm⟩
    | some old =>
      obtain ⟨hmem, hmin⟩ := (hindex k old).1 hold
      rw [lookup_offer_taken hold, Option.some_inj]
      simp only [IsPreferred, List.mem_append, List.mem_singleton, Prod.mk.injEq, true_and]
      constructor
      · rintro rfl
        split_ifs with hlt
        · refine ⟨.inr rfl, ?_⟩
          rintro j (hj | rfl)
          · exact hlt.le.trans (hmin j hj)
          · exact le_rfl
        · refine ⟨.inl hmem, ?_⟩
          rintro j (hj | rfl)
          · exact hmin j hj
          · exact not_lt.1 hlt
      · rintro ⟨hi, hleast⟩
        refine hpref (le_antisymm ?_ ?_)
        · rcases hi with hi | rfl
          · split_ifs with hlt
            · exact hlt.le.trans (hmin i hi)
            · exact hmin i hi
          · split_ifs with hlt
            · exact le_rfl
            · exact not_lt.1 hlt
        · split_ifs
          · exact hleast new (.inr rfl)
          · exact hleast old (.inl hmem)
  · rw [lookup_offer_of_ne index hk, hindex]
    simp [IsPreferred, hk]

theorem lookup_offers (hpref : Function.Injective pref) (entries : List (κ × ι)) (k : κ) (i : ι) :
    (entries.foldl (offer pref) ∅).lookup k = some i ↔ IsPreferred pref entries k i := by
  induction entries using List.reverseRecOn generalizing k i with
  | nil => simp [IsPreferred]
  | append_singleton entries entry ih =>
    rw [List.foldl_append]
    exact lookup_offer hpref ih entry k i

theorem lookup_offers_perm (hpref : Function.Injective pref) (hperm : entries.Perm entries')
    (k : κ) :
    (entries.foldl (offer pref) ∅).lookup k = (entries'.foldl (offer pref) ∅).lookup k := by
  refine Option.ext fun i => ?_
  rw [lookup_offers hpref, lookup_offers hpref, IsPreferred.perm hperm]

end Archon.Preferred

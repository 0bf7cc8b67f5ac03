import Mathlib.Data.List.Basic

/-!
# Records as lists of named fields

Keeping or leaving out the fields of given names, and what a field reads after it.
-/

namespace Fields

variable {κ α : Type*} [DecidableEq κ]

/-- The value of a field. -/
def get (d : List (κ × α)) (key : κ) : Option α := (d.find? fun f => f.1 = key).map Prod.snd

/-- The fields of these names. -/
def pick (keys : List κ) (d : List (κ × α)) : List (κ × α) := d.filter fun f => f.1 ∈ keys

/-- The other fields. -/
def without (keys : List κ) (d : List (κ × α)) : List (κ × α) := d.filter fun f => f.1 ∉ keys

/-- The values of the fields of these names changed. -/
def change (keys : List κ) (f : α → α) (d : List (κ × α)) : List (κ × α) :=
  d.map fun e => if e.1 ∈ keys then (e.1, f e.2) else e

variable {keys : List κ} {d : List (κ × α)} {key : κ} {f : α → α}

theorem get_filter {p : κ → Prop} [DecidablePred p] (h : p key) :
    get (d.filter fun e => p e.1) key = get d key := by
  unfold get
  induction d with
  | nil => rfl
  | cons e d ih =>
    by_cases hkey : e.1 = key
    · rw [List.filter_cons_of_pos (by simpa [hkey] using h), List.find?_cons_of_pos (by simpa),
        List.find?_cons_of_pos (by simpa)]
    · rw [List.find?_cons_of_neg (by simpa), ← ih]
      by_cases hp : p e.1
      · rw [List.filter_cons_of_pos (by simpa), List.find?_cons_of_neg (by simpa)]
      · rw [List.filter_cons_of_neg (by simpa)]

theorem get_filter_none {p : κ → Prop} [DecidablePred p] (h : ¬p key) :
    get (d.filter fun e => p e.1) key = none := by
  rw [get, Option.map_eq_none_iff, List.find?_eq_none]
  intro e he hkey
  rw [decide_eq_true_eq] at hkey
  exact h (hkey ▸ of_decide_eq_true (List.mem_filter.1 he).2)

theorem get_pick (h : key ∈ keys) : get (pick keys d) key = get d key := get_filter h

theorem get_pick_none (h : key ∉ keys) : get (pick keys d) key = none := get_filter_none h

theorem get_without (h : key ∉ keys) : get (without keys d) key = get d key :=
  get_filter (p := fun k => k ∉ keys) h

theorem get_without_none (h : key ∈ keys) : get (without keys d) key = none :=
  get_filter_none (p := fun k => k ∉ keys) (not_not_intro h)

theorem get_change (h : key ∉ keys) : get (change keys f d) key = get d key := by
  unfold get change
  induction d with
  | nil => rfl
  | cons e d ih =>
    rw [List.map_cons]
    by_cases hkey : e.1 = key
    · have hsame : (if e.1 ∈ keys then (e.1, f e.2) else e) = e := if_neg (hkey ▸ h)
      rw [hsame, List.find?_cons_of_pos (by simpa), List.find?_cons_of_pos (by simpa)]
    · have hname : (if e.1 ∈ keys then (e.1, f e.2) else e).1 = e.1 := by split <;> rfl
      rw [List.find?_cons_of_neg (by simpa [hname]), List.find?_cons_of_neg (by simpa), ih]

theorem get_change_none (h : get d key = none) : get (change keys f d) key = none := by
  rw [get, Option.map_eq_none_iff, List.find?_eq_none] at h ⊢
  intro e he hkey
  obtain ⟨e', he', rfl⟩ := List.mem_map.1 he
  have hname : (if e'.1 ∈ keys then (e'.1, f e'.2) else e').1 = e'.1 := by split <;> rfl
  rw [hname] at hkey
  exact h e' he' hkey

theorem get_change_mem (h : key ∈ keys) : get (change keys f d) key = (get d key).map f := by
  unfold get change
  induction d with
  | nil => rfl
  | cons e d ih =>
    rw [List.map_cons]
    by_cases hkey : e.1 = key
    · rw [if_pos (hkey ▸ h), List.find?_cons_of_pos (by simpa), List.find?_cons_of_pos (by simpa)]
      rfl
    · have hname : (if e.1 ∈ keys then (e.1, f e.2) else e).1 = e.1 := by split <;> rfl
      rw [List.find?_cons_of_neg (by simpa [hname]), List.find?_cons_of_neg (by simpa), ih]

theorem get_append (d d' : List (κ × α)) (key : κ) :
    get (d ++ d') key = (get d key).or (get d' key) := by
  unfold get
  rw [List.find?_append, Option.map_or]

theorem get_tabulate (value : κ → α) (h : key ∈ keys) :
    get (keys.map fun k => (k, value k)) key = some (value key) := by
  induction keys with
  | nil => exact absurd h List.not_mem_nil
  | cons k keys ih =>
    rw [List.map_cons]
    by_cases hkey : k = key
    · rw [get, List.find?_cons_of_pos (by simpa), hkey]
      rfl
    · rw [get, List.find?_cons_of_neg (by simpa)]
      exact ih ((List.mem_cons.1 h).resolve_left (Ne.symm hkey))

theorem get_tabulate_none (value : κ → α) (h : key ∉ keys) :
    get (keys.map fun k => (k, value k)) key = none := by
  rw [get, Option.map_eq_none_iff, List.find?_eq_none]
  intro e he hkey
  obtain ⟨k, hk, rfl⟩ := List.mem_map.1 he
  rw [decide_eq_true_eq] at hkey
  exact h (hkey ▸ hk)

theorem get_eq_none_iff : get d key = none ↔ key ∉ d.map Prod.fst := by
  rw [get, Option.map_eq_none_iff, List.find?_eq_none]
  simp only [decide_eq_true_eq, List.mem_map, not_exists, not_and]

theorem get_eq_some_iff (h : (d.map Prod.fst).Nodup) {v : α} :
    get d key = some v ↔ (key, v) ∈ d := by
  induction d with
  | nil => simp [get]
  | cons e d ih =>
    rw [List.map_cons, List.nodup_cons] at h
    by_cases hkey : e.1 = key
    · rw [get, List.find?_cons_of_pos (by simpa), Option.map_some, Option.some.injEq,
        List.mem_cons, ← hkey]
      constructor
      · rintro rfl
        exact .inl rfl
      · rintro (heq | hmem)
        · exact (congrArg Prod.snd heq).symm
        · exact absurd (List.mem_map_of_mem hmem) h.1
    · have hne : (key, v) ≠ e := fun h => hkey (congrArg Prod.fst h).symm
      rw [get, List.find?_cons_of_neg (by simpa), List.mem_cons, or_iff_right hne]
      exact ih h.2

theorem get_perm {d' : List (κ × α)} (hperm : d.Perm d') (h : (d.map Prod.fst).Nodup) (key : κ) :
    get d key = get d' key := by
  refine Option.ext fun v => ?_
  rw [get_eq_some_iff h, get_eq_some_iff ((hperm.map _).nodup_iff.1 h), hperm.mem_iff]

end Fields

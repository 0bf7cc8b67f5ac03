import Mathlib.Data.List.AList
import Mathlib.Data.List.Basic
import Mathlib.Logic.Function.Basic

/-!
# Stores under keys

Frames over keyed tables, writes applied in order or removals last, and saves of whole rows.
-/

/-!
## Frames over keyed tables

A table maps keys to rows. `Writes W a b`: each row of the table `b` is the one of `a` or was
written as `W` allows. `Keyed key t`: every row stands under its own key.
-/

namespace Table

variable {κ V : Type*} [DecidableEq κ]

/-- Each row is as before, or one that `W` allows under its key. -/
def Writes (W : κ → V → Prop) (a b : AList fun _ : κ => V) : Prop :=
  ∀ k, b.lookup k = a.lookup k ∨ ∃ v, b.lookup k = some v ∧ W k v

/-- Every row stands under its own key. -/
def Keyed (key : V → κ) (t : AList fun _ : κ => V) : Prop :=
  ∀ k v, t.lookup k = some v → key v = k

variable {W X : κ → V → Prop} {a b c : AList fun _ : κ => V} {key : V → κ} {k : κ} {v : V}

theorem Writes.refl (W : κ → V → Prop) (a : AList fun _ : κ => V) : Writes W a a :=
  fun _ => .inl rfl

theorem Writes.trans (h : Writes W a b) (h' : Writes W b c) : Writes W a c := by
  intro k
  rcases h' k with heq | hnew
  · rw [heq]
    exact h k
  · exact .inr hnew

theorem Writes.mono (hWX : ∀ k v, W k v → X k v) (h : Writes W a b) : Writes X a b := by
  intro k
  rcases h k with heq | ⟨v, hv, hW⟩
  · exact .inl heq
  · exact .inr ⟨v, hv, hWX k v hW⟩

theorem Writes.lookup_eq (h : Writes W a b) (hk : ∀ v, ¬W k v) : b.lookup k = a.lookup k := by
  rcases h k with heq | ⟨v, -, hW⟩
  · exact heq
  · exact absurd hW (hk v)

theorem writes_insert (hW : W k v) : Writes W a (a.insert k v) := by
  intro k'
  by_cases hk : k' = k
  · subst hk
    exact .inr ⟨v, AList.lookup_insert _, hW⟩
  · exact .inl (AList.lookup_insert_ne hk)

theorem keyed_insert (h : Keyed key a) (hv : key v = k) : Keyed key (a.insert k v) := by
  intro k' v' hv'
  by_cases hk : k' = k
  · subst hk
    rw [AList.lookup_insert] at hv'
    exact Option.some.inj hv' ▸ hv
  · rw [AList.lookup_insert_ne hk] at hv'
    exact h k' v' hv'

end Table

/-!
## Writes to a keyed store

A write sets the value under its key or removes it. Applied in order, the last write of a key
decides; applied with the removals after the rest, a removal decides wherever it stood.
-/

namespace KeyedWrites

variable {κ α : Type*} [DecidableEq κ]

/-- The value under a key, or its removal. -/
structure Write (κ α : Type*) where
  key : κ
  value : Option α

def Write.removes (w : Write κ α) : Bool := w.value.isNone

def apply (s : κ → Option α) (w : Write κ α) : κ → Option α := Function.update s w.key w.value

def applyAll (s : κ → Option α) (ws : List (Write κ α)) : κ → Option α := ws.foldl apply s

/-- The removals after the other writes, each in order. -/
def removalsLast (ws : List (Write κ α)) : List (Write κ α) :=
  ws.filter (fun w => !w.removes) ++ ws.filter Write.removes

/-- The last write of a key. -/
def lastOf (ws : List (Write κ α)) (k : κ) : Option (Write κ α) :=
  (ws.filter fun w => w.key = k).getLast?

/-- No key is written again after it is removed. -/
def RemovalsStay (ws : List (Write κ α)) : Prop :=
  ∀ w ∈ ws, w.removes = true → ∀ l ∈ lastOf ws w.key, l.removes = true

instance (ws : List (Write κ α)) : Decidable (RemovalsStay ws) :=
  inferInstanceAs (Decidable (∀ w ∈ ws, w.removes = true → ∀ l ∈ lastOf ws w.key, l.removes = true))

variable {s : κ → Option α} {ws ws' : List (Write κ α)} {w : Write κ α} {k : κ}

theorem applyAll_append : applyAll s (ws ++ ws') = applyAll (applyAll s ws) ws' :=
  List.foldl_append

theorem lastOf_append : lastOf (ws ++ ws') k = (lastOf ws' k).or (lastOf ws k) := by
  rw [lastOf, List.filter_append, List.getLast?_append]
  rfl

theorem lastOf_cons : lastOf (w :: ws) k = (lastOf ws k).or
    (if w.key = k then some w else none) := by
  have happend : w :: ws = [w] ++ ws := rfl
  rw [happend, lastOf_append]
  congr 1
  by_cases hk : w.key = k <;> simp [lastOf, hk]

theorem applyAll_apply (s : κ → Option α) (ws : List (Write κ α)) (k : κ) :
    applyAll s ws k = (lastOf ws k).elim (s k) Write.value := by
  induction ws generalizing s with
  | nil => rfl
  | cons w ws ih =>
    have hrest : applyAll s (w :: ws) k = (lastOf ws k).elim (apply s w k) Write.value :=
      ih (apply s w)
    rw [hrest, lastOf_cons]
    cases hlast : lastOf ws k with
    | some l => rfl
    | none =>
      by_cases hk : w.key = k
      · subst hk
        simp [apply]
      · simp [apply, hk, Ne.symm hk]

theorem mem_of_lastOf {l : Write κ α} (h : lastOf ws k = some l) : l ∈ ws ∧ l.key = k := by
  have hmem := List.mem_of_getLast? h
  rw [List.mem_filter, decide_eq_true_eq] at hmem
  exact hmem

theorem lastOf_eq_none : lastOf ws k = none ↔ ∀ w ∈ ws, w.key ≠ k := by
  rw [lastOf, List.getLast?_eq_none_iff, List.filter_eq_nil_iff]
  simp only [decide_eq_true_eq, ne_eq]

theorem applyAll_of_agree {v : Option α} (hw : w ∈ ws)
    (h : ∀ w' ∈ ws, w'.key = w.key → w'.value = v) : applyAll s ws w.key = v := by
  obtain ⟨l, hl⟩ : ∃ l, lastOf ws w.key = some l := by
    rw [← Option.ne_none_iff_exists', ne_eq, lastOf_eq_none]
    exact fun hnone => hnone w hw rfl
  obtain ⟨hmem, hkey⟩ := mem_of_lastOf hl
  rw [applyAll_apply, hl]
  exact h l hmem hkey

theorem applyAll_of_unwritten (h : ∀ w ∈ ws, w.key ≠ k) : applyAll s ws k = s k := by
  rw [applyAll_apply, lastOf_eq_none.2 h]
  rfl

theorem removalsLast_of_removed (hw : w ∈ ws) (hremoves : w.removes = true) :
    applyAll s (removalsLast ws) w.key = none := by
  have hlast : ∃ l, lastOf (ws.filter Write.removes) w.key = some l := by
    rw [← Option.ne_none_iff_exists', ne_eq, lastOf_eq_none]
    exact fun h => h w (List.mem_filter.2 ⟨hw, hremoves⟩) rfl
  obtain ⟨l, hl⟩ := hlast
  have hmem := (mem_of_lastOf hl).1
  rw [applyAll_apply, removalsLast, lastOf_append, hl, Option.some_or, Option.elim_some]
  exact Option.isNone_iff_eq_none.1 (List.mem_filter.1 hmem).2

theorem removalsLast_of_kept (h : ∀ w ∈ ws, w.key = k → w.removes = false) :
    applyAll s (removalsLast ws) k = applyAll s ws k := by
  have hnone : lastOf (ws.filter Write.removes) k = none := by
    rw [lastOf_eq_none]
    intro w hw hk
    obtain ⟨hmem, hremoves⟩ := List.mem_filter.1 hw
    rw [h w hmem hk] at hremoves
    cases hremoves
  have hsame : lastOf (ws.filter fun w => !w.removes) k = lastOf ws k := by
    rw [lastOf, lastOf, List.filter_filter]
    refine congrArg List.getLast? (List.filter_congr fun w hw => ?_)
    by_cases hk : w.key = k
    · simp [hk, h w hw hk]
    · simp [hk]
  rw [applyAll_apply, applyAll_apply, removalsLast, lastOf_append, hnone, Option.none_or, hsame]

theorem removalsLast_eq_iff :
    applyAll s (removalsLast ws) = applyAll s ws ↔ RemovalsStay ws := by
  constructor
  · intro heq w hw hremoves l hl
    have hgone := removalsLast_of_removed (s := s) hw hremoves
    rw [heq, applyAll_apply, hl, Option.elim_some] at hgone
    exact Option.isNone_iff_eq_none.2 hgone
  · intro hstay
    funext k
    by_cases hremoved : ∃ w ∈ ws, w.key = k ∧ w.removes = true
    · obtain ⟨w, hw, rfl, hremoves⟩ := hremoved
      obtain ⟨l, hl⟩ : ∃ l, lastOf ws w.key = some l := by
        rw [← Option.ne_none_iff_exists', ne_eq, lastOf_eq_none]
        exact fun h => h w hw rfl
      have hgone : l.value = none := Option.isNone_iff_eq_none.1 (hstay w hw hremoves l hl)
      rw [removalsLast_of_removed hw hremoves, applyAll_apply, hl, Option.elim_some, hgone]
    · refine removalsLast_of_kept fun w hw hk => ?_
      rw [← Bool.not_eq_true]
      exact fun hremoves => hremoved ⟨w, hw, hk, hremoves⟩

/-! ### Class by class -/

section Classes

variable {γ : Type*} [DecidableEq γ]

/-- The writes class by class, the removals of each after its other writes. -/
def removalsLastBy (cls : κ → γ) (classes : List γ) (ws : List (Write κ α)) : List (Write κ α) :=
  classes.flatMap fun c => removalsLast (ws.filter fun w => cls w.key = c)

omit [DecidableEq κ] in
theorem removalsLast_filter (p : Write κ α → Bool) :
    removalsLast (ws.filter p) = (removalsLast ws).filter p := by
  simp only [removalsLast, List.filter_append, List.filter_filter, Bool.and_comm]

theorem lastOf_filter {p : Write κ α → Bool} (h : ∀ w : Write κ α, w.key = k → p w = true) :
    lastOf (ws.filter p) k = lastOf ws k := by
  rw [lastOf, lastOf, List.filter_filter]
  refine congrArg List.getLast? (List.filter_congr fun w _ => ?_)
  by_cases hk : w.key = k
  · simp [hk, h w hk]
  · simp [hk]

theorem lastOf_removalsLastBy {cls : κ → γ} {classes : List γ} (h : cls k ∈ classes) :
    lastOf (removalsLastBy cls classes ws) k = lastOf (removalsLast ws) k := by
  have hclass : ∀ c, lastOf (removalsLast (ws.filter fun w => cls w.key = c)) k =
      if c = cls k then lastOf (removalsLast ws) k else none := by
    intro c
    rw [removalsLast_filter]
    split_ifs with hc
    · exact lastOf_filter fun w hw => by simp [hw, hc]
    · rw [lastOf_eq_none]
      intro w hw hk
      have hcls := (List.mem_filter.1 hw).2
      rw [decide_eq_true_eq, hk] at hcls
      exact hc hcls.symm
  -- each other class leaves the key alone
  induction classes with
  | nil => cases h
  | cons c classes ih =>
    rw [removalsLastBy, List.flatMap_cons, lastOf_append, hclass c]
    by_cases hrest : cls k ∈ classes
    · have htail := ih hrest
      rw [removalsLastBy] at htail
      rw [htail]
      split_ifs
      · exact Option.or_self
      · exact Option.or_none
    · have hc : c = cls k := ((List.mem_cons.1 h).resolve_right hrest).symm
      have htail : lastOf (classes.flatMap fun c =>
          removalsLast (ws.filter fun w => cls w.key = c)) k = none := by
        rw [lastOf_eq_none]
        intro w hw hk
        obtain ⟨c', hc', hmem⟩ := List.mem_flatMap.1 hw
        rw [removalsLast_filter] at hmem
        have hcls := (List.mem_filter.1 hmem).2
        rw [decide_eq_true_eq, hk] at hcls
        exact hrest (hcls ▸ hc')
      rw [htail, if_pos hc, Option.none_or]

theorem applyAll_removalsLastBy {cls : κ → γ} {classes : List γ} (h : ∀ k, cls k ∈ classes) :
    applyAll s (removalsLastBy cls classes ws) = applyAll s (removalsLast ws) := by
  funext k
  rw [applyAll_apply, applyAll_apply, lastOf_removalsLastBy (h k)]

end Classes

end KeyedWrites

/-!
## Saving whole rows

A row has fields, and a save sets some of them but stores the row whole. A field is up to date when
it has the value of the newest save that set it. A save keeps every field up to date exactly when
the fields it does not set are stored as they were.
-/

namespace WholeRows

/-- A saved row and the fields the save is meant to set. -/
structure Save (κ ι ρ : Type*) where
  key : κ
  sets : ι → Bool
  row : ρ

variable {κ ι ρ : Type*} [DecidableEq κ]

/-- The row the field was last set by: of the newest save that set it, else the initial one. -/
def source (initial : κ → Option ρ) (log : List (Save κ ι ρ)) (k : κ) (i : ι) : Option ρ :=
  ((log.find? fun e => e.key = k ∧ e.sets i = true).map Save.row).or (initial k)

/-- Every field of every row is as last set; `same i` compares two rows in the field `i`. -/
def UpToDate (same : ι → ρ → ρ → Prop) (initial : κ → Option ρ) (log : List (Save κ ι ρ))
    (table : κ → Option ρ) : Prop :=
  ∀ k row, table k = some row → ∀ i, ∃ r ∈ source initial log k i, same i row r

variable {same : ι → ρ → ρ → Prop} {initial table : κ → Option ρ} {log : List (Save κ ι ρ)}
variable {e : Save κ ι ρ} {k : κ} {i : ι} {row : ρ}

theorem source_cons_set (hk : e.key = k) (hi : e.sets i = true) :
    source initial (e :: log) k i = some e.row := by
  simp [source, hk, hi]

theorem source_cons_unset (h : ¬ (e.key = k ∧ e.sets i = true)) :
    source initial (e :: log) k i = source initial log k i := by
  rw [source, List.find?_cons_of_neg (by simpa using h)]
  rfl

theorem upToDate_init (hsame : ∀ i r, same i r r) :
    UpToDate same initial ([] : List (Save κ ι ρ)) initial :=
  fun _ row hrow i => ⟨row, hrow, hsame i row⟩

theorem upToDate_save_iff (hsame : ∀ i, Equivalence (same i))
    (h : UpToDate same initial log table) (hrow : table e.key = some row) :
    UpToDate same initial (e :: log) (Function.update table e.key (some e.row)) ↔
      ∀ i, e.sets i = false → same i e.row row := by
  constructor
  · intro hafter i hi
    obtain ⟨r, hr, hnew⟩ := hafter e.key e.row (Function.update_self ..) i
    rw [source_cons_unset (by simp [hi])] at hr
    obtain ⟨r', hr', hold⟩ := h e.key row hrow i
    obtain rfl := Option.mem_unique hr hr'
    exact (hsame i).trans hnew ((hsame i).symm hold)
  · intro hunset k row' hrow' i
    by_cases hk : k = e.key
    · subst hk
      rw [Function.update_self] at hrow'
      obtain rfl := Option.some.inj hrow'
      by_cases hi : e.sets i = true
      · exact ⟨e.row, source_cons_set rfl hi, (hsame i).refl _⟩
      · obtain ⟨r, hr, hold⟩ := h e.key row hrow i
        rw [source_cons_unset (by simp [hi])]
        exact ⟨r, hr, (hsame i).trans (hunset i (by simpa using hi)) hold⟩
    · rw [Function.update_of_ne hk] at hrow'
      rw [source_cons_unset (fun hset => hk hset.1.symm)]
      exact h k row' hrow' i

end WholeRows

import Mathlib.Data.List.Nodup

/-!
# Ledgers

A log of decisions, the newest first, each about a key. A decision that binds stands until a later
one that may lift it.
-/

namespace Ledger

variable {ε κ : Type*} [DecidableEq κ] (key : ε → κ)

/-- The newest decision about a key. -/
def latest (log : List ε) (k : κ) : Option ε := log.find? fun e => key e = k

/-- Every binding decision either still stands or was followed by one that may lift it. -/
def Respected (binds lifts : ε → Prop) (log : List ε) : Prop :=
  ∀ newer d older, log = newer ++ d :: older → binds d →
    (∃ e, latest key log (key d) = some e ∧ binds e) ∨ ∃ a ∈ newer, key a = key d ∧ lifts a

variable {key} {binds lifts : ε → Prop} {log new : List ε} {e d : ε} {k : κ}

/-! ### The newest decision -/

@[simp] theorem latest_nil : latest key [] k = none := rfl

theorem latest_cons_self : latest key (e :: log) (key e) = some e := by
  simp [latest]

theorem latest_cons_ne (h : key e ≠ k) : latest key (e :: log) k = latest key log k := by
  simp [latest, h]

theorem latest_append_of_not_mem (h : k ∉ new.map key) :
    latest key (new ++ log) k = latest key log k := by
  have hnone : new.find? (fun e => decide (key e = k)) = none := by
    rw [List.find?_eq_none]
    intro e he hk
    exact h (List.mem_map.mpr ⟨e, he, of_decide_eq_true hk⟩)
  simp [latest, List.find?_append, hnone]

theorem latest_append_of_mem (h : (new.map key).Nodup) (he : e ∈ new) :
    latest key (new ++ log) (key e) = some e := by
  induction new with
  | nil => cases he
  | cons a new ih =>
    rw [List.map_cons, List.nodup_cons] at h
    rcases List.mem_cons.mp he with rfl | he
    · exact latest_cons_self
    · have hne : key a ≠ key e := fun hk => h.1 (hk ▸ List.mem_map_of_mem he)
      rw [List.cons_append, latest_cons_ne hne]
      exact ih h.2 he

/-! ### One decision after another -/

theorem Respected.nil : Respected key binds lifts [] := by
  intro newer d older h
  simp at h

theorem Respected.cons (h : Respected key binds lifts log)
    (he : ∀ d, latest key log (key e) = some d → binds d → binds e ∨ lifts e) :
    Respected key binds lifts (e :: log) := by
  intro newer d older hlog hd
  cases newer with
  | nil =>
    obtain ⟨rfl, rfl⟩ := List.cons.inj hlog
    exact .inl ⟨e, latest_cons_self, hd⟩
  | cons a newer =>
    obtain ⟨rfl, htail⟩ := List.cons.inj hlog
    rcases h newer d older htail hd with ⟨x, hx, hbinds⟩ | ⟨a, ha, hkey, hlifts⟩
    · by_cases hk : key e = key d
      · rcases he x (hk ▸ hx) hbinds with hb | hl
        · exact .inl ⟨e, hk ▸ latest_cons_self, hb⟩
        · exact .inr ⟨e, List.mem_cons_self, hk, hl⟩
      · exact .inl ⟨x, by rwa [latest_cons_ne hk], hbinds⟩
    · exact .inr ⟨a, List.mem_cons_of_mem _ ha, hkey, hlifts⟩

theorem Respected.append (h : Respected key binds lifts log) (hkeys : (new.map key).Nodup)
    (he : ∀ e ∈ new, ∀ d, latest key log (key e) = some d → binds d → binds e ∨ lifts e) :
    Respected key binds lifts (new ++ log) := by
  induction new with
  | nil => exact h
  | cons a new ih =>
    rw [List.map_cons, List.nodup_cons] at hkeys
    have hrest := ih hkeys.2 fun e hmem => he e (List.mem_cons_of_mem _ hmem)
    refine hrest.cons fun d hd => he a List.mem_cons_self d ?_
    rwa [latest_append_of_not_mem hkeys.1] at hd

theorem Respected.lifted (h : Respected key binds lifts log)
    (hk : ∀ e, latest key log k = some e → ¬ binds e) {newer older : List ε}
    (hlog : log = newer ++ d :: older) (hkey : key d = k) (hd : binds d) :
    ∃ a ∈ newer, key a = k ∧ lifts a := by
  subst hkey
  rcases h newer d older hlog hd with ⟨e, he, hb⟩ | hlifted
  · exact absurd hb (hk e he)
  · exact hlifted

end Ledger

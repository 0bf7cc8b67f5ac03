import Mathlib.Data.List.Basic

/-!
# Queues with one entry per key

An ordered dictionary used as a queue: a new value for a waiting key takes the place of the old
one, any other key goes to the end.
-/

namespace Coalesce

variable {κ α : Type*} [DecidableEq κ] {k : κ} {v : α} {x : κ × α} {q : List (κ × α)}

/-- Replace the value of `k` where it stands, or put `k` at the end. -/
def put (k : κ) (v : α) : List (κ × α) → List (κ × α)
  | [] => [(k, v)]
  | x :: q => if x.1 = k then (k, v) :: q else x :: put k v q

/-- The value waiting for `k`. -/
def waiting (k : κ) (q : List (κ × α)) : Option α := (q.find? fun x => x.1 = k).map Prod.snd

theorem mem_put_self : (k, v) ∈ put k v q := by
  induction q with
  | nil => exact List.mem_singleton_self _
  | cons y q ih =>
    rw [put]
    split
    · exact List.mem_cons_self
    · exact List.mem_cons_of_mem _ ih

theorem mem_of_mem_put (h : x ∈ put k v q) : x = (k, v) ∨ x ∈ q := by
  induction q with
  | nil => exact .inl (List.mem_singleton.1 h)
  | cons y q ih =>
    rw [put] at h
    split at h
    · rcases List.mem_cons.1 h with rfl | h
      · exact .inl rfl
      · exact .inr (List.mem_cons_of_mem _ h)
    · rcases List.mem_cons.1 h with rfl | h
      · exact .inr List.mem_cons_self
      · exact (ih h).imp_right (List.mem_cons_of_mem _)

theorem mem_put_of_mem (h : x ∈ q) : x ∈ put k v q ∨ waiting k q = some x.2 := by
  induction q with
  | nil => cases h
  | cons y q ih =>
    rw [put, waiting, List.find?_cons]
    by_cases hy : y.1 = k
    · simp only [hy, if_true, decide_true]
      rcases List.mem_cons.1 h with rfl | h
      · exact .inr rfl
      · exact .inl (List.mem_cons_of_mem _ h)
    · simp only [hy, if_false, decide_false]
      rcases List.mem_cons.1 h with rfl | h
      · exact .inl List.mem_cons_self
      · exact (ih h).imp_left (List.mem_cons_of_mem _)

theorem mem_of_waiting {v : α} (h : waiting k q = some v) : (k, v) ∈ q := by
  obtain ⟨x, hx, rfl⟩ := Option.map_eq_some_iff.1 h
  have hk : x.1 = k := by simpa using List.find?_some hx
  subst hk
  exact List.mem_of_find?_eq_some hx

theorem waiting_isSome : (waiting k q).isSome = true ↔ k ∈ q.map Prod.fst := by
  simp [waiting, List.find?_isSome, List.mem_map]

/-! ### Keys -/

theorem mem_keys_put {k' : κ} :
    k' ∈ (put k v q).map Prod.fst ↔ k' = k ∨ k' ∈ q.map Prod.fst := by
  induction q with
  | nil => simp [put]
  | cons x q ih =>
    rw [put]
    by_cases hx : x.1 = k
    · simp only [hx, if_true, List.map_cons, List.mem_cons]
      tauto
    · simp only [hx, if_false, List.map_cons, List.mem_cons, ih]
      tauto

theorem nodup_keys_put (h : (q.map Prod.fst).Nodup) : ((put k v q).map Prod.fst).Nodup := by
  induction q with
  | nil => simp [put]
  | cons x q ih =>
    rw [List.map_cons, List.nodup_cons] at h
    rw [put]
    by_cases hx : x.1 = k
    · simp only [hx, if_true, List.map_cons]
      exact List.nodup_cons.2 ⟨hx ▸ h.1, h.2⟩
    · rw [if_neg hx, List.map_cons, List.nodup_cons, mem_keys_put]
      exact ⟨fun hk => hk.elim hx h.1, ih h.2⟩

end Coalesce

import Mathlib.Data.Finset.Card
import Mathlib.Data.List.Nodup
import Mathlib.Data.Multiset.Basic
import Mathlib.Logic.Function.Basic

/-!
# Stores that evict

A plain store sets the value under a key. An evicting store also drops every other key whose value
stands in the slot of the new one. The two agree on a list of writes exactly when no written key
ends in the slot of another one, as long as no key leaves a slot another one was written to.
-/

namespace Evicting

variable {κ V σ : Type*} [DecidableEq κ] [DecidableEq σ]

def put (s : κ → Option V) (w : κ × V) : κ → Option V := Function.update s w.1 (some w.2)

def putAll (s : κ → Option V) (ws : List (κ × V)) : κ → Option V := ws.foldl put s

/-- The other keys whose value stands in the slot of the new one are dropped. -/
def evictingPut (slot : V → Option σ) (s : κ → Option V) (w : κ × V) : κ → Option V :=
  Function.update (fun k => (s k).filter fun v => slot v = none ∨ slot v ≠ slot w.2) w.1 (some w.2)

def evictingPutAll (slot : V → Option σ) (s : κ → Option V) (ws : List (κ × V)) :
    κ → Option V := ws.foldl (evictingPut slot) s

/-- The store without these keys. -/
def without (s : κ → Option V) (ks : List κ) : κ → Option V := fun k => if k ∈ ks then none else s k

/-- What the first store holds the second one holds too. -/
def Sub (s' s : κ → Option V) : Prop := ∀ k v, s' k = some v → s k = some v

variable {slot : V → Option σ} {s s' : κ → Option V} {w : κ × V} {ws : List (κ × V)} {k k' : κ}
  {v v' : V}

theorem put_same : put s w w.1 = some w.2 := Function.update_self ..

theorem put_ne (h : k ≠ w.1) : put s w k = s k := Function.update_of_ne h ..

theorem evictingPut_same : evictingPut slot s w w.1 = some w.2 := Function.update_self ..

theorem evictingPut_ne (h : k ≠ w.1) :
    evictingPut slot s w k = (s k).filter fun v => slot v = none ∨ slot v ≠ slot w.2 :=
  Function.update_of_ne h ..

omit [DecidableEq σ] in
theorem put_eq_self (h : s w.1 = some w.2) : put s w = s := by
  rw [put, ← h, Function.update_eq_self]

theorem without_nil (s : κ → Option V) : without s [] = s := by
  funext k
  simp [without]

theorem without_cons {ks : List κ} :
    without (Function.update s k none) ks = without s (k :: ks) := by
  funext x
  by_cases hx : x = k
  · subst hx
    simp [without]
  · simp [without, hx]

/-! ### Plain writes -/

theorem putAll_cases (s : κ → Option V) (ws : List (κ × V)) (k : κ) :
    ((∀ w ∈ ws, w.1 ≠ k) ∧ putAll s ws k = s k) ∨
      ∃ w ∈ ws, w.1 = k ∧ putAll s ws k = some w.2 := by
  induction ws generalizing s with
  | nil => exact .inl ⟨fun w hw => absurd hw List.not_mem_nil, rfl⟩
  | cons w ws ih =>
    rcases ih (put s w) with ⟨hnone, heq⟩ | ⟨w', hw', hk, heq⟩
    · by_cases hk : w.1 = k
      · subst hk
        exact .inr ⟨w, List.mem_cons_self .., rfl, heq.trans put_same⟩
      · refine .inl ⟨?_, heq.trans (put_ne (Ne.symm hk))⟩
        exact List.forall_mem_cons.2 ⟨hk, hnone⟩
    · exact .inr ⟨w', List.mem_cons_of_mem _ hw', hk, heq⟩

theorem putAll_of_not_mem (h : ∀ w ∈ ws, w.1 ≠ k) : putAll s ws k = s k := by
  rcases putAll_cases s ws k with ⟨-, heq⟩ | ⟨w, hw, hk, -⟩
  · exact heq
  · exact absurd hk (h w hw)

theorem putAll_append {ws' : List (κ × V)} : putAll s (ws ++ ws') = putAll (putAll s ws) ws' :=
  List.foldl_append

theorem putAll_put_comm (h : ∀ x ∈ ws, x.1 ≠ w.1) : putAll (put s w) ws = put (putAll s ws) w := by
  induction ws generalizing s with
  | nil => rfl
  | cons x ws ih =>
    rw [List.forall_mem_cons] at h
    have hswap : put (put s w) x = put (put s x) w := Function.update_comm (Ne.symm h.1) ..
    have hhead : putAll (put s w) (x :: ws) = putAll (put (put s x) w) ws := by
      rw [← hswap]
      rfl
    exact hhead.trans (ih h.2)

theorem putAll_concat : putAll s (ws ++ [w]) = put (putAll s ws) w := List.foldl_concat ..

/-! ### Evicting writes lose keys -/

theorem evictingPutAll_concat :
    evictingPutAll slot s (ws ++ [w]) = evictingPut slot (evictingPutAll slot s ws) w :=
  List.foldl_concat ..

omit [DecidableEq κ] in
theorem Sub.refl (s : κ → Option V) : Sub s s := fun _ _ h => h

omit [DecidableEq κ] in
theorem Sub.eq_none (h : Sub s' s) (hk : s k = none) : s' k = none := by
  cases hv : s' k with
  | none => rfl
  | some v => exact absurd (h k v hv) (by simp [hk])

theorem Sub.step (h : Sub s' s) : Sub (evictingPut slot s' w) (put s w) := by
  intro k v hv
  by_cases hk : k = w.1
  · subst hk
    have hnew : evictingPut slot s' w w.1 = some w.2 := evictingPut_same
    rwa [put_same, ← hnew]
  · rw [evictingPut_ne hk, Option.filter_eq_some_iff] at hv
    rw [put_ne hk]
    exact h k v hv.1

theorem Sub.writes (h : Sub s' s) (ws : List (κ × V)) :
    Sub (evictingPutAll slot s' ws) (putAll s ws) := by
  induction ws generalizing s s' with
  | nil => exact h
  | cons w ws ih => exact ih h.step

theorem evictingPutAll_eq_none (hk : s k = none) (h : ∀ w ∈ ws, w.1 ≠ k) :
    evictingPutAll slot s ws k = none := by
  induction ws generalizing s with
  | nil => exact hk
  | cons w ws ih =>
    rw [List.forall_mem_cons] at h
    refine ih ?_ h.2
    rw [evictingPut_ne (Ne.symm h.1), hk]
    rfl

theorem evictingPutAll_of_slotless (hv : s k = some v) (hslot : slot v = none)
    (h : ∀ w ∈ ws, w.1 ≠ k) : evictingPutAll slot s ws k = some v := by
  induction ws generalizing s with
  | nil => exact hv
  | cons w ws ih =>
    rw [List.forall_mem_cons] at h
    refine ih ?_ h.2
    rw [evictingPut_ne (Ne.symm h.1), hv, Option.filter_some, if_pos]
    simp [hslot]

theorem evictingPutAll_put_comm (h : ∀ x ∈ ws, x.1 ≠ w.1 ∧ slot x.2 ≠ slot w.2)
    (hfree : ∀ k v, s k = some v → slot v ≠ none → slot v ≠ slot w.2) :
    evictingPutAll slot (put s w) ws = put (evictingPutAll slot s ws) w := by
  induction ws generalizing s with
  | nil => rfl
  | cons x ws ih =>
    rw [List.forall_mem_cons] at h
    have hswap : evictingPut slot (put s w) x = put (evictingPut slot s x) w := by
      funext k
      by_cases hk : k = w.1
      · subst hk
        rw [put_same, evictingPut_ne (Ne.symm h.1.1), put_same, Option.filter_some, if_pos]
        simp [Ne.symm h.1.2]
      · rw [put_ne hk]
        by_cases hx : k = x.1
        · subst hx
          rw [evictingPut_same, evictingPut_same]
        · rw [evictingPut_ne hx, evictingPut_ne hx, put_ne hk]
    have hhead : evictingPutAll slot (put s w) (x :: ws) =
        evictingPutAll slot (put (evictingPut slot s x) w) ws := by
      rw [← hswap]
      rfl
    refine hhead.trans (ih h.2 fun k v hv hsome => ?_)
    by_cases hx : k = x.1
    · subst hx
      rw [evictingPut_same] at hv
      exact Option.some.inj hv ▸ h.1.2
    · rw [evictingPut_ne hx, Option.filter_eq_some_iff] at hv
      exact hfree k v hv.1 hsome

theorem one_left (hsub : Sub s' s) {p : σ} (hk : ∃ w ∈ ws, w.1 = k)
    (hv : putAll s ws k = some v) (hslot : slot v = some p) :
    ∃ k₀, ∀ x ≠ k₀, ∀ u, putAll s ws x = some u → slot u = some p →
      evictingPutAll slot s' ws x = none := by
  induction ws using List.reverseRecOn with
  | nil =>
    obtain ⟨w, hw, -⟩ := hk
    exact absurd hw List.not_mem_nil
  | append_singleton ws w ih =>
    simp only [putAll_concat, evictingPutAll_concat] at hv ⊢
    by_cases hw : slot w.2 = some p
    · refine ⟨w.1, fun x hx u hu hp => ?_⟩
      rw [put_ne hx] at hu
      rw [evictingPut_ne hx]
      cases he : evictingPutAll slot s' ws x with
      | none => rfl
      | some u' =>
        have hu' : u' = u := by
          have hmem : putAll s ws x = some u' := hsub.writes ws x u' he
          exact Option.some.inj (hmem.symm.trans hu)
        simp [hu', hp, hw]
    · have hkw : k ≠ w.1 := by
        rintro rfl
        rw [put_same] at hv
        exact hw (Option.some.inj hv ▸ hslot)
      rw [put_ne hkw] at hv
      have hbefore : ∃ w ∈ ws, w.1 = k := by
        obtain ⟨x, hx, rfl⟩ := hk
        rcases List.mem_append.1 hx with hx | hx
        · exact ⟨x, hx, rfl⟩
        · exact absurd (congrArg Prod.fst (List.mem_singleton.1 hx)) hkw
      obtain ⟨k₀, hk₀⟩ := ih hbefore hv
      refine ⟨k₀, fun x hx u hu hp => ?_⟩
      have hxw : x ≠ w.1 := by
        rintro rfl
        rw [put_same] at hu
        exact hw (Option.some.inj hu ▸ hp)
      rw [put_ne hxw] at hu
      rw [evictingPut_ne hxw, hk₀ x hx u hu hp]
      rfl

theorem lost_of_shared (hsub : Sub s' s) {p : σ} (hk : ∃ w ∈ ws, w.1 = k) (hne : k' ≠ k)
    (hv : putAll s ws k = some v) (hv' : putAll s ws k' = some v') (hslot : slot v = some p)
    (hslot' : slot v' = some p) :
    ∃ x, putAll s ws x ≠ none ∧ evictingPutAll slot s' ws x = none := by
  obtain ⟨k₀, hk₀⟩ := one_left hsub hk hv hslot
  by_cases h : k = k₀
  · exact ⟨k', by simp [hv'], hk₀ k' (h ▸ hne) v' hv' hslot'⟩
  · exact ⟨k, by simp [hv], hk₀ k h v hv hslot⟩

/-! ### Writes that lose nothing -/

/-- The writes of a key keep its slot, and a key that is written later does not leave a slot which
another one is written to now. -/
def Settled (slot : V → Option σ) (s : κ → Option V) : List (κ × V) → Prop
  | [] => True
  | a :: ws =>
    (∀ b ∈ ws, (b.1 = a.1 → slot b.2 = slot a.2) ∧ (b.1 ≠ a.1 → ∀ v, s b.1 = some v →
      slot v ≠ none → slot v = slot a.2 → slot b.2 = slot v)) ∧ Settled slot (put s a) ws

/-- No written key ends in the slot of another one. -/
def Apart (slot : V → Option σ) (s : κ → Option V) (ws : List (κ × V)) : Prop :=
  ∀ w ∈ ws, ∀ k ≠ w.1, ∀ v v', putAll s ws w.1 = some v → putAll s ws k = some v' →
    slot v ≠ none → slot v' ≠ slot v

theorem evictingPut_eq_put
    (h : ∀ k ≠ w.1, ∀ v, s k = some v → slot v ≠ none → slot v ≠ slot w.2) :
    evictingPut slot s w = put s w := by
  funext k
  by_cases hk : k = w.1
  · subst hk
    rw [evictingPut_same, put_same]
  · rw [evictingPut_ne hk, put_ne hk]
    cases hv : s k with
    | none => rfl
    | some v =>
      rw [Option.filter_some, if_pos]
      rw [decide_eq_true_eq, or_iff_not_imp_left]
      exact h k hk v hv

omit [DecidableEq σ] in
theorem slot_putAll {o : Option σ} (hlast : ∀ b ∈ ws, b.1 = k → slot b.2 = o)
    (hv : s k = some v) (hslot : slot v = o) :
    ∃ u, putAll s ws k = some u ∧ slot u = o := by
  rcases putAll_cases s ws k with ⟨-, heq⟩ | ⟨b, hb, hk, heq⟩
  · exact ⟨v, heq.trans hv, hslot⟩
  · exact ⟨b.2, heq, hlast b hb hk⟩

theorem Settled.evictingPutAll_eq (hset : Settled slot s ws) (hapart : Apart slot s ws) :
    evictingPutAll slot s ws = putAll s ws := by
  induction ws generalizing s with
  | nil => rfl
  | cons w ws ih =>
    obtain ⟨hhead, hrest⟩ := hset
    have hfree : evictingPut slot s w = put s w := by
      refine evictingPut_eq_put fun k hk v hv hsome hsame => ?_
      obtain ⟨u, hu, hslotu⟩ : ∃ u, putAll (put s w) ws w.1 = some u ∧ slot u = slot w.2 :=
        slot_putAll (fun b hb hbw => (hhead b hb).1 hbw) put_same rfl
      obtain ⟨u', hu', hslotu'⟩ : ∃ u', putAll (put s w) ws k = some u' ∧ slot u' = slot v := by
        refine slot_putAll (fun b hb hbk => ?_) ((put_ne hk).trans hv) rfl
        subst hbk
        exact (hhead b hb).2 hk v hv hsome hsame
      refine hapart w (List.mem_cons_self ..) k hk u u' hu hu' ?_ ?_
      · rwa [hslotu, ← hsame]
      · rw [hslotu, hslotu', hsame]
    have htail : Apart slot (put s w) ws := fun b hb => hapart b (List.mem_cons_of_mem _ hb)
    have heq : evictingPutAll slot s (w :: ws) = evictingPutAll slot (put s w) ws := by
      rw [← hfree]
      rfl
    rw [heq]
    exact ih hrest htail

theorem Settled.eq_or_lost (hset : Settled slot s ws) :
    (Apart slot s ws ∧ evictingPutAll slot s ws = putAll s ws) ∨
      (¬Apart slot s ws ∧ ∃ k, putAll s ws k ≠ none ∧ evictingPutAll slot s ws k = none) := by
  by_cases hapart : Apart slot s ws
  · exact .inl ⟨hapart, hset.evictingPutAll_eq hapart⟩
  · refine .inr ⟨hapart, ?_⟩
    unfold Apart at hapart
    push Not at hapart
    obtain ⟨w, hw, k, hk, v, v', hv, hv', hsome, hsame⟩ := hapart
    obtain ⟨p, hp⟩ := Option.ne_none_iff_exists'.1 hsome
    exact lost_of_shared (Sub.refl s) ⟨w, hw, rfl⟩ hk hv hv' hp (hsame.trans hp)

/-- Every write is of a key held already and keeps its slot. -/
def Constant (slot : V → Option σ) (s : κ → Option V) (ws : List (κ × V)) : Prop :=
  ∀ w ∈ ws, ∃ v, s w.1 = some v ∧ slot v = slot w.2

omit [DecidableEq σ] in
theorem Constant.step (h : Constant slot s ws) (hw : ∃ v, s w.1 = some v ∧ slot v = slot w.2) :
    Constant slot (put s w) ws := by
  intro x hx
  obtain ⟨v, hv, hslot⟩ := h x hx
  by_cases hk : x.1 = w.1
  · obtain ⟨v', hv', hslot'⟩ := hw
    have hsame : v = v' := Option.some.inj (hv.symm.trans (hk ▸ hv'))
    refine ⟨w.2, hk ▸ put_same, ?_⟩
    rw [← hslot', ← hsame, hslot]
  · exact ⟨v, (put_ne hk).trans hv, hslot⟩

omit [DecidableEq σ] in
theorem Constant.settled (h : Constant slot s ws) : Settled slot s ws := by
  induction ws generalizing s with
  | nil => trivial
  | cons w ws ih =>
    obtain ⟨hw, hrest⟩ := List.forall_mem_cons.1 h
    refine ⟨fun b hb => ⟨fun hkey => ?_, fun _ v hv _ _ => ?_⟩, ih (Constant.step hrest hw)⟩
    · obtain ⟨v, hv, hslot⟩ := hrest b hb
      obtain ⟨v', hv', hslot'⟩ := hw
      have hsame : v = v' := Option.some.inj (hv.symm.trans (hkey ▸ hv'))
      rw [← hslot, hsame, hslot']
    · obtain ⟨v', hv', hslot'⟩ := hrest b hb
      rw [← hslot', Option.some.inj (hv'.symm.trans hv)]

omit [DecidableEq σ] in
theorem settled_append {ws' : List (κ × V)}
    (hmoves : ws.Pairwise fun a b => b.1 ≠ a.1 ∧ ∀ v, s b.1 = some v → slot v ≠ none →
      slot v = slot a.2 → slot b.2 = slot v) (hconst : Constant slot (putAll s ws) ws') :
    Settled slot s (ws ++ ws') := by
  induction ws generalizing s with
  | nil => exact hconst.settled
  | cons a ws ih =>
    rw [List.pairwise_cons] at hmoves
    refine ⟨fun b hb => ?_, ih ?_ hconst⟩
    · rcases List.mem_append.1 hb with hb | hb
      · exact ⟨fun heq => absurd heq (hmoves.1 b hb).1, fun _ => (hmoves.1 b hb).2⟩
      · obtain ⟨v', hv', hslot'⟩ := hconst b hb
        have hlast : putAll (put s a) ws b.1 = some v' := hv'
        refine ⟨fun hkey => ?_, fun hkey v hv hsome hsame => ?_⟩
        · have hnot : ∀ w ∈ ws, w.1 ≠ b.1 := fun w hw => hkey ▸ (hmoves.1 w hw).1
          rw [putAll_of_not_mem hnot, hkey, put_same] at hlast
          rw [← hslot', Option.some.inj hlast]
        · rcases putAll_cases (put s a) ws b.1 with ⟨-, heq⟩ | ⟨c, hc, hcb, heq⟩
          · rw [heq, put_ne hkey, hv] at hlast
            rw [← hslot', Option.some.inj hlast]
          · rw [heq] at hlast
            rw [← hslot', ← Option.some.inj hlast]
            exact (hmoves.1 c hc).2 v (hcb ▸ hv) hsome hsame
    · refine hmoves.2.imp_of_mem fun {x y} _ hy hxy => ⟨hxy.1, fun v hv => ?_⟩
      rw [put_ne (hmoves.1 y hy).1] at hv
      exact hxy.2 v hv

omit [DecidableEq σ] in
theorem Constant.slot_putAll (h : Constant slot s ws) (k : κ) :
    (putAll s ws k).map slot = (s k).map slot := by
  rcases putAll_cases s ws k with ⟨-, heq⟩ | ⟨w, hw, rfl, heq⟩
  · rw [heq]
  · obtain ⟨v, hv, hslot⟩ := h w hw
    rw [heq, hv, Option.map_some, Option.map_some, hslot]

omit [DecidableEq σ] in
theorem Constant.putAll_eq_none (h : Constant slot s ws) : putAll s ws k = none ↔ s k = none := by
  have hk := h.slot_putAll k
  rw [← Option.map_eq_none_iff (f := slot), hk, Option.map_eq_none_iff]

omit [DecidableEq σ] in
theorem Constant.apart_iff (h : Constant slot s ws) :
    Apart slot s ws ↔ ∀ w ∈ ws, ∀ k ≠ w.1, ∀ v v', s w.1 = some v → s k = some v' →
      slot v ≠ none → slot v' ≠ slot v := by
  refine forall₂_congr fun w _ => forall₂_congr fun k _ => ?_
  have hw := h.slot_putAll w.1
  have hk := h.slot_putAll k
  constructor
  · intro hall v v' hv hv' hsome
    rw [hv, Option.map_some, Option.map_eq_some_iff] at hw
    rw [hv', Option.map_some, Option.map_eq_some_iff] at hk
    obtain ⟨u, hu, huslot⟩ := hw
    obtain ⟨u', hu', huslot'⟩ := hk
    rw [← huslot, ← huslot']
    exact hall u u' hu hu' (huslot ▸ hsome)
  · intro hall u u' hu hu' hsome
    rw [hu, Option.map_some, eq_comm, Option.map_eq_some_iff] at hw
    rw [hu', Option.map_some, eq_comm, Option.map_eq_some_iff] at hk
    obtain ⟨v, hv, hvslot⟩ := hw
    obtain ⟨v', hv', hvslot'⟩ := hk
    rw [← hvslot, ← hvslot']
    exact hall v v' hv hv' (hvslot ▸ hsome)

/-! ### Distinct slots -/

/-- No two keys hold values of one slot. -/
def Distinct {τ : Type*} (slot : V → τ) (s : κ → Option V) : Prop :=
  ∀ k k' v v', s k = some v → s k' = some v' → slot v = slot v' → k = k'

section Distinct

variable {τ : Type*} {key : V → τ}

omit [DecidableEq κ] in
theorem Distinct.of_slots (h : Distinct key s) (hs : ∀ k, (s' k).map key = (s k).map key) :
    Distinct key s' := by
  intro k k' v v' hv hv' hsame
  have hk := hs k
  have hk' := hs k'
  rw [hv, Option.map_some, eq_comm, Option.map_eq_some_iff] at hk
  rw [hv', Option.map_some, eq_comm, Option.map_eq_some_iff] at hk'
  obtain ⟨u, hu, hslot⟩ := hk
  obtain ⟨u', hu', hslot'⟩ := hk'
  exact h k k' u u' hu hu' (hslot.trans (hsame.trans hslot'.symm))

end Distinct

/-! ### Stores as lists -/

/-- The list holds exactly what the store does. -/
structure Lists (l : List (κ × V)) (s : κ → Option V) : Prop where
  nodup : (l.map Prod.fst).Nodup
  mem : ∀ k v, (k, v) ∈ l ↔ s k = some v

omit [DecidableEq κ] in
theorem Lists.perm {l l' : List (κ × V)} (h : Lists l s) (h' : Lists l' s) : l.Perm l' := by
  refine (List.perm_ext_iff_of_nodup h.nodup.of_map h'.nodup.of_map).2 fun x => ?_
  rw [h.mem x.1 x.2, h'.mem x.1 x.2]

omit [DecidableEq κ] in
theorem Lists.mem_keys {l : List (κ × V)} (h : Lists l s) : k ∈ l.map Prod.fst ↔ s k ≠ none := by
  rw [Option.ne_none_iff_exists', List.mem_map]
  constructor
  · rintro ⟨⟨k', v⟩, hmem, rfl⟩
    exact ⟨v, (h.mem _ v).1 hmem⟩
  · rintro ⟨v, hv⟩
    exact ⟨(k, v), (h.mem k v).2 hv, rfl⟩

theorem Lists.length_le {l l' : List (κ × V)} (h : Lists l s) (h' : Lists l' s')
    (hkeys : ∀ k, s' k ≠ none → s k ≠ none) : l'.length ≤ l.length := by
  have hsub : l'.map Prod.fst ⊆ l.map Prod.fst := fun x hx =>
    h.mem_keys.2 (hkeys x (h'.mem_keys.1 hx))
  have hlen := (h'.nodup.subperm hsub).length_le
  rwa [List.length_map, List.length_map] at hlen

theorem Lists.length_lt {l l' : List (κ × V)} (h : Lists l s) (h' : Lists l' s')
    (hkeys : ∀ k, s' k ≠ none → s k ≠ none) (hk : s k ≠ none) (hk' : s' k = none) :
    l'.length < l.length := by
  have hsub : l'.map Prod.fst ⊆ l.map Prod.fst := fun x hx =>
    h.mem_keys.2 (hkeys x (h'.mem_keys.1 hx))
  refine lt_of_le_of_ne (h.length_le h' hkeys) fun hlen => ?_
  have hperm : (l'.map Prod.fst).Perm (l.map Prod.fst) :=
    (h'.nodup.subperm hsub).perm_of_length_le (by rw [List.length_map, List.length_map, hlen])
  exact h'.mem_keys.1 (hperm.mem_iff.2 (h.mem_keys.2 hk)) hk'

theorem Lists.of_put {l : List (κ × V)} (h : Lists l (put s w)) (hw : s w.1 = none) :
    ∃ l₀, Lists l₀ s ∧ l.Perm (w :: l₀) := by
  have hrest : Lists (l.filter fun x => x.1 ≠ w.1) s := by
    refine ⟨h.nodup.sublist (List.Sublist.map _ List.filter_sublist), fun k v => ?_⟩
    rw [List.mem_filter, h.mem, decide_eq_true_eq]
    by_cases hk : k = w.1
    · subst hk
      simp [hw]
    · simp [put_ne hk, hk]
  refine ⟨_, hrest, h.perm ?_⟩
  refine ⟨List.nodup_cons.2 ⟨fun hmem => ?_, hrest.nodup⟩, fun k v => ?_⟩
  · exact hrest.mem_keys.1 hmem hw
  · rw [List.mem_cons, hrest.mem]
    by_cases hk : k = w.1
    · subst hk
      rw [put_same, hw, Option.some.injEq]
      constructor
      · rintro (heq | hnone)
        · exact congrArg Prod.snd heq.symm
        · cases hnone
      · rintro rfl
        exact .inl rfl
    · rw [put_ne hk]
      refine or_iff_right fun heq => hk (congrArg Prod.fst heq)

theorem Lists.value_eq {l l' : List (κ × V)} (h : Lists l (put s (k, v)))
    (h' : Lists l' (put s (k, v'))) (hperm : (l.map Prod.snd).Perm (l'.map Prod.snd)) : v = v' := by
  have hbase : ∀ u, put s (k, u) = put (Function.update s k none) (k, u) := fun u => by
    rw [put, put, Function.update_idem]
  rw [hbase] at h h'
  have hnone : Function.update s k none k = none := Function.update_self ..
  obtain ⟨l₀, hl₀, hperm₀⟩ := h.of_put hnone
  obtain ⟨l₁, hl₁, hperm₁⟩ := h'.of_put hnone
  have hrest : ((l₀.map Prod.snd : List V) : Multiset V) = (l₁.map Prod.snd : List V) :=
    Multiset.coe_eq_coe.2 ((hl₀.perm hl₁).map _)
  have hcons : ((v :: l₀.map Prod.snd : List V) : Multiset V) = (v' :: l₁.map Prod.snd : List V) :=
    Multiset.coe_eq_coe.2 (((hperm₀.map Prod.snd).symm.trans hperm).trans (hperm₁.map Prod.snd))
  rw [← Multiset.cons_coe, ← Multiset.cons_coe, hrest] at hcons
  exact (Multiset.cons_inj_left _).1 hcons

end Evicting

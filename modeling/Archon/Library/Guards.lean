import Mathlib.Data.List.Forall2

/-!
# Checks in `Except`

Guarded computations, and the findings of a list of checks.
-/

/-!
## Guarded computations in `Except`

The early-return style of a handler: `ensure c e` stops with `e` unless `c` holds,
`okOr o e` unwraps an option or stops. The `_eq_ok` lemmas invert an accepted run into
the guards it passed and the value it returned.
-/

namespace Guards

universe u v
variable {ε : Type u} {α β : Type v}

/-- Stop with `e` unless `c` holds. -/
def ensure (c : Prop) [Decidable c] (e : ε) : Except ε Unit :=
  if c then .ok () else .error e

/-- Unwrap an option, or stop with `e` (Rust's `Option::ok_or`). -/
def okOr (o : Option α) (e : ε) : Except ε α :=
  match o with
  | some a => .ok a
  | none => .error e

@[simp] theorem ensure_eq_ok {c : Prop} [Decidable c] {e : ε} {x : Unit} :
    ensure c e = .ok x ↔ c := by
  by_cases h : c <;> simp [ensure, h]

@[simp] theorem okOr_eq_ok {o : Option α} {e : ε} {a : α} :
    okOr o e = .ok a ↔ o = some a := by
  cases o <;> simp [okOr]

@[simp] theorem bind_eq_ok {x : Except ε α} {f : α → Except ε β} {b : β} :
    (x >>= f) = .ok b ↔ ∃ a, x = .ok a ∧ f a = .ok b := by
  cases x <;> simp [bind, Except.bind]

@[simp] theorem pure_eq_ok {a b : α} : (pure a : Except ε α) = .ok b ↔ a = b := by
  simp [pure, Except.pure]

theorem ensure_bind_eq_ok {γ : Type} {c : Prop} [Decidable c] {e : ε} {f : Unit → Except ε γ}
    {b : γ} :
    (ensure c e >>= f) = .ok b ↔ c ∧ f () = .ok b := by
  by_cases h : c <;> simp [ensure, h, bind, Except.bind]

theorem okOr_bind_eq_ok {o : Option α} {e : ε} {f : α → Except ε β} {b : β} :
    (okOr o e >>= f) = .ok b ↔ ∃ a, o = some a ∧ f a = .ok b := by
  simp only [bind_eq_ok, okOr_eq_ok]

theorem ite_eq_ok {c : Prop} [Decidable c] {x y : Except ε α} {a : α} :
    (if c then x else y) = .ok a ↔ (c ∧ x = .ok a) ∨ (¬c ∧ y = .ok a) := by
  by_cases h : c <;> simp [h]

theorem check_if_eq_ok {c : Prop} [Decidable c] {x : Except ε PUnit} {r : Except ε α} {a : α} :
    (if c then x >>= fun _ => r else r) = .ok a ↔ (c → x = .ok ⟨⟩) ∧ r = .ok a := by
  by_cases h : c
  · rw [if_pos h, bind_eq_ok]
    constructor
    · rintro ⟨u, hu, hr⟩
      exact ⟨fun _ => hu, hr⟩
    · rintro ⟨hu, hr⟩
      exact ⟨_, hu h, hr⟩
  · rw [if_neg h]
    exact ⟨fun hr => ⟨fun hc => absurd hc h, hr⟩, fun hr => hr.2⟩

theorem bind_eq_error_of_ne {x : Except ε α} {f : α → Except ε β} {e : ε} (h : x ≠ .error e) :
    (x >>= f) = .error e ↔ ∃ a, x = .ok a ∧ f a = .error e := by
  cases x with
  | error e' => simpa [bind, Except.bind] using h
  | ok a => simp [bind, Except.bind]

theorem ensure_ne_error {c : Prop} [Decidable c] {e e' : ε} (h : e' ≠ e) :
    ensure c e' ≠ .error e := by
  by_cases hc : c <;> simp [ensure, hc, h]

theorem okOr_ne_error {o : Option α} {e e' : ε} (h : e' ≠ e) : okOr o e' ≠ .error e := by
  cases o <;> simp [okOr, h]

theorem ensure_bind_eq_error_of_ne {γ : Type} {c : Prop} [Decidable c] {e e' : ε}
    {f : Unit → Except ε γ} (h : e' ≠ e) :
    (ensure c e' >>= f) = .error e ↔ c ∧ f () = .error e := by
  by_cases hc : c <;> simp [ensure, hc, bind, Except.bind, h]

theorem ensure_bind_eq_error_self {γ : Type} {c : Prop} [Decidable c] {e : ε}
    {f : Unit → Except ε γ} (h : f () ≠ .error e) : (ensure c e >>= f) = .error e ↔ ¬c := by
  by_cases hc : c <;> simp [ensure, hc, bind, Except.bind, h]

theorem forM_eq_ok {ι : Type v} {xs : List ι} {f : ι → Except ε PUnit} :
    forM xs f = .ok ⟨⟩ ↔ ∀ i ∈ xs, f i = .ok ⟨⟩ := by
  induction xs with
  | nil => simp [pure, Except.pure]
  | cons i xs ih =>
    rw [List.forM_cons, bind_eq_ok, List.forall_mem_cons, ih]
    constructor
    · rintro ⟨⟨⟩, hi, hrest⟩
      exact ⟨hi, hrest⟩
    · rintro ⟨hi, hrest⟩
      exact ⟨⟨⟩, hi, hrest⟩

theorem forM_ne_error {ι : Type v} {xs : List ι} {f : ι → Except ε PUnit} {e : ε}
    (h : ∀ i ∈ xs, f i ≠ .error e) : forM xs f ≠ .error e := by
  induction xs with
  | nil => simp [pure, Except.pure]
  | cons i xs ih =>
    obtain ⟨hi, hrest⟩ := List.forall_mem_cons.1 h
    rw [List.forM_cons, ne_eq, bind_eq_error_of_ne hi]
    exact fun ⟨_, _, herror⟩ => ih hrest herror

theorem mapM_eq_ok {ι : Type v} {f : ι → Except ε α} {xs : List ι} {ys : List α} :
    xs.mapM f = .ok ys ↔ List.Forall₂ (fun x y => f x = .ok y) xs ys := by
  induction xs generalizing ys with
  | nil =>
    rw [List.mapM_nil, pure_eq_ok, List.forall₂_nil_left_iff]
    exact eq_comm
  | cons x xs ih =>
    simp only [List.mapM_cons, bind_eq_ok, pure_eq_ok, ih, List.forall₂_cons_left_iff]
    constructor
    · rintro ⟨y, hy, ys, hys, rfl⟩
      exact ⟨y, ys, hy, hys, rfl⟩
    · rintro ⟨y, ys, hy, hys, rfl⟩
      exact ⟨y, hy, ys, hys, rfl⟩

theorem foldlM_invariant_mem {ι : Type v} {P : α → Prop} {f : α → ι → Except ε α} :
    ∀ (xs : List ι) (a a' : α), (∀ a, ∀ i ∈ xs, ∀ a', P a → f a i = .ok a' → P a') → P a →
      xs.foldlM f a = .ok a' → P a' := by
  intro xs
  induction xs with
  | nil =>
    intro a a' _ ha h
    simp only [List.foldlM_nil, pure_eq_ok] at h
    exact h ▸ ha
  | cons i xs ih =>
    intro a a' hstep ha h
    simp only [List.foldlM_cons, bind_eq_ok] at h
    obtain ⟨b, hb, hrest⟩ := h
    have hi := hstep a i (List.mem_cons_self ..) b ha hb
    exact ih b a' (fun c j hj => hstep c j (List.mem_cons_of_mem _ hj)) hi hrest

theorem foldlM_invariant {ι : Type v} {P : α → Prop} {f : α → ι → Except ε α}
    (hstep : ∀ a i a', P a → f a i = .ok a' → P a') (xs : List ι) (a a' : α) (ha : P a)
    (h : xs.foldlM f a = .ok a') : P a' :=
  foldlM_invariant_mem xs a a' (fun a i _ => hstep a i) ha h

end Guards

/-!
## Findings of a list of checks

A check finds a list of complaints, or stops with a fault. Over a list, the complaints are put
together in order and the first fault stops the whole.
-/

namespace Collect
open Guards

variable {ε α β : Type*}

/-- What `f` finds at each element, in order. -/
def collect (f : α → Except ε (List β)) : List α → Except ε (List β)
  | [] => .ok []
  | x :: xs => do
    let found ← f x
    let others ← collect f xs
    pure (found ++ others)

variable {f : α → Except ε (List β)}

theorem collect_cons_eq_ok {x : α} {xs : List α} {ys : List β} :
    collect f (x :: xs) = .ok ys ↔
      ∃ found, f x = .ok found ∧ ∃ others, collect f xs = .ok others ∧ found ++ others = ys := by
  rw [collect, bind_eq_ok]
  simp only [bind_eq_ok, pure_eq_ok]

theorem collect_ends {xs : List α} :
    (∃ ys, collect f xs = .ok ys) ↔ ∀ x ∈ xs, ∃ found, f x = .ok found := by
  induction xs with
  | nil => simp [collect]
  | cons x xs ih =>
    rw [List.forall_mem_cons, ← ih]
    simp only [collect_cons_eq_ok]
    constructor
    · rintro ⟨-, found, hx, others, hxs, -⟩
      exact ⟨⟨found, hx⟩, others, hxs⟩
    · rintro ⟨⟨found, hx⟩, others, hxs⟩
      exact ⟨_, found, hx, others, hxs, rfl⟩

theorem collect_eq_nil {xs : List α} : collect f xs = .ok [] ↔ ∀ x ∈ xs, f x = .ok [] := by
  induction xs with
  | nil => simp [collect]
  | cons x xs ih =>
    rw [List.forall_mem_cons, ← ih, collect_cons_eq_ok]
    constructor
    · rintro ⟨found, hx, others, hxs, hnil⟩
      obtain ⟨rfl, rfl⟩ := List.append_eq_nil_iff.1 hnil
      exact ⟨hx, hxs⟩
    · rintro ⟨hx, hxs⟩
      exact ⟨[], hx, [], hxs, rfl⟩

end Collect

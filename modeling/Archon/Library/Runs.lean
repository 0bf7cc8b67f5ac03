import Mathlib.Logic.Basic

/-!
# Labelled transition systems and their runs

A system has initial states and labelled steps. `Reaches ok` collects the states of the runs
all of whose steps meet `ok`; with `ok` always true it is plain reachability. An invariant is
proved once per step and holds in every state reached.
-/

/-- A labelled transition system: states `σ`, inputs `ι`. -/
structure System (σ ι : Type*) where
  init : σ → Prop
  step : σ → ι → σ → Prop

namespace System

variable {σ ι : Type*} {S : System σ ι} {ok ok' : σ → ι → Prop} {P Q : σ → Prop}

/-- The states reached by the runs whose every step meets `ok`, read at the state before it. -/
inductive Reaches (S : System σ ι) (ok : σ → ι → Prop) : σ → Prop
  | init {s : σ} : S.init s → Reaches S ok s
  | step {s : σ} {i : ι} {s' : σ} : Reaches S ok s → ok s i → S.step s i s' → Reaches S ok s'

/-- Plain reachability: any run. -/
def Reachable (S : System σ ι) : σ → Prop := S.Reaches fun _ _ => True

/-- The system started at a given state. -/
def startedAt (S : System σ ι) (s : σ) : System σ ι := { S with init := fun x => x = s }

theorem Reaches.mono (hok : ∀ s i, ok s i → ok' s i) {s : σ} (h : S.Reaches ok s) :
    S.Reaches ok' s := by
  induction h with
  | init h => exact .init h
  | step _ hi hs ih => exact .step ih (hok _ _ hi) hs

theorem Reaches.reachable {s : σ} (h : S.Reaches ok s) : S.Reachable s :=
  h.mono fun _ _ _ => trivial

theorem Reachable.init {s : σ} (h : S.init s) : S.Reachable s := Reaches.init h

theorem Reachable.step {s s' : σ} {i : ι} (h : S.Reachable s) (hs : S.step s i s') :
    S.Reachable s' := Reaches.step h trivial hs

/-- The run rule: what holds initially and is kept by every step that meets `ok` holds in every
state reached by such steps. -/
theorem Reaches.invariant (h0 : ∀ s, S.init s → P s)
    (hstep : ∀ s i s', P s → ok s i → S.step s i s' → P s') {s : σ} (h : S.Reaches ok s) :
    P s := by
  induction h with
  | init h => exact h0 _ h
  | step _ hi hs ih => exact hstep _ _ _ ih hi hs

/-- The run rule relative to a property `Q` already known of every reachable state. -/
theorem Reaches.invariant_of (hQ : ∀ s, S.Reachable s → Q s) (h0 : ∀ s, S.init s → P s)
    (hstep : ∀ s i s', Q s → P s → ok s i → S.step s i s' → P s') {s : σ}
    (h : S.Reaches ok s) : P s := by
  have key : S.Reachable s ∧ P s := by
    induction h with
    | init h => exact ⟨Reachable.init h, h0 _ h⟩
    | step _ hi hs ih => exact ⟨ih.1.step hs, hstep _ _ _ (hQ _ ih.1) ih.2 hi hs⟩
  exact key.2

theorem Reachable.invariant (h0 : ∀ s, S.init s → P s)
    (hstep : ∀ s i s', P s → S.step s i s' → P s') {s : σ} (h : S.Reachable s) : P s :=
  Reaches.invariant h0 (fun s i s' hp _ hs => hstep s i s' hp hs) h

theorem Reachable.foldlM {f : σ → ι → Option σ} (hf : ∀ s i s', f s i = some s' → S.step s i s')
    (is : List ι) : ∀ s s', S.Reachable s → is.foldlM f s = some s' → S.Reachable s' := by
  induction is with
  | nil =>
    intro s s' h hs
    obtain rfl := Option.some.inj hs
    exact h
  | cons i is ih =>
    intro s s' h hs
    rw [List.foldlM_cons, Option.bind_eq_bind, Option.bind_eq_some_iff] at hs
    obtain ⟨s₁, hs₁, hs⟩ := hs
    exact ih s₁ s' (h.step (hf s i s₁ hs₁)) hs

/-- A run given by its inputs, for a deterministic step that may refuse; inputs outside `ok` are
refused too. -/
def replay {ε : Type*} (f : σ → ι → Except ε σ) (ok : σ → ι → Prop) [∀ s i, Decidable (ok s i)]
    (s : σ) : List ι → Option σ
  | [] => some s
  | i :: is =>
    if ok s i then
      match f s i with
      | .ok s' => replay f ok s' is
      | .error _ => none
    else none

theorem reaches_replay_of {ε κ : Type*} {f : σ → κ → Except ε σ} {enc : κ → ι}
    {pass : σ → κ → Prop} [∀ s i, Decidable (pass s i)]
    (hok : ∀ s i, pass s i → ok s (enc i))
    (hf : ∀ s i s', pass s i → f s i = .ok s' → S.step s (enc i) s') :
    ∀ (is : List κ) (s s' : σ), S.Reaches ok s → replay f pass s is = some s' →
      S.Reaches ok s' := by
  intro is
  induction is with
  | nil =>
    intro s s' h hr
    cases hr
    exact h
  | cons i is ih =>
    intro s s' h hr
    rw [replay] at hr
    split at hr
    · rename_i hi
      split at hr
      · rename_i m hm
        exact ih m s' (h.step (hok s i hi) (hf s i m hi hm)) hr
      · cases hr
    · cases hr

theorem reaches_replay {ε : Type*} {f : σ → ι → Except ε σ} [∀ s i, Decidable (ok s i)]
    (hf : ∀ s i s', f s i = .ok s' → S.step s i s') (is : List ι) (s s' : σ)
    (h : S.Reaches ok s) (hr : replay f ok s is = some s') : S.Reaches ok s' :=
  reaches_replay_of (fun _ _ hi => hi) (fun s i s' _ hs => hf s i s' hs) is s s' h hr

end System

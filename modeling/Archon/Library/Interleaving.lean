import Mathlib.Logic.Function.Basic
import Archon.Library.Runs

/-!
# Threads over a shared state

Any number of threads, each at a phase of its own, take atomic steps on a shared state. The rule of
non-interference: an invariant of the shared state, an assertion for the phase of each thread and a
relation between the phases of two threads hold in every state reached, when the step of a thread
keeps them for itself and for the others.
-/

/-- What one thread does next. An input stands for what the step does not read. -/
structure Program (σ φ ι : Type*) where
  init : σ → Prop
  idle : φ
  step : σ → φ → ι → Option (σ × φ)

/-- The shared state and the phase of every thread. -/
structure Threads (τ σ φ : Type*) where
  shared : σ
  phase : τ → φ

namespace Threads

variable {τ σ φ : Type*} [DecidableEq τ]

/-- The thread `t` has moved. -/
def moved (s : Threads τ σ φ) (t : τ) (next : σ × φ) : Threads τ σ φ :=
  ⟨next.1, Function.update s.phase t next.2⟩

variable {s : Threads τ σ φ} {t t' : τ} {next : σ × φ}

@[simp] theorem moved_shared : (s.moved t next).shared = next.1 := rfl

@[simp] theorem moved_phase_self : (s.moved t next).phase t = next.2 := Function.update_self ..

theorem moved_phase_ne (h : t' ≠ t) : (s.moved t next).phase t' = s.phase t' :=
  Function.update_of_ne h ..

end Threads

namespace Program

variable {τ σ φ ι : Type*} [DecidableEq τ] (P : Program σ φ ι)

/-- The next step of a thread. -/
def stepAt (s : Threads τ σ φ) (i : τ × ι) : Option (Threads τ σ φ) :=
  (P.step s.shared (s.phase i.1) i.2).map (s.moved i.1)

/-- The interleavings of any number of threads, none under way at the start. -/
def system : System (Threads τ σ φ) (τ × ι) where
  init s := P.init s.shared ∧ ∀ t, s.phase t = P.idle
  step s i s' := P.stepAt s i = some s'

variable {P} {s s' : Threads τ σ φ} {t : τ} {i : ι} {next : σ × φ}

theorem stepAt_eq_some : P.stepAt s (t, i) = some s' ↔
    ∃ next, P.step s.shared (s.phase t) i = some next ∧ s.moved t next = s' :=
  Option.map_eq_some_iff

/-- A run given by its steps, none of which fails `ok`. -/
def runIn (P : Program σ φ ι) (ok : Threads τ σ φ → τ × ι → Prop) [∀ s i, Decidable (ok s i)]
    (s : Threads τ σ φ) (is : List (τ × ι)) : Option (Threads τ σ φ) :=
  is.foldlM (fun s i => if ok s i then P.stepAt s i else none) s

theorem reaches_runIn {ok : Threads τ σ φ → τ × ι → Prop} [∀ s i, Decidable (ok s i)]
    (is : List (τ × ι)) : ∀ s s', P.system.Reaches ok s → P.runIn ok s is = some s' →
      P.system.Reaches ok s' := by
  induction is with
  | nil =>
    intro s s' h hrun
    obtain rfl := Option.some.inj hrun
    exact h
  | cons i is ih =>
    intro s s' h hrun
    rw [runIn, List.foldlM_cons, Option.bind_eq_bind, Option.bind_eq_some_iff] at hrun
    obtain ⟨s₁, hs₁, hrest⟩ := hrun
    split at hs₁
    · next hok => exact ih s₁ s' (h.step hok hs₁) hrest
    · cases hs₁

/-- A run given by its steps. -/
def run (P : Program σ φ ι) (s : Threads τ σ φ) (is : List (τ × ι)) : Option (Threads τ σ φ) :=
  P.runIn (fun _ _ => True) s is

theorem reachable_run {is : List (τ × ι)} (h : P.system.Reachable s) (hrun : P.run s is = some s') :
    P.system.Reachable s' := reaches_runIn is s s' h hrun

/-- An invariant of the shared state, an assertion for each phase, and a relation between the
phases of two threads. -/
structure Annotation (σ φ : Type*) where
  shared : σ → Prop
  phase : σ → φ → Prop
  pair : φ → φ → Prop

/-- The annotation holds in a state of the threads. -/
structure Annotation.Holds (A : Annotation σ φ) (s : Threads τ σ φ) : Prop where
  shared : A.shared s.shared
  phase : ∀ t, A.phase s.shared (s.phase t)
  pair : ∀ t t', t ≠ t' → A.pair (s.phase t) (s.phase t')

/-- What the step of thread `t` from `s` owes: the assertion of its new phase, and no interference
with the others. -/
structure Annotation.Kept (A : Annotation σ φ) (s : Threads τ σ φ) (t : τ) (next : σ × φ) :
    Prop where
  shared : A.shared next.1
  phase : A.phase next.1 next.2
  others : ∀ t', t' ≠ t → A.phase next.1 (s.phase t')
  pair : ∀ t', t' ≠ t → A.pair next.2 (s.phase t') ∧ A.pair (s.phase t') next.2

theorem Annotation.Kept.holds {A : Annotation σ φ} (hs : A.Holds s) (h : A.Kept s t next) :
    A.Holds (s.moved t next) where
  shared := h.shared
  phase t' := by
    by_cases ht : t' = t
    · rw [ht, Threads.moved_phase_self]
      exact h.phase
    · rw [Threads.moved_phase_ne ht]
      exact h.others t' ht
  pair t₁ t₂ hne := by
    by_cases h₁ : t₁ = t
    · have h₂ : t₂ ≠ t := fun h₂ => hne (h₁.trans h₂.symm)
      rw [h₁, Threads.moved_phase_self, Threads.moved_phase_ne h₂]
      exact (h.pair t₂ h₂).1
    · rw [Threads.moved_phase_ne h₁]
      by_cases h₂ : t₂ = t
      · rw [h₂, Threads.moved_phase_self]
        exact (h.pair t₁ h₁).2
      · rw [Threads.moved_phase_ne h₂]
        exact hs.pair t₁ t₂ hne

theorem holds_of_reaches {A : Annotation σ φ} {ok : Threads τ σ φ → τ × ι → Prop}
    (h0 : ∀ x, P.init x → A.shared x ∧ A.phase x P.idle) (hidle : A.pair P.idle P.idle)
    (hstep : ∀ s t i next, A.Holds s → ok s (t, i) → P.step s.shared (s.phase t) i = some next →
      A.Kept s t next)
    (h : P.system.Reaches ok s) : A.Holds s := by
  refine h.invariant ?_ ?_
  · rintro s ⟨hinit, hphase⟩
    obtain ⟨hshared, hassert⟩ := h0 s.shared hinit
    exact
      { shared := hshared
        phase := fun t => by rw [hphase t]; exact hassert
        pair := fun t t' _ => by rw [hphase t, hphase t']; exact hidle }
  · rintro s ⟨t, i⟩ s' hs hok hs'
    obtain ⟨next, hnext, rfl⟩ := stepAt_eq_some.1 hs'
    exact (hstep s t i next hs hok hnext).holds hs

end Program

import Archon.Engine.Process

/-!
# Replaying events

A tournament created by an organizer and the events sent to it, as the tests of the engine drive
it. A replay whose events all meet `ok` ends in a state reached under `ok`.
-/

namespace Archon.Engine
open Seating

/-- A generator that leaves every order as it is. -/
def fixedOrder : RandomSource where
  Gen := Unit
  seedFromU64 _ := ()
  nextU64 _ := (0, ())
  shuffle xs _ := (xs, ())
  genRange lo _ _ := (lo, ())
  genUnit _ := (0, ())
  sqrt x := x
  exp x := x
  ln x := x
  shuffle_perm _ _ := List.Perm.refl _
  genRange_mem _ _ _ h := ⟨Nat.le_refl _, h⟩

def organizer : ActorContext := ⟨"organizer", ["IC"], true, [], ""⟩

/-- A request that sets nothing but the name. -/
def plainRequest : CreateRequest :=
  ⟨fun f => if f = .name then some (.text "Event") else none, "event", ""⟩

/-- An event of the organizer, without sanctions and decks. -/
def sent (event : TournamentEvent) : EventInput := ⟨event, organizer, [], []⟩

/-- Open registration, add the players and check them in. -/
def gathering (uids : List Uid) : List TournamentEvent :=
  .openRegistration :: uids.map (fun uid => .addPlayer uid (some uid) none false)
    ++ [.closeRegistration, .checkInAll]

section Replay

variable (ok : Tournament → EventInput → Prop) [∀ t i, Decidable (ok t i)]

def replayEvents (inputs : List EventInput) : Option Tournament :=
  match createTournament plainRequest organizer with
  | .ok t => System.replay (acceptEvent fixedOrder) ok t inputs
  | .error _ => none

theorem exists_reaches_of_replay (inputs : List EventInput) (p : Tournament → Bool)
    (h : (replayEvents ok inputs).any p = true) :
    ∃ t, (engineSystem fixedOrder).Reaches ok t ∧ p t = true := by
  unfold replayEvents at h
  split at h
  · rename_i t0 h0
    cases hr : System.replay (acceptEvent fixedOrder) ok t0 inputs with
    | none => simp [hr] at h
    | some t =>
      rw [hr, Option.any_some] at h
      exact ⟨t, System.reaches_replay (fun _ _ _ h => h) inputs t0 t (.init ⟨_, _, h0⟩) hr, h⟩
  · cases h

theorem exists_reaches_from (t0 : Tournament) (inputs : List EventInput) (p : Tournament → Bool)
    (h : (System.replay (acceptEvent fixedOrder) ok t0 inputs).any p = true) :
    ∃ t, ((engineSystem fixedOrder).startedAt t0).Reaches ok t ∧ p t = true := by
  cases hr : System.replay (acceptEvent fixedOrder) ok t0 inputs with
  | none => simp [hr] at h
  | some t =>
    rw [hr, Option.any_some] at h
    exact ⟨t, System.reaches_replay (fun _ _ _ h => h) inputs t0 t (.init rfl) hr, h⟩

end Replay

/-- The event is accepted, and the document after it meets `p`. -/
def leadsTo (t : Tournament) (i : EventInput) (p : Tournament → Bool) : Bool :=
  (acceptEvent fixedOrder t i).toOption.any p

theorem exists_of_leadsTo {t : Tournament} {i : EventInput} {p : Tournament → Bool}
    (h : leadsTo t i p = true) : ∃ t', acceptEvent fixedOrder t i = .ok t' ∧ p t' = true := by
  obtain ⟨t', ht', hp⟩ := (Option.any_eq_true _ _).1 h
  cases hi : acceptEvent fixedOrder t i with
  | error e =>
    rw [hi] at ht'
    cases ht'
  | ok t'' =>
    rw [hi] at ht'
    cases ht'
    exact ⟨_, rfl, hp⟩

/-- Any run may be replayed. -/
abbrev anyEvent : Tournament → EventInput → Prop := fun _ _ => True

end Archon.Engine

import Archon.Backend.DeckRuns
import Archon.Backend.Scenario
import Archon.Engine.Configuration

/-!
# One deck a slot

A player has at most one live deck for a round and at most one pending, and in a single-deck event
at most one deck, as long as no event returns a deck to a pending slot that another deck of its
player stands in or returns to, no upload of a single-deck event goes past the deck its player has,
and multideck is not switched off over players with several decks.
-/

namespace Archon.Backend
open Engine Evicting Guards

/-- A tournament and the table with its decks. -/
structure DeckState where
  doc : Tournament
  objects : Objects

structure DeckRequest where
  env : Env
  event : TournamentEvent
  actor : ActorContext
  sanctions : List Sanction

/-- The event as the engine gets it, with the decks of the table. -/
def DeckRequest.input (c : DeckRequest) (objects : Objects) (tournamentUid : Uid) : EventInput :=
  ⟨c.event, c.actor, c.sanctions, engineDecks objects tournamentUid⟩

/-- Accepted events, each followed by its deck operations, from a table without decks. The uid of a
deck created is new. -/
def deckSystem (rs : Seating.RandomSource) (tournamentUid : Uid) :
    System DeckState DeckRequest where
  init s := WellKeyed s.objects ∧ getDecksForTournament s.objects tournamentUid = []
  step s c s' := s.objects.lookup (c.env.freshUid 0) = none ∧
    ∃ r, processTournamentEvent rs s.doc (c.input s.objects tournamentUid) = .ok r ∧
      s' = ⟨r.1, processDeckOps c.env s.objects tournamentUid r.2⟩

/-- At most one live deck for a player and a round, or pending. -/
def OneDeckASlot (decks : List StoredDeck) : Prop :=
  ∀ d ∈ decks, ∀ e ∈ decks, d.userUid = e.userUid → d.round = e.round → d = e

instance (decks : List StoredDeck) : Decidable (OneDeckASlot decks) :=
  inferInstanceAs (Decidable (∀ d ∈ decks, ∀ e ∈ decks, _ → _ → d = e))

/-- The event returns no deck to pending whose player has another deck pending or returned too. -/
def ReleasesApart (t : Tournament) (e : TournamentEvent) (decks : List DeckObject) : Prop :=
  ∀ d ∈ decks, releases t e d = true → ∀ x ∈ decks, x.uid ≠ d.uid → x.userUid = d.userUid →
    x.round ≠ none ∧ releases t e x = false

/-- `mod.rs:2520-2523`: a player's own upload before the finish is pending. -/
def uploadRound (t : Tournament) (actor : ActorContext) (deck : DeckUpload) : Option ℕ :=
  if actor.isOrganizer = false ∧ t.state ≠ .finished then none else deck.round

def slotKey (d : LiveDeck) : Uid × Option ℕ := (d.userUid, d.round)

section Slots

variable {rs : Seating.RandomSource} {env : Env} {objects : Objects} {tournamentUid : Uid}
  {t : Tournament} {i : EventInput} {ops pubs : List DeckOp}

theorem distinct_players {s s' : Uid → Option LiveDeck} (h : Distinct LiveDeck.userUid s)
    (hs : ∀ k, (s' k).map slotKey = (s k).map slotKey) : Distinct LiveDeck.userUid s' := by
  refine h.of_slots fun k => ?_
  have hk := congrArg (Option.map Prod.fst) (hs k)
  rwa [Option.map_map, Option.map_map] at hk

section Moved

variable {decks back on : List DeckObject} {round : ℕ} {e : TournamentEvent} {d x : DeckObject}

end Moved

/-- The operations of an event keep distinct slots distinct, and so the players, where an upload
goes to the slot of the deck its player has. -/
structure KeepsDistinct (S S' : Uid → Option LiveDeck) (t : Tournament) (i : EventInput) :
    Prop where
  slots : ReleasesApart t i.event i.decks → Distinct slotKey S → Distinct slotKey S'
  players : (∀ uid deck multideck, i.event = .upsertDeck uid deck multideck →
      ∀ u f, S u = some f → f.userUid = uid → f.round = uploadRound t i.actor deck) →
    Distinct LiveDeck.userUid S → Distinct LiveDeck.userUid S'

theorem KeepsDistinct.of_slots {S S' : Uid → Option LiveDeck}
    (h : ∀ k, (S' k).map slotKey = (S k).map slotKey) : KeepsDistinct S S' t i where
  slots _ hdistinct := hdistinct.of_slots h
  players _ hdistinct := distinct_players hdistinct h

end Slots

/-! ### A round cancelled over the next deck -/

def deckStep (rs : Seating.RandomSource) (tournamentUid : Uid) (s : DeckState) (c : DeckRequest) :
    Except EngineError DeckState := do
  let r ← processTournamentEvent rs s.doc (c.input s.objects tournamentUid)
  pure ⟨r.1, processDeckOps c.env s.objects tournamentUid r.2⟩

/-- The uid the request may create a deck under is new. -/
def NewUid (s : DeckState) (c : DeckRequest) : Prop := s.objects.lookup (c.env.freshUid 0) = none

instance (s : DeckState) (c : DeckRequest) : Decidable (NewUid s c) :=
  inferInstanceAs (Decidable (_ = none))

theorem step_of_deckStep {rs : Seating.RandomSource} {tournamentUid : Uid} {s s' : DeckState}
    {c : DeckRequest} (hnew : NewUid s c) (h : deckStep rs tournamentUid s c = .ok s') :
    (deckSystem rs tournamentUid).step s c s' := by
  rw [deckStep, bind_eq_ok] at h
  obtain ⟨r, hr, hs'⟩ := h
  cases hs'
  exact ⟨hnew, r, hr, rfl⟩

/-- A multideck event whose players are all checked in, and no deck. -/
def waitingEvent : Tournament :=
  { createdTournament plainRequest "prince" with
    state := .waiting
    players := ["a", "b", "c", "d"].map fun uid => Player.fresh uid .checkedIn false none
    config := fun f => if f = .multideck then .boolean true else .null }

def byOrganizer (event : TournamentEvent) : DeckRequest := ⟨venue, event, organizer, []⟩

end Archon.Backend

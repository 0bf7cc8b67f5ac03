import Archon.Engine.Finals

/-!
# Deck events (`tournament/mod.rs:2498-2699`)

The decks are the host's: a deck event checks its guards and emits one operation. The document
only keeps who still owes a decklist.
-/

namespace Archon.Engine
open Guards

/-- The tournament takes no decks. -/
def isStoryline (t : Tournament) : Bool := (t.config .format).asStr == some "Storyline"

/-- The stored deck of a player for a round. -/
def findDeck (decks : List DeckObject) (uid : Uid) (round : Option ℕ) : Option DeckObject :=
  decks.find? fun d => d.userUid == uid && d.round == round

/-- A private deck of a finished tournament is its owner's, unless it won. -/
def requireOwnerOfPrivate (t : Tournament) (actor : ActorContext) (uid : Uid) (isPrivate : Bool) :
    Except EngineError Unit :=
  ensure (isPrivate = false ∨ actor.uid = uid ∨ t.state ≠ .finished
    ∨ computeDeckWinner t uid = true) .deckPrivateOwnerOnly

/-- `mod.rs:2498`. A player's own upload before the finish is pending. -/
def upsertDeck (t : Tournament) (actor : ActorContext) (decks : List DeckObject) (uid : Uid)
    (deck : DeckUpload) (multideck : Bool) : Outcome := do
  ensure (isStoryline t = false) .formatForbidsDecks
  ensure (actor.isOrganizer = true ∨ actor.uid = uid) .deckUploadForbidden
  ensure (playerExists t.players uid = true) .notRegistered
  let singleDeckLocked := t.state = .playing ∨ (t.state ≠ .finished ∧ t.rounds.isEmpty = false)
  ensure (actor.isOrganizer = true ∨ ¬singleDeckLocked ∨ multideck = true
    ∨ hasDeck decks uid = false) .deckLockedPlaying
  let round := if actor.isOrganizer = false ∧ t.state ≠ .finished then none else deck.round
  let replaced := findDeck decks uid round
  let isPrivate := replaced.any DeckObject.isPrivate
  requireOwnerOfPrivate t actor uid isPrivate
  let upload : DeckUpload :=
    ⟨round, if replaced.isSome then none else deck.attribution, deck.content⟩
  pure ({ t with players := updatePlayer t.players uid fun p =>
    { p with missingDecklist := false } },
    [.upsert uid upload (computeDeckPublic t uid isPrivate) (computeDeckWinner t uid) isPrivate
      multideck])

/-- `mod.rs:2595-2612`: an active player without a deck left owes one. -/
def owesDecklist (p : Player) : Player :=
  if p.state = .checkedIn ∨ p.state = .playing then { p with missingDecklist := true } else p

/-- `mod.rs:2554`. -/
def deleteDeck (t : Tournament) (actor : ActorContext) (decks : List DeckObject) (uid : Uid)
    (deckIndex : Option ℕ) (multideck : Bool) : Outcome := do
  ensure (isStoryline t = false) .formatForbidsDecks
  ensure (actor.isOrganizer = true ∨ actor.uid = uid) .deckDeleteForbidden
  let mine := actor.isOrganizer = false ∧ t.state ≠ .finished
  ensure (¬(mine ∧ multideck = true ∧ deckIndex.isSome = true)) .deckLockedRound
  ensure (¬(mine ∧ multideck = false ∧ (t.state = .playing ∨ t.rounds.isEmpty = false)))
    .deckLockedPlaying
  let deletesPrivate := decks.any fun d =>
    d.userUid == uid && (!multideck || d.round == deckIndex) && d.isPrivate
  requireOwnerOfPrivate t actor uid deletesPrivate
  let survives := decks.any fun d => d.userUid == uid && multideck && d.round != deckIndex
  let owes := !survives && t.flag .decklistRequired
  pure ({ t with players := if owes then updatePlayer t.players uid owesDecklist else t.players },
    [.delete uid deckIndex multideck])

/-- `mod.rs:2618`. -/
def setDeckAttribution (t : Tournament) (actor : ActorContext) (decks : List DeckObject)
    (uid : Uid) (round : Option ℕ) (attribution : Attribution) : Outcome := do
  ensure (actor.uid = uid) .deckAttributionForbidden
  let d ← okOr (findDeck decks uid round) .deckNotFound
  pure (t, [.setAttribution d.uid uid attribution])

/-- `mod.rs:2643`. -/
def setDeckPrivate (t : Tournament) (actor : ActorContext) (decks : List DeckObject) (uid : Uid)
    (round : Option ℕ) (isPrivate : Bool) : Outcome := do
  ensure (actor.isOrganizer = true ∨ actor.uid = uid) .deckPrivacyForbidden
  ensure (isPrivate = true ∨ actor.uid = uid ∨ t.state ≠ .finished) .deckPrivateOwnerOnly
  let d ← okOr (findDeck decks uid round) .deckNotFound
  pure (t, [.setPrivate d.uid isPrivate])

/-- `mod.rs:2670`: a view is logged for the last round, or for the finals. -/
def viewDeck (t : Tournament) (actor : ActorContext) (decks : List DeckObject) (uid : Uid)
    (round : Option ℕ) : Outcome := do
  requireOrganizer actor
  if actor.uid = uid ∨ t.state = .finished then pure (t, [])
  else
    let d ← okOr (findDeck decks uid round) .deckNotFound
    if t.rounds.isEmpty = true then pure (t, [])
    else
      let viewedIn := if t.finals = none then t.rounds.length - 1 else t.rounds.length
      pure (t, [.logView d.uid actor.uid viewedIn])

end Archon.Engine

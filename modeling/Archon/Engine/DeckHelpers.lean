import Archon.Engine.Helpers

/-!
# Deck helpers (`tournament/helpers.rs`)

Stamping the decks of a round, releasing them, and what a finished tournament publishes. A deck
without a round is pending.
-/

namespace Archon.Engine

/-! ### Rounds of decks -/

/-- `helpers.rs:58`, the loop: who has a deck for the round, and the operations so far. -/
def stampStep (seated : List Uid) (roundIdx : ℕ) (acc : List Uid × List DeckOp)
    (deck : DeckObject) : List Uid × List DeckOp :=
  if deck.round = none ∧ deck.userUid ∈ seated ∧ deck.userUid ∉ acc.1 then
    (deck.userUid :: acc.1, acc.2 ++ [.setRound deck.uid (some roundIdx)])
  else acc

/-- `helpers.rs:58`: bind each seated player's pending deck to the round, one deck a player. -/
def stampRoundDecks (t : Tournament) (decks : List DeckObject) (roundIdx : ℕ) : List DeckOp :=
  if t.flag .multideck = true then
    let taken := (decks.filter fun d => d.round == some roundIdx).map DeckObject.userUid
    (decks.foldl (stampStep (seatedInRound t roundIdx) roundIdx) (taken, [])).2
  else []

/-- `helpers.rs:90`: the decks stamped at these rounds are pending again. -/
def releaseStampedDecks (decks : List DeckObject) (roundsRemoved : List ℕ)
    (playerUid : Option Uid) : List DeckOp :=
  decks.filterMap fun d =>
    match d.round with
    | some round =>
      if round ∈ roundsRemoved ∧ (playerUid = none ∨ playerUid = some d.userUid) then
        some (.setRound d.uid none)
      else none
    | none => none

/-- `helpers.rs:375`. -/
def deletePlayerDecks (t : Tournament) (decks : List DeckObject) (uid : Uid) : List DeckOp :=
  if decks.any fun d => d.userUid == uid then [.delete uid none (t.flag .multideck)] else []

/-! ### Publication -/

/-- `helpers.rs:314`. -/
def computeDeckWinner (t : Tournament) (uid : Uid) : Bool := t.winner == uid

/-- `helpers.rs:287`. -/
def computeDeckPublic (t : Tournament) (uid : Uid) (isPrivate : Bool) : Bool :=
  if t.state ≠ .finished then false
  else if isPrivate = true then t.winner == uid
  else
    let mode := (t.config .decklistsMode).asStr.getD "Winner"
    if mode = "All" then t.rounds.isEmpty || decide (0 < countPlayerRoundsPlayed t uid)
    else if mode = "Finalists" then
      t.winner == uid || t.players.any fun p => p.isUid uid && p.finalist
    else t.winner == uid

/-- `helpers.rs:325-340`: the operations already answer for this deck. -/
def touchedDeck (ops : List DeckOp) (deck : DeckObject) : Bool :=
  ops.any fun op =>
    match op with
    | .upsert playerUid upload _ _ _ _ => playerUid == deck.userUid && upload.round == deck.round
    | .delete playerUid deckIndex multideck =>
      playerUid == deck.userUid && (!multideck || deckIndex == deck.round)
    | _ => false

/-- The privacy the last `setPrivate` of the operations leaves the deck with. -/
def privateAfter (ops : List DeckOp) (deck : DeckObject) : Bool :=
  let set := ops.reverse.findSome? fun op =>
    match op with
    | .setPrivate deckUid isPrivate => if deckUid = deck.uid then some isPrivate else none
    | _ => none
  set.getD deck.isPrivate

/-- `helpers.rs:318`: the publication changes to append. -/
def recomputeDeckPublication (t : Tournament) (decks : List DeckObject) (ops : List DeckOp) :
    List DeckOp :=
  (decks.filter fun d => !touchedDeck ops d).filterMap fun d =>
    if d.userUid = "" ∨ d.uid = "" then none
    else
      let isPublic := computeDeckPublic t d.userUid (privateAfter ops d)
      let isWinner := computeDeckWinner t d.userUid
      if d.isPublic ≠ isPublic ∨ d.isWinner ≠ isWinner then
        some (.setPublication d.uid isPublic isWinner)
      else none

end Archon.Engine

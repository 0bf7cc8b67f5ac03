import Mathlib.Data.List.Sort
import Mathlib.Data.String.Basic
import Mathlib.Logic.Function.Basic
import Archon.Backend.Store
import Archon.Engine.Ratings

/-!
# Decks and ratings behind a tournament (`decks.py`, `ratings.py`)

What a tournament route does to other rows: the deck operations the engine asks for, the re-save
of private decks, and the recomputed wins and ratings of its players.
-/

namespace Archon.Backend
open Engine

/-- What a request takes from its surroundings: the clock, new uids and codes, whether results are
pushed, how a client's configuration is stored (`placed` for `stored_country` and `_host_city` at
go-online, `patched` for the same in an action, which may refuse, `localDate` for `_wall_clock`),
the latest expiry of a sanction issued at a given time, the points of the rating pass and the
engine's random source. -/
structure Env where
  now : Stamp
  wallClock : String
  maxExpiry : Stamp → Stamp
  veknPush : Bool
  placed : (ConfigField → JsonValue) → ConfigField → JsonValue
  patched : (ConfigField → JsonValue) → ConfigPatch → Option ConfigPatch
  localDate : JsonValue → JsonValue
  freshUid : ℕ → Uid
  mintedCode : String
  rated : Objects → RatingCategory → Uid → CategoryRating
  random : Seating.RandomSource

/-- `tournaments.py:743`: the dates as the wall clock of the venue. -/
def Env.localTimes (env : Env) (t : StoredTournament) : StoredTournament :=
  { t with doc := { t.doc with
    config := fun field =>
      if field = .start ∨ field = .finish then env.localDate (t.doc.config field)
      else t.doc.config field } }

/-! ### Deck operations -/

/-- The loop of `process_deck_ops`: the table, the decks read before it as the operations leave
them, and how many decks were created. -/
structure DeckPass where
  objects : Objects
  existing : List StoredDeck
  created : ℕ

def DeckPass.save (pass : DeckPass) (d : StoredDeck) : DeckPass :=
  { pass with
    objects := saveDeck pass.objects d
    existing := pass.existing.map fun e => if e.uid = d.uid then d else e }

/-- The first deck that meets `p`, rewritten and saved. -/
def DeckPass.change (pass : DeckPass) (p : StoredDeck → Bool) (f : StoredDeck → StoredDeck) :
    DeckPass :=
  match pass.existing.find? p with
  | some d => pass.save (f d)
  | none => pass

/-- A deck as `process_deck_ops` creates it before the upload is written to it. -/
def newDeck (uid tournamentUid userUid : Uid) (now : Stamp) : StoredDeck where
  uid := uid
  userUid := userUid
  round := none
  isPublic := false
  isWinner := false
  isPrivate := false
  content := ⟨"", "", []⟩
  modified := now
  tournamentUid := tournamentUid
  attribution := ⟨.anonymous, "", ""⟩
  views := []
  deletedAt := none

/-- `decks.py:60-164`. -/
def processDeckOp (env : Env) (tournamentUid : Uid) (pass : DeckPass) : DeckOp → DeckPass
  | .upsert playerUid upload isPublic isWinner isPrivate _ =>
    let written (d : StoredDeck) : StoredDeck :=
      { d with
        round := upload.round
        content := upload.content
        attribution := upload.attribution.getD d.attribution
        isPublic, isWinner, isPrivate
        modified := env.now }
    match pass.existing.find? fun d => d.userUid == playerUid && d.round == upload.round with
    | some d => pass.save (written d)
    | none =>
      let d := written (newDeck (env.freshUid pass.created) tournamentUid playerUid env.now)
      { pass with objects := saveDeck pass.objects d, created := pass.created + 1 }
  | .delete playerUid deckIndex multideck =>
    (pass.existing.filter fun d => d.userUid == playerUid &&
      (!multideck || d.round == deckIndex)).foldl
      (fun pass d => pass.save { d with deletedAt := some env.now, modified := env.now }) pass
  | .setRound deckUid round =>
    pass.change (fun d => d.uid == deckUid) fun d => { d with round, modified := env.now }
  | .setPublication deckUid isPublic isWinner =>
    pass.change (fun d => d.uid == deckUid) fun d =>
      { d with isPublic, isWinner, modified := env.now }
  | .setAttribution deckUid _ attribution =>
    pass.change (fun d => d.uid == deckUid) fun d => { d with attribution, modified := env.now }
  | .setPrivate deckUid isPrivate =>
    pass.change (fun d => d.uid == deckUid) fun d => { d with isPrivate, modified := env.now }
  | .logView deckUid userUid round =>
    pass.change (fun d => d.uid == deckUid && d.deletedAt == none
        && d.views.all fun v => v.userUid != userUid) fun d =>
      { d with views := d.views ++ [⟨userUid, round⟩], modified := env.now }

/-- `decks.py:47`. -/
def processDeckOps (env : Env) (objects : Objects) (tournamentUid : Uid) (ops : List DeckOp) :
    Objects :=
  (ops.foldl (processDeckOp env tournamentUid)
    ⟨objects, getDecksForTournament objects tournamentUid, 0⟩).objects

/-- `decks.py:186`: the private decks are saved again. -/
def withdrawPrivateDecks (env : Env) (objects : Objects) (tournamentUid : Uid) : Objects :=
  ((getDecksForTournament objects tournamentUid).filter fun d => d.isPrivate).foldl
    (fun objects d => saveDeck objects { d with modified := env.now }) objects

/-! ### Wins and ratings -/

/-- `db.py:1389`. -/
def twdaMinPlayers : ℕ := 10

/-- `db.py:1391`, the conditions on the row and the winner's deck. -/
def hofCandidate (objects : Objects) (uid : Uid) (row : Row) (t : StoredTournament) : Bool :=
  row.deletedAt == none && t.doc.state == .finished && t.doc.winner != ""
    && (t.doc.config .online).asBool != some true
    && (t.doc.config .openRounds).asBool != some true
    && (t.doc.config .selfOrganizedRounds).asBool != some true
    && (t.doc.config .format).asStr != some "Limited"
    && (t.doc.config .format).asStr != some "Storyline"
    && objects.rows.any fun r => r.2.deletedAt == none && r.2.object.asDeck.any fun d =>
        d.tournamentUid == uid && d.userUid == t.doc.winner

/-- `db.py:1458`: the floor, past which an entry of the archive without a count is let. -/
def attestedWin (t : StoredTournament) : Bool :=
  decide (twdaMinPlayers ≤ attestedPlayerCount t.doc)
    || ((t.externalId "twda").any (fun id => id != "") && t.doc.reportedPlayerCount.getD 0 == 0
      && playersWithRounds t.doc == 0)

/-- `db.py:1418`: the tournaments that count as won by the user. -/
def tournamentWins (objects : Objects) (userUid : Uid) : List Uid :=
  (objects.rows.filterMap fun r => r.2.object.asTournament.bind fun t =>
    if hofCandidate objects r.1 r.2 t && attestedWin t && t.doc.winner == userUid then some r.1
    else none).insertionSort (· ≤ ·)

/-- `ratings.py:258`: only a list that changed is saved. -/
def recomputeWins (env : Env) (objects : Objects) (userUids : List Uid) : Objects :=
  userUids.foldl (fun table uid =>
    match table.user? uid with
    | some user =>
      let wins := tournamentWins objects uid
      if wins = user.wins then table else saveUser table { user with wins, modified := env.now }
    | none => table) objects

/-- `ratings.rs:118`. -/
def ratingCategory (t : Tournament) : RatingCategory :=
  if t.text .format = "Limited" then
    if t.flag .online = true then .limitedOnline else .limitedOffline
  else if t.flag .online = true then .constructedOnline
  else .constructedOffline

/-- `ratings.py:167`. -/
def recomputeRatingsForPlayers (env : Env) (objects : Objects) (playerUids : List Uid)
    (category : RatingCategory) : Objects :=
  playerUids.foldl (fun table uid =>
    match table.user? uid with
    | some user =>
      let rating := env.rated objects category uid
      if user.ratings category = some rating then table
      else
        saveUser table
          { user with
            ratings := Function.update user.ratings category (some rating), modified := env.now }
    | none => table) objects

end Archon.Backend

import Archon.Engine.Rounds

/-!
# Changing a seating (`tournament/mod.rs:1581-2023`)

Swaps, reseating a whole round, seating and unseating one player, and the empty tables of the
last round. The finals are addressed as round `rounds.len()`.
-/

namespace Archon.Engine
open Guards Nested Seating

/-- `round == rounds.len()` with a finals table. -/
def isFinalsRound (t : Tournament) (round : ℕ) : Bool :=
  round == t.rounds.length && t.finals.isSome

/-! ### Swaps -/

def Seat.withUid (uid : Uid) (s : Seat) : Seat := { s with playerUid := uid }

/-- Exchange the players of two seats of a nested seating. -/
def swapPlayers (seatings : List (List Seat)) (a b c d : ℕ) : List (List Seat) :=
  match getAt seatings a b, getAt seatings c d with
  | some s, some s' =>
    modifyAt (modifyAt seatings a b (Seat.withUid s'.playerUid)) c d (Seat.withUid s.playerUid)
  | _, _ => seatings

/-- Put the seatings back into their tables. -/
def withSeatings (round : List Table) (seatings : List (List Seat)) : List Table :=
  List.zipWith (fun tb seating => { tb with seating }) round seatings

/-- `mod.rs:1612-1637`. -/
def swapRound (round : List Table) (table1 seat1 table2 seat2 : ℕ) : List Table :=
  withSeatings round (swapPlayers (round.map Table.seating) table1 seat1 table2 seat2)

/-- `mod.rs:1598-1611`. -/
def swapFinals (f : FinalsTable) (seat1 seat2 : ℕ) : FinalsTable :=
  { f with seating := ((swapPlayers [f.seating] 0 seat1 0 seat2)[0]?).getD f.seating }

/-- `mod.rs:1581`. -/
def swapSeats (t : Tournament) (actor : ActorContext) (sanctions : List Sanction)
    (round table1 seat1 table2 seat2 : ℕ) : Outcome := do
  requireOrganizer actor
  requireStateOrFinished t.state .playing
  if isFinalsRound t round = true ∧ table1 = 0 ∧ table2 = 0 then
    let seats := (t.finals.elim [] FinalsTable.seating).length
    ensure (seat1 < seats ∧ seat2 < seats) .invalidSeat
    pure (updateStandings
      { t with finals := t.finals.map fun f => swapFinals f seat1 seat2 } sanctions, [])
  else
    let tables ← okOr t.rounds[round]? .invalidRound
    ensure (table1 < tables.length ∧ table2 < tables.length) .invalidTable
    ensure ((getAt (tables.map Table.seating) table1 seat1).isSome = true
      ∧ (getAt (tables.map Table.seating) table2 seat2).isSome = true) .invalidSeat
    pure (updateStandings
      { t with rounds := t.rounds.modify round fun r => swapRound r table1 seat1 table2 seat2 }
      sanctions, [])

/-! ### Reseating a round -/

/-- The seats of a round with the position of their table. -/
def indexedSeats (round : List Table) : List (ℕ × Seat) :=
  round.zipIdx.flatMap fun ti => ti.1.seating.map fun s => (ti.2, s)

/-- `mod.rs:1729`: where a player sat; of several seats the last one is kept. -/
def oldSeat (round : List Table) (uid : Uid) : Option (ℕ × Seat) :=
  (indexedSeats round).reverse.find? fun ts => ts.2.playerUid == uid

/-- `mod.rs:1774-1787`: a player kept at the same table keeps result and judge. -/
def keptSeat (round : List Table) (table : ℕ) (uid : Uid) : Seat :=
  match oldSeat round uid with
  | some (oldTable, s) => if oldTable = table then s else Seat.fresh uid
  | none => Seat.fresh uid

/-- `mod.rs:1763-1804`: the rebuilt table; without override and points it is in progress. -/
def reseatTable (round : List Table) (table : ℕ) (uids : List Uid) : Table :=
  let old := (round[table]?).getD ⟨[], .inProgress, none, none⟩
  let seating := uids.map (keptSeat round table)
  { old with
    seating
    state :=
      if old.override = none ∧ (seatVps seating).all (fun v => v == 0) = true then .inProgress
      else old.state }

/-- `mod.rs:1763-1810`: every table rebuilt by position, the empty ones dropped. -/
def reseatRound (round : List Table) (seating : List (List Uid)) : List Table :=
  (seating.zipIdx.map fun us => reseatTable round us.2 us.1).filter fun tb => !tb.seating.isEmpty

def roundIsLive (round : List Table) : Bool := round.any fun tb => tb.state.isLive

/-- The uids seated in a round, cancelled tables included. -/
def roundUids (round : List Table) : List Uid := round.flatMap Table.uids

/-- `mod.rs:1830-1845`: one player who joined a live round. -/
def joinPlayer (state : TournamentState) (sanctions : List Sanction) (players : List Player)
    (uid : Uid) : List Player :=
  if hasDqSanction sanctions uid = true then players
  else updatePlayer players uid fun p =>
    if p.state = .disqualified then p
    else { p with state := if state = .finished then .finished else .playing, waitlisted := false }

/-- `mod.rs:1812-1847`: the roster after the reseat of a live round. -/
def reseatRoster (t : Tournament) (sanctions : List Sanction) (round : ℕ) (old : List Uid)
    (seated : List Uid) : Tournament :=
  let joined := seated.filter fun uid => uid ∉ old
  let left := old.filter fun uid => uid ∉ seated
  demoteUnseatedPlayers
    { t with players := joined.foldl (joinPlayer t.state sanctions) t.players } left round

/-- `mod.rs:1666-1691`: the finals keep their seats and results, the players move. -/
def reseatFinals (f : FinalsTable) (uids : List Uid) : FinalsTable :=
  { f with seating := List.zipWith (fun s uid => Seat.withUid uid s) f.seating uids }

/-- The document after reseating round `round`, whose tables are `tables`. -/
def alterSeatingDoc (t : Tournament) (sanctions : List Sanction) (round : ℕ) (tables : List Table)
    (seating : List (List Uid)) : Tournament :=
  let reseated := { t with rounds := t.rounds.set round (reseatRound tables seating) }
  if roundIsLive tables = true then
    reseatRoster reseated sanctions round (roundUids tables) seating.flatten
  else reseated

/-- `mod.rs:1753-1758`: the proposed seating repeats a predator-prey relation. -/
def violatesR1 (t : Tournament) (round : ℕ) (seating : List (List Uid)) : Bool :=
  (computePlayerIssues ((collectPreviousRounds t).set round seating)).any fun issue =>
    issue.rule == 0

/-- `mod.rs:1849-1854`: the decks of the players who left, then the stamps of the new seating. -/
def reseatDeckOps (t : Tournament) (decks : List DeckObject) (round : ℕ) (old seated : List Uid) :
    List DeckOp :=
  (old.dedup.filter fun uid => uid ∉ seated).flatMap
      (fun uid => releaseStampedDecks decks [round] (some uid))
    ++ stampRoundDecks t decks round

/-- `mod.rs:1646`. -/
def alterSeating (t : Tournament) (actor : ActorContext) (sanctions : List Sanction)
    (decks : List DeckObject) (round : ℕ) (seating : List (List Uid)) : Outcome := do
  requireOrganizer actor
  ensure (t.state = .playing ∨ t.state = .finished ∨ t.state = .waiting) .cannotAlterSeating
  ensure seating.flatten.Nodup .duplicatePlayer
  if isFinalsRound t round = true then
    let finalists := (t.finals.elim [] FinalsTable.seating).map Seat.playerUid
    ensure (seating.length = 1) .finalsOneTable
    ensure (seating.flatten.length = finalists.length) .finalsPlayerCount
    ensure (finalists.dedup.length = seating.flatten.length
      ∧ ∀ uid ∈ seating.flatten, uid ∈ finalists) .finalsPlayerSet
    pure (updateStandings
      { t with finals := t.finals.map fun f => reseatFinals f seating.flatten } sanctions, [])
  else
    let tables ← okOr t.rounds[round]? .invalidRound
    ensure (tables.length ≤ seating.length) .tableCountMismatch
    forM seating fun table =>
      ensure (table = [] ∨ (4 ≤ table.length ∧ table.length ≤ 5)) (.invalidTableSize table.length)
    ensure (seating.flatten ≠ []) .emptyRound
    ensure (∀ uid ∈ seating.flatten, playerExists t.players uid = true) .playerNotFound
    ensure (violatesR1 t round seating = false) .seatingViolatesR1
    let t' := alterSeatingDoc t sanctions round tables seating
    pure (updateStandings t' sanctions,
      reseatDeckOps t' decks round (roundUids tables) seating.flatten)

/-! ### Seating one player -/

/-- `mod.rs:1874-1891`: registered or checked in, or a finished player of a finished event or
without any round played. -/
def seatable (t : Tournament) (uid : Uid) (p : Player) : Bool :=
  p.state == .registered || p.state == .checkedIn
    || (t.state == .finished && p.state == .finished)
    || (p.state == .finished && countPlayerRoundsPlayed t uid == 0)

/-- `mod.rs:1902-1929`: a fresh seat at the position, or at the end past it. -/
def insertSeat (seat : ℕ) (uid : Uid) (tb : Table) : Table :=
  { tb with seating := tb.seating.insertIdx (min seat tb.seating.length) (Seat.fresh uid) }

def seatedEntry (state : TournamentState) (p : Player) : Player :=
  { p with state := if state = .finished then .finished else .playing, waitlisted := false }

def seatPlayerDoc (t : Tournament) (uid : Uid) (table seat target : ℕ) : Tournament :=
  { t with
    rounds := t.rounds.modify target fun r => r.modify table (insertSeat seat uid)
    players := updatePlayer t.players uid (seatedEntry t.state) }

/-- `mod.rs:1863`. -/
def seatPlayer (t : Tournament) (actor : ActorContext) (sanctions : List Sanction)
    (decks : List DeckObject) (uid : Uid) (table seat : ℕ) (round : Option ℕ) : Outcome := do
  requireOrganizer actor
  requireStateOrFinished t.state .playing
  let p ← okOr (findPlayer t.players uid) .playerNotFound
  ensure (seatable t uid p = true) (.playerWrongState p.state.asStr)
  ensure (t.rounds.isEmpty = false) .noRoundInProgress
  let target ← resolveLiveRound t.rounds round
  let tb ← okOr (((t.rounds[target]?).getD [])[table]?) .invalidTable
  ensure (tb.seating.length < 5) .tableFull
  let t' := seatPlayerDoc t uid table seat target
  pure (updateStandings t' sanctions, stampRoundDecks t' decks target)

/-- `mod.rs:1954-1969`: take the first seat of the first table that seats the player. -/
def removeSeat (uid : Uid) (round : List Table) : List Table :=
  match round.findIdx? fun tb => tb.seats uid with
  | some i =>
    round.modify i fun tb => { tb with seating := tb.seating.eraseP fun s => s.playerUid == uid }
  | none => round

def unseatPlayerDoc (t : Tournament) (uid : Uid) (target : ℕ) : Tournament :=
  demoteUnseatedPlayers { t with rounds := t.rounds.modify target (removeSeat uid) } [uid] target

/-- `mod.rs:1944`. -/
def unseatPlayer (t : Tournament) (actor : ActorContext) (sanctions : List Sanction)
    (decks : List DeckObject) (uid : Uid) (round : Option ℕ) : Outcome := do
  requireOrganizer actor
  requireStateOrFinished t.state .playing
  ensure (t.rounds.isEmpty = false) .noRoundInProgress
  let target ← resolveLiveRound t.rounds round
  ensure (((t.rounds[target]?).getD []).any (fun tb => tb.seats uid) = true)
    (.playerNotInRound uid)
  pure (updateStandings (unseatPlayerDoc t uid target) sanctions,
    releaseStampedDecks decks [target] (some uid))

/-! ### Tables of the last round -/

/-- `mod.rs:1987`. -/
def addTable (t : Tournament) (actor : ActorContext) : Outcome := do
  requireOrganizer actor
  requireStateOrFinished t.state .playing
  ensure (t.rounds.isEmpty = false) .noRoundInProgress
  pure ({ t with
    rounds := t.rounds.modify (t.rounds.length - 1) fun r => r ++ [Table.fresh none []] }, [])

/-- `mod.rs:2006`. -/
def removeTable (t : Tournament) (actor : ActorContext) (table : ℕ) : Outcome := do
  requireOrganizer actor
  requireStateOrFinished t.state .playing
  ensure (t.rounds.isEmpty = false) .noRoundInProgress
  let tb ← okOr (((t.rounds[t.rounds.length - 1]?).getD [])[table]?) .invalidTable
  ensure (tb.seating.isEmpty = true) .tableNotEmpty
  pure ({ t with
    rounds := t.rounds.modify (t.rounds.length - 1) fun r => r.eraseIdx table }, [])

end Archon.Engine

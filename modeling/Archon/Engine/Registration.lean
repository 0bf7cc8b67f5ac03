import Archon.Engine.DeckHelpers
import Archon.Engine.Standings

/-!
# Registration and check-in (`tournament/mod.rs:438-1002`)

The events before a round and at the door. Each handler checks its guards in the source's order
and returns the new document with the deck operations.
-/

namespace Archon.Engine
open Guards

/-! ### Roster entries -/

/-- A non-empty name, as a roster entry keeps it. -/
def shownName (displayName : Option String) : Option String :=
  displayName.filter fun dn => dn != ""

/-- The entry `Register`, `AddPlayer` and `CheckIn` push. -/
def Player.fresh (uid : Uid) (state : PlayerState) (waitlisted : Bool)
    (displayName : Option String) : Player :=
  { userUid := some uid, state, paymentStatus := .pending, toss := 0, result := Score.zero
    finalist := false, nonCompeting := false, waitlisted, missingDecklist := false
    displayName := shownName displayName }

def Player.withState (state : PlayerState) (p : Player) : Player := { p with state }

/-- `vekn_id.as_ref().is_none_or(|v| v.is_empty())` fails. -/
def hasVeknId (veknId : Option String) : Bool := veknId.any fun v => v != ""

def hasDeck (decks : List DeckObject) (uid : Uid) : Bool := decks.any fun d => d.userUid == uid

/-- The uids of the roster at the per-player cap. -/
def cappedUids (t : Tournament) : List Uid :=
  (t.players.filterMap Player.userUid).filter (atRoundCap t)

/-- Neither disqualified nor suspended by a sanction. -/
def requireUnsanctioned (sanctions : List Sanction) (uid : Uid) (now : String) :
    Except EngineError Unit := do
  ensure (hasDqSanction sanctions uid = false) .playerDisqualified
  ensure (hasActiveSuspension sanctions uid now = false) .playerSuspended

/-! ### Opening and closing -/

/-- `mod.rs:438`. -/
def openRegistration (t : Tournament) (actor : ActorContext) : Outcome := do
  requireOrganizer actor
  requireState t.state .planned
  pure ({ t with state := .registration }, [])

/-- `mod.rs:445`. -/
def closeRegistration (t : Tournament) (actor : ActorContext) : Outcome := do
  requireOrganizer actor
  requireState t.state .registration
  pure ({ t with state := .waiting }, [])

/-- `mod.rs:452`. -/
def cancelRegistration (t : Tournament) (actor : ActorContext) : Outcome := do
  requireOrganizer actor
  requireState t.state .registration
  pure ({ t with state := .planned }, [])

/-- `mod.rs:459`. -/
def reopenRegistration (t : Tournament) (actor : ActorContext) : Outcome := do
  requireOrganizer actor
  requireState t.state .waiting
  ensure (t.rounds.isEmpty = true) .reopenAfterRound
  pure ({ t with
    state := .registration
    players := t.players.map fun p =>
      if p.state = .checkedIn then p.withState .registered else p }, [])

/-! ### Joining and leaving -/

/-- `mod.rs:521`. -/
def register (t : Tournament) (actor : ActorContext) (sanctions : List Sanction) (uid : Uid)
    (veknId displayName : Option String) : Outcome := do
  ensure ((t.state = .registration ∨ t.state = .waiting ∨ t.state = .playing)
      ∧ (t.state = .registration ∨ t.flag .openRounds = true))
    (.wrongState TournamentState.registration.asStr t.state.asStr)
  ensure (t.finals = none) .finalsAlreadyStarted
  ensure (t.text .registrationUrl = "") (.externalRegistration (t.text .registrationUrl))
  ensure (hasVeknId veknId = true) .veknIdRequired
  ensure (playerExists t.players uid = false) .alreadyRegistered
  requireUnsanctioned sanctions uid actor.now
  pure ({ t with
    players := t.players ++ [Player.fresh uid .registered (pastRegistrationCap t) displayName] },
    [])

/-- `mod.rs:587`. -/
def unregister (t : Tournament) (actor : ActorContext) (decks : List DeckObject) (uid : Uid) :
    Outcome := do
  requireState t.state .registration
  ensure (t.text .registrationUrl = "") (.externalRegistration (t.text .registrationUrl))
  ensure (actor.uid = uid) .unregisterOnlySelf
  let idx ← okOr (findPlayerIndex t.players uid) .playerNotFound
  pure ({ t with players := t.players.eraseIdx idx }, deletePlayerDecks t decks uid)

/-- `mod.rs:610`. Every tournament state passes the first check of the source. -/
def addPlayer (t : Tournament) (actor : ActorContext) (sanctions : List Sanction)
    (decks : List DeckObject) (uid : Uid) (veknId displayName : Option String)
    (waitlistPastCap : Bool) : Outcome := do
  requireOrganizer actor
  ensure (hasVeknId veknId = true) .veknIdRequired
  ensure (playerExists t.players uid = false) .alreadyRegistered
  requireUnsanctioned sanctions uid actor.now
  let autoCheckin := t.state = .waiting
  let fresh := Player.fresh uid (if autoCheckin then .checkedIn else .registered)
    (waitlistPastCap && !decide autoCheckin && pastRegistrationCap t) displayName
  let missing := decide autoCheckin && t.flag .decklistRequired && !hasDeck decks uid
  pure ({ t with players := t.players ++ [{ fresh with missingDecklist := missing }] }, [])

/-- `mod.rs:678`. -/
def removePlayer (t : Tournament) (actor : ActorContext) (decks : List DeckObject) (uid : Uid) :
    Outcome := do
  requireOrganizer actor
  ensure (t.state ≠ .playing) .cannotRemovePlayers
  ensure (t.rounds.isEmpty = true) .useDropOut
  let idx ← okOr (findPlayerIndex t.players uid) .playerNotFound
  pure ({ t with players := t.players.eraseIdx idx }, deletePlayerDecks t decks uid)

/-- `mod.rs:698`. -/
def dropOut (t : Tournament) (actor : ActorContext) (uid : Uid) : Outcome := do
  ensure (t.state = .waiting ∨ t.state = .playing) .cannotDropOut
  let p ← okOr (findPlayer t.players uid) .playerNotFound
  ensure (p.state ≠ .finished) .playerAlreadyFinished
  ensure (actor.isOrganizer = true ∨ actor.uid = uid) .dropOutForbidden
  pure ({ t with players := updatePlayer t.players uid (Player.withState .finished) }, [])

/-! ### Check-in -/

/-- `mod.rs:741-787`: the roster with an entry for the player, a walk-in being added. -/
def admitAtDoor (t : Tournament) (actor : ActorContext) (sanctions : List Sanction) (uid : Uid)
    (veknId displayName : Option String) : Except EngineError (List Player) :=
  if playerExists t.players uid = true then pure t.players
  else do
    ensure (t.state = .waiting ∨ t.state = .playing) .playerNotFound
    ensure (actor.isOrganizer = true ∨ t.text .registrationUrl = "")
      (.externalRegistration (t.text .registrationUrl))
    ensure (hasVeknId veknId = true) .veknIdRequired
    requireUnsanctioned sanctions uid actor.now
    pure (t.players ++ [Player.fresh uid .registered false displayName])

/-- `mod.rs:837-844`: a seat at a table that is not `Finished`, in any round. -/
def seatedUnfinished (t : Tournament) (uid : Uid) : Bool :=
  t.rounds.any fun round => round.any fun tb => tb.state != .finished && tb.seats uid

/-- `mod.rs:808-858`: the entry after check-in. A capped drop-out returns to `Completed`; a
drop-out still seated keeps playing. -/
def checkedInEntry (t : Tournament) (decks : List DeckObject) (uid : Uid)
    (displayName : Option String) (p : Player) : Player :=
  let named := { p with displayName := (shownName displayName).or p.displayName }
  if atRoundCap t uid = true then named.withState .completed
  else
    { named with
      state :=
        if p.state = .finished ∧ seatedUnfinished t uid = true then .playing else .checkedIn
      missingDecklist := t.flag .decklistRequired && !hasDeck decks uid }

/-- `mod.rs:721`. -/
def checkIn (t : Tournament) (actor : ActorContext) (sanctions : List Sanction)
    (decks : List DeckObject) (uid : Uid) (veknId displayName : Option String) : Outcome := do
  ensure (t.state = .waiting ∨ t.state = .playing ∨ t.state = .finished)
    (.wrongState TournamentState.waiting.asStr t.state.asStr)
  ensure (actor.isOrganizer = true ∨ actor.uid = uid) .checkInForbidden
  let players ← admitAtDoor t actor sanctions uid veknId displayName
  let p ← okOr (findPlayer players uid) .playerNotFound
  ensure (p.state ≠ .disqualified) .playerDisqualified
  ensure (p.waitlisted = false) .playerWaitlisted
  requireUnsanctioned sanctions uid actor.now
  ensure (atRoundCap t uid = false ∨ p.state = .finished) .playerReachedMaxRounds
  pure ({ t with players := updatePlayer players uid (checkedInEntry t decks uid displayName) },
    [])

/-- State of a player who is no longer checked in. -/
def checkedOutState (state : TournamentState) : PlayerState :=
  if state = .finished then .finished else .registered

/-- `mod.rs:862`. -/
def checkOut (t : Tournament) (actor : ActorContext) (uid : Uid) : Outcome := do
  requireOrganizer actor
  requireStateOrFinished t.state .waiting
  let p ← okOr (findPlayer t.players uid) .playerNotFound
  ensure (p.state = .checkedIn) .playerNotCheckedIn
  pure ({ t with
    players := updatePlayer t.players uid (Player.withState (checkedOutState t.state)) }, [])

/-- `mod.rs:897-919`: whom `CheckInAll` checks in. -/
def checksInAll (t : Tournament) (actor : ActorContext) (sanctions : List Sanction) (p : Player) :
    Bool :=
  let uid := p.userUid.getD ""
  p.state != .disqualified
    && !(hasDqSanction sanctions uid || hasActiveSuspension sanctions uid actor.now)
    && !(cappedUids t).contains uid && !p.waitlisted
    && (p.state == .registered || (t.state == .finished && p.state == .finished))

/-- `mod.rs:883`. -/
def checkInAll (t : Tournament) (actor : ActorContext) (sanctions : List Sanction) : Outcome := do
  requireOrganizer actor
  requireStateOrFinished t.state .waiting
  pure ({ t with
    players := t.players.map fun p =>
      if checksInAll t actor sanctions p = true then p.withState .checkedIn else p }, [])

/-- `mod.rs:924`. -/
def resetCheckIn (t : Tournament) (actor : ActorContext) : Outcome := do
  requireOrganizer actor
  requireStateOrFinished t.state .waiting
  pure ({ t with
    players := t.players.map fun p =>
      if p.state = .checkedIn then p.withState (checkedOutState t.state) else p }, [])

/-! ### Marks of an entry -/

/-- The payment statuses by name. -/
def paymentStatus? : String → Option PaymentStatus
  | "Pending" => some .pending
  | "Paid" => some .paid
  | "Refunded" => some .refunded
  | "Cancelled" => some .cancelled
  | _ => none

/-- `mod.rs:942`. -/
def setPaymentStatus (t : Tournament) (actor : ActorContext) (uid : Uid) (status : String) :
    Outcome := do
  requireOrganizer actor
  let paymentStatus ← okOr (paymentStatus? status)
    (.internal ("Invalid payment status: " ++ status))
  ensure (playerExists t.players uid = true) .playerNotFound
  pure ({ t with players := updatePlayer t.players uid fun p => { p with paymentStatus } }, [])

/-- `mod.rs:959`. -/
def setNonCompeting (t : Tournament) (actor : ActorContext) (sanctions : List Sanction)
    (uid : Uid) (nonCompeting : Bool) : Outcome := do
  requireOrganizer actor
  ensure (t.finals = none ∧ t.state ≠ .finished) .cannotSetNonCompeting
  ensure (playerExists t.players uid = true) .playerNotFound
  pure (updateStandings
    { t with players := updatePlayer t.players uid fun p => { p with nonCompeting } } sanctions,
    [])

/-- `mod.rs:976`. -/
def setWaitlisted (t : Tournament) (actor : ActorContext) (uid : Uid) (waitlisted : Bool) :
    Outcome := do
  requireOrganizer actor
  let p ← okOr (findPlayer t.players uid) .playerNotFound
  ensure (waitlisted = false ∨ p.state = .registered) .cannotWaitlistPlayer
  pure ({ t with players := updatePlayer t.players uid fun p => { p with waitlisted } }, [])

/-- `mod.rs:993`. -/
def markAllPaid (t : Tournament) (actor : ActorContext) : Outcome := do
  requireOrganizer actor
  pure ({ t with
    players := t.players.map fun p =>
      if p.paymentStatus = .pending then { p with paymentStatus := .paid } else p }, [])

end Archon.Engine

import Archon.Library.Guards
import Archon.Engine.Types

/-!
# Engine errors (`engine/src/error.rs`)

The rejections the tournament handlers raise, with their parameters.
-/

namespace Archon.Engine

inductive EngineError where
  | notOrganizer
  | createForbidden
  | unregisterOnlySelf
  | dropOutForbidden
  | checkInForbidden
  | deckUploadForbidden
  | deckDeleteForbidden
  | deckAttributionForbidden
  | deckPrivacyForbidden
  | deckPrivateOwnerOnly
  | scoreForbidden
  | scoreLocked
  | scoreSetByOrganizer
  | leagueLinkForbidden
  | veknIdRequired
  | externalRegistration (url : String)
  | alreadyRegistered
  | notRegistered
  | playerDisqualified
  | playerSuspended
  | playerNotFound
  | deckNotFound
  | deckNoCards
  | playerNotCheckedIn
  | playerAlreadyFinished
  | playerWrongState (current : String)
  | wrongState (expected current : String)
  | cannotAddPlayers
  | reopenAfterRound
  | cannotRemovePlayers
  | useDropOut
  | cannotDropOut
  | cannotFinish
  | cannotAlterSeating
  | cannotSetNonCompeting
  | cannotWaitlistPlayer
  | playerWaitlisted
  | noRoundInProgress
  | noRoundToFinish
  | noRoundToCancel
  | roundNotCancelled
  | cannotRestoreRound
  | tablesNotFinished (tables : String)
  | prelimAfterFinals
  | playerReachedMaxRounds
  | notEnoughPlayers
  | invalidTableSize (size : ℕ)
  | playerNotInSubset (player : Uid)
  | duplicatePlayer
  | seatingIncomplete
  | invalidRound
  | invalidTable
  | invalidSeat
  | finalsOneTable
  | finalsPlayerCount
  | finalsPlayerSet
  | tableCountMismatch
  | emptyRound
  | seatingViolatesR1
  | playerNotInRound (player : Uid)
  | tableFull
  | tableNotEmpty
  | roundNotLive
  | invalidScore
  | finalsMinRounds
  | finalsAlreadyStarted
  | finalsNotEnoughPlayers
  | finalsUnresolvedTies
  | noFinalsInProgress
  | finalsTableUnfinished
  | tossMinRounds
  | deckLockedPlaying
  | deckLockedRound
  | raffleCountMin
  | raffleNoPlayers
  | raffleNoDraws
  | raffleWrongState
  | nameRequired
  | finishBeforeStart
  | maxRoundsBelowCompleted (max completed : ℕ)
  | rankForbidsProxies
  | rankForbidsMultideck
  | multideckLockedRounds
  | formatForbidsRank
  | formatForbidsDecks
  | veknFrozenField (field : ConfigField)
  | seatingMinPlayers
  | seatingMinRounds
  | selfOrganizeDisabled
  | selfOrganizeNotOpenRounds
  | selfOrganizeNotSeated
  | selfOrganizeIneligible (player : Uid)
  | archivalResultsForbidden
  | archivalResultsHasPlay
  | archivalResultsVeknLinked
  | archivalResultsWinnerNotListed
  | archivalResultsCountBelowRoster (reported listed : ℕ)
  | internal (detail : String)
  deriving DecidableEq, Repr

/-- The outcome of a handler: the new document and the deck operations it emits. -/
abbrev Outcome := Except EngineError (Tournament × List DeckOp)

end Archon.Engine

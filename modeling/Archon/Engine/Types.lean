import Mathlib.Algebra.Group.Nat.Defs
import Mathlib.Data.Rat.Defs
import Mathlib.Data.List.Basic

/-!
# Documents and events of the tournament engine (`engine/src/model.rs`, `tournament/types.rs`)

The stored tournament document, the sanctions and decks passed along with an event, the actor
and the events themselves. Scores are exact rationals where the source has `f64`: victory points
move in half steps and the tournament points of a table are whole numbers, so the arithmetic the
engine does on them is exact. The configuration keys hold JSON values, since `UpdateConfig`
copies them without a type check and every reader supplies its own default.
-/

namespace Archon.Engine

/-- Uid of a member. -/
abbrev Uid := String

/-! ### JSON values held by configuration keys -/

/-- A JSON value (the `json` crate's `JsonValue`). -/
inductive JsonValue where
  | null
  | boolean (b : Bool)
  | number (q : ℚ)
  | text (s : String)
  | array (items : List JsonValue)
  | object (entries : List (String × JsonValue))

namespace JsonValue

def asStr : JsonValue → Option String
  | text s => some s
  | _ => none

def asBool : JsonValue → Option Bool
  | boolean b => some b
  | _ => none

/-- Largest `u64`, also `usize::MAX` on the targets the engine is built for. -/
def u64Max : ℕ := 2 ^ 64 - 1

/-- Largest `u32`. -/
def u32Max : ℕ := 2 ^ 32 - 1

/-- The number cut to an unsigned integer, when it fits below `bound`. -/
def asUnsigned (bound : ℕ) : JsonValue → Option ℕ
  | number q => if 0 ≤ q ∧ q.floor.toNat ≤ bound then some q.floor.toNat else none
  | _ => none

def asUsize : JsonValue → Option ℕ := asUnsigned u64Max

def asU32 : JsonValue → Option ℕ := asUnsigned u32Max

def isNull : JsonValue → Bool
  | null => true
  | _ => false

def isArray : JsonValue → Bool
  | array _ => true
  | _ => false

end JsonValue

/-- `as_str().unwrap_or("")`. -/
def JsonValue.strOrEmpty (v : JsonValue) : String := v.asStr.getD ""

/-- `as_bool().unwrap_or(false)`. -/
def JsonValue.boolOrFalse (v : JsonValue) : Bool := v.asBool.getD false

/-- The keys of `CONFIG_FIELDS` (`mod.rs:73-105`), in its order. -/
inductive ConfigField where
  | name | format | rank | online | start | finish | timezone | country | city
  | cityGeonameId | venue | venueUrl | address | mapUrl | registrationUrl | proxies
  | multideck | decklistRequired | description | standingsMode | decklistsMode | maxRounds
  | maxPlayers | openRounds | selfOrganizedRounds | tableRooms | firstTableNumber
  | continueRoomNumbering | leagueUid | roundTime | finalsTime
  deriving DecidableEq, Repr

/-- A configuration object sent by a client: the keys it carries and their values. -/
abbrev ConfigPatch := ConfigField → Option JsonValue

/-- `config.has_key(field)`. -/
def ConfigPatch.hasKey (c : ConfigPatch) (f : ConfigField) : Bool := (c f).isSome

/-- `config[field]`, `Null` when the key is absent. -/
def ConfigPatch.get (c : ConfigPatch) (f : ConfigField) : JsonValue := (c f).getD .null

/-! ### States -/

inductive TournamentState where
  | planned | registration | waiting | playing | finished
  deriving DecidableEq, Repr

def TournamentState.asStr : TournamentState → String
  | planned => "Planned"
  | registration => "Registration"
  | waiting => "Waiting"
  | playing => "Playing"
  | finished => "Finished"

/-- `completed` is a player at the per-player round cap, `finished` one who withdrew or whose
event ended (`types.rs:40-52`). -/
inductive PlayerState where
  | registered | checkedIn | playing | completed | finished | disqualified
  deriving DecidableEq, Repr

def PlayerState.asStr : PlayerState → String
  | registered => "Registered"
  | checkedIn => "Checked-in"
  | playing => "Playing"
  | completed => "Completed"
  | finished => "Finished"
  | disqualified => "Disqualified"

inductive TableState where
  | inProgress | finished | invalid | cancelled
  deriving DecidableEq, Repr

inductive PaymentStatus where
  | pending | paid | refunded | cancelled
  deriving DecidableEq, Repr

/-! ### The tournament document -/

structure Score where
  gw : ℚ
  vp : ℚ
  tp : ℚ
  deriving DecidableEq, Repr

/-- `{ gw: 0, vp: 0.0, tp: 0 }`. -/
def Score.zero : Score := ⟨0, 0, 0⟩

structure Seat where
  playerUid : Uid
  result : Score
  judgeUid : String
  deriving DecidableEq, Repr

/-- The seat every handler writes for a newly seated player. -/
def Seat.fresh (uid : Uid) : Seat := ⟨uid, Score.zero, ""⟩

structure ScoreOverride where
  judgeUid : Uid
  comment : String
  deriving DecidableEq, Repr

structure Table where
  seating : List Seat
  state : TableState
  override : Option ScoreOverride
  organizedBy : Option Uid
  deriving DecidableEq, Repr

/-- The uids at a table, in seating (predator-prey) order. -/
def Table.uids (tb : Table) : List Uid := tb.seating.map Seat.playerUid

structure FinalsTable where
  seating : List Seat
  state : TableState
  override : Option ScoreOverride
  seedOrder : List Uid
  deriving DecidableEq, Repr

/-- A roster entry. `userUid` is `none` for a name-only player. -/
structure Player where
  userUid : Option Uid
  state : PlayerState
  paymentStatus : PaymentStatus
  toss : ℕ
  result : Score
  finalist : Bool
  nonCompeting : Bool
  waitlisted : Bool
  missingDecklist : Bool
  displayName : Option String
  deriving DecidableEq, Repr

/-- A row of the stored result sheet. `withdrawn` is set by imports only. -/
structure Standing where
  userUid : Uid
  gw : ℚ
  vp : ℚ
  tp : ℚ
  toss : ℕ
  finalist : Bool
  disqualified : Bool
  nonCompeting : Bool
  withdrawn : Bool
  deriving DecidableEq, Repr

structure RaffleDraw where
  label : String
  pool : String
  winners : List Uid
  prizePromoUid : Option Uid
  deriving DecidableEq, Repr

structure PromoDistribution where
  promoUid : Uid
  qty : ℕ
  deriving DecidableEq, Repr

/-- The stored document, as far as the engine reads or writes it. `externalIdsVekn` is
`external_ids.vekn`, written by the backend alone. -/
structure Tournament where
  uid : Option Uid
  modified : Option String
  config : ConfigField → JsonValue
  state : TournamentState
  organizersUids : List Uid
  players : List Player
  rounds : List (List Table)
  finals : Option FinalsTable
  winner : Uid
  standings : List Standing
  raffles : List RaffleDraw
  promosDistributed : List PromoDistribution
  promoStockSourceUid : Option Uid
  reportedPlayerCount : Option ℕ
  externalIdsVekn : String

namespace Tournament

/-- `tournament[field].as_bool().unwrap_or(false)`. -/
def flag (t : Tournament) (f : ConfigField) : Bool := (t.config f).boolOrFalse

/-- `tournament[field].as_str().unwrap_or("")`. -/
def text (t : Tournament) (f : ConfigField) : String := (t.config f).strOrEmpty

/-- `tournament[field].as_usize().unwrap_or(0)`. -/
def count (t : Tournament) (f : ConfigField) : ℕ := (t.config f).asUsize.getD 0

/-- The per-player round cap, `0` when there is none. -/
def maxRounds (t : Tournament) : ℕ := t.count .maxRounds

end Tournament

/-! ### Sanctions, decks and the actor -/

inductive SanctionLevel where
  | caution | warning | standingsAdjustment | disqualification | suspension | probation
  deriving DecidableEq, Repr

/-- A sanction as the backend hands it to the engine. -/
structure Sanction where
  userUid : Uid
  level : SanctionLevel
  roundNumber : Option ℕ
  liftedAt : Option String
  deletedAt : Option String
  expiresAt : Option String
  deriving DecidableEq, Repr

/-- The author's part of a decklist; no handler looks into it. -/
structure DeckContent where
  name : String
  comments : String
  cards : List (String × ℕ)
  deriving DecidableEq, Repr

inductive AttributionKind where
  | anonymous | owner | member
  deriving DecidableEq, Repr

/-- A deck credit, rebuilt field by field on entry (`parsing.rs:11-35`). -/
structure Attribution where
  kind : AttributionKind
  veknId : String
  name : String
  deriving DecidableEq, Repr

/-- A stored deck of the tournament. `round` is `none` while the deck is pending. -/
structure DeckObject where
  uid : Uid
  userUid : Uid
  round : Option ℕ
  isPublic : Bool
  isWinner : Bool
  isPrivate : Bool
  content : DeckContent
  deriving DecidableEq, Repr

/-- The deck a client submits. -/
structure DeckUpload where
  round : Option ℕ
  attribution : Option Attribution
  content : DeckContent
  deriving DecidableEq, Repr

/-- What the engine asks its host to do to the stored decks. -/
inductive DeckOp where
  | upsert (playerUid : Uid) (deck : DeckUpload) (isPublic isWinner isPrivate : Bool)
      (multideck : Bool)
  | delete (playerUid : Uid) (deckIndex : Option ℕ) (multideck : Bool)
  | setRound (deckUid : Uid) (round : Option ℕ)
  | setAttribution (deckUid playerUid : Uid) (attribution : Attribution)
  | setPrivate (deckUid : Uid) (isPrivate : Bool)
  | setPublication (deckUid : Uid) (isPublic isWinner : Bool)
  | logView (deckUid userUid : Uid) (round : ℕ)
  deriving DecidableEq, Repr

/-- Who performs the event (`types.rs:300-312`). `now` is empty when there is no clock. -/
structure ActorContext where
  uid : Uid
  roles : List String
  isOrganizer : Bool
  canOrganizeLeagueUids : List Uid
  now : String
  deriving DecidableEq, Repr

/-! ### Events -/

structure SeatScore where
  playerUid : Uid
  vp : ℚ
  deriving DecidableEq, Repr

/-- The payload of `SetArchivalResults`. Parsing drops the empty names (`parsing.rs:383-388`). -/
structure ArchivalSheet where
  winner : Uid
  players : List Uid
  reportedPlayerCount : ℕ
  named : ∀ p ∈ players, p ≠ ""

inductive TournamentEvent where
  | openRegistration
  | closeRegistration
  | cancelRegistration
  | reopenRegistration
  | reopenTournament
  | finishTournament
  | register (userUid : Uid) (veknId displayName : Option String)
  | unregister (userUid : Uid)
  | addPlayer (userUid : Uid) (veknId displayName : Option String) (waitlistPastCap : Bool)
  | removePlayer (userUid : Uid)
  | dropOut (playerUid : Uid)
  | checkIn (playerUid : Uid) (veknId displayName : Option String)
  | checkOut (playerUid : Uid)
  | checkInAll
  | resetCheckIn
  | setPaymentStatus (playerUid : Uid) (status : String)
  | markAllPaid
  | setNonCompeting (playerUid : Uid) (nonCompeting : Bool)
  | setWaitlisted (playerUid : Uid) (waitlisted : Bool)
  | startRound (seating : Option (List (List Uid)))
  | finishRound (round : Option ℕ)
  | cancelRound (round : Option ℕ)
  | restoreRound (round : Option ℕ)
  | selfOrganizeRound (playerUids : List Uid)
  | swapSeats (round table1 seat1 table2 seat2 : ℕ)
  | seatPlayer (playerUid : Uid) (table seat : ℕ) (round : Option ℕ)
  | unseatPlayer (playerUid : Uid) (round : Option ℕ)
  | addTable
  | removeTable (table : ℕ)
  | setScore (round table : ℕ) (scores : List SeatScore)
  | override (round table : ℕ) (comment : String)
  | unoverride (round table : ℕ)
  | setToss (playerUid : Uid) (toss : ℕ)
  | randomToss
  | startFinals
  | finishFinals
  | cancelFinals
  | alterSeating (round : ℕ) (seating : List (List Uid))
  | upsertDeck (playerUid : Uid) (deck : DeckUpload) (multideck : Bool)
  | deleteDeck (playerUid : Uid) (deckIndex : Option ℕ) (multideck : Bool)
  | setDeckAttribution (playerUid : Uid) (round : Option ℕ) (attribution : Attribution)
  | setDeckPrivate (playerUid : Uid) (round : Option ℕ) (isPrivate : Bool)
  | viewDeck (playerUid : Uid) (round : Option ℕ)
  | raffleDraw (label pool : String) (excludeDrawn : Bool) (count : ℕ) (seed : UInt64)
      (prizePromoUid : Option Uid)
  | raffleUndo
  | raffleClear
  | reportPromos (promos : List PromoDistribution) (stockSourceUid : Option Uid)
  | updateConfig (config : ConfigPatch)
  | setArchivalResults (sheet : ArchivalSheet)

end Archon.Engine

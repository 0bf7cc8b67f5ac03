import Archon.Engine.Helpers

/-!
# Sanctions as the engine reads them (`tournament/sanctions.rs`)

A standings adjustment lands on one round, its effective round: the stored one when the player
was scored there, else the latest round that scored them, the finals counting as round
`rounds.len()`.
-/

namespace Archon.Engine

def isSanctionActive (s : Sanction) : Bool := s.liftedAt.isNone && s.deletedAt.isNone

/-- `sanctions.rs:8-24`: the active adjustments with their stored round. -/
def getSaSanctions (sanctions : List Sanction) : List (Uid × ℕ) :=
  sanctions.filterMap fun s =>
    if isSanctionActive s ∧ s.level = .standingsAdjustment ∧ s.userUid ≠ "" then
      some (s.userUid, s.roundNumber.getD 0)
    else none

/-- The player sits at a finished table of round `r`, or in the finals when `r` is
`rounds.len()` (`sanctions.rs:38-50`). -/
def scoredIn (t : Tournament) (uid : Uid) (r : ℕ) : Bool :=
  if r = t.rounds.length then
    (t.finals.elim [] FinalsTable.seating).any fun s => s.playerUid == uid
  else
    ((t.rounds[r]?).getD []).any fun tb => tb.state == .finished && tb.seats uid

/-- The round one adjustment lands on, if any round scored the player. -/
def effectiveRound (t : Tournament) (uid : Uid) (stored : ℕ) : Option ℕ :=
  if stored ≤ t.rounds.length ∧ scoredIn t uid stored = true then some stored
  else (List.range (t.rounds.length + 1)).reverse.find? fun r => scoredIn t uid r

/-- `sanctions.rs:29-63`. Adjustments stack and are never merged. -/
def resolveSaEffectiveRounds (t : Tournament) (sanctions : List Sanction) : List (Uid × ℕ) :=
  (getSaSanctions sanctions).filterMap fun us =>
    (effectiveRound t us.1 us.2).map fun r => (us.1, r)

/-- `sanctions.rs:67-83`: minus one per adjustment of the seat's player landing on this round. -/
def tableSaAdjustments (seating : List Seat) (roundIndex : ℕ) (effectiveSas : List (Uid × ℕ)) :
    List ℚ :=
  seating.map fun s =>
    -((effectiveSas.countP fun sa => sa.1 == s.playerUid && sa.2 == roundIndex : ℕ) : ℚ)

/-- `sanctions.rs:87-92`. -/
def saVpPenalty (effectiveSas : List (Uid × ℕ)) (uid : Uid) : ℚ :=
  ((effectiveSas.countP fun sa => sa.1 == uid : ℕ) : ℚ)

def hasDqSanction (sanctions : List Sanction) (uid : Uid) : Bool :=
  sanctions.any fun s =>
    isSanctionActive s && s.level == .disqualification && s.userUid == uid

/-- `sanctions.rs:114-121`: without an expiry, or without a clock, a suspension stands. -/
def suspensionExpired (s : Sanction) (now : String) : Bool :=
  match s.expiresAt with
  | some exp => now != "" && decide (exp ≤ now)
  | none => false

/-- `sanctions.rs:103-110`. -/
def hasActiveSuspension (sanctions : List Sanction) (uid : Uid) (now : String) : Bool :=
  sanctions.any fun s =>
    isSanctionActive s && s.level == .suspension && s.userUid == uid
      && !suspensionExpired s now

end Archon.Engine

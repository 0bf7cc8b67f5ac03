import Mathlib.Algebra.Order.Floor.Ring
import Mathlib.Data.Rat.Floor
import Archon.Engine.Types

/-!
# The round timer (`routes/tournaments.py`, `TimerDisplay.svelte`, `clock.svelte.ts`)

The server stamps when the clock of a round was started and adds up what ran before; a device shows
the time left by its own clock, corrected by what it has probed of the server's. The server counts
microseconds and a device milliseconds. The return from offline play, which takes the clock of the
device, is left out.
-/

namespace Archon.RoundTimer
open Engine

/-! ### On the server -/

/-- `models.py:177`; seconds. -/
structure TimerState where
  startedAt : Option ℤ
  elapsedBeforePause : ℚ
  paused : Bool
  deriving DecidableEq

def TimerState.fresh : TimerState := ⟨none, 0, true⟩

/-- A tournament with its clock. A table without extra time has 0. -/
structure TimedTournament where
  doc : Tournament
  offlineMode : Bool
  timer : TimerState
  tableExtraTime : String → ℤ

structure Refusal where
  status : ℕ
  detail : String
  deriving DecidableEq, Repr

/-- The microseconds of a number of seconds. -/
def seconds (micros : ℤ) : ℚ := micros / 1000000

inductive TimerRequest where
  | start
  | pause
  | reset
  | addTime (table : String) (seconds : ℤ)
  deriving DecidableEq

/-- `routes/tournaments.py:1619`. -/
def validateTimerTournament (isOrganizer : Bool) (t : TimedTournament) : Except Refusal Unit :=
  if !isOrganizer then .error ⟨403, "Organizer access required"⟩
  else if t.offlineMode then .error ⟨423, "Tournament is in offline mode"⟩
  else if t.doc.state ≠ .playing then .error ⟨400, "Tournament is not playing"⟩
  else .ok ()

def timerStart (now : ℤ) (t : TimedTournament) : Except Refusal TimedTournament :=
  if !t.timer.paused then .error ⟨400, "Timer is already running"⟩
  else .ok { t with timer := ⟨some now, t.timer.elapsedBeforePause, false⟩ }

def timerPause (now : ℤ) (t : TimedTournament) : Except Refusal TimedTournament :=
  if t.timer.paused then .error ⟨400, "Timer is already paused"⟩
  else
    let elapsed := match t.timer.startedAt with
      | some startedAt => seconds (now - startedAt)
      | none => 0
    .ok { t with timer := ⟨none, t.timer.elapsedBeforePause + elapsed, true⟩ }

def timerReset (t : TimedTournament) : TimedTournament :=
  { t with timer := .fresh, tableExtraTime := fun _ => 0 }

def timerAddTime (table : String) (seconds : ℤ) (t : TimedTournament) :
    Except Refusal TimedTournament :=
  if seconds ≤ 0 then .error ⟨400, "Seconds must be positive"⟩
  else if 1800 < t.tableExtraTime table + seconds then
    .error ⟨400, "Max 1800s (30 min) extra time per table"⟩
  else .ok { t with
    tableExtraTime := Function.update t.tableExtraTime table (t.tableExtraTime table + seconds) }

def applyTimer (now : ℤ) (t : TimedTournament) : TimerRequest → Except Refusal TimedTournament
  | .start => timerStart now t
  | .pause => timerPause now t
  | .reset => .ok (timerReset t)
  | .addTime table seconds => timerAddTime table seconds t

/-- `routes/tournaments.py:1642-1737`, for a user who is signed in. -/
def handleTimer (now : ℤ) (isOrganizer : Bool) (t : TimedTournament) (r : TimerRequest) :
    Except Refusal TimedTournament := do
  validateTimerTournament isOrganizer t
  applyTimer now t r

/-- `TIMER_EVENTS` (`routes/tournaments.py:1293`). -/
def isTimerEvent : TournamentEvent → Bool
  | .startRound _ | .selfOrganizeRound _ | .startFinals | .restoreRound _ | .finishRound _
  | .cancelRound _ | .finishFinals | .finishTournament | .cancelFinals => true
  | _ => false

/-- The clock after an event the engine has accepted, with the document it returned. -/
def afterEvent (event : TournamentEvent) (updated : Tournament) (t : TimedTournament) :
    TimedTournament :=
  if isTimerEvent event then timerReset { t with doc := updated } else { t with doc := updated }

/-! ### On a device -/

/-- `TimerDisplay.svelte:48`. -/
def roundTime (doc : Tournament) : ℕ :=
  if doc.finals.isSome ∧ doc.count .finalsTime ≠ 0 then doc.count .finalsTime
  else doc.count .roundTime

/-- The milliseconds of a stamp of the server: `new Date(..).getTime()`. -/
def getTime (micros : ℤ) : ℤ := micros / 1000

/-- `Date.now()` on a device whose clock is ahead of the server's by `skew`, at `now` there. -/
def dateNow (skew now : ℤ) : ℤ := (now + skew) / 1000

/-- `TimerDisplay.svelte:56`: the seconds that ran, by the clock of the device and its offset. -/
def baseElapsed (timer : TimerState) (clock : ℤ) (offset : ℚ) : ℚ :=
  let elapsed := match timer.startedAt with
    | some startedAt =>
      if timer.paused then timer.elapsedBeforePause
      else timer.elapsedBeforePause + (clock + offset - getTime startedAt) / 1000
    | none => timer.elapsedBeforePause
  max 0 elapsed

/-- `TimerDisplay.svelte:70`: the seconds left of a table. -/
def tableRemaining (t : TimedTournament) (table : String) (clock : ℤ) (offset : ℚ) : ℚ :=
  max 0 (roundTime t.doc - baseElapsed t.timer clock offset + t.tableExtraTime table)

/-! ### The offset of a device -/

/-- A probe that was answered: when it was sent and received by the clock of the device, and the
stamp of the server (`main.py:575`), in milliseconds. -/
structure Probe where
  t0 : ℤ
  serverMs : ℚ
  t1 : ℤ

def Probe.rtt (p : Probe) : ℤ := p.t1 - p.t0

/-- The midpoint offset (`clock.svelte.ts:64`). -/
def Probe.off (p : Probe) : ℚ := p.serverMs - (p.t0 + p.t1) / 2

/-- The quicker of two probes, the earlier one of two as quick. A probe that failed is left out. -/
def quicker (best : Option Probe) (probe : Option Probe) : Option Probe :=
  match probe, best with
  | some p, some b => if p.rtt < b.rtt then some p else some b
  | some p, none => some p
  | none, _ => best

/-- `clock.svelte.ts:42`. -/
def syncClock (probes : List (Option Probe)) : Option Probe := probes.foldl quicker none

end Archon.RoundTimer

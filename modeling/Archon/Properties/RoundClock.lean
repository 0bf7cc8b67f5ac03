import Mathlib.Algebra.Order.Group.MinMax
import Mathlib.Tactic.Linarith
import Archon.Backend.RoundTimer
import Archon.Engine.Effects
import Archon.Engine.Scenario
import Archon.Library.Runs

/-!
# The clock of a round (`routes/tournaments.py`, `TimerDisplay.svelte`, `clock.svelte.ts`)

Whatever is started, paused, reset and played, the timer says how long the clock of the round has
run, it runs only while the tournament is playing, and a device shows what is left of it as near as
its best probe of the server was quick.
-/

namespace Archon.RoundTimer
open Engine Seating

/-! ### What the clock is -/

/-- A stopwatch: whether it runs, and what it has run, in seconds. -/
structure Stopwatch where
  running : Bool
  ran : ℚ

/-- The server's clock, a timed tournament, and a stopwatch that somebody works beside it. -/
structure Hall where
  now : ℤ
  timed : TimedTournament
  watch : Stopwatch

inductive Happening where
  | wait (micros : ℕ)
  | request (isOrganizer : Bool) (r : TimerRequest)
  | played (event : TournamentEvent) (updated : Tournament)
  | goOffline

/-- What the one at the stopwatch does about a request that was granted. -/
def Stopwatch.follow (w : Stopwatch) : TimerRequest → Stopwatch
  | .start => { w with running := true }
  | .pause => { w with running := false }
  | .reset => ⟨false, 0⟩
  | .addTime _ _ => w

def Hall.next (s : Hall) : Happening → Hall
  | .wait micros =>
    { s with
      now := s.now + micros
      watch := { s.watch with ran := s.watch.ran + if s.watch.running then seconds micros else 0 } }
  | .request isOrganizer r =>
    match handleTimer s.now isOrganizer s.timed r with
    | .ok timed => { s with timed, watch := s.watch.follow r }
    | .error _ => s
  | .played event updated =>
    { s with
      timed := afterEvent event updated s.timed
      watch := if isTimerEvent event then ⟨false, 0⟩ else s.watch }
  | .goOffline => { s with timed := { s.timed with offlineMode := true } }

/-- The runs of a tournament from its creation. -/
def hallSystem : System Hall Happening where
  init s := s.timed.timer = .fresh ∧ s.timed.tableExtraTime = (fun _ => 0) ∧ s.watch = ⟨false, 0⟩
  step s h s' := s.next h = s'

/-- What the server's timer says has run at `now`. -/
def elapsed (timer : TimerState) (now : ℤ) : ℚ :=
  timer.elapsedBeforePause + match timer.startedAt with
    | some startedAt => seconds (now - startedAt)
    | none => 0

/-- The timer tells what the stopwatch does. -/
structure Tells (s : Hall) : Prop where
  running : s.timed.timer.paused = !s.watch.running
  stamped : s.timed.timer.startedAt.isSome = s.watch.running
  past : ∀ startedAt ∈ s.timed.timer.startedAt, startedAt ≤ s.now
  ran : elapsed s.timed.timer s.now = s.watch.ran
  nonneg : 0 ≤ s.timed.timer.elapsedBeforePause
  extra : ∀ table, 0 ≤ s.timed.tableExtraTime table ∧ s.timed.tableExtraTime table ≤ 1800

section Timers

variable {s : Hall} {h : Happening} {timer : TimerState} {t t' : TimedTournament} {now : ℤ}
  {micros : ℕ} {isOrganizer : Bool} {r : TimerRequest}

theorem seconds_add (a b : ℤ) : seconds (a + b) = seconds a + seconds b := by
  simp only [seconds]
  push_cast
  ring

theorem seconds_nonneg {a : ℤ} (h : 0 ≤ a) : 0 ≤ seconds a := by
  have hcast : (0 : ℚ) ≤ a := by exact_mod_cast h
  simp only [seconds]
  positivity

theorem handleTimer_cases (h : handleTimer now isOrganizer t r = .ok t') :
    (r = .start ∧ t.timer.paused = true ∧
      t' = { t with timer := ⟨some now, t.timer.elapsedBeforePause, false⟩ }) ∨
    (r = .pause ∧ t.timer.paused = false ∧
      t' = { t with timer := ⟨none, elapsed t.timer now, true⟩ }) ∨
    (r = .reset ∧ t' = timerReset t) ∨
    ∃ table secs, r = .addTime table secs ∧ 0 < secs ∧ t.tableExtraTime table + secs ≤ 1800 ∧
      t' = { t with
        tableExtraTime := Function.update t.tableExtraTime table
          (t.tableExtraTime table + secs) } := by
  have hgranted : applyTimer now t r = .ok t' := by
    cases hvalid : validateTimerTournament isOrganizer t with
    | error refusal => simp [handleTimer, hvalid, bind, Except.bind] at h
    | ok _ => simpa [handleTimer, hvalid, bind, Except.bind] using h
  cases r with
  | start =>
    simp only [applyTimer, timerStart] at hgranted
    cases hpaused : t.timer.paused with
    | false => simp [hpaused] at hgranted
    | true =>
      rw [hpaused] at hgranted
      exact .inl ⟨rfl, rfl, (Except.ok.inj hgranted).symm⟩
  | pause =>
    apply Or.inr
    simp only [applyTimer, timerPause] at hgranted
    cases hpaused : t.timer.paused with
    | true => simp [hpaused] at hgranted
    | false =>
      rw [hpaused] at hgranted
      exact .inl ⟨rfl, rfl, (Except.ok.inj hgranted).symm⟩
  | reset => exact .inr (.inr (.inl ⟨rfl, (Except.ok.inj hgranted).symm⟩))
  | addTime table secs =>
    refine .inr (.inr (.inr ⟨table, secs, rfl, ?_⟩))
    simp only [applyTimer, timerAddTime] at hgranted
    split at hgranted
    · cases hgranted
    · next hpos =>
      split at hgranted
      · cases hgranted
      · next hle => exact ⟨by omega, by omega, (Except.ok.inj hgranted).symm⟩

theorem tells_reset {watch : Stopwatch} (hwatch : watch = ⟨false, 0⟩) :
    Tells ⟨now, timerReset t, watch⟩ := by
  subst hwatch
  refine ⟨rfl, rfl, ?_, ?_, le_rfl, fun _ => ⟨le_rfl, by norm_num [timerReset]⟩⟩
  · intro startedAt hstarted
    cases hstarted
  · simp [elapsed, timerReset, TimerState.fresh]

theorem elapsed_wait (hsome : timer.startedAt.isSome = true) :
    elapsed timer (now + micros) = elapsed timer now + seconds micros := by
  obtain ⟨startedAt, hstarted⟩ := Option.isSome_iff_exists.1 hsome
  simp only [elapsed, hstarted]
  rw [show now + (micros : ℤ) - startedAt = now - startedAt + micros by ring, seconds_add]
  ring

/-- The step lemma. -/
theorem Tells.next (ht : Tells s) (h : Happening) : Tells (s.next h) := by
  obtain ⟨now, timed, watch⟩ := s
  obtain ⟨hrunning, hstamped, hpast, helapsed, hnonneg, hextra⟩ := ht
  cases h with
  | wait micros =>
    refine ⟨hrunning, hstamped, ?_, ?_, hnonneg, hextra⟩
    · intro startedAt hstarted
      have hle : startedAt ≤ now := hpast startedAt hstarted
      show startedAt ≤ now + micros
      omega
    · show elapsed timed.timer (now + micros) = watch.ran +
        if watch.running then seconds micros else 0
      dsimp only at helapsed hstamped
      cases hwatch : watch.running with
      | true =>
        rw [hwatch] at hstamped
        rw [elapsed_wait hstamped, helapsed]
        rfl
      | false =>
        rw [hwatch] at hstamped
        rw [← helapsed]
        have hnone : timed.timer.startedAt = none :=
          Option.isNone_iff_eq_none.1 (by simpa using hstamped)
        simp [elapsed, hnone]
  | request isOrganizer r =>
    simp only [Hall.next]
    cases hgranted : handleTimer now isOrganizer timed r with
    | error refusal => exact ⟨hrunning, hstamped, hpast, helapsed, hnonneg, hextra⟩
    | ok t' =>
      rcases handleTimer_cases hgranted with ⟨rfl, hpaused, rfl⟩ | ⟨rfl, hpaused, rfl⟩ |
        ⟨rfl, rfl⟩ | ⟨table, secs, rfl, hpos, hle, rfl⟩
      · refine ⟨rfl, rfl, ?_, ?_, hnonneg, hextra⟩
        · intro startedAt hstarted
          obtain rfl := Option.some.inj hstarted
          exact le_rfl
        · dsimp only at helapsed hstamped hrunning
          rw [hpaused] at hrunning
          have hnot : watch.running = false := by simpa using hrunning.symm
          rw [hnot] at hstamped
          have hnone : timed.timer.startedAt = none :=
          Option.isNone_iff_eq_none.1 (by simpa using hstamped)
          simp only [elapsed, hnone, add_zero] at helapsed
          simp [elapsed, Stopwatch.follow, helapsed, seconds]
      · refine ⟨rfl, rfl, ?_, ?_, ?_, hextra⟩
        · intro startedAt hstarted
          cases hstarted
        · show elapsed timed.timer now + 0 = watch.ran
          rw [add_zero]
          exact helapsed
        · show 0 ≤ elapsed timed.timer now
          simp only [elapsed]
          cases hstarted : timed.timer.startedAt with
          | none => simpa using hnonneg
          | some startedAt =>
            have hle : startedAt ≤ now := hpast startedAt hstarted
            exact add_nonneg hnonneg (seconds_nonneg (by omega))
      · exact tells_reset rfl
      · refine ⟨hrunning, hstamped, hpast, helapsed, hnonneg, ?_⟩
        intro table'
        by_cases heq : table' = table
        · subst heq
          have hold := (hextra table').1
          simp only [Function.update_self]
          dsimp only at hold
          omega
        · simp only [Function.update_of_ne heq]
          exact hextra table'
  | played event updated =>
    simp only [Hall.next, afterEvent]
    split
    · exact tells_reset rfl
    · exact ⟨hrunning, hstamped, hpast, helapsed, hnonneg, hextra⟩
  | goOffline => exact ⟨hrunning, hstamped, hpast, helapsed, hnonneg, hextra⟩

theorem tells_init (h : hallSystem.init s) : Tells s := by
  obtain ⟨now, timed, watch⟩ := s
  obtain ⟨hfresh, hextra, hwatch⟩ := h
  dsimp only at hfresh hextra hwatch
  subst hwatch
  refine ⟨?_, ?_, ?_, ?_, ?_, ?_⟩
  · rw [hfresh]
    rfl
  · rw [hfresh]
    rfl
  · intro startedAt hstarted
    rw [hfresh] at hstarted
    cases hstarted
  · simp [hfresh, elapsed, TimerState.fresh]
  · rw [hfresh]
    exact le_rfl
  · intro table
    rw [hextra]
    norm_num

/-- In every run the timer and the stopwatch agree: it runs when the stopwatch runs, and it has run
as long. No table has ever more than half an hour of extra time. -/
theorem timer_tells (s : Hall) (h : hallSystem.Reachable s) : Tells s := by
  apply System.Reachable.invariant (S := hallSystem) (fun s hinit => tells_init hinit) _ h
  rintro s h s' ht rfl
  exact ht.next h

end Timers

/-- A round is being played, and its clock was never started. -/
def freshHall : Hall where
  now := 0
  timed :=
    { doc :=
        { uid := none
          modified := none
          config := fun _ => .null
          state := .playing
          organizersUids := []
          players := []
          rounds := []
          finals := none
          winner := ""
          standings := []
          raffles := []
          promosDistributed := []
          promoStockSourceUid := none
          reportedPlayerCount := none
          externalIdsVekn := "" }
      offlineMode := false
      timer := .fresh
      tableExtraTime := fun _ => 0 }
  watch := ⟨false, 0⟩

/-- A minute after an organizer has started it. -/
def minuteHall : Hall := (freshHall.next (.request true .start)).next (.wait 60000000)

theorem reachable_minuteHall : hallSystem.Reachable minuteHall := by
  have hfresh : hallSystem.Reachable freshHall := System.Reachable.init ⟨rfl, rfl, rfl⟩
  have hstarted : hallSystem.Reachable (freshHall.next (.request true .start)) :=
    hfresh.step (i := .request true .start) rfl
  exact hstarted.step (i := .wait 60000000) rfl

theorem timer_tells_minute : Tells minuteHall ∧ minuteHall.watch.running = true :=
  ⟨timer_tells minuteHall reachable_minuteHall, rfl⟩

/-! ### While the tournament plays -/

section InPlay

variable {rs : RandomSource} {s : Hall} {t t' : TimedTournament} {now : ℤ} {isOrganizer : Bool}
  {r : TimerRequest}

/-- The documents that are played are those the engine makes of the events. -/
def EngineMade (rs : RandomSource) (s : Hall) : Happening → Prop
  | .played event updated => ∃ i, i.event = event ∧ acceptEvent rs s.timed.doc i = .ok updated
  | _ => True

theorem handleTimer_playing (h : handleTimer now isOrganizer t r = .ok t') :
    t.doc.state = .playing ∧ t'.doc = t.doc := by
  constructor
  · by_contra hnot
    cases isOrganizer <;> cases hoffline : t.offlineMode <;>
      simp [handleTimer, validateTimerTournament, hnot, hoffline, bind, Except.bind] at h
  · rcases handleTimer_cases h with ⟨-, -, rfl⟩ | ⟨-, -, rfl⟩ | ⟨-, rfl⟩ | ⟨_, _, -, -, -, rfl⟩ <;>
      rfl

/-- An event that leaves the clock alone leaves a tournament that is playing so. -/
theorem playing_of_effect {doc doc' : Tournament} {i : EventInput} (heff : Effect rs doc i doc')
    (hevent : isTimerEvent i.event = false) (hplay : doc.state = .playing) :
    doc'.state = .playing := by
  cases heff with
  | quiet _ h => exact h.state.trans hplay
  | openRegistration _ h | closeRegistration _ h | cancelRegistration _ h
  | reopenTournament _ h =>
    rw [h] at hplay
    cases hplay
  | reopenRegistration _ h =>
    rw [h] at hplay
    cases hplay
  | archival _ _ h =>
    rw [h] at hplay
    cases hplay
  | startRound _ _ he | selfOrganizeRound _ _ he | finishRound _ _ he | restoreRound _ _ he =>
    simp [he, isTimerEvent] at hevent
  | cancelRound _ he | finishFinals _ he => simp [he, isTimerEvent] at hevent
  | startFinals he | cancelFinals he | finishTournament he => simp [he, isTimerEvent] at hevent
  | setNonCompeting | swapFinals | swapRound | reseatFinals | seatPlayer | unseatPlayer
  | scoreFinals | scoreTable | overrideFinals | overrideTable | unoverrideFinals
  | unoverrideTable =>
    rw [updateStandings_state]
    exact hplay
  | reseatRound =>
    rw [updateStandings_state]
    unfold alterSeatingDoc
    extract_lets reseated
    split <;> exact hplay
  | _ => exact hplay

/-- In every run in which the engine makes the documents, the clock runs only while the tournament
is playing: every event that ends the play resets it. -/
theorem timer_in_play (rs : RandomSource) (s : Hall)
    (h : hallSystem.Reaches (EngineMade rs) s) (hrunning : s.timed.timer.paused = false) :
    s.timed.doc.state = .playing := by
  revert hrunning
  apply System.Reaches.invariant (S := hallSystem)
    (P := fun s => s.timed.timer.paused = false → s.timed.doc.state = .playing) _ _ h
  · rintro s ⟨hfresh, -, -⟩ hrunning
    rw [hfresh] at hrunning
    cases hrunning
  · rintro s happening s' hplay hmade rfl hrunning
    cases happening with
    | wait micros => exact hplay hrunning
    | request isOrganizer r =>
      simp only [Hall.next] at hrunning ⊢
      cases hgranted : handleTimer s.now isOrganizer s.timed r with
      | error refusal =>
        rw [hgranted] at hrunning
        exact hplay hrunning
      | ok t' =>
        obtain ⟨hplaying, hdoc⟩ := handleTimer_playing hgranted
        exact (congrArg Tournament.state hdoc).trans hplaying
    | played event updated =>
      obtain ⟨i, rfl, haccept⟩ := hmade
      simp only [Hall.next, afterEvent] at hrunning ⊢
      cases hevent : isTimerEvent i.event with
      | true =>
        rw [hevent] at hrunning
        cases hrunning
      | false =>
        rw [hevent] at hrunning
        exact playing_of_effect (effect_of_acceptEvent haccept) hevent (hplay hrunning)
    | goOffline => exact hplay hrunning

/-- The clock that was started runs on in the tournament that is playing. -/
theorem timer_in_play_minute : minuteHall.timed.doc.state = .playing := by
  have hfresh : hallSystem.Reaches (EngineMade fixedOrder) freshHall := .init ⟨rfl, rfl, rfl⟩
  have hstarted : hallSystem.Reaches (EngineMade fixedOrder)
      (freshHall.next (.request true .start)) :=
    hfresh.step (i := Happening.request true .start) (by trivial) rfl
  exact timer_in_play fixedOrder minuteHall
    (hstarted.step (i := Happening.wait 60000000) (by trivial) rfl) rfl

end InPlay
/-! ### On a device -/

section Devices

variable {skew : ℤ} {p best : Probe} {probes : List (Option Probe)} {probe init : Option Probe}
  {x y ε : ℚ}

/-- A probe of a device that is ahead by `skew`, answered by the server at `stamped`. -/
def Answered (skew : ℤ) (p : Probe) : Prop :=
  ∃ sent stamped received : ℤ, sent ≤ stamped ∧ stamped ≤ received ∧
    p = ⟨dateNow skew sent, stamped / 1000, dateNow skew received⟩

theorem millis_near (a : ℤ) :
    ((a / 1000 : ℤ) : ℚ) ≤ a / 1000 ∧ (a : ℚ) / 1000 < (a / 1000 : ℤ) + 1 := by
  have hle : 1000 * (a / 1000) ≤ a := by omega
  have hlt : a < 1000 * (a / 1000) + 1000 := by omega
  have hle' : (1000 : ℚ) * (a / 1000 : ℤ) ≤ a := by exact_mod_cast hle
  have hlt' : (a : ℚ) < 1000 * (a / 1000 : ℤ) + 1000 := by exact_mod_cast hlt
  constructor <;> linarith

theorem dateNow_near (skew now : ℤ) :
    (dateNow skew now : ℚ) ≤ now / 1000 + skew / 1000 ∧
      (now : ℚ) / 1000 + skew / 1000 < dateNow skew now + 1 := by
  have hnear := millis_near (now + skew)
  have hsplit : ((now + skew : ℤ) : ℚ) / 1000 = now / 1000 + skew / 1000 := by
    push_cast
    ring
  rwa [hsplit] at hnear

theorem Answered.rtt_nonneg (h : Answered skew p) : (0 : ℚ) ≤ p.rtt := by
  obtain ⟨sent, stamped, received, hsent, hreceived, rfl⟩ := h
  have hle : (0 : ℤ) ≤ (received + skew) / 1000 - (sent + skew) / 1000 := by omega
  exact_mod_cast hle

/-- The stamp of the server lies between the two of the device, so the midpoint is off by half the
way there and back, and by the millisecond that `Date.now()` leaves out. -/
theorem Answered.off_near (h : Answered skew p) :
    -(p.rtt / 2 : ℚ) ≤ p.off + skew / 1000 ∧ p.off + skew / 1000 < p.rtt / 2 + 1 := by
  obtain ⟨sent, stamped, received, hsent, hreceived, rfl⟩ := h
  have h0 := dateNow_near skew sent
  have h1 := dateNow_near skew received
  have hsent' : (sent : ℚ) ≤ stamped := by exact_mod_cast hsent
  have hreceived' : (stamped : ℚ) ≤ received := by exact_mod_cast hreceived
  simp only [Probe.off, Probe.rtt]
  push_cast
  constructor <;> linarith

theorem quicker_eq_some (h : quicker init probe = some best) :
    (init = some best ∨ probe = some best) ∧ (∀ b ∈ init, best.rtt ≤ b.rtt) ∧
      ∀ p ∈ probe, best.rtt ≤ p.rtt := by
  cases probe with
  | none => simp_all [quicker]
  | some p =>
    cases init with
    | none => simp_all [quicker]
    | some b =>
      simp only [quicker] at h
      split at h
      · next hlt =>
        obtain rfl := Option.some.inj h
        simpa using hlt.le
      · next hle =>
        obtain rfl := Option.some.inj h
        simpa using not_lt.1 hle

theorem quicker_eq_none (h : quicker init probe = none) : init = none ∧ probe = none := by
  cases probe with
  | none => exact ⟨h, rfl⟩
  | some p =>
    cases init with
    | none => cases h
    | some b =>
      simp only [quicker] at h
      split at h <;> cases h

theorem foldl_quicker (h : probes.foldl quicker init = some best) :
    (init = some best ∨ some best ∈ probes) ∧ (∀ b ∈ init, best.rtt ≤ b.rtt) ∧
      ∀ p, some p ∈ probes → best.rtt ≤ p.rtt := by
  induction probes generalizing init with
  | nil =>
    obtain rfl : init = some best := h
    simp
  | cons probe probes ih =>
    obtain ⟨hfrom, hkept, hrest⟩ := ih h
    cases hnext : quicker init probe with
    | none =>
      obtain ⟨rfl, rfl⟩ := quicker_eq_none hnext
      refine ⟨.inr (List.mem_cons_of_mem _ (hfrom.resolve_left (by simp [hnext]))), by simp, ?_⟩
      intro p hp
      exact hrest p (by simpa using hp)
    | some b =>
      obtain ⟨hb, hinit, hprobe⟩ := quicker_eq_some hnext
      have hle : best.rtt ≤ b.rtt := hkept b hnext
      refine ⟨?_, fun b' hb' => hle.trans (hinit b' hb'), ?_⟩
      · rcases hfrom with hfrom | hfrom
        · obtain rfl := Option.some.inj (hnext.symm.trans hfrom)
          rcases hb with rfl | rfl
          · exact .inl rfl
          · exact .inr (List.mem_cons_self ..)
        · exact .inr (List.mem_cons_of_mem _ hfrom)
      · intro p hp
        rcases List.mem_cons.1 hp with rfl | hp
        · exact hle.trans (hprobe p rfl)
        · exact hrest p hp

theorem near_max (h : |x - y| ≤ ε) : |max 0 x - max 0 y| ≤ ε := by
  rw [max_comm 0 x, max_comm 0 y]
  exact (abs_max_sub_max_le_abs x y 0).trans h

/-- What a device says has run is as near to the stopwatch as its offset is to its skew. -/
theorem baseElapsed_near {s : Hall} {off rtt : ℚ} (ht : Tells s) (hrtt : 0 ≤ rtt)
    (hlow : -(rtt / 2) ≤ off + skew / 1000) (hhigh : off + skew / 1000 < rtt / 2 + 1) :
    |baseElapsed s.timed.timer (dateNow skew s.now) off - s.watch.ran| ≤ (rtt / 2 + 2) / 1000 := by
  have hran := ht.ran
  cases hstarted : s.timed.timer.startedAt with
  | none =>
    simp only [elapsed, hstarted, add_zero] at hran
    have hnonneg : 0 ≤ s.watch.ran := hran ▸ ht.nonneg
    simp only [baseElapsed, hstarted, hran, max_eq_right hnonneg, sub_self, abs_zero]
    positivity
  | some startedAt =>
    have hpaused : s.timed.timer.paused = false := by
      have hstamped := ht.stamped
      rw [hstarted] at hstamped
      simp [ht.running, ← hstamped]
    simp only [elapsed, hstarted] at hran
    have hle : 0 ≤ s.now - startedAt := Int.sub_nonneg.2 (ht.past startedAt hstarted)
    have hnonneg : 0 ≤ s.watch.ran := hran ▸ add_nonneg ht.nonneg (seconds_nonneg hle)
    have hclock := dateNow_near skew s.now
    have hstamp := millis_near startedAt
    simp only [baseElapsed, hstarted, hpaused, Bool.false_eq_true, if_false]
    rw [← max_eq_right hnonneg, ← hran]
    apply near_max
    simp only [getTime, seconds, abs_le]
    push_cast
    constructor <;> linarith

/-- After a probe a device shows at each tick what is left of the time of a table, as near as the
quickest of its probes was quick: within half the way there and back and two milliseconds. -/
theorem tableRemaining_near (s : Hall) (h : hallSystem.Reachable s) (skew : ℤ)
    (probes : List (Option Probe)) (best : Probe) (table : String)
    (hanswered : ∀ p, some p ∈ probes → Answered skew p) (hbest : syncClock probes = some best) :
    ∀ p, some p ∈ probes →
      |tableRemaining s.timed table (dateNow skew s.now) best.off -
        max 0 (roundTime s.timed.doc - s.watch.ran + s.timed.tableExtraTime table)| ≤
        (p.rtt / 2 + 2) / 1000 := by
  intro p hp
  have ht : Tells s := System.Reachable.invariant (S := hallSystem)
    (fun s hinit => tells_init hinit) (by rintro s h s' ht rfl; exact ht.next h) h
  obtain ⟨hfrom, -, hquickest⟩ := foldl_quicker hbest
  have hmem : some best ∈ probes := hfrom.resolve_left (by simp)
  have hoff := (hanswered best hmem).off_near
  have hbase := baseElapsed_near ht (hanswered best hmem).rtt_nonneg hoff.1 hoff.2
  have hquick : (best.rtt : ℚ) ≤ p.rtt := by exact_mod_cast hquickest p hp
  have hle : |baseElapsed s.timed.timer (dateNow skew s.now) best.off - s.watch.ran| ≤
      (p.rtt / 2 + 2) / 1000 := hbase.trans (by linarith)
  apply near_max
  rw [abs_le] at hle ⊢
  constructor <;> linarith

/-- A device a second ahead, a minute into the round. -/
theorem tableRemaining_near_minute :
    |tableRemaining minuteHall.timed "0" (dateNow 1000000 minuteHall.now) (-1000) -
      max 0 (roundTime minuteHall.timed.doc - minuteHall.watch.ran +
        minuteHall.timed.tableExtraTime "0")| ≤ ((20 : ℤ) / 2 + 2) / 1000 := by
  have hprobe : Answered 1000000 ⟨1000, 10, 1020⟩ :=
    ⟨0, 10000, 20000, by decide, by decide, by norm_num [dateNow]⟩
  have hnear := tableRemaining_near minuteHall reachable_minuteHall 1000000
    [none, some ⟨1000, 10, 1020⟩] ⟨1000, 10, 1020⟩ "0"
    (by simpa using hprobe) rfl ⟨1000, 10, 1020⟩ (by simp)
  have hoff : Probe.off ⟨1000, 10, 1020⟩ = -1000 := by norm_num [Probe.off]
  have hrtt : Probe.rtt ⟨1000, 10, 1020⟩ = 20 := rfl
  rwa [hoff, hrtt] at hnear

end Devices

end Archon.RoundTimer

import Archon.Engine.LiveSeats
import Archon.Engine.Scenario

/-!
# The waitlist

A waitlisted entry is never checked in or playing and never sits at a live table, as long as no
event brings it there past the mark. `ReopenTournament` does: the finish marks waitlisted players
`Finished` like everybody, and the reopening checks every `Finished` player in.
-/

namespace Archon.Engine
open Guards Seating

/-- A waitlisted entry waits: neither checked in nor playing. -/
def Player.Waits (p : Player) : Prop :=
  p.waitlisted = true → p.state ≠ .checkedIn ∧ p.state ≠ .playing

/-- No entry of the player carries the mark. -/
abbrev OffWaitlist (players : List Player) (uid : Uid) : Prop :=
  EveryEntry (fun p => p.waitlisted = false) players uid

/-- Waitlisted entries are out of the play, and so are their seats. -/
def WaitlistOut (t : Tournament) : Prop :=
  ∀ p ∈ t.players, p.waitlisted = true →
    (p.state ≠ .checkedIn ∧ p.state ≠ .playing) ∧
      ∀ uid ∈ liveSeats t.rounds, p.userUid ≠ some uid

instance (t : Tournament) : Decidable (WaitlistOut t) :=
  inferInstanceAs (Decidable (∀ p ∈ t.players, p.waitlisted = true →
    (p.state ≠ .checkedIn ∧ p.state ≠ .playing) ∧
      ∀ uid ∈ liveSeats t.rounds, p.userUid ≠ some uid))

/-! ### The condition on an event -/

/-- Seating clears the mark of the player's first entry: at a live table the later ones matter. -/
def clearsMark (t : Tournament) (i : EventInput) (uid : Uid) : Prop :=
  match i.event with
  | .seatPlayer .. => ∀ p ∈ laterEntries t.players uid, p.waitlisted = false
  | .alterSeating round _ =>
    let tables := (t.rounds[round]?).getD []
    roundIsLive tables = true ∧ uid ∉ roundUids tables ∧ hasDqSanction i.sanctions uid = false
      ∧ (findPlayer t.players uid).all (fun p => p.state != .disqualified) = true
      ∧ ∀ p ∈ laterEntries t.players uid, p.waitlisted = false
  | _ => False

/-- `CancelRound` checks a completed entry in again when the player is under the cap without the
round. -/
def rearmed (t : Tournament) (target : ℕ) (p : Player) : Prop :=
  p.state = .completed ∧ 0 < t.maxRounds ∧ t.state ≠ .finished
    ∧ p.userUid.any (fun uid =>
      !atRoundCap { t with rounds := cancelledRounds t.rounds target } uid) = true

/-- `RestoreRound` leaves a seated waitlisted player out of the play: the round is over and the
player at the cap with it. -/
def restoredCapped (t : Tournament) (target : ℕ) (uid : Uid) : Prop :=
  let tables := (t.rounds[target]?).getD []
  tables.any (fun tb => rederivedState tb != .finished) = false
    ∧ atRoundCap { t with rounds := t.rounds.set target (restoreTables tables) } uid = true

/-- The event brings no waitlisted entry into the play. -/
def KeepsWaitlistOut (t : Tournament) (i : EventInput) : Prop :=
  (∀ uid ∈ seatedLive t i, OffWaitlist t.players uid ∨ clearsMark t i uid) ∧
  match i.event with
  | .setWaitlisted uid true => uid ∉ liveSeats t.rounds
  | .cancelRound round => ∀ p ∈ t.players, p.waitlisted = true →
      ¬rearmed t (round.getD (t.rounds.length - 1)) p
  | .restoreRound (some target) => ∀ uid ∈ roundUids ((t.rounds[target]?).getD []),
      OffWaitlist t.players uid ∨ restoredCapped t target uid
  | .startFinals => ∀ uid ∈ qualifiers t i.sanctions,
      (findPlayer t.players uid).all (fun p => !p.waitlisted) = true
  | .cancelFinals => ∀ p ∈ t.players, p.waitlisted = true → p.finalist = true →
      p.userUid.getD "" ∈ cappedFinalists t
  | .reopenTournament => ∀ p ∈ t.players, p.waitlisted = true → p.state = .finished →
      (t.finals.isSome && p.finalist) = false ∧ p.userUid.getD "" ∈ cappedUids t
  | _ => True

instance (t : Tournament) (i : EventInput) (uid : Uid) : Decidable (clearsMark t i uid) := by
  unfold clearsMark
  generalize i.event = e
  induction e using TournamentEvent.casesOn <;> infer_instance

instance (t : Tournament) (i : EventInput) : Decidable (KeepsWaitlistOut t i) := by
  unfold KeepsWaitlistOut rearmed restoredCapped
  refine @instDecidableAnd _ _ _ ?_
  generalize i.event = e
  induction e using TournamentEvent.casesOn with
  | setWaitlisted uid waitlisted => induction waitlisted using Bool.casesOn <;> infer_instance
  | restoreRound round => induction round using Option.casesOn <;> infer_instance
  | _ => infer_instance

section Waitlist

variable {rs : RandomSource} {t t' : Tournament} {i : EventInput} {uid : Uid}

theorem waitlistOut_iff : WaitlistOut t ↔
    (∀ p ∈ t.players, p.Waits) ∧ ∀ uid ∈ liveSeats t.rounds, OffWaitlist t.players uid := by
  constructor
  · intro h
    refine ⟨fun p hp hw => (h p hp hw).1, fun uid hu p hp hpu => Bool.not_eq_true _ |>.mp ?_⟩
    exact fun hw => (h p hp hw).2 uid hu hpu
  · rintro ⟨hwaits, hoff⟩ p hp hw
    refine ⟨hwaits p hp hw, fun uid hu hpu => ?_⟩
    have := hoff uid hu p hp hpu
    simp [hw] at this

/-! ### Rewritten entries -/

theorem Player.waits_of_off {p : Player} (h : p.waitlisted = false) : p.Waits := by
  intro hw
  simp [h] at hw

theorem Player.Waits.rewrite {p q : Player} (h : p.Waits) (hmark : q.waitlisted = p.waitlisted)
    (hstate : q.state = p.state ∨ (q.state ≠ .checkedIn ∧ q.state ≠ .playing)) : q.Waits := by
  intro hw
  rcases hstate with hs | hs
  · rw [hs]
    exact h (hmark ▸ hw)
  · exact hs

theorem Player.Waits.off {p : Player} (h : p.Waits)
    (hs : p.state = .checkedIn ∨ p.state = .playing) : p.waitlisted = false := by
  rw [← Bool.not_eq_true]
  intro hw
  rcases hs with hs | hs
  · exact (h hw).1 hs
  · exact (h hw).2 hs

theorem waits_demote {unseated : List Uid} {r : ℕ} (h : ∀ p ∈ t.players, p.Waits) :
    ∀ p ∈ (demoteUnseatedPlayers t unseated r).players, p.Waits := by
  intro q hq
  obtain ⟨p, hp, rfl⟩ := List.mem_map.1 hq
  split
  · split
    · exact (h p hp).rewrite rfl (.inr (by simp))
    · exact h p hp
  · exact h p hp

theorem waits_joinPlayers {state : TournamentState} {sanctions : List Sanction} (uids : List Uid) :
    ∀ players : List Player, (∀ p ∈ players, p.Waits) →
      ∀ p ∈ uids.foldl (joinPlayer state sanctions) players, p.Waits := by
  induction uids with
  | nil => exact fun _ h => h
  | cons uid uids ih =>
    refine fun players h => ih _ ?_
    unfold joinPlayer
    split
    · exact h
    · refine forall_mem_updatePlayer h fun p hp => ?_
      split
      · exact h p (findPlayer_mem hp).1
      · exact Player.waits_of_off rfl

theorem waits_markFinalists (uids : List Uid) : ∀ players : List Player,
    (∀ p ∈ players, p.Waits) →
    (∀ uid ∈ uids, (findPlayer players uid).all (fun p => !p.waitlisted) = true) →
      ∀ p ∈ uids.foldl markFinalist players, p.Waits := by
  induction uids with
  | nil => exact fun _ h _ => h
  | cons a uids ih =>
    intro players h hoff
    refine ih _ ?_ fun uid hu => ?_
    · refine forall_mem_updatePlayer h fun p hp => Player.waits_of_off ?_
      simpa [hp] using hoff a List.mem_cons_self
    · have hold := hoff uid (List.mem_cons_of_mem _ hu)
      by_cases hne : uid = a
      · subst hne
        rw [markFinalist, findPlayer_update_self]
        · cases hp : findPlayer players uid with
          | none => rfl
          | some p => simpa [hp] using hold
        · exact fun _ => rfl
      · rw [markFinalist, findPlayer_update_ne ?_ hne]
        · exact hold
        · exact fun _ => rfl

theorem OffWaitlist.mapState {players : List Player} {f : Player → Player}
    (h : OffWaitlist players uid) (hf : OnlyState f) : OffWaitlist (players.map f) uid :=
  everyEntry_map hf.userUid fun p hp hu => (hf.waitlisted p).trans (h p hp hu)

theorem joinedEntry_off {state : TournamentState} {p : Player} (hp : p.state ≠ .disqualified) :
    (joinedEntry state p).waitlisted = false := by
  rw [joinedEntry, if_neg hp]

theorem off_demote {unseated : List Uid} {r : ℕ} (h : OffWaitlist t.players uid) :
    OffWaitlist (demoteUnseatedPlayers t unseated r).players uid := by
  intro q hq hu
  obtain ⟨p, hp, rfl⟩ := List.mem_map.1 hq
  revert hu
  split
  · split <;> exact fun hu => h p hp hu
  · exact fun hu => h p hp hu

theorem waits_step (hshape : Shape t) (hwaits : ∀ p ∈ t.players, p.Waits)
    (hoff : ∀ uid ∈ liveSeats t.rounds, OffWaitlist t.players uid) (hok : KeepsWaitlistOut t i)
    (heff : Effect rs t i t') : ∀ p ∈ t'.players, p.Waits := by
  obtain ⟨hseated, hok⟩ := hok
  cases heff with
  | quiet _ hq =>
    intro q hqm
    obtain ⟨p, hp, hpq⟩ := exists_mem_of_forall₂ hq.players hqm
    exact (hwaits p hp).rewrite hpq.waitlisted (.inl hpq.state)
  | openRegistration | closeRegistration | cancelRegistration => exact hwaits
  | reopenRegistration =>
    refine List.forall_mem_map.2 fun p hp => ?_
    split
    · exact (hwaits p hp).rewrite rfl (.inr (by simp [Player.withState]))
    · exact hwaits p hp
  | register =>
    refine List.forall_mem_append.2 ⟨hwaits, List.forall_mem_singleton.2 fun _ => ?_⟩
    simp [Player.fresh]
  | addPlayer _ _ _ _ p _ _ _ _ hs =>
    refine List.forall_mem_append.2 ⟨hwaits, List.forall_mem_singleton.2 fun hw => ?_⟩
    rcases hs with hs | ⟨-, hfalse⟩
    · simp [hs]
    · simp [hfalse] at hw
  | leave _ idx => exact fun p hp => hwaits p (List.mem_of_mem_eraseIdx hp)
  | dropOut =>
    refine forall_mem_updatePlayer hwaits fun p hp => ?_
    exact (hwaits p (findPlayer_mem hp).1).rewrite rfl (.inr (by simp [Player.withState]))
  | checkIn uid _ name players p _ _ hplayers hp _ hw =>
    have hadmitted : ∀ p ∈ players, p.Waits := by
      rcases hplayers with rfl | ⟨-, -, rfl⟩
      · exact hwaits
      · refine List.forall_mem_append.2 ⟨hwaits, List.forall_mem_singleton.2 fun _ => ?_⟩
        simp [Player.fresh]
    refine forall_mem_updatePlayer hadmitted fun q hq => Player.waits_of_off ?_
    obtain rfl : p = q := Option.some.inj (hp.symm.trans hq)
    rw [waitlisted_checkedInEntry, hw]
  | checkOut =>
    refine forall_mem_updatePlayer hwaits fun p hp => ?_
    refine (hwaits p (findPlayer_mem hp).1).rewrite rfl (.inr ?_)
    unfold checkedOutState Player.withState
    split <;> simp
  | checkInAll =>
    refine List.forall_mem_map.2 fun p hp => ?_
    split
    · rename_i hc
      exact Player.waits_of_off (by simp_all [checksInAll, Player.withState])
    · exact hwaits p hp
  | resetCheckIn =>
    refine List.forall_mem_map.2 fun p hp => ?_
    split
    · refine (hwaits p hp).rewrite rfl (.inr ?_)
      unfold checkedOutState Player.withState
      split <;> simp
    · exact hwaits p hp
  | setNonCompeting =>
    rw [updateStandings_players]
    exact forall_mem_updatePlayer hwaits fun p hp =>
      (hwaits p (findPlayer_mem hp).1).rewrite rfl (.inl rfl)
  | setWaitlisted uid waitlisted p _ hp hs =>
    refine forall_mem_updatePlayer hwaits fun q hq => ?_
    obtain rfl : p = q := Option.some.inj (hp.symm.trans hq)
    rcases hs with rfl | hs
    · exact Player.waits_of_off rfl
    · exact fun _ => by simp [hs]
  | startRound =>
    refine List.forall_mem_map.2 fun p hp => ?_
    unfold startRoundEntry
    split
    · rename_i hs
      have := (hwaits p hp).off (.inl hs)
      split
      · exact Player.waits_of_off this
      · exact hwaits p hp
    · split
      · exact (hwaits p hp).rewrite rfl (.inr (by simp [Player.withState]))
      · exact hwaits p hp
    · exact hwaits p hp
  | selfOrganizeRound uids _ he =>
    refine List.forall_mem_map.2 fun p hp => ?_
    unfold selfOrganizeEntry
    split
    · rename_i hc
      obtain ⟨uid, hu, hmem⟩ : ∃ uid, p.userUid = some uid ∧ uid ∈ uids := by
        simpa [Option.any_eq_true] using hc
      have hoffw := (hseated uid (by simpa [seatedLive, he] using hmem)).resolve_right
        (by simp [clearsMark, he])
      exact Player.waits_of_off (hoffw p hp hu)
    · exact hwaits p hp
  | finishRound round =>
    rw [updateStandings_players]
    refine List.forall_mem_map.2 fun p hp => ?_
    unfold finishRoundEntry
    split
    · split
      · rename_i hc
        exact Player.waits_of_off ((hwaits p hp).off (.inr hc.1))
      · exact hwaits p hp
    · exact hwaits p hp
  | cancelRound round he =>
    rw [updateStandings_players]
    simp only [he] at hok
    refine List.forall_mem_map.2 fun p hp => ?_
    unfold cancelRoundEntry
    split
    · rename_i uid hu
      split
      · rename_i hc
        exact Player.waits_of_off ((hwaits p hp).off (.inr hc.1))
      · split
        · rename_i hc
          refine Player.waits_of_off (Bool.not_eq_true _ |>.mp fun hw => hok p hp hw ?_)
          exact ⟨hc.1, hc.2.1, hc.2.2.1, by simpa [hu] using hc.2.2.2⟩
        · exact hwaits p hp
    · exact hwaits p hp
  | restoreRound target tables he _ _ hround =>
    rw [updateStandings_players]
    simp only [he, hround, Option.getD_some, restoredCapped] at hok
    refine List.forall_mem_map.2 fun p hp => ?_
    unfold restoreRoundEntry
    split
    · rename_i uid hu
      split
      · rename_i hc
        rcases hok uid hc.1 with hoffw | ⟨hlive, hcap⟩
        · exact Player.waits_of_off (hoffw p hp hu)
        · have hany : (restoreTables tables).any (fun tb => tb.state != .finished) = false :=
            List.any_map.trans hlive
          refine (hwaits p hp).rewrite rfl (.inr ?_)
          simp only [hany, hcap, Player.withState]
          simp
      · exact hwaits p hp
    · exact hwaits p hp
  | swapFinals | swapRound | reseatFinals | scoreFinals | scoreTable | overrideFinals
  | overrideTable | unoverrideFinals | unoverrideTable =>
    rw [updateStandings_players]
    exact hwaits
  | addTable | removeTable => exact hwaits
  | reseatRound round seating tables =>
    rw [updateStandings_players]
    unfold alterSeatingDoc
    extract_lets reseated
    split
    · exact waits_demote (waits_joinPlayers _ _ hwaits)
    · exact hwaits
  | seatPlayer =>
    rw [updateStandings_players]
    exact forall_mem_updatePlayer hwaits fun _ _ => Player.waits_of_off rfl
  | unseatPlayer =>
    rw [updateStandings_players]
    exact waits_demote hwaits
  | setToss =>
    exact forall_mem_updatePlayer hwaits fun p hp =>
      (hwaits p (findPlayer_mem hp).1).rewrite rfl (.inl rfl)
  | randomToss =>
    exact forall_mem_tossedPlayers t (fun _ _ hp => hp) i.sanctions hwaits
  | startFinals he =>
    simp only [he] at hok
    exact waits_markFinalists _ _ hwaits hok
  | finishFinals | finishTournament =>
    rw [updateStandings_players]
    refine List.forall_mem_map.2 fun p hp => ?_
    unfold finishEntry
    split
    · exact hwaits p hp
    · exact (hwaits p hp).rewrite rfl (.inr (by simp [Player.withState]))
  | cancelFinals he =>
    rw [updateStandings_players]
    simp only [he] at hok
    refine List.forall_mem_map.2 fun p hp => ?_
    unfold cancelFinalsEntry
    split
    · rename_i hf
      intro hw
      simp [hok p hp hw hf]
    · exact hwaits p hp
  | reopenTournament he =>
    rw [updateStandings_players]
    simp only [he] at hok
    refine List.forall_mem_map.2 fun p hp => ?_
    unfold reopenEntry
    split
    · rename_i hf
      intro hw
      obtain ⟨hfinals, hcap⟩ := hok p hp hw hf
      have hlive : p.userUid.getD "" ∉ liveSeats t.rounds := by
        intro hl
        cases hu : p.userUid with
        | none => exact hshape.named (List.mem_map.2 ⟨p, hp, hu⟩)
        | some uid =>
          rw [hu, Option.getD_some] at hl
          have hfalse := hoff uid hl p hp hu
          have hmark : p.waitlisted = true := hw
          simp [hmark] at hfalse
      simp [Player.withState, hfinals, hlive, hcap]
    · exact hwaits p hp
  | archival sheet =>
    refine List.forall_mem_append.2 ⟨List.forall_mem_map.2 fun _ _ => ?_, fun p hp => ?_⟩
    · exact Player.waits_of_off rfl
    · exact hwaits p (List.mem_filter.1 hp).1

theorem off_step (hshape : Shape t)
    (hoff : ∀ u ∈ liveSeats t.rounds, OffWaitlist t.players u) (hok : KeepsWaitlistOut t i)
    (heff : Effect rs t i t') (hlive : uid ∈ liveSeats t'.rounds) :
    OffWaitlist t'.players uid := by
  obtain ⟨hseated, hok⟩ := hok
  have hfrom := mem_liveSeats_of_effect heff hlive
  have hcase : OffWaitlist t.players uid ∨ clearsMark t i uid :=
    hfrom.elim (fun hl => .inl (hoff uid hl)) (hseated uid)
  have hold : ¬clearsMark t i uid → OffWaitlist t.players uid := hcase.resolve_right
  cases heff with
  | quiet he hq =>
    have hnot : ¬clearsMark t i uid := by
      unfold clearsMark
      revert he
      cases i.event <;> simp [TournamentEvent.isQuiet]
    refine (hold hnot).sameEntry hq.players fun p q hpq hp => ?_
    rwa [hpq.waitlisted]
  | openRegistration he | closeRegistration he | cancelRegistration he =>
    exact hold (by simp [clearsMark, he])
  | reopenRegistration he =>
    exact (hold (by simp [clearsMark, he])).mapState onlyState_ite
  | register u _ _ he _ _ hnew =>
    refine EveryEntry.push (hold (by simp [clearsMark, he])) fun hu => ?_
    obtain rfl : u = uid := by simpa [Player.fresh] using hu
    exact playerExists_eq_false.1 hnew (hshape.liveOnRoster hlive)
  | addPlayer u _ _ _ p he hnew _ hp =>
    refine EveryEntry.push (hold (by simp [clearsMark, he])) fun hu => ?_
    obtain rfl : u = uid := by simpa [hp.1] using hu
    exact playerExists_eq_false.1 hnew (hshape.liveOnRoster hlive)
  | leave u idx he =>
    have hnot : ¬clearsMark t i uid := by rcases he with he | he <;> simp [clearsMark, he]
    exact fun p hp => hold hnot p (List.mem_of_mem_eraseIdx hp)
  | dropOut u p he =>
    exact EveryEntry.update (hold (by simp [clearsMark, he])) (fun _ => rfl) fun _ hp => hp
  | checkIn u _ name players p he _ hplayers =>
    have hprev := hold (by simp [clearsMark, he])
    have hadmitted : OffWaitlist players uid := by
      rcases hplayers with rfl | ⟨-, -, rfl⟩
      · exact hprev
      · intro q hq hu
        rcases List.mem_append.1 hq with hq | hq
        · exact hprev q hq hu
        · obtain rfl := List.mem_singleton.1 hq
          rfl
    refine hadmitted.update (userUid_checkedInEntry t i.decks u name) fun p hp => ?_
    rw [waitlisted_checkedInEntry, hp]
  | checkOut u p he =>
    exact EveryEntry.update (hold (by simp [clearsMark, he])) (fun _ => rfl) fun _ hp => hp
  | checkInAll he | resetCheckIn he =>
    exact (hold (by simp [clearsMark, he])).mapState onlyState_ite
  | setNonCompeting u _ he =>
    rw [updateStandings_players]
    exact EveryEntry.update (hold (by simp [clearsMark, he])) (fun _ => rfl) fun _ hp => hp
  | setWaitlisted u waitlisted p he =>
    have hprev := hold (by simp [clearsMark, he])
    cases waitlisted with
    | false => exact hprev.update (fun _ => rfl) fun _ _ => rfl
    | true =>
      simp only [he] at hok
      refine hprev.update_ne (fun _ => rfl) ?_
      rintro rfl
      exact hok hlive
  | startRound _ seating he =>
    exact (hold (by simp [clearsMark, he])).mapState (onlyState_startRoundEntry _ _)
  | selfOrganizeRound uids seating he =>
    exact (hold (by simp [clearsMark, he])).mapState (onlyState_selfOrganizeEntry _)
  | finishRound round tables he =>
    rw [updateStandings_players]
    exact (hold (by simp [clearsMark, he])).mapState (onlyState_finishRoundEntry t _)
  | cancelRound round he =>
    rw [updateStandings_players]
    exact (hold (by simp [clearsMark, he])).mapState (onlyState_cancelRoundEntry _ _)
  | restoreRound target tables he =>
    rw [updateStandings_players]
    exact (hold (by simp [clearsMark, he])).mapState (onlyState_restoreRoundEntry _ _ _)
  | reseatFinals round seating f he _ _ hr =>
    rw [updateStandings_players]
    exact hold (by simp [clearsMark, he, hr, roundIsLive])
  | swapFinals _ _ _ _ _ _ he | swapRound _ _ _ _ _ _ _ _ he | scoreFinals _ _ _ _ _ he
  | scoreTable _ _ _ _ _ _ he | overrideFinals _ _ _ _ he | overrideTable _ _ _ _ _ he
  | unoverrideFinals _ _ _ he | unoverrideTable _ _ _ _ he =>
    rw [updateStandings_players]
    exact hold (by simp [clearsMark, he])
  | addTable he | removeTable _ _ he => exact hold (by simp [clearsMark, he])
  | reseatRound round seating tables he _ _ hround =>
    rw [liveSeats_updateStandings, rounds_alterSeatingDoc] at hlive
    rw [updateStandings_players]
    simp only [clearsMark, he, hround, Option.getD_some] at hcase
    unfold alterSeatingDoc
    extract_lets reseated
    split
    · refine off_demote ?_
      have hkeep : ∀ p : Player, p.waitlisted = false →
          (joinedEntry reseated.state p).waitlisted = false := by
        intro p hp
        unfold joinedEntry
        split
        · exact hp
        · rfl
      have hfold : OffWaitlist t.players uid → OffWaitlist
          ((seating.flatten.filter fun u => u ∉ roundUids tables).foldl
            (joinPlayer reseated.state i.sanctions) reseated.players) uid := fun hin =>
        EveryEntry.foldl (joinPlayer_eq _ i.sanctions) (joinedEntry_userUid _) hkeep _ hin
      rcases mem_liveSeats_set hlive with helse | hl
      · exact hfold (hoff uid helse.mem)
      · have hseat : uid ∈ seating.flatten :=
          roundUids_reseatRound tables seating ▸ hl.mem_roundUids
        rcases hcase with hin | ⟨-, hnew, hdq, hfirst, hlater⟩
        · exact hfold hin
        · refine everyEntry_foldl (joinPlayer_eq _ i.sanctions) (joinedEntry_userUid _) hkeep
            (fun p => p.state ≠ .disqualified) (fun p => joinedEntry_off) ?_ hdq ?_ hlater
          · exact List.mem_filter.2 ⟨hseat, by simpa using hnew⟩
          · intro p hp
            simpa [show findPlayer t.players uid = some p from hp] using hfirst
    · rename_i hrl
      exact hcase.resolve_right fun hj => hrl hj.1
  | seatPlayer u table seat round target p tables tb he =>
    rw [updateStandings_players]
    simp only [clearsMark, he] at hcase
    by_cases hu : uid = u
    · subst hu
      exact everyEntry_update (fun _ _ => rfl) (hcase.elim EveryEntry.later id)
    · have hprev : uid ∈ liveSeats t.rounds := hfrom.resolve_right fun hs => by
        simp only [seatedLive, he] at hs
        split at hs
        · exact hu (List.mem_singleton.1 hs)
        · cases hs
      exact (hoff uid hprev).update_ne (fun _ => rfl) hu
  | unseatPlayer u round target tables he =>
    rw [updateStandings_players]
    exact off_demote (hold (by simp [clearsMark, he]))
  | setToss u _ he =>
    exact EveryEntry.update (hold (by simp [clearsMark, he])) (fun _ => rfl) fun _ hp => hp
  | randomToss he =>
    exact forall_mem_tossedPlayers t (fun _ _ hp => hp) i.sanctions
      (hold (by simp [clearsMark, he]))
  | startFinals he =>
    exact EveryEntry.foldl markFinalist_eq (fun _ => rfl) (fun _ hp => hp) _
      (hold (by simp [clearsMark, he]))
  | finishFinals f he | finishTournament he =>
    rw [updateStandings_players]
    exact (hold (by simp [clearsMark, he])).mapState onlyState_finishEntry
  | cancelFinals he =>
    rw [updateStandings_players]
    refine everyEntry_map (userUid_cancelFinalsEntry t) fun p hp hu => ?_
    unfold cancelFinalsEntry
    split <;> exact hold (by simp [clearsMark, he]) p hp hu
  | reopenTournament he =>
    rw [updateStandings_players]
    exact (hold (by simp [clearsMark, he])).mapState (onlyState_reopenEntry t)
  | archival sheet he =>
    have hprev := hold (by simp [clearsMark, he])
    intro q hq hu
    rcases List.mem_append.1 hq with hq | hq
    · obtain ⟨u, -, rfl⟩ := List.mem_map.1 hq
      rfl
    · exact hprev q (List.mem_filter.1 hq).1 hu

theorem WaitlistOut.step (hshape : Shape t) (h : WaitlistOut t) (hok : KeepsWaitlistOut t i)
    (heff : Effect rs t i t') : WaitlistOut t' := by
  obtain ⟨hwaits, hoff⟩ := waitlistOut_iff.1 h
  exact waitlistOut_iff.2 ⟨waits_step hshape hwaits hoff hok heff,
    fun uid hlive => off_step hshape hoff hok heff hlive⟩

/-- In every run whose events meet the condition, no waitlisted player is checked in, playing or
seated at a live table. -/
theorem waitlistOut_of_reaches (h : (engineSystem rs).Reaches KeepsWaitlistOut t) :
    WaitlistOut t := by
  refine h.invariant_of (fun _ => Shape.of_reachable) (fun t ht => ?_)
    fun t i t' hshape hp hok hs => hp.step hshape hok (effect_of_acceptEvent hs)
  obtain ⟨request, actor, ht⟩ := ht
  rw [createTournament_eq ht]
  exact fun p hp => absurd hp List.not_mem_nil

/-- The event of four with a fifth player on the waitlist, who stays away from the round. -/
def oneWaiting : List TournamentEvent :=
  gathering ["a", "b", "c", "d"] ++
    [.resetCheckIn, .reopenRegistration, .addPlayer "e" (some "e") none false,
      .setWaitlisted "e" true, .closeRegistration, .checkInAll,
      .startRound (some [["a", "b", "c", "d"]])]

theorem oneWaiting_waitlistOut :
    ∃ t, (t.state = .playing ∧ t.players.map Player.waitlisted =
      [false, false, false, false, true]) ∧
      WaitlistOut t := by
  obtain ⟨t, ht, hp⟩ := exists_reaches_of_replay KeepsWaitlistOut (oneWaiting.map sent)
    (fun t => t.state == .playing &&
      t.players.map Player.waitlisted == [false, false, false, false, true]) (by decide +kernel)
  exact ⟨t, by simpa using hp, waitlistOut_of_reaches ht⟩

end Waitlist

/-! ### The defect -/

/-- The tournament with the waiting player is finished and reopened. -/
def reopenedWithWaiting : List TournamentEvent :=
  oneWaiting ++ [.override 0 0 "timed out", .finishRound none, .finishTournament, .reopenTournament]

/-- The reopening checks a waitlisted player in. -/
theorem reopenedWithWaiting_not_waitlistOut :
    ∃ t, (engineSystem fixedOrder).Reachable t ∧ ¬WaitlistOut t := by
  obtain ⟨t, ht, hp⟩ := exists_reaches_of_replay anyEvent (reopenedWithWaiting.map sent)
    (fun t => !decide (WaitlistOut t)) (by decide +kernel)
  exact ⟨t, ht, by simpa using hp⟩

end Archon.Engine

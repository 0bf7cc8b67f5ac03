import Archon.Engine.LiveSeats
import Archon.Engine.Scenario

/-!
# Live seats and player states

While a tournament is playing, whoever sits at a live preliminary table should be playing,
finished or disqualified. Several events take a seated player out of play: above all `CheckIn`,
which puts a player seated elsewhere back among the checked in.
-/

namespace Archon.Engine
open Guards Seating

/-- A state that keeps the player out of the next seating of a physical round. -/
def Player.inPlay (p : Player) : Bool :=
  p.state == .playing || p.state == .finished || p.state == .disqualified

/-- Every entry of the player is in play. -/
abbrev InPlay (players : List Player) (uid : Uid) : Prop :=
  EveryEntry (fun p => p.inPlay = true) players uid

/-- While playing, everybody at a live table is on the roster and in play. -/
def LiveSeatsInPlay (t : Tournament) : Prop :=
  t.state = .playing → ∀ uid ∈ liveSeats t.rounds,
    some uid ∈ rosterUids t.players ∧ InPlay t.players uid

instance (t : Tournament) : Decidable (LiveSeatsInPlay t) :=
  inferInstanceAs (Decidable (t.state = .playing → ∀ uid ∈ liveSeats t.rounds,
    some uid ∈ rosterUids t.players ∧ InPlay t.players uid))

/-! ### The condition on an event -/

/-- `CheckIn` of a seated player only takes back a drop-out under the round cap. -/
def checkInKeeps (t : Tournament) (uid : Uid) : Prop :=
  uid ∈ liveSeats t.rounds →
    (findPlayer t.players uid).any (fun p => p.state == .finished) = true
      ∧ atRoundCap t uid = false

/-- `StartRound` takes an entry that is not yet in play into the round or withdraws it. -/
def startedInPlay (t : Tournament) (uid : Uid) (p : Player) : Prop :=
  p.inPlay = true ∨ (p.state = .checkedIn ∧ uid ∈ playersToSeat t)
    ∨ (p.state = .registered ∧ dropsNoShows t = true ∧ p.waitlisted = false)

/-- A player who joins the round without a disqualification, other entries being in play. -/
def joinsInPlay (t : Tournament) (sanctions : List Sanction) (round : ℕ) (uid : Uid) : Prop :=
  let tables := (t.rounds[round]?).getD []
  roundIsLive tables = true ∧ uid ∉ roundUids tables ∧ hasDqSanction sanctions uid = false
    ∧ ∀ p ∈ laterEntries t.players uid, p.inPlay = true

/-- `RestoreRound` takes every seated player back into play when the round is live again, and
finds those seated elsewhere playing when it is not. -/
def restoreKeeps (t : Tournament) (target : ℕ) : Prop :=
  let tables := (t.rounds[target]?).getD []
  if tables.any (fun tb => rederivedState tb != .finished) = true then
    ∀ uid ∈ liveSeats t.rounds, uid ∈ roundUids tables ∨ InPlay t.players uid
  else
    t.state = .playing → ∀ uid ∈ liveSeats t.rounds, uid ∈ roundUids tables →
      EveryEntry (fun p => p.state = .playing) t.players uid

/-- `UnseatPlayer` leaves a playing player no other live seat in the round, or one elsewhere. -/
def unseatKeeps (t : Tournament) (uid : Uid) (target : ℕ) : Prop :=
  uid ∈ liveSeats [removeSeat uid ((t.rounds[target]?).getD [])] →
    uid ∈ playersInOtherActiveRounds t (some target)
      ∨ EveryEntry (fun p => p.state ≠ .playing) t.players uid

/-- The event leaves whoever sits at a live table in play. -/
def KeepsInPlay (t : Tournament) (i : EventInput) : Prop :=
  match i.event with
  | .checkIn uid _ _ => t.state = .playing → checkInKeeps t uid
  | .startRound _ => t.state ≠ .finished → ∀ uid ∈ liveSeats t.rounds ++ playersToSeat t,
      EveryEntry (startedInPlay t uid) t.players uid
  | .selfOrganizeRound uids =>
    ∀ uid ∈ liveSeats t.rounds, uid ∈ uids ∨ InPlay t.players uid
  | .restoreRound (some target) => restoreKeeps t target
  | .alterSeating round _ => t.state = .playing → ∀ uid ∈ seatedLive t i,
      InPlay t.players uid ∨ joinsInPlay t i.sanctions round uid
  | .seatPlayer .. => t.state = .playing → ∀ uid ∈ seatedLive t i,
      ∀ p ∈ laterEntries t.players uid, p.inPlay = true
  | .unseatPlayer uid round =>
    t.state = .playing → unseatKeeps t uid (round.getD (t.rounds.length - 1))
  | .swapSeats .. | .setScore .. | .unoverride .. =>
    t.state = .playing → ∀ uid ∈ seatedLive t i, InPlay t.players uid
  | .startFinals => t.state = .waiting → ∀ uid ∈ liveSeats t.rounds, InPlay t.players uid
      ∨ (uid ∈ qualifiers t i.sanctions ∧ ∀ p ∈ laterEntries t.players uid, p.inPlay = true)
  | .reopenTournament => ∀ uid ∈ liveSeats t.rounds, InPlay t.players uid
  | _ => True

instance (t : Tournament) (i : EventInput) : Decidable (KeepsInPlay t i) := by
  unfold KeepsInPlay checkInKeeps startedInPlay joinsInPlay restoreKeeps unseatKeeps
  generalize i.event = e
  induction e using TournamentEvent.casesOn with
  | restoreRound round => induction round using Option.casesOn <;> infer_instance
  | _ => infer_instance

section InPlay

variable {rs : RandomSource} {t t' : Tournament} {i : EventInput} {uid : Uid}

theorem inPlay_iff {p : Player} :
    p.inPlay = true ↔ p.state = .playing ∨ p.state = .finished ∨ p.state = .disqualified := by
  simp [Player.inPlay, or_assoc]

theorem startRoundEntry_inPlay {seated : List Uid} {p : Player} (hu : p.userUid = some uid)
    (hp : startedInPlay t uid p) (hseated : uid ∈ playersToSeat t → uid ∈ seated) :
    (startRoundEntry seated (dropsNoShows t) p).inPlay = true := by
  unfold startRoundEntry
  rcases hp with hp | ⟨hs, hmem⟩ | ⟨hs, hdrop, hw⟩
  · rcases inPlay_iff.1 hp with hs | hs | hs <;> simpa [hs] using hp
  · simp [hs, hu, hseated hmem, Player.withState, Player.inPlay]
  · simp [hs, hdrop, hw, Player.withState, Player.inPlay]

theorem checkedInEntry_inPlay {decks : List DeckObject} {name : Option String} {p : Player}
    (hlive : uid ∈ liveSeats t.rounds) (hp : p.state = .finished)
    (hcap : atRoundCap t uid = false) : (checkedInEntry t decks uid name p).inPlay = true := by
  have hseated : seatedUnfinished t uid = true := by
    obtain ⟨round, hround, tb, htb, hl, hseat⟩ := mem_liveSeats.1 hlive
    simp only [seatedUnfinished, List.any_eq_true, Bool.and_eq_true, bne_iff_ne]
    refine ⟨round, hround, tb, htb, ?_, seats_iff.2 hseat⟩
    rintro hf
    rw [hf] at hl
    cases hl
  simp [checkedInEntry, hcap, hp, hseated, Player.inPlay]

theorem finishRoundEntry_of_elsewhere {target : ℕ} {p : Player} (hu : p.userUid = some uid)
    (h : LiveElsewhere t.rounds target uid) : finishRoundEntry t target p = p := by
  have hother := mem_playersInOtherActiveRounds.2 h
  simp [finishRoundEntry, hu, hother]

theorem cancelRoundEntry_of_elsewhere {target : ℕ} {p : Player} (hu : p.userUid = some uid)
    (h : LiveElsewhere t.rounds target uid) (hp : p.state ≠ .completed) :
    cancelRoundEntry t target p = p := by
  have hother := mem_playersInOtherActiveRounds.2 h
  simp [cancelRoundEntry, hu, hother, hp]

theorem InPlay.demote {unseated : List Uid} {r : ℕ} (h : InPlay t.players uid)
    (hkeep : uid ∈ unseated → LiveElsewhere t.rounds r uid ∨
      EveryEntry (fun p => p.state ≠ .playing) t.players uid) :
    InPlay (demoteUnseatedPlayers t unseated r).players uid := by
  intro q hq hu
  obtain ⟨p, hp, rfl⟩ := List.mem_map.1 hq
  have hpu : p.userUid = some uid := by
    revert hu
    split
    · split <;> exact id
    · exact id
  rw [hpu]
  dsimp only
  split
  · rename_i hc
    rcases hkeep hc.2.1 with helse | hne
    · exact absurd (mem_playersInOtherActiveRounds.2 helse) hc.2.2
    · exact absurd hc.1 (hne p hp hpu)
  · exact h p hp hpu

theorem joinedEntry_inPlay (p : Player) : (joinedEntry .playing p).inPlay = true := by
  unfold joinedEntry
  split
  · rename_i h
    simp [Player.inPlay, h]
  · rfl

theorem inPlay_reseatRoster {sanctions : List Sanction} {round : ℕ} {old seated : List Uid}
    (hstate : t.state = .playing)
    (h : InPlay t.players uid ∨ (uid ∈ seated ∧ uid ∉ old ∧ hasDqSanction sanctions uid = false ∧
      ∀ p ∈ laterEntries t.players uid, p.inPlay = true))
    (hseat : uid ∈ seated ∨ LiveElsewhere t.rounds round uid) :
    InPlay (reseatRoster t sanctions round old seated).players uid := by
  unfold reseatRoster
  extract_lets joined left
  refine InPlay.demote ?_ fun hleft => ?_
  · rw [hstate]
    rcases h with h | ⟨hs, hold, hdq, hlater⟩
    · exact h.foldl (joinPlayer_eq .playing sanctions) (joinedEntry_userUid _)
        (fun p _ => joinedEntry_inPlay p) joined
    · have hmem : uid ∈ joined := List.mem_filter.2 ⟨hs, by simpa using hold⟩
      exact everyEntry_foldl (joinPlayer_eq .playing sanctions) (joinedEntry_userUid _)
        (fun p _ => joinedEntry_inPlay p) (fun _ => True) (fun p _ => joinedEntry_inPlay p) hmem hdq
        (fun _ _ => trivial) hlater
  · rcases hseat with hs | helse
    · simp [left, hs] at hleft
    · exact .inl helse

theorem inPlay_markFinalists {uids : List Uid}
    (h : InPlay t.players uid ∨
      (uid ∈ uids ∧ ∀ p ∈ laterEntries t.players uid, p.inPlay = true)) :
    InPlay (uids.foldl markFinalist t.players) uid := by
  rcases h with h | ⟨hu, hlater⟩
  · exact h.foldl markFinalist_eq (fun _ => rfl) (fun _ _ => rfl) uids
  · exact everyEntry_foldl markFinalist_eq (fun _ => rfl) (fun _ _ => rfl) (fun _ => True)
      (fun _ _ => rfl) hu trivial (fun _ _ => trivial) hlater

theorem inPlay_restoreRoundDoc {target : ℕ} {tables : List Table}
    (h : t.state = .playing → ∀ u ∈ liveSeats t.rounds, InPlay t.players u)
    (hok : if tables.any (fun tb => rederivedState tb != .finished) = true then
        ∀ u ∈ liveSeats t.rounds, u ∈ roundUids tables ∨ InPlay t.players u
      else t.state = .playing → ∀ u ∈ liveSeats t.rounds, u ∈ roundUids tables →
        EveryEntry (fun p => p.state = .playing) t.players u)
    (hstate : (restoreRoundDoc t target tables).state = .playing)
    (hfrom : uid ∈ liveSeats t.rounds ∨
      uid ∈ (tables.filter fun tb => rederivedState tb != .finished).flatMap Table.uids) :
    InPlay (restoreRoundDoc t target tables).players uid := by
  have hany : (restoreTables tables).any (fun tb => tb.state != .finished) =
      tables.any fun tb => rederivedState tb != .finished := List.any_map
  unfold restoreRoundDoc at hstate ⊢
  extract_lets restored live back at hstate ⊢
  refine everyEntry_map (onlyState_restoreRoundEntry _ _ _).userUid fun p hp hu => ?_
  by_cases hlive : tables.any (fun tb => rederivedState tb != .finished) = true
  · rw [if_pos hlive] at hok
    have hmem : uid ∈ roundUids tables ∨ InPlay t.players uid := by
      refine hfrom.elim (hok uid) fun hs => .inl ?_
      obtain ⟨tb, htb, hseat⟩ := List.mem_flatMap.1 hs
      exact List.mem_flatMap.2 ⟨tb, (List.mem_filter.1 htb).1, hseat⟩
    have hlive' : live = true := hany.trans hlive
    unfold restoreRoundEntry
    rw [hu]
    dsimp only
    split
    · simp [Player.withState, Player.inPlay]
    · rename_i hc
      rcases hmem with hm | hin
      · have hs : p.state = .playing := by
          by_contra hne
          exact hc ⟨hm, hne⟩
        simp [Player.inPlay, hs]
      · exact hin p hp hu
  · rw [if_neg hlive] at hok
    have hlive' : live = false := by
      rw [← Bool.not_eq_true]
      exact fun hl => hlive (hany.symm.trans hl)
    have hplaying : t.state = .playing := by
      simp only [hlive', Bool.false_eq_true, if_false] at hstate
      split at hstate
      · cases hstate
      · exact hstate
    have hold : uid ∈ liveSeats t.rounds := hfrom.resolve_right fun hs => hlive <| by
      obtain ⟨tb, htb, -⟩ := List.mem_flatMap.1 hs
      exact List.any_eq_true.2 ⟨tb, List.mem_filter.1 htb⟩
    unfold restoreRoundEntry
    rw [hu]
    dsimp only
    split
    · rename_i hc
      exact absurd (hok hplaying uid hold hc.1 p hp hu) hc.2
    · exact h hplaying uid hold p hp hu

theorem inPlay_step (hshape : Shape t)
    (h : t.state = .playing → ∀ u ∈ liveSeats t.rounds, InPlay t.players u)
    (hok : KeepsInPlay t i) (heff : Effect rs t i t') (hstate : t'.state = .playing)
    (hlive : uid ∈ liveSeats t'.rounds) : InPlay t'.players uid := by
  have hfrom := mem_liveSeats_of_effect heff hlive
  have hquiet : seatedLive t i = [] → t.state = .playing → InPlay t.players uid := by
    intro hnil hs
    exact h hs uid (hfrom.resolve_right (by simp [hnil]))
  cases heff with
  | quiet he hq =>
    have hnil : seatedLive t i = [] := by
      unfold seatedLive
      revert he
      cases i.event <;> simp [TournamentEvent.isQuiet]
    refine (hquiet hnil (hq.state ▸ hstate)).sameEntry hq.players fun p q hpq hp => ?_
    rwa [Player.inPlay, hpq.state]
  | openRegistration | closeRegistration | cancelRegistration | reopenRegistration =>
    cases hstate
  | register u _ _ he _ _ hnew =>
    have hold := hquiet (by simp [seatedLive, he]) hstate
    refine hold.push fun hu => ?_
    obtain rfl : u = uid := by simpa [Player.fresh] using hu
    exact playerExists_eq_false.1 hnew (hshape.liveOnRoster hlive)
  | addPlayer u _ _ _ p he hnew _ hp =>
    have hold := hquiet (by simp [seatedLive, he]) hstate
    refine hold.push fun hu => ?_
    obtain rfl : u = uid := by simpa [hp.1] using hu
    exact playerExists_eq_false.1 hnew (hshape.liveOnRoster hlive)
  | leave u idx he hs =>
    have hrounds : t.rounds = [] := hs.elim (fun hr => hshape.early (.inr hr)) id
    rw [hrounds] at hlive
    cases hlive
  | dropOut u p he =>
    have hold := hquiet (by simp [seatedLive, he]) hstate
    exact hold.update (fun _ => rfl) fun _ _ => rfl
  | checkIn u _ name players p he _ hplayers hp =>
    have hlive' : uid ∈ liveSeats t.rounds := hlive
    have hold := h hstate uid hlive'
    by_cases hu : uid = u
    · subst hu
      obtain rfl : players = t.players := hplayers.resolve_right fun hnew =>
        playerExists_eq_false.1 hnew.1 (hshape.liveOnRoster hlive')
      simp only [KeepsInPlay, he] at hok
      obtain ⟨hfinished, hcap⟩ := hok hstate hlive'
      refine everyEntry_update (fun q hq => ?_) hold.later
      exact checkedInEntry_inPlay hlive' (by simpa [hq] using hfinished) hcap
    · refine EveryEntry.update_ne ?_ (userUid_checkedInEntry t i.decks u name) hu
      rcases hplayers with rfl | ⟨-, -, rfl⟩
      · exact hold
      · exact hold.push fun hp' => hu (by simpa [Player.fresh] using hp'.symm)
  | checkOut u p he hs => rcases hs with hs | hs <;> simp [hs] at hstate
  | checkInAll he hs => rcases hs with hs | hs <;> simp [hs] at hstate
  | resetCheckIn he hs => rcases hs with hs | hs <;> simp [hs] at hstate
  | setNonCompeting u _ he =>
    rw [updateStandings_state] at hstate
    rw [updateStandings_players]
    have hold := hquiet (by simp [seatedLive, he]) hstate
    exact hold.update (fun _ => rfl) fun _ hp => hp
  | setWaitlisted u _ p he =>
    have hold := hquiet (by simp [seatedLive, he]) hstate
    exact hold.update (fun _ => rfl) fun _ hp => hp
  | startRound _ seating he _ _ hseating =>
    have hne : t.state ≠ .finished := by
      rintro hf
      simp [startRoundDoc, hf] at hstate
    simp only [KeepsInPlay, he] at hok
    simp only [seatedLive, he] at hfrom
    refine everyEntry_map (onlyState_startRoundEntry _ _).userUid fun p hp hu => ?_
    refine startRoundEntry_inPlay hu (hok hne uid (List.mem_append.2 hfrom) p hp hu) fun hs => ?_
    exact (roundSeating_perm hseating).mem_iff.2 hs
  | selfOrganizeRound uids seating he =>
    simp only [KeepsInPlay, he] at hok
    simp only [seatedLive, he] at hfrom
    refine everyEntry_map (onlyState_selfOrganizeEntry _).userUid fun p hp hu => ?_
    unfold selfOrganizeEntry
    split
    · rfl
    · rename_i hout
      have hnot : uid ∉ uids := by simpa [hu] using hout
      exact ((hok uid (hfrom.resolve_right hnot)).resolve_left hnot) p hp hu
  | finishRound round tables he hs hround hfinished =>
    rw [updateStandings_state] at hstate
    rw [updateStandings_players]
    have hplaying : t.state = .playing := by
      unfold finishRoundDoc at hstate
      split at hstate
      · cases hstate
      · exact hstate
    have hold := hquiet (by simp [seatedLive, he]) hplaying
    have helse : LiveElsewhere t.rounds (round.getD (t.rounds.length - 1)) uid := by
      rw [liveSeats_updateStandings] at hlive
      rcases mem_liveSeats_cases (round.getD (t.rounds.length - 1)) hlive with h' | ⟨r, hr, hl⟩
      · exact h'
      · obtain rfl : tables = r := Option.some.inj (hround.symm.trans hr)
        exact absurd hl (not_liveIn_of_finished hfinished)
    refine everyEntry_map (onlyState_finishRoundEntry t _).userUid fun p hp hu => ?_
    rw [finishRoundEntry_of_elsewhere hu helse]
    exact hold p hp hu
  | cancelRound round he =>
    rw [updateStandings_state] at hstate
    rw [liveSeats_updateStandings] at hlive
    rw [updateStandings_players]
    have hplaying : t.state = .playing := by
      unfold cancelRoundDoc at hstate
      extract_lets cut at hstate
      split at hstate
      · cases hstate
      · exact hstate
    obtain ⟨helse, hold⟩ := liveElsewhere_of_mem_cancelledRounds hlive
    refine everyEntry_map (onlyState_cancelRoundEntry _ _).userUid fun p hp hu => ?_
    have hin := h hplaying uid hold p hp hu
    rw [cancelRoundEntry_of_elsewhere hu helse]
    · exact hin
    · rcases inPlay_iff.1 hin with hs | hs | hs <;> simp [hs]
  | restoreRound target tables he _ _ hround =>
    rw [updateStandings_state] at hstate
    rw [updateStandings_players]
    simp only [KeepsInPlay, restoreKeeps, he, hround, Option.getD_some] at hok
    simp only [seatedLive, he, hround, Option.getD_some] at hfrom
    exact inPlay_restoreRoundDoc h hok hstate hfrom
  | swapFinals round t1 s1 t2 s2 f he _ hr =>
    rw [updateStandings_state] at hstate
    rw [updateStandings_players]
    exact hquiet (by simp [seatedLive, he, hr, movedLive, tableAt_length]) hstate
  | swapRound round t1 s1 t2 s2 tables x y he _ hround =>
    rw [updateStandings_state] at hstate
    rw [updateStandings_players]
    simp only [KeepsInPlay, he] at hok
    exact hfrom.elim (h hstate uid) (hok hstate uid)
  | reseatFinals round seating f he _ _ hr =>
    rw [updateStandings_state] at hstate
    rw [updateStandings_players]
    exact hquiet (by simp [seatedLive, he, hr]) hstate
  | reseatRound round seating tables he _ _ hround =>
    rw [updateStandings_state, alterSeatingDoc_state] at hstate
    rw [liveSeats_updateStandings, rounds_alterSeatingDoc] at hlive
    rw [updateStandings_players]
    simp only [KeepsInPlay, joinsInPlay, he, hround, Option.getD_some] at hok
    have hcase := hfrom.elim (fun hl => Or.inl (h hstate uid hl)) (hok hstate uid)
    unfold alterSeatingDoc
    extract_lets reseated
    split
    · have hseat : uid ∈ seating.flatten ∨ LiveElsewhere reseated.rounds round uid := by
        rcases mem_liveSeats_set hlive with helse | hl
        · exact .inr (liveElsewhere_set.2 helse)
        · exact .inl (roundUids_reseatRound tables seating ▸ hl.mem_roundUids)
      refine inPlay_reseatRoster hstate ?_ hseat
      rcases hseat with hs | helse
      · exact hcase.imp id fun hj => ⟨hs, hj.2⟩
      · exact .inl (h hstate uid (liveElsewhere_set.1 helse).mem)
    · rename_i hrl
      exact hcase.resolve_right fun hj => hrl hj.1
  | seatPlayer u table seat round target p tables tb he _ hp _ htarget hround htb =>
    rw [updateStandings_state] at hstate
    rw [updateStandings_players]
    simp only [KeepsInPlay, he] at hok
    have hplaying : t.state = .playing := hstate
    by_cases hu : uid = u
    · subst hu
      refine everyEntry_update (fun q _ => by simp [seatedEntry, hplaying, Player.inPlay]) ?_
      exact hfrom.elim (fun hl => (h hplaying uid hl).later) (hok hplaying uid)
    · have hold : uid ∈ liveSeats t.rounds := hfrom.resolve_right fun hs => by
        simp only [seatedLive, he] at hs
        split at hs
        · exact hu (List.mem_singleton.1 hs)
        · cases hs
      exact (h hplaying uid hold).update_ne (fun _ => rfl) hu
  | unseatPlayer u round target tables he _ htarget hround =>
    rw [updateStandings_state] at hstate
    rw [liveSeats_updateStandings] at hlive
    rw [updateStandings_players]
    have hold := hquiet (by simp [seatedLive, he]) hstate
    simp only [KeepsInPlay, unseatKeeps, he, ← resolveLiveRound_ok htarget, hround,
      Option.getD_some] at hok
    refine InPlay.demote hold fun hu => ?_
    obtain rfl := List.mem_singleton.1 hu
    rcases mem_liveSeats_modify hlive with helse | ⟨tables', hr, hl⟩
    · exact .inl (liveElsewhere_modify.2 helse)
    · obtain rfl : tables = tables' := Option.some.inj (hround.symm.trans hr)
      rcases hok hstate (mem_liveSeats_singleton.2 hl) with helse | hne
      · exact .inl (liveElsewhere_modify.2 (mem_playersInOtherActiveRounds.1 helse))
      · exact .inr hne
  | addTable he =>
    exact hquiet (by simp [seatedLive, he]) hstate
  | removeTable table tb he =>
    exact hquiet (by simp [seatedLive, he]) hstate
  | scoreFinals round table scores f written he _ hr =>
    rw [updateStandings_state] at hstate
    rw [updateStandings_players]
    exact hquiet (by simp [seatedLive, he, hr, tableAt_length, uidsWhen]) hstate
  | scoreTable round table scores tables tb written he =>
    rw [updateStandings_state] at hstate
    rw [updateStandings_players]
    simp only [KeepsInPlay, he] at hok
    exact hfrom.elim (h hstate uid) (hok hstate uid)
  | overrideFinals round table comment f he =>
    rw [updateStandings_state] at hstate
    rw [updateStandings_players]
    exact hquiet (by simp [seatedLive, he]) hstate
  | overrideTable round table comment tables tb he =>
    rw [updateStandings_state] at hstate
    rw [updateStandings_players]
    exact hquiet (by simp [seatedLive, he]) hstate
  | unoverrideFinals round table f he _ hr =>
    rw [updateStandings_state] at hstate
    rw [updateStandings_players]
    exact hquiet (by simp [seatedLive, he, hr, tableAt_length, uidsWhen]) hstate
  | unoverrideTable round table tables tb he =>
    rw [updateStandings_state] at hstate
    rw [updateStandings_players]
    simp only [KeepsInPlay, he] at hok
    exact hfrom.elim (h hstate uid) (hok hstate uid)
  | setToss u _ he hs => rcases hs with hs | hs <;> simp [hs] at hstate
  | randomToss he hs => rcases hs with hs | hs <;> simp [hs] at hstate
  | startFinals he hs =>
    have hwaiting : t.state = .waiting := by
      rcases hs with hs | hs
      · exact hs
      · simp [startFinalsDoc, hs] at hstate
    have hlive' : uid ∈ liveSeats t.rounds := hlive
    simp only [KeepsInPlay, he] at hok
    exact inPlay_markFinalists (hok hwaiting uid hlive')
  | finishFinals => simp [finishFinalsDoc] at hstate
  | cancelFinals => simp [cancelFinalsDoc] at hstate
  | finishTournament => simp at hstate
  | reopenTournament he =>
    rw [liveSeats_updateStandings] at hlive
    rw [updateStandings_players]
    have hlive' : uid ∈ liveSeats t.rounds := hlive
    simp only [KeepsInPlay, he] at hok
    refine everyEntry_map (onlyState_reopenEntry t).userUid fun p hp hu => ?_
    unfold reopenEntry
    split
    · simp [hu, hlive', Player.withState, Player.inPlay]
    · exact hok uid hlive' p hp hu
  | archival sheet he hs => simp [setArchivalResultsDoc, hs] at hstate

theorem LiveSeatsInPlay.step (hshape : Shape t) (h : LiveSeatsInPlay t) (hok : KeepsInPlay t i)
    (heff : Effect rs t i t') : LiveSeatsInPlay t' := by
  intro hstate uid hlive
  refine ⟨(hshape.step heff).liveOnRoster hlive, ?_⟩
  exact inPlay_step hshape (fun hs u hu => (h hs u hu).2) hok heff hstate hlive

/-- In every run whose events meet the condition, whoever sits at a live table of a playing
tournament is on the roster, playing, finished or disqualified. -/
theorem liveSeatsInPlay_of_reaches (h : (engineSystem rs).Reaches KeepsInPlay t) :
    LiveSeatsInPlay t := by
  refine h.invariant_of (fun _ => Shape.of_reachable) (fun t ht => ?_)
    fun t i t' hshape hp hok hs => hp.step hshape hok (effect_of_acceptEvent hs)
  obtain ⟨request, actor, ht⟩ := ht
  rw [createTournament_eq ht]
  intro hstate
  cases hstate

/-- A round starts, a player drops out of it and is checked in again. -/
def backAtTheTable : List TournamentEvent :=
  gathering ["a", "b", "c", "d"] ++
    [.startRound (some [["a", "b", "c", "d"]]), .dropOut "b", .checkIn "b" none none]

theorem backAtTheTable_liveSeatsInPlay :
    ∃ t, (t.state = .playing ∧ liveSeats t.rounds = ["a", "b", "c", "d"]) ∧
      LiveSeatsInPlay t := by
  obtain ⟨t, ht, hp⟩ := exists_reaches_of_replay KeepsInPlay (backAtTheTable.map sent)
    (fun t => t.state == .playing && liveSeats t.rounds == ["a", "b", "c", "d"])
    (by decide +kernel)
  exact ⟨t, by simpa using hp, liveSeatsInPlay_of_reaches ht⟩

end InPlay

/-! ### The defect -/

/-- A player of a running round is checked in. -/
def checkedInAgain : List TournamentEvent :=
  gathering ["a", "b", "c", "d"] ++
    [.startRound (some [["a", "b", "c", "d"]]), .checkIn "a" none none]

/-- `CheckIn` of a seated player takes them out of play. -/
theorem checkedInAgain_not_liveSeatsInPlay :
    ∃ t, (engineSystem fixedOrder).Reachable t ∧ ¬LiveSeatsInPlay t := by
  obtain ⟨t, ht, hp⟩ := exists_reaches_of_replay anyEvent (checkedInAgain.map sent)
    (fun t => !decide (LiveSeatsInPlay t)) (by decide +kernel)
  exact ⟨t, ht, by simpa using hp⟩

end Archon.Engine

import Archon.Engine.HeldSeats
import Archon.Engine.Scenario
import Archon.Engine.FinalsTable

/-!
# Playing players and their seats

Whoever is playing should hold a seat at a table that is not cancelled, or in the finals. `CheckIn`
brings a drop-out back to a cancelled table, `AlterSeating` demotes nobody in a round without a
table in progress, seats at a cancelled table are given out like any other, and `ReopenTournament`
takes an archived winner for a finalist.
-/

namespace Archon.Engine
open Guards Nested Seating

/-- Every playing player sits at a table that is not cancelled, or in the finals. -/
def PlayingSeated (t : Tournament) : Prop :=
  ∀ p ∈ t.players, p.state = .playing →
    ∃ uid ∈ p.userUid, uid ∈ heldSeats t.rounds ∨ uid ∈ finalsUids t

instance (t : Tournament) : Decidable (PlayingSeated t) :=
  inferInstanceAs (Decidable (∀ p ∈ t.players, p.state = .playing →
    ∃ uid ∈ p.userUid, uid ∈ heldSeats t.rounds ∨ uid ∈ finalsUids t))

/-- One of the seats, or a seat of the finals for a player marked finalist. -/
def SeatAmong (t : Tournament) (seats : List Uid) (p : Player) : Prop :=
  ∃ uid ∈ p.userUid, uid ∈ seats ∨ (p.finalist = true ∧ uid ∈ finalsUids t)

instance (t : Tournament) (seats : List Uid) (p : Player) : Decidable (SeatAmong t seats p) :=
  inferInstanceAs (Decidable (∃ uid ∈ p.userUid,
    uid ∈ seats ∨ (p.finalist = true ∧ uid ∈ finalsUids t)))

/-! ### The condition on an event -/

/-- A player put into play by a new seating of a live round. -/
def joinsPlay (t : Tournament) (sanctions : List Sanction) (tables : List Table)
    (seating : List (List Uid)) (uid : Uid) : Prop :=
  roundIsLive tables = true ∧ uid ∈ seating.flatten ∧ uid ∉ roundUids tables ∧
    t.state ≠ .finished ∧ hasDqSanction sanctions uid = false

/-- A new seating gives whoever plays in the round or joins it a table that is not cancelled, and
drops a player only while a table of the round is in progress; or the player sits elsewhere. -/
def reseatKeeps (t : Tournament) (sanctions : List Sanction) (round : ℕ) (tables : List Table)
    (seating : List (List Uid)) (p : Player) : Prop :=
  ∀ uid ∈ p.userUid,
    ((p.state = .playing ∧ (uid ∈ seating.flatten ∨
        (uid ∈ roundUids tables ∧ roundIsLive tables = false))) ∨
      joinsPlay t sanctions tables seating uid) →
    uid ∈ reseatedHeld tables seating ∨ SeatAmong t (seatsElsewhere t.rounds round) p

instance (t : Tournament) (sanctions : List Sanction) (tables : List Table)
    (seating : List (List Uid)) (uid : Uid) :
    Decidable (joinsPlay t sanctions tables seating uid) :=
  inferInstanceAs (Decidable (_ ∧ _ ∧ _ ∧ _ ∧ _))

instance (t : Tournament) (sanctions : List Sanction) (round : ℕ) (tables : List Table)
    (seating : List (List Uid)) (p : Player) :
    Decidable (reseatKeeps t sanctions round tables seating p) := by
  have hkeeps : ∀ uid, Decidable (((p.state = .playing ∧ (uid ∈ seating.flatten ∨
        (uid ∈ roundUids tables ∧ roundIsLive tables = false))) ∨
      joinsPlay t sanctions tables seating uid) →
    uid ∈ reseatedHeld tables seating ∨ SeatAmong t (seatsElsewhere t.rounds round) p) :=
    fun _ => instDecidableForall
  exact inferInstanceAs (Decidable (∀ uid ∈ p.userUid, _))

/-- The event leaves every playing player a seat. -/
def KeepsSeats (t : Tournament) (i : EventInput) : Prop :=
  match i.event with
  | .checkIn uid _ _ => ∀ p ∈ findPlayer t.players uid, p.state = .finished →
      seatedUnfinished t uid = true → atRoundCap t uid = false → SeatAmong t (heldSeats t.rounds) p
  | .swapSeats round t1 s1 t2 s2 => ∀ p ∈ t.players, p.state = .playing →
      (∃ uid ∈ p.userUid, uid ∈ movedOff t.rounds round t1 s1 t2 ++
        movedOff t.rounds round t2 s2 t1) → SeatAmong t (seatsElsewhere t.rounds round) p
  | .alterSeating round seating => ∀ tables ∈ t.rounds[round]?, ∀ p ∈ t.players,
      reseatKeeps t i.sanctions round tables seating p
  | .seatPlayer uid table _ round => t.state ≠ .finished →
      (tableAt t.rounds (round.getD (t.rounds.length - 1)) table).any
        (fun tb => tb.state == .cancelled) = true →
      ∀ p ∈ findPlayer t.players uid, SeatAmong t (heldSeats t.rounds) p
  | .reopenTournament => ∀ p ∈ t.players, p.state = .finished →
      t.finals.isSome = true → p.finalist = true → SeatAmong t (heldSeats t.rounds) p
  | _ => True

instance (t : Tournament) (i : EventInput) : Decidable (KeepsSeats t i) := by
  unfold KeepsSeats
  generalize i.event = e
  induction e using TournamentEvent.casesOn <;> infer_instance

section Steps

variable {rs : RandomSource} {t t' : Tournament} {i : EventInput} {uid : Uid} {p q : Player}
  {seats seats' : List Uid}

/-- What the runs keep: a playing player without a table is marked finalist. -/
def Seated (t : Tournament) : Prop :=
  ∀ p ∈ t.players, p.state = .playing → SeatAmong t (heldSeats t.rounds) p

theorem Seated.playingSeated (h : Seated t) : PlayingSeated t := by
  intro p hp hs
  obtain ⟨uid, hu, hseat⟩ := h p hp hs
  exact ⟨uid, hu, hseat.imp id And.right⟩

theorem SeatAmong.keep (h : SeatAmong t seats p) (hu : q.userUid = p.userUid)
    (hf : p.finalist = true → q.finalist = true) (hseats : ∀ uid ∈ seats, uid ∈ seats')
    (hfinals : ∀ uid ∈ finalsUids t, uid ∈ finalsUids t') : SeatAmong t' seats' q := by
  obtain ⟨uid, hpu, hseat⟩ := h
  refine ⟨uid, hu ▸ hpu, hseat.imp (hseats uid) fun hmark => ⟨hf hmark.1, hfinals uid hmark.2⟩⟩

theorem seatAmong_of_held (hu : p.userUid = some uid) (h : uid ∈ seats) : SeatAmong t seats p :=
  ⟨uid, hu, .inl h⟩

theorem Seated.refresh (h : Seated t) (s : List Sanction) : Seated (updateStandings t s) := by
  intro p hp hs
  rw [updateStandings_players] at hp
  refine (h p hp hs).keep rfl id (fun uid hu => mem_heldSeats_updateStandings.2 hu) fun uid hu => ?_
  rw [finalsUids_updateStandings]
  exact hu

theorem Seated.of_entries (hrounds : t'.rounds = t.rounds) (hfinals : t'.finals = t.finals)
    (h : ∀ q ∈ t'.players, q.state = .playing → SeatAmong t (heldSeats t.rounds) q) :
    Seated t' := by
  intro q hq hs
  refine (h q hq hs).keep rfl id (fun uid hu => hrounds ▸ hu) fun uid hu => ?_
  rwa [finalsUids, hfinals]

theorem Seated.keepPlayers (h : Seated t) (hrounds : t'.rounds = t.rounds)
    (hfinals : t'.finals = t.finals)
    (hplayers : ∀ q ∈ t'.players, q.state = .playing → ∃ p ∈ t.players, p.state = .playing ∧
      q.userUid = p.userUid ∧ (p.finalist = true → q.finalist = true)) : Seated t' := by
  refine Seated.of_entries hrounds hfinals fun q hq hs => ?_
  obtain ⟨p, hp, hps, hu, hf⟩ := hplayers q hq hs
  exact (h p hp hps).keep hu hf (fun _ hu => hu) fun _ hu => hu

theorem Seated.map (h : Seated t) (hrounds : t'.rounds = t.rounds)
    (hfinals : t'.finals = t.finals) {f : Player → Player} (hf : OnlyState f)
    (hplayers : t'.players = t.players.map f)
    (hplaying : ∀ p ∈ t.players, (f p).state = .playing → p.state = .playing) : Seated t' := by
  refine h.keepPlayers hrounds hfinals fun q hq hs => ?_
  rw [hplayers] at hq
  obtain ⟨p, hp, rfl⟩ := List.mem_map.1 hq
  exact ⟨p, hp, hplaying p hp hs, hf.userUid p, fun hmark => (hf.finalist p).trans hmark⟩

theorem Seated.push (h : Seated t) (hp : p.state ≠ .playing) :
    Seated { t with players := t.players ++ [p] } := by
  refine h.keepPlayers rfl rfl fun q hq hs => ?_
  rcases List.mem_append.1 hq with hold | hnew
  · exact ⟨q, hold, hs, rfl, id⟩
  · rw [List.mem_singleton.1 hnew] at hs
    exact absurd hs hp

theorem Seated.update (h : Seated t) {f : Player → Player}
    (hf : ∀ p ∈ t.players, (f p).state = .playing → p.state = .playing ∧
      (f p).userUid = p.userUid ∧ (p.finalist = true → (f p).finalist = true)) :
    Seated { t with players := updatePlayer t.players uid f } := by
  refine h.keepPlayers rfl rfl fun q hq hs => ?_
  rcases mem_updatePlayer hq with ⟨p, hp, rfl⟩ | ⟨hold, -⟩
  · have hmem := (findPlayer_mem hp).1
    exact ⟨p, hmem, (hf p hmem hs).1, (hf p hmem hs).2⟩
  · exact ⟨q, hold, hs, rfl, id⟩

theorem Seated.reseat (h : Seated t) {rounds : List (List Table)}
    (hseats : ∀ uid ∈ heldSeats t.rounds, uid ∈ heldSeats rounds) :
    Seated { t with rounds } :=
  fun p hp hs => (h p hp hs).keep rfl id hseats fun _ hu => hu

/-! ### Check-in -/

theorem Seated.checkIn (h : Seated t) {decks : List DeckObject} {name : Option String}
    {players : List Player}
    (hplayers : players = t.players ∨ (playerExists t.players uid = false ∧ t.state ≠ .finished ∧
      players = t.players ++ [Player.fresh uid .registered false name]))
    (hok : ∀ p ∈ findPlayer t.players uid, p.state = .finished →
      seatedUnfinished t uid = true → atRoundCap t uid = false →
      SeatAmong t (heldSeats t.rounds) p) :
    Seated { t with players := updatePlayer players uid (checkedInEntry t decks uid name) } := by
  have hold : ∀ p ∈ players, p.state = .playing → SeatAmong t (heldSeats t.rounds) p := by
    rcases hplayers with rfl | ⟨-, -, rfl⟩
    · exact h
    · exact h.push (t := t) (p := Player.fresh uid .registered false name) PlayerState.noConfusion
  refine Seated.of_entries rfl rfl fun q hq hs => ?_
  rcases mem_updatePlayer hq with ⟨p, hp, rfl⟩ | ⟨hmem, -⟩
  · unfold checkedInEntry at hs
    extract_lets named at hs
    by_cases hcap : atRoundCap t uid = true
    · rw [if_pos hcap] at hs
      cases hs
    · rw [if_neg hcap] at hs
      split at hs
      · rename_i hback
        have hfound : findPlayer t.players uid = some p := by
          rcases hplayers with rfl | ⟨hnew, -, rfl⟩
          · exact hp
          · have hnone : findPlayer t.players uid = none :=
              findPlayer_eq_none.2 (playerExists_eq_false.1 hnew)
            rw [findPlayer, List.find?_append, ← findPlayer, hnone, Option.none_or] at hp
            have hfresh := List.mem_of_find?_eq_some hp
            rw [List.mem_singleton.1 hfresh] at hback
            cases hback.1
        have hseat := hok p hfound hback.1 hback.2 (Bool.eq_false_of_not_eq_true hcap)
        refine hseat.keep (userUid_checkedInEntry ..) (fun hmark => ?_) (fun _ hu => hu)
          fun _ hu => hu
        unfold checkedInEntry
        split <;> exact hmark
      · cases hs
  · exact hold q hmem hs

/-! ### Rounds -/

theorem mem_heldSeats_fresh {organizer : Option Uid} {seating : List (List Uid)}
    {rounds : List (List Table)} (h : uid ∈ seating.flatten) :
    uid ∈ heldSeats (rounds ++ [seating.map (Table.fresh organizer)]) :=
  mem_heldSeats_of_live (mem_liveSeats_append.2 (.inr (mem_liveSeats_fresh.2 h)))

theorem mem_heldSeats_older {rounds : List (List Table)} {round : List Table}
    (h : uid ∈ heldSeats rounds) : uid ∈ heldSeats (rounds ++ [round]) :=
  mem_heldSeats_append.2 (.inl h)

theorem Seated.startRound (h : Seated t) (seating : List (List Uid)) :
    Seated (startRoundDoc t seating) := by
  intro q hq hs
  obtain ⟨p, hp, rfl⟩ := List.mem_map.1 hq
  have hkept : p.state = .playing →
      SeatAmong (startRoundDoc t seating) (heldSeats (startRoundDoc t seating).rounds)
        (startRoundEntry seating.flatten (dropsNoShows t) p) := fun hplaying =>
    (h p hp hplaying).keep ((onlyState_startRoundEntry _ _).userUid p)
      (fun hmark => ((onlyState_startRoundEntry _ _).finalist p).trans hmark)
      (fun _ hu => mem_heldSeats_older hu) fun _ hu => hu
  by_cases hplaying : p.state = .playing
  · exact hkept hplaying
  · unfold startRoundEntry at hs
    split at hs
    · split at hs
      · rename_i hseated
        obtain ⟨uid, hu, hmem⟩ := (Option.any_eq_true _ _).1 hseated
        refine seatAmong_of_held (((onlyState_startRoundEntry _ _).userUid p).trans hu) ?_
        exact mem_heldSeats_fresh (List.contains_iff_mem.1 hmem)
      · exact absurd hs hplaying
    · split at hs
      · cases hs
      · exact absurd hs hplaying
    · exact absurd hs hplaying

theorem Seated.selfOrganize (h : Seated t) {organizer : Uid} {uids : List Uid}
    {seating : List (List Uid)} (hperm : seating.flatten.Perm uids) :
    Seated (selfOrganizeDoc t organizer uids seating) := by
  intro q hq hs
  obtain ⟨p, hp, rfl⟩ := List.mem_map.1 hq
  have hentry := onlyState_selfOrganizeEntry uids
  by_cases hin : p.userUid.any (fun uid => uids.contains uid) = true
  · obtain ⟨uid, hu, hmem⟩ := (Option.any_eq_true _ _).1 hin
    refine seatAmong_of_held ((hentry.userUid p).trans hu) ?_
    exact mem_heldSeats_fresh (hperm.mem_iff.2 (List.contains_iff_mem.1 hmem))
  · have hsame : selfOrganizeEntry uids p = p := if_neg hin
    rw [hsame] at hs ⊢
    exact (h p hp hs).keep rfl id (fun _ hu => mem_heldSeats_older hu) fun _ hu => hu

theorem Seated.finishRound (h : Seated t) (target : ℕ) : Seated (finishRoundDoc t target) := by
  refine h.map rfl rfl (onlyState_finishRoundEntry t target) rfl fun p _ hs => ?_
  unfold finishRoundEntry releasedState at hs
  split at hs
  · split at hs
    · rename_i hc
      exact hc.1
    · exact hs
  · exact hs

theorem Seated.cancelRound (hshape : Shape t) (target : ℕ) : Seated (cancelRoundDoc t target) := by
  intro q hq hs
  obtain ⟨p, hp, rfl⟩ := List.mem_map.1 hq
  have huid := (onlyState_cancelRoundEntry (t := { t with
    rounds := cancelledRounds t.rounds target }) target).userUid p
  unfold cancelRoundEntry releasedState at hs
  split at hs
  · rename_i uid hu
    refine seatAmong_of_held (huid.trans hu) ?_
    split at hs
    · cases hs' : t.state <;> simp [Player.withState, hs'] at hs
    · rename_i hstays
      split at hs
      · cases hs' : t.state <;> simp [Player.withState, hs'] at hs
      · have hother : uid ∈ playersInOtherActiveRounds
            { t with rounds := cancelledRounds t.rounds target } (some target) := by
          by_contra hout
          exact hstays ⟨hs, hout⟩
        exact (mem_playersInOtherActiveRounds.1 hother).held.mem
  · rename_i hnone
    exact absurd (List.mem_map.2 ⟨p, hp, hnone⟩) hshape.named

theorem Seated.restoreRound (h : Seated t) {target : ℕ} {tables : List Table}
    (hround : t.rounds[target]? = some tables) : Seated (restoreRoundDoc t target tables) := by
  intro q hq hs
  obtain ⟨p, hp, rfl⟩ := List.mem_map.1 hq
  have hentry := onlyState_restoreRoundEntry (t := { t with
    rounds := t.rounds.set target (restoreTables tables) }) (tables.flatMap Table.uids)
    ((restoreTables tables).any fun tb => tb.state != .finished)
  have hkept : ∀ uid ∈ heldSeats t.rounds,
      uid ∈ heldSeats (t.rounds.set target (restoreTables tables)) := by
    intro uid hu
    refine mem_heldSeats_set hround ?_
    rcases mem_heldSeats_cases target hu with hother | ⟨round, hr, hheld⟩
    · exact .inr hother
    · obtain rfl : tables = round := Option.some.inj (hround.symm.trans hr)
      exact .inl (heldIn_restoreTables hheld.mem_roundUids)
  by_cases hplaying : p.state = .playing
  · exact (h p hp hplaying).keep (hentry.userUid p)
      (fun hmark => (hentry.finalist p).trans hmark) hkept fun _ hu => hu
  · have hu' := hentry.userUid p
    unfold restoreRoundEntry at hs
    split at hs
    · rename_i uid hu
      split at hs
      · rename_i hback
        refine seatAmong_of_held (hu'.trans hu) ?_
        exact mem_heldSeats_set hround (.inl (heldIn_restoreTables hback.1))
      · exact absurd hs hplaying
    · exact absurd hs hplaying

/-! ### Edits of a round -/

theorem mem_demoted {unseated : List Uid} {r : ℕ}
    (hq : q ∈ (demoteUnseatedPlayers t unseated r).players) (hs : q.state = .playing) :
    q ∈ t.players ∧ ∀ uid ∈ q.userUid, uid ∈ unseated → LiveElsewhere t.rounds r uid := by
  obtain ⟨p, hp, rfl⟩ := List.mem_map.1 hq
  cases hu : p.userUid with
  | none =>
    simp only [hu]
    exact ⟨hp, fun uid huid => by cases huid⟩
  | some uid =>
    simp only [hu] at hs ⊢
    by_cases hc : p.state = .playing ∧ uid ∈ unseated ∧
        uid ∉ playersInOtherActiveRounds t (some r)
    · rw [if_pos hc] at hs
      cases hs
    · rw [if_neg hc] at hs ⊢
      refine ⟨hp, fun uid' huid hout => ?_⟩
      rw [hu] at huid
      cases huid
      by_contra hother
      exact hc ⟨hs, hout, fun hmem => hother (mem_playersInOtherActiveRounds.1 hmem)⟩

theorem Seated.unseat (h : Seated t) (target : ℕ) : Seated (unseatPlayerDoc t uid target) := by
  intro q hq hs
  obtain ⟨hold, hother⟩ := mem_demoted hq hs
  obtain ⟨u, hu, hseat⟩ := h q hold hs
  refine ⟨u, hu, hseat.imp (fun hheld => ?_) id⟩
  refine mem_heldSeats_modify hheld fun round _ hin => ?_
  by_cases hne : u = uid
  · refine .inr (heldElsewhere_modify.1 (hother u hu ?_).held)
    rw [hne]
    exact List.mem_cons_self ..
  · exact .inl (heldIn_removeSeat hin hne)

theorem Seated.seat (h : Seated t) {table seat target : ℕ} {tables : List Table} {tb : Table}
    (hround : t.rounds[target]? = some tables) (htb : tables[table]? = some tb)
    (hok : t.state ≠ .finished → tb.state = .cancelled →
      ∀ p ∈ findPlayer t.players uid, SeatAmong t (heldSeats t.rounds) p) :
    Seated (seatPlayerDoc t uid table seat target) := by
  have hkept : ∀ u ∈ heldSeats t.rounds,
      u ∈ heldSeats (t.rounds.modify target fun r => r.modify table (insertSeat seat uid)) :=
    fun u hu => mem_heldSeats_modify hu fun round _ hin => .inl (heldIn_insertSeat hin)
  intro q hq hs
  rcases mem_updatePlayer hq with ⟨p, hp, rfl⟩ | ⟨hold, -⟩
  · have hu : p.userUid = some uid := (findPlayer_mem hp).2
    have hstate : t.state ≠ .finished := by
      rintro hdone
      simp [seatedEntry, hdone] at hs
    by_cases hc : tb.state = .cancelled
    · exact (hok hstate hc p hp).keep rfl id hkept fun _ hu => hu
    · refine seatAmong_of_held hu (mem_heldSeats.2
        ⟨target, tables.modify table (insertSeat seat uid),
        ?_, heldIn_insertSeat_self htb hc⟩)
      simp [seatPlayerDoc, hround]
  · exact (h q hold hs).keep rfl id hkept fun _ hu => hu

theorem Seated.swap (h : Seated t) {round t1 s1 t2 s2 : ℕ} {tables : List Table} {x y : Seat}
    (hround : t.rounds[round]? = some tables)
    (hx : getAt (tables.map Table.seating) t1 s1 = some x)
    (hy : getAt (tables.map Table.seating) t2 s2 = some y)
    (hok : ∀ p ∈ t.players, p.state = .playing →
      (∃ uid ∈ p.userUid, uid ∈ movedOff t.rounds round t1 s1 t2 ++
        movedOff t.rounds round t2 s2 t1) → SeatAmong t (seatsElsewhere t.rounds round) p) :
    Seated { t with rounds := t.rounds.modify round fun r => swapRound r t1 s1 t2 s2 } := by
  intro p hp hs
  by_cases hmoved : ∃ uid ∈ p.userUid, uid ∈ movedOff t.rounds round t1 s1 t2 ++
      movedOff t.rounds round t2 s2 t1
  · refine (hok p hp hs hmoved).keep rfl id (fun uid hu => ?_) fun _ hu => hu
    exact (heldElsewhere_modify.2 (mem_seatsElsewhere.1 hu)).mem
  · obtain ⟨uid, hu, hseat⟩ := h p hp hs
    refine ⟨uid, hu, hseat.imp (fun hheld => ?_) id⟩
    refine mem_heldSeats_modify hheld fun tables' hround' hin => .inl ?_
    obtain rfl : tables = tables' := Option.some.inj (hround.symm.trans hround')
    exact heldIn_swapRound hround hx hy hin fun hoff => hmoved ⟨uid, hu, hoff⟩

/-- An entry in a reseated round: a playing player has a seat or is to leave, and whoever joins
has one. -/
structure Reseated (t : Tournament) (sanctions : List Sanction) (seats joined left : List Uid)
    (p : Player) : Prop where
  playing : p.state = .playing → SeatAmong t seats p ∨ ∃ uid ∈ p.userUid, uid ∈ left
  joins : t.state ≠ .finished → ∀ uid ∈ p.userUid, uid ∈ joined →
    hasDqSanction sanctions uid = false → SeatAmong t seats p

theorem Reseated.fold {sanctions : List Sanction} {joined left : List Uid}
    (h : ∀ p ∈ t.players, Reseated t sanctions seats joined left p) :
    ∀ p ∈ joined.foldl (joinPlayer t.state sanctions) t.players,
      Reseated t sanctions seats joined left p := by
  refine List.foldlRecOn joined _
    (motive := fun ps => ∀ p ∈ ps, Reseated t sanctions seats joined left p) h fun ps hps a ha => ?_
  rw [joinPlayer_eq]
  split
  · rename_i hdq
    refine forall_mem_updatePlayer hps fun p hp => ?_
    obtain ⟨hmem, hu⟩ := findPlayer_mem hp
    have hsame : SeatAmong t seats p → SeatAmong t seats (joinedEntry t.state p) := by
      intro hseat
      refine hseat.keep (joinedEntry_userUid ..) (fun hmark => ?_) (fun _ hu => hu) fun _ hu => hu
      unfold joinedEntry
      split <;> exact hmark
    have hjoins : t.state ≠ .finished → SeatAmong t seats (joinedEntry t.state p) := fun hstate =>
      hsame ((hps p hmem).joins hstate a hu ha hdq)
    refine ⟨fun hs => ?_, fun hstate _ _ _ _ => hjoins hstate⟩
    by_cases hdone : t.state = .finished
    · unfold joinedEntry at hs
      split at hs
      · rename_i hout
        rw [hs] at hout
        cases hout
      · cases hs
    · exact .inl (hjoins hdone)
  · exact hps

theorem Seated.alterSeating (h : Seated t) {sanctions : List Sanction} {round : ℕ}
    {tables : List Table} {seating : List (List Uid)} (hround : t.rounds[round]? = some tables)
    (hok : ∀ p ∈ t.players, reseatKeeps t sanctions round tables seating p) :
    Seated (alterSeatingDoc t sanctions round tables seating) := by
  set rounds := t.rounds.set round (reseatRound tables seating) with hrounds
  have helsewhere : ∀ uid, HeldElsewhere t.rounds round uid → uid ∈ heldSeats rounds :=
    fun uid hother => mem_heldSeats_set hround (.inr hother)
  -- The condition gives a seat after the edit.
  have hgiven : ∀ p ∈ t.players, ∀ uid ∈ p.userUid,
      ((p.state = .playing ∧ (uid ∈ seating.flatten ∨
        (uid ∈ roundUids tables ∧ roundIsLive tables = false))) ∨
          joinsPlay t sanctions tables seating uid) → SeatAmong t (heldSeats rounds) p := by
    intro p hp uid hu hneeds
    rcases hok p hp uid hu hneeds with hnew | hother
    · exact seatAmong_of_held hu (mem_heldSeats_set hround (.inl (heldIn_reseatRound.2 hnew)))
    · exact hother.keep rfl id (fun u hmem => helsewhere u (mem_seatsElsewhere.1 hmem))
        fun _ hu => hu
  have hplays : ∀ p ∈ t.players, p.state = .playing → SeatAmong t (heldSeats rounds) p ∨
      (roundIsLive tables = true ∧
        ∃ uid ∈ p.userUid, uid ∈ (roundUids tables).filter fun uid => uid ∉ seating.flatten) := by
    intro p hp hs
    obtain ⟨uid, hu, hheld | hfinals⟩ := h p hp hs
    · rcases mem_heldSeats_cases round hheld with hother | ⟨tables', hround', hin⟩
      · exact .inl (seatAmong_of_held hu (helsewhere uid hother))
      · obtain rfl : tables = tables' := Option.some.inj (hround.symm.trans hround')
        by_cases hstays : uid ∈ seating.flatten
        · exact .inl (hgiven p hp uid hu (.inl ⟨hs, .inl hstays⟩))
        · cases hlive : roundIsLive tables with
          | false => exact .inl (hgiven p hp uid hu (.inl ⟨hs, .inr ⟨hin.mem_roundUids, hlive⟩⟩))
          | true =>
            exact .inr ⟨rfl, uid, hu, List.mem_filter.2 ⟨hin.mem_roundUids, by simpa using hstays⟩⟩
    · exact .inl ⟨uid, hu, .inr hfinals⟩
  unfold alterSeatingDoc
  extract_lets reseated
  split
  · rename_i hlive
    intro q hq hs
    unfold reseatRoster at hq
    extract_lets joined left at hq
    obtain ⟨hmem, hother⟩ := mem_demoted hq hs
    have hfold : ∀ p ∈ joined.foldl (joinPlayer t.state sanctions) t.players,
        Reseated t sanctions (heldSeats rounds) joined left p := by
      refine Reseated.fold fun p hp => ⟨fun hplaying => ?_, fun hstate uid hu hjoined hdq => ?_⟩
      · exact (hplays p hp hplaying).imp id And.right
      · obtain ⟨hin, hnew⟩ := List.mem_filter.1 hjoined
        exact hgiven p hp uid hu (.inr ⟨hlive, hin, by simpa using hnew, hstate, hdq⟩)
    have hseat : SeatAmong t (heldSeats rounds) q := by
      rcases (hfold q hmem).playing hs with hseat | ⟨uid, hu, hleft⟩
      · exact hseat
      · exact seatAmong_of_held hu (hother uid hu hleft).held.mem
    exact hseat
  · rename_i hquiet
    intro p hp hs
    exact (hplays p hp hs).resolve_right fun hlive => hquiet hlive.1

/-! ### Finals -/

theorem Seated.startFinals (h : Seated t) (hnone : t.finals = none) (uids : List Uid) :
    Seated (startFinalsDoc t uids) := by
  have hold : ∀ p ∈ t.players, p.state = .playing →
      SeatAmong (startFinalsDoc t uids) (heldSeats t.rounds) p := by
    intro p hp hs
    obtain ⟨uid, hu, hheld | hfinals⟩ := h p hp hs
    · exact seatAmong_of_held hu hheld
    · simp [finalsUids, hnone] at hfinals
  have hseats : finalsUids (startFinalsDoc t uids) = uids := by
    simp [finalsUids, startFinalsDoc, FinalsTable.fresh, Seat.fresh, Function.comp_def]
  refine List.foldlRecOn uids markFinalist (motive := fun ps => ∀ p ∈ ps, p.state = .playing →
    SeatAmong (startFinalsDoc t uids) (heldSeats t.rounds) p) hold fun ps hps a ha => ?_
  refine forall_mem_updatePlayer hps fun p hp _ => ⟨a, (findPlayer_mem hp).2, .inr ⟨rfl, ?_⟩⟩
  rwa [hseats]

theorem seated_finished (h : t'.players = t.players.map finishEntry) : Seated t' := by
  intro q hq hs
  rw [h] at hq
  obtain ⟨p, -, rfl⟩ := List.mem_map.1 hq
  unfold finishEntry at hs
  split at hs
  · rename_i hout
    rw [hout] at hs
    cases hs
  · cases hs

theorem Seated.cancelFinals (h : Seated t) : Seated (cancelFinalsDoc t) := by
  intro q hq hs
  obtain ⟨p, hp, rfl⟩ := List.mem_map.1 hq
  unfold cancelFinalsEntry at hs ⊢
  split at hs
  · split at hs <;> cases hs
  · rename_i hmark
    rw [if_neg hmark]
    obtain ⟨uid, hu, hheld | hfinals⟩ := h p hp hs
    · exact seatAmong_of_held hu hheld
    · exact absurd hfinals.1 hmark

theorem Seated.reopen (hshape : Shape t) (h : Seated t)
    (hok : ∀ p ∈ t.players, p.state = .finished → t.finals.isSome = true → p.finalist = true →
      SeatAmong t (heldSeats t.rounds) p) : Seated (reopenTournamentDoc t) := by
  intro q hq hs
  obtain ⟨p, hp, rfl⟩ := List.mem_map.1 hq
  have huid := (onlyState_reopenEntry (t := t)).userUid p
  have hmark := (onlyState_reopenEntry (t := t)).finalist p
  by_cases hdone : p.state = .finished
  · have hback : (t.finals.isSome && p.finalist) = true ∨
      p.userUid.getD "" ∈ liveSeats t.rounds := by
      by_contra hout
      unfold reopenEntry at hs
      rw [if_pos hdone] at hs
      simp only [if_neg hout, Player.withState] at hs
      split at hs <;> cases hs
    rcases hback with hfinalist | hlive
    · rw [Bool.and_eq_true] at hfinalist
      exact (hok p hp hdone hfinalist.1 hfinalist.2).keep huid (fun hm => hmark.trans hm)
        (fun _ hu => hu) fun _ hu => hu
    · cases hu : p.userUid with
      | none => exact absurd (List.mem_map.2 ⟨p, hp, hu⟩) hshape.named
      | some uid =>
        rw [hu] at hlive
        exact seatAmong_of_held (huid.trans hu) (mem_heldSeats_of_live hlive)
  · have hsame : reopenEntry t p = p := if_neg hdone
    rw [hsame] at hs ⊢
    exact h p hp hs

theorem Seated.archival (h : Seated t) (sheet : ArchivalSheet) :
    Seated (setArchivalResultsDoc t sheet) := by
  intro q hq hs
  rcases List.mem_append.1 hq with hlisted | hnameless
  · obtain ⟨uid, -, rfl⟩ := List.mem_map.1 hlisted
    cases hs
  · exact h q (List.mem_filter.1 hnameless).1 hs

/-! ### Steps and runs -/

theorem Seated.modifyTable (h : Seated t) (round table : ℕ) {f : Table → Table}
    (hf : ∀ tables, t.rounds[round]? = some tables → ∀ tb, tables[table]? = some tb →
      tb.state ≠ .cancelled → (f tb).state ≠ .cancelled ∧ (f tb).uids = tb.uids) :
    Seated (modifyTable t round table f) := by
  refine h.reseat fun uid hu => mem_heldSeats_modify hu fun tables hround hin => .inl ?_
  refine heldIn_modify hin fun tb htb hc hseat => ?_
  obtain ⟨hc', huids⟩ := hf tables hround tb htb hc
  exact ⟨hc', huids ▸ hseat⟩

theorem Seated.finals (h : Seated t) {f : Option FinalsTable}
    (hf : ∀ uid ∈ finalsUids t, uid ∈ finalsUids { t with finals := f }) :
    Seated { t with finals := f } :=
  fun p hp hs => (h p hp hs).keep rfl id (fun _ hu => hu) hf

theorem Seated.step (hshape : Shape t) (h : Seated t) (hok : KeepsSeats t i)
    (heff : Effect rs t i t') : Seated t' := by
  cases heff with
  | quiet _ hq =>
    refine h.keepPlayers hq.rounds hq.finals fun q hq' hs => ?_
    obtain ⟨p, hp, hsame⟩ := exists_mem_of_forall₂ hq.players hq'
    exact ⟨p, hp, hsame.state ▸ hs, hsame.userUid, fun hmark => hsame.finalist.trans hmark⟩
  | openRegistration | closeRegistration | cancelRegistration => exact h
  | reopenRegistration =>
    refine h.map rfl rfl onlyState_ite rfl fun p _ hs => ?_
    split at hs
    · cases hs
    · exact hs
  | register => exact h.push PlayerState.noConfusion
  | addPlayer _ _ _ _ p _ _ _ _ hstate =>
    refine h.push fun hs => ?_
    rcases hstate with hstate | ⟨hstate, -⟩ <;> simp [hstate] at hs
  | leave _ idx =>
    exact h.keepPlayers rfl rfl fun q hq hs => ⟨q, List.mem_of_mem_eraseIdx hq, hs, rfl, id⟩
  | dropOut =>
    exact h.update fun p _ hs => by cases hs
  | checkIn uid _ name players p he _ hplayers =>
    simp only [KeepsSeats, he] at hok
    exact h.checkIn hplayers hok
  | checkOut =>
    refine h.update fun p _ hs => ?_
    unfold checkedOutState at hs
    split at hs <;> cases hs
  | checkInAll =>
    refine h.map rfl rfl onlyState_ite rfl fun p _ hs => ?_
    split at hs
    · cases hs
    · exact hs
  | resetCheckIn =>
    refine h.map rfl rfl onlyState_ite rfl fun p _ hs => ?_
    unfold checkedOutState at hs
    split at hs
    · split at hs <;> cases hs
    · exact hs
  | setNonCompeting =>
    refine (h.update ?_).refresh _
    exact fun p _ hs => ⟨hs, rfl, id⟩
  | setWaitlisted | setToss =>
    refine h.update ?_
    exact fun p _ hs => ⟨hs, rfl, id⟩
  | randomToss =>
    have hkept : ∀ p ∈ tossedPlayers t i.sanctions, p.state = .playing →
        SeatAmong t (heldSeats t.rounds) p :=
      forall_mem_tossedPlayers t (fun p toss hp hs => (hp hs).keep rfl id (fun _ hu => hu)
        fun _ hu => hu) i.sanctions h
    exact Seated.of_entries (t := t) rfl rfl hkept
  | startRound => exact h.startRound _
  | selfOrganizeRound _ _ _ _ _ _ _ hperm => exact h.selfOrganize hperm
  | finishRound => exact (h.finishRound _).refresh _
  | cancelRound => exact (Seated.cancelRound hshape _).refresh _
  | restoreRound _ _ _ _ _ hround => exact (h.restoreRound hround).refresh _
  | swapFinals _ _ s1 _ s2 f _ _ _ hf =>
    refine (h.finals fun uid hu => ?_).refresh _
    simp only [finalsUids, hf, Option.elim_some] at hu ⊢
    exact (swapFinals_uids_perm f s1 s2).mem_iff.2 hu
  | swapRound round t1 s1 t2 s2 tables x y he _ hround hx hy =>
    simp only [KeepsSeats, he] at hok
    exact (h.swap hround hx hy hok).refresh _
  | reseatFinals _ seating f _ _ _ _ hf hnodup hlen hmem =>
    refine (h.finals fun uid hu => ?_).refresh _
    simp only [finalsUids, hf, Option.elim_some] at hu ⊢
    rw [reseatFinals_uids hlen]
    have hperm := (List.subperm_of_subset hnodup hmem).perm_of_length_le (by simp [hlen])
    exact hperm.mem_iff.2 hu
  | reseatRound round seating tables he _ _ hround =>
    simp only [KeepsSeats, he] at hok
    exact (h.alterSeating hround fun p hp => hok tables hround p hp).refresh _
  | seatPlayer uid table seat round target p tables tb he _ _ _ htarget hround htb =>
    simp only [KeepsSeats, he, ← resolveLiveRound_ok htarget, tableAt_eq hround htb,
      Option.any_some, beq_iff_eq] at hok
    exact (h.seat hround htb hok).refresh _
  | unseatPlayer => exact (h.unseat _).refresh _
  | addTable =>
    refine h.reseat fun uid hu => mem_heldSeats_modify hu fun tables _ hin => .inl ?_
    obtain ⟨tb, htb, hc, hseat⟩ := hin
    exact ⟨tb, List.mem_append_left _ htb, hc, hseat⟩
  | removeTable table tb _ _ htb hempty =>
    refine h.reseat fun uid hu => mem_heldSeats_modify hu fun tables hround hin => .inl ?_
    rw [hround, Option.getD_some] at htb
    exact heldIn_eraseIdx hin htb hempty
  | scoreFinals _ _ scores f written _ _ _ _ hf hwritten =>
    refine (h.finals fun uid hu => ?_).refresh _
    simp only [finalsUids, hf, Option.elim_some] at hu ⊢
    rwa [reportTable_uids hwritten]
  | scoreTable round table scores tables tb written _ _ hround htb hwritten =>
    refine (h.modifyTable round table fun tables' hround' tb' htb' hc => ?_).refresh _
    obtain rfl : tables = tables' := Option.some.inj (hround.symm.trans hround')
    obtain rfl : tb = tb' := Option.some.inj (htb.symm.trans htb')
    refine ⟨?_, reportTable_uids hwritten⟩
    rw [(reportTable_ok hwritten).2]
    cases tb.override with
    | none => exact judgedState_ne_cancelled _
    | some o => exact hc
  | overrideFinals _ _ comment f _ _ _ _ hf =>
    refine (h.finals fun uid hu => ?_).refresh _
    simpa only [finalsUids, hf, Option.elim_some] using hu
  | overrideTable =>
    refine (h.modifyTable _ _ ?_).refresh _
    exact fun _ _ _ _ _ => ⟨TableState.noConfusion, rfl⟩
  | unoverrideFinals _ _ f _ _ _ _ hf =>
    refine (h.finals fun uid hu => ?_).refresh _
    simpa only [finalsUids, hf, Option.elim_some] using hu
  | unoverrideTable =>
    refine (h.modifyTable _ _ ?_).refresh _
    exact fun _ _ _ _ _ => ⟨judgedState_ne_cancelled _, rfl⟩
  | startFinals _ _ _ hnone => exact h.startFinals hnone _
  | finishFinals | finishTournament =>
    refine Seated.refresh ?_ _
    exact seated_finished (t := t) rfl
  | cancelFinals => exact h.cancelFinals.refresh _
  | reopenTournament he =>
    simp only [KeepsSeats, he] at hok
    exact (h.reopen hshape hok).refresh _
  | archival => exact h.archival _

/-- In every run whose events meet the condition, every playing player sits at a table that is not
cancelled, or in the finals. -/
theorem playingSeated_of_reaches (h : (engineSystem rs).Reaches KeepsSeats t) :
    PlayingSeated t := by
  have hseated : Seated t := by
    refine h.invariant_of (fun _ => Shape.of_reachable) (fun t ht => ?_)
      fun t i t' hshape hp hok hs => hp.step hshape hok (effect_of_acceptEvent hs)
    obtain ⟨request, actor, ht⟩ := ht
    rw [createTournament_eq ht]
    exact fun p hp => absurd hp List.not_mem_nil
  exact hseated.playingSeated

/-- A round starts, a player drops out of it and is checked in again. -/
def takenBack : List TournamentEvent :=
  gathering ["a", "b", "c", "d"] ++
    [.startRound (some [["a", "b", "c", "d"]]), .dropOut "b", .checkIn "b" none none]

theorem takenBack_playingSeated :
    ∃ t : Tournament, (t.players.all fun p => p.state == .playing) = true ∧ PlayingSeated t := by
  obtain ⟨t, ht, hp⟩ := exists_reaches_of_replay KeepsSeats (takenBack.map sent)
    (fun t => t.players.all fun p => p.state == .playing) (by decide +kernel)
  exact ⟨t, hp, playingSeated_of_reaches ht⟩

end Steps

/-! ### The defect -/

/-- A player drops out of the first round, which is cancelled under the second, and is checked in
again. -/
def backToCancelled : List TournamentEvent :=
  gathering ["a", "b", "c", "d", "e"] ++
    [.startRound (some [["a", "b", "c", "d", "e"]]), .dropOut "b", .override 0 0 "",
      .finishRound none, .startRound (some [["a", "c", "d", "e"]]), .cancelRound (some 0),
      .checkIn "b" none none]

/-- `CheckIn` takes a seat at a cancelled table for a seat of the running round. -/
theorem backToCancelled_not_playingSeated :
    ∃ t, (engineSystem fixedOrder).Reachable t ∧ ¬PlayingSeated t := by
  obtain ⟨t, ht, hp⟩ := exists_reaches_of_replay anyEvent (backToCancelled.map sent)
    (fun t => !decide (PlayingSeated t)) (by decide +kernel)
  exact ⟨t, ht, by simpa using hp⟩

end Archon.Engine

import Archon.Engine.Shape

/-!
# Who an event puts at a live table

`seatedLive t i` lists the players the event may seat at a live table, or whose table it reopens.
Everybody else who sits at a live table afterwards already did before.
-/

namespace Archon.Engine
open Guards Nested Seating

/-! ### Newly live seats -/

def tableAt (rounds : List (List Table)) (round table : ℕ) : Option Table :=
  (rounds[round]?).bind fun tables => tables[table]?

/-- The players at the table when `p` holds of it. -/
def uidsWhen (tb : Option Table) (p : Table → Bool) : List Uid :=
  (tb.filter p).elim [] Table.uids

/-- The player of a seat, when the table it is exchanged with is live. -/
def movedLive (rounds : List (List Table)) (round table seat other : ℕ) : List Uid :=
  if (tableAt rounds round other).any (fun tb => tb.state.isLive) = true then
    (((tableAt rounds round table).bind fun tb => tb.seating[seat]?).map Seat.playerUid).toList
  else []

/-- A reseated table ends live: a new one, a live one, and one without override whose kept
players have no points. -/
def reseatedLive (round : List Table) (table : ℕ) (uids : List Uid) : Bool :=
  match round[table]? with
  | some tb =>
    tb.state.isLive || (tb.override.isNone
      && uids.all fun uid => (keptSeat round table uid).result.vp == 0)
  | none => true

/-- The players an event may put at a live table. -/
def seatedLive (t : Tournament) (i : EventInput) : List Uid :=
  match i.event with
  | .startRound _ => playersToSeat t
  | .selfOrganizeRound uids => uids
  | .restoreRound (some target) =>
    (((t.rounds[target]?).getD []).filter fun tb => rederivedState tb != .finished).flatMap
      Table.uids
  | .swapSeats round t1 s1 t2 s2 =>
    movedLive t.rounds round t1 s1 t2 ++ movedLive t.rounds round t2 s2 t1
  | .alterSeating round seating =>
    (t.rounds[round]?).elim [] fun tables =>
      (seating.zipIdx.filter fun us => reseatedLive tables us.2 us.1).flatMap Prod.fst
  | .seatPlayer uid table _ round =>
    if (tableAt t.rounds (round.getD (t.rounds.length - 1)) table).any
        (fun tb => tb.state.isLive) = true then [uid] else []
  | .setScore round table scores =>
    uidsWhen (tableAt t.rounds round table) fun tb =>
      tb.override.isNone && judgedState (mergedVps tb.seating scores) != .finished
  | .unoverride round table =>
    uidsWhen (tableAt t.rounds round table) fun tb => judgedState (seatVps tb.seating) != .finished
  | _ => []

section Tables

theorem tableAt_length (rounds : List (List Table)) (table : ℕ) :
    tableAt rounds rounds.length table = none := by
  simp [tableAt]

variable {rounds : List (List Table)} {round : List Table} {r table : ℕ} {tb : Table} {uid : Uid}

theorem tableAt_eq (hr : rounds[r]? = some round) (htb : round[table]? = some tb) :
    tableAt rounds r table = some tb := by
  simp [tableAt, hr, htb]

theorem mem_uidsWhen {o : Option Table} {p : Table → Bool} :
    uid ∈ uidsWhen o p ↔ ∃ tb, o = some tb ∧ p tb = true ∧ uid ∈ tb.uids := by
  cases o with
  | none => simp [uidsWhen]
  | some tb => by_cases h : p tb = true <;> simp [uidsWhen, Option.filter, h]

theorem judgedState_isLive (vps : List ℚ) :
    (judgedState vps).isLive = (judgedState vps != .finished) := by
  unfold judgedState
  split <;> rfl

theorem rederivedState_isLive (tb : Table) :
    (rederivedState tb).isLive = (rederivedState tb != .finished) := by
  unfold rederivedState
  split
  · rfl
  · exact judgedState_isLive _

theorem reseatTable_isLive (uids : List Uid) :
    (reseatTable round table uids).state.isLive = reseatedLive round table uids := by
  unfold reseatTable reseatedLive
  cases h : round[table]? with
  | none => simp [TableState.isLive]
  | some tb =>
    simp only [Option.getD_some, seatVps, List.map_map, List.all_map]
    split
    · rename_i hc
      simp_all [Function.comp_def, TableState.isLive]
    · rename_i hc
      simp_all [Function.comp_def]

theorem liveIn_swapRound {t1 s1 t2 s2 : ℕ} (hr : rounds[r]? = some round)
    (h : LiveIn (swapRound round t1 s1 t2 s2) uid) :
    LiveIn round uid ∨ uid ∈ movedLive rounds r t1 s1 t2 ++ movedLive rounds r t2 s2 t1 := by
  obtain ⟨tb', htb', hlive, hseat⟩ := h
  obtain ⟨k, hk⟩ := List.mem_iff_getElem?.1 htb'
  rw [swapRound, withSeatings, List.getElem?_zipWith] at hk
  cases htb : round[k]? with
  | none => simp [htb] at hk
  | some tb =>
    cases hs : (swapPlayers (round.map Table.seating) t1 s1 t2 s2)[k]? with
    | none => simp [htb, hs] at hk
    | some seating =>
      simp only [htb, hs, Option.some.injEq] at hk
      subst hk
      obtain ⟨n, hn⟩ := List.mem_iff_getElem?.1 hseat
      have hget : getAt (swapAt ((round.map Table.seating).map (List.map Seat.playerUid))
          t1 s1 t2 s2) k n = some uid := by
        rw [← map_playerUid_swapPlayers, getAt, List.getElem?_map, hs]
        exact hn
      have huids : ∀ a b, getAt ((round.map Table.seating).map (List.map Seat.playerUid)) a b =
          ((tableAt rounds r a).bind fun tb => tb.seating[b]?).map Seat.playerUid := by
        intro a b
        rw [getAt_map, getAt, List.getElem?_map, tableAt, hr, Option.bind_some]
        cases round[a]? <;> rfl
      have hlive' : (tableAt rounds r k).any (fun tb => tb.state.isLive) = true := by
        rw [tableAt_eq hr htb]
        exact hlive
      rcases getAt_swapAt hget with hsame | ⟨rfl, hother⟩ | ⟨rfl, hother⟩
      · refine .inl ⟨tb, List.mem_of_getElem? htb, hlive, List.mem_iff_getElem?.2 ⟨n, ?_⟩⟩
        simpa [getAt, htb, Table.uids] using hsame
      · rw [huids] at hother
        refine .inr (List.mem_append_right _ ?_)
        simp [movedLive, hlive', hother]
      · rw [huids] at hother
        refine .inr (List.mem_append_left _ ?_)
        simp [movedLive, hlive', hother]

theorem liveIn_restoreTables (h : LiveIn (restoreTables round) uid) :
    uid ∈ (round.filter fun tb => rederivedState tb != .finished).flatMap Table.uids := by
  obtain ⟨tb', htb', hlive, hseat⟩ := h
  obtain ⟨tb, htb, rfl⟩ := List.mem_map.1 htb'
  rw [rederivedState_isLive] at hlive
  exact List.mem_flatMap.2 ⟨tb, List.mem_filter.2 ⟨htb, hlive⟩, hseat⟩

theorem liveIn_reseatRound {seating : List (List Uid)}
    (h : LiveIn (reseatRound round seating) uid) :
    uid ∈ (seating.zipIdx.filter fun us => reseatedLive round us.2 us.1).flatMap Prod.fst := by
  obtain ⟨tb', htb', hlive, hseat⟩ := h
  obtain ⟨us, hus, rfl⟩ := List.mem_map.1 (List.mem_filter.1 htb').1
  rw [reseatTable_isLive] at hlive
  rw [reseatTable_uids] at hseat
  exact List.mem_flatMap.2 ⟨us, List.mem_filter.2 ⟨hus, hlive⟩, hseat⟩

theorem liveIn_insertSeat {seat : ℕ} {u : Uid}
    (h : LiveIn (round.modify table (insertSeat seat u)) uid) :
    LiveIn round uid ∨ (uid = u ∧ ∃ tb, round[table]? = some tb ∧ tb.state.isLive = true) := by
  rcases liveIn_modify h with h | ⟨tb, htb, hlive, hseat⟩
  · exact .inl h
  · rcases List.mem_cons.1 ((insertSeat_uids_perm seat u tb).mem_iff.1 hseat) with rfl | hold
    · exact .inr ⟨rfl, tb, htb, hlive⟩
    · exact .inl ⟨tb, List.mem_of_getElem? htb, hlive, hold⟩

theorem liveIn_removeSeat {u : Uid} (h : LiveIn (removeSeat u round) uid) : LiveIn round uid := by
  unfold removeSeat at h
  split at h
  · rcases liveIn_modify h with h | ⟨tb, htb, hlive, hseat⟩
    · exact h
    · exact ⟨tb, List.mem_of_getElem? htb, hlive, (eraseSeat_uids u tb).subset hseat⟩
  · exact h

end Tables

/-! ### No other live seat is new -/

section Effects

variable {rs : RandomSource} {t t' : Tournament} {i : EventInput} {uid : Uid}

theorem Shape.liveOnRoster (h : Shape t) (hu : uid ∈ liveSeats t.rounds) :
    some uid ∈ rosterUids t.players := by
  obtain ⟨round, hround, tb, htb, -, hseat⟩ := mem_liveSeats.1 hu
  refine h.onRoster uid (List.mem_flatten.2 ⟨_, List.mem_map_of_mem hround, ?_⟩)
  exact List.mem_flatMap.2 ⟨tb, htb, hseat⟩

theorem mem_liveSeats_of_modify {rounds : List (List Table)} {r : ℕ} {f : List Table → List Table}
    {P : Prop} (h : uid ∈ liveSeats (rounds.modify r f))
    (hf : ∀ round, rounds[r]? = some round → LiveIn (f round) uid → LiveIn round uid ∨ P) :
    uid ∈ liveSeats rounds ∨ P := by
  rcases mem_liveSeats_modify h with hother | ⟨round, hround, hlive⟩
  · exact .inl hother.mem
  · rcases hf round hround hlive with hold | hp
    · exact .inl (mem_liveSeats_iff_liveIn.2 ⟨r, round, hround, hold⟩)
    · exact .inr hp

theorem mem_liveSeats_of_effect (heff : Effect rs t i t') (h : uid ∈ liveSeats t'.rounds) :
    uid ∈ liveSeats t.rounds ∨ uid ∈ seatedLive t i := by
  cases heff with
  | quiet _ hq => exact .inl (hq.rounds ▸ h)
  | openRegistration | closeRegistration | cancelRegistration | reopenRegistration | register
  | addPlayer | leave | dropOut | checkIn | checkOut | checkInAll | resetCheckIn | setWaitlisted
  | setToss | randomToss | startFinals | archival => exact .inl h
  | setNonCompeting | finishRound | swapFinals | reseatFinals | scoreFinals | overrideFinals
  | unoverrideFinals | finishFinals | cancelFinals | finishTournament | reopenTournament =>
    rw [liveSeats_updateStandings] at h
    exact .inl h
  | startRound _ seating he _ _ hseating =>
    rcases mem_liveSeats_append.1 h with hold | hnew
    · exact .inl hold
    · refine .inr ?_
      simp only [seatedLive, he]
      exact (roundSeating_perm hseating).mem_iff.1 (mem_liveSeats_fresh.1 hnew)
  | selfOrganizeRound uids seating he _ _ _ _ hperm =>
    rcases mem_liveSeats_append.1 h with hold | hnew
    · exact .inl hold
    · refine .inr ?_
      simp only [seatedLive, he]
      exact hperm.mem_iff.1 (mem_liveSeats_fresh.1 hnew)
  | cancelRound =>
    rw [liveSeats_updateStandings] at h
    exact .inl (liveElsewhere_of_mem_cancelledRounds h).2
  | restoreRound target tables he _ _ hround =>
    rw [liveSeats_updateStandings] at h
    rcases mem_liveSeats_set h with hother | hlive
    · exact .inl hother.mem
    · refine .inr ?_
      simp only [seatedLive, he, hround, Option.getD_some]
      exact liveIn_restoreTables hlive
  | swapRound round t1 s1 t2 s2 tables x y he _ hround =>
    rw [liveSeats_updateStandings] at h
    refine mem_liveSeats_of_modify h fun tables' hround' hlive => ?_
    simp only [seatedLive, he]
    exact liveIn_swapRound hround' hlive
  | reseatRound round seating tables he _ _ hround =>
    rw [liveSeats_updateStandings, rounds_alterSeatingDoc] at h
    rcases mem_liveSeats_set h with hother | hlive
    · exact .inl hother.mem
    · refine .inr ?_
      simp only [seatedLive, he, hround, Option.elim_some]
      exact liveIn_reseatRound hlive
  | seatPlayer u table seat round target p tables tb he _ _ _ htarget hround htb =>
    rw [liveSeats_updateStandings] at h
    refine mem_liveSeats_of_modify h fun tables' hround' hlive => ?_
    rcases liveIn_insertSeat hlive with hold | ⟨rfl, tb', htb', hl⟩
    · exact .inl hold
    · simp [seatedLive, he, ← resolveLiveRound_ok htarget, tableAt_eq hround' htb', hl]
  | unseatPlayer u =>
    rw [liveSeats_updateStandings] at h
    exact mem_liveSeats_of_modify h fun tables _ hlive => .inl (liveIn_removeSeat hlive)
  | addTable =>
    refine mem_liveSeats_of_modify h fun tables _ hlive => .inl ?_
    obtain ⟨tb, htb, hl, hseat⟩ := hlive
    rcases List.mem_append.1 htb with hold | hnew
    · exact ⟨tb, hold, hl, hseat⟩
    · obtain rfl := List.mem_singleton.1 hnew
      cases hseat
  | removeTable table =>
    refine mem_liveSeats_of_modify h fun tables _ hlive => .inl ?_
    obtain ⟨tb, htb, hl, hseat⟩ := hlive
    exact ⟨tb, List.mem_of_mem_eraseIdx htb, hl, hseat⟩
  | scoreTable round table scores tables tb written he _ hround htb hw =>
    rw [liveSeats_updateStandings] at h
    refine mem_liveSeats_of_modify h fun tables' hround' hlive => ?_
    rcases liveIn_modify hlive with hold | ⟨tb', htb', hl, hseat⟩
    · exact .inl hold
    obtain rfl : tables = tables' := Option.some.inj (hround.symm.trans hround')
    obtain rfl : tb = tb' := Option.some.inj (htb.symm.trans htb')
    have hseat' : uid ∈ tb.uids := by
      have huids := reportTable_uids hw
      simp only [Table.uids] at hseat ⊢
      rwa [huids] at hseat
    cases ho : tb.override with
    | some o =>
      rw [(reportTable_ok hw).2, ho] at hl
      exact .inl ⟨tb, List.mem_of_getElem? htb, hl, hseat'⟩
    | none =>
      rw [(reportTable_ok hw).2, ho] at hl
      simp only [seatedLive, he]
      refine .inr (mem_uidsWhen.2 ⟨tb, tableAt_eq hround htb, ?_, hseat'⟩)
      simpa [ho, judgedState_isLive] using hl
  | overrideTable =>
    rw [liveSeats_updateStandings] at h
    refine mem_liveSeats_of_modify h fun tables _ hlive => .inl ?_
    rcases liveIn_modify hlive with hold | ⟨tb, _, hl, _⟩
    · exact hold
    · cases hl
  | unoverrideTable round table tables tb he _ hround htb =>
    rw [liveSeats_updateStandings] at h
    refine mem_liveSeats_of_modify h fun tables' hround' hlive => ?_
    rcases liveIn_modify hlive with hold | ⟨tb', htb', hl, hseat⟩
    · exact .inl hold
    · simp only [seatedLive, he]
      refine .inr (mem_uidsWhen.2 ⟨tb', tableAt_eq hround' htb', ?_, hseat⟩)
      simpa [judgedState_isLive] using hl

end Effects

end Archon.Engine

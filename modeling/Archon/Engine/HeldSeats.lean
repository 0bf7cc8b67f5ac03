import Archon.Engine.LiveSeats

/-!
# Seats that count

A seat counts while its table is not cancelled, scored or not. The edits of a round keep the seats
of everybody they do not move, but for a player moved to a cancelled table.
-/

namespace Archon.Engine
open Guards Nested Seating

/-- Who sits at a table that is not cancelled. -/
def heldSeats (rounds : List (List Table)) : List Uid :=
  (rounds.flatMap fun round => round.filter fun tb => tb.state != .cancelled).flatMap Table.uids

/-- The player sits at a table of the round that is not cancelled. -/
def HeldIn (round : List Table) (uid : Uid) : Prop :=
  ∃ tb ∈ round, tb.state ≠ .cancelled ∧ uid ∈ tb.uids

/-- The player sits at a table of another round that is not cancelled. -/
def HeldElsewhere (rounds : List (List Table)) (r : ℕ) (uid : Uid) : Prop :=
  ∃ k round, k ≠ r ∧ rounds[k]? = some round ∧ HeldIn round uid

/-- The seats of the other rounds. -/
def seatsElsewhere (rounds : List (List Table)) (r : ℕ) : List Uid :=
  heldSeats ((rounds.zipIdx.filter fun ri => ri.2 != r).map Prod.fst)

/-- The player of a seat, when the table it is exchanged with is cancelled. -/
def movedOff (rounds : List (List Table)) (round table seat other : ℕ) : List Uid :=
  if (tableAt rounds round other).any (fun tb => tb.state == .cancelled) = true then
    (((tableAt rounds round table).bind fun tb => tb.seating[seat]?).map Seat.playerUid).toList
  else []

/-- A cancelled table stays cancelled under its new players. -/
def reseatedCancelled (round : List Table) (table : ℕ) (uids : List Uid) : Bool :=
  (round[table]?).any (fun tb => tb.state == .cancelled) && !reseatedLive round table uids

/-- Who gets a table that is not cancelled from a new seating of the round. -/
def reseatedHeld (round : List Table) (seating : List (List Uid)) : List Uid :=
  (seating.zipIdx.filter fun us => !reseatedCancelled round us.2 us.1).flatMap Prod.fst

section Held

variable {rounds : List (List Table)} {round : List Table} {uid : Uid} {r table : ℕ} {tb : Table}

theorem mem_heldSeats_iff : uid ∈ heldSeats rounds ↔ ∃ round ∈ rounds, HeldIn round uid := by
  simp only [heldSeats, List.mem_flatMap, List.mem_filter, bne_iff_ne, HeldIn]
  constructor
  · rintro ⟨tb, ⟨round, hr, htb, hc⟩, hu⟩
    exact ⟨round, hr, tb, htb, hc, hu⟩
  · rintro ⟨round, hr, tb, htb, hc, hu⟩
    exact ⟨tb, ⟨round, hr, htb, hc⟩, hu⟩

theorem mem_heldSeats :
    uid ∈ heldSeats rounds ↔
      ∃ (k : ℕ) (round : List Table), rounds[k]? = some round ∧ HeldIn round uid := by
  rw [mem_heldSeats_iff]
  constructor
  · rintro ⟨round, hr, hheld⟩
    obtain ⟨k, hk⟩ := List.mem_iff_getElem?.1 hr
    exact ⟨k, round, hk, hheld⟩
  · rintro ⟨k, round, hk, hheld⟩
    exact ⟨round, List.mem_of_getElem? hk, hheld⟩

theorem mem_seatsElsewhere : uid ∈ seatsElsewhere rounds r ↔ HeldElsewhere rounds r uid := by
  rw [seatsElsewhere, mem_heldSeats_iff]
  constructor
  · rintro ⟨round, hround, hheld⟩
    obtain ⟨⟨round', k⟩, hk, rfl⟩ := List.mem_map.1 hround
    obtain ⟨hmem, hne⟩ := List.mem_filter.1 hk
    exact ⟨k, round', by simpa using hne, by simpa using List.mem_zipIdx_iff_getElem?.1 hmem, hheld⟩
  · rintro ⟨k, round, hne, hk, hheld⟩
    refine ⟨round, List.mem_map.2 ⟨(round, k), List.mem_filter.2 ⟨?_, ?_⟩, rfl⟩, hheld⟩
    · exact List.mem_zipIdx_iff_getElem?.2 (by simpa using hk)
    · simpa using hne

theorem heldIn_iff_faces : HeldIn round uid ↔
    ∃ face ∈ round.map Table.face, face.state ≠ .cancelled ∧ uid ∈ face.uids := by
  simp only [HeldIn, List.mem_map, exists_exists_and_eq_and]
  rfl

theorem heldSeats_congr {rounds' : List (List Table)} (h : boardOf rounds = boardOf rounds') :
    uid ∈ heldSeats rounds ↔ uid ∈ heldSeats rounds' := by
  have hfaces : ∀ rs : List (List Table), uid ∈ heldSeats rs ↔
      ∃ faces ∈ boardOf rs, ∃ face ∈ faces, face.state ≠ .cancelled ∧ uid ∈ face.uids := by
    intro rs
    rw [mem_heldSeats_iff, boardOf]
    simp only [heldIn_iff_faces, List.mem_map, exists_exists_and_eq_and]
  rw [hfaces, hfaces, h]

theorem mem_heldSeats_updateStandings {t : Tournament} {s : List Sanction} :
    uid ∈ heldSeats (updateStandings t s).rounds ↔ uid ∈ heldSeats t.rounds :=
  heldSeats_congr (boardOf_updateStandings t s)

theorem HeldIn.mem_roundUids (h : HeldIn round uid) : uid ∈ roundUids round := by
  obtain ⟨tb, htb, -, hseat⟩ := h
  exact List.mem_flatMap.2 ⟨tb, htb, hseat⟩

theorem LiveIn.held (h : LiveIn round uid) : HeldIn round uid := by
  obtain ⟨tb, htb, hlive, hseat⟩ := h
  refine ⟨tb, htb, fun hc => ?_, hseat⟩
  rw [hc] at hlive
  cases hlive

theorem mem_heldSeats_of_live (h : uid ∈ liveSeats rounds) : uid ∈ heldSeats rounds := by
  obtain ⟨k, round, hk, hlive⟩ := mem_liveSeats_iff_liveIn.1 h
  exact mem_heldSeats.2 ⟨k, round, hk, hlive.held⟩

theorem HeldElsewhere.mem (h : HeldElsewhere rounds r uid) : uid ∈ heldSeats rounds := by
  obtain ⟨k, round, -, hk, hheld⟩ := h
  exact mem_heldSeats.2 ⟨k, round, hk, hheld⟩

theorem LiveElsewhere.held (h : LiveElsewhere rounds r uid) : HeldElsewhere rounds r uid := by
  obtain ⟨k, round, hne, hk, hlive⟩ := h
  exact ⟨k, round, hne, hk, hlive.held⟩

theorem mem_heldSeats_cases (r : ℕ) (h : uid ∈ heldSeats rounds) :
    HeldElsewhere rounds r uid ∨ ∃ round, rounds[r]? = some round ∧ HeldIn round uid := by
  obtain ⟨k, round, hk, hheld⟩ := mem_heldSeats.1 h
  by_cases hkr : k = r
  · exact .inr ⟨round, hkr ▸ hk, hheld⟩
  · exact .inl ⟨k, round, hkr, hk, hheld⟩

/-! ### Rewriting one round -/

theorem heldElsewhere_modify {f : List Table → List Table} :
    HeldElsewhere (rounds.modify r f) r uid ↔ HeldElsewhere rounds r uid := by
  unfold HeldElsewhere
  refine exists_congr fun k => exists_congr fun round => and_congr_right fun hk => ?_
  simp [Ne.symm hk]

theorem heldElsewhere_set {x : List Table} :
    HeldElsewhere (rounds.set r x) r uid ↔ HeldElsewhere rounds r uid := by
  unfold HeldElsewhere
  refine exists_congr fun k => exists_congr fun round => and_congr_right fun hk => ?_
  rw [List.getElem?_set_ne (Ne.symm hk)]

theorem mem_heldSeats_modify {f : List Table → List Table} (h : uid ∈ heldSeats rounds)
    (hf : ∀ round, rounds[r]? = some round → HeldIn round uid →
      HeldIn (f round) uid ∨ HeldElsewhere rounds r uid) :
    uid ∈ heldSeats (rounds.modify r f) := by
  rcases mem_heldSeats_cases r h with hother | ⟨round, hround, hheld⟩
  · exact (heldElsewhere_modify.2 hother).mem
  · rcases hf round hround hheld with hkept | hother
    · exact mem_heldSeats.2 ⟨r, f round, by simp [hround], hkept⟩
    · exact (heldElsewhere_modify.2 hother).mem

theorem mem_heldSeats_set {x : List Table} (hround : rounds[r]? = some round)
    (h : HeldIn x uid ∨ HeldElsewhere rounds r uid) : uid ∈ heldSeats (rounds.set r x) := by
  rcases h with hkept | hother
  · refine mem_heldSeats.2 ⟨r, x, ?_, hkept⟩
    rw [List.getElem?_set_self', hround]
    rfl
  · exact (heldElsewhere_set.2 hother).mem

theorem mem_heldSeats_append {a b : List (List Table)} :
    uid ∈ heldSeats (a ++ b) ↔ uid ∈ heldSeats a ∨ uid ∈ heldSeats b := by
  simp [heldSeats]

theorem heldIn_modify {f : Table → Table} (h : HeldIn round uid)
    (hf : ∀ tb, round[table]? = some tb → tb.state ≠ .cancelled → uid ∈ tb.uids →
      (f tb).state ≠ .cancelled ∧ uid ∈ (f tb).uids) : HeldIn (round.modify table f) uid := by
  obtain ⟨tb, htb, hc, hseat⟩ := h
  obtain ⟨k, hk⟩ := List.mem_iff_getElem?.1 htb
  by_cases hkt : table = k
  · subst hkt
    obtain ⟨hc', hseat'⟩ := hf tb hk hc hseat
    exact ⟨f tb, List.mem_iff_getElem?.2 ⟨table, by simp [hk]⟩, hc', hseat'⟩
  · exact ⟨tb, List.mem_iff_getElem?.2 ⟨k, by simp [hk, hkt]⟩, hc, hseat⟩

theorem heldIn_insertSeat {seat : ℕ} {u : Uid} (h : HeldIn round uid) :
    HeldIn (round.modify table (insertSeat seat u)) uid := by
  refine heldIn_modify h fun tb _ hc hseat => ⟨hc, ?_⟩
  exact (insertSeat_uids_perm seat u tb).mem_iff.2 (List.mem_cons_of_mem _ hseat)

theorem heldIn_insertSeat_self {seat : ℕ} (htb : round[table]? = some tb)
    (hc : tb.state ≠ .cancelled) : HeldIn (round.modify table (insertSeat seat uid)) uid := by
  refine ⟨insertSeat seat uid tb, List.mem_iff_getElem?.2 ⟨table, by simp [htb]⟩, hc, ?_⟩
  exact (insertSeat_uids_perm seat uid tb).mem_iff.2 (List.mem_cons_self ..)

theorem heldIn_removeSeat {u : Uid} (h : HeldIn round uid) (hne : uid ≠ u) :
    HeldIn (removeSeat u round) uid := by
  unfold removeSeat
  split
  · refine heldIn_modify h fun tb _ hc hseat => ⟨hc, ?_⟩
    obtain ⟨s, hs, rfl⟩ := List.mem_map.1 hseat
    exact List.mem_map_of_mem ((List.mem_eraseP_of_neg (by simpa using hne)).2 hs)
  · exact h

theorem heldIn_eraseIdx (h : HeldIn round uid) (htb : round[table]? = some tb)
    (hempty : tb.seating = []) : HeldIn (round.eraseIdx table) uid := by
  obtain ⟨x, hx, hc, hseat⟩ := h
  obtain ⟨k, hk⟩ := List.mem_iff_getElem?.1 hx
  refine ⟨x, List.mem_eraseIdx_iff_getElem?.2 ⟨k, fun hkt => ?_, hk⟩, hc, hseat⟩
  rw [hkt, htb] at hk
  rw [← Option.some.inj hk, Table.uids, hempty] at hseat
  cases hseat

theorem rederivedState_ne_cancelled (tb : Table) : rederivedState tb ≠ .cancelled := by
  unfold rederivedState judgedState
  split
  · simp
  · split <;> simp

theorem heldIn_restoreTables (h : uid ∈ roundUids round) : HeldIn (restoreTables round) uid := by
  obtain ⟨tb, htb, hseat⟩ := List.mem_flatMap.1 h
  exact ⟨_, List.mem_map_of_mem htb, rederivedState_ne_cancelled tb, hseat⟩

theorem reseatTable_cancelled_iff (table : ℕ) (uids : List Uid) :
    (reseatTable round table uids).state = .cancelled ↔
      reseatedCancelled round table uids = true := by
  have hlive := @reseatTable_isLive round table uids
  unfold reseatedCancelled
  rw [← hlive]
  unfold reseatTable
  cases htb : round[table]? with
  | none => simp [TableState.isLive]
  | some tb =>
    simp only [Option.getD_some, Option.any_some, Bool.and_eq_true, beq_iff_eq,
      Bool.not_eq_true']
    split
    · simp [TableState.isLive]
    · constructor
      · intro hc
        simp [hc, TableState.isLive]
      · exact fun hc => hc.1

theorem heldIn_reseatRound {seating : List (List Uid)} :
    HeldIn (reseatRound round seating) uid ↔ uid ∈ reseatedHeld round seating := by
  simp only [HeldIn, reseatRound, reseatedHeld, List.mem_flatMap, List.mem_filter, List.mem_map]
  constructor
  · rintro ⟨-, ⟨⟨us, hus, rfl⟩, -⟩, hc, hseat⟩
    refine ⟨us, ⟨hus, ?_⟩, by simpa using hseat⟩
    simpa [reseatTable_cancelled_iff] using hc
  · rintro ⟨us, ⟨hus, hc⟩, hseat⟩
    refine ⟨reseatTable round us.2 us.1, ⟨⟨us, hus, rfl⟩, ?_⟩, ?_, by simpa using hseat⟩
    · simp only [reseatTable, List.isEmpty_map, Bool.not_eq_true', List.isEmpty_eq_false_iff]
      exact List.ne_nil_of_mem hseat
    · rw [ne_eq, reseatTable_cancelled_iff]
      simpa using hc

theorem heldIn_swapRound {t1 s1 t2 s2 : ℕ} {x y : Seat} (hr : rounds[r]? = some round)
    (hx : getAt (round.map Table.seating) t1 s1 = some x)
    (hy : getAt (round.map Table.seating) t2 s2 = some y) (h : HeldIn round uid)
    (hmoved : uid ∉ movedOff rounds r t1 s1 t2 ++ movedOff rounds r t2 s2 t1) :
    HeldIn (swapRound round t1 s1 t2 s2) uid := by
  set uids := (round.map Table.seating).map (List.map Seat.playerUid) with huids
  have hlen : (swapPlayers (round.map Table.seating) t1 s1 t2 s2).length = round.length := by
    rw [length_swapPlayers, List.length_map]
  have hswapped : ((swapRound round t1 s1 t2 s2).map Table.seating).map (List.map Seat.playerUid) =
      swapAt uids t1 s1 t2 s2 := by
    rw [swapRound, map_seating_withSeatings hlen, map_playerUid_swapPlayers]
  -- A position of the swapped round with a table that was not cancelled.
  have hseated : ∀ k n tb, round[k]? = some tb → tb.state ≠ .cancelled →
      getAt (swapAt uids t1 s1 t2 s2) k n = some uid →
        HeldIn (swapRound round t1 s1 t2 s2) uid := by
    intro k n tb htb hc hget
    rw [← hswapped, getAt, List.map_map, List.getElem?_map] at hget
    cases hk : (swapRound round t1 s1 t2 s2)[k]? with
    | none => simp [hk] at hget
    | some tb' =>
      have hstate : tb'.state = tb.state := by
        rw [swapRound, withSeatings, List.getElem?_zipWith, htb] at hk
        cases hs : (swapPlayers (round.map Table.seating) t1 s1 t2 s2)[k]? with
        | none => simp [hs] at hk
        | some seating =>
          simp only [hs, Option.some.injEq] at hk
          rw [← hk]
      rw [hk] at hget
      exact ⟨tb', List.mem_of_getElem? hk, hstate ▸ hc, List.mem_iff_getElem?.2 ⟨n, hget⟩⟩
  have htable : ∀ a b s, getAt (round.map Table.seating) a b = some s →
      ∃ tb, round[a]? = some tb ∧ tb.seating[b]? = some s := by
    intro a b s hs
    rw [getAt, List.getElem?_map] at hs
    cases htb : round[a]? with
    | none => simp [htb] at hs
    | some tb => exact ⟨tb, rfl, by simpa [htb] using hs⟩
  have hmoves : ∀ a b c d s tb, getAt (round.map Table.seating) a b = some s →
      s.playerUid = uid → round[c]? = some tb →
      uid ∉ movedOff rounds r a b c → getAt (swapAt uids t1 s1 t2 s2) c d = some uid →
      HeldIn (swapRound round t1 s1 t2 s2) uid := by
    intro a b c d s tb hs hsuid htb hoff hget
    refine hseated c d tb htb (fun hc => hoff ?_) hget
    obtain ⟨old, hold, hseat⟩ := htable a b s hs
    simp [movedOff, tableAt_eq hr htb, tableAt_eq hr hold, hc, hseat, hsuid]
  obtain ⟨tb, htb, hc, hseat⟩ := h
  obtain ⟨k, hk⟩ := List.mem_iff_getElem?.1 htb
  obtain ⟨n, hn⟩ := List.mem_iff_getElem?.1 hseat
  have hget : getAt uids k n = some uid := by
    rw [huids, getAt, List.map_map, List.getElem?_map, hk]
    exact hn
  have hx' : getAt uids t1 s1 = some x.playerUid := by rw [huids, getAt_map, hx, Option.map_some]
  have hy' : getAt uids t2 s2 = some y.playerUid := by rw [huids, getAt_map, hy, Option.map_some]
  obtain ⟨tb1, htb1, -⟩ := htable t1 s1 x hx
  obtain ⟨tb2, htb2, -⟩ := htable t2 s2 y hy
  rw [List.mem_append, not_or] at hmoved
  rcases exists_getAt_swapAt hx' hy' hget with hstays | ⟨⟨rfl, rfl⟩, hother⟩ | ⟨⟨rfl, rfl⟩, hother⟩
  · exact hseated k n tb hk hc hstays
  · exact hmoves t1 s1 t2 s2 x tb2 hx (Option.some.inj (hx'.symm.trans hget)) htb2 hmoved.1 hother
  · exact hmoves t2 s2 t1 s1 y tb1 hy (Option.some.inj (hy'.symm.trans hget)) htb1 hmoved.2 hother

end Held

end Archon.Engine

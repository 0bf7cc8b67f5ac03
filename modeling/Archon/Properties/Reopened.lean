import Archon.Properties.SeatingKeeps

/-!
# Reopening a finished tournament

`FinishFinals` leaves a document that its own refresh leaves alone: everybody is finished or
disqualified, the winner is the one its finals name, and the scores are those of its points.
Reopened and finished again under the same sanctions, the document is the same.
-/

namespace Archon.Engine
open Guards Nested Seating

/-! ### The refresh of a refreshed document -/

section Refresh

variable {t : Tournament} {s : List Sanction}

theorem updateStandings_eq_self (hrounds : (refreshRoundScoring t s).rounds = t.rounds)
    (hsheet : t.rounds ≠ [] → t.standings = computePreliminaryStandings t s)
    (hfinals : t.rounds ≠ [] → refreshFinalsScoring t s = t) : updateStandings t s = t := by
  have hsame : refreshRoundScoring t s = t := by
    calc refreshRoundScoring t s = { t with rounds := (refreshRoundScoring t s).rounds } := rfl
      _ = t := by rw [hrounds]
  unfold updateStandings
  extract_lets refreshed
  rw [show refreshed = t from hsame]
  by_cases hr : t.rounds = []
  · rw [if_pos (by simp [hr])]
  · rw [if_neg (by simpa using hr), ← hsheet hr]
    exact hfinals hr

theorem scoreFinals_congr {t' : Tournament} {f f' : FinalsTable} (h : SameResults t t')
    (hlen : t'.rounds.length = t.rounds.length)
    (huids : f'.seating.map Seat.playerUid = f.seating.map Seat.playerUid)
    (hvps : seatVps f'.seating = seatVps f.seating) (horder : f'.seedOrder = f.seedOrder) :
    scoreFinals t' s f' = scoreFinals t s f := by
  rw [scoreFinals, scoreFinals, h.resolve, hlen, hvps, horder, scoreTable_congr huids]

theorem gameWinUid_congr {seating seating' : List Seat}
    (h : seating'.map Seat.playerUid = seating.map Seat.playerUid) (gws : List ℚ) :
    gameWinUid seating' gws = gameWinUid seating gws := by
  have hat : ∀ w : ℕ, (seating'[w]?).map Seat.playerUid = (seating[w]?).map Seat.playerUid := by
    intro w
    rw [← List.getElem?_map, h, List.getElem?_map]
  simp only [gameWinUid, hat]

theorem refreshFinalsScoring_idem (t : Tournament) (s : List Sanction) :
    refreshFinalsScoring (refreshFinalsScoring t s) s = refreshFinalsScoring t s := by
  cases hf : t.finals with
  | none =>
    have hsame : refreshFinalsScoring t s = t := by
      rw [refreshFinalsScoring, hf]
    rw [hsame, hsame]
  | some f =>
    by_cases hd : f.state = .finished
    · let f' : FinalsTable :=
        { f with seating := refreshSeats f.seating (scoreFinals t s f).1 (scoreFinals t s f).2 }
      let t' : Tournament :=
        { t with
          finals := some f'
          winner := if t.winner = "" then t.winner
            else (gameWinUid f.seating (scoreFinals t s f).1).getD t.winner }
      have honce : refreshFinalsScoring t s = t' := by
        simp only [refreshFinalsScoring, hf, if_pos hd]
        rfl
      have huids : f'.seating.map Seat.playerUid = f.seating.map Seat.playerUid :=
        map_playerUid_refreshSeats _ _ _
      have hresults : SameResults t t' :=
        .of_length (fun _ => rfl) rfl (by simp [finalsUids, t', hf, huids])
      have hscore : scoreFinals t' s f' = scoreFinals t s f :=
        scoreFinals_congr hresults rfl huids (seatVps_refreshSeats _ _ _) rfl
      have hgw := gameWinUid_congr huids (scoreFinals t s f).1
      have hwinner : (if t'.winner = "" then t'.winner
          else (gameWinUid f.seating (scoreFinals t s f).1).getD t'.winner) = t'.winner := by
        by_cases hw : t.winner = ""
        · have hblank : t'.winner = "" := by
            show (if t.winner = "" then t.winner else _) = ""
            rw [if_pos hw, hw]
          rw [if_pos hblank]
        · have hnamed : t'.winner = (gameWinUid f.seating (scoreFinals t s f).1).getD t.winner :=
            if_neg hw
          rw [hnamed]
          cases gameWinUid f.seating (scoreFinals t s f).1 <;> simp
      have htwice : refreshFinalsScoring t' s =
          { t' with
            finals := some { f' with
              seating := refreshSeats f'.seating (scoreFinals t' s f').1 (scoreFinals t' s f').2 }
            winner := if t'.winner = "" then t'.winner
              else (gameWinUid f'.seating (scoreFinals t' s f').1).getD t'.winner } := by
        show (if f.state = .finished then _ else _) = _
        rw [if_pos hd]
      rw [honce, htwice, hscore, hgw, hwinner]
      have hseats : refreshSeats f'.seating (scoreFinals t s f).1 (scoreFinals t s f).2 =
          f'.seating := refreshSeats_refreshSeats _ _ _ _ _
      rw [hseats]
    · have hsame : refreshFinalsScoring t s = t := by
        simp only [refreshFinalsScoring, hf, if_neg hd]
      rw [hsame, hsame]

theorem updateStandings_idem (t : Tournament) (s : List Sanction) :
    updateStandings (updateStandings t s) s = updateStandings t s := by
  have hresults := sameResults_updateStandings t s
  have hrounds : (refreshRoundScoring (updateStandings t s) s).rounds =
      (updateStandings t s).rounds := by
    rw [← updateStandings_rounds]
    refine List.ext_getElem? fun r => ?_
    rw [updateStandings_getElem?, updateStandings_getElem?, hresults.resolve]
    cases t.rounds[r]? with
    | none => rfl
    | some round =>
      simp only [Option.map_some, List.map_map, Option.some.injEq]
      exact List.map_congr_left fun tb _ => refreshTable_refreshTable _ _ _ _
  by_cases hr : t.rounds = []
  · have hnil : (updateStandings t s).rounds = [] := (updateStandings_rounds_eq_nil s).2 hr
    exact updateStandings_eq_self hrounds (fun h => absurd hnil h) fun h => absurd hnil h
  · refine updateStandings_eq_self hrounds (fun _ => ?_) fun _ => ?_
    · rw [updateStandings_standings t s hr, computePreliminaryStandings_updateStandings]
    · obtain ⟨u, hu⟩ : ∃ u, updateStandings t s = refreshFinalsScoring u s := by
        obtain ⟨u, hu, -⟩ := updateStandings_eq_refreshFinals (s := s) hr
        exact ⟨u, hu⟩
      rw [hu]
      exact refreshFinalsScoring_idem u s

end Refresh

/-! ### As `FinishFinals` leaves it -/

section SettledFinal

variable {t t' : Tournament} {actor : ActorContext} {s : List Sanction} {ops : List DeckOp}

theorem updateStandings_finals_some {f : FinalsTable} (hf : t.finals = some f) :
    ∃ f', (updateStandings t s).finals = some f' ∧ f'.state = f.state ∧
      f'.seating.map Seat.playerUid = f.seating.map Seat.playerUid ∧
        seatVps f'.seating = seatVps f.seating ∧ f'.seedOrder = f.seedOrder := by
  by_cases hkept : t.rounds = [] ∨ f.state ≠ .finished
  · exact ⟨f, (updateStandings_finals_kept hf hkept).1, rfl, rfl, rfl, rfl⟩
  · simp only [not_or, not_not] at hkept
    obtain ⟨u, hfinals, -⟩ := updateStandings_finals_rescored (s := s) hkept.1 hf hkept.2
    exact ⟨_, hfinals, rfl, map_playerUid_refreshSeats _ _ _, seatVps_refreshSeats _ _ _, rfl⟩

theorem updateStandings_eq_rescore (hr : t.rounds ≠ []) :
    ∃ u : Tournament, updateStandings t s = refreshFinalsScoring u s ∧ u.finals = t.finals ∧
      u.winner = t.winner ∧ SameResults t u ∧ u.rounds.length = t.rounds.length := by
  have hne : (refreshRoundScoring t s).rounds.isEmpty = false := by
    simpa [refreshRoundScoring] using hr
  have hlen : (refreshRoundScoring t s).rounds.length = t.rounds.length := by
    simp [refreshRoundScoring]
  have hplayed : ∀ r, playedAt (refreshRoundScoring t s).rounds r = playedAt t.rounds r := by
    intro r
    rw [← updateStandings_rounds, playedAt_updateStandings]
  unfold updateStandings
  extract_lets refreshed
  rw [if_neg (by simp [refreshed, hne])]
  exact ⟨_, rfl, rfl, rfl, .of_length hplayed hlen rfl, hlen⟩

theorem updateStandings_winner {f : FinalsTable} (hr : t.rounds ≠ []) (hf : t.finals = some f)
    (hd : f.state = .finished) :
    (updateStandings t s).winner =
      if t.winner = "" then t.winner
      else (gameWinUid f.seating (scoreFinals t s f).1).getD t.winner := by
  obtain ⟨u, hu, hfinals, hwinner, hresults, hlen⟩ := updateStandings_eq_rescore (s := s) hr
  have hscore : scoreFinals u s f = scoreFinals t s f :=
    scoreFinals_congr hresults hlen rfl rfl rfl
  rw [hu, refreshFinalsScoring, hfinals.trans hf]
  simp only [hd, if_true, hwinner, hscore]

end SettledFinal

end Archon.Engine

import Archon.Engine.FinalsTable
import Archon.Engine.Scenario
import Archon.Properties.FinalsPhase

/-!
# One game win in the finals

The rating reads the game win of a finals seat as it is stored. `FinalsWin` says that at most one
seat stores one, and that on a finished table with a winner named it is the winner's and the other
seats store none. With rounds a finished finals table is scored again by every handler that ends
with the refresh. A table that stays unfinished is not, and there a report writes only the seats it
names.
-/

namespace Archon.Engine
open Guards Nested Seating

/-! ### Game wins of a seating -/

def FinalsTable.uids (f : FinalsTable) : List Uid := f.seating.map Seat.playerUid

/-- The stored game wins of a seating. -/
def gameWins (seating : List Seat) : List ℚ := seating.map fun s => s.result.gw

/-- A game win at position `k` and none elsewhere. -/
def WonAt (gws : List ℚ) (k : ℕ) : Prop := ∀ w ∈ gws.zipIdx, w.1 = if w.2 = k then 1 else 0

/-- No two positions store a game win. -/
def AtMostOneWin (gws : List ℚ) : Prop :=
  ∀ w ∈ gws.zipIdx, ∀ o ∈ gws.zipIdx, w.1 = 1 → o.1 = 1 → w.2 = o.2

/-- The player sits at the one position with a game win. -/
def WonBy (uids : List Uid) (gws : List ℚ) (uid : Uid) : Prop :=
  ∃ u ∈ uids.zipIdx, u.1 = uid ∧ WonAt gws u.2

instance (gws : List ℚ) (k : ℕ) : Decidable (WonAt gws k) :=
  inferInstanceAs (Decidable (∀ w ∈ gws.zipIdx, w.1 = if w.2 = k then 1 else 0))

instance (uids : List Uid) (gws : List ℚ) (uid : Uid) : Decidable (WonBy uids gws uid) :=
  inferInstanceAs (Decidable (∃ u ∈ uids.zipIdx, u.1 = uid ∧ WonAt gws u.2))

/-- At most one finals seat stores a game win; on a finished table with a winner it is theirs and
no other seat stores anything. -/
structure FinalsWin (t : Tournament) : Prop where
  one : ∀ f, t.finals = some f → AtMostOneWin (gameWins f.seating)
  winner : ∀ f, t.finals = some f → f.state = .finished → t.winner ≠ "" →
    WonBy f.uids (gameWins f.seating) t.winner

/-! ### The condition -/

/-- The seat the finals go to under the points given (`compute_gw_finals`). -/
def finalsBest (t : Tournament) (sanctions : List Sanction) (f : FinalsTable) (vps : List ℚ) : ℕ :=
  bestFinalsSeat vps
    (tableSaAdjustments f.seating t.rounds.length (resolveSaEffectiveRounds t sanctions)) f.uids
    f.seedOrder

/-- The report leaves the finals table finished. -/
def ReportFinishes (f : FinalsTable) (scores : List SeatScore) : Prop :=
  (f.override.elim (judgedState (mergedVps f.seating scores)) fun _ => f.state) = .finished

instance (f : FinalsTable) (scores : List SeatScore) : Decidable (ReportFinishes f scores) :=
  inferInstanceAs (Decidable (_ = _))

/-- The report names the player of the best seat, or else nobody stored a game win it leaves. -/
def NoStaleWin (best : ℕ) (f : FinalsTable) (scores : List SeatScore) : Prop :=
  ∀ w ∈ f.seating.zipIdx, w.2 = best → reportedVp scores w.1.playerUid ≠ none →
    ∀ o ∈ f.seating, reportedVp scores o.playerUid = none → o.result.gw ≠ 1

/-- Seats reported for and seats left agree on the winner's seat. -/
def WinnerReported (best : ℕ) (f : FinalsTable) (scores : List SeatScore) (winner : Uid) : Prop :=
  ∃ w ∈ f.seating.zipIdx, w.1.playerUid = winner ∧
    ∀ o ∈ f.seating.zipIdx,
      if reportedVp scores o.1.playerUid = none then
        o.1.result.gw = if o.2 = w.2 then 1 else 0
      else o.2 = best ↔ o.2 = w.2

instance (best : ℕ) (f : FinalsTable) (scores : List SeatScore) :
    Decidable (NoStaleWin best f scores) :=
  inferInstanceAs (Decidable (∀ w ∈ f.seating.zipIdx, w.2 = best →
    reportedVp scores w.1.playerUid ≠ none →
      ∀ o ∈ f.seating, reportedVp scores o.playerUid = none → o.result.gw ≠ 1))

instance (best : ℕ) (f : FinalsTable) (scores : List SeatScore) (winner : Uid) :
    Decidable (WinnerReported best f scores winner) :=
  inferInstanceAs (Decidable (∃ w ∈ f.seating.zipIdx, w.1.playerUid = winner ∧
    ∀ o ∈ f.seating.zipIdx,
      if reportedVp scores o.1.playerUid = none then
        o.1.result.gw = if o.2 = w.2 then 1 else 0
      else o.2 = best ↔ o.2 = w.2))

/-- A report on the finals ends finished with rounds, so that the refresh scores the table again,
or what it writes fits what it leaves. -/
def ReportKeepsWin (t : Tournament) (sanctions : List Sanction) (f : FinalsTable)
    (scores : List SeatScore) : Prop :=
  (t.rounds ≠ [] ∧ ReportFinishes f scores) ∨
    (NoStaleWin (finalsBest t sanctions f (mergedVps f.seating scores)) f scores ∧
      (ReportFinishes f scores → t.winner ≠ "" →
        WinnerReported (finalsBest t sanctions f (mergedVps f.seating scores)) f scores t.winner))

instance (t : Tournament) (sanctions : List Sanction) (f : FinalsTable)
    (scores : List SeatScore) : Decidable (ReportKeepsWin t sanctions f scores) :=
  inferInstanceAs (Decidable (_ ∨ _))

/-- The event leaves no stale game win on the finals table. Without rounds nothing is scored
again, so there whatever moves players, states or the winner must fit the stored game wins. -/
def KeepsWin (t : Tournament) (i : EventInput) : Prop :=
  match t.finals with
  | none => True
  | some f =>
    match i.event with
    | .setScore round table scores =>
      isFinalsTable t round table = true → ReportKeepsWin t i.sanctions f scores
    | .override round table _ =>
      isFinalsTable t round table = true → t.rounds = [] → t.winner ≠ "" →
        WonBy f.uids (gameWins f.seating) t.winner
    | .unoverride round table =>
      isFinalsTable t round table = true → t.rounds = [] → t.winner ≠ "" →
        judgedState (seatVps f.seating) = .finished → WonBy f.uids (gameWins f.seating) t.winner
    | .swapSeats _ _ seat1 _ seat2 =>
      t.rounds = [] → t.winner ≠ "" → f.state = .finished →
        seat1 = seat2 ∨ ∀ w ∈ (gameWins f.seating).zipIdx, w.2 = seat1 ∨ w.2 = seat2 → w.1 ≠ 1
    | .alterSeating _ seating =>
      t.rounds = [] → t.winner ≠ "" → f.state = .finished →
        ∀ w ∈ f.seating.zipIdx, w.1.result.gw = 1 →
          seating.flatten[w.2]? = some w.1.playerUid
    | .finishFinals =>
      t.rounds = [] →
        WonAt (gameWins f.seating) (finalsBest t i.sanctions f (seatVps f.seating))
    | .setArchivalResults sheet =>
      f.state = .finished → WonBy f.uids (gameWins f.seating) sheet.winner
    | _ => True

instance (t : Tournament) (i : EventInput) : Decidable (KeepsWin t i) := by
  unfold KeepsWin
  generalize i.event = e
  generalize t.finals = finals
  induction finals using Option.casesOn with
  | none => exact inferInstance
  | some f => induction e using TournamentEvent.casesOn <;> infer_instance

/-! ### Scoring the finals -/

section Scoring

theorem mem_zipIdx {α : Type} {xs : List α} {x : α × ℕ} : x ∈ xs.zipIdx ↔ xs[x.2]? = some x.1 :=
  List.mem_zipIdx_iff_getElem?

theorem wonAt_iff {gws : List ℚ} {k : ℕ} :
    WonAt gws k ↔ ∀ j g, gws[j]? = some g → g = if j = k then 1 else 0 := by
  constructor
  · exact fun h j g hj => h (g, j) (mem_zipIdx.2 hj)
  · exact fun h w hw => h w.2 w.1 (mem_zipIdx.1 hw)

theorem WonAt.atMostOne {gws : List ℚ} {k : ℕ} (h : WonAt gws k) : AtMostOneWin gws := by
  have hat : ∀ w ∈ gws.zipIdx, w.1 = 1 → w.2 = k := by
    intro w hw h1
    by_contra hne
    have := h w hw
    rw [if_neg hne, h1] at this
    exact one_ne_zero this
  exact fun w hw o ho h1 h2 => (hat w hw h1).trans (hat o ho h2).symm

theorem wonBy_iff {uids : List Uid} {gws : List ℚ} {uid : Uid} :
    WonBy uids gws uid ↔ ∃ k, uids[k]? = some uid ∧ WonAt gws k := by
  constructor
  · rintro ⟨u, hu, rfl, hwon⟩
    exact ⟨u.2, mem_zipIdx.1 hu, hwon⟩
  · rintro ⟨k, hk, hwon⟩
    exact ⟨(uid, k), mem_zipIdx.2 hk, rfl, hwon⟩

theorem bestInFinals_lt (best : ℕ) (key : ℚ × ℕ) (i : ℕ) (rest : List (ℚ × ℕ)) (h : best < i) :
    bestInFinals best key i rest < i + rest.length := by
  induction rest generalizing best key i with
  | nil => simpa [bestInFinals] using h
  | cons k rest ih =>
    rw [bestInFinals, List.length_cons]
    split
    · have := ih i k (i + 1) (by omega)
      omega
    · have := ih best key (i + 1) (by omega)
      omega

theorem bestFinalsSeat_lt {vps adjustments : List ℚ} {uids seedOrder : List Uid}
    (h : vps ≠ []) : bestFinalsSeat vps adjustments uids seedOrder < vps.length := by
  unfold bestFinalsSeat
  split
  · exact List.length_pos_iff.2 h
  · rename_i k rest heq
    have hlt := bestInFinals_lt 0 k 1 rest Nat.one_pos
    have hlen := congrArg List.length heq
    simp only [adjustedVps, List.length_zip, List.length_zipWith, List.length_cons] at hlen
    omega

variable {t : Tournament} {f : FinalsTable} {sanctions : List Sanction}

theorem scoreFinals_fst :
    (scoreFinals t sanctions f).1 = (List.range f.seating.length).map fun i =>
      if i = finalsBest t sanctions f (seatVps f.seating) then 1 else 0 := by
  have hlen : (seatVps f.seating).length = f.seating.length := List.length_map _
  rw [scoreFinals, scoreTable, ← hlen]
  rfl

theorem finalsBest_lt (h : f.seating ≠ []) {vps : List ℚ} (hv : vps.length = f.seating.length) :
    finalsBest t sanctions f vps < f.seating.length := by
  rw [← hv]
  refine bestFinalsSeat_lt fun hnil => h ?_
  rw [hnil, List.length_nil] at hv
  exact List.length_eq_zero_iff.1 hv.symm

theorem findIdx?_indicator {n k : ℕ} (h : k < n) :
    ((List.range n).map fun i => if i = k then (1 : ℚ) else 0).findIdx? (fun g => g == 1) =
      some k := by
  rw [List.findIdx?_eq_some_iff_getElem]
  refine ⟨by simpa using h, by simp, fun j hj => ?_⟩
  have hne : j ≠ k := by omega
  simp [hne]

theorem gameWinUid_scoreFinals (t : Tournament) (sanctions : List Sanction) (h : f.seating ≠ []) :
    ∃ uid, f.uids[finalsBest t sanctions f (seatVps f.seating)]? = some uid ∧
      gameWinUid f.seating (scoreFinals t sanctions f).1 = some uid := by
  have hlt : finalsBest t sanctions f (seatVps f.seating) < f.seating.length :=
    finalsBest_lt h (by simp [seatVps])
  refine ⟨f.seating[finalsBest t sanctions f (seatVps f.seating)].playerUid, ?_, ?_⟩
  · simp [FinalsTable.uids, hlt]
  · rw [gameWinUid, scoreFinals_fst, findIdx?_indicator hlt]
    simp [hlt]

theorem gameWins_refreshSeats (seating : List Seat) (gws tps : List ℚ) :
    gameWins (refreshSeats seating gws tps) =
      seating.zipIdx.map fun si => (gws[si.2]?).getD 0 := by
  rw [gameWins, refreshSeats, List.map_map]
  rfl

theorem wonAt_rescored (t : Tournament) (f : FinalsTable) (sanctions : List Sanction) :
    WonAt (gameWins (refreshSeats f.seating (scoreFinals t sanctions f).1
      (scoreFinals t sanctions f).2)) (finalsBest t sanctions f (seatVps f.seating)) := by
  rw [gameWins_refreshSeats, scoreFinals_fst, wonAt_iff]
  intro j g hj
  rw [List.getElem?_map, List.getElem?_zipIdx] at hj
  cases hs : f.seating[j]? with
  | none => simp [hs] at hj
  | some s =>
    have hlt : j < f.seating.length := (List.getElem?_eq_some_iff.1 hs).1
    simpa [hs, hlt] using hj.symm

end Scoring

/-! ### The refresh -/

section Refresh

variable {t : Tournament} {f : FinalsTable} {s : List Sanction}

theorem updateStandings_eq_refreshFinals (hr : t.rounds ≠ []) :
    ∃ u : Tournament, updateStandings t s = refreshFinalsScoring u s ∧ u.finals = t.finals ∧
      u.winner = t.winner := by
  have hne : (refreshRoundScoring t s).rounds.isEmpty = false := by
    simpa [refreshRoundScoring] using hr
  unfold updateStandings
  extract_lets refreshed
  rw [if_neg (by simp [refreshed, hne])]
  exact ⟨_, rfl, rfl, rfl⟩

theorem updateStandings_finals_kept (hf : t.finals = some f)
    (h : t.rounds = [] ∨ f.state ≠ .finished) :
    (updateStandings t s).finals = some f ∧ (updateStandings t s).winner = t.winner := by
  by_cases hr : t.rounds = []
  · obtain ⟨hfinals, hwinner⟩ := updateStandings_finals_of_nil (s := s) hr
    exact ⟨hfinals.trans hf, hwinner⟩
  · obtain ⟨u, hu, hfinals, hwinner⟩ := updateStandings_eq_refreshFinals (s := s) hr
    have hfu : u.finals = some f := hfinals.trans hf
    rw [hu, refreshFinalsScoring, hfu]
    simp only [h.resolve_left hr, if_false]
    exact ⟨hfu, hwinner⟩

theorem updateStandings_finals_rescored (hr : t.rounds ≠ []) (hf : t.finals = some f)
    (hdone : f.state = .finished) :
    ∃ u : Tournament,
      (updateStandings t s).finals =
        some { f with
          seating := refreshSeats f.seating (scoreFinals u s f).1 (scoreFinals u s f).2 } ∧
      (updateStandings t s).winner =
        if t.winner = "" then t.winner
        else (gameWinUid f.seating (scoreFinals u s f).1).getD t.winner := by
  obtain ⟨u, hu, hfinals, hwinner⟩ := updateStandings_eq_refreshFinals (s := s) hr
  refine ⟨u, ?_⟩
  rw [hu, refreshFinalsScoring, hfinals.trans hf]
  simp only [hdone, if_true, hwinner]
  exact ⟨trivial, trivial⟩

/-- The finals are seated and their game wins fit: what the run keeps. -/
structure FinalsCrowned (t : Tournament) : Prop extends FinalsWin t where
  seated : ∀ f, t.finals = some f → f.seating ≠ []

theorem FinalsCrowned.of_none (h : t.finals = none) : FinalsCrowned t := by
  refine ⟨⟨fun f hf => ?_, fun f hf => ?_⟩, fun f hf => ?_⟩ <;> simp [h] at hf

theorem FinalsCrowned.refresh (hf : t.finals = some f) (hseated : f.seating ≠ [])
    (h : (t.rounds ≠ [] ∧ f.state = .finished) ∨
      (AtMostOneWin (gameWins f.seating) ∧
        (f.state = .finished → t.winner ≠ "" →
          WonBy f.uids (gameWins f.seating) t.winner))) :
    FinalsCrowned (updateStandings t s) := by
  by_cases hre : t.rounds ≠ [] ∧ f.state = .finished
  · obtain ⟨t', hfinals, hwinner⟩ := updateStandings_finals_rescored (s := s) hre.1 hf hre.2
    have hwon := wonAt_rescored t' f s
    refine ⟨⟨fun g hg => ?_, fun g hg _ hne => ?_⟩, fun g hg => ?_⟩ <;>
      obtain rfl := Option.some.inj (hfinals.symm.trans hg)
    · exact hwon.atMostOne
    · obtain ⟨uid, huid, hwin⟩ := gameWinUid_scoreFinals t' s hseated
      have hnamed : t.winner ≠ "" := by
        intro hnil
        simp [hwinner, hnil] at hne
      rw [if_neg hnamed, hwin, Option.getD_some] at hwinner
      rw [hwinner, wonBy_iff]
      refine ⟨_, ?_, hwon⟩
      simpa [FinalsTable.uids] using huid
    · intro hnil
      apply hseated
      simpa [refreshSeats] using hnil
  · have hkept : t.rounds = [] ∨ f.state ≠ .finished := by
      by_contra hno
      exact hre (not_or.1 hno |>.imp_right not_not.1)
    obtain ⟨hfinals, hwinner⟩ := updateStandings_finals_kept (s := s) hf hkept
    obtain ⟨hone, hwon⟩ := h.resolve_left hre
    refine ⟨⟨fun g hg => ?_, fun g hg hdone hne => ?_⟩, fun g hg => ?_⟩ <;>
      obtain rfl := Option.some.inj (hfinals.symm.trans hg)
    · exact hone
    · rw [hwinner] at hne ⊢
      exact hwon hdone hne
    · exact hseated

theorem FinalsCrowned.keep {t' : Tournament} (h : FinalsCrowned t) (hfinals : t'.finals = t.finals)
    (hwinner : t'.winner = t.winner) : FinalsCrowned t' where
  one f hf := h.one f (hfinals ▸ hf)
  winner f hf hdone hne := by
    rw [hwinner] at hne ⊢
    exact h.winner f (hfinals ▸ hf) hdone hne
  seated f hf := h.seated f (hfinals ▸ hf)

theorem FinalsCrowned.update (h : FinalsCrowned t) : FinalsCrowned (updateStandings t s) := by
  cases hf : t.finals with
  | none => exact .of_none ((updateStandings_finals_eq_none t s).2 hf)
  | some f => exact .refresh hf (h.seated f hf) (.inr ⟨h.one f hf, h.winner f hf⟩)

end Refresh

/-! ### One event -/

section Step

variable {rs : RandomSource} {t t' : Tournament} {f : FinalsTable} {i : EventInput}
  {s : List Sanction}

theorem gameWins_writeScores {actor : ActorContext} {scores : List SeatScore} {best : ℕ}
    {tps : List ℚ} (seating : List Seat) :
    gameWins (writeScores actor seating scores
        ((List.range seating.length).map fun i => if i = best then 1 else 0, tps)) =
      seating.zipIdx.map fun si =>
        if reportedVp scores si.1.playerUid = none then si.1.result.gw
        else if si.2 = best then 1 else 0 := by
  unfold gameWins writeScores
  extract_lets stamps
  rw [List.map_map]
  refine List.map_congr_left fun si hsi => ?_
  have hlt : si.2 < seating.length := (List.getElem?_eq_some_iff.1 (mem_zipIdx.1 hsi)).1
  simp only [Function.comp_apply]
  split
  · rename_i vp hvp
    simp [hvp, hlt]
  · rename_i hvp
    simp [hvp]

theorem gameWins_report {written : List Seat × TableState} {scores : List SeatScore}
    (hw : reportTable t i.actor s t.rounds.length f.seating f.state f.override
      (some f.seedOrder) scores = .ok written) :
    gameWins written.1 = f.seating.zipIdx.map fun si =>
      if reportedVp scores si.1.playerUid = none then si.1.result.gw
      else if si.2 = finalsBest t s f (mergedVps f.seating scores) then 1 else 0 := by
  have hlen : (mergedVps f.seating scores).length = f.seating.length := List.length_map _
  rw [(reportTable_ok hw).1, scoreTable]
  simp only [computeGwFinals, hlen]
  exact gameWins_writeScores f.seating

theorem FinalsCrowned.report (h : FinalsCrowned t) (hf : t.finals = some f)
    {written : List Seat × TableState} {scores : List SeatScore}
    (hw : reportTable t i.actor s t.rounds.length f.seating f.state f.override
      (some f.seedOrder) scores = .ok written) (hok : ReportKeepsWin t s f scores) :
    FinalsCrowned (updateStandings
      { t with finals := some { f with seating := written.1, state := written.2 } } s) := by
  have huids : written.1.map Seat.playerUid = f.uids := reportTable_uids hw
  have hfin : written.2 = .finished ↔ ReportFinishes f scores := by
    rw [(reportTable_ok hw).2, ReportFinishes]
  have hgws := gameWins_report hw
  have hat : ∀ k g, (gameWins written.1)[k]? = some g → ∃ o, f.seating[k]? = some o ∧
      g = if reportedVp scores o.playerUid = none then o.result.gw
        else if k = finalsBest t s f (mergedVps f.seating scores) then 1 else 0 := by
    intro k g hk
    rw [hgws, List.getElem?_map, List.getElem?_zipIdx] at hk
    cases ho : f.seating[k]? with
    | none => simp [ho] at hk
    | some o => exact ⟨o, rfl, by simpa [ho] using hk.symm⟩
  refine .refresh rfl ?_ (hok.imp (fun hok => ⟨hok.1, hfin.2 hok.2⟩) fun hok => ⟨?_, ?_⟩)
  · intro hnil
    have huids' := huids
    simp only at hnil
    rw [hnil, List.map_nil, FinalsTable.uids, eq_comm, List.map_eq_nil_iff] at huids'
    exact h.seated f hf huids'
  · -- two game wins: both written, one written and one left, or both left
    intro w hw1 o ho hg hg'
    obtain ⟨w', hseat, hval⟩ := hat w.2 w.1 (mem_zipIdx.1 hw1)
    obtain ⟨o', hseat', hval'⟩ := hat o.2 o.1 (mem_zipIdx.1 ho)
    rw [hg] at hval
    rw [hg'] at hval'
    have hstale : ∀ a b : Seat, ∀ k : ℕ, f.seating[k]? = some a → b ∈ f.seating →
        reportedVp scores a.playerUid ≠ none → reportedVp scores b.playerUid = none →
          1 = (if k = finalsBest t s f (mergedVps f.seating scores) then (1 : ℚ) else 0) →
            b.result.gw ≠ 1 := by
      intro a b k ha hb hrep hnot hone
      refine hok.1 (a, k) (mem_zipIdx.2 ha) ?_ hrep b hb hnot
      by_contra hne
      rw [if_neg hne] at hone
      exact one_ne_zero hone
    by_cases hrep : reportedVp scores w'.playerUid = none
    · rw [if_pos hrep] at hval
      by_cases hrep' : reportedVp scores o'.playerUid = none
      · rw [if_pos hrep'] at hval'
        refine h.one f hf (w'.result.gw, w.2) (mem_zipIdx.2 ?_) (o'.result.gw, o.2)
          (mem_zipIdx.2 ?_) hval.symm hval'.symm
        · simp [gameWins, hseat]
        · simp [gameWins, hseat']
      · rw [if_neg hrep'] at hval'
        exact absurd hval.symm
          (hstale o' w' o.2 hseat' (List.mem_of_getElem? hseat) hrep' hrep hval')
    · rw [if_neg hrep] at hval
      by_cases hrep' : reportedVp scores o'.playerUid = none
      · rw [if_pos hrep'] at hval'
        exact absurd hval'.symm
          (hstale w' o' w.2 hseat (List.mem_of_getElem? hseat') hrep hrep' hval)
      · rw [if_neg hrep'] at hval'
        by_contra hne
        grind
  · intro hdone hne
    obtain ⟨w, hw1, hwin, hall⟩ := hok.2 (hfin.1 hdone) hne
    have hseatw := mem_zipIdx.1 hw1
    rw [wonBy_iff]
    refine ⟨w.2, ?_, wonAt_iff.2 fun k g hk => ?_⟩
    · change (written.1.map Seat.playerUid)[w.2]? = some t.winner
      rw [huids, FinalsTable.uids, List.getElem?_map, hseatw, ← hwin]
      rfl
    · obtain ⟨o, ho, hval⟩ := hat k g hk
      have hfits := hall (o, k) (mem_zipIdx.2 ho)
      simp only at hfits
      split at hfits
      · rename_i hrep
        rw [hval, if_pos hrep, hfits]
      · rename_i hrep
        rw [hval, if_neg hrep]
        simp only [hfits]

theorem uids_swapFinals (f : FinalsTable) (a b : ℕ) :
    [(swapFinals f a b).uids] = swapAt [f.uids] 0 a 0 b := by
  obtain ⟨seats, hs⟩ := List.length_eq_one_iff.1 (length_swapPlayers [f.seating] 0 a 0 b)
  have hmap := map_playerUid_swapPlayers [f.seating] 0 a 0 b
  rw [hs] at hmap
  simpa [swapFinals, hs, FinalsTable.uids] using hmap

theorem getElem?_uids_swapFinals {a b k : ℕ} (h : a = b ∨ (k ≠ a ∧ k ≠ b)) :
    (swapFinals f a b).uids[k]? = f.uids[k]? := by
  have hat : ∀ xs : List Uid, getAt [xs] 0 k = xs[k]? := fun _ => rfl
  rw [← hat, uids_swapFinals, ← hat]
  rcases h with rfl | ⟨ha, hb⟩
  · exact getAt_swapAt_self _ _ _ _ _
  · exact getAt_swapAt_of_ne (fun h => ha h.2.symm) fun h => hb h.2.symm

theorem gameWins_of_results {seating seating' : List Seat}
    (h : seating'.map Seat.result = seating.map Seat.result) :
    gameWins seating' = gameWins seating := by
  have hmap : ∀ xs : List Seat, gameWins xs = (xs.map Seat.result).map Score.gw := fun xs => by
    rw [gameWins, List.map_map]
    rfl
  rw [hmap, h, ← hmap]

theorem ne_nil_of_results {seating seating' : List Seat}
    (h : seating'.map Seat.result = seating.map Seat.result) (hne : seating ≠ []) :
    seating' ≠ [] := by
  rintro rfl
  exact hne (List.map_eq_nil_iff.1 h.symm)

theorem FinalsCrowned.move (h : FinalsCrowned t) (hf : t.finals = some f) {g : FinalsTable}
    (hstate : g.state = f.state) (hres : g.seating.map Seat.result = f.seating.map Seat.result)
    (hwin : t.rounds = [] → t.winner ≠ "" → f.state = .finished →
      ∀ k, f.uids[k]? = some t.winner → WonAt (gameWins f.seating) k →
        g.uids[k]? = some t.winner) :
    FinalsCrowned (updateStandings { t with finals := some g } s) := by
  refine .refresh rfl (ne_nil_of_results hres (h.seated f hf)) ?_
  by_cases hre : t.rounds ≠ [] ∧ f.state = .finished
  · exact .inl ⟨hre.1, hstate.trans hre.2⟩
  · refine .inr ⟨?_, fun hdone hne => ?_⟩
    · rw [gameWins_of_results hres]
      exact h.one f hf
    · have hdone' := hstate.symm.trans hdone
      have hnil : t.rounds = [] := by
        by_contra hr
        exact hre ⟨hr, hdone'⟩
      obtain ⟨k, hk, hwon⟩ := wonBy_iff.1 (h.winner f hf hdone' hne)
      rw [wonBy_iff, gameWins_of_results hres]
      exact ⟨k, hwin hnil hne hdone' k hk hwon, hwon⟩

theorem WonAt.getElem {seating : List Seat} {k : ℕ} {o : Seat} (h : WonAt (gameWins seating) k)
    (ho : seating[k]? = some o) : o.result.gw = 1 := by
  have := wonAt_iff.1 h k o.result.gw (by simp [gameWins, ho])
  simpa using this

theorem exists_seat_of_uids {k : ℕ} {uid : Uid} (h : f.uids[k]? = some uid) :
    ∃ o, f.seating[k]? = some o ∧ o.playerUid = uid := by
  rw [FinalsTable.uids, List.getElem?_map, Option.map_eq_some_iff] at h
  exact h

theorem FinalsCrowned.swap (h : FinalsCrowned t) (hf : t.finals = some f) {a b : ℕ}
    (hok : t.rounds = [] → t.winner ≠ "" → f.state = .finished →
      a = b ∨ ∀ w ∈ (gameWins f.seating).zipIdx, w.2 = a ∨ w.2 = b → w.1 ≠ 1) :
    FinalsCrowned (updateStandings { t with finals := some (swapFinals f a b) } s) := by
  refine h.move hf rfl (swapFinals_results f a b) fun hnil hne hdone k hk hwon => ?_
  rw [getElem?_uids_swapFinals]
  · exact hk
  · refine (hok hnil hne hdone).imp_right fun hclear => ?_
    obtain ⟨o, ho, -⟩ := exists_seat_of_uids hk
    have hmem : ((1 : ℚ), k) ∈ (gameWins f.seating).zipIdx := by
      rw [mem_zipIdx]
      simp [gameWins, ho, hwon.getElem ho]
    exact ⟨fun hka => hclear _ hmem (.inl hka) rfl, fun hkb => hclear _ hmem (.inr hkb) rfl⟩

theorem FinalsCrowned.reseat (h : FinalsCrowned t) (hf : t.finals = some f) {uids : List Uid}
    (hlen : uids.length = f.seating.length)
    (hok : t.rounds = [] → t.winner ≠ "" → f.state = .finished →
      ∀ w ∈ f.seating.zipIdx, w.1.result.gw = 1 → uids[w.2]? = some w.1.playerUid) :
    FinalsCrowned (updateStandings { t with finals := some (reseatFinals f uids) } s) := by
  refine h.move hf rfl (reseatFinals_results hlen) fun hnil hne hdone k hk hwon => ?_
  obtain ⟨o, ho, huid⟩ := exists_seat_of_uids hk
  have huids : (reseatFinals f uids).uids = uids := reseatFinals_uids hlen
  rw [huids, ← huid]
  exact hok hnil hne hdone (o, k) (mem_zipIdx.2 ho) (hwon.getElem ho)

theorem FinalsCrowned.judge (h : FinalsCrowned t) (hf : t.finals = some f) {g : FinalsTable}
    (hseating : g.seating = f.seating)
    (hok : g.state = .finished → t.rounds = [] → t.winner ≠ "" →
      WonBy f.uids (gameWins f.seating) t.winner) :
    FinalsCrowned (updateStandings { t with finals := some g } s) := by
  refine .refresh rfl (by simpa [hseating] using h.seated f hf) ?_
  rw [FinalsTable.uids, hseating]
  by_cases hr : t.rounds = []
  · exact .inr ⟨h.one f hf, fun hdone hne => hok hdone hr hne⟩
  · by_cases hdone : g.state = .finished
    · exact .inl ⟨hr, hdone⟩
    · exact .inr ⟨h.one f hf, fun hdone' => absurd hdone' hdone⟩

theorem FinalsCrowned.finish (h : FinalsCrowned t) (hf : t.finals = some f)
    (hdone : f.state = .finished)
    (hok : t.rounds = [] →
      WonAt (gameWins f.seating) (finalsBest t s f (seatVps f.seating))) :
    FinalsCrowned (updateStandings (finishFinalsDoc t s f) s) := by
  refine .refresh hf (h.seated f hf) ?_
  by_cases hr : t.rounds = []
  · refine .inr ⟨h.one f hf, fun _ _ => ?_⟩
    obtain ⟨uid, huid, hwin⟩ := gameWinUid_scoreFinals t s (h.seated f hf)
    rw [wonBy_iff]
    refine ⟨_, ?_, hok hr⟩
    simpa [finishFinalsDoc, hwin] using huid
  · exact .inl ⟨hr, hdone⟩

theorem finalsCrowned_startFinals {uids : List Uid} (h : uids ≠ []) :
    FinalsCrowned (startFinalsDoc t uids) := by
  refine ⟨⟨fun f hf => ?_, fun f hf => ?_⟩, fun f hf => ?_⟩ <;>
    obtain rfl := Option.some.inj hf
  · intro w hw o _ hg
    have hzero := mem_zipIdx.1 hw
    rw [hg] at hzero
    simp [gameWins, FinalsTable.fresh, Seat.fresh, Score.zero] at hzero
  · intro hdone
    simp [FinalsTable.fresh] at hdone
  · simpa [FinalsTable.fresh] using h

theorem qualifiers_ne_nil (h : 5 ≤ (finalsPool t s).length) : qualifiers t s ≠ [] := by
  intro hnil
  have := congrArg List.length hnil
  simp only [qualifiers, List.length_map, List.length_take, List.length_nil] at this
  omega

theorem FinalsCrowned.step (h : FinalsCrowned t) (hok : KeepsWin t i) (heff : Effect rs t i t') :
    FinalsCrowned t' := by
  cases heff with
  | quiet _ hq => exact h.keep hq.finals hq.winner
  | openRegistration | closeRegistration | cancelRegistration | reopenRegistration | register
  | addPlayer | leave | dropOut | checkIn | checkOut | checkInAll | resetCheckIn | setWaitlisted
  | startRound | selfOrganizeRound | addTable | removeTable | setToss | randomToss =>
    exact h.keep rfl rfl
  | setNonCompeting | finishRound | cancelRound | restoreRound | swapRound | seatPlayer
  | unseatPlayer | scoreTable | overrideTable | unoverrideTable | finishTournament
  | reopenTournament =>
    refine FinalsCrowned.update (h.keep ?_ ?_) <;> rfl
  | reseatRound round seating tables =>
    refine FinalsCrowned.update (h.keep (alterSeatingDoc_finals _ _ _ _ _) ?_)
    unfold alterSeatingDoc
    extract_lets reseated
    split <;> rfl
  | swapFinals round t1 s1 t2 s2 f he _ _ hf =>
    simp only [KeepsWin, hf, he] at hok
    exact h.swap hf hok
  | reseatFinals round seating f he _ _ _ hf _ hlen =>
    simp only [KeepsWin, hf, he] at hok
    exact h.reseat hf hlen hok
  | scoreFinals round table scores f written he _ hround htable hf hw =>
    simp only [KeepsWin, hf, he] at hok
    exact h.report hf hw (hok (by simp [isFinalsTable, isFinalsRound, hround, htable, hf]))
  | overrideFinals round table comment f he _ hround htable hf =>
    simp only [KeepsWin, hf, he] at hok
    exact h.judge hf rfl
      fun _ => hok (by simp [isFinalsTable, isFinalsRound, hround, htable, hf])
  | unoverrideFinals round table f he _ hround htable hf =>
    simp only [KeepsWin, hf, he] at hok
    exact h.judge hf rfl fun hdone hr hne =>
      hok (by simp [isFinalsTable, isFinalsRound, hround, htable, hf]) hr hne hdone
  | startFinals _ _ _ _ hpool => exact finalsCrowned_startFinals (qualifiers_ne_nil hpool)
  | finishFinals f he _ hf hdone =>
    simp only [KeepsWin, hf, he] at hok
    exact h.finish hf hdone hok
  | cancelFinals => exact .of_none ((updateStandings_finals_eq_none _ _).2 rfl)
  | archival sheet he =>
    refine ⟨⟨h.one, fun f hf hdone _ => ?_⟩, h.seated⟩
    have hf' : t.finals = some f := hf
    simp only [KeepsWin, hf', he] at hok
    exact hok hdone

/-- In every run whose events meet the condition, at most one finals seat stores a game win, and on
a finished finals table with a winner it is the winner's alone. -/
theorem finalsWin_of_reaches (h : (engineSystem rs).Reaches KeepsWin t) : FinalsWin t := by
  refine FinalsCrowned.toFinalsWin (h.invariant (fun t ht => ?_)
    fun t i t' hp hok hs => hp.step hok (effect_of_acceptEvent hs))
  obtain ⟨request, actor, ht⟩ := ht
  rw [createTournament_eq ht]
  exact .of_none rfl

end Step

/-! ### Two finalists with a game win -/

/-- The finals reported whole and finished. -/
def finalsReported : List TournamentEvent :=
  intoFinals ++ [.setScore 2 0 [⟨"a", 0⟩, ⟨"b", 0⟩, ⟨"d", 0⟩, ⟨"e", 0⟩, ⟨"c", 5⟩], .finishFinals]

theorem finalsScored_finalsWin :
    ∃ t, (t.finals.isSome = true ∧ t.winner = "c") ∧ FinalsWin t := by
  obtain ⟨t, ht, hp⟩ := exists_reaches_of_replay KeepsWin (finalsReported.map sent)
    (fun t => t.finals.isSome && t.winner == "c") (by decide +kernel)
  exact ⟨t, by simpa using hp, finalsWin_of_reaches ht⟩

/-- One finalist is reported as leading, then another as having more. -/
def finalsReportedTwice : List TournamentEvent :=
  intoFinals ++ [.setScore 2 0 [⟨"a", 1⟩], .setScore 2 0 [⟨"b", 2⟩]]

/-- Both store a game win. -/
theorem finalsReportedTwice_not_finalsWin :
    ∃ t, (engineSystem fixedOrder).Reachable t ∧ ¬FinalsWin t := by
  obtain ⟨t, ht, hp⟩ := exists_reaches_of_replay anyEvent (finalsReportedTwice.map sent)
    (fun t => t.finals.any fun f => decide (gameWins f.seating = [1, 1, 0, 0, 0]))
    (by decide +kernel)
  obtain ⟨f, hf, hp⟩ := (Option.any_eq_true _ _).1 hp
  refine ⟨t, ht, fun h => ?_⟩
  have hone := h.one f hf
  rw [of_decide_eq_true hp] at hone
  exact absurd (hone (1, 0) (by decide) (1, 1) (by decide) rfl rfl) (by decide)

end Archon.Engine

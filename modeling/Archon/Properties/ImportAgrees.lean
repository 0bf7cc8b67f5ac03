import Archon.Properties.FinalRanking
import Archon.Properties.ImportedSheets
import Archon.Properties.RatingAgrees
import Archon.Properties.Reopened
import Archon.Properties.ScoringLaws
import Archon.Library.SortedView

/-!
# An imported sheet, scored again by the engine

The importer scores every table itself and adds the totals up; any later action lets the engine
score the stored rounds again. The two agree on every seat, on the rows of the players who played
and on the winner as long as the final holds numbers: a point that is none is stored as a null, and
the engine reads it as zero.
-/

namespace Archon.Backend
open Engine

/-! ### The engine on numbers -/

section Numbers

theorem adjustedVps_zero (qs : List ℚ) : adjustedVps qs (List.replicate qs.length 0) = qs := by
  induction qs with
  | nil => rfl
  | cons q qs ih =>
    rw [adjustedVps] at ih
    rw [adjustedVps, List.length_cons, List.replicate_succ, List.zipWith_cons_cons, ih, add_zero]

theorem bestInFloat_num (best : ℕ) (q : ℚ) (seed i : ℕ) (keys : List (ℚ × ℕ)) :
    bestInFloat best (.num q, seed) i (keys.map fun k => (.num k.1, k.2)) =
      bestInFinals best (q, seed) i keys := by
  induction keys generalizing best q seed i with
  | nil => rfl
  | cons k keys ih =>
    have hbeats : beatsInFloat (.num k.1, k.2) (.num q, seed) = beatsInFinals k (q, seed) := rfl
    rw [List.map_cons, bestInFloat, bestInFinals, hbeats, ih, ih]

theorem floatGwFinals_num (qs : List ℚ) (uids seedOrder : List Uid) :
    floatGwFinals (qs.map FloatValue.num) uids seedOrder =
      computeGwFinals qs (List.replicate qs.length 0) uids seedOrder := by
  have hkeys : (qs.map FloatValue.num).zip (uids.map (seedPosition seedOrder)) =
      (qs.zip (uids.map (seedPosition seedOrder))).map fun k => (FloatValue.num k.1, k.2) := by
    rw [List.zip_map_left]
    rfl
  rw [floatGwFinals, computeGwFinals, bestFinalsSeat, adjustedVps_zero, List.length_map, hkeys]
  cases qs.zip (uids.map (seedPosition seedOrder)) with
  | nil => rfl
  | cons k rest => simp only [List.map_cons, bestInFloat_num]

theorem splitBy_map {α β : Type*} (f : α → β) (r : β → β → Bool) (l : List α) :
    (l.map f).splitBy r = (l.splitBy fun a b => r (f a) (f b)).map (List.map f) := by
  have key : ∀ (l : List α) (a : α) (g : List α) (gs : List (List α)),
      List.splitBy.loop r (l.map f) (f a) (g.map f) (gs.map (List.map f)) =
        (List.splitBy.loop (fun a b => r (f a) (f b)) l a g gs).map (List.map f) := by
    intro l
    induction l with
    | nil => simp [List.splitBy.loop]
    | cons b l ih =>
      intro a g gs
      rw [List.map_cons, List.splitBy.loop, List.splitBy.loop]
      cases r (f a) (f b) with
      | true => exact ih b (a :: g) gs
      | false =>
        have hgroup : (f a :: g.map f).reverse = (a :: g).reverse.map f := by simp
        dsimp only
        rw [hgroup]
        exact ih b [] ((a :: g).reverse :: gs)
  cases l with
  | nil => rfl
  | cons a l => exact key l a [] []

theorem floatTp_num (qs : List ℚ) :
    floatTp (qs.map FloatValue.num) = computeTp qs.length qs (List.replicate qs.length 0) := by
  have hranked : ((qs.map FloatValue.num).zipIdx.map fun vi => (vi.2, vi.1)).insertionSort
      (fun a b => a.2.below b.2 = false) =
      ((qs.zipIdx.map fun ai => (ai.2, ai.1)).insertionSort fun a b => b.2 ≤ a.2).map
        fun iv => (iv.1, FloatValue.num iv.2) := by
    rw [List.map_insertionSort (fun a b : ℕ × ℚ => b.2 ≤ a.2)
      (fun a b : ℕ × FloatValue => a.2.below b.2 = false) _ _ fun a _ b _ => by simp]
    simp [List.zipIdx_map, Function.comp_def]
  unfold floatTp computeTp
  extract_lets n ranked groups awarded adjusted ranked' awarded'
  have hgroups : groups = ranked'.splitBy fun a b => a.2 == b.2 := by
    have hsame : (fun a b : ℕ × ℚ => FloatValue.same (.num a.2) (.num b.2)) =
        fun a b => a.2 == b.2 := by
      funext a b
      exact (beq_eq_decide a.2 b.2).symm
    have hadjusted : ranked' =
        (qs.zipIdx.map fun ai => (ai.2, ai.1)).insertionSort fun a b => b.2 ≤ a.2 := by
      simp only [ranked', adjusted, adjustedVps_zero]
    simp only [groups, ranked, hranked, ← hadjusted, splitBy_map, hsame, List.map_map]
    simp [Function.comp_def]
  have hn : n = qs.length := List.length_map _
  simp only [awarded, awarded', hgroups, hn, List.map_map]
  rfl

end Numbers

/-! ### Whole figures -/

section Whole

/-- `int` changes nothing. -/
def Whole (q : ℚ) : Prop := ∃ z : ℤ, q = z

theorem Whole.truncate {q : ℚ} (h : Whole q) : ((truncate q : ℤ) : ℚ) = q := by
  obtain ⟨z, rfl⟩ := h
  rw [truncate_intCast]

theorem whole_getD {xs : List ℚ} (h : ∀ x ∈ xs, Whole x) (i : ℕ) : Whole ((xs[i]?).getD 0) := by
  cases hx : xs[i]? with
  | none => exact ⟨0, by simp⟩
  | some x => exact h x (List.mem_of_getElem? hx)

theorem whole_indicator {c : Prop} [Decidable c] : Whole (if c then 1 else 0) := by
  split
  · exact ⟨1, by simp⟩
  · exact ⟨0, by simp⟩

theorem whole_computeGw (vps adjustments : List ℚ) : ∀ g ∈ computeGw vps adjustments, Whole g := by
  intro g hg
  unfold computeGw at hg
  extract_lets adjusted at hg
  split at hg
  · cases hg
  · obtain ⟨v, -, rfl⟩ := List.mem_map.1 hg
    exact whole_indicator

theorem whole_share {n place count : ℕ} (hn : n = 4 ∨ n = 5) (h : place + count ≤ n) :
    Whole (TieShares.share (baseTp n) place count) := by
  have hden : ∀ place ∈ List.range 6, ∀ count ∈ List.range 6, place + count ≤ n →
      (TieShares.share (baseTp n) place count).den = 1 := by
    rcases hn with rfl | rfl <;> decide +kernel
  have hone := hden place (List.mem_range.2 (by omega)) count (List.mem_range.2 (by omega)) h
  exact ⟨_, (Rat.den_eq_one_iff _).1 hone |>.symm⟩

theorem whole_computeTp {n : ℕ} (hn : n = 4 ∨ n = 5) {vps : List ℚ} (hvps : vps.length = n) :
    ∀ x ∈ computeTp n vps (List.replicate n 0), Whole x := by
  intro x hx
  have hzero : adjustedVps vps (List.replicate n 0) = vps := hvps ▸ adjustedVps_zero vps
  rw [computeTp_eq hn hvps List.length_replicate, hzero] at hx
  obtain ⟨v, -, rfl⟩ := List.mem_map.1 hx
  exact whole_share hn (hvps ▸ countP_above_level vps v)

end Whole

/-! ### Seats -/

section Seats

variable {users : String → Option Uid} {data : ArchonData} {actor : Uid} {r : ℕ}
variable {tb : ArchonRoundTable} {gws tps : List ℚ}

/-- Who holds which score, as the engine leaves it. -/
def seatScores (seating : List Seat) : List (Uid × ℚ × FloatValue × ℚ) :=
  seating.map fun s => (s.playerUid, s.result.gw, .num s.result.vp, s.result.tp)

/-- Who holds which score, as the importer writes it. -/
def BuiltTable.scores (b : BuiltTable) : List (Uid × ℚ × FloatValue × ℚ) :=
  b.seating.map fun s => (s.playerUid, (s.gw : ℚ), s.vp, (s.tp : ℚ))

theorem seatScores_refreshSeats (hgws : ∀ g ∈ gws, Whole g) (htps : ∀ x ∈ tps, Whole x)
    (hnums : ∀ v ∈ tb.vps, v.IsNum) :
    seatScores (refreshSeats ((scoreSeats users data tb gws tps).map BuiltSeat.stored) gws tps) =
      (scoreSeats users data tb gws tps).map fun s =>
        (s.playerUid, (s.gw : ℚ), s.vp, (s.tp : ℚ)) := by
  refine List.ext_getElem? fun i => ?_
  simp only [seatScores, refreshSeats, scoreSeats, List.getElem?_map, List.getElem?_zipIdx,
    Option.map_map, Nat.zero_add]
  cases hs : tb.seats[i]? with
  | none => rfl
  | some s =>
    have hnum : s.2.IsNum := hnums _ (List.mem_map_of_mem (List.mem_of_getElem? hs))
    simp only [Option.map_some, Function.comp_apply, BuiltSeat.stored, Seat.withGwTp,
      FloatValue.num_read hnum, (whole_getD hgws i).truncate, (whole_getD htps i).truncate]

theorem tableSaAdjustments_nil (seating : List Seat) :
    tableSaAdjustments seating r [] = List.replicate seating.length 0 := by
  rw [tableSaAdjustments, ← List.map_const']
  exact List.map_congr_left fun s _ => by simp

theorem length_vps : tb.vps.length = tb.seats.length := List.length_map _

theorem length_scoreSeats : (scoreSeats users data tb gws tps).length = tb.seats.length := by
  rw [scoreSeats, List.length_map, List.length_zipIdx]

theorem scoreSeats_getElem? {i : ℕ} {s : BuiltSeat}
    (h : (scoreSeats users data tb gws tps)[i]? = some s) :
    ∃ seat, tb.seats[i]? = some seat ∧ s = ⟨uidOf users data seat.1,
      truncate ((gws[i]?).getD 0), seat.2, truncate ((tps[i]?).getD 0)⟩ := by
  rw [scoreSeats, List.getElem?_map, List.getElem?_zipIdx, Option.map_map] at h
  obtain ⟨seat, hseat, rfl⟩ := Option.map_eq_some_iff.1 h
  refine ⟨seat, hseat, ?_⟩
  rw [Function.comp_apply, Nat.zero_add]

theorem scoreTable_stored :
    scoreTable (buildTable users data actor r tb).stored.seating
      (seatVps (buildTable users data actor r tb).stored.seating) r [] none =
      (computeGw (tb.vps.map FloatValue.read)
          (List.replicate (tb.vps.map FloatValue.read).length 0),
        computeTp (tb.vps.map FloatValue.read).length (tb.vps.map FloatValue.read)
          (List.replicate (tb.vps.map FloatValue.read).length 0)) := by
  have hseats : (buildTable users data actor r tb).stored.seating.length =
      (tb.vps.map FloatValue.read).length := by
    rw [BuiltTable.stored, List.length_map, List.length_map, length_vps]
    exact length_scoreSeats
  have hvps : seatVps (buildTable users data actor r tb).stored.seating =
      tb.vps.map FloatValue.read := by
    rw [BuiltTable.stored, seatVps_stored, buildTable, vps_scoreSeats]
  rw [scoreTable, tableSaAdjustments_nil, hseats, hvps]

theorem seatScores_refreshTable (hsize : tb.seats.length = 4 ∨ tb.seats.length = 5)
    (hnums : ∀ v ∈ tb.vps, v.IsNum) :
    seatScores (refreshTable [] r (buildTable users data actor r tb).stored).seating =
      (buildTable users data actor r tb).scores := by
  have hlength : (tb.vps.map FloatValue.read).length = tb.seats.length := by
    rw [List.length_map, length_vps]
  have hstate : (buildTable users data actor r tb).stored.state = .finished := rfl
  rw [refreshTable, if_neg (by rw [hstate]; decide), if_pos hstate]
  dsimp only
  rw [scoreTable_stored]
  exact seatScores_refreshSeats (whole_computeGw _ _)
    (whole_computeTp (hlength ▸ hsize) rfl) hnums

end Seats

/-! ### The final -/

section Final

variable {users : String → Option Uid} {data : ArchonData} {actor : Uid}
variable {f : ArchonRoundTable} {t : Tournament}

theorem scoreFinals_stored (hnums : ∀ v ∈ f.vps, v.IsNum) :
    scoreFinals t [] (buildFinals users data actor f).storedFinals =
      (floatGwFinals f.vps (f.numbers.map (uidOf users data)) (f.numbers.map (uidOf users data)),
        floatTp f.vps) := by
  obtain ⟨qs, hqs⟩ := FloatValue.exists_map_num hnums
  have hlength : f.seats.length = qs.length := by rw [← length_vps, hqs, List.length_map]
  have hseats : (buildFinals users data actor f).storedFinals.seating.length = qs.length := by
    rw [BuiltTable.storedFinals, List.length_map, ← hlength]
    exact length_scoreSeats
  have hvps : seatVps (buildFinals users data actor f).storedFinals.seating = qs := by
    rw [BuiltTable.storedFinals, seatVps_stored, buildFinals, vps_scoreSeats, hqs,
      FloatValue.map_read_num]
  have huids : (buildFinals users data actor f).storedFinals.seating.map Seat.playerUid =
      f.numbers.map (uidOf users data) := by
    rw [uids_storedFinals, uids_buildFinals]
  have hseeds : (buildFinals users data actor f).storedFinals.seedOrder =
      f.numbers.map (uidOf users data) := uids_buildFinals
  rw [scoreFinals, scoreTable, resolveSaEffectiveRounds, getSaSanctions, List.filterMap_nil,
    List.filterMap_nil, tableSaAdjustments_nil, hseats, hvps, hqs, floatGwFinals_num, floatTp_num,
    huids, hseeds]

theorem whole_floatGwFinals (vps : List FloatValue) (uids seedOrder : List Uid) :
    ∀ g ∈ floatGwFinals vps uids seedOrder, Whole g := by
  intro g hg
  obtain ⟨i, -, rfl⟩ := List.mem_map.1 hg
  exact whole_indicator

theorem seatScores_refreshFinals (hsize : f.seats.length = 4 ∨ f.seats.length = 5)
    (hnums : ∀ v ∈ f.vps, v.IsNum) :
    seatScores (refreshSeats (buildFinals users data actor f).storedFinals.seating
      (scoreFinals t [] (buildFinals users data actor f).storedFinals).1
      (scoreFinals t [] (buildFinals users data actor f).storedFinals).2) =
      (buildFinals users data actor f).scores := by
  have htps : ∀ x ∈ floatTp f.vps, Whole x := by
    obtain ⟨qs, hqs⟩ := FloatValue.exists_map_num hnums
    have hlength : qs.length = f.seats.length := by rw [← length_vps, hqs, List.length_map]
    rw [hqs, floatTp_num]
    exact whole_computeTp (hlength ▸ hsize) rfl
  rw [scoreFinals_stored hnums]
  exact seatScores_refreshSeats (whole_floatGwFinals _ _ _) htps hnums

theorem exists_floatGwFinals {vps : List FloatValue} (uids seedOrder : List Uid)
    (hnums : ∀ v ∈ vps, v.IsNum) (h : vps ≠ []) :
    ∃ best < vps.length, floatGwFinals vps uids seedOrder =
      (List.range vps.length).map fun i => if i = best then 1 else 0 := by
  obtain ⟨qs, rfl⟩ := FloatValue.exists_map_num hnums
  have hqs : qs ≠ [] := fun hnil => h (by rw [hnil, List.map_nil])
  rw [floatGwFinals_num, List.length_map]
  exact ⟨_, bestFinalsSeat_lt hqs, rfl⟩

theorem getLast?_gameWin {seats : List BuiltSeat} {best : ℕ} (hlt : best < seats.length)
    (hgw : ∀ i s, seats[i]? = some s → (s.gw = 1 ↔ i = best)) :
    (seats.filter fun s => s.gw == 1).getLast? = some seats[best] := by
  have hwins : ∀ s, s ∈ (seats.filter fun s => s.gw == 1) ↔ seats[best]? = some s := by
    intro s
    rw [List.mem_filter, List.mem_iff_getElem?]
    constructor
    · rintro ⟨⟨i, hi⟩, hone⟩
      obtain rfl := (hgw i s hi).1 (beq_iff_eq.1 hone)
      exact hi
    · exact fun hs => ⟨⟨best, hs⟩, beq_iff_eq.2 ((hgw best s hs).2 rfl)⟩
  have hmem := (hwins _).2 (List.getElem?_eq_getElem hlt)
  obtain ⟨s, hs⟩ := Option.isSome_iff_exists.1
    (List.getLast?_isSome.2 (List.ne_nil_of_mem hmem))
  have hsame := (hwins s).1 (List.mem_of_getLast? hs)
  rw [List.getElem?_eq_getElem hlt] at hsame
  rw [hs, Option.some.inj hsame]

theorem gw_buildFinals {best i : ℕ} {s : BuiltSeat}
    (hgws : floatGwFinals f.vps (f.numbers.map (uidOf users data))
      (f.numbers.map (uidOf users data)) =
        (List.range f.vps.length).map fun i => if i = best then 1 else 0)
    (hs : (buildFinals users data actor f).seating[i]? = some s) : s.gw = 1 ↔ i = best := by
  obtain ⟨seat, hseat, rfl⟩ := scoreSeats_getElem? hs
  have hi : i < f.vps.length := by
    rw [length_vps]
    exact (List.getElem?_eq_some_iff.1 hseat).1
  have hvalue : ((floatGwFinals f.vps (f.numbers.map (uidOf users data))
      (f.numbers.map (uidOf users data)))[i]?).getD 0 =
      ((if i = best then 1 else 0 : ℤ) : ℚ) := by
    rw [hgws, List.getElem?_map, List.getElem?_range hi]
    split <;> simp_all
  dsimp only
  rw [hvalue, truncate_intCast]
  split <;> simp_all

theorem gameWinUid_stored (hf : data.finals = some f) (hnums : ∀ v ∈ f.vps, v.IsNum)
    (h : f.vps ≠ []) :
    gameWinUid (buildFinals users data actor f).storedFinals.seating
      (scoreFinals t [] (buildFinals users data actor f).storedFinals).1 =
      some (finalsWinner users data actor) ∧
    finalsWinner users data actor ∈ f.numbers.map (uidOf users data) := by
  rw [scoreFinals_stored hnums]
  obtain ⟨best, hbest, hgws⟩ := exists_floatGwFinals (f.numbers.map (uidOf users data))
    (f.numbers.map (uidOf users data)) hnums h
  have hlength : f.vps.length = f.seats.length := length_vps
  have hlt : best < f.seats.length := hlength ▸ hbest
  have hseats : best < (buildFinals users data actor f).seating.length := by
    rw [buildFinals, length_scoreSeats]
    exact hlt
  have hfilter : ((buildFinals users data actor f).seating.filter fun s => s.gw == 1).getLast? =
      some (buildFinals users data actor f).seating[best] :=
    getLast?_gameWin hseats fun _ _ hs => gw_buildFinals hgws hs
  have hwinner : finalsWinner users data actor =
      (buildFinals users data actor f).seating[best].playerUid := by
    rw [finalsWinner, builtFinals, hf, Option.map_some, Option.elim_some, hfilter,
      Option.elim_some]
  constructor
  · rw [gameWinUid, hgws, findIdx?_indicator hbest, hwinner, Option.map_some]
    simp [BuiltTable.storedFinals, hseats, BuiltSeat.stored]
  · have huids : (buildFinals users data actor f).uids = f.numbers.map (uidOf users data) :=
      uids_buildFinals
    rw [hwinner, ← huids]
    exact List.mem_map_of_mem (List.getElem_mem hseats)

end Final

/-! ### The rows -/

section Rows

variable {users : String → Option Uid} {data : ArchonData} {actor : Uid} {env : Env}
variable {t : StoredTournament} {uid : Uid}

/-- What a seat adds, as the engine reads it. -/
def engineEntry (total : ℤ × FloatValue × ℤ) : ℚ × ℚ × ℚ := (total.1, total.2.1.read, total.2.2)

theorem sumFor_engineEntry {entries : List (Uid × (ℤ × FloatValue × ℤ))}
    (h : ∀ e ∈ entries, e.2.2.1.IsNum) (uid : Uid) :
    Tally.sumFor (entries.map fun e => (e.1, engineEntry e.2)) uid =
      engineEntry (Tally.sumFor entries uid) := by
  refine Tally.sumFor_map (P := fun total : ℤ × FloatValue × ℤ => total.2.1.IsNum) ⟨0, rfl⟩ ?_ ?_ h
    uid
  · change (((0 : ℤ) : ℚ), (0 : ℚ), ((0 : ℤ) : ℚ)) = 0
    rw [Int.cast_zero]
    rfl
  · rintro ⟨g, x, p⟩ ⟨g', y, p'⟩ ⟨q, rfl⟩ ⟨q', rfl⟩
    refine ⟨⟨q + q', rfl⟩, ?_⟩
    change (((g + g' : ℤ) : ℚ), q + q', ((p + p' : ℤ) : ℚ)) = ((g : ℚ) + g', q + q', (p : ℚ) + p')
    rw [Int.cast_add, Int.cast_add]

theorem tableEntries_stored {r : ℕ} {tb : ArchonRoundTable}
    (hsize : tb.seats.length = 4 ∨ tb.seats.length = 5)
    (hnamed : ∀ n ∈ tb.numbers, uidOf users data n ≠ "") :
    tableEntries [] r (buildTable users data actor r tb).stored =
      (buildTable users data actor r tb).entries.map fun e => (e.1, engineEntry e.2) := by
  have hstate : (buildTable users data actor r tb).stored.state = .finished := rfl
  have hvps : seatVps (buildTable users data actor r tb).stored.seating =
      tb.vps.map FloatValue.read := by
    rw [BuiltTable.stored, seatVps_stored, buildTable, vps_scoreSeats]
  have hlength : (tb.vps.map FloatValue.read).length = tb.seats.length := by
    rw [List.length_map, length_vps]
  rw [tableEntries, if_pos hstate]
  dsimp only
  rw [scoreTable_stored, hvps, uids_stored, uids_buildTable, List.filter_eq_self.2]
  · refine List.ext_getElem? fun i => ?_
    obtain ⟨gws, hgws⟩ : ∃ gws, computeGw (tb.vps.map FloatValue.read)
        (List.replicate (tb.vps.map FloatValue.read).length 0) = gws := ⟨_, rfl⟩
    obtain ⟨tps, htps⟩ : ∃ tps, computeTp (tb.vps.map FloatValue.read).length
        (tb.vps.map FloatValue.read)
        (List.replicate (tb.vps.map FloatValue.read).length 0) = tps := ⟨_, rfl⟩
    have hgwLength : gws.length = tb.seats.length := by
      rw [← hgws, length_computeGw List.length_replicate.symm, hlength]
    have htpLength : tps.length = tb.seats.length := by
      rw [← htps, length_computeTp, hlength]
    have hgwWhole : ∀ g ∈ gws, Whole g := hgws ▸ whole_computeGw _ _
    have htpWhole : ∀ x ∈ tps, Whole x := htps ▸ whole_computeTp (hlength ▸ hsize) rfl
    have hbuilt : (buildTable users data actor r tb).entries =
        (scoreSeats users data tb gws tps).map fun s => (s.playerUid, (s.gw, s.vp, s.tp)) := by
      rw [BuiltTable.entries, buildTable, ← hgws, ← htps]
    rw [hbuilt, hgws, htps]
    simp only [List.zip, List.getElem?_zipWith, List.getElem?_map, scoreSeats,
      List.getElem?_zipIdx, Option.map_map, ArchonRoundTable.numbers, ArchonRoundTable.vps,
      List.map_map]
    cases hs : tb.seats[i]? with
    | none => simp
    | some s =>
      have hi : i < tb.seats.length := (List.getElem?_eq_some_iff.1 hs).1
      have hg : gws[i]? = some ((gws[i]?).getD 0) := by
        rw [List.getElem?_eq_getElem (hgwLength ▸ hi), Option.getD_some]
      have hp : tps[i]? = some ((tps[i]?).getD 0) := by
        rw [List.getElem?_eq_getElem (htpLength ▸ hi), Option.getD_some]
      rw [hg, hp]
      simp only [Option.map_some, Function.comp_apply, Nat.zero_add, engineEntry,
        (whole_getD hgwWhole i).truncate, (whole_getD htpWhole i).truncate]
  · intro e he
    obtain ⟨n, hn, hname⟩ := List.mem_map.1 (List.of_mem_zip he).1
    rw [← hname]
    exact decide_eq_true (hnamed n hn)

theorem prelimEntries_importedDoc (haccepted : Accepted data)
    (hnamed : ∀ n ∈ seatedNumbers data, uidOf users data n ≠ "") :
    prelimEntries (importedDoc users data actor env t) [] =
      (prelimScores users data actor).map fun e => (e.1, engineEntry e.2) := by
  have hrounds : (importedDoc users data actor env t).rounds.zipIdx =
      data.rounds.zipIdx.map fun ri =>
        (ri.1.map fun tb => (buildTable users data actor ri.2 tb).stored, ri.2) := by
    change ((data.rounds.zipIdx.map _).map _).zipIdx = _
    refine List.ext_getElem? fun i => ?_
    simp only [List.getElem?_zipIdx, List.getElem?_map, Option.map_map]
    cases data.rounds[i]? <;> simp
  rw [prelimEntries, hrounds, List.flatMap_map, prelimScores, builtRounds, List.flatMap_map,
    List.map_flatMap]
  refine List.flatMap_congr fun ri hri => ?_
  rw [List.flatMap_map, List.flatMap_map, List.map_flatMap]
  refine List.flatMap_congr fun tb htb => ?_
  exact tableEntries_stored (haccepted.tables ri hri tb htb).size fun n hn =>
    hnamed n (mem_seatedNumbers_of_round hri (List.mem_flatMap.2 ⟨tb, htb, hn⟩))

theorem keys_prelimScores : (prelimScores users data actor).map Prod.fst =
    seatedUids (importedDoc users data actor env t).rounds := by
  change _ = (List.map roundUids ((builtRounds users data actor).map fun round =>
    round.map BuiltTable.stored)).flatten
  rw [prelimScores, List.map_flatMap, List.map_map, ← List.flatMap_def]
  refine List.flatMap_congr fun round _ => ?_
  rw [List.map_flatMap, Function.comp_apply, roundUids, List.flatMap_map]
  refine List.flatMap_congr fun tb _ => ?_
  rw [uids_stored, BuiltTable.entries, List.map_map]
  rfl

theorem findPlayer_importedDoc (h : uid ∈ knownUids users data) :
    findPlayer (importedDoc users data actor env t).players uid =
      some (builtPlayer users data actor uid) := by
  change ((knownUids users data).map (builtPlayer users data actor)).find? (Player.isUid uid) = _
  have hself : (knownUids users data).find? (Player.isUid uid ∘ builtPlayer users data actor) =
      some uid := by
    have hfound : ((knownUids users data).find?
        (Player.isUid uid ∘ builtPlayer users data actor)).isSome = true :=
      List.find?_isSome.2 ⟨uid, h, by simp [Player.isUid, builtPlayer]⟩
    obtain ⟨u, hu⟩ := Option.isSome_iff_exists.1 hfound
    have hsame := List.find?_some hu
    simp only [Function.comp_apply, Player.isUid, builtPlayer, beq_iff_eq,
      Option.some.injEq] at hsame
    rw [hu, hsame]
  rw [List.find?_map, hself, Option.map_some]

theorem prelimRow_importedDoc (h : uid ∈ knownUids users data) :
    prelimRow (importedDoc users data actor env t) [] [] uid
      (engineEntry (Tally.sumFor (prelimScores users data actor) uid)) =
        builtStanding users data actor uid := by
  rw [prelimRow, findPlayer_importedDoc h]
  simp [builtPlayer, hasDqSanction, saVpPenalty, builtStanding, engineEntry]

theorem standings_importedDoc (haccepted : Accepted data)
    (hnamed : ∀ n ∈ seatedNumbers data, uidOf users data n ≠ "")
    (hlisted : ∀ n ∈ seatedNumbers data, uidOf users data n ∈ knownUids users data)
    (hnodup : (knownUids users data).Nodup) :
    (builtStandings users data actor).filter (fun s =>
        decide (s.userUid ∈ seatedUids (importedDoc users data actor env t).rounds)) =
      computePreliminaryStandings (importedDoc users data actor env t) [] := by
  have hentries : prelimEntries (importedDoc users data actor env t) [] =
      (prelimScores users data actor).map fun e => (e.1, engineEntry e.2) :=
    prelimEntries_importedDoc haccepted hnamed
  have hsas : resolveSaEffectiveRounds (importedDoc users data actor env t) [] = [] := rfl
  have hseated : ∀ uid, uid ∈ (prelimEntries (importedDoc users data actor env t) []).map Prod.fst ↔
      uid ∈ seatedUids (importedDoc users data actor env t).rounds := by
    intro uid
    rw [hentries, List.map_map, ← keys_prelimScores]
    rfl
  have hknown : ∀ uid ∈ seatedUids (importedDoc users data actor env t).rounds,
      uid ∈ knownUids users data := by
    intro uid huid
    obtain ⟨uids, huids, hmem⟩ := List.mem_flatten.1 huid
    obtain ⟨round, hround, rfl⟩ := List.mem_map.1 huids
    obtain ⟨ri, hri, rfl⟩ := mem_rounds_importedDoc.1 hround
    rw [roundUids, uids_storedRound] at hmem
    obtain ⟨n, hn, rfl⟩ := List.mem_map.1 hmem
    exact hlisted n (mem_seatedNumbers_of_round hri hn)
  -- the engine's rows are the importer's, of the uids its tally holds
  have hrows : prelimRows (importedDoc users data actor env t) [] =
      ((Tally.ofList (prelimEntries (importedDoc users data actor env t) [])).map Prod.fst).map
        (builtStanding users data actor) := by
    rw [prelimRows, hsas, List.map_map]
    refine List.map_congr_left fun e he => ?_
    have hmem : e.1 ∈ knownUids users data :=
      hknown _ ((hseated _).1 (Tally.mem_keys_ofList.1 (List.mem_map_of_mem he)))
    have htotal : e.2 = engineEntry (Tally.sumFor (prelimScores users data actor) e.1) := by
      rw [Tally.mem_ofList (show (e.1, e.2) ∈ _ from he), hentries, sumFor_engineEntry]
      intro kv hkv
      obtain ⟨b, hb, hkv⟩ := List.mem_flatMap.1 hkv
      exact isNum_of_mem_prelimScores haccepted (List.mem_flatMap.2 ⟨b, hb, hkv⟩)
    rw [Function.comp_apply, htotal]
    exact prelimRow_importedDoc hmem
  have huids : ((Tally.ofList (prelimEntries (importedDoc users data actor env t) [])).map
      Prod.fst).Perm ((knownUids users data).filter fun uid =>
        decide (uid ∈ seatedUids (importedDoc users data actor env t).rounds)) := by
    refine (List.perm_ext_iff_of_nodup (Tally.nodup_keys_ofList _) (hnodup.filter _)).2 ?_
    intro uid
    rw [Tally.mem_keys_ofList, hseated, List.mem_filter, decide_eq_true_iff]
    exact ⟨fun h => ⟨hknown uid h, h⟩, And.right⟩
  have hperm : ((builtStandings users data actor).filter fun s =>
      decide (s.userUid ∈ seatedUids (importedDoc users data actor env t).rounds)).Perm
        (computePreliminaryStandings (importedDoc users data actor env t) []) := by
    have hsorted : (builtStandings users data actor).Perm
        ((knownUids users data).map (builtStanding users data actor)) := sortByRank_perm _
    rw [computePreliminaryStandings_eq, hrows]
    refine (hsorted.filter _).trans ?_
    rw [List.filter_map]
    exact ((huids.map _).symm).trans (sortByRank_perm _).symm
  refine hperm.eq_of_pairwise ?_ ((sortByRank_inRankOrder _).filter _) (sortByRank_inRankOrder _)
  intro a b ha hb hab hba
  have hbuilt : ∀ s, s ∈ (builtStandings users data actor) →
      s = builtStanding users data actor s.userUid := by
    intro s hs
    obtain ⟨uid, -, rfl⟩ := List.mem_map.1 ((sortByRank_perm _).mem_iff.1 hs)
    rfl
  have huid : a.userUid = b.userUid := by
    have hkey := congrArg (fun k : RankKey => (ofLex (ofLex (ofLex (ofLex (ofLex k).2).2).2).2).2)
      (le_antisymm hab hba)
    exact hkey
  rw [hbuilt a (List.mem_of_mem_filter ha),
    hbuilt b (List.mem_of_mem_filter (hperm.mem_iff.2 hb)), huid]

end Rows

/-! ### The import scored again -/

/-- The imported seats, the rows of those who played and the winner of the final are what the
engine computes from the stored rounds and final. -/
structure AgreesWithEngine (built : BuiltImport) (t : Tournament) : Prop where
  rounds : (updateStandings t []).rounds.map (fun round =>
      round.map fun tb => seatScores tb.seating) =
    built.rounds.map fun round => round.map BuiltTable.scores
  finals : (updateStandings t []).finals.map (fun f => seatScores f.seating) =
    built.finals.map BuiltTable.scores
  standings : t.standings.filter (fun s => decide (s.userUid ∈ seatedUids t.rounds)) =
    (updateStandings t []).standings
  winner : t.finals.isSome = true → (updateStandings t []).winner = t.winner

section Agrees

variable {users : String → Option Uid} {data : ArchonData} {actor : Uid} {env : Env}
variable {t : StoredTournament}

theorem rounds_updateStandings_imported (haccepted : Accepted data) :
    (updateStandings (importedDoc users data actor env t) []).rounds.map (fun round =>
        round.map fun tb => seatScores tb.seating) =
      (builtRounds users data actor).map fun round => round.map BuiltTable.scores := by
  refine List.ext_getElem? fun r => ?_
  rw [List.getElem?_map, updateStandings_getElem?]
  change ((((List.map _ (List.map _ _)))[r]?).map _).map _ = _
  simp only [builtRounds, List.getElem?_map, List.getElem?_zipIdx, Option.map_map]
  cases hround : data.rounds[r]? with
  | none => rfl
  | some round =>
    have hri : (round, r) ∈ data.rounds.zipIdx := List.mk_mem_zipIdx_iff_getElem?.2 hround
    simp only [Option.map_some, Function.comp_apply, List.map_map, Nat.zero_add,
      Option.some.injEq]
    refine List.map_congr_left fun tb htb => ?_
    have hpassed := haccepted.tables _ hri tb htb
    exact seatScores_refreshTable hpassed.size hpassed.nums

theorem agrees_importedDoc_iff (haccepted : Accepted data)
    (hnamed : ∀ uid ∈ knownUids users data, uid ≠ "")
    (hlisted : ∀ n ∈ seatedNumbers data, uidOf users data n ∈ knownUids users data)
    (hnodup : (knownUids users data).Nodup) :
    AgreesWithEngine (builtImport users data actor) (importedDoc users data actor env t) ↔
      ∀ f ∈ data.finals, ∀ v ∈ f.vps, v.IsNum := by
  have hrounds : (importedDoc users data actor env t).rounds ≠ [] := by
    change (data.rounds.zipIdx.map _).map _ ≠ []
    simpa using haccepted.rounds
  constructor
  · intro h f hf v hv
    have hfinals : (builtImport users data actor).finals = some
        (buildFinals users data actor f) := by
      change data.finals.map _ = _
      rw [Option.mem_def.1 hf, Option.map_some]
    have hscores := h.finals
    rw [hfinals, Option.map_some, Option.map_eq_some_iff] at hscores
    obtain ⟨f', -, hscores⟩ := hscores
    have hvps : (buildFinals users data actor f).seating.map BuiltSeat.vp = f.vps :=
      vps_scoreSeats
    rw [← hvps] at hv
    obtain ⟨s, hs, rfl⟩ := List.mem_map.1 hv
    have hmem : (s.playerUid, (s.gw : ℚ), s.vp, (s.tp : ℚ)) ∈
        (buildFinals users data actor f).scores := List.mem_map_of_mem hs
    rw [← hscores] at hmem
    obtain ⟨seat, -, hseat⟩ := List.mem_map.1 hmem
    exact ⟨seat.result.vp, (congrArg (fun x => x.2.2.1) hseat).symm⟩
  · intro hnums
    refine ⟨rounds_updateStandings_imported haccepted, ?_, ?_, ?_⟩
    · cases hf : data.finals with
      | none =>
        have hnone : (importedDoc users data actor env t).finals = none := by
          rw [finals_importedDoc, hf, Option.map_none]
        rw [(updateStandings_finals_eq_none _ _).2 hnone]
        change _ = (data.finals.map _).map _
        rw [hf]
        rfl
      | some f =>
        have hsome : (importedDoc users data actor env t).finals =
            some (buildFinals users data actor f).storedFinals := by
          rw [finals_importedDoc, hf, Option.map_some]
        obtain ⟨u, hfinals, -⟩ := updateStandings_finals_rescored (s := []) hrounds hsome rfl
        rw [hfinals]
        change _ = (data.finals.map _).map _
        rw [hf]
        exact congrArg some
          (seatScores_refreshFinals (haccepted.finals f hf).size (hnums f hf))
    · rw [updateStandings_standings _ _ hrounds]
      exact standings_importedDoc haccepted (fun n hn => hnamed _ (hlisted n hn)) hlisted hnodup
    · intro hsome
      rw [finals_importedDoc, Option.isSome_map] at hsome
      obtain ⟨f, hf⟩ := Option.isSome_iff_exists.1 hsome
      have hfinals : (importedDoc users data actor env t).finals =
          some (buildFinals users data actor f).storedFinals := by
        rw [finals_importedDoc, hf, Option.map_some]
      have hvps : f.vps ≠ [] := by
        intro hnil
        have hlength : f.vps.length = f.seats.length := length_vps
        rw [hnil, List.length_nil] at hlength
        have hsize := (haccepted.finals f hf).size
        omega
      obtain ⟨hgame, hmember⟩ : gameWinUid (buildFinals users data actor f).storedFinals.seating
          (scoreFinals (importedDoc users data actor env t) []
            (buildFinals users data actor f).storedFinals).1 =
            some (finalsWinner users data actor) ∧
          finalsWinner users data actor ∈ f.numbers.map (uidOf users data) :=
        gameWinUid_stored hf (hnums f hf) hvps
      rw [updateStandings_winner hrounds hfinals rfl, hgame, Option.getD_some]
      split
      · rfl
      · rename_i hne
        change _ = (builtImport users data actor).winner
        have hwinner : finalsWinner users data actor ≠ "" := by
          obtain ⟨n, hn, heq⟩ := List.mem_map.1 hmember
          rw [← heq]
          exact hnamed _ (hlisted n (mem_seatedNumbers_of_finals hf hn))
        simp only [builtImport, if_neg hwinner]

end Agrees

section Import

variable {env : Env} {objects objects' : Objects} {uid actor : Uid} {t' : StoredTournament}
variable {digits : PyDigits} {data : ArchonData} {built : BuiltImport}

/-- An accepted sheet is imported as the engine scores it exactly when its final holds numbers.
No member has an empty uid. -/
theorem archonImport_agrees_iff (hkeyed : WellKeyed objects)
    (hnamed : ∀ u ∈ objects.users, u.uid ≠ "")
    (hvalid : validateArchonImport digits data = .ok [])
    (happly : applyArchonImport env objects uid data actor = .ok (built, objects'))
    (ht' : objects'.tournament? uid = some t') :
    AgreesWithEngine built t'.doc ↔ ∀ f ∈ data.finals, ∀ v ∈ f.vps, v.IsNum := by
  have haccepted := accepted_of_validate hvalid
  have hinj : ∀ {a b u}, uidsByVeknIdOf objects a = some u → uidsByVeknIdOf objects b = some u →
      a = b := veknId_of_uid hkeyed
  obtain ⟨t, ht⟩ : ∃ t, objects.tournament? uid = some t := by
    simp only [applyArchonImport, Guards.bind_eq_ok, Guards.okOr_eq_ok] at happly
    obtain ⟨-, -, t, ht, -⟩ := happly
    exact ⟨t, ht⟩
  obtain ⟨hbuilt, hrow⟩ := applyArchonImport_eq_ok ht hkeyed happly
  obtain ⟨hmatched, hlisted, -, rfl⟩ := buildImport_eq_ok.1 hbuilt
  cases ht'.symm.trans hrow
  refine agrees_importedDoc_iff haccepted ?_
    (fun n hn => List.mem_map_of_mem (mem_of_uidOf (hlisted n hn)))
    (nodup_knownUids hinj haccepted.ids)
  intro u hu
  obtain ⟨⟨n, u'⟩, hmem, rfl⟩ := List.mem_map.1 hu
  obtain ⟨p, -, -, hp⟩ := mem_uidByNumber hmem
  obtain ⟨-, hfound⟩ := Option.ite_none_left_eq_some.1 hp
  obtain ⟨x, hx, rfl⟩ := Option.map_eq_some_iff.1 hfound
  exact hnamed x (List.mem_of_find?_eq_some hx)

end Import

/-! ### A final a judge ruled on -/

/-- One round and a final of the five members, the final listed on the override sheet. -/
def ruledSheet (first : FloatValue) : ArchonData :=
  sheetOf [[swept [1, 2, 3, 4, 5]]]
    (some ⟨[(1, first), (2, .num 2), (3, .num 1), (4, .num 0), (5, .num 0)], 0⟩)
    [⟨6, "F", 0, "Life Boon"⟩]

theorem ruledSheet_applied {first : FloatValue}
    (hbuilt : buildImport (uidsByVeknIdOf sheetTable) (ruledSheet first) "prince" =
      .ok (builtImport (uidsByVeknIdOf sheetTable) (ruledSheet first) "prince")) :
    ∃ objects', applyArchonImport venue sheetTable "event" (ruledSheet first) "prince" =
        .ok (builtImport (uidsByVeknIdOf sheetTable) (ruledSheet first) "prince", objects') ∧
      objects'.tournament? "event" =
        some (importedRow venue event
          (builtImport (uidsByVeknIdOf sheetTable) (ruledSheet first) "prince").stored) := by
  have ht : sheetTable.tournament? "event" = some event := rfl
  obtain ⟨objects', happly⟩ := @applyArchonImport_of_built venue _ _ _ _ _ ht _ hbuilt
  exact ⟨objects', happly, (applyArchonImport_eq_ok ht sheetTable_keyed happly).2⟩

/-- A final the first seat won. -/
theorem archonImport_agrees_ruled : ∃ (objects' : Objects) (t' : StoredTournament),
    objects'.tournament? "event" = some t' ∧
      AgreesWithEngine (builtImport (uidsByVeknIdOf sheetTable) (ruledSheet (.num 2)) "prince")
        t'.doc := by
  obtain ⟨objects', happly, ht'⟩ := @ruledSheet_applied (.num 2)
    (buildImport_eq_ok.2 ⟨by decide, by decide, by decide +kernel, rfl⟩)
  refine ⟨objects', _, ht', (@archonImport_agrees_iff _ _ _ _ _ _ asciiDigits _ _
    sheetTable_keyed (by decide) (by decide +kernel) happly ht').2 ?_⟩
  intro f hf v hv
  cases hf
  exact FloatValue.isNum_iff.2 ((by decide : ∀ v ∈ ([.num 2, .num 2, .num 1, .num 0, .num 0] :
    List FloatValue), v.num?.isSome = true) v hv)

/-- A cell of the final that reads `nan` wins it for the importer and is a zero for the engine,
which names another winner. -/
theorem nan_wins_final :
    validateArchonImport asciiDigits (ruledSheet .nan) = .ok [] ∧
      SeatsListed (ruledSheet .nan) ∧ IdsResolve sheetTable (ruledSheet .nan) ∧
      ∃ (objects' : Objects) (t' : StoredTournament),
        applyArchonImport venue sheetTable "event" (ruledSheet .nan) "prince" =
          .ok (builtImport (uidsByVeknIdOf sheetTable) (ruledSheet .nan) "prince", objects') ∧
        objects'.tournament? "event" = some t' ∧ t'.doc.winner = "prince" ∧
        (updateStandings t'.doc []).winner = "judge" ∧
        ¬AgreesWithEngine (builtImport (uidsByVeknIdOf sheetTable) (ruledSheet .nan) "prince")
          t'.doc := by
  obtain ⟨objects', happly, ht'⟩ := @ruledSheet_applied .nan
    (buildImport_eq_ok.2 ⟨by decide, by decide, by decide +kernel, rfl⟩)
  have hwinner : (importedDoc (uidsByVeknIdOf sheetTable) (ruledSheet .nan) "prince" venue
      event).winner = "prince" := by decide +kernel
  have hagain : (updateStandings (importedDoc (uidsByVeknIdOf sheetTable) (ruledSheet .nan) "prince"
      venue event) []).winner = "judge" := by decide +kernel
  refine ⟨by decide +kernel, ⟨by decide, by decide, by decide, by decide⟩,
    by unfold IdsResolve; decide, objects', _, happly, ht', hwinner, hagain, fun h => ?_⟩
  have hsame := h.winner rfl
  rw [hwinner, hagain] at hsame
  exact absurd hsame (by decide)

end Archon.Backend

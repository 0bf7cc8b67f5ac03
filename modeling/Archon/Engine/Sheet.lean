import Archon.Engine.Shape

/-!
# What the standings read

The preliminary standings read the points of the finished tables, who sits in the finals, and
four marks of the roster entries. Documents alike in these give the same standings.
-/

namespace Archon.Engine

/-! ### Results of a round -/

/-- Who scored what, in seating order. -/
def Table.points (tb : Table) : List (Uid × ℚ) :=
  tb.seating.map fun s => (s.playerUid, s.result.vp)

/-- The table counts: it is finished and somebody sits there. -/
def Table.isPlayed (tb : Table) : Bool := tb.state == .finished && !tb.seating.isEmpty

/-- The results of round `r`. -/
def playedAt (rounds : List (List Table)) (r : ℕ) : List (List (Uid × ℚ)) :=
  (((rounds[r]?).getD []).filter Table.isPlayed).map Table.points

/-- What a result adds to the standings: the entries of a finished table that holds it. -/
def pointEntries (sas : List (Uid × ℕ)) (r : ℕ) (pts : List (Uid × ℚ)) :
    List (Uid × (ℚ × ℚ × ℚ)) :=
  tableEntries sas r ⟨pts.map fun us => ⟨us.1, ⟨0, us.2, 0⟩, ""⟩, .finished, none, none⟩

theorem points_uids (tb : Table) : tb.points.map Prod.fst = tb.uids := by
  simp [Table.points, Table.uids, Function.comp_def]

theorem points_vps (tb : Table) : tb.points.map Prod.snd = seatVps tb.seating := by
  simp [Table.points, seatVps, Function.comp_def]

theorem scoreTable_congr {seating seating' : List Seat}
    (h : seating.map Seat.playerUid = seating'.map Seat.playerUid) (vps : List ℚ) (r : ℕ)
    (sas : List (Uid × ℕ)) (seedOrder : Option (List Uid)) :
    scoreTable seating vps r sas seedOrder = scoreTable seating' vps r sas seedOrder := by
  have hadj : ∀ seats : List Seat, tableSaAdjustments seats r sas =
      (seats.map Seat.playerUid).map fun uid =>
        -((sas.countP fun sa => sa.1 == uid && sa.2 == r : ℕ) : ℚ) := by
    intro seats
    rw [tableSaAdjustments, List.map_map]
    rfl
  have hlen : seating.length = seating'.length := by simpa using congrArg List.length h
  simp only [scoreTable, hadj, h, hlen]

theorem tableEntries_congr {a b : Table} (hstate : a.state = b.state) (h : a.points = b.points)
    (sas : List (Uid × ℕ)) (r : ℕ) : tableEntries sas r a = tableEntries sas r b := by
  have huids : a.uids = b.uids := by rw [← points_uids, h, points_uids]
  have hvps : seatVps a.seating = seatVps b.seating := by rw [← points_vps, h, points_vps]
  simp only [tableEntries, hstate, huids, hvps,
    scoreTable_congr (show a.seating.map Seat.playerUid = _ from huids)]

theorem tableEntries_of_played {tb : Table} (h : tb.isPlayed = true) (sas : List (Uid × ℕ))
    (r : ℕ) : tableEntries sas r tb = pointEntries sas r tb.points := by
  have hstate : tb.state = .finished := by
    simp only [Table.isPlayed, Bool.and_eq_true, beq_iff_eq] at h
    exact h.1
  refine tableEntries_congr hstate ?_ sas r
  simp [Table.points, Function.comp_def]

theorem tableEntries_of_not_played {tb : Table} (h : tb.isPlayed = false) (sas : List (Uid × ℕ))
    (r : ℕ) : tableEntries sas r tb = [] := by
  unfold tableEntries
  split
  · rename_i hs
    have hempty : tb.seating = [] := by simpa [Table.isPlayed, hs] using h
    simp [Table.uids, hempty]
  · rfl

theorem flatMap_tableEntries (sas : List (Uid × ℕ)) (r : ℕ) (round : List Table) :
    round.flatMap (tableEntries sas r) =
      ((round.filter Table.isPlayed).map Table.points).flatMap (pointEntries sas r) := by
  induction round with
  | nil => rfl
  | cons tb round ih =>
    rw [List.flatMap_cons, ih]
    cases h : tb.isPlayed with
    | true => rw [List.filter_cons_of_pos h, List.map_cons, List.flatMap_cons,
        tableEntries_of_played h]
    | false =>
      rw [List.filter_cons_of_neg (by simp [h]), tableEntries_of_not_played h, List.nil_append]

theorem prelimEntries_eq (t : Tournament) (sas : List (Uid × ℕ)) :
    prelimEntries t sas = (List.range t.rounds.length).flatMap fun r =>
      (playedAt t.rounds r).flatMap (pointEntries sas r) := by
  rw [prelimEntries, List.flatMap_def, List.flatMap_def]
  refine congrArg List.flatten (List.ext_getElem? fun r => ?_)
  rw [List.getElem?_map, List.getElem?_map, List.getElem?_zipIdx]
  cases hr : t.rounds[r]? with
  | none =>
    have hlen : t.rounds.length ≤ r := List.getElem?_eq_none_iff.1 hr
    rw [List.getElem?_eq_none (by simpa using hlen)]
    rfl
  | some round =>
    have hlen : r < t.rounds.length := (List.getElem?_eq_some_iff.1 hr).1
    rw [List.getElem?_range hlen]
    simp [playedAt, hr, flatMap_tableEntries]

/-! ### Scored players -/

/-- The players of the finals. -/
def finalsUids (t : Tournament) : List Uid :=
  (t.finals.elim [] FinalsTable.seating).map Seat.playerUid

/-- The player has a result in round `r`. -/
def playedBy (rounds : List (List Table)) (r : ℕ) (uid : Uid) : Bool :=
  (playedAt rounds r).any fun pts => pts.any fun us => us.1 == uid

theorem any_finished_seats (round : List Table) (uid : Uid) :
    (round.any fun tb => tb.state == .finished && tb.seats uid) =
      ((round.filter Table.isPlayed).map Table.points).any fun pts => pts.any fun us => us.1 == uid
    := by
  induction round with
  | nil => rfl
  | cons tb round ih =>
    have hseats : tb.seats uid = tb.points.any fun us => us.1 == uid := by
      simp [Table.seats, Table.points, List.any_map, Function.comp_def]
    rw [List.any_cons, ih, hseats]
    cases h : tb.isPlayed with
    | true =>
      have hstate : tb.state = .finished := by
        simp only [Table.isPlayed, Bool.and_eq_true, beq_iff_eq] at h
        exact h.1
      rw [List.filter_cons_of_pos h, List.map_cons, List.any_cons, hstate]
      rfl
    | false =>
      rw [List.filter_cons_of_neg (by simp [h])]
      have hnone : (tb.state == .finished && tb.points.any fun us => us.1 == uid) = false := by
        cases hs : tb.seating <;> simp_all [Table.isPlayed, Table.points]
      rw [hnone, Bool.false_or]

theorem playedBy_of_length {rounds : List (List Table)} {r : ℕ} (h : rounds.length ≤ r)
    (uid : Uid) : playedBy rounds r uid = false := by
  simp [playedBy, playedAt, List.getElem?_eq_none h]

theorem scoredIn_eq (t : Tournament) (uid : Uid) (r : ℕ) :
    scoredIn t uid r = (playedBy t.rounds r uid
      || (decide (r = t.rounds.length) && decide (uid ∈ finalsUids t))) := by
  unfold scoredIn
  split
  · rename_i h
    rw [playedBy_of_length (by omega)]
    simp [h, finalsUids, List.any_eq]
  · rename_i h
    rw [any_finished_seats]
    simp [h, playedBy, playedAt]

theorem scoredIn_le {t : Tournament} {uid : Uid} {r : ℕ} (h : scoredIn t uid r = true) :
    r ≤ t.rounds.length := by
  rw [scoredIn_eq] at h
  by_contra hlt
  rw [playedBy_of_length (by omega)] at h
  simp only [Bool.false_or, Bool.and_eq_true, decide_eq_true_eq] at h
  omega

/-! ### Where adjustments land -/

theorem find?_reverse_range (p : ℕ → Bool) {n m : ℕ} (hnm : n ≤ m)
    (hp : ∀ r, p r = true → r < n) :
    (List.range m).reverse.find? p = (List.range n).reverse.find? p := by
  induction m, hnm using Nat.le_induction with
  | base => rfl
  | succ m hm ih =>
    have hpm : ¬p m = true := fun h => by have := hp m h; omega
    rw [List.range_succ, List.reverse_append, List.reverse_singleton, List.singleton_append,
      List.find?_cons_of_neg hpm, ih]

theorem effectiveRound_eq {t : Tournament} {n : ℕ} (hn : t.rounds.length < n) (uid : Uid)
    (stored : ℕ) :
    effectiveRound t uid stored =
      if scoredIn t uid stored = true then some stored
      else (List.range n).reverse.find? fun r => scoredIn t uid r := by
  have hfind := find?_reverse_range (fun r => scoredIn t uid r) (Nat.succ_le_of_lt hn)
    fun r hr => Nat.lt_succ_of_le (scoredIn_le hr)
  rw [effectiveRound, hfind]
  by_cases hs : scoredIn t uid stored = true
  · rw [if_pos ⟨scoredIn_le hs, hs⟩, if_pos hs]
  · rw [if_neg fun h => hs h.2, if_neg hs]

theorem scoredIn_of_resolve {t : Tournament} {sanctions : List Sanction} {sa : Uid × ℕ}
    (h : sa ∈ resolveSaEffectiveRounds t sanctions) : scoredIn t sa.1 sa.2 = true := by
  obtain ⟨us, -, hus⟩ := List.mem_filterMap.1 h
  obtain ⟨r, hr, rfl⟩ := Option.map_eq_some_iff.1 hus
  rw [effectiveRound] at hr
  split at hr
  · rename_i hs
    exact Option.some.inj hr ▸ hs.2
  · exact List.find?_some hr

/-! ### Documents with the same results -/

/-- The standings read the same results in both documents. -/
structure SameResults (t t' : Tournament) : Prop where
  played : ∀ r, playedAt t'.rounds r = playedAt t.rounds r
  scored : ∀ uid r, scoredIn t' uid r = scoredIn t uid r
  prelim : ∀ uid r, scoredIn t uid r = true → (r < t'.rounds.length ↔ r < t.rounds.length)

section SameResults

variable {t t' : Tournament} {sanctions : List Sanction}

theorem playedBy_congr (h : ∀ r, playedAt t'.rounds r = playedAt t.rounds r) (r : ℕ) (uid : Uid) :
    playedBy t'.rounds r uid = playedBy t.rounds r uid := by
  rw [playedBy, h, playedBy]

theorem SameResults.of_length (hplayed : ∀ r, playedAt t'.rounds r = playedAt t.rounds r)
    (hlen : t'.rounds.length = t.rounds.length) (hfinals : finalsUids t' = finalsUids t) :
    SameResults t t' where
  played := hplayed
  scored uid r := by rw [scoredIn_eq, scoredIn_eq, playedBy_congr hplayed, hlen, hfinals]
  prelim _ _ _ := by rw [hlen]

theorem SameResults.of_noFinals (hplayed : ∀ r, playedAt t'.rounds r = playedAt t.rounds r)
    (hfinals : t.finals = none) (hfinals' : t'.finals = none)
    (hlen : t.rounds.length ≤ t'.rounds.length) : SameResults t t' where
  played := hplayed
  scored uid r := by
    rw [scoredIn_eq, scoredIn_eq, playedBy_congr hplayed]
    simp [finalsUids, hfinals, hfinals']
  prelim uid r hr := by
    rw [scoredIn_eq] at hr
    simp only [finalsUids, hfinals, Option.elim_none, List.map_nil, List.not_mem_nil,
      decide_false, Bool.and_false, Bool.or_false] at hr
    have hlt : r < t.rounds.length := by
      by_contra hge
      rw [playedBy_of_length (by omega)] at hr
      cases hr
    exact iff_of_true (by omega) hlt

theorem SameResults.resolve (h : SameResults t t') (sanctions : List Sanction) :
    resolveSaEffectiveRounds t' sanctions = resolveSaEffectiveRounds t sanctions := by
  have heff : ∀ uid stored, effectiveRound t' uid stored = effectiveRound t uid stored := by
    intro uid stored
    have hn : t.rounds.length < max t.rounds.length t'.rounds.length + 1 := by omega
    have hn' : t'.rounds.length < max t.rounds.length t'.rounds.length + 1 := by omega
    rw [effectiveRound_eq hn, effectiveRound_eq hn', h.scored]
    simp only [h.scored]
  simp only [resolveSaEffectiveRounds, heff]

theorem SameResults.prelimSas (h : SameResults t t') (sanctions : List Sanction) :
    prelimSas t' (resolveSaEffectiveRounds t sanctions) =
      prelimSas t (resolveSaEffectiveRounds t sanctions) := by
  refine List.filter_congr fun sa hsa => ?_
  have := h.prelim sa.1 sa.2 (scoredIn_of_resolve hsa)
  simpa using this

theorem playedAt_of_length {rounds : List (List Table)} {r : ℕ} (h : rounds.length ≤ r) :
    playedAt rounds r = [] := by
  simp [playedAt, List.getElem?_eq_none h]

theorem prelimEntries_extend {n : ℕ} (hn : t.rounds.length ≤ n) (sas : List (Uid × ℕ)) :
    prelimEntries t sas = (List.range n).flatMap fun r =>
      (playedAt t.rounds r).flatMap (pointEntries sas r) := by
  induction n, hn using Nat.le_induction with
  | base => exact prelimEntries_eq t sas
  | succ n hn ih =>
    rw [ih, List.range_succ, List.flatMap_append, List.flatMap_singleton, playedAt_of_length hn,
      List.flatMap_nil, List.append_nil]

theorem SameResults.prelimEntries (h : SameResults t t') (sas : List (Uid × ℕ)) :
    prelimEntries t' sas = prelimEntries t sas := by
  rw [prelimEntries_extend (le_max_left t.rounds.length t'.rounds.length),
    prelimEntries_extend (le_max_right t.rounds.length t'.rounds.length)]
  simp only [h.played]

end SameResults

/-! ### Rows -/

/-- The rows of the standings before they are ranked. -/
def prelimRows (t : Tournament) (sanctions : List Sanction) : List Standing :=
  let effectiveSas := resolveSaEffectiveRounds t sanctions
  (Tally.ofList (prelimEntries t effectiveSas)).map fun e =>
    prelimRow t sanctions (prelimSas t effectiveSas) e.1 e.2

theorem computePreliminaryStandings_eq (t : Tournament) (sanctions : List Sanction) :
    computePreliminaryStandings t sanctions = sortByRank (prelimRows t sanctions) := rfl

/-- A sheet in rank order. -/
def InRankOrder (rows : List Standing) : Prop :=
  rows.Pairwise fun a b => rankKey a ≤ rankKey b

theorem sortByRank_inRankOrder (rows : List Standing) : InRankOrder (sortByRank rows) := by
  have : Std.Total fun a b : Standing => rankKey a ≤ rankKey b := ⟨fun a b => le_total _ _⟩
  have : IsTrans Standing fun a b => rankKey a ≤ rankKey b := ⟨fun a b c => le_trans⟩
  exact List.pairwise_insertionSort _ rows

theorem sortByRank_of_inRankOrder {rows : List Standing} (h : InRankOrder rows) :
    sortByRank rows = rows :=
  List.Pairwise.insertionSort_eq h

theorem nodup_computePreliminaryStandings (t : Tournament) (sanctions : List Sanction) :
    ((computePreliminaryStandings t sanctions).map Standing.userUid).Nodup := by
  have hperm := (List.perm_insertionSort (fun a b => rankKey a ≤ rankKey b)
    (prelimRows t sanctions)).map Standing.userUid
  rw [computePreliminaryStandings_eq, sortByRank, hperm.nodup_iff, prelimRows, List.map_map]
  exact Tally.nodup_keys_ofList _

/-- What a row takes from a roster entry: disqualification, toss, finalist and proxy marks. -/
def Player.marks (p : Player) : Bool × ℕ × Bool × Bool :=
  (p.state == .disqualified, p.toss, p.finalist, p.nonCompeting)

/-- The marks of the player's entry; a player off the roster has none. -/
def sheetMarks (players : List Player) (uid : Uid) : Bool × ℕ × Bool × Bool :=
  (findPlayer players uid).elim (false, 0, false, false) Player.marks

section Rows

variable {t t' : Tournament} {sanctions : List Sanction}

theorem mem_tableEntries {sas : List (Uid × ℕ)} {r : ℕ} {tb : Table} {e : Uid × (ℚ × ℚ × ℚ)}
    (h : e ∈ tableEntries sas r tb) : tb.state = .finished ∧ e.1 ∈ tb.uids ∧ e.1 ≠ "" := by
  unfold tableEntries at h
  split at h
  · rename_i hs
    obtain ⟨hmem, hne⟩ := List.mem_filter.1 h
    exact ⟨hs, (List.of_mem_zip hmem).1, by simpa using hne⟩
  · cases h

theorem mem_prelimEntries {sas : List (Uid × ℕ)} {e : Uid × (ℚ × ℚ × ℚ)}
    (h : e ∈ prelimEntries t sas) : e.1 ∈ seatedUids t.rounds ∧ e.1 ≠ "" := by
  obtain ⟨ri, hri, h⟩ := List.mem_flatMap.1 h
  obtain ⟨tb, htb, h⟩ := List.mem_flatMap.1 h
  obtain ⟨-, hu, hne⟩ := mem_tableEntries h
  obtain ⟨-, hlt, hround⟩ := List.mem_zipIdx hri
  have hmem : ri.1 ∈ t.rounds := hround ▸ List.getElem_mem _
  exact ⟨List.mem_flatten.2 ⟨_, List.mem_map_of_mem hmem, List.mem_flatMap.2 ⟨tb, htb, hu⟩⟩, hne⟩

theorem prelimRow_eq (t : Tournament) (sanctions : List Sanction) (sas : List (Uid × ℕ))
    (uid : Uid) (total : ℚ × ℚ × ℚ) :
    prelimRow t sanctions sas uid total =
      let marks := sheetMarks t.players uid
      let disqualified := marks.1 || hasDqSanction sanctions uid
      { userUid := uid
        gw := if disqualified then 0 else total.1
        vp := if disqualified then 0 else total.2.1 - saVpPenalty sas uid
        tp := if disqualified then 0 else total.2.2
        toss := marks.2.1
        finalist := marks.2.2.1
        disqualified
        nonCompeting := marks.2.2.2
        withdrawn := false } := by
  unfold prelimRow sheetMarks
  cases findPlayer t.players uid <;> rfl

theorem prelimRow_congr {uid : Uid} (h : sheetMarks t'.players uid = sheetMarks t.players uid)
    (sas : List (Uid × ℕ)) (total : ℚ × ℚ × ℚ) :
    prelimRow t' sanctions sas uid total = prelimRow t sanctions sas uid total := by
  rw [prelimRow_eq, h, prelimRow_eq]

theorem SameResults.rows {β : Type} (h : SameResults t t') (sanctions : List Sanction)
    (g : Standing → β)
    (hrow : ∀ uid ∈ seatedUids t.rounds, ∀ sas total,
      g (prelimRow t' sanctions sas uid total) = g (prelimRow t sanctions sas uid total)) :
    (prelimRows t' sanctions).map g = (prelimRows t sanctions).map g := by
  unfold prelimRows
  simp only [h.resolve, h.prelimSas, h.prelimEntries, List.map_map]
  refine List.map_congr_left fun e he => hrow e.1 ?_ _ _
  have hkey : e.1 ∈ (Tally.ofList _).map Prod.fst := List.mem_map_of_mem he
  obtain ⟨e', he', heq⟩ := List.mem_map.1 (Tally.mem_keys_ofList.1 hkey)
  exact heq ▸ (mem_prelimEntries he').1

theorem SameResults.standings (h : SameResults t t')
    (hmarks : ∀ uid ∈ seatedUids t.rounds,
      sheetMarks t'.players uid = sheetMarks t.players uid) (sanctions : List Sanction) :
    computePreliminaryStandings t' sanctions = computePreliminaryStandings t sanctions := by
  have hrows := h.rows sanctions id fun uid hu sas total =>
    prelimRow_congr (hmarks uid hu) sas total
  rw [List.map_id, List.map_id] at hrows
  rw [computePreliminaryStandings_eq, hrows, computePreliminaryStandings_eq]

end Rows

/-! ### The refresh -/

theorem points_eq_zip (tb : Table) : tb.points = tb.uids.zip (seatVps tb.seating) := by
  rw [Table.points, Table.uids, seatVps, List.zip_map']

theorem isPlayed_eq (tb : Table) : tb.isPlayed = (tb.state == .finished && !tb.uids.isEmpty) := by
  simp [Table.isPlayed, Table.uids]

theorem refreshSeats_refreshSeats (seating : List Seat) (gws tps gws' tps' : List ℚ) :
    refreshSeats (refreshSeats seating gws tps) gws' tps' = refreshSeats seating gws' tps' := by
  refine List.ext_getElem? fun k => ?_
  simp only [refreshSeats, List.getElem?_map, List.getElem?_zipIdx]
  cases seating[k]? <;> rfl

theorem refreshTable_refreshTable (sas sas' : List (Uid × ℕ)) (r : ℕ) (tb : Table) :
    refreshTable sas' r (refreshTable sas r tb) = refreshTable sas' r tb := by
  have hscore : ∀ gws tps : List ℚ, scoreTable (refreshSeats tb.seating gws tps)
      (seatVps tb.seating) r sas' none = scoreTable tb.seating (seatVps tb.seating) r sas' none :=
    fun gws tps => scoreTable_congr (map_playerUid_refreshSeats tb.seating gws tps) _ _ _ _
  by_cases hc : tb.state = .cancelled
  · simp [refreshTable, hc]
  · by_cases hf : tb.state = .finished
    · simp [refreshTable, hf, refreshSeats_refreshSeats, hscore]
    · simp [refreshTable, hc, hf, refreshSeats_refreshSeats]

theorem refreshTable_points (sas : List (Uid × ℕ)) (r : ℕ) (tb : Table) :
    (refreshTable sas r tb).points = tb.points := by
  rw [points_eq_zip, refreshTable_uids, refreshTable_vps, points_eq_zip]

theorem refreshTable_isPlayed (sas : List (Uid × ℕ)) (r : ℕ) (tb : Table) :
    (refreshTable sas r tb).isPlayed = tb.isPlayed := by
  rw [isPlayed_eq, refreshTable_state, refreshTable_uids, isPlayed_eq]

theorem playedAt_of_map {rounds rounds' : List (List Table)} {f : Table → Table} {k : ℕ}
    (hplayed : ∀ tb, (f tb).isPlayed = tb.isPlayed) (hpoints : ∀ tb, (f tb).points = tb.points)
    (h : rounds'[k]? = (rounds[k]?).map (List.map f)) :
    playedAt rounds' k = playedAt rounds k := by
  rw [playedAt, h, playedAt]
  cases rounds[k]? with
  | none => rfl
  | some round =>
    have hplayed' : Table.isPlayed ∘ f = Table.isPlayed := funext hplayed
    have hpoints' : Table.points ∘ f = Table.points := funext hpoints
    rw [Option.map_some, Option.getD_some, Option.getD_some, List.filter_map, List.map_map,
      hplayed', hpoints']

section Refresh

variable (t : Tournament) (s : List Sanction)

theorem playedAt_updateStandings (r : ℕ) :
    playedAt (updateStandings t s).rounds r = playedAt t.rounds r := by
  have hround := updateStandings_getElem? t s r
  exact playedAt_of_map (refreshTable_isPlayed _ r) (refreshTable_points _ r) hround

theorem finalsUids_updateStandings : finalsUids (updateStandings t s) = finalsUids t := by
  unfold updateStandings
  extract_lets refreshed
  split
  · rfl
  · unfold refreshFinalsScoring
    split
    · rename_i f hf
      have hf' : t.finals = some f := hf
      split
      · simp [finalsUids, hf']
      · rfl
    · rfl

theorem sameResults_updateStandings : SameResults t (updateStandings t s) :=
  SameResults.of_length (playedAt_updateStandings t s) (updateStandings_length t s)
    (finalsUids_updateStandings t s)

theorem computePreliminaryStandings_updateStandings (sanctions : List Sanction) :
    computePreliminaryStandings (updateStandings t s) sanctions =
      computePreliminaryStandings t sanctions := by
  refine (sameResults_updateStandings t s).standings (fun uid _ => ?_) sanctions
  rw [updateStandings_players]

theorem updateStandings_standings (h : t.rounds ≠ []) :
    (updateStandings t s).standings = computePreliminaryStandings t s := by
  have hrounds : (refreshRoundScoring t s).rounds ≠ [] := by
    rw [← updateStandings_rounds]
    exact fun hnil => h ((updateStandings_rounds_eq_nil s).1 hnil)
  have hstored : (updateStandings t s).standings =
      computePreliminaryStandings (refreshRoundScoring t s) s := by
    unfold updateStandings
    extract_lets refreshed
    rw [if_neg (by simpa using hrounds)]
    unfold refreshFinalsScoring
    split
    · split <;> rfl
    · rfl
  have hsame : SameResults t (refreshRoundScoring t s) := by
    refine SameResults.of_length (fun r => ?_) (by simp [refreshRoundScoring]) rfl
    rw [← updateStandings_rounds, playedAt_updateStandings]
  rw [hstored, hsame.standings (fun _ _ => rfl)]

theorem updateStandings_standings_of_nil (h : t.rounds = []) :
    (updateStandings t s).standings = t.standings := by
  simp [updateStandings, refreshRoundScoring, h]

end Refresh

end Archon.Engine

import Archon.Backend.ArchonImport
import Archon.Backend.Scenario

/-!
# A spreadsheet that passes its validation

Validation raises on two things it reads: a round label of digits that `int` refuses, and a point
whose double is no number. What it accepts is applied and gives a well formed tournament when three
more things hold that it does not look at: every player listed has an id, every number seated is
listed, and no number sits twice in a round or in the final.
-/

namespace Archon.Backend
open Engine Guards Collect

/-! ### The numbers of the list -/

section Numbers

variable {users : String → Option Uid} {data : ArchonData} {n : ℤ} {uid : Uid}

theorem mem_foldl_noteNumber {players : List ArchonPlayer} {known : List (ℤ × Uid)}
    (h : (n, uid) ∈ players.foldl (noteNumber users) known) :
    (n, uid) ∈ known ∨ ∃ p ∈ players, p.number = n ∧ playerUid? users p = some uid := by
  induction players generalizing known with
  | nil => exact .inl h
  | cons p players ih =>
    rcases ih h with h | ⟨p', hp', h⟩
    · cases hp : playerUid? users p with
      | none =>
        rw [noteNumber, hp] at h
        exact .inl h
      | some u =>
        rw [noteNumber, hp] at h
        rcases Coalesce.mem_of_mem_put h with heq | h
        · cases heq
          exact .inr ⟨p, List.mem_cons_self, rfl, hp⟩
        · exact .inl h
    · exact .inr ⟨p', List.mem_cons_of_mem _ hp', h⟩

theorem mem_uidByNumber (h : (n, uid) ∈ uidByNumber users data) :
    ∃ p ∈ data.players, p.number = n ∧ playerUid? users p = some uid :=
  (mem_foldl_noteNumber h).resolve_left List.not_mem_nil

theorem nodup_uidByNumber : ((uidByNumber users data).map Prod.fst).Nodup := by
  have key : ∀ (players : List ArchonPlayer) (known : List (ℤ × Uid)),
      (known.map Prod.fst).Nodup →
        ((players.foldl (noteNumber users) known).map Prod.fst).Nodup := by
    intro players
    induction players with
    | nil => exact fun known h => h
    | cons p players ih =>
      intro known h
      refine ih _ ?_
      unfold noteNumber
      split
      · exact Coalesce.nodup_keys_put h
      · exact h
  exact key data.players [] List.nodup_nil

theorem mem_keys_foldl_noteNumber {players : List ArchonPlayer} {known : List (ℤ × Uid)}
    (h : ∀ p ∈ players, (playerUid? users p).isSome = true) :
    n ∈ (players.foldl (noteNumber users) known).map Prod.fst ↔
      n ∈ known.map Prod.fst ∨ ∃ p ∈ players, p.number = n := by
  induction players generalizing known with
  | nil => simp
  | cons p players ih =>
    obtain ⟨hp, h⟩ := List.forall_mem_cons.1 h
    obtain ⟨u, hu⟩ := Option.isSome_iff_exists.1 hp
    have hnote : noteNumber users known p = Coalesce.put p.number u known := by
      rw [noteNumber, hu]
    rw [List.foldl_cons, ih h, hnote, Coalesce.mem_keys_put]
    simp only [List.mem_cons, exists_eq_or_imp, @eq_comm _ n]
    tauto

theorem mem_keys_uidByNumber (h : ∀ p ∈ data.players, (playerUid? users p).isSome = true) :
    n ∈ (uidByNumber users data).map Prod.fst ↔ ∃ p ∈ data.players, p.number = n := by
  rw [uidByNumber, mem_keys_foldl_noteNumber h]
  simp

theorem mem_of_uidOf (h : n ∈ (uidByNumber users data).map Prod.fst) :
    (n, uidOf users data n) ∈ uidByNumber users data := by
  obtain ⟨u, hu⟩ := Option.isSome_iff_exists.1 (Coalesce.waiting_isSome.2 h)
  rw [uidOf, hu, Option.getD_some]
  exact Coalesce.mem_of_waiting hu

theorem number_eq_of_uid (hinj : ∀ {a b u}, users a = some u → users b = some u → a = b)
    (hids : ((data.players.map ArchonPlayer.veknId).filter fun v => v ≠ "").Nodup) {n' : ℤ}
    (h : (n, uid) ∈ uidByNumber users data) (h' : (n', uid) ∈ uidByNumber users data) :
    n = n' := by
  obtain ⟨p, hp, rfl, huid⟩ := mem_uidByNumber h
  obtain ⟨p', hp', rfl, huid'⟩ := mem_uidByNumber h'
  unfold playerUid? at huid huid'
  split at huid
  · cases huid
  rename_i hne
  split at huid'
  · cases huid'
  rename_i hne'
  rw [List.filter_map] at hids
  have heq : p = p' := List.inj_on_of_nodup_map hids (List.mem_filter.2 ⟨hp, by simpa using hne⟩)
    (List.mem_filter.2 ⟨hp', by simpa using hne'⟩) (hinj huid huid')
  rw [heq]

theorem nodup_knownUids (hinj : ∀ {a b u}, users a = some u → users b = some u → a = b)
    (hids : ((data.players.map ArchonPlayer.veknId).filter fun v => v ≠ "").Nodup) :
    (knownUids users data).Nodup := by
  have hnumbers : ((uidByNumber users data).map Prod.fst).Nodup := nodup_uidByNumber
  refine List.Nodup.map_on ?_ hnumbers.of_map
  rintro ⟨n, u⟩ h ⟨n', u'⟩ h' rfl
  rw [number_eq_of_uid hinj hids h h']

end Numbers

/-! ### What is built -/

section Built

variable {users : String → Option Uid} {data : ArchonData} {actor : Uid} {built : BuiltImport}

theorem unmatchedPlayers_eq_nil :
    unmatchedPlayers users data = [] ↔
      ∀ p ∈ data.players, (playerUid? users p).isSome = true := by
  rw [unmatchedPlayers, List.map_eq_nil_iff, List.filter_eq_nil_iff]
  exact forall₂_congr fun p _ => by rw [Bool.not_eq_true, Option.isNone_eq_false_iff]

theorem buildImport_eq_ok :
    buildImport users data actor = .ok built ↔
      (∀ p ∈ data.players, (playerUid? users p).isSome = true) ∧
      (∀ n ∈ seatedNumbers data, n ∈ (uidByNumber users data).map Prod.fst) ∧
      (∀ uid ∈ knownUids users data,
        (Tally.sumFor (prelimScores users data actor) uid).2.1.IsNum) ∧
      built = builtImport users data actor := by
  have hlisted : (∀ n ∈ seatedNumbers data, n ∈ (uidByNumber users data).map Prod.fst) ↔
      (seatedNumbers data).find? (fun n =>
        (Coalesce.waiting n (uidByNumber users data)).isNone) = none := by
    rw [List.find?_eq_none]
    exact forall₂_congr fun n _ => by
      rw [Bool.not_eq_true, Option.isNone_eq_false_iff, Coalesce.waiting_isSome]
  rw [buildImport, ensure_bind_eq_ok, unmatchedPlayers_eq_nil, hlisted]
  refine and_congr_right fun _ => ?_
  cases (seatedNumbers data).find? fun n =>
      (Coalesce.waiting n (uidByNumber users data)).isNone with
  | some n => simp
  | none =>
    simp only [ensure_bind_eq_ok, pure_eq_ok, true_and]
    exact and_congr_right fun _ => eq_comm

end Built

/-! ### What validation reads -/

section Validation

variable {digits : PyDigits} {data : ArchonData}

/-- A point whose double is a number. -/
def ReadableVp (v : FloatValue) : Prop := ∃ q, v = .num q ∧ |q| < 2 ^ 1023

/-- Validation can read the labels of the override sheet and the points of the tables. -/
structure Readable (digits : PyDigits) (data : ArchonData) : Prop where
  labels : ∀ o ∈ data.overrides, o.isFinal = false → digits.isdigit o.round = true →
    (digits.int o.round).isSome = true
  vps : ∀ round ∈ data.rounds, ∀ tb ∈ round, tb.seats.length = 4 ∨ tb.seats.length = 5 →
    ∀ v ∈ tb.vps, ReadableVp v

theorem forall_mem_zipIdx_fst {α : Type*} {xs : List α} {P : α → Prop} :
    (∀ x ∈ xs.zipIdx, P x.1) ↔ ∀ x ∈ xs, P x := by
  conv_rhs => rw [← List.zipIdx_map_fst 0 xs, List.forall_mem_map]

theorem doubledVp_eq_num {v : FloatValue} {h : ℚ} :
    doubledVp v = .num h ↔ ∃ q, v = .num q ∧ |q| < 2 ^ 1023 ∧ 2 * q = h := by
  cases v with
  | num q => by_cases hq : |q| < 2 ^ 1023 <;> simp [doubledVp, hq]
  | inf s => simp [doubledVp]
  | nan => simp [doubledVp]

theorem seatErrors_ends {place : SheetPlace} {size : ℕ} {vi : FloatValue × ℕ} :
    (∃ errors, seatErrors place size vi = .ok errors) ↔ ReadableVp vi.1 := by
  unfold seatErrors ReadableVp
  split
  · rename_i h hdouble
    obtain ⟨q, hv, hq, -⟩ := doubledVp_eq_num.1 hdouble
    exact iff_of_true ⟨_, rfl⟩ ⟨q, hv, hq⟩
  · rename_i hdouble
    refine iff_of_false (by simp) ?_
    rintro ⟨q, hv, hq⟩
    exact hdouble _ (doubledVp_eq_num.2 ⟨q, hv, hq, rfl⟩)

theorem overrideErrors_ends {oi : ArchonOverride × ℕ} :
    (∃ errors, overrideErrors digits data oi = .ok errors) ↔
      (oi.1.isFinal = false → digits.isdigit oi.1.round = true →
        (digits.int oi.1.round).isSome = true) := by
  have hends : (∃ errors, overrideErrors digits data oi = .ok errors) ↔
      ∃ found, overrideExists digits data oi.1 = .ok found := by
    simp only [overrideErrors, bind_eq_ok, pure_eq_ok]
    constructor
    · rintro ⟨errors, found, hfound, -⟩
      exact ⟨found, hfound⟩
    · rintro ⟨found, hfound⟩
      exact ⟨_, found, hfound, rfl⟩
  rw [hends]
  unfold overrideExists
  cases oi.1.isFinal with
  | true => simp
  | false =>
    cases digits.isdigit oi.1.round with
    | false => simp
    | true => cases digits.int oi.1.round <;> simp

theorem tableErrors_ends {r : ℕ} {tb : ArchonRoundTable} :
    (∃ errors, tableErrors data r tb = .ok errors) ↔
      (tb.seats.length = 4 ∨ tb.seats.length = 5 → ∀ v ∈ tb.vps, ReadableVp v) := by
  unfold tableErrors
  extract_lets place size
  by_cases hsize : size = 4 ∨ size = 5
  · rw [if_pos hsize]
    have hseats : (∃ errors, collect (seatErrors place size) tb.vps.zipIdx = .ok errors) ↔
        ∀ v ∈ tb.vps, ReadableVp v := by
      rw [collect_ends]
      simp only [seatErrors_ends]
      exact forall_mem_zipIdx_fst
    simp only [bind_eq_ok, pure_eq_ok]
    constructor
    · rintro ⟨errors, found, hfound, -⟩ -
      exact hseats.1 ⟨found, hfound⟩
    · intro h
      obtain ⟨found, hfound⟩ := hseats.2 (h hsize)
      exact ⟨_, found, hfound, rfl⟩
  · rw [if_neg hsize]
    exact iff_of_true ⟨_, rfl⟩ fun h => absurd h hsize

theorem validateArchonImport_ends :
    (∃ errors, validateArchonImport digits data = .ok errors) ↔ Readable digits data := by
  have hoverrides : (∃ errors,
      collect (overrideErrors digits data) data.overrides.zipIdx = .ok errors) ↔
      ∀ o ∈ data.overrides, o.isFinal = false → digits.isdigit o.round = true →
        (digits.int o.round).isSome = true := by
    rw [collect_ends]
    simp only [overrideErrors_ends]
    exact forall_mem_zipIdx_fst (P := fun o : ArchonOverride => o.isFinal = false →
      digits.isdigit o.round = true → (digits.int o.round).isSome = true)
  have hrounds : (∃ errors, collect (fun ri : List ArchonRoundTable × ℕ =>
      collect (tableErrors data ri.2) ri.1) data.rounds.zipIdx = .ok errors) ↔
      ∀ round ∈ data.rounds, ∀ tb ∈ round, tb.seats.length = 4 ∨ tb.seats.length = 5 →
        ∀ v ∈ tb.vps, ReadableVp v := by
    rw [collect_ends]
    simp only [collect_ends, tableErrors_ends]
    exact forall_mem_zipIdx_fst (P := fun round : List ArchonRoundTable => ∀ tb ∈ round,
      tb.seats.length = 4 ∨ tb.seats.length = 5 → ∀ v ∈ tb.vps, ReadableVp v)
  simp only [validateArchonImport, bind_eq_ok, pure_eq_ok]
  constructor
  · rintro ⟨errors, found, hfound, others, hothers, -⟩
    exact ⟨hoverrides.1 ⟨found, hfound⟩, hrounds.1 ⟨others, hothers⟩⟩
  · rintro ⟨hlabels, hvps⟩
    obtain ⟨found, hfound⟩ := hoverrides.2 hlabels
    obtain ⟨others, hothers⟩ := hrounds.2 hvps
    exact ⟨_, found, hfound, others, hothers, rfl⟩

/-! ### What validation accepts -/

/-- A table that passed: its size and its points, played out unless a judge ruled. -/
structure PassedTable (data : ArchonData) (r : ℕ) (tb : ArchonRoundTable) : Prop where
  size : tb.seats.length = 4 ∨ tb.seats.length = 5
  nums : ∀ v ∈ tb.vps, v.IsNum
  played : overrideComment data (roundLabel r) tb.number = none → engineVpError tb.vps = none

structure PassedFinals (data : ArchonData) (f : ArchonRoundTable) : Prop where
  size : f.seats.length = 4 ∨ f.seats.length = 5
  played : overrideComment data "F" 0 = none → engineVpError f.vps = none

structure Accepted (data : ArchonData) : Prop where
  ids : ((data.players.map ArchonPlayer.veknId).filter fun v => v ≠ "").Nodup
  rounds : data.rounds ≠ []
  tables : ∀ ri ∈ data.rounds.zipIdx, ∀ tb ∈ ri.1, PassedTable data ri.2 tb
  finals : ∀ f ∈ data.finals, PassedFinals data f

theorem nodup_of_duplicates {veknIds : List String} (h : duplicates veknIds = []) :
    veknIds.Nodup := by
  rw [duplicates, List.filterMap_eq_nil_iff] at h
  rw [List.nodup_iff_pairwise_ne, List.pairwise_iff_getElem]
  intro i j hi hj hij heq
  have hmem : (veknIds[j], j) ∈ veknIds.zipIdx :=
    List.mk_mem_zipIdx_iff_getElem?.2 (List.getElem?_eq_getElem hj)
  have hnone := h _ hmem
  have htake : veknIds[j] ∈ veknIds.take j := by
    rw [List.mem_take_iff_getElem]
    exact ⟨i, by omega, heq⟩
  rw [if_pos htake] at hnone
  cases hnone

theorem refusals_eq_nil {place : SheetPlace} {vps : List FloatValue} :
    refusals place vps = [] ↔ engineVpError vps = none := by
  rw [refusals, List.map_eq_nil_iff, Option.toList_eq_nil_iff]

theorem passedTable_of_errors {r : ℕ} {tb : ArchonRoundTable}
    (h : tableErrors data r tb = .ok []) : PassedTable data r tb := by
  unfold tableErrors at h
  extract_lets place size at h
  by_cases hsize : size = 4 ∨ size = 5
  · rw [if_pos hsize, bind_eq_ok] at h
    obtain ⟨found, hfound, hnil⟩ := h
    rw [pure_eq_ok, List.append_eq_nil_iff] at hnil
    obtain ⟨rfl, hplayed⟩ := hnil
    refine ⟨hsize, ?_, fun hcomment => ?_⟩
    · have hread : ∀ v ∈ tb.vps, ReadableVp v := by
        rw [← forall_mem_zipIdx_fst]
        exact fun vi hvi => seatErrors_ends.1 ⟨_, collect_eq_nil.1 hfound vi hvi⟩
      intro v hv
      obtain ⟨q, hq, -⟩ := hread v hv
      exact ⟨q, hq⟩
    · rw [hcomment] at hplayed
      exact refusals_eq_nil.1 hplayed
  · rw [if_neg hsize] at h
    cases h

theorem passedFinals_of_errors (h : finalsErrors data = []) :
    ∀ f ∈ data.finals, PassedFinals data f := by
  intro f hf
  unfold finalsErrors at h
  rw [Option.mem_def.1 hf] at h
  simp only at h
  split at h
  · rename_i hsize
    refine ⟨hsize, fun hcomment => ?_⟩
    rw [hcomment] at h
    exact refusals_eq_nil.1 h
  · cases h

theorem accepted_of_validate (h : validateArchonImport digits data = .ok []) : Accepted data := by
  simp only [validateArchonImport, bind_eq_ok, pure_eq_ok, List.append_eq_nil_iff] at h
  obtain ⟨overrides, -, rounds, hrounds, ⟨⟨hplayers, -⟩, rfl⟩, hfinals⟩ := h
  simp only [playerErrors, List.append_eq_nil_iff] at hplayers
  obtain ⟨⟨-, hsome⟩, hids⟩ := hplayers
  refine ⟨nodup_of_duplicates hids, fun hnil => ?_, fun ri hri tb htb => ?_,
    passedFinals_of_errors hfinals⟩
  · rw [if_pos hnil] at hsome
    cases hsome
  · exact passedTable_of_errors (collect_eq_nil.1 (collect_eq_nil.1 hrounds ri hri) tb htb)

end Validation

/-! ### What is stored -/

/-- Every seat is of a player of the roster, each sits once in a round and in the final, and the
tables no judge ruled on can have been played. -/
structure ResultsFormed (t : Tournament) : Prop where
  roster : (t.players.filterMap Player.userUid).Nodup
  seated : ∀ round ∈ t.rounds, ∀ tb ∈ round, ∀ uid ∈ tb.uids,
    uid ∈ t.players.filterMap Player.userUid
  finalists : ∀ f ∈ t.finals, ∀ uid ∈ f.seating.map Seat.playerUid,
    uid ∈ t.players.filterMap Player.userUid
  once : ∀ round ∈ t.rounds, (round.flatMap Table.uids).Nodup
  finalsOnce : ∀ f ∈ t.finals, (f.seating.map Seat.playerUid).Nodup
  legal : ∀ round ∈ t.rounds, ∀ tb ∈ round, tb.override = none →
    checkTableVps (seatVps tb.seating) = none
  finalsLegal : ∀ f ∈ t.finals, f.override = none → checkTableVps (seatVps f.seating) = none

section Stored

variable {users : String → Option Uid} {data : ArchonData} {actor : Uid} {r : ℕ}
variable {tb : ArchonRoundTable} {gws tps : List ℚ}

theorem map_fst_scoreSeats {β : Type*} (f : ℤ × FloatValue → β) (g : BuiltSeat → β)
    (h : ∀ s gw tp, g ⟨uidOf users data s.1, gw, s.2, tp⟩ = f s) :
    (scoreSeats users data tb gws tps).map g = tb.seats.map f := by
  rw [scoreSeats, List.map_map, ← List.zipIdx_map_fst 0 tb.seats, List.map_map,
    List.zipIdx_map_fst]
  exact List.map_congr_left fun si _ => h si.1 _ _

theorem uids_scoreSeats : (scoreSeats users data tb gws tps).map BuiltSeat.playerUid =
    tb.numbers.map (uidOf users data) := by
  rw [ArchonRoundTable.numbers, List.map_map]
  exact map_fst_scoreSeats _ _ fun _ _ _ => rfl

theorem vps_scoreSeats : (scoreSeats users data tb gws tps).map BuiltSeat.vp = tb.vps :=
  map_fst_scoreSeats _ _ fun _ _ _ => rfl

theorem uids_stored (b : BuiltTable) : b.stored.uids = b.uids := by
  rw [Table.uids, BuiltTable.stored, List.map_map]
  rfl

theorem uids_storedFinals (b : BuiltTable) :
    b.storedFinals.seating.map Seat.playerUid = b.uids := by
  rw [BuiltTable.storedFinals, List.map_map]
  rfl

theorem seatVps_stored (seats : List BuiltSeat) :
    seatVps (seats.map BuiltSeat.stored) = (seats.map BuiltSeat.vp).map FloatValue.read := by
  rw [seatVps, List.map_map, List.map_map]
  rfl

theorem uids_buildTable :
    (buildTable users data actor r tb).uids = tb.numbers.map (uidOf users data) := uids_scoreSeats

theorem uids_buildFinals :
    (buildFinals users data actor tb).uids = tb.numbers.map (uidOf users data) := uids_scoreSeats

theorem checkTableVps_of_engine {vps : List FloatValue} (h : engineVpError vps = none) :
    checkTableVps (vps.map FloatValue.read) = none := by
  unfold engineVpError at h
  split at h
  · exact h
  · cases h

theorem isNum_of_mem_prelimScores (h : Accepted data) {e : Uid × (ℤ × FloatValue × ℤ)}
    (he : e ∈ prelimScores users data actor) : e.2.2.1.IsNum := by
  simp only [prelimScores, builtRounds, List.mem_flatMap, List.mem_map] at he
  obtain ⟨-, ⟨ri, hri, rfl⟩, b, hb, he⟩ := he
  obtain ⟨tb, htb, rfl⟩ := List.mem_map.1 hb
  obtain ⟨s, hs, rfl⟩ := List.mem_map.1 he
  refine (h.tables ri hri tb htb).nums s.vp ?_
  rw [← vps_scoreSeats]
  exact List.mem_map_of_mem hs

theorem isNum_prelimScores (h : Accepted data) (uid : Uid) :
    (Tally.sumFor (prelimScores users data actor) uid).2.1.IsNum := by
  refine Tally.sumFor_induction (P := fun total : ℤ × FloatValue × ℤ => total.2.1.IsNum)
    ⟨0, rfl⟩ ?_ (fun e he => isNum_of_mem_prelimScores h he) uid
  rintro ⟨-, x, -⟩ ⟨-, y, -⟩ ⟨p, rfl⟩ ⟨q, rfl⟩
  exact ⟨p + q, rfl⟩

end Stored

section Formed

variable {users : String → Option Uid} {data : ArchonData} {actor : Uid} {env : Env}
variable {t : StoredTournament}

/-- The document an import leaves. -/
abbrev importedDoc (users : String → Option Uid) (data : ArchonData) (actor : Uid) (env : Env)
    (t : StoredTournament) : Tournament :=
  (importedRow env t (builtImport users data actor).stored).doc

theorem roster_importedDoc : (importedDoc users data actor env t).players.filterMap Player.userUid =
    knownUids users data := by
  change ((knownUids users data).map (builtPlayer users data actor)).filterMap Player.userUid = _
  rw [List.filterMap_map]
  exact List.filterMap_some

theorem mem_rounds_importedDoc {round : List Table} :
    round ∈ (importedDoc users data actor env t).rounds ↔ ∃ ri ∈ data.rounds.zipIdx,
      round = ri.1.map fun tb => (buildTable users data actor ri.2 tb).stored := by
  change round ∈ (builtRounds users data actor).map (fun round => round.map BuiltTable.stored) ↔ _
  simp only [builtRounds, List.map_map, List.mem_map, Function.comp_def, eq_comm]

theorem finals_importedDoc : (importedDoc users data actor env t).finals =
    data.finals.map fun f => (buildFinals users data actor f).storedFinals := by
  change ((data.finals.map _).map _) = _
  rw [Option.map_map]
  rfl

theorem uids_storedRound (ri : List ArchonRoundTable × ℕ) :
    (ri.1.map fun tb => (buildTable users data actor ri.2 tb).stored).flatMap Table.uids =
      (ri.1.flatMap ArchonRoundTable.numbers).map (uidOf users data) := by
  simp only [List.flatMap_map, uids_stored, uids_buildTable, List.map_flatMap]

theorem mem_seatedNumbers_of_round {ri : List ArchonRoundTable × ℕ}
    (hri : ri ∈ data.rounds.zipIdx) {n : ℤ} (hn : n ∈ ri.1.flatMap ArchonRoundTable.numbers) :
    n ∈ seatedNumbers data :=
  List.mem_append_left _ (List.mem_flatMap.2 ⟨ri.1, List.fst_mem_of_mem_zipIdx hri, hn⟩)

theorem mem_seatedNumbers_of_finals {f : ArchonRoundTable} (hf : data.finals = some f) {n : ℤ}
    (hn : n ∈ f.numbers) : n ∈ seatedNumbers data := by
  rw [seatedNumbers, hf]
  exact List.mem_append_right _ hn

theorem resultsFormed_iff (haccepted : Accepted data)
    (hinj : ∀ {a b u}, users a = some u → users b = some u → a = b)
    (hlisted : ∀ n ∈ seatedNumbers data, n ∈ (uidByNumber users data).map Prod.fst) :
    ResultsFormed (importedDoc users data actor env t) ↔
      (∀ round ∈ data.rounds, (round.flatMap ArchonRoundTable.numbers).Nodup) ∧
        ∀ f ∈ data.finals, f.numbers.Nodup := by
  have huid : ∀ n ∈ seatedNumbers data, ∀ n' ∈ seatedNumbers data,
      uidOf users data n = uidOf users data n' → n = n' := by
    intro n hn n' hn' heq
    have hmem := mem_of_uidOf (hlisted n hn)
    rw [heq] at hmem
    exact number_eq_of_uid hinj haccepted.ids hmem (mem_of_uidOf (hlisted n' hn'))
  have hknown : ∀ n ∈ seatedNumbers data, uidOf users data n ∈ knownUids users data :=
    fun n hn => List.mem_map_of_mem (mem_of_uidOf (hlisted n hn))
  have honce : ∀ ns : List ℤ, (∀ n ∈ ns, n ∈ seatedNumbers data) →
      ((ns.map (uidOf users data)).Nodup ↔ ns.Nodup) := fun ns hns =>
    ⟨List.Nodup.of_map _, List.Nodup.map_on fun n hn n' hn' =>
      huid n (hns n hn) n' (hns n' hn')⟩
  constructor
  · intro h
    refine ⟨fun round hround => ?_, fun f hf => ?_⟩
    · obtain ⟨r, hr⟩ := List.mem_iff_getElem?.1 hround
      have hri : (round, r) ∈ data.rounds.zipIdx := List.mk_mem_zipIdx_iff_getElem?.2 hr
      have hnodup := h.once _ (mem_rounds_importedDoc.2 ⟨(round, r), hri, rfl⟩)
      rw [uids_storedRound] at hnodup
      exact hnodup.of_map
    · have hfinals : (importedDoc users data actor env t).finals =
          some (buildFinals users data actor f).storedFinals := by
        rw [finals_importedDoc, Option.mem_def.1 hf, Option.map_some]
      have hnodup := h.finalsOnce _ hfinals
      rw [uids_storedFinals, uids_buildFinals] at hnodup
      exact hnodup.of_map
  · rintro ⟨hrounds, hfinals⟩
    have hround : ∀ round ∈ (importedDoc users data actor env t).rounds,
        round.flatMap Table.uids ⊆ knownUids users data ∧ (round.flatMap Table.uids).Nodup := by
      intro round hround
      obtain ⟨ri, hri, rfl⟩ := mem_rounds_importedDoc.1 hround
      rw [uids_storedRound, honce _ fun n hn => mem_seatedNumbers_of_round hri hn]
      refine ⟨fun uid huid => ?_, hrounds ri.1 (List.fst_mem_of_mem_zipIdx hri)⟩
      obtain ⟨n, hn, rfl⟩ := List.mem_map.1 huid
      exact hknown n (mem_seatedNumbers_of_round hri hn)
    have hfinal : ∀ f' ∈ (importedDoc users data actor env t).finals, ∃ f, data.finals = some f ∧
        f' = (buildFinals users data actor f).storedFinals := by
      intro f' hf'
      rw [Option.mem_def, finals_importedDoc, Option.map_eq_some_iff] at hf'
      obtain ⟨f, hf, rfl⟩ := hf'
      exact ⟨f, hf, rfl⟩
    refine ⟨?_, ?_, ?_, fun round h => (hround round h).2, ?_, ?_, ?_⟩
    · rw [roster_importedDoc]
      exact nodup_knownUids hinj haccepted.ids
    · intro round h tb htb uid huid
      rw [roster_importedDoc]
      exact (hround round h).1 (List.mem_flatMap.2 ⟨tb, htb, huid⟩)
    · intro f' hf' uid huid
      obtain ⟨f, hf, rfl⟩ := hfinal f' hf'
      rw [uids_storedFinals, uids_buildFinals] at huid
      obtain ⟨n, hn, rfl⟩ := List.mem_map.1 huid
      rw [roster_importedDoc]
      exact hknown n (mem_seatedNumbers_of_finals hf hn)
    · intro f' hf'
      obtain ⟨f, hf, rfl⟩ := hfinal f' hf'
      rw [uids_storedFinals, uids_buildFinals,
        honce _ fun n hn => mem_seatedNumbers_of_finals hf hn]
      exact hfinals f hf
    · intro round h tb' htb' hoverride
      obtain ⟨ri, hri, rfl⟩ := mem_rounds_importedDoc.1 h
      obtain ⟨tb, htb, rfl⟩ := List.mem_map.1 htb'
      have hplayed := (haccepted.tables ri hri tb htb).played (Option.map_eq_none_iff.1 hoverride)
      rw [BuiltTable.stored, seatVps_stored]
      exact vps_scoreSeats ▸ checkTableVps_of_engine hplayed
    · intro f' hf' hoverride
      obtain ⟨f, hf, rfl⟩ := hfinal f' hf'
      have hplayed := (haccepted.finals f hf).played (Option.map_eq_none_iff.1 hoverride)
      rw [BuiltTable.storedFinals, seatVps_stored]
      exact vps_scoreSeats ▸ checkTableVps_of_engine hplayed

end Formed

/-! ### The import -/

section Import

variable {env : Env} {objects : Objects} {uid actor : Uid} {t : StoredTournament}
variable {digits : PyDigits} {data : ArchonData}

/-- Every id of the list is of a member. -/
def IdsResolve (objects : Objects) (data : ArchonData) : Prop :=
  ∀ p ∈ data.players, p.veknId ≠ "" → (getUserByVeknId objects p.veknId).isSome = true

/-- What validation takes for granted: every player has an id, every number seated is listed, no
number sits twice in a round or in the final. -/
structure SeatsListed (data : ArchonData) : Prop where
  identified : ∀ p ∈ data.players, p.veknId ≠ ""
  listed : ∀ n ∈ seatedNumbers data, ∃ p ∈ data.players, p.number = n
  once : ∀ round ∈ data.rounds, (round.flatMap ArchonRoundTable.numbers).Nodup
  finalsOnce : ∀ f ∈ data.finals, f.numbers.Nodup

/-- The import succeeds and leaves a well formed tournament. -/
def ImportsFormed (env : Env) (objects : Objects) (uid : Uid) (data : ArchonData) (actor : Uid) :
    Prop :=
  ∃ built objects', applyArchonImport env objects uid data actor = .ok (built, objects') ∧
    ∃ t', objects'.tournament? uid = some t' ∧ ResultsFormed t'.doc

/-- The members by id. -/
abbrev uidsByVeknIdOf (objects : Objects) (veknId : String) : Option Uid :=
  (getUserByVeknId objects veknId).map User.uid

theorem veknId_of_uid (hkeyed : WellKeyed objects) {a b : String} {u : Uid}
    (ha : uidsByVeknIdOf objects a = some u) (hb : uidsByVeknIdOf objects b = some u) : a = b := by
  obtain ⟨x, hx, rfl⟩ := Option.map_eq_some_iff.1 ha
  obtain ⟨y, hy, huid⟩ := Option.map_eq_some_iff.1 hb
  have hxmem := (mem_users hkeyed).1 (List.mem_of_find?_eq_some hx)
  have hymem := (mem_users hkeyed).1 (List.mem_of_find?_eq_some hy)
  rw [huid, hxmem] at hymem
  cases hymem
  have hxid := List.find?_some hx
  have hyid := List.find?_some hy
  rw [Bool.and_eq_true, beq_iff_eq] at hxid hyid
  exact Option.some.inj (hxid.1.symm.trans hyid.1)

theorem applyArchonImport_eq_ok (ht : objects.tournament? uid = some t) (hkeyed : WellKeyed objects)
    {built : BuiltImport} {objects' : Objects}
    (h : applyArchonImport env objects uid data actor = .ok (built, objects')) :
    buildImport (uidsByVeknIdOf objects) data actor = .ok built ∧
      objects'.tournament? uid = some (importedRow env t built.stored) := by
  simp only [applyArchonImport, bind_eq_ok, okOr_eq_ok, pure_eq_ok] at h
  obtain ⟨built', hbuilt, t', ht', heq⟩ := h
  obtain rfl : t' = t := Option.some.inj (ht'.symm.trans ht)
  cases heq
  exact ⟨hbuilt, (row_of_imported hkeyed ht _ _ _).2⟩

theorem applyArchonImport_of_built (ht : objects.tournament? uid = some t) {built : BuiltImport}
    (h : buildImport (uidsByVeknIdOf objects) data actor = .ok built) :
    ∃ objects', applyArchonImport env objects uid data actor = .ok (built, objects') := by
  simp only [applyArchonImport, bind_eq_ok, okOr_eq_ok, pure_eq_ok]
  exact ⟨_, built, h, t, ht, rfl⟩

theorem playerUid?_isSome_iff (hresolve : IdsResolve objects data) :
    (∀ p ∈ data.players, (playerUid? (uidsByVeknIdOf objects) p).isSome = true) ↔
      ∀ p ∈ data.players, p.veknId ≠ "" := by
  refine forall₂_congr fun p hp => ?_
  unfold playerUid?
  by_cases hid : p.veknId = ""
  · simp [hid]
  · simp [hid, hresolve p hp hid]

theorem importsFormed_iff (hkeyed : WellKeyed objects) (ht : objects.tournament? uid = some t)
    (haccepted : Accepted data) (hresolve : IdsResolve objects data) :
    ImportsFormed env objects uid data actor ↔ SeatsListed data := by
  have hinj : ∀ {a b u}, uidsByVeknIdOf objects a = some u → uidsByVeknIdOf objects b = some u →
      a = b := veknId_of_uid hkeyed
  constructor
  · rintro ⟨built, objects', happly, t', ht', hformed⟩
    obtain ⟨hbuilt, hrow⟩ := applyArchonImport_eq_ok ht hkeyed happly
    obtain ⟨hmatched, hlisted, -, rfl⟩ := buildImport_eq_ok.1 hbuilt
    cases ht'.symm.trans hrow
    obtain ⟨honce, hfinals⟩ := (resultsFormed_iff haccepted hinj hlisted).1 hformed
    exact ⟨(playerUid?_isSome_iff hresolve).1 hmatched,
      fun n hn => (mem_keys_uidByNumber hmatched).1 (hlisted n hn), honce, hfinals⟩
  · rintro ⟨hidentified, hnumbers, honce, hfinals⟩
    have hmatched := (playerUid?_isSome_iff hresolve).2 hidentified
    have hlisted : ∀ n ∈ seatedNumbers data,
        n ∈ (uidByNumber (uidsByVeknIdOf objects) data).map Prod.fst :=
      fun n hn => (mem_keys_uidByNumber hmatched).2 (hnumbers n hn)
    have hbuilt : buildImport (uidsByVeknIdOf objects) data actor =
        .ok (builtImport (uidsByVeknIdOf objects) data actor) :=
      buildImport_eq_ok.2 ⟨hmatched, hlisted, fun u _ => isNum_prelimScores haccepted u, rfl⟩
    obtain ⟨objects', happly⟩ :
        ∃ objects', applyArchonImport env objects uid data actor = .ok (_, objects') :=
      applyArchonImport_of_built ht hbuilt
    exact ⟨_, objects', happly, _, (applyArchonImport_eq_ok ht hkeyed happly).2,
      (resultsFormed_iff haccepted hinj hlisted).2 ⟨honce, hfinals⟩⟩

/-- Validation ends, and what it accepts is imported well formed, exactly on the sheets it can
read whose seats are listed. -/
theorem archonImport_sound_iff (hkeyed : WellKeyed objects)
    (ht : objects.tournament? uid = some t) :
    ((∃ errors, validateArchonImport digits data = .ok errors) ∧
      (validateArchonImport digits data = .ok [] → IdsResolve objects data →
        ImportsFormed env objects uid data actor)) ↔
    Readable digits data ∧
      (validateArchonImport digits data = .ok [] → IdsResolve objects data →
        SeatsListed data) := by
  rw [validateArchonImport_ends]
  exact and_congr_right fun _ => forall₂_congr fun hvalid hresolve =>
    importsFormed_iff hkeyed ht (accepted_of_validate hvalid) hresolve

end Import

/-! ### Five members at one table -/

/-- The event with a fifth member. -/
def sheetTable : Objects := saveUser eventTable (member "c" [])

theorem sheetTable_keyed : WellKeyed sheetTable := wellKeyed_saveUser eventTable_keyed _

/-- The five members, numbered from one. -/
def sheetOf (rounds : List (List ArchonRoundTable)) (finals : Option ArchonRoundTable)
    (overrides : List ArchonOverride) : ArchonData where
  players := [⟨1, "Vasily", "", "prince"⟩, ⟨2, "Lucita", "", "judge"⟩, ⟨3, "Anson", "", "a"⟩,
    ⟨4, "Beckett", "", "b"⟩, ⟨5, "Carna", "", "c"⟩]
  rounds := rounds
  finals := finals
  overrides := overrides

def asciiDigits : PyDigits :=
  ⟨Char.isDigit, fun c => if c.isDigit = true then some (c.toNat - 48) else none⟩

/-- A table whose first seat ousted the others. -/
def swept (numbers : List ℤ) : ArchonRoundTable :=
  ⟨numbers.zip [.num 5, .num 0, .num 0, .num 0, .num 0], 1⟩

theorem archonImport_sound_swept :
    ImportsFormed venue sheetTable "event" (sheetOf [[swept [1, 2, 3, 4, 5]]] none
      []) "prince" := by
  have hvalid : validateArchonImport asciiDigits (sheetOf [[swept [1, 2, 3, 4, 5]]] none []) =
      .ok [] := by decide +kernel
  have hreadable : Readable asciiDigits (sheetOf [[swept [1, 2, 3, 4, 5]]] none []) :=
    validateArchonImport_ends.1 ⟨[], hvalid⟩
  have hlisted : SeatsListed (sheetOf [[swept [1, 2, 3, 4, 5]]] none []) :=
    ⟨by decide, by decide, by decide, by simp [sheetOf]⟩
  exact ((archonImport_sound_iff sheetTable_keyed (t := event) rfl).2
    ⟨hreadable, fun _ _ => hlisted⟩).2 hvalid (by unfold IdsResolve; decide)

/-- A number that is not on the list is accepted and stops the import; a cell that reads `inf`
stops the validation. -/
theorem unlisted_seat_accepted :
    WellKeyed sheetTable ∧ sheetTable.tournament? "event" = some event ∧
      validateArchonImport asciiDigits (sheetOf [[swept [1, 2, 3, 4, 6]]] none []) = .ok [] ∧
      IdsResolve sheetTable (sheetOf [[swept [1, 2, 3, 4, 6]]] none []) ∧
      ¬ImportsFormed venue sheetTable "event" (sheetOf [[swept [1, 2, 3, 4, 6]]] none [])
        "prince" ∧
      validateArchonImport asciiDigits (sheetOf [[⟨[(1, .inf false), (2, .num 0), (3, .num 0),
        (4, .num 0)], 1⟩]] none []) = .error (.badVp (.inf false)) := by
  refine ⟨sheetTable_keyed, rfl, by decide +kernel, by unfold IdsResolve; decide, ?_,
    by decide +kernel⟩
  rintro ⟨built, objects', happly, -⟩
  obtain ⟨hbuilt, -⟩ := applyArchonImport_eq_ok (t := event) rfl sheetTable_keyed happly
  exact absurd ((buildImport_eq_ok.1 hbuilt).2.1 6 (by decide)) (by decide)

end Archon.Backend

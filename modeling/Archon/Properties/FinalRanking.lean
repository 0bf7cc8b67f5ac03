import Archon.Library.Ranking
import Archon.Properties.TossSettled

/-!
# The final ranking (`tournament/standings.rs:289`)

The placement sorts the rows of a sheet into four kinds and lists them kind by kind: the winner
unless excluded, the other finalists, the field, the excluded rows. Finalists share rank two; the
field is ranked by one pass over rows in the order of the sheet, which is a competition ranking by
game wins, victory points and tournament points.
-/

namespace Archon.Engine
open CompetitionRanks

/-! ### The kinds of rows -/

inductive RowKind where
  | champion
  | finalist
  | field
  | excluded
  deriving DecidableEq, Repr

/-- Exclusion is read before the winner, the winner before the flag of the finals. -/
def rowKind (winner : Uid) (s : Standing) : RowKind :=
  if isExcluded winner s = true then .excluded
  else if winner ≠ "" ∧ s.userUid = winner then .champion
  else if s.finalist = true then .finalist
  else .field

/-- The rows of a kind, in the order of the sheet. -/
def ofKind (winner : Uid) (kind : RowKind) (sheet : List Standing) : List Standing :=
  sheet.filter fun s => decide (rowKind winner s = kind)

section Kinds

variable {winner : Uid} {sheet : List Standing} {s : Standing} {kind : RowKind}

theorem mem_ofKind : s ∈ ofKind winner kind sheet ↔ s ∈ sheet ∧ rowKind winner s = kind := by
  simp [ofKind]

theorem excluded_iff : rowKind winner s = .excluded ↔ isExcluded winner s = true := by
  unfold rowKind
  split_ifs <;> simp_all

theorem champion_iff : rowKind winner s = .champion ↔
    isExcluded winner s = false ∧ winner ≠ "" ∧ s.userUid = winner := by
  unfold rowKind
  split_ifs <;> simp_all

theorem finalist_iff : rowKind winner s = .finalist ↔ isExcluded winner s = false ∧
    ¬(winner ≠ "" ∧ s.userUid = winner) ∧ s.finalist = true := by
  unfold rowKind
  split_ifs <;> simp_all

theorem field_iff : rowKind winner s = .field ↔ isExcluded winner s = false ∧
    ¬(winner ≠ "" ∧ s.userUid = winner) ∧ s.finalist = false := by
  unfold rowKind
  split_ifs <;> simp_all

theorem perm_kinds (winner : Uid) (sheet : List Standing) :
    (ofKind winner .champion sheet ++ ofKind winner .finalist sheet ++
      ofKind winner .field sheet ++ ofKind winner .excluded sheet).Perm sheet := by
  induction sheet with
  | nil => exact List.Perm.refl _
  | cons s sheet ih =>
    unfold ofKind at ih ⊢
    refine List.Perm.trans ?_ (ih.cons s)
    simp only [List.filter_cons]
    cases rowKind winner s with
    | champion => exact List.Perm.refl _
    | finalist => exact (List.perm_middle.append_right _).append_right _
    | field => exact List.perm_middle.append_right _
    | excluded => exact List.perm_middle

end Kinds

/-! ### The comparison of the field -/

/-- Points in tenths: the whole and half points of a sheet are. -/
structure InTenths (s : Standing) : Prop where
  gw : ∃ g : ℤ, s.gw * 10 = g
  vp : ∃ v : ℤ, s.vp * 10 = v

/-- Strictly better: by game wins, then victory points, then whole tournament points. -/
def outscores (a b : Standing) : Bool :=
  decide (b.gw < a.gw ∨ (a.gw = b.gw ∧
    (b.vp < a.vp ∨ (a.vp = b.vp ∧ truncate b.tp < truncate a.tp))))

/-- The key the loop compares, best first. -/
def placeKey (s : Standing) : ℤᵒᵈ ×ₗ ℤᵒᵈ ×ₗ ℤᵒᵈ :=
  toLex (OrderDual.toDual (truncate (s.gw * 10)),
    toLex (OrderDual.toDual (truncate (s.vp * 10)), OrderDual.toDual (truncate s.tp)))

theorem truncate_intCast (k : ℤ) : truncate k = k := by
  unfold truncate
  split
  · exact Int.floor_intCast k
  · exact Int.ceil_intCast k

theorem truncate_mono {x y : ℚ} (h : x ≤ y) : truncate x ≤ truncate y := by
  unfold truncate
  split_ifs with hx hy hy
  · exact Int.floor_mono h
  · exact absurd (hx.trans h) hy
  · exact (Int.ceil_nonpos.2 (le_of_not_ge hx)).trans (Int.floor_nonneg.2 hy)
  · exact Int.ceil_mono h

theorem tieKey_eq_iff {a b : Standing} : tieKey a = tieKey b ↔ placeKey a = placeKey b := by
  simp [tieKey, placeKey]

section Keys

variable {a b : Standing}

theorem truncate_tenths {x y : ℚ} (hx : ∃ k : ℤ, x * 10 = k) (hy : ∃ k : ℤ, y * 10 = k) :
    (truncate (x * 10) < truncate (y * 10) ↔ x < y) ∧
      (truncate (x * 10) = truncate (y * 10) ↔ x = y) := by
  obtain ⟨k, hk⟩ := hx
  obtain ⟨m, hm⟩ := hy
  rw [hk, hm, truncate_intCast, truncate_intCast, ← @Int.cast_lt ℚ, ← @Int.cast_inj ℚ, ← hk, ← hm]
  constructor
  · constructor <;> intro h <;> linarith
  · constructor <;> intro h <;> linarith

theorem placeKey_lt_iff (ha : InTenths a) (hb : InTenths b) :
    placeKey a < placeKey b ↔ outscores a b = true := by
  obtain ⟨hgw, -⟩ := truncate_tenths hb.gw ha.gw
  obtain ⟨-, hgw'⟩ := truncate_tenths ha.gw hb.gw
  obtain ⟨hvp, -⟩ := truncate_tenths hb.vp ha.vp
  obtain ⟨-, hvp'⟩ := truncate_tenths ha.vp hb.vp
  simp only [placeKey, outscores, Prod.Lex.toLex_lt_toLex, OrderDual.toDual_lt_toDual,
    EmbeddingLike.apply_eq_iff_eq, decide_eq_true_iff, hgw, hgw', hvp, hvp']

theorem placeKey_le_of_rankKey (ha : InTenths a) (hb : InTenths b)
    (hplaces : (a.disqualified || a.nonCompeting) = false)
    (hplaces' : (b.disqualified || b.nonCompeting) = false) (h : rankKey a ≤ rankKey b) :
    placeKey a ≤ placeKey b := by
  have hscore : scoreKey a ≤ scoreKey b := by
    rcases scoreKey_of_rankKey hplaces hplaces' h with h | ⟨h, -⟩
    · exact h.le
    · exact h.le
  simp only [scoreKey, Prod.Lex.toLex_le_toLex, OrderDual.toDual_lt_toDual,
    OrderDual.toDual_le_toDual, EmbeddingLike.apply_eq_iff_eq] at hscore
  rw [← not_lt, placeKey_lt_iff hb ha, outscores, decide_eq_true_iff]
  rintro (hgw | ⟨hgw, hvp | ⟨hvp, htp⟩⟩)
  · rcases hscore with h | ⟨h, -⟩
    · exact lt_asymm hgw h
    · exact hgw.ne h
  · rcases hscore with h | ⟨-, h | ⟨h, -⟩⟩
    · exact h.ne hgw
    · exact lt_asymm hvp h
    · exact hvp.ne h
  · rcases hscore with h | ⟨-, h | ⟨-, h⟩⟩
    · exact h.ne hgw
    · exact h.ne hvp
    · exact absurd (truncate_mono h) (not_le.2 htp)

end Keys

/-! ### The pass over the field -/

theorem placeTied_eq (winner : Uid) (next rank : ℕ) (prev : Option Standing)
    (rows : List Standing) :
    placeTied winner next rank (prev.map tieKey) rows =
      List.zipWith (fun s r => ⟨s, isNoShow s winner, r, 0⟩) rows
        (ranks placeKey next rank (prev.map placeKey) rows) := by
  induction rows generalizing next rank prev with
  | nil => rfl
  | cons s rows ih =>
    have htied : prev.map tieKey = some (tieKey s) ↔ prev.map placeKey = some (placeKey s) := by
      cases prev with
      | none => simp
      | some p => simp [tieKey_eq_iff]
    rw [placeTied, ranks, List.zipWith_cons_cons]
    simp only [htied]
    exact congrArg _ (ih (next + 1) _ (some s))

theorem placeTied_sorted {winner : Uid} {rows : List Standing} (start : ℕ)
    (hranked : rows.Pairwise fun a b => placeKey a ≤ placeKey b)
    (htenths : ∀ s ∈ rows, InTenths s) :
    placeTied winner start start none rows = rows.map fun s =>
      ⟨s, isNoShow s winner, start + rows.countP (fun a => outscores a s), 0⟩ := by
  have hloop := placeTied_eq winner start start none rows
  rw [Option.map_none, Option.map_none, ranks_eq start hranked, List.zipWith_map_right,
    List.zipWith_self] at hloop
  rw [hloop]
  refine List.map_congr_left fun s hs => ?_
  have hcount : before placeKey rows s = rows.countP fun a => outscores a s := by
    refine List.countP_congr fun a ha => ?_
    rw [decide_eq_true_iff]
    exact placeKey_lt_iff (htenths a ha) (htenths s hs)
  rw [hcount]

/-! ### The placement, kind by kind -/

/-- The placed rows, as the kinds are listed. -/
def placedByKind (winner : Uid) (sheet : List Standing) : List PlacedRow :=
  let finalistCount :=
    (ofKind winner .champion sheet).length + (ofKind winner .finalist sheet).length
  let field := ofKind winner .field sheet
  (ofKind winner .champion sheet).map
      (fun s => ⟨s, isNoShow s winner, 1, if finalPlayed sheet = true then 1 else 0⟩)
    ++ (ofKind winner .finalist sheet).map (fun s => ⟨s, isNoShow s winner, 2, 2⟩)
    ++ field.map (fun s =>
      ⟨s, isNoShow s winner, finalistCount + 1 + field.countP (fun a => outscores a s), 0⟩)
    ++ (ofKind winner .excluded sheet).zipIdx.map
      (fun si => ⟨si.1, isNoShow si.1 winner, finalistCount + field.length + 1 + si.2, 0⟩)

section Placement

variable {winner : Uid} {sheet : List Standing}

/-- A sheet in rank order, with points in tenths and one row of the winner at most. -/
structure RankedSheet (winner : Uid) (sheet : List Standing) : Prop where
  ranked : sheet.Pairwise fun a b => rankKey a ≤ rankKey b
  tenths : ∀ s ∈ sheet, InTenths s
  once : winner ≠ "" → (sheet.map Standing.userUid).count winner ≤ 1

theorem ofKind_field_ranked (h : RankedSheet winner sheet) :
    (ofKind winner .field sheet).Pairwise fun a b => placeKey a ≤ placeKey b := by
  have hcompetes : ∀ s ∈ ofKind winner .field sheet,
      (s.disqualified || s.nonCompeting) = false ∧ InTenths s := by
    intro s hs
    obtain ⟨hmem, hkind⟩ := mem_ofKind.1 hs
    have hplaces := (field_iff.1 hkind).1
    rw [isExcluded, Bool.or_eq_false_iff] at hplaces
    exact ⟨hplaces.1, h.tenths s hmem⟩
  refine List.Pairwise.imp_of_mem (fun {a b} ha hb hle => ?_)
    (h.ranked.sublist List.filter_sublist)
  exact placeKey_le_of_rankKey (hcompetes a ha).2 (hcompetes b hb).2 (hcompetes a ha).1
    (hcompetes b hb).1 hle

theorem champion_length (h : winner ≠ "" → (sheet.map Standing.userUid).count winner ≤ 1) :
    (ofKind winner .champion sheet).length ≤ 1 := by
  rcases Nat.eq_zero_or_pos (ofKind winner .champion sheet).length with hzero | hpos
  · omega
  · obtain ⟨s, hs⟩ := List.exists_mem_of_length_pos hpos
    refine le_trans ?_ (h (champion_iff.1 (mem_ofKind.1 hs).2).2.1)
    rw [ofKind, ← List.countP_eq_length_filter, List.count, List.countP_map]
    refine List.countP_mono_left fun s _ hs => ?_
    simpa using (champion_iff.1 (of_decide_eq_true hs)).2.2

theorem champion_getLast? (h : winner ≠ "" → (sheet.map Standing.userUid).count winner ≤ 1) :
    (ofKind winner .champion sheet).getLast?.toList = ofKind winner .champion sheet := by
  match ofKind winner .champion sheet, champion_length h with
  | [], _ => rfl
  | [s], _ => rfl

theorem isWinner_eq {s : Standing} (hs : s ∈ sheet) :
    decide ((winner ≠ "" ∧ sheet.any (fun s => s.userUid == winner) = true) ∧ s.userUid = winner) =
      decide (winner ≠ "" ∧ s.userUid = winner) := by
  refine decide_eq_decide.2 ⟨fun ⟨⟨hne, _⟩, huid⟩ => ⟨hne, huid⟩, fun ⟨hne, huid⟩ => ?_⟩
  exact ⟨⟨hne, List.any_eq_true.2 ⟨s, hs, by simpa using huid⟩⟩, huid⟩

theorem computeFinalStandings_eq (h : RankedSheet winner sheet) :
    computeFinalStandings sheet winner = placedByKind winner sheet := by
  unfold computeFinalStandings
  extract_lets winnerPresent isWinner placed winnerEntry finalists nonFinalists excluded
    finalistCount start excludedStart
  have hisWinner : ∀ s ∈ sheet, isWinner s = decide (winner ≠ "" ∧ s.userUid = winner) :=
    fun _ hs => isWinner_eq hs
  have hkinds : ∀ (kind : RowKind) (p : Standing → Bool),
      (∀ s ∈ sheet, (p s && !isExcluded winner s) = decide (rowKind winner s = kind)) →
      placed.filter p = ofKind winner kind sheet := by
    intro kind p hp
    rw [List.filter_filter]
    exact List.filter_congr hp
  have hchampion : winnerEntry.toList = ofKind winner .champion sheet := by
    rw [← champion_getLast? h.once, ← hkinds .champion isWinner]
    intro s hs
    rw [hisWinner s hs, Bool.eq_iff_iff]
    simp [champion_iff, and_comm, and_assoc]
  have hfinalists : finalists = ofKind winner .finalist sheet := by
    refine hkinds .finalist _ fun s hs => ?_
    rw [hisWinner s hs, Bool.eq_iff_iff]
    simp [finalist_iff, and_comm, and_assoc]
  have hfield : nonFinalists = ofKind winner .field sheet := by
    refine hkinds .field _ fun s hs => ?_
    rw [hisWinner s hs, Bool.eq_iff_iff]
    simp [field_iff, and_comm, and_assoc]
  have hexcluded : excluded = ofKind winner .excluded sheet := by
    refine List.filter_congr fun s _ => ?_
    rw [Bool.eq_iff_iff, decide_eq_true_iff, excluded_iff]
  have hstart : start = finalistCount + 1 := by
    simp only [start]
    split_ifs with hcount
    · rfl
    · omega
  have hloop := @placeTied_sorted winner _ start (ofKind_field_ranked h)
    fun s hs => h.tenths s (mem_ofKind.1 hs).1
  have hcount : finalistCount =
      (ofKind winner .champion sheet).length + (ofKind winner .finalist sheet).length := by
    rw [← hchampion, ← hfinalists]
  rw [hfield, hloop, hchampion, hfinalists, hexcluded, hstart, placedByKind]
  simp only [excludedStart, hfield, hcount]

/-- How the placement of a sheet is ordered and ranked. -/
structure FinalOrder (winner : Uid) (sheet : List Standing) (out : List PlacedRow) : Prop where
  perm : (out.map PlacedRow.row).Perm sheet
  order : out.map PlacedRow.row = ofKind winner .champion sheet ++ ofKind winner .finalist sheet ++
    ofKind winner .field sheet ++ ofKind winner .excluded sheet
  first : ∀ s ∈ sheet, rowKind winner s = .champion →
    ∃ p, out.head? = some p ∧ p.row = s ∧ p.rank = 1
  finalists : ∀ p ∈ out, rowKind winner p.row = .finalist → p.rank = 2
  field : ∀ p ∈ out, rowKind winner p.row = .field →
    p.rank = (ofKind winner .champion sheet).length + (ofKind winner .finalist sheet).length + 1 +
      (ofKind winner .field sheet).countP fun s => outscores s p.row
  excluded : ∀ p ∈ out, rowKind winner p.row = .excluded →
    (ofKind winner .champion sheet).length + (ofKind winner .finalist sheet).length +
      (ofKind winner .field sheet).length < p.rank

theorem mem_placedByKind {p : PlacedRow} (h : p ∈ placedByKind winner sheet) :
    (rowKind winner p.row = .champion ∧ p.rank = 1) ∨
      (rowKind winner p.row = .finalist ∧ p.rank = 2) ∨
      (rowKind winner p.row = .field ∧ p.rank = (ofKind winner .champion sheet).length +
        (ofKind winner .finalist sheet).length + 1 +
          (ofKind winner .field sheet).countP fun s => outscores s p.row) ∨
      (rowKind winner p.row = .excluded ∧ (ofKind winner .champion sheet).length +
        (ofKind winner .finalist sheet).length + (ofKind winner .field sheet).length < p.rank) := by
  unfold placedByKind at h
  extract_lets finalistCount field at h
  rw [List.mem_append, List.mem_append, List.mem_append, List.mem_map, List.mem_map, List.mem_map,
    List.mem_map] at h
  rcases h with ((⟨s, hs, rfl⟩ | ⟨s, hs, rfl⟩) | ⟨s, hs, rfl⟩) | ⟨si, hsi, rfl⟩
  · exact .inl ⟨(mem_ofKind.1 hs).2, rfl⟩
  · exact .inr (.inl ⟨(mem_ofKind.1 hs).2, rfl⟩)
  · exact .inr (.inr (.inl ⟨(mem_ofKind.1 hs).2, rfl⟩))
  · obtain ⟨-, -, hrow⟩ := List.mem_zipIdx hsi
    have hmem : si.1 ∈ ofKind winner .excluded sheet := hrow ▸ List.getElem_mem _
    refine .inr (.inr (.inr ⟨(mem_ofKind.1 hmem).2, ?_⟩))
    show finalistCount + field.length < finalistCount + field.length + 1 + si.2
    omega

theorem rows_placedByKind (winner : Uid) (sheet : List Standing) :
    (placedByKind winner sheet).map PlacedRow.row =
      ofKind winner .champion sheet ++ ofKind winner .finalist sheet ++
        ofKind winner .field sheet ++ ofKind winner .excluded sheet := by
  have hzip : ∀ (l : List Standing) (n : ℕ),
      l.zipIdx.map (PlacedRow.row ∘ fun si => ⟨si.1, isNoShow si.1 winner, n + si.2, 0⟩) = l := by
    intro l n
    exact l.zipIdx_map_fst 0
  unfold placedByKind
  extract_lets finalistCount field
  rw [List.map_append, List.map_append, List.map_append, List.map_map, List.map_map, List.map_map,
    List.map_map, hzip]
  simp only [Function.comp_def, List.map_id', field]

end Placement

/-- The placement of a sheet in rank order: the winner first unless excluded, the other finalists
level on the second rank, each row of the field ranked by those of the field that outscore it, the
excluded rows last, their numbers past the count of those placed. -/
theorem computeFinalStandings_ranks {winner : Uid} {sheet : List Standing}
    (h : RankedSheet winner sheet) :
    FinalOrder winner sheet (computeFinalStandings sheet winner) := by
  rw [computeFinalStandings_eq h]
  have horder := rows_placedByKind winner sheet
  refine ⟨horder ▸ perm_kinds winner sheet, horder, fun s hs hkind => ?_, fun p hp hkind => ?_,
    fun p hp hkind => ?_, fun p hp hkind => ?_⟩
  · have hmem : s ∈ ofKind winner .champion sheet := mem_ofKind.2 ⟨hs, hkind⟩
    have honly : ofKind winner .champion sheet = [s] := by
      match hlist : ofKind winner .champion sheet, champion_length h.once with
      | [], _ =>
        rw [hlist] at hmem
        cases hmem
      | [x], _ =>
        rw [hlist] at hmem
        rw [List.mem_singleton.1 hmem]
    refine ⟨⟨s, isNoShow s winner, 1, if finalPlayed sheet = true then 1 else 0⟩, ?_, rfl, rfl⟩
    rw [placedByKind, honly]
    rfl
  · have hrank := mem_placedByKind hp
    simpa [hkind] using hrank
  · have hrank := mem_placedByKind hp
    simpa [hkind] using hrank
  · have hrank := mem_placedByKind hp
    simpa [hkind] using hrank

/-! ### Runs of the placement -/

/-- A row of whole points. -/
def plainRow (uid : Uid) (gw vp tp : ℚ) (finalist disqualified : Bool) : Standing :=
  ⟨uid, gw, vp, tp, 0, finalist, disqualified, false, false⟩

/-- A sheet of a finished tournament: the winner of the finals, another finalist, two level in the
field, one behind them, one who never scored. -/
def finishedSheet : List Standing :=
  [plainRow "f" 2 8 110 true false, plainRow "w" 2 7 100 true false,
    plainRow "x" 1 (9 / 2) 84 false false, plainRow "y" 1 (9 / 2) 84 false false,
    plainRow "z" 0 2 60 false false, plainRow "n" 0 0 0 false false]

theorem computeFinalStandings_ranks_finished : RankedSheet "w" finishedSheet ∧
    (computeFinalStandings finishedSheet "w").map (fun p => (p.row.userUid, p.rank)) =
      [("w", 1), ("f", 2), ("x", 3), ("y", 3), ("z", 5), ("n", 6)] ∧
    FinalOrder "w" finishedSheet (computeFinalStandings finishedSheet "w") := by
  have hranked : RankedSheet "w" finishedSheet := by
    refine ⟨by decide +kernel, fun s hs => ?_, fun _ => by decide⟩
    simp only [finishedSheet, List.mem_cons, List.not_mem_nil, or_false] at hs
    rcases hs with rfl | rfl | rfl | rfl | rfl | rfl
    · exact ⟨⟨20, by norm_num [plainRow]⟩, ⟨80, by norm_num [plainRow]⟩⟩
    · exact ⟨⟨20, by norm_num [plainRow]⟩, ⟨70, by norm_num [plainRow]⟩⟩
    · exact ⟨⟨10, by norm_num [plainRow]⟩, ⟨45, by norm_num [plainRow]⟩⟩
    · exact ⟨⟨10, by norm_num [plainRow]⟩, ⟨45, by norm_num [plainRow]⟩⟩
    · exact ⟨⟨0, by norm_num [plainRow]⟩, ⟨20, by norm_num [plainRow]⟩⟩
    · exact ⟨⟨0, by norm_num [plainRow]⟩, ⟨0, by norm_num [plainRow]⟩⟩
  exact ⟨hranked, by decide +kernel, computeFinalStandings_ranks hranked⟩

/-- In rank order, with half-step victory points. -/
def HalfStepSheet (sheet : List Standing) : Prop :=
  (sheet.Pairwise fun a b => rankKey a ≤ rankKey b) ∧ ∀ s ∈ sheet, (s.vp * 2).isInt = true

instance (sheet : List Standing) : Decidable (HalfStepSheet sheet) :=
  inferInstanceAs (Decidable (_ ∧ _))

/-- The winner was disqualified after the finals. -/
def forfeitedSheet : List Standing :=
  [plainRow "f" 2 8 110 true false, plainRow "w" 0 0 0 true true]

/-- A sheet that lists the winner twice. -/
def doubledSheet : List Standing :=
  [plainRow "w" 2 8 110 true false, plainRow "w" 1 4 80 true false]

/-- A fraction of a game win, and of a tournament point, apart. -/
def fractionSheet (gw tp : ℚ) : List Standing :=
  [plainRow "x" gw 1 tp false false, plainRow "y" 0 1 0 false false]

/-- A disqualified winner is not first, a row of a winner listed twice is dropped, and fractions the
comparison cuts off make rows level. -/
theorem finalStandings_not_as_claimed :
    (HalfStepSheet forfeitedSheet ∧
      (computeFinalStandings forfeitedSheet "w").map (fun p => (p.row.userUid, p.rank)) =
        [("f", 2), ("w", 2)]) ∧
    (HalfStepSheet doubledSheet ∧ ¬((computeFinalStandings doubledSheet "w").map
      PlacedRow.row).Perm doubledSheet) ∧
    (HalfStepSheet (fractionSheet (1 / 20) 0) ∧
      (computeFinalStandings (fractionSheet (1 / 20) 0) "").map PlacedRow.rank = [1, 1]) ∧
    HalfStepSheet (fractionSheet 0 (1 / 2)) ∧
      (computeFinalStandings (fractionSheet 0 (1 / 2)) "").map PlacedRow.rank = [1, 1] := by
  refine ⟨⟨by decide +kernel, by decide +kernel⟩, ⟨by decide +kernel, fun h => ?_⟩,
    ⟨by decide +kernel, by decide +kernel⟩, by decide +kernel, by decide +kernel⟩
  exact absurd h.length_eq (by decide +kernel)

end Archon.Engine

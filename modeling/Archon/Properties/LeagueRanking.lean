import Mathlib.Data.List.ReduceOption
import Archon.Engine.League
import Archon.Properties.FinalRanking

/-!
# The ranking of a league (`league.rs:22`)

The contributions of the tournaments are summed per player, so their order does not show. The
entries come out of a hash map, in any order, are sorted and ranked in one pass over truncated
keys. Over tenths the truncated keys tie exactly where the figures do, and the pass is a
competition ranking.
-/

namespace Archon.Engine
open CompetitionRanks

/-! ### Loops that can fail in one way -/

section OneError

variable {ε α β : Type} {f : α → Except ε β} {err : ε}

theorem mapM_of_oneError (h : ∀ a e, f a = .error e → e = err) (xs : List α) :
    xs.mapM f = if ∀ a ∈ xs, (f a).isOk = true then .ok (xs.filterMap fun a => (f a).toOption)
      else .error err := by
  induction xs with
  | nil => rfl
  | cons a xs ih =>
    cases ha : f a with
    | error e =>
      obtain rfl := h a e ha
      have hfails : ¬∀ a' ∈ a :: xs, (f a').isOk = true := by
        intro hall
        have hok := hall a List.mem_cons_self
        rw [ha] at hok
        cases hok
      rw [if_neg hfails, List.mapM_cons, ha]
      rfl
    | ok b =>
      have hhead : (f a).isOk = true := by rw [ha]; rfl
      have hsplit : (∀ a' ∈ a :: xs, (f a').isOk = true) ↔ ∀ a' ∈ xs, (f a').isOk = true := by
        rw [List.forall_mem_cons, and_iff_right hhead]
      have hvalue : (f a).toOption = some b := by rw [ha]; rfl
      rw [List.mapM_cons, ha, ih]
      simp only [hsplit, List.filterMap_cons, hvalue]
      split <;> rfl

end OneError

theorem leagueEntry_error {log15 : ℕ → ℚ} {mode : String} {t : LeagueTournament} {s : Standing}
    {e : EngineError} (h : leagueEntry log15 mode t s = .error e) :
    e = .internal ("Unknown standings mode: " ++ mode) := by
  unfold leagueEntry at h
  split at h
  · cases h
  · split at h
    · cases h
    · dsimp only at h
      split at h
      · cases h
      · split at h
        · cases h
        · cases h
          rfl

theorem leagueEntries_error {log15 : ℕ → ℚ} {mode : String} {t : LeagueTournament}
    {e : EngineError} (h : leagueEntries log15 mode t = .error e) :
    e = .internal ("Unknown standings mode: " ++ mode) := by
  rw [leagueEntries, mapM_of_oneError fun s e => leagueEntry_error] at h
  split at h
  · cases h
  · cases h
    rfl

/-! ### The rows in any order of the map -/

/-- The order `sort_by` compares by. -/
def sortLeague (entries : List (Uid × LeagueScore)) : List (Uid × LeagueScore) :=
  entries.insertionSort fun a b => leagueKey a ≤ leagueKey b

/-- What the league can come out as: the map hands out its entries in some order. -/
inductive LeagueOutcome (log15 : ℕ → ℚ) (mode : String) (ts : List LeagueTournament) :
    Except EngineError (List LeagueRow) → Prop
  | fails {e : EngineError} (h : ts.mapM (leagueEntries log15 mode) = .error e) :
    LeagueOutcome log15 mode ts (.error e)
  | ranks {entries : List (List (Uid × LeagueScore))}
    (h : ts.mapM (leagueEntries log15 mode) = .ok entries) {order : List (Uid × LeagueScore)}
    (horder : order.Perm (Tally.ofList entries.flatten)) :
    LeagueOutcome log15 mode ts (.ok (placeLeague mode 1 0 none (sortLeague order)))

theorem computeLeagueStandings_outcome (log15 : ℕ → ℚ) (mode : String)
    (ts : List LeagueTournament) :
    LeagueOutcome log15 mode ts (computeLeagueStandings log15 mode ts) := by
  unfold computeLeagueStandings
  cases h : ts.mapM (leagueEntries log15 mode) with
  | error e => exact .fails h
  | ok entries => exact .ranks h (List.Perm.refl _)

/-! ### Figures in tenths -/

/-- The VPs are half points and the game wins whole: both are tenths. -/
structure LeagueTournament.InTenths (t : LeagueTournament) : Prop where
  rows : ∀ s ∈ t.standings, Engine.InTenths s
  finalsGw : ∀ s ∈ t.finals, ∃ g : ℤ, s.2.gw * 10 = g
  finalsVp : ∀ s ∈ t.finals, ∃ v : ℤ, s.2.vp * 10 = v

/-- Figures in tenths, without points in the `Score` mode. -/
structure LeagueScore.Fits (mode : String) (x : LeagueScore) : Prop where
  gw : ∃ g : ℤ, x.1 * 10 = g
  vp : ∃ v : ℤ, x.2.1 * 10 = v
  points : mode = "Score" → x.2.2.2.1 = 0

theorem tenths_add {x y : ℚ} (hx : ∃ k : ℤ, x * 10 = k) (hy : ∃ k : ℤ, y * 10 = k) :
    ∃ k : ℤ, (x + y) * 10 = k := by
  obtain ⟨k, hk⟩ := hx
  obtain ⟨m, hm⟩ := hy
  exact ⟨k + m, by rw [add_mul, hk, hm, Int.cast_add]⟩

section Tenths

variable {log15 : ℕ → ℚ} {mode : String} {t : LeagueTournament}

theorem finalsScore_tenths (h : t.InTenths) (uid : Uid) :
    (∃ g : ℤ, (t.finalsScore uid).gw * 10 = g) ∧ ∃ v : ℤ, (t.finalsScore uid).vp * 10 = v := by
  unfold LeagueTournament.finalsScore
  cases hlast : (t.finals.filter fun s => s.1 == uid).getLast? with
  | none => exact ⟨⟨0, by simp [Score.zero]⟩, ⟨0, by simp [Score.zero]⟩⟩
  | some s =>
    have hs := (List.mem_filter.1 (List.mem_of_getLast? hlast)).1
    exact ⟨h.finalsGw s hs, h.finalsVp s hs⟩

theorem winGw_tenths (t : LeagueTournament) (uid : Uid) : ∃ g : ℤ, t.winGw uid * 10 = g := by
  unfold LeagueTournament.winGw
  split
  · exact ⟨10, by norm_num⟩
  · exact ⟨0, by norm_num⟩

theorem leagueEntry_fits (h : t.InTenths) {s : Standing} (hs : s ∈ t.standings)
    {kv : Uid × LeagueScore} (hkv : leagueEntry log15 mode t s = .ok (some kv)) :
    LeagueScore.Fits mode kv.2 := by
  have hrow := h.rows s hs
  have hfinals := finalsScore_tenths h s.userUid
  have hgw := tenths_add (tenths_add hrow.gw hfinals.1) (winGw_tenths t s.userUid)
  have hvp := tenths_add hrow.vp hfinals.2
  unfold leagueEntry at hkv
  split at hkv
  · cases hkv
  · split at hkv
    · cases hkv
      exact ⟨hrow.gw, hrow.vp, fun _ => rfl⟩
    · rename_i hmode
      dsimp only at hkv
      split at hkv
      · cases hkv
        exact ⟨hgw, hvp, fun h => absurd h hmode⟩
      · split at hkv
        · cases hkv
          exact ⟨hgw, hvp, fun h => absurd h hmode⟩
        · cases hkv

theorem leagueEntries_fit (h : t.InTenths) {entries : List (Uid × LeagueScore)}
    (hentries : leagueEntries log15 mode t = .ok entries) :
    ∀ kv ∈ entries, LeagueScore.Fits mode kv.2 := by
  intro kv hkv
  rw [leagueEntries, mapM_of_oneError fun s e => leagueEntry_error] at hentries
  split at hentries
  · cases hentries
    have hrow : some kv ∈ t.standings.filterMap
        fun s => (leagueEntry log15 mode t s).toOption := List.reduceOption_mem_iff.1 hkv
    obtain ⟨s, hs, hentry⟩ := List.mem_filterMap.1 hrow
    refine @leagueEntry_fits log15 mode t h s hs kv ?_
    cases hcase : leagueEntry log15 mode t s with
    | error e =>
      rw [hcase] at hentry
      cases hentry
    | ok o =>
      rw [hcase] at hentry
      exact congrArg Except.ok (Option.some.inj hentry)
  · cases hentries

theorem ofList_fit {xs : List (Uid × LeagueScore)} (h : ∀ kv ∈ xs, LeagueScore.Fits mode kv.2) :
    ∀ kv ∈ Tally.ofList xs, LeagueScore.Fits mode kv.2 := by
  intro kv hkv
  rw [Tally.mem_ofList hkv]
  refine Tally.sumFor_induction ⟨⟨0, by simp⟩, ⟨0, by simp⟩, fun _ => rfl⟩ ?_ h kv.1
  intro a b ha hb
  exact ⟨tenths_add ha.gw hb.gw, tenths_add ha.vp hb.vp, fun hmode => by
    rw [Prod.snd_add, Prod.snd_add, Prod.snd_add, Prod.fst_add, ha.points hmode, hb.points hmode,
      add_zero]⟩

end Tenths

/-! ### The pass over the entries -/

/-- The row of an entry. -/
def leagueRow (mode : String) (e : Uid × LeagueScore) (rank : ℕ) : LeagueRow :=
  ⟨e.1, e.2.1, e.2.2.1, e.2.2.2.1, if mode = "Score" then none else some e.2.2.2.2.1, rank,
    e.2.2.2.2.2⟩

theorem leagueTieKey_eq_iff {mode : String} {a b : Uid × LeagueScore}
    (ha : LeagueScore.Fits mode a.2) (hb : LeagueScore.Fits mode b.2) :
    leagueTieKey a = leagueTieKey b ↔ leagueKey a = leagueKey b := by
  have hgw := (truncate_tenths ha.gw hb.gw).2
  have hvp := (truncate_tenths ha.vp hb.vp).2
  simp only [leagueTieKey, leagueKey, Prod.mk.injEq, EmbeddingLike.apply_eq_iff_eq, hgw, hvp]

theorem placeLeague_eq (mode : String) {entries : List (Uid × LeagueScore)} (rank passed : ℕ)
    (prev : Option (Uid × LeagueScore)) (hstart : prev = none → passed = 0)
    (hprev : ∀ p ∈ prev, LeagueScore.Fits mode p.2)
    (hfits : ∀ e ∈ entries, LeagueScore.Fits mode e.2) :
    placeLeague mode rank passed (prev.map leagueTieKey) entries =
      List.zipWith (leagueRow mode) entries
        (ranks leagueKey (rank + passed) rank (prev.map leagueKey) entries) := by
  induction entries generalizing rank passed prev with
  | nil => rfl
  | cons e entries ih =>
    have he := hfits e List.mem_cons_self
    have hrest := fun e' h => hfits e' (List.mem_cons_of_mem e h)
    have hself : ∀ p ∈ some e, LeagueScore.Fits mode p.2 := by
      rintro p ⟨⟩
      exact he
    have hlater := fun rank passed => ih rank (passed + 1) (some e)
        (fun h => by cases h) hself hrest
    rw [placeLeague, ranks, List.zipWith_cons_cons]
    cases prev with
    | none =>
      obtain rfl := hstart rfl
      simpa [leagueRow] using hlater rank 0
    | some p =>
      have htied := leagueTieKey_eq_iff (hprev p rfl) he
      by_cases hkey : leagueKey p = leagueKey e
      · have htie := htied.2 hkey
        simpa [leagueRow, htie, hkey, Nat.add_assoc] using hlater rank passed
      · have htie : leagueTieKey p ≠ leagueTieKey e := fun h => hkey (htied.1 h)
        simpa [leagueRow, htie, hkey] using hlater (rank + passed) 0

theorem placeLeague_sorted (mode : String) {entries : List (Uid × LeagueScore)}
    (hranked : entries.Pairwise fun a b => leagueKey a ≤ leagueKey b)
    (hfits : ∀ e ∈ entries, LeagueScore.Fits mode e.2) :
    placeLeague mode 1 0 none entries =
      entries.map fun e => leagueRow mode e (1 + before leagueKey entries e) := by
  have hloop := placeLeague_eq mode 1 0 none (fun _ => rfl) (fun _ h => by cases h) hfits
  rw [Option.map_none, Option.map_none, Nat.add_zero, ranks_eq 1 hranked,
    List.zipWith_map_right, List.zipWith_self] at hloop
  exact hloop

/-! ### Ranks among the rows -/

/-- Strictly better: by points, then game wins, victory points and tournament points. In the
`Score` mode nobody has points. -/
def LeagueRow.betterThan (a b : LeagueRow) : Prop :=
  b.points.getD 0 < a.points.getD 0 ∨ (a.points.getD 0 = b.points.getD 0 ∧
    (b.gw < a.gw ∨ (a.gw = b.gw ∧ (b.vp < a.vp ∨ (a.vp = b.vp ∧ b.tp < a.tp)))))

instance (a b : LeagueRow) : Decidable (a.betterThan b) :=
  inferInstanceAs (Decidable (_ ∨ _))

/-- Equal on points, game wins, victory points and tournament points. -/
def LeagueRow.level (a b : LeagueRow) : Prop :=
  a.points.getD 0 = b.points.getD 0 ∧ a.gw = b.gw ∧ a.vp = b.vp ∧ a.tp = b.tp

instance (a b : LeagueRow) : Decidable (a.level b) := inferInstanceAs (Decidable (_ ∧ _))

def LeagueRow.key (row : LeagueRow) : LeagueKey :=
  toLex (OrderDual.toDual (row.points.getD 0), toLex (OrderDual.toDual row.gw,
    toLex (OrderDual.toDual row.vp, OrderDual.toDual row.tp)))

theorem LeagueRow.betterThan_iff {a b : LeagueRow} : a.betterThan b ↔ a.key < b.key := by
  simp only [betterThan, key, Prod.Lex.toLex_lt_toLex, OrderDual.toDual_lt_toDual,
    EmbeddingLike.apply_eq_iff_eq]

theorem LeagueRow.level_iff {a b : LeagueRow} : a.level b ↔ a.key = b.key := by
  simp only [level, key, EmbeddingLike.apply_eq_iff_eq, Prod.mk.injEq]

/-- The ranks of a competition: one more than the number of strictly better rows, so that rows
that are level share a rank and the rank after them skips as many as there are. -/
structure RankedByScore (rows : List LeagueRow) : Prop where
  rank : ∀ row ∈ rows, row.rank = 1 + rows.countP fun r => decide (r.betterThan row)
  shared : ∀ a ∈ rows, ∀ b ∈ rows, a.level b → a.rank = b.rank
  skips : ∀ a ∈ rows, ∀ b ∈ rows, a.betterThan b →
    (∀ c ∈ rows, a.betterThan c → ¬c.betterThan b) →
      b.rank = a.rank + rows.countP fun r => decide (r.level a)

theorem RankedByScore.of_rank {rows : List LeagueRow}
    (h : ∀ row ∈ rows, row.rank = 1 + rows.countP fun r => decide (r.betterThan row)) :
    RankedByScore rows := by
  refine ⟨h, ?_, ?_⟩
  · intro a ha b hb hlevel
    rw [h a ha, h b hb]
    simp only [LeagueRow.betterThan_iff, LeagueRow.level_iff.1 hlevel]
  · intro a ha b hb hbetter hnone
    have hsplit : ∀ r ∈ rows, (r.betterThan b ↔ r.betterThan a ∨ r.level a) := by
      intro r hr
      rw [LeagueRow.betterThan_iff] at hbetter ⊢
      rw [LeagueRow.betterThan_iff, LeagueRow.level_iff, ← le_iff_lt_or_eq]
      constructor
      · intro hlt
        refine le_of_not_gt fun hgt => hnone r hr ?_ ?_
        · exact LeagueRow.betterThan_iff.2 hgt
        · exact LeagueRow.betterThan_iff.2 hlt
      · exact fun hle => hle.trans_lt hbetter
    have hcount : ∀ l : List LeagueRow, (∀ r ∈ l, r ∈ rows) →
        (l.countP fun r => decide (r.betterThan b)) =
          (l.countP fun r => decide (r.betterThan a)) + l.countP fun r => decide (r.level a) := by
      intro l hl
      induction l with
      | nil => rfl
      | cons r l ih =>
        have hrest := ih fun r' h => hl r' (List.mem_cons_of_mem r h)
        have hr := hsplit r (hl r List.mem_cons_self)
        have hdisjoint : r.betterThan a → ¬r.level a := by
          rw [LeagueRow.betterThan_iff, LeagueRow.level_iff]
          exact ne_of_lt
        simp only [List.countP_cons, decide_eq_true_iff, hrest, hr]
        by_cases hba : r.betterThan a
        · simp only [hba, hdisjoint hba, or_false, if_true, if_false]
          omega
        · simp only [hba, false_or, if_false]
          omega
    rw [h a ha, h b hb, hcount rows fun r hr => hr]
    exact (Nat.add_assoc _ _ _).symm

/-! ### The ranking -/

section Ranking

variable {log15 : ℕ → ℚ} {mode : String} {ts ts' : List LeagueTournament}

theorem key_leagueRow {e : Uid × LeagueScore} (he : LeagueScore.Fits mode e.2) (rank : ℕ) :
    (leagueRow mode e rank).key = leagueKey e := by
  have hpoints : (leagueRow mode e rank).points.getD 0 = e.2.2.2.2.1 := by
    unfold leagueRow
    dsimp only
    split
    · rename_i hmode
      exact (he.points hmode).symm
    · rfl
  rw [LeagueRow.key, hpoints]
  rfl

theorem ranked_placeLeague {order : List (Uid × LeagueScore)}
    (hfits : ∀ e ∈ order, LeagueScore.Fits mode e.2) :
    placeLeague mode 1 0 none (sortLeague order) = (sortLeague order).map fun e =>
      leagueRow mode e (1 + before leagueKey order e) := by
  have hperm : (sortLeague order).Perm order := List.perm_insertionSort _ _
  rw [placeLeague_sorted mode]
  · exact List.map_congr_left fun e _ => by rw [before, before, hperm.countP_eq]
  · exact List.pairwise_insertionSort _ _
  · exact fun e he => hfits e (hperm.mem_iff.1 he)

theorem rankedByScore_placeLeague {order : List (Uid × LeagueScore)}
    (hfits : ∀ e ∈ order, LeagueScore.Fits mode e.2) :
    RankedByScore (placeLeague mode 1 0 none (sortLeague order)) := by
  have hperm : (sortLeague order).Perm order := List.perm_insertionSort _ _
  rw [ranked_placeLeague hfits]
  refine RankedByScore.of_rank fun row hrow => ?_
  obtain ⟨e, he, rfl⟩ := List.mem_map.1 hrow
  have hkey := key_leagueRow (hfits e (hperm.mem_iff.1 he))
  change 1 + before leagueKey order e = _
  rw [before, ← hperm.countP_eq, List.countP_map]
  refine congrArg (1 + ·) (List.countP_congr fun a ha => ?_)
  rw [Function.comp_apply, decide_eq_true_iff, decide_eq_true_iff, LeagueRow.betterThan_iff, hkey,
    key_leagueRow (hfits a (hperm.mem_iff.1 ha))]

theorem placeLeague_perm {order order' : List (Uid × LeagueScore)}
    (hfits : ∀ e ∈ order, LeagueScore.Fits mode e.2) (hperm : order.Perm order') :
    (placeLeague mode 1 0 none (sortLeague order)).Perm
      (placeLeague mode 1 0 none (sortLeague order')) := by
  have hsort : (sortLeague order).Perm (sortLeague order') :=
    (List.perm_insertionSort _ _).trans (hperm.trans (List.perm_insertionSort _ _).symm)
  rw [ranked_placeLeague hfits, ranked_placeLeague fun e he => hfits e (hperm.mem_iff.2 he)]
  have hbefore : ∀ e, before leagueKey order' e = before leagueKey order e :=
    fun e => hperm.symm.countP_eq _
  simp only [hbefore]
  exact hsort.map _

theorem leagueEntries_perm (hperm : ts.Perm ts') :
    (∀ e, ts.mapM (leagueEntries log15 mode) = .error e →
      ts'.mapM (leagueEntries log15 mode) = .error e) ∧
    ∀ entries, ts.mapM (leagueEntries log15 mode) = .ok entries →
      ∃ entries', ts'.mapM (leagueEntries log15 mode) = .ok entries' ∧
        entries'.Perm entries := by
  rw [mapM_of_oneError fun t e => leagueEntries_error,
    mapM_of_oneError fun t e => leagueEntries_error]
  simp only [hperm.mem_iff]
  split
  · refine ⟨fun e h => (by cases h), fun entries h => ⟨_, rfl, ?_⟩⟩
    cases h
    exact (hperm.filterMap _).symm
  · exact ⟨fun e h => h, fun entries h => by cases h⟩

theorem mapM_leagueEntries_fit (h : ∀ t ∈ ts, t.InTenths)
    {entries : List (List (Uid × LeagueScore))}
    (hentries : ts.mapM (leagueEntries log15 mode) = .ok entries) :
    ∀ e ∈ Tally.ofList entries.flatten, LeagueScore.Fits mode e.2 := by
  refine ofList_fit fun kv hkv => ?_
  obtain ⟨rows, hrows, hrow⟩ := List.mem_flatten.1 hkv
  rw [mapM_of_oneError fun t e => leagueEntries_error] at hentries
  split at hentries
  · cases hentries
    obtain ⟨t, ht, hvalue⟩ := List.mem_filterMap.1 hrows
    refine @leagueEntries_fit log15 mode t (h t ht) rows ?_ kv hrow
    cases hcase : leagueEntries log15 mode t with
    | error e =>
      rw [hcase] at hvalue
      cases hvalue
    | ok o =>
      rw [hcase] at hvalue
      exact congrArg Except.ok (Option.some.inj hvalue)
  · cases hentries

/-- With figures in tenths, every order of the tournaments and of the map gives the same outcome:
the same error, or rows that are the same up to their order, one a player, ranked by score. -/
theorem league_ranking (hts : ∀ t ∈ ts, t.InTenths) (hperm : ts.Perm ts')
    {outcome outcome' : Except EngineError (List LeagueRow)}
    (h : LeagueOutcome log15 mode ts outcome) (h' : LeagueOutcome log15 mode ts' outcome') :
    (∀ e, outcome = .error e → outcome' = .error e) ∧
    ∀ rows, outcome = .ok rows → ∃ rows', outcome' = .ok rows' ∧ rows'.Perm rows ∧
      (rows.map LeagueRow.userUid).Nodup ∧ RankedByScore rows ∧ RankedByScore rows' := by
  obtain ⟨herror, hok⟩ := @leagueEntries_perm log15 mode _ _ hperm
  cases h with
  | fails hfails =>
    cases h' with
    | fails hfails' =>
      rw [herror _ hfails] at hfails'
      cases hfails'
      exact ⟨fun e he => he, fun rows hrows => by cases hrows⟩
    | ranks hranks' =>
      rw [herror _ hfails] at hranks'
      cases hranks'
  | @ranks entries hranks order horder =>
    obtain ⟨entries', hentries', hflat⟩ := hok _ hranks
    cases h' with
    | fails hfails' =>
      rw [hentries'] at hfails'
      cases hfails'
    | @ranks entries'' hranks' order' horder' =>
      rw [hentries'] at hranks'
      cases hranks'
      have hfits : ∀ e ∈ order, LeagueScore.Fits mode e.2 := fun e he =>
        mapM_leagueEntries_fit hts hranks e (horder.mem_iff.1 he)
      have horders : order'.Perm order :=
        horder'.trans ((Tally.ofList_perm hflat.flatten).trans horder.symm)
      have hfits' : ∀ e ∈ order', LeagueScore.Fits mode e.2 := fun e he =>
        hfits e (horders.mem_iff.1 he)
      refine ⟨fun e he => (by cases he), fun rows hrows => ?_⟩
      cases hrows
      refine ⟨_, rfl, placeLeague_perm hfits' horders, ?_, rankedByScore_placeLeague hfits,
        rankedByScore_placeLeague hfits'⟩
      have hkeys : ((sortLeague order).map Prod.fst).Perm
          ((Tally.ofList entries.flatten).map Prod.fst) :=
        ((List.perm_insertionSort _ _).trans horder).map _
      rw [ranked_placeLeague hfits, List.map_map]
      exact hkeys.nodup_iff.2 (Tally.nodup_keys_ofList _)

/-! ### Two events -/

/-- An event of two players without finals. -/
def twoPlayerEvent (first second : Uid) (vp : ℚ) : LeagueTournament where
  rank := ""
  playerCount := 2
  winner := first
  standings := [⟨first, 1, vp, 60, 0, false, false, false, false⟩,
    ⟨second, 0, 1 / 2, 36, 0, false, false, false, false⟩]
  finals := []

theorem twoPlayerEvent_inTenths (first second : Uid) :
    (twoPlayerEvent first second 3).InTenths where
  rows := by
    intro s hs
    rcases List.mem_cons.1 hs with rfl | hs
    · exact ⟨⟨10, by norm_num⟩, ⟨30, by norm_num⟩⟩
    · rw [List.mem_singleton.1 hs]
      exact ⟨⟨0, by norm_num⟩, ⟨5, by norm_num⟩⟩
  finalsGw := fun _ h => by cases h
  finalsVp := fun _ h => by cases h

/-- Each of two players wins once: they are level and share the first rank. -/
theorem league_ranking_two_events :
    RankedByScore [⟨"a", 1, 7 / 2, 96, none, 1, 2⟩, ⟨"b", 1, 7 / 2, 96, none, 1, 2⟩] := by
  have hts : ∀ t ∈ [twoPlayerEvent "a" "b" 3, twoPlayerEvent "b" "a" 3], t.InTenths := by
    intro t ht
    rcases List.mem_cons.1 ht with rfl | ht
    · exact twoPlayerEvent_inTenths "a" "b"
    · rw [List.mem_singleton.1 ht]
      exact twoPlayerEvent_inTenths "b" "a"
  have hrows : computeLeagueStandings (fun _ => 0) "Score"
      [twoPlayerEvent "a" "b" 3, twoPlayerEvent "b" "a" 3] =
        .ok [⟨"a", 1, 7 / 2, 96, none, 1, 2⟩, ⟨"b", 1, 7 / 2, 96, none, 1, 2⟩] := by
    decide +kernel
  obtain ⟨-, hok⟩ := league_ranking hts (List.Perm.swap _ _ [])
    (computeLeagueStandings_outcome (fun _ => 0) "Score" _)
    (computeLeagueStandings_outcome (fun _ => 0) "Score" _)
  obtain ⟨rows', -, -, -, hranked, -⟩ := hok _ hrows
  exact hranked

end Ranking

end Archon.Engine

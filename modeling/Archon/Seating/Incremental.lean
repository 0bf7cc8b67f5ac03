import Archon.Library.Nested
import Archon.Seating.NextRound

/-!
# The measure the annealer keeps (`seating/anneal.rs`, `seating/measure.rs`)

The annealer never measures a whole round while it swaps: it takes the one or two tables of a
swap out of the measure and adds them again. A measure is a sum over tables, so what it keeps is
the measure of the current seating after any number of swaps, undone or not. Where nobody sits
twice in a round, it is the measure `measure_round` takes from the names too.
-/

namespace Archon.Seating

open Nested

/-! ### A measure is a sum over tables -/

theorem Measure.eq_of_get {m m' : Measure} (hn : m.n = m'.n)
    (h : ∀ a b k, m.get a b k = m'.get a b k) : m = m' := by
  cases m
  cases m'
  obtain rfl : _ = _ := hn
  congr 1
  funext a b k
  exact h a b k

/-- What one vector adds to a cell. -/
def Contribution.cell (c : Contribution) (a b k : ℕ) : ℤ :=
  if a = c.i ∧ b = c.j then (c.vec[k]?).getD 0 else 0

/-- What a table adds to a cell. -/
def tableSum (a b k : ℕ) (table : List ℕ) : ℤ :=
  ((contributions table).map fun c => c.cell a b k).sum

/-- What a round adds to a cell. -/
def roundSum (a b k : ℕ) (round : Round ℕ) : ℤ := (round.map (tableSum a b k)).sum

theorem tableSum_nil (a b k : ℕ) : tableSum a b k [] = 0 := rfl

theorem addVec_get (m : Measure) (c : Contribution) (a b k : ℕ) :
    (m.addVec c.i c.j c.vec).get a b k = m.get a b k + c.cell a b k := by
  unfold Measure.addVec Measure.updateVec Contribution.cell
  dsimp only
  split <;> simp

theorem subVec_get (m : Measure) (c : Contribution) (a b k : ℕ) :
    (m.subVec c.i c.j c.vec).get a b k = m.get a b k - c.cell a b k := by
  unfold Measure.subVec Measure.updateVec Contribution.cell
  dsimp only
  split <;> simp

theorem foldl_addVec_get (cs : List Contribution) (m : Measure) (a b k : ℕ) :
    (cs.foldl (fun m c => m.addVec c.i c.j c.vec) m).get a b k =
      m.get a b k + (cs.map fun c => c.cell a b k).sum := by
  induction cs generalizing m with
  | nil => simp
  | cons c cs ih => rw [List.foldl_cons, ih, addVec_get, List.map_cons, List.sum_cons, add_assoc]

theorem foldl_addVec_n (cs : List Contribution) (m : Measure) :
    (cs.foldl (fun m c => m.addVec c.i c.j c.vec) m).n = m.n := by
  induction cs generalizing m with
  | nil => rfl
  | cons c cs ih => rw [List.foldl_cons, ih]; rfl

theorem foldl_subVec_get (cs : List Contribution) (m : Measure) (a b k : ℕ) :
    (cs.foldl (fun m c => m.subVec c.i c.j c.vec) m).get a b k =
      m.get a b k - (cs.map fun c => c.cell a b k).sum := by
  induction cs generalizing m with
  | nil => simp
  | cons c cs ih => rw [List.foldl_cons, ih, subVec_get, List.map_cons, List.sum_cons, sub_sub]

theorem foldl_subVec_n (cs : List Contribution) (m : Measure) :
    (cs.foldl (fun m c => m.subVec c.i c.j c.vec) m).n = m.n := by
  induction cs generalizing m with
  | nil => rfl
  | cons c cs ih => rw [List.foldl_cons, ih]; rfl

theorem addTable_get (m : Measure) (table : List ℕ) (a b k : ℕ) :
    (addTable m table).get a b k = m.get a b k + tableSum a b k table :=
  foldl_addVec_get _ m a b k

theorem addTable_n (m : Measure) (table : List ℕ) : (addTable m table).n = m.n :=
  foldl_addVec_n _ m

theorem clearTable_get (m : Measure) (table : List ℕ) (a b k : ℕ) :
    (clearTable m table).get a b k = m.get a b k - tableSum a b k table :=
  foldl_subVec_get _ m a b k

theorem clearTable_n (m : Measure) (table : List ℕ) : (clearTable m table).n = m.n :=
  foldl_subVec_n _ m

theorem foldl_addTable_get (round : Round ℕ) (m : Measure) (a b k : ℕ) :
    (round.foldl addTable m).get a b k = m.get a b k + roundSum a b k round := by
  unfold roundSum
  induction round generalizing m with
  | nil => simp
  | cons table round ih =>
    rw [List.foldl_cons, ih, addTable_get, List.map_cons, List.sum_cons, add_assoc]

theorem measureRoundIdx_get (round : Round ℕ) (n a b k : ℕ) :
    (measureRoundIdx round n).get a b k = roundSum a b k round := by
  rw [measureRoundIdx, foldl_addTable_get]
  simp [Measure.zero]

theorem foldl_measure_get (n : ℕ) (rounds : List (Round ℕ)) (m : Measure) (a b k : ℕ) :
    (rounds.foldl (fun acc r => acc.add (measureRoundIdx r n)) m).get a b k =
      m.get a b k + (rounds.map (roundSum a b k)).sum := by
  induction rounds generalizing m with
  | nil => simp
  | cons r rounds ih =>
    have hadd : (m.add (measureRoundIdx r n)).get a b k = m.get a b k + roundSum a b k r := by
      rw [← measureRoundIdx_get r n]
      rfl
    rw [List.foldl_cons, ih, hadd, List.map_cons, List.sum_cons, add_assoc]

theorem measureAll_get (n : ℕ) (rounds : List (Round ℕ)) (a b k : ℕ) :
    (measureAll n rounds).get a b k = (rounds.map (roundSum a b k)).sum := by
  rw [measureAll, foldl_measure_get]
  simp [Measure.zero]

theorem measureAll_n (n : ℕ) (rounds : List (Round ℕ)) : (measureAll n rounds).n = n := by
  have hfold : ∀ m : Measure,
      (rounds.foldl (fun acc r => acc.add (measureRoundIdx r n)) m).n = m.n := by
    induction rounds with
    | nil => exact fun _ => rfl
    | cons r rounds ih => exact fun m => ih _
  exact hfold _

/-! ### A swap -/

theorem onSwapTables_add_get (m : Measure) (round : Round ℕ) (t1 t2 a b k : ℕ) :
    (onSwapTables addTable m round t1 t2).get a b k =
      m.get a b k + touched (tableSum a b k) round t1 t2 := by
  unfold onSwapTables touched
  dsimp only
  split
  · rw [addTable_get, add_zero]
  · rw [addTable_get, addTable_get, add_assoc]

theorem onSwapTables_clear_get (m : Measure) (round : Round ℕ) (t1 t2 a b k : ℕ) :
    (onSwapTables clearTable m round t1 t2).get a b k =
      m.get a b k - touched (tableSum a b k) round t1 t2 := by
  unfold onSwapTables touched
  dsimp only
  split
  · rw [clearTable_get, add_zero]
  · rw [clearTable_get, clearTable_get, sub_sub]

theorem onSwapTables_n {f : Measure → List ℕ → Measure} (hf : ∀ m t, (f m t).n = m.n)
    (m : Measure) (round : Round ℕ) (t1 t2 : ℕ) : (onSwapTables f m round t1 t2).n = m.n := by
  unfold onSwapTables
  dsimp only
  split
  · exact hf _ _
  · rw [hf, hf]

/-- The rounds after a swap of two seats of one round. -/
def swappedRounds (rounds : List (Round ℕ)) (r : ℕ) (a b : ℕ × ℕ) : List (Round ℕ) :=
  rounds.set r (swapAt ((rounds[r]?).getD []) a.1 a.2 b.1 b.2)

/-- The measure after it: the tables of the swap taken out, exchanged and added again. -/
def swappedMeasure (m : Measure) (rounds : List (Round ℕ)) (r : ℕ) (a b : ℕ × ℕ) : Measure :=
  let round := (rounds[r]?).getD []
  onSwapTables addTable (onSwapTables clearTable m round a.1 b.1)
    (swapAt round a.1 a.2 b.1 b.2) a.1 b.1

theorem swapAt_nil (i j k l : ℕ) : swapAt ([] : Round ℕ) i j k l = [] := rfl

theorem swappedRounds_getD (rounds : List (Round ℕ)) (r : ℕ) (a b : ℕ × ℕ) :
    ((swappedRounds rounds r a b)[r]?).getD [] =
      swapAt ((rounds[r]?).getD []) a.1 a.2 b.1 b.2 := by
  unfold swappedRounds
  by_cases hr : r < rounds.length
  · rw [List.getElem?_set_self hr]
    rfl
  · rw [List.set_eq_of_length_le (by omega), List.getElem?_eq_none (by omega)]
    exact (swapAt_nil _ _ _ _).symm

theorem roundSum_swapAt (round : Round ℕ) (a b k i j t s : ℕ) :
    roundSum a b k (swapAt round i j t s) = roundSum a b k round
      - touched (tableSum a b k) round i t
      + touched (tableSum a b k) (swapAt round i j t s) i t := by
  have hother : ∀ m, m ≠ i → m ≠ t → (swapAt round i j t s)[m]? = round[m]? :=
    fun m hi ht => getElem?_swapAt_of_ne round hi ht
  exact sub_eq_iff_eq_add.1 (sum_sub_touched (tableSum_nil a b k) hother)

theorem sum_swappedRounds (rounds : List (Round ℕ)) (r : ℕ) (p q : ℕ × ℕ) (a b k : ℕ) :
    ((swappedRounds rounds r p q).map (roundSum a b k)).sum =
      (rounds.map (roundSum a b k)).sum - roundSum a b k ((rounds[r]?).getD [])
        + roundSum a b k (swapAt ((rounds[r]?).getD []) p.1 p.2 q.1 q.2) := by
  have hother : ∀ m, m ≠ r → m ≠ r → (swappedRounds rounds r p q)[m]? = rounds[m]? := by
    intro m hm _
    rw [swappedRounds, List.getElem?_set_ne (Ne.symm hm)]
  have hnil : roundSum a b k [] = 0 := rfl
  have h := sum_sub_touched hnil hother
  unfold touched at h
  rw [if_pos rfl, if_pos rfl, add_zero, add_zero, swappedRounds_getD] at h
  exact sub_eq_iff_eq_add.1 h

theorem swappedMeasure_eq (n : ℕ) (rounds : List (Round ℕ)) (r : ℕ) (p q : ℕ × ℕ) :
    swappedMeasure (measureAll n rounds) rounds r p q =
      measureAll n (swappedRounds rounds r p q) := by
  refine Measure.eq_of_get ?_ fun a b k => ?_
  · unfold swappedMeasure
    rw [onSwapTables_n addTable_n, onSwapTables_n clearTable_n, measureAll_n, measureAll_n]
  · unfold swappedMeasure
    rw [onSwapTables_add_get, onSwapTables_clear_get, measureAll_get, measureAll_get,
      sum_swappedRounds, roundSum_swapAt]
    abel

/-! ### A step of the annealer -/

section Steps

variable (rs : RandomSource)

/-- The proposal of a step: the round and the two seats, none where the step is skipped. -/
def propose (cfg : AnnealConfig) (st : AnnealState rs) :
    Option (ℕ × (ℕ × ℕ) × (ℕ × ℕ)) × rs.Gen :=
  let r := rs.genRange cfg.fixedRounds cfg.roundsCount st.gen
  let positions := (cfg.positions[r.1]?).getD []
  if positions.length < 2 then (none, r.2)
  else
    let p1 := rs.genRange 0 positions.length r.2
    let p2 := rs.genRange 0 positions.length p1.2
    if p1.1 = p2.1 then (none, p2.2)
    else (some (r.1, (positions[p1.1]?).getD (0, 0), (positions[p2.1]?).getD (0, 0)), p2.2)

/-- The measure a proposal is judged on. -/
def AnnealState.tried {rs : RandomSource} (st : AnnealState rs) (p : ℕ × (ℕ × ℕ) × (ℕ × ℕ)) :
    Measure :=
  swappedMeasure st.totalMeasure st.idxRounds p.1 p.2.1 p.2.2

/-- The seating a proposal would make. -/
def AnnealState.proposed {rs : RandomSource} (st : AnnealState rs)
    (p : ℕ × (ℕ × ℕ) × (ℕ × ℕ)) : List (Round ℕ) :=
  swappedRounds st.idxRounds p.1 p.2.1 p.2.2

/-- The rules a proposal is judged by. -/
def AnnealState.triedRules {rs : RandomSource} (cfg : AnnealConfig) (st : AnnealState rs)
    (p : ℕ × (ℕ × ℕ) × (ℕ × ℕ)) : LexScore :=
  (scoreMeasure rs.sqrt (st.tried p) cfg.roundsCount).rules

/-- Whether a proposal is taken. -/
def AnnealState.decision {rs : RandomSource} (cfg : AnnealConfig) (step : ℕ)
    (st : AnnealState rs) (p : ℕ × (ℕ × ℕ) × (ℕ × ℕ)) (g : rs.Gen) : Bool × rs.Gen :=
  accepts rs (baseTemperature rs cfg.iterations step) (st.triedRules cfg p) st.currentScore g

variable {rs}

theorem annealStep_skipped {cfg : AnnealConfig} {step : ℕ} {st : AnnealState rs} {g : rs.Gen}
    (h : propose rs cfg st = (none, g)) :
    annealStep rs cfg step st = ({ st with gen := g }, false) := by
  unfold propose at h
  unfold annealStep
  extract_lets r positions p1 p2 at h
  extract_lets
  split at h
  · rename_i hlen
    rw [if_pos hlen, (Prod.mk.inj h).2]
  · rename_i hlen
    split at h
    · rename_i hp
      rw [if_neg hlen, if_pos hp, (Prod.mk.inj h).2]
    · cases (Prod.mk.inj h).1

theorem annealStep_proposed {cfg : AnnealConfig} {step : ℕ} {st : AnnealState rs}
    {p : ℕ × (ℕ × ℕ) × (ℕ × ℕ)} {g : rs.Gen} (h : propose rs cfg st = (some p, g)) :
    annealStep rs cfg step st =
      (if (st.decision cfg step p g).1 = true then
        { idxRounds := st.proposed p
          totalMeasure := st.tried p
          currentScore := st.triedRules cfg p
          bestScore :=
            if isBetter (st.triedRules cfg p) st.bestScore then st.triedRules cfg p
            else st.bestScore
          bestState :=
            if isBetter (st.triedRules cfg p) st.bestScore then st.proposed p else st.bestState
          gen := (st.decision cfg step p g).2 }
      else
        { st with
          idxRounds := st.idxRounds.set p.1 (swapAt (swapAt ((st.idxRounds[p.1]?).getD [])
            p.2.1.1 p.2.1.2 p.2.2.1 p.2.2.2) p.2.1.1 p.2.1.2 p.2.2.1 p.2.2.2)
          totalMeasure := swappedMeasure (st.tried p) (st.proposed p) p.1 p.2.1 p.2.2
          gen := (st.decision cfg step p g).2 }, true) := by
  unfold propose at h
  unfold annealStep
  extract_lets r positions p1 p2 at h
  extract_lets a b round swapped cleared measure newScore decision
  split at h
  · cases (Prod.mk.inj h).1
  · rename_i hlen
    split at h
    · cases (Prod.mk.inj h).1
    · rename_i hp
      obtain ⟨hsome, rfl⟩ := Prod.mk.inj h
      obtain rfl := Option.some.inj hsome
      rw [if_neg hlen, if_neg hp]
      by_cases hyes : decision.1 = true
      · rw [if_pos hyes]
        exact congrArg (·, true) (if_pos hyes).symm
      · rw [if_neg hyes]
        refine Eq.trans ?_ (congrArg (·, true) (if_neg hyes).symm)
        unfold swappedMeasure
        rw [AnnealState.proposed, swappedRounds_getD]
        rfl

theorem annealStep_accepted {cfg : AnnealConfig} {step : ℕ} {st : AnnealState rs}
    {p : ℕ × (ℕ × ℕ) × (ℕ × ℕ)} {g : rs.Gen} (h : propose rs cfg st = (some p, g))
    (hyes : (st.decision cfg step p g).1 = true) :
    annealStep rs cfg step st =
      ({ idxRounds := st.proposed p
         totalMeasure := st.tried p
         currentScore := st.triedRules cfg p
         bestScore :=
          if isBetter (st.triedRules cfg p) st.bestScore then st.triedRules cfg p
          else st.bestScore
         bestState :=
          if isBetter (st.triedRules cfg p) st.bestScore then st.proposed p else st.bestState
         gen := (st.decision cfg step p g).2 }, true) := by
  rw [annealStep_proposed h, if_pos hyes]

theorem annealStep_reverted {cfg : AnnealConfig} {step : ℕ} {st : AnnealState rs}
    {p : ℕ × (ℕ × ℕ) × (ℕ × ℕ)} {g : rs.Gen} (h : propose rs cfg st = (some p, g))
    (hno : (st.decision cfg step p g).1 = false) :
    annealStep rs cfg step st =
      ({ st with
         idxRounds := st.idxRounds.set p.1 (swapAt (swapAt ((st.idxRounds[p.1]?).getD [])
          p.2.1.1 p.2.1.2 p.2.2.1 p.2.2.2) p.2.1.1 p.2.1.2 p.2.2.1 p.2.2.2)
         totalMeasure := swappedMeasure (st.tried p) (st.proposed p) p.1 p.2.1 p.2.2
         gen := (st.decision cfg step p g).2 }, true) := by
  rw [annealStep_proposed h, if_neg (by rw [hno]; exact Bool.false_ne_true)]

end Steps

/-! ### What the annealer keeps -/

/-- The kept measure is the measure of the current seating. -/
def AnnealState.Exact {rs : RandomSource} (n : ℕ) (st : AnnealState rs) : Prop :=
  st.totalMeasure = measureAll n st.idxRounds

theorem swappedRounds_twice (rounds : List (Round ℕ)) (r : ℕ) (a b : ℕ × ℕ) :
    swappedRounds (swappedRounds rounds r a b) r a b =
      rounds.set r (swapAt (swapAt ((rounds[r]?).getD []) a.1 a.2 b.1 b.2)
        a.1 a.2 b.1 b.2) := by
  have hround := swappedRounds_getD rounds r a b
  unfold swappedRounds at hround ⊢
  rw [hround, List.set_set]

theorem AnnealState.Exact.tried {rs : RandomSource} {n : ℕ} {st : AnnealState rs}
    (h : st.Exact n) (p : ℕ × (ℕ × ℕ) × (ℕ × ℕ)) : st.tried p = measureAll n (st.proposed p) := by
  unfold AnnealState.tried AnnealState.proposed
  rw [h, swappedMeasure_eq]

theorem annealStep_exact {rs : RandomSource} {n : ℕ} {cfg : AnnealConfig} {step : ℕ}
    {st : AnnealState rs} (h : st.Exact n) : (annealStep rs cfg step st).1.Exact n := by
  rcases hp : propose rs cfg st with ⟨none | p, g⟩
  · rw [annealStep_skipped hp]
    exact h
  · cases hd : (st.decision cfg step p g).1 with
    | true =>
      rw [annealStep_accepted hp hd]
      exact h.tried p
    | false =>
      rw [annealStep_reverted hp hd]
      show swappedMeasure (st.tried p) (st.proposed p) p.1 p.2.1 p.2.2 = measureAll n _
      rw [h.tried p, swappedMeasure_eq, AnnealState.proposed, swappedRounds_twice]

theorem annealLoop_exact {rs : RandomSource} {cfg : AnnealConfig} (left step : ℕ)
    {st : AnnealState rs} (h : st.Exact cfg.n) :
    (annealLoop rs cfg left step st).Exact cfg.n := by
  induction left generalizing step st with
  | zero => exact h
  | succ left ih =>
    have hnext : (annealStep rs cfg step st).1.Exact cfg.n := annealStep_exact h
    have hrestored : (restoreBest rs cfg (annealStep rs cfg step st).1).Exact cfg.n := rfl
    rw [annealLoop]
    extract_lets next
    split
    · split
      · exact hrestored
      · exact ih _ hrestored
    · exact ih _ hnext

/-! ### From the names -/

/-- Nobody sits twice in a round, and every index is a player's. -/
def Placed (n : ℕ) (rounds : List (Round ℕ)) : Prop :=
  ∀ r ∈ rounds, r.flatten.Nodup ∧ ∀ p ∈ r.flatten, p < n

theorem Placed.swapped {n : ℕ} {rounds : List (Round ℕ)} (h : Placed n rounds) (r : ℕ)
    (a b : ℕ × ℕ) : Placed n (swappedRounds rounds r a b) := by
  intro x hx
  rcases List.mem_or_eq_of_mem_set hx with hx | rfl
  · exact h x hx
  · have hperm := swapAt_perm ((rounds[r]?).getD []) a.1 a.2 b.1 b.2
    cases hr : rounds[r]? with
    | none =>
      rw [Option.getD_none, swapAt_nil]
      exact ⟨List.nodup_nil, fun _ hp => absurd hp List.not_mem_nil⟩
    | some round =>
      rw [hr] at hperm
      obtain ⟨hnodup, hlt⟩ := h round (List.mem_of_getElem? hr)
      exact ⟨hperm.nodup_iff.2 hnodup, fun p hp => hlt p (hperm.mem_iff.1 hp)⟩

/-- The current and the best seating are placed. -/
structure AnnealState.Placed {rs : RandomSource} (n : ℕ) (st : AnnealState rs) : Prop where
  current : Seating.Placed n st.idxRounds
  best : Seating.Placed n st.bestState

theorem annealStep_placed {rs : RandomSource} {n : ℕ} {cfg : AnnealConfig} {step : ℕ}
    {st : AnnealState rs} (h : st.Placed n) : (annealStep rs cfg step st).1.Placed n := by
  rcases hp : propose rs cfg st with ⟨none | p, g⟩
  · rw [annealStep_skipped hp]
    exact ⟨h.current, h.best⟩
  · have hproposed : Seating.Placed n (st.proposed p) := h.current.swapped p.1 p.2.1 p.2.2
    cases hd : (st.decision cfg step p g).1 with
    | true =>
      rw [annealStep_accepted hp hd]
      refine ⟨hproposed, ?_⟩
      dsimp only
      split
      · exact hproposed
      · exact h.best
    | false =>
      rw [annealStep_reverted hp hd]
      refine ⟨?_, h.best⟩
      show Seating.Placed n (st.idxRounds.set p.1 _)
      rw [← swappedRounds_twice]
      exact hproposed.swapped p.1 p.2.1 p.2.2

theorem annealLoop_placed {rs : RandomSource} {n : ℕ} {cfg : AnnealConfig} (left step : ℕ)
    {st : AnnealState rs} (h : st.Placed n) : (annealLoop rs cfg left step st).Placed n := by
  induction left generalizing step st with
  | zero => exact h
  | succ left ih =>
    have hnext : (annealStep rs cfg step st).1.Placed n := annealStep_placed h
    have hrestored : (restoreBest rs cfg (annealStep rs cfg step st).1).Placed n :=
      ⟨hnext.best, hnext.best⟩
    rw [annealLoop]
    extract_lets next
    split
    · split
      · exact hrestored
      · exact ih _ hrestored
    · exact ih _ hnext

theorem reshuffle_placed {rs : RandomSource} {n : ℕ} (fixedRounds : ℕ)
    (rounds : List (Round ℕ)) (i : ℕ) (g : rs.Gen) (h : Placed n rounds) :
    Placed n (reshuffle rs fixedRounds i rounds g).1 := by
  induction rounds generalizing i g with
  | nil => exact h
  | cons r rest ih =>
    obtain ⟨hr, hrest⟩ : (r.flatten.Nodup ∧ ∀ p ∈ r.flatten, p < n) ∧ Placed n rest :=
      List.forall_mem_cons.1 h
    rw [reshuffle]
    split
    · exact List.forall_mem_cons.2 ⟨hr, ih (i + 1) g hrest⟩
    · refine List.forall_mem_cons.2 ⟨?_, ih (i + 1) _ hrest⟩
      have hperm := rs.shuffle_perm r.flatten g
      have hhead := splitTables_isPrefixOf (rs.shuffle r.flatten g).1
      exact ⟨hhead.sublist.nodup (hperm.nodup_iff.2 hr.1),
        fun p hp => hr.2 p (hperm.mem_iff.1 (hhead.subset hp))⟩

theorem nodup_foldl_mapping (xs m : List String) (hm : m.Nodup) :
    (xs.foldl (fun m p => if p ∈ m then m else m ++ [p]) m).Nodup := by
  induction xs generalizing m with
  | nil => exact hm
  | cons x xs ih =>
    rw [List.foldl_cons]
    apply ih
    split
    · exact hm
    · rename_i hx
      exact List.nodup_append.2 ⟨hm, List.nodup_singleton x, fun a ha b hb => by
        rintro rfl
        exact hx (List.mem_singleton.1 hb ▸ ha)⟩

theorem nodup_buildMapping (rounds : List (Round String)) : (buildMapping rounds).Nodup :=
  nodup_foldl_mapping _ [] List.nodup_nil

theorem mem_buildMapping {rounds : List (Round String)} {r : Round String} (hr : r ∈ rounds)
    {p : String} (hp : p ∈ r.flatten) : p ∈ buildMapping rounds := by
  obtain ⟨table, htable, hp⟩ := List.mem_flatten.1 hp
  exact subset_foldl_mapping _ [] p
    (.inr (List.mem_flatten.2 ⟨table, List.mem_flatten.2 ⟨r, hr, htable⟩, hp⟩))

theorem placed_toIndices {rounds : List (Round String)} (h : ∀ r ∈ rounds, r.flatten.Nodup) :
    Placed (buildMapping rounds).length (rounds.map (toIndices (buildMapping rounds))) := by
  intro r hr
  obtain ⟨r', hr', rfl⟩ := List.mem_map.1 hr
  rw [toIndices_flatten]
  constructor
  · refine List.Nodup.map_on ?_ (h r' hr')
    intro x hx y hy hxy
    exact (List.idxOf_inj (mem_buildMapping hr' hx)).1 hxy
  · intro i hi
    obtain ⟨p, hp, rfl⟩ := List.mem_map.1 hi
    exact List.idxOf_lt_length_of_mem (mem_buildMapping hr' hp)

theorem toIndices_toNames {mapping : List String} (hm : mapping.Nodup) {r : Round ℕ}
    (hr : ∀ p ∈ r.flatten, p < mapping.length) : toIndices mapping (toNames mapping r) = r := by
  unfold toIndices toNames
  rw [List.map_map]
  conv_rhs => rw [← List.map_id r]
  refine List.map_congr_left fun table htable => ?_
  simp only [Function.comp_apply, List.map_map, id_eq]
  conv_rhs => rw [← List.map_id table]
  refine List.map_congr_left fun i hi => ?_
  have hlt : i < mapping.length := hr i (List.mem_flatten.2 ⟨table, htable, hi⟩)
  simp only [Function.comp_apply, List.getElem?_eq_getElem hlt, Option.getD_some, id_eq]
  exact hm.idxOf_getElem i hlt

/-! ### Overwriting and adding -/

theorem foldl_setVec_eq (cs : List Contribution) (m : Measure)
    (hown : ∀ c ∈ cs, c.own = true → c.j = c.i ∧ ∀ k, m.get c.i c.i k = 0)
    (hother : ∀ c ∈ cs, c.own = false → c.i ≠ c.j)
    (hnodup : ((cs.filter (·.own)).map (·.i)).Nodup) :
    cs.foldl (fun m c => if c.own then m.setVec c.i c.j c.vec else m.addVec c.i c.j c.vec) m =
      cs.foldl (fun m c => m.addVec c.i c.j c.vec) m := by
  induction cs generalizing m with
  | nil => rfl
  | cons c cs ih =>
    have hset : (if c.own then m.setVec c.i c.j c.vec else m.addVec c.i c.j c.vec) =
        m.addVec c.i c.j c.vec := by
      cases hc : c.own with
      | false => rfl
      | true =>
        obtain ⟨hj, hzero⟩ := hown c List.mem_cons_self hc
        refine Measure.eq_of_get rfl fun a b k => ?_
        show (m.setVec c.i c.j c.vec).get a b k = (m.addVec c.i c.j c.vec).get a b k
        unfold Measure.setVec Measure.addVec Measure.updateVec
        dsimp only
        split
        · rename_i hab
          rw [hab.1, hab.2, hj, hzero, zero_add]
        · rfl
    rw [List.foldl_cons, List.foldl_cons, hset]
    refine ih _ (fun d hd hdown => ?_) (fun d hd => hother d (List.mem_cons_of_mem c hd)) ?_
    · obtain ⟨hj, hzero⟩ := hown d (List.mem_cons_of_mem c hd) hdown
      refine ⟨hj, fun k => ?_⟩
      -- The vector just written is of another pair: another player's own, or two players'.
      have hne : ¬(d.i = c.i ∧ d.i = c.j) := by
        rintro ⟨hi, hij⟩
        cases hc : c.own with
        | false => exact hother c List.mem_cons_self hc (hi ▸ hij)
        | true =>
          rw [List.filter_cons_of_pos hc, List.map_cons] at hnodup
          exact (List.nodup_cons.1 hnodup).1
            (hi ▸ List.mem_map.2 ⟨d, List.mem_filter.2 ⟨hd, hdown⟩, rfl⟩)
      rw [addVec_get, hzero, Contribution.cell, if_neg hne, add_zero]
    · cases hc : c.own with
      | false => rwa [List.filter_cons_of_neg (by simp [hc])] at hnodup
      | true =>
        rw [List.filter_cons_of_pos hc, List.map_cons] at hnodup
        exact (List.nodup_cons.1 hnodup).2

theorem mem_contributions {table : List ℕ} {c : Contribution} (h : c ∈ contributions table) :
    (table.length = 4 ∨ table.length = 5) ∧ ∃ seat, table[seat]? = some c.i ∧
      (c.own = true ∧ c.j = c.i ∨ c.own = false ∧ ∃ rel, rel < table.length - 1 ∧
        table[(seat + rel + 1) % table.length]? = some c.j) := by
  unfold contributions at h
  dsimp only at h
  split at h
  · rename_i hsize
    refine ⟨hsize, ?_⟩
    obtain ⟨⟨p, seat⟩, hseat, hc⟩ := List.mem_flatMap.1 h
    have hp : table[seat]? = some p := List.mk_mem_zipIdx_iff_getElem?.1 hseat
    refine ⟨seat, ?_⟩
    rcases List.mem_cons.1 hc with rfl | hc
    · exact ⟨hp, .inl ⟨rfl, rfl⟩⟩
    · obtain ⟨rel, hrel, rfl⟩ := List.mem_map.1 hc
      have hlt : (seat + rel + 1) % table.length < table.length :=
        Nat.mod_lt _ (by omega)
      refine ⟨hp, .inr ⟨rfl, rel, List.mem_range.1 hrel, ?_⟩⟩
      dsimp only
      rw [List.getElem?_eq_getElem hlt]
      rfl
  · cases h

theorem contributions_ne {table : List ℕ} (hnodup : table.Nodup) {c : Contribution}
    (h : c ∈ contributions table) (hc : c.own = false) : c.i ≠ c.j := by
  obtain ⟨hsize, seat, hi, ⟨hown, -⟩ | ⟨-, rel, hrel, hj⟩⟩ := mem_contributions h
  · rw [hc] at hown
    cases hown
  · intro hij
    obtain ⟨hlt, hi'⟩ := List.getElem?_eq_some_iff.1 hi
    obtain ⟨hlt', hj'⟩ := List.getElem?_eq_some_iff.1 hj
    have hseat : seat = (seat + rel + 1) % table.length :=
      (hnodup.getElem_inj_iff).1 (hi'.trans (hij.trans hj'.symm))
    rcases hsize with hsize | hsize
    · rw [hsize] at hseat hlt hrel
      omega
    · rw [hsize] at hseat hlt hrel
      omega

theorem own_contributions (table : List ℕ) :
    (((contributions table).filter (·.own)).map (·.i)).Sublist table := by
  unfold contributions
  dsimp only
  split
  · have hseat : ∀ (ps : ℕ × ℕ) (rels : List ℕ) (vec : List ℤ) (f : ℕ → ℕ) (g : ℕ → List ℤ),
        ((⟨ps.1, ps.1, true, vec⟩ :: rels.map fun rel =>
          (⟨ps.1, f rel, false, g rel⟩ : Contribution)).filter (·.own)).map (·.i) = [ps.1] := by
      intro ps rels vec f g
      simp
    rw [List.filter_flatMap, List.map_flatMap]
    simp only [hseat]
    have hseats : table.zipIdx.flatMap (fun ps => [ps.1]) = table := by
      rw [← List.map_eq_flatMap, List.zipIdx_map_fst]
    rw [hseats]
  · exact List.nil_sublist table

theorem measureRound_toNames {mapping : List String} (hm : mapping.Nodup) {r : Round ℕ}
    (hnodup : r.flatten.Nodup) (hlt : ∀ p ∈ r.flatten, p < mapping.length) :
    measureRound mapping (toNames mapping r) = measureRoundIdx r mapping.length := by
  have htable : ∀ table ∈ r, table.Nodup := fun table ht => (List.nodup_flatten.1 hnodup).1 table ht
  have hown : (((r.flatMap contributions).filter (·.own)).map (·.i)).Sublist r.flatten := by
    clear hnodup hlt htable
    induction r with
    | nil => exact List.Sublist.refl _
    | cons table r ih =>
      rw [List.flatMap_cons, List.filter_append, List.map_append, List.flatten_cons]
      exact (own_contributions table).append ih
  rw [measureRound, toIndices_toNames hm hlt, foldl_setVec_eq, List.foldl_flatMap]
  · rfl
  · intro c hc hcown
    obtain ⟨table, -, hc⟩ := List.mem_flatMap.1 hc
    obtain ⟨-, seat, -, ⟨-, hj⟩ | ⟨hno, -⟩⟩ := mem_contributions hc
    · exact ⟨hj, fun _ => rfl⟩
    · rw [hcown] at hno
      cases hno
  · intro c hc
    obtain ⟨table, ht, hc⟩ := List.mem_flatMap.1 hc
    exact contributions_ne (htable table ht) hc
  · exact hown.nodup hnodup

theorem totalMeasure_toNames {mapping : List String} (hm : mapping.Nodup)
    {rounds : List (Round ℕ)} (h : Placed mapping.length rounds) :
    totalMeasure mapping (rounds.map (toNames mapping)) = measureAll mapping.length rounds := by
  have hfold : ∀ m : Measure,
      (rounds.map (toNames mapping)).foldl (fun acc r => acc.add (measureRound mapping r)) m =
        rounds.foldl (fun acc r => acc.add (measureRoundIdx r mapping.length)) m := by
    induction rounds with
    | nil => exact fun _ => rfl
    | cons r rounds ih =>
      obtain ⟨hr, hrest⟩ : (r.flatten.Nodup ∧ ∀ p ∈ r.flatten, p < mapping.length) ∧
          Placed mapping.length rounds := List.forall_mem_cons.1 h
      intro m
      rw [List.map_cons, List.foldl_cons, List.foldl_cons, measureRound_toNames hm hr.1 hr.2,
        ih hrest]
  exact hfold _

/-! ### The runs of the annealer -/

section Runs

variable (rs : RandomSource)

/-- The rounds the loop starts from, and the generator. -/
def saShuffled (rounds : List (Round String)) (fixedRounds : ℕ) (seed : UInt64) :
    List (Round ℕ) × rs.Gen :=
  reshuffle rs fixedRounds 0 (rounds.map (toIndices (buildMapping rounds))) (rs.seedFromU64 seed)

/-- What the loop reads. -/
def saConfig (rounds : List (Round String)) (iterations fixedRounds : ℕ) (seed : UInt64) :
    AnnealConfig :=
  ⟨iterations, fixedRounds, rounds.length, (buildMapping rounds).length,
    roundPositions (saShuffled rs rounds fixedRounds seed).1⟩

/-- The state the loop starts in. -/
def saStart (rounds : List (Round String)) (fixedRounds : ℕ) (seed : UInt64) : AnnealState rs :=
  let shuffled := saShuffled rs rounds fixedRounds seed
  let measure := measureAll (buildMapping rounds).length shuffled.1
  let score := (scoreMeasure rs.sqrt measure rounds.length).rules
  ⟨shuffled.1, measure, score, score, shuffled.1, shuffled.2⟩

/-- The state after `k` passes of the loop. -/
def saState (rounds : List (Round String)) (iterations fixedRounds : ℕ) (seed : UInt64) (k : ℕ) :
    AnnealState rs :=
  annealLoop rs (saConfig rs rounds iterations fixedRounds seed) k 0
    (saStart rs rounds fixedRounds seed)

theorem saState_exact (rounds : List (Round String)) (iterations fixedRounds : ℕ)
    (seed : UInt64) (k : ℕ) :
    (saState rs rounds iterations fixedRounds seed k).Exact (buildMapping rounds).length :=
  @annealLoop_exact rs (saConfig rs rounds iterations fixedRounds seed) k 0 _ rfl

theorem saState_placed {rounds : List (Round String)} (h : ∀ r ∈ rounds, r.flatten.Nodup)
    (iterations fixedRounds : ℕ) (seed : UInt64) (k : ℕ) :
    (saState rs rounds iterations fixedRounds seed k).Placed (buildMapping rounds).length := by
  have hshuffled : Placed (buildMapping rounds).length
      (saShuffled rs rounds fixedRounds seed).1 :=
    reshuffle_placed fixedRounds _ 0 _ (placed_toIndices h)
  exact annealLoop_placed k 0 ⟨hshuffled, hshuffled⟩

/-- At every pass of the loop the measure kept is the one `measure_round` takes of the current
seating, and the next proposal is judged on the one it takes of the seating proposed. -/
theorem incremental_eq_scratch (rounds : List (Round String))
    (h : ∀ r ∈ rounds, r.flatten.Nodup) (iterations fixedRounds : ℕ) (seed : UInt64) (k : ℕ) :
    let mapping := buildMapping rounds
    let st := saState rs rounds iterations fixedRounds seed k
    st.totalMeasure = totalMeasure mapping (st.idxRounds.map (toNames mapping)) ∧
      ∀ p g, propose rs (saConfig rs rounds iterations fixedRounds seed) st = (some p, g) →
        st.tried p = totalMeasure mapping ((st.proposed p).map (toNames mapping)) := by
  have hexact := saState_exact rs rounds iterations fixedRounds seed k
  have hplaced := saState_placed rs h iterations fixedRounds seed k
  have hm := nodup_buildMapping rounds
  refine ⟨?_, fun p g _ => ?_⟩
  · rw [totalMeasure_toNames hm hplaced.current]
    exact hexact
  · have hproposed : Placed (buildMapping rounds).length
        ((saState rs rounds iterations fixedRounds seed k).proposed p) :=
      hplaced.current.swapped p.1 p.2.1 p.2.2
    rw [totalMeasure_toNames hm hproposed]
    exact hexact.tried p

end Runs

/-- A generator that plays a script: no shuffle moves anyone, every range is answered by the next
number, and every chance is taken. -/
def scriptedSource (script : List ℕ) : RandomSource where
  Gen := List ℕ
  seedFromU64 := fun _ => script
  nextU64 := fun g => (0, g)
  shuffle := fun xs g => (xs, g)
  genRange := fun lo hi g => (lo + g.headD 0 % (hi - lo), g.tail)
  genUnit := fun g => (0, g)
  -- Exact at the arguments of the runs below, 0 and 1; close to 0 an exponential.
  sqrt := id
  exp := fun x => 1 + x
  ln := fun x => x - 1
  shuffle_perm := fun xs _ => List.Perm.refl xs
  genRange_mem := fun lo hi g h => by
    have hlt := Nat.mod_lt (g.headD 0) (Nat.sub_pos_of_lt h)
    exact ⟨Nat.le_add_right _ _, by dsimp only; omega⟩

/-- Two rounds of eight players; nobody has the same prey twice. -/
def twoRounds : List (Round String) :=
  [[["a", "b", "c", "d"], ["e", "f", "g", "h"]], [["d", "g", "b", "e"], ["h", "c", "f", "a"]]]

theorem incremental_eq_scratch_twoRounds :
    let st := saState (scriptedSource [0, 0, 4]) twoRounds 1 1 0 1
    st.totalMeasure = totalMeasure (buildMapping twoRounds)
      (st.idxRounds.map (toNames (buildMapping twoRounds))) :=
  (incremental_eq_scratch (scriptedSource [0, 0, 4]) twoRounds (by decide) 1 1 0 1).1

end Archon.Seating

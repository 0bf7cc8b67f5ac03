import Mathlib.Data.Fintype.Basic
import Archon.Backend.Snapshots

/-!
# Snapshot plus catch-up

The published file with the rows modified after its stamp is the live corpus, but for an object
whose last write the file's pass did not see and the catch-up does not send: it was committed after
the rows were read by a transaction begun at or before the stamp, it took away a projection at a
level whose catch-up skips such rows, or it purged the row.
-/

namespace Archon.Snapshots
open Stream KeyedWrites Program

/-! ### The property -/

/-- The last write of the object since the rows of the file were read. -/
def sinceRead (s : State) (f : SnapshotFile) (uid : String) : Option (Write String Row) :=
  lastOf (s.log.drop f.readAt) uid

/-- The catch-up of the level skips a row without a projection. -/
def skips (level : DataLevel) (row : Row) : Prop :=
  row.projection (levelCol level) = none ∧ ¬ (level = .member ∧ row.type = .deck)

/-- The last write of the object since the file's read is one the catch-up does not bring. -/
def Missed (level : DataLevel) (s : State) (f : SnapshotFile) (uid : String) : Prop :=
  ∃ w ∈ sinceRead s f uid,
    match w.value with
    | some row => row.modifiedAt ≤ f.generatedAt ∨ (skips level row ∧ f.load uid ≠ none)
    | none => f.load uid ≠ none

instance (level : DataLevel) (s : State) (f : SnapshotFile) (uid : String) :
    Decidable (Missed level s f uid) := by
  have hmatch : ∀ w : Write String Row, Decidable (match w.value with
      | some row => row.modifiedAt ≤ f.generatedAt ∨ (skips level row ∧ f.load uid ≠ none)
      | none => f.load uid ≠ none) := by
    intro w
    unfold skips
    split <;> infer_instance
  unfold Missed
  infer_instance

section Snapshots

variable {rows : Rows} {uid : String} {row : Row} {g : Row → Option (Option String)}
variable {s : State} {f : SnapshotFile} {level : DataLevel} {l : Level}

/-! ### Rows and the writes they stand for -/

theorem mem_written {w : Write String String} :
    w ∈ written rows g ↔ ∃ row, rows.lookup w.key = some row ∧ g row = some w.value := by
  simp only [written, List.mem_filterMap, Option.map_eq_some_iff]
  constructor
  · rintro ⟨⟨uid, row⟩, he, value, hg, rfl⟩
    exact ⟨row, AList.mem_lookup_iff.mpr he, hg⟩
  · rintro ⟨row, hrow, hg⟩
    exact ⟨⟨w.key, row⟩, AList.mem_lookup_iff.mp hrow, w.value, hg, rfl⟩

theorem applyAll_written (copies : String → Option String) (uid : String) :
    applyAll copies (written rows g) uid =
      ((rows.lookup uid).bind g).elim (copies uid) (fun value => value) := by
  rw [applyAll_apply]
  cases hlast : lastOf (written rows g) uid with
  | some w =>
    obtain ⟨hmem, rfl⟩ := mem_of_lastOf hlast
    obtain ⟨row, hrow, hg⟩ := mem_written.mp hmem
    rw [hrow, Option.bind_some, hg]
    rfl
  | none =>
    cases hrow : (rows.lookup uid).bind g with
    | none => rfl
    | some value =>
      obtain ⟨row, hlookup, hg⟩ := Option.bind_eq_some_iff.mp hrow
      exact absurd rfl (lastOf_eq_none.mp hlast ⟨uid, value⟩ (mem_written.mpr ⟨row, hlookup, hg⟩))

theorem load_read (s : State) (generatedAt : ℕ) (uid : String) :
    (s.read generatedAt l).load uid = corpus l s.rows uid := by
  unfold SnapshotFile.load State.read snapshotLines corpus
  rw [applyAll_written]
  cases hrow : s.rows.lookup uid with
  | none => rfl
  | some row => cases hlive : row.live l <;> simp [hlive]

theorem lookup_setRow (w : Write String Row) (uid : String) :
    (setRow rows w).lookup uid = apply (fun uid => rows.lookup uid) w uid := by
  unfold setRow KeyedWrites.apply
  by_cases hk : uid = w.key
  · subst hk
    cases w.value <;> simp
  · cases w.value with
    | none => simp [hk, AList.lookup_erase_ne hk]
    | some row => simp [hk, AList.lookup_insert_ne hk]

theorem lookup_commit (ws : List (Write String Row)) (uid : String) :
    (s.commit ws).rows.lookup uid = applyAll (fun uid => s.rows.lookup uid) ws uid := by
  unfold State.commit applyAll
  dsimp only
  induction ws generalizing s with
  | nil => rfl
  | cons w ws ih =>
    have hw : (fun uid => (setRow s.rows w).lookup uid) = apply (fun uid => s.rows.lookup uid) w :=
      funext (lookup_setRow w)
    rw [List.foldl_cons, List.foldl_cons, ← hw]
    exact ih (s := { s with rows := setRow s.rows w })

theorem catchUp_eq_some {since : ℕ} {value : Option String}
    (h : catchUp level since row = some value) : value = row.live (levelCol level) := by
  unfold catchUp at h
  split at h
  · split at h
    · rename_i json hjson
      obtain rfl := Option.some.inj h
      rw [Row.live, hjson]
    · rename_i hnone
      split at h
      · obtain rfl := Option.some.inj h
        rw [Row.live, hnone, ite_self]
      · cases h
  · cases h

theorem skips_of_catchUp {since : ℕ} (hlt : since < row.modifiedAt)
    (h : catchUp level since row = none) : skips level row := by
  unfold catchUp at h
  rw [if_pos hlt] at h
  split at h
  · cases h
  · rename_i hnone
    split at h
    · cases h
    · rename_i hdeck
      exact ⟨hnone, hdeck⟩

theorem synced_of_row (hrow : rows.lookup uid = some row)
    (h : catchUp level f.generatedAt row = none → f.load uid = row.live (levelCol level)) :
    synced level f rows uid = corpus (levelCol level) rows uid := by
  rw [synced, applyAll_written, corpus, hrow, Option.bind_some, Option.bind_some]
  cases hsent : catchUp level f.generatedAt row with
  | none => exact h hsent
  | some value => exact catchUp_eq_some hsent

theorem synced_of_no_row (hrow : rows.lookup uid = none) (h : f.load uid = none) :
    synced level f rows uid = corpus (levelCol level) rows uid := by
  rw [synced, applyAll_written, corpus, hrow]
  exact h

/-! ### What a file says of the table -/

/-- A file read from the table: what was not written since is in it as it is, and what was is in
the table as last written. -/
structure Accurate (l : Level) (s : State) (f : SnapshotFile) : Prop where
  readAt_le : f.readAt ≤ s.log.length
  untouched : ∀ uid, sinceRead s f uid = none → f.load uid = corpus l s.rows uid
  touched : ∀ uid, ∀ w ∈ sinceRead s f uid, s.rows.lookup uid = w.value

theorem accurate_read (s : State) (generatedAt : ℕ) (l : Level) :
    Accurate l s (s.read generatedAt l) where
  readAt_le := Nat.le_refl _
  untouched uid _ := load_read s generatedAt uid
  touched uid w hw := by
    have hnone : sinceRead s (s.read generatedAt l) uid = none := by
      simp [sinceRead, State.read, lastOf]
    rw [hnone] at hw
    cases hw

theorem sinceRead_commit (h : f.readAt ≤ s.log.length) (ws : List (Write String Row))
    (uid : String) : sinceRead (s.commit ws) f uid = (lastOf ws uid).or (sinceRead s f uid) := by
  have hdrop : (s.commit ws).log.drop f.readAt = s.log.drop f.readAt ++ ws :=
    List.drop_append_of_le_length h
  rw [sinceRead, hdrop, lastOf_append]
  rfl

theorem Accurate.commit (h : Accurate l s f) (ws : List (Write String Row)) :
    Accurate l (s.commit ws) f where
  readAt_le := by
    have hlength : (s.commit ws).log.length = s.log.length + ws.length := List.length_append
    have hle := h.readAt_le
    omega
  untouched uid hnone := by
    rw [sinceRead_commit h.readAt_le, Option.or_eq_none_iff] at hnone
    have hrow : (s.commit ws).rows.lookup uid = s.rows.lookup uid := by
      rw [lookup_commit, applyAll_apply, hnone.1]
      rfl
    rw [h.untouched uid hnone.2, corpus, corpus, hrow]
  touched uid w hw := by
    rw [sinceRead_commit h.readAt_le] at hw
    rw [lookup_commit, applyAll_apply]
    cases hlast : lastOf ws uid with
    | some last =>
      rw [hlast] at hw
      obtain rfl := Option.some.inj hw
      rfl
    | none =>
      rw [hlast] at hw
      exact h.touched uid w hw

/-- The table and the log are as before, or writes were committed. -/
def Moved (s s' : State) : Prop :=
  (s'.rows = s.rows ∧ s'.log = s.log) ∨
    ∃ ws, s'.rows = (s.commit ws).rows ∧ s'.log = (s.commit ws).log

theorem Accurate.congr {s' : State} (h : Accurate l s f) (hrows : s'.rows = s.rows)
    (hlog : s'.log = s.log) : Accurate l s' f := by
  obtain ⟨hle, huntouched, htouched⟩ := h
  unfold sinceRead at huntouched htouched
  constructor
  · rwa [hlog]
  · unfold sinceRead
    rwa [hlog, hrows]
  · unfold sinceRead
    rwa [hlog, hrows]

theorem Accurate.moved {s' : State} (h : Accurate l s f) (hm : Moved s s') : Accurate l s' f := by
  rcases hm with ⟨hrows, hlog⟩ | ⟨ws, hrows, hlog⟩
  · exact h.congr hrows hlog
  · exact (h.commit ws).congr hrows hlog

/-! ### The invariant -/

/-- Every file, published or about to be, is accurate. -/
def annotation : Annotation State Phase where
  shared s := ∀ l, ∀ f ∈ s.files l, Accurate l s f
  phase s phase := ∀ anchor files rest, phase = .publishing anchor files rest →
    ∀ l, Accurate l s (files l)
  pair _ _ := True

/-- What a step does: commits writes or leaves the table, publishes a file of its own pass, or
reads the files of a pass. -/
structure Stepped (s : State) (phase : Phase) (s' : State) (phase' : Phase) : Prop where
  moved : Moved s s'
  published : ∀ l, ∀ f ∈ s'.files l, f ∈ s.files l ∨
    ∃ anchor files rest, phase = .publishing anchor files rest ∧ f = files l
  reads : ∀ anchor files rest, phase' = .publishing anchor files rest →
    (∃ rest', phase = .publishing anchor files rest') ∨
      (s' = s ∧ ∃ generatedAt, files = s.read generatedAt)

theorem Stepped.of_commit {phase phase' : Phase} (ws : List (Write String Row))
    (h : ∀ anchor files rest, phase' ≠ .publishing anchor files rest) :
    Stepped s phase (s.commit ws) phase' :=
  ⟨.inr ⟨ws, rfl, rfl⟩, fun _ _ hf => .inl hf, fun a fs r he => absurd he (h a fs r)⟩

theorem Stepped.of_same {s' : State} {phase phase' : Phase} (hrows : s'.rows = s.rows)
    (hlog : s'.log = s.log) (hfiles : s'.files = s.files)
    (h : ∀ anchor files rest, phase' ≠ .publishing anchor files rest) :
    Stepped s phase s' phase' :=
  ⟨.inl ⟨hrows, hlog⟩, fun l _ hf => .inl (congrFun hfiles l ▸ hf),
    fun a fs r he => absurd he (h a fs r)⟩

theorem stepped_of_advance {s' : State} {phase phase' : Phase}
    (h : advance s phase = some (s', phase')) : Stepped s phase s' phase' := by
  unfold advance at h
  split at h
  · obtain ⟨rfl, rfl⟩ := Prod.mk.inj (Option.some.inj h)
    refine .of_same rfl rfl rfl fun anchor files rest he => ?_
    split at he <;> cases he
  · obtain ⟨rfl, rfl⟩ := Prod.mk.inj (Option.some.inj h)
    refine ⟨.inl ⟨rfl, rfl⟩, fun _ _ hf => .inl hf, ?_⟩
    intro anchor files rest he
    obtain ⟨rfl, rfl, rfl⟩ := Phase.publishing.inj he
    exact .inr ⟨rfl, _, rfl⟩
  · rename_i anchor files level rest
    obtain ⟨rfl, rfl⟩ := Prod.mk.inj (Option.some.inj h)
    refine ⟨.inl ⟨rfl, rfl⟩, ?_, ?_⟩
    · intro l f hf
      dsimp only at hf
      by_cases hl : l = level
      · subst hl
        rw [Function.update_self] at hf
        exact .inr ⟨anchor, files, l :: rest, rfl, (Option.some.inj hf).symm⟩
      · rw [Function.update_of_ne hl] at hf
        exact .inl hf
    · intro anchor' files' rest' he
      obtain ⟨rfl, rfl, rfl⟩ := Phase.publishing.inj he
      exact .inl ⟨_, rfl⟩
  · obtain ⟨rfl, rfl⟩ := Prod.mk.inj (Option.some.inj h)
    exact .of_same rfl rfl rfl nofun
  · cases h

theorem stepped_of_step {s' : State} {phase phase' : Phase} {input : Input}
    (h : step s phase input = some (s', phase')) : Stepped s phase s' phase' := by
  unfold step at h
  split at h
  · obtain ⟨rfl, rfl⟩ := Prod.mk.inj (Option.some.inj h)
    exact .of_same rfl rfl rfl fun _ _ _ he => by cases he
  · obtain ⟨rfl, rfl⟩ := Prod.mk.inj (Option.some.inj h)
    exact .of_same rfl rfl rfl fun _ _ _ he => by cases he
  · obtain ⟨rfl, rfl⟩ := Prod.mk.inj (Option.some.inj h)
    exact .of_commit _ fun _ _ _ he => by cases he
  · -- the purge of a row that is marked deleted
    split at h
    · split at h
      · obtain ⟨rfl, rfl⟩ := Prod.mk.inj (Option.some.inj h)
        exact .of_commit _ fun _ _ _ he => by cases he
      · cases h
    · cases h
  · obtain ⟨rfl, rfl⟩ := Prod.mk.inj (Option.some.inj h)
    exact .of_same rfl rfl rfl fun _ _ _ he => by cases he
  · obtain ⟨rfl, rfl⟩ := Prod.mk.inj (Option.some.inj h)
    exact .of_same rfl rfl rfl fun _ _ _ he => by cases he
  · obtain ⟨rfl, rfl⟩ := Prod.mk.inj (Option.some.inj h)
    exact .of_same rfl rfl rfl fun _ _ _ he => by cases he
  · cases h
  · obtain ⟨rfl, rfl⟩ := Prod.mk.inj (Option.some.inj h)
    exact .of_same rfl rfl rfl fun _ _ _ he => by cases he
  · exact stepped_of_advance h
  · cases h

end Snapshots

section Runs

variable {τ : Type} [DecidableEq τ] {s : Threads τ State Phase}

theorem accurate_of_reaches {ok : Threads τ State Phase → τ × Input → Prop}
    (h : snapshots.system.Reaches ok s) : annotation.Holds s := by
  refine holds_of_reaches (fun x hx => ?_) trivial (fun s t i next hs _ hnext => ?_) h
  · refine ⟨fun l f hf => ?_, nofun⟩
    rw [hx.2 l] at hf
    cases hf
  · have hstep : Stepped s.shared (s.phase t) next.1 next.2 := stepped_of_step hnext
    refine ⟨?_, ?_, ?_, fun _ _ => ⟨trivial, trivial⟩⟩
    · intro l f hf
      rcases hstep.published l f hf with hf | ⟨anchor, files, rest, hphase, rfl⟩
      · exact (hs.shared l f hf).moved hstep.moved
      · exact (hs.phase t anchor files rest hphase l).moved hstep.moved
    · intro anchor files rest hphase l
      rcases hstep.reads anchor files rest hphase with ⟨rest', hbefore⟩ | ⟨hs', g, rfl⟩
      · exact (hs.phase t anchor files rest' hbefore l).moved hstep.moved
      · rw [hs']
        exact accurate_read s.shared g l
    · intro t' _ anchor files rest hphase l
      exact (hs.phase t' anchor files rest hphase l).moved hstep.moved

/-- For every object the published file with the catch-up gives the live corpus, unless its last
write since the file's read is one the catch-up does not bring. -/
theorem synced_of_reachable (h : snapshots.system.Reachable s) (level : DataLevel)
    (f : SnapshotFile) (hf : s.shared.files (levelCol level) = some f) (uid : String)
    (hmissed : ¬ Missed level s.shared f uid) :
    synced level f s.shared.rows uid = corpus (levelCol level) s.shared.rows uid := by
  obtain ⟨-, huntouched, htouched⟩ := (accurate_of_reaches h).shared (levelCol level) f hf
  cases hlast : sinceRead s.shared f uid with
  | none =>
    have hload := huntouched uid hlast
    cases hrow : s.shared.rows.lookup uid with
    | none => exact synced_of_no_row hrow (by rw [hload, corpus, hrow]; rfl)
    | some row => exact synced_of_row hrow fun _ => by rw [hload, corpus, hrow]; rfl
  | some w =>
    have hrow := htouched uid w hlast
    cases hvalue : w.value with
    | none =>
      refine synced_of_no_row (hrow.trans hvalue) ?_
      by_contra hheld
      exact hmissed ⟨w, hlast, by rw [hvalue]; exact hheld⟩
    | some row =>
      have hnot : ¬ (row.modifiedAt ≤ f.generatedAt ∨ (skips level row ∧ f.load uid ≠ none)) :=
        fun hm => hmissed ⟨w, hlast, by rw [hvalue]; exact hm⟩
      rw [not_or, Nat.not_le] at hnot
      refine synced_of_row (hrow.trans hvalue) fun hskip => ?_
      have hskips := skips_of_catchUp hnot.1 hskip
      have hload : f.load uid = none := by
        by_contra hheld
        exact hnot.2 ⟨hskips, hheld⟩
      rw [hload, Row.live, hskips.1, ite_self]

end Runs

/-! ### Writes beside a pass -/

/-- A save of a row that is shown at every level, or at the full one only, or marked deleted. -/
def shownAs (json : String) : Draft := ⟨.user, none, fun _ => some json⟩

def unlisted (json : String) : Draft := ⟨.user, none, fun l => if l = .full then some json
    else none⟩

def removedAt (time : ℕ) (json : String) : Draft := ⟨.user, some time, fun _ => some json⟩

/-- Three members, before any file. -/
def listed : State where
  now := 0
  rows := ["a", "b", "c"].foldl (fun rows uid => rows.insert uid ⟨shownAs uid, 0⟩) ∅
  files _ := none
  builtFrom := none
  log := []

def quiet : Threads (Fin 2) State Phase := ⟨listed, fun _ => .idle⟩

theorem quiet_init : snapshots.system.init quiet := ⟨⟨rfl, fun _ => rfl⟩, fun _ => rfl⟩

/-- A run of `generate_snapshots` up to its read, and on to the files. -/
def toRead (t : Fin 2) : List (Fin 2 × Input) := [(t, .generate), (t, .next), (t, .next)]

def toFiles (t : Fin 2) : List (Fin 2 × Input) := List.replicate 5 (t, .next)

/-- A transaction. -/
def saves (t : Fin 2) (drafts : List (String × Draft)) : List (Fin 2 × Input) :=
  (t, .begin) :: drafts.map (fun d => (t, .save d.1 d.2)) ++ [(t, .commit)]

/-- What an anonymous client has of an object from the file and the catch-up, and what it should. -/
def comparedTo (uid : String) (s : Threads (Fin 2) State Phase) :
    Option (Option String × Option String) :=
  (s.shared.files .pub).map fun f =>
    (synced .pub f s.shared.rows uid, corpus .pub s.shared.rows uid)

def savedLater : List (Fin 2 × Input) :=
  toRead 0 ++ toFiles 0 ++ [(0, .wait 1)] ++ saves 1 [("a", shownAs "a2")]

/-- A save after the stamp is caught up. -/
theorem saved_later : ∃ s : Threads (Fin 2) State Phase,
    comparedTo "a" s = some (some "a2", some "a2") ∧
    ∃ f, s.shared.files .pub = some f ∧
      synced .pub f s.shared.rows "a" = corpus .pub s.shared.rows "a" := by
  have hrun : (snapshots.run quiet savedLater).bind (fun s => (s.shared.files .pub).map fun f =>
      (comparedTo "a" s, decide (Missed .pub s.shared f "a"))) =
        some (some (some "a2", some "a2"), false) := by decide +kernel
  obtain ⟨s, hs, hf⟩ := Option.bind_eq_some_iff.1 hrun
  obtain ⟨f, hf, heq⟩ := Option.map_eq_some_iff.1 hf
  obtain ⟨hcompared, hmissed⟩ := Prod.mk.inj heq
  exact ⟨s, hcompared, f, hf, synced_of_reachable (reachable_run (.init quiet_init) hs) .pub f hf
    "a" (of_decide_eq_false hmissed)⟩

/-- No transaction and no pass is under way. -/
def Phase.ended : Phase → Bool
  | .idle => true
  | _ => false

/-- A transaction begins before a pass and commits after its read, and the next pass finds the
corpus unchanged. Then a member loses the public projection, and another is deleted and purged. -/
def straddled : List (Fin 2 × Input) :=
  [(1, .begin), (1, .save "a" (shownAs "a2"))] ++ toRead 0 ++ [(1, .commit)] ++ toFiles 0 ++
    [(0, .generate), (0, .next), (0, .wait 1)] ++
    saves 1 [("b", unlisted "b2"), ("c", removedAt 1 "c2")] ++ [(1, .purge "c")]

/-- With nothing in flight, the first object is an older version and the others are still there. -/
theorem straddled_incomplete : ∃ s : Threads (Fin 2) State Phase, snapshots.system.Reachable s ∧
    (∀ t, (s.phase t).ended = true) ∧ (["a", "b", "c"].map fun uid => comparedTo uid s) =
      [some (some "a", some "a2"), some (some "b", none), some (some "c", none)] := by
  have hrun : (snapshots.run quiet straddled).map (fun s =>
      (decide (∀ t, (s.phase t).ended = true), ["a", "b", "c"].map fun uid => comparedTo uid s)) =
      some (true, [some (some "a", some "a2"), some (some "b", none), some (some "c", none)]) := by
    decide +kernel
  obtain ⟨s, hs, heq⟩ := Option.map_eq_some_iff.1 hrun
  obtain ⟨hended, hcompared⟩ := Prod.mk.inj heq
  exact ⟨s, reachable_run (.init quiet_init) hs, of_decide_eq_true hended, hcompared⟩

end Archon.Snapshots

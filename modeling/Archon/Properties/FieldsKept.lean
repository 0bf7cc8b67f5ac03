import Mathlib.Data.Fintype.Basic
import Archon.Backend.Scenario
import Archon.Backend.UserRows

/-!
# No write of a member's row is lost

Every field of a member has the value written by the last operation that set it: in the runs where
each row is saved while the fields its operation does not set are still as it read them.
-/

namespace Archon.UserRows
open Engine Backend Guards CommunityLinks Program WholeRows

/-! ### The property and the condition -/

def FieldsKept (s : State) : Prop := UpToDate Same s.initial s.log s.rows

variable {τ : Type} [DecidableEq τ]

/-- What the operation is about to save leaves the fields it does not set as they are stored. -/
def Undisturbed (s : Threads τ State Phase) (i : τ × Input) : Prop :=
  match s.phase i.1, i.2 with
  | .holding operation (row :: _), .next now =>
    match operation.save now row with
    | .ok (some saved) => ∀ current ∈ s.shared.rows row.uid, ∀ f, saved.sets f = false →
        Same f row current
    | _ => True
  | _, _ => True

instance : Fintype Field where
  elems := Field.all.toFinset
  complete f := by
    cases f with
    | rating category => cases category <;> decide
    | _ => decide

instance (s : Threads τ State Phase) (i : τ × Input) : Decidable (Undisturbed s i) := by
  unfold Undisturbed
  split
  · split <;> infer_instance
  · infer_instance

/-! ### What an operation leaves of the row it read -/

section Saves

variable {saved : Saved} {row absorbed : UserRow} {now : Stamp} {actor : User} {f : Field}

/-- An operation saves the row under its uid, with the fields it does not set as it read them. -/
structure Frames (saved : Saved) (row : UserRow) : Prop where
  uid : saved.row.uid = row.uid
  unset : ∀ f, saved.sets f = false → Same f saved.row row

theorem frames_updateUser {registry : Registry} {data : UpdateUserRequest}
    (h : updateUser registry actor row data = .ok saved) : Frames saved row := by
  simp only [updateUser, bind_eq_ok, ensure_eq_ok, pure_eq_ok, ite_eq_ok] at h
  obtain ⟨country, -, _, -, _, -, _, -, roles, hroles, ⟨-, rfl⟩ | ⟨-, rfl⟩⟩ := h
  · exact ⟨rfl, fun _ _ => rfl⟩
  · refine ⟨rfl, fun f hf => ?_⟩
    cases f with
    | roles =>
      have hnone : data.roles = none := by simpa [updateFields] using hf
      rw [hnone] at hroles
      exact (Except.ok.inj hroles).symm
    | _ => first | rfl | (simp [updateFields] at hf <;> simp [Same, UserRow.get, hf])

theorem frames_updateCurrentUser {texts : Texts} {data : ProfileUpdateRequest}
    (h : updateCurrentUser texts now row data = .ok saved) : Frames saved row := by
  simp only [updateCurrentUser, CommunityLinks.updateCurrentUser, editProfile, bind_eq_ok,
    ensure_eq_ok, pure_eq_ok] at h
  obtain ⟨_, ⟨_, ⟨_, -, _, -, _, -, rfl⟩, links, hlinks, rfl⟩, rfl⟩ := h
  refine ⟨rfl, fun f hf => ?_⟩
  cases f with
  | communityLinks =>
    have hnone : data.communityLinks = none := by simpa [profileFields] using hf
    rw [hnone] at hlinks
    exact (Except.ok.inj hlinks).symm
  | _ =>
    first
    | rfl
    | (simp [profileFields] at hf <;>
        simp [Same, UserRow.get, ProfileUpdateRequest.newCountry, hf])

theorem frames_setDeceased {deceased : Bool} (h : setDeceased now actor row deceased = .ok saved) :
    Frames saved row := by
  simp only [setDeceased, bind_eq_ok, ensure_eq_ok, pure_eq_ok] at h
  obtain ⟨_, -, _, -, _, -, rfl⟩ := h
  refine ⟨rfl, fun f hf => ?_⟩
  cases f <;> first | rfl | simp at hf

theorem frames_anonymizeMember (h : anonymizeMember now actor row = .ok saved) :
    Frames saved row := by
  simp only [anonymizeMember, bind_eq_ok, ensure_eq_ok, pure_eq_ok] at h
  obtain ⟨_, -, _, -, _, -, _, -, rfl⟩ := h
  refine ⟨rfl, fun f hf => ?_⟩
  cases f <;> first | rfl | simp [anonymized, anonymizedFields] at hf

theorem frames_mergeUsers (h : mergeUsers absorbed row = .ok saved) : Frames saved row := by
  simp only [mergeUsers, bind_eq_ok, ensure_eq_ok, pure_eq_ok] at h
  obtain ⟨_, -, _, -, rfl⟩ := h
  exact ⟨rfl, fun f hf => by simpa using hf⟩

theorem frames_recomputeRatings {category : RatingCategory} {rating : CategoryRating}
    (h : recomputeRatings now category rating row = some saved) : Frames saved row := by
  obtain rfl := Option.some.inj (Option.ite_none_left_eq_some.1 h).2
  refine ⟨rfl, fun f hf => ?_⟩
  cases f with
  | rating c =>
    have hne : c ≠ category := by simpa using hf
    exact Function.update_of_ne hne ..
  | _ => first | rfl | simp at hf

theorem frames_recomputeWins {wins : List Uid} (h : recomputeWins now wins row = some saved) :
    Frames saved row := by
  obtain rfl := Option.some.inj (Option.ite_none_left_eq_some.1 h).2
  refine ⟨rfl, fun f hf => ?_⟩
  cases f <;> first | rfl | simp at hf

theorem frames_recomputePromoStock {stocks : List (Uid × Option ℤ)}
    (h : recomputePromoStock now stocks row = some saved) : Frames saved row := by
  obtain rfl := Option.some.inj (Option.ite_none_left_eq_some.1 h).2
  refine ⟨rfl, fun f hf => ?_⟩
  cases f <;> first | rfl | simp at hf

theorem frames_syncMember {data : VeknData} (h : syncMember now data row = some saved) :
    Frames saved row := by
  obtain rfl := Option.some.inj (Option.ite_none_left_eq_some.1 h).2
  refine ⟨rfl, fun f hf => ?_⟩
  cases f <;> first | rfl | (simp [veknFields] at hf; exact hf) | simp at hf

theorem frames_inferCooptedBy {sponsorUid : Uid}
    (h : inferCooptedBy now sponsorUid row = some saved) : Frames saved row := by
  obtain rfl := Option.some.inj (Option.ite_none_left_eq_some.1 h).2
  refine ⟨rfl, fun f hf => ?_⟩
  cases f <;> first | rfl | simp at hf

theorem frames_inferCooptedByCity {sponsor : UserRow → Option Uid}
    (h : inferCooptedByCity now sponsor row = some saved) : Frames saved row := by
  unfold inferCooptedByCity at h
  split at h
  · cases h
  · obtain rfl := Option.some.inj (Option.ite_none_left_eq_some.1 h).2
    refine ⟨rfl, fun f hf => ?_⟩
    cases f <;> first | rfl | simp at hf

theorem map_some_eq_ok {x : Except RouteError Saved} (h : some <$> x = .ok (some saved)) :
    x = .ok saved := by
  cases x with
  | error e => cases h
  | ok a =>
    obtain rfl := Option.some.inj (Except.ok.inj h)
    rfl

theorem frames_of_save {operation : Operation} (h : operation.save now row = .ok (some saved)) :
    Frames saved row := by
  cases operation with
  | updateUser registry actor data => exact frames_updateUser (map_some_eq_ok h)
  | updateCurrentUser texts data => exact frames_updateCurrentUser (map_some_eq_ok h)
  | setDeceased actor deceased => exact frames_setDeceased (map_some_eq_ok h)
  | anonymizeUser actor => exact frames_anonymizeMember (map_some_eq_ok h)
  | mergeUsers absorbed => exact frames_mergeUsers (map_some_eq_ok h)
  | reassignCooptedBy toUserUid =>
    obtain rfl := Option.some.inj (Except.ok.inj h)
    exact ⟨rfl, fun f hf => by cases f <;> first | rfl | simp at hf⟩
  | softDelete =>
    simp only [Operation.save, bind_eq_ok, ensure_eq_ok, pure_eq_ok] at h
    obtain ⟨_, -, hsaved⟩ := h
    obtain rfl := Option.some.inj hsaved
    exact ⟨rfl, fun f hf => by cases f <;> first | rfl | simp at hf⟩
  | recomputeRatings category rating => exact frames_recomputeRatings (Except.ok.inj h)
  | recomputeWins wins => exact frames_recomputeWins (Except.ok.inj h)
  | recomputePromoStock stocks => exact frames_recomputePromoStock (Except.ok.inj h)
  | syncMember data => exact frames_syncMember (Except.ok.inj h)
  | inferCooptedBy sponsorUid => exact frames_inferCooptedBy (Except.ok.inj h)
  | inferCooptedByCity sponsor => exact frames_inferCooptedByCity (Except.ok.inj h)

end Saves

/-! ### The invariant -/

theorem same_equivalence (f : Field) : Equivalence (Same f) :=
  ⟨fun _ => rfl, fun h => h.symm, fun h h' => h.trans h'⟩

def Keyed (s : State) : Prop := ∀ uid, ∀ row ∈ s.rows uid, row.uid = uid

/-- The rows an operation has read. -/
def Phase.rows : Phase → List UserRow
  | .idle => []
  | .merging keep _ => [keep]
  | .holding _ rows => rows

/-- Rows are never removed. -/
def Stored (s : State) (rows : List UserRow) : Prop :=
  ∀ row ∈ rows, (s.rows row.uid).isSome = true

def annotation : Program.Annotation State Phase where
  shared s := FieldsKept s ∧ Keyed s
  phase s phase := Stored s phase.rows
  pair _ _ := True

section Steps

variable {s : Threads τ State Phase} {t : τ} {saved : Saved} {row : UserRow} {rows : List UserRow}

theorem Keyed.stored {x : State} (h : Keyed x) {uid : Uid} (hrow : x.rows uid = some row) :
    (x.rows row.uid).isSome = true := by
  rw [h uid row hrow, hrow]
  rfl

theorem save_rows_self (x : State) (saved : Saved) :
    (x.save saved).rows saved.row.uid = some saved.row := Function.update_self ..

theorem save_rows_ne (x : State) {uid : Uid} (h : uid ≠ saved.row.uid) :
    (x.save saved).rows uid = x.rows uid := Function.update_of_ne h ..

theorem Stored.save {x : State} (h : Stored x rows) : Stored (x.save saved) rows := by
  intro row hrow
  by_cases hu : row.uid = saved.row.uid
  · rw [hu, save_rows_self]
    rfl
  · rw [save_rows_ne x hu]
    exact h row hrow

theorem Keyed.save {x : State} (h : Keyed x) : Keyed (x.save saved) := by
  intro uid r hr
  by_cases hu : uid = saved.row.uid
  · subst hu
    rw [save_rows_self, Option.mem_some_iff] at hr
    rw [hr]
  · rw [save_rows_ne x hu] at hr
    exact h uid r hr

omit [DecidableEq τ] in
theorem kept_of_same {phase : Phase} (hs : annotation.Holds s)
    (hrows : Stored s.shared phase.rows) : annotation.Kept s t (s.shared, phase) :=
  ⟨hs.shared, hrows, fun t' _ => hs.phase t', fun _ _ => ⟨trivial, trivial⟩⟩

theorem fieldsKept_save_iff {x : State} {current : UserRow} (hkept : FieldsKept x)
    (hframes : Frames saved row) (hcurrent : x.rows row.uid = some current) :
    FieldsKept (x.save saved) ↔ ∀ f, saved.sets f = false → Same f row current := by
  have hstored : x.rows saved.row.uid = some current := by rw [hframes.uid, hcurrent]
  refine (upToDate_save_iff (e := ⟨saved.row.uid, saved.sets, saved.row⟩) same_equivalence hkept
    hstored).trans ⟨fun h f hf => ?_, fun h f hf => ?_⟩
  · exact (hframes.unset f hf).symm.trans (h f hf)
  · exact (hframes.unset f hf).trans (h f hf)

omit [DecidableEq τ] in
theorem kept_of_save {operation : Operation} (hs : annotation.Holds s)
    (hframes : Frames saved row) (hrows : Stored s.shared (row :: rows))
    (hunset : ∀ current ∈ s.shared.rows row.uid, ∀ f, saved.sets f = false →
      Same f row current) :
    annotation.Kept s t (s.shared.save saved, .holding operation rows) := by
  obtain ⟨hkept, hkeyed⟩ := hs.shared
  obtain ⟨current, hcurrent⟩ := Option.isSome_iff_exists.1 (hrows row List.mem_cons_self)
  exact ⟨⟨(fieldsKept_save_iff hkept hframes hcurrent).2 (hunset current hcurrent), hkeyed.save⟩,
    Stored.save fun r hr => hrows r (List.mem_cons_of_mem _ hr),
    fun t' _ => (hs.phase t').save, fun _ _ => ⟨trivial, trivial⟩⟩

theorem stored_nil (x : State) : Stored x [] := fun _ hrow => by cases hrow

theorem Keyed.stored_reads {x : State} (h : Keyed x) (operation : Operation) (uids : List Uid) :
    Stored x (x.reads operation uids).rows := by
  intro row hrow
  obtain ⟨uid, -, hread⟩ := List.mem_filterMap.1 hrow
  exact h.stored hread

theorem Stored.readsAbsorbed {x : State} {keep : UserRow} (h : Stored x [keep]) (deleteUid : Uid) :
    Stored x (x.readsAbsorbed keep deleteUid).rows := by
  unfold State.readsAbsorbed
  split
  · split
    · exact stored_nil x
    · exact h
  · exact stored_nil x

theorem kept_of_saves {operation : Operation} {now : Stamp} {rest : List UserRow}
    (hs : annotation.Holds s) (hok : Undisturbed s (t, .next now))
    (hphase : s.phase t = .holding operation (row :: rest)) :
    annotation.Kept s t (s.shared.saves now operation row rest) := by
  have hheld := hs.phase t
  rw [hphase] at hheld
  simp only [Undisturbed, hphase] at hok
  unfold State.saves
  cases hsave : operation.save now row with
  | error e => exact kept_of_same hs (stored_nil _)
  | ok result =>
    rw [hsave] at hok
    cases result with
    | none => exact kept_of_same hs fun r hr => hheld r (List.mem_cons_of_mem _ hr)
    | some saved => exact kept_of_save hs (frames_of_save hsave) hheld hok

theorem kept_of_step {i : Input} {next : State × Phase} (hs : annotation.Holds s)
    (hok : Undisturbed s (t, i)) (h : step s.shared (s.phase t) i = some next) :
    annotation.Kept s t next := by
  have hheld := hs.phase t
  unfold step at h
  split at h
  · split at h
    · obtain rfl := Option.some.inj h
      exact kept_of_same hs (hs.shared.2.stored_reads _ _)
    · cases h
  · split at h
    · rename_i keep hread
      obtain rfl := Option.some.inj h
      refine kept_of_same hs fun row hrow => ?_
      obtain rfl := List.mem_singleton.1 hrow
      exact hs.shared.2.stored hread
    · obtain rfl := Option.some.inj h
      exact kept_of_same hs (stored_nil _)
  · rename_i keep deleteUid _ hphase
    obtain rfl := Option.some.inj h
    rw [hphase] at hheld
    exact kept_of_same hs (Stored.readsAbsorbed hheld deleteUid)
  · rename_i hphase
    obtain rfl := Option.some.inj h
    exact kept_of_saves hs hok hphase
  · obtain rfl := Option.some.inj h
    exact kept_of_same hs (stored_nil _)
  · cases h

/-- In the runs whose saves are undisturbed, no write of a field is lost. -/
theorem fieldsKept_of_reaches (h : userRows.system.Reaches Undisturbed s) :
    FieldsKept s.shared := by
  have hholds : annotation.Holds s := by
    refine holds_of_reaches (fun x hx => ?_) trivial
      (fun s t i next hs hok hnext => kept_of_step hs hok hnext) h
    obtain ⟨hrows, hlog, hkeyed⟩ := hx
    refine ⟨⟨?_, hkeyed⟩, stored_nil x⟩
    unfold FieldsKept
    rw [hlog, hrows]
    exact upToDate_init fun f r => rfl
  exact hholds.shared.1

end Steps

/-! ### A recompute beside two requests -/

/-- A coordinator. -/
def annRows (uid : Uid) : Option UserRow :=
  if uid = "ann" then some (rowOf (member "ann" [.nc])) else none

def annStored (τ : Type) : Threads τ State Phase := ⟨⟨annRows, annRows, []⟩, fun _ => .idle⟩

theorem annStored_init (τ : Type) [DecidableEq τ] : userRows.system.init (annStored τ) := by
  refine ⟨⟨rfl, rfl, fun uid row hrow => ?_⟩, fun _ => rfl⟩
  simp only [annStored, annRows, Option.mem_def] at hrow
  split at hrow
  · next huid =>
    obtain rfl := Option.some.inj hrow
    exact huid.symm
  · cases hrow

def registry : Registry := ⟨"", "", fun _ => none, [], fun _ => false⟩

/-- The roles of Ann are taken away, her account is anonymized, her win list is recomputed. -/
def revoking : Operation :=
  .updateUser registry (member "ivy" [.ic]) ⟨none, none, none, none, none, none, some []⟩

def anonymizing : Operation := .anonymizeUser (member "ivy" [.ic])

def recounting : Operation := .recomputeWins fun _ => ["t1"]

/-- An operation reads the row of Ann and saves it. -/
def reading {τ : Type} (t : τ) (operation : Operation) : List (τ × Input) :=
  [(t, .start operation ["ann"])]

def saving {τ : Type} (t : τ) : List (τ × Input) :=
    [(t, .next "2026-05-02T10:00:00Z"), (t, .next "")]

def inTurn : List (ℕ × Input) :=
  reading 0 recounting ++ saving 0 ++ reading 1 revoking ++ saving 1 ++ reading 1 anonymizing
    ++ saving 1

def shownOf (s : Threads ℕ State Phase) (uid : Uid) : Option (String × List Role × List Uid) :=
  (s.shared.rows uid).map fun row => (row.name, row.roles, row.wins)

/-- One after the other they lose nothing. -/
theorem written_in_turn : ∃ s : Threads ℕ State Phase,
    shownOf s "ann" = some (anonymizedName, [], ["t1"]) ∧ FieldsKept s.shared := by
  have hrun : (userRows.runIn Undisturbed (annStored ℕ) inTurn).map (fun s => shownOf s "ann") =
      some (some (anonymizedName, [], ["t1"])) := by decide +kernel
  obtain ⟨s, hs, heq⟩ := Option.map_eq_some_iff.1 hrun
  exact ⟨s, heq, fieldsKept_of_reaches (reaches_runIn inTurn _ _ (.init (annStored_init ℕ)) hs)⟩

/-- The recompute reads the row before the requests and saves it after them. -/
def readBefore : List (ℕ × Input) :=
  reading 0 recounting ++ reading 1 revoking ++ saving 1 ++ reading 1 anonymizing ++ saving 1
    ++ saving 0

/-- The revoked role is back, and the wiped name. -/
theorem read_before : ∃ s : Threads ℕ State Phase, userRows.system.Reachable s ∧
    shownOf s "ann" = some ("ann", [.nc], ["t1"]) ∧ ¬ FieldsKept s.shared := by
  have hrun : (userRows.run (annStored ℕ) readBefore).map (fun s =>
      (shownOf s "ann", (source s.shared.initial s.shared.log "ann" .name).map fun r => r.name)) =
      some (some ("ann", [.nc], ["t1"]), some anonymizedName) := by decide +kernel
  obtain ⟨s, hs, heq⟩ := Option.map_eq_some_iff.1 hrun
  obtain ⟨hshown, hsource⟩ := Prod.mk.inj heq
  refine ⟨s, reachable_run (.init (annStored_init ℕ)) hs, hshown, fun hkept => ?_⟩
  obtain ⟨row, hrow, hname⟩ := Option.map_eq_some_iff.1 hshown
  obtain ⟨r, hr, hsame⟩ := hkept "ann" row hrow .name
  rw [Option.mem_def.1 hr, Option.map_some] at hsource
  have hannName : row.name = "ann" := (Prod.mk.inj hname).1
  have hwiped : row.name = anonymizedName := hsame.trans (Option.some.inj hsource)
  rw [hannName] at hwiped
  revert hwiped
  decide

end Archon.UserRows

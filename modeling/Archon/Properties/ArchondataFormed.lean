import Archon.Library.Lines
import Archon.Backend.Archondata
import Archon.Backend.Scenario
import Archon.Properties.FinalRanking
import Archon.Properties.LeagueAgrees

/-!
# The results file is well formed (`vekn_push.py:87`)

The file is cut back into its fields where no name, city or number of a member holds one of the
two marks, which the code does not check. The rows follow the placement: those that place, then
the excluded ones, of which the proxies are left out.
-/

namespace Archon.Backend
open Engine CommunityLinks

/-! ### Texts without marks -/

/-- Neither mark of the file. -/
def Plain (s : Str) : Prop := '§' ∉ s ∧ '¤' ∉ s

instance (s : Str) : Decidable (Plain s) := inferInstanceAs (Decidable (_ ∧ _))

theorem Plain.append {s s' : Str} (h : Plain s) (h' : Plain s') : Plain (s ++ s') := by
  simp only [Plain, List.mem_append, not_or]
  exact ⟨⟨h.1, h'.1⟩, h.2, h'.2⟩

theorem Plain.sublist {s s' : Str} (h : Plain s) (hsub : s'.Sublist s) : Plain s' :=
  ⟨fun hmem => h.1 (hsub.subset hmem), fun hmem => h.2 (hsub.subset hmem)⟩

theorem plain_natText (n : ℕ) : Plain (natText n) := by
  have hdigits : ∀ c ∈ natText n, c.isDigit = true := by
    have hlist : natText n = Nat.toDigits 10 n := Nat.toList_repr
    rw [hlist]
    exact fun c hc => Nat.isDigit_of_mem_toDigits (by omega) (by omega) hc
  constructor
  · intro hmem
    exact absurd (hdigits _ hmem) (by decide)
  · intro hmem
    exact absurd (hdigits _ hmem) (by decide)

theorem plain_intText (n : ℤ) : Plain (intText n) := by
  cases n with
  | ofNat n => exact plain_natText n
  | negSucc n =>
    have htext : intText (.negSucc n) = '-' :: natText (n + 1) := String.toList_append
    rw [htext]
    exact Plain.append (s := ['-']) (by decide) (plain_natText (n + 1))

theorem plain_floatText (q : ℚ) : Plain (floatText q) := by
  have hsign : Plain (if q < 0 then ['-'] else []) := by
    split
    · decide
    · decide
  exact (hsign.append (plain_natText _)).append
    (Plain.append (s := ['.']) (by decide) (plain_natText _))

theorem plain_placement (p : Placement) : Plain p.text := by
  cases p with
  | place n => exact plain_natText n
  | dq => decide
  | wd => decide

theorem splitOnce_sublist {s part : Str} (h : part ∈ splitOnce s) : part.Sublist s := by
  have hdrop : (s.dropWhile isSpace).Sublist s := List.dropWhile_sublist _
  have hmem := (List.mem_filter.1 h).1
  rcases List.mem_cons.1 hmem with rfl | hmem
  · exact (List.takeWhile_sublist _).trans hdrop
  · rw [List.mem_singleton.1 hmem]
    exact ((List.dropWhile_sublist _).trans (List.dropWhile_sublist _)).trans hdrop

/-- A member whose name, city and number hold neither mark. -/
structure PlainMember (user : Member) : Prop where
  name : user.anonymizedAt = none → Plain user.name.toList
  city : Plain (user.city.getD "").toList
  veknId : Plain (user.veknId.getD "").toList

theorem plain_namePart {user : Member} (h : PlainMember user) (i : ℕ) :
    Plain ((nameParts user)[i]?.getD []) := by
  cases hpart : (nameParts user)[i]? with
  | none => exact ⟨List.not_mem_nil, List.not_mem_nil⟩
  | some part =>
    have hmem : part ∈ splitOnce (if user.anonymizedAt.isSome then [] else user.name.toList) :=
      List.mem_of_getElem? hpart
    refine Plain.sublist ?_ (splitOnce_sublist hmem)
    cases hanon : user.anonymizedAt with
    | none => exact h.name hanon
    | some stamp => exact ⟨List.not_mem_nil, List.not_mem_nil⟩

/-! ### The rows of a placement -/

section Rows

variable {clock : Ratings.Clock} {t : StoredTournament} {users : Uid → Option Member}
variable {sanctions : List StoredSanction}

theorem standingOf_uid (t : StoredTournament) (row : Standing) :
    (standingOf t row).userUid = row.userUid := by
  unfold standingOf
  cases hlast : (t.doc.standings.filter fun s => s.userUid == row.userUid).getLast? with
  | none => rfl
  | some s => simpa using (List.mem_filter.1 (List.mem_of_getLast? hlast)).2

/-- The placement a row is sent with, and the count after it. -/
inductive SendsAs (winner : Uid) (p : PlacedRow) (placed : ℕ) : Placement → ℕ → Prop
  | dq (h : p.row.disqualified = true) : SendsAs winner p placed .dq placed
  | wd (hdq : p.row.disqualified = false) (h : p.noShow = true) :
    SendsAs winner p placed .wd placed
  | ranked (hdq : p.row.disqualified = false) (hshown : p.noShow = false) (h : winner ≠ "") :
    SendsAs winner p placed (.place p.rank) placed
  | counted (hdq : p.row.disqualified = false) (hshown : p.noShow = false) (h : winner = "") :
    SendsAs winner p placed (.place (placed + 1)) (placed + 1)

theorem archonRows_cons (placed : ℕ) (p : PlacedRow) :
    ((users p.row.userUid = none ∨ p.row.nonCompeting = true) ∧
      ∀ rest, archonRows clock t users sanctions placed (p :: rest) =
        archonRows clock t users sanctions placed rest) ∨
    ∃ user placement next, users p.row.userUid = some user ∧ p.row.nonCompeting = false ∧
      SendsAs t.doc.winner p placed placement next ∧
      ∀ rest, archonRows clock t users sanctions placed (p :: rest) =
        archonRow clock t sanctions user p.row placement ::
          archonRows clock t users sanctions next rest := by
  simp only [archonRows, standingOf_uid]
  cases huser : users p.row.userUid with
  | none => exact .inl ⟨.inl rfl, fun _ => rfl⟩
  | some user =>
    cases hproxy : p.row.nonCompeting with
    | true => exact .inl ⟨.inr rfl, fun _ => if_pos rfl⟩
    | false =>
      simp only [Bool.false_eq_true, if_false]
      cases hdq : p.row.disqualified with
      | true => exact .inr ⟨user, _, _, rfl, trivial, .dq hdq, fun _ => if_pos rfl⟩
      | false =>
        simp only [Bool.false_eq_true, if_false]
        cases hshown : p.noShow with
        | true => exact .inr ⟨user, _, _, rfl, trivial, .wd hdq hshown, fun _ => if_pos rfl⟩
        | false =>
          simp only [Bool.false_eq_true, if_false]
          by_cases hwinner : t.doc.winner = ""
          · exact .inr ⟨user, _, _, rfl, trivial, .counted hdq hshown hwinner,
              fun _ => if_neg (not_not.2 hwinner)⟩
          · exact .inr ⟨user, _, _, rfl, trivial, .ranked hdq hshown hwinner, fun _ =>
              if_pos hwinner⟩

theorem archonRows_append (placed : ℕ) (ps qs : List PlacedRow) :
    ∃ next, archonRows clock t users sanctions placed (ps ++ qs) =
      archonRows clock t users sanctions placed ps ++
        archonRows clock t users sanctions next qs := by
  induction ps generalizing placed with
  | nil => exact ⟨placed, rfl⟩
  | cons p ps ih =>
    rw [List.cons_append]
    rcases @archonRows_cons clock t users sanctions placed p with ⟨-, heq⟩ |
      ⟨user, placement, next, -, -, -, heq⟩
    · rw [heq, heq]
      exact ih placed
    · obtain ⟨last, hlast⟩ := ih next
      rw [heq, heq, hlast]
      exact ⟨last, rfl⟩

theorem mem_archonRows {placed : ℕ} {ps : List PlacedRow} {r : ArchonRow}
    (h : r ∈ archonRows clock t users sanctions placed ps) :
    ∃ p ∈ ps, ∃ user placed placement next, users p.row.userUid = some user ∧
      p.row.nonCompeting = false ∧ SendsAs t.doc.winner p placed placement next ∧
      r = archonRow clock t sanctions user p.row placement := by
  induction ps generalizing placed with
  | nil => cases h
  | cons p ps ih =>
    have hlater : ∀ {placed}, r ∈ archonRows clock t users sanctions placed ps →
        ∃ p' ∈ p :: ps, ∃ user placed placement next, users p'.row.userUid = some user ∧
          p'.row.nonCompeting = false ∧ SendsAs t.doc.winner p' placed placement next ∧
          r = archonRow clock t sanctions user p'.row placement := by
      intro placed h
      obtain ⟨p', hp', hrow⟩ := ih h
      exact ⟨p', List.mem_cons_of_mem p hp', hrow⟩
    rcases @archonRows_cons clock t users sanctions placed p with ⟨-, heq⟩ |
      ⟨user, placement, next, huser, hproxy, hsends, heq⟩
    · exact hlater (heq ps ▸ h)
    · rw [heq] at h
      rcases List.mem_cons.1 h with rfl | h
      · exact ⟨p, List.mem_cons_self, user, _, placement, next, huser, hproxy, hsends, rfl⟩
      · exact hlater h

theorem plain_fields {r : ArchonRow} (h : ∀ uid user, users uid = some user → PlainMember user)
    (hr : r ∈ sentRows clock t users sanctions) : ∀ field ∈ r.fields, Plain field := by
  obtain ⟨p, -, user, _, placement, _, huser, -, -, rfl⟩ := mem_archonRows hr
  have hplain := h _ _ huser
  intro field hfield
  simp only [ArchonRow.fields, archonRow, List.mem_cons, List.not_mem_nil, or_false] at hfield
  rcases hfield with rfl | rfl | rfl | rfl | rfl | rfl | rfl | rfl | rfl | rfl | rfl
  · exact plain_placement placement
  · exact plain_namePart hplain 0
  · exact plain_namePart hplain 1
  · exact hplain.city
  · exact hplain.veknId
  · exact plain_intText _
  · exact plain_floatText _
  · exact plain_floatText _
  · exact plain_intText _
  · exact plain_natText _
  · exact plain_intText _

/-! ### The text -/

/-- What follows the mark of the rounds. -/
def bodyOf (out : Str) : Str := (out.dropWhile (· ≠ '¤')).drop 1

theorem text_generateArchondata :
    generateArchondata clock t users sanctions =
      natText (t.doc.rounds.length + if t.doc.finals.isSome then 1 else 0) ++
        '¤' :: ((sentRows clock t users sanctions).flatMap ArchonRow.fields).flatMap
          fun field => field ++ ['§'] := by
  rw [generateArchondata, List.flatMap_assoc]
  rfl

theorem bodyOf_generateArchondata : bodyOf (generateArchondata clock t users sanctions) =
    ((sentRows clock t users sanctions).flatMap ArchonRow.fields).flatMap
      fun field => field ++ ['§'] := by
  have hnumber : ∀ c ∈ natText (t.doc.rounds.length + if t.doc.finals.isSome then 1 else 0),
      decide (c ≠ '¤') = true := by
    intro c hc
    refine decide_eq_true ?_
    rintro rfl
    exact (plain_natText _).2 hc
  rw [text_generateArchondata, bodyOf, List.dropWhile_append_of_pos hnumber,
    List.dropWhile_cons_of_neg (by decide)]
  rfl

theorem splits_generateArchondata (h : ∀ uid user, users uid = some user → PlainMember user) :
    (generateArchondata clock t users sanctions).count '¤' = 1 ∧
    (bodyOf (generateArchondata clock t users sanctions)).splitOn '§' =
      (sentRows clock t users sanctions).flatMap ArchonRow.fields ++ [[]] := by
  have hplain : ∀ field ∈ (sentRows clock t users sanctions).flatMap ArchonRow.fields,
      Plain field := by
    intro field hfield
    obtain ⟨r, hr, hfield⟩ := List.mem_flatMap.1 hfield
    exact plain_fields h hr field hfield
  constructor
  · have hnone : '¤' ∉ ((sentRows clock t users sanctions).flatMap ArchonRow.fields).flatMap
        fun field => field ++ ['§'] := by
      intro hmem
      obtain ⟨field, hfield, hmem⟩ := List.mem_flatMap.1 hmem
      rcases List.mem_append.1 hmem with hmem | hmem
      · exact (hplain field hfield).2 hmem
      · exact absurd hmem (by decide)
    rw [text_generateArchondata, List.count_append, List.count_cons_self,
      List.count_eq_zero.2 (plain_natText _).2, List.count_eq_zero.2 hnone]
  · rw [bodyOf_generateArchondata]
    exact Segments.splitOn_ended fun field hfield => (hplain field hfield).1

/-! ### The order of the placement -/

theorem placeTied_ranks (winner : Uid) {next rank : ℕ} (hle : rank ≤ next)
    (prev : Option (ℤ × ℤ × ℤ)) (rows : List Standing) :
    (∀ p ∈ placeTied winner next rank prev rows, rank ≤ p.rank) ∧
      (placeTied winner next rank prev rows).Pairwise fun p q => p.rank ≤ q.rank := by
  induction rows generalizing next rank prev with
  | nil => exact ⟨fun p h => (by cases h), List.Pairwise.nil⟩
  | cons s rows ih =>
    rw [placeTied]
    set r := if prev = some (tieKey s) then rank else next with hr
    have hrank : rank ≤ r ∧ r ≤ next := by
      rw [hr]
      split
      · exact ⟨Nat.le_refl _, hle⟩
      · exact ⟨hle, Nat.le_refl _⟩
    obtain ⟨hlow, hpair⟩ := ih (hrank.2.trans (Nat.le_succ next)) (some (tieKey s))
    constructor
    · intro p hp
      rcases List.mem_cons.1 hp with rfl | hp
      · exact hrank.1
      · exact hrank.1.trans (hlow p hp)
    · exact List.pairwise_cons.2 ⟨hlow, hpair⟩

/-- The row has none of the flags that keep it from placing. -/
def Shown (p : PlacedRow) : Prop :=
  p.row.nonCompeting = false ∧ p.row.disqualified = false ∧ p.noShow = false

/-- The placement in three parts: the winner, the others that place, the excluded rows. -/
structure Parts (winner : Uid) (sheet : List Standing) (first rest tail : List PlacedRow) :
    Prop where
  shown : ∀ p ∈ first ++ rest, Shown p
  hidden : ∀ p ∈ tail, ¬Shown p
  champion : ∀ p ∈ first, p.row.userUid = winner ∧ p.rank = 1
  present : (∃ s ∈ sheet, rowKind winner s = .champion) → first ≠ []
  single : first.length ≤ 1
  below : (∃ s ∈ sheet, rowKind winner s = .champion ∨ rowKind winner s = .finalist) →
    ∀ p ∈ rest, 2 ≤ p.rank
  ranked : (first ++ rest).Pairwise fun p q => p.rank ≤ q.rank

theorem parts_computeFinalStandings (winner : Uid) (sheet : List Standing) :
    ∃ first rest tail, Parts winner sheet first rest tail ∧
      computeFinalStandings sheet winner = first ++ rest ++ tail := by
  unfold computeFinalStandings
  extract_lets winnerPresent isWinner placed winnerEntry finalists nonFinalists excluded
    finalistCount start excludedStart
  have hisWinner : ∀ s ∈ sheet, isWinner s = decide (winner ≠ "" ∧ s.userUid = winner) :=
    fun _ hs => isWinner_eq hs
  have hplaced : ∀ s, s ∈ placed ↔ s ∈ sheet ∧ isExcluded winner s = false := by
    intro s
    simp [placed]
  have hentry : ∀ s ∈ winnerEntry.toList, s ∈ placed ∧ isWinner s = true := by
    intro s hs
    exact List.mem_filter.1 (List.mem_of_getLast? (Option.mem_toList.1 hs))
  have hshown : ∀ s, isExcluded winner s = false →
      s.nonCompeting = false ∧ s.disqualified = false ∧ isNoShow s winner = false := by
    intro s hs
    simp only [isExcluded, Bool.or_eq_false_iff] at hs
    exact ⟨hs.1.2, hs.1.1, hs.2⟩
  have hchampion : ∀ s ∈ sheet, rowKind winner s = .champion → winnerEntry.toList ≠ [] := by
    intro s hs hkind
    obtain ⟨hexcluded, hne, huid⟩ := champion_iff.1 hkind
    have hmem : s ∈ placed.filter isWinner := by
      refine List.mem_filter.2 ⟨(hplaced s).2 ⟨hs, hexcluded⟩, ?_⟩
      rw [hisWinner s hs]
      exact decide_eq_true ⟨hne, huid⟩
    obtain ⟨last, hlast⟩ : ∃ last, winnerEntry = some last :=
      Option.isSome_iff_exists.1 (List.getLast?_isSome.2 (List.ne_nil_of_mem hmem))
    rw [hlast]
    exact List.cons_ne_nil _ _
  have hstart : start = finalistCount + 1 := by
    simp only [start]
    split_ifs with hcount
    · rfl
    · omega
  obtain ⟨hlow, hpair⟩ := placeTied_ranks winner (Nat.le_refl start) none nonFinalists
  refine ⟨_, _, _, ⟨?_, ?_, ?_, ?_, ?_, ?_, ?_⟩, congrArg (· ++ _) (List.append_assoc _ _ _)⟩
  · intro p hp
    have hrow : p.row ∈ placed ∧ p.noShow = isNoShow p.row winner := by
      rcases List.mem_append.1 hp with hp | hp
      · obtain ⟨s, hs, rfl⟩ := List.mem_map.1 hp
        exact ⟨(hentry s hs).1, rfl⟩
      · rcases List.mem_append.1 hp with hp | hp
        · obtain ⟨s, hs, rfl⟩ := List.mem_map.1 hp
          exact ⟨(List.mem_filter.1 hs).1, rfl⟩
        · obtain ⟨hrow, hnoShow⟩ := mem_placeTied hp
          exact ⟨(List.mem_filter.1 hrow).1, hnoShow⟩
    have hflags := hshown p.row ((hplaced p.row).1 hrow.1).2
    exact ⟨hflags.1, hflags.2.1, hrow.2.trans hflags.2.2⟩
  · intro p hp hflags
    obtain ⟨si, hsi, rfl⟩ := List.mem_map.1 hp
    obtain ⟨-, -, hrow⟩ := List.mem_zipIdx hsi
    have hexcluded : isExcluded winner si.1 = true :=
      (List.mem_filter.1 (hrow ▸ List.getElem_mem _)).2
    have hproxy : si.1.nonCompeting = false := hflags.1
    have hdq : si.1.disqualified = false := hflags.2.1
    have hnoShow : isNoShow si.1 winner = false := hflags.2.2
    rw [isExcluded, hproxy, hdq, hnoShow] at hexcluded
    cases hexcluded
  · intro p hp
    obtain ⟨s, hs, rfl⟩ := List.mem_map.1 hp
    exact ⟨(of_decide_eq_true (hentry s hs).2).2, rfl⟩
  · rintro ⟨s, hs, hkind⟩ hnil
    have hsome := hchampion s hs hkind
    rw [List.map_eq_nil_iff.1 hnil] at hsome
    exact hsome rfl
  · rw [List.length_map]
    cases winnerEntry <;> simp
  · rintro ⟨s, hs, hkind⟩ p hp
    have hcount : 0 < finalistCount := by
      rcases hkind with hkind | hkind
      · have hpos := List.length_pos_of_ne_nil (hchampion s hs hkind)
        omega
      · obtain ⟨hexcluded, hnot, hfinalist⟩ := finalist_iff.1 hkind
        have hmem : s ∈ finalists := by
          refine List.mem_filter.2 ⟨(hplaced s).2 ⟨hs, hexcluded⟩, ?_⟩
          rw [hisWinner s hs, hfinalist, decide_eq_false hnot]
          rfl
        have hpos := List.length_pos_of_mem hmem
        omega
    rcases List.mem_append.1 hp with hp | hp
    · obtain ⟨s, -, rfl⟩ := List.mem_map.1 hp
      exact Nat.le_refl 2
    · have := hlow p hp
      omega
  · have hfirst : ∀ p ∈ winnerEntry.toList.map (fun s => (⟨s, isNoShow s winner, 1,
        if finalPlayed sheet = true then 1 else 0⟩ : PlacedRow)), p.rank = 1 := by
      intro p hp
      obtain ⟨s, -, rfl⟩ := List.mem_map.1 hp
      rfl
    have hsecond : ∀ p ∈ finalists.map (fun s => (⟨s, isNoShow s winner, 2, 2⟩ : PlacedRow)),
        p.rank = 2 ∧ 2 ≤ start := by
      intro p hp
      obtain ⟨s, hs, rfl⟩ := List.mem_map.1 hp
      have hpos := List.length_pos_of_mem hs
      exact ⟨rfl, by omega⟩
    rw [List.pairwise_append, List.pairwise_append]
    refine ⟨List.pairwise_of_forall_mem_list fun p hp q hq => ?_,
      ⟨List.pairwise_of_forall_mem_list fun p hp q hq => ?_, hpair, fun p hp q hq => ?_⟩,
      fun p hp q hq => ?_⟩
    · rw [hfirst p hp, hfirst q hq]
    · rw [(hsecond p hp).1, (hsecond q hq).1]
    · rw [(hsecond p hp).1]
      exact (hsecond p hp).2.trans (hlow q hq)
    · rw [hfirst p hp]
      rcases List.mem_append.1 hq with hq | hq
      · rw [(hsecond q hq).1]
        exact Nat.le_succ 1
      · have := hlow q hq
        omega

/-! ### The order of the rows sent -/

theorem number_of_shown {placed : ℕ} {ps : List PlacedRow} (h : ∀ p ∈ ps, Shown p) :
    ∀ r ∈ archonRows clock t users sanctions placed ps, ∃ n, r.placement = .place n := by
  intro r hr
  obtain ⟨p, hp, user, _, placement, _, -, -, hsends, rfl⟩ := mem_archonRows hr
  obtain ⟨-, hdq, hshown⟩ := h p hp
  cases hsends with
  | dq hflag =>
    rw [hdq] at hflag
    cases hflag
  | wd _ hflag =>
    rw [hshown] at hflag
    cases hflag
  | ranked => exact ⟨_, rfl⟩
  | counted => exact ⟨_, rfl⟩

theorem flag_of_hidden {placed : ℕ} {ps : List PlacedRow} (h : ∀ p ∈ ps, ¬Shown p) :
    ∀ r ∈ archonRows clock t users sanctions placed ps,
      r.placement = .dq ∨ r.placement = .wd := by
  intro r hr
  obtain ⟨p, hp, user, _, placement, _, -, hproxy, hsends, rfl⟩ := mem_archonRows hr
  cases hsends with
  | dq => exact .inl rfl
  | wd => exact .inr rfl
  | ranked hdq hshown _ => exact absurd ⟨hproxy, hdq, hshown⟩ (h p hp)
  | counted hdq hshown _ => exact absurd ⟨hproxy, hdq, hshown⟩ (h p hp)

/-- The numbers sent. -/
def numbers (rows : List ArchonRow) : List ℕ := rows.filterMap fun r => r.placement.number

theorem numbers_append (rows rows' : List ArchonRow) :
    numbers (rows ++ rows') = numbers rows ++ numbers rows' := List.filterMap_append

theorem numbers_sublist (hwinner : t.doc.winner ≠ "") (placed : ℕ) (ps : List PlacedRow) :
    (numbers (archonRows clock t users sanctions placed ps)).Sublist (ps.map PlacedRow.rank) := by
  induction ps generalizing placed with
  | nil => exact List.Sublist.refl _
  | cons p ps ih =>
    rw [List.map_cons]
    rcases @archonRows_cons clock t users sanctions placed p with ⟨-, heq⟩ |
      ⟨user, placement, next, -, -, hsends, heq⟩
    · rw [heq]
      exact (ih placed).cons _
    · rw [heq]
      cases hsends with
      | dq => exact (ih placed).cons _
      | wd => exact (ih placed).cons _
      | ranked => exact (ih placed).cons_cons _
      | counted _ _ hnone => exact absurd hnone hwinner

theorem numbers_counted (hwinner : t.doc.winner = "") (placed : ℕ) (ps : List PlacedRow) :
    (∀ n ∈ numbers (archonRows clock t users sanctions placed ps), placed < n) ∧
      (numbers (archonRows clock t users sanctions placed ps)).Pairwise (· < ·) := by
  induction ps generalizing placed with
  | nil => exact ⟨fun n h => (by cases h), List.Pairwise.nil⟩
  | cons p ps ih =>
    rcases @archonRows_cons clock t users sanctions placed p with ⟨-, heq⟩ |
      ⟨user, placement, next, -, -, hsends, heq⟩
    · rw [heq]
      exact ih placed
    · rw [heq]
      cases hsends with
      | dq => exact ih placed
      | wd => exact ih placed
      | ranked _ _ hsome => exact absurd hwinner hsome
      | counted =>
        obtain ⟨hlow, hpair⟩ := ih (placed + 1)
        constructor
        · intro n hn
          rcases List.mem_cons.1 hn with rfl | hn
          · exact Nat.lt_succ_self placed
          · exact (Nat.lt_succ_self placed).trans (hlow n hn)
        · exact List.pairwise_cons.2 ⟨hlow, hpair⟩

/-- How the rows sent are ordered. -/
structure SentInOrder (t : StoredTournament) (users : Uid → Option Member)
    (rows : List ArchonRow) : Prop where
  first : (∃ s ∈ t.doc.standings, rowKind t.doc.winner s = .champion) →
    (users t.doc.winner).isSome = true →
      ∃ r, rows.head? = some r ∧ r.userUid = t.doc.winner ∧ r.placement = .place 1
  once : (t.doc.winner = "" ∨ ∃ s ∈ t.doc.standings,
      rowKind t.doc.winner s = .champion ∨ rowKind t.doc.winner s = .finalist) →
    (numbers rows).count 1 ≤ 1
  rising : (numbers rows).Pairwise (· ≤ ·)
  flagsLast : ∃ placed flagged, rows = placed ++ flagged ∧
    (∀ r ∈ placed, ∃ n, r.placement = .place n) ∧
      ∀ r ∈ flagged, r.placement = .dq ∨ r.placement = .wd

theorem numbers_of_flags {rows : List ArchonRow}
    (h : ∀ r ∈ rows, r.placement = .dq ∨ r.placement = .wd) : numbers rows = [] := by
  refine List.filterMap_eq_nil_iff.2 fun r hr => ?_
  rcases h r hr with hflag | hflag
  · rw [hflag]
    rfl
  · rw [hflag]
    rfl

theorem sentInOrder_sentRows : SentInOrder t users (sentRows clock t users sanctions) := by
  obtain ⟨first, rest, tail, hparts, hplacement⟩ :=
    parts_computeFinalStandings t.doc.winner t.doc.standings
  obtain ⟨next, htail⟩ :=
    @archonRows_append clock t users sanctions 0 (first ++ rest) tail
  have hrows : sentRows clock t users sanctions =
      archonRows clock t users sanctions 0 (first ++ rest) ++
        archonRows clock t users sanctions next tail := by
    rw [sentRows, hplacement, htail]
  have hflags := @flag_of_hidden clock t users sanctions next tail hparts.hidden
  have hnumbers : numbers (sentRows clock t users sanctions) =
      numbers (archonRows clock t users sanctions 0 (first ++ rest)) := by
    rw [hrows, numbers_append, numbers_of_flags hflags, List.append_nil]
  constructor
  · intro hchampion huser
    obtain ⟨p, first', rfl⟩ := List.exists_cons_of_ne_nil (hparts.present hchampion)
    obtain ⟨huid, hrank⟩ := hparts.champion p List.mem_cons_self
    obtain ⟨hproxy, hdq, hshown⟩ := hparts.shown p (List.mem_append_left _ List.mem_cons_self)
    have hwinner : t.doc.winner ≠ "" := by
      obtain ⟨s, -, hkind⟩ := hchampion
      exact (champion_iff.1 hkind).2.1
    rw [hrows, List.cons_append]
    rcases @archonRows_cons clock t users sanctions 0 p with ⟨hout, -⟩ |
      ⟨user, placement, next', -, -, hsends, heq⟩
    · rcases hout with hnone | hproxy'
      · rw [huid] at hnone
        rw [hnone] at huser
        cases huser
      · rw [hproxy] at hproxy'
        cases hproxy'
    · refine ⟨archonRow clock t sanctions user p.row placement, by rw [heq]; rfl, ?_, ?_⟩
      · exact (standingOf_uid t p.row).trans huid
      · cases hsends with
        | dq hflag =>
          rw [hdq] at hflag
          cases hflag
        | wd _ hflag =>
          rw [hshown] at hflag
          cases hflag
        | ranked => exact congrArg Placement.place hrank
        | counted _ _ hnone => exact absurd hnone hwinner
  · intro hcondition
    rw [hnumbers]
    by_cases hwinner : t.doc.winner = ""
    · have hnodup : (numbers (archonRows clock t users sanctions 0 (first ++ rest))).Nodup :=
        (numbers_counted hwinner 0 (first ++ rest)).2.imp fun h => h.ne
      exact List.nodup_iff_count_le_one.1 hnodup 1
    · have hbelow := hparts.below (hcondition.resolve_left hwinner)
      refine ((numbers_sublist hwinner 0 (first ++ rest)).count_le 1).trans ?_
      have hrest : (rest.map PlacedRow.rank).count 1 = 0 := by
        refine List.count_eq_zero.2 fun hmem => ?_
        obtain ⟨p, hp, hrank⟩ := List.mem_map.1 hmem
        have := hbelow p hp
        omega
      rw [List.map_append, List.count_append, hrest, Nat.add_zero]
      exact List.count_le_length.trans ((List.length_map _).trans_le hparts.single)
  · rw [hnumbers]
    by_cases hwinner : t.doc.winner = ""
    · exact (numbers_counted hwinner 0 (first ++ rest)).2.imp fun h => h.le
    · have hranked : ((first ++ rest).map PlacedRow.rank).Pairwise (· ≤ ·) :=
        List.pairwise_map.2 hparts.ranked
      exact hranked.sublist (numbers_sublist hwinner 0 (first ++ rest))
  · exact ⟨_, _, hrows, number_of_shown hparts.shown, hflags⟩

/-- Where no member's name, city or number holds one of the marks, the file has one mark of the
rounds and is cut into eleven fields for every row sent; and always the rows follow the
placement. -/
theorem archondata_wellFormed (clock : Ratings.Clock) (t : StoredTournament)
    (users : Uid → Option Member) (sanctions : List StoredSanction) :
    ((∀ uid user, users uid = some user → PlainMember user) →
      (generateArchondata clock t users sanctions).count '¤' = 1 ∧
      (bodyOf (generateArchondata clock t users sanctions)).splitOn '§' =
        (sentRows clock t users sanctions).flatMap ArchonRow.fields ++ [[]] ∧
      ∀ r ∈ sentRows clock t users sanctions, r.fields.length = 11) ∧
    SentInOrder t users (sentRows clock t users sanctions) := by
  refine ⟨fun h => ?_, sentInOrder_sentRows⟩
  obtain ⟨hmark, hbody⟩ := @splits_generateArchondata clock t users sanctions h
  exact ⟨hmark, hbody, fun r _ => rfl⟩

end Rows

/-! ### Files that are not -/

/-- Both finalists are disqualified, the winner among them, and two players are level. -/
def disqualifiedFinal : StoredTournament :=
  { event with
    doc := { event.doc with
      state := .finished
      winner := "w"
      standings := [plainRow "a" 1 4 60 false false, plainRow "b" 1 4 60 false false,
        plainRow "f" 0 0 0 true true, plainRow "w" 0 0 0 true true] } }

/-- Members named by their uids. -/
def namedMember (uid : Uid) (name : String) : Member :=
  { member uid [] with
    name, nickname := none, city := none, cityGeonameId := none, contactPhone := none,
    phoneIsWhatsapp := false, discordId := none, communityLinks := [], localModifications := [] }

/-- The disqualified winner is last, two rows have the first place, and a mark in a name makes a
twelfth field. -/
theorem disqualifiedFinal_file :
    (sentRows passInMay disqualifiedFinal (fun uid => some (namedMember uid uid)) []).map
        (fun r => (r.userUid, r.placement)) =
      [("a", .place 1), ("b", .place 1), ("f", .dq), ("w", .dq)] ∧
    ((bodyOf (generateArchondata passInMay disqualifiedFinal
        (fun uid => if uid = "a" then some (namedMember uid "A§a") else none) [])).splitOn
          '§').length = 1 * 11 + 2 := by
  decide +kernel

end Archon.Backend

import Mathlib.Data.List.DropRight

/-!
# Texts cut into pieces

Texts split at a separator, and texts cut into lines.
-/

/-!
## Texts split at a separator

The parts of a text between separators, those that are not empty, and a text stripped of the
separators around it.
-/

namespace Segments

variable {α : Type*} [DecidableEq α] {a : α} {xs ys : List α}

/-- The parts that are not empty. -/
def parts (a : α) (xs : List α) : List (List α) := (xs.splitOn a).filter (· ≠ [])

/-- The text without the separators at its ends. -/
def strip (a : α) (xs : List α) : List α := (xs.dropWhile (· = a)).rdropWhile (· = a)

theorem parts_append_cons : parts a (xs ++ a :: ys) = parts a xs ++ parts a ys := by
  rw [parts, List.splitOn_append_cons_self, List.filter_append]
  rfl

theorem parts_nil : parts a [] = [] := rfl

theorem parts_cons_self : parts a (a :: xs) = parts a xs := @parts_append_cons _ _ _ [] _

theorem parts_concat_self : parts a (xs ++ [a]) = parts a xs := by
  rw [parts_append_cons, parts_nil, List.append_nil]

theorem parts_dropWhile : parts a (xs.dropWhile (· = a)) = parts a xs := by
  induction xs with
  | nil => rfl
  | cons x xs ih =>
    by_cases hx : x = a
    · rw [List.dropWhile_cons_of_pos (by simpa using hx), ih, hx, parts_cons_self]
    · rw [List.dropWhile_cons_of_neg (by simpa using hx)]

theorem parts_rdropWhile : parts a (xs.rdropWhile (· = a)) = parts a xs := by
  induction xs using List.reverseRecOn with
  | nil => rfl
  | append_singleton xs x ih =>
    by_cases hx : x = a
    · rw [List.rdropWhile_concat_pos _ _ _ (by simpa using hx), ih, hx, parts_concat_self]
    · rw [List.rdropWhile_concat_neg _ _ _ (by simpa using hx)]

theorem parts_strip : parts a (strip a xs) = parts a xs := by
  rw [strip, parts_rdropWhile, parts_dropWhile]

theorem last_splitOn (hend : xs.getLast? ≠ some a) (hlast : (xs.splitOn a).getLast? = some []) :
    xs = [] := by
  induction xs with
  | nil => rfl
  | cons x xs ih =>
    exfalso
    have hne : xs.splitOn a ≠ [] := List.splitOn_ne_nil a xs
    obtain ⟨part, rest, hsplit⟩ := List.exists_cons_of_ne_nil hne
    have hend' : xs ≠ [] → xs.getLast? ≠ some a := by
      intro hxs hget
      obtain ⟨y, ys, rfl⟩ := List.exists_cons_of_ne_nil hxs
      exact hend (by rwa [List.getLast?_cons_cons])
    rw [List.splitOn_cons_eq_if_modifyHead, hsplit] at hlast
    split at hlast
    · next hx =>
      rw [List.getLast?_cons_cons, ← hsplit] at hlast
      cases xs with
      | nil => exact hend (by simpa using hx)
      | cons y ys => exact List.cons_ne_nil y ys (ih (hend' (List.cons_ne_nil y ys)) hlast)
    · rw [List.modifyHead_cons] at hlast
      cases rest with
      | nil => simp at hlast
      | cons part' rest =>
        rw [List.getLast?_cons_cons] at hlast
        cases xs with
        | nil => simp [List.splitOn_nil] at hsplit
        | cons y ys =>
          refine List.cons_ne_nil y ys (ih (hend' (List.cons_ne_nil y ys)) ?_)
          rw [hsplit, List.getLast?_cons_cons, hlast]

theorem strip_getLast? : (strip a xs).getLast? ≠ some a := by
  intro hlast
  have hne : strip a xs ≠ [] := by
    intro hnil
    rw [hnil] at hlast
    cases hlast
  have hget : (strip a xs).getLast hne = a := by
    rw [List.getLast?_eq_some_getLast hne] at hlast
    exact Option.some.inj hlast
  have hnot := List.rdropWhile_last_not (fun x => decide (x = a)) (xs.dropWhile (· = a)) hne
  exact hnot (decide_eq_true hget)

theorem last_strip {l : List (List α)} (h : (strip a xs).splitOn a = l ++ [[]]) : l = [] := by
  have hnil : strip a xs = [] := last_splitOn strip_getLast? (by rw [h, List.getLast?_concat])
  rw [hnil, List.splitOn_nil] at h
  exact (List.append_left_eq_self.1 h.symm)

theorem splitOn_ended {ps : List (List α)} (h : ∀ p ∈ ps, a ∉ p) :
    (ps.flatMap fun p => p ++ [a]).splitOn a = ps ++ [[]] := by
  induction ps with
  | nil => rfl
  | cons p ps ih =>
    have hone : p.splitOn a = [p] := by
      have hall : ∀ x ∈ p, (x == a) = false := fun x hx =>
        beq_eq_false_iff_ne.2 fun he => h p List.mem_cons_self (he ▸ hx)
      exact List.splitOnP_eq_singleton hall
    rw [List.flatMap_cons, List.append_assoc, List.singleton_append, List.splitOn_append_cons_self,
      hone, ih fun q hq => h q (List.mem_cons_of_mem p hq)]
    rfl

end Segments

/-!
## Lines of a text

A text is a list of characters. `lines` cuts it at its newlines as Rust's `str::lines` does,
`unlines` puts one newline between two lines; on lines that `lines` could have cut the two are
inverse. `trim` and `trimEnd` take off blanks, for any notion of a blank.
-/

namespace Archon.Lines

section Trim

variable {α : Type} {blank : α → Bool} {s : List α}

/-- Without the blanks at the end. -/
def trimEnd (blank : α → Bool) (s : List α) : List α := s.rdropWhile blank

/-- Without the blanks at either end. -/
def trim (blank : α → Bool) (s : List α) : List α := (s.dropWhile blank).rdropWhile blank

theorem rdropWhile_append {w : List α} (hw : ∀ x ∈ w, blank x = true) (s : List α) :
    (s ++ w).rdropWhile blank = s.rdropWhile blank := by
  induction w using List.reverseRecOn with
  | nil => rw [List.append_nil]
  | append_singleton w x ih =>
    rw [← List.append_assoc, List.rdropWhile_concat_pos _ _ _ (hw x (by simp)),
      ih fun y hy => hw y (by simp [hy])]

theorem trimEnd_append (blank : α → Bool) (s : List α) :
    ∃ w, s = trimEnd blank s ++ w ∧ ∀ x ∈ w, blank x = true :=
  ⟨s.rtakeWhile blank, List.rdropWhile_append_rtakeWhile.symm, fun _ => List.mem_rtakeWhile_imp⟩

theorem trim_trimEnd : trim blank (trimEnd blank s) = trim blank s := by
  obtain ⟨w, hs, hw⟩ := trimEnd_append blank s
  conv_rhs => rw [hs]
  unfold trim
  generalize trimEnd blank s = t
  induction t with
  | nil =>
    rw [List.nil_append, List.dropWhile_eq_nil_iff.2 hw]
    rfl
  | cons x t ih =>
    rw [List.cons_append, List.dropWhile_cons, List.dropWhile_cons]
    by_cases hx : blank x = true
    · rw [if_pos hx, if_pos hx, ih]
    · rw [if_neg hx, if_neg hx, ← List.cons_append, rdropWhile_append hw]

theorem trim_eq_nil : trim blank s = [] ↔ ∀ x ∈ s, blank x = true := by
  rw [trim, List.rdropWhile_eq_nil_iff]
  constructor
  · intro h x hx
    by_contra hblank
    have hmem : x ∈ s.dropWhile blank := by
      rw [← List.takeWhile_append_dropWhile (p := blank) (l := s), List.mem_append] at hx
      exact hx.resolve_left fun hx => hblank (List.mem_takeWhile_imp hx)
    exact hblank (h x hmem)
  · exact fun h x hx => h x ((List.dropWhile_suffix _).subset hx)

theorem trimEnd_eq_nil : trimEnd blank s = [] ↔ trim blank s = [] := by
  rw [trim_eq_nil, trimEnd, List.rdropWhile_eq_nil_iff]

theorem trimEnd_trimEnd : trimEnd blank (trimEnd blank s) = trimEnd blank s :=
  List.rdropWhile_idempotent _ _

theorem trimEnd_trim : trimEnd blank (trim blank s) = trim blank s :=
  List.rdropWhile_idempotent _ _

theorem trim_trim : trim blank (trim blank s) = trim blank s := by
  have hstarts : (trim blank s).dropWhile blank = trim blank s := by
    have hhead := List.head?_dropWhile_not blank s
    obtain ⟨w, hw⟩ := List.rdropWhile_prefix (p := blank) (l := s.dropWhile blank)
    rw [← hw] at hhead
    unfold trim
    cases hs : (s.dropWhile blank).rdropWhile blank with
    | nil => rfl
    | cons x t =>
      rw [hs] at hhead
      exact List.dropWhile_cons_of_neg (by simpa using hhead)
  rw [trim, hstarts]
  exact trimEnd_trim

end Trim

/-! ### Lines -/

/-- The carriage return before a newline belongs to the line end. -/
def stripReturn (line : List Char) : List Char :=
  if line.getLast? = some '\r' then line.dropLast else line

/-- `str::lines`: the last line counts unless it is empty. -/
def lines (s : List Char) : List (List Char) :=
  (s.splitOn '\n').dropLast.map stripReturn ++
    (s.splitOn '\n').getLast?.toList.filter fun line => !line.isEmpty

/-- `join("\n")`. -/
def unlines (ls : List (List Char)) : List Char := ['\n'].intercalate ls

/-- Lines that can be cut from a text: no newline in them, nor a carriage return before one, and
the last one not empty. -/
structure Cut (ls : List (List Char)) : Prop where
  newline : ∀ line ∈ ls, '\n' ∉ line
  noReturn : ∀ line ∈ ls, line.getLast? ≠ some '\r'
  last : ls.getLast? ≠ some []

theorem lines_unlines {ls : List (List Char)} (h : Cut ls) : lines (unlines ls) = ls := by
  rcases ls.eq_nil_or_concat' with rfl | ⟨init, last, rfl⟩
  · rfl
  · have hlast : last ≠ [] := fun heq => h.last (by simp [heq])
    have hinit : init.map stripReturn = init := by
      refine (List.map_congr_left fun line hline => ?_).trans (List.map_id init)
      exact if_neg (h.noReturn line (by simp [hline]))
    rw [lines, unlines, List.splitOn_intercalate _ h.newline (by simp), List.dropLast_concat, hinit,
      List.getLast?_concat]
    simp [hlast]

theorem of_mem_splitOnP {α : Type} {p : α → Bool} {s w : List α} (h : w ∈ s.splitOnP p) :
    (∀ x ∈ w, p x = false) ∧ w ⊆ s := by
  induction s generalizing w with
  | nil =>
    rw [List.splitOnP_nil, List.mem_singleton] at h
    subst h
    simp
  | cons c s ih =>
    rw [List.splitOnP_cons_eq_if_modifyHead] at h
    split_ifs at h with hc
    · rcases List.mem_cons.1 h with rfl | h
      · simp
      · exact ⟨(ih h).1, fun x hx => List.mem_cons_of_mem _ ((ih h).2 hx)⟩
    · cases hsplit : s.splitOnP p with
      | nil => exact absurd hsplit (List.splitOnP_ne_nil p s)
      | cons head rest =>
        rw [hsplit, List.modifyHead_cons, List.mem_cons] at h
        rcases h with rfl | h
        · obtain ⟨hhead, hsub⟩ := ih (hsplit ▸ List.mem_cons_self)
          refine ⟨fun x hx => ?_, List.cons_subset_cons _ hsub⟩
          rcases List.mem_cons.1 hx with rfl | hx
          · simpa using hc
          · exact hhead x hx
        · obtain ⟨hrest, hsub⟩ := ih (hsplit ▸ List.mem_cons_of_mem _ h)
          exact ⟨hrest, fun x hx => List.mem_cons_of_mem _ (hsub hx)⟩

theorem not_mem_splitOn {s line : List Char} (h : line ∈ s.splitOn '\n') : '\n' ∉ line :=
  fun hmem => absurd ((of_mem_splitOnP h).1 _ hmem) (by simp)

theorem not_mem_lines {s line : List Char} (h : line ∈ lines s) : '\n' ∉ line := by
  rcases List.mem_append.1 h with h | h
  · obtain ⟨raw, hraw, rfl⟩ := List.mem_map.1 h
    have hnot := not_mem_splitOn (List.dropLast_subset _ hraw)
    unfold stripReturn
    split_ifs
    · exact fun hmem => hnot (List.dropLast_subset _ hmem)
    · exact hnot
  · have hlast : (s.splitOn '\n').getLast? = some line := by simpa using (List.mem_filter.1 h).1
    exact not_mem_splitOn (List.mem_of_getLast? hlast)

end Archon.Lines

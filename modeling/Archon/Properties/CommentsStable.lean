import Archon.Engine.DeckComments

/-!
# Stripping deck comments twice

A second pass over stripped comments finds nothing to strip, with one exception: the value of a
description field goes on top unchecked. There it may itself be noise, or open a header block with
the lines after it. The condition is exact.
-/

namespace Archon.Engine
open Lines

/-! ### Kinds of lines -/

/-- What a line is to the header block. -/
inductive LineKind where
  | skipped | counted
  | description (value : Str)
  | text

/-- The kind of a trimmed line. -/
def trimmedKind (u : Unicode) (line : Str) : LineKind :=
  if line.isEmpty || isRevisionStamp line || isScoreLine line || isRule line then .skipped
  else
    match headerField u line with
    | some (key, value) =>
      if "descr".toList.isPrefixOf (u.toLowercase key) then .description value
      else if (splitWhitespace value).length ≤ 6 then .counted
      else .text
    | none => if isCountedSection u line then .counted else .text

def lineKind (u : Unicode) (raw : Str) : LineKind := trimmedKind u (strTrim raw)

/-- The header lines a text opens with, up to a description. -/
def headerLines (u : Unicode) : List Str → ℕ
  | [] => 0
  | raw :: rest =>
    match lineKind u raw with
    | .skipped => headerLines u rest
    | .counted => headerLines u rest + 1
    | .description _ => 1
    | .text => 0

/-- The description that ends the header lines, and the lines after it. -/
def described (u : Unicode) : List Str → Option (Str × List Str)
  | [] => none
  | raw :: rest =>
    match lineKind u raw with
    | .skipped | .counted => described u rest
    | .description value => some (value, rest)
    | .text => none

/-- The lines after the last header line. -/
def afterBlock (u : Unicode) : List Str → List Str
  | [] => []
  | raw :: rest =>
    match lineKind u raw with
    | .skipped => if headerLines u rest = 0 then raw :: rest else afterBlock u rest
    | .counted => afterBlock u rest
    | .description _ => rest
    | .text => raw :: rest

section Block

variable {u : Unicode} {ls rest : List Str} {value : Str}

theorem afterBlock_of_none (h : headerLines u ls = 0) : afterBlock u ls = ls := by
  cases ls with
  | nil => rfl
  | cons raw rest =>
    cases hkind : lineKind u raw <;> simp_all [headerLines, afterBlock]

theorem headerLines_pos (h : described u ls = some (value, rest)) : 0 < headerLines u ls := by
  induction ls with
  | nil => simp [described] at h
  | cons raw ls ih =>
    cases hkind : lineKind u raw <;> simp_all [headerLines, described]

theorem afterBlock_of_described (h : described u ls = some (value, rest)) :
    afterBlock u ls = rest := by
  induction ls with
  | nil => simp [described] at h
  | cons raw ls ih =>
    cases hkind : lineKind u raw with
    | skipped =>
      rw [described, hkind] at h
      have hpos := headerLines_pos h
      simp [afterBlock, hkind, hpos.ne', ih h]
    | counted =>
      rw [described, hkind] at h
      simp [afterBlock, hkind, ih h]
    | description v => simp_all [described, afterBlock]
    | text => simp [described, hkind] at h

theorem headerLines_afterBlock (h : described u ls = none) :
    headerLines u (afterBlock u ls) = 0 := by
  induction ls with
  | nil => rfl
  | cons raw ls ih =>
    cases hkind : lineKind u raw with
    | skipped =>
      rw [described, hkind] at h
      by_cases hnone : headerLines u ls = 0
      · simp [afterBlock, hkind, hnone, headerLines]
      · simp [afterBlock, hkind, hnone, ih h]
    | counted =>
      rw [described, hkind] at h
      simp [afterBlock, hkind, ih h]
    | description v => simp [described, hkind] at h
    | text => simp [afterBlock, hkind, headerLines]

theorem scan_skipped {raw : Str} (h : lineKind u raw = .skipped) (i : ℕ) (block : HeaderBlock) :
    scanBlock u (raw :: rest) i block = scanBlock u rest (i + 1) block := by
  unfold lineKind trimmedKind at h
  rw [scanBlock]
  split at h
  · rename_i hskip
    exact if_pos hskip
  · split at h
    · split_ifs at h
    · split_ifs at h

theorem scan_counted {raw : Str} (h : lineKind u raw = .counted) (rest : List Str) (i : ℕ)
    (block : HeaderBlock) :
    ∃ block', scanBlock u (raw :: rest) i block = scanBlock u rest (i + 1) block' ∧
      block'.fields + block'.sections = block.fields + block.sections + 1 ∧
      block'.description = block.description ∧ block'.blockEnd = i + 1 := by
  unfold lineKind trimmedKind at h
  rw [scanBlock]
  split at h
  · cases h
  · rename_i hskip
    rw [if_neg hskip]
    cases hfield : headerField u (strTrim raw) with
    | none =>
      rw [hfield] at h
      dsimp only at h ⊢
      split_ifs at h with hsection
      rw [if_pos hsection]
      exact ⟨_, rfl, rfl, rfl, rfl⟩
    | some field =>
      rw [hfield] at h
      dsimp only at h ⊢
      split_ifs at h with hdescr hshort
      rw [if_neg hdescr, if_pos hshort]
      exact ⟨_, rfl, Nat.add_right_comm _ _ _, rfl, rfl⟩

theorem scan_description {raw : Str} (h : lineKind u raw = .description value) (i : ℕ)
    (block : HeaderBlock) :
    scanBlock u (raw :: rest) i block =
      { block with fields := block.fields + 1, blockEnd := i + 1, description := value } := by
  unfold lineKind trimmedKind at h
  rw [scanBlock]
  split at h
  · cases h
  · rename_i hskip
    rw [if_neg hskip]
    cases hfield : headerField u (strTrim raw) with
    | none =>
      rw [hfield] at h
      dsimp only at h
      split_ifs at h
    | some field =>
      rw [hfield] at h
      dsimp only at h ⊢
      split_ifs at h with hdescr hshort
      cases h
      rw [if_pos hdescr]

theorem scan_text {raw : Str} (h : lineKind u raw = .text) (i : ℕ) (block : HeaderBlock) :
    scanBlock u (raw :: rest) i block = block := by
  unfold lineKind trimmedKind at h
  rw [scanBlock]
  split at h
  · cases h
  · rename_i hskip
    rw [if_neg hskip]
    cases hfield : headerField u (strTrim raw) with
    | none =>
      rw [hfield] at h
      dsimp only at h ⊢
      split_ifs at h with hsection
      rw [if_neg hsection]
    | some field =>
      rw [hfield] at h
      dsimp only at h ⊢
      split_ifs at h with hdescr hshort
      rw [if_neg hdescr, if_neg hshort]

theorem scanBlock_spec (u : Unicode) (ls : List Str) (i : ℕ) (block : HeaderBlock) :
    (scanBlock u ls i block).fields + (scanBlock u ls i block).sections =
        block.fields + block.sections + headerLines u ls ∧
      (scanBlock u ls i block).description =
        (described u ls).elim block.description Prod.fst ∧
      (headerLines u ls = 0 → (scanBlock u ls i block).blockEnd = block.blockEnd) ∧
      (headerLines u ls ≠ 0 → ∃ n, (scanBlock u ls i block).blockEnd = i + n ∧
        ls.drop n = afterBlock u ls) := by
  induction ls generalizing i block with
  | nil => simp [scanBlock, headerLines, described]
  | cons raw ls ih =>
    cases hkind : lineKind u raw with
    | skipped =>
      rw [scan_skipped hkind]
      obtain ⟨hcount, hdescription, hnone, hend⟩ := ih (i + 1) block
      simp only [headerLines, described, afterBlock, hkind]
      refine ⟨hcount, hdescription, hnone, fun hsome => ?_⟩
      obtain ⟨n, hn, hdrop⟩ := hend hsome
      exact ⟨n + 1, by omega, by rw [if_neg hsome, List.drop_succ_cons, hdrop]⟩
    | counted =>
      obtain ⟨block', hscan, hfields, hsame, hends⟩ := scan_counted hkind ls i block
      obtain ⟨hcount, hdescription, hnone, hend⟩ := ih (i + 1) block'
      rw [hscan]
      simp only [headerLines, described, afterBlock, hkind]
      refine ⟨by omega, hsame ▸ hdescription, fun h => absurd h (Nat.succ_ne_zero _), fun _ => ?_⟩
      by_cases hzero : headerLines u ls = 0
      · refine ⟨1, by rw [hnone hzero, hends], ?_⟩
        rw [afterBlock_of_none hzero]
        rfl
      · obtain ⟨n, hn, hdrop⟩ := hend hzero
        exact ⟨n + 1, by omega, hdrop⟩
    | description v =>
      rw [scan_description hkind]
      simp only [headerLines, described, afterBlock, hkind]
      exact ⟨by omega, rfl, fun h => absurd h (Nat.succ_ne_zero _), fun _ => ⟨1, rfl, rfl⟩⟩
    | text =>
      rw [scan_text hkind]
      simp [headerLines, described, hkind]

end Block

/-! ### Stamps and headed texts -/

theorem isWhiteSpace_of_digit {c : Char} (h : isAsciiDigit c = true) : isWhiteSpace c = false := by
  have hrange := of_decide_eq_true h
  have hlow : 48 ≤ c.toNat := hrange.1
  have hhigh : c.toNat ≤ 57 := hrange.2
  simp only [isWhiteSpace, Bool.or_eq_false_iff, Bool.and_eq_false_iff, decide_eq_false_iff_not,
    beq_eq_false_iff_ne]
  omega

theorem splitWhitespace_of_noBlank {s : Str} (hs : s ≠ [])
    (h : ∀ c ∈ s, isWhiteSpace c = false) :
    splitWhitespace s = [s] := by
  rw [splitWhitespace, List.splitOnP_eq_singleton h]
  simp [hs]

theorem noBlank_date {date : Str} (hlength : date.length = 10) (hfour : date[4]? = some '-')
    (hseven : date[7]? = some '-')
    (hdigits : ([0, 1, 2, 3, 5, 6, 8, 9].all fun i => (date[i]?).any isAsciiDigit) = true) :
    ∀ c ∈ date, isWhiteSpace c = false := by
  intro c hc
  obtain ⟨i, hi, rfl⟩ := List.mem_iff_getElem.1 hc
  have hcases : i ∈ [0, 1, 2, 3, 5, 6, 8, 9] ∨ i = 4 ∨ i = 7 := by
    simp only [List.mem_cons, List.not_mem_nil, or_false]
    omega
  rcases hcases with hmem | rfl | rfl
  · have hdigit := List.all_eq_true.1 hdigits i hmem
    rw [List.getElem?_eq_getElem hi, Option.any_some] at hdigit
    exact isWhiteSpace_of_digit hdigit
  · rw [List.getElem?_eq_getElem hi, Option.some_inj] at hfour
    rw [hfour]
    decide
  · rw [List.getElem?_eq_getElem hi, Option.some_inj] at hseven
    rw [hseven]
    decide

theorem noBlank_of_close {s : Str}
    (h : ∀ c ∈ if s.getLast? = some ']' then s.dropLast else s, isWhiteSpace c = false) :
    ∀ c ∈ s, isWhiteSpace c = false := by
  intro c hc
  split_ifs at h with hlast
  · obtain ⟨init, rfl⟩ := List.getLast?_eq_some_iff.1 hlast
    rw [List.dropLast_concat] at h
    rcases List.mem_append.1 hc with hc | hc
    · exact h c hc
    · rw [List.mem_singleton.1 hc]
      decide
  · exact h c hc

theorem noBlank_of_open {s : Str}
    (h : ∀ c ∈ if s.head? = some '[' then s.tail else s, isWhiteSpace c = false) :
    ∀ c ∈ s, isWhiteSpace c = false := by
  intro c hc
  split_ifs at h with hhead
  · obtain ⟨rest, rfl⟩ := List.head?_eq_some_iff.1 hhead
    rcases List.mem_cons.1 hc with rfl | hc
    · decide
    · exact h c hc
  · exact h c hc

theorem noBlank_stamp {line : Str} (h : isRevisionStamp line = true) :
    line ≠ [] ∧ ∀ c ∈ line, isWhiteSpace c = false := by
  refine ⟨?_, ?_⟩
  · rintro rfl
    exact absurd h (by decide)
  · unfold isRevisionStamp at h
    simp only [Bool.and_eq_true, decide_eq_true_eq, beq_iff_eq] at h
    obtain ⟨⟨⟨⟨-, hlength⟩, hfour⟩, hseven⟩, hdigits⟩ := h
    exact noBlank_of_open (noBlank_of_close (noBlank_date hlength hfour hseven hdigits))

theorem splitWhitespace_stamp {line : Str} (h : isRevisionStamp line = true) :
    splitWhitespace line = [line] :=
  splitWhitespace_of_noBlank (noBlank_stamp h).1 (noBlank_stamp h).2

theorem headsText_cons (raw : Str) (rest : List Str) :
    headsText (raw :: rest) =
      if (strTrim raw).isEmpty then headsText rest
      else !(splitWhitespace (strTrim raw)).head?.any isRevisionStamp && !isScoreLine (strTrim raw)
        && !isRule (strTrim raw) := by
  unfold headsText
  rw [List.map_cons]
  by_cases hblank : (strTrim raw).isEmpty = true
  · rw [List.find?_cons_of_neg (by simp [hblank]), if_pos hblank]
  · rw [List.find?_cons_of_pos (by simp [hblank]), if_neg hblank]

theorem headsText_stamp {raw : Str} (h : isRevisionStamp (strTrim raw) = true) (rest : List Str) :
    headsText (raw :: rest) = false := by
  have hline := splitWhitespace_stamp h
  have hne : (strTrim raw).isEmpty = false := by
    rw [List.isEmpty_eq_false_iff]
    intro hempty
    rw [hempty] at h
    exact absurd h (by decide)
  rw [headsText_cons, if_neg (by simp [hne]), hline]
  simp [h]

/-! ### The pass over the body -/

/-- A line that goes where no text stands before it. -/
def isNoise (raw : Str) (rest : List Str) : Bool :=
  (strTrim raw).isEmpty || isScoreLine (strTrim raw)
    || (isRevisionStamp (strTrim raw) && !headsText rest) || isRule (strTrim raw)

/-- The first line that is no noise. -/
def firstText : List Str → Option Str
  | [] => none
  | raw :: rest => if isNoise raw rest then firstText rest else some raw

/-- A line the pass keeps as it is. -/
structure Stays (bodyText : Bool) (raw : Str) (rest : List Str) : Prop where
  trimmed : strTrimEnd raw = raw
  nonblank : strTrim raw ≠ []
  score : isScoreLine (strTrim raw) = false
  stamp : isRevisionStamp (strTrim raw) = true → headsText rest = true
  rule : isRule (strTrim raw) = true → bodyText = true

/-- Lines the pass keeps as they are. -/
inductive SettledLines : Bool → List Str → Prop
  | nil (bodyText : Bool) : SettledLines bodyText []
  | blank {bodyText : Bool} {rest : List Str} :
      SettledLines bodyText rest → SettledLines bodyText ([] :: rest)
  | text {bodyText : Bool} {raw : Str} {rest : List Str} :
      Stays bodyText raw rest → SettledLines true rest → SettledLines bodyText (raw :: rest)

/-- The lines that are not blank. -/
def texts (ls : List Str) : ℕ := ls.countP fun raw => !(strTrim raw).isEmpty

/-- What the pass adds to the lines it has. -/
structure Kept (u : Unicode) (st : BodyState) (ls kept : List Str) : Prop where
  settled : SettledLines st.bodyText kept
  headed : headsText ls = true → headsText kept = true
  headedFirst : st.bodyText = false → headsText kept = headsText (firstText ls).toList
  header : headerLines u kept = headerLines u ls
  fewer : texts kept ≤ texts ls
  starts : st.out = [] → kept.head? ≠ some []
  lines : ∀ line ∈ kept, line = [] ∨ ∃ raw ∈ ls, line = strTrimEnd raw

section Body

variable {u : Unicode} {ls rest kept : List Str} {raw : Str} {st : BodyState}

theorem strTrim_trimEnd (raw : Str) : strTrim (strTrimEnd raw) = strTrim raw := trim_trimEnd

theorem lineKind_trimEnd (raw : Str) : lineKind u (strTrimEnd raw) = lineKind u raw := by
  rw [lineKind, strTrim_trimEnd, lineKind]

theorem lineKind_blank (hblank : strTrim raw = []) : lineKind u raw = .skipped := by
  simp [lineKind, trimmedKind, hblank]

theorem headerLines_skipped (h : lineKind u raw = .skipped) :
    headerLines u (raw :: rest) = headerLines u rest := by
  rw [headerLines, h]

theorem headsText_blank (hblank : strTrim raw = []) : headsText (raw :: rest) = headsText rest := by
  rw [headsText_cons, if_pos (by simp [hblank])]

theorem headsText_text (hblank : strTrim raw ≠ []) :
    headsText (raw :: rest) = headsText [raw] := by
  have hline : (strTrim raw).isEmpty = false := by simpa using hblank
  rw [headsText_cons, headsText_cons, hline]
  rfl

theorem headsText_trimEnd (hblank : strTrim raw ≠ []) :
    headsText (strTrimEnd raw :: rest) = headsText [raw] := by
  rw [headsText_text (by rwa [strTrim_trimEnd]), headsText_cons, headsText_cons, strTrim_trimEnd]

theorem texts_le_cons (raw : Str) (rest : List Str) : texts rest ≤ texts (raw :: rest) :=
  (List.sublist_cons_self raw rest).countP_le

theorem lines_cons (h : ∀ line ∈ kept, line = [] ∨ ∃ raw ∈ rest, line = strTrimEnd raw)
    (raw : Str) :
    ∀ line ∈ kept, line = [] ∨ ∃ r ∈ raw :: rest, line = strTrimEnd r := by
  intro line hline
  rcases h line hline with hempty | ⟨r, hr, heq⟩
  · exact .inl hempty
  · exact .inr ⟨r, List.mem_cons_of_mem _ hr, heq⟩

theorem Kept.skip (hblank : strTrim raw = []) (h : Kept u st rest kept) :
    Kept u st (raw :: rest) kept where
  settled := h.settled
  headed hheads := h.headed (headsText_blank hblank ▸ hheads)
  headedFirst hfirst := by
    rw [firstText, if_pos (by simp [isNoise, hblank])]
    exact h.headedFirst hfirst
  header := by rw [headerLines_skipped (lineKind_blank hblank), h.header]
  fewer := h.fewer.trans (texts_le_cons raw rest)
  starts := h.starts
  lines := lines_cons h.lines raw

theorem Kept.blank (hblank : strTrim raw = []) (hout : st.out ≠ [])
    (h : Kept u { st with out := st.out ++ [[]] } rest kept) :
    Kept u st (raw :: rest) ([] :: kept) where
  settled := .blank h.settled
  headed hheads := by
    rw [headsText_blank hblank] at hheads
    exact (headsText_blank rfl).trans (h.headed hheads)
  headedFirst hfirst := by
    rw [firstText, if_pos (by simp [isNoise, hblank]), headsText_blank rfl]
    exact h.headedFirst hfirst
  header := by
    rw [headerLines_skipped (lineKind_blank hblank), headerLines_skipped (lineKind_blank rfl),
      h.header]
  fewer := by
    have hempty : texts ([] :: kept) = texts kept := by simp [texts, strTrim, trim]
    rw [hempty]
    exact h.fewer.trans (texts_le_cons raw rest)
  starts hnone := absurd hnone hout
  lines line hline := by
    rcases List.mem_cons.1 hline with hempty | hline
    · exact .inl hempty
    · exact lines_cons h.lines raw line hline

/-- The lines the pass drops. -/
def isDropped (bodyText : Bool) (raw : Str) (rest : List Str) : Bool :=
  isScoreLine (strTrim raw) || (isRevisionStamp (strTrim raw) && !headsText rest)
    || (isRule (strTrim raw) && !bodyText)

theorem Kept.drop (hblank : strTrim raw ≠ []) (hdrop : isDropped st.bodyText raw rest = true)
    (h : Kept u { st with afterDrop := true } rest kept) : Kept u st (raw :: rest) kept where
  settled := h.settled
  headed hheads := by
    exfalso
    unfold isDropped at hdrop
    simp only [Bool.or_eq_true, Bool.and_eq_true] at hdrop
    rcases hdrop with (hscore | ⟨hstamp, -⟩) | ⟨hrule, -⟩
    · rw [headsText_cons, if_neg (by simpa using hblank), hscore] at hheads
      simp at hheads
    · rw [headsText_stamp hstamp] at hheads
      cases hheads
    · rw [headsText_cons, if_neg (by simpa using hblank), hrule] at hheads
      simp at hheads
  headedFirst hfirst := by
    have hnoise : isNoise raw rest = true := by
      unfold isDropped at hdrop
      unfold isNoise
      simp only [Bool.or_eq_true, Bool.and_eq_true] at hdrop ⊢
      rcases hdrop with (hscore | hstamp) | ⟨hrule, -⟩
      · exact .inl (.inl (.inr hscore))
      · exact .inl (.inr hstamp)
      · exact .inr hrule
    rw [firstText, if_pos hnoise]
    exact h.headedFirst hfirst
  header := by
    have hkind : lineKind u raw = .skipped := by
      unfold isDropped at hdrop
      simp only [Bool.or_eq_true, Bool.and_eq_true] at hdrop
      refine if_pos ?_
      simp only [Bool.or_eq_true]
      rcases hdrop with (hscore | ⟨hstamp, -⟩) | ⟨hrule, -⟩
      · exact .inl (.inr hscore)
      · exact .inl (.inl (.inr hstamp))
      · exact .inr hrule
    rw [headerLines_skipped hkind, h.header]
  fewer := h.fewer.trans (texts_le_cons raw rest)
  starts := h.starts
  lines := lines_cons h.lines raw

theorem Kept.stay (hblank : strTrim raw ≠ []) (hdrop : isDropped st.bodyText raw rest = false)
    (h : Kept u ⟨st.out ++ [strTrimEnd raw], false, true⟩ rest kept) :
    Kept u st (raw :: rest) (strTrimEnd raw :: kept) := by
  unfold isDropped at hdrop
  simp only [Bool.or_eq_false_iff, Bool.and_eq_false_iff, Bool.not_eq_false'] at hdrop
  obtain ⟨⟨hscore, hstamp⟩, hrule⟩ := hdrop
  have hstays : Stays st.bodyText (strTrimEnd raw) kept := by
    refine ⟨trimEnd_trimEnd, ?_, ?_, fun hs => ?_, fun hr => ?_⟩
    · rwa [strTrim_trimEnd]
    · rwa [strTrim_trimEnd]
    · rw [strTrim_trimEnd] at hs
      exact h.headed (hstamp.resolve_left (by simp [hs]))
    · rw [strTrim_trimEnd] at hr
      exact hrule.resolve_left (by simp [hr])
  refine ⟨.text hstays h.settled, fun hheads => ?_, fun hfirst => ?_, ?_, ?_, fun _ => ?_, ?_⟩
  · rw [headsText_trimEnd hblank, ← headsText_text hblank]
    exact hheads
  · have hnoise : isNoise raw rest = false := by
      have hnorule : isRule (strTrim raw) = false := by
        rcases hrule with hrule | hbody
        · exact hrule
        · rw [hfirst] at hbody
          cases hbody
      have hline : (strTrim raw).isEmpty = false := by simpa using hblank
      rcases hstamp with hstamp | hheads
      · simp [isNoise, hline, hscore, hstamp, hnorule]
      · simp [isNoise, hline, hscore, hheads, hnorule]
    rw [firstText, if_neg (by simp [hnoise]), headsText_trimEnd hblank]
    rfl
  · cases hkind : lineKind u raw <;>
      simp [headerLines, lineKind_trimEnd, hkind, h.header]
  · unfold texts
    rw [List.countP_cons, List.countP_cons, strTrim_trimEnd]
    exact Nat.add_le_add_right h.fewer _
  · rw [List.head?_cons, Ne, Option.some_inj]
    exact fun hempty => hblank (trimEnd_eq_nil.1 hempty)
  · intro line hline
    rcases List.mem_cons.1 hline with heq | hline
    · exact .inr ⟨raw, List.mem_cons_self, heq⟩
    · exact lines_cons h.lines raw line hline

theorem bodyPass_kept (u : Unicode) (ls : List Str) (st : BodyState) :
    ∃ kept, (bodyPass ls st).out = st.out ++ kept ∧ Kept u st ls kept := by
  induction ls generalizing st with
  | nil =>
    exact ⟨[], (List.append_nil _).symm, .nil _, fun h => h, fun _ => rfl, rfl, le_rfl,
      fun _ => by simp, by simp⟩
  | cons raw rest ih =>
    rw [bodyPass]
    by_cases hblank : strTrim raw = []
    · by_cases hpush : (!st.out.isEmpty && !(st.afterDrop && st.out.getLast? == some [])) = true
      · have hstep : bodyStep st raw rest = { st with out := st.out ++ [[]] } := by
          simp only [bodyStep, hblank, List.isEmpty_nil, if_true, hpush]
        obtain ⟨kept, hkept, h⟩ := ih { st with out := st.out ++ [[]] }
        refine ⟨[] :: kept, ?_, h.blank hblank ?_⟩
        · rw [hstep, hkept, List.append_assoc]
          rfl
        · rintro hnone
          rw [hnone] at hpush
          cases hpush
      · have hstep : bodyStep st raw rest = st := by
          simp only [bodyStep, hblank, List.isEmpty_nil, if_true, hpush]
          rfl
        obtain ⟨kept, hkept, h⟩ := ih st
        exact ⟨kept, by rw [hstep, hkept], h.skip hblank⟩
    · have hline : ¬ (strTrim raw).isEmpty = true := by simpa using hblank
      cases hdrop : isDropped st.bodyText raw rest with
      | true =>
        have hstep : bodyStep st raw rest = { st with afterDrop := true } := by
          rw [bodyStep, if_neg hline]
          exact if_pos hdrop
        obtain ⟨kept, hkept, h⟩ := ih { st with afterDrop := true }
        exact ⟨kept, by rw [hstep, hkept], h.drop hblank hdrop⟩
      | false =>
        have hstep : bodyStep st raw rest = ⟨st.out ++ [strTrimEnd raw], false, true⟩ := by
          rw [bodyStep, if_neg hline]
          exact if_neg (by rw [← isDropped, hdrop]; exact Bool.false_ne_true)
        obtain ⟨kept, hkept, h⟩ := ih ⟨st.out ++ [strTrimEnd raw], false, true⟩
        refine ⟨strTrimEnd raw :: kept, ?_, h.stay hblank hdrop⟩
        rw [hstep, hkept, List.append_assoc]
        rfl

end Body

/-! ### Blank lines at the end -/

/-- The empty lines at the end are taken off. -/
def dropBlanks (ls : List Str) : List Str := ls.rdropWhile fun line => line.isEmpty

section DropBlanks

variable {u : Unicode} {ls kept w : List Str} {bodyText : Bool}

theorem headsText_append (ls : List Str) (hw : ∀ line ∈ w, line = []) :
    headsText (ls ++ w) = headsText ls := by
  induction ls with
  | nil =>
    rw [List.nil_append]
    induction w with
    | nil => rfl
    | cons line w ih =>
      rw [hw line List.mem_cons_self, headsText_blank rfl]
      exact ih fun l hl => hw l (List.mem_cons_of_mem _ hl)
  | cons raw ls ih => rw [List.cons_append, headsText_cons, headsText_cons, ih]

theorem headerLines_append (ls : List Str) (hw : ∀ line ∈ w, line = []) :
    headerLines u (ls ++ w) = headerLines u ls := by
  induction ls with
  | nil =>
    rw [List.nil_append]
    induction w with
    | nil => rfl
    | cons line w ih =>
      rw [hw line List.mem_cons_self, headerLines_skipped (lineKind_blank rfl)]
      exact ih fun l hl => hw l (List.mem_cons_of_mem _ hl)
  | cons raw ls ih => rw [List.cons_append, headerLines, headerLines, ih]

theorem SettledLines.of_append (hw : ∀ line ∈ w, line = []) (h : SettledLines bodyText (ls ++ w)) :
    SettledLines bodyText ls := by
  induction ls generalizing bodyText with
  | nil => exact .nil _
  | cons raw ls ih =>
    cases h with
    | blank h => exact .blank (ih h)
    | text hstays h =>
      refine .text ⟨hstays.trimmed, hstays.nonblank, hstays.score, fun hs => ?_, hstays.rule⟩ (ih h)
      rw [← headsText_append ls hw]
      exact hstays.stamp hs

theorem dropBlanks_append (ls : List Str) :
    ∃ w, ls = dropBlanks ls ++ w ∧ ∀ line ∈ w, line = [] :=
  ⟨ls.rtakeWhile fun line => line.isEmpty, List.rdropWhile_append_rtakeWhile.symm,
    fun _ hline => List.isEmpty_iff.1 (List.mem_rtakeWhile_imp hline)⟩

theorem SettledLines.dropBlanks (h : SettledLines bodyText ls) :
    SettledLines bodyText (dropBlanks ls) := by
  obtain ⟨w, hls, hw⟩ := dropBlanks_append ls
  rw [hls] at h
  exact h.of_append hw

theorem headsText_dropBlanks (ls : List Str) : headsText (dropBlanks ls) = headsText ls := by
  obtain ⟨w, hls, hw⟩ := dropBlanks_append ls
  conv_rhs => rw [hls]
  exact (headsText_append _ hw).symm

theorem headerLines_dropBlanks (ls : List Str) :
    headerLines u (dropBlanks ls) = headerLines u ls := by
  obtain ⟨w, hls, hw⟩ := dropBlanks_append ls
  conv_rhs => rw [hls]
  exact (headerLines_append _ hw).symm

theorem dropBlanks_sublist (ls : List Str) : (dropBlanks ls).Sublist ls :=
  (List.rdropWhile_prefix _ _).sublist

theorem texts_dropBlanks (ls : List Str) : texts (dropBlanks ls) ≤ texts ls :=
  (dropBlanks_sublist ls).countP_le

theorem getLast?_dropBlanks (ls : List Str) : (dropBlanks ls).getLast? ≠ some [] := by
  intro hlast
  have hne : dropBlanks ls ≠ [] := by
    rintro hnil
    rw [hnil] at hlast
    cases hlast
  have hstays := List.rdropWhile_last_not _ _ hne
  rw [List.getLast?_eq_some_getLast hne, Option.some_inj] at hlast
  exact hstays (by simp only [dropBlanks] at hlast; simp [hlast])

theorem head?_dropBlanks (h : ls.head? ≠ some []) : (dropBlanks ls).head? ≠ some [] := by
  obtain ⟨w, hls, -⟩ := dropBlanks_append ls
  intro hhead
  refine h ?_
  rw [hls, List.head?_append, hhead]
  rfl

theorem dropBlanks_cons {line : Str} (hline : line ≠ []) (ls : List Str) :
    dropBlanks (line :: ls) = line :: dropBlanks ls := by
  unfold dropBlanks
  induction ls using List.reverseRecOn with
  | nil => simp [List.rdropWhile_singleton, hline]
  | append_singleton ls last ih =>
    rw [← List.cons_append]
    by_cases hlast : last.isEmpty = true
    · rw [List.rdropWhile_concat_pos _ _ _ hlast, List.rdropWhile_concat_pos _ _ _ hlast, ih]
    · rw [List.rdropWhile_concat_neg _ _ _ hlast, List.rdropWhile_concat_neg _ _ _ hlast]
      rfl

theorem dropBlanks_eq_self (h : ls.getLast? ≠ some []) : dropBlanks ls = ls := by
  refine List.rdropWhile_eq_self_iff.2 fun hne hlast => h ?_
  rw [List.getLast?_eq_some_getLast hne, List.isEmpty_iff.1 hlast]

theorem bodyPass_settled {st : BodyState} (h : SettledLines bodyText ls)
    (hbody : st.bodyText = bodyText) (hdrop : st.afterDrop = false)
    (hhead : st.out = [] → ls.head? ≠ some []) :
    (bodyPass ls st).out = st.out ++ ls := by
  induction h generalizing st with
  | nil => exact (List.append_nil _).symm
  | @blank bodyText rest h ih =>
    have hout : st.out ≠ [] := fun hnone => hhead hnone rfl
    have hstep : bodyStep st [] rest = { st with out := st.out ++ [[]] } := by
      have hline : (strTrim []).isEmpty = true := rfl
      have hsome : st.out.isEmpty = false := by simpa using hout
      simp only [bodyStep, hline, if_true, hdrop, hsome]
      rfl
    rw [bodyPass, hstep,
      @ih { st with out := st.out ++ [[]] } hbody hdrop fun hnone => by simp at hnone,
      List.append_assoc]
    rfl
  | @text bodyText raw rest hstays h ih =>
    have hline : ¬ (strTrim raw).isEmpty = true := by simpa using hstays.nonblank
    have hstay : isDropped st.bodyText raw rest = false := by
      have hstamp : (isRevisionStamp (strTrim raw) && !headsText rest) = false := by
        cases hs : isRevisionStamp (strTrim raw) with
        | true => simp [hstays.stamp hs]
        | false => rfl
      have hrule : (isRule (strTrim raw) && !st.bodyText) = false := by
        cases hr : isRule (strTrim raw) with
        | true => simp [hbody, hstays.rule hr]
        | false => rfl
      rw [isDropped, hstays.score, hstamp, hrule]
      rfl
    have hstep : bodyStep st raw rest = ⟨st.out ++ [raw], false, true⟩ := by
      rw [bodyStep, if_neg hline, hstays.trimmed]
      exact if_neg (by rw [← isDropped, hstay]; exact Bool.false_ne_true)
    rw [bodyPass, hstep, @ih ⟨st.out ++ [raw], false, true⟩ rfl rfl fun hnone => by simp at hnone,
      List.append_assoc]
    rfl

/-! ### Stripping lines -/

theorem stripLines_short (h : headerLines u ls < 3) :
    stripLines u ls = dropBlanks (bodyPass ls ⟨[], false, false⟩).out := by
  obtain ⟨hcount, -⟩ := scanBlock_spec u ls 0 ⟨0, 0, 0, []⟩
  unfold stripLines
  dsimp only at hcount ⊢
  rw [if_neg (by omega)]
  rfl

theorem strTrim_subset (s : Str) : strTrim s ⊆ s :=
  fun _ hc => (List.dropWhile_suffix _).subset ((List.rdropWhile_prefix _ _).subset hc)

theorem headerField_value {line key value : Str} (h : headerField u line = some (key, value)) :
    value ≠ [] ∧ strTrim value = value ∧ value ⊆ line := by
  unfold headerField splitOnce at h
  split at h
  · cases h
  · rename_i k v hsplit
    dsimp only at h
    split_ifs at hsplit h with _ hfield
    cases hsplit
    cases h
    simp only [Bool.and_eq_true, Bool.not_eq_true', List.isEmpty_eq_false_iff] at hfield
    refine ⟨hfield.2, trim_trim, fun c hc => ?_⟩
    exact (List.dropWhile_suffix _).subset ((List.tail_sublist _).subset (strTrim_subset _ hc))

theorem described_value {value : Str} {rest : List Str}
    (h : described u ls = some (value, rest)) :
    value ≠ [] ∧ strTrim value = value ∧ (∃ raw ∈ ls, value ⊆ raw) ∧ rest ⊆ ls := by
  induction ls with
  | nil => simp [described] at h
  | cons raw ls ih =>
    have htail : described u ls = some (value, rest) →
        value ≠ [] ∧ strTrim value = value ∧ (∃ r ∈ raw :: ls, value ⊆ r) ∧ rest ⊆ raw :: ls := by
      intro hd
      obtain ⟨hne, htrim, ⟨r, hr, hsub⟩, hrest⟩ := ih hd
      exact ⟨hne, htrim, ⟨r, List.mem_cons_of_mem _ hr, hsub⟩,
        fun x hx => List.mem_cons_of_mem _ (hrest hx)⟩
    cases hkind : lineKind u raw with
    | skipped =>
      rw [described, hkind] at h
      exact htail h
    | counted =>
      rw [described, hkind] at h
      exact htail h
    | text => simp [described, hkind] at h
    | description v =>
      rw [described, hkind] at h
      cases h
      unfold lineKind trimmedKind at hkind
      split at hkind
      · cases hkind
      · split at hkind
        · rename_i key w hfield
          split_ifs at hkind
          cases hkind
          obtain ⟨hne, htrim, hsub⟩ := headerField_value hfield
          exact ⟨hne, htrim, ⟨raw, List.mem_cons_self, fun c hc => strTrim_subset _ (hsub hc)⟩,
            fun x hx => List.mem_cons_of_mem _ hx⟩
        · split_ifs at hkind

theorem stripLines_long (h : 3 ≤ headerLines u ls) :
    stripLines u ls = dropBlanks (bodyPass (afterBlock u ls)
      ⟨(described u ls).toList.map Prod.fst, false, false⟩).out := by
  obtain ⟨hcount, hdescription, -, hend⟩ := scanBlock_spec u ls 0 ⟨0, 0, 0, []⟩
  obtain ⟨n, hn, hdrop⟩ := hend (by omega)
  unfold stripLines
  dsimp only at hcount hdescription ⊢
  rw [if_pos (by omega), hn, Nat.zero_add, hdrop, hdescription]
  cases hd : described u ls with
  | none => rfl
  | some d =>
    have hvalue := (described_value hd).1
    simp [hvalue, dropBlanks]

theorem stripLines_eq_self (hheader : headerLines u ls < 3) (hsettled : SettledLines false ls)
    (hhead : ls.head? ≠ some []) (hlast : ls.getLast? ≠ some []) : stripLines u ls = ls := by
  rw [stripLines_short hheader, bodyPass_settled hsettled rfl rfl fun _ => hhead]
  exact dropBlanks_eq_self hlast

theorem afterBlock_subset (ls : List Str) : afterBlock u ls ⊆ ls := by
  induction ls with
  | nil => exact fun _ h => h
  | cons raw ls ih =>
    rw [afterBlock]
    cases lineKind u raw with
    | skipped =>
      dsimp only
      split_ifs
      · exact fun _ h => h
      · exact fun x hx => List.mem_cons_of_mem _ (ih hx)
    | counted => exact fun x hx => List.mem_cons_of_mem _ (ih hx)
    | description v => exact fun x hx => List.mem_cons_of_mem _ hx
    | text => exact fun _ h => h

theorem texts_afterBlock (ls : List Str) :
    headerLines u ls + texts (afterBlock u ls) ≤ texts ls := by
  induction ls with
  | nil => simp [headerLines, afterBlock]
  | cons raw ls ih =>
    have htext : lineKind u raw ≠ .skipped → texts (raw :: ls) = texts ls + 1 := by
      intro hkind
      have hline : (strTrim raw).isEmpty = false := by
        by_contra hblank
        exact hkind (lineKind_blank (by simpa using hblank))
      unfold texts
      rw [List.countP_cons_of_pos (by simp [hline])]
    cases hkind : lineKind u raw with
    | skipped =>
      have hmore := texts_le_cons raw ls
      simp only [headerLines, afterBlock, hkind]
      split_ifs with hnone
      · omega
      · omega
    | counted =>
      have hone := htext (by simp [hkind])
      simp only [headerLines, afterBlock, hkind]
      omega
    | description v =>
      have hone := htext (by simp [hkind])
      simp only [headerLines, afterBlock, hkind]
      omega
    | text => simp [headerLines, afterBlock, hkind]

theorem texts_stripLines (h : 3 ≤ headerLines u ls) : texts (stripLines u ls) < texts ls := by
  obtain ⟨kept, hkept, hspec⟩ := bodyPass_kept u (afterBlock u ls)
    ⟨(described u ls).toList.map Prod.fst, false, false⟩
  have hbody := texts_afterBlock (u := u) ls
  have hfew := hspec.fewer
  have hstart : texts ((described u ls).toList.map Prod.fst) ≤ 1 := by
    refine (List.countP_le_length).trans ?_
    cases described u ls <;> simp
  rw [stripLines_long h, hkept]
  refine (texts_dropBlanks _).trans_lt ?_
  unfold texts at *
  rw [List.countP_append]
  dsimp only
  omega

end DropBlanks

/-! ### Once more -/

/-- The block ends in a description that is noise at the top of what follows it, or opens another
block with it. -/
def Reheads (u : Unicode) (ls : List Str) : Prop :=
  ∃ value rest, described u ls = some (value, rest) ∧ 3 ≤ headerLines u ls ∧
    (3 ≤ headerLines u (value :: rest) ∨ isScoreLine value = true ∨ isRule value = true ∨
      (isRevisionStamp value = true ∧ headsText (firstText rest).toList = false))

section Twice

variable {u : Unicode} {ls : List Str}

theorem stripLines_twice_of_kept {body kept : List Str} (hlines : stripLines u ls = dropBlanks kept)
    (h : Kept u ⟨[], false, false⟩ body kept) (hheader : headerLines u kept < 3) :
    stripLines u (stripLines u ls) = stripLines u ls := by
  rw [hlines]
  refine stripLines_eq_self ?_ h.settled.dropBlanks (head?_dropBlanks (h.starts rfl))
    (getLast?_dropBlanks kept)
  rwa [headerLines_dropBlanks]

theorem SettledLines.mono {bodyText : Bool} (h : SettledLines bodyText ls) :
    SettledLines true ls := by
  induction h with
  | nil => exact .nil _
  | blank _ ih => exact .blank ih
  | text hstays h _ =>
    exact .text ⟨hstays.trimmed, hstays.nonblank, hstays.score, hstays.stamp, fun _ => rfl⟩ h

theorem stripLines_ne_of_dropped {value : Str} {rest : List Str} (hvalue : strTrim value ≠ [])
    (hheader : headerLines u (value :: rest) < 3) (hdrop : isDropped false value rest = true) :
    stripLines u (value :: rest) ≠ value :: rest := by
  intro heq
  obtain ⟨kept, hkept, hspec⟩ := bodyPass_kept u rest ⟨[], true, false⟩
  have hline : ¬ (strTrim value).isEmpty = true := by simpa using hvalue
  have hstep : bodyStep ⟨[], false, false⟩ value rest = ⟨[], true, false⟩ := by
    rw [bodyStep, if_neg hline]
    exact if_pos hdrop
  rw [stripLines_short hheader, bodyPass, hstep, hkept] at heq
  have hfew := (texts_dropBlanks kept).trans hspec.fewer
  have hmore : texts (value :: rest) = texts rest + 1 := by
    unfold texts
    rw [List.countP_cons_of_pos (by simpa using hvalue)]
  rw [List.nil_append] at heq
  rw [← heq] at hmore
  omega

theorem stripLines_twice (u : Unicode) (ls : List Str) :
    stripLines u (stripLines u ls) = stripLines u ls ↔ ¬ Reheads u ls := by
  by_cases hshort : headerLines u ls < 3
  · obtain ⟨kept, hkept, hspec⟩ := bodyPass_kept u ls ⟨[], false, false⟩
    refine iff_of_true (stripLines_twice_of_kept ?_ hspec (hspec.header ▸ hshort)) ?_
    · rw [stripLines_short hshort, hkept]
      rfl
    · rintro ⟨value, rest, -, hlong, -⟩
      omega
  · have hlong := not_lt.1 hshort
    cases hd : described u ls with
    | none =>
      obtain ⟨kept, hkept, hspec⟩ := bodyPass_kept u (afterBlock u ls) ⟨[], false, false⟩
      refine iff_of_true (stripLines_twice_of_kept ?_ hspec ?_) ?_
      · rw [stripLines_long hlong, hd]
        exact congrArg dropBlanks hkept
      · rw [hspec.header, headerLines_afterBlock hd]
        decide
      · rintro ⟨value, rest, hsome, -⟩
        rw [hd] at hsome
        cases hsome
    | some d =>
      obtain ⟨value, rest⟩ := d
      obtain ⟨hne, htrim, -, -⟩ := described_value hd
      obtain ⟨kept, hkept, hspec⟩ := bodyPass_kept u rest ⟨[value], false, false⟩
      have hlines : stripLines u ls = value :: dropBlanks kept := by
        rw [stripLines_long hlong, hd, afterBlock_of_described hd]
        exact (congrArg dropBlanks hkept).trans (dropBlanks_cons hne kept)
      have hblank : strTrim value ≠ [] := by rwa [htrim]
      have hheader : headerLines u (value :: dropBlanks kept) = headerLines u (value :: rest) := by
        rw [headerLines, headerLines, headerLines_dropBlanks, hspec.header]
      have hheads : headsText (dropBlanks kept) = headsText (firstText rest).toList :=
        (headsText_dropBlanks kept).trans (hspec.headedFirst rfl)
      have hdropped : isDropped false value (dropBlanks kept) = true ↔
          isScoreLine value = true ∨ isRule value = true ∨
            (isRevisionStamp value = true ∧ headsText (firstText rest).toList = false) := by
        rw [isDropped, htrim, hheads]
        simp only [Bool.or_eq_true, Bool.and_eq_true, Bool.not_eq_true', Bool.not_false, and_true]
        tauto
      rw [hlines]
      by_cases hagain : 3 ≤ headerLines u (value :: rest)
      · -- The description and what follows it are taken for a block.
        refine iff_of_false (fun heq => ?_) (not_not.2 ⟨value, rest, hd, hlong, .inl hagain⟩)
        have hfew := texts_stripLines (hheader ▸ hagain)
        rw [heq] at hfew
        exact lt_irrefl _ hfew
      · have hfew : headerLines u (value :: dropBlanks kept) < 3 := hheader ▸ not_le.1 hagain
        by_cases hnoise : isDropped false value (dropBlanks kept) = true
        · exact iff_of_false (stripLines_ne_of_dropped hblank hfew hnoise)
            (not_not.2 ⟨value, rest, hd, hlong, .inr (hdropped.1 hnoise)⟩)
        · refine iff_of_true
            (stripLines_eq_self hfew (.text ?_ hspec.settled.dropBlanks.mono) ?_ ?_) ?_
          · have hstays := hnoise
            rw [isDropped] at hstays
            simp only [Bool.or_eq_true, Bool.and_eq_true, Bool.not_eq_true', not_or, not_and,
              Bool.not_false, and_true, Bool.not_eq_true, Bool.not_eq_false] at hstays
            obtain ⟨⟨hscore, hstamp⟩, hrule⟩ := hstays
            refine ⟨?_, hblank, hscore, hstamp, fun hr => ?_⟩
            · rw [← htrim]
              exact trimEnd_trim
            · rw [hrule] at hr
              cases hr
          · simpa using hne
          · rw [List.getLast?_cons, Ne, Option.some_inj]
            cases hlast : (dropBlanks kept).getLast? with
            | none => exact hne
            | some last => exact fun hempty => getLast?_dropBlanks kept (hempty ▸ hlast)
          · rintro ⟨value', rest', hsome, -, hwhy⟩
            rw [hd] at hsome
            cases hsome
            rcases hwhy with hthree | hwhy
            · exact hagain hthree
            · exact hnoise (hdropped.2 hwhy)

/-! ### Texts -/

theorem getLast?_of_trimEnd {line : Str} (h : strTrimEnd line = line) :
    line.getLast? ≠ some '\r' := by
  intro hlast
  obtain ⟨init, rfl⟩ := List.getLast?_eq_some_iff.1 hlast
  rw [strTrimEnd, trimEnd, List.rdropWhile_concat_pos _ _ _ (by decide)] at h
  have hlength := (List.rdropWhile_prefix isWhiteSpace init).length_le
  rw [h, List.length_append, List.length_singleton] at hlength
  omega

theorem strTrimEnd_subset (s : Str) : strTrimEnd s ⊆ s := (List.rdropWhile_prefix _ _).subset

theorem mem_stripLines {line : Str} (h : line ∈ stripLines u ls) :
    strTrimEnd line = line ∧ (line = [] ∨ ∃ raw ∈ ls, line ⊆ raw) := by
  have hbody : ∀ (body kept : List Str) (st : BodyState), body ⊆ ls → Kept u st body kept →
      line ∈ kept → strTrimEnd line = line ∧ (line = [] ∨ ∃ raw ∈ ls, line ⊆ raw) := by
    intro body kept st hsub hspec hline
    rcases hspec.lines line hline with rfl | ⟨raw, hraw, rfl⟩
    · exact ⟨rfl, .inl rfl⟩
    · exact ⟨trimEnd_trimEnd, .inr ⟨raw, hsub hraw, strTrimEnd_subset raw⟩⟩
  by_cases hshort : headerLines u ls < 3
  · obtain ⟨kept, hkept, hspec⟩ := bodyPass_kept u ls ⟨[], false, false⟩
    rw [stripLines_short hshort, hkept] at h
    exact hbody ls kept _ (List.Subset.refl _) hspec ((dropBlanks_sublist _).subset h)
  · obtain ⟨kept, hkept, hspec⟩ := bodyPass_kept u (afterBlock u ls)
      ⟨(described u ls).toList.map Prod.fst, false, false⟩
    rw [stripLines_long (not_lt.1 hshort), hkept] at h
    rcases List.mem_append.1 ((dropBlanks_sublist _).subset h) with hdescription | hline
    · obtain ⟨⟨value, rest⟩, hd, rfl⟩ := List.mem_map.1 hdescription
      obtain ⟨-, htrim, hraw, -⟩ := described_value (Option.mem_toList.1 hd)
      refine ⟨?_, .inr hraw⟩
      dsimp only
      rw [← htrim]
      exact trimEnd_trim
    · exact hbody _ kept _ (afterBlock_subset ls) hspec hline

theorem getLast?_stripLines (ls : List Str) : (stripLines u ls).getLast? ≠ some [] :=
  getLast?_dropBlanks _

theorem cut_stripLines (h : ∀ line ∈ ls, '\n' ∉ line) : Cut (stripLines u ls) where
  newline line hline := by
    rcases (mem_stripLines hline).2 with rfl | ⟨raw, hraw, hsub⟩
    · simp
    · exact fun hmem => h raw hraw (hsub hmem)
  noReturn line hline := getLast?_of_trimEnd (mem_stripLines hline).1
  last := getLast?_stripLines ls

/-- Comments once stripped are stripped for good, unless the header block ends in a description
that is noise on top of what is left, or opens a block again. -/
theorem stripDeckbuilderNoise_twice (u : Unicode) (s : Str) :
    stripDeckbuilderNoise u (stripDeckbuilderNoise u s) = stripDeckbuilderNoise u s ↔
      ¬ Reheads u (lines s) := by
  rw [← stripLines_twice]
  unfold stripDeckbuilderNoise
  have hcut : Cut (stripLines u (lines s)) := cut_stripLines fun _ => not_mem_lines
  have hagain : Cut (stripLines u (stripLines u (lines s))) := cut_stripLines hcut.newline
  rw [lines_unlines hcut]
  constructor
  · intro hsame
    rw [← lines_unlines hagain, hsame, lines_unlines hcut]
  · exact congrArg unlines

/-- A description whose value is a field, with two more fields after it. -/
def describedAgain : String := "Author: a\nName: b\nDescr: X: y\nFoo: bar\nBaz: qux"

theorem stripDeckbuilderNoise_not_as_claimed :
    ¬ ∀ (u : Unicode) (s : Str),
      stripDeckbuilderNoise u (stripDeckbuilderNoise u s) = stripDeckbuilderNoise u s := by
  intro h
  exact absurd (h asciiTables describedAgain.toList) (by decide +kernel)

end Twice

end Archon.Engine

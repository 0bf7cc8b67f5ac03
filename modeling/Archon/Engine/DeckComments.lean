import Archon.Library.Lines
import Archon.Engine.Cards

/-!
# Deck comments without deckbuilder noise (`engine/src/deck.rs:556-680`)

A description as deckbuilders export it opens with a block of header fields and counted sections;
revision stamps, score lines and rules are noise wherever they head no text.
-/

namespace Archon.Engine
open Lines

/-! ### Lines -/

/-- `str::trim`. -/
def strTrim (s : Str) : Str := trim isWhiteSpace s

/-- `str::trim_end`. -/
def strTrimEnd (s : Str) : Str := trimEnd isWhiteSpace s

/-- `str::split_once`. -/
def splitOnce (c : Char) (s : Str) : Option (Str × Str) :=
  if c ∈ s then some (s.takeWhile (· != c), (s.dropWhile (· != c)).tail) else none

/-- Between one and `most` words. -/
def hasWords (most : ℕ) (s : Str) : Bool :=
  decide (1 ≤ (splitWhitespace s).length ∧ (splitWhitespace s).length ≤ most)

/-- `deck.rs:556`: a key of at most three words before the colon, a value after a blank. -/
def headerField (u : Unicode) (line : Str) : Option (Str × Str) :=
  match splitOnce ':' line with
  | none => none
  | some (key, value) =>
    let key := strTrim key
    let isKey := hasWords 3 key && key.all fun c => u.isAlphabetic c || c == ' ' || c == '.'
    if isKey && value.head? == some ' ' && !(strTrim value).isEmpty then some (key, strTrim value)
    else none

/-- `deck.rs:566`: one or two words, then a number in a bracket. -/
def isCountedSection (u : Unicode) (line : Str) : Bool :=
  let isBracket := fun c => c == '(' || c == '['
  if line.any isBracket then
    let head := strTrim (line.takeWhile fun c => !isBracket c)
    let digits := (((line.dropWhile fun c => !isBracket c).tail.dropWhile isWhiteSpace).takeWhile
      isAsciiDigit).length
    hasWords 2 head
      && head.all (fun c => u.isAlphabetic c || c == ' ' || c == '/' || c == '-')
      && decide (1 ≤ digits ∧ digits ≤ 3)
  else false

/-- `deck.rs:583`: a date with a bracket on at least one side. -/
def isRevisionStamp (line : Str) : Bool :=
  let date := if line.head? = some '[' then line.tail else line
  let date := if date.getLast? = some ']' then date.dropLast else date
  decide (date.length < line.length) && decide (date.length = 10)
    && date[4]? == some '-' && date[7]? == some '-'
    && [0, 1, 2, 3, 5, 6, 8, 9].all fun i => (date[i]?).any isAsciiDigit

/-- `deck.rs:610`: dashes, then a number of game wins. -/
def isScoreLine (line : Str) : Bool :=
  let isDash := fun c => c == '-' || c == '\u2013' || c == '\u2014'
  let rest := line.dropWhile isDash
  decide (rest.length < line.length)
    && "GW".toList.isPrefixOf
      ((rest.dropWhile isWhiteSpace).dropWhile fun c => isAsciiDigit c || c == '.')

/-- `deck.rs:619`. -/
def isRule (line : Str) : Bool :=
  decide (3 ≤ byteLen line) && line.all fun c => "=-_*~#".toList.contains c

/-- `deck.rs:596`: the next line that is not blank stays and opens with no stamp. -/
def headsText (rest : List Str) : Bool :=
  match (rest.map strTrim).find? fun line => !line.isEmpty with
  | some next =>
    !(splitWhitespace next).head?.any isRevisionStamp && !isScoreLine next && !isRule next
  | none => false

/-! ### The header block -/

/-- Where the block ends and what it counts. -/
structure HeaderBlock where
  blockEnd : ℕ
  fields : ℕ
  sections : ℕ
  description : Str

/-- `deck.rs:629-647`: the lines from line `i` on. -/
def scanBlock (u : Unicode) : List Str → ℕ → HeaderBlock → HeaderBlock
  | [], _, block => block
  | raw :: rest, i, block =>
    let line := strTrim raw
    if line.isEmpty || isRevisionStamp line || isScoreLine line || isRule line then
      scanBlock u rest (i + 1) block
    else
      match headerField u line with
      | some (key, value) =>
        if "descr".toList.isPrefixOf (u.toLowercase key) then
          { block with fields := block.fields + 1, blockEnd := i + 1, description := value }
        else if (splitWhitespace value).length ≤ 6 then
          scanBlock u rest (i + 1) { block with fields := block.fields + 1, blockEnd := i + 1 }
        else block
      | none =>
        if isCountedSection u line then
          scanBlock u rest (i + 1) { block with sections := block.sections + 1, blockEnd := i + 1 }
        else block

/-! ### The body -/

/-- What the pass over the body carries. -/
structure BodyState where
  out : List Str
  afterDrop : Bool
  bodyText : Bool

/-- `deck.rs:659-675`: one line, and the lines after it. -/
def bodyStep (st : BodyState) (raw : Str) (rest : List Str) : BodyState :=
  let line := strTrim raw
  if line.isEmpty then
    if !st.out.isEmpty && !(st.afterDrop && st.out.getLast? == some []) then
      { st with out := st.out ++ [[]] }
    else st
  else if isScoreLine line || (isRevisionStamp line && !headsText rest)
      || (isRule line && !st.bodyText) then
    { st with afterDrop := true }
  else ⟨st.out ++ [strTrimEnd raw], false, true⟩

def bodyPass : List Str → BodyState → BodyState
  | [], st => st
  | raw :: rest, st => bodyPass rest (bodyStep st raw rest)

/-- The lines that stay. -/
def stripLines (u : Unicode) (ls : List Str) : List Str :=
  let block := scanBlock u ls 0 ⟨0, 0, 0, []⟩
  let start : List Str × List Str :=
    if 3 ≤ block.fields + block.sections then
      (if block.description.isEmpty then [] else [block.description], ls.drop block.blockEnd)
    else ([], ls)
  (bodyPass start.2 ⟨start.1, false, false⟩).out.rdropWhile fun line => line.isEmpty

/-- `deck.rs:623`. -/
def stripDeckbuilderNoise (u : Unicode) (comments : Str) : Str :=
  unlines (stripLines u (lines comments))

end Archon.Engine

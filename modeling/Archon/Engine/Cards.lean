import Mathlib.Data.List.AList
import Mathlib.Data.Prod.Lex
import Archon.Engine.Administration

/-!
# The card database (`engine/src/cards.rs`)

Loading the cards and looking them up by id and by name. A `str` is the list of its characters.
What the engine reads from the Unicode tables is a parameter: the decomposition of the
`unicode-normalization` crate, letters, digits and lower case of the standard library.
-/

namespace Archon.Engine
open Guards

/-! ### Texts -/

/-- A `str`, by its characters. -/
abbrev Str := List Char

/-- What is read from the Unicode tables. -/
structure Unicode where
  /-- `UnicodeNormalization::nfd`. -/
  nfd : Str → Str
  isAlphanumeric : Char → Bool
  isAlphabetic : Char → Bool
  toLowercase : Str → Str

/-- The tables on ASCII texts. -/
def asciiTables : Unicode where
  nfd := id
  isAlphanumeric := Char.isAlphanum
  isAlphabetic := Char.isAlpha
  toLowercase := List.map Char.toLower

/-- `str::len`: bytes. -/
def byteLen (s : Str) : ℕ := (s.map Char.utf8Size).sum

/-- `str::split_whitespace`. -/
def splitWhitespace (s : Str) : List Str := (s.splitOnP isWhiteSpace).filter fun w => !w.isEmpty

def isAsciiDigit (c : Char) : Bool := decide ('0' ≤ c ∧ c ≤ '9')

/-- `str::parse::<u32>`. -/
def parseU32 (s : Str) : Option ℕ :=
  let digits := if s.head? = some '+' then s.tail else s
  let value := digits.foldl (fun n c => 10 * n + (c.toNat - '0'.toNat)) 0
  if digits ≠ [] ∧ digits.all isAsciiDigit = true ∧ value ≤ JsonValue.u32Max then some value
  else none

/-! ### JSON reads -/

/-- `value[key]`, `Null` for a missing key and for what is no object. -/
def JsonValue.index (v : JsonValue) (key : String) : JsonValue :=
  match v with
  | .object entries => (entries.lookup key).getD .null
  | _ => .null

def JsonValue.members : JsonValue → List JsonValue
  | .array items => items
  | _ => []

def JsonValue.entries : JsonValue → List (String × JsonValue)
  | .object entries => entries
  | _ => []

/-- `as_str().unwrap_or("")`, by its characters. -/
def JsonValue.strField (v : JsonValue) (key : String) : Str := (v.index key).strOrEmpty.toList

/-- The texts of a list. -/
def JsonValue.strList (v : JsonValue) : List Str :=
  v.members.filterMap fun item => item.asStr.map String.toList

/-! ### Cards -/

inductive CardKind where
  | crypt | library
  deriving DecidableEq, Repr

/-- `cards.rs:33`. -/
structure Card where
  id : ℕ
  printedName : Str
  uniqueName : Str
  fullName : Str
  kind : CardKind
  types : List Str
  disciplines : List Str
  clan : Str
  group : Str
  capacity : ℕ
  adv : Bool
  v5 : Bool
  banned : Str
  sets : List Str
  deriving DecidableEq, Repr

/-- `cards.rs:208`. It rejects no value. -/
def parseCard (id : ℕ) (value : JsonValue) : Card where
  id := id
  printedName := value.strField "printed_name"
  uniqueName := value.strField "unique_name"
  fullName := value.strField "full_name"
  kind := if ((value.index "kind").asStr.getD "library") = "crypt" then .crypt else .library
  types := (value.index "types").strList
  disciplines := (value.index "disciplines").strList
  clan := value.strField "clan"
  group := value.strField "group"
  capacity := (value.index "capacity").asU32.getD 0
  adv := (value.index "adv").boolOrFalse
  v5 := (value.index "v5").boolOrFalse
  banned := value.strField "banned"
  sets := (value.index "sets").strList

/-- `cards.rs:204`: lower is preferred, non-advanced first, then the lowest id. -/
def namePref (card : Card) : ℕ ×ₗ ℕ := toLex (card.adv.toNat, card.id)

/-! ### Names -/

/-- `cards.rs:11`. -/
def foldAscii (u : Unicode) (s : Str) : Str :=
  (u.nfd s).flatMap fun c =>
    if 0x300 ≤ c.toNat ∧ c.toNat ≤ 0x36F then []
    else if c = 'ł' ∨ c = 'Ł' then ['l']
    else if c = 'ø' ∨ c = 'Ø' then ['o']
    else if c = 'đ' ∨ c = 'Đ' ∨ c = 'ð' ∨ c = 'Ð' then ['d']
    else if c = 'ħ' ∨ c = 'Ħ' then ['h']
    else if c = 'ı' then ['i']
    else if c = 'ŧ' ∨ c = 'Ŧ' then ['t']
    else if c = 'æ' ∨ c = 'Æ' then ['a', 'e']
    else if c = 'œ' ∨ c = 'Œ' then ['o', 'e']
    else if c = 'þ' ∨ c = 'Þ' then ['t', 'h']
    else if c = 'ß' then ['s', 's']
    else [c]

/-- `cards.rs:64`: letters, digits and single blanks, ASCII letters in lower case. -/
def normalizeName (u : Unicode) (name : Str) : Str :=
  let kept := (foldAscii u name).filterMap fun c =>
    if u.isAlphanumeric c || c == ' ' then some c.toLower else none
  [' '].intercalate (splitWhitespace kept)

/-- `cards.rs:99-110`: the keys of a card, those of its name variants last. -/
def cardKeys (u : Unicode) (card : Card) (value : JsonValue) : List Str :=
  [normalizeName u card.printedName, normalizeName u card.uniqueName,
    normalizeName u card.fullName] ++ (value.index "name_variants").strList.map (normalizeName u)

/-! ### The card map -/

/-- `cards.rs:80`. -/
structure CardMap where
  cards : AList fun _ : ℕ => Card
  /-- Normalized name → card id. -/
  nameIndex : AList fun _ : Str => ℕ

/-- `cards.rs:116-134`: one key of the card `id`. -/
def indexKey (cards : AList fun _ : ℕ => Card) (id : ℕ) (index : AList fun _ : Str => ℕ)
    (key : Str) : AList fun _ : Str => ℕ :=
  if key = [] then index
  else
    match index.lookup key with
    | some existing =>
      if existing ≠ id then
        let preferNew := match cards.lookup existing, cards.lookup id with
          | some old, some new => decide (namePref new < namePref old)
          | _, _ => true
        if preferNew then index.insert key id else index
      else index.insert key id
    | none => index.insert key id

/-- `cards.rs:93-135`: one entry. -/
def loadEntry (u : Unicode) (m : CardMap) (entry : String × JsonValue) :
    Except EngineError CardMap := do
  let id ← okOr (parseU32 entry.1.toList) (.internal ("Invalid card ID: " ++ entry.1))
  let card := parseCard id entry.2
  let cards := m.cards.insert id card
  pure ⟨cards, (cardKeys u card entry.2).foldl (indexKey cards id) m.nameIndex⟩

/-- `cards.rs:88` after the text is parsed. -/
def CardMap.load (u : Unicode) (data : JsonValue) : Except EngineError CardMap :=
  data.entries.foldlM (loadEntry u) ⟨∅, ∅⟩

/-- `cards.rs:140`. -/
def CardMap.byId (m : CardMap) (id : ℕ) : Option Card := m.cards.lookup id

/-- `cards.rs:146`. -/
def CardMap.byNameExact (u : Unicode) (m : CardMap) (name : Str) : Option Card :=
  let normalized := normalizeName u name
  if normalized = [] then none
  else (m.nameIndex.lookup normalized).bind fun id => m.cards.lookup id

/-- `cards.rs:158`. -/
def CardMap.byNameInGroup (u : Unicode) (m : CardMap) (name : Str) (group : ℕ) : Option Card :=
  let normalized := normalizeName u name
  if normalized = [] then none
  else
    match m.nameIndex.lookup (normalized ++ " g".toList ++ (toString group).toList) with
    | some id => m.cards.lookup id
    | none => m.byNameExact u name

/-- `cards.rs:182-189`: the shorter name, then the lower id, over the names that start so. -/
def shorterName (normalized : Str) (best : Option (ℕ ×ₗ ℕ)) (entry : Σ _ : Str, ℕ) :
    Option (ℕ ×ₗ ℕ) :=
  if normalized.isPrefixOf entry.1 then
    let candidate := toLex (byteLen entry.1, entry.2)
    if best.all fun b => decide (candidate < b) then some candidate else best
  else best

/-- `cards.rs:171`. -/
def CardMap.byName (u : Unicode) (m : CardMap) (name : Str) : Option Card :=
  let normalized := normalizeName u name
  if normalized = [] then none
  else
    match m.nameIndex.lookup normalized with
    | some id => m.cards.lookup id
    | none =>
      (m.nameIndex.entries.foldl (shorterName normalized) none).bind fun best =>
        m.cards.lookup (ofLex best).2

end Archon.Engine

import Archon.Library.Coalesce
import Archon.Library.Guards
import Archon.Library.Floats
import Archon.Backend.Requests

/-!
# The import of a results spreadsheet (`archon_import.py`)

What the parser reads of the sheets, the checks made on it, and the results built from it in place
of those of a tournament. A victory point is what `float()` makes of its cell, a text such as
`inf` or `nan` included; a value that is no number is stored as a null, which the engine reads as
zero.
-/

namespace Archon.Backend
open Engine Guards Collect

/-! ### The sheets -/

structure ArchonPlayer where
  number : ℤ
  firstName : String
  lastName : String
  veknId : String

/-- A table: player number and points, in seat order. -/
structure ArchonRoundTable where
  seats : List (ℤ × FloatValue)
  number : ℤ

structure ArchonOverride where
  row : ℕ
  round : String
  table : ℤ
  explanation : String
  deriving DecidableEq

structure ArchonData where
  players : List ArchonPlayer
  rounds : List (List ArchonRoundTable)
  finals : Option ArchonRoundTable
  overrides : List ArchonOverride

def ArchonRoundTable.numbers (tb : ArchonRoundTable) : List ℤ := tb.seats.map Prod.fst

def ArchonRoundTable.vps (tb : ArchonRoundTable) : List FloatValue := tb.seats.map Prod.snd

/-- `archon_import.py:120`. -/
def overrideComment (data : ArchonData) (roundLabel : String) (table : ℤ) : Option String :=
  (data.overrides.find? fun o =>
    o.round == roundLabel && (roundLabel == "F" || o.table == table)).map
      ArchonOverride.explanation

/-- `str(r_idx + 1)`. -/
def roundLabel (r : ℕ) : String := toString (r + 1)

/-! ### Python numbers -/

/-- The characters `str.isdigit` accepts, with the value of those `int` reads. -/
structure PyDigits where
  isDigit : Char → Bool
  decimal : Char → Option ℕ

namespace PyDigits

variable (digits : PyDigits)

/-- `str.isdigit`. -/
def isdigit (s : String) : Bool := !s.toList.isEmpty && s.toList.all digits.isDigit

/-- `int` of a text of digits, of 4300 at most. -/
def int (s : String) : Option ℕ :=
  if s.toList.length ≤ 4300 then
    (s.toList.mapM digits.decimal).map fun ds => ds.foldl (fun n d => 10 * n + d) 0
  else none

end PyDigits

/-- `vp * 2`: a number doubled is one below 2^1024. -/
def doubledVp : FloatValue → FloatValue
  | .num q => if |q| < 2 ^ 1023 then .num (2 * q) else .inf (decide (q < 0))
  | x => x

/-! ### Faults and complaints -/

/-- What stops an import: the exceptions raised, and the two failed results of the last step. -/
inductive ImportFault where
  | badLabel (o : ArchonOverride)
  | badVp (vp : FloatValue)
  | unlisted (number : ℤ)
  | undecodable
  | unmatched (names : List String)
  | tournamentNotFound
  deriving DecidableEq

inductive SheetPlace where
  | round (r : ℕ) (table : ℤ)
  | finals
  deriving DecidableEq

def SheetPlace.text : SheetPlace → String
  | round r table => "Round " ++ roundLabel r ++ ", Table " ++ toString table
  | finals => "Finals"

/-- What the judge's ruling has to list on the Override sheet. -/
def SheetPlace.overrideHint : SheetPlace → String
  | round _ _ => "this round and table"
  | finals => "F"

inductive SheetError where
  | fewVeknIds (found : ℕ)
  | noRounds
  | duplicateVeknId (veknId : String)
  | unexplained (o : ArchonOverride)
  | absent (o : ArchonOverride)
  | listedTwice (o : ArchonOverride)
  | tableSize (place : SheetPlace) (size : ℕ)
  | outOfRange (place : SheetPlace) (seat : ℕ) (vp : FloatValue) (size : ℕ)
  | notHalf (place : SheetPlace) (seat : ℕ) (vp : FloatValue)
  | refused (place : SheetPlace) (e : VpError)
  deriving DecidableEq

/-- `_VP_REASONS` by the code of the engine's error. -/
def vpReason : VpError → String
  | .incompleteTotal => "the VPs add up to less than the table can award"
  | .excessiveTotal => "the VPs add up to more than the table can award"
  | .redirectedVp => "a VP went to a Methuselah who did not oust that prey"
  | .missingVp _ => "the VPs follow no possible order of ousts"
  | .halfVpMismatch _ => "a half VP does not match how the game ended"
  | .invalidTableSize => "the VPs are not a valid result"

def ArchonOverride.isFinal (o : ArchonOverride) : Bool := o.round == "F"

/-- `archon_import.py:288`. -/
def ArchonOverride.where_ (o : ArchonOverride) : String :=
  "Override sheet, row " ++ toString o.row

/-- `archon_import.py:291-295`. -/
def ArchonOverride.name (o : ArchonOverride) : String :=
  if o.isFinal = true then "the final"
  else "Round " ++ (if o.round = "" then "?" else o.round) ++ ", Table "
    ++ (if o.table = 0 then "?" else toString o.table)

/-- The text of a complaint; `repr` writes a float. -/
def SheetError.message (repr : FloatValue → String) : SheetError → String
  | fewVeknIds found => "At least 4 players with VEKN IDs required, found " ++ toString found
  | noRounds => "At least 1 round with data is required"
  | duplicateVeknId veknId => "Duplicate VEKN ID: " ++ veknId
  | unexplained o => o.where_ ++ ": " ++ o.name ++ " is listed without an Explanation"
  | absent o => o.where_ ++ ": " ++ o.name ++ " does not exist in this file"
  | listedTwice o => o.where_ ++ ": " ++ o.name ++ " is listed twice"
  | tableSize place size =>
    place.text ++ ": invalid table size " ++ toString size ++ " (must be 4 or 5)"
  | outOfRange place seat vp size =>
    place.text ++ ", Seat " ++ toString (seat + 1) ++ ": VP " ++ repr vp ++ " out of range [0, "
      ++ toString size ++ "]"
  | notHalf place seat vp =>
    place.text ++ ", Seat " ++ toString (seat + 1) ++ ": VP " ++ repr vp
      ++ " not in 0.5 increments"
  | refused place e =>
    place.text ++ ": " ++ vpReason e ++ ". If a judge ruled this result, list "
      ++ place.overrideHint ++ " on the Override sheet with an explanation."

/-! ### The engine on floats -/

/-- `v.ceil() as i64`. -/
def ceilI64 : FloatValue → ℤ
  | .num q => max (-2 ^ 63) (min (2 ^ 63 - 1) ⌈q⌉)
  | .inf negative => if negative = true then -2 ^ 63 else 2 ^ 63 - 1
  | .nan => 0

/-- `scoring.rs:112-115`: an ousted seat with part of a point. -/
def partOfPoint : FloatValue → Bool
  | .num q =>
    let rest := |signedFract q|
    decide (vpTolerance < rest ∧ vpTolerance < |rest - 1|)
  | _ => false

/-- `(vp - 0.5).abs() < 1e-9`. -/
def isHalfVp : FloatValue → Bool
  | .num q => decide (|q - 1 / 2| < vpTolerance)
  | _ => false

/-- `(vp - 0.5).abs() > 1e-9`. -/
def isOffHalf : FloatValue → Bool
  | .num q => decide (vpTolerance < |q - 1 / 2|)
  | .inf _ => true
  | .nan => false

/-- `scoring.rs:103`, the ring walk. -/
def oustFloatWalk : ℕ → List (ℕ × FloatValue) → Option VpError
  | 0, _ => none
  | fuel + 1, seats =>
    match seats.findIdx? fun s => s.2.below 0 || s.2.same 0 with
    | some j =>
      let seat := (seats[j]?).getD (0, 0)
      if partOfPoint seat.2 = true then some (.missingVp seat.1)
      else
        let pred := if j = 0 then seats.length - 1 else j - 1
        oustFloatWalk fuel
          ((seats.modify pred fun s => (s.1, s.2 + (seat.2 + .num (-1)))).eraseIdx j)
    | none =>
      if seats.all fun s => isHalfVp s.2 then
        match seats with
        | [last] => some (.halfVpMismatch [last.1])
        | _ => none
      else
        let remaining := seats.filter fun s => isOffHalf s.2
        if 1 < remaining.length then some (.halfVpMismatch (remaining.map Prod.fst)) else none

/-- `scoring.rs:8` on a table with a value that is no number: `half_steps` reads none of it, so
it is refused. The sum of the ceilings wraps; a total with an infinity or a nan is no total a
table can have. -/
def strangeVpError (vps : List FloatValue) : VpError :=
  let n := vps.length
  let accounted := (vps.map ceilI64).sum.bmod (2 ^ 64)
  if n < 4 ∨ 5 < n then .invalidTableSize
  else if (n : ℤ) < accounted then .excessiveTotal
  else if accounted < (n : ℤ) then .incompleteTotal
  else (oustFloatWalk n (vps.zipIdx.map fun vi => (vi.2, vi.1))).getD
    (.halfVpMismatch (List.range n))

/-- `engine.check_table_vps`. -/
def engineVpError (vps : List FloatValue) : Option VpError :=
  if ∀ v ∈ vps, v.IsNum then checkTableVps (vps.map FloatValue.read)
  else some (strangeVpError vps)

/-- `scoring.rs:199`. -/
def beatsInFloat (a b : FloatValue × ℕ) : Bool :=
  b.1.below a.1 || (a.1.same b.1 && decide (a.2 < b.2))

/-- `scoring.rs:190-205`, the loop. -/
def bestInFloat : ℕ → FloatValue × ℕ → ℕ → List (FloatValue × ℕ) → ℕ
  | best, _, _, [] => best
  | best, key, i, k :: rest =>
    if beatsInFloat k key = true then bestInFloat i k (i + 1) rest
    else bestInFloat best key (i + 1) rest

/-- `engine.compute_gw_finals` without adjustments. -/
def floatGwFinals (vps : List FloatValue) (seatingUids seedOrder : List Uid) : List ℚ :=
  let best := match vps.zip (seatingUids.map (seedPosition seedOrder)) with
    | [] => 0
    | k :: rest => bestInFloat 0 k 1 rest
  (List.range vps.length).map fun i => if i = best then 1 else 0

/-- `engine.compute_tp` without adjustments. Among values one of which is a nan the sort of the
source promises no order. -/
def floatTp (vps : List FloatValue) : List ℚ :=
  let n := vps.length
  if n = 4 ∨ n = 5 then
    let ranked := (vps.zipIdx.map fun vi => (vi.2, vi.1)).insertionSort fun a b =>
      a.2.below b.2 = false
    let groups := (ranked.splitBy fun a b => a.2.same b.2).map fun g =>
      g.map fun iv => (iv.1, iv.2.read)
    let awarded := awardTp (baseTp n) 0 groups
    (List.range n).map fun i => ((awarded.find? fun ia => ia.1 == i).map Prod.snd).getD 0
  else vps.map fun _ => 0

/-! ### Validation -/

section Validate

variable (digits : PyDigits) (data : ArchonData)

/-- The later ones of equal texts. -/
def duplicates (veknIds : List String) : List SheetError :=
  veknIds.zipIdx.filterMap fun vi =>
    if vi.1 ∈ veknIds.take vi.2 then some (.duplicateVeknId vi.1) else none

/-- `archon_import.py:268-284`. -/
def playerErrors : List SheetError :=
  let veknIds := (data.players.map ArchonPlayer.veknId).filter fun v => v ≠ ""
  (if veknIds.length < 4 then [.fewVeknIds veknIds.length] else [])
    ++ (if data.rounds = [] then [.noRounds] else []) ++ duplicates veknIds

/-- `archon_import.py:298-304`. -/
def overrideExists (o : ArchonOverride) : Except ImportFault Bool :=
  if o.isFinal = true then .ok data.finals.isSome
  else if digits.isdigit o.round = true then
    match digits.int o.round with
    | none => .error (.badLabel o)
    | some n => .ok (decide (1 ≤ n) &&
        ((data.rounds[n - 1]?).getD []).any fun tb => tb.number == o.table)
  else .ok false

def ArchonOverride.key (o : ArchonOverride) : String × ℤ :=
  (o.round, if o.isFinal = true then 0 else o.table)

/-- `archon_import.py:286-309`: an override and the place of its row. -/
def overrideErrors (oi : ArchonOverride × ℕ) : Except ImportFault (List SheetError) := do
  let found ← overrideExists digits data oi.1
  pure ((if oi.1.explanation = "" then [.unexplained oi.1] else [])
    ++ (if found = false then [.absent oi.1]
      else if oi.1.key ∈ (data.overrides.take oi.2).map ArchonOverride.key then
        [.listedTwice oi.1]
      else []))

/-- `archon_import.py:323-333`: a value and its seat. -/
def seatErrors (place : SheetPlace) (size : ℕ) (vi : FloatValue × ℕ) :
    Except ImportFault (List SheetError) :=
  match doubledVp vi.1 with
  | .num h => .ok
      ((if vi.1.below 0 = true ∨ (FloatValue.num size).below vi.1 = true then
          [.outOfRange place vi.2 vi.1 size] else [])
        ++ (if h = truncate h then [] else [.notHalf place vi.2 vi.1]))
  | _ => .error (.badVp vi.1)

/-- `archon_import.py:337`, `345`. -/
def refusals (place : SheetPlace) (vps : List FloatValue) : List SheetError :=
  (engineVpError vps).toList.map (.refused place)

/-- `archon_import.py:312-339`. -/
def tableErrors (r : ℕ) (tb : ArchonRoundTable) : Except ImportFault (List SheetError) :=
  let place := SheetPlace.round r tb.number
  let size := tb.seats.length
  if size = 4 ∨ size = 5 then do
    let seats ← collect (seatErrors place size) tb.vps.zipIdx
    pure (seats ++ if (overrideComment data (roundLabel r) tb.number).isSome = true then []
      else refusals place tb.vps)
  else .ok [.tableSize place size]

/-- `archon_import.py:341-346`. -/
def finalsErrors : List SheetError :=
  match data.finals with
  | none => []
  | some f =>
    let size := f.seats.length
    if size = 4 ∨ size = 5 then
      if (overrideComment data "F" 0).isSome = true then [] else refusals .finals f.vps
    else [.tableSize .finals size]

/-- `archon_import.py:264`. -/
def validateArchonImport : Except ImportFault (List SheetError) := do
  let overrides ← collect (overrideErrors digits data) data.overrides.zipIdx
  let rounds ← collect (fun ri : List ArchonRoundTable × ℕ => collect (tableErrors data ri.2) ri.1)
    data.rounds.zipIdx
  pure (playerErrors data ++ overrides ++ rounds ++ finalsErrors data)

end Validate

/-! ### Results -/

structure BuiltSeat where
  playerUid : Uid
  gw : ℤ
  vp : FloatValue
  tp : ℤ
  deriving DecidableEq

structure BuiltTable where
  seating : List BuiltSeat
  override : Option ScoreOverride

def BuiltTable.uids (tb : BuiltTable) : List Uid := tb.seating.map BuiltSeat.playerUid

/-- What the seats of a table add to the totals of their players. -/
def BuiltTable.entries (tb : BuiltTable) : List (Uid × (ℤ × FloatValue × ℤ)) :=
  tb.seating.map fun s => (s.playerUid, (s.gw, s.vp, s.tp))

structure BuiltImport where
  players : List Player
  rounds : List (List BuiltTable)
  finals : Option BuiltTable
  winner : Uid
  standings : List Standing

/-- The seat as it is stored and read back. -/
def BuiltSeat.stored (s : BuiltSeat) : Seat := ⟨s.playerUid, ⟨s.gw, s.vp.read, s.tp⟩, ""⟩

def BuiltTable.stored (tb : BuiltTable) : Table :=
  ⟨tb.seating.map BuiltSeat.stored, .finished, tb.override, none⟩

/-- The seeds of the finals are its seats in order. -/
def BuiltTable.storedFinals (tb : BuiltTable) : FinalsTable :=
  ⟨tb.seating.map BuiltSeat.stored, .finished, tb.override, tb.uids⟩

def BuiltImport.stored (b : BuiltImport) : ArchonResults :=
  ⟨b.players, b.rounds.map fun round => round.map BuiltTable.stored,
    b.finals.map BuiltTable.storedFinals, b.winner, b.standings⟩

section Build

variable (users : String → Option Uid) (data : ArchonData) (actor : Uid)

def playerUid? (p : ArchonPlayer) : Option Uid := if p.veknId = "" then none else users p.veknId

/-- `archon_import.py:367-377`. -/
def unmatchedPlayers : List String :=
  (data.players.filter fun p => (playerUid? users p).isNone).map fun p =>
    p.firstName ++ " " ++ p.lastName ++
      if p.veknId = "" then " (no VEKN ID)" else " (VEKN ID: " ++ p.veknId ++ ")"

/-- A number listed again takes over the entry of the first. -/
def noteNumber (known : List (ℤ × Uid)) (p : ArchonPlayer) : List (ℤ × Uid) :=
  match playerUid? users p with
  | some uid => Coalesce.put p.number uid known
  | none => known

/-- `uid_by_number`. -/
def uidByNumber : List (ℤ × Uid) := data.players.foldl (noteNumber users) []

/-- The numbers seated, in the order they are looked up. -/
def seatedNumbers : List ℤ :=
  (data.rounds.flatMap fun round => round.flatMap ArchonRoundTable.numbers)
    ++ data.finals.elim [] ArchonRoundTable.numbers

/-- `uid_by_number[player_num]`, of a number that is listed. -/
def uidOf (number : ℤ) : Uid := (Coalesce.waiting number (uidByNumber users data)).getD ""

/-- `archon_import.py:409-420`. -/
def scoreSeats (tb : ArchonRoundTable) (gws tps : List ℚ) : List BuiltSeat :=
  tb.seats.zipIdx.map fun si =>
    ⟨uidOf users data si.1.1, truncate ((gws[si.2]?).getD 0), si.1.2,
      truncate ((tps[si.2]?).getD 0)⟩

/-- `archon_import.py:401-440`. -/
def buildTable (r : ℕ) (tb : ArchonRoundTable) : BuiltTable :=
  let vps := tb.vps.map FloatValue.read
  let adjustments := List.replicate vps.length 0
  { seating := scoreSeats users data tb (computeGw vps adjustments)
      (computeTp vps.length vps adjustments)
    override := (overrideComment data (roundLabel r) tb.number).map (ScoreOverride.mk actor) }

/-- `archon_import.py:444-489`. -/
def buildFinals (tb : ArchonRoundTable) : BuiltTable :=
  let uids := tb.numbers.map (uidOf users data)
  { seating := scoreSeats users data tb (floatGwFinals tb.vps uids uids) (floatTp tb.vps)
    override := (overrideComment data "F" 0).map (ScoreOverride.mk actor) }

def builtRounds : List (List BuiltTable) :=
  data.rounds.zipIdx.map fun ri => ri.1.map (buildTable users data actor ri.2)

def builtFinals : Option BuiltTable := data.finals.map (buildFinals users data actor)

/-- `player_prelim`. -/
def prelimScores : List (Uid × (ℤ × FloatValue × ℤ)) :=
  (builtRounds users data actor).flatMap fun round => round.flatMap BuiltTable.entries

/-- `player_scores`. -/
def playerScores : List (Uid × (ℤ × FloatValue × ℤ)) :=
  prelimScores users data actor ++ (builtFinals users data actor).elim [] BuiltTable.entries

def isFinalist (uid : Uid) : Bool :=
  (builtFinals users data actor).any fun f => f.uids.contains uid

/-- `archon_import.py:497-511`. -/
def builtPlayer (uid : Uid) : Player :=
  let total := Tally.sumFor (playerScores users data actor) uid
  { userUid := some uid
    state := .finished
    paymentStatus := .paid
    toss := 0
    result := ⟨total.1, total.2.1.read, total.2.2⟩
    finalist := isFinalist users data actor uid
    nonCompeting := false
    waitlisted := false
    missingDecklist := false
    displayName := none }

/-- `archon_import.py:512-522`, as the sorted rows are read back. -/
def builtStanding (uid : Uid) : Standing :=
  let total := Tally.sumFor (prelimScores users data actor) uid
  ⟨uid, total.1, total.2.1.read, total.2.2, 0, isFinalist users data actor uid, false, false,
    false⟩

/-- `archon_import.py:475`: the last seat with a game win. -/
def finalsWinner : Uid :=
  ((((builtFinals users data actor).elim [] BuiltTable.seating).filter fun s =>
    s.gw == 1).getLast?).elim "" BuiltSeat.playerUid

/-- `uid_by_number.values()`. -/
def knownUids : List Uid := (uidByNumber users data).map Prod.snd

/-- `standings_list`, sorted. -/
def builtStandings : List Standing :=
  sortByRank ((knownUids users data).map (builtStanding users data actor))

/-- What is written to the tournament. -/
def builtImport : BuiltImport :=
  let winner := finalsWinner users data actor
  { players := (knownUids users data).map (builtPlayer users data actor)
    rounds := builtRounds users data actor
    finals := builtFinals users data actor
    winner := if winner = "" then
        ((builtStandings users data actor).head?).elim "" Standing.userUid
      else winner
    standings := builtStandings users data actor }

/-- `archon_import.py:365-514`: a standings row whose points are no number is not read back. -/
def buildImport : Except ImportFault BuiltImport := do
  let unmatched := unmatchedPlayers users data
  ensure (unmatched = []) (.unmatched unmatched)
  match (seatedNumbers data).find? fun n =>
      (Coalesce.waiting n (uidByNumber users data)).isNone with
  | some n => .error (.unlisted n)
  | none => do
    ensure (∀ uid ∈ knownUids users data,
      (Tally.sumFor (prelimScores users data actor) uid).2.1.IsNum) .undecodable
    pure (builtImport users data actor)

end Build

/-- `archon_import.py:351`, with its effects on decks, ratings and wins. -/
def applyArchonImport (env : Env) (objects : Objects) (tournamentUid : Uid) (data : ArchonData)
    (actor : Uid) : Except ImportFault (BuiltImport × Objects) := do
  let built ← buildImport (fun veknId => (getUserByVeknId objects veknId).map User.uid) data actor
  let t ← okOr (objects.tournament? tournamentUid) .tournamentNotFound
  let imported := importedRow env t built.stored
  let players := playerUids imported.doc
  pure (built, recomputeWins env
    (recomputeRatingsForPlayers env
      (withdrawPrivateDecks env (saveRow objects imported) tournamentUid) players
      (ratingCategory imported.doc)) players)

end Archon.Backend

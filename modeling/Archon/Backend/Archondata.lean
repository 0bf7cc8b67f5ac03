import Archon.Engine.Cards
import Archon.Backend.CommunityLinks
import Archon.Backend.Ratings

/-!
# The results file (`vekn_push.py:87`)

The rows of the final placement, each with the figures of the player's row of the sheet, as one
text: the number of rounds, a mark, then the fields of each player in turn, every field ended by
the same separator.
-/

namespace Archon.Backend
open Engine CommunityLinks

/-! ### Texts of numbers -/

def natText (n : ℕ) : Str := (toString n).toList

def intText (n : ℤ) : Str := (toString n).toList

/-- A float of the sheet, a whole or half number: one digit after the point. -/
def floatText (q : ℚ) : Str :=
  (if q < 0 then ['-'] else []) ++ natText ⌊|q|⌋.toNat ++ '.' :: natText (⌊|q| * 10⌋.toNat % 10)

/-! ### Names -/

/-- `str.isspace`: Unicode blanks and the four separators of records. -/
def isSpace (c : Char) : Bool := isWhiteSpace c || (0x1C ≤ c.toNat && c.toNat ≤ 0x1F)

/-- `split(maxsplit=1)`: the first word, and the rest from the second word on. -/
def splitOnce (s : Str) : List Str :=
  let s := s.dropWhile isSpace
  let rest := (s.dropWhile fun c => !isSpace c).dropWhile isSpace
  [s.takeWhile fun c => !isSpace c, rest].filter fun part => !part.isEmpty

/-- `vekn_push.py:137`: an anonymized member is sent without a name. -/
def nameParts (user : Member) : List Str :=
  splitOnce (if user.anonymizedAt.isSome then [] else user.name.toList)

/-! ### Rows -/

inductive Placement where
  | place (n : ℕ)
  | dq
  | wd
  deriving DecidableEq, Repr

def Placement.text : Placement → Str
  | .place n => natText n
  | .dq => "DQ".toList
  | .wd => "WD".toList

def Placement.number : Placement → Option ℕ
  | .place n => some n
  | .dq => none
  | .wd => none

/-- A row to send, with the player it is about. -/
structure ArchonRow where
  userUid : Uid
  placement : Placement
  first : Str
  last : Str
  city : Str
  veknId : Str
  gw : ℤ
  vp : ℚ
  vpf : ℚ
  tp : ℤ
  toss : ℕ
  rtp : ℤ

/-- The fields in the order they are sent. -/
def ArchonRow.fields (r : ArchonRow) : List Str :=
  [r.placement.text, r.first, r.last, r.city, r.veknId, intText r.gw, floatText r.vp,
    floatText r.vpf, intText r.tp, natText r.toss, intText r.rtp]

/-- `vekn_push.py:155-158`. -/
def ArchonRow.text (r : ArchonRow) : Str := r.fields.flatMap fun field => field ++ ['§']

section Generate

variable (clock : Ratings.Clock) (t : StoredTournament) (users : Uid → Option Member)
variable (sanctions : List StoredSanction)

/-- `vekn_push.py:94-97`: the last seat of the uid. -/
def finalsVp (uid : Uid) : ℚ :=
  (((t.doc.finals.elim [] FinalsTable.seating).filter fun s => s.playerUid == uid).getLast?).elim 0
    fun s => s.result.vp

/-- `standings_by_uid`: the last row of the uid. -/
def standingOf (row : Standing) : Standing :=
  ((t.doc.standings.filter fun s => s.userUid == row.userUid).getLast?).getD row

/-- `vekn_push.py:137-158`. -/
def archonRow (user : Member) (row : Standing) (placement : Placement) : ArchonRow :=
  let standing := standingOf t row
  { userUid := standing.userUid
    placement
    first := (nameParts user)[0]?.getD []
    last := (nameParts user)[1]?.getD []
    city := (user.city.getD "").toList
    veknId := (user.veknId.getD "").toList
    gw := truncate standing.gw
    vp := standing.vp
    vpf := finalsVp t standing.userUid
    tp := truncate standing.tp
    toss := standing.toss
    rtp := (Ratings.computeEntry clock t sanctions standing.userUid).points }

/-- `vekn_push.py:115-159`, the loop; `placed` counts the rows of an event without a winner. -/
def archonRows : ℕ → List PlacedRow → List ArchonRow
  | _, [] => []
  | placed, p :: rest =>
    match users (standingOf t p.row).userUid with
    | none => archonRows placed rest
    | some user =>
      if p.row.nonCompeting = true then archonRows placed rest
      else if p.row.disqualified = true then
        archonRow clock t sanctions user p.row .dq :: archonRows placed rest
      else if p.noShow = true then
        archonRow clock t sanctions user p.row .wd :: archonRows placed rest
      else if t.doc.winner ≠ "" then
        archonRow clock t sanctions user p.row (.place p.rank) :: archonRows placed rest
      else
        archonRow clock t sanctions user p.row (.place (placed + 1)) :: archonRows (placed + 1) rest

/-- The rows sent, in the order of the placement. -/
def sentRows : List ArchonRow :=
  archonRows clock t users sanctions 0 (computeFinalStandings t.doc.standings t.doc.winner)

/-- `vekn_push.py:87`. -/
def generateArchondata : Str :=
  natText (t.doc.rounds.length + if t.doc.finals.isSome then 1 else 0) ++
    '¤' :: (sentRows clock t users sanctions).flatMap ArchonRow.text

end Generate

end Archon.Backend

import Archon.Library.Best
import Archon.Backend.TournamentRoutes

/-!
# The rating passes (`backend/src/ratings.py`)

The entry a tournament gives a player, the rating of a category from the tournaments of its window,
and the daily recompute of the whole table.
-/

namespace Archon.Backend
open Engine

namespace Ratings

/-! ### One tournament -/

/-- `ratings.py:53`: the seats of an event with rounds, else the scored rows. -/
def playersWithRounds (t : Tournament) : List Uid :=
  if !t.rounds.isEmpty then
    (((t.rounds.flatMap fun round => round.flatMap Table.uids)
      ++ (t.finals.elim [] FinalsTable.seating).map Seat.playerUid).filter (· ≠ "")).dedup
  else
    ((t.standings.filter fun s => s.gw != 0 || s.vp != 0 || s.tp != 0).map Standing.userUid).dedup

/-- `ratings.py:83`: placement and finalist position, `(0, 0)` for a player who is not placed. -/
def finalPosition (t : Tournament) (userUid : Uid) : ℕ × ℕ :=
  let placed := (computeFinalStandings t.standings t.winner).filter fun p =>
    !p.row.disqualified && !p.row.nonCompeting && !p.noShow && p.row.userUid == userUid
  placed.getLast?.elim (0, 0) fun p => (p.rank, p.finalistPosition)

/-- `ratings.py:98`. -/
def isDisqualified (t : Tournament) (sanctions : List StoredSanction) (userUid : Uid) : Bool :=
  t.players.any (fun p => p.isUid userUid && p.state == .disqualified)
    || sanctions.any fun s => s.userUid == userUid && s.level == .disqualification
        && s.liftedAt == none && s.deletedAt == none

/-- `ratings.py:114`. -/
def isNonCompeting (t : Tournament) (userUid : Uid) : Bool :=
  t.players.any fun p => p.isUid userUid && p.nonCompeting

/-- `ratings.py:213-229`: of the players asked for, those the tournament gives an entry. -/
def ratedPlayers (t : Tournament) (sanctions : List StoredSanction) (playerUids : List Uid) :
    List Uid :=
  let players := (playersWithRounds t).filter fun uid => decide (uid ∈ playerUids)
  if players = [] then []
  else if rankingEligibility t ≠ .eligible then []
  else players.filter fun uid => !isDisqualified t sanctions uid && !isNonCompeting t uid

theorem mem_ratedPlayers {t : Tournament} {sanctions : List StoredSanction}
    {playerUids : List Uid} {uid : Uid} :
    uid ∈ ratedPlayers t sanctions playerUids ↔
      uid ∈ playerUids ∧ uid ∈ playersWithRounds t ∧ rankingEligibility t = .eligible ∧
        isDisqualified t sanctions uid = false ∧ isNonCompeting t uid = false := by
  unfold ratedPlayers
  extract_lets players
  have hplayers : uid ∈ players ↔ uid ∈ playersWithRounds t ∧ uid ∈ playerUids := by
    rw [List.mem_filter, decide_eq_true_eq]
  by_cases hnone : players = []
  · rw [if_pos hnone]
    rw [hnone] at hplayers
    simp only [List.not_mem_nil, false_iff] at hplayers ⊢
    exact fun h => hplayers ⟨h.2.1, h.1⟩
  rw [if_neg hnone]
  by_cases heligible : rankingEligibility t = .eligible
  · rw [if_neg (not_not.2 heligible), List.mem_filter, hplayers]
    simp only [Bool.and_eq_true, Bool.not_eq_true', heligible, true_and]
    tauto
  · rw [if_pos heligible]
    simp [heligible]

/-! ### The clock of a pass -/

/-- A UTC datetime: its day, and the rest of its ISO form. -/
structure Moment where
  year : ℕ
  month : ℕ
  day : ℕ
  clock : String
  deriving DecidableEq, Repr

def padded (width n : ℕ) : String :=
  String.ofList (List.replicate (width - (toString n).length) '0') ++ toString n

/-- `isoformat()[:10]`. -/
def Moment.date (m : Moment) : String :=
  padded 4 m.year ++ "-" ++ padded 2 m.month ++ "-" ++ padded 2 m.day

def Moment.isoformat (m : Moment) : Stamp := m.date ++ m.clock

def ratingWindowMonths : ℕ := 18

def topN : ℕ := 8

/-- The second value of `calendar.monthrange`. -/
def daysInMonth (year month : ℕ) : ℕ :=
  if month = 2 then
    if year % 4 = 0 ∧ (year % 100 ≠ 0 ∨ year % 400 = 0) then 29 else 28
  else if month = 4 ∨ month = 6 ∨ month = 9 ∨ month = 11 then 30
  else 31

/-- `ratings.py:175-182`: whole calendar months back, on the last day of a shorter month. -/
def cutoff (now : Moment) : Moment :=
  -- the loop carries years to the month until it is positive: the count of months is the same
  let months := now.year * 12 + (now.month - 1) - ratingWindowMonths
  let year := months / 12
  let month := months % 12 + 1
  { now with year, month, day := min now.day (daysInMonth year month) }

/-- What a rating pass takes from its surroundings: the time, the cast of a stamp to a timestamp
and the engine's logarithm. -/
structure Clock where
  now : Moment
  timestamp : Stamp → ℚ
  log15 : ℕ → ℚ

/-! ### One category -/

/-- `t.finish or t.start or t.modified`. -/
def stampOf (t : Tournament) : Stamp :=
  (((t.config .finish).asStr.or (t.config .start).asStr).or t.modified).getD ""

/-- `ratings.py:122`. -/
def computeEntry (clock : Clock) (t : StoredTournament) (sanctions : List StoredSanction)
    (userUid : Uid) : TournamentRatingEntry :=
  let score := computeRatingVpGw t.toEngine (sanctions.map StoredSanction.toEngine) userUid
  let gw := truncate score.2
  let placed := finalPosition t.doc userUid
  let playerCount := attestedPlayerCount t.toEngine
  { tournamentUid := t.uid
    tournamentName := t.doc.text .name
    date := String.ofList ((stampOf t.doc).toList.take 10)
    playerCount
    rank := t.doc.text .rank
    vp := score.1
    gw
    finalistPosition := placed.2
    points := computeRatingPoints clock.log15 score.1 gw placed.2 playerCount (t.doc.text .rank)
    position := placed.1 }

/-- `ratings.py:184-190`. -/
def formats : RatingCategory → List String
  | .constructedOnline => ["Standard", "V5"]
  | .constructedOffline => ["Standard", "V5"]
  | .limitedOnline => ["Limited"]
  | .limitedOffline => ["Limited"]

/-- `ratings.py:191`. -/
def isOnline : RatingCategory → Bool
  | .constructedOnline => true
  | .limitedOnline => true
  | _ => false

/-- `db.py:1507-1510`: both comparisons, of the texts and of the timestamps. -/
def inWindow (clock : Clock) (t : Tournament) : Bool :=
  decide ((cutoff clock.now).date ≤ stampOf t)
    && decide (clock.timestamp (cutoff clock.now).isoformat ≤ clock.timestamp (stampOf t))

/-- `db.py:1484`. -/
def finishedForCategory (clock : Clock) (objects : Objects) (format : String) (online : Bool) :
    List StoredTournament :=
  objects.rows.filterMap fun r =>
    if r.2.deletedAt = none then
      r.2.object.asTournament.filter fun t =>
        t.doc.state == .finished && t.doc.text .format == format && t.doc.flag .online == online
          && inWindow clock t.doc
    else none

/-- `ratings.py:196-232`: the entries of one player, tournament by tournament. -/
def entriesFor (clock : Clock) (objects : Objects) (category : RatingCategory) (userUid : Uid) :
    List TournamentRatingEntry :=
  (formats category).flatMap fun format =>
    (finishedForCategory clock objects format (isOnline category)).filterMap fun t =>
      let sanctions := getSanctionsForTournament objects t.uid
      if userUid ∈ ratedPlayers t.doc sanctions [userUid] then
        some (computeEntry clock t sanctions userUid)
      else none

/-- `(-e.points, e.tournament_uid)`. -/
abbrev EntryKey := ℤᵒᵈ ×ₗ Uid

def entryKey (e : TournamentRatingEntry) : EntryKey :=
  toLex (OrderDual.toDual e.points, e.tournamentUid)

/-- `ratings.py:241-245`: every entry is kept, the best are summed. -/
def categoryRating (entries : List TournamentRatingEntry) : CategoryRating :=
  let sorted := entries.insertionSort fun a b => entryKey a ≤ entryKey b
  ⟨((sorted.take topN).map TournamentRatingEntry.points).sum, sorted⟩

/-- What `recompute_ratings_for_players` computes for each player. -/
def rated (clock : Clock) (objects : Objects) (category : RatingCategory) (userUid : Uid) :
    CategoryRating :=
  categoryRating (entriesFor clock objects category userUid)

/-- The surroundings of a request with the rating pass computed. -/
def Clock.env (clock : Clock) (env : Env) : Env :=
  { env with now := clock.now.isoformat, rated := rated clock }

end Ratings

/-! ### The full recompute -/

/-- The categories, in the order of the enumeration. -/
def ratingCategories : List RatingCategory :=
  [.constructedOnline, .constructedOffline, .limitedOnline, .limitedOffline]

/-- `ratings.py:302-311`: the tournament puts its players on the list of the category. -/
def collects (category : RatingCategory) (t : StoredTournament) : Bool :=
  t.doc.state == .finished && t.deletedAt == none && rankingEligibility t.toEngine == .eligible
    && ratingCategory t.doc == category

/-- `ratings.py:296-313`, pass 1: the players of one category. -/
def collectPlayers (objects : Objects) (category : RatingCategory) : List Uid :=
  ((objects.rows.filterMap fun r => r.2.object.asTournament).filter (collects category)).flatMap
    fun t => playerUids t.doc

/-- `ratings.py:316-321`, pass 2. -/
def recomputeCategories (env : Env) (objects : Objects) : Objects :=
  ratingCategories.foldl (fun table category =>
    recomputeRatingsForPlayers env table (collectPlayers objects category) category) objects

/-- `db.py:1472`, `ratings.py:269`: the winners, and the members with a stored win. -/
def winUids (objects : Objects) : List Uid :=
  ((objects.rows.filterMap fun r => r.2.object.asTournament.map fun t => t.doc.winner).filter
      fun uid => tournamentWins objects uid ≠ [])
    ++ (objects.liveUsers.filter fun u => u.wins ≠ []).map User.uid

/-- `ratings.py:291`. -/
def recomputeAllRatings (env : Env) (objects : Objects) : Objects :=
  let table := recomputeCategories env objects
  recomputeWins env table (winUids table)

end Archon.Backend

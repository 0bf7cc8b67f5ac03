import Mathlib.Algebra.Order.Floor.Ring
import Mathlib.Data.Prod.Lex
import Mathlib.Data.Rat.Floor
import Archon.Backend.Entitlement
import Archon.Library.Keyset

/-!
# The public API (`public_api/v1.py`, `public_api/auth.py`, `access_levels.py`)

What a row shows to the public API, the listings it streams a batch at a time while the table goes
on changing, and the budgets of its clients. A line of a stream stands for its JSON text; the clock
of a budget is a rational.
-/

namespace Archon.PublicApi
open Engine Archon.Stream Backend Access

/-! ### The projection -/

def apiSyncFields : List String := ["modified", "deleted_at"]

def userApiCityFields : List String := ["city", "city_geoname_id"]

def userApiFields : List String :=
  ["uid", "vekn_id", "country", "roles", "community_links", "constructed_online",
    "constructed_offline", "limited_online", "limited_offline", "wins"] ++ userApiCityFields

def userApiCityRoles : List Role := [.ic, .nc, .prince, .rulemonger, .judge, .sheriff]

/-- `access_levels.py:126`. -/
def computeUserApi (d : Dict) : Option Dict :=
  if truthy (field d "vekn_id") then
    if (textsOf (field d "roles")).any (· ∈ userApiCityRoles.map Role.asStr) then
      some (Fields.pick userApiFields d)
    else some (Fields.pick (userApiFields.filter (· ∉ userApiCityFields)) d)
  else none

def tournamentApiExclude : List String :=
  tournamentMemberExclude ++ apiSyncFields ++
    ["announcements", "raffles", "promos_distributed", "promo_stock_source_uid",
      "offline_device_id"]

def playerApiExclude : List String :=
  ["display_name", "missing_decklist", "payment_status", "waitlisted"]

/-- The entries of a document without the fields of these names. -/
def leftOut (names : List String) : JsonValue → JsonValue
  | .object entries => .object (Fields.without names entries)
  | value => value

def eachLeftOut (names : List String) : JsonValue → JsonValue
  | .array items => .array (items.map (leftOut names))
  | value => value

/-- `access_levels.py:218`. -/
def computeTournamentApi (d : Dict) : Dict :=
  Fields.change ["players"] (eachLeftOut playerApiExclude) (Fields.without tournamentApiExclude d)

def deckApiExclude : List String := apiSyncFields ++ ["public", "private", "views"]

/-- `access_levels.py:249`. -/
def computeDeckApi (d : Dict) : Option Dict :=
  if truthy (field d "public") then
    some (Fields.change ["attribution"] (leftOut ["name"])
      (Fields.without deckApiExclude (publishedDeck d)))
  else none

/-- `access_levels.py:271`. -/
def computeLeagueApi (d : Dict) : Dict := Fields.without apiSyncFields d

/-- `access_levels.py:334`. -/
def computeApi : ObjectType → Dict → Option Dict
  | .user => computeUserApi
  | .tournament => some ∘ computeTournamentApi
  | .sanction => fun _ => none
  | .deck => computeDeckApi
  | .league => some ∘ computeLeagueApi
  | .promo => fun _ => none

/-- The `api` column. -/
def api (row : Access.Row) : Option Dict := computeApi row.type row.fullData

/-! ### Listings -/

/-- A listing with the parameters of its query. -/
inductive Listing where
  | tournaments (country startAfter startBefore : Option String)
  | leagues
  | users (country : Option String) (category : Option RatingCategory) (tournament : Option String)
  | decks (tournament : Option String)

namespace Listing

def type : Listing → ObjectType
  | tournaments .. => .tournament
  | leagues => .league
  | users .. => .user
  | decks _ => .deck

def lineType : Listing → String
  | tournaments .. => "tournament"
  | leagues => "league"
  | users .. => "user"
  | decks _ => "deck"

end Listing

def ratingField : RatingCategory → String
  | .constructedOnline => "constructed_online"
  | .constructedOffline => "constructed_offline"
  | .limitedOnline => "limited_online"
  | .limitedOffline => "limited_offline"

/-- `"full"->category->>'total' IS NOT NULL`. -/
def isRated (category : RatingCategory) (row : Access.Row) : Bool :=
  match field (computeFull row.type row.fullData) (ratingField category) with
  | .object entries => !(field entries "total").isNull
  | _ => false

/-- `jsonb_array_elements(t."api"->'players')->>'user_uid'`. -/
def apiPlayers (row : Access.Row) : List String :=
  match field ((api row).getD []) "players" with
  | .array items => items.filterMap fun
    | .object entries => (field entries "user_uid").asStr
    | _ => none
  | _ => []

/-- `v1.py:212`: the uids on the roster of a tournament. -/
def playedIn (c : Corpus) (tournamentUid : String) : List String :=
  (c.rows.filter fun t => t.uid = tournamentUid ∧ t.type = .tournament).flatMap apiPlayers

/-- A condition on a parameter that is not empty. -/
def narrowed (parameter : Option String) (condition : String → Bool) : Bool :=
  parameter.all fun value => value = "" || condition value

def Listing.keeps (c : Corpus) (row : Access.Row) : Listing → Bool
  | .tournaments country startAfter startBefore =>
    narrowed country (fun v => row.text "country" = some v)
      && narrowed startAfter (fun v => (row.text "start").any (v ≤ ·))
      && narrowed startBefore fun v => (row.text "start").any (· ≤ v)
  | .leagues => true
  | .users country category tournament =>
    narrowed country (fun v => row.text "country" = some v)
      && category.all (isRated · row)
      && narrowed tournament fun v => row.uid ∈ playedIn c v
  | .decks tournament => narrowed tournament fun v => row.text "tournament_uid" = some v

/-- The rows one batch of a listing is taken from (`v1.py:81`). -/
def visible (q : Listing) (c : Corpus) : List Access.Row :=
  c.rows.filter fun row => row.type = q.type ∧ (api row).isSome ∧ row.deletedAt = none ∧
    q.keeps c row

/-! ### Streams -/

def batchSize : ℕ := 250

/-- A line of a stream. -/
inductive Line where
  | header (generatedAt : String)
  | data (type : String) (body : Dict)
  | eof (count : ℕ)

/-- `v1.py:69`: the lines of batches, closed by the count once the last batch was read. -/
def dataLines {α : Type} (lineType : String) (generatedAt : String) (body : α → Dict)
    (batches : List (List α) × Bool) : List Line :=
  .header generatedAt :: (batches.1.flatten.map fun row => .data lineType (body row)) ++
    if batches.2 then [.eof (batches.1.map List.length).sum] else []

/-- `v1.py:50`: the batches of a listing, `corpora` being the table at each read. -/
def objectBatches (q : Listing) (corpora : List Corpus) : List (List Access.Row) × Bool :=
  Keyset.pages Access.Row.uid batchSize none (corpora.map (visible q))

def objectLines (q : Listing) (generatedAt : String) (corpora : List Corpus) : List Line :=
  dataLines q.lineType generatedAt (fun row => (api row).getD []) (objectBatches q corpora)

/-! ### Community links -/

/-- The items of `api->'community_links'`. -/
def apiLinks (row : Access.Row) : List JsonValue :=
  match field ((api row).getD []) "community_links" with
  | .array items => items
  | _ => []

def isEmptyArray : JsonValue → Bool
  | .array items => items.isEmpty
  | _ => false

def isHidden (link : Dict) : Bool := (field link "moderation").asStr = some "hidden"

/-- A link under its member and its place among the member's links. -/
structure LinkRow where
  owner : Access.Row
  idx : ℕ
  link : Dict

def LinkRow.key (l : LinkRow) : String ×ₗ ℕ := toLex (l.owner.uid, l.idx)

/-- The links of a member that are served, with their ordinality. -/
def linkRows (row : Access.Row) : List LinkRow :=
  if row.type = .user ∧ !isEmptyArray (field row.fullData "community_links") ∧ (api row).isSome
      ∧ row.deletedAt = none then
    ((apiLinks row).zipIdx 1).filterMap fun
      | (.object link, idx) => if isHidden link then none else some ⟨row, idx, link⟩
      | _ => none
  else []

/-- A line of `v1.py:304`: the country of the member where the link has none. -/
def LinkRow.body (l : LinkRow) : Dict :=
  let own := (api l.owner).getD []
  let country := if (field l.link "country").isNull then field own "country"
    else field l.link "country"
  [("vekn_id", field own "vekn_id"),
    ("link", .object (Fields.without ["country"] l.link ++ [("country", country)]))]

def linkBatches (corpora : List Corpus) : List (List LinkRow) × Bool :=
  Keyset.pages LinkRow.key batchSize none (corpora.map fun c => c.rows.flatMap linkRows)

def linkLines (generatedAt : String) (corpora : List Corpus) : List Line :=
  dataLines "community_link" generatedAt LinkRow.body (linkBatches corpora)

/-! ### Budgets -/

/-- `auth.py:87`. -/
structure Budget where
  perMinute : ℕ
  burst : ℕ

namespace Budget

variable (b : Budget)

/-- Requests a second. -/
def rate : ℚ := b.perMinute / 60

/-- What each client has spent, and when it last did. -/
abbrev Spent := String → Option (ℚ × ℚ)

/-- The excess of a client as of now, before it spends. -/
def excess (spent : Spent) (client : String) (now : ℚ) : ℚ :=
  match spent client with
  | some (excess, since) => max (-1) (excess - (now - since) * b.rate)
  | none => -1

/-- `auth.py:93`: the client spends, or is told how long to wait. -/
def spend (spent : Spent) (client : String) (now : ℚ) : Except ℤ Spent :=
  let excess := b.excess spent client now + 1
  if excess > b.burst then .error ⌈(excess - b.burst) / b.rate⌉
  else .ok (Function.update spent client (some (excess, now)))

end Budget

def lookup : Budget := ⟨600, 100⟩

def stream : Budget := ⟨20, 10⟩

/-- A request with a valid token: of a client, for a lookup or a stream. -/
structure Request where
  client : String
  streams : Bool
  now : ℚ

structure Budgets where
  lookups : Budget.Spent
  streamed : Budget.Spent

namespace Budgets

def start : Budgets := ⟨fun _ => none, fun _ => none⟩

/-- `auth.py:112`, `116`: a stream spends a lookup first. -/
def answer (s : Budgets) (r : Request) : Except ℤ Unit × Budgets :=
  match lookup.spend s.lookups r.client r.now with
  | .error wait => (.error wait, s)
  | .ok lookups =>
    if r.streams then
      match stream.spend s.streamed r.client r.now with
      | .error wait => (.error wait, { s with lookups })
      | .ok streamed => (.ok (), ⟨lookups, streamed⟩)
    else (.ok (), { s with lookups })

def after (s : Budgets) (requests : List Request) : Budgets :=
  requests.foldl (fun s r => (s.answer r).2) s

end Budgets

end Archon.PublicApi

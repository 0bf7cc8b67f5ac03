import Archon.Backend.Records

/-!
# Remapped tournaments (`_remap_uids_in_tournament`)

At go-online every string value of the submitted tournament that is a temporary uid is replaced,
wherever it stands; the keys are not. A state or a date replaced so no longer converts.
-/

namespace Archon.Backend
open Engine

/-! ### Every text of a document -/

section MapText

variable (f : String → String)

mutual

/-- `tournaments.py:2019`. -/
def mapText : JsonValue → JsonValue
  | .text s => .text (f s)
  | .array items => .array (mapTexts items)
  | .object entries => .object (mapEntries entries)
  | v => v

def mapTexts : List JsonValue → List JsonValue
  | [] => []
  | v :: vs => mapText v :: mapTexts vs

def mapEntries : List (String × JsonValue) → List (String × JsonValue)
  | [] => []
  | (k, v) :: es => (k, mapText v) :: mapEntries es

end

def remapSeat (s : Seat) : Seat := { s with playerUid := f s.playerUid, judgeUid := f s.judgeUid }

def remapOverride (o : ScoreOverride) : ScoreOverride := ⟨f o.judgeUid, f o.comment⟩

def remapTable (tb : Table) : Table :=
  { tb with
    seating := tb.seating.map (remapSeat f)
    override := tb.override.map (remapOverride f)
    organizedBy := tb.organizedBy.map f }

def remapFinals (tb : FinalsTable) : FinalsTable :=
  { tb with
    seating := tb.seating.map (remapSeat f)
    override := tb.override.map (remapOverride f)
    seedOrder := tb.seedOrder.map f }

def remapPlayer (p : Player) : Player :=
  { p with userUid := p.userUid.map f, displayName := p.displayName.map f }

def remapRaffle (r : RaffleDraw) : RaffleDraw :=
  ⟨f r.label, f r.pool, r.winners.map f, r.prizePromoUid.map f⟩

def remapDoc (t : Tournament) : Tournament :=
  { t with
    uid := t.uid.map f
    config := fun field => mapText f (t.config field)
    organizersUids := t.organizersUids.map f
    players := t.players.map (remapPlayer f)
    rounds := t.rounds.map fun round => round.map (remapTable f)
    finals := t.finals.map (remapFinals f)
    winner := f t.winner
    standings := t.standings.map fun s => { s with userUid := f s.userUid }
    raffles := t.raffles.map (remapRaffle f)
    promosDistributed := t.promosDistributed.map fun p => { p with promoUid := f p.promoUid }
    promoStockSourceUid := t.promoStockSourceUid.map f }

def remapOwned (o : ServerOwned) : ServerOwned :=
  { o with
    bannerPath := o.bannerPath.map f
    externalIds := o.externalIds.map fun e => (e.1, f e.2)
    checkinCode := f o.checkinCode
    eventCode := f o.eventCode
    twdaStatus := o.twdaStatus.map fun s => { s with reason := f s.reason, prUrl := f s.prUrl } }

def remapAnnouncement (a : Announcement) : Announcement :=
  { a with
    id := f a.id
    body := f a.body
    authorUid := f a.authorUid
    authorName := f a.authorName }

def remapTournament (t : StoredTournament) : StoredTournament :=
  { t with
    doc := remapDoc f t.doc
    owned := remapOwned f t.owned
    announcements := t.announcements.map (remapAnnouncement f) }

end MapText

/-! ### Texts that must not change -/

def tableStateText : TableState → String
  | .inProgress => "In Progress"
  | .finished => "Finished"
  | .invalid => "Invalid"
  | .cancelled => "Cancelled"

def paymentText : PaymentStatus → String
  | .pending => "Pending"
  | .paid => "Paid"
  | .refunded => "Refunded"
  | .cancelled => "Cancelled"

def twdaOutcomeText : TwdaOutcome → String
  | .submitted => "submitted"
  | .skipped => "skipped"
  | .failed => "failed"

/-- The dates and outcomes among the fields of the server. -/
def ServerOwned.fixedTexts (o : ServerOwned) : List String :=
  o.veknPushedAt.toList ++ o.veknEventAbsentAt.toList
    ++ o.twdaStatus.elim [] fun s => twdaOutcomeText s.outcome :: s.at_.toList

/-- The strings that convert to a state or a date: no member's uid does. -/
def StoredTournament.fixedTexts (t : StoredTournament) : List String :=
  t.doc.state.asStr :: t.doc.players.flatMap (fun p => [p.state.asStr, paymentText p.paymentStatus])
    ++ t.doc.rounds.flatMap (fun round => round.map fun tb => tableStateText tb.state)
    ++ (t.doc.finals.map fun tb => tableStateText tb.state).toList
    ++ t.owned.fixedTexts ++ t.announcements.map Announcement.createdAt ++ t.deletedAt.toList

/-- `_remap_uids_in_tournament` and the conversion that follows. -/
def remapped? (f : String → String) (t : StoredTournament) : Option StoredTournament :=
  if t.fixedTexts.all (fun s => f s == s) then some (remapTournament f t) else none

end Archon.Backend

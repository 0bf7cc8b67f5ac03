import Archon.Library.Fields
import Archon.Library.Tally
import Archon.Backend.UserRows

/-!
# Promo stock (`promo_stock.py`)

The stock of every holder is derived from two sources, the ledger of movements and the reports of
tournaments, and stored twice: under the promo, per holder, and under the member, per promo. A
dictionary is a list with one entry a key.
-/

namespace Archon.PromoStock
open Engine Backend UserRows CommunityLinks

/-! ### What is stored -/

/-- `models.py:984`: copies credited and copies remaining. -/
abbrev Holding := ℤ × ℤ

inductive LedgerKind where
  | intake | assignment | distribution
  deriving DecidableEq, Repr

/-- `models.py:999`, as far as the stock depends on it. -/
structure LedgerEntry where
  kind : LedgerKind
  promoUid : Uid
  qty : ℤ
  fromUid : Uid
  toUid : Option Uid
  deriving DecidableEq, Repr

/-- A row of `promos_distributed`, as the column holds it. -/
structure ReportRow where
  promoUid : Option Uid
  qty : Option ℤ
  deriving DecidableEq, Repr

/-- A tournament, as far as the stock depends on it. -/
structure PromoReport where
  deletedAt : Option Stamp
  stockSourceUid : Option Uid
  promosDistributed : List ReportRow

/-- `models.py:1035`, without the fields of the catalog. -/
structure PromoRow where
  uid : Uid
  modified : Stamp
  deletedAt : Option Stamp
  holdings : List (Uid × Holding)

structure StockStore where
  promos : List PromoRow
  users : List UserRow
  ledger : List LedgerEntry
  reports : List PromoReport

/-! ### Reading the sources -/

/-- `db.py:1955`: promo, holder and copies. -/
def getTournamentPromoAttributions (s : StockStore) (promoUids : List Uid) :
    List (Uid × Uid × ℤ) :=
  (s.reports.filter fun t => t.deletedAt = none).flatMap fun t =>
    match given t.stockSourceUid with
    | none => []
    | some source => t.promosDistributed.filterMap fun r =>
        (r.promoUid.filter (· ∈ promoUids)).map fun promo => (promo, source, r.qty.getD 0)

/-- `db.py:1978`. -/
def getUsersWithPromoStockKeys (s : StockStore) (promoUids : List Uid) : List Uid :=
  (s.users.filter fun u => u.deletedAt = none ∧ ∃ key ∈ u.promoStock.map Prod.fst,
    key ∈ promoUids).map fun u => u.uid

/-- `holdings`: the dictionary of each promo. -/
abbrev Holdings := Uid → List (Uid × Holding)

/-- What is added to the aggregate `hold` finds or starts. -/
def Holdings.hold (h : Holdings) (promo holder : Uid) (amount : Holding) : Holdings :=
  Function.update h promo (Tally.add (h promo) holder amount)

/-- `promo_stock.py:69-82`. -/
def countEntry (h : Holdings) (e : LedgerEntry) : Holdings :=
  if e.kind = .intake then h.hold e.promoUid e.fromUid (e.qty, e.qty)
  else
    let credited := if e.kind = .assignment then
        (given e.toUid).elim h fun assignee => h.hold e.promoUid assignee (e.qty, e.qty)
      else h
    credited.hold e.promoUid e.fromUid (0, -e.qty)

/-- `promo_stock.py:84-86`. -/
def countAttribution (h : Holdings) (a : Uid × Uid × ℤ) : Holdings := h.hold a.1 a.2.1 (0, -a.2.2)

/-- `promo_stock.py:59-86`. -/
def collected (s : StockStore) (targets : List Uid) : Holdings :=
  (getTournamentPromoAttributions s targets).foldl countAttribution
    ((s.ledger.filter fun e => e.promoUid ∈ targets).foldl countEntry fun _ => [])

/-! ### Writing the aggregates -/

/-- `promo_stock.py:90-100`: saved unless the dictionaries are equal. -/
def settlePromo (now : Stamp) (h : Holdings) (row : PromoRow) : PromoRow :=
  if row.holdings.Perm (h row.uid) then row
  else { row with holdings := h row.uid, modified := now }

/-- `user_stocks[user_uid]`, read for each of the promos. -/
def stocksOf (h : Holdings) (targets : List Uid) (holder : Uid) : List (Uid × Option ℤ) :=
  targets.map fun promo => (promo, (Fields.get (h promo) holder).map Prod.snd)

/-- The keys of `user_stocks`. -/
def stockedUsers (s : StockStore) (h : Holdings) (targets : List Uid) : List Uid :=
  (targets.flatMap fun promo => (h promo).map Prod.fst) ++ getUsersWithPromoStockKeys s targets

/-- `promo_stock.py:110-126`. -/
def settleUser (now : Stamp) (h : Holdings) (targets : List Uid) (row : UserRow) : UserRow :=
  (recomputePromoStock now (stocksOf h targets row.uid) row).elim row Saved.row

/-- `promo_stock.py:50-54`: the live promos asked for. -/
def targetUids (s : StockStore) (promoUids : Option (List Uid)) : List Uid :=
  ((s.promos.filter fun p => p.deletedAt = none).map PromoRow.uid).filter fun uid =>
    promoUids.all (uid ∈ ·)

/-- `promo_stock.py:49`, `_recompute`. The rows to save are read again by their uids, each the
row of one uid. -/
def recompute (now : Stamp) (promoUids : Option (List Uid)) (s : StockStore) : StockStore :=
  let targets := targetUids s promoUids
  if targets = [] then s
  else
    let h := collected s targets
    { s with
      promos := s.promos.map fun row => if row.uid ∈ targets then settlePromo now h row else row
      users := s.users.map fun row =>
        if row.uid ∈ stockedUsers s h targets then settleUser now h targets row else row }

end Archon.PromoStock

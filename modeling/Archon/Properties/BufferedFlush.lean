import Archon.Frontend.Sync

/-!
# A buffered catch-up against its items in order

`flushAllBuffers` writes the tombstones of a buffer after everything it saves. The server sends a
tombstone for a deck that left the member level and then the deck again in the overlay of its
owner; the flush loses it.
-/

namespace Archon.Frontend
open KeyedWrites
open Archon.Stream (ObjectType ObjectKey streamTypes)

/-- The write an item makes to the stores. -/
def SyncItem.toWrite (item : SyncItem) : Write ObjectKey SyncItem :=
  ⟨item.key, if item.isTombstone = true then none else some item⟩

/-- The items that are applied, the gate of the tournaments held offline being passed in order. -/
def admitted (device : Device) : List String → List SyncItem → List SyncItem
  | _, [] => []
  | offline, item :: items =>
    match admitItem device offline item with
    | none => admitted device offline items
    | some offline' => item :: admitted device offline' items

/-- The tournaments held offline after the items. -/
def offlineAfter (device : Device) : List String → List SyncItem → List String
  | offline, [] => offline
  | offline, item :: items => offlineAfter device
    ((admitItem device offline item).getD offline) items

/-- No item of an object follows a tombstone of it, save another tombstone. -/
def TombstonesStay (device : Device) (s : LocalStores) (items : List SyncItem) : Prop :=
  RemovalsStay ((admitted device s.offline items).map SyncItem.toWrite)

section BufferedFlush

variable {device : Device} {s : LocalStores} {items : List SyncItem} {item : SyncItem}
variable {offline : List String} {rows : ObjectKey → Option SyncItem} {type : ObjectType}

theorem removes_toWrite : item.toWrite.removes = item.isTombstone := by
  cases h : item.isTombstone <;> simp [SyncItem.toWrite, Write.removes, h]

theorem apply_toWrite : apply rows item.toWrite =
    if item.isTombstone = true then deleteRow rows item else putRow rows item := by
  unfold apply SyncItem.toWrite
  split <;> rfl

/-! ### In order -/

theorem applyInOrder_eq : applyInOrder device s items =
    ⟨applyAll s.rows ((admitted device s.offline items).map SyncItem.toWrite),
      offlineAfter device s.offline items⟩ := by
  induction items generalizing s with
  | nil => rfl
  | cons item items ih =>
    have hstep : applyInOrder device s (item :: items) =
        applyInOrder device (applyItem device s item) items := rfl
    rw [hstep, ih, applyItem, admitted, offlineAfter]
    cases admitItem device s.offline item with
    | none => rfl
    | some offline =>
      simp only [Option.getD_some, List.map_cons]
      rw [← apply_toWrite]
      rfl

/-! ### One buffer -/

theorem flushLoop_eq (l : FlushLoop) : items.foldl (FlushLoop.add device) l =
    ⟨offlineAfter device l.offline items,
      l.toSave ++ (admitted device l.offline items).filter (fun item => !item.isTombstone),
      l.toDelete ++ (admitted device l.offline items).filter SyncItem.isTombstone⟩ := by
  induction items generalizing l with
  | nil => simp [offlineAfter, admitted]
  | cons item items ih =>
    rw [List.foldl_cons, ih, FlushLoop.add, admitted, offlineAfter]
    cases admitItem device l.offline item with
    | none => rfl
    | some offline =>
      cases htomb : item.isTombstone <;> simp [htomb]

theorem foldl_putRow (h : ∀ item ∈ items, item.isTombstone = false) :
    items.foldl putRow rows = applyAll rows (items.map SyncItem.toWrite) := by
  induction items generalizing rows with
  | nil => rfl
  | cons item items ih =>
    rw [List.forall_mem_cons] at h
    rw [List.foldl_cons, ih h.2, List.map_cons]
    have hput : putRow rows item = apply rows item.toWrite := by
      rw [apply_toWrite, h.1]
      rfl
    rw [hput]
    rfl

theorem foldl_deleteRow (h : ∀ item ∈ items, item.isTombstone = true) :
    items.foldl deleteRow rows = applyAll rows (items.map SyncItem.toWrite) := by
  induction items generalizing rows with
  | nil => rfl
  | cons item items ih =>
    rw [List.forall_mem_cons] at h
    rw [List.foldl_cons, ih h.2, List.map_cons]
    have hdelete : deleteRow rows item = apply rows item.toWrite := by
      rw [apply_toWrite, h.1]
      rfl
    rw [hdelete]
    rfl

theorem removalsLast_map : removalsLast (items.map SyncItem.toWrite) =
    (items.filter fun item => !item.isTombstone).map SyncItem.toWrite ++
      (items.filter SyncItem.isTombstone).map SyncItem.toWrite := by
  rw [removalsLast, List.filter_map, List.filter_map]
  congr 2
  · exact List.filter_congr fun item _ => by rw [Function.comp, removes_toWrite]
  · exact List.filter_congr fun item _ => by rw [Function.comp, removes_toWrite]

theorem flushBuffer_eq : flushBuffer device s items =
    ⟨applyAll s.rows (removalsLast ((admitted device s.offline items).map SyncItem.toWrite)),
      offlineAfter device s.offline items⟩ := by
  unfold flushBuffer
  extract_lets l
  have hl : l = _ := flushLoop_eq ⟨s.offline, [], []⟩
  rw [hl, List.nil_append, List.nil_append, foldl_putRow, foldl_deleteRow, removalsLast_map,
    applyAll_append]
  · exact fun item hitem => (List.mem_filter.1 hitem).2
  · exact fun item hitem => by simpa using (List.mem_filter.1 hitem).2

/-! ### Every type -/

theorem admitItem_of_ne (h : item.type ≠ .tournament) :
    admitItem device offline item = some offline := by
  unfold admitItem
  rw [if_neg fun hgate => h hgate.1]

/-- The items of one type, in order. -/
def ofType (type : ObjectType) (items : List SyncItem) : List SyncItem :=
  items.filter fun item => decide (item.type = type)

theorem ofType_cons : ofType type (item :: items) =
    if item.type = type then item :: ofType type items else ofType type items := by
  simp [ofType, List.filter_cons]

theorem admitted_of_ne (h : type ≠ .tournament) :
    admitted device offline (ofType type items) = ofType type items ∧
      offlineAfter device offline (ofType type items) = offline := by
  induction items with
  | nil => exact ⟨rfl, rfl⟩
  | cons item items ih =>
    rw [ofType_cons]
    split_ifs with htype
    · have hitem : admitItem device offline item = some offline :=
        admitItem_of_ne (by rw [htype]; exact h)
      rw [admitted, offlineAfter, hitem]
      exact ⟨congrArg (item :: ·) ih.1, ih.2⟩
    · exact ih

theorem ofType_admitted_of_ne (h : type ≠ .tournament) :
    ofType type (admitted device offline items) = ofType type items := by
  induction items generalizing offline with
  | nil => rfl
  | cons item items ih =>
    rw [admitted, ofType_cons]
    cases hitem : admitItem device offline item with
    | none =>
      -- only a tournament is skipped
      have htype : item.type ≠ type := by
        rintro rfl
        rw [admitItem_of_ne h] at hitem
        cases hitem
      rw [if_neg htype]
      exact ih
    | some offline' =>
      simp only [ofType_cons, ih]

theorem ofType_tournament : ofType .tournament (admitted device offline items) =
      admitted device offline (ofType .tournament items) ∧
    offlineAfter device offline (ofType .tournament items) = offlineAfter device offline items := by
  induction items generalizing offline with
  | nil => exact ⟨rfl, rfl⟩
  | cons item items ih =>
    by_cases htype : item.type = .tournament
    · rw [ofType_cons, if_pos htype, admitted, offlineAfter, admitted, offlineAfter]
      cases admitItem device offline item with
      | none => exact ih
      | some offline' =>
        simp only [ofType_cons, if_pos htype, Option.getD_some]
        exact ⟨congrArg (item :: ·) ih.1, ih.2⟩
    · rw [ofType_cons, if_neg htype, admitted, offlineAfter, admitItem_of_ne htype]
      simp only [ofType_cons, if_neg htype, Option.getD_some]
      exact ih

theorem toWrite_ofType : (ofType type items).map SyncItem.toWrite =
    (items.map SyncItem.toWrite).filter fun w => decide (w.key.1 = type) := by
  rw [ofType, List.filter_map]
  rfl

theorem flushAllBuffers_eq : flushAllBuffers device s items =
    ⟨applyAll s.rows (removalsLastBy Prod.fst streamTypes
        ((admitted device s.offline items).map SyncItem.toWrite)),
      offlineAfter device s.offline items⟩ := by
  have hother : ∀ (type : ObjectType) (x : LocalStores) (offline : List String),
      type ≠ .tournament → flushBuffer device x (ofType type items) =
        ⟨applyAll x.rows (removalsLast (((admitted device offline items).map
          SyncItem.toWrite).filter fun w => decide (w.key.1 = type))), x.offline⟩ := by
    intro type x offline h
    rw [flushBuffer_eq, (admitted_of_ne h).1, (admitted_of_ne h).2, ← toWrite_ofType,
      ofType_admitted_of_ne h]
  have htournament : ∀ x : LocalStores, flushBuffer device x (ofType .tournament items) =
      ⟨applyAll x.rows (removalsLast (((admitted device x.offline items).map
        SyncItem.toWrite).filter fun w => decide (w.key.1 = .tournament))),
        offlineAfter device x.offline items⟩ := by
    intro x
    rw [flushBuffer_eq, ← ofType_tournament.1, ofType_tournament.2, toWrite_ofType]
  have hflush : flushAllBuffers device s items = streamTypes.foldl (fun x type =>
      flushBuffer device x (ofType type items)) s := rfl
  rw [hflush]
  simp only [streamTypes, List.foldl_cons, List.foldl_nil, htournament,
    hother _ _ s.offline (by decide : ObjectType.user ≠ .tournament),
    hother _ _ s.offline (by decide : ObjectType.sanction ≠ .tournament),
    hother _ _ s.offline (by decide : ObjectType.deck ≠ .tournament),
    hother _ _ s.offline (by decide : ObjectType.league ≠ .tournament),
    hother _ _ s.offline (by decide : ObjectType.promo ≠ .tournament)]
  simp only [removalsLastBy, List.flatMap_cons, List.flatMap_nil, List.append_nil, applyAll_append]

/-- The flush leaves what the items applied in order leave exactly when no object comes again
after its tombstone. -/
theorem flush_eq_inOrder_iff (device : Device) (s : LocalStores) (items : List SyncItem) :
    flushAllBuffers device s items = applyInOrder device s items ↔
      TombstonesStay device s items := by
  have htypes : ∀ key : ObjectKey, key.1 ∈ streamTypes := by
    intro key
    cases key.1 <;> decide
  rw [flushAllBuffers_eq, applyInOrder_eq, applyAll_removalsLastBy htypes, LocalStores.mk.injEq,
    and_iff_left rfl]
  exact removalsLast_eq_iff

/-! ### An overlay after a tombstone -/

/-- A deck of the viewer, as the overlay sends it. -/
def ownDeck : SyncItem := ⟨.deck, "deck", none, false, none, "full"⟩

/-- The tombstone the catch-up sends for a deck without a member projection (`db.py:594`). -/
def deckTombstone : SyncItem :=
  { ownDeck with deletedAt := some "2026-05-02T10:00:00", content := "" }

def phone : Device := ⟨"phone", []⟩

/-- The flush deletes the viewer's own deck, which the overlay sent after the tombstone. -/
theorem ownDeck_lost : ¬∀ (device : Device) (s : LocalStores) (items : List SyncItem),
    flushAllBuffers device s items = applyInOrder device s items := by
  intro hall
  have heq := hall phone ⟨fun _ => none, []⟩ [deckTombstone, ownDeck]
  have hrow := congrArg (fun s => s.rows ownDeck.key) heq
  have hlost : (flushAllBuffers phone ⟨fun _ => none, []⟩ [deckTombstone, ownDeck]).rows
      ownDeck.key = none := by decide
  have hkept : (applyInOrder phone ⟨fun _ => none, []⟩ [deckTombstone, ownDeck]).rows
      ownDeck.key = some ownDeck := by decide
  rw [hlost, hkept] at hrow
  cases hrow

end BufferedFlush

end Archon.Frontend

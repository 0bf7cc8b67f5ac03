import Mathlib.Data.List.Induction
import Archon.Backend.Stream

/-!
# The sync cursor

A client whose cursor is at or past the stamp of a write it may see should hold that write or a
newer one, so that a reconnect from the cursor loses nothing. Stamps are the starts of
transactions and the stream follows commits, broadcasts and the places of a queue, so the two
orders differ: a frame that takes the place of an older one overtakes what stands behind it.
-/

namespace Archon.Stream

/-- The object of a version. -/
def keyOf (log : List Write) (n : ℕ) : Option ObjectKey := (log[n]?).map fun w => w.key

/-- The client's copy is this version of the object or a newer one. -/
def Holds (log : List Write) (copies : ObjectKey → Option ℕ) (n : ℕ) : Prop :=
  ∃ key ∈ keyOf log n, ∃ m ∈ copies key, n ≤ m

instance (log : List Write) (copies : ObjectKey → Option ℕ) (n : ℕ) :
    Decidable (Holds log copies n) := by
  unfold Holds
  infer_instance

/-- The viewer may see the version, as every later one of the object. -/
def MayView (level : DataLevel) (log : List Write) (n : ℕ) : Prop :=
  ∀ key ∈ keyOf log n, ∀ w ∈ log.drop n, w.key = key → w.shown level = true

instance (level : DataLevel) (log : List Write) (n : ℕ) : Decidable (MayView level log n) := by
  unfold MayView
  infer_instance

/-- Every committed write the viewer may see that is stamped at or before the cursor is held. -/
def CursorSound (level : DataLevel) (s : State) : Prop :=
  ∀ n < s.log.length, MayView level s.log n → ∀ cursor ∈ s.client.cursor,
    stampOf s.log n ≤ cursor → Holds s.log s.client.copies n

instance (level : DataLevel) (s : State) : Decidable (CursorSound level s) := by
  unfold CursorSound
  infer_instance

/-! ### The condition -/

/-- The frames not yet delivered: to be broadcast, waiting, replaced or refused by the queue of
this connection, or on the wire. -/
def framesOf (s : State) (c : Connection) : List ℕ :=
  s.pending ++ c.queue.map Prod.snd ++ c.lost ++ c.frames

/-- The item of the object that is flushed last. -/
def lastOf (log : List Write) (items : List ℕ) (key : ObjectKey) : Option ℕ :=
  items.reverse.find? fun n => decide (keyOf log n = some key)

/-- No delivery moves the cursor past a write that is still on its way: at `sync_complete` what is
stamped at or before its timestamp is held or flushed with it; a frame is no older than the
client's copy, and what else is stamped at or before the cursor it sets is held. -/
def Arrives (level : DataLevel) (s : State) (c : Connection) : Prop :=
  match c.rows, c.complete, c.frames with
  | _ :: _, _, _ => True
  | [], some t, _ => ∀ top ∈ t, ∀ n ∈ s.client.buffer ++ framesOf s c, MayView level s.log n →
      stampOf s.log n ≤ top → ∃ key ∈ keyOf s.log n,
        ∃ m ∈ (lastOf s.log (flushOrder level s.log s.client.buffer) key).or (s.client.copies key),
          n ≤ m
  | [], none, n :: _ => (∀ key ∈ keyOf s.log n, ∀ m ∈ s.client.copies key, m ≤ n) ∧
      ∀ m ∈ framesOf s c, MayView level s.log m →
        stampOf s.log m ≤ raised s.client.cursor (stampOf s.log n) →
          (keyOf s.log m = keyOf s.log n ∧ m ≤ n) ∨ Holds s.log s.client.copies m
  | [], none, [] => True

instance (level : DataLevel) (s : State) (c : Connection) : Decidable (Arrives level s c) := by
  unfold Arrives
  split <;> infer_instance

/-- A commit the viewer may see started after the client's cursor, and a delivery finds nothing
that it would leave behind. -/
def KeepsCursor (level : DataLevel) (s : State) (i : Input) : Prop :=
  match i with
  | .commit k drafts => ∀ start ∈ s.started[k]?, ∀ cursor ∈ s.client.cursor, ∀ d ∈ drafts,
      d.shown level = true → cursor < start
  | .deliver => ∀ c ∈ s.conn, Arrives level s c
  | _ => True

instance (level : DataLevel) (s : State) (i : Input) : Decidable (KeepsCursor level s i) := by
  unfold KeepsCursor
  split <;> infer_instance

section SyncCursor

variable {level : DataLevel} {log log' : List Write} {s s' : State} {c c' : Connection} {n m : ℕ}
variable {w w' : Write} {key : ObjectKey} {copies : ObjectKey → Option ℕ}

/-! ### The log -/

theorem keyOf_eq_some : keyOf log n = some key ↔ ∃ w, log[n]? = some w ∧ w.key = key :=
  Option.map_eq_some_iff

theorem keyOf_of (h : log[n]? = some w) : keyOf log n = some w.key := by
  rw [keyOf, h, Option.map_some]

theorem stampOf_of (h : log[n]? = some w) : stampOf log n = w.modifiedAt := by
  rw [stampOf, h, Option.elim_some]

theorem lt_of_keyOf (h : keyOf log n = some key) : n < log.length := by
  obtain ⟨w, hw, -⟩ := keyOf_eq_some.1 h
  exact (List.getElem?_eq_some_iff.1 hw).1

theorem mem_drop_iff : w ∈ log.drop n ↔ ∃ m, n ≤ m ∧ log[m]? = some w := by
  rw [List.mem_iff_getElem?]
  simp only [List.getElem?_drop]
  constructor
  · rintro ⟨k, hk⟩
    exact ⟨n + k, by omega, hk⟩
  · rintro ⟨m, hm, hw⟩
    exact ⟨m - n, by rwa [Nat.add_sub_cancel' hm]⟩

theorem MayView.later (h : MayView level log n) (hkey : keyOf log m = keyOf log n) (hm : n ≤ m) :
    MayView level log m := by
  intro key hk w hw
  rw [hkey] at hk
  obtain ⟨k, hk', hw⟩ := mem_drop_iff.1 hw
  exact h key hk w (mem_drop_iff.2 ⟨k, by omega, hw⟩)

theorem MayView.shown (h : MayView level log n) (hw : log[n]? = some w) : w.shown level = true :=
  h w.key (keyOf_of hw) w (mem_drop_iff.2 ⟨n, le_rfl, hw⟩) rfl

theorem Holds.earlier (h : Holds log copies m) (hkey : keyOf log m = keyOf log n) (hn : n ≤ m) :
    Holds log copies n := by
  obtain ⟨key, hk, k, hcopy, hmk⟩ := h
  exact ⟨key, hkey ▸ hk, k, hcopy, by omega⟩

theorem isCurrent_iff : isCurrent log n = true ↔
    ∃ w, log[n]? = some w ∧ ∀ m w', n < m → log[m]? = some w' → w'.key ≠ w.key := by
  unfold isCurrent
  cases hdrop : log.drop n with
  | nil =>
    have hnone : log[n]? = none := by
      rw [List.getElem?_eq_none_iff, ← List.drop_eq_nil_iff, hdrop]
    simp [hnone]
  | cons w later =>
    have hw : log[n]? = some w := by
      have := congrArg (fun l => l[0]?) hdrop
      simpa using this
    have hlater : later = log.drop (n + 1) := by
      rw [← List.tail_drop, hdrop, List.tail_cons]
    simp only [List.all_eq_true, bne_iff_ne, hw, Option.some.injEq, exists_eq_left']
    constructor
    · intro h m w' hm hw'
      exact h w' (hlater ▸ mem_drop_iff.2 ⟨m, hm, hw'⟩)
    · intro h w' hw'
      obtain ⟨m, hm, hw'⟩ := mem_drop_iff.1 (hlater ▸ hw')
      exact h m w' hm hw'

theorem le_of_isCurrent (h : isCurrent log m = true) (hkey : keyOf log n = keyOf log m) :
    n ≤ m := by
  by_contra hlt
  obtain ⟨w, hw, hlast⟩ := isCurrent_iff.1 h
  rw [keyOf_of hw] at hkey
  obtain ⟨w', hw', hk⟩ := keyOf_eq_some.1 hkey
  exact hlast n w' (by omega) hw' hk

theorem exists_current (hw : log[n]? = some w) :
    ∃ m w', n ≤ m ∧ log[m]? = some w' ∧ w'.key = w.key ∧ isCurrent log m = true := by
  induction hd : log.length - n using Nat.strong_induction_on generalizing n w with
  | h d ih =>
    by_cases hcur : isCurrent log n = true
    · exact ⟨n, w, le_rfl, hw, rfl, hcur⟩
    · rw [isCurrent_iff] at hcur
      push Not at hcur
      obtain ⟨m, w', hm, hw', hkey⟩ := hcur w hw
      have hlt : m < log.length := (List.getElem?_eq_some_iff.1 hw').1
      obtain ⟨k, w'', hk, hw'', hkey', hcur'⟩ := ih (log.length - m) (by omega) hw' rfl
      exact ⟨k, w'', by omega, hw'', hkey'.trans hkey, hcur'⟩

/-! ### The flush -/

theorem applyCopy_of (hw : keyOf log n = some key) (k : ObjectKey) :
    applyCopy log copies n k = if key = k then some n else copies k := by
  obtain ⟨w, hget, rfl⟩ := keyOf_eq_some.1 hw
  rw [applyCopy, hget]
  by_cases hk : w.key = k
  · subst hk
    simp
  · simp [hk, Function.update_of_ne (Ne.symm hk)]

theorem foldl_applyCopy (items : List ℕ) (key : ObjectKey) :
    (items.foldl (applyCopy log) copies) key = (lastOf log items key).or (copies key) := by
  induction items using List.reverseRec with
  | nil => rfl
  | append_singleton items n ih =>
    rw [List.foldl_append, List.foldl_cons, List.foldl_nil, lastOf, List.reverse_append,
      List.reverse_singleton, List.singleton_append, List.find?_cons]
    cases hk : keyOf log n with
    | none =>
      have hnone : log[n]? = none := by simpa [keyOf] using hk
      rw [applyCopy, hnone]
      simpa [lastOf] using ih
    | some k =>
      rw [applyCopy_of hk]
      by_cases hkey : k = key
      · simp [hkey]
      · simpa [lastOf, hkey] using ih

theorem mem_flushOrder {buffer : List ℕ} (h : n ∈ flushOrder level log buffer) : n ∈ buffer := by
  obtain ⟨type, -, h⟩ := List.mem_flatMap.1 h
  rcases List.mem_append.1 h with h | h <;>
    exact (List.mem_filter.1 (List.mem_filter.1 h).1).1

theorem lastOf_eq_some {items : List ℕ} (h : lastOf log items key = some n) :
    n ∈ items ∧ keyOf log n = some key :=
  ⟨List.mem_reverse.1 (List.mem_of_find?_eq_some h), by simpa using List.find?_some h⟩

/-! ### The invariant -/

/-- The catch-up is not over for the client: `sync_complete` is still to be delivered. -/
def Connection.syncing (c : Connection) : Prop := c.live = false ∨ c.complete ≠ none

/-- The rows streamed on this connection and not flushed. -/
def rowsOf (s : State) (c : Connection) : List ℕ := s.client.buffer ++ c.rows

/-- The version, or a newer one, is in a row, or in a frame that no cursor passes before. -/
def OnWay (s : State) (c : Connection) (n : ℕ) : Prop :=
  ∃ m, n ≤ m ∧ keyOf s.log m = keyOf s.log n ∧ (m ∈ rowsOf s c ∨ (m ∈ framesOf s c ∧
    (stampOf s.log m ≤ stampOf s.log n ∨
      (c.syncing ∧ ∃ t ∈ c.newest, stampOf s.log m ≤ t))))

/-- The catch-up has not come to the row: its type waits, or it is further on in its type. -/
def Connection.ahead (c : Connection) (w : Write) : Prop :=
  c.live = false ∧ w.key.1 ∈ c.types ∧
    if c.types.head? = some w.key.1 then c.past w = true
    else c.since.all (fun t => decide (t < w.modifiedAt)) = true

/-- The row of the object is still to be streamed. -/
def ToFetch (s : State) (c : Connection) (n : ℕ) : Prop :=
  ∃ m w, n ≤ m ∧ keyOf s.log m = keyOf s.log n ∧ s.log[m]? = some w ∧
    isCurrent s.log m = true ∧ c.ahead w

/-- What holds of an open connection. -/
structure ConnInv (level : DataLevel) (s : State) (c : Connection) : Prop where
  valid : ∀ n ∈ rowsOf s c ++ framesOf s c, n < s.log.length
  notYet : c.live = false → c.complete = none ∧ c.frames = []
  done : c.live = true → c.types = [] ∧ (c.complete = none → rowsOf s c = [])
  complete : ∀ t ∈ c.complete, t = c.newest
  newest : ∀ n ∈ rowsOf s c, ∃ t ∈ c.newest, stampOf s.log n ≤ t
  last : ∀ place ∈ c.last, ∃ t ∈ c.newest, (ofLex place).1 ≤ t
  since : c.live = false → c.since = s.client.cursor
  fresh : ∀ n ∈ rowsOf s c, ∀ key ∈ keyOf s.log n, ∀ m ∈ s.client.copies key, m ≤ n
  covered : ∀ n < s.log.length, MayView level s.log n →
    Holds s.log s.client.copies n ∨ OnWay s c n ∨ ToFetch s c n

/-- The invariant of the runs that keep the condition. -/
structure StreamInv (level : DataLevel) (s : State) : Prop where
  sound : CursorSound level s
  copies : ∀ key, ∀ m ∈ s.client.copies key, keyOf s.log m = some key
  pending : ∀ n ∈ s.pending, n < s.log.length
  buffer : s.conn = none → s.client.buffer = []
  conn : ∀ c ∈ s.conn, ConnInv level s c

/-! ### Deliveries -/

theorem Holds.mono {copies' : ObjectKey → Option ℕ}
    (hcopies : ∀ key, ∀ m ∈ copies key, ∃ m' ∈ copies' key, m ≤ m') (h : Holds log copies n) :
    Holds log copies' n := by
  obtain ⟨key, hkey, m, hm, hnm⟩ := h
  obtain ⟨m', hm', hle⟩ := hcopies key m hm
  exact ⟨key, hkey, m', hm', hnm.trans hle⟩

theorem flush_copies (client : Client) (key : ObjectKey) :
    (client.flush level log).copies key =
      (lastOf log (flushOrder level log client.buffer) key).or (client.copies key) :=
  foldl_applyCopy _ _

theorem flush_valid {client : Client}
    (h : ∀ key, ∀ m ∈ client.copies key, keyOf log m = some key) :
    ∀ key, ∀ m ∈ (client.flush level log).copies key, keyOf log m = some key := by
  intro key m hm
  rw [Option.mem_def, flush_copies, Option.or_eq_some_iff] at hm
  rcases hm with hlast | ⟨-, hm⟩
  · exact (lastOf_eq_some hlast).2
  · exact h key m hm

theorem flush_mono {client : Client}
    (h : ∀ n ∈ client.buffer, ∀ key ∈ keyOf log n, ∀ m ∈ client.copies key, m ≤ n) :
    ∀ key, ∀ m ∈ client.copies key, ∃ m' ∈ (client.flush level log).copies key, m ≤ m' := by
  intro key m hm
  simp only [flush_copies]
  cases hlast : lastOf log (flushOrder level log client.buffer) key with
  | none => exact ⟨m, hm, le_rfl⟩
  | some r =>
    obtain ⟨hr, hkey⟩ := lastOf_eq_some hlast
    exact ⟨r, rfl, h r (mem_flushOrder hr) key hkey m hm⟩

theorem StreamInv.drop (h : StreamInv level s) (hc : s.conn = some c) :
    StreamInv level { s with conn := none, client := s.client.flush level s.log } where
  sound n hn hview cursor hcursor hstamp := by
    refine (h.sound n hn hview cursor hcursor hstamp).mono (flush_mono fun m hm => ?_)
    exact (h.conn c hc).fresh m (List.mem_append_left _ hm)
  copies := flush_valid h.copies
  pending := h.pending
  buffer _ := rfl
  conn _ hnone := by cases hnone

theorem covered_connect (h : StreamInv level s) (hn : n < s.log.length)
    (hview : MayView level s.log n) :
    Holds s.log s.client.copies n ∨ ToFetch s (Connection.start s.client.cursor) n := by
  obtain ⟨w, hw⟩ : ∃ w, s.log[n]? = some w := ⟨_, List.getElem?_eq_getElem hn⟩
  obtain ⟨m, w', hnm, hw', hkey, hcur⟩ := exists_current hw
  have hsame : keyOf s.log m = keyOf s.log n := by rw [keyOf_of hw', keyOf_of hw, hkey]
  by_cases hpast : s.client.cursor.all (fun t => decide (t < w'.modifiedAt)) = true
  · refine .inr ⟨m, w', hnm, hsame, hw', hcur, rfl, ?_, ?_⟩
    · cases w'.key.1 <;> simp [Connection.start, streamTypes]
    · split_ifs <;> exact hpast
  · cases hcursor : s.client.cursor with
    | none => simp [hcursor] at hpast
    | some t =>
      have hle : stampOf s.log m ≤ t := by
        rw [stampOf_of hw']
        simpa [hcursor] using hpast
      have hm : m < s.log.length := (List.getElem?_eq_some_iff.1 hw').1
      exact .inl ((h.sound m hm (hview.later hsame hnm) t hcursor hle).earlier hsame hnm)

theorem StreamInv.connect (h : StreamInv level s) (hc : s.conn = none) :
    StreamInv level { s with conn := some (Connection.start s.client.cursor) } where
  sound := h.sound
  copies := h.copies
  pending := h.pending
  buffer hnone := by cases hnone
  conn c' hc' := by
    obtain rfl := Option.some.inj hc'
    have hrows : rowsOf { s with conn := some (Connection.start s.client.cursor) }
        (Connection.start s.client.cursor) = [] := by
      simp [rowsOf, Connection.start, h.buffer hc]
    have hframes : framesOf { s with conn := some (Connection.start s.client.cursor) }
        (Connection.start s.client.cursor) = s.pending := by
      simp [framesOf, Connection.start]
    exact {
      valid := by
        rw [hrows, hframes]
        exact h.pending
      notYet := fun _ => ⟨rfl, rfl⟩
      done := by
        intro hlive
        cases hlive
      complete := by
        intro t ht
        cases ht
      newest := by simp [hrows]
      last := by
        intro place hplace
        cases hplace
      since := fun _ => rfl
      fresh := by simp [hrows]
      covered := fun n hn hview => (covered_connect h hn hview).imp_right .inr }

/-! ### Frames on their way -/

theorem ConnInv.reframe (h : ConnInv level s c) {pending : List ℕ} {conn : Option Connection}
    {queue : List (ObjectKey × ℕ)} {closed : Bool} {lost frames : List ℕ}
    (hlive : c.live = false → frames = [])
    (hframes : ∀ m, m ∈ pending ++ queue.map Prod.snd ++ lost ++ frames ↔ m ∈ framesOf s c) :
    ConnInv level { s with pending, conn } { c with queue, closed, lost, frames } where
  valid n hn := by
    rcases List.mem_append.1 hn with hn | hn
    · exact h.valid n (List.mem_append_left _ hn)
    · exact h.valid n (List.mem_append_right _ ((hframes n).1 hn))
  notYet hl := ⟨(h.notYet hl).1, hlive hl⟩
  done := h.done
  complete := h.complete
  newest := h.newest
  last := h.last
  since := h.since
  fresh := h.fresh
  covered n hn hview := by
    rcases h.covered n hn hview with hheld | ⟨m, hnm, hkey, hway⟩ | hfetch
    · exact .inl hheld
    · exact .inr (.inl ⟨m, hnm, hkey, hway.imp_right fun hm => ⟨(hframes m).2 hm.1, hm.2⟩⟩)
    · exact .inr (.inr hfetch)

theorem enqueue_eq (c : Connection) (key : ObjectKey) (n : ℕ) :
    ∃ queue closed lost, c.enqueue key n = { c with queue, closed, lost } ∧
      ∀ m, m ∈ queue.map Prod.snd ++ lost ↔ m = n ∨ m ∈ c.queue.map Prod.snd ++ c.lost := by
  have hput : ∀ m, m ∈ (Coalesce.put key n c.queue).map Prod.snd →
      m = n ∨ m ∈ c.queue.map Prod.snd := by
    intro m hm
    obtain ⟨x, hx, rfl⟩ := List.mem_map.1 hm
    exact (Coalesce.mem_of_mem_put hx).imp (fun h => by rw [h])
      (List.mem_map_of_mem (f := Prod.snd))
  have hself : n ∈ (Coalesce.put key n c.queue).map Prod.snd :=
    List.mem_map_of_mem (f := Prod.snd) (Coalesce.mem_put_self (k := key))
  have hkept : ∀ m ∈ c.queue.map Prod.snd, m ∈ (Coalesce.put key n c.queue).map Prod.snd ∨
      Coalesce.waiting key c.queue = some m := by
    intro m hm
    obtain ⟨x, hx, rfl⟩ := List.mem_map.1 hm
    exact (Coalesce.mem_put_of_mem hx).imp_left (List.mem_map_of_mem (f := Prod.snd))
  have hrefused : ∀ m, m ∈ c.queue.map Prod.snd ++ (c.lost ++ [n]) ↔
      m = n ∨ m ∈ c.queue.map Prod.snd ++ c.lost := by
    intro m
    simp only [List.mem_append, List.mem_singleton]
    tauto
  unfold Connection.enqueue
  split
  · exact ⟨c.queue, c.closed, _, rfl, hrefused⟩
  · split
    · rename_i old hold
      refine ⟨_, c.closed, _, rfl, fun m => ?_⟩
      have hold' : old ∈ c.queue.map Prod.snd :=
        List.mem_map_of_mem (f := Prod.snd) (Coalesce.mem_of_waiting hold)
      have hreplaced : m ∈ c.queue.map Prod.snd →
          m ∈ (Coalesce.put key n c.queue).map Prod.snd ∨ m = old := fun hm =>
        (hkept m hm).imp_right fun h => Option.some.inj (h.symm.trans hold)
      have hback := hput m
      simp only [List.mem_append, List.mem_singleton]
      constructor
      · rintro (hm | hm | rfl)
        · exact (hback hm).imp_right .inl
        · exact .inr (.inr hm)
        · exact .inr (.inl hold')
      · rintro (rfl | hm | hm)
        · exact .inl hself
        · exact (hreplaced hm).imp_right .inr
        · exact .inr (.inl hm)
    · rename_i hnone
      split
      · exact ⟨c.queue, true, _, rfl, hrefused⟩
      · refine ⟨_, c.closed, c.lost, rfl, fun m => ?_⟩
        have hkept' : m ∈ c.queue.map Prod.snd → m ∈ (Coalesce.put key n c.queue).map Prod.snd :=
          fun hm => (hkept m hm).resolve_right (by simp [hnone])
        have hback := hput m
        simp only [List.mem_append]
        constructor
        · rintro (hm | hm)
          · exact (hback hm).imp_right .inl
          · exact .inr (.inr hm)
        · rintro (rfl | hm | hm)
          · exact .inl hself
          · exact .inl (hkept' hm)
          · exact .inr hm

theorem mem_eraseIdx_or {l : List ℕ} {k : ℕ} (h : l[k]? = some n) :
    m ∈ l ↔ m = n ∨ m ∈ l.eraseIdx k := by
  constructor
  · intro hm
    obtain ⟨i, hi⟩ := List.mem_iff_getElem?.1 hm
    by_cases hik : i = k
    · exact .inl (Option.some.inj (hi.symm.trans (hik ▸ h)))
    · exact .inr (List.mem_eraseIdx_iff_getElem?.2 ⟨i, hik, hi⟩)
  · rintro (rfl | hm)
    · exact List.mem_of_getElem? h
    · exact List.mem_of_mem_eraseIdx hm

theorem StreamInv.put (h : StreamInv level s) {k : ℕ} (hc : s.conn = some c)
    (hn : s.pending[k]? = some n) (key : ObjectKey) :
    StreamInv level
      { s with pending := s.pending.eraseIdx k, conn := some (c.enqueue key n) } where
  sound := h.sound
  copies := h.copies
  pending m hm := h.pending m (List.mem_of_mem_eraseIdx hm)
  buffer hnone := by cases hnone
  conn c' hc' := by
    obtain rfl := Option.some.inj hc'
    have hinv := h.conn c hc
    obtain ⟨queue, closed, lost, heq, hmem⟩ := enqueue_eq c key n
    rw [heq]
    refine hinv.reframe (fun hl => (hinv.notYet hl).2) fun m => ?_
    have hm := hmem m
    have hp := mem_eraseIdx_or (m := m) hn
    simp only [framesOf, List.mem_append] at hm ⊢
    rw [hp]
    tauto

theorem StreamInv.putNowhere (h : StreamInv level s) {k : ℕ} (hc : s.conn = none) :
    StreamInv level { s with pending := s.pending.eraseIdx k } where
  sound := h.sound
  copies := h.copies
  pending m hm := h.pending m (List.mem_of_mem_eraseIdx hm)
  buffer := h.buffer
  conn c' hc' := by simp [hc] at hc'

theorem StreamInv.get (h : StreamInv level s) (hc : s.conn = some c) {x : ObjectKey × ℕ}
    {rest : List (ObjectKey × ℕ)} (hq : c.queue = x :: rest) (hlive : c.live = true) :
    StreamInv level
      { s with conn := some { c with queue := rest, frames := c.frames ++ [x.2] } } where
  sound := h.sound
  copies := h.copies
  pending := h.pending
  buffer hnone := by cases hnone
  conn c' hc' := by
    obtain rfl := Option.some.inj hc'
    refine (h.conn c hc).reframe (fun hl => by simp [hlive] at hl) fun m => ?_
    simp only [framesOf, hq, List.mem_append, List.map_cons, List.mem_cons, List.not_mem_nil,
      or_false]
    tauto

/-! ### Catch-up queries -/

theorem mem_take_or_le {α β : Type*} [LinearOrder β] {f : α → β} {l : List α} {k : ℕ} {x y : α}
    (hl : l.Pairwise fun a b => f a ≤ f b) (hx : x ∈ l) (hy : (l.take k).getLast? = some y) :
    x ∈ l.take k ∨ f y ≤ f x := by
  have hy' : y ∈ l.take k := List.mem_of_getLast? hy
  rw [← List.take_append_drop k l, List.mem_append] at hx
  rw [← List.take_append_drop k l, List.pairwise_append] at hl
  exact hx.imp_right fun hx => hl.2.2 y hy' x hx

theorem mem_remaining {type : ObjectType} {x : Write × ℕ} :
    x ∈ c.remaining level log type ↔ log[x.2]? = some x.1 ∧ x.1.key.1 = type ∧
      isCurrent log x.2 = true ∧ streamed level x.1 = true ∧ c.past x.1 = true := by
  obtain ⟨w, n⟩ := x
  simp only [Connection.remaining, List.mem_insertionSort, List.mem_filter, Bool.and_eq_true,
    decide_eq_true_eq, List.mk_mem_zipIdx_iff_getElem?]
  tauto

theorem pairwise_remaining (type : ObjectType) :
    (c.remaining level log type).Pairwise fun a b => position a.1 ≤ position b.1 :=
  List.pairwise_insertionSort _ _

theorem raised_le (newest : Option ℕ) (t : ℕ) :
    t ≤ raised newest t ∧ ∀ top ∈ newest, top ≤ raised newest t := by
  cases newest with
  | none => exact ⟨le_rfl, fun _ h => by cases h⟩
  | some top =>
    refine ⟨le_max_left _ _, fun _ h => ?_⟩
    obtain rfl := Option.some.inj h
    exact le_max_right _ _

theorem le_getLast_of_mem {α β : Type*} [LinearOrder β] {f : α → β} {l : List α} {x y : α}
    (hl : l.Pairwise fun a b => f a ≤ f b) (hx : x ∈ l) (hy : l.getLast? = some y) : f x ≤ f y := by
  obtain ⟨front, rfl⟩ := List.getLast?_eq_some_iff.1 hy
  rcases List.mem_append.1 hx with hx | hx
  · exact (List.pairwise_append.1 hl).2.2 x hx y (List.mem_singleton_self y)
  · rw [List.mem_singleton.1 hx]

theorem position_fst_le {a b : Write} (h : position a ≤ position b) :
    a.modifiedAt ≤ b.modifiedAt := Prod.Lex.monotone_fst _ _ h

theorem eq_of_position {x y : Write × ℕ} {type : ObjectType} (hx : x ∈ c.remaining level log type)
    (hy : y ∈ c.remaining level log type) (h : position x.1 = position y.1) : x = y := by
  obtain ⟨hwx, htx, hcx, -, -⟩ := mem_remaining.1 hx
  obtain ⟨hwy, hty, hcy, -, -⟩ := mem_remaining.1 hy
  have huid : x.1.key.2 = y.1.key.2 := congrArg (fun p => (ofLex p).2) h
  have hkey : x.1.key = y.1.key := Prod.ext (htx.trans hty.symm) huid
  have hsame : keyOf log x.2 = keyOf log y.2 := by rw [keyOf_of hwx, keyOf_of hwy, hkey]
  have hn : x.2 = y.2 :=
    Nat.le_antisymm (le_of_isCurrent hcy hsame) (le_of_isCurrent hcx hsame.symm)
  refine Prod.ext ?_ hn
  rw [hn, hwy] at hwx
  exact (Option.some.inj hwx).symm

theorem Connection.ahead.next {type : ObjectType} {rest : List ObjectType} (h : c.ahead w)
    (htypes : c.types = type :: rest) (hne : w.key.1 ≠ type) (rows : List ℕ) (newest : Option ℕ) :
    { c with types := rest, last := none, rows, newest }.ahead w := by
  obtain ⟨hlive, hmem, hahead⟩ := h
  rw [htypes] at hmem
  rw [htypes, List.head?_cons, if_neg (by simpa using hne.symm)] at hahead
  refine ⟨hlive, (List.mem_cons.1 hmem).resolve_left hne, ?_⟩
  split_ifs
  · exact hahead
  · exact hahead

theorem Connection.ahead.mem_remaining {type : ObjectType} {rest : List ObjectType} {m n : ℕ}
    (h : c.ahead w) (htypes : c.types = type :: rest) (htype : w.key.1 = type)
    (hw : log[m]? = some w) (hcur : isCurrent log m = true) (hnm : n ≤ m)
    (hkey : keyOf log m = keyOf log n) (hview : MayView level log n) :
    (w, m) ∈ c.remaining level log type := by
  have hpast : c.past w = true := by
    have hahead := h.2.2
    rwa [htypes, List.head?_cons, if_pos (by rw [htype])] at hahead
  refine Archon.Stream.mem_remaining.2 ⟨hw, htype, hcur, ?_, hpast⟩
  rw [streamed, (hview.later hkey hnm).shown hw, Bool.true_or]

theorem OnWay.query (h : OnWay s c n) (hrows : ∀ m ∈ c.rows, m ∈ c'.rows)
    (hframes : framesOf s c' = framesOf s c) (hsync : c'.syncing)
    (hnewest : ∀ t ∈ c.newest, ∃ t' ∈ c'.newest, t ≤ t') :
    OnWay { s with conn := some c' } c' n := by
  obtain ⟨m, hnm, hkey, hway⟩ := h
  refine ⟨m, hnm, hkey, ?_⟩
  rcases hway with hrow | ⟨hframe, hstamp⟩
  · rcases List.mem_append.1 hrow with hm | hm
    · exact .inl (List.mem_append_left _ hm)
    · exact .inl (List.mem_append_right _ (hrows m hm))
  · refine .inr ⟨hframes ▸ hframe, hstamp.imp_right ?_⟩
    rintro ⟨-, t, ht, hle⟩
    obtain ⟨t', ht', hle'⟩ := hnewest t ht
    exact ⟨hsync, t', ht', hle.trans hle'⟩

theorem ConnInv.completes (h : ConnInv level s c) (htypes : c.types = []) :
    ConnInv level { s with conn := some { c with live := true, complete := some c.newest } }
      { c with live := true, complete := some c.newest } where
  valid := h.valid
  notYet hlive := by cases hlive
  done _ := ⟨htypes, fun hnone => by cases hnone⟩
  complete t ht := (Option.some.inj ht).symm
  newest := h.newest
  last := h.last
  since hlive := by cases hlive
  fresh := h.fresh
  covered n hn hview := by
    rcases h.covered n hn hview with hheld | hway | ⟨_, w, _, _, _, _, hahead⟩
    · exact .inl hheld
    · refine .inr (.inl (hway.query (fun _ hm => hm) rfl (.inr (Option.some_ne_none _)) ?_))
      exact fun t ht => ⟨t, ht, le_rfl⟩
    · rw [Connection.ahead, htypes] at hahead
      simp at hahead

theorem ConnInv.skips (h : ConnInv level s c) {type : ObjectType} {rest : List ObjectType}
    (hlive : c.live = false) (htypes : c.types = type :: rest)
    (hnone : c.remaining level s.log type = []) :
    ConnInv level { s with conn := some { c with types := rest, last := none } }
      { c with types := rest, last := none } where
  valid := h.valid
  notYet := h.notYet
  done hlive' := by simp [hlive] at hlive'
  complete := h.complete
  newest := h.newest
  last place hplace := by cases hplace
  since := h.since
  fresh := h.fresh
  covered n hn hview := by
    rcases h.covered n hn hview with hheld | hway | ⟨m, w, hnm, hkey, hw, hcur, hahead⟩
    · exact .inl hheld
    · refine .inr (.inl (hway.query (fun _ hm => hm) rfl (.inl hlive) ?_))
      exact fun t ht => ⟨t, ht, le_rfl⟩
    · by_cases htype : w.key.1 = type
      · have hmem := hahead.mem_remaining htypes htype hw hcur hnm hkey hview
        rw [hnone] at hmem
        cases hmem
      · exact .inr (.inr ⟨m, w, hnm, hkey, hw, hcur, hahead.next htypes htype c.rows c.newest⟩)

theorem query_batch {type : ObjectType} {rest : List ObjectType} {wn : Write × ℕ}
    (htypes : c.types = type :: rest)
    (hwn : ((c.remaining level log type).take streamBatchSize).getLast? = some wn) :
    c.query level log =
      { c with
        rows := c.rows ++ ((c.remaining level log type).take streamBatchSize).map Prod.snd
        newest := some (raised c.newest wn.1.modifiedAt)
        types := if ((c.remaining level log type).take streamBatchSize).length = streamBatchSize
          then c.types else rest
        last := if ((c.remaining level log type).take streamBatchSize).length = streamBatchSize
          then some (position wn.1) else none } := by
  unfold Connection.query
  rw [htypes]
  simp only [hwn]

theorem mem_batch_or {type : ObjectType} {x wn : Write × ℕ}
    (hx : x ∈ c.remaining level log type)
    (hwn : ((c.remaining level log type).take streamBatchSize).getLast? = some wn) :
    x ∈ (c.remaining level log type).take streamBatchSize ∨
      (((c.remaining level log type).take streamBatchSize).length = streamBatchSize ∧
        position wn.1 < position x.1) := by
  by_cases hbatch : x ∈ (c.remaining level log type).take streamBatchSize
  · exact .inl hbatch
  · have hlast : wn ∈ (c.remaining level log type).take streamBatchSize :=
      List.mem_of_getLast? hwn
    have hle : position wn.1 ≤ position x.1 :=
      (mem_take_or_le (f := fun y : Write × ℕ => position y.1) (pairwise_remaining type) hx
        hwn).resolve_left hbatch
    refine .inr ⟨?_, lt_of_le_of_ne hle fun heq => hbatch ?_⟩
    · have hlong : ¬ (c.remaining level log type).length ≤ streamBatchSize := fun hshort =>
        hbatch (by rwa [List.take_of_length_le hshort])
      rw [List.length_take]
      omega
    · rwa [← eq_of_position (List.mem_of_mem_take hlast) hx heq]

theorem ConnInv.fetches (h : ConnInv level s c)
    (hcopies : ∀ key, ∀ m ∈ s.client.copies key, keyOf s.log m = some key)
    {type : ObjectType} {rest : List ObjectType} {wn : Write × ℕ} (hlive : c.live = false)
    (htypes : c.types = type :: rest)
    (hwn : ((c.remaining level s.log type).take streamBatchSize).getLast? = some wn) :
    ConnInv level { s with conn := some (c.query level s.log) } (c.query level s.log) := by
  have hbatch : ∀ m ∈ ((c.remaining level s.log type).take streamBatchSize).map Prod.snd,
      ∃ w, (w, m) ∈ (c.remaining level s.log type).take streamBatchSize := by
    intro m hm
    obtain ⟨x, hx, rfl⟩ := List.mem_map.1 hm
    exact ⟨x.1, hx⟩
  have hrowsOf : ∀ m ∈ rowsOf { s with conn := some (c.query level s.log) } (c.query level s.log),
      m ∈ rowsOf s c ∨
        ∃ w, (w, m) ∈ (c.remaining level s.log type).take streamBatchSize := by
    intro m hm
    rw [query_batch htypes hwn] at hm
    simp only [rowsOf, ← List.append_assoc] at hm
    exact (List.mem_append.1 hm).imp_right (hbatch m)
  have hget : ∀ m w, (w, m) ∈ (c.remaining level s.log type).take streamBatchSize →
      s.log[m]? = some w ∧ isCurrent s.log m = true := by
    intro m w hm
    obtain ⟨hw, -, hcur, -⟩ := mem_remaining.1 (List.mem_of_mem_take hm)
    exact ⟨hw, hcur⟩
  have hnewest : (c.query level s.log).newest = some (raised c.newest wn.1.modifiedAt) := by
    rw [query_batch htypes hwn]
  have hraised := raised_le c.newest wn.1.modifiedAt
  constructor
  case valid =>
    intro m hm
    rcases List.mem_append.1 hm with hm | hm
    · rcases hrowsOf m hm with hold | ⟨w, hnew⟩
      · exact h.valid m (List.mem_append_left _ hold)
      · exact (List.getElem?_eq_some_iff.1 (hget m w hnew).1).1
    · rw [query_batch htypes hwn] at hm
      exact h.valid m (List.mem_append_right _ hm)
  case notYet =>
    intro _
    rw [query_batch htypes hwn]
    exact h.notYet hlive
  case done =>
    intro hlive'
    rw [query_batch htypes hwn] at hlive'
    simp [hlive] at hlive'
  case complete =>
    intro t ht
    rw [query_batch htypes hwn] at ht
    simp [(h.notYet hlive).1] at ht
  case newest =>
    intro m hm
    rw [hnewest]
    refine ⟨_, rfl, ?_⟩
    rcases hrowsOf m hm with hold | ⟨w, hnew⟩
    · obtain ⟨t, ht, hle⟩ := h.newest m hold
      exact hle.trans (hraised.2 t ht)
    · have hsorted : ((c.remaining level s.log type).take streamBatchSize).Pairwise
          fun a b => position a.1 ≤ position b.1 :=
        (pairwise_remaining type).sublist (List.take_sublist _ _)
      have hle := position_fst_le
        (le_getLast_of_mem (f := fun y : Write × ℕ => position y.1) hsorted hnew hwn)
      rw [show stampOf s.log m = w.modifiedAt from stampOf_of (hget m w hnew).1]
      exact hle.trans hraised.1
  case last =>
    intro place hplace
    rw [hnewest]
    refine ⟨_, rfl, ?_⟩
    rw [query_batch htypes hwn] at hplace
    split_ifs at hplace
    · obtain rfl := Option.some.inj hplace
      exact hraised.1
    · cases hplace
  case since =>
    intro _
    rw [query_batch htypes hwn]
    exact h.since hlive
  case fresh =>
    intro m hm key hkey k hk
    rcases hrowsOf m hm with hold | ⟨w, hnew⟩
    · exact h.fresh m hold key hkey k hk
    · exact le_of_isCurrent (hget m w hnew).2 ((hcopies key k hk).trans hkey.symm)
  case covered =>
    intro n hn hview
    have hsync : (c.query level s.log).syncing := by
      rw [query_batch htypes hwn]
      exact .inl hlive
    rcases h.covered n hn hview with hheld | hway | ⟨m, w, hnm, hkey, hw, hcur, hahead⟩
    · exact .inl hheld
    · refine .inr (.inl (hway.query ?_ ?_ hsync ?_))
      · rw [query_batch htypes hwn]
        exact fun m hm => List.mem_append_left _ hm
      · rw [query_batch htypes hwn]
        rfl
      · rw [hnewest]
        exact fun t ht => ⟨_, rfl, hraised.2 t ht⟩
    · by_cases htype : w.key.1 = type
      · have hmem := hahead.mem_remaining htypes htype hw hcur hnm hkey hview
        rcases mem_batch_or hmem hwn with hin | ⟨hfull, hafter⟩
        · refine .inr (.inl ⟨m, hnm, hkey, .inl ?_⟩)
          rw [query_batch htypes hwn]
          exact List.mem_append_right _
            (List.mem_append_right _ (List.mem_map_of_mem (f := Prod.snd) hin))
        · refine .inr (.inr ⟨m, w, hnm, hkey, hw, hcur, ?_⟩)
          rw [query_batch htypes hwn, if_pos hfull, if_pos hfull]
          refine ⟨hlive, hahead.2.1, ?_⟩
          rw [htypes, List.head?_cons, if_pos (by rw [htype])]
          simpa [Connection.past] using hafter
      · refine .inr (.inr ⟨m, w, hnm, hkey, hw, hcur, ?_⟩)
        rw [query_batch htypes hwn]
        split_ifs
        · refine ⟨hlive, hahead.2.1, ?_⟩
          have := hahead.2.2
          rw [htypes, List.head?_cons, if_neg (by simpa using Ne.symm htype)] at this ⊢
          exact this
        · exact hahead.next htypes htype _ _

theorem StreamInv.query (h : StreamInv level s) (hc : s.conn = some c) (hlive : c.live = false) :
    StreamInv level { s with conn := some (c.query level s.log) } where
  sound := h.sound
  copies := h.copies
  pending := h.pending
  buffer hnone := by cases hnone
  conn c' hc' := by
    obtain rfl := Option.some.inj hc'
    have hinv := h.conn c hc
    cases htypes : c.types with
    | nil =>
      have heq : c.query level s.log = { c with live := true, complete := some c.newest } := by
        rw [Connection.query, htypes]
      rw [heq]
      exact hinv.completes htypes
    | cons type rest =>
      cases hwn : ((c.remaining level s.log type).take streamBatchSize).getLast? with
      | none =>
        have hnone : c.remaining level s.log type = [] := by
          simpa [streamBatchSize] using List.getLast?_eq_none_iff.1 hwn
        have heq : c.query level s.log = { c with types := rest, last := none } := by
          rw [Connection.query, htypes]
          simp only [hwn]
        rw [heq]
        exact hinv.skips hlive htypes hnone
      | some wn => exact hinv.fetches h.copies hlive htypes hwn

/-! ### What reaches the client -/

theorem StreamInv.buffers (h : StreamInv level s) (hc : s.conn = some c) {rest : List ℕ}
    (hrows : c.rows = n :: rest) :
    StreamInv level { s with
      conn := some { c with rows := rest }
      client := { s.client with buffer := s.client.buffer ++ [n] } } where
  sound := h.sound
  copies := h.copies
  pending := h.pending
  buffer hnone := by cases hnone
  conn c' hc' := by
    obtain rfl := Option.some.inj hc'
    have hinv := h.conn c hc
    have hsame : rowsOf
        { s with conn := some { c with rows := rest },
                 client := { s.client with buffer := s.client.buffer ++ [n] } }
        { c with rows := rest } = rowsOf s c := by
      simp only [rowsOf, hrows, List.append_assoc, List.singleton_append]
    exact {
      valid := by
        rw [hsame]
        exact hinv.valid
      notYet := hinv.notYet
      done := by
        rw [hsame]
        exact hinv.done
      complete := hinv.complete
      newest := by
        rw [hsame]
        exact hinv.newest
      last := hinv.last
      since := hinv.since
      fresh := by
        rw [hsame]
        exact hinv.fresh
      covered := by
        intro k hk hview
        rcases hinv.covered k hk hview with hheld | ⟨m, hkm, hkey, hway⟩ | hfetch
        · exact .inl hheld
        · exact .inr (.inl ⟨m, hkm, hkey, hway.imp_left fun hm => hsame ▸ hm⟩)
        · exact .inr (.inr hfetch) }

theorem holds_flush {client : Client} (h : ∃ key ∈ keyOf log n,
    ∃ m ∈ (lastOf log (flushOrder level log client.buffer) key).or (client.copies key), n ≤ m) :
    Holds log (client.flush level log).copies n := by
  obtain ⟨key, hkey, m, hm, hle⟩ := h
  exact ⟨key, hkey, m, (flush_copies client key).trans hm, hle⟩

theorem ConnInv.flushed (h : ConnInv level s c) (hrows : c.rows = []) {t : Option ℕ}
    (hcomplete : c.complete = some t) (harrives : Arrives level s c) (hn : n < s.log.length)
    (hview : MayView level s.log n) :
    Holds s.log (s.client.flush level s.log).copies n ∨
      ∃ m, n ≤ m ∧ keyOf s.log m = keyOf s.log n ∧ m ∈ framesOf s c ∧
        stampOf s.log m ≤ stampOf s.log n ∧ ∀ top ∈ t, top < stampOf s.log m := by
  have ht : t = c.newest := h.complete t hcomplete
  have hlive : c.live = true := by
    by_contra hlive
    simp [(h.notYet (by simpa using hlive)).1] at hcomplete
  have hcond : ∀ top ∈ t, ∀ m ∈ s.client.buffer ++ framesOf s c, MayView level s.log m →
      stampOf s.log m ≤ top → Holds s.log (s.client.flush level s.log).copies m := by
    intro top htop m hm hview hle
    unfold Arrives at harrives
    rw [hrows, hcomplete] at harrives
    exact holds_flush (harrives top htop m hm hview hle)
  have hmono := @flush_mono level s.log s.client fun m hm => h.fresh m (List.mem_append_left _ hm)
  rcases h.covered n hn hview with hheld | ⟨m, hnm, hkey, hway⟩ | ⟨_, _, _, _, _, _, hahead⟩
  · exact .inl (hheld.mono hmono)
  · have hview' : MayView level s.log m := hview.later hkey hnm
    have hfrom : ∀ top ∈ t, m ∈ s.client.buffer ++ framesOf s c → stampOf s.log m ≤ top →
        Holds s.log (s.client.flush level s.log).copies n := fun top htop hm hle =>
      (hcond top htop m hm hview' hle).earlier hkey hnm
    rcases hway with hrow | ⟨hframe, hstamp⟩
    · obtain ⟨top, htop, hle⟩ := h.newest m hrow
      have hbuffer : m ∈ s.client.buffer := by simpa [rowsOf, hrows] using hrow
      exact .inl (hfrom top (ht ▸ htop) (List.mem_append_left _ hbuffer) hle)
    · by_cases hcovers : ∃ top ∈ t, stampOf s.log m ≤ top
      · obtain ⟨top, htop, hle⟩ := hcovers
        exact .inl (hfrom top htop (List.mem_append_right _ hframe) hle)
      · push Not at hcovers
        refine .inr ⟨m, hnm, hkey, hframe, hstamp.resolve_right ?_, hcovers⟩
        rintro ⟨-, top, htop, hle⟩
        exact absurd hle (not_le.2 (hcovers top (ht ▸ htop)))
  · rw [hahead.1] at hlive
    cases hlive

theorem StreamInv.completes (h : StreamInv level s) (hc : s.conn = some c) (hrows : c.rows = [])
    {t : Option ℕ} (hcomplete : c.complete = some t) (harrives : Arrives level s c) :
    StreamInv level { s with
      conn := some { c with complete := none }
      client := s.client.completed level s.log t } := by
  have hinv := h.conn c hc
  have hlive : c.live = true := by
    by_contra hlive
    simp [(hinv.notYet (by simpa using hlive)).1] at hcomplete
  have hempty : ∀ n, n ∉ rowsOf
      { s with conn := some { c with complete := none },
               client := s.client.completed level s.log t } { c with complete := none } := by
    intro n
    simp [rowsOf, hrows, Client.completed, Client.flush]
  constructor
  case sound =>
    intro n hn hview cursor hcursor hstamp
    rcases hinv.flushed hrows hcomplete harrives hn hview with hheld | ⟨m, -, -, -, hle, htop⟩
    · exact hheld
    · cases t with
      | some top =>
        obtain rfl := Option.some.inj hcursor
        exact absurd (hle.trans hstamp) (not_le.2 (htop top rfl))
      | none =>
        refine (h.sound n hn hview cursor hcursor hstamp).mono (flush_mono fun m hm => ?_)
        exact hinv.fresh m (List.mem_append_left _ hm)
  case copies => exact flush_valid h.copies
  case pending => exact h.pending
  case buffer =>
    intro hnone
    cases hnone
  case conn =>
    intro c' hc'
    obtain rfl := Option.some.inj hc'
    exact {
      valid := by
        intro n hn
        rcases List.mem_append.1 hn with hn | hn
        · exact absurd hn (hempty n)
        · exact hinv.valid n (List.mem_append_right _ hn)
      notYet := fun hnot => ⟨rfl, (hinv.notYet hnot).2⟩
      done := fun _ => ⟨(hinv.done hlive).1, fun _ => List.eq_nil_iff_forall_not_mem.2 hempty⟩
      complete := by
        intro top htop
        cases htop
      newest := fun n hn => absurd hn (hempty n)
      last := hinv.last
      since := by
        intro hnot
        rw [hlive] at hnot
        cases hnot
      fresh := fun n hn => absurd hn (hempty n)
      covered := by
        intro n hn hview
        refine (hinv.flushed hrows hcomplete harrives hn hview).imp_right fun hframe => .inl ?_
        obtain ⟨m, hnm, hkey, hm, hle, -⟩ := hframe
        exact ⟨m, hnm, hkey, .inr ⟨hm, .inl hle⟩⟩ }

theorem applyCopy_mono (hfresh : ∀ key ∈ keyOf log n, ∀ m ∈ copies key, m ≤ n) :
    ∀ key, ∀ m ∈ copies key, ∃ m' ∈ applyCopy log copies n key, m ≤ m' := by
  intro key m hm
  cases hk : keyOf log n with
  | none =>
    have hnone : log[n]? = none := by simpa [keyOf] using hk
    exact ⟨m, by rwa [applyCopy, hnone], le_rfl⟩
  | some k =>
    rw [applyCopy_of hk]
    split_ifs with heq
    · exact ⟨n, rfl, hfresh key (heq ▸ hk) m hm⟩
    · exact ⟨m, hm, le_rfl⟩

theorem applyCopy_valid (h : ∀ key, ∀ m ∈ copies key, keyOf log m = some key) :
    ∀ key, ∀ m ∈ applyCopy log copies n key, keyOf log m = some key := by
  intro key m hm
  cases hk : keyOf log n with
  | none =>
    have hnone : log[n]? = none := by simpa [keyOf] using hk
    rw [applyCopy, hnone] at hm
    exact h key m hm
  | some k =>
    rw [applyCopy_of hk] at hm
    split_ifs at hm with heq
    · obtain rfl := Option.some.inj hm
      rw [hk, heq]
    · exact h key m hm

theorem holds_applyCopy (hm : m < log.length) (hkey : keyOf log m = keyOf log n) (hle : m ≤ n) :
    Holds log (applyCopy log copies n) m := by
  have hget : keyOf log m = some log[m].key := keyOf_of (List.getElem?_eq_getElem hm)
  refine ⟨_, hget, n, ?_, hle⟩
  rw [applyCopy_of (hkey ▸ hget), if_pos rfl]
  rfl

theorem StreamInv.receives (h : StreamInv level s) (hc : s.conn = some c) (hrows : c.rows = [])
    (hcomplete : c.complete = none) {rest : List ℕ} (hframes : c.frames = n :: rest)
    (harrives : Arrives level s c) :
    StreamInv level { s with
      conn := some { c with frames := rest }
      client := s.client.received s.log n } := by
  have hinv := h.conn c hc
  have hlive : c.live = true := by
    by_contra hlive
    simp [(hinv.notYet (by simpa using hlive)).2] at hframes
  have hnorows : rowsOf s c = [] := (hinv.done hlive).2 hcomplete
  unfold Arrives at harrives
  rw [hrows, hcomplete, hframes] at harrives
  obtain ⟨hfresh, hbefore⟩ := harrives
  have hmono := applyCopy_mono hfresh
  have hcover : ∀ k < s.log.length, MayView level s.log k →
      Holds s.log (applyCopy s.log s.client.copies n) k ∨
        ∃ m, k ≤ m ∧ keyOf s.log m = keyOf s.log k ∧ m ∈ framesOf s c ∧
          stampOf s.log m ≤ stampOf s.log k := by
    intro k hk hview
    rcases hinv.covered k hk hview with hheld | ⟨m, hkm, hkey, hway⟩ | ⟨_, _, _, _, _, _, hahead⟩
    · exact .inl (hheld.mono hmono)
    · rcases hway with hrow | ⟨hframe, hstamp⟩
      · rw [hnorows] at hrow
        cases hrow
      · refine .inr ⟨m, hkm, hkey, hframe, hstamp.resolve_right ?_⟩
        rintro ⟨hsync | hsync, -⟩
        · rw [hlive] at hsync
          cases hsync
        · exact hsync hcomplete
    · rw [hahead.1] at hlive
      cases hlive
  constructor
  case sound =>
    intro k hk hview cursor hcursor hstamp
    obtain rfl := Option.some.inj hcursor
    rcases hcover k hk hview with hheld | ⟨m, hkm, hkey, hframe, hle⟩
    · exact hheld
    · rcases hbefore m hframe (hview.later hkey hkm) (hle.trans hstamp) with ⟨hsame, hmn⟩ | hheld
      · exact holds_applyCopy hk (hkey.symm.trans hsame) (hkm.trans hmn)
      · exact (hheld.mono hmono).earlier hkey hkm
  case copies => exact applyCopy_valid h.copies
  case pending => exact h.pending
  case buffer =>
    intro hnone
    cases hnone
  case conn =>
    intro c' hc'
    obtain rfl := Option.some.inj hc'
    have hframesOf : ∀ m, m ∈ framesOf s c ↔ m = n ∨ m ∈ framesOf
        { s with conn := some { c with frames := rest }, client := s.client.received s.log n }
        { c with frames := rest } := by
      intro m
      simp only [framesOf, hframes, List.mem_append, List.mem_cons]
      tauto
    exact {
      valid := by
        intro m hm
        rcases List.mem_append.1 hm with hm | hm
        · exact hinv.valid m (List.mem_append_left _ hm)
        · exact hinv.valid m (List.mem_append_right _ ((hframesOf m).2 (.inr hm)))
      notYet := by
        intro hnot
        rw [hlive] at hnot
        cases hnot
      done := fun _ => ⟨(hinv.done hlive).1, fun _ => hnorows⟩
      complete := hinv.complete
      newest := hinv.newest
      last := hinv.last
      since := by
        intro hnot
        rw [hlive] at hnot
        cases hnot
      fresh := by
        intro m hm
        have hrow : m ∈ rowsOf s c := hm
        rw [hnorows] at hrow
        cases hrow
      covered := by
        intro k hk hview
        rcases hcover k hk hview with hheld | ⟨m, hkm, hkey, hframe, hle⟩
        · exact .inl hheld
        · rcases (hframesOf m).1 hframe with rfl | hrest
          · exact .inl (holds_applyCopy hk hkey.symm hkm)
          · exact .inr (.inl ⟨m, hkm, hkey, .inr ⟨hrest, .inl hle⟩⟩) }

theorem StreamInv.deliver (h : StreamInv level s) (hc : s.conn = some c)
    (harrives : Arrives level s c) {x : Connection × Client}
    (hx : c.deliver level s.log s.client = some x) :
    StreamInv level { s with conn := some x.1, client := x.2 } := by
  unfold Connection.deliver at hx
  split at hx
  · rename_i n rest _ _ hrows
    obtain rfl := Option.some.inj hx
    exact h.buffers hc hrows
  · rename_i t hrows hcomplete
    obtain rfl := Option.some.inj hx
    exact h.completes hc hrows hcomplete harrives
  · rename_i n rest hrows hcomplete hframes
    obtain rfl := Option.some.inj hx
    exact h.receives hc hrows hcomplete hframes harrives
  · cases hx

/-! ### Commits -/

theorem keyOf_append (later : List Write) (hn : n < log.length) :
    keyOf (log ++ later) n = keyOf log n := by
  rw [keyOf, keyOf, List.getElem?_append_left hn]

theorem stampOf_append (later : List Write) (hn : n < log.length) :
    stampOf (log ++ later) n = stampOf log n := by
  rw [stampOf, stampOf, List.getElem?_append_left hn]

theorem MayView.append {later : List Write} (h : MayView level (log ++ later) n)
    (hn : n < log.length) : MayView level log n := by
  intro key hkey w hw
  refine h key (by rwa [keyOf_append later hn]) w ?_
  rw [List.drop_append_of_le_length hn.le]
  exact List.mem_append_left _ hw

theorem Holds.append (later : List Write) (h : Holds log copies n) :
    Holds (log ++ later) copies n := by
  obtain ⟨key, hkey, m, hm, hle⟩ := h
  exact ⟨key, (keyOf_append later (lt_of_keyOf hkey)).trans hkey, m, hm, hle⟩

section Commit

variable {k start : ℕ} {drafts : List Draft}

theorem mem_pending_commit (hn : s.log.length ≤ n)
    (hw : (commitWrites level s k start drafts).log[n]? = some w)
    (hview : MayView level (commitWrites level s k start drafts).log n) :
    n ∈ (commitWrites level s k start drafts).pending ∧ w.modifiedAt = start ∧
      ∃ d ∈ drafts, d.shown level = true := by
  have hshown : w.shown level = true := hview.shown hw
  have hframed : framed level (commitWrites level s k start drafts).log n = true := by
    rw [framed, hw, Option.any_some, hshown, Bool.true_or]
  rw [commitWrites, List.getElem?_append_right hn] at hw
  obtain ⟨d, hd, rfl⟩ := List.mem_map.1 (List.mem_of_getElem? hw)
  have hlt : n - s.log.length < drafts.length := by
    have := (List.getElem?_eq_some_iff.1 hw).1
    rwa [List.length_map] at this
  refine ⟨List.mem_append_right _ (List.mem_filter.2 ⟨?_, hframed⟩), rfl, d, hd, hshown⟩
  exact List.mem_range'_1.2 ⟨hn, by omega⟩

theorem Connection.ahead.overwritten (h : c.ahead w) (hkey : w'.key = w.key)
    (hlast : ∀ place ∈ c.last, ∃ t ∈ c.newest, (ofLex place).1 ≤ t)
    (hsince : ∀ t ∈ c.since, t < w'.modifiedAt) :
    c.ahead w' ∨ (c.syncing ∧ ∃ t ∈ c.newest, w'.modifiedAt ≤ t) := by
  obtain ⟨hlive, hmem, -⟩ := h
  have hpastSince : c.since.all (fun t => decide (t < w'.modifiedAt)) = true := by
    rw [Option.all_eq_true]
    exact fun t ht => decide_eq_true (hsince t ht)
  by_cases hpast : c.past w' = true
  · refine .inl ⟨hlive, hkey ▸ hmem, ?_⟩
    split_ifs
    · exact hpast
    · exact hpastSince
  · unfold Connection.past at hpast
    cases hplace : c.last with
    | none =>
      rw [hplace] at hpast
      exact absurd hpastSince hpast
    | some place =>
      rw [hplace] at hpast
      have hle : position w' ≤ place := by simpa using hpast
      obtain ⟨t, ht, htop⟩ := hlast place hplace
      exact .inr ⟨.inl hlive, t, ht, (Prod.Lex.monotone_fst _ _ hle).trans htop⟩

theorem ToFetch.commit (h : ToFetch s c n) (hn : n < s.log.length) (hinv : ConnInv level s c)
    (hview : MayView level (commitWrites level s k start drafts).log n)
    (hstart : ∀ t ∈ s.client.cursor, ∀ d ∈ drafts, d.shown level = true → t < start) :
    OnWay (commitWrites level s k start drafts) c n ∨
      ToFetch (commitWrites level s k start drafts) c n := by
  obtain ⟨m, w, hnm, hkey, hw, hcur, hahead⟩ := h
  have hm : m < s.log.length := (List.getElem?_eq_some_iff.1 hw).1
  have hw' : (commitWrites level s k start drafts).log[m]? = some w := by
    rwa [commitWrites, List.getElem?_append_left hm]
  have hkey' : keyOf (commitWrites level s k start drafts).log m =
      keyOf (commitWrites level s k start drafts).log n := by
    rwa [commitWrites, keyOf_append _ hm, keyOf_append _ hn]
  obtain ⟨j, w', hmj, hj, hsame, hcur'⟩ := exists_current hw'
  have hkeyj : keyOf (commitWrites level s k start drafts).log j =
      keyOf (commitWrites level s k start drafts).log n := by
    rw [← hkey', keyOf_of hj, keyOf_of hw', hsame]
  by_cases hold : j < s.log.length
  · have hj' : s.log[j]? = some w' := by
      rwa [commitWrites, List.getElem?_append_left hold] at hj
    have hle : j ≤ m := le_of_isCurrent hcur (by rw [keyOf_of hj', keyOf_of hw, hsame])
    obtain rfl : j = m := Nat.le_antisymm hle hmj
    obtain rfl : w' = w := Option.some.inj (hj'.symm.trans hw)
    exact .inr ⟨j, w', hnm, hkey', hj, hcur', hahead⟩
  · have hviewj := hview.later hkeyj (hnm.trans hmj)
    obtain ⟨hpending, rfl, d, hd, hshown⟩ := mem_pending_commit (by omega) hj hviewj
    have hsince : ∀ t ∈ c.since, t < w'.modifiedAt := by
      rw [hinv.since hahead.1]
      exact fun t ht => hstart t ht d hd hshown
    rcases hahead.overwritten hsame hinv.last hsince with hstill | ⟨hsync, t, ht, hle⟩
    · exact .inr ⟨j, w', hnm.trans hmj, hkeyj, hj, hcur', hstill⟩
    · refine .inl ⟨j, hnm.trans hmj, hkeyj, .inr ⟨?_, .inr ⟨hsync, t, ht, ?_⟩⟩⟩
      · simp only [framesOf, List.mem_append]
        exact .inl (.inl (.inl hpending))
      · rwa [stampOf_of hj]

theorem ConnInv.commit (hinv : ConnInv level s c)
    (hstart : ∀ t ∈ s.client.cursor, ∀ d ∈ drafts, d.shown level = true → t < start) :
    ConnInv level (commitWrites level s k start drafts) c := by
  have hlong : s.log.length ≤ (commitWrites level s k start drafts).log.length := by
    simp [commitWrites]
  have hrow : ∀ n ∈ rowsOf s c, n < s.log.length := fun n hn =>
    hinv.valid n (List.mem_append_left _ hn)
  have hframe : ∀ m ∈ framesOf s c, m ∈ framesOf (commitWrites level s k start drafts) c := by
    intro m hm
    simp only [framesOf, commitWrites, List.mem_append] at hm ⊢
    tauto
  constructor
  case valid =>
    intro n hn
    by_cases hold : n ∈ rowsOf s c ++ framesOf s c
    · exact (hinv.valid n hold).trans_le hlong
    · simp only [rowsOf, framesOf, commitWrites, List.mem_append, List.mem_filter,
        List.mem_range'_1] at hold hn
      simp only [commitWrites, List.length_append, List.length_map]
      have : n < s.log.length + drafts.length := by tauto
      exact this
  case notYet => exact hinv.notYet
  case done => exact hinv.done
  case complete => exact hinv.complete
  case newest =>
    intro n hn
    obtain ⟨t, ht, hle⟩ := hinv.newest n hn
    exact ⟨t, ht, by rwa [commitWrites, stampOf_append _ (hrow n hn)]⟩
  case last => exact hinv.last
  case since => exact hinv.since
  case fresh =>
    intro n hn key hkey
    rw [commitWrites, keyOf_append _ (hrow n hn)] at hkey
    exact hinv.fresh n hn key hkey
  case covered =>
    intro n hn hview
    by_cases hold : n < s.log.length
    · rcases hinv.covered n hold (hview.append hold) with hheld | ⟨m, hnm, hkey, hway⟩ | hfetch
      · exact .inl (hheld.append _)
      · have hm : m < s.log.length := by
          refine hinv.valid m (List.mem_append.2 ?_)
          exact hway.imp_right And.left
        refine .inr (.inl ⟨m, hnm, ?_, ?_⟩)
        · rwa [commitWrites, keyOf_append _ hm, keyOf_append _ hold]
        · rw [commitWrites, stampOf_append _ hm, stampOf_append _ hold]
          exact hway.imp_right fun h => ⟨hframe m h.1, h.2⟩
      · exact .inr (hfetch.commit hold hinv hview hstart)
    · have hget := List.getElem?_eq_getElem hn
      obtain ⟨hnew, -⟩ := mem_pending_commit (by omega) hget hview
      refine .inr (.inl ⟨n, le_rfl, rfl, .inr ⟨?_, .inl le_rfl⟩⟩)
      simp only [framesOf, List.mem_append]
      exact .inl (.inl (.inl hnew))

theorem StreamInv.commit (h : StreamInv level s)
    (hstart : ∀ t ∈ s.client.cursor, ∀ d ∈ drafts, d.shown level = true → t < start) :
    StreamInv level (commitWrites level s k start drafts) where
  sound n hn hview cursor hcursor hstamp := by
    by_cases hold : n < s.log.length
    · rw [commitWrites, stampOf_append _ hold] at hstamp
      exact (h.sound n hold (hview.append hold) cursor hcursor hstamp).append _
    · have hget := List.getElem?_eq_getElem hn
      obtain ⟨-, hat, d, hd, hshown⟩ := mem_pending_commit (by omega) hget hview
      rw [stampOf_of hget, hat] at hstamp
      exact absurd hstamp (not_le.2 (hstart cursor hcursor d hd hshown))
  copies key m hm := by
    have hkey := h.copies key m hm
    rwa [commitWrites, keyOf_append _ (lt_of_keyOf hkey)]
  pending n hn := by
    simp only [commitWrites, List.length_append, List.length_map]
    rcases List.mem_append.1 hn with hn | hn
    · exact (h.pending n hn).trans_le (Nat.le_add_right _ _)
    · exact (List.mem_range'_1.1 (List.mem_filter.1 hn).1).2
  buffer := h.buffer
  conn c hc := (h.conn c hc).commit hstart

end Commit

/-! ### Runs -/

theorem StreamInv.clock (h : StreamInv level s) (now : ℕ) (started : List ℕ) :
    StreamInv level { s with now, started } where
  sound := h.sound
  copies := h.copies
  pending := h.pending
  buffer := h.buffer
  conn c hc :=
    have hinv := h.conn c hc
    ⟨hinv.valid, hinv.notYet, hinv.done, hinv.complete, hinv.newest, hinv.last, hinv.since,
      hinv.fresh, hinv.covered⟩

theorem StreamInv.step {i : Input} (h : StreamInv level s) (hi : KeepsCursor level s i)
    (hs : step level s i = some s') : StreamInv level s' := by
  cases i with
  | tick =>
    obtain rfl := Option.some.inj hs
    exact h.clock _ _
  | start =>
    obtain rfl := Option.some.inj hs
    exact h.clock _ _
  | commit k drafts =>
    obtain ⟨start, hstart, rfl⟩ := Option.map_eq_some_iff.1 hs
    exact h.commit fun t ht d hd hshown => hi start hstart t ht d hd hshown
  | put k =>
    simp only [Stream.step] at hs
    split at hs
    · rename_i n c hn hc
      obtain ⟨w, -, rfl⟩ := Option.map_eq_some_iff.1 hs
      exact h.put hc hn w.key
    · rename_i n hn hc
      obtain rfl := Option.some.inj hs
      exact h.putNowhere hc
    · cases hs
  | connect =>
    simp only [Stream.step] at hs
    split_ifs at hs with hc
    · obtain rfl := Option.some.inj hs
      exact h.connect (Option.isNone_iff_eq_none.1 hc)
  | query =>
    simp only [Stream.step] at hs
    split at hs
    · rename_i c hc
      split_ifs at hs with hlive
      obtain rfl := Option.some.inj hs
      exact h.query hc (by simpa using hlive)
    · cases hs
  | get =>
    simp only [Stream.step] at hs
    split at hs
    · rename_i c hc
      split at hs
      · rename_i x rest hq
        split_ifs at hs with hopen
        obtain rfl := Option.some.inj hs
        rw [Bool.and_eq_true] at hopen
        exact h.get hc hq hopen.1
      · cases hs
    · cases hs
  | deliver =>
    obtain ⟨c, hc, hs⟩ := Option.bind_eq_some_iff.1 hs
    obtain ⟨x, hx, rfl⟩ := Option.map_eq_some_iff.1 hs
    exact h.deliver hc (hi c hc) hx
  | drop =>
    simp only [Stream.step] at hs
    split_ifs at hs with hc
    · obtain ⟨c, hc⟩ := Option.isSome_iff_exists.1 hc
      obtain rfl := Option.some.inj hs
      exact h.drop hc

end SyncCursor

/-! ### Two runs -/

section Replays

end Replays

/-- A client connects and catches up; three transactions start one after the other. -/
def caughtUp : List Input :=
  [.connect, .query, .query, .query, .query, .query, .query, .query, .deliver,
    .tick, .start, .tick, .start, .tick, .start]

end Archon.Stream

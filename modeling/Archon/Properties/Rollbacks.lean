import Archon.Frontend.Outbox
import Archon.Properties.LocalSaves

/-!
# Rejected actions (`tournament-actions.ts:241-262`, `376`)

The engine leaves `modified` alone, so with no other write every rejection finds the tournament as
its own action left it and puts back what that action was taken on. The rejection handled last
decides.
-/

namespace Archon.Frontend
open Engine Backend

section Rejections

variable {rs : Seating.RandomSource} {dir : Directory} {uid : Uid} {c : LocalCall}
variable {s s' : OptimisticStore} {current t : Tournament} {decks : List StoredDeck}
variable {tap : Tap} {taps : List Tap} {e : PendingAction} {entries replies : List PendingAction}
variable {m : Option Stamp}

theorem modified_of_run {r : Tournament × List DeckOp}
    (h : c.run rs dir uid current decks = some r) :
    r.1.modified = current.modified := by
  unfold LocalCall.run at h
  split at h
  · cases h
  split at h
  · have hrun := toOption_eq_some.1 h
    have haccept : acceptEvent rs current (c.input dir uid current decks) = .ok r.1 := by
      rw [acceptEvent, hrun]
      rfl
    exact (record_of_accept haccept).2
  · cases h

/-- The store holds a tournament saved at `m`. -/
def SavedAt (m : Option Stamp) (s : OptimisticStore) :
    Prop := s.tournament.map (·.modified) = some m

/-- The entry is of an action taken on a tournament saved at `m`. -/
def TakenAt (m : Option Stamp) (e : PendingAction) : Prop :=
  e.modified = m ∧ e.tournament.modified = m

theorem taken_of_takeAction (h : takeAction rs uid s tap = some (s', e)) :
    s.tournament = some e.tournament ∧
      ∃ m, SavedAt m s ∧ SavedAt m s' ∧ TakenAt m e := by
  unfold takeAction at h
  obtain ⟨current, hcurrent, h⟩ := Option.bind_eq_some_iff.1 h
  obtain ⟨r, hrun, h⟩ := Option.map_eq_some_iff.1 h
  cases h
  have hmodified := modified_of_run hrun
  refine ⟨hcurrent, current.modified, ?_, ?_, hmodified, rfl⟩
  · rw [SavedAt, hcurrent, Option.map_some]
  · exact congrArg some hmodified

theorem taken_of_takeActions (h : takeActions rs uid s taps = some (s', entries)) :
    (entries = [] ∧ s' = s) ∨
      ∃ e rest, entries = e :: rest ∧ s.tournament = some e.tournament ∧
        ∃ m, SavedAt m s' ∧ ∀ e ∈ entries, TakenAt m e := by
  induction taps generalizing s entries with
  | nil =>
    cases h
    exact .inl ⟨rfl, rfl⟩
  | cons tap taps ih =>
    rw [takeActions] at h
    obtain ⟨⟨s₁, e⟩, hfirst, h⟩ := Option.bind_eq_some_iff.1 h
    obtain ⟨⟨s₂, rest⟩, hrest, h⟩ := Option.map_eq_some_iff.1 h
    cases h
    obtain ⟨hon, m, -, hsaved, htaken⟩ := taken_of_takeAction hfirst
    refine .inr ⟨e, rest, rfl, hon, m, ?_⟩
    rcases ih hrest with ⟨rfl, hsame⟩ | ⟨e', rest', rfl, hhead, m', hlast, hall⟩
    · exact ⟨hsame ▸ hsaved, List.forall_mem_singleton.2 htaken⟩
    · have hm : m' = m := by
        rw [SavedAt, hhead] at hsaved
        exact (hall e' List.mem_cons_self).2.symm.trans (Option.some.inj hsaved)
      exact ⟨hm ▸ hlast, List.forall_mem_cons.2 ⟨htaken, hm ▸ hall⟩⟩

theorem rollback_tournament (uid : Uid) (hs : SavedAt m s) (he : TakenAt m e) :
    (rollbackTournamentAction uid s e).tournament = some e.tournament := by
  obtain ⟨t, ht, hmodified⟩ := Option.map_eq_some_iff.1 hs
  have hsame : s.tournament.all (fun t => t.modified == e.modified) = true := by
    rw [ht, Option.all_some, hmodified, he.1]
    exact beq_self_eq_true _
  exact if_pos hsame

theorem settled_tournament (hs : SavedAt m s) (he : ∀ e ∈ replies, TakenAt m e) :
    (replies.foldl (settleRejected uid) s).tournament =
      (replies.getLast?.map PendingAction.tournament).or s.tournament := by
  induction replies using List.reverseRecOn with
  | nil => rfl
  | append_singleton replies e ih =>
    have hbefore := fun e' he' => he e' (List.mem_append_left _ he')
    have hsaved : SavedAt m (replies.foldl (settleRejected uid) s) := by
      rw [SavedAt, ih hbefore]
      cases hlast : replies.getLast? with
      | none => exact hs
      | some e' => exact congrArg some (hbefore e' (List.mem_of_getLast? hlast)).2
    rw [List.foldl_append, List.getLast?_append]
    exact rollback_tournament uid hsaved (he e
      (List.mem_append_right _ (List.mem_singleton_self e)))

/-- Actions taken one on top of another and all rejected leave the tournament as before the first
exactly when the one answered last was taken on that tournament. -/
theorem rejections_restore_iff (h : takeActions rs uid s taps = some (s', entries))
    (hreplies : replies.Perm entries) :
    (replies.foldl (settleRejected uid) s').tournament = s.tournament ↔
      ∀ e ∈ replies.getLast?, some e.tournament = s.tournament := by
  rcases taken_of_takeActions h with ⟨rfl, rfl⟩ | ⟨e, rest, rfl, -, m, hsaved, htaken⟩
  · rw [hreplies.eq_nil]
    exact iff_of_true rfl fun _ he => by cases he
  · rw [settled_tournament hsaved fun e he => htaken e (hreplies.mem_iff.1 he)]
    cases hlast : replies.getLast? with
    | none =>
      have hnil := (List.getLast?_eq_none_iff.1 hlast ▸ hreplies).symm.eq_nil
      cases hnil
    | some e => simp

end Rejections

/-! ### Two arrivals -/

/-- The event in registration, on the organizer's device. -/
def registering : OptimisticStore := ⟨some event.doc, ∅, []⟩

def arrivalTaps : List Tap :=
  [⟨emptyDirectory, arrival "a", "1"⟩, ⟨emptyDirectory, arrival "b", "2"⟩]

/-- Rejected in the order they were posted in, the first player stays. -/
theorem arrival_left_over : ¬∀ (rs : Seating.RandomSource) (uid : Uid) (s s' : OptimisticStore)
    (taps : List Tap) (entries replies : List PendingAction),
    takeActions rs uid s taps = some (s', entries) → replies.Perm entries →
      (replies.foldl (settleRejected uid) s').tournament = s.tournament := by
  intro hall
  have hrun : (takeActions fixedOrder "event" registering arrivalTaps).any (fun r =>
      (r.2.foldl (settleRejected "event") r.1).tournament.any fun t =>
        t.players.length == 1) = true := by
    decide +kernel
  obtain ⟨r, htaken, hleft⟩ := (Option.any_eq_true _ _).1 hrun
  rw [hall _ _ _ _ _ _ _ htaken (.refl _)] at hleft
  cases hleft

theorem arrivals_restored : ∃ s' entries,
    takeActions fixedOrder "event" registering arrivalTaps = some (s', entries) ∧
      entries.length = 2 ∧
      (entries.reverse.foldl (settleRejected "event") s').tournament = some event.doc := by
  have hrun : (takeActions fixedOrder "event" registering arrivalTaps).any
      (fun r => r.2.length == 2) = true := by
    decide +kernel
  obtain ⟨⟨s', entries⟩, htaken, hlength⟩ := (Option.any_eq_true _ _).1 hrun
  refine ⟨s', entries, htaken, beq_iff_eq.1 hlength, ?_⟩
  refine (rejections_restore_iff htaken entries.reverse_perm).2 fun e he => ?_
  rcases taken_of_takeActions htaken with ⟨rfl, -⟩ | ⟨first, rest, rfl, hfirst, -⟩
  · cases he
  · rw [List.getLast?_reverse, List.head?_cons, Option.mem_some_iff] at he
    rw [← he]
    exact hfirst.symm

end Archon.Frontend

import Archon.Engine.Entries
import Archon.Engine.Scenario

/-!
# One roster entry per player

Every way onto the roster looks for an entry of the player first, except the archived sheet, which
lists its players as they come.
-/

namespace Archon.Engine
open Guards Seating

/-- No two roster entries have the same uid. -/
def RosterUnique (t : Tournament) : Prop := (rosterUids t.players).Nodup

instance (t : Tournament) : Decidable (RosterUnique t) :=
  inferInstanceAs (Decidable (rosterUids t.players).Nodup)

/-- An archived sheet lists nobody twice, the winner apart. -/
def ListsOnce (_ : Tournament) (i : EventInput) : Prop :=
  match i.event with
  | .setArchivalResults sheet => (sheet.players.filter fun p => p != sheet.winner).Nodup
  | _ => True

instance (t : Tournament) (i : EventInput) : Decidable (ListsOnce t i) := by
  unfold ListsOnce
  generalize i.event = e
  induction e using TournamentEvent.casesOn <;> infer_instance

section RosterUnique

variable {rs : RandomSource} {t t' : Tournament} {i : EventInput}

theorem nodup_archivalOrder (sheet : ArchivalSheet) :
    (archivalOrder sheet).Nodup ↔ (sheet.players.filter fun p => p != sheet.winner).Nodup := by
  rw [archivalOrder, List.nodup_cons]
  exact and_iff_right (by simp)

theorem rosterUnique_archival (h : RosterUnique t) {sheet : ArchivalSheet}
    (hwinner : sheet.winner ∈ sheet.players) :
    RosterUnique (setArchivalResultsDoc t sheet) ↔
      (sheet.players.filter fun p => p != sheet.winner).Nodup := by
  have huids : rosterUids (setArchivalResultsDoc t sheet).players =
      (archivalOrder sheet).map some ++
        rosterUids (t.players.filter fun p => p.userUid.getD "" == "") := by
    simp [setArchivalResultsDoc, rosterUids, archivalPlayer, Function.comp_def]
  have hnameless : (rosterUids (t.players.filter fun p => p.userUid.getD "" == "")).Nodup :=
    h.sublist (List.filter_sublist.map _)
  have hapart : List.Disjoint ((archivalOrder sheet).map some)
      (rosterUids (t.players.filter fun p => p.userUid.getD "" == "")) := by
    intro uid hlisted hkept
    obtain ⟨u, hu, rfl⟩ := List.mem_map.1 hlisted
    obtain ⟨p, hp, hpu⟩ := List.mem_map.1 hkept
    have hempty : u = "" := by simpa [hpu] using (List.mem_filter.1 hp).2
    have hmem : u ∈ sheet.players := by
      rcases List.mem_cons.1 hu with rfl | hu
      · exact hwinner
      · exact (List.mem_filter.1 hu).1
    exact sheet.named u hmem hempty
  rw [RosterUnique, huids, List.nodup_append', ← nodup_archivalOrder]
  constructor
  · exact fun hnodup => hnodup.1.of_map _
  · exact fun hnodup => ⟨hnodup.map (Option.some_injective _), hnameless, hapart⟩

theorem RosterUnique.step (h : RosterUnique t) (hok : ListsOnce t i) (heff : Effect rs t i t') :
    RosterUnique t' := by
  cases rosterChange_of_effect heff with
  | same huids =>
    rw [RosterUnique, huids]
    exact h
  | joined uid hnew huids =>
    rw [RosterUnique, huids]
    refine List.Nodup.append h (List.nodup_singleton _) (List.disjoint_singleton.2 ?_)
    exact playerExists_eq_false.1 hnew
  | left idx hplayers =>
    rw [RosterUnique, hplayers]
    exact h.sublist ((List.eraseIdx_sublist _ _).map _)
  | listed sheet he hwinner hdoc =>
    simp only [ListsOnce, he] at hok
    exact hdoc ▸ (rosterUnique_archival h hwinner).2 hok

/-- In every run whose archived sheets list nobody twice, no two roster entries share a uid. -/
theorem rosterUnique_of_reaches (h : (engineSystem rs).Reaches ListsOnce t) : RosterUnique t := by
  refine h.invariant (fun t ht => ?_) fun t i t' hp hok hs => hp.step hok (effect_of_acceptEvent hs)
  obtain ⟨request, actor, ht⟩ := ht
  rw [createTournament_eq ht]
  exact List.nodup_nil

end RosterUnique

/-! ### Archived sheets -/

/-- A finished tournament without play, and the sheet of its results. -/
def archived (players : List Uid) (h : ∀ p ∈ players, p ≠ "") : List TournamentEvent :=
  gathering ["x"] ++ [.finishTournament, .setArchivalResults ⟨"w", players, 5, h⟩]

theorem archived_rosterUnique :
    ∃ t, t.players.length = 2 ∧ RosterUnique t := by
  obtain ⟨t, ht, hp⟩ := exists_reaches_of_replay ListsOnce
    ((archived ["w", "p"] (by decide)).map sent) (fun t => t.players.length == 2)
    (by decide +kernel)
  exact ⟨t, by simpa using hp, rosterUnique_of_reaches ht⟩

/-- A player listed twice gets two entries. -/
theorem archivedTwice_not_rosterUnique :
    ∃ t, (engineSystem fixedOrder).Reachable t ∧ ¬RosterUnique t := by
  obtain ⟨t, ht, hp⟩ := exists_reaches_of_replay anyEvent
    ((archived ["w", "p", "p"] (by decide)).map sent) (fun t => !decide (RosterUnique t))
    (by decide +kernel)
  exact ⟨t, ht, by simpa using hp⟩

end Archon.Engine

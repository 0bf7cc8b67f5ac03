import Archon.Backend.OnlineRows
import Archon.Backend.TournamentRoutes

/-!
# Rows of tournaments and sanctions

What follows the save of a row (deck operations, withdrawn decks, ratings and wins) writes rows of
decks and members only. `Spares a b`: the two tables hold the same tournaments and sanctions.
-/

namespace Archon.Backend
open Engine Guards Table

/-- The table `b` holds the tournaments and the sanctions of `a`. -/
structure Spares (a b : Objects) : Prop where
  keyed : WellKeyed b
  tournaments : ∀ uid, b.tournament? uid = a.tournament? uid
  sanctions : ∀ uid, b.sanction? uid = a.sanction? uid

/-- An object that is neither a tournament nor a sanction, over a row that is none either. -/
def Aside (objects : Objects) (uid : Uid) (o : StoredObject) : Prop :=
  objects.tournament? uid = none ∧ objects.sanction? uid = none ∧
    o.asTournament = none ∧ o.asSanction = none

section RowFrames

variable {env : Env} {objects a b c : Objects} {uid tournamentUid : Uid} {t : StoredTournament}
variable {s : StoredSanction} {u : User} {o : StoredObject}

theorem Spares.refl (h : WellKeyed a) : Spares a a := ⟨h, fun _ => rfl, fun _ => rfl⟩

theorem Spares.trans (h : Spares a b) (h' : Spares b c) : Spares a c where
  keyed := h'.keyed
  tournaments uid := (h'.tournaments uid).trans (h.tournaments uid)
  sanctions uid := (h'.sanctions uid).trans (h.sanctions uid)

theorem sanction?_congr (h : b.lookup uid = a.lookup uid) : b.sanction? uid = a.sanction? uid := by
  rw [Objects.sanction?, Objects.sanction?, find?_congr h]

theorem spares_of_written (h : Written (Aside a) a b) (hb : WellKeyed b) : Spares a b where
  keyed := hb
  tournaments uid := by
    rcases h uid with heq | ⟨row, hrow, hnone, -, hobject, -⟩
    · exact tournament?_congr heq
    · rw [hnone, Objects.tournament?, Objects.find?, hrow]
      exact hobject
  sanctions uid := by
    rcases h uid with heq | ⟨row, hrow, -, hnone, -, hobject⟩
    · exact sanction?_congr heq
    · rw [hnone, Objects.sanction?, Objects.find?, hrow]
      exact hobject

theorem readers_of_find? (h : objects.find? uid = some o) :
    objects.tournament? uid = o.asTournament ∧ objects.sanction? uid = o.asSanction := by
  rw [Objects.tournament?, Objects.sanction?, h]
  exact ⟨rfl, rfl⟩

theorem aside_of_isUser (h : IsUser objects uid) (u : User) : Aside objects uid (.user u) := by
  obtain ⟨v, hv⟩ := Option.isSome_iff_exists.1 h
  obtain ⟨ht, hs⟩ := readers_of_find? (user?_eq_some.1 hv)
  exact ⟨ht, hs, rfl, rfl⟩

theorem aside_of_isDeckOf (h : IsDeckOf objects tournamentUid uid) (d : StoredDeck) :
    Aside objects uid (.deck d) := by
  obtain ⟨e, he, -⟩ := h
  obtain ⟨ht, hs⟩ := readers_of_find? he
  exact ⟨ht, hs, rfl, rfl⟩

theorem readers_of_lookup (h : objects.lookup uid = none) :
    objects.tournament? uid = none ∧ objects.sanction? uid = none := by
  rw [Objects.tournament?, Objects.sanction?, Objects.find?, h]
  exact ⟨rfl, rfl⟩

theorem mem_sanctions (h : WellKeyed objects) :
    s ∈ objects.sanctions ↔ objects.sanction? s.uid = some s := by
  rw [Objects.sanctions, List.mem_filterMap, sanction?_eq_some]
  constructor
  · rintro ⟨x, hx, hs⟩
    have hobject : x.2.object = .sanction s := by
      cases ho : x.2.object with
      | sanction s' =>
        rw [ho] at hs
        exact congrArg StoredObject.sanction (Option.some.inj hs)
      | _ => rw [ho] at hs; cases hs
    have hrow : objects.find? x.1 = some (.sanction s) := by
      rw [find?_eq_some, ← hobject]
      exact ⟨x.2.deletedAt, mem_rows.1 hx⟩
    have hkey : s.uid = x.1 := h.uid_eq hrow
    rwa [hkey]
  · intro hs
    obtain ⟨deletedAt, hrow⟩ := find?_eq_some.1 hs
    exact ⟨(s.uid, ⟨.sanction s, deletedAt⟩), mem_rows.2 hrow, rfl⟩

/-! ### What follows a save -/

theorem spares_processDeckOps (h : WellKeyed objects)
    (hfresh : ∀ k, objects.lookup (env.freshUid k) = none) (ops : List DeckOp) :
    Spares objects (processDeckOps env objects tournamentUid ops) := by
  have hwritten := @written_processDeckOps env objects tournamentUid (Aside objects) h
    (fun _ d hk => aside_of_isDeckOf hk d) ops fun _ _ _ k _ => by
      obtain ⟨ht, hs⟩ := readers_of_lookup (hfresh k)
      exact ⟨ht, hs, rfl, rfl⟩
  exact spares_of_written hwritten.1 hwritten.2

theorem spares_withdrawPrivateDecks (h : WellKeyed objects) :
    Spares objects (withdrawPrivateDecks env objects tournamentUid) := by
  have hwritten := @written_withdrawPrivateDecks env objects tournamentUid (Aside objects) h
    fun _ d hk => aside_of_isDeckOf hk d
  exact spares_of_written hwritten.1 hwritten.2

theorem spares_recomputeWins (h : WellKeyed objects) (uids : List Uid) :
    Spares objects (recomputeWins env objects uids) := by
  have hframed : Framed (Aside objects) (fun _ => True) objects (recomputeWins env objects uids) :=
    framed_recomputeWins h uids fun _ _ hk u => aside_of_isUser hk u
  exact spares_of_written hframed.written hframed.keyed

theorem spares_recomputeRatings (h : WellKeyed objects) (uids : List Uid)
    (category : RatingCategory) :
    Spares objects (recomputeRatingsForPlayers env objects uids category) := by
  have hframed : Framed (Aside objects) (fun _ => True) objects
      (recomputeRatingsForPlayers env objects uids category) :=
    framed_recomputeRatings h uids category fun _ _ hk u => aside_of_isUser hk u
  exact spares_of_written hframed.written hframed.keyed

theorem spares_recomputePlayers (h : WellKeyed objects) (players : List Uid)
    (category : RatingCategory) :
    Spares objects
      (recomputeWins env (recomputeRatingsForPlayers env objects players category) players) := by
  have hrated : Spares objects (recomputeRatingsForPlayers env objects players category) :=
    spares_recomputeRatings h players category
  exact hrated.trans (spares_recomputeWins hrated.keyed players)

theorem spares_afterEvent {before after : StoredTournament} {event : TournamentEvent}
    {ops : List DeckOp} (h : WellKeyed objects)
    (hfresh : ∀ k, objects.lookup (env.freshUid k) = none) :
    Spares objects (afterEvent env objects before after event ops) := by
  unfold afterEvent
  extract_lets wasFinished isFinished decked withdrawn players category won old rated winners moved
  have hdecked : Spares objects decked := spares_processDeckOps h hfresh ops
  have hwithdrawn : Spares objects withdrawn := by
    dsimp only [withdrawn]
    split
    · exact hdecked.trans (spares_withdrawPrivateDecks hdecked.keyed)
    · exact hdecked
  have hwon : Spares objects won :=
    hwithdrawn.trans (spares_recomputePlayers hwithdrawn.keyed players category)
  have hrated : Spares objects rated := by
    dsimp only [rated]
    split_ifs
    · exact hwon
    · exact hwon.trans (spares_recomputeRatings hwon.keyed players _)
    · exact hwithdrawn
  split
  · exact hrated.trans (spares_recomputeWins hrated.keyed winners)
  · exact hrated

theorem spares_reflectSanction {change : SanctionChange} (h : WellKeyed objects)
    (ht : objects.tournament? tournamentUid = some t) :
    (reflectSanction env objects tournamentUid change = objects ∧ t.doc.rounds = [] ∧
      (change.target t.toEngine (tournamentSanctions objects tournamentUid)).any
        (fun d => playerExists t.doc.players d.1) = false) ∨
    Spares (saveTournament objects (reflectedRow env objects tournamentUid t change))
      (reflectSanction env objects tournamentUid change) := by
  unfold reflectSanction
  split
  · rename_i hnone
    rw [hnone] at ht
    cases ht
  · rename_i t' ht'
    obtain rfl : t = t' := Option.some.inj (ht.symm.trans ht')
    extract_lets sanctions doc found saved ops decked
    have hsaved : WellKeyed saved := wellKeyed_saveTournament h _
    have hdecked : Spares saved decked := by
      have hwritten := @written_processDeckOps env saved tournamentUid (Aside saved) hsaved
        (fun _ d hk => aside_of_isDeckOf hk d) ops fun op hop hopens => by
          rw [opensDeck_published hop] at hopens
          cases hopens
      exact spares_of_written hwritten.1 hwritten.2
    split_ifs with hnothing hwinner
    · rw [Bool.and_eq_true, List.isEmpty_iff, Bool.not_eq_true'] at hnothing
      exact .inl ⟨rfl, hnothing⟩
    · exact .inr (hdecked.trans (spares_recomputeWins hdecked.keyed _))
    · exact .inr hdecked

/-! ### The row saved over itself -/

theorem sanction?_saveObject {deletedAt : Option Stamp} {t' : StoredTournament}
    (ht : objects.tournament? uid = some t) (k : Uid) :
    (saveObject objects uid (.tournament t') deletedAt).sanction? k = objects.sanction? k := by
  by_cases hk : k = uid
  · subst hk
    rw [(readers_of_find? (tournament?_eq_some.1 ht)).2, Objects.sanction?, Objects.find?,
      lookup_saveObject]
    rfl
  · exact sanction?_congr (lookup_saveObject_ne hk)

theorem tournament?_saveObject_ne {deletedAt : Option Stamp} {t' : StoredTournament} {k : Uid}
    (hk : k ≠ uid) :
    (saveObject objects uid (.tournament t') deletedAt).tournament? k = objects.tournament? k :=
  tournament?_congr (lookup_saveObject_ne hk)

theorem spares_saveTournament (h : WellKeyed objects) (ht : objects.tournament? uid = some t) :
    Spares objects (saveTournament objects t) where
  keyed := wellKeyed_saveTournament h t
  tournaments k := by
    have huid : t.uid = uid := h.uid_eq (tournament?_eq_some.1 ht)
    by_cases hk : k = uid
    · rw [hk, ht, tournament?_saveTournament_of h ht rfl]
    · exact tournament?_saveObject_ne (huid ▸ hk)
  sanctions k := by
    have huid : t.uid = uid := h.uid_eq (tournament?_eq_some.1 ht)
    exact sanction?_saveObject (huid.symm ▸ ht) k

theorem spares_afterOnline {request : GoOnlineRequest} {updated : StoredTournament}
    (h : WellKeyed objects) (hrow : objects.tournament? uid = some updated) :
    ∃ row, RecomputedRow env updated row ∧
      Spares (saveTournament objects row) (afterOnline env uid request objects updated) := by
  have huid : updated.uid = uid := h.uid_eq (tournament?_eq_some.1 hrow)
  unfold afterOnline
  extract_lets withdrawn reflected row players rated
  have hwithdrawn : Spares objects withdrawn := by
    dsimp only [withdrawn]
    split
    · exact spares_withdrawPrivateDecks h
    · exact Spares.refl h
  have hkept : withdrawn.tournament? uid = some updated := (hwithdrawn.tournaments uid).trans hrow
  have hreflected : RecomputedRow env updated row ∧
      Spares (saveTournament objects row) reflected := by
    have hsame : Spares (saveTournament objects updated) withdrawn := by
      have hself := spares_saveTournament h hrow
      exact ⟨hwithdrawn.keyed, fun k => (hwithdrawn.tournaments k).trans (hself.tournaments k).symm,
        fun k => (hwithdrawn.sanctions k).trans (hself.sanctions k).symm⟩
    dsimp only [row, reflected]
    split
    · exact ⟨.inl rfl, hsame⟩
    · rcases @spares_reflectSanction env withdrawn uid updated .adjust hwithdrawn.keyed hkept with
        ⟨heq, -⟩ | hspares
      · rw [heq, hkept, Option.getD_some]
        exact ⟨.inl rfl, hsame⟩
      · have hnew : (reflectedRow env withdrawn uid updated .adjust).uid = updated.uid :=
          uid_reflectedRow env withdrawn uid updated .adjust
        have hread := hspares.tournaments uid
        rw [tournament?_saveTournament_of hwithdrawn.keyed hkept hnew] at hread
        rw [hread, Option.getD_some]
        refine ⟨.inr ⟨_, rfl⟩, hspares.keyed, fun k => ?_, fun k => ?_⟩
        · rw [hspares.tournaments k]
          by_cases hk : k = uid
          · rw [hk, tournament?_saveTournament_of hwithdrawn.keyed hkept hnew,
              tournament?_saveTournament_of h hrow hnew]
          · have hk' : k ≠ (reflectedRow env withdrawn uid updated .adjust).uid := by
              rwa [hnew, huid]
            exact (tournament?_saveObject_ne hk').trans
              ((hwithdrawn.tournaments k).trans (tournament?_saveObject_ne hk').symm)
        · rw [hspares.sanctions k]
          have hat : ∀ {table : Objects}, table.tournament? uid = some updated →
              table.tournament? (reflectedRow env withdrawn uid updated .adjust).uid =
                some updated := fun hu => by rwa [hnew, huid]
          exact (sanction?_saveObject (hat hkept) k).trans
            ((hwithdrawn.sanctions k).trans (sanction?_saveObject (hat hrow) k).symm)
  split_ifs
  · exact ⟨row, hreflected.1, hreflected.2.trans
      (spares_recomputePlayers hreflected.2.keyed players _)⟩
  · exact ⟨row, hreflected⟩

end RowFrames

end Archon.Backend

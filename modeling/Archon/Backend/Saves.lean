import Archon.Backend.OnlineRows
import Archon.Backend.Requests

/-!
# Rows saved from their objects

`save_object_from_model` takes the `deleted_at` column from the object it saves. `Saves a b`: the
table `b` is reached from `a` by such saves alone. What follows the save of a tournament row is of
this kind; the routes that hand the row itself to `save_object` are not.
-/

namespace Archon.Backend
open Engine Guards

/-- The `deleted_at` of the stored document. -/
def StoredObject.deletedAt : StoredObject → Option Stamp
  | .user u => u.deletedAt
  | .sanction s => s.deletedAt
  | .tournament t => t.deletedAt
  | .deck d => d.deletedAt
  | .league l => l.deletedAt
  | .promo _ deletedAt => deletedAt

/-- `db.py:455`. -/
def saveModel (objects : Objects) (o : StoredObject) : Objects :=
  saveObject objects o.uid o o.deletedAt

/-- The tables that saves from objects lead to. -/
inductive Saves (a : Objects) : Objects → Prop
  | refl : Saves a a
  | save {b : Objects} (o : StoredObject) : Saves a b → Saves a (saveModel b o)

section Saves

variable {env : Env} {objects objects' a b c : Objects} {r : Resolution} {uid : Uid}

theorem Saves.one (o : StoredObject) : Saves a (saveModel a o) := .save o .refl

theorem Saves.trans (hab : Saves a b) (hbc : Saves b c) : Saves a c := by
  induction hbc with
  | refl => exact hab
  | save o _ ih => exact ih.save o

/-- The run rule: what each save from an object keeps. -/
theorem Saves.invariant {P : Objects → Prop} (hstep : ∀ b o, P b → P (saveModel b o))
    (h : Saves a b) (ha : P a) : P b := by
  induction h with
  | refl => exact ha
  | save o _ ih => exact hstep _ o ih

theorem saves_foldl {σ ι : Type} (table : σ → Objects) {f : σ → ι → σ}
    (hf : ∀ s i, Saves (table s) (table (f s i))) (xs : List ι) (s : σ) :
    Saves (table s) (table (xs.foldl f s)) := by
  induction xs generalizing s with
  | nil => exact .refl
  | cons x xs ih =>
    have hhead : Saves (table s) (table (f s x)) := hf s x
    exact hhead.trans (ih (f s x))

/-! ### Decks, wins and ratings -/

theorem saves_deckPass_change {pass : DeckPass} {p : StoredDeck → Bool}
    {f : StoredDeck → StoredDeck} : Saves pass.objects (pass.change p f).objects := by
  unfold DeckPass.change
  split
  · exact .one (.deck _)
  · exact .refl

theorem saves_processDeckOp (tournamentUid : Uid) (pass : DeckPass) (op : DeckOp) :
    Saves pass.objects (processDeckOp env tournamentUid pass op).objects := by
  cases op with
  | upsert =>
    dsimp only [processDeckOp]
    split
    · exact .one (.deck _)
    · exact .one (.deck _)
  | delete =>
    unfold processDeckOp
    exact saves_foldl DeckPass.objects (fun _ _ => .one (.deck _)) _ pass
  | setRound | setPublication | setAttribution | setPrivate | logView =>
    exact saves_deckPass_change

theorem saves_processDeckOps (tournamentUid : Uid) (ops : List DeckOp) :
    Saves objects (processDeckOps env objects tournamentUid ops) :=
  saves_foldl DeckPass.objects (saves_processDeckOp tournamentUid) ops
    ⟨objects, getDecksForTournament objects tournamentUid, 0⟩

theorem saves_withdrawPrivateDecks : Saves objects (withdrawPrivateDecks env objects uid) :=
  saves_foldl id (fun _ _ => .one (.deck _)) _ objects

theorem saves_recomputeWins (uids : List Uid) : Saves objects (recomputeWins env objects uids) := by
  refine saves_foldl id (fun table k => ?_) uids objects
  dsimp only [id]
  split
  · split_ifs
    · exact .refl
    · exact .one (.user _)
  · exact .refl

theorem saves_recomputeRatings (uids : List Uid) (category : RatingCategory) :
    Saves objects (recomputeRatingsForPlayers env objects uids category) := by
  refine saves_foldl id (fun table k => ?_) uids objects
  dsimp only [id]
  split
  · split_ifs
    · exact .refl
    · exact .one (.user _)
  · exact .refl

theorem saves_recomputePlayers (players : List Uid) (category : RatingCategory) :
    Saves objects
      (recomputeWins env (recomputeRatingsForPlayers env objects players category) players) :=
  (saves_recomputeRatings players category).trans (saves_recomputeWins players)

theorem saves_afterEvent {before after : StoredTournament} {event : TournamentEvent}
    {ops : List DeckOp} : Saves objects (afterEvent env objects before after event ops) := by
  unfold afterEvent
  extract_lets wasFinished isFinished decked withdrawn players category won old rated winners moved
  have hwithdrawn : Saves objects withdrawn := by
    dsimp only [withdrawn]
    split
    · exact (saves_processDeckOps _ ops).trans saves_withdrawPrivateDecks
    · exact saves_processDeckOps _ ops
  have hrated : Saves objects rated := by
    have hwon : Saves objects won := hwithdrawn.trans (saves_recomputePlayers players category)
    dsimp only [rated]
    split_ifs
    · exact hwon
    · exact hwon.trans (saves_recomputeRatings players old)
    · exact hwithdrawn
  split
  · exact hrated.trans (saves_recomputeWins winners)
  · exact hrated

theorem saves_reflectSanction {change : SanctionChange} :
    Saves objects (reflectSanction env objects uid change) := by
  unfold reflectSanction
  split
  · exact .refl
  · rename_i t _
    extract_lets sanctions doc found saved ops decked
    have hsaved : Saves objects saved := .one (.tournament _)
    have hdecked : Saves objects decked := hsaved.trans (saves_processDeckOps uid ops)
    split_ifs
    · exact .refl
    · exact hdecked.trans (saves_recomputeWins _)
    · exact hdecked

theorem saves_softDeleteTournament (t : StoredTournament) :
    Saves objects (softDeleteTournament env objects uid t) := by
  unfold softDeleteTournament
  extract_lets _ saved decked
  have hsaved : Saves objects saved := .one (.tournament _)
  have hdecked : Saves saved decked := saves_foldl id (fun _ _ => .one (.deck _)) _ saved
  exact (hsaved.trans hdecked).trans (saves_foldl id (fun _ _ => .one (.sanction _)) _ decked)

/-! ### Going online -/

theorem saves_resolveOfflinePlayers (store : Store) (country : Option String) (organizer : Uid)
    (players : List OfflinePlayerData) :
    Saves store.objects (resolveOfflinePlayers env store country organizer players).objects := by
  refine saves_foldl Resolution.objects (fun pass p => ?_) players ⟨store.objects, [], [], 0⟩
  unfold resolveOfflinePlayer
  extract_lets remember
  split
  · dsimp only [remember]
    split_ifs
    · exact .one (.user _)
    · exact .refl
  · exact .one (.user _)

theorem saves_saveOfflineSanctions (sanctions : List StoredSanction) :
    Saves objects (saveOfflineSanctions r objects sanctions) :=
  saves_foldl id (fun _ _ => .one (.sanction _)) sanctions objects

theorem saves_saveOfflineDecks {submissions : List DeckSubmission}
    (h : saveOfflineDecks r uid objects submissions = .ok objects') : Saves objects objects' := by
  refine foldlM_invariant (P := Saves objects) (fun table sub table' htable hstep => ?_)
    submissions objects objects' .refl h
  simp only [bind_eq_ok, pure_eq_ok] at hstep
  obtain ⟨deck, -, rfl⟩ := hstep
  exact htable.save (.deck deck)

theorem saves_afterOnline {request : GoOnlineRequest} {updated : StoredTournament} :
    Saves objects (afterOnline env uid request objects updated) := by
  unfold afterOnline
  extract_lets withdrawn reflected row players rated
  have hwithdrawn : Saves objects withdrawn := by
    dsimp only [withdrawn]
    split
    · exact saves_withdrawPrivateDecks
    · exact .refl
  have hreflected : Saves objects reflected := by
    dsimp only [reflected]
    split
    · exact hwithdrawn
    · exact hwithdrawn.trans saves_reflectSanction
  split
  · exact hreflected.trans (saves_recomputePlayers players _)
  · exact hreflected

end Saves

end Archon.Backend

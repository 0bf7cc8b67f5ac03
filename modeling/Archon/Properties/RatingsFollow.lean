import Archon.Backend.DeckSaves
import Archon.Backend.RequestRows
import Archon.Library.SortedView
import Archon.Properties.RatingsComplete
import Archon.Properties.Tombstones

/-!
# Ratings and wins follow an action (`tournaments.py:1372`)

After an action the backend recomputes the ratings and wins of the players left on the roster, and
the wins of an old and a new winner. Everyone else keeps what he had, which stays right exactly when
the tournament gives him the same entry, and the same win or none, before and after.
-/

namespace Archon.Backend
open Engine

/-! ### Who wins what -/

section Wins

variable {objects a b : Objects} {uid k : Uid} {row : Row} {t : StoredTournament}

theorem holdsDeck_iff {tournamentUid userUid : Uid} :
    (objects.rows.any fun r => r.2.deletedAt == none && r.2.object.asDeck.any fun d =>
        d.tournamentUid == tournamentUid && d.userUid == userUid) = true ↔
      HoldsDeck objects tournamentUid userUid := by
  rw [List.any_eq_true]
  constructor
  · rintro ⟨⟨uid, o, deletedAt⟩, hrow, hdeck⟩
    rw [Bool.and_eq_true, beq_iff_eq, Option.any_eq_true] at hdeck
    obtain ⟨hlive, d, hd, hof⟩ := hdeck
    rw [Bool.and_eq_true, beq_iff_eq, beq_iff_eq] at hof
    cases o with
    | deck e =>
      obtain rfl : e = d := Option.some.inj hd
      obtain rfl : deletedAt = none := hlive
      exact ⟨uid, e, mem_rows.1 hrow, hof.1, hof.2⟩
    | _ => cases hd
  · rintro ⟨uid, d, hrow, rfl, rfl⟩
    exact ⟨(uid, ⟨.deck d, none⟩), mem_rows.2 hrow, by simp [StoredObject.asDeck]⟩

theorem hofCandidate_congr (h : HoldsDeck b k t.doc.winner ↔ HoldsDeck a k t.doc.winner) :
    hofCandidate b k row t = hofCandidate a k row t := by
  unfold hofCandidate
  refine congrArg _ ?_
  rw [Bool.eq_iff_iff, holdsDeck_iff, holdsDeck_iff, h]

/-- The tournament counts as won by the member. -/
structure WonBy (objects : Objects) (k uid : Uid) (row : Row) (t : StoredTournament) : Prop where
  stored : objects.lookup k = some row
  object : row.object = .tournament t
  candidate : hofCandidate objects k row t = true
  attested : attestedWin t = true
  winner : t.doc.winner = uid

theorem mem_tournamentWins :
    k ∈ tournamentWins objects uid ↔ ∃ row t, WonBy objects k uid row t := by
  rw [tournamentWins, List.mem_insertionSort, List.mem_filterMap]
  constructor
  · rintro ⟨⟨k', row⟩, hrow, hwin⟩
    obtain ⟨t, ht, hwin⟩ := Option.bind_eq_some_iff.1 hwin
    obtain ⟨hcond, hk⟩ := Option.ite_none_right_eq_some.1 hwin
    obtain rfl : k' = k := Option.some.inj hk
    simp only [Bool.and_eq_true, beq_iff_eq] at hcond
    cases ho : row.object with
    | tournament t' =>
      obtain rfl : t' = t := by
        rw [ho] at ht
        exact Option.some.inj ht
      exact ⟨row, t', mem_rows.1 hrow, ho, hcond.1.1, hcond.1.2, hcond.2⟩
    | _ => rw [ho] at ht; cases ht
  · rintro ⟨row, t, h⟩
    refine ⟨(k, row), mem_rows.2 h.stored, ?_⟩
    simp [h.object, StoredObject.asTournament, h.candidate, h.attested, h.winner]

theorem nodup_tournamentWins (objects : Objects) (uid : Uid) :
    (tournamentWins objects uid).Nodup := by
  rw [tournamentWins, (List.perm_insertionSort _ _).nodup_iff, List.Nodup, List.pairwise_filterMap]
  refine (pairwise_rows objects).imp fun {r r'} hne x hx y hy => ?_
  obtain ⟨t, -, hx⟩ := Option.bind_eq_some_iff.1 hx
  obtain ⟨t', -, hy⟩ := Option.bind_eq_some_iff.1 hy
  rw [← Option.some.inj (Option.ite_none_right_eq_some.1 hx).2,
    ← Option.some.inj (Option.ite_none_right_eq_some.1 hy).2]
  exact hne

theorem tournamentWins_ext (h : ∀ k, k ∈ tournamentWins b uid ↔ k ∈ tournamentWins a uid) :
    tournamentWins b uid = tournamentWins a uid := by
  have hperm : (tournamentWins b uid).Perm (tournamentWins a uid) :=
    (List.perm_ext_iff_of_nodup (nodup_tournamentWins b uid) (nodup_tournamentWins a uid)).2 h
  exact hperm.eq_of_pairwise (fun _ _ _ _ hxy hyx => le_antisymm hxy hyx)
    (List.pairwise_insertionSort _ _) (List.pairwise_insertionSort _ _)

theorem tournamentWins_eq_iff
    (haway : ∀ k', k' ≠ k → (k' ∈ tournamentWins b uid ↔ k' ∈ tournamentWins a uid)) :
    tournamentWins b uid = tournamentWins a uid ↔
      (k ∈ tournamentWins b uid ↔ k ∈ tournamentWins a uid) := by
  constructor
  · intro h
    rw [h]
  · intro hat
    refine tournamentWins_ext fun k' => ?_
    by_cases hk : k' = k
    · rw [hk, hat]
    · exact haway k' hk

end Wins

/-! ### Who has what entry -/

/-- The entry the tournament `k` gives the member in the category, if any. -/
def entryOf (clock : Ratings.Clock) (objects : Objects) (category : RatingCategory) (uid k : Uid) :
    Option TournamentRatingEntry :=
  (Ratings.entriesFor clock objects category uid).find? fun e => e.tournamentUid == k

section Entries

variable {clock : Ratings.Clock} {a b : Objects} {category : RatingCategory} {uid k : Uid}

theorem entryOf_eq_some (h : WellKeyed a) {e : TournamentRatingEntry} :
    entryOf clock a category uid k = some e ↔
      e ∈ Ratings.entriesFor clock a category uid ∧ e.tournamentUid = k :=
  SortedView.find?_eq_some (nodup_entriesFor h)

theorem categoryRating_eq_iff {xs ys : List TournamentRatingEntry}
    (h : (xs.map TournamentRatingEntry.tournamentUid).Nodup) :
    Ratings.categoryRating xs = Ratings.categoryRating ys ↔ xs.Perm ys := by
  have hanti : ∀ x ∈ xs, ∀ y ∈ xs, Ratings.entryKey x ≤ Ratings.entryKey y →
      Ratings.entryKey y ≤ Ratings.entryKey x → x = y := by
    intro x hx y hy hxy hyx
    have hkey : Ratings.entryKey x = Ratings.entryKey y := le_antisymm hxy hyx
    have huid : x.tournamentUid = y.tournamentUid := congrArg (fun key => (ofLex key).2) hkey
    exact List.inj_on_of_nodup_map h hx hy huid
  have hsorted := @SortedView.insertionSort_eq_iff _ xs ys
    (fun x y => Ratings.entryKey x ≤ Ratings.entryKey y) _ _ _ hanti
  rw [← hsorted]
  constructor
  · exact fun heq => congrArg CategoryRating.tournaments heq
  · intro heq
    unfold Ratings.categoryRating
    rw [heq]

theorem rated_eq_iff (ha : WellKeyed a) (hb : WellKeyed b)
    (haway : ∀ e : TournamentRatingEntry, e.tournamentUid ≠ k →
      (e ∈ Ratings.entriesFor clock b category uid ↔
        e ∈ Ratings.entriesFor clock a category uid)) :
    Ratings.rated clock b category uid = Ratings.rated clock a category uid ↔
      entryOf clock b category uid k = entryOf clock a category uid k := by
  rw [Ratings.rated, Ratings.rated, categoryRating_eq_iff (nodup_entriesFor hb)]
  exact SortedView.perm_iff_find? (nodup_entriesFor hb) (nodup_entriesFor ha) haway

theorem ratingCategory_of_counts {objects : Objects} {t : StoredTournament}
    (h : Counts clock objects category uid t) : ratingCategory t.doc = category := by
  have hformat := h.format
  have honline := h.online
  unfold ratingCategory
  cases category with
  | constructedOnline | constructedOffline =>
    simp only [Ratings.formats, List.mem_cons, List.not_mem_nil, or_false] at hformat
    rcases hformat with hformat | hformat <;> simp [hformat, honline, Ratings.isOnline]
  | limitedOnline | limitedOffline =>
    have hlimited : t.doc.text .format = "Limited" := List.mem_singleton.1 hformat
    simp [hlimited, honline, Ratings.isOnline]

end Entries

/-! ### The save of a row -/

section SavedRow

variable {clock : Ratings.Clock} {objects : Objects} {t updated t' : StoredTournament}
variable {category : RatingCategory} {uid k : Uid}

theorem filterMap_saveRow (ht : objects.tournament? updated.uid = some t) {α : Type}
    {g : Uid × Row → Option α} (hg : ∀ k t x, g (k, ⟨.tournament t, x⟩) = none) :
    (saveRow objects updated).rows.filterMap g = objects.rows.filterMap g := by
  obtain ⟨deletedAt, hrow⟩ := find?_eq_some.1 (tournament?_eq_some.1 ht)
  refine filterMap_saveObject (hg _ _ _) fun row hold => ?_
  rw [hrow, Option.some_inj] at hold
  rw [← hold]
  exact hg _ _ _

theorem sanctions_saveRow (ht : objects.tournament? updated.uid = some t) :
    getSanctionsForTournament (saveRow objects updated) = getSanctionsForTournament objects := by
  have hsanctions : (saveRow objects updated).sanctions = objects.sanctions :=
    filterMap_saveRow ht fun _ _ _ => rfl
  funext uid
  rw [getSanctionsForTournament, hsanctions]
  rfl

theorem lookup_saveRow_ne (h : k ≠ updated.uid) :
    (saveRow objects updated).lookup k = objects.lookup k := lookup_saveObject_ne h

theorem mem_entriesFor_saveRow (h : WellKeyed objects)
    (ht : objects.tournament? updated.uid = some t) {e : TournamentRatingEntry}
    (hne : e.tournamentUid ≠ updated.uid) :
    e ∈ Ratings.entriesFor clock (saveRow objects updated) category uid ↔
      e ∈ Ratings.entriesFor clock objects category uid := by
  have hcounts : ∀ t' : StoredTournament, t'.uid ≠ updated.uid →
      (Counts clock (saveRow objects updated) category uid t' ↔
        Counts clock objects category uid t') := by
    intro t' hother
    have hlookup : (saveRow objects updated).lookup t'.uid = objects.lookup t'.uid :=
      lookup_saveRow_ne hother
    constructor
    · exact fun hc => ⟨hlookup ▸ hc.live, hc.finished, hc.format, hc.online, hc.window, hc.eligible,
        hc.played, sanctions_saveRow ht ▸ hc.competed⟩
    · exact fun hc => ⟨hlookup ▸ hc.live, hc.finished, hc.format, hc.online, hc.window, hc.eligible,
        hc.played, (sanctions_saveRow ht).symm ▸ hc.competed⟩
  rw [mem_entriesFor (wellKeyed_saveRow h updated), mem_entriesFor h, sanctions_saveRow ht]
  refine exists_congr fun t' => and_congr_left fun he => hcounts t' fun hkey => hne ?_
  rw [he]
  exact hkey

theorem holdsDeck_saveRow (ht : objects.tournament? updated.uid = some t) {userUid : Uid} :
    HoldsDeck (saveRow objects updated) k userUid ↔ HoldsDeck objects k userUid := by
  obtain ⟨deletedAt, hrow⟩ := find?_eq_some.1 (tournament?_eq_some.1 ht)
  have hlookup : ∀ deckUid d, (saveRow objects updated).lookup deckUid = some ⟨.deck d, none⟩ ↔
      objects.lookup deckUid = some ⟨.deck d, none⟩ := by
    intro deckUid d
    by_cases hkey : deckUid = updated.uid
    · rw [hkey, saveRow, lookup_saveObject, hrow]
      simp
    · rw [lookup_saveRow_ne hkey]
  simp only [HoldsDeck, hlookup]

theorem deckColumns_saveRow (h : DeckColumns objects) : DeckColumns (saveRow objects updated) := by
  intro uid d deletedAt hrow
  by_cases hkey : uid = updated.uid
  · rw [hkey, saveRow, lookup_saveObject] at hrow
    cases hrow
  · rw [lookup_saveRow_ne hkey] at hrow
    exact h uid d deletedAt hrow

theorem user?_saveRow (ht : objects.tournament? updated.uid = some t) (uid : Uid) :
    (saveRow objects updated).user? uid = objects.user? uid := by
  by_cases hkey : uid = updated.uid
  · rw [hkey, Objects.user?, Objects.user?, tournament?_eq_some.1 ht, Objects.find?, saveRow,
      lookup_saveObject]
    rfl
  · exact user?_congr (lookup_saveRow_ne hkey)

theorem mem_wins_saveRow (ht : objects.tournament? updated.uid = some t) (hne : k ≠ updated.uid) :
    k ∈ tournamentWins (saveRow objects updated) uid ↔ k ∈ tournamentWins objects uid := by
  simp only [mem_tournamentWins]
  refine exists_congr fun row => exists_congr fun t' => ?_
  have hcandidate :
      hofCandidate (saveRow objects updated) k row t' = hofCandidate objects k row t' :=
    hofCandidate_congr (holdsDeck_saveRow ht)
  constructor
  · exact fun h => ⟨lookup_saveRow_ne hne ▸ h.stored, h.object, hcandidate ▸ h.candidate,
      h.attested, h.winner⟩
  · exact fun h => ⟨(lookup_saveRow_ne hne).symm ▸ h.stored, h.object,
      hcandidate.symm ▸ h.candidate, h.attested, h.winner⟩

end SavedRow

/-! ### The deck operations -/

section Decks

variable {clock : Ratings.Clock} {env : Env} {a b : Objects} {tournamentUid uid k : Uid}
variable {named : Uid → Prop}

theorem SavesDecks.rated_eq (h : WellKeyed a) (hfresh : ∀ k, a.lookup (env.freshUid k) = none)
    (hab : SavesDecks env tournamentUid named a b) :
    Ratings.rated clock b = Ratings.rated clock a := by
  have hsanctions : b.sanctions = a.sanctions := hab.filterMap_rows h hfresh fun _ _ _ => rfl
  have hread : getSanctionsForTournament b = getSanctionsForTournament a := by
    funext uid
    rw [getSanctionsForTournament, hsanctions]
    rfl
  have hfinished : Ratings.finishedForCategory clock b = Ratings.finishedForCategory clock a := by
    funext format online
    exact hab.filterMap_rows h hfresh fun _ _ _ => by simp [StoredObject.asTournament]
  funext category uid
  rw [Ratings.rated, Ratings.entriesFor, hfinished, hread]
  rfl

theorem SavesDecks.user?_eq (h : WellKeyed a) (hfresh : ∀ k, a.lookup (env.freshUid k) = none)
    (hab : SavesDecks env tournamentUid named a b) (uid : Uid) : b.user? uid = a.user? uid := by
  obtain ⟨saves, rfl, hsaves⟩ := hab
  rcases lookup_saves a saves uid with ⟨d, hd, hkey, hrow⟩ | ⟨-, hsame⟩
  · have hnone : a.user? uid = none := by
      rw [Objects.user?, Objects.find?]
      cases hrow : a.lookup uid with
      | none => rfl
      | some row =>
        obtain ⟨e, he⟩ := SavesDecks.over h hfresh (hsaves d hd) row (hkey ▸ hrow)
        rw [Option.map_some, he]
        rfl
    rw [hnone, Objects.user?, Objects.find?, hrow]
    rfl
  · exact user?_congr hsame

theorem SavesDecks.mem_wins_iff (h : WellKeyed a) (hcolumns : DeckColumns a)
    (hfresh : ∀ k, a.lookup (env.freshUid k) = none) (hab : SavesDecks env tournamentUid named a b)
    (hspared : k = tournamentUid → ¬named uid) :
    k ∈ tournamentWins b uid ↔ k ∈ tournamentWins a uid := by
  simp only [mem_tournamentWins]
  refine exists_congr fun row => exists_congr fun t => ?_
  have hstored : row.object = .tournament t → (b.lookup k = some row ↔ a.lookup k = some row) := by
    intro hobject
    obtain ⟨saves, rfl, hsaves⟩ := hab
    rcases lookup_saves a saves k with ⟨d, hd, hkey, hrow⟩ | ⟨-, hsame⟩
    · have hdeck : (saves.foldl saveDeck a).lookup k ≠ some row := by
        rw [hrow]
        intro heq
        rw [← Option.some.inj heq] at hobject
        cases hobject
      refine iff_of_false hdeck fun ha => ?_
      obtain ⟨e, he⟩ := SavesDecks.over h hfresh (hsaves d hd) row (hkey ▸ ha)
      rw [he] at hobject
      cases hobject
    · rw [hsame]
  have hcandidate : t.doc.winner = uid → hofCandidate b k row t = hofCandidate a k row t :=
    fun hwinner => hofCandidate_congr (hwinner ▸ hab.holdsDeck_iff h hcolumns hfresh hspared)
  constructor
  · exact fun hw => ⟨(hstored hw.object).1 hw.stored, hw.object,
      hcandidate hw.winner ▸ hw.candidate, hw.attested, hw.winner⟩
  · exact fun hw => ⟨(hstored hw.object).2 hw.stored, hw.object,
      (hcandidate hw.winner).symm ▸ hw.candidate, hw.attested, hw.winner⟩

end Decks

/-! ### The recompute -/

section Recompute

variable {clock : Ratings.Clock} {env : Env} {a b : Objects} {uid : Uid}

theorem lookup_otherRows (h : otherRows b = otherRows a) {k : Uid} {row : Row}
    (hrow : row.object.asUser = none) : b.lookup k = some row ↔ a.lookup k = some row := by
  have hmem : ∀ objects : Objects, (k, row) ∈ otherRows objects ↔ objects.lookup k = some row := by
    intro objects
    rw [otherRows, List.mem_filter, mem_rows]
    simp [hrow]
  rw [← hmem, h, hmem]

theorem tournamentWins_congr (h : otherRows b = otherRows a) (uid : Uid) :
    tournamentWins b uid = tournamentWins a uid := by
  have hdeck : ∀ k userUid, HoldsDeck b k userUid ↔ HoldsDeck a k userUid := by
    intro k userUid
    refine exists_congr fun deckUid => exists_congr fun d => and_congr_left fun _ => ?_
    exact lookup_otherRows h rfl
  refine tournamentWins_ext fun k => ?_
  simp only [mem_tournamentWins]
  refine exists_congr fun row => exists_congr fun t => ?_
  have hcandidate : hofCandidate b k row t = hofCandidate a k row t :=
    hofCandidate_congr (hdeck _ _)
  constructor
  · exact fun hw => ⟨(lookup_otherRows h (hw.object ▸ rfl)).1 hw.stored, hw.object,
      hcandidate ▸ hw.candidate, hw.attested, hw.winner⟩
  · exact fun hw => ⟨(lookup_otherRows h (hw.object ▸ rfl)).2 hw.stored, hw.object,
      hcandidate.symm ▸ hw.candidate, hw.attested, hw.winner⟩

theorem member_ratings (env : Env) (h : WellKeyed a) (uids : List Uid) (category : RatingCategory)
    {u : User} (hu : a.user? uid = some u) :
    ∃ u', (recomputeRatingsForPlayers env a uids category).user? uid = some u' ∧
      u'.wins = u.wins ∧ ∀ category', u'.ratings category' =
        if uid ∈ uids ∧ category' = category then some (env.rated a category uid)
        else u.ratings category' := by
  obtain ⟨-, -, husers⟩ := run_ratings env h uids category
  rw [husers, hu, Option.map_some]
  by_cases hlisted : uid ∈ uids
  · refine ⟨_, if_pos hlisted, ?_, fun category' => ?_⟩
    · unfold rerated
      split <;> rfl
    · rw [ratings_rerated]
      simp [hlisted]
  · exact ⟨u, if_neg hlisted, rfl, fun category' => (if_neg fun hc => hlisted hc.1).symm⟩

theorem member_wins (env : Env) (h : WellKeyed a) (uids : List Uid) {u : User}
    (hu : a.user? uid = some u) :
    ∃ u', (recomputeWins env a uids).user? uid = some u' ∧ u'.ratings = u.ratings ∧
      u'.wins = if uid ∈ uids then tournamentWins a uid else u.wins := by
  obtain ⟨-, -, husers⟩ := run_wins env h uids
  rw [husers, hu, Option.map_some]
  by_cases hlisted : uid ∈ uids
  · refine ⟨_, if_pos hlisted, ratings_rewon u, ?_⟩
    rw [if_pos hlisted]
    unfold rewon
    split
    · rename_i hsame
      exact hsame.symm
    · rfl
  · exact ⟨u, if_neg hlisted, rfl, (if_neg hlisted).symm⟩

end Recompute

/-! ### After an action -/

/-- `tournaments.py:1372-1376`: the players whose ratings and wins are computed again. -/
def reratedUids (before after : StoredTournament) (event : TournamentEvent) : List Uid :=
  if (before.doc.state == .finished) != (after.doc.state == .finished)
      || (after.doc.state == .finished && !ratingIrrelevant event) then playerUids after.doc
  else []

/-- `tournaments.py:1400-1413`: the winners of a finished tournament, when the winner or a deck of
theirs moved. -/
def rewonUids (before after : StoredTournament) (ops : List DeckOp) : List Uid :=
  let winners := [before.doc.winner, after.doc.winner].filter fun uid => uid != ""
  let moved := before.doc.winner != after.doc.winner
    || ops.any fun op => (deckOpPlayer op).any fun uid => decide (uid ∈ winners)
  if (after.doc.state == .finished) && (before.doc.state == .finished) && moved then winners else []

/-- The table once the decks are written. -/
def deckedTable (env : Env) (objects : Objects) (before after : StoredTournament)
    (ops : List DeckOp) : Objects :=
  let decked := processDeckOps env objects after.uid ops
  if (after.doc.state == .finished) && !(before.doc.state == .finished) then
    withdrawPrivateDecks env decked after.uid
  else decked

/-- The passes over the written table, over nobody where the source skips one. -/
def recomputed (env : Env) (objects : Objects) (before after : StoredTournament)
    (event : TournamentEvent) (ops : List DeckOp) : Objects :=
  let players := reratedUids before after event
  let won := recomputeWins env
    (recomputeRatingsForPlayers env objects players (ratingCategory after.doc)) players
  let moved := if ratingCategory before.doc = ratingCategory after.doc then [] else players
  recomputeWins env (recomputeRatingsForPlayers env won moved (ratingCategory before.doc))
    (rewonUids before after ops)

section AfterEvent

variable {clock : Ratings.Clock} {env : Env} {objects a : Objects} {uid : Uid}
variable {before after : StoredTournament} {event : TournamentEvent} {ops : List DeckOp}

theorem afterEvent_eq : afterEvent env objects before after event ops =
    recomputed env (deckedTable env objects before after ops) before after event ops := by
  unfold afterEvent recomputed rewonUids reratedUids deckedTable
  dsimp only
  split_ifs <;> rfl

theorem isUser_recomputeRatings (h : WellKeyed a) (uids : List Uid) (category : RatingCategory) :
    IsUser (recomputeRatingsForPlayers env a uids category) uid ↔ IsUser a uid := by
  rw [IsUser, IsUser, (run_ratings env h uids category).2.2]
  split
  · rw [Option.isSome_map]
  · rfl

theorem isUser_recomputeWins (h : WellKeyed a) (uids : List Uid) :
    IsUser (recomputeWins env a uids) uid ↔ IsUser a uid := by
  rw [IsUser, IsUser, (run_wins env h uids).2.2]
  split
  · rw [Option.isSome_map]
  · rfl

theorem recomputed_frame (h : WellKeyed a) :
    otherRows (recomputed env a before after event ops) = otherRows a ∧
      ∀ uid, IsUser (recomputed env a before after event ops) uid ↔ IsUser a uid := by
  unfold recomputed
  extract_lets players won moved
  obtain ⟨hkeyed₁, hother₁, -⟩ := run_ratings env h players (ratingCategory after.doc)
  obtain ⟨hkeyed₂, hother₂, -⟩ := run_wins env hkeyed₁ players
  obtain ⟨hkeyed₃, hother₃, -⟩ := run_ratings env hkeyed₂ moved (ratingCategory before.doc)
  obtain ⟨-, hother₄, -⟩ := run_wins env hkeyed₃ (rewonUids before after ops)
  refine ⟨hother₄.trans (hother₃.trans (hother₂.trans hother₁)), fun uid => ?_⟩
  rw [isUser_recomputeWins hkeyed₃, isUser_recomputeRatings hkeyed₂, isUser_recomputeWins hkeyed₁,
    isUser_recomputeRatings h]

theorem member_recomputed (h : WellKeyed a) {u : User} (hu : a.user? uid = some u) :
    ∃ u', (recomputed (clock.env env) a before after event ops).user? uid = some u' ∧
      (∀ category, u'.ratings category =
        if uid ∈ reratedUids before after event ∧
            (category = ratingCategory after.doc ∨ category = ratingCategory before.doc) then
          some (Ratings.rated clock a category uid)
        else u.ratings category) ∧
      u'.wins =
        if uid ∈ reratedUids before after event ∨ uid ∈ rewonUids before after ops then
          tournamentWins a uid
        else u.wins := by
  unfold recomputed
  extract_lets players won moved
  obtain ⟨hkeyed₁, hother₁, -⟩ := run_ratings (clock.env env) h players (ratingCategory after.doc)
  obtain ⟨hkeyed₂, hother₂, -⟩ := run_wins (clock.env env) hkeyed₁ players
  obtain ⟨hkeyed₃, hother₃, -⟩ :=
    run_ratings (clock.env env) hkeyed₂ moved (ratingCategory before.doc)
  obtain ⟨u₁, hu₁, hwins₁, hratings₁⟩ :=
    member_ratings (clock.env env) h players (ratingCategory after.doc) hu
  obtain ⟨u₂, hu₂, hratings₂, hwins₂⟩ := member_wins (clock.env env) hkeyed₁ players hu₁
  obtain ⟨u₃, hu₃, hwins₃, hratings₃⟩ :=
    member_ratings (clock.env env) hkeyed₂ moved (ratingCategory before.doc) hu₂
  obtain ⟨u₄, hu₄, hratings₄, hwins₄⟩ :=
    member_wins (clock.env env) hkeyed₃ (rewonUids before after ops) hu₃
  -- each pass reads the table as it was before the first
  have hrated : (clock.env env).rated won = Ratings.rated clock a :=
    rated_congr (hother₂.trans hother₁)
  have hrated₀ : (clock.env env).rated a = Ratings.rated clock a := rfl
  have hwon := tournamentWins_congr hother₁ uid
  have hwonLast := tournamentWins_congr (hother₃.trans (hother₂.trans hother₁)) uid
  refine ⟨u₄, hu₄, fun category => ?_, ?_⟩
  · have hmoved : uid ∈ moved ↔
        ratingCategory before.doc ≠ ratingCategory after.doc ∧ uid ∈ players := by
      dsimp only [moved]
      split <;> simp [*]
    rw [hratings₄, hratings₃, hratings₂, hratings₁, hrated, hrated₀]
    simp only [hmoved, show (uid ∈ players) = (uid ∈ reratedUids before after event) from rfl]
    by_cases hplayer : uid ∈ reratedUids before after event
    · by_cases hold : category = ratingCategory before.doc
      · by_cases hsame : ratingCategory before.doc = ratingCategory after.doc
        · simp [hplayer, hold, hsame]
        · simp [hplayer, hold, hsame]
      · by_cases hafter : category = ratingCategory after.doc
        · simp [hplayer, hafter, hafter ▸ hold]
        · simp [hplayer, hold, hafter]
    · simp [hplayer]
  · rw [hwins₄, hwins₃, hwins₂, hwins₁, hwonLast, hwon]
    simp only [show (uid ∈ players) = (uid ∈ reratedUids before after event) from rfl]
    by_cases hplayer : uid ∈ reratedUids before after event
    · simp [hplayer]
    · simp [hplayer]

end AfterEvent

/-! ### Deck columns -/

/-- A row is migrated to a deck only where a deck stands. -/
def KeepsDecks (objects : Objects) : BackendWrite → Prop
  | .migrated uid object => ∀ d, object = .deck d → ∃ e, objects.find? uid = some (.deck e)
  | _ => True

section Columns

variable {a b objects objects' : Objects}

theorem Saves.deckColumns (h : Saves a b) (ha : DeckColumns a) : DeckColumns b := by
  refine h.invariant (fun table o htable => ?_) ha
  intro uid d deletedAt hrow
  by_cases hkey : uid = o.uid
  · rw [hkey, saveModel, lookup_saveObject, Option.some_inj, Row.mk.injEq] at hrow
    rw [← hrow.2, hrow.1]
    rfl
  · rw [saveModel, lookup_saveObject_ne hkey] at hrow
    exact htable uid d deletedAt hrow

theorem deckColumns_of_leads {w : BackendWrite} (h : DeckColumns objects)
    (hok : KeepsDecks objects w) (hstep : w.Leads objects objects') : DeckColumns objects' := by
  cases w with
  | request c =>
    rcases saves_of_serve hstep with hsaves | ⟨base, t, hbase, -, hrest⟩
    · exact hsaves.deckColumns h
    · exact hrest.deckColumns (deckColumns_saveRow (hbase.deckColumns h))
  | refused c =>
    obtain ⟨request, e, -, hrefused⟩ := hstep
    rcases goOnline_eq_error hrefused with rfl | rfl
    · exact h
    · exact Saves.deckColumns (saves_resolveOfflinePlayers (c.store objects) _ c.user.uid
        request.offlinePlayers) h
  | scrub env userUid =>
    obtain rfl := hstep
    unfold scrubTournamentCopies
    refine List.foldlRecOn _ _ (motive := DeckColumns) h fun table htable k _ => ?_
    cases table.tournament? k with
    | none => exact htable
    | some t =>
      dsimp only
      split
      · exact deckColumns_saveRow htable
      · exact htable
  | model o =>
    obtain rfl := hstep
    exact (Saves.one o).deckColumns h
  | migrated uid object =>
    obtain ⟨row, hrow, hkept, rfl⟩ := hstep
    intro k d deletedAt hlookup
    by_cases hkey : k = uid
    · rw [hkey, lookup_saveObject, Option.some_inj, Row.mk.injEq] at hlookup
      obtain ⟨hobject, rfl⟩ := hlookup
      obtain ⟨e, he⟩ := hok d hobject
      obtain ⟨x, hx⟩ := find?_eq_some.1 he
      obtain rfl : row = ⟨.deck e, x⟩ := Option.some.inj (hrow.symm.trans hx)
      rw [hobject] at hkept
      exact (h uid e x hx).trans hkept.symm
    · rw [lookup_saveObject_ne hkey] at hlookup
      exact h k d deletedAt hlookup
  | deleted uid =>
    obtain rfl := hstep
    intro k d deletedAt hlookup
    by_cases hkey : k = uid
    · rw [hkey, AList.lookup_erase] at hlookup
      cases hlookup
    · rw [AList.lookup_erase_ne hkey] at hlookup
      exact h k d deletedAt hlookup

theorem deckColumns_of_reaches (h : backendSystem.Reaches KeepsDecks objects) :
    DeckColumns objects := by
  refine h.invariant (fun table hinit => ?_) fun table w table' htable hok hstep => ?_
  · obtain rfl := hinit
    intro uid d deletedAt hrow
    cases hrow
  · exact deckColumns_of_leads htable hok hstep

end Columns

/-! ### Up to date -/

/-- Every member's ratings and win list are those of the table. -/
structure UpToDate (clock : Ratings.Clock) (objects : Objects) : Prop where
  ratings : ∀ uid, IsUser objects uid → ∀ category,
    storedRating objects uid category = Ratings.rated clock objects category uid
  wins : ∀ uid u, objects.user? uid = some u → u.wins = tournamentWins objects uid

/-- The members passed over have the same entry from the tournament, and the same win or none,
before the action and once its row is saved. -/
structure Followed (clock : Ratings.Clock) (objects : Objects) (before after : StoredTournament)
    (event : TournamentEvent) (ops : List DeckOp) : Prop where
  entries : ∀ uid, IsUser objects uid → uid ∉ reratedUids before after event → ∀ category,
    entryOf clock (saveRow objects after) category uid after.uid =
      entryOf clock objects category uid after.uid
  wins : ∀ uid, IsUser objects uid → uid ∉ reratedUids before after event →
    uid ∉ rewonUids before after ops →
    (after.uid ∈ tournamentWins (saveRow objects after) uid ↔
      after.uid ∈ tournamentWins objects uid)

section Follow

variable {clock : Ratings.Clock} {env : Env} {objects objects' : Objects} {uid : Uid}
variable {before after t : StoredTournament} {event : TournamentEvent} {ops : List DeckOp}
variable {category : RatingCategory}

theorem not_won_of_named (hstate : namesPlayer ops uid → after.doc.state = before.doc.state)
    (hwon : uid ∉ rewonUids before after ops) (hnamed : namesPlayer ops uid) (a : Objects)
    (hrow : a.lookup after.uid = some ⟨.tournament after, none⟩) :
    after.uid ∉ tournamentWins a uid := by
  intro hmem
  obtain ⟨row, t, hw⟩ := mem_tournamentWins.1 hmem
  have hsame : row = ⟨.tournament after, none⟩ := Option.some.inj (hw.stored.symm.trans hrow)
  obtain rfl : t = after := by
    have hobject := hw.object
    rw [hsame] at hobject
    exact (StoredObject.tournament.inj hobject).symm
  have hcandidate := hw.candidate
  simp only [hofCandidate, Bool.and_eq_true, beq_iff_eq, bne_iff_ne] at hcandidate
  have hfinished : t.doc.state = .finished := hcandidate.1.1.1.1.1.1.1.2
  have hwinner : t.doc.winner ≠ "" := hcandidate.1.1.1.1.1.1.2
  refine hwon ?_
  obtain ⟨op, hop, huid⟩ := hnamed
  have hlisted : uid ∈ [before.doc.winner, t.doc.winner].filter fun uid => uid != "" :=
    List.mem_filter.2 ⟨by simp [hw.winner], by simpa [← hw.winner] using hwinner⟩
  have hmoved : (ops.any fun op => (deckOpPlayer op).any fun uid =>
      decide (uid ∈ [before.doc.winner, t.doc.winner].filter fun uid => uid != "")) = true :=
    List.any_eq_true.2 ⟨op, hop, by rw [huid, Option.any_some]; exact decide_eq_true hlisted⟩
  have hboth : before.doc.state = .finished := (hstate ⟨op, hop, huid⟩).symm.trans hfinished
  unfold rewonUids
  dsimp only
  rw [hmoved, hfinished, hboth]
  simpa using hlisted

theorem savesDecks_deckedTable {a : Objects} (h : WellKeyed a) :
    SavesDecks env after.uid (namesPlayer ops) a (deckedTable env a before after ops) := by
  have hdecked : SavesDecks env after.uid (namesPlayer ops) a
      (processDeckOps env a after.uid ops) := savesDecks_processDeckOps h ops
  unfold deckedTable
  dsimp only
  split
  · exact hdecked.trans h (savesDecks_withdrawPrivateDecks (hdecked.keyed h))
  · exact hdecked

theorem lookup_saveRow (objects : Objects) (t : StoredTournament) :
    (saveRow objects t).lookup t.uid = some ⟨.tournament t, none⟩ := lookup_saveObject

theorem entryOf_other_category {a : Objects} (h : WellKeyed a)
    (ht : a.tournament? t.uid = some t) (hcategory : category ≠ ratingCategory t.doc) :
    entryOf clock a category uid t.uid = none := by
  refine Option.eq_none_iff_forall_not_mem.2 fun e he => hcategory ?_
  obtain ⟨hmem, hkey⟩ := (entryOf_eq_some h).1 he
  obtain ⟨t', hcounts, heq⟩ := (mem_entriesFor h).1 hmem
  have huid : t'.uid = t.uid := by
    rw [heq] at hkey
    exact hkey
  obtain rfl : t' = t := by
    have hlookup := hcounts.live
    rw [huid] at hlookup
    obtain ⟨deletedAt, hrow⟩ := find?_eq_some.1 (tournament?_eq_some.1 ht)
    rw [hrow, Option.some_inj, Row.mk.injEq, StoredObject.tournament.injEq] at hlookup
    exact hlookup.1.symm
  exact (ratingCategory_of_counts hcounts).symm

theorem rated_saveRow_iff (h : WellKeyed objects)
    (ht : objects.tournament? after.uid = some before) :
    Ratings.rated clock (saveRow objects after) category uid =
        Ratings.rated clock objects category uid ↔
      entryOf clock (saveRow objects after) category uid after.uid =
        entryOf clock objects category uid after.uid :=
  rated_eq_iff h (wellKeyed_saveRow h after) fun _ hne => mem_entriesFor_saveRow h ht hne

theorem wins_deckedTable_iff (h : WellKeyed objects) (hcolumns : DeckColumns objects)
    (ht : objects.tournament? after.uid = some before)
    (hfresh : ∀ k, (saveRow objects after).lookup (env.freshUid k) = none)
    (hstate : namesPlayer ops uid → after.doc.state = before.doc.state)
    (hwon : uid ∉ rewonUids before after ops) :
    tournamentWins (deckedTable env (saveRow objects after) before after ops) uid =
        tournamentWins objects uid ↔
      (after.uid ∈ tournamentWins (saveRow objects after) uid ↔
        after.uid ∈ tournamentWins objects uid) := by
  have hkeyed := wellKeyed_saveRow h after
  have hsaves : SavesDecks env after.uid (namesPlayer ops) (saveRow objects after)
      (deckedTable env (saveRow objects after) before after ops) := savesDecks_deckedTable hkeyed
  have hcolumns' : DeckColumns (saveRow objects after) := deckColumns_saveRow hcolumns
  have haway : ∀ k, k ≠ after.uid →
      (k ∈ tournamentWins (deckedTable env (saveRow objects after) before after ops) uid ↔
        k ∈ tournamentWins objects uid) := fun k hk =>
    (hsaves.mem_wins_iff hkeyed hcolumns' hfresh fun heq => absurd heq hk).trans
      (mem_wins_saveRow ht hk)
  have hat : after.uid ∈ tournamentWins
        (deckedTable env (saveRow objects after) before after ops) uid ↔
      after.uid ∈ tournamentWins (saveRow objects after) uid := by
    by_cases hnamed : namesPlayer ops uid
    · have hrow := lookup_saveRow objects after
      have hrow' := (hsaves.lookup_eq hkeyed hfresh hrow fun e he => by cases he).trans hrow
      exact iff_of_false (not_won_of_named hstate hwon hnamed _ hrow')
        (not_won_of_named hstate hwon hnamed _ hrow)
    · exact hsaves.mem_wins_iff hkeyed hcolumns' hfresh fun _ => hnamed
  rw [tournamentWins_eq_iff haway, hat]

theorem member_afterEvent (h : WellKeyed objects) (ht : objects.tournament? after.uid = some before)
    (hfresh : ∀ k, (saveRow objects after).lookup (env.freshUid k) = none) {u : User}
    (hu : objects.user? uid = some u) :
    ∃ u', (afterEvent (clock.env env) (saveRow objects after) before after event ops).user? uid =
        some u' ∧
      (∀ category, u'.ratings category =
        if uid ∈ reratedUids before after event ∧
            (category = ratingCategory after.doc ∨ category = ratingCategory before.doc) then
          some (Ratings.rated clock (saveRow objects after) category uid)
        else u.ratings category) ∧
      u'.wins =
        if uid ∈ reratedUids before after event ∨ uid ∈ rewonUids before after ops then
          tournamentWins (deckedTable (clock.env env) (saveRow objects after) before after ops) uid
        else u.wins := by
  have hkeyed := wellKeyed_saveRow h after
  have hsaves : SavesDecks (clock.env env) after.uid (namesPlayer ops) (saveRow objects after)
      (deckedTable (clock.env env) (saveRow objects after) before after ops) :=
    savesDecks_deckedTable hkeyed
  have hfresh' : ∀ k, (saveRow objects after).lookup ((clock.env env).freshUid k) = none := hfresh
  have huser := (hsaves.user?_eq hkeyed hfresh' uid).trans ((user?_saveRow ht uid).trans hu)
  have hrated : Ratings.rated clock
        (deckedTable (clock.env env) (saveRow objects after) before after ops) =
      Ratings.rated clock (saveRow objects after) := hsaves.rated_eq hkeyed hfresh'
  rw [afterEvent_eq, ← hrated]
  exact member_recomputed (hsaves.keyed hkeyed) huser

theorem afterEvent_reads (h : WellKeyed objects) (ht : objects.tournament? after.uid = some before)
    (hfresh : ∀ k, (saveRow objects after).lookup (env.freshUid k) = none) :
    let table := afterEvent (clock.env env) (saveRow objects after) before after event ops
    (∀ uid, IsUser table uid ↔ IsUser objects uid) ∧
      Ratings.rated clock table = Ratings.rated clock (saveRow objects after) ∧
      ∀ uid, tournamentWins table uid = tournamentWins
        (deckedTable (clock.env env) (saveRow objects after) before after ops) uid := by
  intro table
  have hkeyed := wellKeyed_saveRow h after
  have hsaves : SavesDecks (clock.env env) after.uid (namesPlayer ops) (saveRow objects after)
      (deckedTable (clock.env env) (saveRow objects after) before after ops) :=
    savesDecks_deckedTable hkeyed
  have hfresh' : ∀ k, (saveRow objects after).lookup ((clock.env env).freshUid k) = none := hfresh
  have hrated : Ratings.rated clock
        (deckedTable (clock.env env) (saveRow objects after) before after ops) =
      Ratings.rated clock (saveRow objects after) := hsaves.rated_eq hkeyed hfresh'
  obtain ⟨hother, husers⟩ := @recomputed_frame (clock.env env)
    (deckedTable (clock.env env) (saveRow objects after) before after ops) before after event ops
    (hsaves.keyed hkeyed)
  rw [← afterEvent_eq] at hother husers
  refine ⟨fun uid => ?_, (rated_congr hother).trans hrated, tournamentWins_congr hother⟩
  rw [husers, IsUser, hsaves.user?_eq hkeyed hfresh', user?_saveRow ht, IsUser]

theorem ratings_afterEvent_iff (h : WellKeyed objects)
    (ht : objects.tournament? after.uid = some before)
    (hfresh : ∀ k, (saveRow objects after).lookup (env.freshUid k) = none)
    (hbefore : UpToDate clock objects) (hmember : IsUser objects uid) :
    let table := afterEvent (clock.env env) (saveRow objects after) before after event ops
    (∀ category, storedRating table uid category = Ratings.rated clock table category uid) ↔
      (uid ∉ reratedUids before after event → ∀ category,
        entryOf clock (saveRow objects after) category uid after.uid =
          entryOf clock objects category uid after.uid) := by
  intro table
  obtain ⟨-, hrated, -⟩ := @afterEvent_reads clock env objects before after event ops h ht hfresh
  have hbeforeUid : before.uid = after.uid := h.uid_eq (tournament?_eq_some.1 ht)
  obtain ⟨u, hu⟩ := Option.isSome_iff_exists.1 hmember
  obtain ⟨u', hu', hratings, -⟩ := @member_afterEvent clock env objects uid before after event ops
    h ht hfresh u hu
  have hheld : ∀ category, (u.ratings category).getD ⟨0, []⟩ =
      Ratings.rated clock objects category uid := by
    intro category
    have hright := hbefore.ratings uid hmember category
    rwa [storedRating, hu, Option.bind_some] at hright
  have hstored : ∀ category,
      storedRating table uid category = (u'.ratings category).getD ⟨0, []⟩ := by
    intro category
    rw [storedRating, hu', Option.bind_some]
  by_cases hlisted : uid ∈ reratedUids before after event
  · refine iff_of_true (fun category => ?_) fun hnot => absurd hlisted hnot
    rw [hstored, hratings, hrated]
    split_ifs with hcategory
    · rfl
    · rw [hheld]
      simp only [hlisted, true_and, not_or] at hcategory
      refine ((rated_saveRow_iff h ht).2 ?_).symm
      rw [entryOf_other_category (wellKeyed_saveRow h after) tournament?_saveRow hcategory.1,
        ← hbeforeUid, entryOf_other_category h (hbeforeUid ▸ ht) hcategory.2]
  · simp only [hlisted, not_false_eq_true, true_imp_iff]
    refine forall_congr' fun category => ?_
    rw [hstored, hratings, if_neg fun hc => hlisted hc.1, hheld, hrated, ← rated_saveRow_iff h ht]
    exact eq_comm

theorem wins_afterEvent_iff (h : WellKeyed objects) (hcolumns : DeckColumns objects)
    (ht : objects.tournament? after.uid = some before)
    (hfresh : ∀ k, (saveRow objects after).lookup (env.freshUid k) = none)
    (hstate : namesPlayer ops uid → after.doc.state = before.doc.state)
    (hbefore : UpToDate clock objects) {u : User} (hu : objects.user? uid = some u) :
    let table := afterEvent (clock.env env) (saveRow objects after) before after event ops
    (∀ u', table.user? uid = some u' → u'.wins = tournamentWins table uid) ↔
      (uid ∉ reratedUids before after event → uid ∉ rewonUids before after ops →
        (after.uid ∈ tournamentWins (saveRow objects after) uid ↔
          after.uid ∈ tournamentWins objects uid)) := by
  intro table
  obtain ⟨-, -, hwins⟩ := @afterEvent_reads clock env objects before after event ops h ht hfresh
  obtain ⟨u', hu', -, hlist⟩ := @member_afterEvent clock env objects uid before after event ops
    h ht hfresh u hu
  have hone : (∀ v, table.user? uid = some v → v.wins = tournamentWins table uid) ↔
      u'.wins = tournamentWins table uid := by
    rw [hu']
    simp
  rw [hone, hwins, hlist]
  by_cases hlisted : uid ∈ reratedUids before after event
  · exact iff_of_true (if_pos (.inl hlisted)) fun hnot => absurd hlisted hnot
  by_cases hrewon : uid ∈ rewonUids before after ops
  · exact iff_of_true (if_pos (.inr hrewon)) fun _ hnot => absurd hrewon hnot
  rw [if_neg (not_or.2 ⟨hlisted, hrewon⟩), hbefore.wins uid u hu]
  simp only [hlisted, hrewon, not_false_eq_true, true_imp_iff]
  rw [← @wins_deckedTable_iff (clock.env env) objects uid before after ops h hcolumns ht hfresh
    hstate hrewon]
  exact eq_comm

theorem upToDate_afterEvent_iff (h : WellKeyed objects) (hcolumns : DeckColumns objects)
    (ht : objects.tournament? after.uid = some before)
    (hfresh : ∀ k, (saveRow objects after).lookup (env.freshUid k) = none)
    (hstate : ∀ uid, namesPlayer ops uid → after.doc.state = before.doc.state)
    (hbefore : UpToDate clock objects) :
    UpToDate clock (afterEvent (clock.env env) (saveRow objects after) before after event ops) ↔
      Followed clock objects before after event ops := by
  obtain ⟨husers, -, -⟩ := @afterEvent_reads clock env objects before after event ops h ht hfresh
  constructor
  · intro hafter
    constructor
    · intro uid hmember hlisted
      exact (ratings_afterEvent_iff h ht hfresh hbefore hmember).1
        (hafter.ratings uid ((husers uid).2 hmember)) hlisted
    · intro uid hmember hlisted hrewon
      obtain ⟨u, hu⟩ := Option.isSome_iff_exists.1 hmember
      exact (wins_afterEvent_iff h hcolumns ht hfresh (hstate uid) hbefore hu).1
        (hafter.wins uid) hlisted hrewon
  · intro hfollowed
    constructor
    · intro uid hmember
      have hmember' := (husers uid).1 hmember
      exact (ratings_afterEvent_iff h ht hfresh hbefore hmember').2
        (hfollowed.entries uid hmember')
    · intro uid u' hu'
      have hmember : IsUser objects uid :=
        (husers uid).1 (Option.isSome_iff_exists.2 ⟨u', hu'⟩)
      obtain ⟨u, hu⟩ := Option.isSome_iff_exists.1 hmember
      exact (wins_afterEvent_iff h hcolumns ht hfresh (hstate uid) hbefore hu).2
        (hfollowed.wins uid hmember) u' hu'

theorem state_of_processEvent {identified : TournamentEvent} {actor : ActorContext}
    (h : processEvent env objects before identified actor = .ok (after, ops))
    (hnames : namesPlayer ops uid) : after.doc.state = before.doc.state := by
  unfold processEvent at h
  extract_lets input at h
  split at h
  · cases h
  · rename_i doc ops' hdoc
    rw [Except.ok.injEq, Prod.mk.injEq] at h
    obtain ⟨hafter, rfl⟩ := h
    have hstate : doc.state = before.doc.state := state_of_namesPlayer hdoc hnames
    rw [← hafter, ← hstate]
    unfold stampFinish
    split_ifs <;> rfl

/-- After an accepted action everything is up to date exactly when the members it passes over have
the same entry and the same win from the tournament before and after it. -/
theorem upToDate_action_iff (clock : Ratings.Clock) (env : Env) (objects objects' : Objects)
    (user : User) (uid : Uid) (oauthTournament : Option Uid) (event : TournamentEvent)
    (h : WellKeyed objects) (hcolumns : DeckColumns objects) (hfresh : env.Fresh objects uid)
    (hbefore : UpToDate clock objects)
    (hserve : tournamentAction (clock.env env) objects user uid oauthTournament event =
      .ok objects') :
    ∃ before placed identified actor after ops, objects.tournament? uid = some before ∧
      placedEvent (clock.env env) before event = .ok placed ∧
      identifiedEvent objects placed = .ok identified ∧
      processEvent (clock.env env) objects before identified actor = .ok (after, ops) ∧
      (UpToDate clock objects' ↔ Followed clock objects before after event ops) := by
  obtain ⟨before, ht, -, placed, identified, actor, after, ops, hplaced, hidentified, hevent,
    rfl⟩ := tournamentAction_eq_ok hserve
  refine ⟨before, placed, identified, actor, after, ops, ht, hplaced, hidentified, hevent, ?_⟩
  obtain ⟨doc, haccept, hupdated⟩ := processEvent_eq_ok hevent
  have huid : after.uid = before.uid := by
    rw [hupdated]
    exact uid_eventRow haccept
  have hkey : before.uid = uid := h.uid_eq (tournament?_eq_some.1 ht)
  have hrow : objects.tournament? after.uid = some before := by
    rw [huid, hkey]
    exact ht
  have hfresh' : ∀ k, (saveRow objects after).lookup (env.freshUid k) = none :=
    fresh_saveRow hfresh h ht huid
  exact upToDate_afterEvent_iff h hcolumns hrow hfresh'
    (fun uid hnames => state_of_processEvent hevent hnames) hbefore

end Follow

/-! ### A player off the roster -/

/-- An imported event without rounds. Everyone on its sheet has left the roster. -/
def importedEvent : StoredTournament :=
  { event with
    doc := { event.doc with
      state := .finished
      config := Function.update event.doc.config .start (.text "2026-05-01T10:00:00")
      standings := ["a", "b", "c", "d", "e", "f", "g", "h"].map fun uid =>
        ⟨uid, 0, 0, 1, 0, false, false, false, false⟩
      winner := "b" } }

/-- The event, and a player with the five points of it. -/
def importedTable : Objects :=
  saveUser (saveTournament ∅ importedEvent) { member "a" [] with
    ratings := fun category => if category = .constructedOffline then
      some ⟨5, [⟨"event", "Event", "2026-05-01", 8, "", 0, 0, 0, 5, 2⟩]⟩ else none }

theorem importedTable_keyed : WellKeyed importedTable := by
  have hempty : WellKeyed ∅ := fun _ _ h => by cases h
  exact wellKeyed_saveUser (wellKeyed_saveTournament hempty _) _

theorem importedTable_columns : DeckColumns importedTable := by
  intro uid d deletedAt hrow
  have hnone : importedTable.rows.all (fun r => r.2.object.asDeck.isNone) = true := by
    decide +kernel
  have hdeck := List.all_eq_true.1 hnone (uid, ⟨.deck d, deletedAt⟩) (mem_rows.2 hrow)
  cases hdeck

theorem importedTable_fresh : venue.Fresh importedTable "event" :=
  venue_fresh (by decide +kernel) (by decide)

theorem importedTable_upToDate : UpToDate passInMay importedTable := by
  have honly : ∀ uid u, importedTable.user? uid = some u → uid = "a" := by
    intro uid u hu
    have huid : u.uid = uid := importedTable_keyed.uid_eq (user?_eq_some.1 hu)
    have hall : importedTable.users.all (fun u => u.uid == "a") = true := by decide +kernel
    have hmem : u ∈ importedTable.users := (mem_users importedTable_keyed).2 (huid ▸ hu)
    rw [← huid]
    exact beq_iff_eq.1 (List.all_eq_true.1 hall u hmem)
  constructor
  · intro uid hmember category
    obtain ⟨u, hu⟩ := Option.isSome_iff_exists.1 hmember
    obtain rfl := honly uid u hu
    cases category <;> decide +kernel
  · intro uid u hu
    obtain rfl := honly uid u hu
    have hwins : (importedTable.user? "a").all (fun u =>
        u.wins == tournamentWins importedTable "a") = true := by decide +kernel
    rw [hu, Option.all_some, beq_iff_eq] at hwins
    exact hwins

/-- The organizer marks the event as played online. -/
def markedOnline : TournamentEvent :=
  .updateConfig fun field => if field = .online then some (.boolean true) else none

def markOnline : Except RouteError Objects :=
  tournamentAction (passInMay.env venue) importedTable (member "prince" [.prince]) "event" none
    markedOnline

theorem markOnline_stale : ∃ objects', markOnline = .ok objects' ∧ IsUser objects' "a" ∧
    storedRating objects' "a" .constructedOffline ≠
      Ratings.rated passInMay objects' .constructedOffline "a" := by
  have hrun : markOnline.toOption.any (fun objects' =>
      (objects'.user? "a").isSome && decide (storedRating objects' "a" .constructedOffline ≠
        Ratings.rated passInMay objects' .constructedOffline "a")) = true := by decide +kernel
  obtain ⟨objects', hobjects, hstale⟩ := (Option.any_eq_true _ _).1 hrun
  rw [Bool.and_eq_true, decide_eq_true_eq] at hstale
  refine ⟨objects', ?_, hstale⟩
  cases hserved : markOnline with
  | error e => rw [hserved] at hobjects; cases hobjects
  | ok table => rw [hserved] at hobjects; exact congrArg Except.ok (Option.some.inj hobjects)

theorem upToDate_action_markOnline : ∃ objects', markOnline = .ok objects' ∧
    ∃ before placed identified actor after ops,
      importedTable.tournament? "event" = some before ∧
      placedEvent (passInMay.env venue) before markedOnline = .ok placed ∧
      identifiedEvent importedTable placed = .ok identified ∧
      processEvent (passInMay.env venue) importedTable before identified actor =
        .ok (after, ops) ∧
      (UpToDate passInMay objects' ↔
        Followed passInMay importedTable before after markedOnline ops) := by
  obtain ⟨objects', hserve, -⟩ := markOnline_stale
  exact ⟨objects', hserve, upToDate_action_iff passInMay venue importedTable objects'
    (member "prince" [.prince]) "event" none markedOnline importedTable_keyed importedTable_columns
    importedTable_fresh importedTable_upToDate hserve⟩

theorem not_upToDate_action :
    ¬∀ (clock : Ratings.Clock) (env : Env) (objects objects' : Objects) (user : User) (uid : Uid)
      (oauthTournament : Option Uid) (event : TournamentEvent), WellKeyed objects →
      DeckColumns objects → env.Fresh objects uid → UpToDate clock objects →
      tournamentAction (clock.env env) objects user uid oauthTournament event = .ok objects' →
      UpToDate clock objects' := by
  intro h
  obtain ⟨objects', hserve, hmember, hstale⟩ := markOnline_stale
  have hafter := h passInMay venue importedTable objects' (member "prince" [.prince]) "event" none
    markedOnline importedTable_keyed importedTable_columns importedTable_fresh
    importedTable_upToDate hserve
  exact hstale (hafter.ratings "a" hmember .constructedOffline)

end Archon.Backend

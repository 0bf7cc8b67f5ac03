import Archon.Backend.Frames
import Archon.Backend.Scenario
import Archon.Properties.CancelledSeats

/-!
# What the full recompute settles (`ratings.py:291`)

A pass over members saves each with what it computes for him and leaves every other row. The rating
of a category is the one its results give for the players the first pass collects, and stays as it
was for everyone else.
-/

namespace Archon.Backend
open Engine

/-! ### Passes over members -/

/-- The rows of everything but members. -/
def otherRows (objects : Objects) : List (Uid × Row) :=
  objects.rows.filter fun r => r.2.object.asUser.isNone

section Passes

variable {env : Env} {objects table : Objects}
variable {f : Objects → Uid → Objects} {g : Uid → User → User}

/-- A loop that saves each member as `g` rewrites him, or leaves him when nothing changes. -/
structure PassesOver (g : Uid → User → User) (f : Objects → Uid → Objects) : Prop where
  step : ∀ table uid u, table.user? uid = some u →
    f table uid = saveUser table (g uid u) ∨ (f table uid = table ∧ g uid u = u)
  absent : ∀ table uid, table.user? uid = none → f table uid = table
  uid_eq : ∀ uid u, (g uid u).uid = u.uid
  settled : ∀ uid u, g uid (g uid u) = g uid u

theorem otherRows_saveUser {u v : User} (hu : table.user? u.uid = some v) :
    otherRows (saveUser table u) = otherRows table := by
  obtain ⟨deletedAt, hrow⟩ := find?_eq_some.1 (user?_eq_some.1 hu)
  rw [otherRows, otherRows, ← List.filterMap_eq_filter]
  refine filterMap_saveObject rfl fun row hold => ?_
  rw [hrow, Option.some_inj] at hold
  rw [← hold]
  rfl

theorem PassesOver.run (hf : PassesOver g f) (h : WellKeyed table) (uids : List Uid) :
    WellKeyed (uids.foldl f table) ∧ otherRows (uids.foldl f table) = otherRows table ∧
      ∀ uid, (uids.foldl f table).user? uid =
        if uid ∈ uids then (table.user? uid).map (g uid) else table.user? uid := by
  induction uids generalizing table with
  | nil => exact ⟨h, rfl, fun uid => by simp⟩
  | cons k uids ih =>
    have hstep : WellKeyed (f table k) ∧ otherRows (f table k) = otherRows table ∧
        ∀ uid, (f table k).user? uid =
          if uid = k then (table.user? uid).map (g uid) else table.user? uid := by
      cases hu : table.user? k with
      | none =>
        rw [hf.absent table k hu]
        refine ⟨h, rfl, fun uid => ?_⟩
        split
        · rename_i heq
          rw [heq, hu, Option.map_none]
        · rfl
      | some u =>
        have hkey : (g k u).uid = k := (hf.uid_eq k u).trans (h.uid_eq (user?_eq_some.1 hu))
        rcases hf.step table k u hu with heq | ⟨heq, hsame⟩
        · rw [heq]
          refine ⟨wellKeyed_saveUser h _, otherRows_saveUser (hkey.symm ▸ hu), fun uid => ?_⟩
          by_cases huid : uid = k
          · subst huid
            have hsaved := user?_saveUser table (g uid u)
            rw [hkey] at hsaved
            rw [if_pos rfl, hu, Option.map_some, hsaved]
          · rw [if_neg huid]
            exact user?_congr (lookup_saveObject_ne fun hne => huid (hne.trans hkey))
        · rw [heq]
          refine ⟨h, rfl, fun uid => ?_⟩
          split
          · rename_i huid
            rw [huid, hu, Option.map_some, hsame]
          · rfl
    obtain ⟨hkeyed, hother, husers⟩ := hstep
    obtain ⟨hkeyed', hother', husers'⟩ := ih hkeyed
    refine ⟨hkeyed', hother'.trans hother, fun uid => ?_⟩
    rw [List.foldl_cons, husers', husers]
    by_cases huid : uid = k
    · subst huid
      simp only [if_true, List.mem_cons_self]
      split
      · rw [Option.map_map]
        refine congrArg (fun h => (table.user? uid).map h) (funext fun u => ?_)
        exact hf.settled uid u
      · rfl
    · have hmem : uid ∈ k :: uids ↔ uid ∈ uids := by simp [huid]
      simp only [if_neg huid, hmem]

/-- The member with the rating the pass computes for him. -/
def rerated (env : Env) (objects : Objects) (category : RatingCategory) (uid : Uid) (u : User) :
    User :=
  if u.ratings category = some (env.rated objects category uid) then u
  else
    { u with
      ratings := Function.update u.ratings category (some (env.rated objects category uid))
      modified := env.now }

theorem ratings_rerated (env : Env) (objects : Objects) (category category' : RatingCategory)
    (uid : Uid) (u : User) :
    (rerated env objects category uid u).ratings category' =
      if category' = category then some (env.rated objects category uid)
      else u.ratings category' := by
  unfold rerated
  split
  · rename_i hsame
    split
    · rename_i heq
      rw [heq, hsame]
    · rfl
  · exact Function.update_apply u.ratings category _ category'

theorem run_ratings (env : Env) (h : WellKeyed objects) (uids : List Uid)
    (category : RatingCategory) :
    WellKeyed (recomputeRatingsForPlayers env objects uids category) ∧
      otherRows (recomputeRatingsForPlayers env objects uids category) = otherRows objects ∧
      ∀ uid, (recomputeRatingsForPlayers env objects uids category).user? uid =
        if uid ∈ uids then (objects.user? uid).map (rerated env objects category uid)
        else objects.user? uid := by
  refine PassesOver.run (g := rerated env objects category) ⟨fun table uid u hu => ?_,
    fun table uid hu => by simp only [hu], fun uid u => ?_, fun uid u => ?_⟩ h uids
  · by_cases hsame : u.ratings category = some (env.rated objects category uid)
    · exact .inr ⟨by simp only [hu, if_pos hsame], by rw [rerated, if_pos hsame]⟩
    · exact .inl (by simp only [hu, if_neg hsame, rerated])
  · unfold rerated
    split <;> rfl
  · have hdone := ratings_rerated env objects category category uid u
    rw [if_pos rfl] at hdone
    rw [rerated, if_pos hdone]

/-- The member with the wins the pass lists for him. -/
def rewon (env : Env) (objects : Objects) (uid : Uid) (u : User) : User :=
  if tournamentWins objects uid = u.wins then u
  else { u with wins := tournamentWins objects uid, modified := env.now }

theorem ratings_rewon (u : User) : (rewon env objects uid u).ratings = u.ratings := by
  unfold rewon
  split <;> rfl

theorem run_wins (env : Env) (h : WellKeyed objects) (uids : List Uid) :
    WellKeyed (recomputeWins env objects uids) ∧
      otherRows (recomputeWins env objects uids) = otherRows objects ∧
      ∀ uid, (recomputeWins env objects uids).user? uid =
        if uid ∈ uids then (objects.user? uid).map (rewon env objects uid)
        else objects.user? uid := by
  refine PassesOver.run (g := rewon env objects) ⟨fun table uid u hu => ?_,
    fun table uid hu => by simp only [hu], fun uid u => ?_, fun uid u => ?_⟩ h uids
  · by_cases hsame : tournamentWins objects uid = u.wins
    · exact .inr ⟨by simp only [hu, if_pos hsame], if_pos hsame⟩
    · exact .inl (by simp only [hu, if_neg hsame, rewon])
  · unfold rewon
    split <;> rfl
  · by_cases hsame : tournamentWins objects uid = u.wins
    · rw [show rewon env objects uid u = u from if_pos hsame]
      exact if_pos hsame
    · rw [show rewon env objects uid u = _ from if_neg hsame]
      exact if_pos rfl

end Passes

/-! ### The full recompute -/

section Recompute

variable {clock : Ratings.Clock} {env : Env} {objects objects' : Objects} {uid : Uid}
variable {category : RatingCategory}

theorem filterMap_otherRows {α : Type} {g : Uid × Row → Option α}
    (hg : ∀ r, r.2.object.asUser ≠ none → g r = none) (objects : Objects) :
      (otherRows objects).filterMap g = objects.rows.filterMap g := by
  rw [otherRows, List.filterMap_filter]
  refine List.filterMap_congr fun r _ => ?_
  by_cases huser : r.2.object.asUser = none
  · simp [huser]
  · simp [huser, hg r huser]

theorem asTournament_of_user {o : StoredObject} (h : o.asUser ≠ none) : o.asTournament = none := by
  cases o with
  | user => rfl
  | _ => exact absurd rfl h

theorem asSanction_of_user {o : StoredObject} (h : o.asUser ≠ none) : o.asSanction = none := by
  cases o with
  | user => rfl
  | _ => exact absurd rfl h

theorem collectPlayers_congr (h : otherRows objects' = otherRows objects) :
    collectPlayers objects' = collectPlayers objects := by
  have htournaments : (objects'.rows.filterMap fun r => r.2.object.asTournament) =
      objects.rows.filterMap fun r => r.2.object.asTournament := by
    rw [← filterMap_otherRows fun r => asTournament_of_user, h,
      filterMap_otherRows fun r => asTournament_of_user]
  funext category
  rw [collectPlayers, collectPlayers, htournaments]

theorem rated_congr (h : otherRows objects' = otherRows objects) :
    Ratings.rated clock objects' = Ratings.rated clock objects := by
  have hsanctions : objects'.sanctions = objects.sanctions := by
    rw [Objects.sanctions, ← filterMap_otherRows fun r => asSanction_of_user, h,
      filterMap_otherRows fun r => asSanction_of_user]
    rfl
  have hfinished : Ratings.finishedForCategory clock objects' =
      Ratings.finishedForCategory clock objects := by
    funext format online
    have hnone : ∀ r : Uid × Row, r.2.object.asUser ≠ none →
        (if r.2.deletedAt = none then
          r.2.object.asTournament.filter fun t =>
            t.doc.state == .finished && t.doc.text .format == format
              && t.doc.flag .online == online && Ratings.inWindow clock t.doc
        else none) = none := by
      intro r hr
      rw [asTournament_of_user hr]
      exact ite_self none
    rw [Ratings.finishedForCategory, ← filterMap_otherRows hnone, h, filterMap_otherRows hnone]
    rfl
  have hread : getSanctionsForTournament objects' = getSanctionsForTournament objects := by
    funext uid
    rw [getSanctionsForTournament, hsanctions]
    rfl
  funext category uid
  rw [Ratings.rated, Ratings.entriesFor, hfinished, hread]
  rfl

theorem run_categories (env : Env) (h : WellKeyed objects)
    (hread : ∀ objects', otherRows objects' = otherRows objects →
      env.rated objects' = env.rated objects)
    (done : List RatingCategory) {u : User} (hu : objects.user? uid = some u) :
    let table := done.foldl (fun table category =>
      recomputeRatingsForPlayers env table (collectPlayers objects category) category) objects
    WellKeyed table ∧ otherRows table = otherRows objects ∧
      ∃ u', table.user? uid = some u' ∧ ∀ category, u'.ratings category =
        if category ∈ done ∧ uid ∈ collectPlayers objects category then
          some (env.rated objects category uid)
        else u.ratings category := by
  induction done using List.reverseRecOn with
  | nil => exact ⟨h, rfl, u, hu, fun category => by simp⟩
  | append_singleton done last ih =>
    obtain ⟨hkeyed, hother, v, hv, hratings⟩ := ih
    rw [List.foldl_append, List.foldl_cons, List.foldl_nil]
    revert hkeyed hother hv
    generalize done.foldl (fun table category =>
      recomputeRatingsForPlayers env table (collectPlayers objects category) category) objects =
        table
    intro hkeyed hother hv
    obtain ⟨hkeyed', hother', husers⟩ :=
      run_ratings env hkeyed (collectPlayers objects last) last
    refine ⟨hkeyed', hother'.trans hother, ?_⟩
    rw [husers, hv, Option.map_some]
    by_cases hlisted : uid ∈ collectPlayers objects last
    · refine ⟨_, if_pos hlisted, fun category => ?_⟩
      rw [ratings_rerated, hread table hother, hratings]
      by_cases hlast : category = last
      · simp [hlast, hlisted]
      · simp [hlast]
    · refine ⟨v, if_neg hlisted, fun category => ?_⟩
      rw [hratings]
      by_cases hlast : category = last
      · simp [hlast, hlisted]
      · simp [hlast]

theorem ratings_recomputeAll (clock : Ratings.Clock) (env : Env) (category : RatingCategory)
    (h : WellKeyed objects) {u : User} (hu : objects.user? uid = some u) :
    ((recomputeAllRatings (clock.env env) objects).user? uid).map (fun u' => u'.ratings category) =
      some (if uid ∈ collectPlayers objects category then
        some (Ratings.rated clock objects category uid) else u.ratings category) := by
  obtain ⟨hkeyed, -, u', hu', hratings⟩ := run_categories (clock.env env) h
    (fun objects' hother => rated_congr hother) ratingCategories hu
  have hall : category ∈ ratingCategories := by cases category <;> decide
  have hwins := run_wins (clock.env env) hkeyed
    (winUids (recomputeCategories (clock.env env) objects))
  have hmember := hwins.2.2 uid
  rw [recomputeAllRatings]
  rw [recomputeCategories] at hmember ⊢
  rw [hmember, hu', Option.map_some]
  have hrating := hratings category
  simp only [hall, true_and] at hrating
  split
  · rw [Option.map_some, ratings_rewon, hrating]
    rfl
  · rw [Option.map_some, hrating]
    rfl

end Recompute

/-! ### The rating the results give -/

/-- A live finished eligible tournament of the category, inside the window, that the member played
neither disqualified nor proxied. -/
structure Counts (clock : Ratings.Clock) (objects : Objects) (category : RatingCategory) (uid : Uid)
    (t : StoredTournament) : Prop where
  live : objects.lookup t.uid = some ⟨.tournament t, none⟩
  finished : t.doc.state = .finished
  format : t.doc.text .format ∈ Ratings.formats category
  online : t.doc.flag .online = Ratings.isOnline category
  window : Ratings.inWindow clock t.doc = true
  eligible : rankingEligibility t.doc = .eligible
  played : uid ∈ Ratings.playersWithRounds t.doc
  competed : competes t.doc (getSanctionsForTournament objects t.uid) uid

/-- The rating lists an entry for each tournament that counts, once, and sums the best of them. -/
structure IsRatingOf (clock : Ratings.Clock) (objects : Objects) (category : RatingCategory)
    (uid : Uid) (r : CategoryRating) : Prop where
  entries : ∀ e, e ∈ r.tournaments ↔ ∃ t, Counts clock objects category uid t ∧
    e = Ratings.computeEntry clock t (getSanctionsForTournament objects t.uid) uid
  once : (r.tournaments.map TournamentRatingEntry.tournamentUid).Nodup
  total : Best.IsBestSum Ratings.topN (r.tournaments.map TournamentRatingEntry.points) r.total

section Results

variable {clock : Ratings.Clock} {objects : Objects} {uid : Uid} {category : RatingCategory}
variable {r : CategoryRating}

theorem IsRatingOf.empty (h : IsRatingOf clock objects category uid r)
    (hnone : ∀ t, ¬Counts clock objects category uid t) : r = ⟨0, []⟩ := by
  obtain ⟨total, tournaments⟩ := r
  have hentries : tournaments = [] := by
    refine List.eq_nil_iff_forall_not_mem.2 fun e he => ?_
    obtain ⟨t, ht, -⟩ := (h.entries e).1 he
    exact hnone t ht
  subst hentries
  have htotal : total = 0 := Best.isBestSum_nil.1 h.total
  rw [htotal]

theorem uid_of_row (h : WellKeyed objects) {row : Uid × Row} (hrow : row ∈ objects.rows)
    {t : StoredTournament} (ht : row.2.object.asTournament = some t) : t.uid = row.1 := by
  obtain ⟨k, o, deletedAt⟩ := row
  have hlookup := mem_rows.1 hrow
  cases o with
  | tournament s =>
    obtain rfl : s = t := by simpa [StoredObject.asTournament] using ht
    exact h k _ hlookup
  | _ => simp [StoredObject.asTournament] at ht

theorem mem_finishedForCategory (h : WellKeyed objects) {format : String} {online : Bool}
    {t : StoredTournament} :
    t ∈ Ratings.finishedForCategory clock objects format online ↔
      objects.lookup t.uid = some ⟨.tournament t, none⟩ ∧ t.doc.state = .finished ∧
        t.doc.text .format = format ∧ t.doc.flag .online = online ∧
        Ratings.inWindow clock t.doc = true := by
  rw [Ratings.finishedForCategory, List.mem_filterMap]
  constructor
  · rintro ⟨⟨k, o, deletedAt⟩, hrow, ht⟩
    have hlookup := mem_rows.1 hrow
    split_ifs at ht with hlive
    obtain ⟨hobject, hp⟩ := Option.filter_eq_some_iff.1 ht
    cases o with
    | tournament s =>
      obtain rfl : s = t := by simpa [StoredObject.asTournament] using hobject
      have hkey : s.uid = k := h k _ hlookup
      have hlive' : deletedAt = none := hlive
      simp only [Bool.and_eq_true, beq_iff_eq] at hp
      exact ⟨by rw [hkey, hlookup, hlive'], hp.1.1.1, hp.1.1.2, hp.1.2, hp.2⟩
    | _ => simp [StoredObject.asTournament] at hobject
  · rintro ⟨hlookup, hfinished, hformat, honline, hwindow⟩
    refine ⟨(t.uid, ⟨.tournament t, none⟩), mem_rows.2 hlookup, ?_⟩
    simp [StoredObject.asTournament, Option.filter_some, hfinished, hformat, honline, hwindow]

theorem mem_entriesFor (h : WellKeyed objects) {e : TournamentRatingEntry} :
    e ∈ Ratings.entriesFor clock objects category uid ↔ ∃ t, Counts clock objects category uid t ∧
      e = Ratings.computeEntry clock t (getSanctionsForTournament objects t.uid) uid := by
  simp only [Ratings.entriesFor, List.mem_flatMap, List.mem_filterMap, mem_finishedForCategory h]
  constructor
  · rintro ⟨format, hformat, t, ⟨hlive, hfinished, htext, honline, hwindow⟩, he⟩
    split_ifs at he with hrated
    obtain ⟨-, hplayed, heligible, hcompeted⟩ := Ratings.mem_ratedPlayers.1 hrated
    cases he
    exact ⟨t, ⟨hlive, hfinished, htext ▸ hformat, honline, hwindow, heligible, hplayed,
      hcompeted⟩, rfl⟩
  · rintro ⟨t, ht, rfl⟩
    refine ⟨_, ht.format, t, ⟨ht.live, ht.finished, rfl, ht.online, ht.window⟩, ?_⟩
    rw [if_pos (Ratings.mem_ratedPlayers.2
      ⟨List.mem_singleton.2 rfl, ht.played, ht.eligible, ht.competed⟩)]

theorem pairwise_rows (objects : Objects) : objects.rows.Pairwise fun r r' => r.1 ≠ r'.1 := by
  rw [Objects.rows, List.pairwise_map]
  exact List.nodupKeys_iff_pairwise.1 objects.nodupKeys

theorem nodup_entriesFor (h : WellKeyed objects) :
    ((Ratings.entriesFor clock objects category uid).map
      TournamentRatingEntry.tournamentUid).Nodup := by
  have huids : ∀ format online, (Ratings.finishedForCategory clock objects format online).Pairwise
      fun t t' => t.uid ≠ t'.uid := by
    intro format online
    have hrows := (pairwise_rows objects).imp_of_mem
      (S := fun r r' => ∀ t, r.2.object.asTournament = some t →
        ∀ t', r'.2.object.asTournament = some t' → t.uid ≠ t'.uid)
      fun {r r'} hr hr' hne t ht t' ht' => ?_
    · rw [Ratings.finishedForCategory, List.pairwise_filterMap]
      refine hrows.imp fun {r r'} hne t ht t' ht' => ?_
      split_ifs at ht ht'
      exact hne t (Option.filter_eq_some_iff.1 ht).1 t' (Option.filter_eq_some_iff.1 ht').1
    · have hkey := uid_of_row h hr ht
      have hkey' := uid_of_row h hr' ht'
      rwa [hkey, hkey']
  rw [Ratings.entriesFor, List.map_flatMap, List.nodup_flatMap]
  constructor
  · intro format _
    rw [List.Nodup, List.pairwise_map, List.pairwise_filterMap]
    refine (huids format _).imp fun {t t'} hne e he e' he' => ?_
    dsimp only at he he'
    split_ifs at he he'
    cases he
    cases he'
    exact hne
  · have hformats : (Ratings.formats category).Nodup := by cases category <;> decide
    refine hformats.imp fun {format format'} hne => ?_
    have hfrom : ∀ {format k}, k ∈ ((Ratings.finishedForCategory clock objects format
        (Ratings.isOnline category)).filterMap fun t =>
          if uid ∈ Ratings.ratedPlayers t.doc (getSanctionsForTournament objects t.uid) [uid] then
            some (Ratings.computeEntry clock t (getSanctionsForTournament objects t.uid) uid)
          else none).map TournamentRatingEntry.tournamentUid →
        ∃ t, objects.lookup k = some ⟨.tournament t, none⟩ ∧ t.doc.text .format = format := by
      intro format k hk
      obtain ⟨e, he, rfl⟩ := List.mem_map.1 hk
      obtain ⟨t, ht, he⟩ := List.mem_filterMap.1 he
      obtain ⟨hlive, -, htext, -⟩ := (mem_finishedForCategory h).1 ht
      split_ifs at he
      cases he
      exact ⟨t, hlive, htext⟩
    intro k hk hk'
    obtain ⟨t, hrow, htext⟩ := hfrom hk
    obtain ⟨t', hrow', htext'⟩ := hfrom hk'
    rw [hrow, Option.some_inj] at hrow'
    cases hrow'
    exact hne (htext.symm.trans htext')

theorem points_sorted (entries : List TournamentRatingEntry) :
    ((Ratings.categoryRating entries).tournaments.map TournamentRatingEntry.points).Pairwise
      (· ≥ ·) := by
  rw [List.pairwise_map, Ratings.categoryRating]
  refine (List.pairwise_insertionSort _ entries).imp fun {a b} hle => ?_
  rcases Prod.Lex.le_iff.1 hle with hlt | ⟨heq, -⟩
  · exact (OrderDual.toDual_lt_toDual.1 hlt).le
  · exact (OrderDual.toDual_inj.1 heq).ge

theorem isRatingOf_rated (h : WellKeyed objects) :
    IsRatingOf clock objects category uid (Ratings.rated clock objects category uid) := by
  have hperm : (Ratings.rated clock objects category uid).tournaments.Perm
      (Ratings.entriesFor clock objects category uid) := List.perm_insertionSort _ _
  refine ⟨fun e => ?_, ?_, ?_⟩
  · rw [hperm.mem_iff, mem_entriesFor h]
  · exact (hperm.map _).nodup_iff.2 (nodup_entriesFor h)
  · have htotal := Best.isBestSum_take (n := Ratings.topN)
      (points_sorted (Ratings.entriesFor clock objects category uid))
    rwa [← List.map_take] at htotal

end Results

/-! ### Completeness -/

/-- The member's rating of the category, empty when none is stored. -/
def storedRating (objects : Objects) (uid : Uid) (category : RatingCategory) : CategoryRating :=
  ((objects.user? uid).bind fun u => u.ratings category).getD ⟨0, []⟩

/-- The table with another stored rating of the member. -/
def carrying (objects : Objects) (uid : Uid) (category : RatingCategory)
    (earlier : Option CategoryRating) : Objects :=
  match objects.user? uid with
  | some u => saveUser objects { u with ratings := Function.update u.ratings category earlier }
  | none => objects

/-- The member is on the player list of a live finished eligible tournament of the category. -/
def Listed (objects : Objects) (category : RatingCategory) (uid : Uid) : Prop :=
  ∃ t, objects.tournament? t.uid = some t ∧ t.doc.state = .finished ∧ t.deletedAt = none ∧
    rankingEligibility t.doc = .eligible ∧ ratingCategory t.doc = category ∧
    uid ∈ playerUids t.doc

section Complete

variable {clock : Ratings.Clock} {env : Env} {objects : Objects} {uid : Uid}
variable {category : RatingCategory}

theorem mem_collectPlayers (h : WellKeyed objects) :
    uid ∈ collectPlayers objects category ↔ Listed objects category uid := by
  simp only [collectPlayers, List.mem_flatMap, List.mem_filter, List.mem_filterMap, collects,
    Bool.and_eq_true, beq_iff_eq]
  constructor
  · rintro ⟨t, ⟨⟨row, hrow, ht⟩, ⟨⟨hfinished, hlive⟩, heligible⟩, hcategory⟩, huid⟩
    refine ⟨t, ?_, hfinished, hlive, heligible, hcategory, huid⟩
    rw [Objects.tournament?, Objects.find?, uid_of_row h hrow ht, mem_rows.1 hrow]
    exact ht
  · rintro ⟨t, hrow, hfinished, hlive, heligible, hcategory, huid⟩
    rw [Objects.tournament?, Objects.find?, Option.bind_eq_some_iff] at hrow
    obtain ⟨o, ho, ht⟩ := hrow
    obtain ⟨row, hlookup, rfl⟩ := Option.map_eq_some_iff.1 ho
    exact ⟨t, ⟨⟨(t.uid, row), mem_rows.2 hlookup, ht⟩, ⟨⟨hfinished, hlive⟩, heligible⟩,
      hcategory⟩, huid⟩

theorem carrying_spec (h : WellKeyed objects) {u : User} (hu : objects.user? uid = some u)
    (category : RatingCategory) (earlier : Option CategoryRating) :
    WellKeyed (carrying objects uid category earlier) ∧
      otherRows (carrying objects uid category earlier) = otherRows objects ∧
      (carrying objects uid category earlier).user? uid =
        some { u with ratings := Function.update u.ratings category earlier } := by
  obtain rfl : u.uid = uid := h.uid_eq (user?_eq_some.1 hu)
  unfold carrying
  rw [hu]
  exact ⟨wellKeyed_saveUser h _, otherRows_saveUser hu, user?_saveUser objects _⟩

/-- Whatever rating a member carries, the full recompute leaves the one his results give exactly
when he is on the player list of some live finished eligible tournament of the category. -/
theorem recomputeAll_complete_iff (h : WellKeyed objects)
    (hu : (objects.user? uid).isSome = true) :
    (∀ earlier, IsRatingOf clock objects category uid
      (storedRating (recomputeAllRatings (clock.env env) (carrying objects uid category earlier))
        uid category)) ↔ Listed objects category uid := by
  obtain ⟨u, hu⟩ := Option.isSome_iff_exists.1 hu
  have hafter : ∀ earlier, storedRating
      (recomputeAllRatings (clock.env env) (carrying objects uid category earlier)) uid category =
        if uid ∈ collectPlayers objects category then Ratings.rated clock objects category uid
        else earlier.getD ⟨0, []⟩ := by
    intro earlier
    obtain ⟨hkeyed, hother, hmember⟩ := carrying_spec h hu category earlier
    have hrating := ratings_recomputeAll clock env category hkeyed hmember
    rw [collectPlayers_congr hother, rated_congr hother] at hrating
    simp only [Function.update_self] at hrating
    obtain ⟨u', hu', heq⟩ := Option.map_eq_some_iff.1 hrating
    rw [storedRating, hu', Option.bind_some, heq]
    split <;> rfl
  simp only [hafter]
  constructor
  · intro hright
    by_contra hlisted
    rw [← mem_collectPlayers h] at hlisted
    have hearlier := hright (some ⟨1, []⟩)
    rw [if_neg hlisted] at hearlier
    have htotal := Best.isBestSum_nil.1 hearlier.total
    cases htotal
  · intro hlisted earlier
    rw [if_pos ((mem_collectPlayers h).2 hlisted)]
    exact isRatingOf_rated h

end Complete

/-! ### A deleted event -/

/-- Eight players of two tables, `a` the winner. -/
def eightPlayed : StoredTournament :=
  { event with
    doc := { event.doc with
      state := .finished
      players := ["a", "b", "c", "d", "e", "f", "g", "h"].map fun uid =>
        ⟨some uid, .finished, .pending, 0, Score.zero, false, false, false, false, none⟩
      rounds := [[⟨["a", "b", "c", "d"].map Seat.fresh, .finished, none, none⟩,
        ⟨["e", "f", "g", "h"].map Seat.fresh, .finished, none, none⟩]]
      winner := "a" } }

/-- A pass in May 2026. -/
def passInMay : Ratings.Clock := ⟨⟨2026, 5, 2, "T04:00:00+00:00"⟩, fun _ => 0, fun _ => 0⟩

/-- The event, live or deleted, and a member who carries the five points of it. -/
def ratedTable (deletedAt : Option Stamp) : Objects :=
  saveUser (saveTournament ∅ { eightPlayed with deletedAt }) { member "a" [] with
    ratings := fun category => if category = .constructedOffline then
      some ⟨5, [⟨"event", "Event", "2026-05-01", 8, "", 0, 0, 0, 5, 1⟩]⟩ else none }

theorem ratedTable_keyed (deletedAt : Option Stamp) : WellKeyed (ratedTable deletedAt) := by
  have hempty : WellKeyed ∅ := fun _ _ h => by cases h
  exact wellKeyed_saveUser (wellKeyed_saveTournament hempty _) _

theorem listed_ratedTable : Listed (ratedTable none) .constructedOffline "a" :=
  ⟨{ eightPlayed with deletedAt := none }, rfl, rfl, rfl, by decide, by decide, by decide⟩

theorem recomputeAll_complete_ratedTable :
    Listed (ratedTable none) .constructedOffline "a" ∧
    ∀ earlier, IsRatingOf passInMay (ratedTable none) .constructedOffline "a"
      (storedRating (recomputeAllRatings (passInMay.env venue)
        (carrying (ratedTable none) "a" .constructedOffline earlier)) "a" .constructedOffline) :=
  ⟨listed_ratedTable,
    (recomputeAll_complete_iff (ratedTable_keyed none) (by decide)).2 listed_ratedTable⟩

/-- Once the event is deleted nothing brings the pass to the member. -/
theorem not_recomputeAll_complete :
    ¬∀ (clock : Ratings.Clock) (env : Env) (objects : Objects) (uid : Uid)
      (category : RatingCategory), WellKeyed objects → (objects.user? uid).isSome = true →
      IsRatingOf clock objects category uid
        (storedRating (recomputeAllRatings (clock.env env) objects) uid category) := by
  intro h
  have hright := h passInMay venue (ratedTable (some "2026-05-01T20:00:00Z")) "a"
    .constructedOffline (ratedTable_keyed _) (by decide)
  have hnone : ∀ t, ¬Counts passInMay (ratedTable (some "2026-05-01T20:00:00Z"))
      .constructedOffline "a" t := by
    intro t ht
    have hdeleted : (ratedTable (some "2026-05-01T20:00:00Z")).rows.all (fun row =>
        row.2.deletedAt.isSome || row.2.object.asTournament.isNone) = true := by decide +kernel
    have hrow := List.all_eq_true.1 hdeleted (t.uid, ⟨.tournament t, none⟩) (mem_rows.2 ht.live)
    cases hrow
  have hempty := hright.empty hnone
  revert hempty
  decide +kernel

end Archon.Backend

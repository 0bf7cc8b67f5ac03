import Archon.Library.KeyedStores
import Archon.Backend.Offline

/-!
# What each operation writes

Every row of the table stands under the uid of its object. The deck operations write rows of decks,
the rating passes rows of members, the resolution of offline players rows of members and new ones.
-/

namespace Archon.Backend
open Engine Table

/-- The uid an object is saved under. -/
def StoredObject.uid : StoredObject → Uid
  | .user u => u.uid
  | .sanction s => s.uid
  | .tournament t => t.uid
  | .deck d => d.uid
  | .league l => l.uid
  | .promo uid _ => uid

def Row.uid (r : Row) : Uid := r.object.uid

/-- Every row stands under the uid of its object. -/
abbrev WellKeyed (objects : Objects) : Prop := Keyed Row.uid objects

/-- Each row is as before, or of an object that `W` allows under its uid. -/
abbrev Written (W : Uid → StoredObject → Prop) (a b : Objects) : Prop :=
  Writes (fun uid row => W uid row.object) a b

/-- The rows a table holds of members. -/
def IsUser (objects : Objects) (uid : Uid) : Prop := (objects.user? uid).isSome = true

/-- The rows a table holds of decks of a tournament. -/
def IsDeckOf (objects : Objects) (tournamentUid uid : Uid) : Prop :=
  ∃ d, objects.find? uid = some (.deck d) ∧ d.tournamentUid = tournamentUid

section Frames

variable {env : Env} {objects objects' table : Objects} {uid tournamentUid : Uid}
variable {V W : Uid → StoredObject → Prop}
variable {u : User} {d : StoredDeck} {t : StoredTournament} {s : StoredSanction}

/-! ### Readers -/

theorem find?_eq_some {o : StoredObject} :
    objects.find? uid = some o ↔ ∃ deletedAt, objects.lookup uid = some ⟨o, deletedAt⟩ := by
  unfold Objects.find?
  rw [Option.map_eq_some_iff]
  constructor
  · rintro ⟨⟨o', deletedAt⟩, hrow, rfl⟩
    exact ⟨deletedAt, hrow⟩
  · rintro ⟨deletedAt, hrow⟩
    exact ⟨_, hrow, rfl⟩

theorem user?_eq_some : objects.user? uid = some u ↔ objects.find? uid = some (.user u) := by
  unfold Objects.user?
  rw [Option.bind_eq_some_iff]
  constructor
  · rintro ⟨o, ho, hu⟩
    cases o <;> simp_all [StoredObject.asUser]
  · exact fun h => ⟨_, h, rfl⟩

theorem sanction?_eq_some :
    objects.sanction? uid = some s ↔ objects.find? uid = some (.sanction s) := by
  unfold Objects.sanction?
  rw [Option.bind_eq_some_iff]
  constructor
  · rintro ⟨o, ho, hs⟩
    cases o <;> simp_all [StoredObject.asSanction]
  · exact fun h => ⟨_, h, rfl⟩

theorem tournament?_eq_some :
    objects.tournament? uid = some t ↔ objects.find? uid = some (.tournament t) := by
  unfold Objects.tournament?
  rw [Option.bind_eq_some_iff]
  constructor
  · rintro ⟨o, ho, ht⟩
    cases o <;> simp_all [StoredObject.asTournament]
  · exact fun h => ⟨_, h, rfl⟩

theorem find?_congr (h : objects'.lookup uid = objects.lookup uid) :
    objects'.find? uid = objects.find? uid := by
  rw [Objects.find?, Objects.find?, h]

theorem tournament?_congr (h : objects'.lookup uid = objects.lookup uid) :
    objects'.tournament? uid = objects.tournament? uid := by
  rw [Objects.tournament?, Objects.tournament?, find?_congr h]

theorem user?_congr (h : objects'.lookup uid = objects.lookup uid) :
    objects'.user? uid = objects.user? uid := by
  rw [Objects.user?, Objects.user?, find?_congr h]

theorem mem_rows {x : Uid × Row} : x ∈ objects.rows ↔ objects.lookup x.1 = some x.2 := by
  obtain ⟨k, r⟩ := x
  rw [Objects.rows, List.mem_map, ← Option.mem_def, AList.mem_lookup_iff]
  constructor
  · rintro ⟨e, he, heq⟩
    cases heq
    exact he
  · exact fun h => ⟨⟨k, r⟩, h, rfl⟩

theorem kerase_eq_filter {rows : List (Sigma fun _ : Uid => Row)} (h : rows.NodupKeys) (uid : Uid) :
    rows.kerase uid = rows.filter fun e => e.1 != uid := by
  induction rows with
  | nil => rfl
  | cons e rows ih =>
    obtain ⟨hfresh, hrest⟩ := List.nodupKeys_cons.1 h
    by_cases he : uid = e.1
    · rw [List.kerase_cons_eq he, List.filter_cons_of_neg (by simp [he])]
      refine (List.filter_eq_self.2 fun x hx => ?_).symm
      rw [bne_iff_ne, he]
      rintro heq
      exact hfresh (heq ▸ List.mem_keys_of_mem hx)
    · rw [List.kerase_cons_ne he, ih hrest, List.filter_cons_of_pos (by simpa using Ne.symm he)]

theorem rows_saveObject (objects : Objects) (uid : Uid) (o : StoredObject)
    (deletedAt : Option Stamp) :
    (saveObject objects uid o deletedAt).rows =
      (uid, ⟨o, deletedAt⟩) :: objects.rows.filter fun r => r.1 != uid := by
  rw [saveObject, Objects.rows, AList.entries_insert, List.map_cons,
    kerase_eq_filter objects.nodupKeys, Objects.rows, List.filter_map]
  rfl

theorem filterMap_saveObject {α : Type} {g : Uid × Row → Option α} {o : StoredObject}
    {deletedAt : Option Stamp} (hnew : g (uid, ⟨o, deletedAt⟩) = none)
    (hold : ∀ row, objects.lookup uid = some row → g (uid, row) = none) :
    (saveObject objects uid o deletedAt).rows.filterMap g = objects.rows.filterMap g := by
  rw [rows_saveObject, List.filterMap_cons_none hnew, List.filterMap_filter]
  refine List.filterMap_congr fun r hr => ?_
  obtain ⟨k, row⟩ := r
  by_cases hkey : k = uid
  · subst hkey
    rw [hold row (mem_rows.1 hr)]
    exact ite_self _
  · exact if_pos (bne_iff_ne.2 hkey)

theorem WellKeyed.uid_eq (h : WellKeyed objects) {o : StoredObject}
    (ho : objects.find? uid = some o) : o.uid = uid := by
  obtain ⟨deletedAt, hrow⟩ := find?_eq_some.1 ho
  exact h uid _ hrow

theorem mem_users (h : WellKeyed objects) : u ∈ objects.users ↔ objects.user? u.uid = some u := by
  rw [user?_eq_some, find?_eq_some, Objects.users, List.mem_filterMap]
  constructor
  · rintro ⟨⟨k, o, deletedAt⟩, hx, hu⟩
    cases o with
    | user v =>
      obtain rfl : v = u := by simpa [StoredObject.asUser] using hu
      have hrow := mem_rows.1 hx
      have hk : v.uid = k := h k _ hrow
      exact ⟨deletedAt, hk ▸ hrow⟩
    | _ => simp [StoredObject.asUser] at hu
  · rintro ⟨deletedAt, hrow⟩
    exact ⟨(u.uid, ⟨.user u, deletedAt⟩), mem_rows.2 hrow, rfl⟩

theorem nodup_read {β : Type} {read : Uid × Row → Option β} {key : β → Uid}
    (h : ∀ x ∈ objects.rows, ∀ b ∈ read x, key b = x.1) :
    ((objects.rows.filterMap read).map key).Nodup := by
  have hkeys : objects.rows.Pairwise fun x y => x.1 ≠ y.1 :=
    List.pairwise_map.2 (List.nodupKeys_iff_pairwise.1 objects.nodupKeys)
  rw [List.Nodup, List.pairwise_map, List.pairwise_filterMap]
  refine hkeys.imp_of_mem fun {x y} hx hy hne b hb d hd heq => hne ?_
  rw [← h x hx b hb, ← h y hy d hd, heq]

theorem liveUsers_subset (hu : u ∈ objects.liveUsers) : u ∈ objects.users := by
  rw [Objects.liveUsers, List.mem_filterMap] at hu
  obtain ⟨x, hx, hu⟩ := hu
  split_ifs at hu
  exact List.mem_filterMap.2 ⟨x, hx, hu⟩

theorem mem_decks (h : WellKeyed objects) :
    d ∈ objects.decks ↔ objects.find? d.uid = some (.deck d) := by
  rw [find?_eq_some, Objects.decks, List.mem_filterMap]
  constructor
  · rintro ⟨⟨k, o, deletedAt⟩, hx, hd⟩
    cases o with
    | deck e =>
      obtain rfl : e = d := by simpa [StoredObject.asDeck] using hd
      have hrow := mem_rows.1 hx
      have hk : e.uid = k := h k _ hrow
      exact ⟨deletedAt, hk ▸ hrow⟩
    | _ => simp [StoredObject.asDeck] at hd
  · rintro ⟨deletedAt, hrow⟩
    exact ⟨(d.uid, ⟨.deck d, deletedAt⟩), mem_rows.2 hrow, rfl⟩

theorem isDeckOf_of_mem (h : WellKeyed objects)
    (hd : d ∈ getDecksForTournament objects tournamentUid) :
      IsDeckOf objects tournamentUid d.uid := by
  obtain ⟨hmem, hof⟩ := List.mem_filter.1 hd
  rw [Bool.and_eq_true, beq_iff_eq] at hof
  exact ⟨d, (mem_decks h).1 hmem, hof.1⟩

/-! ### Writes -/

theorem written_saveUser (hW : W u.uid (.user u)) : Written W objects (saveUser objects u) :=
  writes_insert hW

theorem written_saveDeck (hW : W d.uid (.deck d)) : Written W objects (saveDeck objects d) :=
  writes_insert hW

theorem written_saveSanction (hW : W s.uid (.sanction s)) :
    Written W objects (saveSanction objects s) := writes_insert hW

theorem written_saveRow (hW : W t.uid (.tournament t)) : Written W objects (saveRow objects t) :=
  writes_insert hW

theorem written_saveTournament (hW : W t.uid (.tournament t)) :
    Written W objects (saveTournament objects t) := writes_insert hW

theorem wellKeyed_saveUser (h : WellKeyed objects) (u : User) : WellKeyed (saveUser objects u) :=
  keyed_insert h rfl

theorem user?_saveUser (table : Objects) (u : User) : (saveUser table u).user? u.uid = some u := by
  rw [user?_eq_some, find?_eq_some]
  exact ⟨u.deletedAt, lookup_saveObject⟩

theorem user?_saveUser_ne (h : uid ≠ u.uid) : (saveUser table u).user? uid = table.user? uid :=
  user?_congr (lookup_saveObject_ne h)

theorem wellKeyed_saveDeck (h : WellKeyed objects) (d : StoredDeck) :
    WellKeyed (saveDeck objects d) := keyed_insert h rfl

theorem wellKeyed_saveSanction (h : WellKeyed objects) (s : StoredSanction) :
    WellKeyed (saveSanction objects s) := keyed_insert h rfl

theorem wellKeyed_saveRow (h : WellKeyed objects) (t : StoredTournament) :
    WellKeyed (saveRow objects t) := keyed_insert h rfl

theorem wellKeyed_saveTournament (h : WellKeyed objects) (t : StoredTournament) :
    WellKeyed (saveTournament objects t) := keyed_insert h rfl

@[simp] theorem tournament?_saveRow {t : StoredTournament} :
    (saveRow objects t).tournament? t.uid = some t := by
  simp [saveRow, Objects.tournament?, Objects.find?, StoredObject.asTournament]

@[simp] theorem tournament?_saveTournament {t : StoredTournament} :
    (saveTournament objects t).tournament? t.uid = some t := by
  simp [saveTournament, Objects.tournament?, Objects.find?, StoredObject.asTournament]

theorem tournament?_saveRow_of {t' : StoredTournament} (h : WellKeyed objects)
    (ht : objects.tournament? uid = some t) (hu : t'.uid = t.uid) :
    (saveRow objects t').tournament? uid = some t' := by
  have huid : t'.uid = uid := hu.trans (h.uid_eq (tournament?_eq_some.1 ht))
  rw [← huid]
  exact tournament?_saveRow

theorem tournament?_saveTournament_of {t' : StoredTournament} (h : WellKeyed objects)
    (ht : objects.tournament? uid = some t) (hu : t'.uid = t.uid) :
    (saveTournament objects t').tournament? uid = some t' := by
  have huid : t'.uid = uid := hu.trans (h.uid_eq (tournament?_eq_some.1 ht))
  rw [← huid]
  exact tournament?_saveTournament

theorem lookup_saveTournament_ne {t : StoredTournament} (h : uid ≠ t.uid) :
    (saveTournament objects t).lookup uid = objects.lookup uid := lookup_saveObject_ne h

theorem isUser_of_written (h : Written W objects table) (hu : IsUser table uid) :
    (∃ o, W uid o) ∨ IsUser objects uid := by
  rcases h uid with heq | ⟨row, -, hW⟩
  · rw [IsUser, user?_congr heq] at hu
    exact .inr hu
  · exact .inl ⟨row.object, hW⟩

theorem isDeckOf_of_written (h : Written W objects table) (hd : IsDeckOf table tournamentUid uid) :
    (∃ o, W uid o) ∨ IsDeckOf objects tournamentUid uid := by
  rcases h uid with heq | ⟨row, -, hW⟩
  · obtain ⟨d, hd, hof⟩ := hd
    rw [find?_congr heq] at hd
    exact .inr ⟨d, hd, hof⟩
  · exact .inl ⟨row.object, hW⟩

/-! ### The deck operations -/

/-- What a step of the deck pass keeps: decks are written at uids of decks read before it, or new
ones. -/
structure DeckPass.Within (pass : DeckPass) (W : Uid → StoredObject → Prop) (objects : Objects) :
    Prop where
  written : Written W objects pass.objects
  keyed : WellKeyed pass.objects
  existing : ∀ d ∈ pass.existing, ∀ d', W d.uid (.deck d')

theorem DeckPass.Within.save {pass : DeckPass} (h : pass.Within W objects)
    (hd : ∀ d', W d.uid (.deck d')) : (pass.save d).Within W objects where
  written := h.written.trans (written_saveDeck (hd d))
  keyed := wellKeyed_saveDeck h.keyed d
  existing e he := by
    obtain ⟨x, hx, rfl⟩ := List.mem_map.1 he
    by_cases hsame : x.uid = d.uid
    · rwa [if_pos hsame]
    · rw [if_neg hsame]
      exact h.existing x hx

theorem DeckPass.Within.change {pass : DeckPass} (h : pass.Within W objects)
    {p : StoredDeck → Bool} {f : StoredDeck → StoredDeck} (hf : ∀ d, (f d).uid = d.uid) :
    (pass.change p f).Within W objects := by
  unfold DeckPass.change
  split
  · rename_i d hd
    refine h.save ?_
    rw [hf]
    exact h.existing d (List.mem_of_find?_eq_some hd)
  · exact h

/-- The operation that may create a deck. -/
def opensDeck : DeckOp → Bool
  | .upsert .. => true
  | _ => false

theorem DeckPass.Within.op {pass : DeckPass} (h : pass.Within W objects) (op : DeckOp)
    (hnew : opensDeck op = true → ∀ k d, W (env.freshUid k) (.deck d)) :
    (processDeckOp env tournamentUid pass op).Within W objects := by
  cases op with
  | upsert =>
    simp only [processDeckOp]
    split
    · rename_i d hd
      exact h.save (h.existing d (List.mem_of_find?_eq_some hd))
    · exact ⟨h.written.trans (written_saveDeck (hnew rfl _ _)), wellKeyed_saveDeck h.keyed _,
        h.existing⟩
  | delete playerUid deckIndex multideck =>
    refine List.foldlRecOn (motive := fun pass => DeckPass.Within pass W objects) _ _ h
      fun pass' h' d hd => h'.save ?_
    exact h.existing d (List.mem_filter.1 hd).1
  | setRound | setPublication | setAttribution | setPrivate | logView =>
    exact h.change fun _ => rfl

theorem written_processDeckOps (h : WellKeyed objects)
    (hdecks : ∀ k d, IsDeckOf objects tournamentUid k → W k (.deck d)) (ops : List DeckOp)
    (hnew : ∀ op ∈ ops, opensDeck op = true → ∀ k d, W (env.freshUid k) (.deck d)) :
    Written W objects (processDeckOps env objects tournamentUid ops) ∧
      WellKeyed (processDeckOps env objects tournamentUid ops) := by
  have hstart : DeckPass.Within
      ⟨objects, getDecksForTournament objects tournamentUid, 0⟩ W objects :=
    ⟨Writes.refl _ objects, h, fun d hd d' => hdecks d.uid d' (isDeckOf_of_mem h hd)⟩
  have hend := List.foldlRecOn (motive := fun pass => DeckPass.Within pass W objects) ops
    (processDeckOp env tournamentUid) hstart fun pass hpass op hop => hpass.op op (hnew op hop)
  exact ⟨hend.written, hend.keyed⟩

theorem opensDeck_publication {doc : Tournament} {decks : List DeckObject} {op : DeckOp}
    (h : op ∈ recomputeDeckPublication doc decks []) : opensDeck op = false := by
  obtain ⟨d, -, hd⟩ := List.mem_filterMap.1 h
  dsimp only at hd
  split_ifs at hd
  cases hd
  rfl

theorem opensDeck_published {running : Prop} [Decidable running] {doc : Tournament}
    {decks : List DeckObject} {op : DeckOp}
    (h : op ∈ if running then [] else recomputeDeckPublication doc decks []) :
    opensDeck op = false := by
  split at h
  · cases h
  · exact opensDeck_publication h

theorem written_withdrawPrivateDecks (h : WellKeyed objects)
    (hdecks : ∀ k d, IsDeckOf objects tournamentUid k → W k (.deck d)) :
    Written W objects (withdrawPrivateDecks env objects tournamentUid) ∧
      WellKeyed (withdrawPrivateDecks env objects tournamentUid) := by
  refine List.foldlRecOn _ _ (motive := fun table => Written W objects table ∧ WellKeyed table)
    ⟨Writes.refl _ objects, h⟩ fun table ⟨hwritten, hkeyed⟩ d hd => ?_
  have hW := hdecks d.uid { d with modified := env.now }
    (isDeckOf_of_mem h (List.mem_filter.1 hd).1)
  exact ⟨hwritten.trans (written_saveDeck hW), wellKeyed_saveDeck hkeyed _⟩

/-! ### The rating passes -/

/-- The member as the rating passes leave him: all but wins, ratings and the date of the change. -/
def Rerated (u u' : User) : Prop :=
  u' = { u with wins := u'.wins, ratings := u'.ratings, modified := u'.modified }

theorem Rerated.refl (u : User) : Rerated u u := rfl

theorem Rerated.trans {u v w : User} (h : Rerated u v) (h' : Rerated v w) : Rerated u w := by
  rw [Rerated, h', h]

theorem Rerated.uid_eq {u u' : User} (h : Rerated u u') : u'.uid = u.uid := by rw [h]

/-- Rows change as `W` allows, and those of members outside `Q` by the rating passes only. -/
structure Framed (W : Uid → StoredObject → Prop) (Q : Uid → Prop) (a b : Objects) : Prop where
  written : Written W a b
  keyed : WellKeyed b
  rerated : ∀ uid u, ¬Q uid → a.user? uid = some u → ∃ u', b.user? uid = some u' ∧ Rerated u u'

variable {Q : Uid → Prop} {a b c : Objects}

theorem Framed.refl (h : WellKeyed a) : Framed W Q a a :=
  ⟨Writes.refl _ a, h, fun _ u _ hu => ⟨u, hu, Rerated.refl u⟩⟩

theorem Framed.trans (h : Framed W Q a b) (h' : Framed W Q b c) : Framed W Q a c where
  written := h.written.trans h'.written
  keyed := h'.keyed
  rerated uid u hQ hu := by
    obtain ⟨v, hv, huv⟩ := h.rerated uid u hQ hu
    obtain ⟨w, hw, hvw⟩ := h'.rerated uid v hQ hv
    exact ⟨w, hw, huv.trans hvw⟩

theorem Framed.of_written (hVQ : ∀ k o, V k o → Q k) (hVW : ∀ k o, V k o → W k o)
    (h : Written V a b) (hb : WellKeyed b) : Framed W Q a b where
  written := h.mono fun k row => hVW k row.object
  keyed := hb
  rerated uid u hQ hu :=
    ⟨u, by rw [user?_congr (h.lookup_eq fun row hV => hQ (hVQ uid _ hV)), hu], Rerated.refl u⟩

theorem framed_users {f : Objects → Uid → Objects}
    (hf : ∀ table uid, f table uid = table ∨
      ∃ u u', table.user? uid = some u ∧ Rerated u u' ∧ f table uid = saveUser table u')
    (h : WellKeyed objects) (uids : List Uid)
    (hW : ∀ uid ∈ uids, IsUser objects uid → ∀ u, W uid (.user u)) :
    Framed W Q objects (uids.foldl f objects) := by
  have hend := List.foldlRecOn uids f
    (motive := fun table => Framed W Q objects table ∧
      Written (fun k _ => IsUser objects k) objects table)
    ⟨Framed.refl h, Writes.refl _ objects⟩
    fun table ⟨hframed, husers⟩ uid huid => by
      rcases hf table uid with heq | ⟨u, u', hu, hsame, heq⟩
      · rw [heq]
        exact ⟨hframed, husers⟩
      · have hisUser : IsUser objects uid := by
          have hnow : IsUser table uid := by rw [IsUser, hu, Option.isSome_some]
          exact (isUser_of_written husers hnow).elim (fun ⟨_, h⟩ => h) id
        have hkey : u'.uid = uid := by
          rw [hsame.uid_eq]
          exact hframed.keyed.uid_eq (user?_eq_some.1 hu)
        have hsaved : (saveUser table u').user? uid = some u' := by
          rw [user?_eq_some, find?_eq_some, ← hkey]
          exact ⟨_, lookup_saveObject⟩
        rw [heq]
        refine ⟨hframed.trans ⟨?_, wellKeyed_saveUser hframed.keyed u', ?_⟩,
          husers.trans (written_saveUser (W := fun k _ => IsUser objects k) ?_)⟩
        · refine written_saveUser ?_
          rw [hkey]
          exact hW uid huid hisUser u'
        · intro uid' v _ hv
          by_cases huv : uid' = uid
          · subst huv
            rw [hu] at hv
            cases hv
            exact ⟨u', hsaved, hsame⟩
          · refine ⟨v, ?_, Rerated.refl v⟩
            rw [← hv]
            refine user?_congr (lookup_saveObject_ne ?_)
            rwa [hkey]
        · rwa [hkey]
  exact hend.1

theorem framed_recomputeWins (h : WellKeyed objects) (uids : List Uid)
    (hW : ∀ uid ∈ uids, IsUser objects uid → ∀ u, W uid (.user u)) :
    Framed W Q objects (recomputeWins env objects uids) := by
  refine framed_users (fun table uid => ?_) h uids hW
  cases hu : table.user? uid with
  | none => exact .inl rfl
  | some u =>
    by_cases hwins : tournamentWins objects uid = u.wins
    · simp [hwins]
    · exact .inr ⟨u, { u with wins := tournamentWins objects uid, modified := env.now }, rfl, rfl,
        by simp [hwins]⟩

theorem framed_recomputeRatings (h : WellKeyed objects) (uids : List Uid)
    (category : RatingCategory) (hW : ∀ uid ∈ uids, IsUser objects uid → ∀ u, W uid (.user u)) :
    Framed W Q objects (recomputeRatingsForPlayers env objects uids category) := by
  refine framed_users (fun table uid => ?_) h uids hW
  cases hu : table.user? uid with
  | none => exact .inl rfl
  | some u =>
    by_cases hsame : u.ratings category = some (env.rated objects category uid)
    · simp [hsame]
    · exact .inr ⟨u, { u with
        ratings := Function.update u.ratings category (some (env.rated objects category uid))
        modified := env.now }, rfl, rfl, by simp [hsame]⟩

theorem framed_recomputePlayers (h : WellKeyed objects) (players : List Uid)
    (category : RatingCategory) (hW : ∀ k ∈ players, IsUser objects k → ∀ u, W k (.user u)) :
    Framed W Q objects
      (recomputeWins env (recomputeRatingsForPlayers env objects players category) players) := by
  have hrated : Framed W Q objects (recomputeRatingsForPlayers env objects players category) :=
    framed_recomputeRatings h players category hW
  have husers : Framed (fun k _ => k ∈ players ∧ IsUser objects k) Q objects
      (recomputeRatingsForPlayers env objects players category) :=
    framed_recomputeRatings h players category fun k hk hu _ => ⟨hk, hu⟩
  refine hrated.trans (framed_recomputeWins hrated.keyed players fun k hk hu => ?_)
  rcases isUser_of_written husers.written hu with ⟨-, -, hbefore⟩ | hbefore
  · exact hW k hk hbefore
  · exact hW k hk hbefore

/-! ### The reflection of a sanction -/

theorem uid_setPlayerState (t : Tournament) (target : Option (Uid × PlayerState)) :
    (setPlayerState t target).uid = t.uid := by
  cases target <;> rfl

theorem uid_updateStandings (t : Tournament) (sanctions : List Sanction) :
    (updateStandings t sanctions).uid = t.uid := by
  unfold updateStandings
  extract_lets refreshed
  split
  · rfl
  · unfold refreshFinalsScoring
    split
    · split <;> rfl
    · rfl

theorem uid_applySanction (t : Tournament) (sanctions : List Sanction) (change : SanctionChange) :
    (applySanctionToTournament t sanctions change).uid = t.uid := by
  unfold applySanctionToTournament
  extract_lets target marked
  have hmarked : marked.uid = t.uid := uid_setPlayerState t target
  split
  · exact hmarked
  · rw [uid_setPlayerState, uid_updateStandings, hmarked]

/-- The row of the tournament after a change to its sanctions. -/
def reflectedRow (env : Env) (objects : Objects) (tournamentUid : Uid) (t : StoredTournament)
    (change : SanctionChange) : StoredTournament :=
  t.withDoc (applySanctionToTournament t.toEngine
    (tournamentSanctions objects tournamentUid) change)
    env.now

theorem uid_reflectedRow (env : Env) (objects : Objects) (tournamentUid : Uid)
    (t : StoredTournament) (change : SanctionChange) :
    (reflectedRow env objects tournamentUid t change).uid = t.uid := by
  simp only [reflectedRow, StoredTournament.withDoc, StoredTournament.uid, uid_applySanction]
  rfl

theorem isUser_saveTournament (h : IsUser (saveTournament objects t) uid) : IsUser objects uid := by
  by_cases huid : uid = t.uid
  · subst huid
    simp [IsUser, saveTournament, Objects.user?, Objects.find?, StoredObject.asUser] at h
  · rwa [IsUser, user?_congr (lookup_saveTournament_ne huid)] at h

theorem isDeckOf_saveTournament (h : IsDeckOf (saveTournament objects t) tournamentUid uid) :
    IsDeckOf objects tournamentUid uid := by
  obtain ⟨d, hd, hof⟩ := h
  by_cases huid : uid = t.uid
  · subst huid
    simp [saveTournament, Objects.find?] at hd
  · rw [find?_congr (lookup_saveTournament_ne huid)] at hd
    exact ⟨d, hd, hof⟩

theorem ne_of_isUser (ht : objects.tournament? tournamentUid = some t) (hk : IsUser objects uid) :
    uid ≠ tournamentUid := by
  rintro rfl
  obtain ⟨u, hu⟩ := Option.isSome_iff_exists.1 hk
  rw [user?_eq_some, tournament?_eq_some.1 ht] at hu
  cases hu

theorem ne_of_isDeckOf {other : Uid} (ht : objects.tournament? tournamentUid = some t)
    (hk : IsDeckOf objects other uid) : uid ≠ tournamentUid := by
  rintro rfl
  obtain ⟨d, hd, -⟩ := hk
  rw [tournament?_eq_some.1 ht] at hd
  cases hd

theorem framed_reflectSanction {change : SanctionChange} (h : WellKeyed objects)
    (ht : objects.tournament? tournamentUid = some t) (hVQ : ∀ k o, V k o → Q k)
    (hVW : ∀ k o, V k o → W k o)
    (hdecks : ∀ k d, IsDeckOf objects tournamentUid k → V k (.deck d)) :
    reflectSanction env objects tournamentUid change = objects ∨
      (((reflectedRow env objects tournamentUid t change).doc.state = .finished →
        ∀ k, k = t.doc.winner ∨ k = (reflectedRow env objects tournamentUid t change).doc.winner →
          (∃ o, V k o) ∨ IsUser objects k → ∀ u, W k (.user u)) →
      Framed W Q (saveTournament objects (reflectedRow env objects tournamentUid t change))
        (reflectSanction env objects tournamentUid change)) := by
  unfold reflectSanction
  split
  · rename_i hnone
    rw [hnone] at ht
    cases ht
  · rename_i t' ht'
    obtain rfl : t = t' := Option.some.inj (ht.symm.trans ht')
    extract_lets sanctions doc found saved ops decked
    have hops : ∀ op ∈ ops, opensDeck op = true → ∀ k d, V (env.freshUid k) (.deck d) := by
      intro op hop hopens
      rw [opensDeck_published hop] at hopens
      cases hopens
    have hdecked : Written V saved decked ∧ WellKeyed decked :=
      written_processDeckOps (wellKeyed_saveTournament h _)
        (fun k d hk => hdecks k d (isDeckOf_saveTournament hk)) ops hops
    split_ifs with hnothing hwinner
    · exact .inl rfl
    · refine .inr fun hwinners => ?_
      refine (Framed.of_written hVQ hVW hdecked.1 hdecked.2).trans
        (framed_recomputeWins hdecked.2 _ fun k hk hu => ?_)
      refine hwinners hwinner.1 k ?_
        ((isUser_of_written hdecked.1 hu).imp id isUser_saveTournament)
      have hmem := List.mem_of_mem_filter hk
      rwa [List.mem_cons, List.mem_singleton] at hmem
    · exact .inr fun _ => Framed.of_written hVQ hVW hdecked.1 hdecked.2

theorem isUser_reflectSanction {change : SanctionChange} (h : WellKeyed objects)
    (ht : objects.tournament? tournamentUid = some t)
    (hdecks : ∀ k d, IsDeckOf objects tournamentUid k → V k (.deck d))
    (hu : IsUser (reflectSanction env objects tournamentUid change) uid) :
    (∃ o, V uid o) ∨ IsUser objects uid := by
  have hspec := @framed_reflectSanction env objects tournamentUid V
    (fun k _ => (∃ o, V k o) ∨ IsUser objects k) t (fun _ => True) change h ht
    (fun _ _ _ => trivial) (fun _ o hV => .inl ⟨o, hV⟩) hdecks
  rcases hspec with heq | hframed
  · rw [heq] at hu
    exact .inr hu
  · rcases isUser_of_written (hframed fun _ _ _ hk _ => hk).written hu with ⟨-, hk⟩ | hsaved
    · exact hk
    · exact .inr (isUser_saveTournament hsaved)

theorem tournament?_reflectSanction {change : SanctionChange} (h : WellKeyed objects)
    (ht : objects.tournament? tournamentUid = some t) :
    (reflectSanction env objects tournamentUid change = objects ∨
      (reflectSanction env objects tournamentUid change).tournament? tournamentUid =
        some (reflectedRow env objects tournamentUid t change)) ∧
    WellKeyed (reflectSanction env objects tournamentUid change) := by
  have hspec := @framed_reflectSanction env objects tournamentUid (fun k _ => k ≠ tournamentUid)
    (fun k _ => k ≠ tournamentUid) t (fun k => k ≠ tournamentUid) change h ht (fun _ _ hk => hk)
    (fun _ _ hk => hk) fun _ _ hk => ne_of_isDeckOf ht hk
  rcases hspec with heq | hframed
  · rw [heq]
    exact ⟨.inl rfl, h⟩
  · have hframed := hframed fun _ k _ hk _ =>
      hk.elim (fun ⟨_, hne⟩ => hne) (ne_of_isUser ht)
    refine ⟨.inr ?_, hframed.keyed⟩
    rw [tournament?_congr (hframed.written.lookup_eq fun _ hne => hne rfl)]
    exact tournament?_saveTournament_of h ht (uid_reflectedRow env objects tournamentUid t change)

end Frames

end Archon.Backend

import Mathlib.Data.List.Perm.Subperm
import Archon.Engine.Sheet

/-!
# The finals table under the handlers

Whoever sits in the finals is marked finalist on the roster, and nobody else, as long as no
archived sheet comes in. The handlers move the finalists between the seats; the refresh scores a
finished finals table again when there are rounds.
-/

namespace Archon.Engine
open Guards Nested Seating

/-! ### Seats of the finals -/

section Seats

variable {f : FinalsTable}

theorem swapFinals_uids_perm (f : FinalsTable) (a b : ℕ) :
    ((swapFinals f a b).seating.map Seat.playerUid).Perm (f.seating.map Seat.playerUid) := by
  obtain ⟨seats, hs⟩ := List.length_eq_one_iff.1 (length_swapPlayers [f.seating] 0 a 0 b)
  have hperm := swapAt_perm ([f.seating].map (List.map Seat.playerUid)) 0 a 0 b
  rw [← map_playerUid_swapPlayers, hs] at hperm
  simpa [swapFinals, hs] using hperm

theorem results_swapPlayers (seatings : List (List Seat)) (a b c d : ℕ) :
    (swapPlayers seatings a b c d).map (List.map Seat.result) =
      seatings.map (List.map Seat.result) := by
  have hkeep : ∀ (xss : List (List Seat)) (i j : ℕ) (uid : Uid),
      (modifyAt xss i j (Seat.withUid uid)).map (List.map Seat.result) =
        xss.map (List.map Seat.result) := by
    intro xss i j uid
    rw [map_modifyAt Seat.result xss i j (Seat.withUid uid) id fun _ => rfl, modifyAt]
    simp only [List.modify_id]
    exact List.modify_id i _
  unfold swapPlayers
  split
  · rw [hkeep, hkeep]
  · rfl

theorem swapFinals_results (f : FinalsTable) (a b : ℕ) :
    (swapFinals f a b).seating.map Seat.result = f.seating.map Seat.result := by
  obtain ⟨seats, hs⟩ := List.length_eq_one_iff.1 (length_swapPlayers [f.seating] 0 a 0 b)
  have hresults := results_swapPlayers [f.seating] 0 a 0 b
  rw [hs] at hresults
  simpa [swapFinals, hs] using hresults

theorem seating_reseatFinals (f : FinalsTable) (uids : List Uid) :
    (reseatFinals f uids).seating =
      (f.seating.zip uids).map fun su => Seat.withUid su.2 su.1 :=
  List.map_uncurry_zip_eq_zipWith.symm

theorem reseatFinals_uids {uids : List Uid} (h : uids.length = f.seating.length) :
    (reseatFinals f uids).seating.map Seat.playerUid = uids := by
  rw [seating_reseatFinals, List.map_map]
  exact List.map_snd_zip h.le

theorem reseatFinals_results {uids : List Uid} (h : uids.length = f.seating.length) :
    (reseatFinals f uids).seating.map Seat.result = f.seating.map Seat.result := by
  rw [seating_reseatFinals, List.map_map]
  conv_rhs => rw [← List.map_fst_zip h.ge, List.map_map]
  rfl

theorem reseatFinals_uids_perm {uids : List Uid} (hnodup : uids.Nodup)
    (hlen : uids.length = f.seating.length)
    (hmem : ∀ uid ∈ uids, uid ∈ f.seating.map Seat.playerUid) :
    ((reseatFinals f uids).seating.map Seat.playerUid).Perm (f.seating.map Seat.playerUid) := by
  rw [reseatFinals_uids hlen]
  refine (List.subperm_of_subset hnodup hmem).perm_of_length_le ?_
  rw [List.length_map, hlen]

end Seats

/-! ### Finalists on the roster -/

/-- The player's entry carries the finalist mark. -/
def markedFinalist (players : List Player) (uid : Uid) : Bool :=
  (findPlayer players uid).any Player.finalist

/-- The rewriting leaves the finalist marks as they are. -/
structure KeepsFinalists (players players' : List Player) : Prop where
  unmarked : (∀ p ∈ players, p.finalist = false) → ∀ p ∈ players', p.finalist = false
  marked : ∀ uid, markedFinalist players' uid = markedFinalist players uid

section Roster

variable {players : List Player} {f : Player → Player} {uid : Uid}

theorem KeepsFinalists.refl (players : List Player) : KeepsFinalists players players :=
  ⟨fun h => h, fun _ => rfl⟩

theorem KeepsFinalists.trans {ps qs rs : List Player} (h : KeepsFinalists ps qs)
    (h' : KeepsFinalists qs rs) : KeepsFinalists ps rs :=
  ⟨fun hp => h'.unmarked (h.unmarked hp), fun uid => (h'.marked uid).trans (h.marked uid)⟩

theorem keepsFinalists_map (hu : ∀ p, (f p).userUid = p.userUid)
    (hf : ∀ p, (f p).finalist = p.finalist) : KeepsFinalists players (players.map f) where
  unmarked h := List.forall_mem_map.2 fun p hp => (hf p).trans (h p hp)
  marked uid := by
    rw [markedFinalist, findPlayer_map hu, markedFinalist]
    cases findPlayer players uid with
    | none => rfl
    | some p => exact hf p

theorem keepsFinalists_update (hu : ∀ p, (f p).userUid = p.userUid)
    (hf : ∀ p, (f p).finalist = p.finalist) :
    KeepsFinalists players (updatePlayer players uid f) where
  unmarked h q hq := by
    rcases mem_updatePlayer hq with ⟨p, hp, rfl⟩ | ⟨hmem, -⟩
    · exact (hf p).trans (h p (findPlayer_mem hp).1)
    · exact h q hmem
  marked u := by
    by_cases hne : u = uid
    · subst hne
      rw [markedFinalist, findPlayer_update_self hu, markedFinalist]
      cases findPlayer players u with
      | none => rfl
      | some p => exact hf p
    · rw [markedFinalist, findPlayer_update_ne hu hne, markedFinalist]

theorem keepsFinalists_push {p : Player} (hp : p.finalist = false) :
    KeepsFinalists players (players ++ [p]) where
  unmarked h := List.forall_mem_append.2 ⟨h, List.forall_mem_singleton.2 hp⟩
  marked u := by
    cases hq : findPlayer players u with
    | some q => rw [markedFinalist, findPlayer_push hq, markedFinalist, hq]
    | none =>
      rw [markedFinalist, findPlayer, List.find?_append, ← findPlayer, hq, markedFinalist, hq,
        Option.none_or]
      cases h : [p].find? (Player.isUid u) with
      | none => rfl
      | some q =>
        obtain rfl := List.mem_singleton.1 (List.mem_of_find?_eq_some h)
        exact hp

theorem keepsFinalists_sameEntry {ps qs : List Player} (h : List.Forall₂ SameEntry ps qs) :
    KeepsFinalists ps qs where
  unmarked hp q hq := by
    obtain ⟨p, hmem, hpq⟩ := exists_mem_of_forall₂ h hq
    exact hpq.finalist.trans (hp p hmem)
  marked uid := by
    cases hp : findPlayer ps uid with
    | some p =>
      obtain ⟨q, hq, hpq⟩ := findPlayer_sameEntry h hp
      simp [markedFinalist, hp, hq, hpq.finalist]
    | none =>
      have hq : findPlayer qs uid = none := by
        rw [findPlayer_eq_none, rosterUids_sameEntry h, ← findPlayer_eq_none]
        exact hp
      simp [markedFinalist, hp, hq]

theorem keepsFinalists_foldl {α : Type} {g : List Player → α → List Player}
    (hg : ∀ ps a, KeepsFinalists ps (g ps a)) (as : List α) :
    KeepsFinalists players (as.foldl g players) := by
  induction as generalizing players with
  | nil => exact KeepsFinalists.refl players
  | cons a as ih => exact (hg players a).trans ih

theorem OnlyState.keepsFinalists (hf : OnlyState f) : KeepsFinalists players (players.map f) :=
  keepsFinalists_map hf.userUid hf.finalist

theorem keepsFinalists_demote (t : Tournament) (unseated : List Uid) (r : ℕ) :
    KeepsFinalists t.players (demoteUnseatedPlayers t unseated r).players := by
  refine keepsFinalists_map (fun p => ?_) fun p => ?_ <;>
  · split
    · split <;> rfl
    · rfl

theorem keepsFinalists_joinPlayer (state : TournamentState) (sanctions : List Sanction)
    (ps : List Player) (uid : Uid) : KeepsFinalists ps (joinPlayer state sanctions ps uid) := by
  rw [joinPlayer_eq]
  split
  · refine keepsFinalists_update (joinedEntry_userUid state) fun p => ?_
    unfold joinedEntry
    split <;> rfl
  · exact KeepsFinalists.refl ps

theorem keepsFinalists_alterSeating (t : Tournament) (sanctions : List Sanction) (round : ℕ)
    (tables : List Table) (seating : List (List Uid)) :
    KeepsFinalists t.players (alterSeatingDoc t sanctions round tables seating).players := by
  unfold alterSeatingDoc
  extract_lets reseated
  split
  · unfold reseatRoster
    extract_lets joined left
    refine KeepsFinalists.trans ?_ (keepsFinalists_demote _ left round)
    exact keepsFinalists_foldl (keepsFinalists_joinPlayer reseated.state sanctions) joined
  · exact KeepsFinalists.refl t.players

theorem keepsFinalists_tossedPlayers (t : Tournament) (sanctions : List Sanction) :
    KeepsFinalists t.players (tossedPlayers t sanctions) := by
  refine tossedPlayers_induction t (KeepsFinalists t.players) sanctions (KeepsFinalists.refl _) ?_
  intro ps uid toss hps
  exact hps.trans (keepsFinalists_update (fun _ => rfl) fun _ => rfl)

theorem markedFinalist_markFinalists (uids : List Uid) :
    markedFinalist (uids.foldl markFinalist players) uid =
      (markedFinalist players uid || decide (uid ∈ uids ∧ some uid ∈ rosterUids players)) := by
  induction uids generalizing players with
  | nil => simp
  | cons a uids ih =>
    have hroster : rosterUids (markFinalist players a) = rosterUids players := by
      rw [markFinalist, rosterUids_updatePlayer]
      exact fun _ => rfl
    rw [List.foldl_cons, ih, hroster]
    by_cases ha : uid = a
    · subst ha
      rw [markFinalist, markedFinalist, findPlayer_update_self ?_, markedFinalist]
      · cases hp : findPlayer players uid with
        | none => simp [findPlayer_eq_none.1 hp]
        | some p => simp [findPlayer_mem_rosterUids hp]
      · exact fun _ => rfl
    · rw [markFinalist, markedFinalist, findPlayer_update_ne ?_ ha, markedFinalist]
      · simp [ha]
      · exact fun _ => rfl

end Roster

/-! ### The refresh -/

section Refresh

variable {t : Tournament} {s : List Sanction}

theorem updateStandings_finals_of_nil (h : t.rounds = []) :
    (updateStandings t s).finals = t.finals ∧ (updateStandings t s).winner = t.winner := by
  simp [updateStandings, refreshRoundScoring, h]

theorem updateStandings_winner_of_none (h : t.finals = none) :
    (updateStandings t s).winner = t.winner := by
  unfold updateStandings
  extract_lets refreshed
  split
  · rfl
  · unfold refreshFinalsScoring
    split
    · rename_i f hf
      have hf' : t.finals = some f := hf
      simp [h] at hf'
    · rfl

end Refresh

/-! ### The invariant -/

/-- Without a finals table nobody is marked finalist and no winner is named; with one, and as long
as there are rounds, those who sit in it are marked. -/
structure FinalsMarked (t : Tournament) : Prop where
  noFinals : t.finals = none → (∀ p ∈ t.players, p.finalist = false) ∧ t.winner = ""
  seated : t.finals ≠ none → t.rounds ≠ [] → ∀ uid,
    markedFinalist t.players uid = true ↔ uid ∈ finalsUids t

section Step

variable {rs : RandomSource} {t t' : Tournament} {i : EventInput}

theorem FinalsMarked.keep (h : FinalsMarked t) (hplayers : KeepsFinalists t.players t'.players)
    (hfinals : t'.finals = none ↔ t.finals = none)
    (huids : ∀ uid, uid ∈ finalsUids t' ↔ uid ∈ finalsUids t)
    (hrounds : t.finals ≠ none → t'.rounds ≠ [] → t.rounds ≠ [])
    (hwinner : t.finals = none → t'.winner = t.winner) : FinalsMarked t' where
  noFinals hnone := by
    have hnone' := hfinals.1 hnone
    obtain ⟨hun, hw⟩ := h.noFinals hnone'
    exact ⟨hplayers.unmarked hun, (hwinner hnone').trans hw⟩
  seated hsome hr uid := by
    have hsome' : t.finals ≠ none := fun hnone => hsome (hfinals.2 hnone)
    rw [hplayers.marked, h.seated hsome' (hrounds hsome' hr), huids]

theorem FinalsMarked.keepFinals (h : FinalsMarked t)
    (hplayers : KeepsFinalists t.players t'.players) (hfinals : t'.finals = t.finals)
    (hwinner : t'.winner = t.winner)
    (hrounds : t.finals ≠ none → t'.rounds ≠ [] → t.rounds ≠ []) : FinalsMarked t' :=
  h.keep hplayers (by rw [hfinals]) (fun _ => by rw [finalsUids, hfinals, finalsUids]) hrounds
    fun _ => hwinner

theorem FinalsMarked.refresh (h : FinalsMarked t) (s : List Sanction) :
    FinalsMarked (updateStandings t s) := by
  refine h.keep ?_ (updateStandings_finals_eq_none t s) ?_ ?_ updateStandings_winner_of_none
  · rw [updateStandings_players]
    exact KeepsFinalists.refl t.players
  · intro uid
    rw [finalsUids_updateStandings]
  · exact fun _ hr hnil => hr ((updateStandings_rounds_eq_nil s).2 hnil)

theorem ne_nil_of_length {rounds rounds' : List (List Table)}
    (h : rounds'.length = rounds.length) (hne : rounds' ≠ []) : rounds ≠ [] := by
  intro hnil
  rw [hnil, List.length_nil, List.length_eq_zero_iff] at h
  exact hne h

theorem FinalsMarked.keepSeats (h : FinalsMarked t) {f g : FinalsTable} (hf : t.finals = some f)
    (hperm : (g.seating.map Seat.playerUid).Perm (f.seating.map Seat.playerUid)) :
    FinalsMarked { t with finals := some g } := by
  refine h.keep (KeepsFinalists.refl t.players) (by simp [hf]) (fun uid => ?_) (fun _ hr => hr)
    fun hnone => by simp [hf] at hnone
  have hmem : uid ∈ g.seating.map Seat.playerUid ↔ uid ∈ f.seating.map Seat.playerUid :=
    hperm.mem_iff
  simpa [finalsUids, hf] using hmem

theorem FinalsMarked.startFinals (h : FinalsMarked t) (hshape : Shape t)
    (hfinals : t.finals = none) (sanctions : List Sanction) :
    FinalsMarked (startFinalsDoc t (qualifiers t sanctions)) where
  noFinals hnone := by simp [startFinalsDoc] at hnone
  seated _ _ uid := by
    have hun : markedFinalist t.players uid = false := by
      rw [markedFinalist]
      cases hp : findPlayer t.players uid with
      | none => rfl
      | some p => exact (h.noFinals hfinals).1 p (findPlayer_mem hp).1
    have hroster : uid ∈ qualifiers t sanctions → some uid ∈ rosterUids t.players := by
      intro hq
      obtain ⟨row, hrow, rfl⟩ := List.mem_map.1 hq
      have hmem := (List.mem_filter.1 (List.mem_of_mem_take hrow)).1
      rw [computePreliminaryStandings_eq, sortByRank, List.mem_insertionSort] at hmem
      obtain ⟨e, he, rfl⟩ := List.mem_map.1 hmem
      have hkey : e.1 ∈ (Tally.ofList _).map Prod.fst := List.mem_map_of_mem he
      obtain ⟨e', he', heq⟩ := List.mem_map.1 (Tally.mem_keys_ofList.1 hkey)
      exact hshape.onRoster e.1 (heq ▸ (mem_prelimEntries he').1)
    have hseats : finalsUids (startFinalsDoc t (qualifiers t sanctions)) =
        qualifiers t sanctions := by
      simp [finalsUids, startFinalsDoc, FinalsTable.fresh, Seat.fresh, Function.comp_def]
    rw [hseats, startFinalsDoc, markedFinalist_markFinalists, hun]
    simpa using fun hq => hroster hq

theorem FinalsMarked.step (h : FinalsMarked t) (hshape : Shape t)
    (harch : ∀ sheet, i.event ≠ .setArchivalResults sheet) (heff : Effect rs t i t') :
    FinalsMarked t' := by
  cases heff with
  | quiet _ hq =>
    exact h.keepFinals (keepsFinalists_sameEntry hq.players) hq.finals hq.winner
      fun _ => by rw [hq.rounds]; exact id
  | openRegistration | closeRegistration | cancelRegistration =>
    exact h.keepFinals (KeepsFinalists.refl _) rfl rfl fun _ => id
  | reopenRegistration => exact h.keepFinals onlyState_ite.keepsFinalists rfl rfl fun _ => id
  | register => exact h.keepFinals (keepsFinalists_push rfl) rfl rfl fun _ => id
  | addPlayer _ _ _ _ p _ _ _ hp =>
    exact h.keepFinals (keepsFinalists_push hp.2.2.1) rfl rfl fun _ => id
  | leave uid idx _ hs =>
    have hnil : t.rounds = [] := hs.elim (fun hs => hshape.early (.inr hs)) id
    refine ⟨fun hnone => ?_, fun _ hr => absurd hnil hr⟩
    obtain ⟨hun, hw⟩ := h.noFinals hnone
    exact ⟨fun p hp => hun p (List.mem_of_mem_eraseIdx hp), hw⟩
  | dropOut | checkOut | setWaitlisted | setToss =>
    exact h.keepFinals (keepsFinalists_update (fun _ => rfl) fun _ => rfl) rfl rfl fun _ => id
  | checkIn uid _ name players _ _ _ hplayers =>
    refine h.keepFinals ?_ rfl rfl fun _ => id
    have hadmitted : KeepsFinalists t.players players := by
      rcases hplayers with rfl | ⟨-, -, rfl⟩
      · exact KeepsFinalists.refl _
      · exact keepsFinalists_push rfl
    refine hadmitted.trans (keepsFinalists_update (userUid_checkedInEntry t i.decks uid name) ?_)
    intro p
    unfold checkedInEntry
    extract_lets named
    split <;> rfl
  | checkInAll | resetCheckIn =>
    exact h.keepFinals onlyState_ite.keepsFinalists rfl rfl fun _ => id
  | setNonCompeting =>
    refine FinalsMarked.refresh ?_ _
    exact h.keepFinals (keepsFinalists_update (fun _ => rfl) fun _ => rfl) rfl rfl fun _ => id
  | startRound _ seating _ _ hf =>
    exact h.keepFinals (onlyState_startRoundEntry _ _).keepsFinalists rfl rfl
      fun hne => absurd hf hne
  | selfOrganizeRound uids seating _ _ hf =>
    exact h.keepFinals (onlyState_selfOrganizeEntry _).keepsFinalists rfl rfl
      fun hne => absurd hf hne
  | finishRound =>
    refine FinalsMarked.refresh ?_ _
    exact h.keepFinals (onlyState_finishRoundEntry t _).keepsFinalists rfl rfl fun _ => id
  | cancelRound _ _ _ hrounds =>
    refine FinalsMarked.refresh ?_ _
    exact h.keepFinals (onlyState_cancelRoundEntry _ _).keepsFinalists rfl rfl
      fun _ _ => hrounds
  | restoreRound =>
    refine FinalsMarked.refresh ?_ _
    exact h.keepFinals (onlyState_restoreRoundEntry _ _ _).keepsFinalists rfl rfl
      fun _ => ne_nil_of_length (by simp [restoreRoundDoc])
  | swapFinals _ _ s1 _ s2 f _ _ _ hf =>
    exact (h.keepSeats hf (swapFinals_uids_perm f s1 s2)).refresh _
  | reseatFinals _ seating f _ _ _ _ hf hnodup hlen hmem =>
    exact (h.keepSeats hf (reseatFinals_uids_perm hnodup hlen hmem)).refresh _
  | scoreFinals _ _ _ f written _ _ _ _ hf hw =>
    have hperm : (written.1.map Seat.playerUid).Perm (f.seating.map Seat.playerUid) :=
      (reportTable_uids hw) ▸ List.Perm.refl _
    exact (h.keepSeats hf hperm).refresh _
  | overrideFinals _ _ _ f _ _ _ _ hf | unoverrideFinals _ _ f _ _ _ _ hf =>
    refine FinalsMarked.refresh (h.keepSeats hf ?_) _
    exact List.Perm.refl _
  | swapRound | scoreTable | overrideTable | unoverrideTable =>
    refine FinalsMarked.refresh ?_ _
    exact h.keepFinals (KeepsFinalists.refl _) rfl rfl
      fun _ => ne_nil_of_length (by simp [modifyTable])
  | reseatRound round seating tables =>
    refine FinalsMarked.refresh ?_ _
    refine h.keepFinals (keepsFinalists_alterSeating t _ _ _ _) (alterSeatingDoc_finals _ _ _ _ _)
      ?_ fun _ => ne_nil_of_length (by simp [rounds_alterSeatingDoc])
    unfold alterSeatingDoc
    extract_lets reseated
    split <;> rfl
  | seatPlayer =>
    refine FinalsMarked.refresh ?_ _
    exact h.keepFinals (keepsFinalists_update (fun _ => rfl) fun _ => rfl) rfl rfl
      fun _ => ne_nil_of_length (by simp [seatPlayerDoc])
  | unseatPlayer uid _ target =>
    refine FinalsMarked.refresh ?_ _
    refine h.keepFinals (keepsFinalists_demote
      { t with rounds := t.rounds.modify target (removeSeat uid) } [uid] target) rfl rfl ?_
    exact fun _ => ne_nil_of_length (by simp [unseatPlayerDoc, demoteUnseatedPlayers])
  | addTable | removeTable =>
    exact h.keepFinals (KeepsFinalists.refl _) rfl rfl fun _ => ne_nil_of_length (by simp)
  | randomToss => exact h.keepFinals (keepsFinalists_tossedPlayers t _) rfl rfl fun _ => id
  | startFinals _ _ _ hf => exact h.startFinals hshape hf i.sanctions
  | finishFinals f _ _ hf =>
    refine FinalsMarked.refresh ?_ _
    exact h.keep onlyState_finishEntry.keepsFinalists Iff.rfl (fun _ => Iff.rfl) (fun _ => id)
      fun hnone => by simp [hf] at hnone
  | cancelFinals =>
    refine FinalsMarked.refresh ⟨fun _ => ⟨List.forall_mem_map.2 fun p _ => ?_, rfl⟩, ?_⟩ _
    · unfold cancelFinalsEntry
      split
      · rfl
      · simp_all
    · exact fun hne => absurd rfl hne
  | finishTournament =>
    refine FinalsMarked.refresh ?_ _
    exact h.keepFinals onlyState_finishEntry.keepsFinalists rfl rfl fun _ => id
  | reopenTournament =>
    refine FinalsMarked.refresh ?_ _
    exact h.keepFinals (onlyState_reopenEntry t).keepsFinalists rfl rfl fun _ => id
  | archival sheet he => exact absurd he (harch sheet)

end Step

end Archon.Engine

import Archon.Engine.Configuration
import Archon.Engine.HeldSeats
import Archon.Engine.Scenario

/-!
# The cap on the rounds of a player

`max_rounds` bounds the rounds a player sits in, cancelled tables apart. Starting, organizing and
restoring a round leave out whoever is at the cap, and the cap is not lowered under what a player
has played. `SetScore`, `Override` and `Unoverride` on a cancelled table bring the table back
without looking at the cap.
-/

namespace Archon.Engine
open Guards Nested Seating

/-- No player sat in more rounds than the cap, when there is one. -/
def WithinCap (t : Tournament) : Prop :=
  0 < t.maxRounds → ∀ uid, countPlayerRoundsPlayed t uid ≤ t.maxRounds

/-- The organizer does not place players by hand. -/
def TournamentEvent.reseats : TournamentEvent → Bool
  | .seatPlayer .. => true
  | .alterSeating .. => true
  | .swapSeats .. => true
  | .setArchivalResults .. => true
  | _ => false

/-- Once rounds exist, the cap is not set under the rounds a player sat in. -/
def CapNotLowered (t : Tournament) : TournamentEvent → Prop
  | .updateConfig c => t.rounds ≠ [] → ∀ cap ∈ (c.get .maxRounds).asUsize, 0 < cap →
      ∀ p ∈ t.players, ∀ uid ∈ p.userUid, countPlayerRoundsPlayed t uid ≤ cap
  | _ => True

instance (t : Tournament) : (e : TournamentEvent) → Decidable (CapNotLowered t e) := by
  intro e
  unfold CapNotLowered
  induction e using TournamentEvent.casesOn <;> infer_instance

/-- Whoever sits at the cancelled table has rounds left, or counts in the round already. -/
def HasRoundsLeft (t : Tournament) (round table : ℕ) : Prop :=
  ∀ tables ∈ t.rounds[round]?, ∀ tb ∈ tables[table]?, tb.state = .cancelled → ∀ uid ∈ tb.uids,
    atRoundCap t uid = false ∨ HeldIn tables uid

instance (round : List Table) (uid : Uid) : Decidable (HeldIn round uid) :=
  inferInstanceAs (Decidable (∃ tb ∈ round, _))

instance (t : Tournament) (round table : ℕ) : Decidable (HasRoundsLeft t round table) := by
  unfold HasRoundsLeft
  infer_instance

/-- A cancelled table is scored, overridden or taken out of an override only when its players have
rounds left. A score leaves an overridden table cancelled. -/
def UncancelsBelowCap (t : Tournament) : TournamentEvent → Prop
  | .setScore round table _ =>
    (tableAt t.rounds round table).any (fun tb => tb.override.isNone) = true →
      HasRoundsLeft t round table
  | .override round table _ => HasRoundsLeft t round table
  | .unoverride round table => HasRoundsLeft t round table
  | _ => True

/-- The events of the runs that stay within the cap. -/
def KeepsCap (t : Tournament) (i : EventInput) : Prop :=
  i.event.reseats = false ∧ UncancelsBelowCap t i.event

instance (t : Tournament) (e : TournamentEvent) : Decidable (UncancelsBelowCap t e) := by
  unfold UncancelsBelowCap
  induction e using TournamentEvent.casesOn <;> infer_instance

instance (t : Tournament) (i : EventInput) : Decidable (KeepsCap t i) := by
  unfold KeepsCap
  infer_instance

section Steps

variable {rs : RandomSource} {t t' : Tournament} {i : EventInput} {uid : Uid}

/-! ### Counted rounds -/

theorem counts_iff {round : List Table} :
    (round.any fun tb => tb.state != .cancelled && tb.seats uid) = true ↔ HeldIn round uid := by
  simp [HeldIn, Table.seats, Table.uids]

theorem countPlayerRoundsPlayed_eq_faces : countPlayerRoundsPlayed t uid =
    (boardOf t.rounds).countP fun faces =>
      faces.any fun face => face.state != .cancelled && face.uids.contains uid := by
  rw [boardOf, List.countP_map, countPlayerRoundsPlayed]
  refine List.countP_congr fun round _ => ?_
  rw [counts_iff, heldIn_iff_faces]
  simp

@[simp] theorem countPlayerRoundsPlayed_updateStandings (s : List Sanction) :
    countPlayerRoundsPlayed (updateStandings t s) uid = countPlayerRoundsPlayed t uid := by
  rw [countPlayerRoundsPlayed_eq_faces, boardOf_updateStandings, ← countPlayerRoundsPlayed_eq_faces]

theorem countPlayerRoundsPlayed_congr (h : t'.rounds = t.rounds) :
    countPlayerRoundsPlayed t' uid = countPlayerRoundsPlayed t uid := by
  rw [countPlayerRoundsPlayed, h, countPlayerRoundsPlayed]

/-- At most one round more counts for a player, and for one below the cap only. -/
def CountsBelowCap (t t' : Tournament) : Prop := ∀ uid,
  countPlayerRoundsPlayed t' uid ≤ countPlayerRoundsPlayed t uid ∨
    (countPlayerRoundsPlayed t' uid ≤ countPlayerRoundsPlayed t uid + 1 ∧ atRoundCap t uid = false)

theorem CountsBelowCap.same (h : t'.rounds = t.rounds) : CountsBelowCap t t' :=
  fun _ => .inl (countPlayerRoundsPlayed_congr h).le

theorem CountsBelowCap.refresh (h : CountsBelowCap t t') (s : List Sanction) :
    CountsBelowCap t (updateStandings t' s) := by
  intro uid
  rw [countPlayerRoundsPlayed_updateStandings]
  exact h uid

theorem CountsBelowCap.append {round : List Table} (hrounds : t'.rounds = t.rounds ++ [round])
    (hcap : ∀ uid ∈ roundUids round, atRoundCap t uid = false) : CountsBelowCap t t' := by
  intro uid
  rw [countPlayerRoundsPlayed, hrounds, List.countP_append, List.countP_singleton]
  split
  · rename_i hheld
    exact .inr ⟨le_rfl, hcap uid (counts_iff.1 hheld).mem_roundUids⟩
  · exact .inl le_rfl

theorem CountsBelowCap.modify {r : ℕ} {f : List Table → List Table}
    (hrounds : t'.rounds = t.rounds.modify r f)
    (hf : ∀ round, t.rounds[r]? = some round → ∀ uid, HeldIn (f round) uid →
      HeldIn round uid ∨ atRoundCap t uid = false) : CountsBelowCap t t' := by
  intro uid
  rw [countPlayerRoundsPlayed, hrounds]
  by_cases hcap : atRoundCap t uid = false
  · exact .inr ⟨countP_modify_le_succ, hcap⟩
  · refine .inl (countP_modify_le fun round hround hheld => ?_)
    exact counts_iff.2 ((hf round hround uid (counts_iff.1 hheld)).resolve_right hcap)

theorem heldIn_modify_cases {round : List Table} {table : ℕ} {f : Table → Table}
    (h : HeldIn (round.modify table f) uid) : HeldIn round uid ∨
      ∃ tb, round[table]? = some tb ∧ (f tb).state ≠ .cancelled ∧ uid ∈ (f tb).uids := by
  obtain ⟨tb', hmem, hc, hseat⟩ := h
  rcases mem_of_mem_modify hmem with hold | ⟨tb, htb, rfl⟩
  · exact .inl ⟨tb', hold, hc, hseat⟩
  · exact .inr ⟨tb, htb, hc, hseat⟩

theorem CountsBelowCap.modifyTable {round table : ℕ} {f : Table → Table}
    (hf : ∀ tables, t.rounds[round]? = some tables → ∀ tb, tables[table]? = some tb →
      (f tb).uids = tb.uids ∧
        (tb.state = .cancelled → (f tb).state = .cancelled ∨ HasRoundsLeft t round table)) :
    CountsBelowCap t (modifyTable t round table f) := by
  refine CountsBelowCap.modify rfl fun tables hround uid hheld => ?_
  rcases heldIn_modify_cases hheld with hold | ⟨tb, htb, hc, hseat⟩
  · exact .inl hold
  obtain ⟨huids, hback⟩ := hf tables hround tb htb
  rw [huids] at hseat
  by_cases hcancelled : tb.state = .cancelled
  · have hleft := (hback hcancelled).resolve_left hc
    exact (hleft tables hround tb htb hcancelled uid hseat).symm
  · exact .inl ⟨tb, List.mem_of_getElem? htb, hcancelled, hseat⟩

theorem CountsBelowCap.cancelRound (target : ℕ) : CountsBelowCap t (cancelRoundDoc t target) := by
  have hrounds : (cancelRoundDoc t target).rounds = cancelledRounds t.rounds target := rfl
  by_cases hlast : target = t.rounds.length - 1
  · intro uid
    refine .inl ?_
    rw [countPlayerRoundsPlayed, hrounds, cancelledRounds, if_pos hlast]
    exact (removeLastRound_prefixOf t.rounds).sublist.countP_le
  · refine CountsBelowCap.modify (hrounds.trans (if_neg hlast)) fun round _ uid hheld => ?_
    obtain ⟨tb, hmem, hc, -⟩ := hheld
    obtain ⟨tb', -, rfl⟩ := List.mem_map.1 hmem
    exact absurd rfl hc

theorem checkRestorable_ok (h : checkRestorable t uid = .ok ⟨⟩) : atRoundCap t uid = false := by
  simp only [checkRestorable, ensure_bind_eq_ok, ensure_eq_ok] at h
  exact h.2

theorem CountsBelowCap.restoreRound {target : ℕ} {tables : List Table}
    (hcheck : ∀ uid ∈ tables.flatMap Table.uids, checkRestorable t uid = .ok ⟨⟩) :
    CountsBelowCap t (restoreRoundDoc t target tables) := by
  have hrounds : (restoreRoundDoc t target tables).rounds =
      t.rounds.modify target fun _ => restoreTables tables := List.set_eq_modify ..
  refine CountsBelowCap.modify hrounds fun round _ uid hheld => .inr ?_
  have hseated := hheld.mem_roundUids
  rw [roundUids_restoreTables] at hseated
  exact checkRestorable_ok (hcheck uid hseated)

theorem CountsBelowCap.startRound {submitted : Option (List (List Uid))}
    {seating : List (List Uid)} (h : roundSeating rs t submitted = .ok seating) :
    CountsBelowCap t (startRoundDoc t seating) := by
  refine CountsBelowCap.append rfl fun uid hu => ?_
  rw [roundUids_fresh] at hu
  have havailable := mem_playersToSeat ((roundSeating_perm h).mem_iff.1 hu)
  simpa using (List.mem_filter.1 havailable).2

theorem CountsBelowCap.selfOrganize {organizer : Uid} {uids : List Uid}
    {seating : List (List Uid)} (hall : ∀ uid ∈ uids, checkSelfOrganized t uid = .ok ⟨⟩)
    (hperm : seating.flatten.Perm uids) :
    CountsBelowCap t (selfOrganizeDoc t organizer uids seating) := by
  refine CountsBelowCap.append rfl fun uid hu => ?_
  rw [roundUids_fresh] at hu
  obtain ⟨p, -, -, -, -, hcap⟩ := checkSelfOrganized_ok (hall uid (hperm.mem_iff.1 hu))
  exact hcap

theorem CountsBelowCap.unseat (target : ℕ) : CountsBelowCap t (unseatPlayerDoc t uid target) := by
  refine CountsBelowCap.modify rfl fun round _ u hheld => .inl ?_
  unfold removeSeat at hheld
  split at hheld
  · rcases heldIn_modify_cases hheld with hold | ⟨tb, htb, hc, hseat⟩
    · exact hold
    · exact ⟨tb, List.mem_of_getElem? htb, hc, (eraseSeat_uids _ tb).subset hseat⟩
  · exact hheld

/-! ### Steps -/

theorem countsBelowCap_of_effect (hok : KeepsCap t i) (heff : Effect rs t i t') :
    CountsBelowCap t t' := by
  obtain ⟨hplaced, hback⟩ := hok
  cases heff with
  | quiet _ hq => exact .same hq.rounds
  | startRound _ _ _ _ _ hseating => exact .startRound hseating
  | selfOrganizeRound _ _ _ _ _ _ hall hperm => exact .selfOrganize hall hperm
  | cancelRound => exact (CountsBelowCap.cancelRound _).refresh _
  | restoreRound _ _ _ _ _ _ _ hcheck => exact (CountsBelowCap.restoreRound hcheck).refresh _
  | swapFinals _ _ _ _ _ _ he | swapRound _ _ _ _ _ _ _ _ he | reseatFinals _ _ _ he
  | reseatRound _ _ _ he | seatPlayer _ _ _ _ _ _ _ _ he | archival _ he =>
    rw [he] at hplaced
    cases hplaced
  | unseatPlayer => exact (CountsBelowCap.unseat _).refresh _
  | addTable =>
    refine .modify rfl fun round _ uid hheld => .inl ?_
    obtain ⟨tb, hmem, hc, hseat⟩ := hheld
    rcases List.mem_append.1 hmem with hmem | hnew
    · exact ⟨tb, hmem, hc, hseat⟩
    · rw [List.mem_singleton.1 hnew] at hseat
      cases hseat
  | removeTable =>
    refine .modify rfl fun round _ uid hheld => .inl ?_
    obtain ⟨tb, hmem, hc, hseat⟩ := hheld
    exact ⟨tb, List.mem_of_mem_eraseIdx hmem, hc, hseat⟩
  | scoreTable round table scores tables tb written he _ hround htb hwritten =>
    refine (CountsBelowCap.modifyTable fun tables' hround' tb' htb' => ?_).refresh _
    obtain rfl : tables = tables' := Option.some.inj (hround.symm.trans hround')
    obtain rfl : tb = tb' := Option.some.inj (htb.symm.trans htb')
    refine ⟨reportTable_uids hwritten, fun hcancelled => ?_⟩
    rw [he] at hback
    simp only [UncancelsBelowCap, tableAt_eq hround htb, Option.any_some] at hback
    rw [(reportTable_ok hwritten).2]
    cases hover : tb.override with
    | none =>
      rw [hover] at hback
      exact .inr (hback rfl)
    | some o => exact .inl hcancelled
  | overrideTable round table _ _ _ he =>
    rw [he] at hback
    refine (CountsBelowCap.modifyTable (t := t) ?_).refresh _
    exact fun _ _ _ _ => ⟨rfl, fun _ => .inr hback⟩
  | unoverrideTable round table _ _ he =>
    rw [he] at hback
    refine (CountsBelowCap.modifyTable (t := t) ?_).refresh _
    exact fun _ _ _ _ => ⟨rfl, fun _ => .inr hback⟩
  | setNonCompeting | finishRound | scoreFinals | overrideFinals | unoverrideFinals | finishFinals
  | cancelFinals | finishTournament | reopenTournament =>
    refine CountsBelowCap.refresh ?_ _
    exact .same rfl
  | _ => exact .same rfl

theorem checkMaxRounds_of_accept {c : ConfigPatch} (he : i.event = .updateConfig c)
    (h : acceptEvent rs t i = .ok t') : checkMaxRounds t c = .ok () := by
  obtain ⟨ops, h⟩ := acceptEvent_eq_ok.1 h
  simp only [applyEvent, he, updateConfig, bind_eq_ok] at h
  obtain ⟨-, -, -, -, -, -, h⟩ := h
  obtain ⟨-, h⟩ := check_if_eq_ok.1 h
  obtain ⟨-, h⟩ := check_if_eq_ok.1 h
  simp only [bind_eq_ok] at h
  obtain ⟨x, hcap, -⟩ := h
  exact hcap

theorem count_le_of_checkMaxRounds (hshape : Shape t) {c : ConfigPatch} {cap : ℕ}
    (hcheck : checkMaxRounds t c = .ok ()) (hcap : (c.get .maxRounds).asUsize = some cap)
    (hpos : 0 < cap) (uid : Uid) : countPlayerRoundsPlayed t uid ≤ cap := by
  unfold checkMaxRounds at hcheck
  simp only [hcap, ensure_eq_ok] at hcheck
  have hmax := hcheck.resolve_left hpos.ne'
  by_cases hzero : countPlayerRoundsPlayed t uid = 0
  · omega
  · obtain ⟨round, hround, hheld⟩ := List.countP_pos_iff.1 (Nat.pos_of_ne_zero hzero)
    have hseated : uid ∈ seatedUids t.rounds :=
      List.mem_flatten.2 ⟨_, List.mem_map_of_mem hround, (counts_iff.1 hheld).mem_roundUids⟩
    obtain ⟨p, hp, hu⟩ := List.mem_map.1 (hshape.onRoster uid hseated)
    have hlisted : countPlayerRoundsPlayed t uid ∈
        (t.players.filterMap Player.userUid).map (countPlayerRoundsPlayed t) :=
      List.mem_map_of_mem (List.mem_filterMap.2 ⟨p, hp, hu⟩)
    exact (List.le_max?_getD_of_mem hlisted).trans hmax

theorem WithinCap.updateConfig (hshape : Shape t) (h : WithinCap t) {c : ConfigPatch}
    (he : i.event = .updateConfig c) (hs : acceptEvent rs t i = .ok t') : WithinCap t' := by
  obtain ⟨-, rfl, -⟩ := updateConfig_ok he hs
  have hrounds : (updateConfigDoc t c).rounds = t.rounds := by
    unfold updateConfigDoc
    extract_lets patched
    split <;> rfl
  have hmerged : (updateConfigDoc t c).config .maxRounds = mergedValue t c .maxRounds :=
    updateConfigDoc_config (by decide)
  intro hpos uid
  rw [countPlayerRoundsPlayed_congr hrounds]
  unfold Tournament.maxRounds Tournament.count at hpos ⊢
  rw [hmerged] at hpos ⊢
  cases hkey : c.hasKey .maxRounds with
  | false =>
    rw [mergedValue_of_not_hasKey hkey] at hpos ⊢
    exact h hpos uid
  | true =>
    rw [mergedValue, if_pos hkey] at hpos ⊢
    cases hcap : (c.get .maxRounds).asUsize with
    | none => simp [hcap] at hpos
    | some cap =>
      rw [hcap, Option.getD_some] at hpos
      exact count_le_of_checkMaxRounds hshape (checkMaxRounds_of_accept he hs) hcap hpos uid

theorem WithinCap.step (hshape : Shape t) (h : WithinCap t) (hok : KeepsCap t i)
    (hs : acceptEvent rs t i = .ok t') : WithinCap t' := by
  by_cases hconfig : ∃ c, i.event = .updateConfig c
  · obtain ⟨c, he⟩ := hconfig
    exact h.updateConfig hshape he hs
  have hsame : t'.maxRounds = t.maxRounds := by
    have hkept := config_of_accept (fun c he => hconfig ⟨c, he⟩) hs
    rw [Tournament.maxRounds, Tournament.count, hkept]
    rfl
  intro hpos uid
  rw [hsame] at hpos ⊢
  rcases countsBelowCap_of_effect hok (effect_of_acceptEvent hs) uid with hle | ⟨hle, hcap⟩
  · exact hle.trans (h hpos uid)
  · have hbelow : countPlayerRoundsPlayed t uid < t.maxRounds := by
      simpa [atRoundCap, hpos] using hcap
    omega

/-- In every run whose organizer places nobody by hand and brings a cancelled table back only for
players with rounds left, no player sits in more rounds than the cap. -/
theorem withinCap_of_reaches (h : (engineSystem rs).Reaches KeepsCap t) : WithinCap t := by
  refine h.invariant_of (fun _ => Shape.of_reachable) (fun t ht => ?_)
    fun t i t' hshape hp hok hs => hp.step hshape hok hs
  obtain ⟨request, actor, ht⟩ := ht
  rw [createTournament_eq ht]
  exact fun _ uid => Nat.zero_le _

end Steps

/-- A cap of one round, played by four players; four more play while the first round is
cancelled. -/
def cancelledUnderCap : List TournamentEvent :=
  .updateConfig (fun f => if f = .maxRounds then some (.number 1) else none)
    :: gathering ["a", "b", "c", "d"]
    ++ [.startRound (some [["a", "b", "c", "d"]]), .override 0 0 "", .finishRound none]
    ++ ["e", "f", "g", "h"].map (fun uid => .addPlayer uid (some uid) none false)
    ++ [.startRound (some [["e", "f", "g", "h"]]), .cancelRound (some 0)]

/-- The first round is cancelled while another is played, and one of its tables is overridden
before its players sit again. -/
def overriddenBelowCap : List TournamentEvent :=
  cancelledUnderCap ++ [.override 0 0 ""]

theorem overriddenBelowCap_withinCap :
    ∃ t : Tournament, (0 < t.maxRounds ∧ countPlayerRoundsPlayed t "a" = 1) ∧ WithinCap t := by
  obtain ⟨t, ht, hp⟩ := exists_reaches_of_replay KeepsCap (overriddenBelowCap.map sent)
    (fun t => decide (0 < t.maxRounds) && decide (countPlayerRoundsPlayed t "a" = 1))
    (by decide +kernel)
  rw [Bool.and_eq_true, decide_eq_true_iff, decide_eq_true_iff] at hp
  exact ⟨t, hp, withinCap_of_reaches ht⟩

/-! ### The defect -/

/-- The players of the cancelled round sit again, and the round is brought back. -/
def overriddenAtCap : List TournamentEvent :=
  cancelledUnderCap ++
    [.override 1 0 "", .finishRound none, .startRound (some [["a", "b", "c", "d"]]),
      .override 0 0 ""]

/-- `Override` on a cancelled table counts its round again over the cap. -/
theorem overriddenAtCap_not_withinCap :
    ∃ t, (engineSystem fixedOrder).Reaches
      (fun t i => i.event.reseats = false ∧ CapNotLowered t i.event) t ∧ ¬WithinCap t := by
  obtain ⟨t, ht, hp⟩ := exists_reaches_of_replay
    (fun t i => i.event.reseats = false ∧ CapNotLowered t i.event) (overriddenAtCap.map sent)
    (fun t => decide (t.maxRounds = 1) && decide (countPlayerRoundsPlayed t "a" = 2))
    (by decide +kernel)
  rw [Bool.and_eq_true, decide_eq_true_iff, decide_eq_true_iff] at hp
  refine ⟨t, ht, fun h => ?_⟩
  have hle := h (by omega) "a"
  omega

end Archon.Engine

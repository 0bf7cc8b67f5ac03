import Archon.Properties.Reopened
import Archon.Backend.RequestRows
import Archon.Backend.Scenario

/-!
# A disqualification taken back (`routes/sanctions.py:125`, `158`, `611`)

The scores come back with the refresh, whoever was disqualified. The state of the player is set
anew from the phase of the tournament and the table of the player, so it comes back only if it is
the one they call for.
-/

namespace Archon.Engine
open Guards Seating

/-! ### What the refresh reads of the sanctions -/

/-- The same adjustments, in some order. -/
def SameAdjustments (s s' : List Sanction) : Prop := (getSaSanctions s).Perm (getSaSanctions s')

/-- The same results, field by field. -/
structure SameOutcome (a b : Tournament) : Prop where
  rounds : b.rounds = a.rounds
  finals : b.finals = a.finals
  standings : b.standings = a.standings
  winner : b.winner = a.winner

section Refresh

variable {t x y : Tournament} {s s' : List Sanction} {sas sas' : List (Uid × ℕ)}

theorem SameOutcome.trans {z : Tournament} (h : SameOutcome x y) (h' : SameOutcome y z) :
    SameOutcome x z :=
  ⟨h'.rounds.trans h.rounds, h'.finals.trans h.finals, h'.standings.trans h.standings,
    h'.winner.trans h.winner⟩

theorem SameOutcome.symm (h : SameOutcome x y) : SameOutcome y x :=
  ⟨h.rounds.symm, h.finals.symm, h.standings.symm, h.winner.symm⟩

theorem scoreTable_perm (h : sas.Perm sas') (seating : List Seat) (vps : List ℚ) (r : ℕ)
    (order : Option (List Uid)) :
    scoreTable seating vps r sas order = scoreTable seating vps r sas' order := by
  have hadjustments : tableSaAdjustments seating r sas = tableSaAdjustments seating r sas' := by
    unfold tableSaAdjustments
    exact List.map_congr_left fun seat _ => by rw [h.countP_eq]
  unfold scoreTable
  rw [hadjustments]

theorem refreshTable_perm (h : sas.Perm sas') (r : ℕ) (tb : Table) :
    refreshTable sas r tb = refreshTable sas' r tb := by
  unfold refreshTable
  rw [scoreTable_perm h]

theorem SameAdjustments.resolve (h : SameAdjustments s s') (hrounds : y.rounds = x.rounds)
    (hfinals : y.finals = x.finals) :
    (resolveSaEffectiveRounds x s).Perm (resolveSaEffectiveRounds y s') := by
  have hscored : ∀ uid r, scoredIn y uid r = scoredIn x uid r := by
    intro uid r
    rw [scoredIn, scoredIn, hrounds, hfinals]
  have hround : ∀ uid r, effectiveRound y uid r = effectiveRound x uid r := by
    intro uid r
    simp only [effectiveRound, hscored, hrounds]
  simp only [resolveSaEffectiveRounds, hround]
  exact h.filterMap _

theorem updateStandings_rounds_congr (h : SameAdjustments s s') (hrounds : y.rounds = x.rounds)
    (hfinals : y.finals = x.finals) :
    (updateStandings y s').rounds = (updateStandings x s).rounds := by
  have hresolve := h.resolve hrounds hfinals
  refine List.ext_getElem? fun r => ?_
  rw [updateStandings_getElem?, updateStandings_getElem?, hrounds]
  cases x.rounds[r]? with
  | none => rw [Option.map_none, Option.map_none]
  | some round =>
    simp only [Option.map_some, Option.some.injEq]
    exact List.map_congr_left fun tb _ => refreshTable_perm hresolve.symm r tb

theorem refreshFinalsScoring_some {f : FinalsTable} (hf : t.finals = some f) :
    (refreshFinalsScoring t s).finals = (if f.state = .finished then
      some { f with seating := refreshSeats f.seating (scoreFinals t s f).1 (scoreFinals t s f).2 }
      else some f) ∧
    (refreshFinalsScoring t s).winner = (if f.state = .finished then
      (if t.winner = "" then t.winner
        else (gameWinUid f.seating (scoreFinals t s f).1).getD t.winner) else t.winner) := by
  unfold refreshFinalsScoring
  rw [hf]
  dsimp only
  split
  · exact ⟨rfl, rfl⟩
  · exact ⟨hf, rfl⟩

theorem refreshFinalsScoring_none (hf : t.finals = none) : refreshFinalsScoring t s = t := by
  unfold refreshFinalsScoring
  rw [hf]

theorem updateStandings_final_congr (h : SameAdjustments s s') (hrounds : y.rounds = x.rounds)
    (hfinals : y.finals = x.finals) (hwinner : y.winner = x.winner) :
    (updateStandings y s').finals = (updateStandings x s).finals ∧
      (updateStandings y s').winner = (updateStandings x s).winner := by
  by_cases hr : x.rounds = []
  · have hx := updateStandings_finals_of_nil (s := s) hr
    have hy := updateStandings_finals_of_nil (s := s') (hrounds.trans hr)
    exact ⟨by rw [hy.1, hx.1, hfinals], by rw [hy.2, hx.2, hwinner]⟩
  · obtain ⟨u, hu, hufinals, huwinner, huresults, hulen⟩ := updateStandings_eq_rescore (s := s) hr
    obtain ⟨v, hv, hvfinals, hvwinner, hvresults, hvlen⟩ :=
      updateStandings_eq_rescore (s := s') (hrounds ▸ hr : y.rounds ≠ [])
    rw [hu, hv]
    cases hf : x.finals with
    | none =>
      rw [refreshFinalsScoring_none (hufinals.trans hf),
        refreshFinalsScoring_none (hvfinals.trans (hfinals.trans hf)), hvfinals, hufinals, hvwinner,
        huwinner]
      exact ⟨hfinals, hwinner⟩
    | some f =>
      have hscore : scoreFinals v s' f = scoreFinals u s f := by
        unfold scoreFinals
        rw [hvresults.resolve, huresults.resolve, hvlen, hulen, hrounds]
        exact scoreTable_perm (h.resolve hrounds hfinals).symm _ _ _ _
      obtain ⟨hu₁, hu₂⟩ := refreshFinalsScoring_some (s := s) (hufinals.trans hf)
      obtain ⟨hv₁, hv₂⟩ :=
        refreshFinalsScoring_some (s := s') (hvfinals.trans (hfinals.trans hf))
      rw [hu₁, hu₂, hv₁, hv₂, hscore, hvwinner, huwinner, hwinner]
      exact ⟨rfl, rfl⟩

theorem computePreliminaryStandings_rulings (h : SameAdjustments s s')
    (hdq : ∀ uid, hasDqSanction s' uid = hasDqSanction s uid) :
    computePreliminaryStandings t s' = computePreliminaryStandings t s := by
  have hresolve : (resolveSaEffectiveRounds t s).Perm (resolveSaEffectiveRounds t s') :=
    h.resolve rfl rfl
  have hentries : prelimEntries t (resolveSaEffectiveRounds t s') =
      prelimEntries t (resolveSaEffectiveRounds t s) := by
    unfold prelimEntries tableEntries
    simp only [scoreTable_perm hresolve.symm]
  have hpenalty : ∀ uid, saVpPenalty (prelimSas t (resolveSaEffectiveRounds t s')) uid =
      saVpPenalty (prelimSas t (resolveSaEffectiveRounds t s)) uid := by
    intro uid
    unfold saVpPenalty prelimSas
    rw [(hresolve.symm.filter _).countP_eq]
  unfold computePreliminaryStandings prelimRow
  simp only [hentries, hpenalty, hdq]

theorem updateStandings_sheet_congr (h : SameAdjustments s s')
    (hdq : ∀ uid, hasDqSanction s' uid = hasDqSanction s uid) (hrounds : y.rounds = x.rounds)
    (hfinals : y.finals = x.finals) (hplayers : y.players = x.players)
    (hsheet : x.rounds = [] → y.standings = x.standings) :
    (updateStandings y s').standings = (updateStandings x s).standings := by
  by_cases hr : x.rounds = []
  · rw [updateStandings_standings_of_nil x s hr, updateStandings_standings_of_nil y s'
      (hrounds.trans hr), hsheet hr]
  · rw [updateStandings_standings x s hr, updateStandings_standings y s' (hrounds ▸ hr),
      computePreliminaryStandings_rulings h hdq]
    have hresults : SameResults x y :=
      .of_length (fun r => by rw [hrounds]) (by rw [hrounds])
        (by rw [finalsUids, finalsUids, hfinals])
    exact hresults.standings (fun uid _ => by rw [hplayers]) s

end Refresh

/-! ### Disqualified and restored -/

/-- The player sits at a table still played, or at a final that is. -/
def AtLiveTable (t : Tournament) (uid : Uid) : Prop :=
  uid ∈ liveSeats t.rounds ∨
    t.finals.any (fun f => f.state != .finished && f.seating.any fun s => s.playerUid == uid) = true

/-- The state the phase of the tournament and the table of the player call for. -/
def CalledFor (t : Tournament) (uid : Uid) : PlayerState → Prop
  | .finished => t.state = .finished
  | .playing => t.state ≠ .finished ∧ AtLiveTable t uid
  | .checkedIn => t.state ≠ .finished ∧ ¬AtLiveTable t uid
  | .registered | .completed | .disqualified => False

section Undone

variable {t m : Tournament} {s s' : List Sanction} {uid : Uid} {p : Player} {players : List Player}

theorem eq_dqRestoreState_iff (hdq : hasDqSanction s uid = false) (state : PlayerState) :
    state = dqRestoreState t s uid ↔ CalledFor t uid state := by
  unfold dqRestoreState
  rw [if_neg (by simp [hdq])]
  by_cases hphase : t.state = .finished
  · rw [if_pos hphase]
    cases state <;> simp [CalledFor, hphase]
  · rw [if_neg hphase]
    by_cases hlive : AtLiveTable t uid
    · have hseat := hlive
      unfold AtLiveTable at hseat
      rw [if_pos hseat]
      cases state <;> simp [CalledFor, hphase, hlive]
    · have hseat := hlive
      unfold AtLiveTable at hseat
      rw [if_neg hseat]
      cases state <;> simp [CalledFor, hphase, hlive]

theorem updatePlayer_withState (a b : PlayerState) :
    updatePlayer (updatePlayer players uid (Player.withState a)) uid (Player.withState b) =
      updatePlayer players uid (Player.withState b) := by
  induction players with
  | nil => rfl
  | cons p ps ih =>
    rw [updatePlayer_cons, updatePlayer_cons]
    by_cases hp : p.isUid uid = true
    · have hp' : (p.withState a).isUid uid = true := hp
      rw [if_pos hp, if_pos hp, updatePlayer_cons, if_pos hp']
      rfl
    · rw [if_neg hp, if_neg hp, updatePlayer_cons, if_neg hp, ih]

theorem updatePlayer_withState_eq_self (hp : findPlayer players uid = some p)
    (state : PlayerState) :
    updatePlayer players uid (Player.withState state) = players ↔ p.state = state := by
  constructor
  · intro h
    have hfound := @findPlayer_update_self players uid (Player.withState state) fun _ => rfl
    rw [h, hp, Option.map_some, Option.some.injEq] at hfound
    rw [hfound]
    rfl
  · intro hstate
    induction players with
    | nil => rfl
    | cons q qs ih =>
      rw [updatePlayer_cons]
      by_cases hq : q.isUid uid = true
      · have heq : q = p := by
          simpa [findPlayer, hq] using hp
        rw [if_pos hq, heq, ← hstate]
        rfl
      · rw [if_neg hq, ih (by simpa [findPlayer, hq] using hp)]

/-- The document after the disqualification, as far as the way back reads it. -/
structure DisqualifiedFrom (t : Tournament) (s : List Sanction) (uid : Uid) (m : Tournament) :
    Prop where
  state : m.state = t.state
  players : m.players = updatePlayer t.players uid (Player.withState .disqualified)
  rounds : m.rounds = (updateStandings t s).rounds
  finals : m.finals = (updateStandings t s).finals
  winner : m.winner = (updateStandings t s).winner
  standings : t.rounds = [] → m.standings = t.standings

theorem disqualifiedFrom_apply (h : SameAdjustments s s') :
    DisqualifiedFrom t s uid (applySanctionToTournament t s' (.disqualify uid)) := by
  unfold applySanctionToTournament
  extract_lets target marked
  have hmarked : marked =
      { t with players := updatePlayer t.players uid (Player.withState .disqualified) } := rfl
  have hrounds : (updateStandings marked s').rounds = (updateStandings t s).rounds :=
    updateStandings_rounds_congr h rfl rfl
  have hfinal := @updateStandings_final_congr t marked s s' h rfl rfl rfl
  by_cases hr : t.rounds = []
  · have hempty : marked.rounds.isEmpty = true := List.isEmpty_iff.2 hr
    have hnil := updateStandings_finals_of_nil (s := s) hr
    rw [if_pos hempty]
    refine ⟨rfl, rfl, ?_, hnil.1.symm, hnil.2.symm, fun _ => rfl⟩
    rw [(updateStandings_rounds_eq_nil s).2 hr]
    exact hr
  · have hne : ¬marked.rounds.isEmpty = true := fun hempty => hr (List.isEmpty_iff.1 hempty)
    rw [if_neg hne]
    refine ⟨?_, ?_, hrounds, hfinal.1, hfinal.2, fun hnil => absurd hnil hr⟩
    · change (updateStandings marked s').state = t.state
      exact (updateStandings_state marked s').trans rfl
    · change updatePlayer (updateStandings marked s').players uid
        (Player.withState .disqualified) = _
      rw [updateStandings_players, hmarked]
      exact updatePlayer_withState _ _

theorem liveFinal_updateStandings (t : Tournament) (s : List Sanction) (uid : Uid) :
    ((updateStandings t s).finals.any fun f =>
      f.state != .finished && f.seating.any fun s => s.playerUid == uid) =
      t.finals.any fun f => f.state != .finished && f.seating.any fun s => s.playerUid == uid := by
  cases hf : t.finals with
  | none => rw [(updateStandings_finals_eq_none t s).2 hf]
  | some f =>
    obtain ⟨f', hf', hstate, huids, -, -⟩ := updateStandings_finals_some (s := s) hf
    have hany : (f'.seating.any fun s => s.playerUid == uid) =
        f.seating.any fun s => s.playerUid == uid := by
      have hmap : ∀ seats : List Seat, (seats.any fun s => s.playerUid == uid) =
          (seats.map Seat.playerUid).any (· == uid) := fun seats => by rw [List.any_map]; rfl
      rw [hmap, hmap, huids]
    rw [hf', Option.any_some, Option.any_some, hstate, hany]

theorem DisqualifiedFrom.dqRestoreState (hm : DisqualifiedFrom t s uid m)
    (hdq : hasDqSanction s' uid = hasDqSanction s uid) :
    dqRestoreState m s' uid = dqRestoreState t s uid := by
  have hseats : liveSeats m.rounds = liveSeats t.rounds := by
    rw [hm.rounds, liveSeats_updateStandings]
  have hfinal := liveFinal_updateStandings t s uid
  rw [← hm.finals] at hfinal
  simp only [Engine.dqRestoreState, hdq, hm.state, hseats, hfinal]

theorem restored_apply (h : SameAdjustments s s')
    (hdq : ∀ uid, hasDqSanction s' uid = hasDqSanction s uid) (hm : DisqualifiedFrom t s uid m) :
    (applySanctionToTournament m s' (.restore uid)).players =
      updatePlayer t.players uid (Player.withState (dqRestoreState t s uid)) ∧
    (updatePlayer t.players uid (Player.withState (dqRestoreState t s uid)) = t.players →
      SameOutcome (updateStandings t s) (applySanctionToTournament m s' (.restore uid))) := by
  have hrestore := hm.dqRestoreState (hdq uid)
  unfold applySanctionToTournament
  extract_lets target marked
  have htarget : target = some (uid, Engine.dqRestoreState t s uid) := by
    rw [← hrestore]
    rfl
  have hmarked : marked.players =
      updatePlayer t.players uid (Player.withState (Engine.dqRestoreState t s uid)) := by
    dsimp only [marked]
    rw [htarget]
    change updatePlayer m.players uid _ = _
    rw [hm.players, updatePlayer_withState]
  have hsame : marked.rounds = m.rounds ∧ marked.finals = m.finals ∧ marked.winner = m.winner ∧
      marked.standings = m.standings := by
    dsimp only [marked]
    rw [htarget]
    exact ⟨rfl, rfl, rfl, rfl⟩
  by_cases hr : t.rounds = []
  · have hnil := (updateStandings_rounds_eq_nil s).2 hr
    have hempty : marked.rounds.isEmpty = true := by
      rw [hsame.1, hm.rounds, hnil]
      rfl
    rw [if_pos hempty]
    refine ⟨hmarked, fun _ => ⟨hsame.1.trans hm.rounds, hsame.2.1.trans hm.finals, ?_,
      hsame.2.2.1.trans hm.winner⟩⟩
    rw [hsame.2.2.2, hm.standings hr, updateStandings_standings_of_nil t s hr]
  · have hne : ¬marked.rounds.isEmpty = true := by
      rw [hsame.1, hm.rounds, List.isEmpty_iff]
      exact fun hnil => hr ((updateStandings_rounds_eq_nil s).1 hnil)
    rw [if_neg hne, htarget]
    constructor
    · change updatePlayer (updateStandings marked s').players uid _ = _
      rw [updateStandings_players, hmarked, updatePlayer_withState]
    · intro hplayers
      set u := updateStandings t s with hu
      have hidem : updateStandings u s = u := updateStandings_idem t s
      have hrounds : marked.rounds = u.rounds := hsame.1.trans hm.rounds
      have hfinals : marked.finals = u.finals := hsame.2.1.trans hm.finals
      have hfinal := updateStandings_final_congr h hrounds hfinals (hsame.2.2.1.trans hm.winner)
      have hroster : marked.players = u.players := by
        rw [hmarked, hplayers, hu, updateStandings_players]
      have hsheet : (updateStandings marked s').standings = (updateStandings u s).standings :=
        updateStandings_sheet_congr h hdq hrounds hfinals hroster fun hnil =>
          absurd ((updateStandings_rounds_eq_nil s).1 hnil) hr
      rw [hidem] at hfinal hsheet
      refine ⟨?_, hfinal.1, hsheet, hfinal.2⟩
      change (updateStandings marked s').rounds = u.rounds
      rw [updateStandings_rounds_congr h hrounds hfinals, hidem]

end Undone

end Archon.Engine

namespace Archon.Backend
open Engine Guards Table

section Sanctions

variable {env : Env} {objects saved a b : Objects} {uid userUid : Uid} {t t' : StoredTournament}
variable {s x : StoredSanction}

/-! ### The sanctions on the way -/

theorem nodup_sanctions (h : WellKeyed objects) : objects.sanctions.Nodup := by
  refine (@nodup_read objects _ _ StoredSanction.uid fun x hx s hs => ?_).of_map
  have hrow := h x.1 x.2 (mem_rows.1 hx)
  obtain ⟨key, o, d⟩ := x
  cases o with
  | sanction r =>
    obtain rfl : r = s := Option.some.inj hs
    exact hrow
  | _ => cases hs

theorem sanctions_saveSanction (h : WellKeyed objects) (s : StoredSanction) :
    (saveSanction objects s).sanctions.Perm
      (s :: objects.sanctions.filter fun x => x.uid != s.uid) := by
  have hnodup : (s :: objects.sanctions.filter fun x => x.uid != s.uid).Nodup :=
    List.nodup_cons.2 ⟨by simp, (nodup_sanctions h).filter _⟩
  rw [List.perm_ext_iff_of_nodup (nodup_sanctions (wellKeyed_saveSanction h s)) hnodup]
  intro x
  rw [mem_sanctions (wellKeyed_saveSanction h s), List.mem_cons, List.mem_filter, mem_sanctions h]
  by_cases hx : x.uid = s.uid
  · have hsaved : (saveSanction objects s).sanction? x.uid = some s := by
      rw [hx, sanction?_eq_some, find?_eq_some]
      exact ⟨s.deletedAt, lookup_saveObject⟩
    rw [hsaved]
    constructor
    · intro heq
      exact .inl (Option.some.inj heq).symm
    · rintro (rfl | ⟨-, hne⟩)
      · rfl
      · simp [hx] at hne
  · rw [saveSanction, sanction?_congr (lookup_saveObject_ne hx)]
    constructor
    · exact fun hmem => .inr ⟨hmem, by simpa using hx⟩
    · rintro (rfl | ⟨hmem, -⟩)
      · exact absurd rfl hx
      · exact hmem

theorem sanctions_of_fresh (h : WellKeyed objects) (hfresh : objects.lookup s.uid = none) :
    (objects.sanctions.filter fun x => x.uid != s.uid) = objects.sanctions := by
  refine List.filter_eq_self.2 fun x hx => ?_
  rw [bne_iff_ne]
  intro heq
  have hstored := (mem_sanctions h).1 hx
  rw [heq, (readers_of_lookup hfresh).2] at hstored
  cases hstored

theorem sanctions_over (h : WellKeyed objects) (hb : WellKeyed b)
    (hfresh : objects.lookup s.uid = none) (hperm : b.sanctions.Perm (s :: objects.sanctions))
    (hx : x.uid = s.uid) : (saveSanction b x).sanctions.Perm (x :: objects.sanctions) := by
  refine (sanctions_saveSanction hb x).trans (.cons x ?_)
  have hfilter := hperm.filter fun y => y.uid != x.uid
  rwa [List.filter_cons_of_neg (by simp [hx]), hx, sanctions_of_fresh h hfresh, ← hx] at hfilter

theorem sameAdjustments_cons (hperm : b.sanctions.Perm (x :: a.sanctions))
    (hlevel : x.level = .disqualification) (uid : Uid) :
    SameAdjustments (tournamentSanctions a uid) (tournamentSanctions b uid) := by
  have hengine := (hperm.filter fun s => s.tournamentUid == some uid && s.deletedAt == none).map
    StoredSanction.toEngine
  unfold SameAdjustments getSaSanctions
  refine (List.Perm.of_eq ?_).trans (hengine.filterMap _).symm
  rw [List.filter_cons]
  symm
  split
  · rw [List.map_cons, List.filterMap_cons_none]
    · rfl
    · have hne : x.toEngine.level ≠ .standingsAdjustment := by
        rw [StoredSanction.toEngine, hlevel]
        exact SanctionLevel.noConfusion
      exact if_neg fun h => hne h.2.1
  · rfl

theorem hasDqSanction_cons (hperm : b.sanctions.Perm (x :: a.sanctions))
    (hoff : isSanctionActive x.toEngine = false) (uid userUid : Uid) :
    hasDqSanction (tournamentSanctions b uid) userUid =
      hasDqSanction (tournamentSanctions a uid) userUid := by
  have hengine := (hperm.filter fun s => s.tournamentUid == some uid && s.deletedAt == none).map
    StoredSanction.toEngine
  unfold hasDqSanction
  refine (hengine.any_eq).trans ?_
  rw [List.filter_cons]
  split
  · rw [List.map_cons, List.any_cons, hoff, Bool.false_and, Bool.false_and, Bool.false_or]
    rfl
  · rfl

theorem hasDqSanction_eq_false (h : hasActiveDq objects uid userUid = false) :
    hasDqSanction (tournamentSanctions objects uid) userUid = false := by
  rw [hasActiveDq, List.any_eq_false] at h
  rw [hasDqSanction, tournamentSanctions, List.any_map, List.any_eq_false]
  intro s hs hcounted
  refine h s hs ?_
  simp only [Function.comp_apply, StoredSanction.toEngine, isSanctionActive, Bool.and_eq_true,
    beq_iff_eq, Option.isNone_iff_eq_none] at hcounted
  obtain ⟨⟨⟨hlifted, -⟩, hlevel⟩, huser⟩ := hcounted
  simp [hlifted, hlevel, huser]

theorem sanctions_reflectOn {change : SanctionChange} (h : WellKeyed saved)
    (ht : saved.tournament? uid = some t) :
    (reflectOn env saved uid (some change)).sanctions.Perm saved.sanctions := by
  have hkeyed := (@row_of_reflectOn env uid t saved (some change) h ht).1
  rw [List.perm_ext_iff_of_nodup (nodup_sanctions hkeyed) (nodup_sanctions h)]
  intro s
  rw [mem_sanctions hkeyed, mem_sanctions h, sanction?_reflectOn h ht]

theorem reflectedRow_of_exists {change : SanctionChange} {state : PlayerState}
    (h : ReflectedAs env saved uid t (some change) t')
    (htarget : change.target t.toEngine (tournamentSanctions saved uid) = some (userUid, state))
    (hplayer : playerExists t.doc.players userUid = true) :
    t' = reflectedRow env saved uid t change := by
  rcases h with ⟨-, hnothing⟩ | ⟨ch, hch, heq⟩
  · have hnone := (hnothing change rfl).2
    rw [htarget, Option.any_some, hplayer] at hnone
    cases hnone
  · obtain rfl := Option.some.inj hch
    exact heq

end Sanctions

/-! ### Created and taken back -/

/-- A request that lifts a sanction and edits nothing else of it. -/
def liftRequest : UpdateSanctionRequest := ⟨none, none, none, none, none, none, some true⟩

/-- The sanction is deleted, or it is lifted. -/
def TakenBack (env : Env) (objects : Objects) (user : User) (sanctionUid : Uid)
    (objects' : Objects) : Prop :=
  deleteSanction env objects user sanctionUid = .ok objects' ∨
    updateSanction env objects user sanctionUid liftRequest = .ok objects'

section Undo

variable {env env' : Env} {objects mid final : Objects} {user user' : User} {uid userUid : Uid}
variable {oauthTournament : Option Uid} {request : CreateSanctionRequest} {t t' : StoredTournament}
variable {p : Player} {s : StoredSanction}

theorem TakenBack.saves (hs : mid.sanction? s.uid = some s)
    (hlive : isSanctionActive s.toEngine = true)
    (hlevel : s.level = .disqualification) (hof : s.tournamentUid = some uid) (hne : uid ≠ "")
    (h : TakenBack env mid user s.uid final) :
    ∃ x, x.uid = s.uid ∧ x.level = .disqualification ∧ isSanctionActive x.toEngine = false ∧
      final = reflectOn env (saveSanction mid x) uid (some (.restore s.userUid)) := by
  obtain ⟨hlifted, hdeleted⟩ : s.liftedAt = none ∧ s.deletedAt = none := by
    simpa [isSanctionActive, StoredSanction.toEngine] using hlive
  rcases h with h | h
  · obtain ⟨s', hs', -, rfl⟩ := deleteSanction_eq_ok h
    obtain rfl : s' = s := Option.some.inj (hs'.symm.trans hs)
    refine ⟨{ s' with modified := env.now, deletedAt := some env.now }, rfl, hlevel,
      by simp [isSanctionActive, StoredSanction.toEngine], ?_⟩
    have hcounted : ¬(s'.tournamentUid.getD "" = "" ∨ s'.liftedAt ≠ none) := by
      rw [hof, Option.getD_some]
      exact not_or.2 ⟨hne, not_not.2 hlifted⟩
    rw [StoredSanction.deletedChange, if_neg hcounted, if_pos hlevel, hof, Option.getD_some]
  · obtain ⟨s', hs', -, rfl⟩ := updateSanction_eq_ok h
    obtain rfl : s' = s := Option.some.inj (hs'.symm.trans hs)
    have hlifts : liftRequest.lifts s' = true := by
      simp [UpdateSanctionRequest.lifts, liftRequest, hlifted]
    have hlift : (updatedSanction env user s' liftRequest).liftedAt = some env.now :=
      if_pos hlifts
    have hoff : (updatedSanction env user s' liftRequest).isActiveDq = false := by
      simp [StoredSanction.isActiveDq, hlift]
    have hon : s'.isActiveDq = true := by simp [StoredSanction.isActiveDq, hlevel, hlifted]
    refine ⟨updatedSanction env user s' liftRequest, rfl, hlevel,
      by simp [isSanctionActive, StoredSanction.toEngine, hlift], ?_⟩
    have hbound : ¬s'.tournamentUid.getD "" = "" := by rwa [hof, Option.getD_some]
    have hdiffer : s'.isActiveDq ≠ (updatedSanction env user s' liftRequest).isActiveDq := by
      rw [hon, hoff]
      exact Bool.noConfusion
    rw [updatedChange, if_neg hbound, if_pos hdiffer, hoff, if_neg Bool.false_ne_true, hof,
      Option.getD_some]

/-- A disqualification taken back restores the player and the results exactly when the player had
the state his place calls for and the results were those of a refresh. -/
theorem disqualify_undo_iff (h : WellKeyed objects) (hfresh : env.Fresh objects uid)
    (ht : objects.tournament? uid = some t)
    (hp : findPlayer t.doc.players request.userUid = some p)
    (hlevel : request.level = .disqualification) (hof : request.tournamentUid = some uid)
    (hcreate : createSanction env objects user oauthTournament request = .ok mid)
    (hundo : TakenBack env' mid user' (env.freshUid 0) final) :
    ∃ t', final.tournament? uid = some t' ∧
      ((t'.doc.players = t.doc.players ∧ SameOutcome t.doc t'.doc) ↔
        CalledFor t.doc request.userUid p.state ∧
          SameOutcome t.doc (updateStandings t.toEngine (tournamentSanctions objects uid))) := by
  obtain ⟨hbound, hnone, hmid⟩ := createSanction_eq_ok hcreate
  rw [hof, Option.getD_some] at hmid
  rw [hof, Option.getD_some] at hnone
  rw [hof, Option.getD_some] at hbound
  have hne : uid ≠ "" := hbound (by rw [hlevel]; decide)
  set new := newSanction env user request with hnew
  have hnewlevel : new.level = .disqualification := hlevel
  have hnewlive : isSanctionActive new.toEngine = true := rfl
  have hchange : request.change = some (.disqualify request.userUid) := if_pos hlevel
  rw [hchange] at hmid
  -- the table with the new sanction in it
  have hlookup : objects.lookup new.uid = none := (hfresh 0).1
  have hsaved : WellKeyed (saveSanction objects new) := wellKeyed_saveSanction h _
  have hsavedrow := tournament?_saveSanction (s := new) ht (hfresh 0).2
  have hperm : (saveSanction objects new).sanctions.Perm (new :: objects.sanctions) := by
    have hover := sanctions_saveSanction h new
    rwa [sanctions_of_fresh h hlookup] at hover
  have hplayer : playerExists t.doc.players request.userUid = true := by
    rw [playerExists_iff]
    exact findPlayer_mem_rosterUids hp
  -- the row and the sanctions after the creation
  obtain ⟨hmidkeyed, t₁, hrow₁, hreflected₁⟩ :=
    @row_of_reflectOn env uid t _ (some (.disqualify request.userUid)) hsaved hsavedrow
  have hmidperm := (@sanctions_reflectOn env _ uid t (.disqualify request.userUid) hsaved
    hsavedrow).trans hperm
  rw [← hmid] at hmidkeyed hrow₁ hmidperm
  have ht₁ := reflectedRow_of_exists hreflected₁ rfl hplayer
  have hlive : mid.sanction? new.uid = some new :=
    (mem_sanctions hmidkeyed).1 (hmidperm.mem_iff.2 (List.mem_cons_self ..))
  -- the row after it is taken back
  obtain ⟨x, hxuid, hxlevel, hxoff, hfinal⟩ :=
      TakenBack.saves hlive hnewlive hnewlevel hof hne hundo
  have hxperm := sanctions_over h hmidkeyed hlookup hmidperm hxuid
  have hxrow := tournament?_saveSanction (s := x) hrow₁ (hxuid ▸ (hfresh 0).2)
  obtain ⟨-, t₂, hrow₂, hreflected₂⟩ := @row_of_reflectOn env' uid t₁ _
    (some (.restore new.userUid)) (wellKeyed_saveSanction hmidkeyed x) hxrow
  rw [← hfinal] at hrow₂
  refine ⟨t₂, hrow₂, ?_⟩
  -- the sanctions the engine is handed at each of the two changes
  have hcreated := sameAdjustments_cons hperm hnewlevel uid
  have hundone := sameAdjustments_cons hxperm hxlevel uid
  have hdq := hasDqSanction_cons hxperm hxoff uid
  have hnodq : hasDqSanction (tournamentSanctions objects uid) request.userUid = false :=
    hasDqSanction_eq_false (hnone hlevel)
  have hm : DisqualifiedFrom t.toEngine (tournamentSanctions objects uid) request.userUid
      t₁.toEngine := by
    have happlied := @disqualifiedFrom_apply t.toEngine _ _ request.userUid hcreated
    rw [ht₁]
    exact ⟨happlied.state, happlied.players, happlied.rounds, happlied.finals, happlied.winner,
      happlied.standings⟩
  have hplayer₁ : playerExists t₁.doc.players request.userUid = true := by
    have hfound := @findPlayer_update_self t.doc.players request.userUid
      (Player.withState .disqualified) fun _ => rfl
    rw [hp, Option.map_some] at hfound
    have hplayers : t₁.doc.players = _ := hm.players
    rw [playerExists_iff, hplayers]
    exact findPlayer_mem_rosterUids hfound
  have ht₂ := reflectedRow_of_exists hreflected₂ rfl hplayer₁
  obtain ⟨hplayers, hresults⟩ := restored_apply hundone hdq hm
  have hplayers₂ : t₂.doc.players = updatePlayer t.doc.players request.userUid
      (Player.withState (dqRestoreState t.toEngine (tournamentSanctions objects uid)
        request.userUid)) := by
    rw [ht₂]
    exact hplayers
  have hroster : t₂.doc.players = t.doc.players ↔ CalledFor t.doc request.userUid p.state := by
    rw [hplayers₂, updatePlayer_withState_eq_self hp]
    exact eq_dqRestoreState_iff hnodq p.state
  have hrefreshed : t₂.doc.players = t.doc.players →
      SameOutcome (updateStandings t.toEngine (tournamentSanctions objects uid)) t₂.doc := by
    intro hback
    have hsame := hresults (hplayers₂.symm.trans hback)
    rw [ht₂]
    exact ⟨hsame.rounds, hsame.finals, hsame.standings, hsame.winner⟩
  constructor
  · rintro ⟨hback, hkept⟩
    exact ⟨hroster.1 hback, hkept.trans (hrefreshed hback).symm⟩
  · rintro ⟨hcalled, hcurrent⟩
    have hback := hroster.2 hcalled
    exact ⟨hback, hcurrent.trans (hrefreshed hback)⟩

end Undo

/-! ### Two players at check-in -/

/-- The event at check-in: the first player has only registered, the second has checked in. -/
def checkinEvent : StoredTournament :=
  { event with doc := { event.doc with
    state := .waiting
    players := [.fresh "a" .registered false none, .fresh "b" .checkedIn false none] } }

def checkinTable : Objects := saveRow eventTable checkinEvent

/-- A disqualification of the player by mistake. -/
def mistaken (userUid : Uid) : CreateSanctionRequest :=
  ⟨userUid, .disqualification, .unsportsmanlikeConduct, none, none, "wrong player", none,
    some "event"⟩

theorem checkinTable_keyed : WellKeyed checkinTable := wellKeyed_saveRow eventTable_keyed _

theorem exists_takenBack {userUid : Uid} {P : StoredTournament → Bool}
    (h : ((createSanction venue checkinTable (member "prince" [.prince]) none
        (mistaken userUid)).toOption.any fun mid =>
      (deleteSanction venue mid (member "prince" [.prince]) (venue.freshUid 0)).toOption.any
        fun final => (final.tournament? "event").any P) = true) :
    ∃ mid final t', createSanction venue checkinTable (member "prince" [.prince]) none
        (mistaken userUid) = .ok mid ∧
      deleteSanction venue mid (member "prince" [.prince]) (venue.freshUid 0) = .ok final ∧
      final.tournament? "event" = some t' ∧ P t' = true := by
  have hok : ∀ {r : Except RouteError Objects} {o : Objects}, r.toOption = some o → r = .ok o := by
    intro r o hr
    cases r with
    | ok x => exact congrArg Except.ok (Option.some.inj hr)
    | error e => cases hr
  obtain ⟨mid, hmid, hrest⟩ := (Option.any_eq_true _ _).1 h
  obtain ⟨final, hfinal, hrest⟩ := (Option.any_eq_true _ _).1 hrest
  obtain ⟨t', ht', hP⟩ := (Option.any_eq_true _ _).1 hrest
  exact ⟨mid, final, t', hok hmid, hok hfinal, ht', hP⟩

/-- The second player is back as he was, with the results. -/
theorem disqualify_undo_checkedIn : ∃ (final : Objects)
    (t' : StoredTournament), final.tournament? "event" = some t' ∧
    t'.doc.players = checkinEvent.doc.players ∧ SameOutcome checkinEvent.doc t'.doc := by
  obtain ⟨mid, final, t₁, hmid, hfinal, -, -⟩ :=
    @exists_takenBack "b" (fun _ => true) (by decide +kernel)
  have hshort : ShortUids checkinTable := by decide
  have hrefresh : updateStandings checkinEvent.toEngine (tournamentSanctions checkinTable "event") =
      checkinEvent.toEngine := rfl
  obtain ⟨t', ht', hiff⟩ := disqualify_undo_iff checkinTable_keyed
    (venue_fresh hshort (by decide)) (t := checkinEvent) rfl
    (p := .fresh "b" .checkedIn false none) rfl rfl rfl hmid (.inl hfinal)
  have hcalled : CalledFor checkinEvent.doc "b" .checkedIn := by
    refine ⟨by decide, ?_⟩
    unfold AtLiveTable
    decide
  obtain ⟨hplayers, houtcome⟩ := hiff.2 ⟨hcalled, by rw [hrefresh]; exact ⟨rfl, rfl, rfl, rfl⟩⟩
  exact ⟨final, t', ht', hplayers, houtcome⟩

/-- The first player comes back checked in, though he had only registered. -/
theorem registered_comes_back_checkedIn : ∃ mid final t',
    createSanction venue checkinTable (member "prince" [.prince]) none (mistaken "a") = .ok mid ∧
    deleteSanction venue mid (member "prince" [.prince]) (venue.freshUid 0) = .ok final ∧
    final.tournament? "event" = some t' ∧
    ((findPlayer checkinEvent.doc.players "a").map Player.state = some .registered ∧
      (findPlayer t'.doc.players "a").map Player.state = some .checkedIn) := by
  obtain ⟨mid, final, t', hmid, hfinal, ht', hstate⟩ :=
    @exists_takenBack "a" (fun t' => (findPlayer t'.doc.players "a").map Player.state ==
      some .checkedIn) (by decide +kernel)
  exact ⟨mid, final, t', hmid, hfinal, ht', rfl, eq_of_beq hstate⟩

end Archon.Backend

import Archon.Properties.TossSettled

/-!
# Nobody is drawn twice

A raffle draws the first players of a shuffled pool, so its winners are different members of the
pool, as many as asked for or the whole pool. With `exclude_drawn` the recorded winners are out of
the pool. No other event adds to the recorded draws: undoing drops the last, clearing drops them
all, and everything else leaves them, so along a run of such draws the recorded winners stay
different.
-/

namespace Archon.Engine
open Guards Seating

/-- The players of the recorded draws, draw by draw. -/
def drawnUids (draws : List RaffleDraw) : List Uid := draws.flatMap RaffleDraw.winners

/-! ### The pool and one draw -/

theorem nodup_raffleBaseUids (t : Tournament) : (raffleBaseUids t).Nodup :=
  (List.perm_insertionSort _ _).nodup_iff.2 (List.nodup_dedup _)

section Draw

variable {t t' : Tournament} {actor : ActorContext} {sanctions : List Sanction}
  {label pool : String} {excludeDrawn : Bool} {count : ℕ} {seed : UInt64}
  {prize : Option Uid} {eligible : List Uid} {ops : List DeckOp}

theorem nodup_rafflePool (h : rafflePool t sanctions pool excludeDrawn = .ok eligible) :
    eligible.Nodup := by
  simp only [rafflePool, okOr_bind_eq_ok, pure_eq_ok] at h
  obtain ⟨keeps, -, rfl⟩ := h
  exact ((nodup_raffleBaseUids t).filter keeps).filter _

theorem notMem_drawn_of_pool (h : rafflePool t sanctions pool true = .ok eligible) :
    ∀ uid ∈ eligible, uid ∉ drawnUids t.raffles := by
  simp only [rafflePool, okOr_bind_eq_ok, pure_eq_ok] at h
  obtain ⟨keeps, -, rfl⟩ := h
  intro uid hmem hdrawn
  have hfree := (List.mem_filter.1 hmem).2
  rw [drawnUids] at hdrawn
  simp [hdrawn] at hfree

theorem raffleDraw_eq_ok :
    raffleDraw t actor sanctions label pool excludeDrawn count seed prize = .ok (t', ops) ↔
      actor.isOrganizer = true ∧
        (t.state = .waiting ∨ t.state = .playing ∨ t.state = .finished) ∧ count ≠ 0 ∧
        ∃ eligible, rafflePool t sanctions pool excludeDrawn = .ok eligible ∧ eligible ≠ [] ∧
          ops = [] ∧
          t' = { t with
            raffles := t.raffles ++ [⟨label, pool,
              (lcgShuffle (eligible.length - 1) seed eligible).take count, prize⟩] } := by
  simp only [raffleDraw, requireOrganizer, bind_eq_ok, ensure_eq_ok, exists_const, pure_eq_ok,
    Prod.mk.injEq]
  constructor
  · rintro ⟨horganizer, hstate, hcount, eligible, hpool, hne, rfl, rfl⟩
    exact ⟨horganizer, hstate, hcount, eligible, hpool, hne, rfl, rfl⟩
  · rintro ⟨horganizer, hstate, hcount, eligible, hpool, hne, rfl, rfl⟩
    exact ⟨horganizer, hstate, hcount, eligible, hpool, hne, rfl, rfl⟩

end Draw

/-- A draw of `count` players: different members of the pool, all of it when it is smaller. -/
structure DrawnFrom (eligible : List Uid) (count : ℕ) (winners : List Uid) : Prop where
  nodup : winners.Nodup
  subset : winners ⊆ eligible
  length : winners.length = min count eligible.length

theorem drawnFrom_shuffle {eligible : List Uid} (h : eligible.Nodup) (k count : ℕ)
    (seed : UInt64) : DrawnFrom eligible count ((lcgShuffle k seed eligible).take count) := by
  have hperm : (lcgShuffle k seed eligible).Perm eligible := lcgShuffle_perm k seed eligible
  have hsub : ((lcgShuffle k seed eligible).take count).Sublist (lcgShuffle k seed eligible) :=
    List.take_sublist _ _
  refine ⟨hsub.nodup (hperm.nodup_iff.2 h), fun _ hmem => hperm.subset (hsub.subset hmem), ?_⟩
  rw [List.length_take, hperm.length_eq]

/-! ### What an event does to the recorded draws -/

/-- The recorded draws after an accepted event. -/
inductive DrawStep (t : Tournament) (i : EventInput) : List RaffleDraw → Prop
  | kept : DrawStep t i t.raffles
  | undone : DrawStep t i t.raffles.dropLast
  | cleared : DrawStep t i []
  | drawn (label pool : String) (excludeDrawn : Bool) (count : ℕ) (seed : UInt64)
      (prize : Option Uid) (eligible winners : List Uid) :
      i.event = .raffleDraw label pool excludeDrawn count seed prize →
      rafflePool t i.sanctions pool excludeDrawn = .ok eligible →
      DrawnFrom eligible count winners →
      DrawStep t i (t.raffles ++ [⟨label, pool, winners, prize⟩])

section Steps

variable {rs : RandomSource} {t t' : Tournament} {i : EventInput} {ops : List DeckOp}

theorem raffles_updateStandings (t : Tournament) (s : List Sanction) :
    (updateStandings t s).raffles = t.raffles := by
  unfold updateStandings
  extract_lets refreshed
  split
  · rfl
  · unfold refreshFinalsScoring
    split
    · split <;> rfl
    · rfl

theorem raffles_of_effect (hquiet : i.event.isQuiet = false) (heff : Effect rs t i t') :
    t'.raffles = t.raffles := by
  cases heff with
  | quiet hq => simp [hq] at hquiet
  | setNonCompeting | finishRound | cancelRound | restoreRound | swapFinals | swapRound
  | reseatFinals | seatPlayer | unseatPlayer | scoreFinals | scoreTable | overrideFinals
  | overrideTable | unoverrideFinals | unoverrideTable | finishFinals | cancelFinals
  | finishTournament | reopenTournament => exact raffles_updateStandings _ _
  | reseatRound round seating tables =>
    rw [raffles_updateStandings]
    unfold alterSeatingDoc
    extract_lets reseated
    split <;> rfl
  | _ => rfl

theorem raffleDraw_drawStep {label pool : String} {excludeDrawn : Bool} {count : ℕ}
    {seed : UInt64} {prize : Option Uid}
    (he : i.event = .raffleDraw label pool excludeDrawn count seed prize)
    (h : raffleDraw t i.actor i.sanctions label pool excludeDrawn count seed prize =
      .ok (t', ops)) : DrawStep t i t'.raffles := by
  obtain ⟨-, -, -, eligible, hpool, -, -, rfl⟩ := raffleDraw_eq_ok.1 h
  exact .drawn label pool excludeDrawn count seed prize eligible _ he hpool
    (drawnFrom_shuffle (nodup_rafflePool hpool) _ _ _)

theorem drawStep_of_apply (h : applyEvent rs t i = .ok (t', ops)) : DrawStep t i t'.raffles := by
  cases he : i.event with
  | setPaymentStatus =>
    simp only [applyEvent, he, setPaymentStatus, bind_eq_ok, pure_eq_ok, Prod.mk.injEq] at h
    obtain ⟨-, -, -, -, -, -, rfl, -⟩ := h
    exact .kept
  | markAllPaid =>
    simp only [applyEvent, he, markAllPaid, bind_eq_ok, pure_eq_ok, Prod.mk.injEq] at h
    obtain ⟨-, -, rfl, -⟩ := h
    exact .kept
  | upsertDeck =>
    simp only [applyEvent, he, upsertDeck, requireOwnerOfPrivate, ensure_bind_eq_ok, pure_eq_ok,
      Prod.mk.injEq] at h
    obtain ⟨-, -, -, -, -, rfl, -⟩ := h
    exact .kept
  | deleteDeck =>
    simp only [applyEvent, he, deleteDeck, requireOwnerOfPrivate, ensure_bind_eq_ok, pure_eq_ok,
      Prod.mk.injEq] at h
    obtain ⟨-, -, -, -, -, rfl, -⟩ := h
    exact .kept
  | setDeckAttribution =>
    simp only [applyEvent, he, setDeckAttribution, ensure_bind_eq_ok, okOr_bind_eq_ok, pure_eq_ok,
      Prod.mk.injEq] at h
    obtain ⟨-, -, -, rfl, -⟩ := h
    exact .kept
  | setDeckPrivate =>
    simp only [applyEvent, he, setDeckPrivate, ensure_bind_eq_ok, okOr_bind_eq_ok, pure_eq_ok,
      Prod.mk.injEq] at h
    obtain ⟨-, -, -, -, rfl, -⟩ := h
    exact .kept
  | viewDeck =>
    simp only [applyEvent, he] at h
    rw [viewDeck_doc h]
    exact .kept
  | raffleDraw =>
    simp only [applyEvent, he] at h
    exact raffleDraw_drawStep he h
  | raffleUndo =>
    simp only [applyEvent, he, raffleUndo, requireOrganizer, ensure_bind_eq_ok, pure_eq_ok,
      Prod.mk.injEq] at h
    obtain ⟨-, -, rfl, -⟩ := h
    exact .undone
  | raffleClear =>
    simp only [applyEvent, he, raffleClear, requireOrganizer, ensure_bind_eq_ok, pure_eq_ok,
      Prod.mk.injEq] at h
    obtain ⟨-, rfl, -⟩ := h
    exact .cleared
  | reportPromos =>
    simp only [applyEvent, he, reportPromos, requireOrganizer, ensure_bind_eq_ok, pure_eq_ok,
      Prod.mk.injEq] at h
    obtain ⟨-, rfl, -⟩ := h
    exact .kept
  | updateConfig c =>
    simp only [applyEvent, he] at h
    rw [updateConfig_doc h, updateConfigDoc]
    split <;> exact .kept
  | _ =>
    have hquiet : i.event.isQuiet = false := by rw [he]; rfl
    rw [raffles_of_effect hquiet (effect_of_applyEvent h)]
    exact .kept

end Steps

/-! ### Runs -/

/-- A draw of this event leaves out who is recorded. -/
def TournamentEvent.excludesDrawn : TournamentEvent → Bool
  | .raffleDraw _ _ excludeDrawn _ _ _ => excludeDrawn
  | _ => true

/-- The draws a run recorded, after those of the start that are still there: nobody is in two of
them, nor in one of them and an earlier one. -/
def DrawnApart (start draws : List RaffleDraw) : Prop :=
  ∃ k drawn, draws = start.take k ++ drawn ∧ (drawnUids drawn).Nodup ∧
    ∀ uid ∈ drawnUids drawn, uid ∉ drawnUids (start.take k)

theorem DrawnApart.refl (start : List RaffleDraw) : DrawnApart start start :=
  ⟨start.length, [], by simp, List.nodup_nil, by simp [drawnUids]⟩

section Runs

variable {start draws : List RaffleDraw}

theorem drawnUids_append (a b : List RaffleDraw) :
    drawnUids (a ++ b) = drawnUids a ++ drawnUids b :=
  List.flatMap_append

theorem DrawnApart.dropLast (h : DrawnApart start draws) : DrawnApart start draws.dropLast := by
  obtain ⟨k, drawn, rfl, hnodup, hfree⟩ := h
  rcases List.eq_nil_or_concat drawn with rfl | ⟨first, last, rfl⟩
  · refine ⟨min ((start.take k).length - 1) k, [], ?_, List.nodup_nil, by simp [drawnUids]⟩
    rw [List.append_nil, List.append_nil, List.dropLast_eq_take, List.take_take]
  · rw [List.concat_eq_append] at hnodup hfree ⊢
    rw [drawnUids_append, List.nodup_append] at hnodup
    refine ⟨k, first, ?_, hnodup.1, fun uid hmem => hfree uid ?_⟩
    · rw [← List.append_assoc, List.dropLast_concat]
    · rw [drawnUids_append]
      exact List.mem_append_left _ hmem

theorem DrawnApart.draw (h : DrawnApart start draws) {draw : RaffleDraw}
    (hnodup : draw.winners.Nodup) (hfree : ∀ uid ∈ draw.winners, uid ∉ drawnUids draws) :
    DrawnApart start (draws ++ [draw]) := by
  obtain ⟨k, drawn, rfl, hdrawn, hearlier⟩ := h
  simp only [drawnUids_append, List.mem_append, not_or] at hfree
  have hwinners : drawnUids [draw] = draw.winners := by simp [drawnUids]
  refine ⟨k, drawn ++ [draw], List.append_assoc _ _ _, ?_, fun uid hmem => ?_⟩
  · rw [drawnUids_append, hwinners]
    refine List.nodup_append.2 ⟨hdrawn, hnodup, fun a ha b hb hab => ?_⟩
    exact (hfree b hb).2 (hab ▸ ha)
  · rw [drawnUids_append, hwinners] at hmem
    rcases List.mem_append.1 hmem with hmem | hmem
    · exact hearlier uid hmem
    · exact (hfree uid hmem).1

theorem DrawnApart.step {t : Tournament} {i : EventInput} (h : DrawnApart start t.raffles)
    (hexcludes : i.event.excludesDrawn = true) (hstep : DrawStep t i draws) :
    DrawnApart start draws := by
  cases hstep with
  | kept => exact h
  | undone => exact h.dropLast
  | cleared => exact ⟨0, [], rfl, List.nodup_nil, by simp [drawnUids]⟩
  | drawn label pool excludeDrawn count seed prize eligible winners he hpool hdrawn =>
    rw [he] at hexcludes
    obtain rfl : excludeDrawn = true := hexcludes
    exact h.draw hdrawn.nodup fun uid hmem =>
      notMem_drawn_of_pool hpool uid (hdrawn.subset hmem)

end Runs

/-- A draw records different members of the pool, as many as asked for or all of them. Along any
run whose draws leave out who is recorded, whatever happens between them, nobody is in two of the
recorded draws. -/
theorem raffle_draws_apart (rs : RandomSource) :
    (∀ (t t' : Tournament) (i : EventInput) (label pool : String) (excludeDrawn : Bool)
        (count : ℕ) (seed : UInt64) (prize : Option Uid),
      i.event = .raffleDraw label pool excludeDrawn count seed prize →
      acceptEvent rs t i = .ok t' →
      ∃ eligible winners, rafflePool t i.sanctions pool excludeDrawn = .ok eligible ∧
        t' = { t with raffles := t.raffles ++ [⟨label, pool, winners, prize⟩] } ∧
        DrawnFrom eligible count winners ∧
        (excludeDrawn = true → ∀ uid ∈ winners, uid ∉ drawnUids t.raffles)) ∧
    ∀ start t, ((engineSystem rs).startedAt start).Reaches
      (fun _ i => i.event.excludesDrawn = true) t → DrawnApart start.raffles t.raffles := by
  constructor
  · intro t t' i label pool excludeDrawn count seed prize he h
    obtain ⟨ops, h⟩ := acceptEvent_eq_ok.1 h
    simp only [applyEvent, he] at h
    obtain ⟨-, -, -, eligible, hpool, -, -, rfl⟩ := raffleDraw_eq_ok.1 h
    have hdrawn := drawnFrom_shuffle (nodup_rafflePool hpool) (eligible.length - 1) count seed
    refine ⟨eligible, _, hpool, rfl, hdrawn, fun hexcludes uid hmem => ?_⟩
    rw [hexcludes] at hpool
    exact notMem_drawn_of_pool hpool uid (hdrawn.subset hmem)
  · intro start t h
    refine h.invariant (P := fun s => DrawnApart start.raffles s.raffles) (fun s hs => ?_)
      fun s i s' hs hexcludes hstep => ?_
    · rw [show s = start from hs]
      exact DrawnApart.refl _
    · obtain ⟨ops, happly⟩ := acceptEvent_eq_ok.1 hstep
      exact hs.step hexcludes (drawStep_of_apply happly)

/-- Four players are checked in; two are drawn, the draw is undone, and three are drawn, one by
one and two at once. -/
def drawnEvents : List TournamentEvent :=
  gathering ["a", "b", "c", "d"] ++
    [.raffleDraw "First" "AllPlayers" true 2 7 none, .raffleUndo,
      .raffleDraw "First" "AllPlayers" true 1 11 none,
      .raffleDraw "Second" "NonFinalists" true 2 3 none]

theorem raffle_draws_apart_four :
    ∃ t : Tournament, (t.raffles.map fun d => d.winners.length) = [1, 2] ∧
      DrawnApart [] t.raffles := by
  obtain ⟨t, ht, hp⟩ := exists_reaches_from (fun _ i => i.event.excludesDrawn = true)
    (createdTournament plainRequest "organizer") (drawnEvents.map sent)
    (fun t => (t.raffles.map fun d => d.winners.length) == [1, 2]) (by decide +kernel)
  exact ⟨t, by simpa using hp, (raffle_draws_apart fixedOrder).2 _ t ht⟩

end Archon.Engine

import Archon.Engine.Configuration
import Archon.Engine.Scenario

/-!
# The stored configuration over runs

Rank and dates are checked on the merged view of an edit, so a sequence of partial edits keeps
them legal, and every edit of a Storyline tournament clears the decklist requirement and the marks
of those who owe one. The check that self-organized rounds come with open rounds reads the
submitted keys alone: an edit that carries one of the two keys can break what the other says.
-/

namespace Archon.Engine
open Guards Seating

section LegalConfig

variable {rs : RandomSource} {t t' : Tournament} {i : EventInput} {c : ConfigPatch}

/-! ### Rank, dates and Storyline -/

/-- The laws between configuration keys. -/
structure ConfigLegal (t : Tournament) : Prop where
  rank : RankLegal t
  dates : DatesOrdered t
  storyline : isStoryline t = true →
    t.flag .decklistRequired = false ∧ NobodyOwes t.players

theorem configLegal_created {request : CreateRequest} {actor : ActorContext}
    (h : createTournament request actor = .ok t) : ConfigLegal t := by
  have hdoc := createTournament_eq h
  simp only [createTournament, bind_eq_ok] at h
  obtain ⟨-, -, -, -, x, hrank, y, hdates, -⟩ := h
  rw [hdoc]
  refine ⟨?_, validateFinishAfterStart_ok hdates, fun hstory => ⟨?_, fun p hp => ?_⟩⟩
  · -- the default format is filled in after the check, which an empty rank has passed
    rw [RankLegal, validateRankLegality_ok]
    refine (validateRankLegality_ok.1 hrank).imp id fun hlegal => ⟨?_, hlegal.2⟩
    cases hf : (request.config.get .format).asStr with
    | some format =>
      have hformat : (createdTournament request actor.uid).text .format = format := by
        change (request.config.get .format).asStr.getD "Standard" = format
        rw [hf, Option.getD_some]
      rw [hformat]
      simpa [JsonValue.strOrEmpty, hf] using hlegal.1
    | none =>
      have hempty := hlegal.1
      simp [JsonValue.strOrEmpty, hf] at hempty
  · have hformat : (request.config.get .format).asStr.getD "Standard" = "Storyline" :=
      Option.some.inj (eq_of_beq hstory)
    change ((request.config.get .format).asStr.getD "Standard" != "Storyline"
      && (request.config.get .decklistRequired).boolOrFalse) = false
    rw [hformat]
    rfl
  · cases hp

theorem isStoryline_congr (h : t'.config = t.config) : isStoryline t' = isStoryline t := by
  rw [isStoryline, h, isStoryline]

theorem storyline_updateConfigDoc (h : isStoryline (updateConfigDoc t c) = true) :
    (updateConfigDoc t c).flag .decklistRequired = false ∧
      NobodyOwes (updateConfigDoc t c).players := by
  unfold updateConfigDoc at h ⊢
  extract_lets patched at h ⊢
  by_cases hs : isStoryline patched = true
  · rw [if_pos hs]
    exact ⟨rfl, List.forall_mem_map.2 fun _ _ => rfl⟩
  · rw [if_neg hs] at h
    exact absurd h hs

theorem ConfigLegal.step (h : ConfigLegal t) (hs : acceptEvent rs t i = .ok t') :
    ConfigLegal t' := by
  by_cases he : ∃ c, i.event = .updateConfig c
  · obtain ⟨c, he⟩ := he
    obtain ⟨-, rfl, hrank, hdates⟩ := updateConfig_ok he hs
    exact ⟨hrank h.rank, hdates h.dates, storyline_updateConfigDoc⟩
  · have hne : ∀ c, i.event ≠ .updateConfig c := fun c hc => he ⟨c, hc⟩
    have hconfig := config_of_accept hne hs
    have hvalue : ∀ f, t'.config f = t.config f := fun f => congrFun hconfig f
    refine ⟨?_, ?_, fun hstory => ?_⟩
    · simpa only [RankLegal, Tournament.text, Tournament.flag, hvalue] using h.rank
    · simpa only [DatesOrdered, Tournament.text, hvalue] using h.dates
    · obtain ⟨hflag, howes⟩ := h.storyline (isStoryline_congr hconfig ▸ hstory)
      refine ⟨?_, nobodyOwes_of_accept hne hflag hs howes⟩
      rw [Tournament.flag, hvalue]
      exact hflag

/-- Whatever the edits and the events between them, the stored configuration is legal. -/
theorem configLegal_of_reachable (h : (engineSystem rs).Reachable t) : ConfigLegal t := by
  refine h.invariant (fun t ht => ?_) fun t i t' hp hs => hp.step hs
  obtain ⟨request, actor, ht⟩ := ht
  exact configLegal_created ht

/-! ### Self-organized rounds -/

/-- Self-organized rounds come with open rounds. -/
def OpenWhenSelfOrganized (t : Tournament) : Prop :=
  t.flag .selfOrganizedRounds = true → t.flag .openRounds = true

instance (t : Tournament) : Decidable (OpenWhenSelfOrganized t) :=
  inferInstanceAs (Decidable (_ → _))

/-- A request for self-organized rounds asks for open rounds too. -/
def CreatesOpen (c : ConfigPatch) : Prop :=
  (c.get .selfOrganizedRounds).boolOrFalse = true → (c.get .openRounds).boolOrFalse = true

/-- An edit that asks for self-organized rounds asks for open rounds or finds them open, and an
edit of open rounds alone leaves them open under self-organized rounds. -/
def EditKeepsOpen (t : Tournament) (c : ConfigPatch) : Prop :=
  if c.hasKey .selfOrganizedRounds = true then
    (c.get .selfOrganizedRounds).boolOrFalse = true →
      if c.hasKey .openRounds = true then (c.get .openRounds).boolOrFalse = true
      else t.flag .openRounds = true
  else
    c.hasKey .openRounds = true → t.flag .selfOrganizedRounds = true →
      (c.get .openRounds).boolOrFalse = true

instance (c : ConfigPatch) : Decidable (CreatesOpen c) := inferInstanceAs (Decidable (_ → _))

instance (t : Tournament) (c : ConfigPatch) : Decidable (EditKeepsOpen t c) := by
  unfold EditKeepsOpen
  infer_instance

def KeepsOpen (t : Tournament) (i : EventInput) : Prop :=
  match i.event with
  | .updateConfig c => EditKeepsOpen t c
  | _ => True

instance (t : Tournament) (i : EventInput) : Decidable (KeepsOpen t i) := by
  unfold KeepsOpen
  generalize i.event = e
  induction e using TournamentEvent.casesOn <;> infer_instance

theorem openWhenSelfOrganized_created {request : CreateRequest} {actor : ActorContext}
    (h : createTournament request actor = .ok t) :
    OpenWhenSelfOrganized t ↔ CreatesOpen request.config := by
  rw [createTournament_eq h]
  rfl

theorem openWhenSelfOrganized_updateConfigDoc (h : OpenWhenSelfOrganized t) :
    OpenWhenSelfOrganized (updateConfigDoc t c) ↔ EditKeepsOpen t c := by
  have hflag : ∀ f, f ≠ .decklistRequired → (updateConfigDoc t c).flag f =
      if c.hasKey f = true then (c.get f).boolOrFalse else t.flag f := by
    intro f hf
    rw [Tournament.flag, updateConfigDoc_config hf, mergedValue]
    split <;> rfl
  rw [OpenWhenSelfOrganized, hflag .selfOrganizedRounds (by decide), hflag .openRounds (by decide),
    EditKeepsOpen]
  by_cases hself : c.hasKey .selfOrganizedRounds = true
  · simp only [hself, if_true]
    by_cases hopen : c.hasKey .openRounds = true <;> simp [hopen]
  · simp only [hself, Bool.false_eq_true, if_false]
    by_cases hopen : c.hasKey .openRounds = true
    · simp [hopen]
    · simp only [hopen, Bool.false_eq_true, if_false, false_implies, iff_true]
      exact h

/-- Started from a request that asks for open rounds with self-organized ones, every run whose
edits meet the condition keeps them together. -/
theorem openWhenSelfOrganized_of_reaches {request : CreateRequest} {actor : ActorContext}
    (hcreated : createTournament request actor = .ok t) (hrequest : CreatesOpen request.config)
    (h : ((engineSystem rs).startedAt t).Reaches KeepsOpen t') : OpenWhenSelfOrganized t' := by
  refine h.invariant (fun t ht => ?_) fun t i t' hp hok hs => ?_
  · obtain rfl : t = _ := ht
    exact (openWhenSelfOrganized_created hcreated).2 hrequest
  · have hs' : acceptEvent rs t i = .ok t' := hs
    by_cases he : ∃ c, i.event = .updateConfig c
    · obtain ⟨c, he⟩ := he
      simp only [KeepsOpen, he] at hok
      obtain ⟨-, rfl, -⟩ := updateConfig_ok he hs'
      exact (openWhenSelfOrganized_updateConfigDoc hp).2 hok
    · have hvalue : ∀ f, t'.config f = t.config f :=
        congrFun (config_of_accept (fun c hc => he ⟨c, hc⟩) hs')
      simpa only [OpenWhenSelfOrganized, Tournament.flag, hvalue] using hp

end LegalConfig

/-! ### Edits of single keys -/

/-- An edit of one key. -/
def editOf (f : ConfigField) (v : JsonValue) : TournamentEvent :=
  .updateConfig fun g => if g = f then some v else none

/-- A decklist is required, the format becomes Storyline, and the requirement is asked for again. -/
def storylineEdits : List TournamentEvent :=
  [editOf .decklistRequired (.boolean true), editOf .format (.text "Storyline"),
    editOf .decklistRequired (.boolean true)]

theorem storylineEdits_configLegal :
    ∃ t, isStoryline t = true ∧ ConfigLegal t := by
  obtain ⟨t, ht, hp⟩ := exists_reaches_of_replay anyEvent (storylineEdits.map sent) isStoryline
    (by decide +kernel)
  exact ⟨t, hp, configLegal_of_reachable ht⟩

/-- Open rounds first, then self-organized ones. -/
def openedFirst : List TournamentEvent :=
  [editOf .openRounds (.boolean true), editOf .selfOrganizedRounds (.boolean true)]

theorem openedFirst_openWhenSelfOrganized :
    ∃ t, t.flag .selfOrganizedRounds = true ∧ OpenWhenSelfOrganized t := by
  have hcreated : createTournament plainRequest organizer =
      .ok (createdTournament plainRequest "organizer") := by rfl
  obtain ⟨t, ht, hp⟩ := exists_reaches_from KeepsOpen
    (createdTournament plainRequest "organizer") (openedFirst.map sent)
    (fun t => t.flag .selfOrganizedRounds) (by decide +kernel)
  exact ⟨t, hp, openWhenSelfOrganized_of_reaches hcreated (by decide) ht⟩

/-- Self-organized rounds asked for alone, over the default of closed rounds. -/
theorem selfOrganizedAlone_not_openWhenSelfOrganized :
    ∃ t, (engineSystem fixedOrder).Reachable t ∧ ¬OpenWhenSelfOrganized t := by
  obtain ⟨t, ht, hp⟩ := exists_reaches_of_replay anyEvent
    ([editOf .selfOrganizedRounds (.boolean true)].map sent)
    (fun t => !decide (OpenWhenSelfOrganized t)) (by decide +kernel)
  exact ⟨t, ht, by simpa using hp⟩

end Archon.Engine

import Archon.Library.Runs
import Archon.Engine.Administration

/-!
# Processing events (`tournament/mod.rs:325-436`)

The dispatch of an event to its handler, the publication pass over the decks of a finished
tournament, and the transition system of the documents the engine can produce.
-/

namespace Archon.Engine
open Guards Seating

/-- An event with what its caller passes along. -/
structure EventInput where
  event : TournamentEvent
  actor : ActorContext
  sanctions : List Sanction
  decks : List DeckObject

section Engine

variable (rs : RandomSource)

/-- `mod.rs:425`. -/
def applyEvent (t : Tournament) (i : EventInput) : Outcome :=
  let a := i.actor
  let s := i.sanctions
  let d := i.decks
  match i.event with
  | .openRegistration => openRegistration t a
  | .closeRegistration => closeRegistration t a
  | .cancelRegistration => cancelRegistration t a
  | .reopenRegistration => reopenRegistration t a
  | .reopenTournament => reopenTournament t a s
  | .finishTournament => finishTournament t a s
  | .register uid veknId name => register t a s uid veknId name
  | .unregister uid => unregister t a d uid
  | .addPlayer uid veknId name waitlist => addPlayer t a s d uid veknId name waitlist
  | .removePlayer uid => removePlayer t a d uid
  | .dropOut uid => dropOut t a uid
  | .checkIn uid veknId name => checkIn t a s d uid veknId name
  | .checkOut uid => checkOut t a uid
  | .checkInAll => checkInAll t a s
  | .resetCheckIn => resetCheckIn t a
  | .setPaymentStatus uid status => setPaymentStatus t a uid status
  | .markAllPaid => markAllPaid t a
  | .setNonCompeting uid nonCompeting => setNonCompeting t a s uid nonCompeting
  | .setWaitlisted uid waitlisted => setWaitlisted t a uid waitlisted
  | .startRound seating => startRound rs t a d seating
  | .finishRound round => finishRound t a s round
  | .cancelRound round => cancelRound t a s d round
  | .restoreRound round => restoreRound t a s round
  | .selfOrganizeRound uids => selfOrganizeRound rs t a d uids
  | .swapSeats round t1 s1 t2 s2 => swapSeats t a s round t1 s1 t2 s2
  | .seatPlayer uid table seat round => seatPlayer t a s d uid table seat round
  | .unseatPlayer uid round => unseatPlayer t a s d uid round
  | .addTable => addTable t a
  | .removeTable table => removeTable t a table
  | .setScore round table scores => setScore t a s round table scores
  | .override round table comment => override t a s round table comment
  | .unoverride round table => unoverride t a s round table
  | .setToss uid toss => setToss t a uid toss
  | .randomToss => randomToss t a s
  | .startFinals => startFinals t a s d
  | .finishFinals => finishFinals t a s
  | .cancelFinals => cancelFinals t a s d
  | .alterSeating round seating => alterSeating t a s d round seating
  | .upsertDeck uid deck multideck => upsertDeck t a d uid deck multideck
  | .deleteDeck uid index multideck => deleteDeck t a d uid index multideck
  | .setDeckAttribution uid round attribution => setDeckAttribution t a d uid round attribution
  | .setDeckPrivate uid round isPrivate => setDeckPrivate t a d uid round isPrivate
  | .viewDeck uid round => viewDeck t a d uid round
  | .raffleDraw label pool excludeDrawn count seed prize =>
    raffleDraw t a s label pool excludeDrawn count seed prize
  | .raffleUndo => raffleUndo t a
  | .raffleClear => raffleClear t a
  | .reportPromos promos source => reportPromos t a promos source
  | .updateConfig config => updateConfig t a config
  | .setArchivalResults sheet => setArchivalResults t a sheet

/-- `mod.rs:325`. -/
def processTournamentEvent (t : Tournament) (i : EventInput) : Outcome := do
  let r ← applyEvent rs t i
  let published :=
    if t.state = .finished ∨ r.1.state = .finished then recomputeDeckPublication r.1 i.decks r.2
    else []
  pure (r.1, r.2 ++ published)

/-- The document after an accepted event. -/
def acceptEvent (t : Tournament) (i : EventInput) : Except EngineError Tournament := do
  let r ← processTournamentEvent rs t i
  pure r.1

/-- The documents the engine produces: created, then changed by accepted events. -/
def engineSystem : System Tournament EventInput where
  init t := ∃ request actor, createTournament request actor = .ok t
  step t i t' := acceptEvent rs t i = .ok t'

variable {rs}

theorem acceptEvent_eq_ok {t t' : Tournament} {i : EventInput} :
    acceptEvent rs t i = .ok t' ↔ ∃ ops, applyEvent rs t i = .ok (t', ops) := by
  simp only [acceptEvent, processTournamentEvent, bind_eq_ok, pure_eq_ok]
  constructor
  · rintro ⟨r, ⟨a, ha, rfl⟩, rfl⟩
    exact ⟨a.2, ha⟩
  · rintro ⟨ops, h⟩
    exact ⟨_, ⟨_, h, rfl⟩, rfl⟩

theorem createTournament_eq {request : CreateRequest} {actor : ActorContext} {t : Tournament}
    (h : createTournament request actor = .ok t) : t = createdTournament request actor.uid := by
  simp only [createTournament, bind_eq_ok, pure_eq_ok] at h
  obtain ⟨-, -, -, -, -, -, -, -, -, -, -, -, rfl⟩ := h
  rfl

end Engine

end Archon.Engine

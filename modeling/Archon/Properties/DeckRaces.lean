import Archon.Backend.DeckPasses
import Archon.Properties.DeckSlots

/-!
# Two requests at once

Two action requests on one tournament, each a transaction under the lock and then a pass over the
decks outside it. If no transaction reads decks that the other request is still to save, the live
decks end as after the two requests one by one.
-/

namespace Archon.Backend
open Engine Guards

/-! ### A request under way -/

inductive Phase where
  | queued
  /-- The transaction is through, the decks are not read yet. -/
  | committed (ops : List DeckOp)
  | running (p : Pass)

/-- `decks.py:52-54`. -/
def readPass (objects : Objects) (tournamentUid : Uid) (ops : List DeckOp) : Pass :=
  ⟨getDecksForTournament objects tournamentUid, 0, [], false, ops⟩

def Phase.holds : Phase → Bool
  | .running p => p.holds
  | _ => false

def Phase.isQueued : Phase → Bool
  | .queued => true
  | _ => false

def Phase.isDone : Phase → Bool
  | .queued => false
  | .committed ops => ops.isEmpty
  | .running p => p.saves.isEmpty && p.ops.isEmpty

structure RaceState where
  doc : Tournament
  objects : Objects
  phases : Bool → Phase

def RaceState.to (s : RaceState) (b : Bool) (phase : Phase) : RaceState :=
  { s with phases := Function.update s.phases b phase }

section Race

variable (rs : Seating.RandomSource) (tournamentUid : Uid) (requests : Bool → DeckRequest)

/-- The transaction of a request: the engine runs on the decks of the table. -/
def transact (s : RaceState) (b : Bool) : RaceState :=
  match processTournamentEvent rs s.doc ((requests b).input s.objects tournamentUid) with
  | .ok r => { s with doc := r.1 }.to b (.committed r.2)
  | .error _ => s.to b (.committed [])

/-- One move of the pass of a request. -/
def passMove (s : RaceState) (b : Bool) (p : Pass) : Option RaceState :=
  match p.saves, p.ops with
  | d :: saves, _ =>
    some ({ s with objects := saveDeck s.objects d }.to b
      (.running { p with saves, holds := false }))
  | [], op :: ops =>
    if isView op = true ∧ (s.phases !b).holds = true then none
    else some (s.to b (.running (p.start (requests b).env tournamentUid s.objects op ops)))
  | [], [] => none

/-- One move of a request. A transaction and a logged view wait for the lock. -/
def raceStep (s : RaceState) (b : Bool) : Option RaceState :=
  match s.phases b with
  | .queued => if (s.phases !b).holds = true then none
    else some (transact rs tournamentUid requests s b)
  | .committed [] => none
  | .committed (op :: ops) => some (s.to b (.running
    (readPass s.objects tournamentUid (op :: ops))))
  | .running p => passMove tournamentUid requests s b p

/-- New decks get uids of their own. -/
structure OwnUids (objects : Objects) : Prop where
  unused : ∀ b k, objects.lookup ((requests b).env.freshUid k) = none
  injective : ∀ b, Function.Injective (requests b).env.freshUid
  apart : ∀ k j, (requests true).env.freshUid k ≠ (requests false).env.freshUid j

/-- Any interleaving of the two requests. -/
def raceSystem : System RaceState Bool where
  init s := WellKeyed s.objects ∧ OwnUids requests s.objects ∧ ∀ b, s.phases b = .queued
  step s b s' := raceStep rs tournamentUid requests s b = some s'

/-- A request alone: the event and then its deck operations, if it is accepted. -/
def runAlone (s : DeckState) (c : DeckRequest) : DeckState :=
  match processTournamentEvent rs s.doc (c.input s.objects tournamentUid) with
  | .ok r => ⟨r.1, processDeckOps c.env s.objects tournamentUid r.2⟩
  | .error _ => s

/-- The request `b` first, then the other. -/
def oneByOne (s : DeckState) (b : Bool) : DeckState :=
  runAlone rs tournamentUid (runAlone rs tournamentUid s (requests b)) (requests !b)

end Race

/-- The players whose decks an operation may save. -/
def opPlayers (objects : Objects) : DeckOp → List Uid
  | .upsert playerUid .. | .delete playerUid .. => [playerUid]
  | .setRound deckUid _ | .setPublication deckUid .. | .setAttribution deckUid ..
  | .setPrivate deckUid _ | .logView deckUid .. =>
    (((objects.find? deckUid).bind StoredObject.asDeck).map fun d => d.userUid).toList

/-- The players whose decks a request is still to save. -/
def Phase.players (objects : Objects) : Phase → List Uid
  | .queued => []
  | .committed ops => ops.flatMap (opPlayers objects)
  | .running p => p.saves.map (fun d => d.userUid) ++ p.ops.flatMap (opPlayers objects)

/-- No transaction reads decks of players whose decks the other request is still to save. -/
def ReadsSettled (requests : Bool → DeckRequest) (s : RaceState) (b : Bool) : Prop :=
  (s.phases b).isQueued = true → ∀ uid ∈ (s.phases !b).players s.objects,
    readsDecksOf s.doc (requests b).event uid = false

instance (requests : Bool → DeckRequest) (s : RaceState) (b : Bool) :
    Decidable (ReadsSettled requests s b) :=
  inferInstanceAs (Decidable (_ → ∀ uid ∈ (s.phases !b).players s.objects, _ = false))

def SameDecks (tournamentUid : Uid) (objects objects' : Objects) : Prop :=
  ∀ d, d ∈ getDecksForTournament objects tournamentUid ↔
    d ∈ getDecksForTournament objects' tournamentUid

/-! ### Phases run alone -/

/-- The pass left in a phase, the decks being read now where they are not yet. -/
def Phase.pass (objects : Objects) (tournamentUid : Uid) : Phase → Pass
  | .queued => readPass objects tournamentUid []
  | .committed ops => readPass objects tournamentUid ops
  | .running p => p

section Phases

variable {env : Env} {tournamentUid : Uid} {objects : Objects} {who other : Uid → Bool}
  {phase : Phase} {x : StoredDeck}

/-- The table once the request is through, run alone. -/
def Phase.finish (env : Env) (tournamentUid : Uid) (objects : Objects) (phase : Phase) : Objects :=
  (phase.pass objects tournamentUid).finish env tournamentUid objects

/-- What is left of the request is sound. -/
def Phase.Sound (who : Uid → Bool) (env : Env) (tournamentUid : Uid) (objects : Objects)
    (phase : Phase) : Prop :=
  (phase.pass objects tournamentUid).Sound who env objects

theorem sound_readPass {ops : List DeckOp} (hkeyed : WellKeyed objects)
    (hops : ∀ op ∈ ops, OnPlayers who objects op)
    (hfresh : ∀ k, objects.lookup (env.freshUid k) = none) :
    (readPass objects tournamentUid ops).Sound who env objects where
  keyed := hkeyed
  read d hd := onRow_of_mem hkeyed hd
  mine d hd := absurd hd List.not_mem_nil
  saves := .inl fun d hd => absurd hd List.not_mem_nil
  ops := hops
  fresh k _ := hfresh k

theorem Phase.Sound.apart (h : phase.Sound who env tournamentUid objects) (hx : Admits objects x)
    (huid : OnRow objects x ∨ ∀ k, x.uid ≠ env.freshUid k) :
    phase.Sound who env tournamentUid (saveDeck objects x) := by
  have hkept := Pass.Sound.apart h hx huid
  cases phase with
  | running p => exact hkept
  | queued => exact sound_readPass hkept.keyed hkept.ops fun k => hkept.fresh k (Nat.zero_le k)
  | committed ops =>
    exact sound_readPass hkept.keyed hkept.ops fun k => hkept.fresh k (Nat.zero_le k)

theorem Phase.Sound.finish_apart (hinj : Function.Injective env.freshUid)
    (h : phase.Sound who env tournamentUid objects) (hx : Admits objects x)
    (huid : OnRow objects x ∨ ∀ k, x.uid ≠ env.freshUid k) (hwho : who x.userUid = false) :
    decksOf who (phase.finish env tournamentUid (saveDeck objects x)) tournamentUid =
      decksOf who (phase.finish env tournamentUid objects) tournamentUid := by
  have hkeyed : WellKeyed objects := Pass.Sound.keyed h
  have hsame : decksOf who (saveDeck objects x) tournamentUid =
      decksOf who objects tournamentUid := decksOf_saveDeck_other hkeyed hx hwho
  refine Pass.Sound.finish_congr hinj (h.apart hx huid) h ?_ hsame
  cases phase with
  | running p => exact ⟨rfl, rfl, rfl, rfl⟩
  | queued => exact ⟨hsame, rfl, rfl, rfl⟩
  | committed ops => exact ⟨hsame, rfl, rfl, rfl⟩

theorem Phase.finish_done (hdone : phase.isDone = true) :
    phase.finish env tournamentUid objects = objects := by
  cases phase with
  | queued => cases hdone
  | committed ops => exact Backend.finish_done rfl (List.isEmpty_iff.1 hdone)
  | running p =>
    obtain ⟨hsaves, hops⟩ := Bool.and_eq_true_iff.1 hdone
    exact Backend.finish_done (List.isEmpty_iff.1 hsaves) (List.isEmpty_iff.1 hops)

/-! ### Moves of a pass -/

/-- A move that saves nothing. -/
structure Looks (env : Env) (tournamentUid : Uid) (objects : Objects) (phase phase' : Phase) :
    Prop where
  finish : phase'.finish env tournamentUid objects = phase.finish env tournamentUid objects
  sound : ∀ who, phase.Sound who env tournamentUid objects →
    phase'.Sound who env tournamentUid objects

/-- A move that saves the deck `x`. -/
structure SavesOne (env : Env) (tournamentUid : Uid) (objects : Objects) (phase phase' : Phase)
    (x : StoredDeck) : Prop where
  finish : phase'.finish env tournamentUid (saveDeck objects x) =
    phase.finish env tournamentUid objects
  sound : ∀ who, phase.Sound who env tournamentUid objects →
    phase'.Sound who env tournamentUid (saveDeck objects x)
  admits : ∀ who, phase.Sound who env tournamentUid objects → Admits objects x
  named : ∀ who, phase.Sound who env tournamentUid objects →
    OnRow objects x ∨ ∃ k, x.uid = env.freshUid k
  mine : ∀ who, phase.Sound who env tournamentUid objects → who x.userUid = true

theorem raceStep_cases {rs : Seating.RandomSource} {requests : Bool → DeckRequest}
    {s s' : RaceState} {b : Bool} (hinj : Function.Injective (requests b).env.freshUid)
    (hqueued : s.phases b ≠ .queued) (h : raceStep rs tournamentUid requests s b = some s') :
    ∃ phase', phase' ≠ .queued ∧ s'.doc = s.doc ∧
      s'.phases = Function.update s.phases b phase' ∧
      ((s'.objects = s.objects ∧
          Looks (requests b).env tournamentUid s.objects (s.phases b) phase') ∨
        ∃ x, s'.objects = saveDeck s.objects x ∧
          SavesOne (requests b).env tournamentUid s.objects (s.phases b) phase' x) := by
  unfold raceStep at h
  cases hphase : s.phases b with
  | queued => exact absurd hphase hqueued
  | committed ops =>
    rw [hphase] at h
    cases ops with
    | nil => cases h
    | cons op ops =>
      cases h
      exact ⟨_, Phase.noConfusion, rfl, rfl, .inl ⟨rfl, rfl, fun _ hsound => hsound⟩⟩
  | running p =>
    rw [hphase] at h
    dsimp only at h
    unfold passMove at h
    cases hsaves : p.saves with
    | cons x saves =>
      rw [hsaves] at h
      cases h
      refine ⟨_, Phase.noConfusion, rfl, rfl, .inr ⟨x, rfl, finish_next hsaves, ?_, ?_, ?_, ?_⟩⟩
      · exact fun who hsound => Pass.Sound.next hsound hinj hsaves
      · exact fun who hsound => Pass.Sound.admits hsound hsaves
      · intro who hsound
        rcases Pass.Sound.named hsound hsaves with hrow | ⟨k, -, huid⟩
        · exact .inl hrow
        · exact .inr ⟨k, huid⟩
      · exact fun who hsound => Pass.Sound.mine hsound x (hsaves ▸ List.mem_cons_self ..)
    | nil =>
      cases hops : p.ops with
      | nil =>
        rw [hsaves, hops] at h
        cases h
      | cons op ops =>
        rw [hsaves, hops] at h
        dsimp only at h
        split at h
        · cases h
        · cases h
          exact ⟨_, Phase.noConfusion, rfl, rfl, .inl ⟨rfl, finish_start hsaves hops,
            fun who hsound => Pass.Sound.start hsound hops⟩⟩

end Phases

/-! ### Both under way -/

section Runs

variable {rs : Seating.RandomSource} {tournamentUid : Uid} {requests : Bool → DeckRequest}
  {s s' : RaceState} {b c : Bool} {objects final : Objects} {who : Bool → Uid → Bool}
  {start : DeckState}

theorem OwnUids.ne (h : OwnUids requests objects) (c : Bool) (k j : ℕ) :
    (requests c).env.freshUid k ≠ (requests !c).env.freshUid j := by
  cases c with
  | true => exact h.apart k j
  | false => exact (h.apart j k).symm

/-- What is known of the players of neither request. -/
def neither (who : Bool → Uid → Bool) (uid : Uid) : Bool := !who true uid && !who false uid

theorem neither_of_who (h : who c uid = true) : neither who uid = false := by
  unfold neither
  cases c with
  | true => rw [h, Bool.not_true, Bool.false_and]
  | false => rw [h, Bool.not_true, Bool.and_false]

/-- Both transactions are through, on players apart, and each pass alone ends with the decks of its
players as they finally are. -/
structure BothUnderWay (tournamentUid : Uid) (requests : Bool → DeckRequest) (final : Objects)
    (who : Bool → Uid → Bool) (s : RaceState) : Prop where
  apart : ∀ c uid, who c uid = true → who (!c) uid = false
  started : ∀ c, s.phases c ≠ .queued
  sound : ∀ c, (s.phases c).Sound (who c) (requests c).env tournamentUid s.objects
  finish : ∀ c, decksOf (who c) ((s.phases c).finish (requests c).env tournamentUid s.objects)
    tournamentUid = decksOf (who c) final tournamentUid
  others : decksOf (neither who) s.objects tournamentUid =
    decksOf (neither who) final tournamentUid

theorem BothUnderWay.step (hown : OwnUids requests objects)
    (h : BothUnderWay tournamentUid requests final who s)
    (hstep : raceStep rs tournamentUid requests s c = some s') :
    BothUnderWay tournamentUid requests final who s' := by
  obtain ⟨phase, hphase, -, hphases, hmove⟩ :=
    raceStep_cases (hown.injective c) (h.started c) hstep
  have hsame : s'.phases c = phase := by rw [hphases, Function.update_self]
  have hother : s'.phases (!c) = s.phases !c := by
    rw [hphases, Function.update_of_ne (by simp)]
  have hboth : ∀ {P : Bool → Prop}, P c → P (!c) → ∀ e, P e :=
    fun hc hnot => (Bool.forall_bool' c).2 ⟨hc, hnot⟩
  have hstarted : ∀ e, s'.phases e ≠ .queued :=
    hboth (hsame ▸ hphase) (hother ▸ h.started !c)
  rcases hmove with ⟨hobjects, hlooks⟩ | ⟨x, hobjects, hsaves⟩
  · refine ⟨h.apart, hstarted, hboth ?_ ?_, hboth ?_ ?_, ?_⟩
    · rw [hsame, hobjects]
      exact hlooks.sound _ (h.sound c)
    · rw [hother, hobjects]
      exact h.sound !c
    · rw [hsame, hobjects, hlooks.finish]
      exact h.finish c
    · rw [hother, hobjects]
      exact h.finish !c
    · rw [hobjects]
      exact h.others
  · have hkeyed : WellKeyed s.objects := Pass.Sound.keyed (h.sound c)
    have hadmits := hsaves.admits _ (h.sound c)
    have hmine := hsaves.mine _ (h.sound c)
    have huid : OnRow s.objects x ∨ ∀ k, x.uid ≠ (requests !c).env.freshUid k := by
      rcases hsaves.named _ (h.sound c) with hrow | ⟨k, hk⟩
      · exact .inl hrow
      · exact .inr fun j => hk ▸ hown.ne c k j
    refine ⟨h.apart, hstarted, hboth ?_ ?_, hboth ?_ ?_, ?_⟩
    · rw [hsame, hobjects]
      exact hsaves.sound _ (h.sound c)
    · rw [hother, hobjects]
      exact (h.sound !c).apart hadmits huid
    · rw [hsame, hobjects, hsaves.finish]
      exact h.finish c
    · rw [hother, hobjects, (h.sound !c).finish_apart (hown.injective !c) hadmits huid
        (h.apart c _ hmine)]
      exact h.finish !c
    · rw [hobjects, decksOf_saveDeck_other hkeyed hadmits (neither_of_who hmine)]
      exact h.others

theorem BothUnderWay.sameDecks (h : BothUnderWay tournamentUid requests final who s)
    (hdone : ∀ c, (s.phases c).isDone = true) : SameDecks tournamentUid s.objects final := by
  have hmem : ∀ (w : Uid → Bool) (table : Objects) (d : StoredDeck), w d.userUid = true →
      (d ∈ getDecksForTournament table tournamentUid ↔ d ∈ decksOf w table tournamentUid) := by
    intro w table d hw
    rw [decksOf, List.mem_filter, and_iff_left hw]
  have hmine : ∀ c, decksOf (who c) s.objects tournamentUid =
      decksOf (who c) final tournamentUid := by
    intro c
    have hc := h.finish c
    rwa [Phase.finish_done (hdone c)] at hc
  intro d
  by_cases hd : ∃ c, who c d.userUid = true
  · obtain ⟨c, hc⟩ := hd
    rw [hmem _ _ d hc, hmem _ _ d hc, hmine c]
  · push Not at hd
    have hneither : neither who d.userUid = true := by
      simp [neither, hd true, hd false]
    rw [hmem _ _ d hneither, hmem _ _ d hneither, h.others]

/-! ### The second transaction -/

theorem onPlayers_of_opPlayers {op : DeckOp} {list : List Uid}
    (h : OnPlayers (fun _ => true) objects op) (hlist : ∀ uid ∈ opPlayers objects op, uid ∈ list) :
    OnPlayers (fun uid => list.contains uid) objects op := by
  have hrow : ∀ deckUid, (∃ e, objects.find? deckUid = some (.deck e) ∧ true = true) →
      (∀ uid ∈ (((objects.find? deckUid).bind StoredObject.asDeck).map fun d => d.userUid).toList,
        uid ∈ list) →
      ∃ e, objects.find? deckUid = some (.deck e) ∧ list.contains e.userUid = true := by
    rintro deckUid ⟨e, he, -⟩ hall
    refine ⟨e, he, List.contains_iff_mem.2 (hall e.userUid ?_)⟩
    rw [he]
    exact List.mem_singleton_self _
  cases op with
  | upsert | delete => exact List.contains_iff_mem.2 (hlist _ (List.mem_singleton_self _))
  | _ => exact hrow _ h hlist

theorem Phase.Sound.players {env : Env} {phase : Phase} (hqueued : phase ≠ .queued)
    (h : phase.Sound (fun _ => true) env tournamentUid objects) :
    phase.Sound (fun uid => (phase.players objects).contains uid) env tournamentUid objects := by
  cases phase with
  | queued => exact absurd rfl hqueued
  | committed ops =>
    refine { h with mine := fun d hd => absurd hd List.not_mem_nil, ops := fun op hop => ?_ }
    exact onPlayers_of_opPlayers (Pass.Sound.ops h op hop) fun uid huid =>
      List.mem_flatMap.2 ⟨op, hop, huid⟩
  | running p =>
    refine { h with mine := fun d hd => ?_, ops := fun op hop => ?_ }
    · exact List.contains_iff_mem.2 (List.mem_append_left _ (List.mem_map_of_mem hd))
    · exact onPlayers_of_opPlayers (Pass.Sound.ops h op hop) fun uid huid =>
        List.mem_append_right _ (List.mem_flatMap.2 ⟨op, hop, huid⟩)

theorem onPlayers_of_event {doc : Tournament} {request : DeckRequest}
    {r : Tournament × List DeckOp} (hkeyed : WellKeyed objects)
    (h : processTournamentEvent rs doc (request.input objects tournamentUid) = .ok r) :
    ∀ op ∈ r.2, OnPlayers (readsDecksOf doc request.event) objects op := by
  intro op hop
  have hconcerns := concerns_of_event h op hop
  have hrow : ∀ deckUid, (∃ d ∈ engineDecks objects tournamentUid, d.uid = deckUid ∧
      readsDecksOf doc request.event d.userUid = true) →
      ∃ e, objects.find? deckUid = some (.deck e) ∧
        readsDecksOf doc request.event e.userUid = true := by
    rintro deckUid ⟨d, hd, rfl, hread⟩
    obtain ⟨e, he, rfl⟩ := List.mem_map.1 hd
    exact ⟨e, ((mem_getDecksForTournament hkeyed).1 he).1, hread⟩
  cases op with
  | upsert | delete => exact hconcerns
  | _ => exact hrow _ hconcerns

theorem input_ops_congr (rs : Seating.RandomSource) {doc : Tournament} {request : DeckRequest}
    {objects' : Objects}
    (h : decksOf (readsDecksOf doc request.event) objects tournamentUid =
      decksOf (readsDecksOf doc request.event) objects' tournamentUid) :
    Outcome.ops (processTournamentEvent rs doc (request.input objects tournamentUid)) =
      Outcome.ops (processTournamentEvent rs doc (request.input objects' tournamentUid)) := by
  refine event_ops_congr ?_
  have hfilter : ∀ table : Objects, (engineDecks table tournamentUid).filter
      (fun d => readsDecksOf doc request.event d.userUid) =
      (decksOf (readsDecksOf doc request.event) table tournamentUid).map
        StoredDeck.toDeckObject := fun table => List.filter_map ..
  rw [hfilter, hfilter, h]

theorem transact_eq (rs : Seating.RandomSource) (tournamentUid : Uid) {table : Objects}
    (hkeyed : WellKeyed s.objects) (htable : WellKeyed table)
    (hsame : decksOf (readsDecksOf s.doc (requests c).event) s.objects tournamentUid =
      decksOf (readsDecksOf s.doc (requests c).event) table tournamentUid) :
    ∃ doc ops, transact rs tournamentUid requests s c = { s with doc }.to c (.committed ops) ∧
      (∀ op ∈ ops, OnPlayers (readsDecksOf s.doc (requests c).event) s.objects op) ∧
      (∀ op ∈ ops, OnPlayers (readsDecksOf s.doc (requests c).event) table op) ∧
      (runAlone rs tournamentUid ⟨s.doc, table⟩ (requests c)).objects =
        (Phase.committed ops).finish (requests c).env tournamentUid table ∧
      (table = s.objects → (runAlone rs tournamentUid ⟨s.doc, table⟩ (requests c)).doc = doc) := by
  have hops := input_ops_congr rs hsame
  unfold transact runAlone
  cases hevent : processTournamentEvent rs s.doc ((requests c).input s.objects tournamentUid) with
  | error e =>
    cases halone : processTournamentEvent rs s.doc ((requests c).input table tournamentUid) with
    | ok r =>
      rw [hevent, halone] at hops
      cases hops
    | error e' =>
      refine ⟨s.doc, [], rfl, ?_, ?_, ?_, fun _ => rfl⟩
      · exact fun op hop => absurd hop List.not_mem_nil
      · exact fun op hop => absurd hop List.not_mem_nil
      · exact (Backend.finish_done rfl rfl).symm
  | ok r =>
    cases halone : processTournamentEvent rs s.doc ((requests c).input table tournamentUid) with
    | error e =>
      rw [hevent, halone] at hops
      cases hops
    | ok r' =>
      rw [hevent, halone] at hops
      have hr : r.2 = r'.2 := Except.ok.inj hops
      refine ⟨r.1, r.2, rfl, onPlayers_of_event hkeyed hevent, ?_, ?_, ?_⟩
      · exact hr ▸ onPlayers_of_event htable halone
      · rw [hr]
        exact processDeckOps_eq halone
      · rintro rfl
        rw [halone] at hevent
        cases hevent
        rfl

/-- The first request is through its transaction, the second waits. -/
structure FirstUnderWay (rs : Seating.RandomSource) (tournamentUid : Uid)
    (requests : Bool → DeckRequest) (start : DeckState) (b : Bool) (s : RaceState) : Prop where
  waits : s.phases (!b) = .queued
  started : s.phases b ≠ .queued
  doc : s.doc = (runAlone rs tournamentUid start (requests b)).doc
  finish : (s.phases b).finish (requests b).env tournamentUid s.objects =
    (runAlone rs tournamentUid start (requests b)).objects
  sound : (s.phases b).Sound (fun _ => true) (requests b).env tournamentUid s.objects
  unused : ∀ k, s.objects.lookup ((requests !b).env.freshUid k) = none

theorem FirstUnderWay.second (hown : OwnUids requests objects)
    (h : FirstUnderWay rs tournamentUid requests start b s)
    (hclear : ReadsSettled requests s (!b)) :
    ∃ who, BothUnderWay tournamentUid requests (oneByOne rs tournamentUid requests start b).objects
      who (transact rs tournamentUid requests s !b) := by
  have hinj := hown.injective
  set first := runAlone rs tournamentUid start (requests b) with hfirst
  set who₁ : Uid → Bool := fun uid => ((s.phases b).players s.objects).contains uid with hwho₁
  set who₂ := readsDecksOf s.doc (requests !b).event with hwho₂
  have hdisjoint : ∀ uid, who₁ uid = true → who₂ uid = false := by
    intro uid huid
    refine hclear (by rw [h.waits]; rfl) uid ?_
    rw [Bool.not_not]
    exact List.contains_iff_mem.1 huid
  have hdisjoint' : ∀ uid, who₂ uid = true → who₁ uid = false := by
    intro uid huid
    by_contra hne
    rw [hdisjoint uid (Bool.eq_true_of_not_eq_false hne)] at huid
    cases huid
  have hsound : (s.phases b).Sound who₁ (requests b).env tournamentUid s.objects :=
    h.sound.players h.started
  have hkeyed : WellKeyed s.objects := Pass.Sound.keyed hsound
  have hkeyed' : WellKeyed first.objects := h.finish ▸ Pass.Sound.finish_keyed (hinj b) hsound
  have hsame : ∀ other : Uid → Bool, (∀ uid, who₁ uid = true → other uid = false) →
      decksOf other first.objects tournamentUid = decksOf other s.objects tournamentUid := by
    intro other hother
    rw [← h.finish]
    exact Pass.Sound.finish_other (hinj b) hother hsound
  have hunused : ∀ k, first.objects.lookup ((requests !b).env.freshUid k) = none := by
    intro k
    rw [← h.finish]
    exact Pass.Sound.finish_unused (hinj b) hsound (h.unused k) fun j => (hown.ne b j k).symm
  obtain ⟨doc, ops, htransact, hops, hops', hserial, -⟩ :=
    transact_eq rs _ hkeyed hkeyed' (hsame who₂ hdisjoint).symm
  have hfinal : (oneByOne rs tournamentUid requests start b).objects =
      (Phase.committed ops).finish (requests !b).env tournamentUid first.objects := by
    rw [← hserial, h.doc]
    rfl
  have hsound₂ : (Phase.committed ops).Sound who₂ (requests !b).env tournamentUid s.objects :=
    sound_readPass hkeyed hops h.unused
  have hsound₂' : (Phase.committed ops).Sound who₂ (requests !b).env tournamentUid first.objects :=
    sound_readPass hkeyed' hops' hunused
  have hthen : ∀ other : Uid → Bool, (∀ uid, who₂ uid = true → other uid = false) →
      decksOf other (oneByOne rs tournamentUid requests start b).objects tournamentUid =
        decksOf other first.objects tournamentUid := by
    intro other hother
    rw [hfinal]
    exact Pass.Sound.finish_other (hinj !b) hother hsound₂'
  refine ⟨Function.update (fun _ => who₂) b who₁, ?_⟩
  have hmine : Function.update (fun _ => who₂) b who₁ b = who₁ := Function.update_self ..
  have hothers : Function.update (fun _ => who₂) b who₁ (!b) = who₂ :=
    Function.update_of_ne (by simp) ..
  set after := transact rs tournamentUid requests s !b with hafter
  have hobjects : after.objects = s.objects := by
    rw [htransact]
    rfl
  have hphase : after.phases b = s.phases b := by
    rw [htransact]
    exact Function.update_of_ne (by simp) ..
  have hphase' : after.phases (!b) = .committed ops := by
    rw [htransact]
    exact Function.update_self ..
  have hneither : ∀ uid, neither (Function.update (fun _ => who₂) b who₁) uid =
      (!who₁ uid && !who₂ uid) := by
    intro uid
    unfold neither
    cases b with
    | true => rfl
    | false => exact Bool.and_comm ..
  have hapart : ∀ uid, who₁ uid = true →
      neither (Function.update (fun _ => who₂) b who₁) uid = false := by
    intro uid huid
    rw [hneither, huid, Bool.not_true, Bool.false_and]
  have hapart' : ∀ uid, who₂ uid = true →
      neither (Function.update (fun _ => who₂) b who₁) uid = false := by
    intro uid huid
    rw [hneither, huid, Bool.not_true, Bool.and_false]
  refine ⟨(Bool.forall_bool' b).2 ⟨?_, ?_⟩, (Bool.forall_bool' b).2 ⟨?_, ?_⟩,
    (Bool.forall_bool' b).2 ⟨?_, ?_⟩, (Bool.forall_bool' b).2 ⟨?_, ?_⟩, ?_⟩
  · rw [hmine, hothers]
    exact hdisjoint
  · rw [Bool.not_not, hmine, hothers]
    exact hdisjoint'
  · rw [hphase]
    exact h.started
  · rw [hphase']
    exact Phase.noConfusion
  · rw [hphase, hmine, hobjects]
    exact hsound
  · rw [hphase', hothers, hobjects]
    exact hsound₂
  · rw [hphase, hmine, hobjects, hthen who₁ hdisjoint', ← h.finish]
  · rw [hphase', hothers, hobjects, hfinal]
    exact Pass.Sound.finish_congr (hinj !b) hsound₂ hsound₂'
      ⟨(hsame who₂ hdisjoint).symm, rfl, rfl, rfl⟩ (hsame who₂ hdisjoint).symm
  · rw [hobjects, hthen _ hapart', hsame _ hapart]

/-! ### Runs -/

theorem transact_of_step (hqueued : s.phases c = .queued)
    (h : raceStep rs tournamentUid requests s c = some s') :
    s' = transact rs tournamentUid requests s c := by
  unfold raceStep at h
  rw [hqueued] at h
  dsimp only at h
  split at h
  · cases h
  · exact (Option.some.inj h).symm

theorem FirstUnderWay.first (hown : OwnUids requests s.objects) (hkeyed : WellKeyed s.objects)
    (hqueued : ∀ c, s.phases c = .queued) :
    FirstUnderWay rs tournamentUid requests ⟨s.doc, s.objects⟩ b
      (transact rs tournamentUid requests s b) := by
  obtain ⟨doc, ops, htransact, hops, -, hserial, hdoc⟩ :=
    transact_eq (c := b) rs tournamentUid hkeyed hkeyed rfl
  have hphase : (transact rs tournamentUid requests s b).phases b = .committed ops := by
    rw [htransact]
    exact Function.update_self ..
  have hobjects : (transact rs tournamentUid requests s b).objects = s.objects := by
    rw [htransact]
    rfl
  have hany : ∀ op ∈ ops, OnPlayers (fun _ => true) s.objects op := by
    intro op hop
    have hon := hops op hop
    cases op with
    | upsert | delete => exact rfl
    | _ =>
      obtain ⟨e, he, -⟩ := hon
      exact ⟨e, he, rfl⟩
  refine ⟨?_, ?_, ?_, ?_, ?_, fun k => ?_⟩
  · rw [htransact]
    exact (Function.update_of_ne (by simp) ..).trans (hqueued !b)
  · rw [hphase]
    exact Phase.noConfusion
  · rw [htransact]
    exact (hdoc rfl).symm
  · rw [hphase, hobjects, hserial]
  · rw [hphase, hobjects]
    exact sound_readPass hkeyed hany (hown.unused b)
  · rw [hobjects]
    exact hown.unused (!b) k

theorem FirstUnderWay.step (hown : OwnUids requests objects)
    (h : FirstUnderWay rs tournamentUid requests start b s)
    (hstep : raceStep rs tournamentUid requests s b = some s') :
    FirstUnderWay rs tournamentUid requests start b s' := by
  obtain ⟨phase, hphase, hdoc, hphases, hmove⟩ :=
    raceStep_cases (hown.injective b) h.started hstep
  have hsame : s'.phases b = phase := by rw [hphases, Function.update_self]
  have hwaits : s'.phases (!b) = .queued := by
    rw [hphases, Function.update_of_ne (by simp)]
    exact h.waits
  rcases hmove with ⟨hobjects, hlooks⟩ | ⟨x, hobjects, hsaves⟩
  · refine ⟨hwaits, hsame ▸ hphase, hdoc.trans h.doc, ?_, ?_, hobjects ▸ h.unused⟩
    · rw [hsame, hobjects, hlooks.finish, h.finish]
    · rw [hsame, hobjects]
      exact hlooks.sound _ h.sound
  · refine ⟨hwaits, hsame ▸ hphase, hdoc.trans h.doc, ?_, ?_, fun k => ?_⟩
    · rw [hsame, hobjects, hsaves.finish, h.finish]
    · rw [hsame, hobjects]
      exact hsaves.sound _ h.sound
    · rw [hobjects, lookup_saveDeck_ne ?_, h.unused k]
      rintro huid
      rcases hsaves.named _ h.sound with hrow | ⟨j, hj⟩
      · exact hrow.lookup_ne (huid ▸ h.unused k)
      · exact hown.ne b j k (hj.symm.trans huid.symm)

/-- How far a run is. -/
def Stage (rs : Seating.RandomSource) (tournamentUid : Uid) (requests : Bool → DeckRequest)
    (start s : RaceState) : Prop :=
  s = start ∨ (∃ b, FirstUnderWay rs tournamentUid requests ⟨start.doc, start.objects⟩ b s) ∨
    ∃ b who, BothUnderWay tournamentUid requests
      (oneByOne rs tournamentUid requests ⟨start.doc, start.objects⟩ b).objects who s

theorem Stage.step {start : RaceState}
    (hstart : (raceSystem rs tournamentUid requests).init start)
    (h : Stage rs tournamentUid requests start s) (hclear : ReadsSettled requests s c)
    (hstep : raceStep rs tournamentUid requests s c = some s') :
    Stage rs tournamentUid requests start s' := by
  obtain ⟨hkeyed, hown, hqueued⟩ := hstart
  rcases h with rfl | ⟨b, hfirst⟩ | ⟨b, who, hboth⟩
  · rw [transact_of_step (hqueued c) hstep]
    exact .inr (.inl ⟨c, .first hown hkeyed hqueued⟩)
  · rcases Bool.eq_or_eq_not c b with rfl | rfl
    · exact .inr (.inl ⟨_, hfirst.step hown hstep⟩)
    · rw [transact_of_step hfirst.waits hstep]
      exact .inr (.inr ⟨b, hfirst.second hown hclear⟩)
  · exact .inr (.inr ⟨b, who, hboth.step hown hstep⟩)

/-- However the two requests interleave, their steps meeting the condition, the live decks end as
after one and then the other. -/
theorem serialisable_of_reaches {start s : RaceState}
    (hstart : (raceSystem rs tournamentUid requests).init start)
    (h : ((raceSystem rs tournamentUid requests).startedAt start).Reaches (ReadsSettled requests) s)
    (hdone : ∀ c, (s.phases c).isDone = true) :
    ∃ b, SameDecks tournamentUid s.objects
      (oneByOne rs tournamentUid requests ⟨start.doc, start.objects⟩ b).objects := by
  have hstage : Stage rs tournamentUid requests start s :=
    h.invariant (fun _ hs => .inl hs) fun _ _ _ hstage hclear hstep =>
      hstage.step hstart hclear hstep
  obtain ⟨-, -, hqueued⟩ := hstart
  rcases hstage with rfl | ⟨b, hfirst⟩ | ⟨b, who, hboth⟩
  · have hnone := hdone true
    rw [hqueued true] at hnone
    cases hnone
  · have hnone := hdone !b
    rw [hfirst.waits] at hnone
    cases hnone
  · exact ⟨b, hboth.sameDecks hdone⟩

end Runs

/-! ### Two uploads at once -/

/-- New uids of a request, each longer than the one before. -/
def lettered (letter : Char) (k : ℕ) : Uid := String.ofList (List.replicate (k + 1) letter)

theorem lettered_injective (letter : Char) : Function.Injective (lettered letter) := by
  intro k j h
  have hlength := congrArg List.length (String.ofList_injective h)
  rw [List.length_replicate, List.length_replicate] at hlength
  omega

theorem lettered_ne {a b : Char} (h : a ≠ b) (k j : ℕ) : lettered a k ≠ lettered b j := by
  intro heq
  have hlist := String.ofList_injective heq
  rw [List.replicate_succ, List.replicate_succ] at hlist
  exact h (List.cons.inj hlist).1

/-- A player uploads her deck. -/
def uploads (player : Uid) (letter : Char) : DeckRequest where
  env := { venue with freshUid := lettered letter }
  event := .upsertDeck player ⟨none, none, ⟨"Deck", "", []⟩⟩ true
  actor := ⟨player, [], false, [], ""⟩
  sanctions := []

/-- Uploads of two players, or twice of one. -/
def twoUploads (left right : Uid) (b : Bool) : DeckRequest :=
  if b then uploads left 'l' else uploads right 'r'

def beforeUploads : RaceState := ⟨waitingEvent, ∅, fun _ => .queued⟩

theorem beforeUploads_init (rs : Seating.RandomSource) (tournamentUid left right : Uid) :
    (raceSystem rs tournamentUid (twoUploads left right)).init beforeUploads := by
  refine ⟨fun _ _ h => absurd h (by simp [beforeUploads]), ⟨fun b k => rfl, fun b => ?_, ?_⟩,
    fun _ => rfl⟩
  · cases b with
    | true => exact lettered_injective 'l'
    | false => exact lettered_injective 'r'
  · exact lettered_ne (by decide)

/-- Both transactions, both reads, and then the saves. -/
def crossed : List Bool := [true, false, true, false, true, true, false, false]

def raceTo (requests : Bool → DeckRequest) (s : RaceState) (b : Bool) : Except Unit RaceState :=
  okOr (raceStep fixedOrder "event" requests s b) ()

theorem oneDeckASlot_congr {tournamentUid : Uid} {objects objects' : Objects}
    (h : SameDecks tournamentUid objects objects')
    (hone : OneDeckASlot (getDecksForTournament objects' tournamentUid)) :
    OneDeckASlot (getDecksForTournament objects tournamentUid) :=
  fun d hd e he => hone d ((h d).1 hd) e ((h e).1 he)

/-- Either request alone would have replaced the deck of the other. -/
theorem uploads_race : ¬∀ (rs : Seating.RandomSource) (tournamentUid : Uid)
    (requests : Bool → DeckRequest) (start s : RaceState),
    (raceSystem rs tournamentUid requests).init start →
    ((raceSystem rs tournamentUid requests).startedAt start).Reachable s →
    (∀ c, (s.phases c).isDone = true) →
    ∃ b, SameDecks tournamentUid s.objects
      (oneByOne rs tournamentUid requests ⟨start.doc, start.objects⟩ b).objects := by
  intro hall
  have hrun : (System.replay (raceTo (twoUploads "a" "a")) (fun _ _ => True) beforeUploads
      crossed).any (fun s => (s.phases true).isDone && (s.phases false).isDone &&
        !decide (OneDeckASlot (getDecksForTournament s.objects "event"))) = true := by
    decide +kernel
  obtain ⟨s, hs, hend⟩ := (Option.any_eq_true _ _).1 hrun
  rw [Bool.and_eq_true, Bool.and_eq_true, Bool.not_eq_true', decide_eq_false_iff_not] at hend
  obtain ⟨⟨htrue, hfalse⟩, htwo⟩ := hend
  have hreaches : ((raceSystem fixedOrder "event" (twoUploads "a" "a")).startedAt
      beforeUploads).Reachable s :=
    System.reaches_replay (fun _ _ _ h => okOr_eq_ok.1 h) crossed beforeUploads s (.init rfl) hs
  have hdone : ∀ c, (s.phases c).isDone = true := Bool.forall_bool.2 ⟨hfalse, htrue⟩
  obtain ⟨b, hsame⟩ := hall _ _ _ _ s (beforeUploads_init _ _ _ _) hreaches hdone
  refine htwo (oneDeckASlot_congr hsame ?_)
  cases b with
  | true => decide +kernel
  | false => decide +kernel

/-- Uploads of two players do not meet. -/
theorem uploads_apart : ∃ s, System.replay (raceTo (twoUploads "a" "b"))
    (ReadsSettled (twoUploads "a" "b")) beforeUploads crossed = some s ∧
    ∃ b, SameDecks "event" s.objects
      (oneByOne fixedOrder "event" (twoUploads "a" "b")
        ⟨beforeUploads.doc, beforeUploads.objects⟩ b).objects := by
  have hrun : (System.replay (raceTo (twoUploads "a" "b")) (ReadsSettled (twoUploads "a" "b"))
      beforeUploads crossed).any (fun s => (s.phases true).isDone && (s.phases false).isDone) =
        true := by
    decide +kernel
  obtain ⟨s, hs, hend⟩ := (Option.any_eq_true _ _).1 hrun
  obtain ⟨htrue, hfalse⟩ := Bool.and_eq_true_iff.1 hend
  have hreaches : ((raceSystem fixedOrder "event" (twoUploads "a" "b")).startedAt
      beforeUploads).Reaches (ReadsSettled (twoUploads "a" "b")) s :=
    System.reaches_replay (fun _ _ _ h => okOr_eq_ok.1 h) crossed beforeUploads s (.init rfl) hs
  have hdone : ∀ c, (s.phases c).isDone = true := Bool.forall_bool.2 ⟨hfalse, htrue⟩
  exact ⟨s, hs, serialisable_of_reaches (beforeUploads_init _ _ _ _) hreaches hdone⟩

end Archon.Backend

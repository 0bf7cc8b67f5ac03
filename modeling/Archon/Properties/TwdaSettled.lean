import Archon.Backend.RowFrames
import Archon.Backend.Scenario
import Archon.Backend.TwdaEvents

/-!
# The archive import settles each entry once

An entry is settled onto one event, and a second run with the same archive and decisions finds
nothing to do. The owners of decks are read once before the loop over the entries, though: two
entries that come to one event both give its winner a deck.
-/

namespace Archon.Backend
open Engine Guards

/-! ### The property and the condition -/

/-- A deck the table did not hold before, of the tournament. -/
def GainedDeck (before after : Objects) (tournamentUid : Uid) (d : StoredDeck) : Prop :=
  after.lookup d.uid = some ⟨.deck d, none⟩ ∧ d.uid ∉ before ∧ d.tournamentUid = tournamentUid

/-- A tournament gained at most one deck, of its winner, who had none; an entry is held by at most
one live tournament; and a second run leaves the table as it is. -/
structure TwdaSettled (r : TwdaRun) (before after : Objects) : Prop where
  oneDeck : ∀ uid d d', GainedDeck before after uid d → GainedDeck before after uid d' →
    d.uid = d'.uid
  missing : ∀ uid d, GainedDeck before after uid d →
    (∃ key, eventAt after uid = some (key, d.userUid)) ∧ ¬ HoldsDeck before uid d.userUid
  held : ∀ e ∈ r.entries, ∀ uid uid', HoldsKey after uid e.id → HoldsKey after uid' e.id →
    uid = uid'
  again : ∀ env mints, ∃ stats, runTwdaSync { r with env, mints } after = .ok (after, stats) ∧
    stats.created = 0 ∧ stats.settled = 0 ∧ stats.decksCreated = 0

/-- The event that carries the key of an entry before the loop. -/
abbrev knownBefore (before : Objects) (entryId : String) : Option Uid :=
  knownTournament (tournamentsByTwdaId before) entryId

/-- The event an entry comes to, unless it is reconstructed: the one that carries its key, or else
the one it is attached to. -/
def goesTo (r : TwdaRun) (objects : Objects) (entry : TwdaEntry) : Option Uid :=
  (knownBefore objects entry.id).or
    ((r.decisions.get entry.id).bind fun
      | .attach target => some target
      | .create _ => none)

/-- No entry is held twice, and no two entries with cards come to one live event whose winner has no
deck. -/
structure SettlesOnce (r : TwdaRun) (objects : Objects) : Prop where
  held : ∀ e ∈ r.entries, ∀ uid uid', HoldsKey objects uid e.id → HoldsKey objects uid' e.id →
    uid = uid'
  apart : ∀ e ∈ r.entries, ∀ e' ∈ r.entries, e.id ≠ e'.id → flattenTwdaCards e ≠ [] →
    flattenTwdaCards e' ≠ [] →
      ∀ uid, goesTo r objects e = some uid → goesTo r objects e' = some uid →
        ∀ key winner, eventAt objects uid = some (key, winner) → winner ≠ "" →
          HoldsDeck objects uid winner

/-- The uids drawn are new: none is empty, none is drawn twice, none is in the table or named by a
decision. -/
structure DrawsNew (r : TwdaRun) (objects : Objects) : Prop where
  named : ∀ k, r.env.freshUid k ≠ ""
  distinct : ∀ i j, r.env.freshUid i = r.env.freshUid j → i = j
  unused : ∀ k, r.env.freshUid k ∉ objects
  undecided : ∀ k d, d ∈ r.decisions.table → d.2 ≠ .attach (r.env.freshUid k)

section Settling

variable {r : TwdaRun} {before objects objects' after : Objects} {s s' : Settling}
variable {entry e : TwdaEntry} {done rest : List TwdaEntry} {uid target winner : Uid}

/-! ### One entry -/

/-- What settling an entry does, when the run is not deferred. -/
inductive SettleCase (r : TwdaRun) (before : Objects) (s s' : Settling) (e : TwdaEntry) : Prop
  | known (uid : Uid) (hknown : knownBefore before e.id = some uid)
      (hs : s' = s.resolve e.id uid)
  | undecided (hknown : knownBefore before e.id = none) (hdecision : r.decisions.get e.id = none)
      (hs : s' = { s with unresolved := s.unresolved + 1 })
  | left (target : Uid) (hknown : knownBefore before e.id = none)
      (hdecision : r.decisions.get e.id = some (.attach target))
      (hleft : ∀ winner, eventAt s.objects target ≠ some (none, winner))
      (hs : s' = s.resolve e.id target)
  | stamped (target winner : Uid) (hknown : knownBefore before e.id = none)
      (hdecision : r.decisions.get e.id = some (.attach target))
      (hevent : eventAt s.objects target = some (none, winner))
      (hputs : Puts s.objects s'.objects target (some e.id, winner))
      (hresolved : s'.resolved = (e.id, target) :: s.resolved) (hdrawn : s'.drawn = s.drawn)
  | created (winner : Uid) (hknown : knownBefore before e.id = none)
      (hdecision : r.decisions.get e.id = some (.create winner))
      (hputs : Puts s.objects s'.objects (r.env.freshUid s.drawn) (some e.id, winner))
      (hresolved : s'.resolved = (e.id, r.env.freshUid s.drawn) :: s.resolved)
      (hdrawn : s'.drawn = s.drawn + 1)

theorem TwdaDecisions.named_of_get {decision : TwdaDecision} {id : String}
    (h : r.decisions.get id = some decision) : id ≠ "" ∧ (id, decision) ∈ r.decisions.table := by
  obtain ⟨l₁, l₂, heq, -⟩ := List.lookup_eq_some_iff.1 h
  have hmem : (id, decision) ∈ r.decisions.table :=
    heq ▸ List.mem_append_right _ (List.mem_cons_self ..)
  exact ⟨r.decisions.named _ hmem, hmem⟩

theorem settleCase_of_settleEntry (hcorpus : Corpus s.objects)
    (hfresh : r.env.freshUid s.drawn ∉ s.objects) (hnamed : r.env.freshUid s.drawn ≠ "")
    (h : settleEntry r (tournamentsByTwdaId before) false s e = .ok s') :
    SettleCase r before s s' e := by
  unfold settleEntry at h
  split at h
  · rename_i uid hknown
    exact .known uid hknown (pure_eq_ok.1 h).symm
  · rename_i hknown
    split at h
    · rename_i hdecision
      exact .undecided hknown hdecision (pure_eq_ok.1 h).symm
    · rename_i target hdecision
      have hentry := (TwdaDecisions.named_of_get hdecision).1
      rw [if_neg Bool.false_ne_true] at h
      obtain rfl := pure_eq_ok.1 h
      rcases settleAttachment_spec (r := r) hcorpus hentry target with
        ⟨winner, hevent, -, hputs⟩ | ⟨hleft, heq⟩
      · exact .stamped target winner hknown hdecision hevent hputs rfl rfl
      · refine .left target hknown hdecision hleft ?_
        dsimp only
        rw [heq]
        rfl
    · rename_i winner hdecision
      have hentry := (TwdaDecisions.named_of_get hdecision).1
      simp only [Bool.false_eq_true, if_false, bind_eq_ok, pure_eq_ok] at h
      obtain ⟨objects, hsave, rfl⟩ := h
      exact .created winner hknown hdecision
        (puts_reconstructed hcorpus hentry hnamed hfresh hsave) rfl rfl

/-! ### The loop over the entries -/

/-- Events keep their winner and the key they carry, and none loses or gains a deck; only those are
without a key that were. -/
structure Advances (a b : Objects) : Prop where
  kept : ∀ uid key winner, eventAt a uid = some (key, winner) →
    ∃ key', eventAt b uid = some (key', winner) ∧ ∀ id, key = some id → key' = some id
  bare : ∀ uid winner, eventAt b uid = some (none, winner) → eventAt a uid = some (none, winner)
  deck : ∀ uid d x, b.lookup uid = some ⟨.deck d, x⟩ ↔ a.lookup uid = some ⟨.deck d, x⟩

theorem Advances.refl (a : Objects) : Advances a a where
  kept _ key _ h := ⟨key, h, fun _ => id⟩
  bare _ _ := id
  deck _ _ _ := Iff.rfl

theorem Advances.trans {a b c : Objects} (h : Advances a b) (h' : Advances b c) : Advances a c where
  kept uid key winner hevent := by
    obtain ⟨key₁, hevent₁, hkey₁⟩ := h.kept uid key winner hevent
    obtain ⟨key₂, hevent₂, hkey₂⟩ := h'.kept uid key₁ winner hevent₁
    exact ⟨key₂, hevent₂, fun id hid => hkey₂ id (hkey₁ id hid)⟩
  bare uid winner hevent := h.bare uid winner (h'.bare uid winner hevent)
  deck uid d x := (h'.deck uid d x).trans (h.deck uid d x)

theorem Advances.holdsKey {a b : Objects} {id : String} (h : Advances a b)
    (hkey : HoldsKey a uid id) : HoldsKey b uid id := by
  obtain ⟨winner, hevent⟩ := hkey
  obtain ⟨key, hevent', hsame⟩ := h.kept uid _ winner hevent
  exact ⟨winner, by rw [hevent', hsame id rfl]⟩

theorem Advances.holdsDeck_iff {a b : Objects} {userUid : Uid} (h : Advances a b) :
    HoldsDeck b uid userUid ↔ HoldsDeck a uid userUid :=
  exists_congr fun k => exists_congr fun d => and_congr_left fun _ => h.deck k d none

theorem Puts.advances {a b : Objects} {id : String} (h : Puts a b uid (some id, winner))
    (hbefore : eventAt a uid = some (none, winner) ∨ eventAt a uid = none) : Advances a b where
  kept k key w hevent := by
    by_cases hk : k = uid
    · subst hk
      rcases hbefore with hbare | hnone
      · obtain ⟨rfl, rfl⟩ := Prod.mk.inj (Option.some.inj (hbare.symm.trans hevent))
        exact ⟨some id, h.event, nofun⟩
      · rw [hnone] at hevent
        cases hevent
    · exact ⟨key, (h.eventAt_ne hk).trans hevent, fun _ hid => hid⟩
  bare k w hevent := by
    by_cases hk : k = uid
    · subst hk
      rw [h.event] at hevent
      cases hevent
    · exact (h.eventAt_ne hk).symm.trans hevent
  deck k d x := h.deck

/-- What the loop has made of the entries it is through with. -/
structure Settles (r : TwdaRun) (before : Objects) (done : List TwdaEntry) (s : Settling) :
    Prop where
  corpus : Corpus s.objects
  fresh : ∀ k, s.drawn ≤ k → r.env.freshUid k ∉ s.objects
  advances : Advances before s.objects
  old : ∀ uid key winner, eventAt s.objects uid = some (key, winner) →
    (∃ key', eventAt before uid = some (key', winner)) ∨ ∃ k, uid = r.env.freshUid k
  keys : ∀ uid id, HoldsKey s.objects uid id → HoldsKey before uid id ∨
    (∃ e ∈ done, e.id = id ∧ knownBefore before id = none) ∧ s.resolved.lookup id = some uid
  only : ∀ id uid, s.resolved.lookup id = some uid → ∃ e ∈ done, e.id = id
  goes : ∀ e ∈ done, ∀ uid, goesTo r before e = some uid → s.resolved.lookup e.id = some uid
  made : ∀ e ∈ done, ∀ uid, s.resolved.lookup e.id = some uid →
    goesTo r before e = some uid ∨ HoldsKey s.objects uid e.id ∧ uid ∉ before ∧
      ∃ k, uid = r.env.freshUid k
  attached : ∀ e ∈ done, knownBefore before e.id = none → ∀ target,
    r.decisions.get e.id = some (.attach target) →
      ∀ winner, eventAt s.objects target ≠ some (none, winner)
  created : ∀ e ∈ done, knownBefore before e.id = none → ∀ winner,
    r.decisions.get e.id = some (.create winner) → ∃ uid, HoldsKey s.objects uid e.id

theorem settles_nil (h : Corpus before) (hnew : DrawsNew r before) :
    Settles r before [] ⟨before, [], 0, 0, 0, 0⟩ where
  corpus := h
  fresh k _ := hnew.unused k
  advances := .refl before
  old uid key winner hevent := .inl ⟨key, hevent⟩
  keys uid id hkey := .inl hkey
  only id uid h := by cases h
  goes e he := by cases he
  made e he := by cases he
  attached e he := by cases he
  created e he := by cases he

theorem goesTo_known (h : knownBefore before e.id = some uid) : goesTo r before e = some uid := by
  rw [goesTo, h, Option.some_or]

theorem goesTo_attach (hknown : knownBefore before e.id = none)
    (hdecision : r.decisions.get e.id = some (.attach target)) :
    goesTo r before e = some target := by
  rw [goesTo, hknown, Option.none_or, hdecision]
  rfl

theorem goesTo_create (hknown : knownBefore before e.id = none)
    (hdecision : r.decisions.get e.id = some (.create winner)) : goesTo r before e = none := by
  rw [goesTo, hknown, Option.none_or, hdecision]
  rfl

theorem goesTo_none (hknown : knownBefore before e.id = none)
    (hdecision : r.decisions.get e.id = none) : goesTo r before e = none := by
  rw [goesTo, hknown, Option.none_or, hdecision]
  rfl

theorem lookup_cons_ne {id id' : String} {l : List (String × Uid)} (h : id ≠ id') :
    ((id', uid) :: l).lookup id = l.lookup id := by
  have hbeq : (id == id') = false := by simpa using h
  rw [List.lookup_cons, hbeq]

theorem lookup_cons_same {id : String} {l : List (String × Uid)} :
    ((id, uid) :: l).lookup id = some uid := by
  rw [List.lookup_cons, beq_self_eq_true]

theorem Settles.resolve (h : Settles r before done s) (hids : ∀ e' ∈ done, e'.id ≠ e.id)
    (hcorpus : Corpus s'.objects) (hadvances : Advances s.objects s'.objects)
    (hold : ∀ uid key winner, eventAt s'.objects uid = some (key, winner) →
      (∃ key', eventAt s.objects uid = some (key', winner)) ∨ ∃ k, uid = r.env.freshUid k)
    (hresolved : s'.resolved = (e.id, uid) :: s.resolved)
    (hfresh : ∀ k, s'.drawn ≤ k → r.env.freshUid k ∉ s'.objects)
    (hkeys : ∀ uid' id, HoldsKey s'.objects uid' id → HoldsKey s.objects uid' id ∨
      id = e.id ∧ uid' = uid ∧ knownBefore before id = none)
    (hgoes : ∀ uid', goesTo r before e = some uid' → uid' = uid)
    (hmade : goesTo r before e = some uid ∨ HoldsKey s'.objects uid e.id ∧ uid ∉ before ∧
      ∃ k, uid = r.env.freshUid k)
    (hattached : knownBefore before e.id = none → ∀ target,
      r.decisions.get e.id = some (.attach target) →
        ∀ winner, eventAt s'.objects target ≠ some (none, winner))
    (hcreated : knownBefore before e.id = none → ∀ winner,
      r.decisions.get e.id = some (.create winner) → ∃ uid, HoldsKey s'.objects uid e.id) :
    Settles r before (done ++ [e]) s' := by
  have hother : ∀ e' ∈ done, s'.resolved.lookup e'.id = s.resolved.lookup e'.id := fun e' he' => by
    rw [hresolved, lookup_cons_ne (hids e' he')]
  have hself : s'.resolved.lookup e.id = some uid := by rw [hresolved, lookup_cons_same]
  have hcases : ∀ {P : TwdaEntry → Prop}, (∀ e' ∈ done, P e') → P e → ∀ e' ∈ done ++ [e], P e' := by
    intro P hdone he e' he'
    rcases List.mem_append.1 he' with hmem | hmem
    · exact hdone e' hmem
    · exact List.mem_singleton.1 hmem ▸ he
  have hlast : e ∈ done ++ [e] := List.mem_append_right _ (List.mem_singleton_self e)
  refine ⟨hcorpus, hfresh, h.advances.trans hadvances, fun k key w hevent => ?_,
    fun uid' id hkey => ?_, fun id uid' hid => ?_,
    hcases (fun e' he' uid' hgo => (hother e' he').trans (h.goes e' he' uid' hgo)) ?_,
    hcases (fun e' he' uid' hid => ?_) ?_, hcases (fun e' he' hknown target hdecision w hw => ?_)
      hattached, hcases (fun e' he' hknown w hdecision => ?_) hcreated⟩
  · rcases hold k key w hevent with ⟨key', hevent'⟩ | hfresh'
    · exact h.old k key' w hevent'
    · exact .inr hfresh'
  · rcases hkeys uid' id hkey with hold | ⟨rfl, rfl, hknown⟩
    · rcases h.keys uid' id hold with hbefore | ⟨⟨e', he', rfl, hknown⟩, hid⟩
      · exact .inl hbefore
      · exact .inr ⟨⟨e', List.mem_append_left _ he', rfl, hknown⟩, (hother e' he').trans hid⟩
    · exact .inr ⟨⟨e, hlast, rfl, hknown⟩, hself⟩
  · by_cases heq : id = e.id
    · exact ⟨e, hlast, heq.symm⟩
    · rw [hresolved, lookup_cons_ne heq] at hid
      obtain ⟨e', he', hsame⟩ := h.only id uid' hid
      exact ⟨e', List.mem_append_left _ he', hsame⟩
  · intro uid' hgo
    rw [hgoes uid' hgo]
    exact hself
  · rw [hother e' he'] at hid
    rcases h.made e' he' uid' hid with hgo | ⟨hkey, hrest⟩
    · exact .inl hgo
    · exact .inr ⟨hadvances.holdsKey hkey, hrest⟩
  · intro uid' hid
    obtain rfl := Option.some.inj (hself.symm.trans hid)
    exact hmade
  · exact h.attached e' he' hknown target hdecision w (hadvances.bare target w hw)
  · obtain ⟨uid', hkey⟩ := h.created e' he' hknown w hdecision
    exact ⟨uid', hadvances.holdsKey hkey⟩

theorem Settles.skip (h : Settles r before done s) (hids : ∀ e' ∈ done, e'.id ≠ e.id)
    (hknown : knownBefore before e.id = none) (hdecision : r.decisions.get e.id = none)
    (hobjects : s'.objects = s.objects) (hresolved : s'.resolved = s.resolved)
    (hdrawn : s'.drawn = s.drawn) : Settles r before (done ++ [e]) s' := by
  have hcases : ∀ {P : TwdaEntry → Prop}, (∀ e' ∈ done, P e') → P e → ∀ e' ∈ done ++ [e], P e' := by
    intro P hdone he e' he'
    rcases List.mem_append.1 he' with hmem | hmem
    · exact hdone e' hmem
    · exact List.mem_singleton.1 hmem ▸ he
  have hunresolved : ∀ uid, s'.resolved.lookup e.id ≠ some uid := by
    intro uid hid
    rw [hresolved] at hid
    obtain ⟨e', he', hsame⟩ := h.only e.id uid hid
    exact hids e' he' hsame
  refine ⟨hobjects ▸ h.corpus, hobjects ▸ hdrawn ▸ h.fresh, hobjects ▸ h.advances,
    hobjects ▸ h.old, fun uid id hkey => ?_, fun id uid hid => ?_, hcases (hresolved ▸ h.goes) ?_,
    hcases (hresolved ▸ hobjects ▸ h.made) ?_, hcases (hobjects ▸ h.attached) ?_,
    hcases (hobjects ▸ h.created) ?_⟩
  · rw [hobjects] at hkey
    rcases h.keys uid id hkey with hbefore | ⟨⟨e', he', hrest⟩, hid⟩
    · exact .inl hbefore
    · exact .inr ⟨⟨e', List.mem_append_left _ he', hrest⟩, hresolved ▸ hid⟩
  · rw [hresolved] at hid
    obtain ⟨e', he', hsame⟩ := h.only id uid hid
    exact ⟨e', List.mem_append_left _ he', hsame⟩
  · intro uid hgo
    rw [goesTo_none hknown hdecision] at hgo
    cases hgo
  · exact fun uid hid => absurd hid (hunresolved uid)
  · intro _ target hattach
    rw [hdecision] at hattach
    cases hattach
  · intro _ winner hcreate
    rw [hdecision] at hcreate
    cases hcreate

theorem Puts.holdsKey_iff {a b : Objects} {id : String} (h : Puts a b uid (some id, winner))
    {uid' : Uid} {id' : String} (hkey : HoldsKey b uid' id') :
    HoldsKey a uid' id' ∨ id' = id ∧ uid' = uid := by
  obtain ⟨w, hevent⟩ := hkey
  by_cases hk : uid' = uid
  · subst hk
    rw [h.event] at hevent
    obtain ⟨hid, -⟩ := Prod.mk.inj (Option.some.inj hevent)
    exact .inr ⟨(Option.some.inj hid).symm, rfl⟩
  · exact .inl ⟨w, (h.eventAt_ne hk).symm.trans hevent⟩

theorem Puts.not_mem {a b : Objects} {event : Option String × Uid} (h : Puts a b uid event)
    {k : Uid} (hk : k ≠ uid) (hnot : k ∉ a) : k ∉ b := by
  rw [← AList.lookup_eq_none, h.other k hk]
  exact AList.lookup_eq_none.2 hnot

theorem Settles.step (h : Settles r before done s) (hnew : DrawsNew r before)
    (hids : ∀ e' ∈ done, e'.id ≠ e.id) (hcase : SettleCase r before s s' e) :
    Settles r before (done ++ [e]) s' := by
  cases hcase with
  | known uid hknown hs =>
    subst hs
    refine h.resolve hids h.corpus (.refl _) (fun _ key _ hevent => .inl ⟨key, hevent⟩) rfl
      h.fresh (fun _ _ hkey => .inl hkey) (fun uid' hgo => ?_) (.inl (goesTo_known hknown)) ?_ ?_
    · exact Option.some.inj (hgo.symm.trans (goesTo_known hknown))
    · intro hnone
      rw [hknown] at hnone
      cases hnone
    · intro hnone
      rw [hknown] at hnone
      cases hnone
  | undecided hknown hdecision hs =>
    subst hs
    exact h.skip hids hknown hdecision rfl rfl rfl
  | left target hknown hdecision hleft hs =>
    subst hs
    have hgo := goesTo_attach (r := r) hknown hdecision
    refine h.resolve hids h.corpus (.refl _) (fun _ key _ hevent => .inl ⟨key, hevent⟩) rfl
      h.fresh (fun _ _ hkey => .inl hkey)
      (fun uid' hgo' => Option.some.inj (hgo'.symm.trans hgo)) (.inl hgo) ?_ ?_
    · intro _ target' hattach
      rw [hdecision] at hattach
      cases hattach
      exact hleft
    · intro _ winner hcreate
      rw [hdecision] at hcreate
      cases hcreate
  | stamped target winner hknown hdecision hevent hputs hresolved hdrawn =>
    have hgo := goesTo_attach (r := r) hknown hdecision
    have hadvances := hputs.advances (.inl hevent)
    refine h.resolve hids hputs.corpus hadvances (fun k key w hw => .inl ?_) hresolved
      (fun k hk => ?_) (fun uid' id hkey => ?_)
      (fun uid' hgo' => Option.some.inj (hgo'.symm.trans hgo)) (.inl hgo) ?_ ?_
    · by_cases hk : k = target
      · rw [hk, hputs.event] at hw
        obtain ⟨-, rfl⟩ := Prod.mk.inj (Option.some.inj hw)
        exact ⟨none, hk ▸ hevent⟩
      · exact ⟨key, (hputs.eventAt_ne hk).symm.trans hw⟩
    · refine hputs.not_mem (fun heq => ?_) (h.fresh k (hdrawn ▸ hk))
      have hmem := h.fresh k (hdrawn ▸ hk)
      rw [heq] at hmem
      rw [eventAt, AList.lookup_eq_none.2 hmem] at hevent
      cases hevent
    · rcases hputs.holdsKey_iff hkey with hold | ⟨rfl, rfl⟩
      · exact .inl hold
      · exact .inr ⟨rfl, rfl, hknown⟩
    · intro _ target' hattach w hw
      rw [hdecision] at hattach
      cases hattach
      rw [hputs.event] at hw
      cases hw
    · intro _ w hcreate
      rw [hdecision] at hcreate
      cases hcreate
  | created winner hknown hdecision hputs hresolved hdrawn =>
    have hfresh := h.fresh s.drawn le_rfl
    have hnone : eventAt s.objects (r.env.freshUid s.drawn) = none := by
      rw [eventAt, AList.lookup_eq_none.2 hfresh]
      rfl
    have hkey : HoldsKey s'.objects (r.env.freshUid s.drawn) e.id := ⟨winner, hputs.event⟩
    refine h.resolve hids hputs.corpus (hputs.advances (.inr hnone)) (fun k key w hw => ?_)
      hresolved (fun k hk => ?_) (fun uid' id hkey => ?_) (fun uid' hgo => ?_)
      (.inr ⟨hkey, hnew.unused _, _, rfl⟩) ?_ fun _ _ _ => ⟨_, hkey⟩
    · by_cases hk : k = r.env.freshUid s.drawn
      · exact .inr ⟨s.drawn, hk⟩
      · exact .inl ⟨key, (hputs.eventAt_ne hk).symm.trans hw⟩
    · rw [hdrawn] at hk
      refine hputs.not_mem (fun heq => ?_) (h.fresh k (Nat.le_of_succ_le hk))
      have hsame := hnew.distinct _ _ heq
      omega
    · rcases hputs.holdsKey_iff hkey with hold | ⟨rfl, rfl⟩
      · exact .inl hold
      · exact .inr ⟨rfl, rfl, hknown⟩
    · rw [goesTo_create hknown hdecision] at hgo
      cases hgo
    · intro _ target hattach
      rw [hdecision] at hattach
      cases hattach

theorem settles_foldlM (hnew : DrawsNew r before) (rest : List TwdaEntry) :
    ∀ (done : List TwdaEntry) (s s' : Settling), Settles r before done s →
      ((done ++ rest).map TwdaEntry.id).Nodup →
      rest.foldlM (settleEntry r (tournamentsByTwdaId before) false) s = .ok s' →
      Settles r before (done ++ rest) s' := by
  induction rest with
  | nil =>
    intro done s s' h _ hrun
    cases hrun
    rwa [List.append_nil]
  | cons e rest ih =>
    intro done s s' h hids hrun
    rw [List.foldlM_cons] at hrun
    obtain ⟨s₁, hstep, hrest⟩ := bind_eq_ok.1 hrun
    have hdistinct : ∀ e' ∈ done, e'.id ≠ e.id := by
      intro e' he'
      rw [List.map_append, List.nodup_append] at hids
      exact hids.2.2 e'.id (List.mem_map_of_mem he') e.id
        (List.mem_map_of_mem (List.mem_cons_self ..))
    have hcase := settleCase_of_settleEntry h.corpus (h.fresh _ le_rfl) (hnew.named _) hstep
    have happend : done ++ e :: rest = done ++ [e] ++ rest := by simp
    rw [happend] at hids ⊢
    exact ih (done ++ [e]) s₁ s' (h.step hnew hdistinct hcase) hids hrest

end Settling

section Importing

variable {r : TwdaRun} {before objects after snapshot : Objects} {s s' : Settling}
variable {e e' : TwdaEntry} {uid uid' winner : Uid} {d d' : StoredDeck}
variable {resolved : List (String × Uid)} {drawn : ℕ}

/-! ### The decks imported -/

/-- The entry gets a deck: for which tournament and winner. -/
def importFor (snapshot : Objects) (resolved : List (String × Uid)) (e : TwdaEntry) :
    Option (TwdaEntry × Uid × Uid) :=
  (knownTournament resolved e.id).bind fun uid =>
    (winnerByTournamentUid snapshot uid).bind fun winner =>
      if winner = "" ∨ flattenTwdaCards e = [] ∨ winner ∈ deckOwners snapshot uid then none
      else some (e, uid, winner)

def importsOf (r : TwdaRun) (snapshot : Objects) (resolved : List (String × Uid)) :
    List (TwdaEntry × Uid × Uid) :=
  r.entries.filterMap (importFor snapshot resolved)

/-- The decks of these imports, under the uids drawn. -/
def decksFor (r : TwdaRun) (imports : List (TwdaEntry × Uid × Uid)) (drawn : ℕ) :
    List StoredDeck :=
  (imports.zipIdx drawn).map fun x =>
    importedDeck r x.1.1 (r.env.freshUid x.2) x.1.2.1 x.1.2.2

theorem importFor_eq_some {x : TwdaEntry × Uid × Uid} :
    importFor snapshot resolved e = some x ↔ ∃ uid winner, x = (e, uid, winner) ∧
      knownTournament resolved e.id = some uid ∧ winnerByTournamentUid snapshot uid = some winner ∧
      winner ≠ "" ∧ flattenTwdaCards e ≠ [] ∧ ¬ HoldsDeck snapshot uid winner := by
  simp only [importFor, Option.bind_eq_some_iff, ← mem_deckOwners]
  constructor
  · rintro ⟨uid, huid, winner, hwinner, hneeds⟩
    split_ifs at hneeds with hskip
    simp only [not_or] at hskip
    exact ⟨uid, winner, (Option.some.inj hneeds).symm, huid, hwinner, hskip⟩
  · rintro ⟨uid, winner, rfl, huid, hwinner, hempty, hcards, howner⟩
    refine ⟨uid, huid, winner, hwinner, if_neg ?_⟩
    simp only [not_or]
    exact ⟨hempty, hcards, howner⟩

theorem foldl_importDeck (snapshot : Objects) (resolved : List (String × Uid))
    (entries : List TwdaEntry) (s : DeckImport) :
    let imports := entries.filterMap (importFor snapshot resolved)
    let s' := entries.foldl (importDeck r snapshot resolved) s
    s'.objects = (decksFor r imports s.drawn).foldl saveDeck s.objects ∧
      s'.created = s.created + imports.length ∧ (imports = [] → s'.touched = s.touched) := by
  induction entries generalizing s with
  | nil => exact ⟨rfl, rfl, fun _ => rfl⟩
  | cons e entries ih =>
    dsimp only at ih ⊢
    rw [List.foldl_cons]
    obtain ⟨hobjects, hcreated, htouched⟩ := ih (importDeck r snapshot resolved s e)
    cases himport : importFor snapshot resolved e with
    | none =>
      have hsame : (importDeck r snapshot resolved s e).objects = s.objects ∧
          (importDeck r snapshot resolved s e).drawn = s.drawn ∧
          (importDeck r snapshot resolved s e).created = s.created ∧
          (importDeck r snapshot resolved s e).touched = s.touched := by
        unfold importDeck
        split
        · exact ⟨rfl, rfl, rfl, rfl⟩
        · rename_i uid huid
          split
          · exact ⟨rfl, rfl, rfl, rfl⟩
          · rename_i winner hwinner
            rw [importFor, huid, Option.bind_some, hwinner, Option.bind_some] at himport
            split_ifs with hskip howner
            · exact ⟨rfl, rfl, rfl, rfl⟩
            · exact ⟨rfl, rfl, rfl, rfl⟩
            · simp only [not_or] at hskip
              rw [if_neg (by simp only [not_or]; exact ⟨hskip.1, hskip.2, howner⟩)] at himport
              cases himport
      obtain ⟨ho, hd, hc, ht⟩ := hsame
      rw [List.filterMap_cons_none himport]
      exact ⟨by rw [hobjects, ho, hd], by rw [hcreated, hc], fun h => (htouched h).trans ht⟩
    | some x =>
      obtain ⟨uid, winner, rfl, huid, hwinner, hempty, hcards, howner⟩ :=
        importFor_eq_some.1 himport
      rw [← mem_deckOwners] at howner
      have hsaved : importDeck r snapshot resolved s e = { s with
          objects := saveDeck s.objects (importedDeck r e (r.env.freshUid s.drawn) uid winner)
          drawn := s.drawn + 1
          created := s.created + 1
          touched := winner :: s.touched } := by
        unfold importDeck
        rw [huid]
        dsimp only
        rw [hwinner]
        dsimp only
        rw [if_neg (by simp only [not_or]; exact ⟨hempty, hcards⟩), if_neg howner]
      rw [hsaved] at hobjects hcreated ⊢
      rw [List.filterMap_cons_some himport]
      refine ⟨hobjects, ?_, nofun⟩
      dsimp only at hcreated
      rw [hcreated, List.length_cons]
      omega

theorem mem_decksFor {imports : List (TwdaEntry × Uid × Uid)} :
    d ∈ decksFor r imports drawn ↔ ∃ i x, imports[i]? = some x ∧
      d = importedDeck r x.1 (r.env.freshUid (drawn + i)) x.2.1 x.2.2 := by
  unfold decksFor
  rw [List.mem_map]
  constructor
  · rintro ⟨⟨x, i⟩, hx, rfl⟩
    obtain ⟨hle, hi⟩ := List.mk_mem_zipIdx_iff_le_and_getElem?_sub.1 hx
    exact ⟨i - drawn, x, hi, by rw [Nat.add_sub_cancel' hle]⟩
  · rintro ⟨i, x, hx, rfl⟩
    exact ⟨(x, drawn + i), List.mk_add_mem_zipIdx_iff_getElem?.2 hx, rfl⟩

theorem decksFor_fresh {imports : List (TwdaEntry × Uid × Uid)} (h : d ∈ decksFor r imports drawn) :
    (∃ k, drawn ≤ k ∧ d.uid = r.env.freshUid k) ∧ d.deletedAt = none := by
  obtain ⟨i, x, -, rfl⟩ := mem_decksFor.1 h
  exact ⟨⟨drawn + i, Nat.le_add_right .., rfl⟩, rfl⟩

theorem decksFor_eq {imports : List (TwdaEntry × Uid × Uid)} (hnew : DrawsNew r before)
    (h : d ∈ decksFor r imports drawn) (h' : d' ∈ decksFor r imports drawn)
    (huid : d.uid = d'.uid) : d = d' := by
  obtain ⟨i, x, hx, rfl⟩ := mem_decksFor.1 h
  obtain ⟨j, y, hy, rfl⟩ := mem_decksFor.1 h'
  obtain rfl : i = j := Nat.add_left_cancel (hnew.distinct _ _ huid)
  rw [hx] at hy
  cases hy
  rfl

theorem importsOf_apart (hids : (r.entries.map TwdaEntry.id).Nodup) {i j : ℕ}
    {x y : TwdaEntry × Uid × Uid} (hx : (importsOf r snapshot resolved)[i]? = some x)
    (hy : (importsOf r snapshot resolved)[j]? = some y) (hsame : x.1.id = y.1.id) : i = j := by
  have himport : ∀ {e z}, importFor snapshot resolved e = some z → z.1 = e := by
    intro e z hz
    obtain ⟨uid, winner, rfl, -⟩ := importFor_eq_some.1 hz
    rfl
  have hpairs : (importsOf r snapshot resolved).Pairwise fun x y => x.1.id ≠ y.1.id := by
    refine List.pairwise_filterMap.2 ((List.pairwise_map.1 hids).imp fun hne b hb b' hb' => ?_)
    rw [himport hb, himport hb']
    exact hne
  obtain ⟨hi, rfl⟩ := List.getElem?_eq_some_iff.1 hx
  obtain ⟨hj, rfl⟩ := List.getElem?_eq_some_iff.1 hy
  rcases Nat.lt_trichotomy i j with hlt | heq | hgt
  · exact absurd hsame (List.pairwise_iff_getElem.1 hpairs i j hi hj hlt)
  · exact heq
  · exact absurd hsame.symm (List.pairwise_iff_getElem.1 hpairs j i hj hi hgt)

theorem mem_importsOf {x : TwdaEntry × Uid × Uid} : x ∈ importsOf r snapshot resolved ↔
    x.1 ∈ r.entries ∧ knownTournament resolved x.1.id = some x.2.1 ∧
      winnerByTournamentUid snapshot x.2.1 = some x.2.2 ∧ x.2.2 ≠ "" ∧
      flattenTwdaCards x.1 ≠ [] ∧ ¬ HoldsDeck snapshot x.2.1 x.2.2 := by
  unfold importsOf
  rw [List.mem_filterMap]
  constructor
  · rintro ⟨e, he, himport⟩
    obtain ⟨uid, winner, rfl, hrest⟩ := importFor_eq_some.1 himport
    exact ⟨he, hrest⟩
  · rintro ⟨he, hrest⟩
    exact ⟨x.1, he, importFor_eq_some.2 ⟨x.2.1, x.2.2, rfl, hrest⟩⟩

/-! ### The end of a run -/

/-- The decks a run imports once its entries are settled. -/
abbrev importedDecks (r : TwdaRun) (s : Settling) : List StoredDeck :=
  decksFor r (importsOf r s.objects s.resolved) s.drawn

/-- What the run makes of the table: the events as settled, and the decks imported. -/
structure Finishes (r : TwdaRun) (before : Objects) (s : Settling) (after : Objects) : Prop where
  settles : Settles r before r.entries s
  corpus : Corpus after
  events : ∀ uid, eventAt after uid = eventAt s.objects uid
  deck : ∀ uid d x, after.lookup uid = some ⟨.deck d, x⟩ ↔
    before.lookup uid = some ⟨.deck d, x⟩ ∨ d ∈ importedDecks r s ∧ d.uid = uid ∧ x = none

theorem lookup_recomputeWins {env : Env} (h : WellKeyed objects) (uids : List Uid) {row : Row}
    (hrow : ∀ u, row.object ≠ .user u) :
    (recomputeWins env objects uids).lookup uid = some row ↔ objects.lookup uid = some row := by
  have hframed : Framed (fun k o => IsUser objects k ∧ ∃ u, o = .user u) (fun _ => True) objects
      (recomputeWins env objects uids) :=
    framed_recomputeWins h uids fun _ _ hk u => ⟨hk, u, rfl⟩
  rcases hframed.written uid with heq | ⟨row', hrow', huser, u, hu⟩
  · rw [heq]
  · obtain ⟨v, hv⟩ := Option.isSome_iff_exists.1 huser
    obtain ⟨x, hold⟩ := find?_eq_some.1 (user?_eq_some.1 hv)
    rw [hrow', hold]
    constructor
    · rintro ⟨⟩
      exact absurd hu (hrow u)
    · rintro ⟨⟩
      exact absurd rfl (hrow v)

theorem finishes_of_settles (hnew : DrawsNew r before) (h : Settles r before r.entries s)
    (winners : List Uid) : Finishes r before s
      (recomputeWins r.env ((importedDecks r s).foldl saveDeck s.objects) winners) := by
  have hunused : ∀ d ∈ importedDecks r s, d.uid ∉ s.objects ∧ d.uid ≠ "" ∧ d.deletedAt = none := by
    intro d hd
    obtain ⟨⟨k, hk, huid⟩, hlive⟩ := decksFor_fresh hd
    exact ⟨huid ▸ h.fresh k hk, huid ▸ hnew.named k, hlive⟩
  have hkeyed : WellKeyed ((importedDecks r s).foldl saveDeck s.objects) :=
    List.foldlRecOn _ saveDeck (motive := WellKeyed) h.corpus.keyed fun table htable d _ =>
      wellKeyed_saveDeck htable d
  have hsaved : ∀ {uid : Uid} {row : Row}, (∀ d, row.object ≠ .deck d) →
      (((importedDecks r s).foldl saveDeck s.objects).lookup uid = some row ↔
        s.objects.lookup uid = some row) := by
    intro uid row hdeck
    rcases lookup_saves s.objects (importedDecks r s) uid with ⟨d, hd, rfl, hrow⟩ | ⟨-, heq⟩
    · rw [hrow, AList.lookup_eq_none.2 (hunused d hd).1]
      constructor
      · rintro ⟨⟩
        exact absurd rfl (hdeck d)
      · nofun
    · rw [heq]
  have htournament : ∀ {uid : Uid} {t : StoredTournament} {x : Option Stamp},
      (recomputeWins r.env ((importedDecks r s).foldl saveDeck s.objects) winners).lookup uid =
        some ⟨.tournament t, x⟩ ↔ s.objects.lookup uid = some ⟨.tournament t, x⟩ := by
    intro uid t x
    exact (lookup_recomputeWins hkeyed winners (by simp)).trans (hsaved (by simp))
  have hempty : ((importedDecks r s).foldl saveDeck s.objects).lookup "" = none := by
    rcases lookup_saves s.objects (importedDecks r s) "" with ⟨d, hd, huid, -⟩ | ⟨-, heq⟩
    · exact absurd huid (hunused d hd).2.1
    · exact heq.trans (AList.lookup_eq_none.2 h.corpus.named)
  have hframed : Framed (fun k _ => IsUser ((importedDecks r s).foldl saveDeck s.objects) k)
      (fun _ => True) ((importedDecks r s).foldl saveDeck s.objects)
      (recomputeWins r.env ((importedDecks r s).foldl saveDeck s.objects) winners) :=
    framed_recomputeWins hkeyed winners fun _ _ hk _ => hk
  refine ⟨h, ⟨?_, ?_, ?_, ?_⟩, fun uid => ?_, fun uid d x => ?_⟩
  · exact hframed.keyed
  · rw [← AList.lookup_eq_none]
    rcases hframed.written "" with heq | ⟨row, -, huser⟩
    · exact heq.trans hempty
    · have hnone : ¬ IsUser ((importedDecks r s).foldl saveDeck s.objects) "" := by
        rw [IsUser, Objects.user?, Objects.find?, hempty]
        simp
      exact absurd huser hnone
  · exact fun uid t x hrow => h.corpus.column uid t x (htournament.1 hrow)
  · exact fun uid t x hrow => h.corpus.keys uid t x (htournament.1 hrow)
  · refine Option.ext fun e => ?_
    rw [eventAt_eq_some, eventAt_eq_some]
    exact exists_congr fun t => and_congr_left fun _ => htournament
  · refine (lookup_recomputeWins hkeyed winners (by simp)).trans ?_
    rw [← h.advances.deck uid d x]
    rcases lookup_saves s.objects (importedDecks r s) uid with ⟨e, he, rfl, hrow⟩ | ⟨hnone, heq⟩
    · obtain ⟨hmem, -, hlive⟩ := hunused e he
      rw [hrow, AList.lookup_eq_none.2 hmem, hlive]
      constructor
      · rintro ⟨⟩
        exact .inr ⟨he, rfl, rfl⟩
      · rintro (⟨⟨⟩⟩ | ⟨hd, huid, rfl⟩)
        rw [decksFor_eq hnew hd he huid]
    · rw [heq]
      exact ⟨.inl, fun hcase => hcase.elim id fun h => absurd h.2.1 (hnone d h.1)⟩

end Importing

section Runs

variable {r : TwdaRun} {before after objects : Objects} {s : Settling} {stats : TwdaStats}
variable {e e' : TwdaEntry} {uid : Uid} {d d' : StoredDeck}

theorem gainedDeck_iff (hnew : DrawsNew r before) (h : Finishes r before s after) :
    GainedDeck before after uid d ↔ d ∈ importedDecks r s ∧ d.tournamentUid = uid := by
  constructor
  · rintro ⟨hrow, hnot, htournament⟩
    rcases (h.deck d.uid d none).1 hrow with hold | ⟨hd, -, -⟩
    · exact absurd (AList.lookup_isSome.1 (Option.isSome_iff_exists.2 ⟨_, hold⟩)) hnot
    · exact ⟨hd, htournament⟩
  · rintro ⟨hd, htournament⟩
    obtain ⟨⟨k, -, huid⟩, -⟩ := decksFor_fresh hd
    exact ⟨(h.deck d.uid d none).2 (.inr ⟨hd, rfl, rfl⟩), huid ▸ hnew.unused k, htournament⟩

theorem Finishes.holdsKey_iff {id : String} (h : Finishes r before s after) :
    HoldsKey after uid id ↔ HoldsKey s.objects uid id := by
  unfold HoldsKey
  rw [h.events]

theorem finishes_of_run (hcorpus : Corpus before) (hnew : DrawsNew r before)
    (hids : (r.entries.map TwdaEntry.id).Nodup) (hrun : runTwdaSync r before = .ok (after, stats))
    (hdefer : stats.deferredToBackfill = 0) : ∃ s, Finishes r before s after := by
  simp only [runTwdaSync, bind_eq_ok, pure_eq_ok, Prod.mk.injEq] at hrun
  obtain ⟨s, hsettle, hafter, rfl⟩ := hrun
  have hbulk : (r.maxCreates.any fun m =>
      decide (m < pendingEntries r (tournamentsByTwdaId before))) = false := by
    dsimp only at hdefer
    by_contra hnot
    rw [Bool.not_eq_false] at hnot
    rw [if_pos hnot] at hdefer
    obtain ⟨m, -, hlt⟩ := (Option.any_eq_true ..).1 hnot
    have hpending := of_decide_eq_true hlt
    omega
  rw [hbulk] at hsettle
  have hsettles := settles_foldlM hnew r.entries [] _ s (settles_nil hcorpus hnew) (by simpa)
    hsettle
  obtain ⟨hobjects, -, -⟩ := foldl_importDeck (r := r) s.objects s.resolved r.entries
    ⟨s.objects, s.drawn, 0, [], []⟩
  refine ⟨s, ?_⟩
  rw [← hafter, importDecks, hobjects]
  exact finishes_of_settles hnew hsettles _

/-! ### What the run leaves -/

theorem Finishes.held (hcorpus : Corpus before) (h : Finishes r before s after)
    (hheld : ∀ uid uid', HoldsKey before uid e.id → HoldsKey before uid' e.id → uid = uid')
    {uid' : Uid} (hkey : HoldsKey after uid e.id) (hkey' : HoldsKey after uid' e.id) :
    uid = uid' := by
  rcases h.settles.keys _ _ (h.holdsKey_iff.1 hkey) with hold | ⟨⟨_, -, -, hnone⟩, hid⟩
  · rcases h.settles.keys _ _ (h.holdsKey_iff.1 hkey') with hold' | ⟨⟨_, -, -, hnone⟩, -⟩
    · exact hheld _ _ hold hold'
    · exact absurd hold ((knownTournament_eq_none hcorpus).1 hnone uid)
  · rcases h.settles.keys _ _ (h.holdsKey_iff.1 hkey') with hold' | ⟨-, hid'⟩
    · exact absurd hold' ((knownTournament_eq_none hcorpus).1 hnone uid')
    · exact Option.some.inj (hid.symm.trans hid')

theorem Finishes.missing (hnew : DrawsNew r before) (h : Finishes r before s after)
    (hd : GainedDeck before after uid d) : (∃ key, eventAt after uid = some (key, d.userUid)) ∧
      ¬ HoldsDeck before uid d.userUid := by
  obtain ⟨hmem, rfl⟩ := (gainedDeck_iff hnew h).1 hd
  obtain ⟨i, ⟨e, uid, winner⟩, hx, rfl⟩ := mem_decksFor.1 hmem
  obtain ⟨-, -, hwinner, -, -, howner⟩ := mem_importsOf.1 (List.mem_of_getElem? hx)
  rw [winnerByTournamentUid_eq, Option.map_eq_some_iff] at hwinner
  obtain ⟨⟨key, w⟩, hevent, rfl⟩ := hwinner
  exact ⟨⟨key, (h.events uid).trans hevent⟩,
    fun hold => howner (h.settles.advances.holdsDeck_iff.2 hold)⟩

theorem knownTournament_eq_some {known : List (String × Uid)} {id : String} :
    knownTournament known id = some uid ↔ known.lookup id = some uid ∧ uid ≠ "" := by
  rw [knownTournament, Option.filter_eq_some_iff]
  simp

theorem goesTo_ne_fresh (hnew : DrawsNew r before) (hgo : goesTo r before e = some uid) (k : ℕ) :
    uid ≠ r.env.freshUid k := by
  rintro rfl
  cases hknown : knownBefore before e.id with
  | some known =>
    obtain rfl := Option.some.inj ((goesTo_known hknown).symm.trans hgo)
    obtain ⟨w, hheld⟩ := knownTournament_some hknown
    rw [eventAt, AList.lookup_eq_none.2 (hnew.unused k)] at hheld
    cases hheld
  | none =>
    rw [goesTo, hknown, Option.none_or] at hgo
    obtain ⟨decision, hdecision, htarget⟩ := Option.bind_eq_some_iff.1 hgo
    cases decision with
    | attach target =>
      cases htarget
      exact hnew.undecided k _ (TwdaDecisions.named_of_get hdecision).2 rfl
    | create winner => cases htarget

theorem Settles.goesTo_of_meet (hnew : DrawsNew r before)
    (h : Settles r before r.entries s) (he : e ∈ r.entries) (he' : e' ∈ r.entries)
    (hne : e.id ≠ e'.id) (hid : s.resolved.lookup e.id = some uid)
    (hid' : s.resolved.lookup e'.id = some uid) : goesTo r before e = some uid := by
  rcases h.made e he uid hid with hgo | ⟨⟨w, hevent⟩, hnot, k, hk⟩
  · exact hgo
  exfalso
  rcases h.made e' he' uid hid' with hgo' | ⟨⟨w', hevent'⟩, -, -⟩
  · exact goesTo_ne_fresh hnew hgo' k hk
  · rw [hevent] at hevent'
    obtain ⟨hsame, -⟩ := Prod.mk.inj (Option.some.inj hevent')
    exact hne (Option.some.inj hsame)

theorem Finishes.oneDeck (hnew : DrawsNew r before) (hids : (r.entries.map TwdaEntry.id).Nodup)
    (h : Finishes r before s after) (hapart : SettlesOnce r before)
    (hd : GainedDeck before after uid d) (hd' : GainedDeck before after uid d') :
    d.uid = d'.uid := by
  obtain ⟨hmem, rfl⟩ := (gainedDeck_iff hnew h).1 hd
  obtain ⟨hmem', hsame⟩ := (gainedDeck_iff hnew h).1 hd'
  obtain ⟨i, ⟨e, uid, winner⟩, hx, rfl⟩ := mem_decksFor.1 hmem
  obtain ⟨j, ⟨e', uid', winner'⟩, hy, rfl⟩ := mem_decksFor.1 hmem'
  obtain rfl : uid' = uid := hsame
  by_cases hne : e.id = e'.id
  · obtain rfl := importsOf_apart hids hx hy hne
    rw [hx] at hy
    cases hy
    rfl
  · obtain ⟨he, hknown, hwinner, hempty, hcards, howner⟩ :=
      mem_importsOf.1 (List.mem_of_getElem? hx)
    obtain ⟨he', hknown', -, -, hcards', -⟩ := mem_importsOf.1 (List.mem_of_getElem? hy)
    have hid := (knownTournament_eq_some.1 hknown).1
    have hid' := (knownTournament_eq_some.1 hknown').1
    have hgo := h.settles.goesTo_of_meet hnew he he' hne hid hid'
    have hgo' := h.settles.goesTo_of_meet hnew he' he (Ne.symm hne) hid' hid
    rw [winnerByTournamentUid_eq, Option.map_eq_some_iff] at hwinner
    obtain ⟨⟨key, w⟩, hevent, rfl⟩ := hwinner
    rcases h.settles.old _ _ _ hevent with ⟨key', hold⟩ | ⟨k, hk⟩
    · exact absurd (h.settles.advances.holdsDeck_iff.2
        (hapart.apart e he e' he' hne hcards hcards' uid' hgo hgo' key' w hold hempty)) howner
    · exact absurd hk (goesTo_ne_fresh hnew hgo k)

/-! ### The second run -/

/-- Nothing is written, and what is resolved was resolved before as well. -/
structure Idle (s t t' : Settling) : Prop where
  objects : t'.objects = t.objects
  created : t'.created = t.created
  settled : t'.settled = t.settled
  resolved : ∀ id uid, t'.resolved.lookup id = some uid →
    t.resolved.lookup id = some uid ∨ s.resolved.lookup id = some uid

theorem idle_resolve {t : Settling} (h : s.resolved.lookup e.id = some uid) :
    Idle s t (t.resolve e.id uid) where
  objects := rfl
  created := rfl
  settled := rfl
  resolved id uid' hid := by
    change ((e.id, uid) :: t.resolved).lookup id = some uid' at hid
    by_cases heq : id = e.id
    · subst heq
      rw [lookup_cons_same] at hid
      exact .inr (hid ▸ h)
    · rw [lookup_cons_ne heq] at hid
      exact .inl hid

theorem settleEntry_again (hcorpus : Corpus before) (h : Finishes r before s after)
    (hheld : ∀ e ∈ r.entries, ∀ uid uid', HoldsKey before uid e.id → HoldsKey before uid' e.id →
      uid = uid')
    (he : e ∈ r.entries) (env : Env) (mints : ℕ → List String) (bulk : Bool) (t : Settling)
    (ht : t.objects = after) :
    ∃ t', settleEntry { r with env, mints } (tournamentsByTwdaId after) bulk t e = .ok t' ∧
      Idle s t t' := by
  unfold settleEntry
  cases hafter : knownTournament (tournamentsByTwdaId after) e.id with
  | some uid =>
    refine ⟨_, rfl, idle_resolve ?_⟩
    rcases h.settles.keys _ _ (h.holdsKey_iff.1 (knownTournament_some hafter)) with hold | ⟨-, hid⟩
    · cases hbefore : knownBefore before e.id with
      | none => exact absurd hold ((knownTournament_eq_none hcorpus).1 hbefore uid)
      | some uid' =>
        have hsame := hheld e he uid uid' hold (knownTournament_some hbefore)
        exact hsame ▸ h.settles.goes e he uid' (goesTo_known hbefore)
    · exact hid
  | none =>
    have hnone := (knownTournament_eq_none h.corpus).1 hafter
    have hbefore : knownBefore before e.id = none := (knownTournament_eq_none hcorpus).2
      fun uid hkey => hnone uid (h.holdsKey_iff.2 (h.settles.advances.holdsKey hkey))
    dsimp only
    cases hdecision : r.decisions.get e.id with
    | none => exact ⟨_, rfl, rfl, rfl, rfl, fun _ _ hid => .inl hid⟩
    | some decision =>
      cases decision with
      | attach target =>
        have hid := h.settles.goes e he target (goesTo_attach hbefore hdecision)
        cases bulk with
        | true => exact ⟨_, rfl, idle_resolve hid⟩
        | false =>
          have hleft : settleAttachment { r with env, mints } e target after = (after, false) := by
            rcases settleAttachment_spec (r := { r with env, mints }) h.corpus
              (TwdaDecisions.named_of_get hdecision).1 target with ⟨winner, hevent, -⟩ | ⟨-, heq⟩
            · rw [h.events] at hevent
              exact absurd hevent (h.settles.attached e he hbefore target hdecision winner)
            · exact heq
          refine ⟨_, rfl, ?_⟩
          rw [ht, hleft]
          exact ⟨ht.symm, rfl, rfl, (idle_resolve (t := t) hid).resolved⟩
      | create winner =>
        obtain ⟨uid, hkey⟩ := h.settles.created e he hbefore winner hdecision
        exact absurd (h.holdsKey_iff.2 hkey) (hnone uid)

theorem foldlM_again (hcorpus : Corpus before) (h : Finishes r before s after)
    (hheld : ∀ e ∈ r.entries, ∀ uid uid', HoldsKey before uid e.id → HoldsKey before uid' e.id →
      uid = uid')
    (env : Env) (mints : ℕ → List String) (bulk : Bool) (entries : List TwdaEntry)
    (hentries : ∀ e ∈ entries, e ∈ r.entries) (t : Settling) (ht : t.objects = after) :
    ∃ t', entries.foldlM (settleEntry { r with env, mints } (tournamentsByTwdaId after) bulk) t =
      .ok t' ∧ Idle s t t' := by
  induction entries generalizing t with
  | nil => exact ⟨t, rfl, rfl, rfl, rfl, fun _ _ hid => .inl hid⟩
  | cons e entries ih =>
    obtain ⟨t₁, hstep, hidle⟩ := settleEntry_again hcorpus h hheld
      (hentries e (List.mem_cons_self ..)) env mints bulk t ht
    obtain ⟨t', hrest, hidle'⟩ := ih (fun e' he' => hentries e' (List.mem_cons_of_mem _ he')) t₁
      (hidle.objects.trans ht)
    refine ⟨t', ?_, hidle'.objects.trans hidle.objects, hidle'.created.trans hidle.created,
      hidle'.settled.trans hidle.settled, fun id uid hid => ?_⟩
    · rw [List.foldlM_cons, hstep]
      exact hrest
    · rcases hidle'.resolved id uid hid with hid₁ | hs
      · exact hidle.resolved id uid hid₁
      · exact .inr hs

theorem importsOf_again (h : Finishes r before s after) {resolved : List (String × Uid)}
    (hresolved : ∀ id uid, resolved.lookup id = some uid → s.resolved.lookup id = some uid) :
    importsOf r after resolved = [] := by
  rw [List.eq_nil_iff_forall_not_mem]
  rintro ⟨e, uid, winner⟩ hmem
  obtain ⟨he, hknown, hwinner, hempty, hcards, howner⟩ := mem_importsOf.1 hmem
  obtain ⟨hid, huid⟩ := knownTournament_eq_some.1 hknown
  have hkept : ∀ k, HoldsDeck s.objects k winner → HoldsDeck after k winner := by
    rintro k ⟨deckUid, d, hrow, hrest⟩
    exact ⟨deckUid, d, (h.deck _ _ _).2 (.inl ((h.settles.advances.deck _ _ _).1 hrow)), hrest⟩
  have himport : (e, uid, winner) ∈ importsOf r s.objects s.resolved := by
    refine mem_importsOf.2 ⟨he, knownTournament_eq_some.2 ⟨hresolved _ _ hid, huid⟩, ?_, hempty,
      hcards, fun hold => howner (hkept uid hold)⟩
    rw [winnerByTournamentUid_eq, ← h.events, ← winnerByTournamentUid_eq]
    exact hwinner
  obtain ⟨i, hi⟩ := List.mem_iff_getElem?.1 himport
  have hdeck : importedDeck r e (r.env.freshUid (s.drawn + i)) uid winner ∈ importedDecks r s :=
    mem_decksFor.2 ⟨i, _, hi, rfl⟩
  exact howner ⟨_, _, (h.deck _ _ _).2 (.inr ⟨hdeck, rfl, rfl⟩), rfl, rfl⟩

theorem Finishes.again (hcorpus : Corpus before) (h : Finishes r before s after)
    (hheld : ∀ e ∈ r.entries, ∀ uid uid', HoldsKey before uid e.id → HoldsKey before uid' e.id →
      uid = uid') (env : Env) (mints : ℕ → List String) :
    ∃ stats, runTwdaSync { r with env, mints } after = .ok (after, stats) ∧
      stats.created = 0 ∧ stats.settled = 0 ∧ stats.decksCreated = 0 := by
  obtain ⟨t, hloop, hidle⟩ := foldlM_again hcorpus h hheld env mints
    (r.maxCreates.any fun m => decide (m < pendingEntries { r with env, mints }
      (tournamentsByTwdaId after)))
    r.entries (fun _ he => he) ⟨after, [], 0, 0, 0, 0⟩ rfl
  have hresolved : ∀ id uid, t.resolved.lookup id = some uid → s.resolved.lookup id = some uid :=
    fun id uid hid => (hidle.resolved id uid hid).resolve_left nofun
  obtain ⟨hobjects, hcreated, htouched⟩ := foldl_importDeck (r := { r with env, mints }) after
    t.resolved r.entries ⟨after, t.drawn, 0, [], []⟩
  have hnone : r.entries.filterMap (importFor after t.resolved) = [] := importsOf_again h hresolved
  rw [hnone] at hobjects hcreated htouched
  simp only [runTwdaSync, hloop, bind_eq_ok, pure_eq_ok, Prod.mk.injEq]
  refine ⟨_, ⟨t, rfl, ?_, rfl⟩, hidle.created, hidle.settled, ?_⟩
  · rw [importDecks, hidle.objects, htouched rfl, hobjects]
    rfl
  · dsimp only [importDecks]
    rw [hidle.objects, hcreated]
    rfl

/-! ### When it holds -/

theorem apart_of_oneDeck (hcorpus : Corpus before) (hnew : DrawsNew r before)
    (h : Finishes r before s after)
    (hone : ∀ uid d d', GainedDeck before after uid d → GainedDeck before after uid d' →
      d.uid = d'.uid)
    (he : e ∈ r.entries) (he' : e' ∈ r.entries) (hne : e.id ≠ e'.id)
    (hcards : flattenTwdaCards e ≠ []) (hcards' : flattenTwdaCards e' ≠ [])
    (hgo : goesTo r before e = some uid) (hgo' : goesTo r before e' = some uid)
    {key : Option String} {winner : Uid} (hevent : eventAt before uid = some (key, winner))
    (hempty : winner ≠ "") : HoldsDeck before uid winner := by
  by_contra howner
  have huid : uid ≠ "" := eventAt_ne_empty hcorpus (by rw [hevent]; simp)
  obtain ⟨key', hevent', -⟩ := h.settles.advances.kept uid key winner hevent
  have himport : ∀ {e}, e ∈ r.entries → flattenTwdaCards e ≠ [] → goesTo r before e = some uid →
      (e, uid, winner) ∈ importsOf r s.objects s.resolved := by
    intro e he hcards hgo
    refine mem_importsOf.2 ⟨he, knownTournament_eq_some.2 ⟨h.settles.goes e he uid hgo, huid⟩, ?_,
      hempty, hcards, fun hold => howner (h.settles.advances.holdsDeck_iff.1 hold)⟩
    rw [winnerByTournamentUid_eq, hevent', Option.map_some]
  obtain ⟨i, hi⟩ := List.mem_iff_getElem?.1 (himport he hcards hgo)
  obtain ⟨j, hj⟩ := List.mem_iff_getElem?.1 (himport he' hcards' hgo')
  have hsame := hone uid _ _ ((gainedDeck_iff hnew h).2 ⟨mem_decksFor.2 ⟨i, _, hi, rfl⟩, rfl⟩)
    ((gainedDeck_iff hnew h).2 ⟨mem_decksFor.2 ⟨j, _, hj, rfl⟩, rfl⟩)
  obtain rfl : i = j := Nat.add_left_cancel (hnew.distinct _ _ hsame)
  rw [hi] at hj
  cases hj
  exact hne rfl

/-- A run settles each entry once if and only if no entry was held twice and no two entries with
cards come to one event whose winner lacks a deck. -/
theorem twdaSettled_iff (hcorpus : Corpus before) (hnew : DrawsNew r before)
    (hids : (r.entries.map TwdaEntry.id).Nodup) (hrun : runTwdaSync r before = .ok (after, stats))
    (hdefer : stats.deferredToBackfill = 0) :
    TwdaSettled r before after ↔ SettlesOnce r before := by
  obtain ⟨s, h⟩ := finishes_of_run hcorpus hnew hids hrun hdefer
  constructor
  · intro hsettled
    refine ⟨fun e he uid uid' hkey hkey' => ?_,
      fun e he e' he' hne hcards hcards' uid hgo hgo' key winner hevent hempty => ?_⟩
    · exact hsettled.held e he uid uid' (h.holdsKey_iff.2 (h.settles.advances.holdsKey hkey))
        (h.holdsKey_iff.2 (h.settles.advances.holdsKey hkey'))
    · exact apart_of_oneDeck hcorpus hnew h hsettled.oneDeck he he' hne hcards hcards' hgo hgo'
        hevent hempty
  · intro honce
    exact ⟨fun uid d d' hd hd' => h.oneDeck hnew hids honce hd hd',
      fun uid d hd => h.missing hnew hd,
      fun e he uid uid' hkey hkey' => h.held hcorpus (honce.held e he) hkey hkey',
      fun env mints => h.again hcorpus honce.held env mints⟩

end Runs

/-- Uids are drawn one longer than the other. -/
def archiveEnv : Env :=
  { venue with freshUid := fun k => "new-object-" ++ String.ofList (List.replicate k '+') }

/-- An entry of the archive with one card. -/
def archived (id : String) : TwdaEntry :=
  ⟨id, "Prince of the City", "Paris", "2024-05-04", "2R+F", 24, "Deck", "", [(200001, 12)], []⟩

/-- A run over entries that are all attached to one event. -/
def attachedRun (ids : List String) (h : ∀ id ∈ ids, id ≠ "") : TwdaRun where
  env := archiveEnv
  entries := ids.map archived
  decisions := ⟨ids.map fun id => (id, .attach "event"), by simpa using h⟩
  maxCreates := some 50
  atlas := ⟨fun _ => (none, ""), fun _ _ => "UTC", fun _ => none, fun _ => .null, fun _ => 2, id⟩
  mints := fun _ => []

/-- The event, with a winner who has no deck. -/
def decklessEvent : StoredTournament :=
  { event with doc := { event.doc with state := .finished, winner := "a" } }

def archiveTable : Objects := saveTournament (saveUser ∅ (member "a" [])) decklessEvent

theorem archiveTable_corpus : Corpus archiveTable := by
  have hmember : Corpus (saveUser ∅ (member "a" [])) := by
    have hrow : ∀ uid t d, (saveUser ∅ (member "a" [])).lookup uid ≠ some ⟨.tournament t, d⟩ := by
      intro uid t d hrow
      by_cases huid : uid = "a"
      · rw [huid] at hrow
        cases hrow
      · have hnone : (saveUser ∅ (member "a" [])).lookup uid = none := lookup_saveObject_ne huid
        rw [hnone] at hrow
        cases hrow
    exact ⟨wellKeyed_saveUser (fun _ _ h => by cases h) _, by decide,
      fun uid t d h => absurd h (hrow uid t d), fun uid t d h => absurd h (hrow uid t d)⟩
  exact (@puts_saveTournament _ decklessEvent hmember (by decide) rfl (by decide) (by
    intro d x h
    cases h)).corpus

theorem drawsNew_attachedRun (ids : List String) (h : ∀ id ∈ ids, id ≠ "") :
    DrawsNew (attachedRun ids h) archiveTable := by
  have hlength : ∀ k, ((attachedRun ids h).env.freshUid k).length = 11 + k := by
    intro k
    have hstem : "new-object-".length = 11 := by decide
    simp only [attachedRun, archiveEnv, String.length_append, String.length_ofList,
      List.length_replicate, hstem]
  refine ⟨fun k hk => ?_, fun i j hij => ?_, fun k hk => ?_, fun k d hd hattach => ?_⟩
  · have hempty := hlength k
    rw [hk, String.length_empty] at hempty
    omega
  · have hij := congrArg String.length hij
    rw [hlength, hlength] at hij
    omega
  · have hshort : ShortUids archiveTable := by decide +kernel
    have hlt := hshort _ (AList.mem_keys.1 hk)
    rw [hlength] at hlt
    omega
  · obtain ⟨id, -, rfl⟩ := List.mem_map.1 hd
    have hk := congrArg String.length (TwdaDecision.attach.inj hattach)
    rw [hlength] at hk
    have hevent : "event".length = 5 := by decide
    omega

theorem exists_run (ids : List String) (h : ∀ id ∈ ids, id ≠ "")
    (hrun : (runTwdaSync (attachedRun ids h) archiveTable).toOption.any
      (fun x => x.2.deferredToBackfill == 0) = true) :
    ∃ after stats, runTwdaSync (attachedRun ids h) archiveTable = .ok (after, stats) ∧
      stats.deferredToBackfill = 0 := by
  cases hcase : runTwdaSync (attachedRun ids h) archiveTable with
  | error e =>
    rw [hcase] at hrun
    cases hrun
  | ok x =>
    rw [hcase] at hrun
    exact ⟨x.1, x.2, rfl, beq_iff_eq.1 hrun⟩

theorem settlesOnce_attachedRun : SettlesOnce (attachedRun ["2024a"] (by decide)) archiveTable := by
  have hentry : ∀ e ∈ (attachedRun ["2024a"] (by decide)).entries, e = archived "2024a" :=
    fun e he => List.mem_singleton.1 he
  constructor
  · intro e he uid uid' hkey
    obtain rfl := hentry e he
    have hnone : knownBefore archiveTable (archived "2024a").id = none := by decide +kernel
    exact absurd hkey ((knownTournament_eq_none archiveTable_corpus).1 hnone uid)
  · intro e he e' he' hne
    rw [hentry e he, hentry e' he'] at hne
    exact absurd rfl hne

/-- An entry is attached to the event, and its deck imported. -/
theorem twdaSettled_attached : ∃ after stats,
    runTwdaSync (attachedRun ["2024a"] (by decide)) archiveTable = .ok (after, stats) ∧
      TwdaSettled (attachedRun ["2024a"] (by decide)) archiveTable after := by
  obtain ⟨after, stats, hrun, hdefer⟩ := exists_run ["2024a"] (by decide) (by decide +kernel)
  exact ⟨after, stats, hrun, (twdaSettled_iff archiveTable_corpus (drawsNew_attachedRun _ _)
    (by decide) hrun hdefer).2 settlesOnce_attachedRun⟩

/-- Two entries are attached to the event: its winner gets two decks. -/
theorem not_twdaSettled : ∃ after stats,
    runTwdaSync (attachedRun ["2024a", "2024b"] (by decide)) archiveTable = .ok (after, stats) ∧
      stats.deferredToBackfill = 0 ∧
      ((attachedRun ["2024a", "2024b"] (by decide)).entries.map TwdaEntry.id).Nodup ∧
      ¬ TwdaSettled (attachedRun ["2024a", "2024b"] (by decide)) archiveTable after := by
  obtain ⟨after, stats, hrun, hdefer⟩ := exists_run ["2024a", "2024b"] (by decide)
    (by decide +kernel)
  refine ⟨after, stats, hrun, hdefer, by decide, fun hsettled => ?_⟩
  have hnew := drawsNew_attachedRun ["2024a", "2024b"] (by decide)
  obtain ⟨s, hfinishes⟩ := finishes_of_run archiveTable_corpus hnew (by decide) hrun hdefer
  have hcards : ∀ id, flattenTwdaCards (archived id) ≠ [] := fun id => by
    change flattenTwdaCards (archived "") ≠ []
    decide +kernel
  have hgo : ∀ id ∈ ["2024a", "2024b"], archived id ∈ (attachedRun ["2024a", "2024b"]
      (by decide)).entries ∧ goesTo (attachedRun ["2024a", "2024b"] (by decide)) archiveTable
        (archived id) = some "event" := by
    decide +kernel
  have hevent : eventAt archiveTable "event" = some (none, "a") := by decide +kernel
  obtain ⟨hfirst, hto⟩ := hgo "2024a" (by decide)
  obtain ⟨hsecond, hto'⟩ := hgo "2024b" (by decide)
  obtain ⟨uid, d, hrow, -⟩ := apart_of_oneDeck archiveTable_corpus hnew hfinishes
    hsettled.oneDeck hfirst hsecond (by decide) (hcards _) (hcards _) hto hto' hevent (by decide)
  have hnoDeck : archiveTable.rows.all (fun r => r.2.object.asDeck.isNone) = true := by
    decide +kernel
  have hmem : (uid, (⟨.deck d, none⟩ : Row)) ∈ archiveTable.rows := mem_rows.2 hrow
  cases List.all_eq_true.1 hnoDeck _ hmem

end Archon.Backend

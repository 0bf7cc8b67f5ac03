import Archon.Backend.EventCodes
import Archon.Backend.Scenario

/-!
# Short links are stable

A code always leads to its tournament. A string that leads to a tournament by its VEKN id goes on
doing so as long as no other tournament gets a code that reads the same, and none else is given
the id: the check for a free code looks at the codes only, not at the VEKN ids in use.
-/

namespace Archon.Backend
open Engine Guards

section ShortLinks

variable {objects objects' : Objects} {t t' o : StoredTournament} {s : String} {uid : Uid}

/-! ### Live rows -/

/-- The table: rows under their uid, the column as the document, no code twice, no VEKN id twice
among the live. -/
structure LinkIndex (objects : Objects) : Prop where
  keyed : WellKeyed objects
  column : ∀ uid t d, objects.lookup uid = some ⟨.tournament t, d⟩ → d = t.deletedAt
  codes : ∀ uid t d uid' t' d', objects.lookup uid = some ⟨.tournament t, d⟩ →
    objects.lookup uid' = some ⟨.tournament t', d'⟩ → t'.code ≠ "" → t.hasCode t'.code = true →
      uid = uid'
  holders : ∀ t ∈ liveTournaments objects, ∀ t' ∈ liveTournaments objects, ∀ v,
    t.vekn = some v → t'.vekn = some v → t.uid = t'.uid

theorem asTournament_eq_some_iff {x : StoredObject} :
    x.asTournament = some t ↔ x = .tournament t := by
  cases x <;> simp [StoredObject.asTournament]

theorem mem_liveTournaments (h : WellKeyed objects) :
    t ∈ liveTournaments objects ↔ objects.lookup t.uid = some ⟨.tournament t, none⟩ := by
  unfold liveTournaments
  rw [List.mem_filterMap]
  constructor
  · rintro ⟨⟨uid, row⟩, hrow, hlive⟩
    rw [mem_rows] at hrow
    unfold Row.liveTournament at hlive
    split at hlive
    · rename_i hd
      have hobject := asTournament_eq_some_iff.1 hlive
      have hkey : row.uid = uid := h uid row hrow
      obtain ⟨object, d⟩ := row
      obtain rfl : object = .tournament t := hobject
      obtain rfl : d = none := hd
      rw [show t.uid = uid from hkey]
      exact hrow
    · cases hlive
  · intro hrow
    exact ⟨(t.uid, ⟨.tournament t, none⟩), mem_rows.2 hrow, rfl⟩

theorem live_eq_of_uid (h : WellKeyed objects) (ht : t ∈ liveTournaments objects)
    (ht' : t' ∈ liveTournaments objects) (heq : t.uid = t'.uid) : t = t' := by
  have hrow := (mem_liveTournaments h).1 ht
  rw [heq, (mem_liveTournaments h).1 ht'] at hrow
  cases hrow
  rfl

theorem column_save
    (h : ∀ uid t d, objects.lookup uid = some ⟨.tournament t, d⟩ → d = t.deletedAt) :
    ∀ uid t d, (saveTournament objects t').lookup uid = some ⟨.tournament t, d⟩ →
      d = t.deletedAt := by
  intro uid t d hrow
  by_cases huid : uid = t'.uid
  · rw [huid, saveTournament, lookup_saveObject] at hrow
    cases hrow
    rfl
  · rw [lookup_saveTournament_ne huid] at hrow
    exact h uid t d hrow

theorem StoredTournament.hasCode_iff :
    t.hasCode s = true ↔ t.code ≠ "" ∧ lower t.code = lower s := by
  simp [StoredTournament.hasCode]

theorem LinkIndex.uid_of_code (h : LinkIndex objects) (ht : t ∈ liveTournaments objects)
    (ht' : t' ∈ liveTournaments objects) (hs : t.hasCode s = true) (hs' : t'.hasCode s = true) :
    t.uid = t'.uid := by
  rw [StoredTournament.hasCode_iff] at hs hs'
  refine h.codes _ t _ _ t' _ ((mem_liveTournaments h.keyed).1 ht)
    ((mem_liveTournaments h.keyed).1 ht') hs'.1 ?_
  exact StoredTournament.hasCode_iff.2 ⟨hs.1, hs.2.trans hs'.2.symm⟩

/-! ### Resolution -/

/-- How a live tournament is found: by its code, or by its VEKN id when no code matches. -/
def FoundBy (objects : Objects) (s : String) (t : StoredTournament) : Prop :=
  t ∈ liveTournaments objects ∧ (t.hasCode s = true ∨
    ((∀ o ∈ liveTournaments objects, o.hasCode s = false) ∧ t.vekn = some s))

theorem foundBy_of_resolves {pick : List StoredTournament → Option StoredTournament}
    (hpick : PicksRow pick) (h : getTournamentByEventCode pick objects s = some t) :
    FoundBy objects s t := by
  unfold getTournamentByEventCode at h
  cases hcode : pick ((liveTournaments objects).filter fun t => t.hasCode s) with
  | some t₁ =>
    rw [hcode, Option.some_or] at h
    obtain rfl := Option.some.inj h
    have hmem := List.mem_filter.1 (hpick.mem _ _ hcode)
    exact ⟨hmem.1, .inl hmem.2⟩
  | none =>
    rw [hcode, Option.none_or] at h
    have hmem := List.mem_filter.1 (hpick.mem _ _ h)
    refine ⟨hmem.1, .inr ⟨fun o ho => ?_, by simpa using hmem.2⟩⟩
    have hnone := List.filter_eq_nil_iff.1 (hpick.found _ hcode) o ho
    simpa using hnone

theorem LinkIndex.uid_of_foundBy (h : LinkIndex objects) (ht : FoundBy objects s t)
    (ht' : FoundBy objects s t') : t.uid = t'.uid := by
  obtain ⟨hlive, hcode | ⟨hnone, hvekn⟩⟩ := ht
  · obtain ⟨hlive', hcode' | ⟨hnone', -⟩⟩ := ht'
    · exact h.uid_of_code hlive hlive' hcode hcode'
    · rw [hnone' t hlive] at hcode
      cases hcode
  · obtain ⟨hlive', hcode' | ⟨-, hvekn'⟩⟩ := ht'
    · rw [hnone t' hlive'] at hcode'
      cases hcode'
    · exact h.holders t hlive t' hlive' s hvekn hvekn'

theorem LinkIndex.resolvesTo (h : LinkIndex objects) (ht : FoundBy objects s t) :
    ResolvesTo objects s t.uid := by
  intro pick hpick
  have hsome : ∃ t', getTournamentByEventCode pick objects s = some t' := by
    unfold getTournamentByEventCode
    cases hcode : pick ((liveTournaments objects).filter fun t => t.hasCode s) with
    | some t₁ => exact ⟨t₁, rfl⟩
    | none =>
      rw [Option.none_or, getTournamentByVeknEventId]
      cases hvekn : pick ((liveTournaments objects).filter fun t => t.vekn == some s) with
      | some t₁ => exact ⟨t₁, rfl⟩
      | none =>
        have hcodes := List.filter_eq_nil_iff.1 (hpick.found _ hcode) t ht.1
        have hids := List.filter_eq_nil_iff.1 (hpick.found _ hvekn) t ht.1
        obtain ⟨-, hmatch | ⟨-, hmatch⟩⟩ := ht
        · exact absurd hmatch hcodes
        · exact absurd (by simpa using hmatch) hids
  obtain ⟨t', ht'⟩ := hsome
  exact ⟨t', ht', h.uid_of_foundBy (foundBy_of_resolves hpick ht') ht⟩

theorem foundBy_of_mayResolve (h : MayResolveTo objects s uid) :
    ∃ t, FoundBy objects s t ∧ t.uid = uid := by
  obtain ⟨pick, hpick, t, ht, huid⟩ := h
  exact ⟨t, foundBy_of_resolves hpick ht, huid⟩

/-! ### Saving a tournament -/

theorem mem_liveTournaments_save (h : WellKeyed objects) :
    o ∈ liveTournaments (saveTournament objects t') ↔
      (o = t' ∧ t'.deletedAt = none) ∨ (o.uid ≠ t'.uid ∧ o ∈ liveTournaments objects) := by
  rw [mem_liveTournaments (wellKeyed_saveTournament h t'), mem_liveTournaments h]
  by_cases huid : o.uid = t'.uid
  · rw [huid, saveTournament, lookup_saveObject]
    constructor
    · intro heq
      simp only [Option.some.injEq, Row.mk.injEq, StoredObject.tournament.injEq] at heq
      exact .inl ⟨heq.1.symm, heq.2⟩
    · rintro (⟨rfl, hd⟩ | ⟨hne, -⟩)
      · rw [hd]
      · exact absurd rfl hne
  · rw [lookup_saveTournament_ne huid]
    constructor
    · exact fun hrow => .inr ⟨huid, hrow⟩
    · rintro (⟨rfl, -⟩ | ⟨-, hrow⟩)
      · exact absurd rfl huid
      · exact hrow

/-- No other live tournament has a VEKN id that reads as the code. -/
def Unread (objects : Objects) (uid : Uid) (code : String) : Prop :=
  ∀ o ∈ liveTournaments objects, o.uid ≠ uid → ∀ v ∈ o.vekn, lower v ≠ lower code

/-- No other live tournament has the VEKN id. -/
def HeldByNoOther (objects : Objects) (uid : Uid) (eventId : String) : Prop :=
  ∀ o ∈ liveTournaments objects, o.uid ≠ uid → o.vekn ≠ some eventId

/-- What a save must respect: the index, the ids of the others, and a code of its own that it had
before or that reads as nobody's id. -/
structure LinkSave (objects : Objects) (t' : StoredTournament) : Prop where
  index : CodeFree objects t'
  holder : t'.deletedAt = none → ∀ v, t'.vekn = some v → HeldByNoOther objects t'.uid v
  code : t'.deletedAt = none → t'.code = "" ∨
    (∃ t ∈ liveTournaments objects, t.uid = t'.uid ∧ t.code = t'.code) ∨
    Unread objects t'.uid t'.code

theorem LinkIndex.save (h : LinkIndex objects) (hs : LinkSave objects t') :
    LinkIndex (saveTournament objects t') := by
  have hother : ∀ k o d, objects.lookup k = some ⟨.tournament o, d⟩ → k ≠ t'.uid →
      t'.code ≠ "" → o.hasCode t'.code = false := fun k o d hrow hne hcode =>
    hs.index hcode (k, ⟨.tournament o, d⟩) (mem_rows.2 hrow) hne o rfl
  refine ⟨wellKeyed_saveTournament h.keyed t', column_save h.column,
    fun k o d k' o' d' hrow hrow' hne hcode => ?_, fun o ho o' ho' v hv hv' => ?_⟩
  · by_cases hk : k = t'.uid
    · by_cases hk' : k' = t'.uid
      · rw [hk, hk']
      · rw [lookup_saveTournament_ne hk'] at hrow'
        rw [hk, saveTournament, lookup_saveObject] at hrow
        cases hrow
        rw [StoredTournament.hasCode_iff] at hcode
        have hfree := hother k' o' d' hrow' hk' hcode.1
        have hmatch : o'.hasCode t'.code = true :=
          StoredTournament.hasCode_iff.2 ⟨hne, hcode.2.symm⟩
        rw [hmatch] at hfree
        cases hfree
    · rw [lookup_saveTournament_ne hk] at hrow
      by_cases hk' : k' = t'.uid
      · rw [hk', saveTournament, lookup_saveObject] at hrow'
        cases hrow'
        rw [hother k o d hrow hk hne] at hcode
        cases hcode
      · rw [lookup_saveTournament_ne hk'] at hrow'
        exact h.codes k o d k' o' d' hrow hrow' hne hcode
  · rw [mem_liveTournaments_save h.keyed] at ho ho'
    rcases ho with ⟨rfl, hd⟩ | ⟨hne, ho⟩
    · rcases ho' with ⟨rfl, -⟩ | ⟨hne', ho'⟩
      · rfl
      · exact absurd hv' (hs.holder hd v hv o' ho' hne')
    · rcases ho' with ⟨rfl, hd'⟩ | ⟨hne', ho'⟩
      · exact absurd hv (hs.holder hd' v hv' o ho hne)
      · exact h.holders o ho o' ho' v hv hv'

theorem LinkIndex.found_save (h : LinkIndex objects) (hs : LinkSave objects t')
    (ht : FoundBy objects s t) (ho : o ∈ liveTournaments (saveTournament objects t'))
    (huid : o.uid = t.uid) (hcode : o.code = t.code) (hvekn : o.vekn = t.vekn) :
    FoundBy (saveTournament objects t') s o := by
  refine ⟨ho, ?_⟩
  obtain ⟨hlive, hmatch | ⟨hnone, hid⟩⟩ := ht
  · left
    rwa [StoredTournament.hasCode, hcode, ← StoredTournament.hasCode]
  · refine .inr ⟨fun x hx => ?_, hvekn.trans hid⟩
    rw [mem_liveTournaments_save h.keyed] at hx
    rcases hx with ⟨rfl, hd⟩ | ⟨-, hx⟩
    · -- The row saved: its own code did not match before, a new one reads as nobody's id.
      rw [Bool.eq_false_iff]
      intro hx
      rw [StoredTournament.hasCode_iff] at hx
      have hself : ∀ t₀ ∈ liveTournaments objects, t₀.code = x.code → False := by
        intro t₀ ht₀ heq
        have hfalse := hnone t₀ ht₀
        rw [StoredTournament.hasCode_iff.2 ⟨heq ▸ hx.1, heq ▸ hx.2⟩] at hfalse
        cases hfalse
      rcases hs.code hd with hempty | ⟨t₀, ht₀, -, heq⟩ | hunread
      · exact hx.1 hempty
      · exact hself t₀ ht₀ heq
      · by_cases hsame : t.uid = x.uid
        · rw [mem_liveTournaments_save h.keyed] at ho
          rcases ho with ⟨rfl, -⟩ | ⟨hne, -⟩
          · exact hself t hlive hcode.symm
          · exact hne (huid.trans hsame)
        · exact hunread t hlive hsame s hid hx.2.symm
    · exact hnone x hx

/-! ### The writers -/

/-- The first candidate no row has reads as no other live tournament's VEKN id. -/
def FreeUnread (objects : Objects) (uid : Uid) : List String → Prop
  | [] => True
  | code :: codes =>
    if eventCodeTaken objects code = true then FreeUnread objects uid codes
    else Unread objects uid code

/-- No code handed out reads as the VEKN id of another live tournament, and no VEKN id is brought
to a tournament while another live one has it. -/
def KeepsLinks (objects : Objects) : LinkWrite → Prop
  | .created _ | .softDeleted _ _ | .adopted _ _ => True
  | .broughtOnline t draws => (∀ v ∈ t.vekn, HeldByNoOther objects t.uid v) ∧
      if t.code = "" then FreeUnread objects t.uid (offeredCodes t draws)
      else Unread objects t.uid t.code
  | .synced t eventId draws =>
    FreeUnread objects t.uid (offeredCodes (t.withExternalIds [("vekn", eventId)]) draws)
  | .reconstructed t entryId draws =>
    FreeUnread objects t.uid (offeredCodes (t.withExternalIds [("twda", entryId)]) draws)
  | .pushed uid eventId => HeldByNoOther objects uid eventId
  | .codeEnsured uid draws => ∀ t ∈ objects.tournament? uid, t.code = "" →
      FreeUnread objects uid (offeredCodes t draws)

theorem unread_of_resolveCode {codes : List String} {code : String}
    (h : FreeUnread objects uid codes)
    (hcode : codes.find? (fun c => !eventCodeTaken objects c) = some code) :
    Unread objects uid code := by
  induction codes with
  | nil => cases hcode
  | cons c codes ih =>
    unfold FreeUnread at h
    rw [List.find?_cons] at hcode
    split at h
    · rename_i htaken
      rw [htaken] at hcode
      exact ih h hcode
    · rename_i hfree
      rw [Bool.not_eq_true] at hfree
      rw [hfree] at hcode
      obtain rfl := Option.some.inj hcode
      exact h

theorem saveIndexed_ok (h : saveIndexed objects t = .ok objects') :
    CodeFree objects t ∧ objects' = saveTournament objects t := by
  simp only [saveIndexed, bind_eq_ok, ensure_eq_ok, exists_const, pure_eq_ok] at h
  exact ⟨h.1, h.2.symm⟩

theorem saveCoded_ok {draws : List String}
    (hid : t.deletedAt = none → ∀ v, t.vekn = some v → HeldByNoOther objects t.uid v)
    (hfree : FreeUnread objects t.uid (offeredCodes t draws))
    (h : saveCoded objects t draws = .ok objects') :
    ∃ t', LinkSave objects t' ∧ objects' = saveTournament objects t' := by
  obtain ⟨code, hcode, hsave⟩ := bind_eq_ok.1 h
  have hfound := okOr_eq_ok.1 hcode
  obtain ⟨hindex, rfl⟩ := saveIndexed_ok hsave
  exact ⟨t.withCode code, ⟨hindex, hid, fun _ => .inr (.inr (unread_of_resolveCode hfree hfound))⟩,
    rfl⟩

theorem vekn_withVekn (t : StoredTournament) (eventId : String) :
    (t.withVekn eventId).vekn = some eventId := lookup_setExternalId_self _ _ _

theorem LinkIndex.mem_live (h : LinkIndex objects) (ht : objects.tournament? uid = some t)
    (hd : t.deletedAt = none) : t ∈ liveTournaments objects ∧ t.uid = uid := by
  rw [tournament?_eq_some, find?_eq_some] at ht
  obtain ⟨d, hrow⟩ := ht
  obtain rfl := (h.column uid t d hrow).trans hd
  have huid : t.uid = uid := h.keyed uid _ hrow
  exact ⟨(mem_liveTournaments h.keyed).2 (huid ▸ hrow), huid⟩

theorem LinkIndex.uid_eq (h : LinkIndex objects) (ht : objects.tournament? uid = some t) :
    t.uid = uid := h.keyed.uid_eq (tournament?_eq_some.1 ht)

theorem LinkIndex.linkSave_withVekn (h : LinkIndex objects) {eventId : String}
    (ht : objects.tournament? uid = some t) (hid : HeldByNoOther objects uid eventId)
    (hindex : CodeFree objects (t.withVekn eventId)) : LinkSave objects (t.withVekn eventId) where
  index := hindex
  holder _ v hv := by
    have huid : t.uid = uid := h.uid_eq ht
    rw [vekn_withVekn] at hv
    rw [← Option.some.inj hv, show (t.withVekn eventId).uid = uid from huid]
    exact hid
  code hd := .inr (.inl ⟨t, (h.mem_live ht hd).1, rfl, rfl⟩)

theorem LinkIndex.serve (h : LinkIndex objects) {w : LinkWrite} (hok : KeepsLinks objects w)
    (hs : w.serve objects = .ok objects') :
    objects' = objects ∨ ∃ t', LinkSave objects t' ∧ objects' = saveTournament objects t' := by
  cases w with
  | created t =>
    obtain ⟨hindex, rfl⟩ := saveIndexed_ok hs
    exact .inr ⟨_, ⟨hindex, fun _ v hv => (by cases hv), fun _ => .inl rfl⟩, rfl⟩
  | broughtOnline t draws =>
    obtain ⟨hid, hcode⟩ := hok
    simp only [LinkWrite.serve] at hs
    split at hs
    · rename_i hempty
      rw [if_pos hempty] at hcode
      exact .inr (saveCoded_ok (t := t.undeleted) (fun _ => hid) hcode hs)
    · rename_i hgiven
      rw [if_neg hgiven] at hcode
      obtain ⟨hindex, rfl⟩ := saveIndexed_ok hs
      exact .inr ⟨_, ⟨hindex, fun _ => hid, fun _ => .inr (.inr hcode)⟩, rfl⟩
  | synced t eventId draws =>
    simp only [LinkWrite.serve, bind_eq_ok, ensure_eq_ok, exists_const] at hs
    refine .inr (saveCoded_ok (t := (t.withExternalIds [("vekn", eventId)]).undeleted)
      (fun _ v hv o ho _ => ?_) hok hs.2)
    have hvekn : (t.withExternalIds [("vekn", eventId)]).undeleted.vekn = some eventId := by
      simp [StoredTournament.vekn, StoredTournament.externalId, StoredTournament.undeleted,
        StoredTournament.withExternalIds]
    rw [hvekn] at hv
    exact Option.some.inj hv ▸ hs.1 o ho
  | reconstructed t entryId draws =>
    refine .inr (saveCoded_ok (t := (t.withExternalIds [("twda", entryId)]).undeleted)
      (fun _ v hv => ?_) hok hs)
    simp [StoredTournament.vekn, StoredTournament.externalId, StoredTournament.undeleted,
      StoredTournament.withExternalIds] at hv
  | pushed uid eventId =>
    simp only [LinkWrite.serve, bind_eq_ok, okOr_eq_ok] at hs
    obtain ⟨t, ht, hs⟩ := hs
    obtain ⟨hindex, rfl⟩ := saveIndexed_ok hs
    exact .inr ⟨_, h.linkSave_withVekn ht hok hindex, rfl⟩
  | adopted uid eventId =>
    simp only [LinkWrite.serve, bind_eq_ok, okOr_eq_ok, ensure_eq_ok, exists_const] at hs
    obtain ⟨hfree, t, ht, -, hs⟩ := hs
    obtain ⟨hindex, rfl⟩ := saveIndexed_ok hs
    exact .inr ⟨_, h.linkSave_withVekn ht (fun o ho _ => hfree o ho) hindex, rfl⟩
  | codeEnsured uid draws =>
    simp only [LinkWrite.serve, bind_eq_ok, okOr_eq_ok] at hs
    obtain ⟨t, ht, hs⟩ := hs
    split at hs
    · rename_i hempty
      have huid := h.uid_eq ht
      refine .inr (saveCoded_ok (fun hd v hv o ho hne hv' => hne ?_) (huid ▸ hok t ht hempty) hs)
      exact h.holders o ho t (h.mem_live ht hd).1 v hv' hv
    · exact .inl (pure_eq_ok.1 hs).symm
  | softDeleted uid now =>
    simp only [LinkWrite.serve, bind_eq_ok, okOr_eq_ok] at hs
    obtain ⟨t, -, hs⟩ := hs
    obtain ⟨hindex, rfl⟩ := saveIndexed_ok hs
    exact .inr ⟨_, ⟨hindex, fun hd => (by cases hd), fun hd => (by cases hd)⟩, rfl⟩

theorem linkIndex_empty : LinkIndex ∅ where
  keyed uid row hrow := by simp at hrow
  column uid t d hrow := by simp at hrow
  codes uid t d uid' t' d' hrow := by simp at hrow
  holders t ht := by simp [liveTournaments, Objects.rows] at ht

theorem LinkIndex.step (h : LinkIndex objects) {w : LinkWrite} (hok : KeepsLinks objects w)
    (hs : linkSystem.step objects w objects') : LinkIndex objects' := by
  rcases h.serve hok hs.2 with rfl | ⟨t', hsave, rfl⟩
  · exact h
  · exact h.save hsave

theorem linkIndex_of_reaches (h : linkSystem.Reaches KeepsLinks objects) : LinkIndex objects := by
  refine h.invariant (fun s hs => ?_) fun s i s' hp hok hs => hp.step hok hs
  rw [show s = ∅ from hs]
  exact linkIndex_empty

/-! ### Stable links -/

/-- The tournament is live with the code and the VEKN id. -/
def HasHandle (uid : Uid) (code : String) (vekn : Option String) (objects : Objects) : Prop :=
  ∃ t ∈ liveTournaments objects, t.uid = uid ∧ t.code = code ∧ t.vekn = vekn

/-- The step and the tournament before it: the link is kept and the handle is there. -/
def KeepsHandle (uid : Uid) (code : String) (vekn : Option String) (objects : Objects)
    (w : LinkWrite) : Prop :=
  KeepsLinks objects w ∧ HasHandle uid code vekn objects

/-- In every run whose writes hand out no code that reads as another live tournament's VEKN id and
bring no VEKN id to a second one: a live tournament with a code is found by it in any case, and a
string that may lead to a live tournament leads to it after any further such run in which the
tournament stays live with its code and VEKN id. -/
theorem links_stable (h : linkSystem.Reaches KeepsLinks objects) :
    (∀ t ∈ liveTournaments objects, t.code ≠ "" → ∀ s, lower s = lower t.code →
      ResolvesTo objects s t.uid) ∧
    ∀ s uid code vekn objects', MayResolveTo objects s uid →
      (linkSystem.startedAt objects).Reaches (KeepsHandle uid code vekn) objects' →
      HasHandle uid code vekn objects' → ResolvesTo objects' s uid := by
  have hindex := linkIndex_of_reaches h
  refine ⟨fun t ht hcode s hs => ?_, fun s uid code vekn objects' hmay hrun hend => ?_⟩
  · exact hindex.resolvesTo ⟨ht, .inl (StoredTournament.hasCode_iff.2 ⟨hcode, hs.symm⟩)⟩
  · obtain ⟨t₀, hfound, huid₀⟩ := foundBy_of_mayResolve hmay
    -- While the handle is there, the string finds it.
    have hkept : LinkIndex objects' ∧ (HasHandle uid code vekn objects' →
        ∃ t, FoundBy objects' s t ∧ t.uid = uid) := by
      refine hrun.invariant (P := fun x => LinkIndex x ∧ (HasHandle uid code vekn x →
        ∃ t, FoundBy x s t ∧ t.uid = uid)) (fun x hx => ?_) fun x w x' hp hok hs => ?_
      · rw [show x = objects from hx]
        exact ⟨hindex, fun _ => ⟨t₀, hfound, huid₀⟩⟩
      · refine ⟨hp.1.step hok.1 hs, fun ⟨o, ho, huid, hcode, hvekn⟩ => ?_⟩
        obtain ⟨t, ht, htuid⟩ := hp.2 hok.2
        obtain ⟨t₁, ht₁, huid₁, hcode₁, hvekn₁⟩ := hok.2
        obtain rfl := live_eq_of_uid hp.1.keyed ht.1 ht₁ (htuid.trans huid₁.symm)
        rcases hp.1.serve hok.1 hs.2 with rfl | ⟨t', hsave, rfl⟩
        · exact ⟨t, ht, htuid⟩
        · exact ⟨o, hp.1.found_save hsave ht ho (huid.trans htuid.symm) (hcode.trans hcode₁.symm)
            (hvekn.trans hvekn₁.symm), huid⟩
    obtain ⟨t, ht, huid⟩ := hkept.2 hend
    exact huid ▸ hkept.1.resolvesTo ht

/-! ### Runs -/

instance (objects : Objects) (uid : Uid) (code : String) : Decidable (Unread objects uid code) :=
  inferInstanceAs (Decidable (∀ o ∈ liveTournaments objects, o.uid ≠ uid →
    ∀ v ∈ o.vekn, lower v ≠ lower code))

instance (objects : Objects) (uid : Uid) (eventId : String) :
    Decidable (HeldByNoOther objects uid eventId) :=
  inferInstanceAs (Decidable (∀ o ∈ liveTournaments objects, o.uid ≠ uid →
    o.vekn ≠ some eventId))

instance decidableFreeUnread (objects : Objects) (uid : Uid) :
    ∀ codes, Decidable (FreeUnread objects uid codes)
  | [] => isTrue trivial
  | code :: codes =>
    have := decidableFreeUnread objects uid codes
    inferInstanceAs (Decidable (if eventCodeTaken objects code = true then
      FreeUnread objects uid codes else Unread objects uid code))

instance (objects : Objects) : ∀ w, Decidable (KeepsLinks objects w)
  | .created _ | .softDeleted _ _ | .adopted _ _ => isTrue trivial
  | .broughtOnline t draws => inferInstanceAs (Decidable (
      (∀ v ∈ t.vekn, HeldByNoOther objects t.uid v) ∧
        if t.code = "" then FreeUnread objects t.uid (offeredCodes t draws)
        else Unread objects t.uid t.code))
  | .synced t eventId draws => inferInstanceAs (Decidable (FreeUnread objects t.uid
      (offeredCodes (t.withExternalIds [("vekn", eventId)]) draws)))
  | .reconstructed t entryId draws => inferInstanceAs (Decidable (FreeUnread objects t.uid
      (offeredCodes (t.withExternalIds [("twda", entryId)]) draws)))
  | .pushed uid eventId => inferInstanceAs (Decidable (HeldByNoOther objects uid eventId))
  | .codeEnsured uid draws => inferInstanceAs (Decidable (∀ t ∈ objects.tournament? uid,
      t.code = "" → FreeUnread objects uid (offeredCodes t draws)))

/-- The rows after the writes, if all are accepted, bring new uids and meet the condition. -/
def linksAfter (ok : Objects → LinkWrite → Prop) [∀ s w, Decidable (ok s w)]
    (writes : List LinkWrite) : Option Objects :=
  System.replay (fun s (w : LinkWrite) => w.serve s)
    (fun s w => (∀ uid ∈ w.newUid, uid ∉ s) ∧ ok s w) ∅ writes

theorem exists_reaches_of_linksAfter (ok : Objects → LinkWrite → Prop)
    [∀ s w, Decidable (ok s w)] (writes : List LinkWrite) (p : Objects → Bool)
    (h : (linksAfter ok writes).any p = true) :
    ∃ objects, linkSystem.Reaches ok objects ∧ p objects = true := by
  cases hr : linksAfter ok writes with
  | none => simp [hr] at h
  | some objects =>
    rw [hr, Option.any_some] at h
    have hstep : ∀ s (w : LinkWrite) s', (∀ uid ∈ w.newUid, uid ∉ s) ∧ ok s w →
        w.serve s = .ok s' → linkSystem.step s w s' := fun _ _ _ hw hs => ⟨hw.1, hs⟩
    exact ⟨objects, System.reaches_replay_of (fun _ _ hw => hw.2) hstep writes ∅ objects
      (.init rfl) hr, h⟩

/-- An event under a uid of its own. -/
def eventNamed (uid : Uid) : StoredTournament :=
  { event with doc := { event.doc with uid := some uid } }

theorem uid_eventNamed (uid : Uid) : (eventNamed uid).uid = uid := rfl

/-- An event of the app whose push to vekn.net succeeds after its code was minted. -/
def latePush : List LinkWrite :=
  [.created (eventNamed "a"), .codeEnsured "a" ["QX7K2M"], .pushed "a" "1234"]

theorem picksRow_head : PicksRow List.head? where
  mem _ _ h := List.mem_of_head? h
  found _ h := List.head?_eq_none_iff.1 h

/-- Where the string leads, picking the first row. -/
def leadsFirst (objects : Objects) (s : String) : Option Uid :=
  (getTournamentByEventCode List.head? objects s).map StoredTournament.uid

theorem mayResolveTo_of_leadsFirst (h : leadsFirst objects s = some uid) :
    MayResolveTo objects s uid := by
  obtain ⟨t, ht, huid⟩ := Option.map_eq_some_iff.1 h
  exact ⟨List.head?, picksRow_head, t, ht, huid⟩

instance (uid : Uid) (code : String) (vekn : Option String) (objects : Objects) :
    Decidable (HasHandle uid code vekn objects) :=
  inferInstanceAs (Decidable (∃ t ∈ liveTournaments objects,
    t.uid = uid ∧ t.code = code ∧ t.vekn = vekn))

/-- The row of the tournament when it is among those found, else the first. -/
def pickUid (uid : Uid) (rows : List StoredTournament) : Option StoredTournament :=
  (rows.find? fun t => t.uid == uid).or rows.head?

theorem picksRow_pickUid (uid : Uid) : PicksRow (pickUid uid) where
  mem rows t h := by
    rcases Option.or_eq_some_iff.1 h with h | ⟨-, h⟩
    · exact List.mem_of_find?_eq_some h
    · exact List.mem_of_head? h
  found rows h := List.head?_eq_none_iff.1 (Option.or_eq_none_iff.1 h).2

theorem mayResolveTo_of_code (ht : t ∈ liveTournaments objects) (hs : t.hasCode s = true) :
    MayResolveTo objects s t.uid := by
  have hmem : t ∈ (liveTournaments objects).filter fun t => t.hasCode s :=
    List.mem_filter.2 ⟨ht, hs⟩
  cases hfind : ((liveTournaments objects).filter fun t => t.hasCode s).find?
      fun o => o.uid == t.uid with
  | none => simpa using List.find?_eq_none.1 hfind t hmem
  | some t' =>
    refine ⟨pickUid t.uid, picksRow_pickUid t.uid, t', ?_, by simpa using List.find?_some hfind⟩
    rw [getTournamentByEventCode, pickUid, hfind, Option.some_or, Option.some_or]

/-- The late push: the event is found by its code, in any case, and by its VEKN id. -/
theorem links_stable_latePush :
    ∃ objects, linkSystem.Reaches KeepsLinks objects ∧
      ResolvesTo objects "qx7k2m" "a" ∧ ResolvesTo objects "1234" "a" := by
  obtain ⟨objects, h, hp⟩ := exists_reaches_of_linksAfter KeepsLinks latePush
    (fun s => leadsFirst s "1234" == some "a"
      && decide (HasHandle "a" "QX7K2M" (some "1234") s)) (by decide +kernel)
  simp only [Bool.and_eq_true, beq_iff_eq, decide_eq_true_eq] at hp
  obtain ⟨hvekn, hhandle⟩ := hp
  obtain ⟨t, ht, huid, hcode, -⟩ := id hhandle
  have hcase : lower "qx7k2m" = lower t.code := by
    rw [hcode, lower, lower, ← String.toList_inj, String.toList_map, String.toList_map]
    decide
  exact ⟨objects, h, huid ▸ (links_stable h).1 t ht (by rw [hcode]; decide) "qx7k2m" hcase,
    (links_stable h).2 "1234" "a" "QX7K2M" (some "1234") objects
      (mayResolveTo_of_leadsFirst hvekn) (.init rfl) hhandle⟩

/-- The archive holds an entry under the number: its reconstruction takes the number as its code,
and the link to the first event, live and unchanged, leads to the other. -/
theorem not_links_stable :
    ∃ objects w objects', linkSystem.Reachable objects ∧ linkSystem.step objects w objects' ∧
      ResolvesTo objects "1234" "a" ∧ HasHandle "a" "QX7K2M" (some "1234") objects ∧
      HasHandle "a" "QX7K2M" (some "1234") objects' ∧ MayResolveTo objects' "1234" "b" := by
  obtain ⟨objects, h, hp⟩ := exists_reaches_of_linksAfter KeepsLinks latePush
    (fun s => leadsFirst s "1234" == some "a" && decide (HasHandle "a" "QX7K2M" (some "1234") s) &&
      decide ("b" ∉ s) && ((LinkWrite.reconstructed (eventNamed "b") "1234"
        []).serve s).toOption.any
        fun s' => decide (HasHandle "a" "QX7K2M" (some "1234") s') &&
          decide (HasHandle "b" "1234" none s')) (by decide +kernel)
  simp only [Bool.and_eq_true, beq_iff_eq, decide_eq_true_eq, Option.any_eq_true] at hp
  obtain ⟨⟨⟨hfirst, hhandle⟩, hnew⟩, objects', hserve, hhandle', t', ht', huid', hcode', -⟩ := hp
  have hindex := linkIndex_of_reaches h
  obtain ⟨t, hfound, huid⟩ := foundBy_of_mayResolve (mayResolveTo_of_leadsFirst hfirst)
  refine ⟨objects, .reconstructed (eventNamed "b") "1234" [], objects', h.reachable, ⟨?_, ?_⟩,
    huid ▸ hindex.resolvesTo hfound, hhandle, hhandle', huid' ▸ mayResolveTo_of_code ht' ?_⟩
  · intro uid huid
    have hb : (eventNamed "b").uid = uid := Option.some.inj huid
    rw [uid_eventNamed] at hb
    rw [← hb]
    exact hnew
  · cases hs : (LinkWrite.reconstructed (eventNamed "b") "1234" []).serve objects with
    | error e =>
      rw [hs] at hserve
      cases hserve
    | ok s' =>
      rw [hs] at hserve
      cases hserve
      rfl
  · exact StoredTournament.hasCode_iff.2 ⟨by rw [hcode']; decide, by rw [hcode']⟩

end ShortLinks

end Archon.Backend

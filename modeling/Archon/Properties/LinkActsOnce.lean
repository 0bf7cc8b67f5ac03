import Mathlib.Data.Fintype.Basic
import Archon.Backend.Scenario
import Archon.Backend.MagicLinks

/-!
# A magic link acts once

A link sets one password, no token minted from it works afterwards, and a refused request has
written nothing: in the runs where a password is set while no other token of its link is alive or
under way, and into an account that is active.
-/

namespace Archon.MagicLinks
open Engine Backend Program

/-! ### The property and the condition -/

structure ActsOnce (s : State) : Prop where
  once : ((s.answers.filter fun a => a.accepted).map Answer.link).Nodup
  spent : ∀ a ∈ s.answers, a.accepted = true →
    ∀ token w, s.window? token = some w → a.link ≠ some w.magicToken
  clean : ∀ a ∈ s.answers, a.accepted = false → a.wrote = false

/-- The link of a request to set a password. -/
def Phase.closing : Phase → Option String
  | idle | mint .. => none
  | dropWindow _ w _ | dropLink w _ | lookup w _ | register w _ | insert w _ _ _ | update w _ _
  | check w _ => some w.magicToken

/-- The link a request is about. -/
def Phase.link : Phase → Option String
  | mint token _ => some token
  | p => p.closing

variable {τ : Type} [DecidableEq τ]

/-- A link is verified while no password is being set with it, a password is set while no other
token of its link is alive and no other request about it under way, and a sign-in is written to an
active account; where the address is taken, no account was opened for it. -/
def InTurn (s : Threads τ State Phase) (i : τ × Input) : Prop :=
  match s.phase i.1, i.2 with
  | .idle, .verify token => s.shared.link? token ≠ none → ∀ t, (s.phase t).closing ≠ some token
  | .idle, .setPassword token _ => ∀ w ∈ s.shared.window? token,
      (∀ r ∈ s.shared.windows, s.shared.clock < r.2.expiresAt → r.2.magicToken = w.magicToken →
        r.1 = token) ∧ ∀ t, (s.phase t).link ≠ some w.magicToken
  | .insert w hash uid wrote, .next .. =>
    if s.shared.admits (emailMethod uid w.email hash) then s.shared.active uid = true
    else wrote = false
  | .update _ _ row, .next .. => s.shared.active row.2.userUid = true
  | _, _ => True

instance [Fintype τ] (s : Threads τ State Phase) (i : τ × Input) : Decidable (InTurn s i) := by
  unfold InTurn
  split <;> infer_instance

/-! ### The invariant -/

/-- A password was set with the link. -/
def Used (s : State) (link : String) : Prop :=
  ∃ a ∈ s.answers, a.accepted = true ∧ a.link = some link

def NoWindow (s : State) (link : String) : Prop :=
  ∀ r ∈ s.windows, s.clock < r.2.expiresAt → r.2.magicToken ≠ link

def NoLink (s : State) (link : String) : Prop := ∀ r ∈ s.links, r.1 ≠ link

structure Inv (s : State) : Prop where
  once : ((s.answers.filter fun a => a.accepted).map Answer.link).Nodup
  closed : ∀ link, Used s link → NoWindow s link ∧ NoLink s link
  clean : ∀ a ∈ s.answers, a.accepted = false → a.wrote = false

/-- The link is spent and its password not set yet. -/
structure Closed (s : State) (link : String) : Prop where
  unused : ¬Used s link
  window : NoWindow s link
  gone : NoLink s link

/-- What a request knows at its next statement. -/
def Known (s : State) : Phase → Prop
  | .idle => True
  | .mint token _ => ¬Used s token
  | .dropWindow key w _ => ¬Used s w.magicToken ∧ ∀ r ∈ s.windows, s.clock < r.2.expiresAt →
      r.2.magicToken = w.magicToken → r.1 = key
  | .dropLink w _ => ¬Used s w.magicToken ∧ NoWindow s w.magicToken
  | .lookup w _ | .register w _ | .insert w _ _ _ | .update w _ _ => Closed s w.magicToken
  | .check w uid => Closed s w.magicToken ∧ s.active uid = true

/-- A password is set with a link no other request is about. -/
def Apart (p q : Phase) : Prop :=
  ∀ link, (p.closing = some link → q.link ≠ some link) ∧
    (q.closing = some link → p.link ≠ some link)

def annotation : Annotation State Phase := ⟨Inv, Known, Apart⟩

theorem link_of_closing {p : Phase} {link : String} (h : p.closing = some link) :
    p.link = some link := by
  cases p <;> first | exact h | cases h

theorem Apart.symm {p q : Phase} (h : Apart p q) : Apart q p := fun link => (h link).symm

theorem Inv.actsOnce {s : State} (h : Inv s) : ActsOnce s where
  once := h.once
  spent a ha haccepted token w hw hlink := by
    obtain ⟨r, hr, rfl⟩ := Option.map_eq_some_iff.1 hw
    have halive := List.find?_some hr
    rw [decide_eq_true_eq] at halive
    exact (h.closed _ ⟨a, ha, haccepted, hlink⟩).1 r (List.mem_of_find?_eq_some hr) halive.2 rfl
  clean := h.clean

section Steps

variable {s s' : State} {p : Phase} {link token id : String} {w : Window} {uid : Uid}

/-! ### What a step leaves to the others -/

theorem Known.mono (h : Known s p) (hused : ∀ l, p.link = some l → Used s' l → Used s l)
    (hwindows : ∀ r ∈ s'.windows, s'.clock < r.2.expiresAt → p.closing = some r.2.magicToken →
      r ∈ s.windows ∧ s.clock < r.2.expiresAt)
    (hlinks : ∀ r ∈ s'.links, r ∈ s.links)
    (hactive : ∀ uid, s.active uid = true → s'.active uid = true) : Known s' p := by
  have hnone : ∀ l, p.closing = some l → NoWindow s l → NoWindow s' l := by
    intro l hl hno r hr halive heq
    obtain ⟨hr, halive⟩ := hwindows r hr halive (heq ▸ hl)
    exact hno r hr halive heq
  have hclosed : ∀ l, p.closing = some l → Closed s l → Closed s' l := fun l hl hc =>
    ⟨fun hu => hc.unused (hused l (link_of_closing hl) hu), hnone l hl hc.window,
      fun r hr => hc.gone r (hlinks r hr)⟩
  cases p with
  | idle => trivial
  | mint token link => exact fun hu => h (hused _ rfl hu)
  | dropWindow key w hash =>
    refine ⟨fun hu => h.1 (hused _ rfl hu), fun r hr halive heq => ?_⟩
    obtain ⟨hr, halive⟩ := hwindows r hr halive (congrArg some heq.symm)
    exact h.2 r hr halive heq
  | dropLink w hash => exact ⟨fun hu => h.1 (hused _ rfl hu), hnone _ rfl h.2⟩
  | lookup w hash => exact hclosed _ rfl h
  | register w hash => exact hclosed _ rfl h
  | insert w hash uid wrote => exact hclosed _ rfl h
  | update w hash row => exact hclosed _ rfl h
  | check w uid => exact ⟨hclosed _ rfl h.1, hactive uid h.2⟩

/-! ### What a step does to the tables -/

theorem active_save {u : User} (hfresh : s.objects.lookup u.uid = none) (h : s.active uid = true) :
    State.active { s with objects := saveUser s.objects u } uid = true := by
  have huid : uid ≠ u.uid := by
    rintro rfl
    unfold State.active at h
    rw [show s.objects.user? u.uid = none by simp [Objects.user?, Objects.find?, hfresh]] at h
    cases h
  unfold State.active
  rw [user?_saveUser_ne huid]
  exact h

theorem Inv.congr (h : Inv s) (hanswers : s'.answers = s.answers)
    (hclosed : ∀ l, Used s l → NoWindow s l ∧ NoLink s l → NoWindow s' l ∧ NoLink s' l) :
      Inv s' where
  once := hanswers ▸ h.once
  closed l := by
    rintro ⟨a, ha, hl⟩
    have hused : Used s l := ⟨a, hanswers ▸ ha, hl⟩
    exact hclosed l hused (h.closed l hused)
  clean := hanswers ▸ h.clean

theorem Closed.congr {objects : Objects} {methods : List MethodRow} {drawn : List String}
    (h : Closed s link) : Closed { s with objects, methods, drawn } link :=
  ⟨h.unused, h.window, h.gone⟩

theorem used_answer_refused {wrote : Bool} {l : Option String}
    (h : Used (s.answer l false wrote) link) : Used s link := by
  obtain ⟨a, ha, haccepted, hl⟩ := h
  rcases List.mem_append.1 ha with ha | ha
  · exact ⟨a, ha, haccepted, hl⟩
  · obtain rfl := List.mem_singleton.1 ha
    cases haccepted

theorem Inv.refuse (h : Inv s) (l : Option String) : Inv (s.answer l false false) where
  once := by
    change (((s.answers ++ [(⟨l, false, false⟩ : Answer)]).filter fun a =>
      a.accepted).map Answer.link).Nodup
    rw [List.filter_append, List.filter_singleton]
    simpa using h.once
  closed link hused := h.closed link (used_answer_refused hused)
  clean a ha haccepted := by
    rcases List.mem_append.1 ha with ha | ha
    · exact h.clean a ha haccepted
    · obtain rfl := List.mem_singleton.1 ha
      rfl

theorem Inv.accept (h : Inv s) (hclosed : Closed s link) :
    Inv (s.answer (some link) true true) where
  once := by
    change (((s.answers ++ [(⟨some link, true, true⟩ : Answer)]).filter fun a => a.accepted).map
      Answer.link).Nodup
    rw [List.filter_append, List.map_append, List.nodup_append]
    refine ⟨h.once, List.nodup_singleton _, ?_⟩
    rintro _ hx _ hy rfl
    obtain ⟨a, ha, hlink⟩ := List.mem_map.1 hx
    obtain ⟨ha, haccepted⟩ := List.mem_filter.1 ha
    exact hclosed.unused ⟨a, ha, haccepted, hlink.trans (List.mem_singleton.1 hy)⟩
  closed l := by
    rintro ⟨a, ha, haccepted, hl⟩
    rcases List.mem_append.1 ha with ha | ha
    · exact h.closed l ⟨a, ha, haccepted, hl⟩
    · obtain rfl := List.mem_singleton.1 ha
      obtain rfl := Option.some.inj hl
      exact ⟨hclosed.window, hclosed.gone⟩
  clean a ha haccepted := by
    rcases List.mem_append.1 ha with ha | ha
    · exact h.clean a ha haccepted
    · obtain rfl := List.mem_singleton.1 ha
      cases haccepted

theorem resolve_spec {hash : String} {existing : Option MethodRow}
    (h : resolve w hash existing = some p) :
    p.closing = some w.magicToken ∧ ∀ s, Closed s w.magicToken → Known s p := by
  have hgoes : ∀ q : Phase, q.closing = some w.magicToken →
      (∀ s, Closed s w.magicToken → Known s q) →
      some q = some p → p.closing = some w.magicToken ∧ ∀ s, Closed s w.magicToken → Known s p := by
    rintro q hlink hknown heq
    obtain rfl := Option.some.inj heq
    exact ⟨hlink, hknown⟩
  unfold resolve at h
  split at h
  · split at h
    · cases h
    · split at h
      · exact hgoes _ rfl (fun _ => id) h
      · exact hgoes _ rfl (fun _ => id) h
  · split at h
    · split at h
      · exact hgoes _ rfl (fun _ => id) h
      · obtain ⟨uid, -, heq⟩ := Option.map_eq_some_iff.1 h
        exact hgoes (.insert w hash uid false) rfl (fun _ => id) (congrArg some heq)
    · split at h
      · split at h
        · split at h
          · cases h
          · exact hgoes _ rfl (fun _ => id) h
        · cases h
      · cases h

end Steps

section Runs

variable {s : Threads τ State Phase} {t : τ} {next : State × Phase} {i : Input}

/-! ### Runs -/

omit [DecidableEq τ] in
theorem kept_of (hs : annotation.Holds s) (hinv : Inv next.1) (hknown : Known next.1 next.2)
    (hlink : ∀ l, next.2.link = some l → (s.phase t).link = some l)
    (hclosing : ∀ l, next.2.closing = some l → (s.phase t).closing = some l)
    (hused : ∀ l, Used next.1 l → Used s.shared l ∨ (s.phase t).closing = some l)
    (hwindows : ∀ r ∈ next.1.windows, next.1.clock < r.2.expiresAt →
      r ∈ s.shared.windows ∧ s.shared.clock < r.2.expiresAt ∨
        (s.phase t).link = some r.2.magicToken)
    (hlinks : ∀ r ∈ next.1.links, r ∈ s.shared.links)
    (hactive : ∀ uid, s.shared.active uid = true → next.1.active uid = true) :
    annotation.Kept s t next where
  shared := hinv
  phase := hknown
  others t' ht := by
    refine Known.mono (hs.phase t') (fun l hl hu => ?_) (fun r hr halive hc => ?_) hlinks hactive
    · exact (hused l hu).resolve_right fun hc => (hs.pair t t' ht.symm l).1 hc hl
    · exact (hwindows r hr halive).resolve_right fun hl =>
        (hs.pair t' t ht _).1 hc hl
  pair t' ht := by
    have happart : Apart next.2 (s.phase t') := fun l =>
      ⟨fun hc => (hs.pair t t' ht.symm l).1 (hclosing l hc),
        fun hc hl => (hs.pair t t' ht.symm l).2 hc (hlink l hl)⟩
    exact ⟨happart, happart.symm⟩

theorem kept_quiet (hs : annotation.Holds s) (hinv : Inv next.1) (hknown : Known next.1 next.2)
    (hlink : next.2.link = (s.phase t).link) (hclosing : next.2.closing = (s.phase t).closing)
    (hanswers : next.1.answers = s.shared.answers) (hclock : next.1.clock = s.shared.clock)
    (hwindows : ∀ r ∈ next.1.windows, r ∈ s.shared.windows)
    (hlinks : ∀ r ∈ next.1.links, r ∈ s.shared.links)
    (hactive : ∀ uid, s.shared.active uid = true → next.1.active uid = true) :
    annotation.Kept s t next := by
  refine kept_of hs hinv hknown (fun l hl => hlink ▸ hl) (fun l hl => hclosing ▸ hl) ?_ ?_ hlinks
    hactive
  · rintro l ⟨a, ha, hl⟩
    exact .inl ⟨a, hanswers ▸ ha, hl⟩
  · exact fun r hr halive => .inl ⟨hwindows r hr, hclock ▸ halive⟩

theorem kept_refuse (hs : annotation.Holds s) (l : Option String) :
    annotation.Kept s t (s.shared.answer l false false, .idle) := by
  have hinv : Inv s.shared := hs.shared
  exact kept_of hs (hinv.refuse l) trivial nofun nofun (fun _ hu => .inl (used_answer_refused hu))
    (fun r hr halive => .inl ⟨hr, halive⟩) (fun _ => id) fun _ => id

theorem mem_of_window? {x : State} {token : String} {w : Window} (h : x.window? token = some w) :
    (token, w) ∈ x.windows ∧ x.clock < w.expiresAt := by
  obtain ⟨r, hr, rfl⟩ := Option.map_eq_some_iff.1 h
  have hspec := List.find?_some hr
  rw [decide_eq_true_eq] at hspec
  exact ⟨hspec.1 ▸ List.mem_of_find?_eq_some hr, hspec.2⟩

theorem mem_of_link? {x : State} {token : String} {link : Link} (h : x.link? token = some link) :
    (token, link) ∈ x.links := by
  obtain ⟨r, hr, rfl⟩ := Option.map_eq_some_iff.1 h
  have hspec := List.find?_some hr
  rw [decide_eq_true_eq] at hspec
  exact hspec.1 ▸ List.mem_of_find?_eq_some hr

theorem kept_of_begin (hs : annotation.Holds s) (hok : InTurn s (t, i)) (hidle : s.phase t = .idle)
    (h : begin s.shared i = some next) : annotation.Kept s t next := by
  have hinv : Inv s.shared := hs.shared
  have hnolink : (s.phase t).link = none := by rw [hidle]; rfl
  cases i with
  | next now id => cases h
  | wait seconds =>
    obtain rfl := Option.some.inj h
    have halive : ∀ {e : ℕ}, s.shared.clock + seconds < e → s.shared.clock < e := by omega
    refine kept_of hs (hinv.congr rfl fun l _ hc => ⟨fun r hr ha => hc.1 r hr (halive ha), hc.2⟩)
      trivial nofun nofun (fun _ => .inl) (fun r hr ha => .inl ⟨hr, halive ha⟩) (fun _ => id)
      fun _ => id
  | verify token =>
    simp only [InTurn, hidle] at hok
    simp only [begin] at h
    split at h
    · next link hlink =>
      obtain rfl := Option.some.inj h
      have hunused : ¬Used s.shared token := fun hu =>
        (hinv.closed token hu).2 _ (mem_of_link? hlink) rfl
      have hfree := hok (by rw [hlink]; nofun)
      refine ⟨hinv, hunused, fun t' _ => hs.phase t', fun t' _ => ?_⟩
      have happart : Apart (.mint token link) (s.phase t') := fun l =>
        ⟨nofun, fun hc hl => hfree t' (hc.trans hl.symm)⟩
      exact ⟨happart, happart.symm⟩
    · obtain rfl := Option.some.inj h
      exact kept_quiet hs hinv trivial hnolink.symm (by rw [hidle]) rfl rfl (fun _ => id)
        (fun _ => id) fun _ => id
  | setPassword token hash =>
    simp only [InTurn, hidle] at hok
    simp only [begin] at h
    split at h
    · next w hw =>
      obtain rfl := Option.some.inj h
      obtain ⟨hmem, halive⟩ := mem_of_window? hw
      obtain ⟨honly, hfree⟩ := hok w hw
      have hunused : ¬Used s.shared w.magicToken := fun hu =>
        (hinv.closed _ hu).1 _ hmem halive rfl
      refine ⟨hinv, ⟨hunused, honly⟩, fun t' _ => hs.phase t', fun t' _ => ?_⟩
      have happart : Apart (.dropWindow token w hash) (s.phase t') := fun l =>
        ⟨fun hc hl => hfree t' (hl.trans hc.symm),
          fun hc hl => hfree t' ((link_of_closing hc).trans hl.symm)⟩
      exact ⟨happart, happart.symm⟩
    · obtain rfl := Option.some.inj h
      exact kept_refuse hs none

theorem kept_of_advance {now : Stamp} {id : String} (hs : annotation.Holds s)
    (hok : InTurn s (t, .next now id)) (h : advance s.shared now id (s.phase t) = some next) :
    annotation.Kept s t next := by
  have hinv : Inv s.shared := hs.shared
  have hknown : Known s.shared (s.phase t) := hs.phase t
  cases hp : s.phase t with
  | idle =>
    rw [hp] at h
    cases h
  | mint token link =>
    rw [hp, advance] at h
    rw [hp] at hknown
    split at h
    · obtain rfl := Option.some.inj h
      refine kept_of hs (hinv.congr rfl fun l hu hc => ⟨fun r hr halive => ?_, hc.2⟩) trivial nofun
        nofun (fun _ => .inl) (fun r hr halive => ?_) (fun _ h => h) fun _ h => h
      · rcases List.mem_append.1 hr with hr | hr
        · exact hc.1 r (List.mem_filter.1 hr).1 halive
        · obtain rfl := List.mem_singleton.1 hr
          rintro rfl
          exact hknown hu
      · rcases List.mem_append.1 hr with hr | hr
        · exact .inl ⟨(List.mem_filter.1 hr).1, halive⟩
        · obtain rfl := List.mem_singleton.1 hr
          rw [hp]
          exact .inr rfl
    · cases h
  | dropWindow key w hash =>
    rw [hp] at h hknown
    obtain rfl := Option.some.inj h
    have hsub : ∀ r ∈ s.shared.windows.filter fun r => r.1 ≠ key, r ∈ s.shared.windows :=
      fun r hr => (List.mem_filter.1 hr).1
    refine kept_quiet hs (hinv.congr rfl fun l _ hc => ⟨fun r hr => hc.1 r (hsub r hr), hc.2⟩)
      ⟨hknown.1, fun r hr halive heq => ?_⟩ (by rw [hp]; rfl) (by rw [hp]; rfl) rfl rfl hsub
      (fun _ h => h) fun _ h => h
    have hkey := (List.mem_filter.1 hr).2
    rw [decide_eq_true_eq] at hkey
    exact hkey (hknown.2 r (hsub r hr) halive heq)
  | dropLink w hash =>
    rw [hp] at h hknown
    obtain rfl := Option.some.inj h
    have hsub : ∀ r ∈ s.shared.links.filter fun r => r.1 ≠ w.magicToken, r ∈ s.shared.links :=
      fun r hr => (List.mem_filter.1 hr).1
    refine kept_quiet hs (hinv.congr rfl fun l _ hc => ⟨hc.1, fun r hr => hc.2 r (hsub r hr)⟩)
      ⟨hknown.1, hknown.2, fun r hr => ?_⟩ (by rw [hp]; rfl) (by rw [hp]; rfl) rfl rfl
      (fun _ h => h) hsub fun _ h => h
    exact of_decide_eq_true (List.mem_filter.1 hr).2
  | lookup w hash =>
    rw [hp, advance] at h
    rw [hp] at hknown
    split at h
    · next phase hresolve =>
      obtain rfl := Option.some.inj h
      obtain ⟨hlink, hclosed⟩ := resolve_spec hresolve
      exact kept_quiet hs hinv (hclosed _ hknown)
        (by rw [hp, link_of_closing hlink]; rfl) (by rw [hp, hlink]; rfl) rfl rfl (fun _ h => h)
        (fun _ h => h) fun _ h => h
    · obtain rfl := Option.some.inj h
      exact kept_refuse hs _
  | register w hash =>
    rw [hp, advance] at h
    rw [hp] at hknown
    split at h
    · next hfresh =>
      obtain rfl := Option.some.inj h
      have hnone : s.shared.objects.lookup (newAccount id w.email now).uid = none :=
        Option.isNone_iff_eq_none.1 hfresh.2.1
      have hclosed : Closed s.shared w.magicToken := hknown
      exact kept_quiet hs (hinv.congr rfl fun _ _ h => h) hclosed.congr (by rw [hp]; rfl)
        (by rw [hp]; rfl) rfl rfl (fun _ h => h) (fun _ h => h) fun _ => active_save hnone
    · cases h
  | insert w hash uid wrote =>
    simp only [InTurn, hp] at hok
    rw [hp, advance] at h
    rw [hp] at hknown
    have hclosed : Closed s.shared w.magicToken := hknown
    split at h
    · next hadmits =>
      rw [if_pos hadmits] at hok
      split at h
      · obtain rfl := Option.some.inj h
        exact kept_quiet hs (hinv.congr rfl fun _ _ h => h) ⟨hclosed.congr, hok⟩ (by rw [hp]; rfl)
          (by rw [hp]; rfl) rfl rfl (fun _ h => h) (fun _ h => h) fun _ h => h
      · cases h
    · next hadmits =>
      rw [if_neg hadmits] at hok
      obtain rfl := Option.some.inj h
      rw [hok]
      exact kept_refuse hs _
  | update w hash row =>
    simp only [InTurn, hp] at hok
    rw [hp] at h hknown
    obtain rfl := Option.some.inj h
    have hclosed : Closed s.shared w.magicToken := hknown
    exact kept_quiet hs (hinv.congr rfl fun _ _ h => h) ⟨hclosed.congr, hok⟩ (by rw [hp]; rfl)
      (by rw [hp]; rfl) rfl rfl (fun _ h => h) (fun _ h => h) fun _ h => h
  | check w uid =>
    rw [hp] at h hknown
    obtain rfl := Option.some.inj h
    rw [hknown.2]
    refine kept_of hs (hinv.accept hknown.1) trivial nofun nofun ?_
      (fun r hr halive => .inl ⟨hr, halive⟩) (fun _ h => h) fun _ h => h
    rintro l ⟨a, ha, haccepted, hl⟩
    rcases List.mem_append.1 ha with ha | ha
    · exact .inl ⟨a, ha, haccepted, hl⟩
    · obtain rfl := List.mem_singleton.1 ha
      rw [hp]
      exact .inr hl

theorem kept_of_step (hs : annotation.Holds s) (hok : InTurn s (t, i))
    (h : magicLinks.step s.shared (s.phase t) i = some next) : annotation.Kept s t next := by
  simp only [magicLinks] at h
  split at h
  · next hidle => exact kept_of_begin hs hok hidle h
  · split at h
    · exact kept_of_advance hs hok h
    · cases h

/-- In the runs of requests in turn, a magic link acts once. -/
theorem actsOnce_of_reaches (h : magicLinks.system.Reaches InTurn s) : ActsOnce s.shared := by
  have hidle : annotation.pair magicLinks.idle magicLinks.idle := fun l => ⟨nofun, nofun⟩
  have hholds : annotation.Holds s := by
    refine holds_of_reaches (fun x hx => ?_) hidle
      (fun s t i next hs hok hnext => kept_of_step hs hok hnext) h
    obtain ⟨-, hanswers, -⟩ := hx
    have hnone : ∀ a, a ∉ x.answers := fun a ha => by
      rw [hanswers] at ha
      cases ha
    exact ⟨⟨by rw [hanswers]; exact List.nodup_nil, fun l ⟨a, ha, _⟩ => absurd ha (hnone a),
      fun a ha => absurd ha (hnone a)⟩, trivial⟩
  exact hholds.shared.actsOnce

end Runs

/-! ### A link verified twice -/

/-- Two reset links that were emailed, to a member and to one who was merged away since. -/
def emailed : State where
  links := [("k1", ⟨"ann@example.com", "reset", some "ann", none, 900⟩),
    ("k2", ⟨"bob@example.com", "reset", some "bob", none, 900⟩)]
  windows := []
  objects := [member "ann" [], { member "bob"
    [] with deletedAt := some "2026-05-01T10:00:00Z" }].foldl
    saveUser ∅
  methods := [("m1", ⟨⟨"ann", "email", "ann@example.com", ""⟩, "old", true⟩),
    ("m2", ⟨⟨"bob", "email", "bob@example.com", ""⟩, "old", true⟩)]
  clock := 0
  answers := []
  drawn := []

def emailedRequests (τ : Type) : Threads τ State Phase := ⟨emailed, fun _ => .idle⟩

theorem emailed_init (τ : Type) [DecidableEq τ] : magicLinks.system.init (emailedRequests τ) :=
  ⟨⟨rfl, rfl, rfl⟩, fun _ => rfl⟩

/-- The next statement, which draws this token or uuid. -/
def thenDraw {τ : Type} (t : τ) (id : String) : τ × Input := (t, .next "2026-05-02T10:00:00Z" id)

/-- A link is verified. -/
def verifying {τ : Type} (t : τ) (token key : String) : List (τ × Input) :=
  [(t, .verify token), thenDraw t key]

/-- A password is set for an address that has a sign-in. -/
def resetting {τ : Type} (t : τ) (key hash : String) : List (τ × Input) :=
  (t, .setPassword key hash) :: List.replicate 5 (thenDraw t "")

def setOnce : List (Fin 1 × Input) := verifying 0 "k1" "w1" ++ resetting 0 "w1" "new"

/-- A link that is verified once sets one password. -/
theorem set_once : ∃ s : Threads (Fin 1) State Phase,
    s.shared.answers = [⟨some "k1", true, true⟩] ∧ ActsOnce s.shared := by
  have hrun : (magicLinks.runIn InTurn (emailedRequests (Fin 1)) setOnce).map
      (fun s => s.shared.answers) = some [⟨some "k1", true, true⟩] := by decide +kernel
  obtain ⟨s, hs, heq⟩ := Option.map_eq_some_iff.1 hrun
  exact ⟨s, heq, actsOnce_of_reaches (reaches_runIn setOnce _ _ (.init (emailed_init _)) hs)⟩

/-- One link is verified twice and sets two passwords, the other belongs to the merged account. -/
def setTwice : List (ℕ × Input) :=
  verifying 0 "k1" "w1" ++ verifying 0 "k1" "w2" ++ resetting 0 "w1" "new" ++
    resetting 0 "w2" "newer"
    ++ verifying 0 "k2" "w3" ++ resetting 0 "w3" "new"

/-- The link sets both, and the refused request has changed a sign-in. -/
theorem set_twice : ∃ s : Threads ℕ State Phase, magicLinks.system.Reachable s ∧
    ¬ActsOnce s.shared ∧ s.shared.answers =
      [⟨some "k1", true, true⟩, ⟨some "k1", true, true⟩, ⟨some "k2", false, true⟩] := by
  have hrun : (magicLinks.run (emailedRequests ℕ) setTwice).map (fun s => s.shared.answers) =
      some [⟨some "k1", true, true⟩, ⟨some "k1", true, true⟩, ⟨some "k2", false, true⟩] := by
    decide +kernel
  obtain ⟨s, hs, heq⟩ := Option.map_eq_some_iff.1 hrun
  refine ⟨s, reachable_run (.init (emailed_init ℕ)) hs, fun h => ?_, heq⟩
  have honce := h.once
  rw [heq] at honce
  revert honce
  decide

end Archon.MagicLinks

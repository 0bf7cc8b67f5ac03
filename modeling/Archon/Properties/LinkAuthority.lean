import Archon.Backend.CommunityLinks
import Archon.Backend.Scenario

/-!
# Moderated links

A link stands pinned or promoted only by an accepted request of an actor with the authority, and a
URL hidden on a profile is not shown there again without one of an actor who may moderate it: in
the runs where an owner neither moves a pinned channel, nor lists a hidden URL again, nor moves a
hidden link out of its moderator's reach while un-hiding it, without the authority to do so.
-/

namespace Archon.CommunityLinks
open Engine Backend Guards Ledger

/-! ### The property and the condition -/

/-- A request of an actor with the authority put the URL into this moderation, in this country. -/
def Backed (log : List Decision) (key : Uid × String) (country : Option String) :
    Option LinkModeration → Prop
  | some .national => ∃ d ∈ log, d.key = key ∧ d.moderation = some .national ∧
      d.country = country ∧ canPromoteLinkNational d.actor country = true
  | some .global => ∃ d ∈ log, d.key = key ∧ d.moderation = some .global ∧
      canPromoteLinkGlobal d.actor = true
  | _ => True

def Decision.hides (d : Decision) : Prop := d.moderation = some .hidden

/-- The request was of an actor who may moderate the link. -/
def Decision.mayModerate (d : Decision) : Prop := canModerateLink d.actor d.ground = true

structure WithAuthority (s : State) : Prop where
  backed : ∀ m ∈ s.members, ∀ l ∈ m.communityLinks,
    Backed s.log (m.uid, l.url) (effectiveCountry l m) l.moderation
  hidden : ∀ m ∈ s.members, ∀ l ∈ m.communityLinks, l.moderation ≠ some .hidden →
    ∀ newer d older, s.log = newer ++ d :: older → d.key = (m.uid, l.url) → d.hides →
      ∃ a ∈ newer, a.key = (m.uid, l.url) ∧ a.mayModerate

/-- The country an owner asks for a link: content counts for the owner's. -/
def askedCountry (texts : Texts) (owner : Member) (prior : Option CommunityLink)
    (link : CommunityLinkInput) : Option String :=
  if (CommunityLinkType.ofStr link.type).any CommunityLinkType.isContent then owner.country
  else some (texts.upper (((given link.country).or (priorCountry prior owner)).getD ""))

/-- What an owner may ask for one link of the list: a pinned channel stays in its country, a hidden
link is un-hidden where it stands, and a URL that was last hidden is not listed again, unless the
owner has the authority over it. -/
def Entitled (texts : Texts) (log : List Decision) (user owner : Member)
    (link : CommunityLinkInput) : Prop :=
  match existingByUrl user link.url with
  | some prior =>
    (prior.moderation = some .national → link.state = none →
      (CommunityLinkType.ofStr link.type).any CommunityLinkType.isContent = false →
      askedCountry texts owner (some prior) link = prior.country ∨
        canPromoteLinkNational user.toUser (askedCountry texts owner (some prior) link) = true) ∧
    (prior.moderation = some .hidden → link.state ≠ none → link.state ≠ some "hidden" →
      canModerateLink user.toUser (effectiveCountry prior user) = true)
  | none => link.state = none →
      (∃ d ∈ latest Decision.key log (user.uid, link.url), d.hides) →
      canModerateLink user.toUser (askedCountry texts owner none link) = true

/-- The condition on a request: every link its owner sends is one he may ask for. -/
def Abides (texts : Texts) (s : State) (call : Call) : Prop :=
  match call.request with
  | .profile data => ∀ user ∈ s.member? call.actorUid, ∀ links ∈ data.communityLinks,
      ∀ link ∈ links, Entitled texts s.log user
        { user with country := data.newCountry texts user } link
  | .curate .. => True

section Decidability

variable {texts : Texts} {s : State} {user owner : Member} {link : CommunityLinkInput}
variable {log : List Decision} {d : Decision}

instance : Decidable d.hides := by unfold Decision.hides; infer_instance

instance : Decidable (Entitled texts log user owner link) := by
  unfold Entitled
  split <;> infer_instance

instance {call : Call} : Decidable (Abides texts s call) := by
  unfold Abides
  split <;> infer_instance

instance {key : Uid × String} {country : Option String} {moderation : Option LinkModeration} :
    Decidable (Backed log key country moderation) := by
  unfold Backed
  split <;> infer_instance

end Decidability

/-! ### Authority -/

theorem checkLink_of_ic {actor : User} {capability : LinkCapability} {country : Option String}
    (h : Role.ic ∈ actor.roles) : checkLink capability actor country = true := by
  cases capability <;> simp [checkLink, linkRule, User.hasAny, h]

theorem mayModerate_of_promotes {actor : User} {country : Option String}
    (h : canPromoteLinkGlobal actor = true) : canModerateLink actor country = true := by
  have hic : Role.ic ∈ actor.roles := by
    simpa [canPromoteLinkGlobal, checkLink, linkRule, User.hasAny] using h
  exact checkLink_of_ic hic

theorem ic_of_canChangeCountry {u : User} (h : canChangeCountry u u = true)
    (hnc : Role.nc ∈ u.roles) : Role.ic ∈ u.roles := by
  by_contra hic
  have hfind : officialRolesByAuthority.find? (fun r => decide (r ∈ u.roles)) = some .nc := by
    simp [officialRolesByAuthority, hic, hnc]
  rw [canChangeCountry, hfind] at h
  simp [canChangeRole, appointmentFor, User.hasAny, hic] at h

theorem checkLink_moved {u v : User} {capability : LinkCapability} {country : Option String}
    (hroles : v.roles = u.roles) (h : v.country ≠ u.country → canChangeCountry u u = true) :
    checkLink capability v country = checkLink capability u country := by
  by_cases hc : v.country = u.country
  · simp [checkLink, User.hasAny, hroles, hc]
  · by_cases hnc : Role.nc ∈ u.roles
    · have hic := ic_of_canChangeCountry (h hc) hnc
      rw [checkLink_of_ic hic, checkLink_of_ic (hroles ▸ hic)]
    · cases capability <;> simp [checkLink, linkRule, User.hasAny, hroles, hnc]

/-! ### Where a link is placed -/

section Placement

variable {texts : Texts} {actor : User} {owner : Member} {linkType : CommunityLinkType}
variable {raw state country : Option String} {prior : Option CommunityLink}
variable {moderation : Option LinkModeration} {st c : String}

theorem validatedCountry_eq_ok {fallback : Option String}
    (h : validatedCountry texts raw fallback = .ok c) :
    c = texts.upper (((given raw).or fallback).getD "") ∧ c ≠ "" := by
  simp only [validatedCountry, bind_eq_ok, ensure_eq_ok, pure_eq_ok] at h
  obtain ⟨_, hne, _, -, rfl⟩ := h
  exact ⟨rfl, hne⟩

theorem authority_current {current : Option LinkModeration} {a : Option LinkModeration × Bool}
    (h : authority actor st country = some a) (hst : st = stateValue current) : a.1 = current := by
  subst hst
  rcases current with _ | _ | _ | _ <;>
    simp [authority, stateValue, LinkModeration.value] at h <;> rw [← h]

theorem moderationFor_eq_ok {current : Option LinkModeration}
    (h : moderationFor actor st country current = .ok moderation) :
    authority actor st country = some (moderation, true) := by
  simp only [moderationFor, bind_eq_ok, okOr_eq_ok, ensure_eq_ok, ite_eq_ok, pure_eq_ok] at h
  obtain ⟨⟨m, allowed⟩, hauth, -, rfl, hm⟩ := h
  rcases hm with ⟨hst, rfl⟩ | ⟨-, rfl⟩
  · rw [hauth, ← authority_current hauth hst]
  · exact hauth

theorem authority_eq_some (h : authority actor st country = some (moderation, true)) :
    (moderation = some .national → canPromoteLinkNational actor country = true) ∧
    (moderation = some .global → canPromoteLinkGlobal actor = true) ∧
    canModerateLink actor country = true ∧ (st = "hidden" → moderation = some .hidden) ∧
    (moderation = some .national → st = "national") := by
  unfold authority at h
  split_ifs at h with hg hn h0 hh <;> simp only [Option.some.injEq, Prod.mk.injEq] at h <;>
    obtain ⟨rfl, hallowed⟩ := h
  · refine ⟨by simp, fun _ => hallowed, mayModerate_of_promotes hallowed, ?_, by simp⟩
    rintro rfl
    simp at hg
  · refine ⟨fun _ => hallowed, by simp, hallowed, ?_, fun _ => hn⟩
    rintro rfl
    simp at hn
  · refine ⟨by simp, by simp, hallowed, ?_, by simp⟩
    rintro rfl
    simp at h0
  · exact ⟨by simp, by simp, hallowed, fun _ => rfl, by simp⟩

theorem placement_none
    (h : placement texts actor linkType raw none prior owner = .ok (country, moderation)) :
    moderation = prior.bind CommunityLink.moderation ∧
    (linkType.isContent = false →
      ∃ c ≠ "", country = some c ∧
        c = texts.upper (((given raw).or (priorCountry prior owner)).getD "")) ∧
    (linkType.isContent = true →
      country = if moderation = some .national then priorCountry prior owner else none) := by
  unfold placement at h
  by_cases hc : linkType.isContent = false
  · simp only [hc, ↓reduceIte, bind_eq_ok, pure_eq_ok, Prod.mk.injEq] at h
    obtain ⟨c, hvalid, rfl, rfl⟩ := h
    obtain ⟨heq, hne⟩ := validatedCountry_eq_ok hvalid
    exact ⟨rfl, fun _ => ⟨c, hne, rfl, heq⟩, fun hcontent => by simp [hc] at hcontent⟩
  · simp only [hc, Bool.true_eq_false, ↓reduceIte, pure_eq_ok, Prod.mk.injEq] at h
    obtain ⟨rfl, rfl⟩ := h
    exact ⟨rfl, fun hchannel => absurd hchannel hc, fun _ => rfl⟩

theorem placement_some
    (h : placement texts actor linkType raw (some st) prior owner = .ok (country, moderation)) :
    ∃ lands, authority actor st lands = some (moderation, true) ∧
      ((∃ c ≠ "", lands = some c ∧ country = some c) ∨
        (lands = (if prior.bind CommunityLink.moderation = some .national
            then (given (priorCountry prior owner)).or owner.country else owner.country) ∧
          country = (if moderation = some .national then lands else none) ∧
          (moderation = some .national →
            prior.bind CommunityLink.moderation = some .national))) := by
  unfold placement at h
  by_cases hc : linkType.isContent = false
  · simp only [hc, ↓reduceIte, bind_eq_ok, pure_eq_ok, Prod.mk.injEq] at h
    obtain ⟨c, hvalid, m, hm, rfl, rfl⟩ := h
    exact ⟨_, moderationFor_eq_ok hm, .inl ⟨c, (validatedCountry_eq_ok hvalid).2, rfl, rfl⟩⟩
  · simp only [hc, Bool.true_eq_false, ↓reduceIte, bind_eq_ok, pure_eq_ok, Prod.mk.injEq,
      ite_eq_ok, ensure_eq_ok] at h
    rcases h with ⟨⟨rfl, -⟩, _, -, c, hvalid, _, rfl, m, hm, rfl, rfl⟩ |
      ⟨hnot, _, -, lands, rfl, m, hm, rfl, rfl⟩
    · have hauth := moderationFor_eq_ok hm
      obtain ⟨rfl, -⟩ : some .national = m ∧ canPromoteLinkNational actor (some c) = true := by
        simpa [authority] using hauth
      exact ⟨_, hauth, .inl ⟨c, (validatedCountry_eq_ok hvalid).2, rfl, by simp⟩⟩
    · have hauth := moderationFor_eq_ok hm
      refine ⟨_, hauth, .inr ⟨?_, rfl, ?_⟩⟩
      · split <;> simp [given]
      · intro hn
        by_contra hcur
        exact hnot ⟨(authority_eq_some hauth).2.2.2.2 hn, hcur⟩

/-- Pinned links have a country of their own. -/
def Located (link : CommunityLink) : Prop :=
  link.moderation = some .national → ∃ c ≠ "", link.country = some c

theorem given_of_ne (h : c ≠ "") : given (some c) = some c := by simp [given, h]

theorem Located.effectiveCountry {link : CommunityLink} (h : Located link)
    (hn : link.moderation = some .national) : effectiveCountry link owner = link.country := by
  obtain ⟨c, hc, heq⟩ := h hn
  simp [CommunityLinks.effectiveCountry, heq, given_of_ne hc]

theorem priorCountry_some {p : CommunityLink} :
    priorCountry (some p) owner = effectiveCountry p owner := rfl

theorem bind_moderation_eq_some {m : LinkModeration}
    (h : prior.bind CommunityLink.moderation = some m) : ∃ p ∈ prior, p.moderation = some m := by
  obtain ⟨p, hp, hm⟩ := Option.bind_eq_some_iff.mp h
  exact ⟨p, hp, hm⟩

theorem placement_located (hprior : ∀ p ∈ prior, Located p)
    (h : placement texts actor linkType raw state prior owner = .ok (country, moderation))
    (hm : moderation = some .national) : ∃ c ≠ "", country = some c := by
  have hpinned : prior.bind CommunityLink.moderation = some .national →
      ∃ c ≠ "", priorCountry prior owner = some c := by
    intro hn
    obtain ⟨p, hp, hpn⟩ := bind_moderation_eq_some hn
    obtain rfl := Option.mem_def.mp hp
    obtain ⟨c, hc, heq⟩ := hprior p hp hpn
    exact ⟨c, hc, by rw [priorCountry_some, (hprior p hp).effectiveCountry hpn, heq]⟩
  cases state with
  | none =>
    obtain ⟨rfl, hchannel, hcontent⟩ := placement_none h
    by_cases hc : linkType.isContent = false
    · obtain ⟨c, hne, heq, -⟩ := hchannel hc
      exact ⟨c, hne, heq⟩
    · rw [hcontent (by simpa using hc), if_pos hm]
      exact hpinned hm
  | some st =>
    obtain ⟨lands, -, ⟨c, hne, -, heq⟩ | ⟨hlands, hcountry, hcurrent⟩⟩ := placement_some h
    · exact ⟨c, hne, heq⟩
    · obtain ⟨c, hne, heq⟩ := hpinned (hcurrent hm)
      rw [if_pos (hcurrent hm), heq, given_of_ne hne] at hlands
      exact ⟨c, hne, by rw [hcountry, if_pos hm, hlands]; rfl⟩

theorem placement_pins (hprior : ∀ p ∈ prior, Located p)
    (h : placement texts actor linkType raw state prior owner = .ok (country, moderation))
    (hm : moderation = some .national) :
    canPromoteLinkNational actor country = true ∨ ∃ p ∈ prior, p.moderation = some .national ∧
      (p.country = country ∨ (state = none ∧ linkType.isContent = false)) := by
  cases state with
  | none =>
    obtain ⟨hcurrent, hchannel, hcontent⟩ := placement_none h
    obtain ⟨p, hp, hpn⟩ := bind_moderation_eq_some (hcurrent ▸ hm)
    refine .inr ⟨p, hp, hpn, ?_⟩
    by_cases hc : linkType.isContent = false
    · exact .inr ⟨rfl, hc⟩
    · obtain rfl := Option.mem_def.mp hp
      rw [hcontent (by simpa using hc), if_pos hm, priorCountry_some,
        (hprior p hp).effectiveCountry hpn]
      exact .inl rfl
  | some st =>
    obtain ⟨lands, hauth, hplaced⟩ := placement_some h
    have hallowed := (authority_eq_some hauth).1 hm
    rcases hplaced with ⟨c, -, rfl, rfl⟩ | ⟨-, hcountry, -⟩
    · exact .inl hallowed
    · rw [if_pos hm] at hcountry
      exact .inl (hcountry ▸ hallowed)

theorem placement_promotes
    (h : placement texts actor linkType raw state prior owner = .ok (country, moderation))
    (hm : moderation = some .global) :
    canPromoteLinkGlobal actor = true ∨ ∃ p ∈ prior, p.moderation = some .global := by
  cases state with
  | none => exact .inr (bind_moderation_eq_some ((placement_none h).1 ▸ hm))
  | some st =>
    obtain ⟨lands, hauth, -⟩ := placement_some h
    exact .inl ((authority_eq_some hauth).2.1 hm)

theorem placement_new {link : CommunityLink}
    (h : placement texts actor linkType raw (some st) none owner =
      .ok (link.country, link.moderation)) :
    canModerateLink actor (effectiveCountry link owner) = true := by
  obtain ⟨lands, hauth, hplaced⟩ := placement_some h
  have hallowed := (authority_eq_some hauth).2.2.1
  rcases hplaced with ⟨c, hne, rfl, hcountry⟩ | ⟨hlands, hcountry, hcurrent⟩
  · rwa [effectiveCountry, hcountry, given_of_ne hne, Option.some_or]
  · have hnone : link.country = none := by
      rw [hcountry, if_neg]
      intro hn
      simpa using hcurrent hn
    rw [effectiveCountry, hnone]
    simpa [given, hlands] using hallowed

end Placement

/-! ### The invariant -/

/-- Links are located and backed, their moderation is the one last decided, and what was hidden was
shown again by an actor who may moderate it. -/
structure Sound (s : State) : Prop where
  located : ∀ m ∈ s.members, ∀ l ∈ m.communityLinks, Located l
  backed : ∀ m ∈ s.members, ∀ l ∈ m.communityLinks,
    Backed s.log (m.uid, l.url) (effectiveCountry l m) l.moderation
  current : ∀ m ∈ s.members, ∀ l ∈ m.communityLinks,
    l.moderation = (latest Decision.key s.log (m.uid, l.url)).bind Decision.moderation
  respected : Respected Decision.key Decision.hides Decision.mayModerate s.log

/-- A link of a saved member, with the decisions logged. -/
structure Settled (log : List Decision) (after : Member) (l : CommunityLink) : Prop where
  located : Located l
  backed : Backed log (after.uid, l.url) (effectiveCountry l after) l.moderation
  current : l.moderation =
    (latest Decision.key log (after.uid, l.url)).bind Decision.moderation

section Invariant

variable {s : State} {before after m : Member} {l : CommunityLink} {ds log : List Decision}
variable {actor : User} {prior : Option CommunityLink} {texts : Texts} {now : Stamp}
variable {key : Uid × String} {country : Option String} {moderation : Option LinkModeration}

theorem Backed.append (h : Backed log key country moderation) :
    Backed (ds ++ log) key country moderation := by
  match moderation, h with
  | some .national, ⟨d, hd, h⟩ => exact ⟨d, List.mem_append_right _ hd, h⟩
  | some .global, ⟨d, hd, h⟩ => exact ⟨d, List.mem_append_right _ hd, h⟩
  | some .hidden, _ => exact trivial
  | none, _ => exact trivial

theorem Sound.init (h : (system texts).init s) : Sound s := by
  obtain ⟨hlog, hlinks⟩ := h
  refine ⟨?_, ?_, ?_, hlog ▸ .nil⟩
  · intro m hm l hl hn
    simp [hlinks m hm l hl] at hn
  · intro m hm l hl
    rw [hlinks m hm l hl]
    trivial
  · intro m hm l hl
    simp [hlinks m hm l hl, hlog]

theorem Sound.save (h : Sound s) (hkeys : (ds.map Decision.key).Nodup)
    (howner : ∀ d ∈ ds, d.owner = after.uid)
    (hlinks : ∀ l ∈ after.communityLinks, Settled (ds ++ s.log) after l)
    (hlift : ∀ d ∈ ds, ∀ e, latest Decision.key s.log d.key = some e → e.hides →
      d.hides ∨ d.mayModerate) : Sound (s.save after ds) := by
  have hmember : ∀ m ∈ (s.save after ds).members, m = after ∨ (m ∈ s.members ∧
      m.uid ≠ after.uid) := by
    intro m hm
    obtain ⟨m₀, hm₀, rfl⟩ := List.mem_map.mp hm
    by_cases hu : m₀.uid = after.uid
    · exact .inl (if_pos hu)
    · rw [if_neg hu]
      exact .inr ⟨hm₀, hu⟩
  refine ⟨?_, ?_, ?_, h.respected.append hkeys hlift⟩
  · intro m hm l hl
    rcases hmember m hm with rfl | ⟨hm, -⟩
    · exact (hlinks l hl).located
    · exact h.located m hm l hl
  · intro m hm l hl
    rcases hmember m hm with rfl | ⟨hm, -⟩
    · exact (hlinks l hl).backed
    · exact (h.backed m hm l hl).append
  · intro m hm l hl
    rcases hmember m hm with rfl | ⟨hm, hne⟩
    · exact (hlinks l hl).current
    · have hfresh : (m.uid, l.url) ∉ ds.map Decision.key := by
        intro hmem
        obtain ⟨d, hd, hk⟩ := List.mem_map.mp hmem
        exact hne ((congrArg Prod.fst hk).symm.trans (howner d hd))
      rw [h.current m hm l hl]
      exact congrArg (fun o => o.bind Decision.moderation)
        (latest_append_of_not_mem hfresh).symm

theorem Sound.kept (h : Sound s) (hb : before ∈ s.members) (huid : after.uid = before.uid)
    (hl : l ∈ before.communityLinks) (hk : (after.uid, l.url) ∉ ds.map Decision.key) :
    Settled (ds ++ s.log) after l where
  located := h.located before hb l hl
  backed := by
    have hback := h.backed before hb l hl
    rw [← huid] at hback
    by_cases hn : l.moderation = some .national
    · have hloc := h.located before hb l hl
      rw [hloc.effectiveCountry hn] at hback ⊢
      exact hback.append
    · have hany : ∀ country, Backed s.log (after.uid, l.url) country l.moderation := by
        intro country
        match hm : l.moderation, hback with
        | some .national, _ => exact absurd hm hn
        | some .global, hback => exact hback
        | some .hidden, _ => trivial
        | none, _ => trivial
      exact (hany _).append
  current := by
    rw [latest_append_of_not_mem hk, huid]
    exact h.current before hb l hl

theorem Sound.decided (h : Sound s) (hb : before ∈ s.members) (huid : after.uid = before.uid)
    (hprior : ∀ p ∈ prior, p ∈ before.communityLinks ∧ p.url = l.url)
    (hkeys : (ds.map Decision.key).Nodup) (hd : decision actor before after prior l ∈ ds)
    (hloc : Located l)
    (hnational : l.moderation = some .national → canPromoteLinkNational actor l.country = true ∨
      ∃ p ∈ prior, p.moderation = some .national ∧ p.country = l.country)
    (hglobal : l.moderation = some .global → canPromoteLinkGlobal actor = true ∨
      ∃ p ∈ prior, p.moderation = some .global) :
    Settled (ds ++ s.log) after l where
  located := hloc
  backed := by
    have hback : ∀ p ∈ prior,
        Backed s.log (after.uid, l.url) (effectiveCountry p before) p.moderation := by
      intro p hp
      obtain ⟨hmem, hurl⟩ := hprior p hp
      rw [huid, ← hurl]
      exact h.backed before hb p hmem
    match hm : l.moderation with
    | some .national =>
      rcases hnational hm with hallowed | ⟨p, hp, hpn, hcountry⟩
      · rw [hloc.effectiveCountry hm]
        exact ⟨_, List.mem_append_left _ hd, rfl, hm, hloc.effectiveCountry hm, hallowed⟩
      · have hpl := h.located before hb p (hprior p hp).1
        have hback := hback p hp
        rw [hpn, hpl.effectiveCountry hpn, hcountry, ← hloc.effectiveCountry hm] at hback
        exact hback.append
    | some .global =>
      rcases hglobal hm with hallowed | ⟨p, hp, hpg⟩
      · exact ⟨_, List.mem_append_left _ hd, rfl, hm, hallowed⟩
      · have hback := hback p hp
        rw [hpg] at hback
        have hback : Backed s.log (after.uid, l.url) (effectiveCountry l after) (some .global) :=
            hback
        exact hback.append
    | some .hidden => trivial
    | none => trivial
  current := by
    have hlatest := @latest_append_of_mem _ _ _ _ s.log _ _ hkeys hd
    exact (congrArg (fun o => o.bind Decision.moderation) hlatest).symm

end Invariant

/-! ### A moderator's edit -/

section Steps

variable {texts : Texts} {s s' : State} {actor : User} {target user after : Member} {now : Stamp}
variable {l prior : CommunityLink}

theorem editedLink_eq_ok {data : LinkEditRequest}
    (h : editedLink texts actor target prior data = .ok l) :
    l.url = prior.url ∧
    (∃ linkType, placement texts actor linkType data.country data.state (some prior) target =
      .ok (l.country, l.moderation)) ∧
    (given l.country ≠ none → l.country ≠ prior.country →
      canModerateLink actor l.country = true) ∧
    (canModerateLink actor (effectiveCountry prior target) = true ∨ prior.moderation = none) := by
  simp only [editedLink, bind_eq_ok, ensure_eq_ok, pure_eq_ok] at h
  obtain ⟨_, hcurates, linkType, -, languages, -, ⟨country, moderation⟩, hplaced, _, hmoved, _, -,
    rfl⟩ := h
  refine ⟨rfl, ⟨linkType, hplaced⟩, hmoved, ?_⟩
  rcases hcurates with hc | hp
  · exact .inl hc
  · simp only [Bool.and_eq_true, Option.isNone_iff_eq_none] at hp
    exact .inr hp.1.2

theorem Sound.curate {data : LinkEditRequest} (h : Sound s) (ht : target ∈ s.members)
    (hp : prior ∈ target.communityLinks) (he : editedLink texts actor target prior data = .ok l) :
    Sound (s.save (target.withLink now l)
      [decision actor target (target.withLink now l) (some prior) l]) := by
  obtain ⟨hurl, ⟨linkType, hplaced⟩, hmoved, hcurates⟩ := editedLink_eq_ok he
  have hprior : ∀ p ∈ some prior, Located p := by
    rintro p ⟨⟩
    exact h.located target ht prior hp
  have hloc : Located l := placement_located hprior hplaced
  refine h.save (List.nodup_singleton _) (by simp [decision]) ?_ ?_
  · intro x hx
    obtain ⟨x₀, hx₀, rfl⟩ := List.mem_map.mp hx
    split
    · refine h.decided ht rfl ?_ (List.nodup_singleton _)
        List.mem_cons_self hloc ?_ (placement_promotes hplaced)
      · rintro p ⟨⟩
        exact ⟨hp, hurl.symm⟩
      · intro hm
        rcases placement_pins hprior hplaced hm with hallowed | ⟨p, hp, hpn, -⟩
        · exact .inl hallowed
        · obtain ⟨c, hc, heq⟩ := hloc hm
          by_cases hstays : p.country = l.country
          · exact .inr ⟨p, hp, hpn, hstays⟩
          · obtain rfl := Option.some.inj hp
            exact .inl (hmoved (by simp [heq, given_of_ne hc]) (Ne.symm hstays))
    · rename_i hne
      refine h.kept ht rfl hx₀ ?_
      simpa [Decision.key, decision, Member.withLink] using hne
  · intro d hd e hlatest hhides
    obtain rfl := List.mem_singleton.mp hd
    have hhidden : prior.moderation = some .hidden := by
      have hlatest : latest Decision.key s.log (target.uid, l.url) = some e := hlatest
      rw [h.current target ht prior hp, ← hurl, hlatest]
      exact hhides
    rcases hcurates with hc | hnone
    · exact .inr hc
    · simp [hhidden] at hnone

/-! ### The owner's edit -/

theorem editProfile_eq_ok {data : ProfileUpdateRequest} {edited : Member}
    (h : editProfile texts user data = .ok edited) :
    edited.uid = user.uid ∧ edited.roles = user.roles ∧
    edited.country = data.newCountry texts user ∧ edited.communityLinks = user.communityLinks ∧
    (edited.country ≠ user.country → canChangeCountry user.toUser user.toUser = true) := by
  simp only [editProfile, bind_eq_ok, ensure_eq_ok, pure_eq_ok] at h
  obtain ⟨_, -, _, hcountry, _, -, rfl⟩ := h
  exact ⟨rfl, rfl, rfl, rfl, hcountry⟩

theorem submittedLink_eq_ok {link : CommunityLinkInput}
    (h : submittedLink texts user link = .ok l) :
    l.url = link.url ∧ ∃ linkType, CommunityLinkType.ofStr link.type = some linkType ∧
      placement texts user.toUser linkType link.country link.state (existingByUrl user link.url)
        user = .ok (l.country, l.moderation) := by
  simp only [submittedLink, validatedType, bind_eq_ok, okOr_eq_ok, ensure_eq_ok, pure_eq_ok] at h
  obtain ⟨linkType, htype, _, -, languages, -, ⟨country, moderation⟩, hplaced, rfl⟩ := h
  exact ⟨rfl, linkType, htype, hplaced⟩

theorem submittedLinks_eq_ok {links : List CommunityLinkInput} {saved : List CommunityLink}
    (h : submittedLinks texts user links = .ok saved) :
    (saved.map CommunityLink.url).Nodup ∧
    ∀ l ∈ saved, ∃ link ∈ links, submittedLink texts user link = .ok l := by
  simp only [submittedLinks, bind_eq_ok, ensure_eq_ok, mapM_eq_ok] at h
  obtain ⟨_, -, _, -, _, hnodup, hall⟩ := h
  have hurls : saved.map CommunityLink.url = links.map CommunityLinkInput.url := by
    clear hnodup
    induction hall with
    | nil => rfl
    | cons hx _ ih => rw [List.map_cons, List.map_cons, ih, (submittedLink_eq_ok hx).1]
  refine ⟨hurls ▸ hnodup, ?_⟩
  clear hurls hnodup
  induction hall with
  | nil => simp
  | cons hx _ ih =>
    intro l hl
    rcases List.mem_cons.mp hl with rfl | hl
    · exact ⟨_, List.mem_cons_self, hx⟩
    · obtain ⟨link, hlink, hsub⟩ := ih l hl
      exact ⟨link, List.mem_cons_of_mem _ hlink, hsub⟩

theorem existingByUrl_eq_some {url : String} (h : existingByUrl user url = some prior) :
    prior ∈ user.communityLinks ∧ prior.url = url := by
  unfold existingByUrl at h
  have hmem := List.mem_reverse.mp (List.mem_of_find?_eq_some h)
  have hurl := List.find?_some h
  exact ⟨hmem, by simpa using hurl⟩

theorem updateCurrentUser_eq_ok {data : ProfileUpdateRequest}
    (h : updateCurrentUser texts now user data = .ok after) :
    ∃ edited : Member, edited.uid = user.uid ∧ edited.country = data.newCountry texts user ∧
      edited.communityLinks = user.communityLinks ∧ after.uid = edited.uid ∧
      after.country = edited.country ∧
      (∀ capability country, checkLink capability edited.toUser country =
        checkLink capability user.toUser country) ∧
      match data.communityLinks with
      | none => after.communityLinks = user.communityLinks
      | some links => submittedLinks texts edited links = .ok after.communityLinks := by
  simp only [updateCurrentUser, bind_eq_ok, pure_eq_ok] at h
  obtain ⟨edited, he, links, hlinks, rfl⟩ := h
  obtain ⟨huid, hroles, hcountry, hkept, hmoved⟩ := editProfile_eq_ok he
  refine ⟨edited, huid, hcountry, hkept, rfl, rfl, fun _ _ => checkLink_moved hroles hmoved, ?_⟩
  cases hdata : data.communityLinks with
  | none =>
    rw [hdata] at hlinks
    obtain rfl := pure_eq_ok.mp hlinks
    exact hkept
  | some sent =>
    rw [hdata] at hlinks
    exact hlinks

theorem askedCountry_congr {owner : Member} {link : CommunityLinkInput} {p : Option CommunityLink}
    (h : owner.country = user.country) :
    askedCountry texts owner p link = askedCountry texts user p link := by
  simp [askedCountry, priorCountry, h]

theorem Entitled.congr {owner owner' : Member} {link : CommunityLinkInput} {log : List Decision}
    (h : Entitled texts log user owner link) (hc : owner.country = owner'.country) :
    Entitled texts log user owner' link := by
  unfold Entitled at h ⊢
  split at h <;> simpa only [askedCountry_congr hc] using h

theorem placement_asked {link : CommunityLinkInput} {linkType : CommunityLinkType}
    {p : Option CommunityLink} (htype : CommunityLinkType.ofStr link.type = some linkType)
    (h : placement texts actor linkType link.country none p user = .ok (l.country, l.moderation))
    (hc : linkType.isContent = false) :
    l.country = askedCountry texts user p link ∧ ∃ c ≠ "", l.country = some c := by
  obtain ⟨c, hne, heq, hupper⟩ := (placement_none h).2.1 hc
  refine ⟨?_, c, hne, heq⟩
  rw [heq, hupper, askedCountry, htype]
  simp [hc]

theorem Sound.submit {link : CommunityLinkInput} {edited : Member} {ds : List Decision}
    (h : Sound s) (hu : user ∈ s.members) (huid : after.uid = user.uid)
    (hcountry : edited.country = after.country)
    (hlinks : edited.communityLinks = user.communityLinks)
    (hcheck : ∀ capability country, checkLink capability edited.toUser country =
      checkLink capability user.toUser country)
    (hentitled : Entitled texts s.log user edited link)
    (hkeys : (ds.map Decision.key).Nodup)
    (hd : decision user.toUser user after (existingByUrl user l.url) l ∈ ds)
    (hl : submittedLink texts edited link = .ok l) :
    Settled (ds ++ s.log) after l ∧
    ∀ e, latest Decision.key s.log (after.uid, l.url) = some e → e.hides →
      (decision user.toUser user after (existingByUrl user l.url) l).hides ∨
      (decision user.toUser user after (existingByUrl user l.url) l).mayModerate := by
  obtain ⟨hurl, linkType, htype, hplaced⟩ := submittedLink_eq_ok hl
  have hexisting : existingByUrl edited link.url = existingByUrl user l.url := by
    rw [hurl, existingByUrl, hlinks]
    rfl
  rw [hexisting] at hplaced
  rw [Entitled, ← hurl] at hentitled
  have hown : ∀ p ∈ existingByUrl user l.url, p ∈ user.communityLinks ∧ p.url = l.url :=
    fun p hp => existingByUrl_eq_some hp
  have hprior : ∀ p ∈ existingByUrl user l.url, Located p :=
    fun p hp => h.located user hu p (hown p hp).1
  have heffective : effectiveCountry l edited = effectiveCountry l after := by
    rw [effectiveCountry, effectiveCountry, hcountry]
  constructor
  · refine h.decided hu huid hown hkeys hd (placement_located hprior hplaced) ?_ ?_
    · intro hm
      rcases placement_pins hprior hplaced hm with hallowed | ⟨p, hp, hpn, hstays | ⟨hst, hc⟩⟩
      · exact .inl ((hcheck _ _).symm.trans hallowed)
      · exact .inr ⟨p, hp, hpn, hstays⟩
      · -- a pinned channel sent without a state
        rw [hst] at hplaced
        rw [Option.mem_def.mp hp] at hentitled hplaced
        obtain ⟨hasked, -⟩ := placement_asked htype hplaced hc
        rcases hentitled.1 hpn hst (by simp [htype, hc]) with hstays | hallowed
        · exact .inr ⟨p, hp, hpn, hstays.symm.trans hasked.symm⟩
        · exact .inl (hasked ▸ hallowed)
    · intro hm
      rcases placement_promotes hplaced hm with hallowed | hp
      · exact .inl ((hcheck _ _).symm.trans hallowed)
      · exact .inr hp
  · intro e hlatest hhides
    by_cases hm : l.moderation = some .hidden
    · exact .inl hm
    refine .inr ?_
    unfold Decision.mayModerate
    cases hpr : existingByUrl user l.url with
    | some p =>
      rw [hpr] at hentitled hplaced
      have hhidden : p.moderation = some .hidden := by
        obtain ⟨hmem, hpurl⟩ := hown p hpr
        rw [h.current user hu p hmem, hpurl, ← huid, hlatest]
        exact hhides
      refine hentitled.2 hhidden ?_ ?_
      · intro hst
        rw [hst] at hplaced
        exact hm ((placement_none hplaced).1.trans hhidden)
      · intro hst
        rw [hst] at hplaced
        obtain ⟨lands, hauth, -⟩ := placement_some hplaced
        exact hm ((authority_eq_some hauth).2.2.2.1 rfl)
    | none =>
      rw [hpr] at hentitled hplaced
      change canModerateLink user.toUser (effectiveCountry l after) = true
      rw [← heffective]
      cases hst : link.state with
      | some st =>
        rw [hst] at hplaced
        exact (hcheck _ _).symm.trans (placement_new hplaced)
      | none =>
        have hallowed := hentitled hst ⟨e, huid ▸ hlatest, hhides⟩
        rw [hst] at hplaced
        by_cases hc : linkType.isContent = false
        · obtain ⟨hasked, c, hne, heq⟩ := placement_asked htype hplaced hc
          rw [effectiveCountry, heq, given_of_ne hne, Option.some_or, ← heq, hasked]
          exact hallowed
        · obtain ⟨hmod, -, hnone⟩ := placement_none hplaced
          have hcontent : linkType.isContent = true := by simpa using hc
          rw [hmod] at hnone
          have hblank : l.country = none := by simpa using hnone hcontent
          rw [askedCountry, htype] at hallowed
          rw [effectiveCountry, hblank]
          simpa [given, hcontent] using hallowed

theorem Sound.profile {data : ProfileUpdateRequest} (h : Sound s) (hu : user ∈ s.members)
    (hok : ∀ links ∈ data.communityLinks, ∀ link ∈ links, Entitled texts s.log user
      { user with country := data.newCountry texts user } link)
    (ha : updateCurrentUser texts now user data = .ok after) :
    Sound (s.save after (ownDecisions user after data)) := by
  obtain ⟨edited, huid, hcountry, hlinks, hafter, hmoved, hcheck, hsaved⟩ :=
    updateCurrentUser_eq_ok ha
  cases hdata : data.communityLinks with
  | none =>
    rw [hdata] at hsaved
    have hds : ownDecisions user after data = [] := by simp [ownDecisions, hdata]
    rw [hds]
    refine h.save List.nodup_nil (by simp) ?_ (by simp)
    intro l hl
    exact h.kept hu (hafter.trans huid) (hsaved ▸ hl) (by simp)
  | some links =>
    rw [hdata] at hsaved
    obtain ⟨hnodup, hsubmitted⟩ := submittedLinks_eq_ok hsaved
    have hds : ownDecisions user after data = after.communityLinks.map fun l =>
        decision user.toUser user after (existingByUrl user l.url) l := by
      simp [ownDecisions, hdata]
    have hkeys : ((ownDecisions user after data).map Decision.key).Nodup := by
      rw [hds, List.map_map]
      have hpairs : (Decision.key ∘ fun l => decision user.toUser user after
          (existingByUrl user l.url) l) = (fun url => (after.uid, url)) ∘ CommunityLink.url := rfl
      rw [hpairs, ← List.map_map]
      exact hnodup.map fun a b hab => (Prod.mk.inj hab).2
    have hsettled : ∀ l ∈ after.communityLinks, Settled (ownDecisions user after data ++ s.log)
        after l ∧ ∀ e, latest Decision.key s.log (after.uid, l.url) = some e → e.hides →
          (decision user.toUser user after (existingByUrl user l.url) l).hides ∨
          (decision user.toUser user after (existingByUrl user l.url) l).mayModerate := by
      intro l hl
      obtain ⟨link, hlink, hsub⟩ := hsubmitted l hl
      refine h.submit hu (hafter.trans huid) hmoved.symm hlinks hcheck ?_ hkeys ?_ hsub
      · exact (hok links hdata link hlink).congr hcountry.symm
      · rw [hds]
        exact List.mem_map_of_mem hl
    refine h.save hkeys ?_ (fun l hl => (hsettled l hl).1) ?_
    · rw [hds]
      intro d hd
      obtain ⟨l, -, rfl⟩ := List.mem_map.mp hd
      rfl
    · rw [hds]
      intro d hd
      obtain ⟨l, hl, rfl⟩ := List.mem_map.mp hd
      exact (hsettled l hl).2

theorem Call.sound {call : Call} (h : Sound s) (hok : Abides texts s call)
    (hs : call.serve texts s = .ok s') : Sound s' := by
  simp only [Call.serve, bind_eq_ok, okOr_eq_ok] at hs
  obtain ⟨actor, hactor, hs⟩ := hs
  have hmem : actor ∈ s.members := List.mem_of_find?_eq_some hactor
  unfold Abides at hok
  cases hr : call.request with
  | profile data =>
    simp only [hr, bind_eq_ok, pure_eq_ok] at hs hok
    obtain ⟨after, ha, rfl⟩ := hs
    exact h.profile hmem (hok actor hactor) ha
  | curate userUid data =>
    simp only [hr, bind_eq_ok, okOr_eq_ok, pure_eq_ok] at hs
    obtain ⟨target, ht, prior, hp, edited, he, rfl⟩ := hs
    exact h.curate (List.mem_of_find?_eq_some ht) (List.mem_of_find?_eq_some hp) he

end Steps

/-! ### Every run -/

theorem sound_of_reaches {texts : Texts} {s : State}
    (h : (system texts).Reaches (Abides texts) s) : Sound s :=
  h.invariant (fun _ h => Sound.init h) fun _ _ _ hs hok hstep => Call.sound hs hok hstep

/-- In the runs whose requests abide, every moderated link is backed by an actor with the
authority, and what was hidden is shown again only by one who may moderate it. -/
theorem withAuthority_of_reaches {texts : Texts} {s : State}
    (h : (system texts).Reaches (Abides texts) s) : WithAuthority s := by
  have hs := sound_of_reaches h
  refine ⟨hs.backed, ?_⟩
  intro m hm l hl hshown newer d older hlog hkey hd
  refine hs.respected.lifted ?_ hlog hkey hd
  intro e he hhides
  have hcurrent := hs.current m hm l hl
  rw [he] at hcurrent
  exact hshown (hcurrent.trans hhides)

/-! ### A channel in another country, a link listed again -/

/-- The upper case of ASCII; countries are stored as they are sent. -/
def ascii : Texts where
  upper text := String.ofList (text.toList.map Char.toUpper)
  storedCountry country := country

def profileOf (u : User) : Member :=
  { u with
    nickname := none, city := none, cityGeonameId := none, contactPhone := none,
    phoneIsWhatsapp := false, discordId := none, communityLinks := [], localModifications := [] }

/-- A member and the national coordinator of his country. -/
def french : State := ⟨[profileOf (member "ann" []), profileOf (member "cora" [.nc])], []⟩

theorem french_init : (system ascii).init french := by
  refine ⟨rfl, fun m hm l hl => ?_⟩
  rcases List.mem_cons.mp hm with rfl | hm
  · cases hl
  · obtain rfl := List.mem_singleton.mp hm
    cases hl

def replayed (ok : State → Call → Prop) [∀ s c, Decidable (ok s c)] (calls : List Call) :
    Option State :=
  System.replay (fun s (c : Call) => c.serve ascii s) ok french calls

theorem reaches_replayed {ok : State → Call → Prop} [∀ s c, Decidable (ok s c)]
    {calls : List Call} {s : State} (h : replayed ok calls = some s) :
    (system ascii).Reaches ok s :=
  System.reaches_replay (fun _ _ _ hstep => hstep) calls french s (.init french_init) h

/-- Ann sends her list of links. -/
def lists (links : List CommunityLinkInput) : Call :=
  ⟨"2026-05-02T10:00:00Z", "ann", .profile ⟨none, none, none, none, none, none, none, none,
    some links⟩⟩

def channelIn (country : Option String) : CommunityLinkInput :=
  ⟨"discord", "https://discord.gg/a", "", [], country, none⟩

/-- Cora sets the state of a link of Ann. -/
def sets (url state : String) : Call :=
  ⟨"2026-05-02T10:00:00Z", "cora", .curate "ann" ⟨url, none, none, none, none, some state⟩⟩

/-- A channel is pinned and sent again. -/
def pinKept : List Call :=
  [lists [channelIn none], sets "https://discord.gg/a" "national", lists [channelIn none]]

/-- It is pinned still, by the coordinator of its country. -/
theorem pin_kept : ∃ s : State, (s.members.map fun m => m.communityLinks.map fun l =>
      (l.country, l.moderation)) = [[(some "FR", some .national)], []] ∧ WithAuthority s := by
  have hrun : (replayed (Abides ascii) pinKept).map (fun s => s.members.map fun m =>
      m.communityLinks.map fun l => (l.country, l.moderation)) =
        some [[(some "FR", some .national)], []] := by decide +kernel
  obtain ⟨s, hs, heq⟩ := Option.map_eq_some_iff.1 hrun
  exact ⟨s, heq, withAuthority_of_reaches (reaches_replayed hs)⟩

/-- The owner moves the pinned channel to another country. -/
def pinMoved : List Call :=
  [lists [channelIn none], sets "https://discord.gg/a" "national", lists [channelIn (some "BR")]]

/-- The owner lists a hidden channel again after a list without it. -/
def hiddenListed : List Call :=
  [lists [channelIn none], sets "https://discord.gg/a" "hidden", lists [], lists [channelIn none]]

/-- The channel is pinned in a country where nobody pinned it, and the hidden one is shown. -/
theorem pin_moved_hidden_listed :
    (∃ s, (system ascii).Reachable s ∧ ¬ ∀ m ∈ s.members, ∀ l ∈ m.communityLinks,
      Backed s.log (m.uid, l.url) (effectiveCountry l m) l.moderation) ∧
    ∃ s, (system ascii).Reachable s ∧ ¬ WithAuthority s := by
  constructor
  · have hrun : (replayed (fun _ _ => True) pinMoved).map (fun s => decide (∀ m ∈ s.members,
        ∀ l ∈ m.communityLinks, Backed s.log (m.uid, l.url) (effectiveCountry l m)
          l.moderation)) = some false := by decide +kernel
    obtain ⟨s, hs, heq⟩ := Option.map_eq_some_iff.1 hrun
    exact ⟨s, reaches_replayed hs, of_decide_eq_false heq⟩
  · have hshown : (replayed (fun _ _ => True) hiddenListed).map (fun s => s.members.map fun m =>
        (m.uid, m.communityLinks.map fun l => (l.url, l.moderation))) =
        some [("ann", [("https://discord.gg/a", none)]), ("cora", [])] := by decide +kernel
    have hlog : (replayed (fun _ _ => True) hiddenListed).map (fun s => s.log.map fun d =>
        (d.key, d.moderation, canModerateLink d.actor d.ground)) =
        some [(("ann", "https://discord.gg/a"), none, false),
          (("ann", "https://discord.gg/a"), some .hidden, true),
          (("ann", "https://discord.gg/a"), none, false)] := by decide +kernel
    obtain ⟨s, hs, hmembers⟩ := Option.map_eq_some_iff.1 hshown
    rw [hs, Option.map_some, Option.some.injEq] at hlog
    refine ⟨s, reaches_replayed hs, fun h => ?_⟩
    simp only [List.map_eq_cons_iff, List.map_eq_nil_iff, Prod.mk.injEq] at hmembers hlog
    obtain ⟨m, ms, hm, ⟨huid, l, ls, hl, ⟨hurl, hnone⟩, -⟩, -⟩ := hmembers
    obtain ⟨a, as, ha, ⟨-, -, hother⟩, d, ds, rfl, ⟨hkey, hhides, -⟩, -⟩ := hlog
    obtain ⟨x, hx, -, hx'⟩ := h.hidden m (hm ▸ List.mem_cons_self) l (hl ▸ List.mem_cons_self)
      (by simp [hnone]) [a] d ds ha (by rw [hkey, huid, hurl]) hhides
    obtain rfl := List.mem_singleton.mp hx
    simp [Decision.mayModerate, hother] at hx'

end Archon.CommunityLinks

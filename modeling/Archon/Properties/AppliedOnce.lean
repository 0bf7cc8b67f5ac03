import Archon.Frontend.OutboxReplay

/-!
# Queued actions are applied at most once, in order

The replay takes an unchanged copy for a request that never arrived. That is right when nothing is
on its way to the server, the copy holds every commit of a queued action, and no other tab has the
action or an older one still to post.
-/

namespace Archon.Outbox

/-! ### The property -/

/-- Every queued action is applied at most once, in the order of queueing. -/
def AppliedInOrder (s : State) : Prop := (s.applied.map Prod.fst).Pairwise (· < ·)

instance (s : State) : Decidable (AppliedInOrder s) := inferInstanceAs
    (Decidable (List.Pairwise _ _))

/-- The request a step sends: its tab, its entry, and whether a replay starts with it. -/
def posts (s : State) : Input → Option (ℕ × Entry × Bool)
  | .begin t user =>
    match (s.tabs t).queue with
    | .live e :: _ => some (t, e, false)
    | .replay claimed :: _ =>
      ((s.pending claimed).head?.filter (s.replays t user)).map fun e => (t, e, true)
    | [] => none
  | .finish t =>
    match (s.tabs t).phase with
    | .answered true _ (next :: _) => some (t, next, false)
    | _ => none
  | _ => none

/-- Nothing is on its way to the server, no other tab has the action or an older one to post, and
where a replay starts the copy is no older than the last commit of a queued action. -/
def SentInTurn (s : State) (i : Input) : Prop :=
  ∀ p ∈ posts s i, s.requests = [] ∧
    (∀ t', t' ≠ p.1 → ∀ e', Job.live e' ∈ (s.tabs t').queue → p.2.1.id < e'.id) ∧
    (p.2.2 = true → ∀ a ∈ s.applied, a.2 ≤ s.stored)

/-! ### What holds along a run -/

def liveIds (jobs : List Job) : List ℕ :=
  jobs.filterMap fun
    | .live e => some e.id
    | .replay _ => none

def Phase.rest : Phase → List Entry
  | .waiting => []
  | .posting _ _ rest | .answered _ _ rest => rest

/-- The jobs the tab has not begun. -/
def Tab.jobsAfter (tab : Tab) : List Job :=
  match tab.phase with
  | .waiting => tab.queue
  | _ => tab.queue.tail

/-- The actions the tab is bound to post, in turn. -/
def Tab.toPost (tab : Tab) : List ℕ := tab.phase.rest.map Entry.id ++ liveIds tab.jobsAfter

/-- Everything applied or on its way was queued earlier. -/
def Past (s : State) (n : ℕ) : Prop := (∀ a ∈ s.applied, a.1 < n) ∧ ∀ r ∈ s.requests, r.2 < n

structure TabInv (s : State) (tab : Tab) : Prop where
  past : ∀ n ∈ tab.toPost, Past s n ∧ n < s.queued
  increasing : tab.toPost.Pairwise (· < ·)
  claimed : ∀ claimed, Job.replay claimed ∈ tab.queue → ∀ c ∈ claimed, c < s.queued ∧
    ∀ n ∈ liveIds tab.queue, c < n

structure Inv (s : State) : Prop where
  applied : AppliedInOrder s
  known : ∀ a ∈ s.applied, a.1 < s.queued
  single : s.requests.length ≤ 1
  next : ∀ r ∈ s.requests, r.2 < s.queued ∧ ∀ a ∈ s.applied, a.1 < r.2
  outbox : (s.outbox.map Entry.id).Pairwise (· < ·)
  entry : ∀ e ∈ s.outbox, e.id < s.queued ∧ e.modified ≤ s.version
  overtaken : ∀ e ∈ s.outbox, ∀ a ∈ s.applied, e.id ≤ a.1 → e.modified < a.2
  lock : ∀ t, s.lock = some t ∨ (s.tabs t).phase = .waiting
  tab : ∀ t, TabInv s (s.tabs t)

section Steps

variable {s s' : State} {t : ℕ} {i : Input} {e : Entry} {rest : List Entry} {tab : Tab}
variable {jobs : List Job}

@[simp] theorem setTab_self : (s.setTab t tab).tabs t = tab := Function.update_self ..

theorem setTab_other {t' : ℕ} (h : t' ≠ t) : (s.setTab t tab).tabs t' = s.tabs t' :=
  Function.update_of_ne h ..

theorem liveIds_cons_live : liveIds (.live e :: jobs) = e.id :: liveIds jobs := rfl

theorem liveIds_cons_replay {claimed : List ℕ} : liveIds (.replay claimed :: jobs) = liveIds jobs :=
  rfl

theorem liveIds_append (jobs' : List Job) : liveIds
    (jobs ++ jobs') = liveIds jobs ++ liveIds jobs' :=
  List.filterMap_append

theorem mem_liveIds {n : ℕ} (h : n ∈ liveIds jobs) : ∃ e, Job.live e ∈ jobs ∧ e.id = n := by
  obtain ⟨job, hjob, hn⟩ := List.mem_filterMap.1 h
  cases job with
  | live e => exact ⟨e, hjob, Option.some.inj hn⟩
  | replay claimed => cases hn

theorem liveIds_tail_sublist (jobs : List Job) : (liveIds jobs.tail).Sublist (liveIds jobs) :=
  (List.tail_sublist jobs).filterMap _

theorem toPost_waiting (h : tab.phase = .waiting) : tab.toPost = liveIds tab.queue := by
  rw [Tab.toPost, Tab.jobsAfter, h]
  rfl

theorem liveIds_tail_toPost (tab : Tab) : (liveIds tab.queue.tail).Sublist tab.toPost := by
  unfold Tab.toPost Tab.jobsAfter
  split
  · exact (liveIds_tail_sublist _).trans (List.sublist_append_right _ _)
  · exact List.sublist_append_right _ _

theorem TabInv.congr (h : TabInv s tab) (hqueued : s.queued ≤ s'.queued)
    (happlied : ∀ a ∈ s'.applied, (∃ a' ∈ s.applied, a'.1 = a.1) ∨ ∃ r ∈ s.requests, r.2 = a.1)
    (hrequests : s'.requests ⊆ s.requests) : TabInv s' tab where
  past n hn := by
    obtain ⟨⟨hdone, hsent⟩, hlt⟩ := h.past n hn
    refine ⟨⟨fun a ha => ?_, fun r hr => hsent r (hrequests hr)⟩, hlt.trans_le hqueued⟩
    rcases happlied a ha with ⟨a', ha', heq⟩ | ⟨r, hr, heq⟩
    · exact heq ▸ hdone a' ha'
    · exact heq ▸ hsent r hr
  increasing := h.increasing
  claimed claimed hreplay c hc :=
    ⟨(h.claimed claimed hreplay c hc).1.trans_le hqueued, (h.claimed claimed hreplay c hc).2⟩

theorem tabInv_closed (s : State) : TabInv s .closed where
  past n hn := by cases hn
  increasing := .nil
  claimed _ h := by cases h

theorem Inv.others (h : Inv s) (hat : (s.tabs t).phase ≠ .waiting) :
    s.lock = some t ∧ ∀ t', t' ≠ t → (s.tabs t').phase = .waiting := by
  have hlock : s.lock = some t := (h.lock t).resolve_right hat
  refine ⟨hlock, fun t' hne => (h.lock t').resolve_left fun heq => hne ?_⟩
  exact Option.some.inj (heq.symm.trans hlock)

theorem Inv.waiting (h : Inv s) (hfree : s.lock = none) (t : ℕ) : (s.tabs t).phase = .waiting :=
  (h.lock t).resolve_left (by rw [hfree]; exact Option.some_ne_none t ∘ Eq.symm)

theorem Inv.post (h : Inv s) (hidle : s.requests = [])
    (hfirst : ∀ t', t' ≠ t → ∀ e', Job.live e' ∈ (s.tabs t').queue → e.id < e'.id)
    (hothers : ∀ t', t' ≠ t → (s.tabs t').phase = .waiting)
    (hnew : ∀ a ∈ s.applied, a.1 < e.id) (hknown : ∀ n ∈ e.id :: rest.map Entry.id, n < s.queued)
    (hturn : (e.id :: (rest.map Entry.id ++ liveIds (s.tabs t).queue.tail)).Pairwise (· < ·)) :
    Inv (s.post t e rest) where
  applied := h.applied
  known := h.known
  single := by
    change (s.requests ++ _).length ≤ 1
    rw [hidle]
    exact le_rfl
  next r hr := by
    change r ∈ s.requests ++ [(s.sent, e.id)] at hr
    rw [hidle, List.nil_append, List.mem_singleton] at hr
    rw [hr]
    exact ⟨hknown _ List.mem_cons_self, hnew⟩
  outbox := h.outbox
  entry := h.entry
  overtaken := h.overtaken
  lock t' := by
    by_cases ht : t' = t
    · exact .inl (congrArg some ht.symm)
    · exact .inr ((congrArg Tab.phase (setTab_other ht)).trans (hothers t' ht))
  tab t' := by
    have hrequests : (s.post t e rest).requests = [(s.sent, e.id)] := by
      change s.requests ++ _ = _
      rw [hidle, List.nil_append]
    have hpast : ∀ n, e.id < n → Past (s.post t e rest) n := by
      refine fun n hn => ⟨fun a ha => (hnew a ha).trans hn, fun r hr => ?_⟩
      rw [hrequests, List.mem_singleton] at hr
      rw [hr]
      exact hn
    obtain ⟨hafter, hincreasing⟩ := List.pairwise_cons.1 hturn
    by_cases ht : t' = t
    · subst ht
      have hself : (s.post t' e rest).tabs t' =
          { s.tabs t' with phase := .posting s.sent e rest } := setTab_self
      rw [hself]
      refine ⟨fun n hn => ⟨hpast n (hafter n hn), ?_⟩, hincreasing, (h.tab t').claimed⟩
      rcases List.mem_append.1 hn with hrest | hlive
      · exact hknown n (List.mem_cons_of_mem _ hrest)
      · exact ((h.tab t').past n ((liveIds_tail_toPost _).subset hlive)).2
    · have hsame : (s.post t e rest).tabs t' = s.tabs t' := setTab_other ht
      rw [hsame]
      refine ⟨fun n hn => ⟨hpast n ?_, ((h.tab t').past n hn).2⟩, (h.tab t').increasing,
        (h.tab t').claimed⟩
      rw [toPost_waiting (hothers t' ht)] at hn
      obtain ⟨e', he', rfl⟩ := mem_liveIds hn
      exact hfirst t' ht e' he'

theorem Inv.removePendingActions (h : Inv s) (entries : List Entry) :
    Inv (s.removePendingActions entries) where
  applied := h.applied
  known := h.known
  single := h.single
  next := h.next
  outbox := h.outbox.sublist (List.filter_sublist.map _)
  entry e he := h.entry e (List.mem_filter.1 he).1
  overtaken e he := h.overtaken e (List.mem_filter.1 he).1
  lock := h.lock
  tab t := (h.tab t).congr le_rfl (fun a ha => .inl ⟨a, ha, rfl⟩) (List.Subset.refl _)

theorem Inv.setTab {lock : Option ℕ} (h : Inv s) (htab : TabInv s tab)
    (hself : lock = some t ∨ tab.phase = .waiting)
    (hothers : ∀ t', t' ≠ t → lock = some t' ∨ (s.tabs t').phase = .waiting) :
    Inv { s.setTab t tab with lock := lock } where
  applied := h.applied
  known := h.known
  single := h.single
  next := h.next
  outbox := h.outbox
  entry := h.entry
  overtaken := h.overtaken
  lock t' := by
    by_cases ht : t' = t
    · subst ht
      exact hself.imp_right (congrArg Tab.phase setTab_self).trans
    · exact (hothers t' ht).imp_right (congrArg Tab.phase (setTab_other ht)).trans
  tab t' := by
    have hcongr : ∀ {tab'}, TabInv s tab' → TabInv { s.setTab t tab with lock := lock } tab' :=
      fun h => h.congr le_rfl (fun a ha => .inl ⟨a, ha, rfl⟩) (List.Subset.refl _)
    by_cases ht : t' = t
    · subst ht
      have hself : ({ s.setTab t' tab with lock := lock } : State).tabs t' = tab := setTab_self
      rw [hself]
      exact hcongr htab
    · have hsame : ({ s.setTab t tab with lock := lock } : State).tabs t' = s.tabs t' :=
        setTab_other ht
      rw [hsame]
      exact hcongr (h.tab t')

theorem Inv.settle (h : Inv s) (hothers : ∀ t', t' ≠ t → (s.tabs t').phase = .waiting) :
    Inv (s.settle t) := by
  refine h.setTab ⟨fun n hn => ?_, ?_, fun claimed hreplay c hc => ?_⟩ (.inr rfl)
    fun t' ht => .inr (hothers t' ht)
  · exact (h.tab t).past n ((liveIds_tail_toPost _).subset hn)
  · exact (h.tab t).increasing.sublist (liveIds_tail_toPost _)
  · obtain ⟨hknown, hbefore⟩ := (h.tab t).claimed claimed (List.mem_of_mem_tail hreplay) c hc
    exact ⟨hknown, fun n hn => hbefore n ((liveIds_tail_sublist _).subset hn)⟩

theorem Inv.stored (h : Inv s) (v : ℕ) : Inv { s with stored := v } :=
  ⟨h.applied, h.known, h.single, h.next, h.outbox, h.entry, h.overtaken, h.lock, fun t =>
    (h.tab t).congr le_rfl (fun a ha => .inl ⟨a, ha, rfl⟩) (List.Subset.refl _)⟩

theorem Inv.load (h : Inv s) (t : ℕ) : Inv (s.setTab t ⟨true, s.version, false, false,
    if s.outbox = [] then [] else [.replay (s.outbox.map Entry.id)], .waiting⟩) := by
  have hlive : liveIds (if s.outbox = [] then [] else [.replay (s.outbox.map Entry.id)]) = [] := by
    split <;> rfl
  refine h.setTab ⟨fun n hn => ?_, ?_, fun claimed hreplay c hc => ?_⟩ (.inr rfl)
    fun t' _ => h.lock t'
  · rw [toPost_waiting rfl, hlive] at hn
    cases hn
  · rw [toPost_waiting rfl, hlive]
    exact .nil
  · rw [hlive]
    refine ⟨?_, fun n hn => nomatch hn⟩
    have hclaimed : claimed = s.outbox.map Entry.id := by
      dsimp only at hreplay
      split at hreplay
      · cases hreplay
      · exact Job.replay.inj (List.mem_singleton.1 hreplay)
    rw [hclaimed] at hc
    obtain ⟨e, he, rfl⟩ := List.mem_map.1 hc
    exact (h.entry e he).1

theorem Inv.crash (h : Inv s) (t : ℕ) :
    Inv { s.setTab t .closed with lock := if s.lock = some t then none else s.lock } := by
  refine h.setTab (tabInv_closed s) (.inr rfl) fun t' ht => ?_
  split
  · rename_i hlock
    exact .inr ((h.lock t').resolve_left fun heq => ht (Option.some.inj (heq.symm.trans hlock)))
  · exact h.lock t'

theorem toPost_queued (tab : Tab) (e : Entry) :
    ({ tab with gateOpen := true, queue := tab.queue ++ [.live e] } : Tab).toPost.Sublist
      (tab.toPost ++ [e.id]) := by
  unfold Tab.toPost
  rw [List.append_assoc]
  refine List.Sublist.append_left ?_ _
  unfold Tab.jobsAfter
  dsimp only
  split
  · rw [liveIds_append]
    exact List.Sublist.refl _
  · cases tab.queue with
    | nil => exact List.nil_sublist _
    | cons job jobs =>
      rw [List.cons_append, List.tail_cons, List.tail_cons, liveIds_append]
      exact List.Sublist.refl _

theorem Inv.tap (h : Inv s) (t : ℕ) (user : Engine.Uid) {v : ℕ} (hv : v ≤ s.version) :
    Inv { s.setTab t { s.tabs t with
        gateOpen := true
        queue := (s.tabs t).queue ++ [.live ⟨s.queued, user, v⟩] } with
      outbox := s.outbox ++ [⟨s.queued, user, v⟩]
      queued := s.queued + 1 } where
  applied := h.applied
  known a ha := Nat.lt_succ_of_lt (h.known a ha)
  single := h.single
  next r hr := ⟨Nat.lt_succ_of_lt (h.next r hr).1, (h.next r hr).2⟩
  outbox := by
    rw [List.map_append, List.pairwise_append]
    refine ⟨h.outbox, List.pairwise_singleton .., fun n hn m hm => ?_⟩
    obtain ⟨e, he, rfl⟩ := List.mem_map.1 hn
    rw [List.mem_singleton.1 hm]
    exact (h.entry e he).1
  entry e he := by
    rcases List.mem_append.1 he with he | he
    · exact (h.entry e he).imp_left Nat.lt_succ_of_lt
    · rw [List.mem_singleton.1 he]
      exact ⟨Nat.lt_succ_self _, hv⟩
  overtaken e he a ha hle := by
    rcases List.mem_append.1 he with he | he
    · exact h.overtaken e he a ha hle
    · rw [List.mem_singleton.1 he] at hle
      exact absurd (h.known a ha) (Nat.not_lt_of_le hle)
  lock t' := by
    refine (h.lock t').imp_right fun hwaiting => ?_
    by_cases ht : t' = t
    · subst ht
      exact (congrArg Tab.phase setTab_self).trans hwaiting
    · exact (congrArg Tab.phase (setTab_other ht)).trans hwaiting
  tab t' := by
    set s' : State := { s.setTab t { s.tabs t with
        gateOpen := true
        queue := (s.tabs t).queue ++ [.live ⟨s.queued, user, v⟩] } with
      outbox := s.outbox ++ [⟨s.queued, user, v⟩]
      queued := s.queued + 1 } with hs'
    have hcongr : TabInv s' (s.tabs t') :=
      (h.tab t').congr (Nat.le_succ _) (fun a ha => .inl ⟨a, ha, rfl⟩) (List.Subset.refl _)
    by_cases ht : t' = t
    · subst ht
      have hself : s'.tabs t' = { s.tabs t' with
          gateOpen := true
          queue := (s.tabs t').queue ++ [.live ⟨s.queued, user, v⟩] } := setTab_self
      have hsub := toPost_queued (s.tabs t') ⟨s.queued, user, v⟩
      rw [hself]
      refine ⟨fun n hn => ?_, .sublist hsub ?_, fun claimed hreplay c hc => ?_⟩
      · rcases List.mem_append.1 (hsub.subset hn) with hn | hn
        · exact hcongr.past n hn
        · rw [List.mem_singleton.1 hn]
          exact ⟨⟨h.known, fun r hr => (h.next r hr).1⟩, Nat.lt_succ_self _⟩
      · refine List.pairwise_append.2 ⟨h.tab t' |>.increasing, List.pairwise_singleton ..,
          fun n hn m hm => ?_⟩
        rw [List.mem_singleton.1 hm]
        exact ((h.tab t').past n hn).2
      · rcases List.mem_append.1 hreplay with hreplay | hreplay
        · obtain ⟨hknown, hbefore⟩ := (h.tab t').claimed claimed hreplay c hc
          refine ⟨Nat.lt_succ_of_lt hknown, fun n hn => ?_⟩
          rw [liveIds_append] at hn
          rcases List.mem_append.1 hn with hn | hn
          · exact hbefore n hn
          · rw [List.mem_singleton.1 hn]
            exact hknown
        · cases List.mem_singleton.1 hreplay
    · have hsame : s'.tabs t' = s.tabs t' := setTab_other ht
      rw [hsame]
      exact hcongr

theorem Inv.commit (h : Inv s) {request id : ℕ} (hid : s.requests.lookup request = some id) :
    Inv { s with
      version := s.version + 1
      applied := s.applied ++ [(id, s.version + 1)]
      requests := s.requests.filter fun r => r.1 != request
      granted := s.granted ++ [request] } := by
  have hmem : (request, id) ∈ s.requests := by
    obtain ⟨before, after, hrequests, -⟩ := List.lookup_eq_some_iff.1 hid
    rw [hrequests]
    exact List.mem_append_right _ List.mem_cons_self
  obtain ⟨hknown, hnew⟩ := h.next _ hmem
  have hone : s.requests = [(request, id)] := by
    have hlength := h.single
    match s.requests, hmem, hlength with
    | [r], hmem, _ => rw [List.mem_singleton.1 hmem]
  have hnone : (s.requests.filter fun r => r.1 != request) = [] := by
    rw [hone, List.filter_cons_of_neg, List.filter_nil]
    exact Bool.not_eq_true _ ▸ bne_self_eq_false request
  refine ⟨?_, fun a ha => ?_, ?_, fun r hr => ?_, h.outbox, fun e he => ?_, fun e he a ha hle => ?_,
    h.lock, fun t => (h.tab t).congr le_rfl (fun a ha => ?_) List.filter_sublist.subset⟩
  · rw [AppliedInOrder, List.map_append, List.pairwise_append]
    refine ⟨h.applied, List.pairwise_singleton .., fun n hn m hm => ?_⟩
    obtain ⟨a, ha, rfl⟩ := List.mem_map.1 hn
    rw [List.mem_singleton.1 hm]
    exact hnew a ha
  · rcases List.mem_append.1 ha with ha | ha
    · exact h.known a ha
    · rw [List.mem_singleton.1 ha]
      exact hknown
  · rw [hnone]
    exact Nat.zero_le _
  · rw [hnone] at hr
    cases hr
  · exact (h.entry e he).imp_right Nat.le_succ_of_le
  · rcases List.mem_append.1 ha with ha | ha
    · exact h.overtaken e he a ha hle
    · rw [List.mem_singleton.1 ha]
      exact Nat.lt_succ_of_le (h.entry e he).2
  · rcases List.mem_append.1 ha with ha | ha
    · exact .inl ⟨a, ha, rfl⟩
    · rw [List.mem_singleton.1 ha]
      exact .inr ⟨_, hmem, rfl⟩

theorem Inv.refuse (h : Inv s) (request : ℕ) :
    Inv { s with requests := s.requests.filter fun r => r.1 != request } :=
  ⟨h.applied, h.known, (List.length_filter_le ..).trans h.single,
    fun r hr => h.next r (List.mem_filter.1 hr).1, h.outbox, h.entry, h.overtaken, h.lock, fun t =>
    (h.tab t).congr le_rfl (fun a ha => .inl ⟨a, ha, rfl⟩) List.filter_sublist.subset⟩

theorem Inv.other (h : Inv s) : Inv { s with version := s.version + 1 } :=
  ⟨h.applied, h.known, h.single, h.next, h.outbox,
    fun e he => (h.entry e he).imp_right Nat.le_succ_of_le, h.overtaken, h.lock, fun t =>
    (h.tab t).congr le_rfl (fun a ha => .inl ⟨a, ha, rfl⟩) (List.Subset.refl _)⟩

theorem Inv.begin {user : Engine.Uid} (h : Inv s) (hok : SentInTurn s (.begin t user))
    (hs : step s (.begin t user) = some s') : Inv s' := by
  dsimp only [step] at hs
  split at hs
  · rename_i e jobs hfree hwaiting hqueue
    cases hs
    obtain ⟨hidle, hfirst, -⟩ := hok (t, e, false) (by simp [posts, hqueue])
    have htoPost : (s.tabs t).toPost = e.id :: liveIds jobs := by
      rw [toPost_waiting hwaiting, hqueue]
      rfl
    have hpast := (h.tab t).past e.id (htoPost ▸ List.mem_cons_self)
    refine h.post hidle hfirst (fun t' _ => h.waiting hfree t') hpast.1.1 (fun n hn => ?_) ?_
    · rw [List.mem_singleton.1 hn]
      exact hpast.2
    · rw [hqueue]
      exact htoPost ▸ (h.tab t).increasing
  · rename_i claimed jobs hfree hwaiting hqueue
    have hothers : ∀ t', t' ≠ t → (s.tabs t').phase = .waiting := fun t' _ => h.waiting hfree t'
    split at hs
    · split at hs
      · cases hs
        exact h.settle hothers
      rename_i first rest hpending
      split at hs
      · rename_i hreplays
        cases hs
        obtain ⟨hidle, hfirst, hcopy⟩ := hok (t, first, true) (by
          simp [posts, hqueue, hpending, hreplays])
        have hsub : (first :: rest).Sublist s.outbox := hpending ▸ List.filter_sublist
        have hunchanged : s.stored = first.modified := by
          simp only [State.replays, Bool.and_eq_true, beq_iff_eq] at hreplays
          exact hreplays.2
        refine h.post hidle hfirst hothers (fun a ha => Nat.lt_of_not_le fun hle => ?_)
          (fun n hn => ?_) ?_
        · have hlate := h.overtaken first (hsub.subset List.mem_cons_self) a ha hle
          exact absurd (hcopy rfl a ha) (Nat.not_le_of_lt (hunchanged ▸ hlate))
        · rw [← List.map_cons] at hn
          obtain ⟨e, he, rfl⟩ := List.mem_map.1 hn
          exact (h.entry e (hsub.subset he)).1
        · rw [hqueue, List.tail_cons, ← List.cons_append, ← List.map_cons, List.pairwise_append]
          have hlive := (h.tab t).increasing
          rw [toPost_waiting hwaiting, hqueue] at hlive
          refine ⟨h.outbox.sublist (hsub.map _), hlive, fun n hn m hm => ?_⟩
          obtain ⟨e, he, rfl⟩ := List.mem_map.1 hn
          have hclaimed : e.id ∈ claimed := by
            have hmem : e ∈ s.pending claimed := hpending ▸ he
            exact List.contains_iff_mem.1 (List.mem_filter.1 hmem).2
          refine ((h.tab t).claimed claimed (hqueue ▸ List.mem_cons_self) _ hclaimed).2 m ?_
          rw [hqueue]
          exact hm
      · cases hs
        exact (h.removePendingActions _).settle hothers
    · cases hs
  · cases hs

theorem Inv.reply {granted : Bool} (h : Inv s) (hs : step s (.reply t granted) = some s') :
    Inv s' := by
  dsimp only [step] at hs
  split at hs
  · rename_i request e rest hposting
    split at hs
    · cases hs
      have hat : (s.tabs t).phase ≠ .waiting := by
        rw [hposting]
        exact nofun
      obtain ⟨hlock, hothers⟩ := h.others hat
      have hsame : ({ s.tabs t with phase := .answered granted e rest } : Tab).toPost =
          (s.tabs t).toPost := by
        rw [Tab.toPost, Tab.jobsAfter, Tab.toPost, Tab.jobsAfter, hposting]
        rfl
      refine h.setTab ⟨fun n hn => (h.tab t).past n (hsame ▸ hn), hsame ▸ (h.tab t).increasing,
        (h.tab t).claimed⟩ (.inl hlock) fun t' ht => .inr (hothers t' ht)
    · cases hs
  · cases hs

theorem Inv.finish (h : Inv s) (hok : SentInTurn s (.finish t))
    (hs : step s (.finish t) = some s') : Inv s' := by
  dsimp only [step] at hs
  split at hs
  · rename_i e next rest hanswered
    cases hs
    obtain ⟨-, hothers⟩ := h.others (t := t) (by rw [hanswered]; exact nofun)
    obtain ⟨hidle, hfirst, -⟩ := hok (t, next, false) (by simp [posts, hanswered])
    have htoPost : (s.tabs t).toPost =
        next.id :: (rest.map Entry.id ++ liveIds (s.tabs t).queue.tail) := by
      rw [Tab.toPost, Tab.jobsAfter, hanswered]
      rfl
    have hpast := (h.tab t).past next.id (htoPost ▸ List.mem_cons_self)
    refine (h.removePendingActions [e]).post hidle hfirst hothers hpast.1.1 (fun n hn => ?_)
      (htoPost ▸ (h.tab t).increasing)
    refine ((h.tab t).past n ?_).2
    rw [htoPost, ← List.cons_append]
    exact List.mem_append_left _ hn
  · rename_i e hanswered
    cases hs
    exact (h.removePendingActions _).settle (h.others (by rw [hanswered]; exact nofun)).2
  · rename_i e rest hanswered
    cases hs
    exact (h.removePendingActions _).settle (h.others (by rw [hanswered]; exact nofun)).2
  · cases hs

theorem Inv.step (h : Inv s) (hok : SentInTurn s i) (hs : step s i = some s') : Inv s' := by
  cases i with
  | load t =>
    dsimp only [Outbox.step] at hs
    split at hs
    · cases hs
    · cases hs
      exact h.load t
  | crash t =>
    obtain ⟨-, hs⟩ := Option.ite_none_right_eq_some.1 hs
    cases hs
    exact h.crash t
  | frame t v =>
    obtain ⟨-, hs⟩ := Option.ite_none_right_eq_some.1 hs
    cases hs
    exact h.stored v
  | sync t v =>
    obtain ⟨-, hs⟩ := Option.ite_none_right_eq_some.1 hs
    cases hs
    have htab : TabInv s { s.tabs t with caughtUp := true, gateOpen := true } :=
      ⟨(h.tab t).past, (h.tab t).increasing, (h.tab t).claimed⟩
    exact (h.setTab htab (h.lock t) fun t' _ => h.lock t').stored v
  | tap t user v =>
    obtain ⟨⟨-, hv⟩, hs⟩ := Option.ite_none_right_eq_some.1 hs
    cases hs
    exact h.tap t user hv
  | begin t user => exact h.begin hok hs
  | commit request =>
    obtain ⟨id, hid, rfl⟩ := Option.map_eq_some_iff.1 hs
    exact h.commit hid
  | refuse request =>
    obtain ⟨id, hid, rfl⟩ := Option.map_eq_some_iff.1 hs
    exact h.refuse request
  | other =>
    cases hs
    exact h.other
  | reply t granted => exact h.reply hs
  | finish t => exact h.finish hok hs

theorem Inv.init (h : system.init s) : Inv s := by
  obtain ⟨happlied, hrequests, houtbox, hlock, -, htabs⟩ := h
  refine ⟨?_, ?_, ?_, ?_, ?_, ?_, ?_, fun t => .inr ?_, fun t => ?_⟩
  · rw [AppliedInOrder, happlied]
    exact .nil
  · simp [happlied]
  · simp [hrequests]
  · simp [hrequests]
  · simp [houtbox]
  · simp [houtbox]
  · simp [happlied]
  · rw [htabs]
    rfl
  · rw [htabs]
    exact tabInv_closed s

end Steps

/-! ### The main result -/

theorem appliedInOrder_of_reaches {s : State} (h : system.Reaches SentInTurn s) :
    AppliedInOrder s :=
  (h.invariant (fun _ => Inv.init) fun _ _ _ => Inv.step).applied

/-! ### A page loaded again -/

/-- Nothing queued, every tab closed. -/
def atRest : State := ⟨0, [], 0, [], [], 0, [], 0, none, fun _ => .closed⟩

theorem atRest_init : system.init atRest := ⟨rfl, rfl, rfl, rfl, le_rfl, fun _ => rfl⟩

theorem turn_step {s s' : State} (i : Input) (h : system.Reaches SentInTurn s)
    (hok : SentInTurn s i) (hs : step s i = some s') : system.Reaches SentInTurn s' := h.step hok hs

/-- An action whose request was never sent, replayed by the tab that finds it. -/
theorem replayed_alone : ∃ s : State, s.applied = [(0, 1)] ∧ AppliedInOrder s := by
  have hloaded := turn_step (.load 0) (.init atRest_init) nofun rfl
  have htaken := turn_step (.tap 0 "organizer" 0) hloaded nofun rfl
  have hleft := turn_step (.crash 0) htaken nofun rfl
  have hagain := turn_step (.load 0) hleft nofun rfl
  have hsynced := turn_step (.sync 0 0) hagain nofun rfl
  have hposted := turn_step (.begin 0 "organizer") hsynced (by
    intro p hp
    obtain rfl := Option.some.inj hp
    refine ⟨rfl, fun t' ht e' he' => ?_, fun _ a ha => nomatch ha⟩
    simp [State.setTab, Function.update_of_ne ht, atRest, Tab.closed] at he') rfl
  have hcommitted := turn_step (.commit 0) hposted nofun rfl
  exact ⟨_, by decide +kernel, appliedInOrder_of_reaches hcommitted⟩

/-- The first request is still on its way when the page is loaded again: the copy is unchanged. -/
def reloaded : List Input :=
  [.load 0, .tap 0 "organizer" 0, .begin 0 "organizer", .crash 0, .load 0, .sync 0 0,
    .begin 0 "organizer", .commit 0, .commit 1]

/-- The replay sends the action a second time, and the server applies it again. -/
theorem applied_twice : ∃ s, system.Reachable s ∧ ¬ AppliedInOrder s := by
  have hrun : (reloaded.foldlM step atRest).map State.applied = some [(0, 1), (0, 2)] := by
    decide +kernel
  obtain ⟨s, hs, happlied⟩ := Option.map_eq_some_iff.1 hrun
  refine ⟨s, System.Reachable.foldlM (fun _ _ _ => id) reloaded _ _ (.init atRest_init) hs,
    fun h => ?_⟩
  rw [AppliedInOrder, happlied] at h
  exact absurd h (by decide)

end Archon.Outbox

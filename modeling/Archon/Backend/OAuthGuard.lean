import Archon.Library.Lines

/-!
# The reach of a scoped token (`middleware/auth.py`)

The guard of an `event:run` token reads the path as it was sent, split at its slashes. The router
collapses repeated slashes and drops a trailing one, so it matches the parts between slashes.
-/

namespace Archon.OAuth

open Segments

structure Request where
  method : String
  path : String
  /-- The query parameter. -/
  tournament : Option String

/-- `middleware/auth.py:12`. -/
def oauthBarredSubpaths : List String :=
  ["organizers", "push-vekn", "go-offline", "go-online", "force-takeover", "force-unlock",
    "sync-offline", "qr-checkin", "archon-import"]

def Barred (part : List Char) : Prop := part ∈ oauthBarredSubpaths.map String.toList

instance (part : List Char) : Decidable (Barred part) :=
  inferInstanceAs (Decidable (part ∈ oauthBarredSubpaths.map String.toList))

/-- `path.strip("/").split("/")`. -/
def Request.segments (r : Request) : List (List Char) := (strip '/' r.path.toList).splitOn '/'

/-- The path of a tournament. -/
def tournamentPath (tournamentUid : String) : List (List Char) :=
  ["api".toList, "tournaments".toList, tournamentUid.toList]

/-- `middleware/auth.py:27`. -/
def oauthAllows (r : Request) (tournamentUid : String) : Bool :=
  if "/oauth/".toList <+: r.path.toList then true
  else if r.path = "/sanctions" then r.method = "POST"
  else if r.path = "/sanctions/reference" then r.method = "GET"
  else if r.path = "/stream" then r.tournament = some tournamentUid
  else if r.segments.take 3 ≠ tournamentPath tournamentUid then false
  else if r.method = "DELETE" ∧ r.segments.length = 3 then false
  else r.segments.length < 4 ∨ ¬∃ part ∈ r.segments[3]?, Barred part

/-- `middleware/auth.py:81-95`: the test of a token by its scopes and the tournament it names. -/
def oauthReaches (scopes : List String) (tournament : Option String) (r : Request) : Bool :=
  match tournament with
  | some uid =>
    if "event:run" ∈ scopes ∧ uid ≠ "" then oauthAllows r uid
    else "/oauth/".toList <+: r.path.toList
  | none => "/oauth/".toList <+: r.path.toList

/-! ### The route -/

/-- The parts of the path the router matches. -/
def Request.route (r : Request) : List (List Char) := parts '/' r.path.toList

/-- What a token of the tournament may reach. -/
inductive Contained (r : Request) (tournamentUid : String) : Prop where
  | oauth (rest : List (List Char)) (route : r.route = "oauth".toList :: rest)
  | sanction (route : r.route = ["sanctions".toList]) (method : r.method = "POST")
  | reference (route : r.route = ["sanctions".toList, "reference".toList])
    (method : r.method = "GET")
  | stream (route : r.route = ["stream".toList]) (tournament : r.tournament = some tournamentUid)
  | tournament (rest : List (List Char)) (route : r.route = tournamentPath tournamentUid ++ rest)
      (kept : ¬(r.method = "DELETE" ∧ rest = []))
      (unbarred : ∀ part ∈ rest.head?, ¬Barred part)

/-- Between the tournament's uid and a barred subpath stand two slashes or more. -/
def DoubledSlash (r : Request) (tournamentUid : String) : Prop :=
  ∃ rest part, r.segments = tournamentPath tournamentUid ++ [] :: rest ∧
    rest.find? (· ≠ []) = some part ∧ Barred part

variable {r : Request} {tournamentUid : String}

theorem route_eq : r.route = r.segments.filter (· ≠ []) := (parts_strip (a := '/')).symm

theorem oauth_route (h : "/oauth/".toList <+: r.path.toList) :
    ∃ rest, r.route = "oauth".toList :: rest := by
  obtain ⟨rest, hpath⟩ := h
  have hoauth : parts '/' "/oauth".toList = ["oauth".toList] := by decide
  have hslash : "/oauth/".toList ++ rest = "/oauth".toList ++ '/' :: rest := rfl
  refine ⟨parts '/' rest, ?_⟩
  rw [Request.route, ← hpath, hslash, parts_append_cons, hoauth]
  rfl

theorem route_of_path {path : String} {route : List (List Char)} (h : r.path = path)
    (hparts : parts '/' path.toList = route) : r.route = route := by
  rw [Request.route, h, hparts]

theorem route_of_segments {rest : List (List Char)} (huid : tournamentUid ≠ "")
    (h : r.segments = tournamentPath tournamentUid ++ rest) :
    r.route = tournamentPath tournamentUid ++ rest.filter (· ≠ []) := by
  have hnamed : (tournamentPath tournamentUid).filter (· ≠ []) = tournamentPath tournamentUid := by
    have hne : tournamentUid.toList ≠ [] := fun hnil => huid (String.toList_eq_nil_iff.1 hnil)
    rw [List.filter_eq_self]
    intro part hpart
    simp only [tournamentPath, List.mem_cons, List.not_mem_nil, or_false] at hpart
    rcases hpart with rfl | rfl | rfl
    exacts [by decide, by decide, by simpa using hne]
  rw [route_eq, h, List.filter_append, hnamed]

theorem filter_ne_nil {part : List Char} {rest : List (List Char)}
    (h : r.segments = tournamentPath tournamentUid ++ part :: rest) :
    (part :: rest).filter (· ≠ []) ≠ [] := by
  intro hnil
  rw [List.filter_eq_nil_iff] at hnil
  have hlast : (part :: rest).getLast (List.cons_ne_nil part rest) = [] := by
    simpa using hnil _ (List.getLast_mem (List.cons_ne_nil part rest))
  have hsplit : part :: rest = (part :: rest).dropLast ++ [[]] := by
    rw [← hlast, List.dropLast_append_getLast]
  rw [hsplit, ← List.append_assoc] at h
  have hstrip := last_strip h
  cases hstrip

theorem contained_of_segments (huid : tournamentUid ≠ "")
    (htake : r.segments.take 3 = tournamentPath tournamentUid)
    (hmethod : ¬(r.method = "DELETE" ∧ r.segments.length = 3))
    (hopen : ∀ part ∈ r.segments[3]?, ¬Barred part) (hsingle : ¬DoubledSlash r tournamentUid) :
    Contained r tournamentUid := by
  have hsegments : r.segments = tournamentPath tournamentUid ++ r.segments.drop 3 := by
    rw [← htake, List.take_append_drop]
  refine .tournament _ (route_of_segments huid hsegments) ?_ ?_
  · rintro ⟨hdelete, hnil⟩
    cases hrest : r.segments.drop 3 with
    | nil =>
      refine hmethod ⟨hdelete, ?_⟩
      rw [hsegments, hrest]
      rfl
    | cons part rest =>
      rw [hrest] at hsegments hnil
      exact filter_ne_nil hsegments hnil
  · intro next hnext hbarred
    rw [List.head?_filter] at hnext
    cases hrest : r.segments.drop 3 with
    | nil =>
      rw [hrest] at hnext
      cases hnext
    | cons part rest =>
      rw [hrest] at hsegments hnext
      have hthird : r.segments[3]? = some part := by
        rw [hsegments]
        rfl
      by_cases hpart : part = []
      · subst hpart
        rw [List.find?_cons_of_neg (by simp)] at hnext
        exact hsingle ⟨rest, next, hsegments, hnext, hbarred⟩
      · rw [List.find?_cons_of_pos (by simpa using hpart)] at hnext
        obtain rfl := Option.some.inj hnext
        exact hopen part hthird hbarred

theorem contained_of_allows (huid : tournamentUid ≠ "")
    (h : oauthAllows r tournamentUid = true) (hsingle : ¬DoubledSlash r tournamentUid) :
    Contained r tournamentUid := by
  unfold oauthAllows at h
  split_ifs at h with hoauth hsanction hreference hstream htake hmethod
  · obtain ⟨rest, hroute⟩ := oauth_route hoauth
    exact .oauth rest hroute
  · exact .sanction (route_of_path hsanction (by decide)) (of_decide_eq_true h)
  · exact .reference (route_of_path hreference (by decide)) (of_decide_eq_true h)
  · exact .stream (route_of_path hstream (by decide)) (of_decide_eq_true h)
  · refine contained_of_segments huid (not_not.1 htake) hmethod ?_ hsingle
    intro part hpart hbarred
    rcases of_decide_eq_true h with hlength | hnone
    · rw [List.getElem?_eq_none (Nat.le_of_lt_succ hlength)] at hpart
      cases hpart
    · exact hnone ⟨part, hpart, hbarred⟩

theorem allows_of_doubledSlash (huid : tournamentUid ≠ "") (h : DoubledSlash r tournamentUid) :
    oauthAllows r tournamentUid = true ∧ ¬Contained r tournamentUid := by
  obtain ⟨rest, part, hsegments, hfind, hbarred⟩ := h
  have hroute : r.route = tournamentPath tournamentUid ++ ([] :: rest).filter (· ≠ []) :=
    route_of_segments huid hsegments
  have hhead : r.route.head? = some "api".toList := by
    rw [hroute]
    rfl
  have hother : ∀ {path : String}, (parts '/' path.toList).head? ≠ some "api".toList →
      r.path ≠ path := by
    rintro path hne rfl
    exact hne hhead
  constructor
  · unfold oauthAllows
    rw [if_neg ?_, if_neg (hother (by decide)), if_neg (hother (by decide)),
      if_neg (hother (by decide)), if_neg ?_, if_neg ?_]
    · refine decide_eq_true (.inr ?_)
      rintro ⟨third, hthird, hthird'⟩
      rw [hsegments] at hthird
      obtain rfl : third = [] := (Option.some.inj hthird).symm
      revert hthird'
      decide
    · rintro ⟨-, hlength⟩
      rw [hsegments] at hlength
      simp [tournamentPath] at hlength
    · rw [hsegments, not_not]
      rfl
    · intro hoauth
      obtain ⟨rest', hrest'⟩ := oauth_route hoauth
      rw [hrest', List.head?_cons] at hhead
      revert hhead
      decide
  · intro hcontained
    cases hcontained with
    | oauth rest' hroute' =>
      rw [hroute', List.head?_cons] at hhead
      revert hhead
      decide
    | sanction hroute' =>
      rw [hroute'] at hhead
      revert hhead
      decide
    | reference hroute' =>
      rw [hroute'] at hhead
      revert hhead
      decide
    | stream hroute' =>
      rw [hroute'] at hhead
      revert hhead
      decide
    | tournament rest' hroute' hkept hopen =>
      have hrest : ([] :: rest).filter (· ≠ []) = rest' :=
        List.append_cancel_left (hroute.symm.trans hroute')
      refine hopen part ?_ hbarred
      rw [← hrest, List.head?_filter, List.find?_cons_of_neg (by simp), hfind]
      rfl

/-- A token stays within its tournament exactly when no doubled slash stands before a barred
subpath. The caller refuses an empty uid before it asks the guard. -/
theorem contained_iff (r : Request) (tournamentUid : String) (huid : tournamentUid ≠ "") :
    (oauthAllows r tournamentUid = true → Contained r tournamentUid) ↔
      ¬DoubledSlash r tournamentUid := by
  constructor
  · intro hguard hdoubled
    obtain ⟨hallows, hnot⟩ := allows_of_doubledSlash huid hdoubled
    exact hnot (hguard hallows)
  · exact fun hsingle h => contained_of_allows huid h hsingle

/-- The path of an action, as the client spells it. -/
def actionRequest : Request := ⟨"POST", "/api/tournaments/t1/action", none⟩

theorem contained_action : oauthAllows actionRequest "t1" = true ∧
    Contained actionRequest "t1" := by
  have hallows : oauthAllows actionRequest "t1" = true := by decide
  refine ⟨hallows, (contained_iff actionRequest "t1" (by decide)).2 ?_ hallows⟩
  rintro ⟨rest, part, hsegments, -⟩
  have haction : actionRequest.segments =
      tournamentPath "t1" ++ ["action".toList] := by decide
  rw [haction] at hsegments
  exact absurd hsegments (by simp [tournamentPath])

/-- Taking the tournament offline, spelled with a second slash. -/
def doubledRequest : Request := ⟨"POST", "/api/tournaments/t1//go-offline", none⟩

/-- The guard lets it through and the router dispatches it to the barred route. -/
theorem doubled_goOffline : oauthAllows doubledRequest "t1" = true ∧
    doubledRequest.route = tournamentPath "t1" ++ ["go-offline".toList] ∧
    ¬Contained doubledRequest "t1" := by
  have hdoubled : DoubledSlash doubledRequest "t1" :=
    ⟨["go-offline".toList], "go-offline".toList, by decide, by decide, by decide⟩
  obtain ⟨hallows, hnot⟩ := allows_of_doubledSlash (by decide) hdoubled
  exact ⟨hallows, by decide, hnot⟩

end Archon.OAuth

import AppHost.Proofs.Heap.History
import AppHost.Proofs.Mount.History
import AppHost.Proofs.Routing.Classify
import AppHost.Router

/-!
# Dispatch

How a router answers a request, told by the histories of its mounts and of its index page proposals.
The decision comes first: a mount that matches, else the landing page for the path `/` alone, else
nothing. It is logged and counted, and then answered (`run_dispatch`); the answer is that of the
application behind the mount, that of the landing page, or not found. Answering reads the router and
yields no other one.
-/

namespace AppHost

open Journaled

/-! ## Header values -/

namespace Http.HeaderValue

/-- A text can stand in a header if its bytes are no controls other than the tab. -/
def IsLegal (s : String) : Prop := ∀ b ∈ Text.bytes s, (32 ≤ b ∧ b ≠ 127) ∨ b = 9

theorem isLegal_iff {s : String} : IsLegal s ↔ (Text.bytes s).all isLegalByte = true := by
  simp [IsLegal, isLegalByte]

theorem ofString?_of_isLegal {s : String} (h : IsLegal s) : ofString? s = some ⟨Text.bytes s⟩ :=
  if_pos (isLegal_iff.mp h)

theorem ofString?_of_not_isLegal {s : String} (h : ¬ IsLegal s) : ofString? s = none :=
  if_neg (mt isLegal_iff.mpr h)

end Http.HeaderValue

namespace Router

variable {r : Router} {around : Surroundings} {req : Http.Request} {k : ScopeKind} {path url : String}

/-! ## Decisions -/

theorem route_of_lookup {e : MountEntry} (h : r.mounts.lookup k path = some e) :
    r.route (some k) path = .mounted e := by
  simp only [route, h]

/-- The landing page answers for its own path only. -/
theorem route_of_indexUrl (h : r.mounts.lookup k path = none) (hp : path = "/")
    (hu : r.indexUrl = some url) : r.route (some k) path = .indexRedirect url := by
  simp only [route, h, hu, if_pos hp]

theorem route_of_none (h : r.mounts.lookup k path = none)
    (hu : path = "/" → r.indexUrl = none) : r.route (some k) path = .notFound := by
  simp only [route, h]
  split
  · rename_i hp
    simp only [hu hp]
  · rfl

/-! ## Answers -/

/-- The decision on a request. -/
def outcome (r : Router) (req : Http.Request) : RouteOutcome :=
  r.route (ScopeKind.classify req.headers) req.path

/-- The journal once the decision is logged and counted. -/
def noted (r : Router) (req : Http.Request) (j : Journal) : Journal :=
  let scope := ScopeKind.classify req.headers
  { j with
    events := j.events ++ r.routeEvents scope req.path ++ [decided req scope (r.outcome req)]
    metrics := (r.outcome req).count j.metrics }

/-- The answer to a decision. -/
def respond (around : Surroundings) (req : Http.Request) : RouteOutcome → Journaled Http.Response
  | .mounted e => forward e around req
  | .indexRedirect url => redirect url req
  | .notFound => return .notFound

/-- **A decision is logged and counted once, and then answered.** -/
theorem run_dispatch (r : Router) (around : Surroundings) (req : Http.Request) (j : Journal) :
    (r.dispatch around req).run j = (respond around req (r.outcome req)).run (r.noted req j) :=
  rfl

theorem dispatch_of_outcome (around : Surroundings) {o : RouteOutcome} (h : r.outcome req = o)
    (j : Journal) :
    (r.dispatch around req).value j = (respond around req o).value (r.noted req j) ∧
      (r.dispatch around req).rest j = (respond around req o).rest (r.noted req j) := by
  subst h
  exact ⟨rfl, rfl⟩

/-- Nobody is told that there is nothing, but it is counted. -/
theorem dispatch_of_notFound (h : r.outcome req = .notFound) (j : Journal) :
    (r.dispatch around req).value j = .notFound ∧ ((r.dispatch around req).rest j).metrics =
      { j.metrics with notFound := j.metrics.notFound + 1 } := by
  obtain ⟨hv, hr⟩ := dispatch_of_outcome around h j
  rw [hv, hr]
  refine ⟨rfl, ?_⟩
  show (r.outcome req).count j.metrics = _
  rw [h]
  rfl

/-- Where the landing page at `url` sends a client: there, with the query of the request behind a
question mark unless that is empty. -/
def location (url : String) (query : Option String) : String :=
  match query with
  | some q => if q = "" then url else url ++ "?" ++ q
  | none => url

theorem withQuery_eq_location (url : String) (query : Option String) :
    Http.Response.withQuery url query = location url query := by
  cases query with
  | none => rfl
  | some q =>
    simp only [Http.Response.withQuery, location, String.isEmpty_iff]
    split
    · rfl
    · rfl

/-- The answer of the landing page at `url`. -/
structure IsPageAnswer (url : String) (req : Http.Request) (answer : Http.Response) : Prop where
  refused : req.method ≠ "GET" → req.method ≠ "HEAD" →
    answer = { status := 405, headers := [("allow", ⟨Text.bytes "GET, HEAD"⟩)] }
  found : req.method = "GET" ∨ req.method = "HEAD" →
    Http.HeaderValue.IsLegal (location url req.target.query) →
    answer = { status := 302
               headers := [("location", ⟨Text.bytes (location url req.target.query)⟩)] }
  degraded : req.method = "GET" ∨ req.method = "HEAD" →
    ¬ Http.HeaderValue.IsLegal (location url req.target.query) → answer = .notFound

/-- What cannot be redirected to is noted, which leaves the counters alone. -/
theorem redirectTo_run (location : String) (j : Journal) :
    (redirectTo location).value j = .redirect location ∧
      ((redirectTo location).rest j).metrics = j.metrics := by
  unfold redirectTo
  split
  · exact ⟨rfl, rfl⟩
  · exact ⟨rfl, rfl⟩

theorem redirect_isPageAnswer (url : String) (req : Http.Request) (j : Journal) :
    IsPageAnswer url req ((redirect url req).value j) ∧
      ((redirect url req).rest j).metrics = j.metrics := by
  by_cases hm : req.method ≠ "GET" ∧ req.method ≠ "HEAD"
  · simp only [redirect, if_pos hm, value_pure, rest_pure, and_true]
    refine ⟨fun _ _ => rfl, fun hget => ?_, fun hget => ?_⟩
    · exact absurd hget (not_or.mpr hm)
    · exact absurd hget (not_or.mpr hm)
  · obtain ⟨hvalue, hmetrics⟩ := redirectTo_run (location url req.target.query) j
    simp only [redirect, if_neg hm, withQuery_eq_location]
    refine ⟨?_, hmetrics⟩
    rw [hvalue]
    refine ⟨fun h h' => absurd ⟨h, h'⟩ hm, fun _ hl => ?_, fun _ hl => ?_⟩
    · simp only [Http.Response.redirect, Http.HeaderValue.ofString?_of_isLegal hl]
    · simp only [Http.Response.redirect, Http.HeaderValue.ofString?_of_not_isLegal hl]

theorem dispatch_of_indexRedirect (h : r.outcome req = .indexRedirect url) (j : Journal) :
    IsPageAnswer url req ((r.dispatch around req).value j) ∧
      ((r.dispatch around req).rest j).metrics =
        { j.metrics with indexRedirect := j.metrics.indexRedirect + 1 } := by
  obtain ⟨hv, hr⟩ := dispatch_of_outcome around h j
  rw [hv, hr]
  obtain ⟨ha, hm⟩ := redirect_isPageAnswer url req (r.noted req j)
  refine ⟨ha, hm.trans ?_⟩
  show (r.outcome req).count j.metrics = _
  rw [h]
  rfl

theorem dispatch_of_mounted {e : MountEntry} (h : r.outcome req = .mounted e) (j : Journal) :
    ∃ es, let j' : Journal := { j with
              events := j.events ++ es
              metrics := { j.metrics with mounted := j.metrics.mounted + 1 } }
      (r.dispatch around req).value j = (forward e around req).value j' ∧
        (r.dispatch around req).rest j = (forward e around req).rest j' := by
  obtain ⟨hv, hr⟩ := dispatch_of_outcome around h j
  have hnoted : ∃ es, r.noted req j = { j with
      events := j.events ++ es
      metrics := { j.metrics with mounted := j.metrics.mounted + 1 } } := by
    refine ⟨r.routeEvents (ScopeKind.classify req.headers) req.path ++
      [decided req (ScopeKind.classify req.headers) (.mounted e)], ?_⟩
    simp only [noted, h, List.append_assoc, RouteOutcome.count]
  obtain ⟨es, hes⟩ := hnoted
  rw [hes] at hv hr
  exact ⟨es, hv, hr⟩

/-! ## Requests in every state -/

end Router

end AppHost

import AppHost.Proofs.Routing.Dispatch
import AppHost.Proofs.Routing.Gateway
import AppHost.Proofs.Routing.Prefix

/-!
# Routers within routers

The gateway of a router can be mounted on another router, and that one's on a third. `Leads` tells
how a target is handed inwards: each router looks up what the one before it has made of the target.
The innermost application gets the request with all prefixes taken away in turn, with the identifier
that the first gateway has seen to, and with the target that the client has sent kept beside it
(`answer_of_leads`). Every router on the way counts one mount.
-/

namespace AppHost

open Journaled
open Http (Target Request)

/-- A target goes to `app` through routers that are mounted in one another, each under the prefix
in its place on the list: the gateway of the second router is mounted on the first, and so on, and
`app` is mounted on the last. -/
inductive Leads (k : ScopeKind) (app : Application) : Router → Target → List String → Prop where
  | arrives {r : Router} {t : Target} {e : MountEntry} :
    r.mounts.lookup k t.path = some e → e.application = app → Leads k app r t [e.path]
  | through {r r' : Router} {t : Target} {e : MountEntry} {id : Nat} {name : String}
      {ps : List String} :
    r.mounts.lookup k t.path = some e → e.application = Gateway.application id name r' →
    Leads k app r' (t.beneath e.path) ps → Leads k app r t (e.path :: ps)

/-! ## Requests and journals on the way -/

namespace Http.Request

/-- The request as it is handed to what is mounted at the last of the prefixes `ps`, each of them
beneath the one before. -/
def handed (req : Request) (ps : List String) : Request :=
  { req.recordReceived with target := ps.foldl Target.beneath req.target }

/-- The target that the client has sent is recorded once. -/
theorem recordReceived_handed (req : Request) (ps : List String) :
    (req.handed ps).recordReceived = req.handed ps := rfl

theorem handed_handed (req : Request) (ps qs : List String) :
    (req.handed ps).handed qs = req.handed (ps ++ qs) := by
  simp only [handed, recordReceived, List.foldl_append, Option.getD_some]

end Http.Request

theorem Gateway.identified_handed (around : Surroundings) (n : Nat) (req : Request)
    (ps : List String) : identified around n (req.handed ps) = (identified around n req).handed ps :=
  rfl

namespace Journal

/-- The journal once `n` more mounts and `i` more identifiers are counted, and `es` is noted. -/
def passed (j : Journal) (es : List Log.Event) (n i : Nat) : Journal where
  events := j.events ++ es
  metrics := { j.metrics with mounted := j.metrics.mounted + n }
  minted := j.minted + i

theorem passed_passed (j : Journal) (es es' : List Log.Event) (n n' i i' : Nat) :
    (j.passed es n i).passed es' n' i' = j.passed (es ++ es') (n + n') (i + i') := by
  simp only [passed, List.append_assoc, Nat.add_assoc]

end Journal

variable {k : ScopeKind} {app : Application} {r : Router} {e : MountEntry} {ps : List String}
  {req : Request}

/-! ## One router -/

theorem Router.rebase_eq_handed (hl : req.target.IsLegal)
    (h : r.mounts.lookup k req.path = some e) : rebase e req = req.handed [e.path] := by
  have hprefix : e.path.toList <+: req.target.path.toList :=
    (MountEntry.accepts_iff.mp (MountTable.accepts_of_lookup h).1.2).2
  simp only [rebase, Target.relativeTo_eq_beneath hl hprefix, Option.getD_some, Request.handed,
    List.foldl_cons, List.foldl_nil]

/-- A router hands a request to the entry that it goes to, and counts it once. -/
theorem Router.dispatch_of_lookup (req : Request) (hk : ScopeKind.classify req.headers = some k)
    (hl : req.target.IsLegal) (h : r.mounts.lookup k req.path = some e) (around : Surroundings)
    (j : Journal) : ∃ es,
      (r.dispatch around req).value j =
          (e.application.handle around (req.handed [e.path])).value (j.passed es 1 0) ∧
        (r.dispatch around req).rest j =
          (e.application.handle around (req.handed [e.path])).rest (j.passed es 1 0) := by
  have hout : r.outcome req = .mounted e := by
    rw [outcome, hk]
    exact route_of_lookup h
  obtain ⟨es, hvalue, hrest⟩ := @dispatch_of_mounted r around req e hout j
  rw [forward, rebase_eq_handed hl h] at hvalue hrest
  exact ⟨es, hvalue, hrest⟩

/-- So does its gateway, once the request has an identifier. -/
theorem Gateway.answer_of_lookup (hk : ScopeKind.classify req.headers = some k)
    (hl : req.target.IsLegal) (h : r.mounts.lookup k req.path = some e) (around : Surroundings)
    (j : Journal) : ∃ es,
      let inner := (identified around j.minted req).handed [e.path]
      let j' := j.passed es 1 (lacking req)
      (answer r around req).value j =
          propagate inner (((e.application.handle around inner).value j').forMethod inner.method) ∧
        (answer r around req).rest j = (e.application.handle around inner).rest j' := by
  let z := (identified around j.minted req).recordReceived
  have hzk : ScopeKind.classify z.headers = some k := (classify_identifiedHeaders _ _ _).trans hk
  obtain ⟨es, hdvalue, hdrest⟩ := Router.dispatch_of_lookup z hzk hl h around
    { j with minted := j.minted + lacking req }
  obtain ⟨hvalue, hrest⟩ := run_answer r around req j
  refine ⟨es, hvalue.trans ?_, hrest.trans hdrest⟩
  rw [hdvalue]
  rfl

/-! ## Many routers -/

/-- **What the innermost application gets** from a gateway is the request with an identifier, and
with all prefixes taken away in turn. -/
theorem answer_of_leads {t : Target} (h : Leads k app r t ps) (around : Surroundings)
    (req : Request) (ht : req.target = t) (hk : ScopeKind.classify req.headers = some k)
    (hl : t.IsLegal) (j : Journal) : ∃ es,
      let inner := (Gateway.identified around j.minted req).handed ps
      let j' := j.passed es ps.length (Gateway.lacking req)
      (Gateway.answer r around req).value j =
          Gateway.propagate inner ((app.handle around inner).value j') ∧
        (Gateway.answer r around req).rest j = (app.handle around inner).rest j' := by
  induction h generalizing req j with
  | arrives hfind happ =>
    subst ht happ
    obtain ⟨es, hvalue, hrest⟩ := Gateway.answer_of_lookup hk hl hfind around j
    rw [Application.forMethod_handle _ _ rfl] at hvalue
    exact ⟨es, hvalue, hrest⟩
  | @through r r' t e id name ps hfind happ hin ih =>
    subst ht
    obtain ⟨es, hvalue, hrest⟩ := Gateway.answer_of_lookup hk hl hfind around j
    rw [happ] at hvalue hrest
    -- the inner gateway finds the identifier that the outer one has seen to
    let x := (Gateway.identified around j.minted req).handed [e.path]
    have hx : (x.headers.first? Gateway.requestIdName).isSome = true :=
      Gateway.isSome_identifiedHeaders around j.minted req.headers
    have hxk : ScopeKind.classify x.headers = some k :=
      (Gateway.classify_identifiedHeaders _ _ _).trans hk
    obtain ⟨hhvalue, hhrest⟩ := Gateway.run_handle_application id name r' around x
      (j.passed es 1 (Gateway.lacking req))
    obtain ⟨es', hivalue, hirest⟩ :=
      ih x rfl hxk (hl.beneath e.path) (j.passed es 1 (Gateway.lacking req))
    have hxps : x.handed ps = (Gateway.identified around j.minted req).handed (e.path :: ps) :=
      Request.handed_handed _ [e.path] ps
    rw [Gateway.identified_of_isSome hx, Gateway.lacking_of_isSome hx, Journal.passed_passed,
      Nat.add_comm 1, hxps] at hivalue hirest
    rw [Request.recordReceived_handed] at hhvalue hhrest
    refine ⟨es ++ es', ?_, hrest.trans (hhrest.trans hirest)⟩
    have hmethod : x.method = (x.handed ps).method := rfl
    have hheaders : x.headers = (x.handed ps).headers := rfl
    rw [hxps] at hmethod hheaders
    rw [hvalue, hhvalue, hivalue, Http.Response.forMethod_forMethod, Gateway.forMethod_propagate,
      Application.forMethod_handle _ _ hmethod, Gateway.propagate_congr hheaders,
      Gateway.propagate_propagate]
    rfl

/-- A router that is asked itself hands the request inwards in the same way; the first gateway
behind it sees to the identifier. -/
theorem dispatch_of_leads (h : Leads k app r req.target ps) (around : Surroundings)
    (hk : ScopeKind.classify req.headers = some k) (hl : req.target.IsLegal) (j : Journal) :
    ∃ inner es i, (inner = req.handed ps ∨
        inner = (Gateway.identified around j.minted req).handed ps) ∧
      let j' := j.passed es ps.length i
      let answer := (app.handle around inner).value j'
      ((r.dispatch around req).value j = answer ∨
          (r.dispatch around req).value j = Gateway.propagate inner answer) ∧
        (r.dispatch around req).rest j = (app.handle around inner).rest j' := by
  cases h with
  | @arrives _ _ e hfind happ =>
    subst happ
    obtain ⟨es, hvalue, hrest⟩ := Router.dispatch_of_lookup req hk hl hfind around j
    exact ⟨_, es, 0, .inl rfl, .inl hvalue, hrest⟩
  | @through _ r' _ e id name ps hfind happ hin =>
    obtain ⟨es, hvalue, hrest⟩ := Router.dispatch_of_lookup req hk hl hfind around j
    rw [happ] at hvalue hrest
    let x := req.handed [e.path]
    obtain ⟨hhvalue, hhrest⟩ := Gateway.run_handle_application id name r' around x
      (j.passed es 1 0)
    obtain ⟨es', hivalue, hirest⟩ :=
      answer_of_leads hin around x rfl hk (hl.beneath e.path) (j.passed es 1 0)
    have hxps : (Gateway.identified around j.minted x).handed ps =
        (Gateway.identified around j.minted req).handed (e.path :: ps) := by
      rw [Gateway.identified_handed]
      exact Request.handed_handed _ [e.path] ps
    have hminted : (j.passed es 1 0).minted = j.minted := rfl
    rw [Journal.passed_passed, Nat.add_comm 1, Nat.zero_add, hminted, hxps] at hivalue hirest
    rw [Request.recordReceived_handed] at hhvalue hhrest
    refine ⟨_, es ++ es', Gateway.lacking x, .inr rfl, .inr ?_, hrest.trans (hhrest.trans hirest)⟩
    have hmethod : x.method = ((Gateway.identified around j.minted x).handed ps).method := rfl
    rw [hxps] at hmethod
    rw [hvalue, hhvalue, hivalue, Gateway.forMethod_propagate,
      Application.forMethod_handle _ _ hmethod]
    rfl

/-! ## The innermost application -/

/-- Beneath all prefixes the target has another path, and all else as it was. -/
theorem foldl_beneath (ps : List String) (t : Target) :
    (ps.foldl Target.beneath t).scheme = t.scheme ∧
      (ps.foldl Target.beneath t).authority = t.authority ∧
      (ps.foldl Target.beneath t).query = t.query := by
  induction ps generalizing t with
  | nil => exact ⟨rfl, rfl, rfl⟩
  | cons p ps ih => exact ih (t.beneath p)

/-- An identifier is added where there is none, and after all other headers. -/
theorem Gateway.headers_identified (around : Surroundings) (n : Nat) (req : Request) :
    (identified around n req).headers = req.headers ∨ (req.headers.first? "x-request-id" = none ∧
      (identified around n req).headers =
        req.headers ++ [("x-request-id", around.requestIds n)]) := by
  by_cases h : (req.headers.first? requestIdName).isSome = true
  · exact .inl (if_pos h)
  · exact .inr ⟨Option.not_isSome_iff_eq_none.mp h, if_neg h⟩

/-- A target that leads somewhere has a path that a slash begins. -/
theorem startsWith_of_leads {moves : List (Move MountTable.Mounting)} {jm : Journal}
    {t : Target} (h : Leads k app r t ps) (hr : r.mounts = MountTable.after moves jm) :
    Target.startsWith t.path "/" = true := by
  have hfound : ∀ {e : MountEntry}, r.mounts.lookup k t.path = some e →
      Target.startsWith t.path "/" = true := by
    intro e hfind
    obtain ⟨⟨hmem, hacc⟩, -⟩ := MountTable.accepts_of_lookup hfind
    rw [hr] at hmem
    exact MountTable.startsWith_of_prefix (MountTable.mem_after_iff.mp hmem)
      (MountEntry.accepts_iff.mp hacc).2
  cases h with
  | arrives hfind _ => exact hfound hfind
  | through hfind _ _ => exact hfound hfind

/-- **Through any number of routers an application gets the request that was sent,** with the
prefixes of all mounts on the way taken from its path, the outermost first. Whether the outermost
router is asked itself or through its gateway, scheme, authority and query stay, and so do method
and body; at most an identifier is added to the headers. The target that is kept beside it is the one
that came to the outermost router. Every router on the way counts one mount, and nothing is written
once the application has answered. -/
theorem handed_through_routers (moves : List (Move MountTable.Mounting)) (jm : Journal)
    (index : ProposalHeap) (names : RouteNames) (k : ScopeKind) (app : Application)
    (ps : List String) (text : String) (req : Request) (around : Surroundings) (j : Journal)
    (hread : Target.parse? text = some req.target)
    (hk : ScopeKind.classify req.headers = some k)
    (hleads : Leads k app ⟨MountTable.after moves jm, index, names⟩ req.target ps) :
    let r : Router := ⟨MountTable.after moves jm, index, names⟩
    ∀ run, run = r.dispatch around req ∨ run = Gateway.answer r around req →
      ∃ (inner : Request) (es : List Log.Event) (i : Nat),
        let j' : Journal := {
          events := j.events ++ es
          metrics := { j.metrics with mounted := j.metrics.mounted + ps.length }
          minted := j.minted + i }
        let answer := (app.handle around inner).value j'
        inner.target = ps.foldl Target.beneath req.target ∧
        inner.target.scheme = req.target.scheme ∧
        inner.target.authority = req.target.authority ∧
        inner.target.query = req.target.query ∧
        inner.method = req.method ∧
        inner.body = req.body ∧
        inner.received = some (req.received.getD req.target) ∧
        (inner.headers = req.headers ∨ (req.headers.first? "x-request-id" = none ∧
          inner.headers = req.headers ++ [("x-request-id", around.requestIds j.minted)])) ∧
        (run.value j = answer ∨ run.value j = Gateway.propagate inner answer) ∧
        run.rest j = (app.handle around inner).rest j' ∧
        ((∀ x j, ((app.serve around x).rest j).metrics = j.metrics) →
          (run.rest j).metrics =
            { j.metrics with mounted := j.metrics.mounted + ps.length }) := by
  intro r run hrun
  have hl : req.target.IsLegal :=
    Target.isLegal_of_parse hread (startsWith_of_leads hleads rfl)
  obtain ⟨inner, es, i, hinner, hvalue, hrest⟩ : ∃ inner es i, (inner = req.handed ps ∨
        inner = (Gateway.identified around j.minted req).handed ps) ∧
      let j' := j.passed es ps.length i
      (run.value j = (app.handle around inner).value j' ∨
          run.value j = Gateway.propagate inner ((app.handle around inner).value j')) ∧
        run.rest j = (app.handle around inner).rest j' := by
    rcases hrun with rfl | rfl
    · exact dispatch_of_leads hleads around hk hl j
    · obtain ⟨es, hvalue, hrest⟩ := answer_of_leads hleads around req rfl hk hl j
      exact ⟨_, es, _, .inr rfl, .inr hvalue, hrest⟩
  obtain ⟨hscheme, hauthority, hquery⟩ := foldl_beneath ps req.target
  have hquiet : (∀ x j, ((app.serve around x).rest j).metrics = j.metrics) →
      (run.rest j).metrics = (j.passed es ps.length i).metrics := fun h => by
    rw [hrest]
    exact h _ _
  refine ⟨inner, es, i, ?_⟩
  rcases hinner with rfl | rfl
  · exact ⟨rfl, hscheme, hauthority, hquery, rfl, rfl, rfl, .inl rfl, hvalue, hrest, hquiet⟩
  · exact ⟨rfl, hscheme, hauthority, hquery, rfl, rfl, rfl,
      Gateway.headers_identified around j.minted req, hvalue, hrest, hquiet⟩

/-- The only mount of a table gets what it accepts. -/
theorem MountTable.lookup_after_ask {m : Mounting} {path : String} (isGuard : Bool) (j : Journal)
    (hp : Target.startsWith m.path "/" = true) (ha : (m.entry 0).accepts k path = true) :
    (after [.ask m isGuard] j).lookup k path = some (m.entry 0) := by
  have hanswer : scheme.answer [] 0 m = .opened (m.entry 0) :=
    answer_eq_opened_iff.mpr ⟨hp, fun _ h => absurd h List.not_mem_nil, rfl⟩
  have hlive : (scheme.ledger [.ask m isGuard]).live = [m.entry 0] := by
    show (scheme.next {} (.ask m isGuard)).live = _
    simp only [Scheme.next, hanswer, List.nil_append]
  have hfilter : [m.entry 0].filter (fun e => e.accepts k path) = [m.entry 0] := by
    rw [List.filter_singleton, ha]
    rfl
  rw [after_eq, hlive, lookup, hfilter]
  rfl

/-- An application behind two routers gets a path that begins with neither of their prefixes. -/
theorem handed_through_routers_two :
    let app : Application := .echo 1 "inner"
    let r : Router := { mounts := MountTable.after [.ask ⟨app, "/b", {}⟩ false] {} }
    let outer : MountTable.Mounting := ⟨Gateway.application 2 "outer" r, "/a/", {}⟩
    let req : Request := { target := { path := "/a/b/c", query := some "x" } }
    let around : Surroundings := { requestIds := fun _ => ⟨[]⟩ }
    let r' : Router := ⟨MountTable.after [.ask outer false] {}, {}, {}⟩
    Target.parse? "/a/b/c?x" = some req.target ∧
      ScopeKind.classify req.headers = some .http ∧
      Leads .http app r' req.target ["/a/", "/b"] ∧
      ((Gateway.answer r' around req).rest {}).metrics.mounted = 2 ∧
      ∃ inner : Request, inner.target = { path := "/c", query := some "x" } ∧
        inner.received = some req.target := by
  intro app r outer req around r'
  have hread : Target.parse? "/a/b/c?x" = some req.target := by decide +kernel
  have hleads : Leads .http app r' req.target ["/a/", "/b"] := by
    refine .through (e := outer.entry 0) ?_ rfl
      (.arrives (e := ⟨0, app, "/b", .all, 0⟩) ?_ rfl)
    · exact MountTable.lookup_after_ask false {} (by decide +kernel) (by decide +kernel)
    · exact MountTable.lookup_after_ask false {} (by decide +kernel) (by decide +kernel)
  obtain ⟨inner, es, i, htarget, -, -, -, -, -, hreceived, -, -, -, hmetrics⟩ :=
    handed_through_routers [.ask outer false] {} {} {} .http app ["/a/", "/b"] "/a/b/c?x" req around
      {} hread rfl hleads _ (.inr rfl)
  refine ⟨hread, rfl, hleads, ?_, inner, htarget.trans (by decide +kernel), hreceived⟩
  rw [hmetrics fun _ _ => rfl]
  rfl

end AppHost

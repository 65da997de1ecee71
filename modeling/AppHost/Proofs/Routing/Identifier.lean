import AppHost.Proofs.Routing.Nesting

/-!
# One identifier for a request

However many routers a request passes, and however it is answered in the end, it has one identifier:
the first one that the client has sent, or one that the outermost gateway has made. A `Passage` tells
which routers have handed it on, and which one has it now. Handing it on changes neither the headers
nor what becomes of the answer (`dispatch_of_passage`); so the identifier is the same at every depth,
and whether an application answers or the last router itself, the client gets that identifier back
unless the application has set another (`one_identifier`).
-/

namespace AppHost

open Journaled
open Http (Headers HeaderValue Request Response)

/-! ## Identifiers in headers -/

namespace Http.Headers

variable {hs : Headers} {name : String} {v : HeaderValue}

theorem values_eq_nil_iff : hs.values name = [] ↔ hs.first? name = none := by
  rw [← head?_values, List.head?_eq_none_iff]

theorem values_append (hs : Headers) (name : String) (v : HeaderValue) :
    (hs.append name v).values name = hs.values name ++ [v] := by
  simp [values, append]

theorem setIfAbsent_of_values_ne (h : hs.values name ≠ []) : hs.setIfAbsent name v = hs :=
  if_pos (Option.isSome_iff_ne_none.mpr (mt values_eq_nil_iff.mpr h))

theorem setIfAbsent_of_values_eq_nil (h : hs.values name = []) :
    hs.setIfAbsent name v = hs.append name v := by
  rw [setIfAbsent, values_eq_nil_iff.mp h]
  rfl

end Http.Headers

/-- `answer` is `given` with the identifier `id`, which is the only one; but identifiers that `given`
has are kept, and `id` is not added to them. -/
structure Carries (id : HeaderValue) (given answer : Response) : Prop where
  own : given.headers.values "x-request-id" ≠ [] → answer = given
  added : given.headers.values "x-request-id" = [] →
    answer = { given with headers := given.headers ++ [("x-request-id", id)] }
  only : given.headers.values "x-request-id" = [] → answer.headers.values "x-request-id" = [id]

namespace Gateway

variable {around : Surroundings} {req : Request} {id : HeaderValue}

theorem carries_propagate (h : req.headers.first? "x-request-id" = some id) (given : Response) :
    Carries id given (propagate req given) := by
  have heq : propagate req given =
      { given with headers := given.headers.setIfAbsent "x-request-id" id } := by
    simp only [propagate, requestIdName, h]
  rw [heq]
  refine ⟨fun hown => ?_, fun hnone => ?_, fun hnone => ?_⟩
  · rw [Headers.setIfAbsent_of_values_ne hown]
  · rw [Headers.setIfAbsent_of_values_eq_nil hnone]
    rfl
  · rw [Headers.setIfAbsent_of_values_eq_nil hnone, Headers.values_append, hnone]
    rfl

/-- The method does not decide about headers; an answer without an identifier gets exactly one. -/
theorem propagate_forMethod (h : req.headers.first? "x-request-id" = some id) {given : Response}
    (hnone : given.headers.values "x-request-id" = []) (m : String) :
    let answer := propagate req (given.forMethod m)
    answer = { given.forMethod m with headers := given.headers ++ [("x-request-id", id)] } ∧
      answer.headers.values "x-request-id" = [id] := by
  have hheaders : (given.forMethod m).headers = given.headers := by
    rw [Response.forMethod_eq]
  have hcarries := carries_propagate h (given.forMethod m)
  rw [← hheaders] at hnone
  exact ⟨(hcarries.added hnone).trans (by rw [hheaders]), hcarries.only hnone⟩

theorem headers_identified_eq (around : Surroundings) (n : Nat) (req : Request) :
    let sent := req.headers.first? "x-request-id"
    (identified around n req).headers = if sent.isSome then req.headers else
      req.headers ++ [("x-request-id", sent.getD (around.requestIds n))] := by
  intro sent
  by_cases h : sent.isSome = true
  · rw [if_pos h]
    exact if_pos h
  · rw [if_neg h, Option.not_isSome_iff_eq_none.mp h]
    exact if_neg h

/-- The identifier is the one that was sent first, or else the one that is made. -/
theorem first?_identified (around : Surroundings) (n : Nat) (req : Request) :
    (identified around n req).headers.first? "x-request-id" =
      some ((req.headers.first? "x-request-id").getD (around.requestIds n)) := by
  rw [headers_identified_eq]
  cases h : req.headers.first? "x-request-id" with
  | some id => exact h
  | none =>
    show (req.headers ++ [("x-request-id", around.requestIds n)]).lookup "x-request-id" = _
    rw [List.lookup_append, show req.headers.lookup "x-request-id" = none from h]
    rfl

/-- A request that has an identifier is dispatched as it is. -/
theorem run_answer_of_isSome (h : (req.headers.first? requestIdName).isSome = true) (r : Router)
    (around : Surroundings) (j : Journal) :
    let inner := req.recordReceived
    (answer r around req).value j =
        propagate inner (((r.dispatch around inner).value j).forMethod inner.method) ∧
      (answer r around req).rest j = (r.dispatch around inner).rest j := by
  have hanswer := run_answer r around req j
  rwa [identified_of_isSome h, lacking_of_isSome h] at hanswer

end Gateway

/-! ## The way of a request -/

/-- A request that `r` has as `req` has gone through the gateways that are mounted as `es`, each on
the router behind the one before it, and `last` has it now, as `req'`. -/
inductive Passage : Router → Request → List MountEntry → Router → Request → Prop where
  | here (r : Router) (req : Request) : Passage r req [] r req
  | onward {r r' last : Router} {req req' : Request} {e : MountEntry} {es : List MountEntry}
      {id : Nat} {name : String} :
    r.outcome req = .mounted e → e.application = Gateway.application id name r' →
    Passage r' (Router.rebase e req) es last req' → Passage r req (e :: es) last req'

namespace Router

variable {r r' last : Router} {around : Surroundings} {req req' : Request} {e : MountEntry}
  {es : List MountEntry} {j : Journal}

/-- Nothing happens to the headers and to the method on the way. -/
theorem headers_of_passage (h : Passage r req es last req') :
    req'.headers = req.headers ∧ req'.method = req.method := by
  induction h with
  | here => exact ⟨rfl, rfl⟩
  | onward _ _ _ ih => exact ih

/-- One router more: the gateway behind `e` finds the identifier and makes none, and what it adds to
the answer is what the gateway in front would add. -/
theorem dispatch_of_gateway {id : Nat} {name : String} (hout : r.outcome req = .mounted e)
    (happ : e.application = Gateway.application id name r')
    (hid : (req.headers.first? Gateway.requestIdName).isSome = true) (around : Surroundings)
    (j : Journal) : ∃ events,
      let inner := rebase e req
      let j' := j.passed events 1 0
      Gateway.propagate req (((r.dispatch around req).value j).forMethod req.method) =
          Gateway.propagate inner (((r'.dispatch around inner).value j').forMethod inner.method) ∧
        (r.dispatch around req).rest j = (r'.dispatch around inner).rest j' := by
  obtain ⟨events, hvalue, hrest⟩ := @dispatch_of_mounted r around req e hout j
  rw [forward, happ] at hvalue hrest
  let inner := rebase e req
  let j' := j.passed events 1 0
  obtain ⟨hhvalue, hhrest⟩ := Gateway.run_handle_application id name r' around inner j'
  obtain ⟨havalue, harest⟩ :=
    @Gateway.run_answer_of_isSome inner.recordReceived hid r' around j'
  refine ⟨events, ?_, hrest.trans (hhrest.trans harest)⟩
  -- both gateways see the same headers and the same method
  have hdispatch : (r.dispatch around req).value j = (Gateway.propagate inner
      (((r'.dispatch around inner).value j').forMethod inner.method)).forMethod inner.method :=
    hvalue.trans (hhvalue.trans (by rw [havalue]; rfl))
  have hmethod : req.method = inner.method := rfl
  have hheaders : req.headers = inner.headers := rfl
  rw [hdispatch, hmethod, Gateway.propagate_congr hheaders]
  simp only [Gateway.forMethod_propagate, Response.forMethod_forMethod, Gateway.propagate_propagate]
  rfl

/-- **However many gateways a request has passed, what becomes of it is what the last router makes
of it,** and the gateways have counted it once each and made no identifier. -/
theorem dispatch_of_passage (h : Passage r req es last req')
    (hid : (req.headers.first? Gateway.requestIdName).isSome = true) (around : Surroundings)
    (j : Journal) : ∃ events,
      let j' := j.passed events es.length 0
      Gateway.propagate req (((r.dispatch around req).value j).forMethod req.method) =
          Gateway.propagate req' (((last.dispatch around req').value j').forMethod req'.method) ∧
        (r.dispatch around req).rest j = (last.dispatch around req').rest j' := by
  induction h generalizing j with
  | here =>
    refine ⟨[], ?_⟩
    rw [Journal.passed, List.append_nil]
    exact ⟨rfl, rfl⟩
  | @onward r r' last req req' e es id name hout happ _ ih =>
    obtain ⟨events, hvalue, hrest⟩ := dispatch_of_gateway hout happ hid around j
    obtain ⟨events', hvalue', hrest'⟩ := ih hid (j.passed events 1 0)
    rw [Journal.passed_passed, Nat.add_comm 1] at hvalue' hrest'
    exact ⟨events ++ events', hvalue.trans hvalue', hrest.trans hrest'⟩

/-- A request that comes to a gateway is answered by the last router on its way, in the journal in
which all routers before have counted it. -/
theorem answer_of_passage
    (h : Passage r (Gateway.identified around j.minted req).recordReceived es last req') :
    ∃ events, let j' := j.passed events es.length (Gateway.lacking req)
      (Gateway.answer r around req).value j =
          Gateway.propagate req' (((last.dispatch around req').value j').forMethod req'.method) ∧
        (Gateway.answer r around req).rest j = (last.dispatch around req').rest j' := by
  have hid := Gateway.isSome_identifiedHeaders around j.minted req.headers
  obtain ⟨events, hvalue, hrest⟩ :=
    dispatch_of_passage h hid around { j with minted := j.minted + Gateway.lacking req }
  obtain ⟨hanswer, hleft⟩ := Gateway.run_answer r around req j
  exact ⟨events, hanswer.trans hvalue, hleft.trans hrest⟩

/-! ## The last router -/

/-- The landing page makes no identifier. -/
theorem minted_redirect (url : String) (req : Request) (j : Journal) :
    ((redirect url req).rest j).minted = j.minted := by
  unfold redirect redirectTo
  split
  · rfl
  · split
    · rfl
    · rfl

theorem minted_dispatch_of_indexRedirect {url : String} (h : r.outcome req = .indexRedirect url)
    (j : Journal) : ((r.dispatch around req).rest j).minted = j.minted := by
  rw [(dispatch_of_outcome around h j).2]
  exact minted_redirect url req _

theorem minted_dispatch_of_notFound (h : r.outcome req = .notFound) (j : Journal) :
    ((r.dispatch around req).rest j).minted = j.minted := by
  rw [(dispatch_of_outcome around h j).2]
  rfl

/-- Nor does its answer have one. -/
theorem values_of_isPageAnswer {url : String} {answer : Response}
    (h : IsPageAnswer url req answer) : answer.headers.values "x-request-id" = [] := by
  by_cases hm : req.method = "GET" ∨ req.method = "HEAD"
  · by_cases hl : HeaderValue.IsLegal (location url req.target.query)
    · rw [h.found hm hl]
      rfl
    · rw [h.degraded hm hl]
      rfl
  · rw [h.refused (fun hget => hm (.inl hget)) (fun hhead => hm (.inr hhead))]
    rfl

end Router

namespace Gateway

/-- **A request has one identifier,** however many routers it passes and whatever becomes of it. It
is the first one that the client has sent, byte for byte, or else the only one that is made. Every
application on the way finds it first among the headers, which are otherwise those that were sent:
`es` are the gateways so far, and the application behind `e` is the next on the way, be it one more
gateway or not. If it answers, then the client gets its answer with the identifier, or as it is if
there are identifiers in it. If there is no next one, then the last router answers with a redirect,
a refusal or not found, and the identifier is the only one in that answer. -/
theorem one_identifier (r : Router) (around : Surroundings) (req : Request) (j : Journal) :
    let run := answer r around req
    let sent := req.headers.first? "x-request-id"
    let id := sent.getD (around.requestIds j.minted)
    let made := if sent.isSome then 0 else 1
    let first : Request := { req.recordReceived with
      headers := if sent.isSome then req.headers else req.headers ++ [("x-request-id", id)] }
    first.headers.first? "x-request-id" = some id ∧
    ∀ es last req', Passage r first es last req' →
      req'.headers = first.headers ∧
      req'.method = req.method ∧
      (∀ e, last.outcome req' = .mounted e → ∃ j' : Journal,
        j'.minted = j.minted + made ∧
        j'.metrics = { j.metrics with mounted := j.metrics.mounted + (es.length + 1) } ∧
        let inner := Router.rebase e req'
        let next := e.application.handle around inner
        inner.headers = first.headers ∧
        Carries id (next.value j') (run.value j) ∧
        run.rest j = next.rest j') ∧
      (∀ url, last.outcome req' = .indexRedirect url → ∃ page,
        Router.IsPageAnswer url req' page ∧
        run.value j = { page.forMethod req.method with
          headers := page.headers ++ [("x-request-id", id)] } ∧
        (run.value j).headers.values "x-request-id" = [id] ∧
        (run.rest j).minted = j.minted + made) ∧
      (last.outcome req' = .notFound →
        run.value j = { Response.notFound.forMethod req.method with
          headers := Response.notFound.headers ++ [("x-request-id", id)] } ∧
        (run.value j).headers.values "x-request-id" = [id] ∧
        (run.rest j).minted = j.minted + made) := by
  intro run sent id made first
  have hfirst : (identified around j.minted req).recordReceived = first := by
    rw [Request.recordReceived, headers_identified_eq]
    rfl
  have hid : first.headers.first? "x-request-id" = some id := by
    rw [← hfirst]
    exact first?_identified around j.minted req
  refine ⟨hid, fun es last req' hp => ?_⟩
  obtain ⟨hheaders, hmethod⟩ := Router.headers_of_passage hp
  have hid' : req'.headers.first? "x-request-id" = some id := by rw [hheaders, hid]
  obtain ⟨events, hanswer, hleft⟩ := Router.answer_of_passage (hfirst ▸ hp)
  refine ⟨hheaders, hmethod, fun e hout => ?_, fun url hout => ?_, fun hout => ?_⟩
  · obtain ⟨events', hdvalue, hdrest⟩ := @Router.dispatch_of_mounted last around req' e hout
      (j.passed events es.length (lacking req))
    refine ⟨_, rfl, rfl, hheaders, ?_, hleft.trans hdrest⟩
    have hm : req'.method = (Router.rebase e req').method := rfl
    rw [hdvalue, Router.forward, Application.forMethod_handle _ _ hm] at hanswer
    rw [hanswer]
    exact carries_propagate hid' _
  · obtain ⟨hpage, -⟩ := @Router.dispatch_of_indexRedirect last around req' url hout
      (j.passed events es.length (lacking req))
    obtain ⟨hshape, honly⟩ :=
      propagate_forMethod hid' (Router.values_of_isPageAnswer hpage) req'.method
    refine ⟨_, hpage, ?_, ?_, ?_⟩
    · rw [hanswer, hshape, hmethod]
      rfl
    · rw [hanswer]
      exact honly
    · rw [hleft]
      exact Router.minted_dispatch_of_indexRedirect hout _
  · obtain ⟨hmissing, -⟩ := @Router.dispatch_of_notFound last around req' hout
      (j.passed events es.length (lacking req))
    obtain ⟨hshape, honly⟩ := @propagate_forMethod req' id hid' .notFound rfl req'.method
    rw [hmissing] at hanswer
    refine ⟨?_, ?_, ?_⟩
    · rw [hanswer, hshape, hmethod]
      rfl
    · rw [hanswer]
      exact honly
    · rw [hleft]
      exact Router.minted_dispatch_of_notFound hout _

/-- Of two identifiers that the client has sent, the first comes back from a router behind a router
that has nothing to answer with. -/
theorem one_identifier_nested :
    let outer : MountTable.Mounting := ⟨application 1 "inner" {}, "/a", {}⟩
    let r : Router := { mounts := MountTable.after [.ask outer false] {} }
    let req : Request := {
      target := { path := "/a/b" }
      headers := [("x-request-id", ⟨[49]⟩), ("x-request-id", ⟨[50]⟩)] }
    let around : Surroundings := { requestIds := fun _ => ⟨[]⟩ }
    Passage r req.recordReceived [outer.entry 0] {} (Router.rebase (outer.entry 0) req) ∧
      ((answer r around req).value {}).status = 404 ∧
      ((answer r around req).value {}).headers.values "x-request-id" = [⟨[49]⟩] := by
  intro outer r req around
  have hout : r.outcome req.recordReceived = .mounted (outer.entry 0) :=
    @Router.route_of_lookup r .http _ _
      (MountTable.lookup_after_ask false {} (by decide +kernel) (by decide +kernel))
  have hp : Passage r req.recordReceived [outer.entry 0] {} (Router.rebase (outer.entry 0) req) :=
    .onward hout rfl (.here _ _)
  have hmissing : ({} : Router).outcome (Router.rebase (outer.entry 0) req) = .notFound :=
    @Router.route_of_none {} .http _ rfl fun _ => rfl
  obtain ⟨-, hpassages⟩ := one_identifier r around req {}
  obtain ⟨-, -, -, -, hlast⟩ := hpassages _ _ _ hp
  obtain ⟨hshape, honly, -⟩ := hlast hmissing
  exact ⟨hp, by rw [hshape]; rfl, honly⟩

end Gateway

end AppHost

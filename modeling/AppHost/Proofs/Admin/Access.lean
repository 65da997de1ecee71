import AppHost.Admin.Status
import AppHost.Proofs.Journal

/-!
# Access to the status application

Every answer of the status application is made behind its guard: the pages, the refusal of a method
and the answer for a path without a page. A guard that lets nothing through therefore decides what is
answered (`handler_of_blocks`). So a client that does not present the key learns nothing about the
host: what it is answered is told by its request alone, whatever the host is in.
-/

namespace AppHost

open Journaled

namespace Application.Routes

/-- The methods that a path with a page has, on the refusal of any other. -/
def withAllowed (answer : Http.Response) : Http.Response :=
  { answer with
    headers := answer.headers.setIfAbsent "allow" (Http.Response.literal "GET,HEAD") }

/-- The request asks for a page by a method that no page has. -/
def Misuses (routes : Routes) (req : Http.Request) : Prop :=
  (routes.lookup req.path).isSome = true ∧ req.method ≠ "GET" ∧ req.method ≠ "HEAD"

variable {guard : Handler → Handler} {around : Surroundings}
  {req : Http.Request} {answer : Journaled Http.Response}

/-- **A guard that answers by itself decides every answer.** The refusal of a method lists the
methods besides. -/
theorem handler_of_blocks (routes : Routes) (h : ∀ inner, guard inner around req = answer) :
    (routes.Misuses req → handler guard routes around req = withAllowed <$> answer) ∧
      (¬ routes.Misuses req → handler guard routes around req = answer) := by
  unfold Misuses handler
  cases routes.lookup req.path with
  | none => exact ⟨fun hm => absurd hm.1 Bool.false_ne_true, fun _ => h _⟩
  | some page =>
    by_cases hm : req.method = "GET" ∨ req.method = "HEAD"
    · refine ⟨fun hmis => absurd hm (not_or.mpr hmis.2), fun _ => ?_⟩
      simp only [if_pos hm, h]
    · refine ⟨fun _ => ?_, fun hmis => absurd ⟨rfl, not_or.mp hm⟩ hmis⟩
      simp only [if_neg hm, h]
      rfl

end Application.Routes

namespace Admin

variable {key : String} {req : Http.Request}

/-- A request does not present the key if it has no `authorization` header, if the first one is no
text, or if that text is another one. -/
theorem isAuthorized_eq_false_iff : isAuthorized key req = false ↔
    ∀ v, req.headers.first? "authorization" = some v → v.text? ≠ some ("Bearer " ++ key) := by
  rw [isAuthorized, beq_eq_false_iff_ne]
  cases req.headers.first? "authorization" with
  | none => simp
  | some v => simp

/-- A client without the key is rejected by the guard alone. -/
theorem guarded_of_not_authorized (h : isAuthorized key req = false) (inner : Handler)
    (around : Surroundings) : guarded (some key) inner around req = (do
      Journal.note (rejected req.path)
      return { status := 401 }) := by
  simp only [guarded, h, Bool.false_eq_true, if_false]

/-- What a client without the key is answered. -/
def refusal (req : Http.Request) : Http.Response where
  status := 401
  headers :=
    if req.path ∈ ["/status", "/mounts", "/index"] ∧ req.method ≠ "GET" ∧ req.method ≠ "HEAD" then
      [("allow", ⟨Text.bytes "GET,HEAD"⟩)]
    else []

theorem forMethod_refusal (req : Http.Request) (m : String) :
    (refusal req).forMethod m = refusal req := by
  unfold Http.Response.forMethod
  split
  · split
    · rfl
    · rfl
  · split
    · rfl
    · rfl

/-- The three pages have the same paths on every server. -/
theorem misuses_pages_iff (req : Http.Request) (server : Nat) : (pages server).Misuses req ↔
    req.path ∈ ["/status", "/mounts", "/index"] ∧ req.method ≠ "GET" ∧ req.method ≠ "HEAD" := by
  have hpage : ((pages server).lookup req.path).isSome = true ↔
      req.path ∈ ["/status", "/mounts", "/index"] := by
    rw [pages, List.lookup_isSome_iff]
    simp
  rw [Application.Routes.Misuses, hpage]

theorem run_serve_of_not_authorized (h : isAuthorized key req = false) (id server : Nat)
    (around : Surroundings) (j : Journal) :
    ((application id server (some key)).serve around req).run j =
      (refusal req, { j with events := j.events ++ [rejected req.path] }) := by
  obtain ⟨hmisuse, hother⟩ := Application.Routes.handler_of_blocks (pages server)
    fun inner => guarded_of_not_authorized h inner around
  unfold refusal
  by_cases hm : (pages server).Misuses req
  · rw [if_pos ((misuses_pages_iff req server).mp hm)]
    exact congrArg (·.run j) (hmisuse hm)
  · rw [if_neg fun hp => hm ((misuses_pages_iff req server).mpr hp)]
    exact congrArg (·.run j) (hother hm)

/-- Whoever does not present the key gets the refusal, and the rejection is noted. -/
theorem run_handle_of_not_authorized (h : isAuthorized key req = false) (id server : Nat)
    (around : Surroundings) (j : Journal) :
    ((application id server (some key)).handle around req).run j =
      (refusal req, { j with events := j.events ++ [rejected req.path] }) := by
  -- The pages see the request with the received target, which neither guard nor refusal looks at.
  have hserve : ((application id server (some key)).serve around req.recordReceived).run j =
      (refusal req, { j with events := j.events ++ [rejected req.path] }) :=
    have hno : isAuthorized key req.recordReceived = false := h
    run_serve_of_not_authorized hno id server around j
  calc ((application id server (some key)).handle around req).run j
      = ((refusal req).forMethod req.method, { j with events := j.events ++ [rejected req.path] }) :=
        congrArg (fun r : Http.Response × Journal => (r.1.forMethod req.method, r.2)) hserve
    _ = _ := by rw [forMethod_refusal]

/-- **A client without the key learns nothing about the host.** Whatever the host is in, with
whatever mounts, proposals and route names, serving or not, at whatever address: a request whose
first `authorization` header is missing, is no text, or is another text than `Bearer` and the key, is
answered with the same refusal. That is told by the path and the method of the request alone, so that
any two hosts answer alike; and nothing but the rejection is noted. -/
theorem answers_alike_without_key (key : String) (req : Http.Request)
    (h : ∀ v, req.headers.first? "authorization" = some v → v.text? ≠ some ("Bearer " ++ key)) :
    (refusal req).status = 401 ∧
    (∀ id server around j, ((application id server (some key)).handle around req).run j =
      (refusal req, { j with events := j.events ++ [rejected req.path] })) ∧
    ∀ id server id' server' around around' j j',
      ((application id server (some key)).handle around req).value j =
        ((application id' server' (some key)).handle around' req).value j' := by
  have hno : isAuthorized key req = false := isAuthorized_eq_false_iff.mpr h
  have hrun := run_handle_of_not_authorized hno
  refine ⟨rfl, hrun, fun id server id' server' around around' j j' => ?_⟩
  calc ((application id server (some key)).handle around req).value j
      = refusal req := congrArg Prod.fst (hrun id server around j)
    _ = ((application id' server' (some key)).handle around' req).value j' :=
        (congrArg Prod.fst (hrun id' server' around' j')).symm

/-- A wrong key, on a path with a page and by a method that no page has. -/
theorem answers_alike_without_key_wrong :
    let req : Http.Request := {
      method := "DELETE"
      target := { path := "/index" }
      headers := [("authorization", ⟨Text.bytes "Bearer wrong"⟩)] }
    (∀ v, req.headers.first? "authorization" = some v → v.text? ≠ some ("Bearer " ++ "secret")) ∧
      ∀ id server around j, ((application id server (some "secret")).handle around req).run j =
        (refusal req, { j with events := j.events ++ [rejected "/index"] }) := by
  intro req
  have h : ∀ v, req.headers.first? "authorization" = some v →
      v.text? ≠ some ("Bearer " ++ "secret") := by
    rintro v ⟨⟩
    decide +kernel
  exact ⟨h, (answers_alike_without_key "secret" req h).2.1⟩

end Admin

end AppHost

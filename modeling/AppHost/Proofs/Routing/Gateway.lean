import AppHost.Gateway
import AppHost.Proofs.Journal

/-!
# Gateways

A gateway sees to it that a request has an identifier, and its answer carries that one back unless the
application has set another (`run_answer`). Going through one more gateway changes nothing: the
identifier is found and kept (`identified_of_isSome`, `propagate_propagate`), and so is the answer as
the method has left it (`forMethod_propagate`, `forMethod_handle`).
-/

namespace AppHost

open Journaled

/-! ## Answers -/

theorem Http.Headers.setIfAbsent_setIfAbsent (hs : Headers) (name : String) (v : HeaderValue) :
    (hs.setIfAbsent name v).setIfAbsent name v = hs.setIfAbsent name v := by
  by_cases h : (hs.first? name).isSome = true
  · simp only [setIfAbsent, if_pos h]
  · have hname : ((hs.append name v).first? name).isSome = true := by
      simp [first?, append, List.lookup_append]
    simp only [setIfAbsent, if_neg h, if_pos hname]

namespace Http.Response

/-- The method decides about the body alone. -/
theorem forMethod_eq (m : String) (a : Response) : a.forMethod m =
    { a with body :=
        if m = "CONNECT" then (if 200 ≤ a.status ∧ a.status < 300 then "" else a.body)
        else if m = "HEAD" then "" else a.body } := by
  unfold forMethod
  by_cases hc : m = "CONNECT"
  · by_cases hs : 200 ≤ a.status ∧ a.status < 300
    · simp only [if_pos hc, if_pos hs]
    · simp only [if_pos hc, if_neg hs]
  · by_cases hh : m = "HEAD"
    · simp only [if_neg hc, if_pos hh]
    · simp only [if_neg hc, if_neg hh]

theorem forMethod_forMethod (m : String) (a : Response) :
    (a.forMethod m).forMethod m = a.forMethod m := by
  simp only [forMethod_eq]
  grind

end Http.Response

/-- An application hands out no more of an answer than the method allows. -/
theorem Application.forMethod_handle (app : Application) (around : Surroundings)
    {req : Http.Request} {m : String} (hm : m = req.method) (j : Journal) :
    ((app.handle around req).value j).forMethod m = (app.handle around req).value j := by
  subst hm
  exact Http.Response.forMethod_forMethod req.method _

namespace Gateway

/-! ## Identifiers -/

/-- `hs` with an identifier: the fresh one with the number `n`, unless there is one. -/
def identifiedHeaders (around : Surroundings) (n : Nat) (hs : Http.Headers) : Http.Headers :=
  if (hs.first? requestIdName).isSome then hs else hs.append requestIdName (around.requestIds n)

def identified (around : Surroundings) (n : Nat) (req : Http.Request) : Http.Request :=
  { req with headers := identifiedHeaders around n req.headers }

/-- How many fresh identifiers that takes. -/
def lacking (req : Http.Request) : Nat :=
  if (req.headers.first? requestIdName).isSome then 0 else 1

variable {around : Surroundings} {req : Http.Request} {hs : Http.Headers} {n : Nat}

theorem run_identify (around : Surroundings) (req : Http.Request) (j : Journal) :
    (identify around req).value j = identified around j.minted req ∧
      (identify around req).rest j = { j with minted := j.minted + lacking req } := by
  unfold identify identified identifiedHeaders lacking
  split
  · exact ⟨rfl, rfl⟩
  · exact ⟨rfl, rfl⟩

theorem identified_of_isSome (h : (req.headers.first? requestIdName).isSome = true) :
    identified around n req = req := by
  rw [identified, identifiedHeaders, if_pos h]

theorem lacking_of_isSome (h : (req.headers.first? requestIdName).isSome = true) :
    lacking req = 0 := if_pos h

theorem isSome_identifiedHeaders (around : Surroundings) (n : Nat) (hs : Http.Headers) :
    ((identifiedHeaders around n hs).first? requestIdName).isSome = true := by
  unfold identifiedHeaders
  split
  · assumption
  · simp [Http.Headers.first?, Http.Headers.append, List.lookup_append]

/-- All other fields stay. -/
theorem first?_identifiedHeaders (around : Surroundings) (n : Nat) (hs : Http.Headers)
    {name : String} (hname : name ≠ requestIdName) :
    (identifiedHeaders around n hs).first? name = hs.first? name := by
  unfold identifiedHeaders
  split
  · rfl
  · have hne : (name == requestIdName) = false := beq_eq_false_iff_ne.mpr hname
    simp [Http.Headers.first?, Http.Headers.append, List.lookup_append, List.lookup_cons, hne]

/-- An identifier does not tell the family of a connection. -/
theorem classify_identifiedHeaders (around : Surroundings) (n : Nat) (hs : Http.Headers) :
    ScopeKind.classify (identifiedHeaders around n hs) = ScopeKind.classify hs := by
  simp only [ScopeKind.classify, first?_identifiedHeaders around n hs (by decide : "upgrade" ≠ _)]

theorem propagate_congr {req' : Http.Request} (h : req.headers = req'.headers)
    (a : Http.Response) : propagate req a = propagate req' a := by
  simp only [propagate, h]

theorem forMethod_propagate (req : Http.Request) (a : Http.Response) (m : String) :
    (propagate req a).forMethod m = propagate req (a.forMethod m) := by
  simp only [Http.Response.forMethod_eq, propagate]
  cases req.headers.first? requestIdName with
  | none => rfl
  | some id => rfl

theorem propagate_propagate (req : Http.Request) (a : Http.Response) :
    propagate req (propagate req a) = propagate req a := by
  unfold propagate
  cases req.headers.first? requestIdName with
  | none => rfl
  | some id => simp only [Http.Headers.setIfAbsent_setIfAbsent]

/-! ## Passing a gateway -/

/-- A request is dispatched with an identifier, which the answer carries back. -/
theorem run_answer (r : Router) (around : Surroundings) (req : Http.Request) (j : Journal) :
    let inner := (identified around j.minted req).recordReceived
    let j' : Journal := { j with minted := j.minted + lacking req }
    (answer r around req).value j =
        propagate inner (((r.dispatch around inner).value j').forMethod inner.method) ∧
      (answer r around req).rest j = (r.dispatch around inner).rest j' := by
  intro inner j'
  obtain ⟨hvalue, hrest⟩ := run_identify around req.recordReceived j
  simp only [answer, value_bind, rest_bind, hvalue, hrest, value_pure, rest_pure]
  exact ⟨rfl, rfl⟩

/-- A gateway that is mounted answers as a gateway does. -/
theorem run_handle_application (id : Nat) (name : String) (r : Router) (around : Surroundings)
    (req : Http.Request) (j : Journal) :
    ((application id name r).handle around req).value j =
        ((answer r around req.recordReceived).value j).forMethod req.method ∧
      ((application id name r).handle around req).rest j =
        (answer r around req.recordReceived).rest j :=
  ⟨rfl, rfl⟩

end Gateway

end AppHost

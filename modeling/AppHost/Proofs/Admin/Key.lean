import AppHost.Proofs.Admin.Access
import AppHost.Proofs.Routing.Classify
import AppHost.Proofs.Routing.Dispatch
import AppHost.Proofs.Routing.Gateway
import AppHost.Proofs.Text.Bytes

/-!
# The key to the status application

A key may be any text, but what a client presents is read as text only if it is ASCII. So the guard
lets a request through exactly if the first `authorization` header holds the bytes of the word
`Bearer`, of a space and of the key, and the key is ASCII (`isAuthorized_iff`). With any other key,
whoever presents it is turned away like everybody else (`key_lets_through`).
-/

namespace AppHost

open Journaled

namespace Http.HeaderValue

/-- A value is the text that has its bytes, if those are printable ASCII or tabs. -/
theorem text?_eq_some_iff {v : HeaderValue} {s : String} :
    v.text? = some s ↔ v.IsText ∧ v.bytes = Text.bytes s := by
  rw [text?_eq]
  by_cases h : v.IsText
  · have hlt : ∀ b ∈ v.bytes, b < 128 := by
      intro b hb
      have hb := h b hb
      simp only [UInt8.lt_iff_toNat_lt, ← UInt8.toNat_inj, UInt8.reduceToNat] at hb ⊢
      omega
    have hbytes : Text.bytes (String.ofList v.chars) = v.bytes := Text.bytes_ofList_of_lt hlt
    rw [if_pos h, Option.some.injEq, and_iff_right h, ← hbytes, Text.bytes_inj]
  · rw [if_neg h]
    exact iff_of_false nofun fun hs => h hs.1

/-- A legal text can be read back from its bytes if it is ASCII. -/
theorem isText_bytes_iff {s : String} (h : IsLegal s) :
    (⟨Text.bytes s⟩ : HeaderValue).IsText ↔ Text.IsAscii s := by
  constructor
  · intro htext
    refine Text.isAscii_of_mem_bytes fun b hb => ?_
    have hb := htext b hb
    simp only [UInt8.lt_iff_toNat_lt, ← UInt8.toNat_inj, UInt8.reduceToNat] at hb ⊢
    omega
  · intro hascii b hb
    have hlt := Text.lt_of_mem_bytes hascii hb
    have hb := h b hb
    simp only [UInt8.lt_iff_toNat_lt, UInt8.le_iff_toNat_le, ne_eq, ← UInt8.toNat_inj,
      UInt8.reduceToNat] at hlt hb ⊢
    omega

end Http.HeaderValue

/-- What a guard does to all handlers alike it does to the answers of all pages. -/
theorem Application.Routes.handler_congr {guard guard' : Handler → Handler} {around : Surroundings}
    {req : Http.Request} (h : ∀ inner, guard inner around req = guard' inner around req)
    (routes : Routes) : handler guard routes around req = handler guard' routes around req := by
  simp only [handler, h]

namespace Admin

open Http.HeaderValue (IsLegal)

/-- The first `authorization` header of the request holds the bytes of the word `Bearer`, of a space
and of the key. -/
def Presents (key : String) (req : Http.Request) : Prop :=
  ∃ v, req.headers.first? "authorization" = some v ∧
    v.bytes = Text.bytes "Bearer " ++ Text.bytes key

variable {key : String} {req : Http.Request}

theorem isLegal_bearer (h : IsLegal key) : IsLegal ("Bearer " ++ key) := by
  intro b hb
  rw [Text.bytes_append] at hb
  rcases List.mem_append.mp hb with hb | hb
  · have hbearer : IsLegal "Bearer " := by
      rw [Http.HeaderValue.isLegal_iff]
      decide +kernel
    exact hbearer b hb
  · exact h b hb

theorem isAscii_bearer_iff : Text.IsAscii ("Bearer " ++ key) ↔ Text.IsAscii key := by
  have hbearer : Text.IsAscii "Bearer " := by decide
  simp only [Text.IsAscii, String.toList_append, List.forall_mem_append, and_iff_right_iff_imp]
  exact fun _ => hbearer

/-- **The key is accepted if it is presented and is ASCII.** -/
theorem isAuthorized_iff (h : IsLegal key) :
    isAuthorized key req = true ↔ Presents key req ∧ Text.IsAscii key := by
  have hread : ∀ v : Http.HeaderValue, v.text? = some ("Bearer " ++ key) ↔
      v.bytes = Text.bytes "Bearer " ++ Text.bytes key ∧ Text.IsAscii key := by
    intro v
    rw [Http.HeaderValue.text?_eq_some_iff, Text.bytes_append, and_comm]
    refine and_congr_right fun hbytes => ?_
    rw [← isAscii_bearer_iff, ← Http.HeaderValue.isText_bytes_iff (isLegal_bearer h),
      Text.bytes_append, ← hbytes]
  rw [isAuthorized, beq_iff_eq, Option.bind_eq_some_iff]
  simp only [hread, Presents]
  constructor
  · rintro ⟨v, hv, hbytes, hascii⟩
    exact ⟨⟨v, hv, hbytes⟩, hascii⟩
  · rintro ⟨⟨v, hv, hbytes⟩, hascii⟩
    exact ⟨v, hv, hbytes, hascii⟩

/-! ## The status application -/

theorem exists_eq_page {server : Nat} {path : String} {h : Handler}
    (hl : (pages server).lookup path = some h) : ∃ report, h = page server report := by
  simp only [pages, List.lookup_cons, List.lookup_nil] at hl
  split at hl
  · exact ⟨_, (Option.some.inj hl).symm⟩
  · split at hl
    · exact ⟨_, (Option.some.inj hl).symm⟩
    · split at hl
      · exact ⟨_, (Option.some.inj hl).symm⟩
      · cases hl

theorem status_page (server : Nat) (report : ServerView → Journaled Data) (around : Surroundings)
    (req : Http.Request) (j : Journal) :
    ((page server report around req).value j).status = 200 ∨
      ((page server report around req).value j).status = 404 := by
  unfold page
  cases around.servers server with
  | none => exact .inr rfl
  | some v => exact .inl rfl

/-- Without a key nobody is told that there is one. -/
theorem status_open (id server : Nat) (around : Surroundings) (req : Http.Request) (j : Journal) :
    (((application id server none).handle around req).value j).status ≠ 401 := by
  have hserve : ∀ x, (((application id server none).serve around x).value j).status ≠ 401 := by
    intro x
    show ((Application.Routes.handler (guarded none) (pages server) around x).value j).status ≠ 401
    unfold Application.Routes.handler
    cases hl : (pages server).lookup x.path with
    | none => exact (by decide : 404 ≠ 401)
    | some h =>
      obtain ⟨report, rfl⟩ := exists_eq_page hl
      by_cases hm : x.method = "GET" ∨ x.method = "HEAD"
      · simp only [if_pos hm]
        show ((page server report around x).value j).status ≠ 401
        rcases status_page server report around x j with hs | hs
        · rw [hs]
          decide
        · rw [hs]
          decide
      · simp only [if_neg hm]
        exact (by decide : 405 ≠ 401)
  have hstatus : (((application id server none).handle around req).value j).status =
      (((application id server none).serve around req.recordReceived).value j).status := by
    show ((((application id server none).serve around req.recordReceived).value j).forMethod
      req.method).status = _
    rw [Http.Response.forMethod_eq]
  rw [hstatus]
  exact hserve _

/-- The request is answered as if there were no key, by every status application with this one. -/
def LetsThrough (key : String) (req : Http.Request) : Prop :=
  ∀ id server around j, ((application id server (some key)).handle around req).run j =
    ((application id server none).handle around req).run j

theorem letsThrough_iff : LetsThrough key req ↔ isAuthorized key req = true := by
  constructor
  · intro hthrough
    by_contra hno
    let around : Surroundings := { requestIds := fun _ => ⟨[]⟩ }
    have hrefused := run_handle_of_not_authorized (Bool.eq_false_iff.mpr hno) 0 0 around {}
    rw [hthrough 0 0 around {}] at hrefused
    exact status_open 0 0 around req {} (congrArg (fun r => r.1.status) hrefused)
  · intro hyes id server around j
    have hguard : ∀ inner, guarded (some key) inner around req.recordReceived =
        guarded none inner around req.recordReceived := by
      intro inner
      have hyes' : isAuthorized key req.recordReceived = true := hyes
      simp only [guarded, hyes', if_true]
    have hserve : (application id server (some key)).serve around req.recordReceived =
        (application id server none).serve around req.recordReceived :=
      Application.Routes.handler_congr hguard (pages server)
    simp only [Application.handle, hserve]

/-- **A key lets through who presents it if it is ASCII, and nobody otherwise.** A request with the
bytes of the word `Bearer`, of a space and of the key in its first `authorization` header is answered
as if there were no key, which is never with a refusal. All others are refused, and so is every
request if the key has a character beyond ASCII. -/
theorem key_lets_through (key : String) (h : IsLegal key) (req : Http.Request) :
    (LetsThrough key req ↔ Presents key req ∧ Text.IsAscii key) ∧
    (¬ (Presents key req ∧ Text.IsAscii key) → ∀ id server around j,
      ((application id server (some key)).handle around req).run j =
        (refusal req, { j with events := j.events ++ [rejected req.path] })) ∧
    (refusal req).status = 401 ∧
    ∀ id server around j,
      (((application id server none).handle around req).value j).status ≠ 401 := by
  have hiff : LetsThrough key req ↔ Presents key req ∧ Text.IsAscii key :=
    letsThrough_iff.trans (isAuthorized_iff h)
  refine ⟨hiff, fun hno => ?_, rfl, fun id server around j => status_open id server around req j⟩
  have hunauthorized : isAuthorized key req = false :=
    Bool.eq_false_iff.mpr fun hyes => hno ((isAuthorized_iff h).mp hyes)
  exact run_handle_of_not_authorized hunauthorized

/-- Whoever presents a key that is not ASCII is locked out. -/
theorem key_lets_through_not_ascii :
    let key := "é"
    let req : Http.Request := {
      target := { path := "/status" }
      headers := [("authorization", ⟨Text.bytes "Bearer é"⟩)] }
    IsLegal key ∧ Presents key req ∧ ¬ LetsThrough key req := by
  intro key req
  have hlegal : IsLegal key := by
    rw [Http.HeaderValue.isLegal_iff]
    decide +kernel
  have hpresents : Presents key req := ⟨_, rfl, Text.bytes_append "Bearer " key⟩
  have hascii : ¬ Text.IsAscii key := by decide
  exact ⟨hlegal, hpresents, fun hthrough =>
    hascii ((key_lets_through key hlegal req).1.mp hthrough).2⟩

end Admin

end AppHost

import AppHost.Proofs.Retry.Decisions
import AppHost.Proofs.Serve.Lap
import AppHost.Proofs.Serve.Trace
import Mathlib.Data.List.Induction

/-!
# The serve loop and its retry policy

A loop that nobody stops does what its retry policy decides, one decision for each failure, on the
uptimes of the attempts alone. An attempt lasts as long and comes to the same whenever it is made
(`undisturbed_ending`), so the uptimes are known beforehand; as long as the decisions are retries
the loop goes on to the next attempt (`course_of_decisions`), and then one more lap tells how it
ends.
-/

namespace AppHost

namespace Attempt

/-- How long the attempt lasts if it is left alone, and what it returns. -/
def outcome (a : Attempt) : Option (Nat × AttemptResult) := (a.undisturbed 0).ending

theorem settle_add (start now : Nat) (acts : List (Nat × Act)) :
    settle start (start + now) acts = (settle 0 now acts).map fun x => (start + x.1, x.2) := by
  induction acts generalizing now with
  | nil => rfl
  | cons x acts ih =>
    obtain ⟨t, a⟩ := x
    have hmax : max (start + now) (start + t) = start + max now (0 + t) := by omega
    simp only [settle, hmax, ih, List.map_cons]

/-- An attempt does not know when it is made. -/
theorem undisturbed_ending (a : Attempt) (start : Nat) :
    (a.undisturbed start).ending = a.outcome.map fun e => (start + e.1, e.2) := by
  have hacts : settle start start a.acts =
      (settle 0 0 a.acts).map fun x => (start + x.1, x.2) := settle_add start 0 a.acts
  have hlast : lastTime start (settle start start a.acts) =
      start + lastTime 0 (settle 0 0 a.acts) := by
    rw [hacts, lastTime, lastTime, List.getLast?_map]
    cases (settle 0 0 a.acts).getLast? <;> rfl
  simp only [outcome, undisturbed, Option.map_map, hlast]
  cases a.ending with
  | none => rfl
  | some e =>
    have hmax : max (start + e.1) (start + lastTime 0 (settle 0 0 a.acts)) =
        start + max (0 + e.1) (lastTime 0 (settle 0 0 a.acts)) := by omega
    simp only [Option.map_some, Function.comp, hmax]

end Attempt

/-- The run made its attempts at these times, the first one with this number, counted `n`
restarts, and ended at `time` in this state. -/
structure ServeRun.Records (r : ServeRun) (times : List Nat) (first n time : Nat)
    (state : ServeState) : Prop where
  calls : r.trace.calls = times.zipIdx first
  restarts : ∀ st j,
    ((Trace.journal st r.trace).rest j).metrics.restarts = j.metrics.restarts + n
  state : ∀ st, Trace.finalState st r.trace = state
  last : r.last.now = time

namespace ServePlan

open RetryPolicy StopSignal

variable {p : ServePlan} {s s' : ServePoint} {fails : List (Nat × ServeFailure)}
  {rs : List (Nat × Duration)} {u : Nat} {f : ServeFailure}

/-- The attempts made from `s` on fail one after the other, after these uptimes. -/
def Fail (p : ServePlan) (s : ServePoint) (fails : List (Nat × ServeFailure)) : Prop :=
  ∀ k x, fails[k]? = some x → (p.attempts (s.next + k)).outcome = some (x.1, .error x.2)

/-- The uptimes of failed attempts. -/
def uptimes (fails : List (Nat × ServeFailure)) : List Duration := fails.map fun x => uptime x.1

/-- When the attempts are made, the first one at `now`: after each failure the decided delay has to
pass. -/
def callTimes (now : Nat) : List (Nat × ServeFailure) → List (Nat × Duration) → List Nat
  | x :: fails, r :: rs => now :: callTimes (now + x.1 + r.2.timerTicks) fails rs
  | _, _ => [now]

/-- When the attempt after the failures is made. -/
def dueTime (now : Nat) : List (Nat × ServeFailure) → List (Nat × Duration) → Nat
  | x :: fails, r :: rs => dueTime (now + x.1 + r.2.timerTicks) fails rs
  | _, _ => now

theorem ending_of_outcome {result : AttemptResult}
    (h : (p.attempts s.next).outcome = some (u, result)) :
    p.ending s = some (s.now + u, result) := by
  rw [ending, Attempt.undisturbed_ending, h]
  rfl

theorem Fail.head {x : Nat × ServeFailure} (h : p.Fail s (x :: fails)) :
    p.ending s = some (s.now + x.1, .error x.2) :=
  ending_of_outcome (h 0 x rfl)

theorem Fail.tail {x : Nat × ServeFailure} (h : p.Fail s (x :: fails))
    (hn : s'.next = s.next + 1) : p.Fail s' fails := by
  intro k y hk
  have hy := h (k + 1) y hk
  rw [hn, Nat.add_right_comm, Nat.add_assoc]
  exact hy

/-- What comes of the failures `fails` if all decisions are retries. -/
structure Course (p : ServePlan) (s : ServePoint) (fails : List (Nat × ServeFailure))
    (rs : List (Nat × Duration)) (tr : Trace) (s' : ServePoint) : Prop where
  laps : p.Laps fails.length s tr s'
  calls : tr.calls ++ [(s'.now, s'.next)] = (callTimes s.now fails rs).zipIdx s.next
  restarts : tr.restarts = fails.length
  now : s'.now = dueTime s.now fails rs
  next : s'.next = s.next + fails.length
  count_le : s'.count ≤ p.policy.maxRetries
  decisions : ∀ us, p.policy.decisions s.count s.dice (uptimes fails ++ us) =
    (p.policy.decisions s'.count s'.dice us).map (rs.map retried ++ ·)

theorem Course.nil (hc : s.count ≤ p.policy.maxRetries) : p.Course s [] [] [] s where
  laps := .refl s
  calls := rfl
  restarts := rfl
  now := rfl
  next := rfl
  count_le := hc
  decisions us := by
    show p.policy.decisions s.count s.dice us = _
    cases p.policy.decisions s.count s.dice us <;> rfl

/-- One more failure in front. -/
theorem Course.cons {x : Nat × ServeFailure} {r : Nat × Duration} {dice : Dice} {tr : Trace}
    (hsig : p.signal = .never) (he : p.ending s = some (s.now + x.1, .error x.2))
    (hd : p.policy.onFailure s.count (uptime x.1) s.dice = .ok (.retry r.1 r.2, r.1, dice))
    (h : p.Course ⟨s.now + x.1 + r.2.timerTicks, r.1, s.next + 1, dice⟩ fails rs tr s') :
    ∃ tr', p.Course s (x :: fails) (r :: rs) tr' s' := by
  have hd' : p.policy.onFailure s.count (uptime (s.now + x.1 - s.now)) s.dice =
      .ok (.retry r.1 r.2, r.1, dice) := by
    rw [Nat.add_sub_cancel_left]
    exact hd
  have hnone : ∀ w, p.signal.wakes (s.now + x.1) = some w →
      s.now + x.1 + r.2.timerTicks < w := by
    intro w hw
    rw [hsig] at hw
    cases hw
  obtain ⟨f, attempt, up, hlap⟩ := (Retries.intro he hd').lap (spares_of_never hsig _ _) hnone
  have hcalls := h.calls
  have hnext : s'.next = s.next + 1 + fails.length := h.next
  refine ⟨_, .step hlap h.laps, ?_, ?_, h.now, ?_, h.count_le, fun us => ?_⟩
  · simp only [Trace.calls_append, lead, calls_attemptFrom, calls_setback, callTimes,
      List.zipIdx_cons, List.cons_append, List.nil_append]
    rw [hcalls]
  · simp only [Trace.restarts_append, lead, restarts_attemptFrom, restarts_setback, h.restarts,
      List.length_cons]
    omega
  · rw [hnext, List.length_cons]
    omega
  · show p.policy.decisions s.count s.dice (uptime x.1 :: (uptimes fails ++ us)) = _
    rw [decisions_cons_of_ok _ hd, h.decisions us]
    cases p.policy.decisions s'.count s'.dice us <;> rfl

/-- **As long as the decisions are retries, the loop makes one attempt after another.** -/
theorem course_of_decisions (hsig : p.signal = .never) (hf : p.Fail s fails)
    (hc : s.count ≤ p.policy.maxRetries)
    (hd : p.policy.decisions s.count s.dice (uptimes fails) = .ok (rs.map retried)) :
    ∃ tr s', p.Course s fails rs tr s' := by
  induction fails generalizing s rs with
  | nil =>
    cases rs with
    | nil => exact ⟨[], s, .nil hc⟩
    | cons r rs => cases hd
  | cons x fails ih =>
    obtain ⟨r, rs', dice, rfl, hone, hrest⟩ := decisions_cons_eq_retried hd
    have hle : r.1 ≤ p.policy.maxRetries := by
      have := onFailure_count_le hone
      omega
    obtain ⟨tr, s', hcourse⟩ := @ih ⟨s.now + x.1 + r.2.timerTicks, r.1, s.next + 1, dice⟩ rs'
      (hf.tail rfl) hle hrest
    obtain ⟨tr', hcourse'⟩ := hcourse.cons hsig hf.head hone
    exact ⟨tr', s', hcourse'⟩

/-! ## The last lap -/

/-- A course that ends with the next attempt. -/
theorem Course.ends {tr : Trace} {time : Nat} {result : AttemptResult}
    {res : Except RetriesExhausted Unit} {last : ServePoint} {state : ServeState}
    (h : p.Course s fails rs tr s') (tail : Trace)
    (hlap : p.lap s' = .ok (.ends ⟨p.lead s' time result ++ (tail ++ [(time, .enters state)]),
      res, last⟩))
    (hcalls : Trace.calls (tail ++ [(time, .enters state)]) = [])
    (hrestarts : Trace.restarts (tail ++ [(time, .enters state)]) = 0) :
    ∃ r, (∀ fuel, p.runFrom (fails.length + 1 + fuel) s = .ok r) ∧ r.result = res ∧
      r.Records (callTimes s.now fails rs) s.next fails.length last.now state := by
  refine ⟨⟨tr ++ (p.lead s' time result ++ (tail ++ [(time, .enters state)])), res, last⟩,
    fun fuel => ?_, rfl, ?_, fun st j => ?_, fun st => ?_, rfl⟩
  · rw [Nat.add_assoc, Nat.add_comm 1 fuel, h.laps.runFrom, runFrom_of_ends hlap]
    rfl
  · show Trace.calls _ = _
    rw [Trace.calls_append, Trace.calls_append, hcalls, lead, calls_attemptFrom, List.append_nil,
      h.calls]
  · show ((Trace.journal st _).rest j).metrics.restarts = _
    rw [Trace.restarts_journal, Trace.restarts_append, Trace.restarts_append, hrestarts, lead,
      restarts_attemptFrom, h.restarts, Nat.add_zero]
  · show Trace.finalState st _ = _
    rw [← List.append_assoc, ← List.append_assoc]
    exact Trace.finalState_enters _ _ _ _

/-- A course that breaks off with the next attempt. -/
theorem Course.breaks {tr : Trace} {e : NoEnd} (h : p.Course s fails rs tr s')
    (hlap : p.lap s' = .error e) (fuel : Nat) :
    p.runFrom (fails.length + 1 + fuel) s = .error e := by
  rw [Nat.add_assoc, Nat.add_comm 1 fuel, h.laps.runFrom, runFrom_of_error hlap]
  rfl

theorem Course.lap_of_hang {tr : Trace} (h : p.Course s fails rs tr s') (hsig : p.signal = .never)
    (ho : (p.attempts (s.next + fails.length)).outcome = none) : p.lap s' = .error .hangs := by
  have he : p.ending s' = none := by
    rw [ending, Attempt.undisturbed_ending, h.next, ho]
    rfl
  refine ServePlan.lap_of_hang ?_ ?_ he
  · rw [hsig]
    rfl
  · rw [hsig]
    rfl

theorem Course.ending {tr : Trace} {result : AttemptResult} (h : p.Course s fails rs tr s')
    (ho : (p.attempts (s.next + fails.length)).outcome = some (u, result)) :
    p.ending s' = some (s'.now + u, result) := by
  refine ending_of_outcome ?_
  rw [h.next]
  exact ho

theorem Course.lap_of_failure {tr : Trace} (h : p.Course s fails rs tr s')
    (hsig : p.signal = .never)
    (ho : (p.attempts (s.next + fails.length)).outcome = some (u, .error f)) :
    p.lap s' = p.afterFailure (p.lead s' (s'.now + u) (.error f)) f u
      { s' with now := s'.now + u, next := s'.next + 1 } := by
  rw [ServePlan.lap_of_failure (h.ending ho) (spares_of_never hsig _ _), Nat.add_sub_cancel_left]

/-- The fold over one more failure is the decision on that. -/
theorem Course.decisions_snoc {tr : Trace} (h : p.Course s fails rs tr s') (u : Nat)
    (f : ServeFailure) :
    p.policy.decisions s.count s.dice (uptimes (fails ++ [(u, f)])) =
      (p.policy.onFailure s'.count (uptime u) s'.dice).map fun x =>
        rs.map retried ++ [(x.1, x.2.1)] := by
  have hsnoc : uptimes (fails ++ [(u, f)]) = uptimes fails ++ [uptime u] := by
    rw [uptimes, List.map_append]
    rfl
  rw [hsnoc, h.decisions]
  cases hd : p.policy.onFailure s'.count (uptime u) s'.dice with
  | error e =>
    rw [decisions_cons_of_error [] hd]
    rfl
  | ok x =>
    rw [decisions_cons_of_ok [] hd]
    rfl

/-- After the first attempt that succeeds the loop is stopped. -/
theorem run_of_success {tr : Trace} (h : p.Course s fails rs tr s') (hsig : p.signal = .never)
    (ho : (p.attempts (s.next + fails.length)).outcome = some (u, .ok ())) :
    ∃ r, (∀ fuel, p.runFrom (fails.length + 1 + fuel) s = .ok r) ∧ r.result = .ok () ∧
      r.Records (callTimes s.now fails rs) s.next fails.length (dueTime s.now fails rs + u)
        .stopped := by
  rw [← h.now]
  exact h.ends [] (lap_of_success (h.ending ho) (spares_of_never hsig _ _)) rfl rfl

/-- The first failure that the policy gives up on ends the loop for good. -/
theorem run_of_giveUp {tr : Trace} {c : Nat} (h : p.Course s fails rs tr s')
    (hsig : p.signal = .never)
    (ho : (p.attempts (s.next + fails.length)).outcome = some (u, .error f))
    (hd : p.policy.decisions s.count s.dice (uptimes (fails ++ [(u, f)])) =
      .ok (rs.map retried ++ [(.giveUp, c)])) :
    ∃ r, (∀ fuel, p.runFrom (fails.length + 1 + fuel) s = .ok r) ∧
      r.result = .error ⟨p.policy.maxRetries, f⟩ ∧
      r.Records (callTimes s.now fails rs) s.next fails.length (dueTime s.now fails rs + u)
        .failed := by
  rw [h.decisions_snoc] at hd
  rcases onFailure_cases h.count_le (uptime u) s'.dice with hone | ⟨e, hone⟩ | ⟨r, dice, -, hone⟩
  · have hlap := h.lap_of_failure hsig ho
    simp only [afterFailure, hone] at hlap
    rw [← h.now]
    exact h.ends [(s'.now + u, .enters .crashed)] hlap rfl rfl
  · rw [hone] at hd
    cases hd
  · rw [hone] at hd
    simp only [Except.map, Except.ok.injEq, List.append_cancel_left_eq, List.cons.injEq,
      Prod.mk.injEq, reduceCtorEq, false_and] at hd

/-- A delay that does not fit its word breaks the loop. -/
theorem run_of_overflow {tr : Trace} {e : ArithmeticError} (h : p.Course s fails rs tr s')
    (hsig : p.signal = .never)
    (ho : (p.attempts (s.next + fails.length)).outcome = some (u, .error f))
    (hd : p.policy.decisions s.count s.dice (uptimes (fails ++ [(u, f)])) = .error e) (fuel : Nat) :
    p.runFrom (fails.length + 1 + fuel) s = .error (.arithmetic e) := by
  rw [h.decisions_snoc] at hd
  cases hone : p.policy.onFailure s'.count (uptime u) s'.dice with
  | ok x =>
    rw [hone] at hd
    cases hd
  | error e' =>
    rw [hone] at hd
    cases hd
    refine h.breaks ?_ fuel
    rw [h.lap_of_failure hsig ho]
    simp only [afterFailure, hone]

/-! ## Short uptimes -/

theorem fail_range {fail : Nat → Nat × ServeFailure}
    (hf : ∀ k, (p.attempts (s.next + k)).outcome = some ((fail k).1, .error (fail k).2)) (n : Nat) :
    p.Fail s ((List.range n).map fail) := by
  intro k x hk
  rw [List.getElem?_map] at hk
  obtain ⟨k', hk', rfl⟩ := Option.map_eq_some_iff.mp hk
  have hlt : k < n := by
    have := (List.getElem?_eq_some_iff.mp hk').1
    rwa [List.length_range] at this
  rw [List.getElem?_range hlt] at hk'
  cases hk'
  exact hf k

theorem short_range {fail : Nat → Nat × ServeFailure}
    (hshort : ∀ k, ¬ p.policy.resetThreshold ≤ uptime (fail k).1) (n : Nat) :
    ∀ v ∈ uptimes ((List.range n).map fail), ¬ p.policy.resetThreshold ≤ v := by
  intro v hv
  rw [uptimes, List.map_map] at hv
  obtain ⟨k, -, rfl⟩ := List.mem_map.mp hv
  exact hshort k

theorem length_callTimes (now : Nat) (h : fails.length = rs.length) :
    (callTimes now fails rs).length = fails.length + 1 := by
  induction fails generalizing now rs with
  | nil => cases rs <;> rfl
  | cons x fails ih =>
    cases rs with
    | nil => cases h
    | cons r rs =>
      rw [callTimes, List.length_cons, List.length_cons, ih _ (Nat.succ.inj h)]

/-- If the back-off overflows before the retries are used up, the loop breaks. -/
theorem run_of_short_overflow {e : ArithmeticError} (hsig : p.signal = .never)
    (hf : p.Fail s fails) (hshort : ∀ v ∈ uptimes fails, ¬ p.policy.resetThreshold ≤ v)
    (hc : s.count + fails.length ≤ p.policy.maxRetries)
    (hd : p.policy.decisions s.count s.dice (uptimes fails) = .error e) :
    ∃ n, ∀ fuel, p.runFrom (n + fuel) s = .error (.arithmetic e) := by
  induction fails using List.reverseRecOn with
  | nil => cases hd
  | append_singleton fails x ih =>
    have hfails : p.Fail s fails := by
      intro k y hk
      refine hf k y ?_
      rw [List.getElem?_append_left (List.getElem?_eq_some_iff.mp hk).1]
      exact hk
    have hx : (p.attempts (s.next + fails.length)).outcome = some (x.1, .error x.2) :=
      hf fails.length x (by simp)
    have hshort' : ∀ v ∈ uptimes fails, ¬ p.policy.resetThreshold ≤ v := by
      intro v hv
      refine hshort v ?_
      rw [uptimes, List.map_append]
      exact List.mem_append_left _ hv
    rw [List.length_append, List.length_singleton] at hc
    cases hds : p.policy.decisions s.count s.dice (uptimes fails) with
    | error e' =>
      cases e
      cases e'
      exact ih hfails hshort' (by omega) hds
    | ok ds =>
      have hlen : s.count + (uptimes fails).length ≤ p.policy.maxRetries := by
        rw [uptimes, List.length_map]
        omega
      obtain ⟨rs, -, rfl, -⟩ := decisions_of_short hshort' hlen hds
      obtain ⟨tr, s', hcourse⟩ := course_of_decisions hsig hfails (by omega) hds
      exact ⟨fails.length + 1, run_of_overflow hcourse hsig hx hd⟩

/-- If every attempt fails after a short uptime and no delay overflows, the loop uses up its
retries: it makes one attempt more than there are retries, and reports the last failure. -/
theorem run_of_short {fail : Nat → Nat × ServeFailure} {ds : List (RetryDecision × Nat)}
    (hsig : p.signal = .never) (hc : s.count = 0)
    (hf : ∀ k, (p.attempts (s.next + k)).outcome = some ((fail k).1, .error (fail k).2))
    (hshort : ∀ k, ¬ p.policy.resetThreshold ≤ uptime (fail k).1)
    (hd : p.policy.decisions 0 s.dice
      (uptimes ((List.range p.policy.maxRetries).map fail)) = .ok ds) :
    ∃ r, (∀ fuel, p.runFrom (p.policy.maxRetries + 1 + fuel) s = .ok r) ∧
      r.result = .error ⟨p.policy.maxRetries, (fail p.policy.maxRetries).2⟩ ∧
      r.trace.calls.length = p.policy.maxRetries + 1 := by
  have hfail := fail_range hf p.policy.maxRetries
  have hus := short_range hshort p.policy.maxRetries
  obtain ⟨fails, hfails⟩ : ∃ fails, (List.range p.policy.maxRetries).map fail = fails := ⟨_, rfl⟩
  have hlen : fails.length = p.policy.maxRetries := by
    rw [← hfails, List.length_map, List.length_range]
  have hlen' : s.count + (uptimes fails).length = p.policy.maxRetries := by
    rw [hc, uptimes, List.length_map, hlen, Nat.zero_add]
  rw [hfails] at hfail hus
  rw [hfails, ← hc] at hd
  obtain ⟨rs, rfl, hsnoc⟩ := decisions_of_short_snoc hus (hshort p.policy.maxRetries) hlen' hd
  obtain ⟨tr, s', hcourse⟩ := course_of_decisions hsig hfail (by omega) hd
  have hlast : (p.attempts (s.next + fails.length)).outcome =
      some ((fail p.policy.maxRetries).1, .error (fail p.policy.maxRetries).2) := by
    rw [hlen]
    exact hf _
  have hsnoc' : p.policy.decisions s.count s.dice
      (uptimes (fails ++ [fail p.policy.maxRetries])) =
        .ok (rs.map retried ++ [(.giveUp, p.policy.maxRetries)]) := by
    rw [uptimes, List.map_append]
    exact hsnoc
  obtain ⟨r, hrun, hresult, hrec⟩ := run_of_giveUp hcourse hsig hlast hsnoc'
  rw [hlen] at hrun
  have hrs : fails.length = rs.length := by
    have := length_decisions hd
    rw [List.length_map] at this
    omega
  refine ⟨r, hrun, hresult, ?_⟩
  rw [hrec.calls, List.length_zipIdx, length_callTimes _ hrs, hlen]

/-! ## The whole run -/

/-- **A loop that nobody stops does what its retry policy decides.** As long as the decisions on
the failures are retries, it makes the next attempt when the decided delay has passed. It returns
after the first success; it fails with the last failure after the first decision to give up; and
it breaks down if, and only if, the policy comes to a delay that does not fit its word. So if all
attempts fail after short uptimes there is one attempt more than there are retries, except for that
overflow. Attempts fail on whole milliseconds, and their uptimes are compared as such with the
threshold, which is any duration; a delay ends with the millisecond in which it is over. -/
theorem run_follows_policy (policy : RetryPolicy) (grace : Duration) (attempts : Nat → Attempt)
    (s : ServePoint) :
    let p : ServePlan := { policy, grace, attempts, signal := .never }
    let start : ServePoint := { s with count := 0 }
    (∀ fails rs, p.Fail start fails →
      policy.decisions 0 s.dice (uptimes fails) = .ok (rs.map retried) →
      let n := fails.length
      let times := callTimes s.now fails rs
      let due := dueTime s.now fails rs
      let next := (attempts (s.next + n)).outcome
      (∃ tr s', p.Course start fails rs tr s') ∧
      (next = none → ∀ fuel, p.run (n + 1 + fuel) s = .error .hangs) ∧
      (∀ u, next = some (u, .ok ()) → ∃ r, (∀ fuel, p.run (n + 1 + fuel) s = .ok r) ∧
        r.result = .ok () ∧ r.Records times s.next n (due + u) .stopped) ∧
      (∀ u f, next = some (u, .error f) →
        (∀ c, policy.decisions 0 s.dice (uptimes (fails ++ [(u, f)])) =
            .ok (rs.map retried ++ [(.giveUp, c)]) →
          ∃ r, (∀ fuel, p.run (n + 1 + fuel) s = .ok r) ∧
            r.result = .error ⟨policy.maxRetries, f⟩ ∧
            r.Records times s.next n (due + u) .failed) ∧
        (∀ e, policy.decisions 0 s.dice (uptimes (fails ++ [(u, f)])) = .error e →
          ∀ fuel, p.run (n + 1 + fuel) s = .error (.arithmetic e)))) ∧
    (∀ fail : Nat → Nat × ServeFailure,
      (∀ k, (attempts (s.next + k)).outcome = some ((fail k).1, .error (fail k).2)) →
      (∀ k, ¬ policy.resetThreshold ≤ uptime (fail k).1) →
      let folded := policy.decisions 0 s.dice
        (uptimes ((List.range policy.maxRetries).map fail))
      (∀ ds, folded = .ok ds → ∃ r, (∀ fuel, p.run (policy.maxRetries + 1 + fuel) s = .ok r) ∧
        r.result = .error ⟨policy.maxRetries, (fail policy.maxRetries).2⟩ ∧
        r.trace.calls.length = policy.maxRetries + 1) ∧
      (∀ e, folded = .error e → ∃ n, ∀ fuel, p.run (n + fuel) s = .error (.arithmetic e)) ∧
      (policy.backoff.Fits → ∃ ds, folded = .ok ds)) := by
  intro p start
  refine ⟨fun fails rs hf hd => ?_, fun fail hf hshort => ⟨fun ds hds => ?_, fun e he => ?_,
    fun hb => decisions_of_fits hb _⟩⟩
  · obtain ⟨tr, s', hcourse⟩ := course_of_decisions (p := p) (s := start) rfl hf
      (Nat.zero_le _) hd
    refine ⟨⟨tr, s', hcourse⟩, fun ho fuel => ?_, fun u ho => ?_, fun u f ho => ⟨?_, ?_⟩⟩
    · exact hcourse.breaks (hcourse.lap_of_hang rfl ho) fuel
    · exact run_of_success hcourse rfl ho
    · intro c hc
      exact run_of_giveUp hcourse rfl ho hc
    · intro e he fuel
      exact run_of_overflow hcourse rfl ho he fuel
  · exact run_of_short (p := p) (s := start) rfl rfl hf hshort hds
  · refine run_of_short_overflow (p := p) (s := start) rfl (fail_range hf _)
      (short_range hshort _) ?_ he
    rw [List.length_map, List.length_range]
    exact Nat.le_of_eq (Nat.zero_add _)

/-- One failure and a success: the second attempt is made a second after the first has failed. -/
theorem run_follows_policy_once :
    let p : ServePlan := {
      attempts := fun n =>
        { ending := some (if n = 0 then (1, .error (.broken .notUtf8)) else (7, .ok ())) } }
    ∃ r, (∀ fuel, p.run (2 + fuel) {} = .ok r) ∧ r.result = .ok () ∧
      r.Records [0, 1001] 0 1 1008 .stopped := by
  intro p
  have hfail : p.Fail {} [(1, .broken .notUtf8)] := by
    intro k x hk
    cases k with
    | zero =>
      cases hk
      rfl
    | succ k => cases hk
  obtain ⟨-, -, hok, -⟩ := (run_follows_policy p.policy p.grace p.attempts {}).1
    [(1, .broken .notUtf8)] [(1, .ofSecs 1)] hfail rfl
  exact hok 7 rfl

end ServePlan

end AppHost

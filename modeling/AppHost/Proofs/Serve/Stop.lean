import AppHost.Proofs.Serve.Lap
import AppHost.Proofs.Serve.Trace

/-!
# Stopping the serve loop

A loop that is stopped at `t` is then either serving, in an attempt that has not returned yet, or
pausing after a failure. In a pause it ends at once; an attempt in progress may still return within
the grace period. Either way the loop ends cleanly: nothing that the attempt does once the signal
is there, failing included, leads to another attempt or is reported as a failure.
-/

namespace AppHost

/-- The run yields no failure and leaves the loop stopped, and from `t` on it neither makes an
attempt nor reports a failed one. -/
structure ServeRun.StopsCleanly (r : ServeRun) (t : Nat) : Prop where
  result : r.result = .ok ()
  stopped : ∀ s, Trace.finalState s r.trace = .stopped
  quiet : ∀ h ∈ r.trace, t ≤ h.1 → h.2.goesOn = false

theorem ServeRun.StopsCleanly.after {r : ServeRun} {t : Nat} (hr : r.StopsCleanly t) {tr : Trace}
    (htr : ∀ h ∈ tr, t ≤ h.1 → h.2.goesOn = false) : (r.after tr).StopsCleanly t where
  result := hr.result
  stopped s := by
    show Trace.finalState s (tr ++ r.trace) = _
    rw [Trace.finalState_append, hr.stopped]
  quiet h hh := by
    rcases List.mem_append.mp hh with hh | hh
    · exact htr h hh
    · exact hr.quiet h hh

namespace ServePlan

variable {p : ServePlan} {s s' : ServePoint} {t time : Nat}

/-! ## What attempts do -/

/-- An attempt that begins before `t` calls nobody from `t` on. -/
theorem quiet_attemptFrom {play : Play} {c : Closure} (hlt : s.now < t) :
    ∀ h ∈ p.attemptFrom s play c, t ≤ h.1 → h.2.goesOn = false := by
  intro h hh ht
  rcases List.mem_append.mp hh with hh | hh
  · have hnow : h.1 = s.now := by
      simp only [ServePoint.called, List.mem_cons, List.not_mem_nil, or_false] at hh
      rcases hh with rfl | rfl <;> rfl
    omega
  · exact goesOn_attemptTrace hh

theorem quiet_setback {f : ServeFailure} {attempt up : Nat} (hlt : time < t) :
    ∀ h ∈ p.setback time f attempt up, t ≤ h.1 → h.2.goesOn = false := by
  intro h hh ht
  have htime : h.1 = time := by
    simp only [setback, List.mem_cons, List.not_mem_nil, or_false] at hh
    rcases hh with rfl | rfl | rfl | rfl <;> rfl
  omega

/-- A failed attempt is reported before `t` if it fails before that. -/
theorem quiet_lead_setback {f : ServeFailure} {attempt up : Nat} (hs : s.now < t)
    (hlt : time < t) :
    ∀ h ∈ p.lead s time (.error f) ++ p.setback time f attempt up,
      t ≤ h.1 → h.2.goesOn = false := by
  intro h hh
  rcases List.mem_append.mp hh with hh | hh
  · exact quiet_attemptFrom hs h hh
  · exact quiet_setback hlt h hh

/-! ## Phases -/

/-- What a serve loop is doing. -/
inductive Phase where
  /-- The attempt made at `s` has not returned. -/
  | serving (s : ServePoint)
  | pausing

/-- The phase at time `t` of the loop that stands at `s` and is left alone. -/
inductive During (p : ServePlan) (t : Nat) : ServePoint → Phase → Prop where
  | serving {s : ServePoint} : s.now < t → (∀ e ∈ p.ending s, t < e.1) →
    During p t s (.serving s)
  | pausing {s s' : ServePoint} {time : Nat} : p.Retries s time s' → time < t → t < s'.now →
    During p t s .pausing
  | later {s s' : ServePoint} {time : Nat} {ph : Phase} : p.Retries s time s' →
    During p t s' ph → During p t s ph

theorem During.lt {ph : Phase} (h : p.During t s ph) : s.now < t := by
  induction h with
  | serving hlt _ => exact hlt
  | pausing hr hlt _ => exact Nat.lt_of_le_of_lt hr.le.1 hlt
  | later hr _ ih => exact Nat.lt_of_le_of_lt (Nat.le_trans hr.le.1 hr.le.2) ih

/-- When the loop ends that is stopped at `t`. An attempt in progress may answer the signal, and is
cut at the end of the grace period. -/
def stopTime (p : ServePlan) (t : Nat) : Phase → Nat
  | .serving s =>
    let limit := t + p.grace.timerTicks
    ((p.attempts s.next).play s.now (.triggeredAt t)).ending.elim limit fun e => min e.1 limit
  | .pausing => t

theorem stopTime_le {ph : Phase} : p.stopTime t ph ≤ t + p.grace.timerTicks := by
  cases ph with
  | serving s =>
    rw [stopTime, ← Closure.time_within]
    exact Closure.time_within_le
  | pausing => exact Nat.le_add_right _ _

/-! ## The lap that is stopped -/

/-- An attempt in progress when the signal comes may return until the end of its grace, and does so
after the signal. -/
theorem closure_of_serving (hsig : p.signal.comes = some t) (hlt : s.now < t)
    (hu : ∀ e ∈ p.ending s, t < e.1) :
    let ending := ((p.attempts s.next).play s.now p.signal).ending
    let c := Closure.within (t + p.grace.timerTicks) ending
    p.closure s.now ((p.attempts s.next).play s.now p.signal) = some c ∧ t ≤ c.time := by
  intro ending c
  have hw : p.signal.wakes s.now = some t := by
    rw [StopSignal.wakes_of_comes hsig, Nat.max_eq_right (Nat.le_of_lt hlt)]
  have hlate : ∀ x ∈ ending,
      t < x.1 ∨ (t ≤ x.1 ∧ ((p.attempts s.next).play s.now p.signal).drained = true) :=
    fun x hx => Attempt.lt_or_drained_of_play hw hu hx
  refine ⟨closure_of_wakes hw hlate, Closure.le_time_within (Nat.le_add_right _ _) fun x hx => ?_⟩
  have := hlate x hx
  omega

/-- The signal is answered: whatever the attempt in progress comes to, the loop stops. -/
theorem lap_of_serving (hsig : p.signal = .triggeredAt t) (hlt : s.now < t)
    (hu : ∀ e ∈ p.ending s, t < e.1) :
    ∃ r, p.lap s = .ok (.ends r) ∧ r.last.now = p.stopTime t (.serving s) ∧ t ≤ r.last.now ∧
      r.StopsCleanly t := by
  have hcomes : p.signal.comes = some t := congrArg StopSignal.comes hsig
  obtain ⟨hc, hle⟩ := closure_of_serving hcomes hlt hu
  have htrigger : p.signal.isTrigger = true := congrArg StopSignal.isTrigger hsig
  obtain ⟨ignoring, hignoring, hlap⟩ := lap_of_woken
    (StopSignal.isPast_of_comes hcomes (Nat.le_of_lt hlt)) htrigger hc Closure.woken_within
  refine ⟨_, hlap, ?_, hle, rfl, fun s => Trace.finalState_enters s _ _ _, ?_⟩
  · rw [stopTime, ← hsig]
    exact Closure.time_within
  · intro h hh ht
    rcases List.mem_append.mp hh with hh | hh
    · rcases List.mem_append.mp hh with hh | hh
      · exact quiet_attemptFrom hlt h hh ht
      · obtain ⟨f, rfl⟩ := hignoring h hh
        rfl
    · rw [List.mem_singleton.mp hh]
      rfl

theorem lap_of_pausing (hsig : p.signal.comes = some t) (hr : p.Retries s time s')
    (hlt : time < t) (hlt' : t < s'.now) :
    ∃ r, p.lap s = .ok (.ends r) ∧ r.last.now = t ∧ r.StopsCleanly t := by
  have hs := StopSignal.spares_of_comes hsig hr.le.1 (Nat.le_of_lt hlt)
  have hw : p.signal.wakes time = some t := by
    rw [StopSignal.wakes_of_comes hsig, Nat.max_eq_right (Nat.le_of_lt hlt)]
  obtain ⟨f, attempt, up, hlap⟩ := hr.lap_of_wakes hs hw (Nat.le_of_lt hlt')
  refine ⟨_, hlap, rfl, rfl, fun s => Trace.finalState_enters s _ _ _, fun h hh ht => ?_⟩
  rcases List.mem_append.mp hh with hh | hh
  · exact quiet_lead_setback (Nat.lt_of_le_of_lt hr.le.1 hlt) hlt h hh ht
  · rw [List.mem_singleton.mp hh]
    rfl

/-- Before the signal comes the loop goes on as if there were none. -/
theorem lap_of_retries (hsig : p.signal.comes = some t) (hr : p.Retries s time s')
    (hlt : s'.now < t) :
    ∃ tr, p.lap s = .ok (.again tr s') ∧ ∀ h ∈ tr, t ≤ h.1 → h.2.goesOn = false := by
  have htime : time < t := Nat.lt_of_le_of_lt hr.le.2 hlt
  have hs := StopSignal.spares_of_comes hsig hr.le.1 (Nat.le_of_lt htime)
  have hw : ∀ w, p.signal.wakes time = some w → s'.now < w := by
    intro w hw
    rw [StopSignal.wakes_of_comes hsig, Nat.max_eq_right (Nat.le_of_lt htime)] at hw
    cases hw
    exact hlt
  obtain ⟨f, attempt, up, hlap⟩ := hr.lap hs hw
  exact ⟨_, hlap, quiet_lead_setback (Nat.lt_of_le_of_lt hr.le.1 htime) htime⟩

/-- **Wherever the signal finds the loop, the loop ends there and cleanly.** -/
theorem runFrom_of_during {ph : Phase} (h : p.During t s ph) (hsig : p.signal = .triggeredAt t) :
    ∃ n r, (∀ fuel, p.runFrom (n + fuel) s = .ok r) ∧ r.last.now = p.stopTime t ph ∧
      t ≤ r.last.now ∧ r.StopsCleanly t := by
  have hcomes : p.signal.comes = some t := congrArg StopSignal.comes hsig
  induction h with
  | serving hlt hu =>
    obtain ⟨r, hlap, hlast, hle, hclean⟩ := lap_of_serving hsig hlt hu
    refine ⟨1, r, fun fuel => ?_, hlast, hle, hclean⟩
    rw [Nat.add_comm, runFrom_of_ends hlap]
  | pausing hr hlt hlt' =>
    obtain ⟨r, hlap, hlast, hclean⟩ := lap_of_pausing hcomes hr hlt hlt'
    refine ⟨1, r, fun fuel => ?_, hlast, Nat.le_of_eq hlast.symm, hclean⟩
    rw [Nat.add_comm, runFrom_of_ends hlap]
  | later hr hd ih =>
    obtain ⟨n, r, hrun, hlast, hle, hclean⟩ := ih
    obtain ⟨tr, hlap, hquiet⟩ := lap_of_retries hcomes hr hd.lt
    refine ⟨n + 1, r.after tr, fun fuel => ?_, hlast, hle, hclean.after hquiet⟩
    rw [Nat.add_right_comm, runFrom, hlap]
    simp only [hrun, Except.map]

/-! ## Every time is of some phase -/

/-- The loop that stands at `s` ends before `t`: it returns, or breaks down on a sum that does not
fit its word. -/
def EndsBefore (p : ServePlan) (t : Nat) (s : ServePoint) : Prop :=
  ∃ n, (∃ r, (∀ fuel, p.runFrom (n + fuel) s = .ok r) ∧ r.last.now < t) ∨
    ∃ e, ∀ fuel, p.runFrom (n + fuel) s = .error (.arithmetic e)

theorem EndsBefore.of_lap (h : (∃ r, p.lap s = .ok (.ends r) ∧ r.last.now < t) ∨
    ∃ e, p.lap s = .error (.arithmetic e)) : p.EndsBefore t s := by
  refine ⟨1, ?_⟩
  rcases h with ⟨r, hl, hlt⟩ | ⟨e, hl⟩
  · refine .inl ⟨r, fun fuel => ?_, hlt⟩
    rw [Nat.add_comm, runFrom_of_ends hl]
  · refine .inr ⟨e, fun fuel => ?_⟩
    rw [Nat.add_comm, runFrom_of_error hl]

theorem EndsBefore.of_laps {n : Nat} {tr : Trace} (h : p.Laps n s tr s')
    (he : p.EndsBefore t s') : p.EndsBefore t s := by
  obtain ⟨m, he⟩ := he
  refine ⟨n + m, ?_⟩
  rcases he with ⟨r, hr, hlt⟩ | ⟨e, he⟩
  · refine .inl ⟨r.after tr, fun fuel => ?_, hlt⟩
    rw [Nat.add_assoc, h.runFrom, hr]
    rfl
  · refine .inr ⟨e, fun fuel => ?_⟩
    rw [Nat.add_assoc, h.runFrom, he]
    rfl

/-- An attempt that returns before `t` is followed by another one, or the loop ends. -/
theorem retries_or_endsBefore {result : AttemptResult} (hsig : p.signal.comes = some t)
    (he : p.ending s = some (time, result)) (hlt : time < t) :
    (∃ s', p.Retries s time s') ∨ p.EndsBefore t s := by
  have hs := StopSignal.spares_of_comes hsig (le_of_ending he) (Nat.le_of_lt hlt)
  cases result with
  | ok _ => exact .inr (.of_lap (.inl ⟨_, lap_of_success he hs, hlt⟩))
  | error f =>
    have hlap := lap_of_failure he hs
    cases hd : p.policy.onFailure s.count (uptime (time - s.now)) s.dice with
    | error e =>
      refine .inr (.of_lap (.inr ⟨e, ?_⟩))
      rw [hlap]
      simp only [afterFailure, hd]
    | ok x =>
      obtain ⟨d, count, dice⟩ := x
      cases d with
      | retry attempt delay => exact .inl ⟨_, .intro he hd⟩
      | giveUp =>
        refine .inr (.of_lap (.inl ⟨⟨p.lead s time (.error f) ++ [(time, .enters .crashed),
          (time, .enters .failed)], .error ⟨count, f⟩, ⟨time, count, s.next + 1, dice⟩⟩, ?_, hlt⟩))
        rw [hlap]
        simp only [afterFailure, hd]

theorem serving_or_returned (hlt : s.now < t) :
    p.During t s (.serving s) ∨ ∃ time result, p.ending s = some (time, result) ∧ time ≤ t := by
  cases he : p.ending s with
  | none => exact .inl (.serving hlt fun e h => by rw [he] at h; cases h)
  | some e =>
    rcases Nat.lt_or_ge t e.1 with h | h
    · refine .inl (.serving hlt fun e' h' => ?_)
      rw [he] at h'
      cases h'
      exact h
    · exact .inr ⟨e.1, e.2, rfl, h⟩

/-- No attempt that the loop makes from `s` on returns at `t`, and none is due at `t`. -/
def Misses (p : ServePlan) (t : Nat) (s : ServePoint) : Prop :=
  ∀ n tr s', p.Laps n s tr s' → (∀ e ∈ p.ending s', e.1 ≠ t) ∧
    ∀ time s'', p.Retries s' time s'' → s''.now ≠ t

/-- A loop that stands before `t` is in some phase at `t` unless it has ended before; but it may
make more and more attempts and never get there. -/
theorem phase_or_over (hsig : p.signal.comes = some t) (hlt : s.now < t) (hm : p.Misses t s) :
    (∃ ph, p.During t s ph) ∨ p.EndsBefore t s ∨
      ∀ n, ∃ tr s', p.Laps n s tr s' ∧ s'.now < t := by
  by_cases hph : ∃ ph, p.During t s ph
  · exact .inl hph
  by_cases hover : p.EndsBefore t s
  · exact .inr (.inl hover)
  have hall : ∀ n, ∃ tr s', p.Laps n s tr s' ∧ s'.now < t ∧
      ∀ ph, p.During t s' ph → p.During t s ph := by
    intro n
    induction n with
    | zero => exact ⟨[], s, .refl s, hlt, fun _ h => h⟩
    | succ n ih =>
      obtain ⟨tr, s', hlaps, hlt', hlift⟩ := ih
      obtain ⟨hend, hdue⟩ := hm n tr s' hlaps
      have hnone : ∀ ph, ¬ p.During t s' ph := fun ph h => hph ⟨ph, hlift ph h⟩
      obtain ⟨time, result, he, hle⟩ := (serving_or_returned hlt').resolve_left (hnone _)
      have hlt_time : time < t := Nat.lt_of_le_of_ne hle (hend _ he)
      rcases retries_or_endsBefore hsig he hlt_time with ⟨s'', hr⟩ | hover'
      · have hlt'' : s''.now < t := by
          have := hdue time s'' hr
          have : ¬ t < s''.now := fun h => hnone _ (.pausing hr hlt_time h)
          omega
        obtain ⟨tr', hlap, -⟩ := lap_of_retries hsig hr hlt''
        exact ⟨tr ++ tr', s'', hlaps.snoc hlap, hlt'', fun ph h => hlift ph (.later hr h)⟩
      · exact absurd (.of_laps hlaps hover') hover
  refine .inr (.inr fun n => ?_)
  obtain ⟨tr, s', hlaps, hlt', -⟩ := hall n
  exact ⟨tr, s', hlaps, hlt'⟩

/-! ## Stopping -/

theorem run_of_past (h : p.signal.isPast s.now = true) (fuel : Nat) :
    p.run (fuel + 1) s =
      .ok ⟨[(s.now, .enters .stopped)], .ok (), { s with count := 0 }⟩ := by
  rw [run]
  exact runFrom_of_ends (lap_of_past (s := { s with count := 0 }) h) fuel

/-- **A loop that is stopped ends cleanly, and stays so.** Stopped before the run or in a pause it
ends at once. Stopped in an attempt it ends when that returns, with whatever result, or at the end
of the grace period. Runs after that end at once without an attempt. These are all the cases: a
time that no event of the loop shares lies before the run, in an attempt or in a pause, unless the
loop has ended before or never gets there. All times are whole milliseconds; the grace period is any
duration, and ends with the millisecond in which it is over. -/
theorem stopped_cleanly (policy : RetryPolicy) (grace : Duration) (attempts : Nat → Attempt)
    (t : Nat) (s : ServePoint) :
    let p : ServePlan := { policy, grace, attempts, signal := .triggeredAt t }
    let start : ServePoint := { s with count := 0 }
    (t < s.now → ∀ fuel, p.run (fuel + 1) s = .ok ⟨[(s.now, .enters .stopped)], .ok (), start⟩) ∧
    (∀ ph, p.During t start ph → ∃ n r, (∀ fuel, p.run (n + fuel) s = .ok r) ∧
      r.StopsCleanly t ∧ r.last.now = p.stopTime t ph ∧ t ≤ r.last.now) ∧
    (∀ q : ServePlan, ∀ now, t ≤ now → q.signal = p.signal.after now →
      ∀ s' fuel, q.run (fuel + 1) s' =
        .ok ⟨[(s'.now, .enters .stopped)], .ok (), { s' with count := 0 }⟩) ∧
    (s.now < t → p.Misses t start → (∃ ph, p.During t start ph) ∨ p.EndsBefore t start ∨
      ∀ n, ∃ tr s', p.Laps n start tr s' ∧ s'.now < t) := by
  intro p start
  refine ⟨fun hlt fuel => ?_, fun ph hph => ?_, fun q now hnow hq s' fuel => ?_, fun hlt hm => ?_⟩
  · have hpast : p.signal.isPast s.now = true := decide_eq_true hlt
    exact run_of_past hpast fuel
  · obtain ⟨n, r, hrun, hlast, hle, hclean⟩ := runFrom_of_during hph rfl
    exact ⟨n, r, hrun, hclean, hlast, hle⟩
  · have hpast : q.signal.isPast s'.now = true := by
      rw [hq]
      simp only [p, StopSignal.after, hnow, if_true, StopSignal.isPast]
    exact run_of_past hpast fuel
  · exact phase_or_over rfl hlt hm

/-- Half a second into the first pause the loop is stopped there. -/
theorem stopped_cleanly_in_pause :
    let p : ServePlan := {
      attempts := fun _ => { ending := some (1, .error (.broken .notUtf8)) }
      signal := .triggeredAt 500 }
    p.During 500 {} .pausing ∧
      ∃ n r, (∀ fuel, p.run (n + fuel) {} = .ok r) ∧ r.StopsCleanly 500 ∧ r.last.now = 500 := by
  intro p
  have hretries : p.Retries {} 1 ⟨1 + (Duration.ofSecs 1).timerTicks, 1, 0 + 1, {}⟩ := .intro rfl rfl
  have hpause : p.During 500 {} .pausing := .pausing hretries (by decide) (by decide)
  obtain ⟨n, r, hrun, hclean, hlast, -⟩ :=
    (stopped_cleanly p.policy p.grace p.attempts 500 {}).2.1 .pausing hpause
  exact ⟨hpause, n, r, hrun, hclean, hlast⟩

end ServePlan

end AppHost

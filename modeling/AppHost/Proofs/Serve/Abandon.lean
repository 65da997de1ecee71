import AppHost.Proofs.Serve.Stop

/-!
# A coordinator that goes away

A coordinator that goes away wakes the serve loop as one does that asks it to stop. The loop ends
in the same way, with one exception: nobody has asked it to stop, so it takes the failure of an
attempt that winds up for a crash. It reports that crash and counts it; the pause after it, if the
policy grants one, is over at once.
-/

namespace AppHost.ServePlan

variable {p : ServePlan} {s s' : ServePoint} {t time : Nat}

/-! ## What the loop sees of its signal -/

theorem afterFailure_congr {signal : StopSignal}
    (hw : ∀ now, signal.wakes now = p.signal.wakes now) (pre : Trace) (f : ServeFailure)
    (up : Nat) : { p with signal }.afterFailure pre f up s = p.afterFailure pre f up s := by
  simp only [afterFailure, hw]
  rfl

/-- Whether the loop is to stop makes a difference to an attempt that fails after it was woken. -/
theorem conclude_congr {signal : StopSignal} (hw : ∀ now, signal.wakes now = p.signal.wakes now)
    {c : Closure} (hok : c.woken = true → c.result = .ok ()) (pre : Trace) :
    { p with signal }.conclude s pre c = p.conclude s pre c := by
  simp only [conclude, afterFailure_congr hw]
  cases hwoken : c.woken with
  | false => rfl
  | true =>
    simp only [hok hwoken, Bool.true_and, List.append_nil, ite_self]

/-- The loop is woken by its signal, and asks whether it is to stop before an attempt and after one
that the signal has ended. Of the second it makes something only if that attempt failed. -/
theorem lap_congr {signal : StopSignal} (hw : ∀ now, signal.wakes now = p.signal.wakes now)
    (hp : signal.isPast s.now = p.signal.isPast s.now) {c : Closure}
    (hc : p.closure s.now ((p.attempts s.next).play s.now p.signal) = some c)
    (hok : c.woken = true → c.result = .ok ()) : { p with signal }.lap s = p.lap s := by
  have hplay : (p.attempts s.next).play s.now signal =
      (p.attempts s.next).play s.now p.signal := by
    simp only [Attempt.play, hw]
  have hclosure : { p with signal }.closure s.now ((p.attempts s.next).play s.now p.signal) =
      some c := by
    rw [← hc]
    simp only [closure, hw]
  simp only [lap, hplay, hclosure, hc, hp, conclude_congr hw hok]
  rfl

/-- Whether the coordinator asks or goes away at `t` makes no difference to a lap in which the
attempt does not fail after that. -/
theorem lap_triggered (hsig : p.signal = .abandonedAt t) (hle : s.now ≤ t) {c : Closure}
    (hc : p.closure s.now ((p.attempts s.next).play s.now p.signal) = some c)
    (hok : c.woken = true → c.result = .ok ()) :
    { p with signal := .triggeredAt t }.lap s = p.lap s := by
  have hcomes : p.signal.comes = some t := congrArg StopSignal.comes hsig
  refine lap_congr (fun now => ?_) ?_ hc hok
  · rw [hsig]
    rfl
  · rw [StopSignal.isPast_of_comes hcomes hle]
    exact StopSignal.isPast_of_comes rfl hle

theorem Retries.lap_triggered (h : p.Retries s time s') (hsig : p.signal = .abandonedAt t)
    (hlt : time < t) : { p with signal := .triggeredAt t }.lap s = p.lap s := by
  have hle := Nat.le_of_lt hlt
  have hs : p.signal.Spares s.now time :=
    StopSignal.spares_of_comes (congrArg StopSignal.comes hsig) h.le.1 hle
  obtain ⟨he, -⟩ := h
  obtain ⟨hplay, hc⟩ := closure_play he hs
  refine ServePlan.lap_triggered hsig (Nat.le_trans (le_of_ending he) hle) (hplay ▸ hc) ?_
  intro hwoken
  cases hwoken

theorem Retries.under {signal : StopSignal} (h : p.Retries s time s') :
    { p with signal }.Retries s time s' := by
  obtain ⟨he, hd⟩ := h
  exact .intro he hd

theorem During.under {signal : StopSignal} {ph : Phase} (h : p.During t s ph) :
    { p with signal }.During t s ph := by
  induction h with
  | serving hlt hu => exact .serving hlt hu
  | pausing hr hlt hlt' => exact .pausing hr.under hlt hlt'
  | later hr _ ih => exact .later hr.under ih

/-! ## The attempt in progress -/

/-- The failure that the attempt in progress comes to once the coordinator is gone, if it comes to
one within the grace period: the attempt, when it fails, and how. -/
def lateFailure (p : ServePlan) (t : Nat) : Phase → Option (ServePoint × Nat × ServeFailure)
  | .serving s =>
    let c := Closure.within (t + p.grace.timerTicks)
      ((p.attempts s.next).play s.now (.abandonedAt t)).ending
    match c.result with
    | .ok _ => none
    | .error f => some (s, c.time, f)
  | .pausing => none

theorem lap_of_no_lateFailure (hsig : p.signal = .abandonedAt t) (hlt : s.now < t)
    (hu : ∀ e ∈ p.ending s, t < e.1) (hnone : p.lateFailure t (.serving s) = none) :
    { p with signal := .triggeredAt t }.lap s = p.lap s := by
  obtain ⟨hc, -⟩ := closure_of_serving (congrArg StopSignal.comes hsig) hlt hu
  refine lap_triggered hsig (Nat.le_of_lt hlt) hc fun _ => ?_
  rw [hsig]
  unfold lateFailure at hnone
  dsimp only at hnone
  split at hnone
  · assumption
  · cases hnone

theorem runFrom_congr {q : ServePlan} (hlap : q.lap s = p.lap s)
    (hrest : ∀ tr s', p.lap s = .ok (.again tr s') → ∀ fuel, q.runFrom fuel s' = p.runFrom fuel s')
    (fuel : Nat) : q.runFrom fuel s = p.runFrom fuel s := by
  cases fuel with
  | zero => rfl
  | succ fuel =>
    rw [runFrom, runFrom, hlap]
    split
    · rfl
    · rfl
    · rename_i hagain
      rw [hrest _ _ hagain]

/-- **A coordinator that goes away stops the loop as one that asks,** unless the attempt in
progress fails. -/
theorem runFrom_triggered {ph : Phase} (h : p.During t s ph) (hsig : p.signal = .abandonedAt t)
    (hnone : p.lateFailure t ph = none) (fuel : Nat) :
    { p with signal := .triggeredAt t }.runFrom fuel s = p.runFrom fuel s := by
  have hcomes : p.signal.comes = some t := congrArg StopSignal.comes hsig
  induction h generalizing fuel with
  | @serving s hlt hu =>
    have heq := lap_of_no_lateFailure hsig hlt hu hnone
    obtain ⟨r, hlap, -⟩ :=
      lap_of_serving (p := { p with signal := .triggeredAt t }) rfl hlt hu
    refine runFrom_congr heq (fun tr s' hagain => ?_) fuel
    rw [← heq, hlap] at hagain
    cases hagain
  | pausing hr hlt hlt' =>
    obtain ⟨r, hlap, -⟩ := lap_of_pausing hcomes hr hlt hlt'
    refine runFrom_congr (hr.lap_triggered hsig hlt) (fun tr s' hagain => ?_) fuel
    rw [hlap] at hagain
    cases hagain
  | later hr hd ih =>
    obtain ⟨tr, hlap, -⟩ := lap_of_retries hcomes hr hd.lt
    have hlt := Nat.lt_of_le_of_lt hr.le.2 hd.lt
    refine runFrom_congr (hr.lap_triggered hsig hlt) (fun tr' s'' hagain => ?_) fuel
    rw [hlap] at hagain
    cases hagain
    exact ih hnone

/-! ## Failures taken for crashes -/

/-- What the loop comes to whose coordinator is gone when the attempt made at `s` fails with `f` at
`time`. `pre` is what happened before. -/
def fallout (p : ServePlan) (pre : Trace) (s : ServePoint) (time : Nat) (f : ServeFailure) :
    Except NoEnd ServeRun :=
  match p.policy.onFailure s.count (uptime (time - s.now)) s.dice with
  | .error e => .error (.arithmetic e)
  | .ok (.giveUp, count, dice) =>
    .ok ⟨pre ++ [(time, .enters .crashed), (time, .enters .failed)], .error ⟨count, f⟩,
      ⟨time, count, s.next + 1, dice⟩⟩
  | .ok (.retry attempt _, count, dice) =>
    .ok ⟨pre ++ p.setback time f attempt (time - s.now) ++ [(time, .enters .stopped)], .ok (),
      ⟨time, count, s.next + 1, dice⟩⟩

theorem fallout_after (tr pre : Trace) (s : ServePoint) (time : Nat) (f : ServeFailure) :
    (p.fallout pre s time f).map (.after tr) = p.fallout (tr ++ pre) s time f := by
  unfold fallout
  split
  · rfl
  · simp only [Except.map, ServeRun.after, List.append_assoc]
  · simp only [Except.map, ServeRun.after, List.append_assoc]

/-- What the loop has seen of the attempt made at `s` when that fails with `f` at `time`, woken at
`t`. -/
def lateLead (p : ServePlan) (t : Nat) (s : ServePoint) (time : Nat) (f : ServeFailure) : Trace :=
  p.attemptFrom s ((p.attempts s.next).play s.now (.abandonedAt t)) (.returns time (.error f) true)

theorem lateFailure_eq_some_iff {ph : Phase} {f : ServeFailure} :
    p.lateFailure t ph = some (s, time, f) ↔ ph = .serving s ∧
      ((p.attempts s.next).play s.now (.abandonedAt t)).ending = some (time, .error f) ∧
      time ≤ t + p.grace.timerTicks := by
  constructor
  · intro h
    cases ph with
    | pausing => cases h
    | serving s' =>
      unfold lateFailure at h
      dsimp only at h
      split at h
      · cases h
      · rename_i hresult
        cases h
        obtain ⟨time, he, hle⟩ := Closure.result_within_eq_error_iff.mp hresult
        simp only [he, Closure.within, if_pos hle, Closure.time]
        exact ⟨trivial, trivial, hle⟩
  · rintro ⟨rfl, he, hle⟩
    simp only [lateFailure, he, Closure.within, if_pos hle, Closure.result, Closure.time]

theorem lap_of_lateFailure {f : ServeFailure} (hsig : p.signal = .abandonedAt t)
    (hlt : s.now < t) (hu : ∀ e ∈ p.ending s, t < e.1)
    (hf : p.lateFailure t (.serving s) = some (s, time, f)) :
    t ≤ time ∧ p.lap s = p.afterFailure (p.lateLead t s time f) f (time - s.now)
      { s with now := time, next := s.next + 1 } := by
  obtain ⟨-, he, hle⟩ := lateFailure_eq_some_iff.mp hf
  have hcomes : p.signal.comes = some t := congrArg StopSignal.comes hsig
  obtain ⟨hc, hle'⟩ := closure_of_serving hcomes hlt hu
  simp only [hsig, he, Closure.within, if_pos hle] at hc hle'
  have hpast : p.signal.isPast s.now = false := StopSignal.isPast_of_comes hcomes (Nat.le_of_lt hlt)
  rw [hsig] at hpast
  refine ⟨hle', ?_⟩
  simp only [lap, conclude, hsig, hpast, hc, StopSignal.isTrigger, Bool.and_false,
    Bool.false_eq_true, if_false, Closure.result, Closure.time, lateLead]

/-- A pause is over at once if the coordinator is gone already. -/
theorem runFrom_of_lateFailure {f : ServeFailure} (hsig : p.signal = .abandonedAt t)
    (hlt : s.now < t) (hu : ∀ e ∈ p.ending s, t < e.1)
    (hf : p.lateFailure t (.serving s) = some (s, time, f)) (fuel : Nat) :
    p.runFrom (fuel + 1) s = p.fallout (p.lateLead t s time f) s time f := by
  obtain ⟨hle, hlap⟩ := lap_of_lateFailure hsig hlt hu hf
  have hw : p.signal.wakes time = some time := by
    rw [StopSignal.wakes_of_comes (congrArg StopSignal.comes hsig), Nat.max_eq_left hle]
  rw [runFrom, hlap]
  unfold afterFailure fallout
  dsimp only
  cases hd : p.policy.onFailure s.count (uptime (time - s.now)) s.dice with
  | error e => rfl
  | ok x =>
    obtain ⟨d, count, dice⟩ := x
    cases d with
    | giveUp => rfl
    | retry attempt delay =>
      have hover : (p.signal.wakes time).filter (fun w => w ≤ time + delay.timerTicks) =
          some time := by
        rw [hw, Option.filter_some, if_pos (decide_eq_true (Nat.le_add_right _ _))]
      simp only [hover]

/-- The attempts before the one in progress. -/
theorem During.laps {ph : Phase} (h : p.During t s ph) (hph : ph = .serving s')
    (hcomes : p.signal.comes = some t) : ∃ n tr, p.Laps n s tr s' ∧
      (∀ x ∈ tr, t ≤ x.1 → x.2.goesOn = false) ∧ s'.now < t ∧ ∀ e ∈ p.ending s', t < e.1 := by
  induction h with
  | serving hlt hu =>
    cases hph
    exact ⟨0, [], .refl _, fun x hx => absurd hx List.not_mem_nil, hlt, hu⟩
  | pausing hr hlt hlt' => cases hph
  | later hr hd ih =>
    obtain ⟨n, tr, hlaps, hquiet, hlt, hu⟩ := ih hph
    obtain ⟨tr', hlap, hquiet'⟩ := lap_of_retries hcomes hr hd.lt
    refine ⟨n + 1, tr' ++ tr, .step hlap hlaps, fun x hx => ?_, hlt, hu⟩
    rcases List.mem_append.mp hx with hx | hx
    · exact hquiet' x hx
    · exact hquiet x hx

/-! ## Going away -/

/-- **A coordinator that goes away stops the loop as one that asks it to,** and the loop ends
cleanly by the end of the grace period, unless the attempt in progress fails in that period. That
failure is taken for a crash, though no other attempt follows it: the loop reports it, and either
gives up or counts a restart and ends in the pause. These are all the cases: a time that no event
of the loop shares lies in an attempt or in a pause, unless the loop has ended before or never gets
there. All times are whole milliseconds; the grace period is any duration, and ends with the
millisecond in which it is over. -/
theorem abandoned_as_stopped (policy : RetryPolicy) (grace : Duration) (attempts : Nat → Attempt)
    (t : Nat) (s : ServePoint) :
    let p : ServePlan := { policy, grace, attempts, signal := .abandonedAt t }
    let stopped : ServePlan := { policy, grace, attempts, signal := .triggeredAt t }
    let start : ServePoint := { s with count := 0 }
    (∀ ph, p.During t start ph → p.lateFailure t ph = none →
      (∀ fuel, p.run fuel s = stopped.run fuel s) ∧
      ∃ n r, (∀ fuel, p.run (n + fuel) s = .ok r) ∧ r.StopsCleanly t ∧ t ≤ r.last.now ∧
        r.last.now ≤ t + grace.timerTicks) ∧
    (∀ ph s' time f, p.During t start ph → p.lateFailure t ph = some (s', time, f) →
      t ≤ time ∧ time ≤ t + grace.timerTicks ∧
      ∃ n tr, p.Laps n start tr s' ∧
        let pre := tr ++ p.lateLead t s' time f
        (∀ h ∈ pre, t ≤ h.1 → h.2.goesOn = false) ∧
        ∀ fuel, p.run (n + (fuel + 1)) s = p.fallout pre s' time f) ∧
    (s.now < t → p.Misses t start → (∃ ph, p.During t start ph) ∨ p.EndsBefore t start ∨
      ∀ n, ∃ tr s', p.Laps n start tr s' ∧ s'.now < t) := by
  intro p stopped start
  refine ⟨fun ph hph hnone => ⟨fun fuel => ?_, ?_⟩, fun ph s' time f hph hf => ?_, fun hlt hm => ?_⟩
  · exact (runFrom_triggered hph rfl hnone fuel).symm
  · obtain ⟨n, r, hrun, hlast, hle, hclean⟩ :=
      runFrom_of_during (p := stopped) hph.under rfl
    refine ⟨n, r, fun fuel => ?_, hclean, hle, ?_⟩
    · rw [← hrun fuel]
      exact (runFrom_triggered hph rfl hnone (n + fuel)).symm
    · rw [hlast]
      exact stopTime_le
  · obtain ⟨rfl, -, hle⟩ := lateFailure_eq_some_iff.mp hf
    obtain ⟨n, tr, hlaps, hquiet, hlt, hu⟩ := hph.laps rfl rfl
    refine ⟨(lap_of_lateFailure rfl hlt hu hf).1, hle, n, tr, hlaps, fun h hh => ?_, fun fuel => ?_⟩
    · rcases List.mem_append.mp hh with hh | hh
      · exact hquiet h hh
      · exact quiet_attemptFrom hlt h hh
    · rw [← fallout_after, ← runFrom_of_lateFailure rfl hlt hu hf fuel]
      exact hlaps.runFrom (fuel + 1)
  · exact phase_or_over rfl hlt hm

/-- An attempt that fails while it drains, with no retry left. -/
theorem abandoned_as_stopped_crash :
    let failure : ServeFailure := .broken .notUtf8
    let p : ServePlan := {
      policy := { maxRetries := 0 }
      attempts := fun _ => { drain := some (10, .error failure) }
      signal := .abandonedAt 100 }
    p.During 100 {} (.serving {}) ∧ p.lateFailure 100 (.serving {}) = some ({}, 110, failure) ∧
      ∃ n r, (∀ fuel, p.run (n + (fuel + 1)) {} = .ok r) ∧ r.result = .error ⟨0, failure⟩ := by
  intro failure p
  have hph : p.During 100 {} (.serving {}) := .serving (by decide) fun e he => by cases he
  have hf : p.lateFailure 100 (.serving {}) = some ({}, 110, failure) :=
    lateFailure_eq_some_iff.mpr ⟨rfl, rfl, by decide⟩
  obtain ⟨-, -, n, tr, -, -, hrun⟩ :=
    (abandoned_as_stopped p.policy p.grace p.attempts 100 {}).2.1 _ _ _ _ hph hf
  exact ⟨hph, hf, n, _, fun fuel => (hrun fuel).trans rfl, rfl⟩

end AppHost.ServePlan

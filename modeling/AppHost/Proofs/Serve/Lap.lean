import AppHost.Serve.Loop

/-!
# Laps of the serve loop

What one turn of the loop comes to. An attempt that the stop signal spares goes its own way: it
never returns, it returns and ends the loop, or it fails and the retry policy decides. A lap that
leads to another attempt is one step of `Laps`, and `runFrom` follows these steps.
-/

namespace AppHost

/-! ## Signals that come later -/

/-- The signal does not come between `start` and `time`. -/
structure StopSignal.Spares (signal : StopSignal) (start time : Nat) : Prop where
  notPast : signal.isPast start = false
  le_of_wakes : ∀ {w}, signal.wakes start = some w → time ≤ w

namespace StopSignal

variable {signal : StopSignal} {t start time : Nat}

theorem spares_of_never (hsig : signal = .never) (start time : Nat) :
    signal.Spares start time := by
  subst hsig
  exact ⟨rfl, fun h => absurd h (Option.some_ne_none _).symm⟩

/-- The time at which the signal comes, be it that the coordinator asks to stop or that it goes
away. -/
def comes : StopSignal → Option Nat
  | never => none
  | atOnce => none
  | triggeredAt t => some t
  | abandonedAt t => some t

theorem wakes_of_comes (hsig : signal.comes = some t) (start : Nat) :
    signal.wakes start = some (max start t) := by
  cases signal with
  | never => cases hsig
  | atOnce => cases hsig
  | triggeredAt t' =>
    cases hsig
    rfl
  | abandonedAt t' =>
    cases hsig
    rfl

theorem isPast_of_comes (hsig : signal.comes = some t) (h : start ≤ t) :
    signal.isPast start = false := by
  cases signal with
  | triggeredAt t' =>
    cases hsig
    exact decide_eq_false (Nat.not_lt.mpr h)
  | _ => first | rfl | cases hsig

theorem spares_of_comes (hsig : signal.comes = some t) (h : start ≤ time) (ht : time ≤ t) :
    signal.Spares start time := by
  refine ⟨isPast_of_comes hsig (Nat.le_trans h ht), fun {w} hw => ?_⟩
  rw [wakes_of_comes hsig] at hw
  cases hw
  omega

end StopSignal

/-! ## Attempts and how they end -/

namespace Attempt

variable {a : Attempt} {start time : Nat} {result : AttemptResult} {signal : StopSignal}

theorem le_of_undisturbed (h : (a.undisturbed start).ending = some (time, result)) :
    start ≤ time := by
  simp only [undisturbed, Option.map_eq_some_iff, Prod.mk.injEq] at h
  obtain ⟨e, -, rfl, -⟩ := h
  omega

/-- An attempt that returns before the signal comes takes no notice of it. -/
theorem play_of_le (he : (a.undisturbed start).ending = some (time, result))
    (hw : ∀ {w}, signal.wakes start = some w → time ≤ w) :
    a.play start signal = a.undisturbed start := by
  rw [play]
  split
  · rename_i w hdrain hwakes
    rw [if_pos]
    simpa only [he, Option.any_some, decide_eq_true_eq] using hw hwakes
  · rfl

/-- An attempt that is at work when the signal comes returns only after that, or answers it. -/
theorem lt_or_drained_of_play {t : Nat} (hw : signal.wakes start = some t)
    (hu : ∀ x ∈ (a.undisturbed start).ending, t < x.1)
    (hp : (a.play start signal).ending = some (time, result)) :
    t < time ∨ (t ≤ time ∧ (a.play start signal).drained = true) := by
  rw [play, hw] at hp ⊢
  cases hd : a.drain with
  | none =>
    simp only [hd] at hp
    exact .inl (hu _ hp)
  | some d =>
    have hany : (a.undisturbed start).ending.any (fun e => decide (e.1 ≤ t)) = false := by
      cases hx : (a.undisturbed start).ending with
      | none => rfl
      | some x => simpa using hu x hx
    simp only [hd, hany] at hp ⊢
    cases hp
    exact .inr ⟨Nat.le_add_right _ _, rfl⟩

end Attempt

namespace Closure

/-- How an attempt ends that has until `limit` to return, and would return with `ending`. -/
def within (limit : Nat) (ending : Option (Nat × AttemptResult)) : Closure :=
  match ending with
  | some (t, r) => if t ≤ limit then returns t r true else isCut limit
  | none => isCut limit

variable {limit : Nat} {ending : Option (Nat × AttemptResult)}

@[simp] theorem woken_within : (within limit ending).woken = true := by
  unfold within
  split
  · split <;> rfl
  · rfl

theorem time_within : (within limit ending).time = ending.elim limit fun e => min e.1 limit := by
  cases ending with
  | none => rfl
  | some e =>
    simp only [within, Option.elim_some]
    split
    · rename_i h
      exact (Nat.min_eq_left h).symm
    · rename_i h
      exact (Nat.min_eq_right (Nat.le_of_not_le h)).symm

theorem time_within_le : (within limit ending).time ≤ limit := by
  rw [time_within]
  cases ending with
  | none => exact Nat.le_refl _
  | some e => exact Nat.min_le_right _ _

theorem le_time_within {t : Nat} (hl : t ≤ limit) (he : ∀ x ∈ ending, t ≤ x.1) :
    t ≤ (within limit ending).time := by
  rw [time_within]
  cases ending with
  | none => exact hl
  | some e => exact Nat.le_min.mpr ⟨he e rfl, hl⟩

/-- Only an attempt that returns by the limit can fail. -/
theorem result_within_eq_error_iff {f : ServeFailure} : (within limit ending).result = .error f ↔
    ∃ time, ending = some (time, .error f) ∧ time ≤ limit := by
  cases ending with
  | none => simp [within, result]
  | some e =>
    obtain ⟨t, r⟩ := e
    by_cases h : t ≤ limit
    · simp only [within, if_pos h, result, Option.some.injEq, Prod.mk.injEq]
      exact ⟨fun hr => ⟨t, ⟨rfl, hr⟩, h⟩, fun ⟨_, hr, _⟩ => hr.2⟩
    · simp only [within, if_neg h, result, reduceCtorEq, Option.some.injEq, Prod.mk.injEq,
        false_iff]
      rintro ⟨_, ⟨rfl, -⟩, hle⟩
      exact h hle

end Closure

namespace ServePlan

variable {p : ServePlan} {s s' : ServePoint} {time : Nat} {result : AttemptResult}

/-- How the attempt made at `s` ends if nobody disturbs it. -/
def ending (p : ServePlan) (s : ServePoint) : Option (Nat × AttemptResult) :=
  ((p.attempts s.next).undisturbed s.now).ending

theorem le_of_ending (h : p.ending s = some (time, result)) : s.now ≤ time :=
  Attempt.le_of_undisturbed h

theorem closure_of_spares {play : Play} (he : play.ending = some (time, result))
    (hd : play.drained = false) (hs : p.signal.Spares s.now time) :
    p.closure s.now play = some (.returns time result false) := by
  rw [closure, he]
  cases hw : p.signal.wakes s.now with
  | none => rfl
  | some w =>
    have hearly : (decide (time ≤ w) && !play.drained) = true := by
      rw [hd, decide_eq_true (hs.le_of_wakes hw), Bool.not_false, Bool.and_true]
    exact if_pos hearly

/-- An attempt that the signal finds at work has until the end of the grace period to return. -/
theorem closure_of_wakes {play : Play} {t : Nat} (hw : p.signal.wakes s.now = some t)
    (hlate : ∀ x ∈ play.ending, t < x.1 ∨ (t ≤ x.1 ∧ play.drained = true)) :
    p.closure s.now play = some (.within (t + p.grace.timerTicks) play.ending) := by
  rw [closure, hw]
  cases he : play.ending with
  | none => rfl
  | some e =>
    have hlate : (decide (e.1 ≤ t) && !play.drained) = false := by
      rcases hlate e he with h | ⟨-, h⟩
      · rw [decide_eq_false (by omega), Bool.false_and]
      · rw [h, Bool.not_true, Bool.and_false]
    simp only [hlate, Bool.false_eq_true, if_false, Closure.within]
    split
    · rfl
    · rfl

/-! ## One lap -/

/-- What the undisturbed attempt made at `s` leaves behind when it returns. -/
def lead (p : ServePlan) (s : ServePoint) (time : Nat) (result : AttemptResult) : Trace :=
  p.attemptFrom s ((p.attempts s.next).undisturbed s.now) (.returns time result false)

theorem lap_of_past (h : p.signal.isPast s.now = true) :
    p.lap s = .ok (.ends ⟨[(s.now, .enters .stopped)], .ok (), s⟩) := by
  rw [lap, if_pos h]
  rfl

theorem lap_of_hang (hp : p.signal.isPast s.now = false) (hw : p.signal.wakes s.now = none)
    (he : p.ending s = none) : p.lap s = .error .hangs := by
  have hplay : (p.attempts s.next).play s.now p.signal = (p.attempts s.next).undisturbed s.now := by
    rw [Attempt.play, hw]
    split
    · rename_i h
      cases h
    · rfl
  have hc : p.closure s.now ((p.attempts s.next).play s.now p.signal) = none := by
    rw [hplay, closure, hw, show ((p.attempts s.next).undisturbed s.now).ending = none from he]
  simp only [lap, hp, hc, Bool.false_eq_true, if_false]

/-- An attempt that ends is made, and concluded. -/
theorem lap_of_closure {c : Closure} (hp : p.signal.isPast s.now = false)
    (hc : p.closure s.now ((p.attempts s.next).play s.now p.signal) = some c) :
    p.lap s = p.conclude s (p.attemptFrom s ((p.attempts s.next).play s.now p.signal) c) c := by
  simp only [lap, hp, hc, Bool.false_eq_true, if_false]

/-- An attempt that has ended is the last one, and what it failed with is ignored, or it has failed
and is treated as a failure. -/
theorem conclude_cases {pre : Trace} {c : Closure} {l : Lap} (h : p.conclude s pre c = .ok l) :
    (∃ ignoring : Trace,
      (ignoring = [] ∨ ∃ f, c.result = .error f ∧ ignoring = [(c.time, .logs (ignored f))]) ∧
      l = .ends ⟨pre ++ ignoring ++ [(c.time, .enters .stopped)], .ok (),
        { s with now := c.time, next := s.next + 1 }⟩) ∨
    ∃ f, c.result = .error f ∧ p.afterFailure pre f (c.time - s.now)
      { s with now := c.time, next := s.next + 1 } = .ok l := by
  unfold conclude at h
  cases hr : c.result with
  | ok _ =>
    refine .inl ⟨[], .inl rfl, ?_⟩
    simp only [hr] at h
    split at h <;> (cases h; simp only [List.append_nil])
  | error f =>
    simp only [hr] at h
    split at h
    · cases h
      exact .inl ⟨_, .inr ⟨f, rfl, rfl⟩, rfl⟩
    · exact .inr ⟨f, rfl, h⟩

/-- The loop sees an attempt that the signal spares as it is. -/
theorem closure_play (he : p.ending s = some (time, result)) (hs : p.signal.Spares s.now time) :
    (p.attempts s.next).play s.now p.signal = (p.attempts s.next).undisturbed s.now ∧
      p.closure s.now ((p.attempts s.next).undisturbed s.now) =
        some (.returns time result false) :=
  ⟨Attempt.play_of_le he hs.le_of_wakes, closure_of_spares he rfl hs⟩

theorem lap_of_success (he : p.ending s = some (time, .ok ())) (hs : p.signal.Spares s.now time) :
    p.lap s = .ok (.ends ⟨p.lead s time (.ok ()) ++ [(time, .enters .stopped)], .ok (),
      { s with now := time, next := s.next + 1 }⟩) := by
  obtain ⟨hplay, hc⟩ := closure_play he hs
  rw [lap_of_closure hs.notPast (hplay ▸ hc), hplay]
  simp only [conclude, Closure.woken, Bool.false_eq_true, Bool.false_and, if_false,
    Closure.result, Closure.time, lead]

theorem lap_of_failure {f : ServeFailure} (he : p.ending s = some (time, .error f))
    (hs : p.signal.Spares s.now time) :
    p.lap s = p.afterFailure (p.lead s time (.error f)) f (time - s.now)
      { s with now := time, next := s.next + 1 } := by
  obtain ⟨hplay, hc⟩ := closure_play he hs
  rw [lap_of_closure hs.notPast (hplay ▸ hc), hplay]
  simp only [conclude, Closure.woken, Bool.false_eq_true, Bool.false_and, if_false,
    Closure.result, Closure.time, lead]

/-- Once woken to stop, the loop only logs the failure that the attempt may come to. -/
theorem lap_of_woken {c : Closure} (hp : p.signal.isPast s.now = false)
    (ht : p.signal.isTrigger = true)
    (hc : p.closure s.now ((p.attempts s.next).play s.now p.signal) = some c)
    (hw : c.woken = true) :
    ∃ ignoring : Trace, (∀ h ∈ ignoring, ∃ f, h = (c.time, .logs (ignored f))) ∧
      p.lap s = .ok (.ends ⟨p.attemptFrom s ((p.attempts s.next).play s.now p.signal) c ++
        ignoring ++ [(c.time, .enters .stopped)], .ok (),
        { s with now := c.time, next := s.next + 1 }⟩) := by
  rw [lap_of_closure hp hc]
  simp only [conclude, hw, ht, Bool.and_self, if_true]
  cases c.result with
  | ok _ => exact ⟨[], by simp, rfl⟩
  | error f => exact ⟨_, fun h hh => ⟨f, List.mem_singleton.mp hh⟩, rfl⟩

/-- The attempt made at `s` fails at `time`, and after a pause the next one is made at `s'`. -/
inductive Retries (p : ServePlan) (s : ServePoint) : Nat → ServePoint → Prop where
  | intro {time : Nat} {f : ServeFailure} {attempt : Nat} {delay : Duration} {count : Nat}
    {dice : Dice} : p.ending s = some (time, .error f) →
    p.policy.onFailure s.count (uptime (time - s.now)) s.dice =
      .ok (.retry attempt delay, count, dice) →
    Retries p s time ⟨time + delay.timerTicks, count, s.next + 1, dice⟩

theorem Retries.le (h : p.Retries s time s') : s.now ≤ time ∧ time ≤ s'.now := by
  cases h with
  | intro he _ => exact ⟨le_of_ending he, Nat.le_add_right _ _⟩

theorem Retries.next (h : p.Retries s time s') : s'.next = s.next + 1 := by
  cases h
  rfl

/-- If nobody wakes the loop in its pause, the next attempt is made. -/
theorem Retries.lap (h : p.Retries s time s') (hs : p.signal.Spares s.now time)
    (hw : ∀ w, p.signal.wakes time = some w → s'.now < w) :
    ∃ f attempt up, p.lap s = .ok (.again (p.lead s time (.error f) ++
      p.setback time f attempt up) s') := by
  cases h with
  | @intro f attempt delay count dice he hd =>
    refine ⟨f, attempt, time - s.now, ?_⟩
    have hnone : (p.signal.wakes time).filter (fun w => w ≤ time + delay.timerTicks) = none := by
      rw [Option.filter_eq_none_iff]
      intro w hw'
      have hlt : time + delay.timerTicks < w := hw w hw'
      rw [decide_eq_true_eq, Nat.not_le]
      exact hlt
    rw [lap_of_failure he hs]
    simp only [afterFailure, hd, hnone]

/-- If the loop is woken in its pause, it ends there. -/
theorem Retries.lap_of_wakes {w : Nat} (h : p.Retries s time s') (hs : p.signal.Spares s.now time)
    (hw : p.signal.wakes time = some w) (hle : w ≤ s'.now) :
    ∃ f attempt up, p.lap s = .ok (.ends ⟨p.lead s time (.error f) ++ p.setback time f attempt up ++
      [(w, .enters .stopped)], .ok (), { s' with now := w }⟩) := by
  cases h with
  | @intro f attempt delay count dice he hd =>
    refine ⟨f, attempt, time - s.now, ?_⟩
    have hsome : (p.signal.wakes time).filter (fun w => w ≤ time + delay.timerTicks) = some w := by
      rw [hw, Option.filter_some, if_pos (decide_eq_true hle)]
    rw [lap_of_failure he hs]
    simp only [afterFailure, hd, hsome]

/-! ## Many laps -/

theorem runFrom_of_ends {r : ServeRun} (h : p.lap s = .ok (.ends r)) (fuel : Nat) :
    p.runFrom (fuel + 1) s = .ok r := by
  rw [runFrom, h]

theorem runFrom_of_error {e : NoEnd} (h : p.lap s = .error e) (fuel : Nat) :
    p.runFrom (fuel + 1) s = .error e := by
  rw [runFrom, h]

theorem runFrom_of_again {fuel : Nat} {tr : Trace} {r : ServeRun}
    (h : p.lap s = .ok (.again tr s')) (hr : p.runFrom (fuel + 1) s = .ok r) :
    ∃ r', p.runFrom fuel s' = .ok r' ∧ r = r'.after tr := by
  simp only [runFrom, h] at hr
  cases hr' : p.runFrom fuel s' with
  | error e =>
    rw [hr'] at hr
    cases hr
  | ok r' =>
    rw [hr'] at hr
    cases hr
    exact ⟨r', rfl, rfl⟩

/-- Of runs in a row the others begin where the first one has ended. -/
theorem runs_succ_eq_ok {fuel n : Nat} {rs : List ServeRun} (h : p.runs fuel (n + 1) s = .ok rs) :
    ∃ r rs', p.run fuel s = .ok r ∧
      ServePlan.runs { p with signal := p.signal.after r.last.now } fuel n r.last = .ok rs' ∧
      rs = r :: rs' := by
  rw [runs] at h
  cases hr : p.run fuel s with
  | error e =>
    rw [hr] at h
    cases h
  | ok r =>
    rw [hr] at h
    change (do let rs ← ServePlan.runs _ fuel n r.last; return r :: rs) = _ at h
    cases hrs : ServePlan.runs { p with signal := p.signal.after r.last.now } fuel n r.last with
    | error e =>
      rw [hrs] at h
      cases h
    | ok rs' =>
      rw [hrs] at h
      cases h
      exact ⟨r, rs', rfl, hrs, rfl⟩

/-- After `n` attempts, each followed by another, the loop comes from `s` to `s'`. -/
inductive Laps (p : ServePlan) : Nat → ServePoint → Trace → ServePoint → Prop where
  | refl (s : ServePoint) : Laps p 0 s [] s
  | step {n : Nat} {s s' s'' : ServePoint} {tr tr' : Trace} : p.lap s = .ok (.again tr s') →
    Laps p n s' tr' s'' → Laps p (n + 1) s (tr ++ tr') s''

theorem Laps.snoc {n : Nat} {tr tr' : Trace} {s'' : ServePoint} (h : p.Laps n s tr s')
    (hl : p.lap s' = .ok (.again tr' s'')) : p.Laps (n + 1) s (tr ++ tr') s'' := by
  induction h with
  | refl s =>
    have hone := Laps.step hl (.refl s'')
    rwa [List.append_nil] at hone
  | step hl' _ ih =>
    rw [List.append_assoc]
    exact .step hl' (ih hl)

theorem Laps.runFrom {n : Nat} {tr : Trace} (h : p.Laps n s tr s') (fuel : Nat) :
    p.runFrom (n + fuel) s = (p.runFrom fuel s').map (.after tr) := by
  induction h with
  | refl s =>
    rw [Nat.zero_add]
    cases p.runFrom fuel s <;> rfl
  | @step n s s' s'' tr tr' hl _ ih =>
    rw [Nat.add_right_comm, ServePlan.runFrom, hl]
    simp only [ih]
    cases p.runFrom fuel s'' with
    | error e => rfl
    | ok r => simp only [Except.map, ServeRun.after, List.append_assoc]

end ServePlan

end AppHost

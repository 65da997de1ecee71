import AppHost.Proofs.Retry.Delay
import AppHost.Retry.Policy

/-!
# Decisions of a retry policy

A failure either exceeds the retries, or is followed by a retry whose delay the back-off tells. The
only other outcome is that this delay does not fit its word, which a back-off with a moderate
maximum never comes to.
-/

namespace AppHost

namespace Backoff

/-- Even the longest delay fits its word. -/
def Fits : Backoff → Prop
  | .fixed _ => True
  | .exponential _ max => max.millisWord + max.millisWord / 10 ≤ maxWord

theorem Fits.delay {b : Backoff} (h : b.Fits) (attempt : Nat) (dice : Dice) :
    ∃ delay dice', b.delay attempt dice = .ok (delay, dice') := by
  cases b with
  | fixed d => exact ⟨d, dice, rfl⟩
  | exponential base max =>
    cases attempt with
    | zero => exact ⟨.ofMillis 0, dice, rfl⟩
    | succ n =>
      have hmax : counted base max n ≤ max.millisWord := Nat.min_le_right _ _
      have htenth := jitter_le (counted base max n) dice
      have hroom : max.millisWord + max.millisWord / 10 ≤ maxWord := h
      have hfits : counted base max n + jitter (counted base max n) dice ≤ maxWord := by omega
      obtain ⟨d, hd, -⟩ := delay_of_fits hfits
      exact ⟨d, _, hd⟩

end Backoff

namespace RetryPolicy

variable {p : RetryPolicy} {count : Nat} {uptime : Duration} {dice : Dice}

/-- The decision for retry number `r.1` after the delay `r.2`, and the count after it. -/
def retried (r : Nat × Duration) : RetryDecision × Nat := (.retry r.1 r.2, r.1)

theorem onFailure_of_le (h : p.maxRetries ≤ p.countBefore count uptime) :
    p.onFailure count uptime dice = .ok (.giveUp, p.countBefore count uptime, dice) := by
  simp only [onFailure, if_neg (Nat.not_lt.mpr h)]
  rfl

/-- Below the maximum the back-off decides. -/
theorem onFailure_of_lt (h : p.countBefore count uptime < p.maxRetries) :
    p.onFailure count uptime dice =
      (p.backoff.delay (p.countBefore count uptime + 1) dice).map fun x =>
        (.retry (p.countBefore count uptime + 1) x.1, p.countBefore count uptime + 1, x.2) := by
  simp only [onFailure, if_pos h]
  cases p.backoff.delay (p.countBefore count uptime + 1) dice <;> rfl

theorem countBefore_le : p.countBefore count uptime ≤ count := by
  rw [countBefore]
  split
  · exact Nat.zero_le _
  · exact Nat.le_refl _

/-- What a failure can lead to. -/
theorem onFailure_cases (hle : count ≤ p.maxRetries) (uptime : Duration) (dice : Dice) :
    p.onFailure count uptime dice = .ok (.giveUp, p.maxRetries, dice) ∨
    (∃ e, p.onFailure count uptime dice = .error e) ∨
    ∃ (r : Nat × Duration) (dice' : Dice), r.1 ≤ p.maxRetries ∧
      p.onFailure count uptime dice = .ok (.retry r.1 r.2, r.1, dice') := by
  have hcount : p.countBefore count uptime ≤ count := countBefore_le
  rcases Nat.lt_or_ge (p.countBefore count uptime) p.maxRetries with h | h
  · refine .inr ?_
    rw [onFailure_of_lt h]
    cases p.backoff.delay (p.countBefore count uptime + 1) dice with
    | error e => exact .inl ⟨e, rfl⟩
    | ok x => exact .inr ⟨(p.countBefore count uptime + 1, x.1), x.2, h, rfl⟩
  · refine .inl ?_
    rw [onFailure_of_le h, show p.countBefore count uptime = p.maxRetries by omega]

/-! ## The fold -/

theorem decisions_cons_of_ok {d : RetryDecision} {n : Nat} {dice' : Dice} (us : List Duration)
    (h : p.onFailure count uptime dice = .ok (d, n, dice')) :
    p.decisions count dice (uptime :: us) = (p.decisions n dice' us).map ((d, n) :: ·) := by
  simp only [decisions, h, bind, Except.bind]
  cases p.decisions n dice' us <;> rfl

theorem decisions_cons_of_error {e : ArithmeticError} (us : List Duration)
    (h : p.onFailure count uptime dice = .error e) :
    p.decisions count dice (uptime :: us) = .error e := by
  simp only [decisions, h, bind, Except.bind]

/-- Decisions on several failures are one on the first and others on the rest. -/
theorem decisions_cons_eq_ok {us : List Duration} {ds : List (RetryDecision × Nat)}
    (h : p.decisions count dice (uptime :: us) = .ok ds) :
    ∃ d n dice' ds', p.onFailure count uptime dice = .ok (d, n, dice') ∧
      p.decisions n dice' us = .ok ds' ∧ ds = (d, n) :: ds' := by
  cases hd : p.onFailure count uptime dice with
  | error e =>
    rw [decisions_cons_of_error us hd] at h
    cases h
  | ok x =>
    rw [decisions_cons_of_ok us hd] at h
    cases hus : p.decisions x.2.1 x.2.2 us with
    | error e =>
      rw [hus] at h
      cases h
    | ok ds' =>
      rw [hus] at h
      cases h
      exact ⟨x.1, x.2.1, x.2.2, ds', rfl, hus, rfl⟩

/-- If all decisions are retries, the first one is, and so are all others. -/
theorem decisions_cons_eq_retried {us : List Duration} {rs : List (Nat × Duration)}
    (h : p.decisions count dice (uptime :: us) = .ok (rs.map retried)) :
    ∃ r rs' dice', rs = r :: rs' ∧
      p.onFailure count uptime dice = .ok (.retry r.1 r.2, r.1, dice') ∧
      p.decisions r.1 dice' us = .ok (rs'.map retried) := by
  obtain ⟨d, n, dice', ds', hone, hus, hds⟩ := decisions_cons_eq_ok h
  cases rs with
  | nil => cases hds
  | cons r rs' =>
    cases hds
    exact ⟨r, rs', dice', rfl, hone, hus⟩

theorem length_decisions {us : List Duration} {ds : List (RetryDecision × Nat)}
    (h : p.decisions count dice us = .ok ds) : ds.length = us.length := by
  induction us generalizing count dice ds with
  | nil =>
    cases h
    rfl
  | cons u us ih =>
    obtain ⟨d, n, dice', ds', -, hus, rfl⟩ := decisions_cons_eq_ok h
    rw [List.length_cons, List.length_cons, ih hus]

/-- A failure after a short uptime is one more in the row. -/
theorem countBefore_of_short (h : ¬ p.resetThreshold ≤ uptime) :
    p.countBefore count uptime = count := by
  rw [countBefore, if_neg h]

/-- Below the maximum, failures after short uptimes are followed by retries, each counted. -/
theorem decisions_of_short {us : List Duration} {ds : List (RetryDecision × Nat)}
    (hus : ∀ u ∈ us, ¬ p.resetThreshold ≤ u) (hc : count + us.length ≤ p.maxRetries)
    (hds : p.decisions count dice us = .ok ds) :
    ∃ (rs : List (Nat × Duration)) (dice' : Dice), ds = rs.map retried ∧
      ∀ vs, p.decisions count dice (us ++ vs) =
        (p.decisions (count + us.length) dice' vs).map (rs.map retried ++ ·) := by
  induction us generalizing count dice ds with
  | nil =>
    cases hds
    refine ⟨[], dice, rfl, fun vs => ?_⟩
    show p.decisions count dice vs = _
    cases p.decisions count dice vs <;> rfl
  | cons v us ih =>
    have hv : p.countBefore count v = count := countBefore_of_short (hus v List.mem_cons_self)
    rw [List.length_cons] at hc
    have hlt : p.countBefore count v < p.maxRetries := by omega
    obtain ⟨d, n, dice', ds', hone, hrest, rfl⟩ := decisions_cons_eq_ok hds
    obtain ⟨delay, rfl, rfl⟩ : ∃ delay, d = .retry (count + 1) delay ∧ n = count + 1 := by
      rw [onFailure_of_lt hlt, hv] at hone
      cases hb : p.backoff.delay (count + 1) dice with
      | error e =>
        rw [hb] at hone
        cases hone
      | ok x =>
        rw [hb] at hone
        cases hone
        exact ⟨x.1, rfl, rfl⟩
    obtain ⟨rs, dice'', rfl, happend⟩ :=
      ih (fun w hw => hus w (List.mem_cons_of_mem v hw)) (by omega) hrest
    refine ⟨(count + 1, delay) :: rs, dice'', rfl, fun vs => ?_⟩
    rw [List.cons_append, decisions_cons_of_ok _ hone, happend vs, List.length_cons,
      Nat.add_right_comm, Nat.add_assoc]
    cases p.decisions (count + (us.length + 1)) dice'' vs <;> rfl

/-- Once the maximum is reached, the next failure after a short uptime is fatal. -/
theorem decisions_of_short_snoc {us : List Duration} {u : Duration}
    {ds : List (RetryDecision × Nat)} (hus : ∀ u ∈ us, ¬ p.resetThreshold ≤ u)
    (hu : ¬ p.resetThreshold ≤ u) (hc : count + us.length = p.maxRetries)
    (hds : p.decisions count dice us = .ok ds) :
    ∃ rs : List (Nat × Duration), ds = rs.map retried ∧
      p.decisions count dice (us ++ [u]) = .ok (rs.map retried ++ [(.giveUp, p.maxRetries)]) := by
  obtain ⟨rs, dice', rfl, happend⟩ := decisions_of_short hus (Nat.le_of_eq hc) hds
  have hmax : p.maxRetries ≤ p.countBefore p.maxRetries u :=
    Nat.le_of_eq (countBefore_of_short hu).symm
  refine ⟨rs, rfl, ?_⟩
  rw [happend, hc, decisions_cons_of_ok [] (onFailure_of_le hmax), countBefore_of_short hu]
  rfl

/-- With a moderate back-off nothing overflows. -/
theorem decisions_of_fits (hb : p.backoff.Fits) (us : List Duration) :
    ∃ ds, p.decisions count dice us = .ok ds := by
  induction us generalizing count dice with
  | nil => exact ⟨[], rfl⟩
  | cons u us ih =>
    obtain ⟨d, n, dice', hone⟩ : ∃ d n dice', p.onFailure count u dice = .ok (d, n, dice') := by
      rcases Nat.lt_or_ge (p.countBefore count u) p.maxRetries with h | h
      · obtain ⟨delay, dice', hd⟩ := hb.delay (p.countBefore count u + 1) dice
        exact ⟨_, _, _, by rw [onFailure_of_lt h, hd]; rfl⟩
      · exact ⟨_, _, _, onFailure_of_le h⟩
    obtain ⟨ds, hds⟩ := @ih n dice'
    exact ⟨(d, n) :: ds, by rw [decisions_cons_of_ok us hone, hds]; rfl⟩

-- With a longer maximum, what is drawn at random may be one millisecond too much.
example : ({ backoff := .exponential (.ofMillis maxWord) (.ofMillis maxWord) } : RetryPolicy).decisions
    0 { rolls := [1] } [.ofMillis 1] = .error .addOverflow := by rfl

end RetryPolicy

end AppHost

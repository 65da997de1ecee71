import AppHost.Retry.Backoff

/-!
# Retry policy

A failure is followed by another attempt as long as fewer than `maxRetries` failures came in a
row. An attempt that stayed up for `resetThreshold` or longer makes the failures before it
forgotten. The decision depends on the count, the uptime and the dice alone.
-/

namespace AppHost

structure RetryPolicy where
  maxRetries : Nat := 3
  resetThreshold : Duration := .ofSecs 5
  backoff : Backoff := .default
  deriving DecidableEq

inductive RetryDecision where
  /-- Wait for `delay`, then make attempt number `attempt` of the present burst. -/
  | retry (attempt : Nat) (delay : Duration)
  | giveUp
  deriving DecidableEq

namespace RetryPolicy

/-- The count that a failure after `uptime` finds. -/
def countBefore (p : RetryPolicy) (count : Nat) (uptime : Duration) : Nat :=
  if p.resetThreshold ≤ uptime then 0 else count

/-- What to do after an attempt that lasted `uptime` has failed, and the new count. -/
def onFailure (p : RetryPolicy) (count : Nat) (uptime : Duration) (dice : Dice) :
    Except ArithmeticError (RetryDecision × Nat × Dice) :=
  let count := p.countBefore count uptime
  if count < p.maxRetries then do
    let (delay, dice) ← p.backoff.delay (count + 1) dice
    return (.retry (count + 1) delay, count + 1, dice)
  else return (.giveUp, count, dice)

/-- The decisions over failures with the given uptimes in turn, each with the count after it. -/
def decisions (p : RetryPolicy) (count : Nat) (dice : Dice) :
    List Duration → Except ArithmeticError (List (RetryDecision × Nat))
  | [] => return []
  | uptime :: uptimes => do
    let (d, count, dice) ← p.onFailure count uptime dice
    return (d, count) :: (← decisions p count dice uptimes)

def inspect (p : RetryPolicy) : String :=
  s!"RetryPolicy \x7b max_retries: {p.maxRetries}, " ++
    s!"reset_threshold: {p.resetThreshold.describe}, backoff: {p.backoff.inspect} \x7d"

theorem onFailure_count_le {p : RetryPolicy} {count : Nat} {uptime : Duration} {dice : Dice}
    {d : RetryDecision} {n : Nat} {dice' : Dice}
    (h : p.onFailure count uptime dice = .ok (d, n, dice')) : n ≤ max count p.maxRetries := by
  simp only [onFailure] at h
  have hc : p.countBefore count uptime ≤ count := by unfold countBefore; split <;> omega
  split at h
  · rename_i hlt
    cases hb : p.backoff.delay (p.countBefore count uptime + 1) dice with
    | error e => simp [hb, bind, Except.bind] at h
    | ok r =>
      simp only [hb, bind, Except.bind, pure, Except.pure, Except.ok.injEq, Prod.mk.injEq] at h
      omega
  · simp only [pure, Except.pure, Except.ok.injEq, Prod.mk.injEq] at h
    omega

end RetryPolicy

end AppHost

import AppHost.Proofs.Retry.Decisions
import Mathlib.Data.List.Induction

/-!
# Bursts of failures

Which retries are granted, and the count of failures that is left, depend on the uptimes alone; the
back-off and its dice only add the delays (`decisions_eq_scheduled`). A failure after a long uptime
begins a new burst, so that the n-th failure is told by its distance from the last of these, or from
the count at the beginning if there is none. A count never goes beyond the maximum by itself.
-/

namespace AppHost

/-- What a failure comes to, but for the delay: the number of the retry that it is granted, if it is
granted one, and the count of failures after it. -/
structure Grant where
  retry : Option Nat
  count : Nat
  deriving DecidableEq, Repr

namespace Grant

/-- The grant that a decision with the count after it comes from. -/
def ofDecision : RetryDecision × Nat → Grant
  | (.retry attempt _, count) => ⟨some attempt, count⟩
  | (.giveUp, count) => ⟨none, count⟩

/-- The decision, with the delay that the back-off tells for the retry. -/
def decision (b : Backoff) (dice : Dice) (g : Grant) :
    Except ArithmeticError ((RetryDecision × Nat) × Dice) :=
  match g.retry with
  | none => .ok ((.giveUp, g.count), dice)
  | some attempt => (b.delay attempt dice).map fun x => ((.retry attempt x.1, g.count), x.2)

/-- The decisions in turn. The first delay that does not fit its word ends them. -/
def scheduled (b : Backoff) (dice : Dice) :
    List Grant → Except ArithmeticError (List (RetryDecision × Nat))
  | [] => .ok []
  | g :: gs =>
    match g.decision b dice with
    | .error e => .error e
    | .ok (d, dice) => (scheduled b dice gs).map (d :: ·)

theorem ofDecision_of_decision {b : Backoff} {dice dice' : Dice} {g : Grant}
    {d : RetryDecision × Nat} (h : g.decision b dice = .ok (d, dice')) : ofDecision d = g := by
  obtain ⟨retry, count⟩ := g
  cases retry with
  | none =>
    cases h
    rfl
  | some attempt =>
    change (b.delay attempt dice).map _ = _ at h
    cases hd : b.delay attempt dice with
    | error e =>
      rw [hd] at h
      cases h
    | ok x =>
      rw [hd] at h
      cases h
      rfl

/-- Decisions that are made are those that were granted. -/
theorem map_ofDecision_of_scheduled {b : Backoff} {dice : Dice} {gs : List Grant}
    {ds : List (RetryDecision × Nat)} (h : scheduled b dice gs = .ok ds) :
    ds.map ofDecision = gs := by
  induction gs generalizing dice ds with
  | nil =>
    cases h
    rfl
  | cons g gs ih =>
    rw [scheduled] at h
    cases hd : g.decision b dice with
    | error e =>
      rw [hd] at h
      cases h
    | ok x =>
      simp only [hd] at h
      cases hs : scheduled b x.2 gs with
      | error e =>
        rw [hs] at h
        cases h
      | ok ds' =>
        rw [hs] at h
        cases h
        rw [List.map_cons, ofDecision_of_decision hd, ih hs]

end Grant

namespace RetryPolicy

open Grant

variable {p : RetryPolicy} {count n m : Nat} {u : Duration} {us : List Duration}

/-- What a failure comes to that finds `count` failures before it. -/
def grant (p : RetryPolicy) (count : Nat) (uptime : Duration) : Grant :=
  let count := p.countBefore count uptime
  if count < p.maxRetries then ⟨some (count + 1), count + 1⟩ else ⟨none, count⟩

def grants (p : RetryPolicy) (count : Nat) : List Duration → List Grant
  | [] => []
  | uptime :: uptimes =>
    let g := p.grant count uptime
    g :: p.grants g.count uptimes

/-- The count after failures with the given uptimes. -/
def countAfter (p : RetryPolicy) (count : Nat) (uptimes : List Duration) : Nat :=
  uptimes.foldl (fun count uptime => (p.grant count uptime).count) count

theorem onFailure_eq_decision (p : RetryPolicy) (count : Nat) (u : Duration) (dice : Dice) :
    p.onFailure count u dice =
      ((p.grant count u).decision p.backoff dice).map fun x => (x.1.1, x.1.2, x.2) := by
  rw [grant]
  split
  · rename_i h
    rw [onFailure_of_lt h]
    show _ = ((p.backoff.delay (p.countBefore count u + 1) dice).map _).map _
    cases p.backoff.delay (p.countBefore count u + 1) dice <;> rfl
  · rename_i h
    rw [onFailure_of_le (Nat.not_lt.mp h)]
    rfl

/-- The decisions are the grants with their delays. -/
theorem decisions_eq_scheduled (p : RetryPolicy) (count : Nat) (dice : Dice) (us : List Duration) :
    p.decisions count dice us = scheduled p.backoff dice (p.grants count us) := by
  induction us generalizing count dice with
  | nil => rfl
  | cons u us ih =>
    have hone := p.onFailure_eq_decision count u dice
    rw [grants, scheduled]
    cases hd : (p.grant count u).decision p.backoff dice with
    | error e =>
      rw [hd] at hone
      exact decisions_cons_of_error us hone
    | ok x =>
      rw [hd] at hone
      have hcount : x.1.2 = (p.grant count u).count := by
        rw [← ofDecision_of_decision hd]
        obtain ⟨⟨d, k⟩, dice'⟩ := x
        cases d <;> rfl
      rw [decisions_cons_of_ok us hone, ih, ← hcount]

theorem length_grants : (p.grants count us).length = us.length := by
  induction us generalizing count with
  | nil => rfl
  | cons u us ih => rw [grants, List.length_cons, List.length_cons, ih]

theorem getElem?_grants : (p.grants count us)[n]? =
    us[n]?.map fun u => p.grant (p.countAfter count (us.take n)) u := by
  induction us generalizing count n with
  | nil => rfl
  | cons u us ih =>
    cases n with
    | zero => rfl
    | succ n => rw [grants, List.getElem?_cons_succ, ih]; rfl

/-! ## Within a burst and between bursts -/

theorem grant_of_short (h : ¬ p.resetThreshold ≤ u) : p.grant count u =
    if count < p.maxRetries then ⟨some (count + 1), count + 1⟩ else ⟨none, count⟩ := by
  rw [grant, countBefore_of_short h]

theorem grant_of_long (h : p.resetThreshold ≤ u) : p.grant count u =
    if 0 < p.maxRetries then ⟨some 1, 1⟩ else ⟨none, 0⟩ := by
  rw [grant, countBefore, if_pos h]

/-- Within a burst the count grows up to the maximum. -/
theorem countAfter_of_short (h : ∀ u ∈ us, ¬ p.resetThreshold ≤ u) :
    p.countAfter count us = max count (min (count + us.length) p.maxRetries) := by
  induction us using List.reverseRecOn with
  | nil =>
    show count = _
    rw [List.length_nil]
    omega
  | append_singleton us u ih =>
    have hprefix := ih fun v hv => h v (List.mem_append_left _ hv)
    have hlast : ¬ p.resetThreshold ≤ u := h u (List.mem_append_right _ (List.mem_singleton_self u))
    rw [countAfter] at hprefix ⊢
    rw [List.foldl_append, hprefix, List.foldl_cons, List.foldl_nil, grant_of_short hlast,
      List.length_append, List.length_singleton]
    split <;> dsimp only <;> omega

/-- A failure after a long uptime is the first of its burst, whatever was before. -/
theorem countAfter_of_long {before after : List Duration} (h : p.resetThreshold ≤ u)
    (hs : ∀ u ∈ after, ¬ p.resetThreshold ≤ u) :
    p.countAfter count (before ++ u :: after) = min (after.length + 1) p.maxRetries := by
  have hfirst : p.countAfter count (before ++ u :: after) =
      p.countAfter (p.grant (p.countAfter count before) u).count after := by
    simp only [countAfter, List.foldl_append, List.foldl_cons]
  rw [hfirst, countAfter_of_short hs, grant_of_long h]
  split <;> dsimp only <;> omega

/-! ## The closed form -/

/-- What the `k`-th failure of a burst comes to that began with the count `c`. -/
def nthOfBurst (p : RetryPolicy) (c k : Nat) : Grant :=
  if c + k ≤ p.maxRetries then ⟨some (c + k), c + k⟩ else ⟨none, max c p.maxRetries⟩

/-- Of the uptimes up to the `n`-th, the `j`-th is the last long one. -/
structure LastReset (p : RetryPolicy) (us : List Duration) (n j : Nat) : Prop where
  le : j ≤ n
  long : ∃ u, us[j]? = some u ∧ p.resetThreshold ≤ u
  short : ∀ i u, j < i → i ≤ n → us[i]? = some u → ¬ p.resetThreshold ≤ u

/-- No uptime up to the `n`-th is long. -/
def Unreset (p : RetryPolicy) (us : List Duration) (n : Nat) : Prop :=
  ∀ i u, i ≤ n → us[i]? = some u → ¬ p.resetThreshold ≤ u

theorem lastReset_or_unreset (p : RetryPolicy) (us : List Duration) (n : Nat) :
    (∃ j, p.LastReset us n j) ∨ p.Unreset us n := by
  induction n with
  | zero =>
    by_cases h : ∃ u, us[0]? = some u ∧ p.resetThreshold ≤ u
    · exact .inl ⟨0, Nat.le_refl 0, h, fun i u h0 hi => by omega⟩
    · refine .inr fun i u hi hu hlong => h ⟨u, ?_, hlong⟩
      rw [← hu, Nat.le_zero.mp hi]
  | succ n ih =>
    by_cases h : ∃ u, us[n + 1]? = some u ∧ p.resetThreshold ≤ u
    · exact .inl ⟨n + 1, Nat.le_refl _, h, fun i u h0 hi => by omega⟩
    have hlast : ∀ i u, i = n + 1 → us[i]? = some u → ¬ p.resetThreshold ≤ u :=
      fun i u hi hu hlong => h ⟨u, hi ▸ hu, hlong⟩
    rcases ih with ⟨j, hj⟩ | hn
    · refine .inl ⟨j, Nat.le_succ_of_le hj.le, hj.long, fun i u hji hi hu => ?_⟩
      rcases Nat.lt_or_ge n i with hni | hin
      · exact hlast i u (by omega) hu
      · exact hj.short i u hji hin hu
    · refine .inr fun i u hi hu => ?_
      rcases Nat.lt_or_ge n i with hni | hin
      · exact hlast i u (by omega) hu
      · exact hn i u hin hu

theorem getElem?_grants_of_unreset (hn : n < us.length) (h : p.Unreset us n) :
    (p.grants count us)[n]? = some (p.nthOfBurst count (n + 1)) := by
  have hshort : ∀ u ∈ us.take n, ¬ p.resetThreshold ≤ u := by
    intro u hu
    obtain ⟨i, hi⟩ := List.mem_iff_getElem?.mp hu
    rw [List.getElem?_take] at hi
    split at hi
    · rename_i hin
      exact h i u (Nat.le_of_lt hin) hi
    · cases hi
  have hlast : ¬ p.resetThreshold ≤ us[n] := h n _ (Nat.le_refl n) (List.getElem?_eq_getElem hn)
  rw [getElem?_grants, List.getElem?_eq_getElem hn, Option.map_some, countAfter_of_short hshort,
    grant_of_short hlast, List.length_take_of_le (Nat.le_of_lt hn), nthOfBurst]
  grind

/-- The uptimes before the `n`-th, cut at the long one. -/
theorem take_eq_of_lastReset {j : Nat} (hj : us[j]? = some u) (hjn : j < n) :
    us.take n = us.take j ++ u :: (us.take n).drop (j + 1) := by
  have hget : (us.take n)[j]? = some u := by rw [List.getElem?_take, if_pos hjn, hj]
  obtain ⟨hlt, rfl⟩ := List.getElem?_eq_some_iff.mp hget
  calc us.take n = (us.take n).take j ++ (us.take n).drop j := (List.take_append_drop j _).symm
    _ = us.take j ++ (us.take n)[j] :: (us.take n).drop (j + 1) := by
      rw [List.take_take, Nat.min_eq_left (Nat.le_of_lt hjn), List.drop_eq_getElem_cons hlt]

theorem getElem?_grants_of_lastReset {j : Nat} (hn : n < us.length) (h : p.LastReset us n j) :
    (p.grants count us)[n]? = some (p.nthOfBurst 0 (n - j + 1)) := by
  obtain ⟨u, hu, hlong⟩ := h.long
  rcases Nat.eq_or_lt_of_le h.le with rfl | hjn
  · rw [getElem?_grants, hu, Option.map_some, grant_of_long hlong, nthOfBurst]
    grind
  have hshort : ∀ v ∈ (us.take n).drop (j + 1), ¬ p.resetThreshold ≤ v := by
    intro v hv
    obtain ⟨i, hi⟩ := List.mem_iff_getElem?.mp hv
    rw [List.getElem?_drop, List.getElem?_take] at hi
    split at hi
    · exact h.short (j + 1 + i) v (by omega) (by omega) hi
    · cases hi
  have hlast : ¬ p.resetThreshold ≤ us[n] :=
    h.short n _ hjn (Nat.le_refl n) (List.getElem?_eq_getElem hn)
  have hcount : p.countAfter count (us.take n) = min (n - j) p.maxRetries := by
    rw [take_eq_of_lastReset hu hjn, countAfter_of_long hlong hshort, List.length_drop,
      List.length_take_of_le (Nat.le_of_lt hn)]
    congr 1
    omega
  rw [getElem?_grants, List.getElem?_eq_getElem hn, Option.map_some, hcount, grant_of_short hlast,
    nthOfBurst]
  grind

/-! ## What every failure keeps -/

/-- The number of a retry is the count after it, and the budget bounds it. -/
theorem grant_bounds (p : RetryPolicy) (count : Nat) (u : Duration) : (p.grant count u).count ≤ max count p.maxRetries ∧
    ∀ k, (p.grant count u).retry = some k →
      k = (p.grant count u).count ∧ 0 < k ∧ k ≤ p.maxRetries := by
  have hle : p.countBefore count u ≤ count := countBefore_le
  rw [grant]
  split <;> dsimp only
  · exact ⟨by omega, fun k hk => by cases hk; omega⟩
  · exact ⟨by omega, fun k hk => by cases hk⟩

theorem grants_bounds {g : Grant} (hg : g ∈ p.grants count us) :
    g.count ≤ max count p.maxRetries ∧
      ∀ k, g.retry = some k → k = g.count ∧ 0 < k ∧ k ≤ p.maxRetries := by
  induction us generalizing count with
  | nil => cases hg
  | cons u us ih =>
    have hone := p.grant_bounds count u
    rw [grants, List.mem_cons] at hg
    rcases hg with rfl | hg
    · exact hone
    · obtain ⟨hcount, hretry⟩ := ih hg
      exact ⟨by omega, hretry⟩

/-- One failure's count is what the next one finds. -/
theorem getElem?_grants_succ {g : Grant} (hg : (p.grants count us)[n]? = some g)
    (hu : us[n + 1]? = some u) : (p.grants count us)[n + 1]? = some (p.grant g.count u) := by
  induction us generalizing count n with
  | nil => cases hu
  | cons v us ih =>
    cases n with
    | succ n => exact ih hg hu
    | zero =>
      cases hg
      rw [List.getElem?_cons_succ] at hu
      rw [grants, List.getElem?_cons_succ, getElem?_grants, hu]
      rfl

theorem le_of_grant_eq_none (h : (p.grant count u).retry = none) :
    p.maxRetries ≤ (p.grant count u).count := by
  rw [grant] at h ⊢
  split at h
  · cases h
  · rename_i hle
    rw [if_neg hle]
    exact Nat.not_lt.mp hle

/-- Once there is no retry left, there is none before a long uptime. -/
theorem grants_stay {g : Grant} (hg : (p.grants count us)[n]? = some g) (hnone : g.retry = none)
    (hnm : n ≤ m) (hm : m < us.length)
    (hshort : ∀ i u, n < i → i ≤ m → us[i]? = some u → ¬ p.resetThreshold ≤ u) :
    (p.grants count us)[m]? = some g := by
  have hle : p.maxRetries ≤ g.count := by
    rw [getElem?_grants, Option.map_eq_some_iff] at hg
    obtain ⟨u, -, rfl⟩ := hg
    exact le_of_grant_eq_none hnone
  induction hnm with
  | refl => exact hg
  | @step m hnm ih =>
    have hbefore : (p.grants count us)[m]? = some g :=
      ih (Nat.lt_of_succ_lt hm) fun i u hni him => hshort i u hni (Nat.le_succ_of_le him)
    have hu : us[m + 1]? = some us[m + 1] := List.getElem?_eq_getElem hm
    rw [getElem?_grants_succ hbefore hu,
      grant_of_short (hshort (m + 1) _ (Nat.lt_succ_of_le hnm) (Nat.le_refl _) hu),
      if_neg (Nat.not_lt.mpr hle), ← hnone]

/-- **Which failures are followed by a retry is told by the distance to the last long uptime.** The
decisions are exactly these grants with the delays that the back-off tells in turn; what the grants
are depends on neither, and only a delay that does not fit its word can end them early, which a
moderate back-off does not come to. -/
theorem decisions_since_reset (p : RetryPolicy) (c : Nat) (dice : Dice) (us : List Duration) :
    p.decisions c dice us = scheduled p.backoff dice (p.grants c us) ∧
    (∀ ds, p.decisions c dice us = .ok ds → ds.map ofDecision = p.grants c us) ∧
    (p.backoff.Fits → ∃ ds, p.decisions c dice us = .ok ds) ∧
    (p.grants c us).length = us.length ∧
    (∀ n, (∃ j, p.LastReset us n j) ∨ p.Unreset us n) ∧
    (∀ n < us.length, ∀ j, p.LastReset us n j → (p.grants c us)[n]? = some
      (if n - j < p.maxRetries then ⟨some (n - j + 1), n - j + 1⟩ else ⟨none, p.maxRetries⟩)) ∧
    (∀ n < us.length, p.Unreset us n → (p.grants c us)[n]? = some
      (if c + (n + 1) ≤ p.maxRetries then ⟨some (c + (n + 1)), c + (n + 1)⟩
        else ⟨none, max c p.maxRetries⟩)) ∧
    (∀ n g m, (p.grants c us)[n]? = some g → g.retry = none → n ≤ m → m < us.length →
      (∀ i u, n < i → i ≤ m → us[i]? = some u → ¬ p.resetThreshold ≤ u) →
      (p.grants c us)[m]? = some g) ∧
    (∀ g ∈ p.grants c us, g.count ≤ max c p.maxRetries ∧
      ∀ k, g.retry = some k → k = g.count ∧ 0 < k ∧ k ≤ p.maxRetries) ∧
    (p.maxRetries = 0 → ∀ g ∈ p.grants c us, g.retry = none) := by
  have hdecisions := p.decisions_eq_scheduled c dice us
  refine ⟨hdecisions, ?_, fun hb => decisions_of_fits hb us, length_grants,
    lastReset_or_unreset p us, ?_, ?_, ?_, fun g hg => grants_bounds hg, ?_⟩
  · intro ds hds
    exact map_ofDecision_of_scheduled (hdecisions ▸ hds)
  · intro n hn j hj
    rw [getElem?_grants_of_lastReset hn hj, nthOfBurst]
    grind
  · intro n hn h
    exact getElem?_grants_of_unreset hn h
  · intro n g m hg hnone hnm hm hshort
    exact grants_stay hg hnone hnm hm hshort
  · intro hzero g hg
    obtain ⟨-, hretry⟩ := grants_bounds hg
    cases hr : g.retry with
    | none => rfl
    | some k =>
      obtain ⟨-, hpos, hle⟩ := hretry k hr
      omega

-- A count beyond the maximum stays as it is until a long uptime.
example : ({ maxRetries := 2 } : RetryPolicy).grants 7
    [.ofSecs 1, .ofSecs 5, .ofSecs 1, .ofSecs 1] =
      [⟨none, 7⟩, ⟨some 1, 1⟩, ⟨some 2, 2⟩, ⟨none, 2⟩] := by decide

end RetryPolicy

end AppHost

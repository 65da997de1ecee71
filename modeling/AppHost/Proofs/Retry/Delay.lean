import AppHost.Retry.Backoff
import Mathlib.Algebra.Group.Nat.Defs

/-!
# Delays that double

A delay that doubles is counted in whole milliseconds and in words. The saturating power and
product are exact below any maximum that fits a word (`capped_eq`), so that they never show in a
delay (`delayMs_saturates_unseen`): what is waited is `counted` and what is drawn on top of it
(`delay_of_fits`), unless that sum leaves its word (`delay_of_overflow`). `meant` is the span that
the two durations tell, to the nanosecond. The two agree up to a millisecond and the tenth exactly if
counting loses nothing (`honours_iff`): neither the part of the base below a millisecond, which is
cut off before it is doubled, nor what does not fit a word.
-/

namespace AppHost

theorem maxWord_eq : maxWord = 2 ^ 64 - 1 := by decide

namespace Duration

theorem millisWord_le (d : Duration) : d.millisWord ≤ maxWord :=
  Nat.le_sub_one_of_lt (Nat.mod_lt _ (by decide))

theorem millisWord_le_millis (d : Duration) : d.millisWord ≤ d.millis := Nat.mod_le _ _

theorem millisWord_of_le {d : Duration} (h : d.millis ≤ maxWord) : d.millisWord = d.millis :=
  Nat.mod_eq_of_lt (Nat.lt_of_le_of_lt h (by decide))

/-- Whole milliseconds, and the rest in nanoseconds. -/
theorem toNanos_eq (d : Duration) : d.toNanos = 1000000 * d.millis + d.nanos % 1000000 := by
  simp only [millis, toNanos]
  omega

end Duration

namespace Backoff

variable {base max : Duration} {n : Nat} {dice : Dice}

/-! ## Words -/

theorem powWord_eq (n : Nat) : powWord n = min (2 ^ n) maxWord := by
  rw [powWord, maxWord_eq]
  split
  · have hle : 2 ^ n ≤ 2 ^ 63 := Nat.pow_le_pow_right (by decide) (by omega)
    rw [Nat.one_shiftLeft]
    omega
  · have hle : 2 ^ 64 ≤ 2 ^ n := Nat.pow_le_pow_right (by decide) (by omega)
    omega

/-- Where the factor has stopped at the largest word, the product stops there too. -/
theorem mulWord_powWord (a n : Nat) : mulWord a (powWord n) = min (a * 2 ^ n) maxWord := by
  rw [mulWord, powWord_eq]
  rcases Nat.le_total (2 ^ n) maxWord with h | h
  · rw [Nat.min_eq_left h]
  · rw [Nat.min_eq_right h]
    rcases Nat.eq_zero_or_pos a with rfl | hpos
    · rw [Nat.zero_mul, Nat.zero_mul]
    · have hword : maxWord ≤ a * maxWord := Nat.le_mul_of_pos_left _ hpos
      have hexact : a * maxWord ≤ a * 2 ^ n := Nat.mul_le_mul_left a h
      omega

/-- Neither the power nor the product shows below a maximum that fits a word. -/
theorem capped_eq (attempt baseMs : Nat) {maxMs : Nat} (h : maxMs ≤ maxWord) :
    capped attempt baseMs maxMs = min (baseMs * 2 ^ (attempt - 1)) maxMs := by
  rw [capped, mulWord_powWord]
  omega

/-! ## What is drawn -/

/-- What is drawn on top of `ms` milliseconds. -/
def jitter (ms : Nat) (dice : Dice) : Nat := if 0 < ms / 10 then (dice.below (ms / 10)).1 else 0

/-- The dice after that. -/
def thrown (ms : Nat) (dice : Dice) : Dice :=
  if 0 < ms / 10 then (dice.below (ms / 10)).2 else dice

theorem jitter_le (ms : Nat) (dice : Dice) : jitter ms dice ≤ ms / 10 - 1 := by
  rw [jitter]
  split
  · exact Nat.le_sub_one_of_lt (dice.below_lt ‹_›)
  · exact Nat.zero_le _

/-- Every number below a tenth may be drawn. -/
theorem exists_jitter_eq {ms k : Nat} (h : k ≤ ms / 10 - 1) : ∃ dice, jitter ms dice = k := by
  refine ⟨{ rolls := [k] }, ?_⟩
  rw [jitter]
  split
  · show k % (ms / 10) = k
    exact Nat.mod_eq_of_lt (by omega)
  · omega

theorem delayMs_eq {attempt : Nat} (h : attempt ≠ 0) (baseMs maxMs : Nat) (dice : Dice) :
    let ms := capped attempt baseMs maxMs
    delayMs attempt baseMs maxMs dice =
      if ms + jitter ms dice ≤ maxWord then .ok (ms + jitter ms dice, thrown ms dice)
      else .error .addOverflow := by
  intro ms
  by_cases hdraw : 0 < ms / 10
  · simp only [delayMs, if_neg h, jitter, thrown, ms, if_pos hdraw]
  · simp only [delayMs, if_neg h, jitter, thrown, ms, if_neg hdraw]

/-! ## Counts in words -/

theorem jitter_of_lt {ms : Nat} (h : ms < 10) (dice : Dice) : jitter ms dice = 0 :=
  if_neg (by omega)

theorem thrown_of_lt {ms : Nat} (h : ms < 10) (dice : Dice) : thrown ms dice = dice :=
  if_neg (by omega)

/-- From ten milliseconds on something is drawn, once. -/
theorem below_of_le {ms : Nat} (h : 10 ≤ ms) (dice : Dice) :
    (jitter ms dice, thrown ms dice) = dice.below (ms / 10) := by
  have hdraw : 0 < ms / 10 := by omega
  rw [jitter, thrown, if_pos hdraw, if_pos hdraw]

theorem capped_le_capped (baseMs : Nat) {maxMs a b : Nat} (hmax : maxMs ≤ maxWord) (h : a ≤ b) :
    capped a baseMs maxMs ≤ capped b baseMs maxMs := by
  have hpow : baseMs * 2 ^ (a - 1) ≤ baseMs * 2 ^ (b - 1) :=
    Nat.mul_le_mul_left _ (Nat.pow_le_pow_right (by decide) (by omega))
  rw [capped_eq a baseMs hmax, capped_eq b baseMs hmax]
  omega

/-- A delay that has reached the maximum stays there. -/
theorem capped_eq_max {baseMs maxMs a b : Nat} (hmax : maxMs ≤ maxWord) (h : a ≤ b)
    (ha : capped a baseMs maxMs = maxMs) : capped b baseMs maxMs = maxMs := by
  have hle : capped a baseMs maxMs ≤ capped b baseMs maxMs := capped_le_capped baseMs hmax h
  rw [ha] at hle
  exact Nat.le_antisymm (Nat.min_le_right _ _) hle

/-- **Saturation never shows in a delay.** Before every retry, and for a maximum that fits a 64-bit
word, the milliseconds are those of unbounded arithmetic: the base, doubled for every retry before
this one, or the maximum if that is less. Something is drawn exactly if they are ten or more, from
below a tenth of them. There is no delay exactly if the sum with what is drawn does not fit the
word; else the delay is that sum. Before later retries the milliseconds are never fewer, and once
they are the maximum they stay so. -/
theorem delayMs_saturates_unseen (baseMs : Nat) {attempt maxMs : Nat} (hattempt : 1 ≤ attempt)
    (hmax : maxMs < 2 ^ 64) :
    let ms := min (baseMs * 2 ^ (attempt - 1)) maxMs
    capped attempt baseMs maxMs = ms ∧
    (∀ dice, ∃ drawn dice',
      (ms < 10 → drawn = 0 ∧ dice' = dice) ∧
      (10 ≤ ms → drawn < ms / 10 ∧ (drawn, dice') = dice.below (ms / 10)) ∧
      (dice'.drawn = dice.drawn + 1 ↔ 10 ≤ ms) ∧
      (ms + drawn < 2 ^ 64 → delayMs attempt baseMs maxMs dice = .ok (ms + drawn, dice')) ∧
      (2 ^ 64 ≤ ms + drawn → delayMs attempt baseMs maxMs dice = .error .addOverflow)) ∧
    ∀ later, attempt ≤ later →
      ms ≤ capped later baseMs maxMs ∧ (ms = maxMs → capped later baseMs maxMs = maxMs) := by
  intro ms
  have hword : maxMs ≤ maxWord := by
    rw [maxWord_eq]
    omega
  have hms : capped attempt baseMs maxMs = ms := capped_eq attempt baseMs hword
  refine ⟨hms, fun dice => ⟨jitter ms dice, thrown ms dice, fun h => ?_, fun h => ?_, ?_, fun h => ?_,
    fun h => ?_⟩, fun later hlater => ⟨?_, fun h => ?_⟩⟩
  · exact ⟨jitter_of_lt h dice, thrown_of_lt h dice⟩
  · have hdrawn := jitter_le ms dice
    exact ⟨by omega, below_of_le h dice⟩
  · rcases Nat.lt_or_ge ms 10 with h | h
    · rw [thrown_of_lt h]
      omega
    · rw [show thrown ms dice = (dice.below (ms / 10)).2 from congrArg Prod.snd (below_of_le h dice)]
      exact iff_of_true rfl h
  · have hfits : ms + jitter ms dice ≤ maxWord := by
      rw [maxWord_eq]
      omega
    rw [delayMs_eq (by omega), hms, if_pos hfits]
  · have hover : ¬ ms + jitter ms dice ≤ maxWord := by
      rw [maxWord_eq]
      omega
    rw [delayMs_eq (by omega), hms, if_neg hover]
  · rw [← hms]
    exact capped_le_capped baseMs hword hlater
  · exact capped_eq_max hword hlater (hms.trans h)

/-- The power does not fit a word at the 65th retry, and the maximum is the largest word. -/
theorem delayMs_saturates_unseen_power :
    1 ≤ 65 ∧ 2 ^ 64 - 1 < 2 ^ 64 ∧ capped 65 1 (2 ^ 64 - 1) = 2 ^ 64 - 1 ∧
      delayMs 65 1 (2 ^ 64 - 1) { rolls := [1] } = .error .addOverflow ∧
      ∀ later, 65 ≤ later → capped later 1 (2 ^ 64 - 1) = 2 ^ 64 - 1 := by
  have hattempt : 1 ≤ 65 := by decide
  have hmax : 2 ^ 64 - 1 < 2 ^ 64 := by decide
  obtain ⟨hms, hdelay, hlater⟩ := delayMs_saturates_unseen 1 hattempt hmax
  refine ⟨hattempt, hmax, hms, ?_, fun later h => (hlater later h).2 rfl⟩
  obtain ⟨drawn, dice', -, hdrawn, -, -, hover⟩ := hdelay { rolls := [1] }
  obtain ⟨-, hbelow⟩ := hdrawn (by decide)
  obtain rfl : drawn = 1 := congrArg Prod.fst hbelow
  exact hover (by decide)

/-! ## What is waited -/

/-- The milliseconds before retry number `n + 1`, but for those that are drawn. -/
def counted (base max : Duration) (n : Nat) : Nat := min (base.millisWord * 2 ^ n) max.millisWord

theorem delayMs_of_exponential (base max : Duration) (n : Nat) (dice : Dice) :
    let ms := counted base max n
    delayMs (n + 1) base.millisWord max.millisWord dice =
      if ms + jitter ms dice ≤ maxWord then .ok (ms + jitter ms dice, thrown ms dice)
      else .error .addOverflow := by
  have hcapped : capped (n + 1) base.millisWord max.millisWord = counted base max n :=
    capped_eq _ _ max.millisWord_le
  rw [← hcapped]
  exact delayMs_eq n.succ_ne_zero _ _ dice

theorem delay_of_fits
    (h : counted base max n + jitter (counted base max n) dice ≤ maxWord) :
    ∃ d, (exponential base max).delay (n + 1) dice = .ok (d, thrown (counted base max n) dice) ∧
      d.toNanos = (counted base max n + jitter (counted base max n) dice) * 1000000 := by
  have hlt : counted base max n + jitter (counted base max n) dice < 1000 <<< 64 :=
    Nat.lt_of_le_of_lt h (by decide)
  refine ⟨.ofMillis _ hlt, ?_, Duration.toNanos_ofMillis _ hlt⟩
  simp only [delay, delayMs_of_exponential, if_pos h, bind, Except.bind, dif_pos hlt]
  rfl

theorem delay_of_overflow
    (h : maxWord < counted base max n + jitter (counted base max n) dice) :
    (exponential base max).delay (n + 1) dice = .error .addOverflow := by
  simp only [delay, delayMs_of_exponential, if_neg (Nat.not_le.mpr h), bind, Except.bind]

/-! ## What is meant -/

/-- The nanoseconds that are meant before retry number `n + 1`, but for those that are drawn. -/
def meant (base max : Duration) (n : Nat) : Nat := min (base.toNanos * 2 ^ n) max.toNanos

/-- In whole milliseconds, the doubled part of the base below a millisecond may come to some. -/
theorem meant_div (base max : Duration) (n : Nat) : meant base max n / 1000000 =
    min (base.millis * 2 ^ n + base.nanos % 1000000 * 2 ^ n / 1000000) max.millis := by
  have hbase : base.toNanos * 2 ^ n / 1000000 =
      base.millis * 2 ^ n + base.nanos % 1000000 * 2 ^ n / 1000000 := by
    rw [base.toNanos_eq, Nat.add_mul, Nat.mul_assoc, Nat.mul_add_div (by decide)]
  rw [meant, ← hbase, Duration.millis]
  omega

/-- Counting rounds down. -/
theorem counted_le_meant_div (base max : Duration) (n : Nat) :
    counted base max n ≤ meant base max n / 1000000 := by
  have hbase : base.millisWord * 2 ^ n ≤ base.millis * 2 ^ n :=
    Nat.mul_le_mul_right _ base.millisWord_le_millis
  have hmax : max.millisWord ≤ max.millis := max.millisWord_le_millis
  rw [meant_div, counted]
  omega

/-- Counting loses nothing if it reaches a maximum that fits a word; or if the base fits its own and
its part below a millisecond does not come to one, unless a maximum that does not fit gets in the
way. -/
theorem meant_div_eq_counted_iff (base max : Duration) (n : Nat) :
    meant base max n / 1000000 = counted base max n ↔
      (max.millis ≤ maxWord ∧ max.millis ≤ base.millisWord * 2 ^ n) ∨
      (base.millis ≤ maxWord ∧ base.nanos % 1000000 * 2 ^ n < 1000000 ∧
        (max.millis ≤ maxWord ∨ base.millis * 2 ^ n ≤ max.millisWord)) := by
  have hlost : base.nanos % 1000000 * 2 ^ n < 1000000 ↔
      base.nanos % 1000000 * 2 ^ n / 1000000 = 0 := by
    rw [Nat.div_eq_zero_iff]
    omega
  have hword : max.millisWord ≤ maxWord := max.millisWord_le
  have hgrows : base.millis ≤ base.millis * 2 ^ n := Nat.le_mul_of_pos_right _ (Nat.two_pow_pos n)
  have hcut : base.millisWord * 2 ^ n ≤ base.millis * 2 ^ n :=
    Nat.mul_le_mul_right _ base.millisWord_le_millis
  rw [meant_div, counted, hlost]
  by_cases hb : base.millis ≤ maxWord
  · rw [Duration.millisWord_of_le hb]
    by_cases hm : max.millis ≤ maxWord
    · rw [Duration.millisWord_of_le hm]
      omega
    · omega
  · by_cases hm : max.millis ≤ maxWord
    · rw [Duration.millisWord_of_le hm]
      omega
    · omega

/-- Whatever is drawn, there is a delay before retry number `n + 1`, and it is the one that is meant
up to a millisecond and the tenth. -/
def Honours (base max : Duration) (n : Nat) : Prop :=
  ∀ dice, ∃ d dice', (exponential base max).delay (n + 1) dice = .ok (d, dice') ∧
    meant base max n < d.toNanos + 1000000 ∧
    10 * d.toNanos < 11 * meant base max n + 10 * 1000000

/-- The upper bound always holds. -/
theorem toNanos_le_of_drawn (base max : Duration) (n : Nat) (dice : Dice) :
    10 * ((counted base max n + jitter (counted base max n) dice) * 1000000) ≤
      11 * meant base max n := by
  have hle := counted_le_meant_div base max n
  have hdrawn := jitter_le (counted base max n) dice
  omega

theorem honours_iff : Honours base max n ↔
    counted base max n + (counted base max n / 10 - 1) ≤ maxWord ∧
      meant base max n / 1000000 = counted base max n := by
  have hle := counted_le_meant_div base max n
  constructor
  · intro h
    constructor
    · obtain ⟨dice, hdice⟩ := exists_jitter_eq (Nat.le_refl (counted base max n / 10 - 1))
      rw [← hdice]
      refine Nat.le_of_not_lt fun hover => ?_
      obtain ⟨d, dice', hd, -⟩ := h dice
      rw [delay_of_overflow hover] at hd
      cases hd
    · obtain ⟨dice, hdice⟩ := exists_jitter_eq (Nat.zero_le (counted base max n / 10 - 1))
      have hword : counted base max n ≤ maxWord :=
        Nat.le_trans (Nat.min_le_right _ _) max.millisWord_le
      have hfits : counted base max n + jitter (counted base max n) dice ≤ maxWord := by
        rw [hdice, Nat.add_zero]
        exact hword
      obtain ⟨d, hd, hnanos⟩ := delay_of_fits hfits
      obtain ⟨d', dice', hd', hlower, -⟩ := h dice
      rw [hd] at hd'
      cases hd'
      rw [hnanos, hdice] at hlower
      omega
  · rintro ⟨hroom, hsame⟩ dice
    have hdrawn := jitter_le (counted base max n) dice
    have hupper := toNanos_le_of_drawn base max n dice
    have hfits : counted base max n + jitter (counted base max n) dice ≤ maxWord := by omega
    obtain ⟨d, hd, hnanos⟩ := delay_of_fits hfits
    refine ⟨d, _, hd, ?_, ?_⟩
    · omega
    · omega

/-- **A doubling delay is the one that is meant, unless counting it in milliseconds and words loses
something.** What is waited is what is counted and what is drawn, never more than a tenth beyond
what is meant, and there is no delay exactly if that does not fit a word. So the delay is as meant
for all that may be drawn if and only if the largest draw leaves it in its word and counting loses
nothing. Durations of whole milliseconds that leave room for a tenth are safe. -/
theorem honoured_unless_lost (base max : Duration) (n : Nat) :
    let ms := counted base max n
    (∀ dice,
      (ms + jitter ms dice ≤ maxWord → ∃ d,
        (exponential base max).delay (n + 1) dice = .ok (d, thrown ms dice) ∧
        d.toNanos = (ms + jitter ms dice) * 1000000 ∧ 10 * d.toNanos ≤ 11 * meant base max n) ∧
      (maxWord < ms + jitter ms dice →
        (exponential base max).delay (n + 1) dice = .error .addOverflow)) ∧
    (Honours base max n ↔
      ms + (ms / 10 - 1) ≤ maxWord ∧ meant base max n / 1000000 = ms) ∧
    (meant base max n / 1000000 = ms ↔
      (max.millis ≤ maxWord ∧ max.millis ≤ base.millisWord * 2 ^ n) ∨
      (base.millis ≤ maxWord ∧ base.nanos % 1000000 * 2 ^ n < 1000000 ∧
        (max.millis ≤ maxWord ∨ base.millis * 2 ^ n ≤ max.millisWord))) ∧
    (base.nanos % 1000000 = 0 → base.millis ≤ maxWord →
      max.millis + max.millis / 10 ≤ maxWord → Honours base max n) := by
  intro ms
  have hsame := meant_div_eq_counted_iff base max n
  refine ⟨fun dice => ⟨fun h => ?_, delay_of_overflow⟩, honours_iff, hsame, fun hwhole hb hm => ?_⟩
  · obtain ⟨d, hd, hnanos⟩ := delay_of_fits h
    exact ⟨d, hd, hnanos, hnanos ▸ toNanos_le_of_drawn base max n dice⟩
  · have hle : ms ≤ max.millis := Nat.le_trans (Nat.min_le_right _ _) max.millisWord_le_millis
    refine honours_iff.mpr ⟨by omega, hsame.mpr (.inr ⟨hb, ?_, .inl (by omega)⟩)⟩
    rw [hwhole, Nat.zero_mul]
    decide

-- A base below a millisecond is never doubled, and one that does not fit a word counts for nothing.
example : (exponential ⟨0, 900000, by decide, by decide⟩ (.ofSecs 60)).delay 11 {} =
    .ok (.ofMillis 0, {}) := by rfl

example : (exponential (.ofMillis (maxWord + 1)) (.ofMillis (maxWord + 1))).delay 1 {} =
    .ok (.ofMillis 0, {}) := by rfl

end Backoff

end AppHost

/-!
# Durations

Spans of time with nanosecond resolution: whole seconds in a 64-bit word, and the rest in
nanoseconds. Timers and reports see them in milliseconds, rounded in the direction each needs.
-/

namespace AppHost

structure Duration where
  secs : Nat
  nanos : Nat := 0
  secs_lt : secs < 1 <<< 64 := by decide
  nanos_lt : nanos < 1000000000 := by decide
  deriving DecidableEq

namespace Duration

-- The literal is the left factor: products unfold along the right one.
def toNanos (d : Duration) : Nat := 1000000000 * d.secs + d.nanos

theorem ext_toNanos {a b : Duration} (h : a.toNanos = b.toNanos) : a = b := by
  obtain ⟨s, n, hs, hn⟩ := a
  obtain ⟨t, m, ht, hm⟩ := b
  simp only [toNanos] at h
  have h1 : s = t := by omega
  subst h1
  have h2 : n = m := by omega
  subst h2
  rfl

instance : LE Duration := ⟨fun a b => a.toNanos ≤ b.toNanos⟩

instance (a b : Duration) : Decidable (a ≤ b) := inferInstanceAs (Decidable (a.toNanos ≤ b.toNanos))

theorem le_def {a b : Duration} : a ≤ b ↔ a.toNanos ≤ b.toNanos := Iff.rfl

/-- The span of `s` seconds. -/
def ofSecs (s : UInt64) : Duration := ⟨s.toNat, 0, s.toNat_lt, by decide⟩

/-- The span of `ms` milliseconds; any count whose seconds fit a word has one. -/
def ofMillis (ms : Nat) (h : ms < 1000 <<< 64 := by decide) : Duration :=
  ⟨ms / 1000, 1000000 * (ms % 1000), by omega, by omega⟩

/-- Elapsed milliseconds, rounded down. -/
def millis (d : Duration) : Nat := d.toNanos / 1000000

/-- The low 64 bits of the milliseconds, the form in which counts are stored and logged. -/
def millisWord (d : Duration) : Nat := d.millis % 1 <<< 64

/-- Milliseconds rounded up: a timer never fires early. -/
def timerTicks (d : Duration) : Nat := (d.toNanos + 999999) / 1000000

@[simp] theorem toNanos_ofMillis (ms : Nat) (h : ms < 1000 <<< 64) :
    (ofMillis ms h).toNanos = ms * 1000000 := by
  simp only [toNanos, ofMillis]; omega

@[simp] theorem millis_ofMillis (ms : Nat) (h : ms < 1000 <<< 64) :
    (ofMillis ms h).millis = ms := by
  simp only [millis, toNanos_ofMillis]; omega

@[simp] theorem timerTicks_ofMillis (ms : Nat) (h : ms < 1000 <<< 64) :
    (ofMillis ms h).timerTicks = ms := by
  simp only [timerTicks, toNanos_ofMillis]; omega

/-- `n` with zeros in front up to `width` digits. -/
def padDigits (width n : Nat) : List Char :=
  let ds := Nat.toDigits 10 n
  List.replicate (width - ds.length) '0' ++ ds

def fraction (width n : Nat) : String :=
  match ((padDigits width n).reverse.dropWhile (· = '0')).reverse with
  | [] => ""
  | ds => "." ++ String.ofList ds

/-- The largest unit of s, ms, µs and ns that is not zero, with the rest as a decimal fraction. -/
def describe (d : Duration) : String :=
  if 0 < d.secs then s!"{d.secs}{fraction 9 d.nanos}s"
  else if 1000000 ≤ d.nanos then s!"{d.nanos / 1000000}{fraction 6 (d.nanos % 1000000)}ms"
  else if 1000 ≤ d.nanos then s!"{d.nanos / 1000}{fraction 3 (d.nanos % 1000)}µs"
  else s!"{d.nanos}ns"

example : (ofMillis 5000).describe = "5s" := by decide +kernel

example : (ofMillis 1500).describe = "1.5s" := by decide +kernel

end Duration

end AppHost

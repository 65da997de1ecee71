import AppHost.Duration

/-!
# Back-off

How long to wait before the next attempt: always the same span, or one that doubles with every
attempt up to a maximum and then gets up to a tenth on top at random. Milliseconds are counted in
64-bit words: powers and products stop at the largest word, and a sum beyond it is a failure of
its own.
-/

namespace AppHost

/-- A source of random numbers: what it will roll, over and over, and how often it was asked. -/
structure Dice where
  rolls : List Nat := []
  drawn : Nat := 0
  deriving DecidableEq, Repr

namespace Dice

def roll (d : Dice) : Nat := (d.rolls[d.drawn % d.rolls.length]?).getD 0

/-- A number below `n`. -/
def below (d : Dice) (n : Nat) : Nat × Dice := (d.roll % n, { d with drawn := d.drawn + 1 })

theorem below_lt (d : Dice) {n : Nat} (h : 0 < n) : (d.below n).1 < n := Nat.mod_lt _ h

end Dice

/-- The largest 64-bit word. -/
def maxWord : Nat := 1 <<< 64 - 1

/-- A sum that does not fit its word. -/
inductive ArithmeticError where
  | addOverflow
  deriving DecidableEq, Repr

namespace ArithmeticError

def message : ArithmeticError → String
  | addOverflow => "attempt to add with overflow"

end ArithmeticError

inductive Backoff where
  /-- The same delay before every retry. -/
  | fixed (delay : Duration)
  /-- A delay that doubles from `base` up to `max`, plus up to a tenth at random. -/
  | exponential (base max : Duration)
  deriving DecidableEq

namespace Backoff

/-- `2 ^ n`, or the largest word if that is smaller. -/
def powWord (n : Nat) : Nat := if n < 64 then 1 <<< n else maxWord

/-- `a * b`, or the largest word if that is smaller. -/
def mulWord (a b : Nat) : Nat := min (a * b) maxWord

/-- Milliseconds before retry number `attempt`, counted from 1, without the random part. -/
def capped (attempt baseMs maxMs : Nat) : Nat :=
  min (mulWord baseMs (powWord (attempt - 1))) maxMs

/-- Milliseconds before retry number `attempt`; there is nothing to wait for before the first
attempt of all. -/
def delayMs (attempt baseMs maxMs : Nat) (dice : Dice) : Except ArithmeticError (Nat × Dice) :=
  if attempt = 0 then .ok (0, dice)
  else
    let ms := capped attempt baseMs maxMs
    let (jitter, dice) := if 0 < ms / 10 then dice.below (ms / 10) else (0, dice)
    if ms + jitter ≤ maxWord then .ok (ms + jitter, dice) else .error .addOverflow

def delay (b : Backoff) (attempt : Nat) (dice : Dice) : Except ArithmeticError (Duration × Dice) :=
  match b with
  | .fixed d => .ok (d, dice)
  | .exponential base max => do
    let (ms, dice) ← delayMs attempt base.millisWord max.millisWord dice
    if h : ms < 1000 <<< 64 then return (.ofMillis ms h, dice) else throw .addOverflow

def default : Backoff := .fixed (.ofSecs 1)

def inspect : Backoff → String
  | .fixed d => s!"Fixed({d.describe})"
  | .exponential base max =>
    s!"Exponential \x7b base: {base.describe}, max: {max.describe} \x7d"

end Backoff

end AppHost

import AppHost.Data
import AppHost.Toml.Lexeme

/-!
# Numbers and moments of TOML

Integers are decimal, or in base 16, 8 or 2 behind a mark, and fit a signed 64-bit word. Single
underscores may stand between digits. A number with a fraction or an exponent is real and must not
be too large to be one. A moment is a date, a time of day, or both.
-/

namespace AppHost.Toml

/-- What a text begins with, and what follows that. -/
abbrev Cut := List Char × List Char

/-! ## Integers -/

/-- Digits with single underscores between them; none at all is no failure. -/
def moreDigits? (isDigit : Char → Bool) : List Char → Option Cut
  | '_' :: d :: cs =>
    if isDigit d then (moreDigits? isDigit cs).map fun (ds, rest) => (d :: ds, rest) else none
  | ['_'] => none
  | d :: cs =>
    if isDigit d then (moreDigits? isDigit cs).map fun (ds, rest) => (d :: ds, rest)
    else some ([], d :: cs)
  | [] => some ([], [])

/-- At least one digit. -/
def digits? (isDigit : Char → Bool) : List Char → Option Cut
  | [] => none
  | d :: cs =>
    if isDigit d then (moreDigits? isDigit cs).map fun (ds, rest) => (d :: ds, rest) else none

def sign : List Char → Cut
  | '+' :: cs => (['+'], cs)
  | '-' :: cs => (['-'], cs)
  | cs => ([], cs)

/-- Digits of which a zero is the only one if it is the first. -/
def wholeDigits? : List Char → Option Cut
  | '0' :: cs => some (['0'], cs)
  | cs => digits? Text.isDigit cs

def digitsValue (base : Nat) (ds : List Char) : Nat :=
  ds.foldl (fun n d => n * base + (Text.hexValue? d).getD 0) 0

/-- `n` as a signed 64-bit word. -/
def word? (n : Int) : Option Int :=
  if -0x8000000000000000 ≤ n ∧ n < 0x8000000000000000 then some n else none

def isHexDigit (c : Char) : Bool := (Text.hexValue? c).isSome

def isOctalDigit (c : Char) : Bool := '0' ≤ c && c ≤ '7'

def isBinaryDigit (c : Char) : Bool := c = '0' || c = '1'

/-- An integer in the given base, read after its mark. -/
def marked? (base : Nat) (isDigit : Char → Bool) (cs : List Char) : Option (Data × List Char) := do
  let (ds, rest) ← digits? isDigit cs
  let n ← word? (digitsValue base ds)
  return (.int n, rest)

def decimal? (cs : List Char) : Option (Data × List Char) := do
  let (s, cs) := sign cs
  let (ds, rest) ← wholeDigits? cs
  let n : Int := digitsValue 10 ds
  let n ← word? (if s = ['-'] then -n else n)
  return (.int n, rest)

def integer? : List Char → Option (Data × List Char)
  | '0' :: 'x' :: cs => marked? 16 isHexDigit cs
  | '0' :: 'o' :: cs => marked? 8 isOctalDigit cs
  | '0' :: 'b' :: cs => marked? 2 isBinaryDigit cs
  | cs => decimal? cs

/-! ## Reals -/

/-- The parts of a real number: its sign, the digits before and after the point, and the sign and
the digits of the exponent. -/
structure RealParts where
  sign : List Char
  whole : List Char
  fraction : List Char := []
  exponentSign : List Char := []
  exponent : List Char := []

/-- The smallest real that is too large: halfway between the largest double-precision number and
the next power of two. -/
def overflowBound : Nat := 1 <<< 1024 - 1 <<< 970

/-- Whether `m * 10 ^ e` reaches the bound. Beyond some hundred digits the exponent alone tells. -/
def overflows (m : Nat) (digits : Nat) (e : Int) : Bool :=
  if m = 0 then false
  else if 400 < e then true
  else if e < -(digits : Int) - 400 then false
  else if 0 ≤ e then overflowBound ≤ m * Nat.pow 10 e.toNat
  else overflowBound * Nat.pow 10 (-e).toNat ≤ m

namespace RealParts

def isTooLarge (r : RealParts) : Bool :=
  let e : Int := digitsValue 10 r.exponent
  let e := if r.exponentSign = ['-'] then -e else e
  let ds := r.whole ++ r.fraction
  r.sign != ['-'] && overflows (digitsValue 10 ds) ds.length (e - r.fraction.length)

def literal (r : RealParts) : String :=
  let fraction := if r.fraction = [] then [] else '.' :: r.fraction
  let exponent := if r.exponent = [] then [] else 'e' :: r.exponentSign ++ r.exponent
  String.ofList (r.sign ++ r.whole ++ fraction ++ exponent)

end RealParts

/-- An exponent, read after its mark. -/
def exponent? (r : RealParts) (cs : List Char) : Option (RealParts × List Char) := do
  let (s, cs) := sign cs
  let (ds, rest) ← digits? Text.isDigit cs
  return ({ r with exponentSign := s, exponent := ds }, rest)

def isExponentMark (c : Char) : Bool := c = 'e' || c = 'E'

/-- What makes a number real: a fraction, an exponent, or both. -/
def realTail? (r : RealParts) : List Char → Option (RealParts × List Char)
  | [] => none
  | '.' :: cs => do
    let (ds, rest) ← digits? Text.isDigit cs
    let r := { r with fraction := ds }
    match rest with
    | c :: rest => if isExponentMark c then exponent? r rest else return (r, c :: rest)
    | [] => return (r, [])
  | c :: cs => if isExponentMark c then exponent? r cs else none

/-- Whether the number at the front of a text has a fraction or an exponent, whatever follows. -/
def looksReal (cs : List Char) : Bool :=
  match wholeDigits? (sign cs).2 with
  | some (_, c :: _) => c = '.' || isExponentMark c
  | _ => false

def real? (cs : List Char) : Option (Data × List Char) := do
  let (s, cs) := sign cs
  let (ds, cs) ← wholeDigits? cs
  let (r, rest) ← realTail? { sign := s, whole := ds } cs
  if r.isTooLarge then none else return (.real r.literal, rest)

/-- Infinity or no number at all, with an optional sign. -/
def special? (cs : List Char) : Option (Data × List Char) :=
  let (s, cs) := sign cs
  match cs with
  | 'i' :: 'n' :: 'f' :: rest => some (.real (String.ofList (s ++ "inf".toList)), rest)
  | 'n' :: 'a' :: 'n' :: rest => some (.real (String.ofList (s ++ "nan".toList)), rest)
  | _ => none

/-! ## Moments -/

/-- Exactly `n` digits whose value lies between `least` and `most`. -/
def number? (n least most : Nat) (cs : List Char) : Option (Nat × List Char) :=
  let ds := cs.take n
  if ds.length = n ∧ ds.all Text.isDigit then
    let v := digitsValue 10 ds
    if least ≤ v ∧ v ≤ most then some (v, cs.drop n) else none
  else none

def char? (c : Char) : List Char → Option (List Char)
  | [] => none
  | d :: cs => if c = d then some cs else none

def isLeapYear (y : Nat) : Bool := y % 4 = 0 && (y % 100 ≠ 0 || y % 400 = 0)

def daysInMonth (year month : Nat) : Nat :=
  if month = 2 then if isLeapYear year then 29 else 28
  else if [4, 6, 9, 11].contains month then 30
  else 31

def date? (cs : List Char) : Option (List Char) := do
  let (year, cs) ← number? 4 0 9999 cs
  let (month, cs) ← number? 2 1 12 (← char? '-' cs)
  let (_, cs) ← number? 2 1 (daysInMonth year month) (← char? '-' cs)
  return cs

/-- A time of day; the last second of a minute may be a leap second. -/
def time? (cs : List Char) : Option (List Char) := do
  let (_, cs) ← number? 2 0 23 cs
  let (_, cs) ← number? 2 0 59 (← char? ':' cs)
  let (_, cs) ← number? 2 0 60 (← char? ':' cs)
  match cs with
  | '.' :: cs =>
    let ds := cs.takeWhile Text.isDigit
    if ds = [] then return '.' :: cs else return cs.drop ds.length
  | cs => return cs

/-- An offset from universal time, if there is one. A sign has to be followed by a time. -/
def offset? : List Char → Option (List Char)
  | 'Z' :: cs => some cs
  | 'z' :: cs => some cs
  | c :: cs =>
    if c = '+' ∨ c = '-' then do
      let (_, cs) ← number? 2 0 23 cs
      let (_, cs) ← number? 2 0 59 (← char? ':' cs)
      return cs
    else some (c :: cs)
  | [] => some []

/-- A time of day after a date, with its separator; if there is none, nothing is taken. -/
def timeAfterDate? : List Char → Option (List Char)
  | c :: cs =>
    if c = 'T' ∨ c = 't' ∨ c = ' ' then
      match time? cs with
      | some rest => offset? rest
      | none => if (number? 2 0 23 cs).any fun x => x.2.head? = some ':' then none else some (c :: cs)
    else some (c :: cs)
  | [] => some []

/-- Whether a text begins like a date or like a time of day. -/
def looksLikeMoment (cs : List Char) : Bool :=
  ((number? 4 0 9999 cs).any fun x => x.2.head? = some '-') ||
    (number? 2 0 23 cs).any fun x => x.2.head? = some ':'

def moment? (cs : List Char) : Option (Data × List Char) := do
  let rest ← match number? 4 0 9999 cs with
    | some (_, '-' :: _) => (date? cs).bind timeAfterDate?
    | _ => time? cs
  return (.moment (String.ofList (cs.take (cs.length - rest.length))), rest)

/-- A moment or a number, told apart by how it begins. -/
def numeric? (cs : List Char) : Option (Data × List Char) :=
  if looksLikeMoment cs then moment? cs
  else if looksReal cs then real? cs
  else (special? cs).or (integer? cs)

end AppHost.Toml

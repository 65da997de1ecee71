/-!
# ASCII letters and digits

Protocol words are compared without regard to the case of the letters A to Z, and only of those:
a letter outside ASCII is equal to itself alone.
-/

namespace AppHost.Text

/-- `c` in lower case if it is one of A to Z. -/
def lower (c : Char) : Char :=
  if 'A' ≤ c ∧ c ≤ 'Z' then Char.ofNat (c.toNat + 32) else c

def lowerCase (s : String) : String := String.ofList (s.toList.map lower)

/-- Equality up to the case of ASCII letters. -/
def sameWord (a b : String) : Bool := a.toList.map lower == b.toList.map lower

def isDigit (c : Char) : Bool := '0' ≤ c && c ≤ '9'

def digitValue (c : Char) : Nat := c.toNat - 48

/-- The number that a non-empty run of decimal digits denotes. -/
def decimal? (cs : List Char) : Option Nat :=
  if cs ≠ [] ∧ cs.all isDigit then some (cs.foldl (fun n c => n * 10 + digitValue c) 0) else none

/-- The value of a digit in base 16, either case. -/
def hexValue? (c : Char) : Option Nat :=
  if isDigit c then some (digitValue c)
  else if 'a' ≤ c ∧ c ≤ 'f' then some (c.toNat - 87)
  else if 'A' ≤ c ∧ c ≤ 'F' then some (c.toNat - 55)
  else none

/-- The maximal pieces of `cs` between occurrences of `sep`; there is always at least one. -/
def splitAt (sep : Char) : List Char → List (List Char)
  | [] => [[]]
  | c :: cs =>
    if c = sep then [] :: splitAt sep cs
    else match splitAt sep cs with
      | [] => [[c]]
      | p :: ps => (c :: p) :: ps

/-- `cs` without the characters in `p` at either end. -/
def trimBy (p : Char → Bool) (cs : List Char) : List Char :=
  ((cs.dropWhile p).reverse.dropWhile p).reverse

theorem sameWord_refl (a : String) : sameWord a a = true := by simp [sameWord]

theorem sameWord_comm (a b : String) : sameWord a b = sameWord b a := by
  simp [sameWord, Bool.beq_comm]

theorem splitAt_ne_nil (sep : Char) (cs : List Char) : splitAt sep cs ≠ [] := by
  cases cs with
  | nil => simp [splitAt]
  | cons c cs => simp only [splitAt]; split <;> (try split) <;> simp

end AppHost.Text

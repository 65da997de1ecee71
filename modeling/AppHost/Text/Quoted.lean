import AppHost.Text.Printable

/-!
# Quoted text

Text inside double quotes, as names, paths and tags appear in messages. A quote and a backslash
take a backslash in front, NUL, tab, line feed and carriage return have a letter of their own,
and every character that is invisible or attaches to its neighbour is written by its number.
-/

namespace AppHost.Text

def hexDigit (n : Nat) : Char :=
  if n < 10 then Char.ofNat (n + 48) else Char.ofNat (n + 87)

/-- The digits of `n` in base 16, lower case, without leading zeros. -/
def hexDigits (n : Nat) : List Char :=
  if n < 16 then [hexDigit n] else hexDigits (n / 16) ++ [hexDigit (n % 16)]
termination_by n

def escapeChar (c : Char) : List Char :=
  match c with
  | '\x00' => ['\\', '0']
  | '\t' => ['\\', 't']
  | '\n' => ['\\', 'n']
  | '\r' => ['\\', 'r']
  | '"' => ['\\', '"']
  | '\\' => ['\\', '\\']
  | c =>
    if isAttaching c || isInvisible c then
      ['\\', 'u', '\x7b'] ++ hexDigits c.toNat ++ ['\x7d']
    else [c]

def escape (cs : List Char) : List Char := cs.flatMap escapeChar

/-- `s` in double quotes. -/
def quote (s : String) : String := String.ofList ('"' :: escape s.toList ++ ['"'])

theorem escape_nil : escape [] = [] := rfl

theorem escape_append (a b : List Char) : escape (a ++ b) = escape a ++ escape b := by
  simp [escape]

/-- Letters, digits and the usual punctuation stand for themselves. -/
example : quote "a/b c" = "\"a/b c\"" := by decide +kernel

example : quote "a\"\\\n" = "\"a\\\"\\\\\\n\"" := by decide +kernel

end AppHost.Text

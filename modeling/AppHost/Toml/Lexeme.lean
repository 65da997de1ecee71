import AppHost.Text.Ascii

/-!
# Lexemes of TOML

Blanks, line ends, comments, strings and keys. A reader takes its lexeme from the front of a text
and gives back what follows it; it fails if the lexeme is malformed or not there.
-/

namespace AppHost.Toml

/-! ## Blanks and comments -/

def isBlank (c : Char) : Bool := c = ' ' || c = '\t'

def skipBlanks (cs : List Char) : List Char := cs.dropWhile isBlank

/-- A line end: a line feed, alone or after a carriage return. -/
def newline? : List Char → Option (List Char)
  | '\n' :: cs => some cs
  | '\r' :: '\n' :: cs => some cs
  | _ => none

/-- A character that may stand in a comment, and in a literal string but for the quote. -/
def isPrintable (c : Char) : Bool := c = '\t' || (0x20 ≤ c.toNat && c.toNat != 0x7F)

/-- A comment, if there is one. -/
def skipComment : List Char → List Char
  | '#' :: cs => cs.dropWhile isPrintable
  | cs => cs

/-- The rest of a line after which nothing more is expected: blanks, a comment and the line end or
the end of the text. -/
def endOfLine? (cs : List Char) : Option (List Char) :=
  match skipComment (skipBlanks cs) with
  | [] => some []
  | cs => newline? cs

/-- Blanks, comments and line ends in any order, as far as they go. -/
def skipLines : List Char → List Char
  | [] => []
  | '\r' :: '\n' :: cs => skipLines cs
  | c :: cs =>
    if c = ' ' ∨ c = '\t' ∨ c = '\n' then skipLines cs
    else if c = '#' then skipLines (cs.dropWhile isPrintable)
    else c :: cs
termination_by cs => cs.length
decreasing_by
  · simp only [List.length_cons]; omega
  · simp
  · have := (List.dropWhile_sublist isPrintable (l := cs)).length_le
    simp only [List.length_cons]; omega

/-- Blanks and line ends in any order, as far as they go. -/
def skipSpace : List Char → List Char
  | '\n' :: cs => skipSpace cs
  | '\r' :: '\n' :: cs => skipSpace cs
  | c :: cs => if isBlank c then skipSpace cs else c :: cs
  | [] => []

/-! ## Strings -/

/-- The character with the number that exactly `n` digits in base 16 denote. -/
def scalar? (n : Nat) (cs : List Char) : Option (Char × List Char) :=
  let digits := cs.take n
  match digits.mapM Text.hexValue? with
  | none => none
  | some ds =>
    let code := ds.foldl (fun m d => m * 16 + d) 0
    if digits.length = n ∧ code.isValidChar then some (Char.ofNat code, cs.drop n) else none

/-- What an escape stands for, read after its backslash. -/
def escape? : List Char → Option (Char × List Char)
  | 'b' :: cs => some ('\x08', cs)
  | 'f' :: cs => some ('\x0c', cs)
  | 'n' :: cs => some ('\n', cs)
  | 'r' :: cs => some ('\r', cs)
  | 't' :: cs => some ('\t', cs)
  | '"' :: cs => some ('"', cs)
  | '\\' :: cs => some ('\\', cs)
  | 'u' :: cs => scalar? 4 cs
  | 'U' :: cs => scalar? 8 cs
  | _ => none

/-- The four kinds of strings differ in their quote and in what stands between the quotes. -/
structure StringKind where
  quote : Char
  /-- Whether the string may go over several lines; its quote is then written three times. -/
  multiline : Bool
  /-- Whether a backslash begins an escape. -/
  escapes : Bool
  deriving DecidableEq, Repr

def StringKind.basic (multiline : Bool) : StringKind := ⟨'"', multiline, true⟩

def StringKind.literal (multiline : Bool) : StringKind := ⟨'\'', multiline, false⟩

/-- How a string ends if its body has come to a quote: at once if it is on one line; otherwise
after three quotes, of which up to two more may stand in front as part of the body. Gives the
quotes that belong to the body, whether the string is over, and what follows. -/
def closing (k : StringKind) (cs : List Char) : List Char × Bool × List Char :=
  if !k.multiline then ([], true, cs.drop 1)
  else
    let n := (cs.takeWhile (· = k.quote)).length
    if n < 3 then (List.replicate n k.quote, false, cs.drop n)
    else (List.replicate (min (n - 3) 2) k.quote, true, cs.drop (min n 5))

/-- A line end escaped by a backslash goes together with all space around it. -/
def escapedNewline? (cs : List Char) : Option (List Char) :=
  (newline? (skipBlanks cs)).map skipSpace

/-- The body of a string up to and including the closing quotes. -/
def body? (k : StringKind) : Nat → List Char → Option (List Char × List Char)
  | 0, _ => none
  | _ + 1, [] => none
  | fuel + 1, c :: cs =>
    if c = k.quote then
      let (own, ended, rest) := closing k (c :: cs)
      if ended then some (own, rest)
      else (body? k fuel rest).map fun (s, rest) => (own ++ s, rest)
    else if c = '\\' ∧ k.escapes then
      match if k.multiline then escapedNewline? cs else none with
      | some rest => body? k fuel rest
      | none => do
        let (e, rest) ← escape? cs
        let (s, rest) ← body? k fuel rest
        return (e :: s, rest)
    else if isPrintable c then (body? k fuel cs).map fun (s, rest) => (c :: s, rest)
    else if k.multiline then do
      let rest ← newline? (c :: cs)
      let (s, rest) ← body? k fuel rest
      return ('\n' :: s, rest)
    else none

/-- The body of a string; one that goes over several lines may begin with a line end that is not
part of it. -/
def bodyOf? (k : StringKind) (cs : List Char) : Option (String × List Char) :=
  let cs := if k.multiline then (newline? cs).getD cs else cs
  (body? k (cs.length + 1) cs).map fun (s, rest) => (String.ofList s, rest)

/-- A string of any kind. -/
def string? : List Char → Option (String × List Char)
  | '"' :: '"' :: '"' :: cs => bodyOf? (.basic true) cs
  | '"' :: cs => bodyOf? (.basic false) cs
  | '\'' :: '\'' :: '\'' :: cs => bodyOf? (.literal true) cs
  | '\'' :: cs => bodyOf? (.literal false) cs
  | _ => none

/-! ## Keys -/

def isBareKeyChar (c : Char) : Bool :=
  ('a' ≤ c && c ≤ 'z') || ('A' ≤ c && c ≤ 'Z') || Text.isDigit c || c = '-' || c = '_'

/-- One part of a key: bare, or a string on one line. -/
def keyPart? : List Char → Option (String × List Char)
  | '"' :: cs => bodyOf? (.basic false) cs
  | '\'' :: cs => bodyOf? (.literal false) cs
  | cs =>
    let name := cs.takeWhile isBareKeyChar
    if name = [] then none else some (String.ofList name, cs.drop name.length)

/-- The parts of a key, separated by dots, with blanks around each. -/
def keyParts? : Nat → List Char → Option (List String × List Char)
  | 0, _ => none
  | fuel + 1, cs => do
    let (part, rest) ← keyPart? (skipBlanks cs)
    match skipBlanks rest with
    | '.' :: rest =>
      let (parts, rest) ← keyParts? fuel rest
      return (part :: parts, rest)
    | rest => return ([part], rest)

/-- The bound on the parts of a key and on the depth of values. -/
def depthLimit : Nat := 80

/-- A key, which has fewer parts than the limit. -/
def key? (cs : List Char) : Option (List String × List Char) := keyParts? (depthLimit - 1) cs

end AppHost.Toml

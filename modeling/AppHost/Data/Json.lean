import AppHost.Data
import AppHost.Text.Ascii
import AppHost.Text.Quoted

/-!
# JSON

`Data.json` writes a value as JSON, on one line, and `Data.ofJson?` reads one. A number that is
not written as an integer is kept as it is written, and so is a negative zero, which no integer is.
Of several fields with one name the last one counts, as for a reader that first puts the fields of a
record into a map; one that fills a record of its own field by field would refuse the second.
-/

namespace AppHost.Data

/-! ## Writing -/

def jsonChar (c : Char) : List Char :=
  match c with
  | '"' => ['\\', '"']
  | '\\' => ['\\', '\\']
  | '\x08' => ['\\', 'b']
  | '\x0c' => ['\\', 'f']
  | '\n' => ['\\', 'n']
  | '\r' => ['\\', 'r']
  | '\t' => ['\\', 't']
  | c =>
    if c.toNat < 0x20 then
      ['\\', 'u', '0', '0', Text.hexDigit (c.toNat / 16), Text.hexDigit (c.toNat % 16)]
    else [c]

/-- `s` as a JSON string. -/
def jsonText (s : String) : String := String.ofList ('"' :: s.toList.flatMap jsonChar ++ ['"'])

mutual

def json : Data → String
  | null => "null"
  | bool b => if b then "true" else "false"
  | int n => toString n
  | real literal => literal
  | text s => jsonText s
  | moment literal => jsonText literal
  | list items => "[" ++ ",".intercalate (jsonItems items) ++ "]"
  | record fields => "\x7b" ++ ",".intercalate (jsonFields fields) ++ "\x7d"

def jsonItems : List Data → List String
  | [] => []
  | d :: ds => json d :: jsonItems ds

def jsonFields : List (String × Data) → List String
  | [] => []
  | (name, d) :: fields => (jsonText name ++ ":" ++ json d) :: jsonFields fields

end

/-! ## Reading -/

def isJsonBlank (c : Char) : Bool := c = ' ' || c = '\t' || c = '\n' || c = '\r'

/-- The number that four digits in base 16 denote. -/
def fourDigits? (cs : List Char) : Option (Nat × List Char) := do
  let ds ← (cs.take 4).mapM Text.hexValue?
  if ds.length = 4 then return (ds.foldl (fun n d => n * 16 + d) 0, cs.drop 4) else none

/-- A character given by its number; one beyond `0xffff` is given by two numbers. -/
def numbered? (cs : List Char) : Option (Char × List Char) := do
  let (n, rest) ← fourDigits? cs
  if 0xD800 ≤ n ∧ n < 0xDC00 then
    match rest with
    | '\\' :: 'u' :: rest =>
      let (m, rest) ← fourDigits? rest
      if 0xDC00 ≤ m ∧ m < 0xE000 then
        return (Char.ofNat (0x10000 + (n - 0xD800) * 0x400 + (m - 0xDC00)), rest)
      else none
    | _ => none
  else if n.isValidChar then return (Char.ofNat n, rest)
  else none

/-- What an escape stands for, read after its backslash. -/
def jsonEscape? : List Char → Option (Char × List Char)
  | '"' :: cs => some ('"', cs)
  | '\\' :: cs => some ('\\', cs)
  | '/' :: cs => some ('/', cs)
  | 'b' :: cs => some ('\x08', cs)
  | 'f' :: cs => some ('\x0c', cs)
  | 'n' :: cs => some ('\n', cs)
  | 'r' :: cs => some ('\r', cs)
  | 't' :: cs => some ('\t', cs)
  | 'u' :: cs => numbered? cs
  | _ => none

/-- The rest of a string, after some characters in reverse. -/
def jsonRest? : Nat → List Char → List Char → Option (String × List Char)
  | 0, _, _ => none
  | _ + 1, _, [] => none
  | fuel + 1, done, c :: cs =>
    if c = '"' then some (String.ofList done.reverse, cs)
    else if c = '\\' then
      match jsonEscape? cs with
      | some (e, rest) => jsonRest? fuel (e :: done) rest
      | none => none
    else if c.toNat < 0x20 then none
    else jsonRest? fuel (c :: done) cs

def isNumberChar (c : Char) : Bool := Text.isDigit c || "+-.eE".toList.contains c

/-- The number that digits spell, without a zero in front unless there is nothing else. -/
def whole? (ds : List Char) : Option Nat :=
  (Text.decimal? ds).filter fun n => Nat.toDigits 10 n = ds

def isExponent : List Char → Bool
  | [] => false
  | c :: cs =>
    let ds := match cs with
      | '+' :: ds => ds
      | '-' :: ds => ds
      | ds => ds
    (c = 'e' || c = 'E') && (Text.decimal? ds).isSome

/-- A fraction, an exponent, or a fraction with an exponent. -/
def isScale : List Char → Bool
  | '.' :: cs =>
    let rest := cs.dropWhile Text.isDigit
    (Text.decimal? (cs.takeWhile Text.isDigit)).isSome && (rest.isEmpty || isExponent rest)
  | cs => isExponent cs

/-- A number without a sign, if it is well spelled: the integer that it is, or nothing about it if
a fraction or an exponent follows. -/
def unsigned? (cs : List Char) : Option (Option Nat) := do
  let n ← whole? (cs.takeWhile Text.isDigit)
  match cs.dropWhile Text.isDigit with
  | [] => return some n
  | rest => if isScale rest then return none else none

def jsonNumber? (cs : List Char) : Option Data :=
  match cs with
  | '-' :: ds => (unsigned? ds).map fun
    | some 0 => .real "-0.0"
    | some n => .int (-(n : Int))
    | none => .real (String.ofList cs)
  | ds => (unsigned? ds).map fun
    | some n => .int n
    | none => .real (String.ofList ds)

mutual

def jsonValue? (fuel : Nat) (cs : List Char) : Option (Data × List Char) :=
  match fuel with
  | 0 => none
  | fuel + 1 =>
    match cs.dropWhile isJsonBlank with
    | '"' :: cs => (jsonRest? (cs.length + 1) [] cs).map fun (s, rest) => (.text s, rest)
    | '[' :: cs =>
      match cs.dropWhile isJsonBlank with
      | ']' :: rest => some (.list [], rest)
      | cs => (jsonItems? fuel cs).map fun (ds, rest) => (.list ds, rest)
    | '\x7b' :: cs =>
      match cs.dropWhile isJsonBlank with
      | '\x7d' :: rest => some (.record [], rest)
      | cs => (jsonPairs? fuel cs).map fun (fs, rest) => (.record fs, rest)
    | 't' :: 'r' :: 'u' :: 'e' :: rest => some (.bool true, rest)
    | 'f' :: 'a' :: 'l' :: 's' :: 'e' :: rest => some (.bool false, rest)
    | 'n' :: 'u' :: 'l' :: 'l' :: rest => some (.null, rest)
    | cs =>
      let ds := cs.takeWhile isNumberChar
      (jsonNumber? ds).map fun d => (d, cs.drop ds.length)

def jsonItems? (fuel : Nat) (cs : List Char) : Option (List Data × List Char) :=
  match fuel with
  | 0 => none
  | fuel + 1 => do
    let (d, rest) ← jsonValue? fuel cs
    match rest.dropWhile isJsonBlank with
    | ',' :: rest =>
      let (ds, rest) ← jsonItems? fuel rest
      return (d :: ds, rest)
    | ']' :: rest => return ([d], rest)
    | _ => none

/-- The fields of a record, each name once and with the last of its values. -/
def jsonPairs? (fuel : Nat) (cs : List Char) : Option (List (String × Data) × List Char) :=
  match fuel with
  | 0 => none
  | fuel + 1 =>
    match cs.dropWhile isJsonBlank with
    | '"' :: cs => do
      let (name, rest) ← jsonRest? (cs.length + 1) [] cs
      match rest.dropWhile isJsonBlank with
      | ':' :: rest =>
        let (d, rest) ← jsonValue? fuel rest
        match rest.dropWhile isJsonBlank with
        | ',' :: rest =>
          let (fs, rest) ← jsonPairs? fuel rest
          return (if (fs.lookup name).isSome then fs else (name, d) :: fs, rest)
        | '\x7d' :: rest => return ([(name, d)], rest)
        | _ => none
      | _ => none
    | _ => none

end

/-- The value that `s` spells. -/
def ofJson? (s : String) : Option Data :=
  let cs := s.toList
  match jsonValue? (cs.length + 1) cs with
  | some (d, rest) => if rest.all isJsonBlank then some d else none
  | none => none

end AppHost.Data

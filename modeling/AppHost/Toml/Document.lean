import AppHost.Toml.Number
import AppHost.Toml.Table

/-!
# TOML documents

A document is a sequence of lines: a definition `key = value`, a header `[key]` or `[[key]]` that
says which table the definitions after it belong to, a comment, or nothing. Values are strings,
numbers, moments, booleans, arrays and inline tables; the latter two nest up to a fixed depth.
-/

namespace AppHost.Toml

/-! ## Values -/

/-- The table that the definitions of an inline table make. -/
def inlineTable? (pairs : List (List String × Data)) : Option Data :=
  (pairs.foldlM (fun items p => Items.define p.1 p.2 .explicit items) []).map fun items =>
    .record (recordOf items)

mutual

/-- A value that nests at most `depth` deep. -/
def value? (depth fuel : Nat) (cs : List Char) : Option (Data × List Char) :=
  match cs with
  | '"' :: _ => (string? cs).map fun (s, rest) => (.text s, rest)
  | '\'' :: _ => (string? cs).map fun (s, rest) => (.text s, rest)
  | '[' :: cs =>
    match depth with
    | 0 => none
    | depth + 1 =>
      match skipLines cs with
      | ']' :: rest => some (.list [], rest)
      | _ => (items? depth fuel cs).map fun (ds, rest) => (.list ds, rest)
  | '\x7b' :: cs =>
    match depth with
    | 0 => none
    | depth + 1 => do
      let (pairs, rest) ← match skipBlanks cs with
        | '\x7d' :: rest => some ([], rest)
        | _ => pairs? depth fuel cs
      return (← inlineTable? pairs, rest)
  | 't' :: 'r' :: 'u' :: 'e' :: rest => some (.bool true, rest)
  | 'f' :: 'a' :: 'l' :: 's' :: 'e' :: rest => some (.bool false, rest)
  | cs => numeric? cs
termination_by (depth, 2 * fuel + 1)

/-- The items of an array and its closing bracket; a comma may follow the last item. -/
def items? (depth fuel : Nat) (cs : List Char) : Option (List Data × List Char) :=
  match fuel with
  | 0 => none
  | fuel + 1 => do
    let (d, rest) ← value? depth fuel (skipLines cs)
    match skipLines rest with
    | ']' :: rest => return ([d], rest)
    | ',' :: rest =>
      match skipLines rest with
      | ']' :: rest => return ([d], rest)
      | _ =>
        let (ds, rest) ← items? depth fuel rest
        return (d :: ds, rest)
    | _ => none
termination_by (depth, 2 * fuel)

/-- The definitions of an inline table and its closing brace. -/
def pairs? (depth fuel : Nat) (cs : List Char) : Option (List (List String × Data) × List Char) :=
  match fuel with
  | 0 => none
  | fuel + 1 => do
    let (key, rest) ← key? cs
    let rest ← char? '=' rest
    let (d, rest) ← value? depth fuel (skipBlanks rest)
    match skipBlanks rest with
    | '\x7d' :: rest => return ([(key, d)], rest)
    | ',' :: rest =>
      let (ps, rest) ← pairs? depth fuel rest
      return ((key, d) :: ps, rest)
    | _ => none
termination_by (depth, 2 * fuel)

end

/-! ## Lines -/

/-- A line that says something. -/
inductive Line where
  | definition (key : List String) (value : Data)
  | table (key : List String)
  | element (key : List String)

def definition? (cs : List Char) : Option (Line × List Char) := do
  let (key, rest) ← key? cs
  let rest ← char? '=' rest
  let (d, rest) ← value? (depthLimit - 1) cs.length (skipBlanks rest)
  return (.definition key d, ← endOfLine? rest)

def header? : List Char → Option (Line × List Char)
  | '[' :: '[' :: cs => do
    let (key, rest) ← key? cs
    let rest ← (char? ']' rest).bind (char? ']')
    return (.element key, ← endOfLine? rest)
  | '[' :: cs => do
    let (key, rest) ← key? cs
    return (.table key, ← endOfLine? (← char? ']' rest))
  | _ => none

/-- The next line, if it says something. -/
def line? (cs : List Char) : Option (Option Line × List Char) :=
  match skipBlanks cs with
  | '#' :: cs => (endOfLine? ('#' :: cs)).map fun rest => (none, rest)
  | '\n' :: rest => some (none, rest)
  | '\r' :: cs => (newline? ('\r' :: cs)).map fun rest => (none, rest)
  | '[' :: cs => (header? ('[' :: cs)).map fun (l, rest) => (some l, rest)
  | [] => some (none, [])
  | cs => (definition? cs).map fun (l, rest) => (some l, rest)

/-- All lines; every line takes at least one character, so `fuel` need only be the length. -/
def lines? : Nat → List Char → Option (List Line)
  | _, [] => some []
  | 0, _ => none
  | fuel + 1, cs => do
    let (l, rest) ← line? cs
    return l.toList ++ (← lines? fuel rest)

/-! ## Documents -/

/-- A document as far as it was read: its tables, and the one that definitions belong to. -/
structure Draft where
  items : Items := []
  current : List String := []

namespace Draft

/-- Change the current table. -/
def inCurrent (f : TableKind → Items → Option Items) (d : Draft) : Option Items :=
  Items.change false f d.current .explicit d.items

/-- Open what a header with the given key names, by way of the tables that lead to it. -/
def enter (d : Draft) (key : List String) (f : String → TableKind → Items → Option Items) :
    Option Draft := do
  let name ← key.getLast?
  let items ← Items.change false (f name) key.dropLast .explicit d.items
  return { items, current := key }

def add (d : Draft) : Line → Option Draft
  | .definition key value =>
    (d.inCurrent fun _ items => Items.define key value .explicit items).map fun items =>
      { d with items }
  | .table key => d.enter key Items.openTable
  | .element key => d.enter key Items.openElement

end Draft

/-- The record that a document describes; a byte order mark may come first. -/
def parse? (s : String) : Option Data := do
  let cs := match s.toList with
    | '\ufeff' :: cs => cs
    | cs => cs
  let d ← (← lines? cs.length cs).foldlM Draft.add {}
  return .record (recordOf d.items)

end AppHost.Toml

import AppHost.Text.Ascii

/-!
# Request targets

What a request asks for, in one of four forms: a path with an optional query (`/a?b`), an
absolute URI (`http://h/a?b`), an authority (`h:80`) or the asterisk. A fragment is accepted and
dropped. `Target.parse?` reads the forms and `Target.show` writes them; `Target.relativeTo`
puts what follows a mount prefix in the place of the path and leaves all else alone.
-/

namespace AppHost.Http

structure Target where
  scheme : Option String := none
  authority : Option String := none
  /-- Empty in authority form only. -/
  path : String
  query : Option String := none
  deriving DecidableEq, Repr

namespace Target

/-! ## Characters -/

/-- A character that may stand in a path. -/
def isPathChar (c : Char) : Bool :=
  let n := c.toNat
  n == 0x21 || (0x24 ≤ n && n ≤ 0x3B) || n == 0x3D || (0x40 ≤ n && n ≤ 0x5F) ||
    (0x61 ≤ n && n ≤ 0x7E) || 0x7F ≤ n || n == 0x22

/-- A character that may stand in a query. -/
def isQueryChar (c : Char) : Bool :=
  let n := c.toNat
  n == 0x21 || (0x24 ≤ n && n ≤ 0x3B) || n == 0x3D || 0x3F ≤ n

def isSchemeChar (c : Char) : Bool :=
  ('a' ≤ c && c ≤ 'z') || ('A' ≤ c && c ≤ 'Z') || Text.isDigit c || "+-.~".toList.contains c

/-- A character that may stand in an authority; the percent sign only in user information and in
brackets. -/
def isAuthorityChar (c : Char) : Bool :=
  ('a' ≤ c && c ≤ 'z') || ('A' ≤ c && c ≤ 'Z') || Text.isDigit c ||
    "!$&'()*+,-.:;=@[]_~%".toList.contains c

/-- Where the authority ends: the path, the query or the fragment begins. -/
def endsAuthority (c : Char) : Bool := c = '/' || c = '?' || c = '#'

/-! ## Path and query -/

/-- A path and a query, if all their characters are legal; a fragment is dropped. -/
def pathQuery? (cs : List Char) : Option (List Char × Option (List Char)) :=
  let path := cs.takeWhile fun c => c != '?' && c != '#'
  let rest := cs.drop path.length
  if !path.all isPathChar then none
  else match rest with
    | '?' :: q =>
      let query := q.takeWhile (· != '#')
      if query.all isQueryChar then some (path, some query) else none
    | _ => some (path, none)

/-! ## Authority -/

/-- What was seen of an authority since the last mark that starts a new part of it. -/
structure AuthorityScan where
  colons : Nat := 0
  opened : Bool := false
  closed : Bool := false
  percent : Bool := false

def AuthorityScan.step (s : AuthorityScan) (c : Char) : Option AuthorityScan :=
  match c with
  | ':' => if s.colons < 8 then some { s with colons := s.colons + 1 } else none
  | '[' => if s.percent || s.opened then none else some { s with opened := true }
  | ']' =>
    if !s.opened || s.closed then none
    else some { s with closed := true, colons := 0, percent := false }
  | '@' => some { s with colons := 0, percent := false }
  | '%' => some { s with percent := true }
  | _ => some s

/-- Whether `cs` is an authority: brackets in one pair, at most one colon and no percent sign
after the user information and outside brackets, and something after the last `@`. -/
def isAuthority (cs : List Char) : Bool :=
  cs.all isAuthorityChar &&
  match cs.foldlM AuthorityScan.step {} with
  | none => false
  | some s => s.opened == s.closed && s.colons ≤ 1 && cs.getLast? != some '@' && !s.percent

/-! ## The forms -/

/-- The scheme that `cs` begins with, and what follows `://`. An over-long one is an error. -/
def scheme? (cs : List Char) : Except Unit (Option (List Char × List Char)) :=
  let known (name : List Char) := (cs.take (name.length + 3)).map Text.lower == name ++ "://".toList
  if known "http".toList then .ok (some ("http".toList, cs.drop 7))
  else if known "https".toList then .ok (some ("https".toList, cs.drop 8))
  else
    let name := cs.takeWhile isSchemeChar
    match cs.drop name.length with
    | ':' :: '/' :: '/' :: rest =>
      if cs.length ≤ 3 then .ok none
      else if name.length > 64 then .error ()
      else .ok (some (name, rest))
    | _ => .ok none

def maxBytes : Nat := 65534

/-- The target that `s` spells. -/
def parse? (s : String) : Option Target :=
  if s.utf8ByteSize > maxBytes then none
  else match s.toList with
    | [] => none
    | ['*'] => some { path := "*" }
    | '/' :: cs => do
      let (path, query) ← pathQuery? ('/' :: cs)
      return { path := String.ofList path, query := query.map String.ofList }
    | cs => match scheme? cs with
      | .error () => none
      | .ok none =>
        if isAuthority cs && !cs.any endsAuthority then
          some { authority := some (String.ofList cs), path := "" }
        else none
      | .ok (some (scheme, cs)) => do
        let authority := cs.takeWhile fun c => !endsAuthority c
        guard (isAuthority authority && authority ≠ [])
        let (path, query) ← pathQuery? (cs.drop authority.length)
        return {
          scheme := some (String.ofList scheme)
          authority := some (String.ofList authority)
          path := if path = [] then "/" else String.ofList path
          query := query.map String.ofList }

def «show» (t : Target) : String :=
  (t.scheme.elim "" (· ++ "://")) ++ t.authority.getD "" ++ t.path ++ t.query.elim "" ("?" ++ ·)

/-- Whether `p` is a textual prefix of `path`. -/
def startsWith (path p : String) : Bool := p.toList.isPrefixOf path.toList

theorem startsWith_iff_prefix_toList {path p : String} :
    startsWith path p = true ↔ p.toList <+: path.toList :=
  List.isPrefixOf_iff_prefix

/-- What follows the prefix of `n` characters, as a path of its own. -/
def remainder (path : List Char) (n : Nat) : List Char :=
  match path.drop n with
  | '/' :: cs => '/' :: cs
  | cs => '/' :: cs

/-- `t` with the path that follows the prefix `p`, if it starts with `p`. A target with an
authority but no scheme has no path that could be replaced. -/
def relativeTo (t : Target) (p : String) : Option Target :=
  if !startsWith t.path p then none
  else do
    let path := remainder t.path.toList p.toList.length
    let text := match t.query with
      | some q => path ++ '?' :: q.toList
      | none => path
    let (path, query) ← pathQuery? text
    guard (t.scheme.isSome == t.authority.isSome)
    return { t with path := String.ofList path, query := query.map String.ofList }

end Target

end AppHost.Http

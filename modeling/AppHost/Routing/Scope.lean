import AppHost.Text.Ascii
import AppHost.Text.Quoted

/-!
# Scopes

A connection belongs to one of two protocol families, told apart by a tag. A mount accepts a
non-empty set of them; asking for no family in particular asks for all.
-/

namespace AppHost

/-- Protocol family of an inbound connection. -/
inductive ScopeKind where
  | http
  | webSocket
  deriving DecidableEq, Repr

namespace ScopeKind

def all : List ScopeKind := [http, webSocket]

/-- The textual tag. -/
def tag : ScopeKind → String
  | http => "http"
  | webSocket => "websocket"

/-- The name shown where a tag would be ambiguous. -/
def label : ScopeKind → String
  | http => "Http"
  | webSocket => "WebSocket"

end ScopeKind

/-- A tag that names no scope kind. -/
structure UnknownScope where
  tag : String
  deriving DecidableEq, Repr

namespace UnknownScope

def message (e : UnknownScope) : String := s!"unknown scope kind: {Text.quote e.tag}"

end UnknownScope

namespace ScopeKind

/-- The kind with the given tag, in any case of its ASCII letters. -/
def parse (s : String) : Except UnknownScope ScopeKind :=
  if Text.sameWord s http.tag then .ok http
  else if Text.sameWord s webSocket.tag then .ok webSocket
  else .error ⟨s⟩

theorem parse_tag (k : ScopeKind) : parse k.tag = .ok k := by cases k <;> rfl

end ScopeKind

/-- The scope kinds that a mount accepts; never none. -/
structure ScopeSet where
  http : Bool
  webSocket : Bool
  nonempty : (http || webSocket) = true := by decide
  deriving DecidableEq

namespace ScopeSet

def all : ScopeSet := ⟨true, true, rfl⟩

def only : ScopeKind → ScopeSet
  | .http => ⟨true, false, rfl⟩
  | .webSocket => ⟨false, true, rfl⟩

def contains (s : ScopeSet) : ScopeKind → Bool
  | .http => s.http
  | .webSocket => s.webSocket

/-- The set of the given kinds; of no kinds, the set of all. -/
def ofKinds (ks : List ScopeKind) : ScopeSet :=
  if h : (ks.contains .http || ks.contains .webSocket) = true then
    ⟨ks.contains .http, ks.contains .webSocket, h⟩
  else all

def isUnrestricted (s : ScopeSet) : Bool := s = all

/-- The members in the order of `ScopeKind.all`. -/
def kinds (s : ScopeSet) : List ScopeKind := ScopeKind.all.filter s.contains

def tags (s : ScopeSet) : List String := s.kinds.map ScopeKind.tag

/-- The tags, separated by commas. -/
def describe (s : ScopeSet) : String := ",".intercalate s.tags

/-- The labels inside braces. -/
def inspect (s : ScopeSet) : String :=
  "\x7b" ++ ", ".intercalate (s.kinds.map ScopeKind.label) ++ "\x7d"

theorem ofKinds_nil : ofKinds [] = all := rfl

theorem contains_ofKinds {ks : List ScopeKind} (h : ks ≠ []) (k : ScopeKind) :
    (ofKinds ks).contains k = ks.contains k := by
  have hk : (ks.contains .http || ks.contains .webSocket) = true := by
    cases ks with
    | nil => exact absurd rfl h
    | cons k ks => cases k <;> simp
  rw [ofKinds, dif_pos hk]
  cases k <;> rfl

theorem exists_contains (s : ScopeSet) : ∃ k, s.contains k = true := by
  have h := s.nonempty
  rw [Bool.or_eq_true] at h
  exact h.elim (fun h => ⟨.http, h⟩) (fun h => ⟨.webSocket, h⟩)

end ScopeSet

end AppHost

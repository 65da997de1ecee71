import AppHost.Http.Header
import AppHost.Routing.Scope

/-!
# Classification of connections

The `upgrade` header tells the protocol family: it is WebSocket if one of its elements says so,
and plain HTTP if there is no such header or none of its elements does. A header that is not text
belongs to no family.
-/

namespace AppHost.ScopeKind

/-- The blanks that may surround an element of a list. -/
def isBlank (c : Char) : Bool := c = ' ' || c = '\t'

def isWebSocketElement (cs : List Char) : Bool :=
  Text.sameWord (String.ofList (Text.trimBy isBlank cs)) webSocket.tag

/-- The family that the text of an `upgrade` header names. -/
def ofUpgrade (text : String) : ScopeKind :=
  if (Text.splitAt ',' text.toList).any isWebSocketElement then webSocket else http

/-- The family of a request with the given headers; the first `upgrade` header decides. -/
def classify (hs : Http.Headers) : Option ScopeKind :=
  match hs.first? "upgrade" with
  | none => some http
  | some v => v.text?.map ofUpgrade

theorem classify_of_first_eq_none {hs : Http.Headers} (h : hs.first? "upgrade" = none) :
    classify hs = some http := by simp [classify, h]

end AppHost.ScopeKind

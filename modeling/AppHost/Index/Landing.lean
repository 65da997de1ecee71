import AppHost.Index.Heap
import AppHost.Routing.Names

/-!
# The landing page

The winning proposal names a route; the landing page is the URL of that route. A winner without a
URL means that there is no landing page, even if another proposal would have one.
-/

namespace AppHost.ProposalHeap

/-- The URL of the winner, if there is a winner and its route has a URL. -/
def url (h : ProposalHeap) (names : RouteNames) : Option String := h.winner.bind names.resolve

def unresolved (route : String) : Log.Event where
  level := .warn
  part := ["routing", "router"]
  message := "Proposed index page does not resolve to a URL"
  fields := [("route", route)]

/-- The events of asking for that URL. -/
def urlEvents (h : ProposalHeap) (names : RouteNames) : List Log.Event :=
  match h.winner with
  | none => []
  | some route =>
    names.resolveEvents route ++ if (names.resolve route).isNone then [unresolved route] else []

theorem url_eq_none_of_winner {h : ProposalHeap} (hw : h.winner = none) (names : RouteNames) :
    h.url names = none := by simp [url, hw]

end AppHost.ProposalHeap

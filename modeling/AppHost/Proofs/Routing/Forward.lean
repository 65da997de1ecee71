import AppHost.Proofs.Routing.Prefix
import AppHost.Router

/-!
# Forwarding

What is mounted at a prefix gets every request that begins with it, and never with the prefix still
in front: the path that was read can always be put together anew without it. The rest of the path
stands for the whole, with a slash in front if it has none, and scheme, authority and query are
those that were sent (`forward_strips`).
-/

namespace AppHost

open Http (Target Request)

namespace Http.Target

theorem startsWith_iff {path p : String} :
    startsWith path p = true ↔ ∃ rest : String, path = p ++ rest := by
  rw [startsWith_iff_prefix_toList]
  constructor
  · rintro ⟨rest, hrest⟩
    refine ⟨String.ofList rest, String.toList_inj.mp ?_⟩
    rw [String.toList_append, String.toList_ofList, hrest]
  · rintro ⟨rest, rfl⟩
    rw [String.toList_append]
    exact List.prefix_append _ _

theorem startsWith_slash_iff {path : String} :
    startsWith path "/" = true ↔ path.toList.head? = some '/' := by
  rw [startsWith]
  cases path.toList with
  | nil => exact iff_of_false Bool.false_ne_true (fun h => nomatch h)
  | cons c cs =>
    show ('/' == c && true) = true ↔ some c = some '/'
    rw [Bool.and_true, beq_iff_eq, Option.some.injEq, eq_comm]

/-- What follows the prefix takes the place of the path. -/
theorem path_beneath (t : Target) {p rest : String} (h : t.path = p ++ rest) :
    (t.beneath p).path = if startsWith rest "/" then rest else "/" ++ rest := by
  have hdrop : t.path.toList.drop p.toList.length = rest.toList := by
    rw [h, String.toList_append, List.drop_left]
  rw [beneath, hdrop]
  by_cases hrest : startsWith rest "/" = true
  · rw [rooted, if_pos (startsWith_slash_iff.mp hrest), if_pos hrest]
    exact String.ofList_toList
  · rw [rooted, if_neg (fun h => hrest (startsWith_slash_iff.mpr h)), if_neg hrest]
    refine String.toList_inj.mp ?_
    rw [String.toList_ofList, String.toList_append]
    rfl

/-- It begins with a slash again. -/
theorem startsWith_beneath (t : Target) (p : String) :
    startsWith (t.beneath p).path "/" = true := by
  rw [startsWith_slash_iff, beneath, String.toList_ofList, rooted]
  split
  · assumption
  · rfl

end Http.Target

namespace Router

open Http.Target

/-- **A request is never handed on with the prefix of its mount still in front.** A target that was
read, and that begins with the prefix, can be put together without it: what follows the prefix is
the path, with a slash in front if there is none, and scheme, authority and query stay, whether
there is a query, an empty one or none. The target that results is legal again and is what the
application gets. -/
theorem forward_strips (text : String) (t : Target) (p : String)
    (hread : Target.parse? text = some t) (hslash : startsWith p "/" = true)
    (hp : startsWith t.path p = true) :
    ∃ (t' : Target) (rest : String), t.relativeTo p = some t' ∧
      t'.scheme = t.scheme ∧ t'.authority = t.authority ∧ t'.query = t.query ∧
      startsWith t'.path "/" = true ∧
      t.path = p ++ rest ∧ t'.path = (if startsWith rest "/" then rest else "/" ++ rest) ∧
      t'.IsLegal ∧
      ∀ (e : MountEntry) (around : Surroundings) (req : Request), e.path = p → req.target = t →
        forward e around req =
          e.application.handle around { req.recordReceived with target := t' } := by
  have hprefix : p.toList <+: t.path.toList := List.isPrefixOf_iff_prefix.mp hp
  have hrooted : startsWith t.path "/" = true :=
    List.isPrefixOf_iff_prefix.mpr ((List.isPrefixOf_iff_prefix.mp hslash).trans hprefix)
  have hlegal : t.IsLegal := isLegal_of_parse hread hrooted
  have hstrips := relativeTo_eq_beneath hlegal hprefix
  obtain ⟨rest, hrest⟩ := startsWith_iff.mp hp
  refine ⟨t.beneath p, rest, hstrips, rfl, rfl, rfl, startsWith_beneath t p, hrest,
    path_beneath t hrest, hlegal.beneath p, fun e around req he ht => ?_⟩
  rw [forward, rebase, he, ht, hstrips, Option.getD_some]

/-- An absolute target with no path and with an empty query, at a mount of the root. -/
theorem forward_strips_pathless :
    let t : Target :=
      { scheme := some "http", authority := some "h", path := "/", query := some "" }
    Target.parse? "http://h?" = some t ∧ startsWith t.path "/" = true ∧
      ∃ t', t.relativeTo "/" = some t' ∧ t'.authority = some "h" ∧ t'.query = some "" ∧
        startsWith t'.path "/" = true := by
  intro t
  have hread : Target.parse? "http://h?" = some t := by decide +kernel
  have hpath : startsWith t.path "/" = true := by decide +kernel
  obtain ⟨t', -, hstrips, -, hauthority, hquery, hrooted, -⟩ :=
    forward_strips "http://h?" t "/" hread hpath hpath
  exact ⟨hread, hpath, t', hstrips, hauthority, hquery, hrooted⟩

end Router

end AppHost

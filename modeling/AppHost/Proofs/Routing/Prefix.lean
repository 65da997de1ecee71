import AppHost.Http.Target
import Mathlib.Data.List.TakeWhile
import Mathlib.Data.Option.Basic

/-!
# Prefixes of a path

What a target becomes beneath a mount: what follows the prefix takes the place of the path, with a
slash in front of it unless there is one. A path that was read keeps legal characters, and those are
never taken for the end of the path, so that the query is found again where it was
(`relativeTo_eq_beneath`). Scheme, authority and query stay.
-/

namespace AppHost.Http.Target

/-- `rest` as a path of its own. -/
def rooted (rest : List Char) : List Char := if rest.head? = some '/' then rest else '/' :: rest

/-- The target with what follows the prefix `p` in the place of its path. -/
def beneath (t : Target) (p : String) : Target :=
  { t with path := String.ofList (rooted (t.path.toList.drop p.toList.length)) }

theorem remainder_eq_rooted (path : List Char) (n : Nat) :
    remainder path n = rooted (path.drop n) := by
  rw [remainder, rooted]
  cases path.drop n with
  | nil => rfl
  | cons c cs =>
    by_cases hc : c = '/'
    · subst hc
      rfl
    · have hhead : ¬ (c :: cs).head? = some '/' := fun e => hc (Option.some.inj e)
      rw [if_neg hhead]
      split
      · rename_i h
        cases h
        exact absurd rfl hc
      · rfl

theorem mem_rooted {rest : List Char} {c : Char} (h : c ∈ rooted rest) : c = '/' ∨ c ∈ rest := by
  rw [rooted] at h
  split at h
  · exact .inr h
  · exact List.mem_cons.mp h

/-! ## Targets with legal characters -/

/-- The target has a path and a query of legal characters, and it is in origin form or in absolute
form. -/
structure IsLegal (t : Target) : Prop where
  path : ∀ c ∈ t.path.toList, isPathChar c = true
  query : ∀ q, t.query = some q → ∀ c ∈ q.toList, isQueryChar c = true
  form : t.scheme.isSome = t.authority.isSome

theorem isPathChar_slash : isPathChar '/' = true := by decide

/-- A character of a path is none that ends it. -/
theorem continues_of_isPathChar {c : Char} (h : isPathChar c = true) :
    (c != '?' && c != '#') = true := by
  rw [Bool.and_eq_true, bne_iff_ne, bne_iff_ne]
  constructor
  · rintro rfl
    exact absurd h (by decide)
  · rintro rfl
    exact absurd h (by decide)

theorem continues_of_isQueryChar {c : Char} (h : isQueryChar c = true) : (c != '#') = true := by
  rw [bne_iff_ne]
  rintro rfl
  exact absurd h (by decide)

/-- A path and a query of legal characters are read as they are. -/
theorem pathQuery?_query {path query : List Char} (hp : ∀ c ∈ path, isPathChar c = true)
    (hq : ∀ c ∈ query, isQueryChar c = true) :
    pathQuery? (path ++ '?' :: query) = some (path, some query) := by
  have hpath : (path ++ '?' :: query).takeWhile (fun c => c != '?' && c != '#') = path := by
    rw [List.takeWhile_append_of_pos fun c hc => continues_of_isPathChar (hp c hc)]
    exact List.append_nil path
  have hquery : query.takeWhile (· != '#') = query :=
    List.takeWhile_eq_self_iff.mpr fun c hc => continues_of_isQueryChar (hq c hc)
  simp only [pathQuery?, hpath, List.drop_left, List.all_eq_true.mpr hp, hquery,
    List.all_eq_true.mpr hq, Bool.not_true, Bool.false_eq_true, if_false, if_true]

theorem pathQuery?_path {path : List Char} (hp : ∀ c ∈ path, isPathChar c = true) :
    pathQuery? path = some (path, none) := by
  have hpath : path.takeWhile (fun c => c != '?' && c != '#') = path :=
    List.takeWhile_eq_self_iff.mpr fun c hc => continues_of_isPathChar (hp c hc)
  simp only [pathQuery?, hpath, List.drop_length, List.all_eq_true.mpr hp, Bool.not_true,
    Bool.false_eq_true, if_false]

/-- A path of legal characters is a target by itself, if it is not too long. -/
theorem parse?_path {s : String} (hslash : startsWith s "/" = true)
    (hp : ∀ c ∈ s.toList, isPathChar c = true) (hsize : s.utf8ByteSize ≤ maxBytes) :
    parse? s = some { path := s } := by
  have hread := pathQuery?_path hp
  obtain ⟨cs, hcs⟩ : ['/'] <+: s.toList := startsWith_iff_prefix_toList.mp hslash
  rw [List.singleton_append] at hcs
  rw [← hcs] at hread
  rw [parse?, if_neg (Nat.not_lt.mpr hsize), ← hcs]
  simp only [hread, Option.bind_eq_bind, Option.bind_some, Option.pure_def, Option.map_none]
  rw [hcs, String.ofList_toList]

theorem mem_of_pathQuery? {cs path : List Char} {query : Option (List Char)}
    (h : pathQuery? cs = some (path, query)) : (∀ c ∈ path, isPathChar c = true) ∧
      ∀ q, query = some q → ∀ c ∈ q, isQueryChar c = true := by
  simp only [pathQuery?] at h
  split at h
  · cases h
  rename_i hp
  rw [Bool.not_eq_true', Bool.not_eq_false] at hp
  split at h
  · split at h
    · rename_i hq
      cases h
      exact ⟨List.all_eq_true.mp hp, fun q e => by cases e; exact List.all_eq_true.mp hq⟩
    · cases h
  · cases h
    exact ⟨List.all_eq_true.mp hp, fun q e => nomatch e⟩

/-- A target is legal whose path is one that was read, or a slash, and whose query was read with
it. -/
theorem isLegal_of_pathQuery? {t : Target} {cs path : List Char} {query : Option (List Char)}
    (h : pathQuery? cs = some (path, query))
    (hp : t.path = String.ofList path ∨ t.path = "/") (hq : t.query = query.map String.ofList)
    (hf : t.scheme.isSome = t.authority.isSome) : t.IsLegal where
  path c hc := by
    rcases hp with hp | hp
    · rw [hp, String.toList_ofList] at hc
      exact (mem_of_pathQuery? h).1 c hc
    · rw [hp] at hc
      obtain rfl : c = '/' := List.mem_singleton.mp hc
      exact isPathChar_slash
  query q e c hc := by
    rw [hq] at e
    obtain ⟨q', hq', rfl⟩ := Option.map_eq_some_iff.mp e
    rw [String.toList_ofList] at hc
    exact (mem_of_pathQuery? h).2 q' hq' c hc
  form := hf

/-- What is read in origin form or in absolute form is legal. -/
theorem isLegal_of_parse {s : String} {t : Target} (h : parse? s = some t)
    (hp : startsWith t.path "/" = true) : t.IsLegal := by
  simp only [parse?, Option.bind_eq_bind, Option.pure_def] at h
  split at h
  · cases h
  split at h
  · cases h
  · cases h
    exact absurd hp (by decide)
  · obtain ⟨⟨path, query⟩, hread, ht⟩ := Option.bind_eq_some_iff.mp h
    cases ht
    exact isLegal_of_pathQuery? hread (.inl rfl) rfl rfl
  · split at h
    · cases h
    · split at h
      · cases h
        exact absurd (show startsWith "" "/" = true from hp) (by decide)
      · cases h
    · simp only [Option.bind_eq_some_iff, Option.some.injEq] at h
      obtain ⟨_, _, ⟨path, query⟩, hread, rfl⟩ := h
      refine isLegal_of_pathQuery? hread ?_ rfl rfl
      by_cases hnil : path = []
      · exact .inr (if_pos hnil)
      · exact .inl (if_neg hnil)

theorem IsLegal.beneath {t : Target} (h : t.IsLegal) (p : String) : (t.beneath p).IsLegal where
  path c hc := by
    rw [Target.beneath, String.toList_ofList] at hc
    rcases mem_rooted hc with rfl | hc
    · exact isPathChar_slash
    · exact h.path c (List.mem_of_mem_drop hc)
  query := h.query
  form := h.form

/-- **Beneath a mount only the path changes,** and it loses the prefix. -/
theorem relativeTo_eq_beneath {t : Target} (h : t.IsLegal) {p : String}
    (hp : p.toList <+: t.path.toList) : t.relativeTo p = some (t.beneath p) := by
  have hpath : ∀ c ∈ rooted (t.path.toList.drop p.toList.length), isPathChar c = true := by
    intro c hc
    refine (h.beneath p).path c ?_
    rwa [Target.beneath, String.toList_ofList]
  have hstarts : startsWith t.path p = true := startsWith_iff_prefix_toList.mpr hp
  have hform : (t.scheme.isSome == t.authority.isSome) = true := beq_iff_eq.mpr h.form
  cases hq : t.query with
  | none =>
    simp only [relativeTo, hstarts, remainder_eq_rooted, hq, pathQuery?_path hpath, hform]
    simp [Target.beneath, guard, hq]
  | some q =>
    simp only [relativeTo, hstarts, remainder_eq_rooted, hq, hform,
      pathQuery?_query hpath (h.query q hq)]
    simp [Target.beneath, guard, hq]

end AppHost.Http.Target

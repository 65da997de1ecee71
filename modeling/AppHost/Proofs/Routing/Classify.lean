import AppHost.Routing.Classify
import Mathlib.Data.List.DropRight

/-!
# Families of connections

The `upgrade` header is a list, and a list may go on over several lines: all values together are the
one that they are joined to with commas. Its elements are those of all lines (`elements_joined`), and
it is text if all lines are (`isText_joined`). The family is read off the first line alone, so that
it is the one that the whole list tells only if the later lines add nothing to the first
(`classify_reads_first_line`).
-/

namespace AppHost

/-! ## Texts -/

namespace Text

theorem splitAt_cons (sep c : Char) (cs : List Char) : splitAt sep (c :: cs) =
    if c = sep then [] :: splitAt sep cs else (splitAt sep cs).modifyHead (c :: ·) := by
  rw [splitAt]
  cases hs : splitAt sep cs with
  | nil => exact absurd hs (splitAt_ne_nil sep cs)
  | cons p ps => rfl

theorem splitAt_eq_splitOn (sep : Char) (cs : List Char) : splitAt sep cs = cs.splitOn sep := by
  induction cs with
  | nil => rfl
  | cons c cs ih =>
    rw [splitAt_cons, List.splitOn, List.splitOnP_cons_eq_if_modifyHead, ih, List.splitOn]
    simp only [beq_iff_eq]

theorem splitAt_append_cons (sep : Char) (cs ds : List Char) :
    splitAt sep (cs ++ sep :: ds) = splitAt sep cs ++ splitAt sep ds := by
  simp only [splitAt_eq_splitOn]
  exact List.splitOn_append_cons_self cs ds

theorem exists_eq_trimBy (p : Char → Bool) (cs : List Char) : ∃ left right,
    cs = left ++ trimBy p cs ++ right ∧ (∀ c ∈ left, p c = true) ∧ ∀ c ∈ right, p c = true := by
  have hright : trimBy p cs ++ (cs.dropWhile p).rtakeWhile p = cs.dropWhile p :=
    List.rdropWhile_append_rtakeWhile
  refine ⟨cs.takeWhile p, (cs.dropWhile p).rtakeWhile p, ?_, fun c hc => ?_, fun c hc => ?_⟩
  · rw [List.append_assoc, hright, List.takeWhile_append_dropWhile]
  · exact List.all_eq_true.mp List.all_takeWhile c hc
  · exact List.mem_rtakeWhile_imp hc

/-- What does not begin with one of `p` is what is left of it with some of `p` in front. -/
theorem dropWhile_append_of_head {p : Char → Bool} {left core : List Char}
    (hleft : ∀ c ∈ left, p c = true) (hcore : ∀ c, core.head? = some c → p c = false) :
    (left ++ core).dropWhile p = core := by
  rw [List.dropWhile_append_of_pos hleft]
  cases core with
  | nil => rfl
  | cons c cs => exact List.dropWhile_cons_of_neg (by simp [hcore c rfl])

theorem trimBy_append {p : Char → Bool} {left core right : List Char} (hne : core ≠ [])
    (hleft : ∀ c ∈ left, p c = true) (hright : ∀ c ∈ right, p c = true)
    (hhead : ∀ c, core.head? = some c → p c = false)
    (hlast : ∀ c, core.getLast? = some c → p c = false) :
    trimBy p (left ++ core ++ right) = core := by
  have hhead' : ∀ c, (core ++ right).head? = some c → p c = false := by
    rw [List.head?_append, Option.or_of_isSome (by simpa using hne)]
    exact hhead
  have hright' : ∀ c ∈ right.reverse, p c = true := fun c hc => hright c (List.mem_reverse.mp hc)
  have hlast' : ∀ c, core.reverse.head? = some c → p c = false := by
    rwa [List.head?_reverse]
  rw [trimBy, List.append_assoc, dropWhile_append_of_head hleft hhead', List.reverse_append,
    dropWhile_append_of_head hright' hlast', List.reverse_reverse]

end Text

/-! ## Values on several lines -/

namespace Http

theorem Headers.head?_values (hs : Headers) (name : String) :
    (hs.values name).head? = hs.first? name := by
  induction hs with
  | nil => rfl
  | cons h hs ih =>
    rw [values, first?, List.filter_cons, List.lookup_cons]
    by_cases hn : name = h.1
    · rw [if_pos (beq_iff_eq.mpr hn.symm)]
      simp [hn]
    · rw [if_neg (mt beq_iff_eq.mp (Ne.symm hn)), beq_eq_false_iff_ne.mpr hn]
      exact ih

namespace HeaderValue

variable {v : HeaderValue} {vs : List HeaderValue}

/-- All bytes are printable ASCII or tabs. -/
def IsText (v : HeaderValue) : Prop := ∀ b ∈ v.bytes, (32 ≤ b ∧ b < 127) ∨ b = 9

instance : Decidable v.IsText :=
  inferInstanceAs (Decidable (∀ b ∈ v.bytes, (32 ≤ b ∧ b < 127) ∨ b = 9))

/-- The characters of a value that is text. -/
def chars (v : HeaderValue) : List Char := v.bytes.map fun b => Char.ofNat b.toNat

theorem text?_eq (v : HeaderValue) :
    v.text? = if v.IsText then some (String.ofList v.chars) else none := by
  have hall : (v.bytes.all fun b => (32 ≤ b && b < 127) || b == 9) = true ↔ v.IsText := by
    simp only [IsText, List.all_eq_true, Bool.or_eq_true, Bool.and_eq_true, decide_eq_true_eq,
      beq_iff_eq]
  rw [text?]
  by_cases h : v.IsText
  · rw [if_pos h, if_pos (hall.mpr h), chars]
  · rw [if_neg h, if_neg (mt hall.mp h)]

/-- The elements of the list that a value is. -/
def elements (v : HeaderValue) : List (List Char) := Text.splitAt ',' v.chars

/-- The value of one line for all of `vs`: they are joined with commas. -/
def joined (vs : List HeaderValue) : HeaderValue := ⟨[0x2C].intercalate (vs.map bytes)⟩

theorem bytes_joined_cons (v w : HeaderValue) (vs : List HeaderValue) :
    (joined (v :: w :: vs)).bytes = v.bytes ++ 0x2C :: (joined (w :: vs)).bytes := by
  simp [joined, List.intercalate_cons_cons]

theorem joined_singleton (v : HeaderValue) : joined [v] = v := by
  simp [joined]

theorem isText_joined : (joined vs).IsText ↔ ∀ v ∈ vs, v.IsText := by
  induction vs with
  | nil => simp [joined, IsText]
  | cons v vs ih =>
    cases vs with
    | nil => rw [joined_singleton, List.forall_mem_singleton]
    | cons w vs =>
      rw [List.forall_mem_cons, ← ih, IsText, bytes_joined_cons, List.forall_mem_append,
        List.forall_mem_cons]
      simp [IsText]

theorem elements_joined (hne : vs ≠ []) : (joined vs).elements = vs.flatMap elements := by
  induction vs with
  | nil => exact absurd rfl hne
  | cons v vs ih =>
    cases vs with
    | nil => rw [joined_singleton, List.flatMap_singleton]
    | cons w vs =>
      rw [List.flatMap_cons, ← ih (List.cons_ne_nil _ _), elements, chars, bytes_joined_cons,
        List.map_append, List.map_cons]
      exact Text.splitAt_append_cons ',' v.chars (joined (w :: vs)).chars

end HeaderValue

end Http

/-! ## Elements -/

namespace ScopeKind

open Http.HeaderValue

/-- The element says `websocket`, in any case of the letters and with any blanks around it. -/
def SaysWebSocket (element : List Char) : Prop :=
  ∃ left core right, element = left ++ core ++ right ∧ (∀ c ∈ left, isBlank c = true) ∧
    (∀ c ∈ right, isBlank c = true) ∧ core.map Text.lower = "websocket".toList

theorem isWebSocketElement_iff {element : List Char} :
    isWebSocketElement element = true ↔ SaysWebSocket element := by
  have hword : ∀ core : List Char, Text.sameWord (String.ofList core) webSocket.tag = true ↔
      core.map Text.lower = "websocket".toList := by
    intro core
    rw [Text.sameWord, beq_iff_eq, String.toList_ofList]
    rfl
  rw [isWebSocketElement, hword]
  constructor
  · intro h
    obtain ⟨left, right, he, hleft, hright⟩ := Text.exists_eq_trimBy isBlank element
    exact ⟨left, _, right, he, hleft, hright, h⟩
  · rintro ⟨left, core, right, rfl, hleft, hright, hcore⟩
    -- neither the first letter of the word nor its last is a blank in either case
    have hne : core ≠ [] := by
      rintro rfl
      cases hcore
    have hfirst : core.head?.map Text.lower = some 'w' := by
      rw [← List.head?_map, hcore]
      rfl
    have hlast : core.getLast?.map Text.lower = some 't' := by
      rw [← List.getLast?_map, hcore]
      rfl
    have hletter : ∀ {c d : Char}, Text.lower c = d → d ≠ ' ' → d ≠ '\t' → isBlank c = false := by
      rintro c d rfl hspace htab
      rw [isBlank, Bool.or_eq_false_iff, decide_eq_false_iff_not, decide_eq_false_iff_not]
      constructor
      · rintro rfl
        exact hspace rfl
      · rintro rfl
        exact htab rfl
    rw [Text.trimBy_append hne hleft hright, hcore]
    · intro c hc
      rw [hc] at hfirst
      exact hletter (Option.some.inj hfirst) (by decide) (by decide)
    · intro c hc
      rw [hc] at hlast
      exact hletter (Option.some.inj hlast) (by decide) (by decide)

/-- One of the elements of the value says `websocket`. -/
def AsksForWebSocket (v : Http.HeaderValue) : Prop := ∃ e ∈ v.elements, SaysWebSocket e

theorem any_isWebSocketElement_iff {v : Http.HeaderValue} :
    v.elements.any isWebSocketElement = true ↔ AsksForWebSocket v := by
  simp only [List.any_eq_true, isWebSocketElement_iff, AsksForWebSocket]

instance {v : Http.HeaderValue} : Decidable (AsksForWebSocket v) :=
  decidable_of_iff _ any_isWebSocketElement_iff

theorem asksForWebSocket_joined {vs : List Http.HeaderValue} :
    AsksForWebSocket (joined vs) ↔ ∃ v ∈ vs, AsksForWebSocket v := by
  cases vs with
  | nil => exact iff_of_false (by decide) (by simp)
  | cons v vs =>
    simp only [AsksForWebSocket, elements_joined (List.cons_ne_nil v vs), List.mem_flatMap]
    grind

/-! ## Classification -/

variable {v : Http.HeaderValue}

theorem classify_line_eq_none_iff : classify [("upgrade", v)] = none ↔ ¬ v.IsText := by
  show v.text?.map ofUpgrade = none ↔ _
  rw [text?_eq, Option.map_eq_none_iff]
  simp

theorem classify_line_eq_webSocket_iff :
    classify [("upgrade", v)] = some webSocket ↔ v.IsText ∧ AsksForWebSocket v := by
  show v.text?.map ofUpgrade = some webSocket ↔ _
  rw [text?_eq]
  by_cases h : v.IsText
  · rw [if_pos h, Option.map_some, ofUpgrade, String.toList_ofList, ← any_isWebSocketElement_iff,
      elements]
    simp [h]
  · simp [h]

theorem classify_joined_eq_none_iff {vs : List Http.HeaderValue} :
    classify [("upgrade", joined vs)] = none ↔ ∃ v ∈ vs, ¬ v.IsText := by
  rw [classify_line_eq_none_iff, isText_joined]
  simp

theorem classify_joined_eq_webSocket_iff {vs : List Http.HeaderValue} :
    classify [("upgrade", joined vs)] = some webSocket ↔
      (∀ v ∈ vs, v.IsText) ∧ ∃ v ∈ vs, AsksForWebSocket v := by
  rw [classify_line_eq_webSocket_iff, isText_joined, asksForWebSocket_joined]

/-- A family is told by whether there is none and whether it is WebSocket. -/
theorem family_eq_iff {k k' : Option ScopeKind} :
    k = k' ↔ (k = none ↔ k' = none) ∧ (k = some webSocket ↔ k' = some webSocket) := by
  rcases k with _ | _ | _ <;> rcases k' with _ | _ | _ <;> simp

/-- When the first of some lines tells what all of them tell together. -/
theorem classify_line_eq_joined_iff {rest : List Http.HeaderValue} :
    classify [("upgrade", v)] = classify [("upgrade", joined (v :: rest))] ↔
      ¬ v.IsText ∨
        (∀ w ∈ rest, w.IsText) ∧ (AsksForWebSocket v ∨ ∀ w ∈ rest, ¬ AsksForWebSocket w) := by
  rw [family_eq_iff, classify_line_eq_none_iff, classify_line_eq_webSocket_iff,
    classify_line_eq_none_iff, classify_line_eq_webSocket_iff, isText_joined,
    asksForWebSocket_joined, List.forall_mem_cons]
  -- What is left is about four facts: whether the first line and the others are text, and whether
  -- the first line and one of the others ask for WebSocket.
  have hlater : (∀ w ∈ rest, ¬ AsksForWebSocket w) ↔ ¬ ∃ w ∈ rest, AsksForWebSocket w := by simp
  simp only [hlater, List.mem_cons, exists_eq_or_imp]
  grind

theorem classify_of_values_eq_nil {hs : Http.Headers} (h : hs.values "upgrade" = []) :
    classify hs = some http := by
  have hfirst : hs.first? "upgrade" = none := by
    rw [← hs.head?_values, h]
    rfl
  exact classify_of_first_eq_none hfirst

theorem classify_of_values_eq_cons {hs : Http.Headers} {rest : List Http.HeaderValue}
    (h : hs.values "upgrade" = v :: rest) : classify hs = classify [("upgrade", v)] := by
  have hfirst : hs.first? "upgrade" = some v := by
    rw [← hs.head?_values, h]
    rfl
  simp only [classify, hfirst]
  rfl

/-- **The first line speaks for all.** Joined to one line with commas, the values of `upgrade` tell no
family if one of them is no text; else WebSocket if an element of one of them says so, blanks and the
case of letters apart. The family of a request is what its first line tells by itself. That is what
all lines tell together if there is at most one; and else exactly if the first line is no text, or if
all are and the first one asks for WebSocket unless none does. -/
theorem classify_reads_first_line (hs : Http.Headers) :
    let vs := hs.values "upgrade"
    let together := classify [("upgrade", joined vs)]
    (together = none ↔ ∃ v ∈ vs, ¬ v.IsText) ∧
    (together = some webSocket ↔ (∀ v ∈ vs, v.IsText) ∧ ∃ v ∈ vs, AsksForWebSocket v) ∧
    (vs.length ≤ 1 → classify hs = together) ∧
    ∀ v rest, vs = v :: rest →
      classify hs = classify [("upgrade", v)] ∧
      (classify hs = together ↔ ¬ v.IsText ∨
        (∀ w ∈ rest, w.IsText) ∧ (AsksForWebSocket v ∨ ∀ w ∈ rest, ¬ AsksForWebSocket w)) := by
  intro vs together
  refine ⟨classify_joined_eq_none_iff, classify_joined_eq_webSocket_iff, fun hlength => ?_,
    fun v rest hvs => ?_⟩
  · show classify hs = classify [("upgrade", joined (hs.values "upgrade"))]
    cases hvs : hs.values "upgrade" with
    | nil =>
      rw [classify_of_values_eq_nil hvs]
      decide
    | cons v rest =>
      obtain rfl : rest = [] := by
        have hrest : (v :: rest).length ≤ 1 := hvs ▸ hlength
        simpa using hrest
      rw [classify_of_values_eq_cons hvs, joined_singleton]
  · have hfirst : classify hs = classify [("upgrade", v)] := classify_of_values_eq_cons hvs
    refine ⟨hfirst, ?_⟩
    rw [hfirst, show together = classify [("upgrade", joined (v :: rest))] by rw [← hvs]]
    exact classify_line_eq_joined_iff

/-- WebSocket is asked for on the second line. -/
theorem classify_reads_first_line_second :
    let v : Http.HeaderValue := ⟨Text.bytes "h2c"⟩
    let w : Http.HeaderValue := ⟨Text.bytes "websocket"⟩
    let hs : Http.Headers := [("upgrade", v), ("upgrade", w)]
    hs.values "upgrade" = [v, w] ∧ classify hs = some http ∧
      classify [("upgrade", joined [v, w])] = some webSocket ∧
      classify hs ≠ classify [("upgrade", joined [v, w])] := by
  intro v w hs
  have hvs : hs.values "upgrade" = [v, w] := by decide +kernel
  obtain ⟨-, hweb, -, hfirst⟩ := classify_reads_first_line hs
  obtain ⟨hline, hagree⟩ := hfirst v [w] hvs
  rw [hvs] at hweb hagree
  refine ⟨hvs, hline.trans (by decide +kernel), hweb.mpr (by decide +kernel), ?_⟩
  rw [Ne, hagree]
  decide +kernel

end ScopeKind

end AppHost

import AppHost.Proofs.Routing.Dispatch
import AppHost.Proofs.Routing.Prefix

/-!
# Redirects to the landing page

A client reads the location that it is sent to as a reference with five parts. The query of its
request stands there behind the whole URL of the landing page and a question mark, so it is found in
the part that the URL ends with. For a URL without query and fragment that is the query, as meant
(`Extends`). If the URL has a query of its own, the question mark ends up inside of it; if it has a
fragment, the query does (`redirect_extends_plain`).
-/

namespace AppHost

/-! ## Parts of a text -/

namespace Text

/-- What stands before the first `sep`, and what stands behind it if there is one. -/
def cut (sep : Char) : List Char → List Char × Option (List Char)
  | [] => ([], none)
  | c :: cs => if c = sep then ([], some cs) else (c :: (cut sep cs).1, (cut sep cs).2)

variable {sep : Char} {cs rest : List Char}

theorem cut_of_not_mem (h : sep ∉ cs) : cut sep cs = (cs, none) := by
  induction cs with
  | nil => rfl
  | cons c cs ih =>
    rw [List.mem_cons, not_or] at h
    rw [cut, if_neg (Ne.symm h.1), ih h.2]

theorem cut_snd_eq_none_iff : (cut sep cs).2 = none ↔ sep ∉ cs := by
  refine ⟨fun h => ?_, fun h => congrArg Prod.snd (cut_of_not_mem h)⟩
  induction cs with
  | nil => exact List.not_mem_nil
  | cons c cs ih =>
    rw [cut] at h
    split at h
    · cases h
    · rename_i hc
      rw [List.mem_cons, not_or]
      exact ⟨Ne.symm hc, ih h⟩

/-- A separator cuts if there is none before it. -/
theorem cut_append_cons (h : sep ∉ cs) (ds : List Char) :
    cut sep (cs ++ sep :: ds) = (cs, some ds) := by
  induction cs with
  | nil => rw [List.nil_append, cut, if_pos rfl]
  | cons c cs ih =>
    rw [List.mem_cons, not_or] at h
    rw [List.cons_append, cut, if_neg (Ne.symm h.1), ih h.2]

/-- What comes later stands behind the first separator. -/
theorem cut_append (h : (cut sep cs).2 = some rest) (ds : List Char) :
    cut sep (cs ++ ds) = ((cut sep cs).1, some (rest ++ ds)) := by
  induction cs with
  | nil => cases h
  | cons c cs ih =>
    rw [cut] at h
    rw [List.cons_append, cut, cut]
    split at h
    · rename_i hc
      cases h
      rw [if_pos hc, if_pos hc]
    · rename_i hc
      rw [if_neg hc, if_neg hc, ih h]

theorem length_splitAt (sep : Char) (cs : List Char) :
    (splitAt sep cs).length = cs.count sep + 1 := by
  induction cs with
  | nil => rfl
  | cons c cs ih =>
    rw [splitAt_cons, List.count_cons]
    by_cases hc : c = sep
    · rw [if_pos hc, if_pos (beq_iff_eq.mpr hc), List.length_cons, ih]
    · rw [if_neg hc, if_neg (mt beq_iff_eq.mp hc), List.length_modifyHead, ih, Nat.add_zero]

end Text

/-! ## References -/

namespace Http

/-- The parts of a text that refers to something. -/
structure Reference where
  scheme : Option (List Char)
  authority : Option (List Char)
  path : List Char
  query : Option (List Char)
  fragment : Option (List Char)

namespace Reference

/-- The scheme ends at the first colon, unless there is a slash before that one. -/
def readScheme (cs : List Char) : Option (List Char) × List Char :=
  match Text.cut ':' cs with
  | (name, some rest) => if name = [] ∨ '/' ∈ name then (none, cs) else (some name, rest)
  | (_, none) => (none, cs)

/-- The authority stands behind two slashes, and the path begins at the next one. -/
def readAuthority (cs : List Char) : Option (List Char) × List Char :=
  match cs with
  | '/' :: '/' :: rest => (some (rest.takeWhile (· != '/')), rest.dropWhile (· != '/'))
  | _ => (none, cs)

/-- The fragment stands behind the first `#`, and the query behind the first question mark before
that. -/
def read (cs : List Char) : Reference :=
  let (cs, fragment) := Text.cut '#' cs
  let (cs, query) := Text.cut '?' cs
  let (scheme, cs) := readScheme cs
  let (authority, path) := readAuthority cs
  { scheme, authority, path, query, fragment }

/-- The parameters that the query lists. -/
def parameters (r : Reference) : List (List Char) := r.query.elim [] (Text.splitAt '&')

/-- The reference `sent` is `own` with the parameters of the query `q` after its own. -/
structure Extends (own sent : Reference) (q : List Char) : Prop where
  scheme : sent.scheme = own.scheme
  authority : sent.authority = own.authority
  path : sent.path = own.path
  fragment : sent.fragment = own.fragment
  parameters : sent.parameters = own.parameters ++ Text.splitAt '&' q

variable {url q own frag : List Char}

theorem read_fragment (url : List Char) : (read url).fragment = (Text.cut '#' url).2 := rfl

theorem read_query (url : List Char) :
    (read url).query = (Text.cut '?' (Text.cut '#' url).1).2 := rfl

theorem read_query_of_fragment (h : (read url).fragment = none) :
    (read url).query = (Text.cut '?' url).2 := by
  rw [read_query, Text.cut_of_not_mem (Text.cut_snd_eq_none_iff.mp h)]

/-- A slash at the beginning leaves no room for a scheme. -/
theorem readScheme_of_slash (cs : List Char) : readScheme ('/' :: cs) = (none, '/' :: cs) := by
  have hcut : Text.cut ':' ('/' :: cs) = ('/' :: (Text.cut ':' cs).1, (Text.cut ':' cs).2) := by
    rw [Text.cut, if_neg (by decide)]
  rw [readScheme, hcut]
  cases (Text.cut ':' cs).2 with
  | none => rfl
  | some rest => exact if_pos (.inr List.mem_cons_self)

theorem readAuthority_of_not_prefix {cs : List Char} (h : ¬ "//".toList <+: cs) :
    readAuthority cs = (none, cs) := by
  unfold readAuthority
  split
  · rename_i rest
    exact absurd ⟨rest, rfl⟩ h
  · rfl

/-- A path that begins with one slash, and not with two, is a reference to that path. -/
theorem read_path {cs : List Char} (hslash : "/".toList <+: cs) (hone : ¬ "//".toList <+: cs)
    (hquery : '?' ∉ cs) (hfrag : '#' ∉ cs) : read cs =
      { scheme := none, authority := none, path := cs, query := none, fragment := none } := by
  have hscheme : readScheme cs = (none, cs) := by
    obtain ⟨rest, rfl⟩ := hslash
    exact readScheme_of_slash rest
  simp only [read, Text.cut_of_not_mem hfrag, Text.cut_of_not_mem hquery, hscheme,
    readAuthority_of_not_prefix hone]

/-- Neither query nor fragment: what is put behind becomes the query. -/
theorem read_plain (hquery : '?' ∉ url) (hfrag : '#' ∉ url) (hq : '#' ∉ q) :
    read (url ++ '?' :: q) = { read url with query := some q } := by
  have hno : '#' ∉ url ++ '?' :: q := by simp [hfrag, hq]
  simp only [read, Text.cut_of_not_mem hno, Text.cut_of_not_mem hfrag, Text.cut_of_not_mem hquery,
    Text.cut_append_cons hquery]

/-- A query of its own: what is put behind gets into it, with the question mark. -/
theorem read_of_query (hown : (read url).query = some own) (hfrag : (read url).fragment = none)
    (hq : '#' ∉ q) : read (url ++ '?' :: q) = { read url with query := some (own ++ '?' :: q) } := by
  have hurl : '#' ∉ url := Text.cut_snd_eq_none_iff.mp hfrag
  have hno : '#' ∉ url ++ '?' :: q := by simp [hurl, hq]
  rw [read_query_of_fragment hfrag] at hown
  simp only [read, Text.cut_of_not_mem hno, Text.cut_of_not_mem hurl, Text.cut_append hown]

/-- A fragment: whatever is put behind gets into it. -/
theorem read_of_fragment (h : (read url).fragment = some frag) (ds : List Char) :
    read (url ++ ds) = { read url with fragment := some (frag ++ ds) } := by
  simp only [read, Text.cut_append h]

/-- **To put a query behind a URL is to add its parameters exactly if the URL has neither query nor
fragment.** -/
theorem extends_iff (hq : '#' ∉ q) :
    (read url).Extends (read (url ++ '?' :: q)) q ↔ '?' ∉ url ∧ '#' ∉ url := by
  cases hfrag : (read url).fragment with
  | some frag =>
    refine iff_of_false (fun h => ?_) fun h => ?_
    · have hsame := h.fragment
      rw [read_of_fragment hfrag, hfrag] at hsame
      simp at hsame
    · rw [read_fragment, Text.cut_snd_eq_none_iff.mpr h.2] at hfrag
      cases hfrag
  | none =>
    have hurl : '#' ∉ url := Text.cut_snd_eq_none_iff.mp hfrag
    cases hown : (read url).query with
    | some own =>
      refine iff_of_false (fun h => ?_) fun h => ?_
      · -- the question mark separates no parameters, so there is one too few
        have hlength := congrArg List.length h.parameters
        rw [List.length_append, read_of_query hown hfrag hq, parameters, parameters, hown] at hlength
        simp only [Option.elim_some, Text.length_splitAt, List.count_append, List.count_cons] at hlength
        rw [if_neg (by decide)] at hlength
        omega
      · rw [read_query_of_fragment hfrag, Text.cut_snd_eq_none_iff.mpr h.1] at hown
        cases hown
    | none =>
      rw [read_query_of_fragment hfrag] at hown
      have hmark : '?' ∉ url := Text.cut_snd_eq_none_iff.mp hown
      refine iff_of_true ?_ ⟨hmark, hurl⟩
      rw [read_plain hmark hurl hq]
      refine ⟨rfl, rfl, rfl, rfl, ?_⟩
      rw [parameters, parameters, read_query_of_fragment hfrag, hown]
      rfl

end Reference

end Http

/-! ## The landing page -/

namespace Router

open Http (Target Reference)

variable {r : Router} {around : Surroundings} {req : Http.Request} {url : String}

/-- A connection goes to the landing page if no mount is in the way, for the path `/` alone. -/
theorem outcome_eq_indexRedirect_iff : r.outcome req = .indexRedirect url ↔
    ∃ k, ScopeKind.classify req.headers = some k ∧ r.mounts.lookup k req.path = none ∧
      req.path = "/" ∧ r.indexUrl = some url := by
  unfold outcome route
  cases ScopeKind.classify req.headers with
  | none => simp
  | some k =>
    cases hl : r.mounts.lookup k req.path with
    | some e => simp [hl]
    | none =>
      by_cases hp : req.path = "/"
      · rw [hp] at hl
        cases hu : r.indexUrl with
        | none => simp [hp, hl]
        | some url' => simp [hp, hl]
      · simp [hp, hl]

/-- What is sent with status 302 for the landing page is the redirect to it. -/
theorem IsPageAnswer.eq_found {answer : Http.Response} (h : IsPageAnswer url req answer)
    (hsent : answer.status = 302) : answer =
      { status := 302
        headers := [("location", ⟨Text.bytes (location url req.target.query)⟩)] } := by
  by_cases hm : req.method = "GET" ∨ req.method = "HEAD"
  · by_cases hl : Http.HeaderValue.IsLegal (location url req.target.query)
    · exact h.found hm hl
    · rw [h.degraded hm hl] at hsent
      cases hsent
  · rw [not_or] at hm
    rw [h.refused hm.1 hm.2] at hsent
    cases hsent

theorem toList_location {q : String} (hq : q ≠ "") :
    (location url (some q)).toList = url.toList ++ '?' :: q.toList := by
  simp [location, hq]

/-- **A redirect keeps a URL that has neither query nor fragment.** Whenever a client is sent to the
landing page, the location is the URL of the winning proposal with the query of the request put
behind it. It is that URL with the parameters of the request after its own, and with all else as it
was, exactly if there is no question mark and no `#` in the URL. A query that the URL has swallows
that of the request, question mark and all; and so does a fragment, if the URL has one. -/
theorem redirect_extends_plain (r : Router) (around : Surroundings) (req : Http.Request)
    (j : Journal) (text url q : String) (hread : Target.parse? text = some req.target)
    (hquery : req.target.query = some q) (hne : q ≠ "") (hout : r.outcome req = .indexRedirect url)
    (hsent : ((r.dispatch around req).value j).status = 302) :
    (∃ route, r.index.winner = some route ∧ r.names.resolve route = some url) ∧
    ∃ loc : String, (r.dispatch around req).value j =
        { status := 302, headers := [("location", ⟨Text.bytes loc⟩)] } ∧
      let own := Reference.read url.toList
      let sent := Reference.read loc.toList
      (own.Extends sent q.toList ↔ '?' ∉ url.toList ∧ '#' ∉ url.toList) ∧
      (∀ ps, own.query = some ps → own.fragment = none →
        sent = { own with query := some (ps ++ '?' :: q.toList) }) ∧
      ∀ frag, own.fragment = some frag →
        sent = { own with fragment := some (frag ++ '?' :: q.toList) } := by
  obtain ⟨k, -, -, hpath, hurl⟩ := outcome_eq_indexRedirect_iff.mp hout
  have hroot : Target.startsWith req.target.path "/" = true := by
    rw [show req.target.path = "/" from hpath]
    decide
  have hq : '#' ∉ q.toList := by
    intro hmem
    have hlegal := (Target.isLegal_of_parse hread hroot).query q hquery '#' hmem
    exact absurd hlegal (by decide)
  obtain ⟨hanswer, -⟩ := dispatch_of_indexRedirect hout j
  refine ⟨Option.bind_eq_some_iff.mp hurl, location url (some q), ?_, ?_⟩
  · rw [hanswer.eq_found hsent, hquery]
  · rw [toList_location hne]
    exact ⟨Reference.extends_iff hq, fun ps hps hfrag => Reference.read_of_query hps hfrag hq,
      fun frag hfrag => Reference.read_of_fragment hfrag _⟩

/-- The URL of the landing page has a query already. -/
theorem redirect_extends_plain_query :
    let r : Router := { index := ({} : ProposalHeap).propose "/a?x=1" 0 }
    let req : Http.Request := { target := { path := "/", query := some "y=2" } }
    let around : Surroundings := { requestIds := fun _ => ⟨[]⟩ }
    Target.parse? "/?y=2" = some req.target ∧ r.outcome req = .indexRedirect "/a?x=1" ∧
      ((r.dispatch around req).value {}).status = 302 ∧
      ∃ loc : String, (r.dispatch around req).value {} =
          { status := 302, headers := [("location", ⟨Text.bytes loc⟩)] } ∧
        (Reference.read loc.toList).parameters = ["x=1?y=2".toList] := by
  intro r req around
  have hread : Target.parse? "/?y=2" = some req.target := by decide +kernel
  have hurl : r.indexUrl = some "/a?x=1" := by
    show (ProposalHeap.winner _).bind _ = _
    rw [ProposalHeap.winner_propose_first]
    decide +kernel
  have hout : r.outcome req = .indexRedirect "/a?x=1" :=
    outcome_eq_indexRedirect_iff.mpr ⟨.http, rfl, rfl, rfl, hurl⟩
  have hsent : ((r.dispatch around req).value {}).status = 302 := by
    obtain ⟨hpage, -⟩ := dispatch_of_indexRedirect hout {}
    rw [hpage.found (.inl rfl) (Http.HeaderValue.isLegal_iff.mpr (by decide +kernel))]
  obtain ⟨-, loc, hanswer, -, hown, -⟩ := redirect_extends_plain r around req {} "/?y=2" "/a?x=1"
    "y=2" hread rfl (by decide) hout hsent
  refine ⟨hread, hout, hsent, loc, hanswer, ?_⟩
  rw [hown "x=1".toList (by decide +kernel) (by decide +kernel)]
  decide +kernel

end Router

end AppHost

import AppHost.Data.Json
import Mathlib.Data.List.DropRight

/-!
# What is written as JSON reads back

A value that JSON has a form for is read back from what was written of it (`ofJson?_json`). A reader
takes a piece of the text and leaves the rest, so each kind of piece has one lemma that says what is
taken in front of any rest. Fuel is needed for no more than the text is long.
-/

namespace AppHost

/-! ## Digits -/

namespace Text

theorem isDigit_eq (c : Char) : isDigit c = c.isDigit := by
  simp only [isDigit, Char.isDigit, Char.le_def, ge_iff_le]

theorem isDigit_of_mem_toDigits {n : Nat} {c : Char} (h : c ∈ Nat.toDigits 10 n) :
    isDigit c = true := by
  rw [isDigit_eq]
  exact Nat.isDigit_of_mem_toDigits (by decide) (by decide) h

/-- The decimal digits of a number are read as that number. -/
theorem decimal?_toDigits (n : Nat) : decimal? (Nat.toDigits 10 n) = some n := by
  have hall : (Nat.toDigits 10 n).all isDigit = true :=
    List.all_eq_true.mpr fun _ => isDigit_of_mem_toDigits
  rw [decimal?, if_pos ⟨Nat.toDigits_ne_nil, hall⟩]
  have hfold := @Nat.ofDigitChars_ten_toDigits n
  rw [Nat.ofDigitChars_eq_foldl] at hfold
  simp only [Nat.mul_comm 10] at hfold
  exact congrArg some hfold

theorem hexValue?_hexDigit {n : Nat} (h : n < 16) : hexValue? (hexDigit n) = some n := by
  have hall : ∀ m : Fin 16, hexValue? (hexDigit m) = some m.val := by decide
  exact hall ⟨n, h⟩

end Text

namespace Data

/-! ## Records by name -/

section Lookup

variable {α : Type} {l l' : List (String × α)} {name : String} {a : α}

/-- Where no name comes twice, a name has the value beside it. -/
theorem lookup_eq_some_iff_mem (h : (l.map Prod.fst).Nodup) :
    l.lookup name = some a ↔ (name, a) ∈ l := by
  induction l with
  | nil => simp
  | cons e es ih =>
    obtain ⟨n, b⟩ := e
    obtain ⟨hnew, hnodup⟩ := List.nodup_cons.mp h
    rw [List.lookup_cons, List.mem_cons]
    by_cases hn : name = n
    · subst hn
      have habsent : (name, a) ∉ es := fun hmem => hnew (List.mem_map.mpr ⟨_, hmem, rfl⟩)
      simp [habsent, eq_comm]
    · rw [beq_eq_false_iff_ne.mpr hn, ih hnodup]
      simp [hn]

theorem lookup_eq_none_iff_not_mem : l.lookup name = none ↔ name ∉ l.map Prod.fst := by
  rw [List.lookup_eq_none_iff]
  constructor
  · rintro h hmem
    obtain ⟨e, he, rfl⟩ := List.mem_map.mp hmem
    exact bne_iff_ne.mp (h e he) rfl
  · rintro h e he
    exact bne_iff_ne.mpr fun heq => h (heq ▸ List.mem_map_of_mem he)

/-- The order does not count. -/
theorem lookup_perm (h : (l.map Prod.fst).Nodup) (hp : l.Perm l') :
    l.lookup name = l'.lookup name := by
  refine Option.ext fun a => ?_
  have h' : (l'.map Prod.fst).Nodup := (hp.map Prod.fst).nodup h
  rw [lookup_eq_some_iff_mem h, lookup_eq_some_iff_mem h', hp.mem_iff]

end Lookup

/-! ## Strings -/

variable {fuel : Nat} {done cs rest : List Char}

/-- A character given by two digits in base 16. -/
theorem numbered?_hexDigit {a b : Nat} (ha : a < 16) (hb : b < 16) (cs : List Char) :
    numbered? ('0' :: '0' :: Text.hexDigit a :: Text.hexDigit b :: cs) =
      some (Char.ofNat (a * 16 + b), cs) := by
  have hzero : Text.hexValue? '0' = some 0 := by decide
  have hfour : fourDigits? ('0' :: '0' :: Text.hexDigit a :: Text.hexDigit b :: cs) =
      some (a * 16 + b, cs) := by
    simp [fourDigits?, hzero, Text.hexValue?_hexDigit ha, Text.hexValue?_hexDigit hb]
  have hlow : ¬ (0xD800 ≤ a * 16 + b ∧ a * 16 + b < 0xDC00) := by omega
  have hvalid : (a * 16 + b).isValidChar := .inl (by omega)
  simp [numbered?, hfour, hlow, hvalid]

/-- A character is read as it was written, with an escape or without. -/
theorem jsonRest?_jsonChar (c : Char) (fuel : Nat) (done cs : List Char) :
    jsonRest? (fuel + 1) done (jsonChar c ++ cs) = jsonRest? fuel (c :: done) cs := by
  unfold jsonChar
  split
  iterate 7 rfl
  rename_i hquote hback _ _ _ _ _
  split
  · rename_i hcontrol
    have hread : jsonEscape? ('u' :: '0' :: '0' :: Text.hexDigit (c.toNat / 16) ::
        Text.hexDigit (c.toNat % 16) :: cs) = some (c, cs) := by
      rw [jsonEscape?, numbered?_hexDigit (by omega) (by omega), Nat.div_add_mod',
        Char.ofNat_toNat]
    show jsonRest? (fuel + 1) done ('\\' :: 'u' :: '0' :: '0' :: Text.hexDigit (c.toNat / 16) ::
      Text.hexDigit (c.toNat % 16) :: cs) = _
    rw [jsonRest?, if_neg (by decide), if_pos rfl, hread]
  · rename_i hcontrol
    show jsonRest? (fuel + 1) done (c :: cs) = _
    rw [jsonRest?, if_neg hquote, if_neg hback, if_neg hcontrol]

theorem jsonChar_ne_nil (c : Char) : jsonChar c ≠ [] := by
  unfold jsonChar
  split
  iterate 7 exact List.cons_ne_nil _ _
  split
  · exact List.cons_ne_nil _ _
  · exact List.cons_ne_nil _ _

/-- The rest of a string is read up to the quote that ends it. -/
theorem jsonRest?_flatMap (cs rest : List Char) (h : (cs.flatMap jsonChar).length < fuel) :
    jsonRest? fuel done (cs.flatMap jsonChar ++ '"' :: rest) =
      some (String.ofList (done.reverse ++ cs), rest) := by
  induction cs generalizing fuel done with
  | nil =>
    obtain ⟨fuel, rfl⟩ := Nat.exists_eq_add_one.mpr (Nat.zero_lt_of_lt h)
    rw [List.append_nil]
    rfl
  | cons c cs ih =>
    obtain ⟨fuel, rfl⟩ := Nat.exists_eq_add_one.mpr (Nat.zero_lt_of_lt h)
    have hpos := List.length_pos_iff.mpr (jsonChar_ne_nil c)
    rw [List.flatMap_cons, List.length_append] at h
    rw [List.flatMap_cons, List.append_assoc, jsonRest?_jsonChar, ih (by omega),
      List.reverse_cons, List.append_assoc, List.singleton_append]

theorem toList_jsonText (s : String) :
    (jsonText s).toList = '"' :: (s.toList.flatMap jsonChar ++ ['"']) := by
  rw [jsonText, String.toList_ofList, List.cons_append]

/-- What follows the quote that begins a string is read with as much fuel as there are
characters. -/
theorem jsonRest?_jsonText (s : String) (rest : List Char) :
    let cs := s.toList.flatMap jsonChar ++ '"' :: rest
    jsonRest? (cs.length + 1) [] cs = some (s, rest) := by
  intro cs
  have hread := @jsonRest?_flatMap (cs.length + 1) [] s.toList rest
    (by simp only [cs, List.length_append]; omega)
  rwa [List.reverse_nil, List.nil_append, String.ofList_toList] at hread

/-! ## Numbers -/

/-- `rest` does not go on with a number. -/
def EndsNumber (rest : List Char) : Prop := ∀ c, rest.head? = some c → isNumberChar c = false

theorem endsNumber_cons {c : Char} (h : isNumberChar c = false) : EndsNumber (c :: cs) :=
  fun _ hc => Option.some.inj hc ▸ h

theorem ne_of_isNumberChar {c d : Char} (hc : isNumberChar c = true)
    (hd : isNumberChar d = false) : c ≠ d := by
  rintro rfl
  rw [hc] at hd
  cases hd

/-- All characters of a number are taken, and no more. -/
theorem jsonValue?_number {ds : List Char} (hne : ds ≠ []) (hds : ∀ c ∈ ds, isNumberChar c = true)
    (hrest : EndsNumber rest) (fuel : Nat) :
    jsonValue? (fuel + 1) (ds ++ rest) = (jsonNumber? ds).map fun d => (d, rest) := by
  have htake : (ds ++ rest).takeWhile isNumberChar = ds := by
    rw [List.takeWhile_append_of_pos hds]
    cases rest with
    | nil => rw [List.takeWhile_nil, List.append_nil]
    | cons c cs => rw [List.takeWhile_cons_of_neg (by simp [hrest c rfl]), List.append_nil]
  obtain ⟨c, cs, rfl⟩ := List.exists_cons_of_ne_nil hne
  have hc := hds c List.mem_cons_self
  have hblank : isJsonBlank c = false := by
    simp only [isJsonBlank, Bool.or_eq_false_iff, decide_eq_false_iff_not]
    exact ⟨⟨⟨ne_of_isNumberChar hc (by decide), ne_of_isNumberChar hc (by decide)⟩,
      ne_of_isNumberChar hc (by decide)⟩, ne_of_isNumberChar hc (by decide)⟩
  rw [jsonValue?, List.cons_append, List.dropWhile_cons_of_neg (by simp [hblank])]
  split
  iterate 6
    rename_i heq
    exact absurd (List.cons.inj heq).1 (ne_of_isNumberChar hc (by decide))
  rw [List.cons_append] at htake
  simp only [htake]
  rw [← List.cons_append, List.drop_left]

theorem isNumberChar_of_mem_toDigits {n : Nat} {c : Char} (h : c ∈ Nat.toDigits 10 n) :
    isNumberChar c = true := by
  rw [isNumberChar, Text.isDigit_of_mem_toDigits h, Bool.true_or]

theorem whole?_eq_some_iff {ds : List Char} {n : Nat} :
    whole? ds = some n ↔ ds = Nat.toDigits 10 n := by
  rw [whole?, Option.filter_eq_some_iff, decide_eq_true_eq]
  constructor
  · rintro ⟨-, h⟩
    exact h.symm
  · rintro rfl
    exact ⟨Text.decimal?_toDigits n, rfl⟩

/-- Digits alone are a number without a sign if they are the digits of that number. -/
theorem unsigned?_eq_some_iff {ds : List Char} {n : Nat} :
    unsigned? ds = some (some n) ↔ ds = Nat.toDigits 10 n := by
  have hsplit := List.takeWhile_append_dropWhile (p := Text.isDigit) (l := ds)
  simp only [unsigned?, Option.bind_eq_bind, Option.bind_eq_some_iff]
  constructor
  · rintro ⟨m, hm, h⟩
    split at h
    · rename_i hrest
      rw [hrest, List.append_nil] at hsplit
      cases h
      rw [← hsplit]
      exact whole?_eq_some_iff.mp hm
    · split at h <;> cases h
  · rintro rfl
    have hdigits : ∀ c ∈ Nat.toDigits 10 n, Text.isDigit c = true :=
      fun _ => Text.isDigit_of_mem_toDigits
    refine ⟨n, whole?_eq_some_iff.mpr (List.takeWhile_eq_self_iff.mpr hdigits), ?_⟩
    rw [List.dropWhile_eq_nil_iff.mpr hdigits]
    rfl

theorem toList_toString_ofNat (m : Nat) : (toString (Int.ofNat m)).toList = Nat.toDigits 10 m :=
  Nat.toList_repr

theorem toList_toString_negSucc (m : Nat) :
    (toString (Int.negSucc m)).toList = '-' :: Nat.toDigits 10 (m + 1) := by
  show ("-" ++ (m + 1).repr).toList = _
  rw [String.toList_append, Nat.toList_repr]
  rfl

/-- **An integer has one spelling,** the one in which it is written. -/
theorem jsonNumber?_eq_some_int_iff {cs : List Char} {n : Int} :
    jsonNumber? cs = some (.int n) ↔ cs = (toString n).toList := by
  constructor
  · unfold jsonNumber?
    split
    · rename_i ds
      rw [Option.map_eq_some_iff]
      rintro ⟨x, hx, h⟩
      split at h
      · cases h
      · rename_i m hm
        obtain ⟨m, rfl⟩ := Nat.exists_eq_add_one_of_ne_zero hm
        cases h
        rw [unsigned?_eq_some_iff.mp hx]
        exact (toList_toString_negSucc m).symm
      · cases h
    · rw [Option.map_eq_some_iff]
      rintro ⟨x, hx, h⟩
      split at h
      · rename_i m
        cases h
        rw [unsigned?_eq_some_iff.mp hx]
        exact (toList_toString_ofNat m).symm
      · cases h
  · rintro rfl
    cases n with
    | ofNat m =>
      rw [toList_toString_ofNat]
      unfold jsonNumber?
      split
      · rename_i ds heq
        have hmem : '-' ∈ Nat.toDigits 10 m := heq ▸ List.mem_cons_self
        exact absurd (Text.isDigit_of_mem_toDigits hmem) (by decide)
      · rw [unsigned?_eq_some_iff.mpr rfl]
        rfl
    | negSucc m =>
      rw [toList_toString_negSucc, jsonNumber?, unsigned?_eq_some_iff.mpr rfl]
      rfl

/-- No zeros in front, one sign, and digits behind an `e`. -/
example : ["08080", "--1", "1e"].map (fun s => (jsonNumber? s.toList).isSome) =
    [false, false, false] := by decide

theorem isNumberChar_of_mem_toString {n : Int} {c : Char} (h : c ∈ (toString n).toList) :
    isNumberChar c = true := by
  cases n with
  | ofNat m =>
    rw [toList_toString_ofNat] at h
    exact isNumberChar_of_mem_toDigits h
  | negSucc m =>
    rw [toList_toString_negSucc] at h
    rcases List.mem_cons.mp h with rfl | h
    · decide
    · exact isNumberChar_of_mem_toDigits h

/-- An integer is read as the integer that was written. -/
theorem jsonValue?_toString (n : Int) (fuel : Nat) (hrest : EndsNumber rest) :
    jsonValue? (fuel + 1) ((toString n).toList ++ rest) = some (.int n, rest) := by
  have hne : (toString n).toList ≠ [] := by
    cases n with
    | ofNat m =>
      rw [toList_toString_ofNat]
      exact Nat.toDigits_ne_nil
    | negSucc m =>
      rw [toList_toString_negSucc]
      exact List.cons_ne_nil _ _
  rw [jsonValue?_number hne (fun _ => isNumberChar_of_mem_toString) hrest,
    jsonNumber?_eq_some_int_iff.mpr rfl]
  rfl

/-! ## Values -/

/-- There is a text for the value: it has no numbers but integers, no moments, and no name twice in
one record. -/
inductive IsPlain : Data → Prop where
  | null : IsPlain .null
  | bool (b : Bool) : IsPlain (.bool b)
  | int (n : Int) : IsPlain (.int n)
  | text (s : String) : IsPlain (.text s)
  | list {items : List Data} : (∀ d ∈ items, IsPlain d) → IsPlain (.list items)
  | record {fields : List (String × Data)} : (fields.map Prod.fst).Nodup →
    (∀ e ∈ fields, IsPlain e.2) → IsPlain (.record fields)

/-- The value is read in front of any rest, with fuel for each of its characters. -/
def ReadsBack (d : Data) : Prop := ∀ fuel rest, d.json.toList.length ≤ fuel → EndsNumber rest →
  jsonValue? (fuel + 1) (d.json.toList ++ rest) = some (d, rest)

theorem jsonItems_eq_map (items : List Data) : jsonItems items = items.map json := by
  induction items with
  | nil => rfl
  | cons d ds ih => rw [jsonItems, ih, List.map_cons]

/-- A field as it is written. -/
def jsonField (e : String × Data) : List Char := (jsonText e.1).toList ++ ':' :: e.2.json.toList

theorem map_jsonFields (fields : List (String × Data)) :
    (jsonFields fields).map String.toList = fields.map jsonField := by
  induction fields with
  | nil => rfl
  | cons e es ih =>
    rw [jsonFields, List.map_cons, List.map_cons, ih, String.toList_append, String.toList_append,
      List.append_assoc]
    rfl

theorem toList_json_list (items : List Data) : (Data.list items).json.toList =
    '[' :: ([','].intercalate (items.map fun d => d.json.toList) ++ [']']) := by
  rw [json, String.toList_append, String.toList_append, String.toList_intercalate,
    jsonItems_eq_map, List.map_map]
  rfl

theorem toList_json_record (fields : List (String × Data)) : (Data.record fields).json.toList =
    '\x7b' :: ([','].intercalate (fields.map jsonField) ++ ['\x7d']) := by
  rw [json, String.toList_append, String.toList_append, String.toList_intercalate, map_jsonFields]
  rfl

variable {d : Data} {name : String}

theorem jsonItems?_last (hd : ReadsBack d) (hf : d.json.toList.length ≤ fuel) (rest : List Char) :
    jsonItems? (fuel + 2) (d.json.toList ++ ']' :: rest) = some ([d], rest) := by
  rw [jsonItems?, hd fuel _ hf (endsNumber_cons (by decide))]
  rfl

theorem jsonItems?_comma (hd : ReadsBack d) (hf : d.json.toList.length ≤ fuel) (rest : List Char) :
    jsonItems? (fuel + 2) (d.json.toList ++ ',' :: rest) =
      (jsonItems? (fuel + 1) rest).map fun x => (d :: x.1, x.2) := by
  rw [jsonItems?, hd fuel _ hf (endsNumber_cons (by decide))]
  exact Option.map_eq_bind.symm

/-- Items are read up to the bracket that ends them. -/
theorem jsonItems?_intercalate {items : List Data} (hne : items ≠ [])
    (hitems : ∀ d ∈ items, ReadsBack d) (rest : List Char)
    (h : ([','].intercalate (items.map fun d => d.json.toList)).length + 1 < fuel) :
    jsonItems? fuel ([','].intercalate (items.map fun d => d.json.toList) ++ ']' :: rest) =
      some (items, rest) := by
  induction items generalizing fuel with
  | nil => exact absurd rfl hne
  | cons d ds ih =>
    obtain ⟨fuel, rfl⟩ : ∃ n, fuel = n + 2 := ⟨fuel - 2, by omega⟩
    have hd := hitems d List.mem_cons_self
    cases ds with
    | nil =>
      rw [List.map_singleton, List.intercalate_singleton] at h ⊢
      exact jsonItems?_last hd (by omega) rest
    | cons d' ds =>
      rw [List.map_cons, List.map_cons, List.intercalate_cons_cons] at h ⊢
      simp only [List.length_append, List.length_singleton] at h
      have htail := @ih (fuel + 1) (List.cons_ne_nil d' ds)
        (fun x hx => hitems x (List.mem_cons_of_mem d hx)) (by rw [List.map_cons]; omega)
      rw [List.map_cons] at htail
      rw [List.append_assoc, List.append_assoc, List.singleton_append,
        jsonItems?_comma hd (by omega), htail]
      rfl

/-! ### Records -/

/-- The name of a field is read, and what follows the colon is left to be read. -/
theorem jsonPairs?_name (name : String) (cs : List Char) (fuel : Nat) :
    jsonPairs? (fuel + 1) ((jsonText name).toList ++ ':' :: cs) =
      (jsonValue? fuel cs).bind fun x =>
        match x.2.dropWhile isJsonBlank with
        | ',' :: rest => (jsonPairs? fuel rest).bind fun y =>
          some (if (y.1.lookup name).isSome then y.1 else (name, x.1) :: y.1, y.2)
        | '\x7d' :: rest => some ([(name, x.1)], rest)
        | _ => none := by
  have hname := jsonRest?_jsonText name (':' :: cs)
  rw [toList_jsonText, jsonPairs?, List.cons_append, List.append_assoc, List.singleton_append,
    List.dropWhile_cons_of_neg (by decide)]
  simp only [hname]
  rfl

theorem jsonPairs?_last (hd : ReadsBack d) (hf : d.json.toList.length ≤ fuel) (name : String)
    (rest : List Char) : jsonPairs? (fuel + 2) (jsonField (name, d) ++ '\x7d' :: rest) =
      some ([(name, d)], rest) := by
  rw [jsonField, List.append_assoc, List.cons_append, jsonPairs?_name,
    hd fuel _ hf (endsNumber_cons (by decide))]
  rfl

theorem jsonPairs?_comma (hd : ReadsBack d) (hf : d.json.toList.length ≤ fuel) (name : String)
    (rest : List Char) : jsonPairs? (fuel + 2) (jsonField (name, d) ++ ',' :: rest) =
      (jsonPairs? (fuel + 1) rest).bind fun x =>
        some (if (x.1.lookup name).isSome then x.1 else (name, d) :: x.1, x.2) := by
  rw [jsonField, List.append_assoc, List.cons_append, jsonPairs?_name,
    hd fuel _ hf (endsNumber_cons (by decide))]
  rfl

/-- Fields are read up to the brace that ends them. None is dropped if no name comes twice. -/
theorem jsonPairs?_intercalate {fields : List (String × Data)} (hne : fields ≠ [])
    (hfields : ∀ e ∈ fields, ReadsBack e.2) (hnames : (fields.map Prod.fst).Nodup)
    (rest : List Char) (h : ([','].intercalate (fields.map jsonField)).length + 1 < fuel) :
    jsonPairs? fuel ([','].intercalate (fields.map jsonField) ++ '\x7d' :: rest) =
      some (fields, rest) := by
  induction fields generalizing fuel with
  | nil => exact absurd rfl hne
  | cons e es ih =>
    obtain ⟨fuel, rfl⟩ : ∃ n, fuel = n + 2 := ⟨fuel - 2, by omega⟩
    obtain ⟨name, d⟩ := e
    have hd : ReadsBack d := hfields _ List.mem_cons_self
    have hfield : d.json.toList.length ≤ (jsonField (name, d)).length := by
      simp only [jsonField, List.length_append, List.length_cons]
      omega
    cases es with
    | nil =>
      rw [List.map_singleton, List.intercalate_singleton] at h ⊢
      exact jsonPairs?_last hd (by omega) name rest
    | cons e' es =>
      obtain ⟨hnew, hnames'⟩ := List.nodup_cons.mp hnames
      rw [List.map_cons, List.map_cons, List.intercalate_cons_cons] at h ⊢
      simp only [List.length_append, List.length_singleton] at h
      have htail := @ih (fuel + 1) (List.cons_ne_nil e' es)
        (fun x hx => hfields x (List.mem_cons_of_mem _ hx)) hnames' (by rw [List.map_cons]; omega)
      have hlookup : (e' :: es).lookup name = none := lookup_eq_none_iff_not_mem.mpr hnew
      rw [List.map_cons] at htail
      rw [List.append_assoc, List.append_assoc, List.singleton_append,
        jsonPairs?_comma hd (by omega), htail, Option.bind_some, hlookup]
      rfl

/-! ### All values -/

/-- No value begins with a bracket that ends a list. -/
theorem jsonItems?_bracket (fuel : Nat) (rest : List Char) :
    jsonItems? fuel (']' :: rest) = none := by
  have hvalue : ∀ fuel, jsonValue? fuel (']' :: rest) = none
    | 0 => rfl
    | _ + 1 => rfl
  cases fuel with
  | zero => rfl
  | succ fuel =>
    rw [jsonItems?, hvalue]
    rfl

/-- Blanks in front are passed over. -/
theorem jsonItems?_dropWhile (fuel : Nat) (cs : List Char) :
    jsonItems? fuel (cs.dropWhile isJsonBlank) = jsonItems? fuel cs := by
  have hvalue : ∀ fuel, jsonValue? fuel (cs.dropWhile isJsonBlank) = jsonValue? fuel cs
    | 0 => rfl
    | _ + 1 => by rw [jsonValue?, jsonValue?, List.dropWhile_idempotent]
  cases fuel with
  | zero => rfl
  | succ fuel => rw [jsonItems?, jsonItems?, hvalue]

theorem readsBack_list {items : List Data} (h : ∀ d ∈ items, ReadsBack d) :
    ReadsBack (.list items) := by
  intro fuel rest hf hrest
  rw [toList_json_list] at hf ⊢
  by_cases hne : items = []
  · subst hne
    rfl
  · rw [List.length_cons, List.length_append, List.length_singleton] at hf
    have hitems := jsonItems?_intercalate hne h rest hf
    rw [List.cons_append, List.append_assoc, List.singleton_append, jsonValue?,
      List.dropWhile_cons_of_neg (by decide)]
    rw [← jsonItems?_dropWhile] at hitems
    -- The reader looks for the closing bracket first: an item that is read does not begin with one.
    simp only
    split
    · rename_i heq
      rw [heq, jsonItems?_bracket] at hitems
      cases hitems
    · rw [hitems]
      rfl

theorem readsBack_record {fields : List (String × Data)} (hnames : (fields.map Prod.fst).Nodup)
    (h : ∀ e ∈ fields, ReadsBack e.2) : ReadsBack (.record fields) := by
  intro fuel rest hf hrest
  rw [toList_json_record] at hf ⊢
  cases fields with
  | nil => rfl
  | cons e es =>
    rw [List.length_cons, List.length_append, List.length_singleton] at hf
    have hfields := jsonPairs?_intercalate (List.cons_ne_nil e es) h hnames rest hf
    -- the name of the first field begins with a quote
    obtain ⟨cs, hcs⟩ : ∃ cs, [','].intercalate ((e :: es).map jsonField) = '"' :: cs := by
      rw [List.map_cons, jsonField, toList_jsonText, List.cons_append,
        List.intercalate_cons_cons_left]
      exact ⟨_, rfl⟩
    rw [hcs] at hfields ⊢
    rw [List.cons_append, List.append_assoc, List.singleton_append, jsonValue?,
      List.dropWhile_cons_of_neg (by decide)]
    show (jsonPairs? fuel ('"' :: cs ++ '\x7d' :: rest)).map _ = _
    rw [hfields]
    rfl

theorem IsPlain.readsBack {d : Data} (h : IsPlain d) : ReadsBack d := by
  induction h with
  | null => exact fun _ _ _ _ => rfl
  | bool b =>
    cases b with
    | false => exact fun _ _ _ _ => rfl
    | true => exact fun _ _ _ _ => rfl
  | int n => exact fun fuel rest _ hrest => jsonValue?_toString n fuel hrest
  | text s =>
    intro fuel rest _ _
    have hread := jsonRest?_jsonText s rest
    rw [json, toList_jsonText, List.cons_append, List.append_assoc, List.singleton_append,
      jsonValue?, List.dropWhile_cons_of_neg (by decide)]
    simp only [hread]
    rfl
  | list _ ih => exact readsBack_list ih
  | record hnames _ ih => exact readsBack_record hnames ih

/-- **What was written of a value is read as that value.** -/
theorem ofJson?_json {d : Data} (h : IsPlain d) : ofJson? d.json = some d := by
  have hread := h.readsBack d.json.toList.length [] (Nat.le_refl _) (fun _ hc => nomatch hc)
  rw [List.append_nil] at hread
  rw [ofJson?, hread]
  rfl

end Data

end AppHost

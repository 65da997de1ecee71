import AppHost.Text.Ascii

/-!
# Header fields

A field name is a token in lower case; a field value is a sequence of bytes without controls
other than the tab. A message keeps its fields in the order in which they were added, and a name
may occur many times.
-/

namespace AppHost

abbrev Bytes := List UInt8

namespace Text

/-- The UTF-8 bytes of `s`. -/
def bytes (s : String) : Bytes := s.toUTF8.toList

/-- The text that `bs` is the UTF-8 form of. -/
def ofBytes? (bs : Bytes) : Option String := String.fromUTF8? ⟨bs.toArray⟩

end Text

namespace Http

/-- The characters of a token: letters, digits and fifteen signs. -/
def isTokenChar (c : Char) : Bool :=
  ('a' ≤ c && c ≤ 'z') || ('A' ≤ c && c ≤ 'Z') || Text.isDigit c || "!#$%&'*+-.^_`|~".toList.contains c

def isToken (s : String) : Bool := !s.isEmpty && s.toList.all isTokenChar

/-- The lower-case name that `s` spells, if it is a token of fewer than `2 ^ 16` characters. -/
def headerName? (s : String) : Option String :=
  if isToken s && s.length < UInt16.size then some (Text.lowerCase s) else none

structure HeaderValue where
  bytes : Bytes
  deriving DecidableEq, Repr

namespace HeaderValue

def isLegalByte (b : UInt8) : Bool := (32 ≤ b && b != 127) || b == 9

def ofBytes? (bs : Bytes) : Option HeaderValue := if bs.all isLegalByte then some ⟨bs⟩ else none

def ofString? (s : String) : Option HeaderValue := ofBytes? (Text.bytes s)

/-- The value as text, which it is if all its bytes are printable ASCII or tabs. -/
def text? (v : HeaderValue) : Option String :=
  if v.bytes.all fun b => (32 ≤ b && b < 127) || b == 9 then
    some (String.ofList (v.bytes.map fun b => Char.ofNat b.toNat))
  else none

theorem ofBytes?_eq_some_iff {bs : Bytes} {v : HeaderValue} :
    ofBytes? bs = some v ↔ v.bytes = bs ∧ bs.all isLegalByte = true := by
  obtain ⟨vs⟩ := v
  by_cases h : bs.all isLegalByte = true
  · simp only [ofBytes?, if_pos h, Option.some.injEq, HeaderValue.mk.injEq]
    exact ⟨fun e => ⟨e.symm, h⟩, fun e => e.1.symm⟩
  · simp [ofBytes?, h]

end HeaderValue

/-- The fields of a message, in order; names are in lower case. -/
abbrev Headers := List (String × HeaderValue)

namespace Headers

/-- The first value under `name`. -/
def first? (hs : Headers) (name : String) : Option HeaderValue := hs.lookup name

/-- All values under `name`, in order. -/
def values (hs : Headers) (name : String) : List HeaderValue :=
  (hs.filter fun h => h.1 == name).map Prod.snd

/-- With one more value under `name`, after all others. -/
def append (hs : Headers) (name : String) (v : HeaderValue) : Headers := hs ++ [(name, v)]

/-- With `v` as the only value under `name`. -/
def set (hs : Headers) (name : String) (v : HeaderValue) : Headers :=
  (hs.filter fun h => h.1 != name) ++ [(name, v)]

/-- With `v` under `name` unless there is a value already. -/
def setIfAbsent (hs : Headers) (name : String) (v : HeaderValue) : Headers :=
  if (hs.first? name).isSome then hs else hs.append name v

/-- The fields sorted by name, values of one name in their order. -/
def sorted (hs : Headers) : Headers := hs.mergeSort fun a b => decide (a.1 ≤ b.1)

/-- The fields that the given raw names and values spell, if all of them are legal. -/
def ofRaw? (raw : List (Bytes × Bytes)) : Option Headers :=
  raw.mapM fun (n, v) => do
    let name ← headerName? (← Text.ofBytes? n)
    return (name, ← HeaderValue.ofBytes? v)

end Headers

end Http

end AppHost

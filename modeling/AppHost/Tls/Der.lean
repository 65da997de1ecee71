import AppHost.Http.Header

/-!
# DER

A binary encoding of structured values. Every value has a tag, a length and a content; the content
of a sequence is a row of values.
-/

namespace AppHost.Tls

structure Der where
  tag : UInt8
  content : Bytes
  /-- The value as it is written, tag and length included. -/
  written : Bytes
  deriving DecidableEq, Repr

namespace Der

def number (bs : Bytes) : Nat := bs.foldl (fun n b => n * 256 + b.toNat) 0

/-- A length: a byte below 128, or the count of the bytes that hold it. -/
def length? : Bytes → Option (Nat × Bytes)
  | [] => none
  | b :: bs =>
    let n := b.toNat
    if n < 128 then some (n, bs)
    else if n = 128 ∨ 132 < n ∨ bs.length < n - 128 then none
    else some (number (bs.take (n - 128)), bs.drop (n - 128))

/-- The value at the front of `bs`, and what follows it. -/
def first? (bs : Bytes) : Option (Der × Bytes) :=
  match bs with
  | [] => none
  | tag :: rest =>
    match length? rest with
    | none => none
    | some (n, rest) =>
      if rest.length < n then none
      else some (⟨tag, rest.take n, bs.take (bs.length - (rest.length - n))⟩, rest.drop n)

def rowFrom : Nat → Bytes → Option (List Der)
  | _, [] => some []
  | 0, _ => none
  | fuel + 1, bs => do
    let (d, rest) ← first? bs
    return d :: (← rowFrom fuel rest)

/-- The values that `bs` consists of. -/
def row (bs : Bytes) : Option (List Der) := rowFrom bs.length bs

def integerTag : UInt8 := 2
def bitStringTag : UInt8 := 3
def octetStringTag : UInt8 := 4
def nullTag : UInt8 := 5
def objectTag : UInt8 := 6
def sequenceTag : UInt8 := 48

/-- The values inside a sequence. -/
def sequence? (d : Der) : Option (List Der) := if d.tag = sequenceTag then row d.content else none

/-- The values inside the only sequence that `bs` consists of. -/
def sequenceOf? (bs : Bytes) : Option (List Der) := do
  match ← first? bs with
  | (d, []) => d.sequence?
  | _ => none

def octets? (d : Der) : Option Bytes := if d.tag = octetStringTag then some d.content else none

/-- The bits of a bit string that fills its bytes. -/
def bits? (d : Der) : Option Bytes :=
  match d.content with
  | 0 :: bs => if d.tag = bitStringTag then some bs else none
  | _ => none

end Der

end AppHost.Tls

import AppHost.Http.Header

/-!
# PEM files

A text file that carries binary sections, each between a begin line and an end line that name what
it is, written in base 64. What stands outside of the sections is ignored.
-/

namespace AppHost.Tls

/-! ## Base 64 -/

/-- The value of a digit in base 64. -/
def base64Value? (b : UInt8) : Option Nat :=
  let c := b.toNat
  if 65 ≤ c ∧ c ≤ 90 then some (c - 65)
  else if 97 ≤ c ∧ c ≤ 122 then some (c - 71)
  else if 48 ≤ c ∧ c ≤ 57 then some (c + 4)
  else if c = 43 then some 62
  else if c = 47 then some 63
  else none

def isBlankByte (b : UInt8) : Bool := b = 9 || b = 10 || b = 13 || b = 32

/-- The bytes that up to four digits denote, six bits each. -/
def base64Group : List Nat → Bytes
  | [a, b] => [.ofNat (a * 4 + b / 16)]
  | [a, b, c] => [.ofNat (a * 4 + b / 16), .ofNat (b % 16 * 16 + c / 4)]
  | [a, b, c, d] => [.ofNat (a * 4 + b / 16), .ofNat (b % 16 * 16 + c / 4), .ofNat (c % 4 * 64 + d)]
  | _ => []

def base64Groups : List Nat → Bytes
  | a :: b :: c :: d :: rest => base64Group [a, b, c, d] ++ base64Groups rest
  | rest => base64Group rest

/-- The bytes that a text in base 64 denotes. Blanks do not count; up to two signs of padding fill
the last group, which never has a single digit. -/
def base64? (text : Bytes) : Option Bytes := do
  let text := text.filter fun b => !isBlankByte b
  let digits := text.takeWhile (· != 61)
  let padding := text.drop digits.length
  let values ← digits.mapM base64Value?
  guard (padding.all (· == 61) && (values.length + padding.length) % 4 = 0 && padding.length ≤ 2)
  return base64Groups values

/-! ## Sections -/

structure PemSection where
  label : Bytes
  content : Bytes
  deriving DecidableEq, Repr

/-- Why a section is of no use. -/
inductive PemError where
  | noEnd
  | badBegin
  | badContent
  deriving DecidableEq, Repr

/-- The lines of a file; a line feed or a carriage return ends a line. -/
def lines : Bytes → List Bytes
  | [] => [[]]
  | b :: bs =>
    if b = 10 ∨ b = 13 then [] :: lines bs
    else match lines bs with
      | [] => [[b]]
      | l :: ls => (b :: l) :: ls

def beginMark : Bytes := Text.bytes "-----BEGIN "

def endMark (label : Bytes) : Bytes := Text.bytes "-----END " ++ label ++ Text.bytes "-----"

/-- The label of a begin line, which ends with exactly five dashes. -/
def beginLabel? (line : Bytes) : Option Bytes :=
  let rest := (line.drop beginMark.length).reverse.dropWhile (· == 32)
  if (rest.takeWhile (· == 45)).length = 5 then some (rest.drop 5).reverse else none

/-- The labels whose content is looked at. -/
def knownLabels : List Bytes :=
  ["CERTIFICATE", "PUBLIC KEY", "RSA PRIVATE KEY", "PRIVATE KEY", "EC PRIVATE KEY", "X509 CRL",
    "CERTIFICATE REQUEST", "ECHCONFIG"].map Text.bytes

/-- A finished section, or nothing if nobody looks at its content. -/
def finish (label body : Bytes) : Option (Except PemError PemSection) :=
  if knownLabels.contains label then
    match base64? body with
    | some content => some (.ok ⟨label, content⟩)
    | none => some (.error .badContent)
  else none

/-- The sections in some lines, given the label and the body of the section that is open. -/
def sectionsFrom (current : Option (Bytes × Bytes)) : List Bytes → List (Except PemError PemSection)
  | [] => if current.isSome then [.error .noEnd] else []
  | line :: rest =>
    if beginMark.isPrefixOf line then
      match beginLabel? line with
      | some label => sectionsFrom (some (label, (current.map Prod.snd).getD [])) rest
      | none => .error .badBegin :: sectionsFrom none rest
    else match current with
      | none => sectionsFrom none rest
      | some (label, body) =>
        if (endMark label).isPrefixOf line then
          (finish label body).toList ++ sectionsFrom none rest
        else sectionsFrom (some (label, body ++ line)) rest

/-- The sections of a file in order. -/
def sections (file : Bytes) : List (Except PemError PemSection) := sectionsFrom none (lines file)

example : base64? (Text.bytes "aGk=") = some (Text.bytes "hi") := by decide +kernel

end AppHost.Tls

import AppHost.Http.Header

/-!
# Bytes shown as text

Any sequence of bytes has a text: the characters that it encodes in UTF-8, and one replacement
character for every longest piece that begins like a character and is not one.
-/

namespace AppHost.Text

/-- What the first byte of a character of several bytes says: how many bytes follow, the range of
the first of them, and the leading bits of the character. -/
structure Lead where
  more : Nat
  least : Nat
  most : Nat
  bits : Nat

def lead? (b : Nat) : Option Lead :=
  if 0xC2 ≤ b ∧ b ≤ 0xDF then some ⟨1, 0x80, 0xBF, b - 0xC0⟩
  else if b = 0xE0 then some ⟨2, 0xA0, 0xBF, 0⟩
  else if b = 0xED then some ⟨2, 0x80, 0x9F, 0xD⟩
  else if 0xE1 ≤ b ∧ b ≤ 0xEF then some ⟨2, 0x80, 0xBF, b - 0xE0⟩
  else if b = 0xF0 then some ⟨3, 0x90, 0xBF, 0⟩
  else if 0xF1 ≤ b ∧ b ≤ 0xF3 then some ⟨3, 0x80, 0xBF, b - 0xF0⟩
  else if b = 0xF4 then some ⟨3, 0x80, 0x8F, 4⟩
  else none

def replacement : Char := '\ufffd'

/-- The character whose remaining bytes `bs` begins with, or the replacement character at the
first byte that does not fit; and what is left. -/
def tail : Lead → Bytes → Char × Bytes
  | ⟨0, _, _, bits⟩, bs => (Char.ofNat bits, bs)
  | ⟨_ + 1, _, _, _⟩, [] => (replacement, [])
  | ⟨n + 1, least, most, bits⟩, b :: bs =>
    if least ≤ b.toNat ∧ b.toNat ≤ most then tail ⟨n, 0x80, 0xBF, bits * 64 + b.toNat % 64⟩ bs
    else (replacement, b :: bs)
termination_by _ bs => bs.length

theorem length_tail_le (l : Lead) (bs : Bytes) : (tail l bs).2.length ≤ bs.length := by
  fun_induction tail l bs with
  | case1 => simp
  | case2 => simp
  | case3 _ _ _ _ _ _ _ ih => simp only [List.length_cons]; omega
  | case4 => simp

def lossyChars : Bytes → List Char
  | [] => []
  | b :: bs =>
    if b.toNat < 0x80 then Char.ofNat b.toNat :: lossyChars bs
    else match lead? b.toNat with
      | none => replacement :: lossyChars bs
      | some l => (tail l bs).1 :: lossyChars (tail l bs).2
termination_by bs => bs.length
decreasing_by
  · simp
  · simp
  · have := length_tail_le l bs
    simp only [List.length_cons]
    omega

/-- The text of `bs`. -/
def lossy (bs : Bytes) : String := String.ofList (lossyChars bs)

example : lossy [0xff, 0x41] = "\ufffdA" := by decide +kernel

example : lossy [0xe2, 0x82, 0xac, 0xe2, 0x82, 0x41] = "€\ufffdA" := by decide +kernel

end AppHost.Text

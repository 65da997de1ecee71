import AppHost.Http.Header
import Mathlib.Data.List.Basic
import Mathlib.Tactic.ByContra

/-!
# The bytes of a text

A text is written character by character (`bytes_eq`), so that the bytes of two texts in a row are
those of the first and then those of the second, and texts with the same bytes are the same. An ASCII
character has one byte, its own number. All others have bytes beyond ASCII only
(`isAscii_of_mem_bytes`).
-/

namespace AppHost.Text

/-- The bytes of an array that is read from the slot `i` on, behind those of `done`, reversed. -/
theorem toList_loop (bs : ByteArray) (i : Nat) (done : Bytes) :
    ByteArray.toList.loop bs i done = done.reverse ++ bs.data.toList.drop i := by
  fun_induction ByteArray.toList.loop bs i done with
  | case1 i done h ih =>
    have hi : i < bs.data.toList.length := by simpa using h
    rw [ih, List.drop_eq_getElem_cons hi, List.reverse_cons, List.append_assoc]
    simp [ByteArray.get!, h]
  | case2 i done h =>
    rw [List.drop_eq_nil_of_le (by simpa using Nat.le_of_not_lt h), List.append_nil]

theorem toList_byteArray (bs : ByteArray) : bs.toList = bs.data.toList := by
  rw [ByteArray.toList, toList_loop]
  rfl

theorem bytes_eq (s : String) : bytes s = s.toList.flatMap String.utf8EncodeChar := by
  rw [bytes, toList_byteArray, String.toUTF8_eq_toByteArray, ← String.utf8Encode_toList]
  exact List.toList_data_toByteArray

theorem bytes_append (s t : String) : bytes (s ++ t) = bytes s ++ bytes t := by
  rw [bytes_eq, bytes_eq, bytes_eq, String.toList_append, List.flatMap_append]

theorem bytes_inj {s t : String} : bytes s = bytes t ↔ s = t := by
  refine ⟨fun h => ?_, congrArg bytes⟩
  rw [bytes, bytes, toList_byteArray, toList_byteArray] at h
  exact String.toByteArray_inj.mp (ByteArray.ext (Array.toList_inj.mp h))

/-! ## ASCII -/

/-- All characters are ASCII. -/
def IsAscii (s : String) : Prop := ∀ c ∈ s.toList, c.toNat < 128

instance (s : String) : Decidable (IsAscii s) := List.decidableBAll _ s.toList

theorem utf8EncodeChar_of_ascii {c : Char} (h : c.toNat < 128) :
    String.utf8EncodeChar c = [UInt8.ofNat c.toNat] := by
  have hle : c.val.toNat ≤ 127 := Nat.le_of_lt_succ h
  rw [String.utf8EncodeChar, if_pos hle]
  rfl

/-- A character with an ASCII byte is ASCII. -/
theorem isAscii_of_mem_utf8EncodeChar {c : Char} {b : UInt8} (hb : b ∈ String.utf8EncodeChar c)
    (hlt : b < 128) : c.toNat < 128 := by
  by_contra hc
  have hle : ¬ c.val.toNat ≤ 127 := fun h => hc (Nat.lt_succ_of_le h)
  have hnat : b.toNat < 128 := hlt
  rw [String.utf8EncodeChar, if_neg hle] at hb
  -- two, three or four bytes, none of which is below 128
  split at hb
  · simp only [List.mem_cons, List.not_mem_nil, or_false] at hb
    rcases hb with rfl | rfl <;> simp only [UInt8.toNat_ofNat'] at hnat <;> omega
  · split at hb
    · simp only [List.mem_cons, List.not_mem_nil, or_false] at hb
      rcases hb with rfl | rfl | rfl <;> simp only [UInt8.toNat_ofNat'] at hnat <;> omega
    · simp only [List.mem_cons, List.not_mem_nil, or_false] at hb
      rcases hb with rfl | rfl | rfl | rfl <;> simp only [UInt8.toNat_ofNat'] at hnat <;> omega

theorem isAscii_of_mem_bytes {s : String} (h : ∀ b ∈ bytes s, b < 128) : IsAscii s := by
  intro c hc
  have hne : String.utf8EncodeChar c ≠ [] := by
    rw [← List.length_pos_iff, String.length_utf8EncodeChar]
    exact c.utf8Size_pos
  obtain ⟨b, hb⟩ := List.exists_mem_of_ne_nil _ hne
  refine isAscii_of_mem_utf8EncodeChar hb (h b ?_)
  rw [bytes_eq]
  exact List.mem_flatMap.mpr ⟨c, hc, hb⟩

theorem bytes_of_isAscii {s : String} (h : IsAscii s) :
    bytes s = s.toList.map fun c => UInt8.ofNat c.toNat := by
  rw [bytes_eq, List.map_eq_flatMap]
  exact List.flatMap_congr fun c hc => utf8EncodeChar_of_ascii (h c hc)

theorem lt_of_mem_bytes {s : String} (h : IsAscii s) {b : UInt8} (hb : b ∈ bytes s) : b < 128 := by
  rw [bytes_of_isAscii h] at hb
  obtain ⟨c, hc, rfl⟩ := List.mem_map.mp hb
  have hlt := h c hc
  show (UInt8.ofNat c.toNat).toNat < 128
  rw [UInt8.toNat_ofNat']
  omega

theorem toNat_ofNat {n : Nat} (h : n.isValidChar) : (Char.ofNat n).toNat = n := by
  rw [Char.ofNat, dif_pos h]
  rfl

/-- The text whose characters have the numbers `bs` is written in these bytes. -/
theorem bytes_ofList_of_lt {bs : Bytes} (h : ∀ b ∈ bs, b < 128) :
    bytes (String.ofList (bs.map fun b => Char.ofNat b.toNat)) = bs := by
  have hnumber : ∀ b ∈ bs, (Char.ofNat b.toNat).toNat = b.toNat := fun b hb =>
    toNat_ofNat (.inl (Nat.lt_trans (h b hb) (by decide)))
  have hascii : IsAscii (String.ofList (bs.map fun b => Char.ofNat b.toNat)) := by
    intro c hc
    rw [String.toList_ofList] at hc
    obtain ⟨b, hb, rfl⟩ := List.mem_map.mp hc
    rw [hnumber b hb]
    exact h b hb
  have hback : ∀ b ∈ bs, UInt8.ofNat (Char.ofNat b.toNat).toNat = b := fun b hb => by
    rw [hnumber b hb, UInt8.ofNat_toNat]
  rw [bytes_of_isAscii hascii, String.toList_ofList, List.map_map]
  exact (List.map_congr_left hback).trans (List.map_id bs)

end AppHost.Text

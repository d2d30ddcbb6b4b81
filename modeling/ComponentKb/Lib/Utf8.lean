import Mathlib.Data.Char
import Mathlib.Tactic.Common

/-!
# UTF-8

The bytes of a text and the characters of bytes, over lists.

* `toList_toUTF8`, `fromUTF8?_eq_some_iff`: encoding and decoding are inverse.
* `mem_utf8EncodeChar`: a byte below 128 stands for the character of its number, and only for it.
-/

namespace ComponentKb.Lib

/-- The bytes of a text. -/
def utf8Bytes (text : List Char) : List UInt8 := text.flatMap String.utf8EncodeChar

@[simp] theorem utf8Bytes_nil : utf8Bytes [] = [] := rfl

@[simp] theorem utf8Bytes_cons (c : Char) (text : List Char) :
    utf8Bytes (c :: text) = String.utf8EncodeChar c ++ utf8Bytes text := rfl

@[simp] theorem utf8Bytes_append (a b : List Char) :
    utf8Bytes (a ++ b) = utf8Bytes a ++ utf8Bytes b := List.flatMap_append

theorem utf8EncodeChar_of_lt {c : Char} (h : c.toNat < 128) :
    String.utf8EncodeChar c = [UInt8.ofNat c.toNat] := by
  have hle : c.val.toNat ≤ 0x7f := by
    change c.toNat ≤ 127
    omega
  simp only [String.utf8EncodeChar, if_pos hle]
  rfl

/-- A byte below 128 stands for the character of its number, and only for it. -/
theorem mem_utf8EncodeChar {c : Char} {b : UInt8} (hmem : b ∈ String.utf8EncodeChar c)
    (hlt : b.toNat < 128) : c.toNat = b.toNat := by
  have hofNat : ∀ n < 256, (UInt8.ofNat n).toNat = n := fun n hn => by
    rw [UInt8.toNat_ofNat']
    omega
  have hv : c.val.toNat = c.toNat := rfl
  simp only [String.utf8EncodeChar, hv] at hmem
  split at hmem
  · rw [List.mem_singleton] at hmem
    rw [hmem, hofNat _ (by omega)]
  · exfalso
    split at hmem
    · simp only [List.mem_cons, List.not_mem_nil, or_false] at hmem
      obtain rfl | rfl := hmem <;> rw [hofNat _ (by omega)] at hlt <;> omega
    · split at hmem
      · simp only [List.mem_cons, List.not_mem_nil, or_false] at hmem
        obtain rfl | rfl | rfl := hmem <;> rw [hofNat _ (by omega)] at hlt <;> omega
      · simp only [List.mem_cons, List.not_mem_nil, or_false] at hmem
        obtain rfl | rfl | rfl | rfl := hmem <;> rw [hofNat _ (by omega)] at hlt <;> omega

theorem mem_utf8Bytes {text : List Char} {b : UInt8} (hmem : b ∈ utf8Bytes text)
    (hlt : b.toNat < 128) : ∃ c ∈ text, c.toNat = b.toNat := by
  obtain ⟨c, hc, hb⟩ := List.mem_flatMap.mp hmem
  exact ⟨c, hc, mem_utf8EncodeChar hb hlt⟩

/-! ## Byte arrays -/

theorem toList_loop (bytes : ByteArray) (i : Nat) (r : List UInt8) :
    ByteArray.toList.loop bytes i r = r.reverse ++ bytes.data.toList.drop i := by
  induction hn : bytes.size - i generalizing i r with
  | zero =>
    have hle : bytes.data.toList.length ≤ i := by
      rw [Array.length_toList]
      change bytes.size ≤ i
      omega
    rw [ByteArray.toList.loop, if_neg (by omega), List.drop_eq_nil_of_le hle, List.append_nil]
  | succ n ih =>
    have hlt : i < bytes.size := by omega
    have hlt' : i < bytes.data.toList.length := by
      rw [Array.length_toList]
      exact hlt
    have hget : bytes.get! i = bytes.data.toList[i] := by
      rw [Array.getElem_toList]
      exact getElem!_pos bytes.data i hlt
    rw [ByteArray.toList.loop, if_pos hlt, ih (i + 1) _ (by omega), List.reverse_cons,
      List.append_assoc, List.drop_eq_getElem_cons hlt', hget, List.singleton_append]

theorem toList_eq (bytes : ByteArray) : bytes.toList = bytes.data.toList := by
  rw [ByteArray.toList, toList_loop, List.reverse_nil, List.nil_append, List.drop_zero]

theorem toList_toUTF8 (text : List Char) :
    (String.ofList text).toUTF8.toList = utf8Bytes text := by
  rw [String.toUTF8_eq_toByteArray, String.toByteArray_ofList, toList_eq, List.utf8Encode,
    List.toList_data_toByteArray, utf8Bytes]

/-- What decodes is what was encoded. -/
theorem fromUTF8?_eq_some_iff {bytes : List UInt8} {s : String} :
    String.fromUTF8? ⟨bytes.toArray⟩ = some s ↔ bytes = utf8Bytes s.toList := by
  have harray : ∀ text : List Char, bytes = utf8Bytes text ↔
      (⟨bytes.toArray⟩ : ByteArray) = text.utf8Encode := by
    intro text
    constructor
    · rintro rfl
      refine ByteArray.ext (Array.toList_inj.mp ?_)
      rw [List.utf8Encode, List.toList_data_toByteArray, utf8Bytes]
    · intro h
      have hlist := congrArg (fun b : ByteArray => b.data.toList) h
      simpa [List.utf8Encode, List.toList_data_toByteArray, utf8Bytes] using hlist
  rw [harray, String.utf8Encode_toList]
  unfold String.fromUTF8?
  constructor
  · intro h
    split at h
    · rw [← Option.some.inj h]
      rfl
    · cases h
  · intro h
    have hvalid : ByteArray.IsValidUTF8 ⟨bytes.toArray⟩ := h ▸ s.isValidUTF8
    rw [dif_pos hvalid]
    exact congrArg some (String.toByteArray_inj.mp h)

end ComponentKb.Lib

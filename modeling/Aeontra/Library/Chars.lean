import Mathlib.Algebra.GroupWithZero.Nat
import Mathlib.Data.String.Basic

/-!
The characters and the bytes of a text.

Where every byte is ASCII the characters are read off the bytes one by one, which the
kernel evaluates far faster than the decoder; both give the same list.
-/

namespace Aeontra.Library

open List String

def bytes (text : String) : List Nat := text.toByteArray.data.toList.map UInt8.toNat

def chars (text : String) : List Char :=
  if (bytes text).all fun b => b < 128 then (bytes text).map Char.ofNat else text.toList

theorem bytes_ofList (word : List Char) :
    bytes (ofList word) = word.flatMap fun c => (utf8EncodeChar c).map UInt8.toNat := by
  rw [bytes, toByteArray_ofList, List.utf8Encode, data_toByteArray, map_flatMap]

theorem utf8EncodeChar_of_ascii {c : Char} (ascii : ∀ b ∈ (utf8EncodeChar c).map UInt8.toNat, b < 128) :
    (utf8EncodeChar c).map UInt8.toNat = [c.toNat] := by
  have value : c.val.toNat = c.toNat := rfl
  unfold utf8EncodeChar at ascii ⊢
  simp only [value] at ascii ⊢
  by_cases one : c.toNat ≤ 127
  · have small : c.toNat < 2 ^ 8 := by omega
    rw [if_pos one, map_cons, map_nil, UInt8.toNat_ofNat_of_lt' small]
  rw [if_neg one] at ascii
  split at ascii
  · have high := ascii _ mem_cons_self
    rw [UInt8.toNat_ofNat_of_lt' (by change _ < 2 ^ 8; omega)] at high
    omega
  split at ascii
  · have high := ascii _ mem_cons_self
    rw [UInt8.toNat_ofNat_of_lt' (by change _ < 2 ^ 8; omega)] at high
    omega
  · have high := ascii _ mem_cons_self
    rw [UInt8.toNat_ofNat_of_lt' (by change _ < 2 ^ 8; omega)] at high
    omega

theorem ofNat_flatMap_utf8EncodeChar {word : List Char}
    (ascii : ∀ b ∈ word.flatMap fun c => (utf8EncodeChar c).map UInt8.toNat, b < 128) :
    (word.flatMap fun c => (utf8EncodeChar c).map UInt8.toNat).map Char.ofNat = word := by
  induction word with
  | nil => rfl
  | cons c word ih =>
    rw [flatMap_cons] at ascii ⊢
    have first := utf8EncodeChar_of_ascii fun b inside => ascii b (mem_append_left _ inside)
    have rest := ih fun b inside => ascii b (mem_append_right _ inside)
    rw [map_append, rest, first, map_cons, map_nil, Char.ofNat_toNat]
    rfl

@[simp] theorem chars_eq_toList (text : String) : chars text = text.toList := by
  unfold chars
  split
  · rename_i ascii
    rw [all_eq_true] at ascii
    have split : bytes text = text.toList.flatMap fun c => (utf8EncodeChar c).map UInt8.toNat := by
      rw [← bytes_ofList, ofList_toList]
    rw [split] at ascii ⊢
    apply ofNat_flatMap_utf8EncodeChar
    intro b inside
    exact of_decide_eq_true (ascii b inside)
  · rfl

def byteLength (text : String) : Nat := text.utf8ByteSize

@[simp] theorem byteLength_append (a b : String) : byteLength (a ++ b) = byteLength a + byteLength b :=
  utf8ByteSize_append

theorem byteLength_ofList (word : List Char) : byteLength (ofList word) = (word.map Char.utf8Size).sum := by
  rw [byteLength, utf8ByteSize_ofList]
  induction word with
  | nil => rfl
  | cons c word ih => simp [utf8Len_cons, ih, Nat.add_comm]

end Aeontra.Library

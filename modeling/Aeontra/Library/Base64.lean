import Aeontra.Library.Chars

/-!
The URL-safe base64 encoding without padding.
-/

namespace Aeontra.Library

namespace Base64

def alphabet : List Char := chars "ABCDEFGHIJKLMNOPQRSTUVWXYZabcdefghijklmnopqrstuvwxyz0123456789-_"

def digit (n : Nat) : Char := alphabet.getD (n % 64) 'A'

def encode : List Nat → List Char
  | a :: b :: c :: rest =>
    digit (a / 4) :: digit (a % 4 * 16 + b / 16) :: digit (b % 16 * 4 + c / 64) :: digit (c % 64) :: encode rest
  | [a, b] => [digit (a / 4), digit (a % 4 * 16 + b / 16), digit (b % 16 * 4)]
  | [a] => [digit (a / 4), digit (a % 4 * 16)]
  | [] => []

theorem digit_mem (n : Nat) : digit n ∈ alphabet := by
  have all : ∀ k : Fin 64, alphabet.getD k 'A' ∈ alphabet := by decide
  exact all ⟨n % 64, Nat.mod_lt n (by decide)⟩

theorem mem_alphabet_of_mem_encode (l : List Nat) : ∀ c ∈ encode l, c ∈ alphabet := by
  induction l using encode.induct with
  | case1 a b c rest ih =>
    intro d member
    simp only [encode, List.mem_cons] at member
    rcases member with rfl | rfl | rfl | rfl | later
    · exact digit_mem _
    · exact digit_mem _
    · exact digit_mem _
    · exact digit_mem _
    · exact ih d later
  | case2 a b =>
    intro d member
    simp only [encode, List.mem_cons, List.not_mem_nil, or_false] at member
    rcases member with rfl | rfl | rfl
    · exact digit_mem _
    · exact digit_mem _
    · exact digit_mem _
  | case3 a =>
    intro d member
    simp only [encode, List.mem_cons, List.not_mem_nil, or_false] at member
    rcases member with rfl | rfl
    · exact digit_mem _
    · exact digit_mem _
  | case4 => exact fun d member => absurd member List.not_mem_nil

theorem length_encode (l : List Nat) : (encode l).length = (4 * l.length + 2) / 3 := by
  induction l using encode.induct with
  | case1 a b c rest ih =>
    simp only [encode, List.length_cons, ih]
    omega
  | case2 a b => simp [encode]
  | case3 a => simp [encode]
  | case4 => rfl

end Base64

def rawURLEncode (message : List Nat) : String := String.ofList (Base64.encode message)

theorem length_rawURLEncode (message : List Nat) : (rawURLEncode message).length = (4 * message.length + 2) / 3 := by
  rw [rawURLEncode, String.length_ofList, Base64.length_encode]

theorem rawURLEncode_ne {text : String} {c : Char} (inside : c ∈ text.toList) (foreign : c ∉ Base64.alphabet)
    (message : List Nat) : rawURLEncode message ≠ text := by
  rintro rfl
  rw [rawURLEncode, String.toList_ofList] at inside
  exact foreign (Base64.mem_alphabet_of_mem_encode message c inside)

end Aeontra.Library

import Aeontra.Library.Pattern

/-!
SHA-256 of a text's UTF-8 bytes and its lower-case hexadecimal form.  Words are natural
numbers below `2 ^ 32`.
-/

namespace Aeontra.Library

namespace Sha256

def add (a b : Nat) : Nat := (a + b) % 2 ^ 32

def rotateRight (n x : Nat) : Nat := (x >>> n) ||| ((x <<< (32 - n)) % 2 ^ 32)

def complement (x : Nat) : Nat := 2 ^ 32 - 1 - x

def roundConstants : List Nat :=
  [0x428a2f98, 0x71374491, 0xb5c0fbcf, 0xe9b5dba5, 0x3956c25b, 0x59f111f1, 0x923f82a4, 0xab1c5ed5,
    0xd807aa98, 0x12835b01, 0x243185be, 0x550c7dc3, 0x72be5d74, 0x80deb1fe, 0x9bdc06a7, 0xc19bf174,
    0xe49b69c1, 0xefbe4786, 0x0fc19dc6, 0x240ca1cc, 0x2de92c6f, 0x4a7484aa, 0x5cb0a9dc, 0x76f988da,
    0x983e5152, 0xa831c66d, 0xb00327c8, 0xbf597fc7, 0xc6e00bf3, 0xd5a79147, 0x06ca6351, 0x14292967,
    0x27b70a85, 0x2e1b2138, 0x4d2c6dfc, 0x53380d13, 0x650a7354, 0x766a0abb, 0x81c2c92e, 0x92722c85,
    0xa2bfe8a1, 0xa81a664b, 0xc24b8b70, 0xc76c51a3, 0xd192e819, 0xd6990624, 0xf40e3585, 0x106aa070,
    0x19a4c116, 0x1e376c08, 0x2748774c, 0x34b0bcb5, 0x391c0cb3, 0x4ed8aa4a, 0x5b9cca4f, 0x682e6ff3,
    0x748f82ee, 0x78a5636f, 0x84c87814, 0x8cc70208, 0x90befffa, 0xa4506ceb, 0xbef9a3f7, 0xc67178f2]

structure Words where
  a : Nat
  b : Nat
  c : Nat
  d : Nat
  e : Nat
  f : Nat
  g : Nat
  h : Nat

def initial : Words :=
  ⟨0x6a09e667, 0xbb67ae85, 0x3c6ef372, 0xa54ff53a, 0x510e527f, 0x9b05688c, 0x1f83d9ab, 0x5be0cd19⟩

def round (w : Words) (k m : Nat) : Words :=
  let s1 := rotateRight 6 w.e ^^^ rotateRight 11 w.e ^^^ rotateRight 25 w.e
  let ch := (w.e &&& w.f) ^^^ (complement w.e &&& w.g)
  let t1 := add (add (add w.h s1) (add ch k)) m
  let s0 := rotateRight 2 w.a ^^^ rotateRight 13 w.a ^^^ rotateRight 22 w.a
  let maj := (w.a &&& w.b) ^^^ (w.a &&& w.c) ^^^ (w.b &&& w.c)
  ⟨add t1 (add s0 maj), w.a, w.b, w.c, add w.d t1, w.e, w.f, w.g⟩

/-- The sixteen latest words of the message schedule, oldest first, moved on by one. -/
def extend (window : List Nat) : List Nat :=
  let x := window.getD 1 0
  let y := window.getD 14 0
  let s0 := rotateRight 7 x ^^^ rotateRight 18 x ^^^ (x >>> 3)
  let s1 := rotateRight 17 y ^^^ rotateRight 19 y ^^^ (y >>> 10)
  window.tail ++ [add (add (window.getD 0 0) s0) (add (window.getD 9 0) s1)]

def rounds : List Nat → List Nat → Words → Words
  | [], _, w => w
  | k :: constants, window, w => rounds constants (extend window) (round w k (window.getD 0 0))

def Words.add (x y : Words) : Words :=
  ⟨Sha256.add x.a y.a, Sha256.add x.b y.b, Sha256.add x.c y.c, Sha256.add x.d y.d,
    Sha256.add x.e y.e, Sha256.add x.f y.f, Sha256.add x.g y.g, Sha256.add x.h y.h⟩

def compress (w : Words) (block : List Nat) : Words := w.add (rounds roundConstants block w)

def bytesOf : (count n : Nat) → List Nat
  | 0, _ => []
  | count + 1, n => (n / 256 ^ count) % 256 :: bytesOf count n

def pad (message : List Nat) : List Nat :=
  message ++ 0x80 :: List.replicate ((119 - message.length % 64) % 64) 0 ++
    bytesOf 8 (8 * message.length)

def words : List Nat → List Nat
  | a :: b :: c :: d :: rest => (a * 2 ^ 24 + b * 2 ^ 16 + c * 2 ^ 8 + d) :: words rest
  | _ => []

/-- Compress the blocks of sixteen words; the bound counts the blocks. -/
def compressAll : Nat → List Nat → Words → Words
  | 0, _, w => w
  | bound + 1, message, w =>
    if message.isEmpty then w else compressAll bound (message.drop 16) (compress w (message.take 16))

def Words.toNat (w : Words) : Nat :=
  [w.a, w.b, w.c, w.d, w.e, w.f, w.g, w.h].foldl (fun total word => total * 2 ^ 32 + word) 0

/-- The digest as a number below `2 ^ 256`. -/
def sum (message : List Nat) : Nat :=
  let message := words (pad message)
  (compressAll message.length message initial).toNat

end Sha256

def hexDigit (n : Nat) : Char := (chars "0123456789abcdef").getD (n % 16) '0'

def hexDigits : (count n : Nat) → List Char
  | 0, _ => []
  | count + 1, n => hexDigits count (n / 16) ++ [hexDigit n]

instance neZero_draws : NeZero (2 ^ 128) := ⟨by decide⟩

@[simp] theorem length_hexDigits (count n : Nat) : (hexDigits count n).length = count := by
  induction count generalizing n with
  | zero => rfl
  | succ count ih => simp [hexDigits, ih]

theorem isLowerHex_hexDigit (n : Nat) : isLowerHex (hexDigit n) = true := by
  have all : ∀ k : Fin 16, isLowerHex ((chars "0123456789abcdef").getD k '0') = true := by decide
  exact all ⟨n % 16, Nat.mod_lt n (by decide)⟩

theorem isLowerHex_of_mem_hexDigits {count n : Nat} {c : Char} (member : c ∈ hexDigits count n) :
    isLowerHex c = true := by
  induction count generalizing n with
  | zero => simp [hexDigits] at member
  | succ count ih =>
    rw [hexDigits, List.mem_append, List.mem_singleton] at member
    rcases member with earlier | rfl
    · exact ih earlier
    · exact isLowerHex_hexDigit n

theorem hexDigit_injective {n m : Nat} (same : hexDigit n = hexDigit m) : n % 16 = m % 16 := by
  have all : ∀ k l : Fin 16, (chars "0123456789abcdef").getD k '0' = (chars "0123456789abcdef").getD l '0' →
      k = l := by decide
  have equal := all ⟨n % 16, Nat.mod_lt n (by decide)⟩ ⟨m % 16, Nat.mod_lt m (by decide)⟩ same
  exact Fin.mk.inj equal

theorem hexDigits_injective {count n m : Nat} (left : n < 16 ^ count) (right : m < 16 ^ count)
    (same : hexDigits count n = hexDigits count m) : n = m := by
  induction count generalizing n m with
  | zero => omega
  | succ count ih =>
    rw [Nat.pow_succ] at left right
    have parts := List.append_inj' same rfl
    have high := ih (Nat.div_lt_of_lt_mul (by omega)) (Nat.div_lt_of_lt_mul (by omega)) parts.1
    have low := hexDigit_injective (List.singleton_inj.mp parts.2)
    omega

def sha256Hex (text : String) : String := String.ofList (hexDigits 64 (Sha256.sum (bytes text)))

example : sha256Hex "abc" = "ba7816bf8f01cfea414140de5dae2223b00361a396177a9cb410ff61f20015ad" := by
  decide +kernel

end Aeontra.Library

import Mathlib.Algebra.Order.BigOperators.Group.List
import Mathlib.Data.Nat.Digits.Defs
import Aeontra.Library.Pattern

/-!
JSON encodings as texts, and how many bytes they take.
-/

namespace Aeontra.Library

def isAscii (c : Char) : Bool := c.toNat < 128

theorem byteLength_of_ascii {text : String} (ascii : ∀ c ∈ text.toList, isAscii c = true) :
    byteLength text = text.toList.length := by
  have each : ∀ c ∈ text.toList, c.utf8Size = 1 := fun c member => by
    have small := ascii c member
    simp only [isAscii, decide_eq_true_eq] at small
    rw [Char.utf8Size_eq_one_iff]
    exact Nat.le_of_lt_succ small
  have total : byteLength text = (text.toList.map Char.utf8Size).sum := by
    rw [← byteLength_ofList, String.ofList_toList]
  rw [total, List.map_congr_left each]
  simp

namespace JsonText

def escape (c : Char) : List Char :=
  if c == '"' then ['\\', '"'] else if c == '\\' then ['\\', '\\']
  else if c == '\x08' then ['\\', 'b'] else if c == '\x0c' then ['\\', 'f']
  else if c == '\n' then ['\\', 'n'] else if c == '\r' then ['\\', 'r']
  else if c == '\t' then ['\\', 't']
  else if c.toNat < 0x20 || c == '<' || c == '>' || c == '&' || c == '\u2028' || c == '\u2029' then
    '\\' :: 'u' :: [4, 3, 2, 1].map fun place => Nat.digitChar (c.toNat / 16 ^ (place - 1) % 16)
  else [c]

/-- Characters that stand for themselves inside a JSON string and take one byte. -/
def isPlain (c : Char) : Bool := isAscii c && escape c == [c]

theorem isPlain_iff {c : Char} : isPlain c = true ↔ isAscii c = true ∧ escape c = [c] := by
  simp [isPlain]

def quote (text : String) : String := "\"" ++ String.ofList ((chars text).flatMap escape) ++ "\""

theorem quote_plain {text : String} (plain : ∀ c ∈ text.toList, isPlain c = true) :
    quote text = "\"" ++ text ++ "\"" := by
  have same : text.toList.flatMap escape = text.toList := by
    have each : ∀ c ∈ text.toList, escape c = [c] := fun c member =>
      (isPlain_iff.mp (plain c member)).2
    rw [List.flatMap_congr each]
    simp
  rw [quote, chars_eq_toList, same, String.ofList_toList]

theorem byteLength_quote {text : String} (plain : ∀ c ∈ text.toList, isPlain c = true) :
    byteLength (quote text) = text.toList.length + 2 := by
  have ascii : ∀ c ∈ text.toList, isAscii c = true := fun c member =>
    (isPlain_iff.mp (plain c member)).1
  rw [quote_plain plain, byteLength_append, byteLength_append, byteLength_of_ascii ascii]
  have mark : byteLength "\"" = 1 := by decide
  omega

def joinComma : List String → String
  | [] => ""
  | [item] => item
  | item :: items => item ++ "," ++ joinComma items

theorem byteLength_joinComma_le (items : List String) :
    byteLength (joinComma items) ≤ (items.map fun item => byteLength item + 1).sum := by
  have comma : byteLength "," = 1 := by decide
  induction items with
  | nil => decide
  | cons item items ih =>
    cases items with
    | nil => simp [joinComma]
    | cons next rest =>
      simp only [joinComma, byteLength_append, List.map_cons, List.sum_cons] at ih ⊢
      omega

/-- One member of an object; the value is already encoded. -/
def field (name value : String) : String := "\"" ++ name ++ "\":" ++ value

def object (fields : List String) : String := "\x7b" ++ joinComma fields ++ "\x7d"

def array (items : List String) : String := "[" ++ joinComma items ++ "]"

def bool (b : Bool) : String := if b then "true" else "false"

def int (n : Int) : String := toString n

def nat (n : Nat) : String := toString n

theorem byteLength_nat (n : Nat) : byteLength (nat n) = (Nat.toDigits 10 n).length := by
  have digits : (nat n).toList = Nat.toDigits 10 n := Nat.toList_repr
  have ascii : ∀ c ∈ (nat n).toList, isAscii c = true := by
    intro c member
    rw [digits] at member
    have digit := Nat.isDigit_of_mem_toDigits (by decide) (by decide) member
    simp only [Char.isDigit, Bool.and_eq_true, decide_eq_true_eq] at digit
    have high : c.toNat ≤ 57 := digit.2
    exact decide_eq_true (by omega)
  rw [byteLength_of_ascii ascii, digits]

theorem byteLength_nat_le {n k : Nat} (positive : 0 < k) (small : n < 10 ^ k) : byteLength (nat n) ≤ k := by
  rw [byteLength_nat]
  exact (Nat.length_toDigits_le_iff (by decide) positive).mpr small

theorem byteLength_field_le (name : String) {value : String} {bound : Nat}
    (short : byteLength value ≤ bound) : byteLength (field name value) ≤ byteLength name + bound + 3 := by
  have marks : byteLength "\"" = 1 ∧ byteLength "\":" = 2 := by decide
  simp only [field, byteLength_append, marks]
  omega

theorem byteLength_object_le (fields : List String) :
    byteLength (object fields) ≤ (fields.map fun item => byteLength item + 1).sum + 2 := by
  have joined := byteLength_joinComma_le fields
  have marks : byteLength "\x7b" = 1 ∧ byteLength "\x7d" = 1 := by decide
  simp only [object, byteLength_append, marks]
  omega

theorem sum_byteLength_le {fields : List String} {bounds : List Nat}
    (short : List.Forall₂ (fun item bound => byteLength item ≤ bound) fields bounds) :
    (fields.map fun item => byteLength item + 1).sum ≤ (bounds.map (· + 1)).sum := by
  induction short with
  | nil => exact le_rfl
  | cons head _ ih => exact Nat.add_le_add (Nat.succ_le_succ head) ih

end JsonText

end Aeontra.Library

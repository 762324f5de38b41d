import Mathlib.Algebra.BigOperators.Group.List.Basic
import Aeontra.Library.Chars

/-!
Anchored text patterns: a choice between sequences of character blocks, each a class
repeated between two bounds, matched against a whole text.
-/

namespace Aeontra.Library

open List

/-- A character class repeated at least `least` and at most `most` times. -/
structure Block where
  accepts : Char → Bool
  least : Nat
  most : Nat

abbrev Pattern := List (List Block)

namespace Pattern

def literal (text : String) : List Block := (chars text).map fun c => ⟨fun d => d == c, 1, 1⟩

def exactly (accepts : Char → Bool) (length : Nat) : Block := ⟨accepts, length, length⟩

def matchBlocks : List Block → List Char → Bool
  | [], text => text.isEmpty
  | b :: blocks, text =>
    (List.range (b.most + 1 - b.least)).any fun extra =>
      b.least + extra ≤ text.length && (text.take (b.least + extra)).all b.accepts &&
        matchBlocks blocks (text.drop (b.least + extra))

def matchString (p : Pattern) (text : String) : Bool := p.any fun blocks => matchBlocks blocks (chars text)

variable {text : List Char} {blocks : List Block}

theorem matchBlocks_nil : matchBlocks [] text = true ↔ text = [] := by
  simp [matchBlocks]

theorem matchBlocks_cons {b : Block} :
    matchBlocks (b :: blocks) text = true ↔
      ∃ part rest, text = part ++ rest ∧ b.least ≤ part.length ∧ part.length ≤ b.most ∧
        (∀ c ∈ part, b.accepts c = true) ∧ matchBlocks blocks rest = true := by
  simp only [matchBlocks, any_eq_true, mem_range, Bool.and_eq_true, decide_eq_true_eq, all_eq_true]
  constructor
  · rintro ⟨extra, bound, ⟨inside, accepted⟩, rest⟩
    refine ⟨_, _, (take_append_drop (b.least + extra) text).symm, ?_, ?_, accepted, rest⟩
    · rw [length_take]
      omega
    · rw [length_take]
      omega
  · rintro ⟨part, rest, rfl, atLeast, atMost, accepted, matched⟩
    refine ⟨part.length - b.least, by omega, ?_⟩
    rw [Nat.add_sub_cancel' atLeast, take_left, drop_left, length_append]
    exact ⟨⟨by omega, accepted⟩, matched⟩

theorem matchBlocks_append {first second : List Block} :
    matchBlocks (first ++ second) text = true ↔
      ∃ part rest, text = part ++ rest ∧ matchBlocks first part = true ∧
        matchBlocks second rest = true := by
  induction first generalizing text with
  | nil => simp [matchBlocks_nil]
  | cons b first ih =>
    rw [cons_append, matchBlocks_cons]
    constructor
    · rintro ⟨part, rest, rfl, atLeast, atMost, accepted, matched⟩
      obtain ⟨middle, rest, rfl, left, right⟩ := ih.mp matched
      refine ⟨part ++ middle, rest, (append_assoc _ _ _).symm, ?_, right⟩
      exact matchBlocks_cons.mpr ⟨part, middle, rfl, atLeast, atMost, accepted, left⟩
    · rintro ⟨part, rest, rfl, left, right⟩
      obtain ⟨part, middle, rfl, atLeast, atMost, accepted, matched⟩ := matchBlocks_cons.mp left
      refine ⟨part, middle ++ rest, append_assoc _ _ _, atLeast, atMost, accepted, ?_⟩
      exact ih.mpr ⟨middle, rest, rfl, matched, right⟩

theorem matchBlocks_literal {word : List Char} :
    matchBlocks (word.map fun c => ⟨fun d => d == c, 1, 1⟩) text = true ↔ text = word := by
  induction word generalizing text with
  | nil => simp [matchBlocks_nil]
  | cons c word ih =>
    rw [map_cons, matchBlocks_cons]
    constructor
    · rintro ⟨part, rest, rfl, atLeast, atMost, accepted, matched⟩
      obtain ⟨d, rfl⟩ := List.length_eq_one_iff.mp (Nat.le_antisymm atMost atLeast)
      rw [ih.mp matched]
      simpa using accepted d (by simp)
    · rintro rfl
      exact ⟨[c], word, rfl, le_refl 1, le_refl 1, by simp, ih.mpr rfl⟩

theorem matchBlocks_literal_append {word : String} :
    matchBlocks (literal word ++ blocks) text = true ↔
      ∃ rest, text = word.toList ++ rest ∧ matchBlocks blocks rest = true := by
  rw [matchBlocks_append, literal, chars_eq_toList]
  constructor
  · rintro ⟨part, rest, rfl, left, right⟩
    rw [matchBlocks_literal] at left
    exact ⟨rest, by rw [left], right⟩
  · rintro ⟨rest, rfl, right⟩
    exact ⟨_, rest, rfl, matchBlocks_literal.mpr rfl, right⟩

theorem matchBlocks_exactly {accepts : Char → Bool} {length : Nat} :
    matchBlocks [exactly accepts length] text = true ↔
      text.length = length ∧ ∀ c ∈ text, accepts c = true := by
  rw [matchBlocks_cons]
  simp only [exactly, matchBlocks_nil]
  constructor
  · rintro ⟨part, rest, rfl, atLeast, atMost, accepted, rfl⟩
    rw [append_nil]
    exact ⟨Nat.le_antisymm atMost atLeast, accepted⟩
  · rintro ⟨same, accepted⟩
    exact ⟨text, [], by simp, same.ge, same.le, accepted, rfl⟩

theorem forall_of_matchBlocks {holds : Char → Prop} :
    ∀ {blocks : List Block} {text : List Char},
      (∀ b ∈ blocks, ∀ c, b.accepts c = true → holds c) → matchBlocks blocks text = true →
        ∀ c ∈ text, holds c
  | [], text, _, matched => by
      rw [matchBlocks_nil.mp matched]
      simp
  | b :: blocks, text, implied, matched => by
      obtain ⟨part, rest, rfl, -, -, accepted, matched⟩ := matchBlocks_cons.mp matched
      intro c member
      rcases List.mem_append.mp member with inPart | inRest
      · exact implied b mem_cons_self c (accepted c inPart)
      · exact forall_of_matchBlocks (fun d later => implied d (mem_cons_of_mem _ later))
          matched c inRest

theorem length_le_of_matchBlocks :
    ∀ {blocks : List Block} {text : List Char}, matchBlocks blocks text = true →
      text.length ≤ (blocks.map Block.most).sum
  | [], text, matched => by
      rw [matchBlocks_nil.mp matched]
      simp
  | b :: blocks, text, matched => by
      obtain ⟨part, rest, rfl, -, atMost, -, matched⟩ := matchBlocks_cons.mp matched
      have := length_le_of_matchBlocks matched
      simp only [length_append, map_cons, sum_cons]
      omega

theorem matchString_singleton {text : String} :
    matchString [blocks] text = true ↔ matchBlocks blocks text.toList = true := by
  simp [matchString]

end Pattern

def isLowerHex (c : Char) : Bool := ('a' ≤ c && c ≤ 'f') || ('0' ≤ c && c ≤ '9')

def isLowerAlnum (c : Char) : Bool := ('a' ≤ c && c ≤ 'z') || ('0' ≤ c && c ≤ '9')

def isAlnum (c : Char) : Bool := ('A' ≤ c && c ≤ 'Z') || ('a' ≤ c && c ≤ 'z') || ('0' ≤ c && c ≤ '9')

end Aeontra.Library

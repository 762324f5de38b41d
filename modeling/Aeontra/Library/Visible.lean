import Aeontra.Library.Pattern
import Aeontra.Library.Text

/-!
Texts of visible ASCII characters, which trimming leaves alone, and those without capitals,
which lower-casing leaves alone.
-/

namespace Aeontra.Library

def isVisible (c : Char) : Bool := 33 ≤ c.toNat && c.toNat ≤ 126

def isLowerVisible (c : Char) : Bool := isVisible c && Text.toLower c == c

theorem imp_of_ascii {p q : Char → Bool}
    (small : ∀ n : Fin 128, p (Char.ofNat n) = true → q (Char.ofNat n) = true) {c : Char}
    (ascii : c.toNat < 128) (inside : p c = true) : q c = true := by
  have found := small ⟨c.toNat, ascii⟩
  rw [Char.ofNat_toNat] at found
  exact found inside

theorem not_unicodeSpace_of_visible {c : Char} (visible : isVisible c = true) :
    Text.unicodeSpace c = false := by
  have ascii : c.toNat < 128 := by
    simp only [isVisible, Bool.and_eq_true, decide_eq_true_eq] at visible
    omega
  have solid := imp_of_ascii (p := isVisible) (q := fun c => !Text.unicodeSpace c) (by decide) ascii visible
  simpa using solid

theorem isVisible_of_isAlnum {c : Char} (alnum : isAlnum c = true) : isVisible c = true := by
  have ascii : c.toNat < 128 := by
    simp only [isAlnum, Bool.or_eq_true, Bool.and_eq_true, decide_eq_true_eq, Char.le_def,
      UInt32.le_iff_toNat_le] at alnum
    simp at alnum
    omega
  exact imp_of_ascii (by decide) ascii alnum

theorem isLowerVisible_of_isLowerAlnum {c : Char} (alnum : isLowerAlnum c = true) :
    isLowerVisible c = true := by
  have ascii : c.toNat < 128 := by
    simp only [isLowerAlnum, Bool.or_eq_true, Bool.and_eq_true, decide_eq_true_eq, Char.le_def,
      UInt32.le_iff_toNat_le] at alnum
    simp at alnum
    omega
  exact imp_of_ascii (by decide) ascii alnum

theorem isLowerVisible_of_isLowerHex {c : Char} (hex : isLowerHex c = true) : isLowerVisible c = true := by
  apply isLowerVisible_of_isLowerAlnum
  simp only [isLowerHex, isLowerAlnum, Bool.or_eq_true, Bool.and_eq_true, decide_eq_true_eq] at hex ⊢
  rcases hex with ⟨low, high⟩ | digit
  · exact .inl ⟨low, le_trans high (by decide)⟩
  · exact .inr digit

theorem isVisible_of_isLowerVisible {c : Char} (lower : isLowerVisible c = true) : isVisible c = true := by
  simp only [isLowerVisible, Bool.and_eq_true] at lower
  exact lower.1

theorem dropWhile_of_forall {drops : Char → Bool} {word : List Char}
    (kept : ∀ c ∈ word, drops c = false) : word.dropWhile drops = word := by
  cases word with
  | nil => rfl
  | cons c word => rw [List.dropWhile_cons, kept c List.mem_cons_self, if_neg (by decide)]

theorem trimSpace_of_visible {text : String} (visible : ∀ c ∈ text.toList, isVisible c = true) :
    Text.trimSpace text = text := by
  have solid : ∀ c ∈ text.toList, Text.unicodeSpace c = false :=
    fun c member => not_unicodeSpace_of_visible (visible c member)
  rw [Text.trimSpace, Text.trim, chars_eq_toList, dropWhile_of_forall solid,
    dropWhile_of_forall fun c member => solid c (List.mem_reverse.mp member), List.reverse_reverse,
    String.ofList_toList]

theorem lowerText_of_lower {text : String} (lower : ∀ c ∈ text.toList, isLowerVisible c = true) :
    Text.lowerText text = text := by
  have same : text.toList.map Text.toLower = text.toList := by
    refine (List.map_congr_left ?_).trans (List.map_id _)
    intro c member
    have own := lower c member
    simp only [isLowerVisible, Bool.and_eq_true, beq_iff_eq] at own
    exact own.2
  rw [Text.lowerText, chars_eq_toList, same, String.ofList_toList]

end Aeontra.Library

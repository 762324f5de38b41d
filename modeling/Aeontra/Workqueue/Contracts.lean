import Aeontra.Workqueue.TaskRules

/-!
What the checks on contracts, pins and receipts say, and how many bytes their encodings take.

The columns that hold these encodings are read back only up to 4096 bytes, and nothing checks
that length when they are written: the bounds here say that it always suffices.
-/

namespace Aeontra.Workqueue

open Library JsonText List

theorem accepted_unit {x : Except String Unit} : accepted x = true ↔ x = .ok () := by
  cases x <;> simp [accepted]

theorem hexPattern_hexDigits (lead : String) (count n : Nat) :
    (hexPattern lead count count).matchString (lead ++ String.ofList (hexDigits count n)) = true := by
  rw [hexPattern, Pattern.matchString_singleton, Pattern.matchBlocks_literal_append]
  refine ⟨hexDigits count n, by simp, ?_⟩
  exact Pattern.matchBlocks_exactly.mpr ⟨length_hexDigits count _, fun _ => isLowerHex_of_mem_hexDigits⟩

theorem payloadDigest_matches (text : String) : payloadHashPattern.matchString (payloadDigest text) = true :=
  hexPattern_hexDigits "sha256:" 64 _

variable {α : Type} {lead text : String} {least most ordinal : Nat} {c : Char} {spec : TaskSpec}
  {receipt : Option α} {task : TaskGroup}

theorem hexPattern_chars (matched : (hexPattern lead least most).matchString text = true) :
    ∃ digits, text.toList = lead.toList ++ digits ∧ least ≤ digits.length ∧ digits.length ≤ most ∧
      ∀ c ∈ digits, isLowerHex c = true := by
  rw [hexPattern, Pattern.matchString_singleton, Pattern.matchBlocks_literal_append] at matched
  obtain ⟨rest, split, matched⟩ := matched
  obtain ⟨digits, none, rfl, atLeast, atMost, hex, done⟩ := Pattern.matchBlocks_cons.mp matched
  rw [Pattern.matchBlocks_nil.mp done, append_nil] at split
  exact ⟨digits, split, atLeast, atMost, hex⟩

theorem isPlain_of_isLowerHex (hex : isLowerHex c = true) : isPlain c = true := by
  have all : ∀ n : Fin 103, isLowerHex (Char.ofNat n) = true → isPlain (Char.ofNat n) = true := by
    decide
  have high : c.toNat < 103 := by
    simp only [isLowerHex, bool_iff] at hex
    rcases hex with ⟨-, below⟩ | ⟨-, below⟩
    · have bound : c.toNat ≤ 102 := below
      omega
    · have bound : c.toNat ≤ 57 := below
      omega
  have same := all ⟨c.toNat, high⟩
  rw [Char.ofNat_toNat] at same
  exact same hex

theorem plain_of_hexPattern (plain : ∀ c ∈ lead.toList, isPlain c = true)
    (matched : (hexPattern lead least most).matchString text = true) :
    (∀ c ∈ text.toList, isPlain c = true) ∧ text.toList.length ≤ lead.toList.length + most := by
  obtain ⟨digits, split, -, atMost, hex⟩ := hexPattern_chars matched
  rw [split]
  constructor
  · intro c member
    rcases List.mem_append.mp member with inLead | inDigits
    · exact plain c inLead
    · exact isPlain_of_isLowerHex (hex c inDigits)
  · rw [length_append]
    omega

theorem byteLength_quote_hex (plain : ∀ c ∈ lead.toList, isPlain c = true)
    (matched : (hexPattern lead least most).matchString text = true) :
    byteLength (quote text) ≤ lead.toList.length + most + 2 := by
  obtain ⟨allPlain, short⟩ := plain_of_hexPattern plain matched
  rw [byteLength_quote allPlain]
  omega

theorem byteLength_quote_hash (matched : payloadHashPattern.matchString text = true) :
    byteLength (quote text) ≤ 73 :=
  byteLength_quote_hex (List.all_eq_true.mp (by decide)) matched

theorem isPlain_of_keyTail (inside : keyTail c = true) : isPlain c = true := by
  have all : ∀ n : Fin 123, keyTail (Char.ofNat n) = true → isPlain (Char.ofNat n) = true := by
    decide
  have high : c.toNat < 123 := by
    simp only [keyTail, isAlnum, bool_iff, beq_iff_eq] at inside
    rcases inside with (((((⟨-, below⟩ | ⟨-, below⟩) | ⟨-, below⟩) | rfl) | rfl) | rfl) | rfl
    · have bound : c.toNat ≤ 90 := below
      omega
    · have bound : c.toNat ≤ 122 := below
      omega
    · have bound : c.toNat ≤ 57 := below
      omega
    all_goals decide
  have same := all ⟨c.toNat, high⟩
  rw [Char.ofNat_toNat] at same
  exact same inside

theorem byteLength_quote_blocks {blocks : List Block}
    (keyed : ∀ b ∈ blocks, ∀ c, b.accepts c = true → keyTail c = true)
    (matched : Pattern.matchBlocks blocks text.toList = true) :
    byteLength (quote text) ≤ (blocks.map Block.most).sum + 2 := by
  have plain : ∀ c ∈ text.toList, isPlain c = true :=
    Pattern.forall_of_matchBlocks (fun b member c accepted => isPlain_of_keyTail (keyed b member c accepted))
      matched
  have short := Pattern.length_le_of_matchBlocks matched
  rw [byteLength_quote plain]
  omega

theorem sum_unlessEmpty_le (name : String) {value : String} {bound : Nat}
    (short : value = "" ∨ byteLength (quote value) ≤ bound) :
    ((Encode.unlessEmpty name value).map fun item => byteLength item + 1).sum ≤
      byteLength name + bound + 4 := by
  unfold Encode.unlessEmpty
  split
  · exact Nat.zero_le _
  rename_i filled
  have field := byteLength_field_le name (short.resolve_left filled)
  simp only [map_cons, map_nil, sum_cons, sum_nil]
  exact Nat.succ_le_succ field

end Aeontra.Workqueue

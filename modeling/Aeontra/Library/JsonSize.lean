import Aeontra.Library.JsonUnique

/-!
How many bytes the text of an array or of a structure takes, from those of its parts.
-/

namespace Aeontra.Library.JsonText

theorem byteLength_nat_succ_le (n : Nat) : byteLength (nat (n + 1)) ≤ byteLength (nat n) + 1 := by
  have positive : 0 < byteLength (nat n) := by
    rw [byteLength_nat]
    exact Nat.length_toDigits_pos
  have small : n < 10 ^ byteLength (nat n) := by
    rw [← Nat.length_toDigits_le_iff (by decide) positive, byteLength_nat]
  apply byteLength_nat_le (Nat.succ_pos _)
  have least : 1 ≤ 10 ^ byteLength (nat n) := Nat.one_le_pow _ _ (by decide)
  rw [Nat.pow_succ]
  omega

/-- The bytes of a list of items, each with the comma or bracket that follows it. -/
def listBytes (items : List String) : Nat := (items.map fun item => byteLength item + 1).sum

@[simp] theorem listBytes_nil : listBytes [] = 0 := rfl

@[simp] theorem listBytes_cons (item : String) (items : List String) :
    listBytes (item :: items) = byteLength item + 1 + listBytes items := by
  simp [listBytes]

@[simp] theorem listBytes_append (left right : List String) :
    listBytes (left ++ right) = listBytes left + listBytes right := by
  simp [listBytes]

theorem byteLength_joinComma_cons (item : String) (items : List String) :
    byteLength (joinComma (item :: items)) + 1 = listBytes (item :: items) := by
  have comma : byteLength "," = 1 := by decide
  induction items generalizing item with
  | nil => simp [joinComma]
  | cons next rest ih =>
    have tail := ih next
    simp only [joinComma, byteLength_append, listBytes_cons] at tail ⊢
    omega

variable {items items' : List String} {growth : Nat}

theorem byteLength_array_of_ne_nil (nonempty : items ≠ []) :
    byteLength (array items) = 1 + listBytes items := by
  obtain ⟨item, items, rfl⟩ := List.exists_cons_of_ne_nil nonempty
  have joined := byteLength_joinComma_cons item items
  have marks : byteLength "[" = 1 ∧ byteLength "]" = 1 := by decide
  simp only [array, byteLength_append, marks]
  omega

theorem byteLength_array_nil : byteLength (array []) = 2 := by decide

theorem byteLength_object_of_ne_nil {fields : List String} (nonempty : fields ≠ []) :
    byteLength (object fields) = 1 + listBytes fields := by
  obtain ⟨item, items, rfl⟩ := List.exists_cons_of_ne_nil nonempty
  have joined := byteLength_joinComma_cons item items
  have marks : byteLength "\x7b" = 1 ∧ byteLength "\x7d" = 1 := by decide
  simp only [object, byteLength_append, marks]
  omega

theorem listBytes_eq_zero : listBytes items = 0 ↔ items = [] := by
  cases items <;> simp

theorem two_le_byteLength_array (items : List String) : 2 ≤ byteLength (array items) := by
  by_cases empty : items = []
  · rw [empty, byteLength_array_nil]
  · have positive : listBytes items ≠ 0 := fun zero => empty (listBytes_eq_zero.mp zero)
    rw [byteLength_array_of_ne_nil empty]
    omega

theorem byteLength_le_array {item : String} (member : item ∈ items) :
    byteLength item ≤ byteLength (array items) := by
  obtain ⟨left, right, rfl⟩ := List.append_of_mem member
  rw [byteLength_array_of_ne_nil (by simp), listBytes_append, listBytes_cons]
  omega

theorem byteLength_array_le_listBytes (items : List String) : byteLength (array items) ≤ 2 + listBytes items := by
  by_cases empty : items = []
  · rw [empty, byteLength_array_nil]
    omega
  · rw [byteLength_array_of_ne_nil empty]
    omega

theorem byteLength_array_grow (less : listBytes items' ≤ listBytes items + growth) :
    byteLength (array items') ≤ byteLength (array items) + growth := by
  by_cases empty : items = []
  · subst empty
    have bound := byteLength_array_le_listBytes items'
    rw [byteLength_array_nil]
    rw [listBytes_nil] at less
    omega
  by_cases empty' : items' = []
  · have least := two_le_byteLength_array items
    rw [empty', byteLength_array_nil]
    omega
  · rw [byteLength_array_of_ne_nil empty, byteLength_array_of_ne_nil empty']
    omega

/-- The bytes of a member with its name and the comma or bracket that follows it. -/
def slotBytes (slot : Slot) : Nat :=
  match slot.2 with
  | none => 0
  | some value => byteLength slot.1 + byteLength value + 4

@[simp] theorem slotBytes_none (name : String) : slotBytes (name, none) = 0 := rfl

@[simp] theorem slotBytes_some (name value : String) :
    slotBytes (name, some value) = byteLength name + byteLength value + 4 := rfl

def slotsBytes (slots : List Slot) : Nat := (slots.map slotBytes).sum

@[simp] theorem slotsBytes_nil : slotsBytes [] = 0 := rfl

@[simp] theorem slotsBytes_cons (slot : Slot) (slots : List Slot) :
    slotsBytes (slot :: slots) = slotBytes slot + slotsBytes slots := by
  simp [slotsBytes]

theorem byteLength_text (entry : Entry) :
    byteLength entry.text = byteLength entry.1 + byteLength entry.2 + 3 := by
  have marks : byteLength "\"" = 1 ∧ byteLength "\":" = 2 := by decide
  simp only [Entry.text, field, byteLength_append, marks]
  omega

theorem listBytes_entries (slots : List Slot) :
    listBytes ((entries slots).map Entry.text) = slotsBytes slots := by
  induction slots with
  | nil => rfl
  | cons slot slots ih =>
    obtain ⟨name, value⟩ := slot
    cases value with
    | none => simpa [entries, slotBytes] using ih
    | some value =>
      have head : entries ((name, some value) :: slots) = (name, value) :: entries slots := rfl
      rw [head, List.map_cons, listBytes_cons, ih, slotsBytes_cons, byteLength_text]
      simp only [slotBytes]

@[simp] theorem slotBytes_textSlot (name text : String) :
    slotBytes (textSlot name text) = byteLength name + byteLength (quote text) + 4 := rfl

@[simp] theorem slotBytes_natSlot (name : String) (value : Nat) :
    slotBytes (natSlot name value) = byteLength name + byteLength (nat value) + 4 := rfl

@[simp] theorem slotBytes_arraySlot (name : String) (items : List String) :
    slotBytes (arraySlot name items) = byteLength name + byteLength (array items) + 4 := rfl

theorem slotBytes_optionalText_le (name text : String) :
    slotBytes (optionalText name text) ≤ byteLength name + byteLength (quote text) + 4 := by
  unfold optionalText
  split
  · exact Nat.zero_le _
  · exact le_refl _

theorem slotBytes_optionalNat_le (name : String) (value : Nat) :
    slotBytes (optionalNat name value) ≤ byteLength name + byteLength (nat value) + 4 := by
  unfold optionalNat
  split
  · exact Nat.zero_le _
  · exact le_refl _

theorem slotBytes_optionalArray_grow (name : String) (less : listBytes items' ≤ listBytes items + growth) :
    slotBytes (optionalArray name items') ≤
      slotBytes (optionalArray name items) + (byteLength name + 6 + growth) := by
  have arrays := byteLength_array_grow less
  have bound := byteLength_array_le_listBytes items'
  by_cases empty : items = []
  · subst empty
    rw [listBytes_nil] at less
    unfold optionalArray
    split
    · exact Nat.zero_le _
    · simp only [slotBytes, List.isEmpty_nil, if_true]
      omega
  · unfold optionalArray
    split
    · exact Nat.zero_le _
    · rw [if_neg (by simpa using empty)]
      simp only [slotBytes]
      omega

theorem byteLength_record {slots : List Slot} {name value : String} (present : (name, some value) ∈ slots) :
    byteLength (record slots) = 1 + slotsBytes slots := by
  rw [record, byteLength_object_of_ne_nil, listBytes_entries]
  intro empty
  have member : (name, value) ∈ entries slots := mem_entries.mpr present
  rw [List.map_eq_nil_iff] at empty
  rw [empty] at member
  cases member

end Aeontra.Library.JsonText

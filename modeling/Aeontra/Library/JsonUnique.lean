import Aeontra.Library.JsonText

/-!
JSON texts are read in one way: what follows a value never continues it, so the text of an
array or of an object determines the texts of its parts.
-/

namespace Aeontra.Library.JsonText

open List

def stops : List Char → Bool
  | [] => true
  | c :: _ => c == ',' || c == ']' || c == '\x7d'

/-- One list of texts followed by `x` is only one way such a list followed by a stop. -/
def Unique (t t' : List Char) : Prop :=
  ∀ x y, stops x = true → stops y = true → t ++ x = t' ++ y → t = t' ∧ x = y

def escaped : List Char := (range 32).map Char.ofNat ++ ['"', '\\', '<', '>', '&', '\u2028', '\u2029']

theorem escape_eq_or (c : Char) : escape c = [c] ∧ c ≠ '"' ∧ c ≠ '\\' ∨ c ∈ escaped := by
  by_cases low : c.toNat < 32
  · right
    apply mem_append_left
    rw [mem_map]
    exact ⟨c.toNat, List.mem_range.mpr low, Char.ofNat_toNat c⟩
  by_cases special : c ∈ ['"', '\\', '<', '>', '&', '\u2028', '\u2029']
  · exact .inr (mem_append_right _ special)
  left
  have controls : c ≠ '\x08' ∧ c ≠ '\x0c' ∧ c ≠ '\n' ∧ c ≠ '\r' ∧ c ≠ '\t' := by
    refine ⟨?_, ?_, ?_, ?_, ?_⟩ <;> (rintro rfl; exact low (by decide))
  simp only [mem_cons, not_mem_nil, or_false, not_or] at special
  simp [escape, controls, special, low]

theorem escaped_codes : ∀ c ∈ escaped, ∀ d ∈ escaped, (escape c).isPrefixOf (escape d) = true → c = d := by
  have table : (escaped.all fun c => escaped.all fun d =>
      !(escape c).isPrefixOf (escape d) || c == d) = true := by decide
  intro c member d member' leads
  have entry := List.all_eq_true.mp (List.all_eq_true.mp table c member) d member'
  simpa [leads] using entry

theorem escaped_head : ∀ c ∈ escaped, (escape c).head? = some '\\' := by
  have table : (escaped.all fun c => (escape c).head? == some '\\') = true := by decide
  intro c member
  simpa using List.all_eq_true.mp table c member

theorem escape_head (c : Char) : ∃ d rest, escape c = d :: rest ∧ d ≠ '"' := by
  rcases escape_eq_or c with ⟨same, quote, -⟩ | member
  · exact ⟨c, [], same, quote⟩
  · obtain ⟨rest, first⟩ := head?_eq_some_iff.mp (escaped_head c member)
    exact ⟨'\\', rest, first, by decide⟩

theorem eq_of_escape_leads {c d : Char} (before : escape c <+: escape d) : c = d := by
  rcases escape_eq_or c with ⟨plain, -, unescaped⟩ | special
  · rcases escape_eq_or d with ⟨plain', -, -⟩ | special'
    · rw [plain, plain'] at before
      simpa using before
    · obtain ⟨rest, first⟩ := head?_eq_some_iff.mp (escaped_head d special')
      rw [plain, first, cons_prefix_cons] at before
      exact absurd before.1 unescaped
  · rcases escape_eq_or d with ⟨plain', -, unescaped'⟩ | special'
    · obtain ⟨rest, first⟩ := head?_eq_some_iff.mp (escaped_head c special)
      rw [plain', first, cons_prefix_cons] at before
      exact absurd before.1.symm unescaped'
    · exact escaped_codes c special d special' (List.isPrefixOf_iff_prefix.mpr before)

theorem escape_unique {c d : Char} {x y : List Char} (same : escape c ++ x = escape d ++ y) :
    c = d ∧ x = y := by
  have equal : c = d := by
    rcases prefix_or_prefix_of_prefix (prefix_append (escape c) x)
        (same ▸ prefix_append (escape d) y) with before | before
    · exact eq_of_escape_leads before
    · exact (eq_of_escape_leads before).symm
  subst equal
  exact ⟨rfl, append_cancel_left same⟩

theorem flatMap_escape_unique : ∀ {s s' x y : List Char},
    s.flatMap escape ++ '"' :: x = s'.flatMap escape ++ '"' :: y → s = s' ∧ x = y
  | [], [], _, _, same => ⟨rfl, (List.cons.inj same).2⟩
  | [], d :: s', _, _, same => by
      obtain ⟨e, rest, head, other⟩ := escape_head d
      rw [flatMap_cons, head] at same
      exact absurd (List.cons.inj same).1.symm other
  | c :: s, [], _, _, same => by
      obtain ⟨e, rest, head, other⟩ := escape_head c
      rw [flatMap_cons, head] at same
      exact absurd (List.cons.inj same).1 other
  | c :: s, d :: s', x, y, same => by
      rw [flatMap_cons, flatMap_cons, append_assoc, append_assoc] at same
      obtain ⟨rfl, rest⟩ := escape_unique same
      obtain ⟨rfl, after⟩ := flatMap_escape_unique rest
      exact ⟨rfl, after⟩

theorem toList_quote (text : String) : (quote text).toList = '"' :: (text.toList.flatMap escape ++ ['"']) := by
  simp [quote, chars_eq_toList]

theorem quote_unique {text text' : String} {x y : List Char}
    (same : (quote text).toList ++ x = (quote text').toList ++ y) : text = text' ∧ x = y := by
  rw [toList_quote, toList_quote, cons_append, cons_append, append_assoc, append_assoc] at same
  obtain ⟨texts, rest⟩ := flatMap_escape_unique (List.cons.inj same).2
  exact ⟨String.toList_inj.mp texts, rest⟩

def isNumberChar (c : Char) : Bool := c.isDigit || c == '-'

theorem isNumberChar_int (n : Int) : ∀ c ∈ (int n).toList, isNumberChar c = true := by
  have digits : ∀ k : Nat, ∀ c ∈ (Nat.repr k).toList, isNumberChar c = true := by
    intro k c member
    rw [Nat.toList_repr] at member
    simp [isNumberChar, Nat.isDigit_of_mem_toDigits (by decide) (by decide) member]
  cases n with
  | ofNat k => exact digits k
  | negSucc k =>
    intro c member
    change c ∈ ("-" ++ Nat.repr (k + 1)).toList at member
    rw [String.toList_append, mem_append] at member
    rcases member with sign | digit
    · have dash : c = '-' := by simpa using sign
      rw [dash]
      rfl
    · exact digits (k + 1) c digit

theorem int_ne_nil (n : Int) : (int n).toList ≠ [] := by
  have digits : ∀ k : Nat, (Nat.repr k).toList ≠ [] := by
    intro k
    rw [Nat.toList_repr]
    exact Nat.toDigits_ne_nil
  cases n with
  | ofNat k => exact digits k
  | negSucc k =>
    change ("-" ++ Nat.repr (k + 1)).toList ≠ []
    rw [String.toList_append]
    exact append_ne_nil_of_right_ne_nil _ (digits (k + 1))

theorem takeWhile_number {t x : List Char} (number : ∀ c ∈ t, isNumberChar c = true)
    (after : stops x = true) : (t ++ x).takeWhile isNumberChar = t := by
  rw [takeWhile_append_of_pos number]
  cases x with
  | nil => simp
  | cons c rest =>
    simp only [stops, Bool.or_eq_true, beq_iff_eq] at after
    have other : isNumberChar c = false := by
      rcases after with (rfl | rfl) | rfl <;> decide
    simp [other]

theorem number_unique {t t' : List Char} (number : ∀ c ∈ t, isNumberChar c = true)
    (number' : ∀ c ∈ t', isNumberChar c = true) : Unique t t' := by
  intro x y after after' same
  have equal : t = t' := by
    rw [← takeWhile_number number after, same, takeWhile_number number' after']
  subst equal
  exact ⟨rfl, append_cancel_left same⟩

theorem nat_inj {n m : Nat} : nat n = nat m ↔ n = m := by
  constructor
  · intro same
    have digits : Nat.toDigits 10 n = Nat.toDigits 10 m := by
      rw [← Nat.toList_repr, ← Nat.toList_repr]
      exact congrArg String.toList same
    rw [← Nat.ofDigitChars_toDigits (n := n) (by decide : 1 < 10) (by decide), digits,
      Nat.ofDigitChars_toDigits (by decide) (by decide)]
  · rintro rfl
    rfl

theorem dash_not_nat (n : Nat) (rest : List Char) : (nat n).toList ≠ '-' :: rest := by
  intro same
  have digit : '-' ∈ Nat.toDigits 10 n := by
    rw [← Nat.toList_repr]
    exact same ▸ mem_cons_self
  cases Nat.isDigit_of_mem_toDigits (by decide) (by decide) digit

theorem int_inj {n m : Int} : int n = int m ↔ n = m := by
  have negative : ∀ k : Nat, (int (.negSucc k)).toList = '-' :: (nat (k + 1)).toList := by
    intro k
    change ("-" ++ Nat.repr (k + 1)).toList = _
    rw [String.toList_append]
    rfl
  constructor
  · intro same
    have texts := congrArg String.toList same
    cases n with
    | ofNat a =>
      cases m with
      | ofNat b => rw [nat_inj.mp same]
      | negSucc b => exact absurd (texts.trans (negative b)) (dash_not_nat a _)
    | negSucc a =>
      cases m with
      | ofNat b => exact absurd (texts.symm.trans (negative a)) (dash_not_nat b _)
      | negSucc b =>
        rw [negative, negative] at texts
        have equal := nat_inj.mp (String.toList_inj.mp (List.cons.inj texts).2)
        rw [Nat.succ.inj equal]
  · rintro rfl
    rfl

def Opens (t : List Char) : Prop := ∃ c rest, t = c :: rest ∧ stops (c :: rest) = false

theorem toList_joinComma_cons (item : String) (items : List String) :
    (joinComma (item :: items)).toList =
      item.toList ++ items.flatMap fun next => ',' :: next.toList := by
  induction items generalizing item with
  | nil => simp [joinComma]
  | cons next rest ih =>
    have head : joinComma (item :: next :: rest) = item ++ "," ++ joinComma (next :: rest) := rfl
    rw [head, String.toList_append, String.toList_append, ih next, append_assoc]
    rfl

theorem tail_unique {close : Char} (closing : close = ']' ∨ close = '\x7d') :
    ∀ {items items' : List String},
      (∀ t ∈ items, ∀ t' ∈ items', Unique t.toList t'.toList) → ∀ {x y : List Char},
      (items.flatMap fun next => ',' :: next.toList) ++ close :: x =
        (items'.flatMap fun next => ',' :: next.toList) ++ close :: y → items = items' ∧ x = y
  | [], [], _, _, _, same => ⟨rfl, (List.cons.inj same).2⟩
  | [], _ :: _, _, _, _, same => by
      have comma := (List.cons.inj same).1
      rcases closing with rfl | rfl <;> cases comma
  | _ :: _, [], _, _, _, same => by
      have comma := (List.cons.inj same).1
      rcases closing with rfl | rfl <;> cases comma
  | t :: items, t' :: items', each, x, y, same => by
      have follows : ∀ (rest : List String) (z : List Char),
          stops ((rest.flatMap fun next => ',' :: next.toList) ++ close :: z) = true := by
        intro rest z
        cases rest with
        | nil => rcases closing with rfl | rfl <;> rfl
        | cons next rest => rfl
      rw [flatMap_cons, flatMap_cons, cons_append, cons_append, append_assoc,
        cons_append, cons_append, append_assoc] at same
      obtain ⟨first, rest⟩ := each t mem_cons_self t' mem_cons_self _ _ (follows _ _)
        (follows _ _) (List.cons.inj same).2
      obtain ⟨rfl, after⟩ := tail_unique closing
        (fun u member u' member' => each u (mem_cons_of_mem _ member) u' (mem_cons_of_mem _ member')) rest
      exact ⟨by rw [String.toList_inj.mp first], after⟩

theorem toList_array (items : List String) :
    (array items).toList = '[' :: ((joinComma items).toList ++ [']']) := by
  simp [array]

theorem toList_object (fields : List String) :
    (object fields).toList = '\x7b' :: ((joinComma fields).toList ++ ['\x7d']) := by
  simp [object]

section

variable {items items' : List String} (opens : ∀ t ∈ items, Opens t.toList)
  (opens' : ∀ t ∈ items', Opens t.toList)
  (each : ∀ t ∈ items, ∀ t' ∈ items', Unique t.toList t'.toList) {x y : List Char}
include opens opens' each

theorem joinComma_unique {close : Char} (closing : close = ']' ∨ close = '\x7d')
    (same : (joinComma items).toList ++ [close] ++ x = (joinComma items').toList ++ [close] ++ y) :
    items = items' ∧ x = y := by
  rw [append_assoc, append_assoc, singleton_append, singleton_append] at same
  have never : ∀ {t : String} {u v w : List Char}, Opens t.toList → close :: u ≠ t.toList ++ v ++ w := by
    rintro t u v w ⟨c, rest, text, open_⟩ equal
    rw [text] at equal
    have first := (List.cons.inj equal).1
    subst first
    rcases closing with rfl | rfl <;> cases open_
  cases items with
  | nil =>
    cases items' with
    | nil => exact ⟨rfl, (List.cons.inj same).2⟩
    | cons t' items' =>
      rw [toList_joinComma_cons] at same
      exact absurd same (never (opens' t' mem_cons_self))
  | cons t items =>
    cases items' with
    | nil =>
      rw [toList_joinComma_cons] at same
      exact absurd same.symm (never (opens t mem_cons_self))
    | cons t' items' =>
      have both : (t :: items).flatMap (fun next => ',' :: next.toList) ++ close :: x =
          (t' :: items').flatMap (fun next => ',' :: next.toList) ++ close :: y := by
        rw [toList_joinComma_cons, toList_joinComma_cons] at same
        simpa using same
      exact tail_unique closing each both

theorem array_unique (same : (array items).toList ++ x = (array items').toList ++ y) :
    items = items' ∧ x = y := by
  rw [toList_array, toList_array] at same
  exact joinComma_unique opens opens' each (.inl rfl) (List.cons.inj same).2

theorem object_unique (same : (object items).toList ++ x = (object items').toList ++ y) :
    items = items' ∧ x = y := by
  rw [toList_object, toList_object] at same
  exact joinComma_unique opens opens' each (.inr rfl) (List.cons.inj same).2

end

/-- A member of an object: its name and the text of its value. -/
abbrev Entry := String × String

def Entry.text (entry : Entry) : String := field entry.1 entry.2

def plainName (name : String) : Bool := (chars name).all isPlain

inductive IsValue : String → Prop
  | text (value : String) : IsValue (quote value)
  | number (value : Int) : IsValue (int value)
  | array {items : List String} (each : ∀ item ∈ items, IsValue item) : IsValue (array items)
  | object {entries : List Entry} (plain : ∀ entry ∈ entries, plainName entry.1 = true)
      (each : ∀ entry ∈ entries, IsValue entry.2) : IsValue (object (entries.map Entry.text))

theorem IsValue.nat (n : Nat) : IsValue (nat n) := .number n

theorem toList_text (entry : Entry) :
    entry.text.toList = '"' :: (entry.1.toList ++ '"' :: ':' :: entry.2.toList) := by
  simp [Entry.text, field]

theorem IsValue.opens {t : String} (value : IsValue t) : Opens t.toList := by
  cases value with
  | text value => exact ⟨_, _, toList_quote value, rfl⟩
  | number n =>
    obtain ⟨c, rest, text⟩ := exists_cons_of_ne_nil (int_ne_nil n)
    refine ⟨c, rest, text, ?_⟩
    have number := isNumberChar_int n c (text ▸ mem_cons_self)
    cases stop : stops (c :: rest) with
    | false => rfl
    | true =>
      simp only [stops, Bool.or_eq_true, beq_iff_eq] at stop
      rcases stop with (rfl | rfl) | rfl <;> cases number
  | array each => exact ⟨_, _, toList_array _, rfl⟩
  | object plain each => exact ⟨_, _, toList_object _, rfl⟩

theorem name_unique {name name' : String} (plain : plainName name = true)
    (plain' : plainName name' = true) {x y : List Char}
    (same : name.toList ++ '"' :: x = name'.toList ++ '"' :: y) : name = name' ∧ x = y := by
  have unmarked : ∀ {text : String}, plainName text = true → ∀ c ∈ text.toList, (c != '"') = true := by
    intro text plain c member
    rw [plainName, chars_eq_toList, all_eq_true] at plain
    rw [bne_iff_ne]
    rintro rfl
    cases plain _ member
  have taken : ∀ {text : String} {z : List Char}, plainName text = true →
      (text.toList ++ '"' :: z).takeWhile (fun c => c != '"') = text.toList := by
    intro text z plain
    rw [takeWhile_append_of_pos (unmarked plain)]
    simp
  have names : name.toList = name'.toList := by
    rw [← taken plain (z := x), same, taken plain']
  rw [names] at same
  exact ⟨String.toList_inj.mp names, (List.cons.inj (append_cancel_left same)).2⟩

theorem entry_unique {entry entry' : Entry} (plain : plainName entry.1 = true)
    (plain' : plainName entry'.1 = true) (value : Unique entry.2.toList entry'.2.toList) :
    Unique entry.text.toList entry'.text.toList := by
  intro x y after after' same
  rw [toList_text, toList_text, cons_append, cons_append, append_assoc,
    append_assoc, cons_append, cons_append] at same
  obtain ⟨names, rest⟩ := name_unique plain plain' (List.cons.inj same).2
  obtain ⟨values, left⟩ := value x y after after' (List.cons.inj rest).2
  exact ⟨by rw [toList_text, toList_text, names, values], left⟩

def kind : List Char → Nat
  | '"' :: _ => 0
  | '[' :: _ => 1
  | '\x7b' :: _ => 2
  | _ => 3

@[simp] theorem kind_number (n : Int) (x : List Char) : kind ((int n).toList ++ x) = 3 := by
  obtain ⟨c, rest, text⟩ := exists_cons_of_ne_nil (int_ne_nil n)
  have number := isNumberChar_int n c (text ▸ mem_cons_self)
  rw [text, cons_append]
  unfold kind
  split
  · rename_i head
    cases (cons.inj head).1 ▸ number
  · rename_i head
    cases (cons.inj head).1 ▸ number
  · rename_i head
    cases (cons.inj head).1 ▸ number
  · rfl

@[simp] theorem kind_text (text : String) (x : List Char) : kind ((quote text).toList ++ x) = 0 := by
  rw [toList_quote]
  rfl

@[simp] theorem kind_array (items : List String) (x : List Char) : kind ((array items).toList ++ x) = 1 := by
  rw [toList_array]
  rfl

@[simp] theorem kind_object (fields : List String) (x : List Char) : kind ((object fields).toList ++ x) = 2 := by
  rw [toList_object]
  rfl

theorem opens_text (entry : Entry) : Opens entry.text.toList := ⟨_, _, toList_text entry, rfl⟩

theorem IsValue.unique {t t' : String} (value : IsValue t) (value' : IsValue t') :
    Unique t.toList t'.toList := by
  induction value generalizing t' with
  | text s =>
    intro x y after after' same
    have kinds := congrArg kind same
    cases value' with
    | text s' =>
      obtain ⟨rfl, rest⟩ := quote_unique same
      exact ⟨rfl, rest⟩
    | _ => simp at kinds
  | number n =>
    intro x y after after' same
    have kinds := congrArg kind same
    cases value' with
    | number m => exact number_unique (isNumberChar_int n) (isNumberChar_int m) x y after after' same
    | _ => simp at kinds
  | array each ih =>
    intro x y after after' same
    have kinds := congrArg kind same
    cases value' with
    | array each' =>
      obtain ⟨rfl, rest⟩ := array_unique (fun item member => (each item member).opens)
        (fun item member => (each' item member).opens)
        (fun item member item' member' => ih item member (each' item' member')) same
      exact ⟨rfl, rest⟩
    | _ => simp at kinds
  | object plain each ih =>
    intro x y after after' same
    have kinds := congrArg kind same
    cases value' with
    | object plain' each' =>
      obtain ⟨fields, rest⟩ := object_unique
        (forall_mem_map.mpr fun entry _ => opens_text entry)
        (forall_mem_map.mpr fun entry _ => opens_text entry)
        (forall_mem_map.mpr fun entry member => forall_mem_map.mpr fun entry' member' =>
          entry_unique (plain entry member) (plain' entry' member')
            (ih entry member (each' entry' member'))) same
      exact ⟨by rw [fields], rest⟩
    | _ => simp at kinds

theorem quote_inj {text text' : String} : quote text = quote text' ↔ text = text' := by
  constructor
  · intro same
    exact (quote_unique (x := []) (y := []) (by rw [same])).1
  · rintro rfl
    rfl

theorem array_inj {items items' : List String} (each : ∀ item ∈ items, IsValue item)
    (each' : ∀ item ∈ items', IsValue item) (same : array items = array items') : items = items' :=
  (array_unique (x := []) (y := []) (fun item member => (each item member).opens)
    (fun item member => (each' item member).opens)
    (fun item member item' member' => (each item member).unique (each' item' member')) (by rw [same])).1

/-- A member of a structure; an absent one is left out of the text. -/
abbrev Slot := String × Option String

def entries (slots : List Slot) : List Entry := slots.filterMap fun slot => slot.2.map (slot.1, ·)

def record (slots : List Slot) : String := object ((entries slots).map Entry.text)

def named (names : List String) : Bool := names.all plainName && decide names.Nodup

def Slot.Holds (slot : Slot) : Prop := ∀ value, slot.2 = some value → IsValue value

def Filled (slots : List Slot) : Prop := ∀ slot ∈ slots, slot.Holds

theorem mem_entries {slots : List Slot} {entry : Entry} :
    entry ∈ entries slots ↔ (entry.1, some entry.2) ∈ slots := by
  rw [entries, mem_filterMap]
  constructor
  · rintro ⟨⟨name, value⟩, member, found⟩
    cases value with
    | none => cases found
    | some value =>
      cases found
      exact member
  · intro member
    exact ⟨_, member, rfl⟩

section

variable {slots slots' : List Slot}

theorem plain_of_named (names : named (slots.map Prod.fst) = true) :
    ∀ entry ∈ entries slots, plainName entry.1 = true := by
  intro entry member
  rw [named, Bool.and_eq_true, all_eq_true] at names
  exact names.1 _ (mem_map_of_mem (f := Prod.fst) (mem_entries.mp member))

theorem Filled.entry (filled : Filled slots) : ∀ entry ∈ entries slots, IsValue entry.2 :=
  fun _ member => filled _ (mem_entries.mp member) _ rfl

theorem Filled.isValue (filled : Filled slots) (names : named (slots.map Prod.fst) = true) :
    IsValue (record slots) :=
  .object (plain_of_named names) filled.entry

end

theorem text_inj {entry entry' : Entry} (plain : plainName entry.1 = true)
    (plain' : plainName entry'.1 = true) (same : entry.text = entry'.text) : entry = entry' := by
  have texts := congrArg String.toList same
  rw [toList_text, toList_text] at texts
  obtain ⟨names, values⟩ := name_unique plain plain' (cons.inj texts).2
  exact Prod.ext names (String.toList_inj.mp (cons.inj values).2)

theorem map_text_inj : ∀ {left right : List Entry}, (∀ entry ∈ left, plainName entry.1 = true) →
    (∀ entry ∈ right, plainName entry.1 = true) → left.map Entry.text = right.map Entry.text → left = right
  | [], [], _, _, _ => rfl
  | [], _ :: _, _, _, same => by cases same
  | _ :: _, [], _, _, same => by cases same
  | a :: left, b :: right, plain, plain', same => by
      obtain ⟨first, rest⟩ := cons.inj same
      rw [text_inj (plain a mem_cons_self) (plain' b mem_cons_self) first,
        map_text_inj (fun e member => plain e (mem_cons_of_mem _ member))
          (fun e member => plain' e (mem_cons_of_mem _ member)) rest]

theorem entries_inj : ∀ {slots slots' : List Slot}, slots.map Prod.fst = slots'.map Prod.fst →
    (slots.map Prod.fst).Nodup → entries slots = entries slots' → slots = slots'
  | [], [], _, _, _ => rfl
  | [], _ :: _, names, _, _ => by cases names
  | _ :: _, [], names, _, _ => by cases names
  | (name, value) :: slots, (name', value') :: slots', names, distinct, same => by
      obtain ⟨rfl, rest⟩ := cons.inj names
      obtain ⟨new, distinct'⟩ := nodup_cons.mp distinct
      have absent : ∀ {text : String} {others : List Slot}, others.map Prod.fst = slots.map Prod.fst →
          (name, text) ∉ entries others := by
        intro text others alike member
        apply new
        change name ∈ slots.map Prod.fst
        rw [← alike]
        exact mem_map_of_mem (f := Prod.fst) (mem_entries.mp member)
      cases value with
      | none =>
        cases value' with
        | none => rw [entries_inj rest distinct' same]
        | some text' =>
          change entries slots = (name, text') :: entries slots' at same
          exact absurd (same ▸ mem_cons_self) (absent rfl)
      | some text =>
        cases value' with
        | none =>
          change (name, text) :: entries slots = entries slots' at same
          exact absurd (same ▸ mem_cons_self) (absent rest.symm)
        | some text' =>
          obtain ⟨first, later⟩ := cons.inj same
          cases first
          rw [entries_inj rest distinct' later]

/-- The text of a structure determines which members it has and their texts. -/
theorem record_inj {slots slots' : List Slot} (filled : Filled slots) (filled' : Filled slots')
    (alike : slots.map Prod.fst = slots'.map Prod.fst) (names : named (slots.map Prod.fst) = true)
    (same : record slots = record slots') : slots = slots' := by
  have plain := plain_of_named names
  have plain' := plain_of_named (alike ▸ names)
  have unique : ∀ t ∈ (entries slots).map Entry.text, ∀ t' ∈ (entries slots').map Entry.text,
      Unique t.toList t'.toList :=
    forall_mem_map.mpr fun entry member => forall_mem_map.mpr fun entry' member' =>
      entry_unique (plain entry member) (plain' entry' member')
        ((filled.entry entry member).unique (filled'.entry entry' member'))
  have fields := (object_unique (x := []) (y := [])
    (forall_mem_map.mpr fun entry _ => opens_text entry)
    (forall_mem_map.mpr fun entry _ => opens_text entry) unique
    (congrArg (fun text : String => text.toList ++ []) same)).1
  rw [named, Bool.and_eq_true, decide_eq_true_eq] at names
  exact entries_inj alike names.2 (map_text_inj plain plain' fields)

def textSlot (name value : String) : Slot := (name, some (quote value))

/-- A text with `omitempty`. -/
def optionalText (name value : String) : Slot := (name, if value = "" then none else some (quote value))

def natSlot (name : String) (value : Nat) : Slot := (name, some (nat value))

def intSlot (name : String) (value : Int) : Slot := (name, some (int value))

/-- A number with `omitempty`. -/
def optionalNat (name : String) (value : Nat) : Slot := (name, if value = 0 then none else some (nat value))

def optionalInt (name : String) (value : Int) : Slot := (name, if value = 0 then none else some (int value))

def arraySlot (name : String) (items : List String) : Slot := (name, some (array items))

/-- A slice with `omitempty`. -/
def optionalArray (name : String) (items : List String) : Slot :=
  (name, if items.isEmpty then none else some (array items))

section

variable {name : String}

@[simp] theorem textSlot_inj {a b : String} : textSlot name a = textSlot name b ↔ a = b := by
  simp [textSlot, quote_inj]

@[simp] theorem optionalText_inj {a b : String} : optionalText name a = optionalText name b ↔ a = b := by
  by_cases left : a = "" <;> by_cases right : b = "" <;> simp [optionalText, left, right, quote_inj]

@[simp] theorem natSlot_inj {a b : Nat} : natSlot name a = natSlot name b ↔ a = b := by
  simp [natSlot, nat_inj]

@[simp] theorem intSlot_inj {a b : Int} : intSlot name a = intSlot name b ↔ a = b := by
  simp [intSlot, int_inj]

@[simp] theorem optionalNat_inj {a b : Nat} : optionalNat name a = optionalNat name b ↔ a = b := by
  by_cases left : a = 0 <;> by_cases right : b = 0 <;> simp [optionalNat, left, right, nat_inj]
  exact fun same => right same.symm

@[simp] theorem optionalInt_inj {a b : Int} : optionalInt name a = optionalInt name b ↔ a = b := by
  by_cases left : a = 0 <;> by_cases right : b = 0 <;> simp [optionalInt, left, right, int_inj]
  exact fun same => right same.symm

theorem arraySlot_inj {a b : List String} (each : ∀ item ∈ a, IsValue item)
    (each' : ∀ item ∈ b, IsValue item) : arraySlot name a = arraySlot name b ↔ a = b := by
  simp only [arraySlot, Prod.mk.injEq, Option.some.injEq, true_and]
  exact ⟨array_inj each each', fun same => by rw [same]⟩

theorem optionalArray_inj {a b : List String} (each : ∀ item ∈ a, IsValue item)
    (each' : ∀ item ∈ b, IsValue item) : optionalArray name a = optionalArray name b ↔ a = b := by
  cases a with
  | nil => cases b <;> simp [optionalArray]
  | cons x a =>
    cases b with
    | nil => simp [optionalArray]
    | cons y b => exact arraySlot_inj each each'

end

section

variable (name : String)

theorem holds_of_isValue {text : String} (value : IsValue text) : Slot.Holds (name, some text) := by
  rintro _ ⟨⟩
  exact value

theorem holds_ite {absent : Prop} [Decidable absent] {text : String} (value : IsValue text) :
    Slot.Holds (name, if absent then none else some text) := by
  split
  · rintro _ ⟨⟩
  · exact holds_of_isValue name value

theorem holds_map {α : Type} {encode : α → String} (each : ∀ a, IsValue (encode a)) (item : Option α) :
    Slot.Holds (name, item.map encode) := by
  intro text present
  obtain ⟨a, -, rfl⟩ := Option.map_eq_some_iff.mp present
  exact each a

@[simp] theorem holds_textSlot (text : String) : (textSlot name text).Holds := holds_of_isValue name (.text text)

@[simp] theorem holds_natSlot (n : Nat) : (natSlot name n).Holds := holds_of_isValue name (.nat n)

@[simp] theorem holds_intSlot (n : Int) : (intSlot name n).Holds := holds_of_isValue name (.number n)

@[simp] theorem holds_optionalText (text : String) : (optionalText name text).Holds := holds_ite name (.text text)

@[simp] theorem holds_optionalNat (n : Nat) : (optionalNat name n).Holds := holds_ite name (.nat n)

@[simp] theorem holds_optionalInt (n : Int) : (optionalInt name n).Holds := holds_ite name (.number n)

theorem holds_arraySlot {items : List String} (each : ∀ item ∈ items, IsValue item) :
    (arraySlot name items).Holds :=
  holds_of_isValue name (.array each)

theorem holds_optionalArray {items : List String} (each : ∀ item ∈ items, IsValue item) :
    (optionalArray name items).Holds :=
  holds_ite name (.array each)

end

theorem isValue_quotes (items : List String) : ∀ item ∈ items.map quote, IsValue item :=
  forall_mem_map.mpr fun item _ => .text item

theorem map_quote_inj {items items' : List String} : items.map quote = items'.map quote ↔ items = items' :=
  map_inj_right fun _ _ => quote_inj.mp

/-- The members of a type's structures: the same names for every value, and values that
determine it. -/
structure Layout {α : Type} (slots : α → List Slot) : Prop where
  alike : ∀ a b, (slots a).map Prod.fst = (slots b).map Prod.fst
  names : ∀ a, named ((slots a).map Prod.fst) = true
  filled : ∀ a, Filled (slots a)
  injective : ∀ a b, slots a = slots b → a = b

namespace Layout

variable {α : Type} {slots : α → List Slot}

variable (layout : Layout slots)

include layout

theorem isValue (a : α) : IsValue (record (slots a)) := (layout.filled a).isValue (layout.names a)

theorem inj {a b : α} : record (slots a) = record (slots b) ↔ a = b := by
  constructor
  · intro same
    exact layout.injective a b
      (record_inj (layout.filled a) (layout.filled b) (layout.alike a b) (layout.names a) same)
  · rintro rfl
    rfl

theorem isValue_map (items : List α) : ∀ item ∈ items.map fun a => record (slots a), IsValue item :=
  forall_mem_map.mpr fun a _ => layout.isValue a

theorem map_inj {items items' : List α} :
    (items.map fun a => record (slots a)) = (items'.map fun a => record (slots a)) ↔ items = items' :=
  map_inj_right fun _ _ => layout.inj.mp

theorem option_inj {item item' : Option α} :
    (item.map fun a => record (slots a)) = (item'.map fun a => record (slots a)) ↔ item = item' :=
  (Option.map_injective fun _ _ => layout.inj.mp).eq_iff

end Layout

end Aeontra.Library.JsonText

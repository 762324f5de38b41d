import Aeontra.Library.Fallible
import Aeontra.Policy.Scan

/-!
The pages of a process log: `ProjectProcessManager.readLog` and a reader that follows its offsets.

A page is cut at any byte, repaired to valid UTF-8 and redacted on its own.  The pages are the log
for every choice of limits exactly when the log is ASCII and no stretch of it looks like a secret.
-/

namespace Aeontra.Edgeclient

open Library List
open Policy (redact)

abbrev Bytes := List UInt8

def utf8 (text : String) : Bytes := text.toByteArray.data.toList

/-- `strings.ToValidUTF8`; the first argument counts the bytes of a character that are still to be passed. -/
def repaired : (skip : Nat) → (invalid : Bool) → Bytes → List Char
  | _, _, [] => []
  | skip + 1, invalid, _ :: rest => repaired skip invalid rest
  | 0, invalid, b :: rest =>
    if b < 0x80 then Char.ofNat b.toNat :: repaired 0 false rest
    else
      match ByteArray.utf8DecodeChar? ⟨(b :: rest).toArray⟩ 0 with
      | some c => c :: repaired (c.utf8Size - 1) false rest
      | none => if invalid then repaired 0 true rest else '\ufffd' :: repaired 0 true rest

def toValidUTF8 (data : Bytes) : String := String.ofList (repaired 0 false data)

/-- What stands beside the log under the name of the marker. -/
inductive Marker where
  | absent | present | unsafeFile | unreadable
  deriving DecidableEq

structure LogFile where
  content : Bytes
  marker : Marker
  deriving DecidableEq

structure Page where
  value : String
  next : Nat
  eof : Bool
  truncated : Bool
  deriving DecidableEq

def shown (chunk : Bytes) : String := (redact (toValidUTF8 chunk)).1

/-- `readLog`; `none` is a log that is missing, unsafe or cannot be read. -/
def readLog (log : Option LogFile) (offset limit : Nat) : Except String Page := do
  let file ← required "project process log unavailable" log
  let size := file.content.length
  let offset := if offset > size then size else offset
  let chunk := (file.content.drop offset).take limit
  let value := shown chunk
  let next := offset + chunk.length
  reject (file.marker = .unsafeFile) "project process log is unsafe"
  reject (file.marker = .unreadable) "project process log unavailable"
  pure ⟨value, next, size ≤ next, file.marker = .present⟩

/-- A reader that follows the next offsets with the given limits, up to the end of the log. -/
def readPages (log : Option LogFile) : (limits : List Nat) → (offset : Nat) → Except String (List Page)
  | [], _ => pure []
  | limit :: limits, offset => do
    let page ← readLog log offset limit
    if page.eof then pure [page]
    else
      let rest ← readPages log limits page.next
      pure (page :: rest)

def ended (pages : List Page) : Bool := pages.getLast?.any Page.eof

def joined (pages : List Page) : Bytes := pages.flatMap fun page => utf8 page.value

section

variable {content : Bytes} {truncated : Bool}

def written (content : Bytes) (truncated : Bool) : Option LogFile :=
  some ⟨content, if truncated then .present else .absent⟩

theorem readLog_written {offset : Nat} (inside : offset ≤ content.length) (limit : Nat) :
    readLog (written content truncated) offset limit =
      let chunk := (content.drop offset).take limit
      .ok ⟨shown chunk, offset + chunk.length, content.length ≤ offset + chunk.length, truncated⟩ := by
  have kept : ¬ offset > content.length := by omega
  cases truncated <;> simp [readLog, written, required, reject, kept]

theorem ended_cons {page : Page} (before : page.eof = false) (pages : List Page) :
    ended (page :: pages) = ended pages := by
  cases pages with
  | nil => simp [ended, before]
  | cons first others => simp [ended, getLast?_cons]

theorem joined_cons (page : Page) (pages : List Page) : joined (page :: pages) = utf8 page.value ++ joined pages :=
  flatMap_cons

theorem readPages_parts (truncated : Bool) {parts : List Bytes} {offset : Nat} (some_ : parts ≠ [])
    (filled : ∀ part ∈ parts, part ≠ [])
    (whole : content.drop offset = parts.flatten) :
    ∃ pages, readPages (written content truncated) (parts.map List.length) offset = .ok pages ∧
      ended pages = true ∧ joined pages = parts.flatMap fun part => utf8 (shown part) := by
  induction parts generalizing offset with
  | nil => exact absurd rfl some_
  | cons part parts ih =>
    have size := congrArg List.length whole
    have long : 0 < part.length := List.length_pos_iff.mpr (filled part mem_cons_self)
    simp only [length_drop, flatten_cons, length_append] at size
    have chunk : (content.drop offset).take part.length = part := by
      rw [whole, flatten_cons, take_left]
    rw [map_cons, readPages, readLog_written (by omega)]
    simp only [chunk, ok_bind, bool_iff]
    cases parts with
    | nil =>
      simp only [flatten_nil, length_nil] at size
      rw [if_pos (by omega)]
      exact ⟨_, rfl, by simpa [ended] using by omega, by simp [joined]⟩
    | cons next parts =>
      have more : 0 < next.length := List.length_pos_iff.mpr (filled next (by simp))
      simp only [flatten_cons, length_append] at size
      rw [if_neg (by omega)]
      have rest : content.drop (offset + part.length) = (next :: parts).flatten := by
        rw [← drop_drop, whole, flatten_cons, drop_left]
      obtain ⟨pages, read, finished, text⟩ :=
        ih (by simp) (fun other member => filled other (mem_cons_of_mem _ member)) rest
      rw [read]
      refine ⟨_, rfl, ?_, ?_⟩
      · rw [ended_cons (decide_eq_false (by omega)), finished]
      · rw [joined_cons, text]
        rfl

theorem readPages_written (truncated : Bool) {limits : List Nat} {offset : Nat} (positive : ∀ limit ∈ limits, 1 ≤ limit)
    (inside : offset ≤ content.length) :
    ∃ pages, readPages (written content truncated) limits offset = .ok pages ∧
      (∀ page ∈ pages, page.eof = true ↔ page.next = content.length) ∧
      (content.length < offset + limits.length → ended pages = true) ∧
      (ended pages = true → ∃ parts : List Bytes, content.drop offset = parts.flatten ∧
        joined pages = parts.flatMap fun part => utf8 (shown part)) := by
  induction limits generalizing offset with
  | nil => exact ⟨[], rfl, by simp, by simp; omega, by simp [ended]⟩
  | cons limit limits ih =>
    have long := positive limit mem_cons_self
    rw [readPages, readLog_written inside]
    simp only [ok_bind, bool_iff]
    generalize cut : (content.drop offset).take limit = chunk
    have size := congrArg List.length cut
    simp only [length_take, length_drop] at size
    have here : (content.length ≤ offset + chunk.length) ↔ offset + chunk.length = content.length := by omega
    by_cases final : content.length ≤ offset + chunk.length
    · rw [if_pos final]
      refine ⟨_, rfl, by simp [here], by simp [ended, final], fun _ => ⟨[chunk], ?_, by simp [joined]⟩⟩
      rw [flatten_singleton, ← cut, take_of_length_le]
      rw [length_drop]
      omega
    · rw [if_neg final]
      have further : offset + chunk.length ≤ content.length := by omega
      obtain ⟨pages, read, marks, reaches, parted⟩ :=
        ih (fun other member => positive other (mem_cons_of_mem _ member)) further
      rw [read]
      refine ⟨_, rfl, List.forall_mem_cons.mpr ⟨by simp [here], marks⟩, ?_, ?_⟩
      · intro enough
        rw [ended_cons (decide_eq_false final)]
        refine reaches ?_
        simp only [length_cons] at enough
        omega
      · intro finished
        rw [ended_cons (decide_eq_false final)] at finished
        obtain ⟨parts, whole, text⟩ := parted finished
        have full : chunk.length = limit := by omega
        refine ⟨chunk :: parts, ?_, ?_⟩
        · rw [flatten_cons, ← whole, full, ← drop_drop, ← cut, take_append_drop]
        · rw [joined_cons, text]
          rfl

end

def plainText (data : Bytes) : String := String.ofList (data.map fun b => Char.ofNat b.toNat)

/-- The log is ASCII, and the content scan leaves every stretch of it alone. -/
structure Plain (content : Bytes) : Prop where
  ascii : ∀ b ∈ content, b < 0x80
  unredacted : ∀ stretch, stretch <:+: content → (redact (plainText stretch)).1 = plainText stretch

theorem byte_cases {P : UInt8 → Prop} (each : ∀ n : Fin 256, P (UInt8.ofNat n)) (b : UInt8) : P b := by
  simpa using each ⟨b.toNat, b.toNat_lt⟩

theorem utf8EncodeChar_byte : ∀ b : UInt8, b < 0x80 → String.utf8EncodeChar (Char.ofNat b.toNat) = [b] :=
  byte_cases (by decide +kernel)

theorem utf8_shown_byte : ∀ b : UInt8, utf8 (shown [b]) = if b < 0x80 then [b] else utf8 "\ufffd" :=
  byte_cases (by decide +kernel)

section

variable {data : Bytes} (ascii : ∀ b ∈ data, b < 0x80)

include ascii

theorem toValidUTF8_ascii : toValidUTF8 data = plainText data := by
  have chars : repaired 0 false data = data.map fun b => Char.ofNat b.toNat := by
    induction data with
    | nil => rfl
    | cons b rest ih =>
      rw [repaired, if_pos (ascii b mem_cons_self), map_cons,
        ih fun other member => ascii other (mem_cons_of_mem _ member)]
  rw [toValidUTF8, chars, plainText]

theorem utf8_plainText : utf8 (plainText data) = data := by
  rw [utf8, plainText, String.toByteArray_ofList, utf8Encode, data_toByteArray]
  induction data with
  | nil => rfl
  | cons b rest ih =>
    have later := ih fun other member => ascii other (mem_cons_of_mem _ member)
    rw [map_cons, flatMap_cons, utf8EncodeChar_byte b (ascii b mem_cons_self)]
    exact congrArg (b :: ·) later

theorem utf8_shown_bytes : ((data.map fun b => [b]).flatMap fun part => utf8 (shown part)) = data := by
  induction data with
  | nil => rfl
  | cons b rest ih =>
    rw [map_cons, flatMap_cons, ih fun other member => ascii other (mem_cons_of_mem _ member),
      utf8_shown_byte, if_pos (ascii b mem_cons_self), singleton_append]

end

theorem length_le_shown_bytes (data : Bytes) :
    data.length ≤ ((data.map fun b => [b]).flatMap fun part => utf8 (shown part)).length := by
  induction data with
  | nil => exact Nat.le_refl _
  | cons b rest ih =>
    have one : 1 ≤ (utf8 (shown [b])).length := by
      rw [utf8_shown_byte]
      split
      · exact Nat.le_refl _
      · decide
    rw [map_cons, flatMap_cons, length_append, length_cons]
    omega

theorem Plain.utf8_shown {content part : Bytes} (plain : Plain content) (inside : part <:+: content) :
    utf8 (shown part) = part := by
  have ascii : ∀ b ∈ part, b < 0x80 := fun b member => plain.ascii b (inside.subset member)
  rw [shown, toValidUTF8_ascii ascii, plain.unredacted part inside, utf8_plainText ascii]

theorem plain_of_parts {content : Bytes}
    (kept : ∀ parts : List Bytes, (∀ part ∈ parts, part ≠ []) → content = parts.flatten →
      (parts.flatMap fun part => utf8 (shown part)) = content) : Plain content := by
  have singles : ∀ data : Bytes, (data.map fun b => [b]).flatten = data := by
    intro data
    rw [← flatMap_def, flatMap_singleton']
  have filled : ∀ data : Bytes, ∀ part ∈ data.map fun b => [b], part ≠ [] := by simp
  have ascii : ∀ b ∈ content, b < 0x80 := by
    intro b member
    by_contra high
    obtain ⟨before, after, whole⟩ := append_of_mem member
    have same := congrArg List.length (kept _ (filled content) (singles content).symm)
    have wide : (utf8 (shown [b])).length = 3 := by
      rw [utf8_shown_byte, if_neg high]
      decide
    have left := length_le_shown_bytes before
    have right := length_le_shown_bytes after
    rw [whole, map_append, map_cons, flatMap_append, flatMap_cons] at same
    simp only [length_append, length_cons, wide] at same
    omega
  refine ⟨ascii, fun stretch inside => ?_⟩
  have low : ∀ b ∈ stretch, b < 0x80 := fun b member => ascii b (inside.subset member)
  by_cases empty : stretch = []
  · rw [empty]
    decide +kernel
  obtain ⟨before, after, whole⟩ := inside
  have same := kept ((before.map fun b => [b]) ++ stretch :: after.map fun b => [b]) ?_ ?_
  · rw [flatMap_append, flatMap_cons, utf8_shown_bytes, utf8_shown_bytes, ← whole, append_assoc,
      append_right_inj, append_left_inj] at same
    · rw [shown, toValidUTF8_ascii low] at same
      exact String.toByteArray_inj.mp (ByteArray.ext (Array.toList_inj.mp (same.trans (utf8_plainText low).symm)))
    · exact fun b member => ascii b (whole ▸ by simp [member])
    · exact fun b member => ascii b (whole ▸ by simp [member])
  · intro part member
    rcases List.mem_append.mp member with left | right
    · exact filled before part left
    rcases List.mem_cons.mp right with rfl | right
    · exact empty
    · exact filled after part right
  · rw [flatten_append, flatten_cons, singles, singles, ← whole, append_assoc]

/-- Every reading of the log gives its content, and tells its end, exactly when the log is plain. -/
theorem paging_lossless_iff (content : Bytes) (truncated : Bool) :
    (∀ limits : List Nat, (∀ limit ∈ limits, 1 ≤ limit) →
      ∃ pages, readPages (written content truncated) limits 0 = .ok pages ∧
        (∀ page ∈ pages, page.eof = true ↔ page.next = content.length) ∧
        (content.length < limits.length → ended pages = true) ∧
        (ended pages = true → joined pages = content)) ↔ Plain content := by
  constructor
  · intro lossless
    refine plain_of_parts fun parts filled whole => ?_
    by_cases none : parts = []
    · rw [whole, none]
      rfl
    have positive : ∀ limit ∈ parts.map List.length, 1 ≤ limit := by
      intro limit member
      obtain ⟨part, inside, rfl⟩ := List.mem_map.mp member
      exact List.length_pos_iff.mpr (filled part inside)
    obtain ⟨pages, read, finished, text⟩ := readPages_parts truncated none filled (List.drop_zero.trans whole)
    obtain ⟨pages', read', -, -, joins⟩ := lossless _ positive
    obtain rfl : pages = pages' := Except.ok.inj (read.symm.trans read')
    exact text.symm.trans (joins finished)
  · intro plain limits positive
    obtain ⟨pages, read, marks, reaches, parted⟩ := readPages_written truncated positive content.length.zero_le
    refine ⟨pages, read, marks, by simpa using reaches, fun finished => ?_⟩
    obtain ⟨parts, whole, text⟩ := parted finished
    rw [drop_zero] at whole
    have same : parts.map (fun part => utf8 (shown part)) = parts.map id := by
      refine map_congr_left fun part member => plain.utf8_shown ?_
      rw [whole]
      exact infix_of_mem_flatten member
    rw [text, flatMap_def, same, map_id, whole]

/-- A log of one accented letter and a line break, read byte by byte. -/
theorem accented_letter_lost : (redact "\u00e9\n").1 = "\u00e9\n" ∧
    ∃ pages, readPages (written (utf8 "\u00e9\n") false) [1, 1, 1] 0 = .ok pages ∧ ended pages = true ∧
      joined pages ≠ utf8 "\u00e9\n" := by
  refine ⟨by decide +kernel, [⟨"\ufffd", 1, false, false⟩, ⟨"\ufffd", 2, false, false⟩, ⟨"\n", 3, true, false⟩], ?_⟩
  decide +kernel

end Aeontra.Edgeclient

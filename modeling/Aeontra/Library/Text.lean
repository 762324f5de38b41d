import Aeontra.Library.Chars

/-!
Text helpers of the Go library on lists of characters.
-/

namespace Aeontra.Library.Text

def oneOf (members : String) (c : Char) : Bool := (chars members).contains c

/-- White space of the Unicode standard, as `strings.TrimSpace` drops it. -/
def unicodeSpace (c : Char) : Bool :=
  ('\t' ≤ c && c ≤ '\r') || ('\u2000' ≤ c && c ≤ '\u200A') ||
    oneOf " \u0085\u00A0\u1680\u2028\u2029\u202F\u205F\u3000" c

def trim (drops : Char → Bool) (value : List Char) : List Char :=
  ((value.dropWhile drops).reverse.dropWhile drops).reverse

/-- Lower case as far as it is ASCII: of the capitals and of the two other characters that have one. -/
def toLower (c : Char) : Char :=
  if c == '\u212A' then 'k' else if c == '\u0130' then 'i' else c.toLower

def contains (word value : List Char) : Bool := value.tails.any word.isPrefixOf

/-- `strings.TrimSpace`. -/
def trimSpace (text : String) : String := String.ofList (trim unicodeSpace (chars text))

/-- `strings.ToLower`, for texts that are then required to be ASCII. -/
def lowerText (text : String) : String := String.ofList ((chars text).map toLower)

/-- `strings.TrimPrefix`. -/
def withoutPrefix (lead text : String) : String :=
  if (chars lead).isPrefixOf (chars text) then String.ofList ((chars text).drop (chars lead).length)
  else text

end Aeontra.Library.Text

namespace Aeontra.Library

/-- The mapping behind `strings.ToLower`: any that is the usual one on ASCII. -/
structure LowerCase where
  toLower : Char → Char
  ascii : ∀ c : Char, c.toNat < 128 → toLower c = c.toLower

def LowerCase.text (lower : LowerCase) (text : String) : String :=
  String.ofList ((chars text).map lower.toLower)

def asciiLower : LowerCase := ⟨Char.toLower, fun _ _ => rfl⟩

end Aeontra.Library

import Aeontra.Library.Chars

/-!
Leftmost-first regular-expression search over a text, with captures, ASCII word
boundaries and replacement of every match.  Repetition is of one character class, so
that no repeated expression matches the empty text.
-/

namespace Aeontra.Library

inductive Regex where
  | one (accepts : Char → Bool)
  | empty
  | seq (first second : Regex)
  | alt (first second : Regex)
  | many (accepts : Char → Bool) (least : Nat) (most : Option Nat) (greedy : Bool)
  | wordBoundary
  | textStart
  | group (index : Nat) (body : Regex)

namespace Regex

/-- A position in a text: what was passed, nearest character first, and what follows. -/
structure Cursor where
  passed : List Char
  ahead : List Char

abbrev Captures := List (Nat × Nat × Nat)

def isWord (c : Char) : Bool := ('A' ≤ c && c ≤ 'Z') || ('a' ≤ c && c ≤ 'z') || ('0' ≤ c && c ≤ '9') || c == '_'

def Cursor.position (here : Cursor) : Nat := here.passed.length

def Cursor.atBoundary (here : Cursor) : Bool := (here.passed.head?.any isWord) != (here.ahead.head?.any isWord)

def Cursor.advance (here : Cursor) (length : Nat) : Cursor :=
  ⟨(here.ahead.take length).reverse ++ here.passed, here.ahead.drop length⟩

def lengths (available least : Nat) (most : Option Nat) (greedy : Bool) : List Nat :=
  let longest := match most with
    | none => available
    | some most => min available most
  let ascending := (List.range (longest + 1 - least)).map (least + ·)
  if greedy then ascending.reverse else ascending

/-- The first continuation that succeeds, in the engine's order of preference. -/
def matchFrom {β : Type} : Regex → Cursor → Captures → (Cursor → Captures → Option β) → Option β
  | one accepts, here, captures, next =>
    match here.ahead with
    | [] => none
    | c :: _ => if accepts c then next (here.advance 1) captures else none
  | empty, here, captures, next => next here captures
  | seq first second, here, captures, next =>
    matchFrom first here captures fun middle captures => matchFrom second middle captures next
  | alt first second, here, captures, next =>
    match matchFrom first here captures next with
    | some result => some result
    | none => matchFrom second here captures next
  | many accepts least most greedy, here, captures, next =>
    (lengths (here.ahead.takeWhile accepts).length least most greedy).findSome? fun length =>
      next (here.advance length) captures
  | wordBoundary, here, captures, next => if here.atBoundary then next here captures else none
  | textStart, here, captures, next => if here.passed.isEmpty then next here captures else none
  | group index body, here, captures, next =>
    matchFrom body here captures fun after captures =>
      next after ((index, here.position, after.position) :: captures)

/-- A match: where it begins, where it ends and its captures. -/
structure Found where
  start : Cursor
  stop : Cursor
  captures : Captures

def search (r : Regex) : (passed ahead : List Char) → Option Found
  | passed, ahead =>
    match matchFrom r ⟨passed, ahead⟩ [] fun stop captures => some (Found.mk ⟨passed, ahead⟩ stop captures) with
    | some found => some found
    | none =>
      match ahead with
      | [] => none
      | c :: rest => search r (c :: passed) rest

def matchString (r : Regex) (text : List Char) : Bool := (search r [] text).isSome

def captured (r : Regex) (index : Nat) (text : List Char) : Option (Nat × Nat) :=
  (search r [] text).bind fun found =>
    (found.captures.find? fun capture => capture.1 == index).map Prod.snd

/-- Rewrite every match from left to right; the bound counts the searches. -/
def replaceFrom (r : Regex) (rewrite : List Char → List Char) : Nat → Cursor → List Char
  | 0, here => here.ahead
  | bound + 1, here =>
    match search r here.passed here.ahead with
    | none => here.ahead
    | some found =>
      here.ahead.take (found.start.position - here.position) ++
        rewrite (found.start.ahead.take (found.stop.position - found.start.position)) ++
        replaceFrom r rewrite bound found.stop

def replaceAll (r : Regex) (rewrite : List Char → List Char) (text : List Char) : List Char :=
  replaceFrom r rewrite (text.length + 1) ⟨[], text⟩

def text (literal : String) : Regex :=
  (chars literal).foldr (fun c rest => seq (one fun d => d == c) rest) empty

def choice : List Regex → Regex
  | [] => one fun _ => false
  | [r] => r
  | r :: rest => alt r (choice rest)

def optional (r : Regex) : Regex := alt r empty

/-- One ASCII letter in either case, with the two letters outside ASCII that fold to it. -/
def folds (letter c : Char) : Bool :=
  c == letter || c == letter.toUpper || (letter == 'k' && c == '\u212A') ||
    (letter == 's' && c == '\u017F')

def foldedText (literal : String) : Regex :=
  (chars literal).foldr (fun c rest => seq (one (folds c)) rest) empty

end Regex

end Aeontra.Library

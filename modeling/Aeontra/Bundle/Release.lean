import Aeontra.Library.Chars

/-!
Release identifiers of edge bundles and their order (`internal/bundle/manifest.go`), and what
a directory authenticates.
-/

namespace Aeontra.Bundle

open Library

def isDigit (c : Char) : Bool := '0' ≤ c && c ≤ '9'

def isNumber (field : List Char) : Bool := !field.isEmpty && field.all isDigit

def isNumeral (field : List Char) : Bool := isNumber field && (field == ['0'] || field.head? != some '0')

/-- `p15.1.2` is of the first generation, `v1.2.3` of the second. -/
def releaseFields (release : String) : Option (Nat × List (List Char)) :=
  match (chars release).splitOn '.' with
  | [first, second, third] =>
    if first = chars "p15" then
      if isNumber second && isNumber third then some (0, [chars "15", second, third]) else none
    else
      match first with
      | 'v' :: major =>
        if isNumeral major && isNumeral second && isNumeral third then some (1, [major, second, third]) else none
      | _ => none
  | _ => none

def validRelease (release : String) : Bool := (releaseFields release).isSome

def parseUint (field : List Char) : Option Nat :=
  let value := field.foldl (fun n c => n * 10 + (c.toNat - '0'.toNat)) 0
  if value < 2 ^ 64 then some value else none

def releaseOrder (release : String) : Option (Nat × List Nat) := do
  let (generation, fields) ← releaseFields release
  let parts ← fields.mapM parseUint
  pure (generation, parts)

def compareParts : List Nat → List Nat → Int
  | a :: left, b :: right => if a < b then -1 else if b < a then 1 else compareParts left right
  | _, _ => 0

def compareRelease (left right : String) : Option Int := do
  let (leftGeneration, leftParts) ← releaseOrder left
  let (rightGeneration, rightParts) ← releaseOrder right
  pure (compareParts (leftGeneration :: leftParts) (rightGeneration :: rightParts))

example : compareRelease "p15.9.9" "v0.1.0" = some (-1) ∧ compareRelease "v1.10.0" "v1.9.9" = some 1 ∧
    compareRelease "v1.0" "v1.0.0" = none := by decide

def Older (left right : String) : Prop := ∃ order, compareRelease left right = some order ∧ order < 0

instance (left right : String) : Decidable (Older left right) :=
  match found : compareRelease left right with
  | none => .isFalse fun ⟨_, same, _⟩ => nomatch found.symm.trans same
  | some order =>
    if less : order < 0 then .isTrue ⟨order, found, less⟩
    else .isFalse fun ⟨_, same, negative⟩ => less (Option.some.inj (found.symm.trans same) ▸ negative)

theorem compareParts_self (parts : List Nat) : compareParts parts parts = 0 := by
  induction parts with
  | nil => rfl
  | cons a parts ih => rw [compareParts, if_neg (Nat.lt_irrefl a), if_neg (Nat.lt_irrefl a), ih]

theorem not_older_self (release : String) : ¬ Older release release := by
  rintro ⟨order, found, negative⟩
  unfold compareRelease at found
  cases parts : releaseOrder release with
  | none =>
    rw [parts] at found
    cases found
  | some parts' =>
    rw [parts] at found
    have same : compareParts (parts'.1 :: parts'.2) (parts'.1 :: parts'.2) = order := Option.some.inj found
    rw [compareParts_self] at same
    omega

theorem not_older_empty (release : String) : ¬ Older release "" := by
  rintro ⟨order, found, _⟩
  unfold compareRelease at found
  have empty : releaseOrder "" = none := by decide
  rw [empty] at found
  cases parts : releaseOrder release with
  | none =>
    rw [parts] at found
    cases found
  | some parts' =>
    rw [parts] at found
    cases found

structure Compatibility where
  release : String
  commit : String
  protocolVersion : String
  catalogHash : String
  architecture : String
  platform : String
  deriving DecidableEq

/-- What the contents of a directory authenticate under one public key: any bundle for `LoadTrusted`, the
expected one for `LoadAndVerify`. -/
structure Verifier (Content : Type) where
  trusted : Content → Option Compatibility
  valid : ∀ content manifest, trusted content = some manifest → validRelease manifest.release = true

def Verifier.plain : Verifier Compatibility where
  trusted content := if validRelease content.release then some content else none
  valid content manifest found := by
    split at found
    · next valid => exact Option.some.inj found ▸ valid
    · cases found

def Compatibility.sample (release : String) : Compatibility := ⟨release, "3f786850", "1", "89e6c98d", "amd64", "linux"⟩

theorem release_ne_empty {release : String} (valid : validRelease release = true) : release ≠ "" := by
  rintro rfl
  revert valid
  decide

end Aeontra.Bundle

import Mathlib.Data.List.DropRight
import Aeontra.Library.JsonText

/-!
Civil dates and the RFC 3339 text of an instant given in nanoseconds since 1970.
-/

namespace Aeontra.Library

namespace Calendar

structure Date where
  year : Int
  month : Int
  day : Int
  deriving DecidableEq

/-- The proleptic Gregorian date of a day counted from 1970-01-01. -/
def dateOfDays (days : Int) : Date :=
  let shifted := days + 719468
  let era := shifted / 146097
  let dayOfEra := shifted % 146097
  let yearOfEra := (dayOfEra - dayOfEra / 1460 + dayOfEra / 36524 - dayOfEra / 146096) / 365
  let dayOfYear := dayOfEra - (365 * yearOfEra + yearOfEra / 4 - yearOfEra / 100)
  let index := (5 * dayOfYear + 2) / 153
  let month := if index < 10 then index + 3 else index - 9
  ⟨yearOfEra + era * 400 + (if month ≤ 2 then 1 else 0), month, dayOfYear - (153 * index + 2) / 5 + 1⟩

def decimalDigit (n : Nat) : Char := (chars "0123456789").getD (n % 10) '0'

def digits : (count n : Nat) → List Char
  | 0, _ => []
  | count + 1, n => digits count (n / 10) ++ [decimalDigit n]

/-- The fraction of a second without its trailing zeros, with its point. -/
def fraction (nanoseconds : Nat) : List Char :=
  if nanoseconds = 0 then [] else '.' :: (digits 9 nanoseconds).rdropWhile (· == '0')

/-- The time in UTC with as many fractional digits as it needs. -/
def rfc3339Nano (instant : Int) : List Char :=
  let seconds := instant / 1000000000
  let date := dateOfDays (seconds / 86400)
  let second := (seconds % 86400).toNat
  digits 4 date.year.toNat ++ '-' :: digits 2 date.month.toNat ++ '-' :: digits 2 date.day.toNat ++
    'T' :: digits 2 (second / 3600) ++ ':' :: digits 2 (second / 60 % 60) ++ ':' ::
    digits 2 (second % 60) ++ fraction (instant % 1000000000).toNat ++ ['Z']

example : String.ofList (rfc3339Nano 1700000000120000000) = "2023-11-14T22:13:20.12Z" := by
  decide

end Calendar

end Aeontra.Library

import CodeSessions.Store

/-!
# Timestamps — points in time as text

An instant is written as a date and a time of day in UTC, `2024-02-29T23:59:59.250Z`, with
milliseconds if there are any.  Instants are no finer than that; what a finer clock shows would be
written with six or nine decimals.  Dates follow the Gregorian calendar, also before it was
introduced.
-/

namespace CodeSessions
namespace Timestamp

structure Date where
  year : Int
  month : Nat
  day : Nat
  deriving DecidableEq, Repr

/-- The date of a day, counted from the first of January 1970.  Years are taken to start in March,
so that the leap day is their last, and come in cycles of 400 with 146097 days. -/
def Date.ofDay (day : Int) : Date :=
  let shifted := day + 719468
  let cycle := shifted.fdiv 146097
  let dayOfCycle := (shifted.fmod 146097).toNat
  let yearOfCycle :=
    (dayOfCycle - dayOfCycle / 1460 + dayOfCycle / 36524 - dayOfCycle / 146096) / 365
  let dayOfYear := dayOfCycle - (365 * yearOfCycle + yearOfCycle / 4 - yearOfCycle / 100)
  let monthFromMarch := (5 * dayOfYear + 2) / 153
  let month := if monthFromMarch < 10 then monthFromMarch + 3 else monthFromMarch - 9
  { year := cycle * 400 + yearOfCycle + (if month ≤ 2 then 1 else 0)
    month
    day := dayOfYear - (153 * monthFromMarch + 2) / 5 + 1 }

/-- `n` with leading zeros up to the given width. -/
def padded (width n : Nat) : String :=
  let digits := toString n
  String.ofList (List.replicate (width - digits.length) '0') ++ digits

def yearText (year : Int) : String :=
  if 0 ≤ year ∧ year ≤ 9999 then padded 4 year.toNat
  else (if year < 0 then "-" else "+") ++ padded 4 year.natAbs

def text (t : Instant) : String :=
  let date := Date.ofDay (t.fdiv 86400000)
  let ms := (t.fmod 86400000).toNat
  yearText date.year ++ "-" ++ padded 2 date.month ++ "-" ++ padded 2 date.day ++ "T" ++
    padded 2 (ms / 3600000) ++ ":" ++ padded 2 (ms / 60000 % 60) ++ ":" ++
    padded 2 (ms / 1000 % 60) ++
    (if ms % 1000 = 0 then "" else "." ++ padded 3 (ms % 1000)) ++ "Z"

end Timestamp
end CodeSessions

/-!
# Times of day

A time is a number of seconds since the start of 1970 in UTC. Its calendar date is found by counting
years from March, so that the leap day is the last day of a year, in cycles of 400 years.
-/

namespace LeadSheet.Log

/-- A number with zeros in front up to `width` digits. -/
def padZeros (width n : Nat) : String :=
  let digits := toString n
  String.ofList (List.replicate (width - digits.length) '0') ++ digits

/-- Year, month and day of a day that is counted from the start of 1970. -/
def calendarDate (day : Int) : Int × Nat × Nat :=
  let shifted := day + 719468
  let cycle := shifted.fdiv 146097
  let dayOfCycle := (shifted.fmod 146097).toNat
  let yearOfCycle := (dayOfCycle - dayOfCycle / 1460 + dayOfCycle / 36524 - dayOfCycle / 146096) / 365
  let dayOfYear := dayOfCycle - (365 * yearOfCycle + yearOfCycle / 4 - yearOfCycle / 100)
  let monthFromMarch := (5 * dayOfYear + 2) / 153
  let dayOfMonth := dayOfYear - (153 * monthFromMarch + 2) / 5 + 1
  let month := if monthFromMarch < 10 then monthFromMarch + 3 else monthFromMarch - 9
  (yearOfCycle + cycle * 400 + (if month ≤ 2 then 1 else 0), month, dayOfMonth)

/-- The years that can be written: a year has 32 bits, and so has its distance from 1900. -/
def isWrittenYear (year : Int) : Bool := 1900 - 0x80000000 ≤ year && year < 0x80000000

/-- A time as date, time of day and milliseconds, which are zero. A year is written without zeros in
front. -/
def timestamp? (seconds : Int) : Option String :=
  let (year, month, day) := calendarDate (seconds.fdiv 86400)
  let second := (seconds.fmod 86400).toNat
  if isWrittenYear year then
    some (s!"{year}-{padZeros 2 month}-{padZeros 2 day} " ++
      s!"{padZeros 2 (second / 3600)}:{padZeros 2 (second / 60 % 60)}:{padZeros 2 (second % 60)},000")
  else none

end LeadSheet.Log

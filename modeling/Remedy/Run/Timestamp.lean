/-!
# Timestamps

A moment is a number of milliseconds since the start of 1970. It is
written with its date and time of day in the Gregorian calendar.
-/

namespace Remedy

namespace Timestamp

/-- A date of the calendar. -/
structure Date where
  year : Int
  month : Nat
  day : Nat
deriving DecidableEq, Repr

/-- The date of a day, counted from the first day of 1970. Years are taken
to start in March, so that a leap day ends them. -/
def dateOf (day : Int) : Date :=
  let shifted := day + 719468
  let era := shifted / 146097
  let ofEra := (shifted % 146097).toNat
  let yearOfEra := (ofEra - ofEra / 1460 + ofEra / 36524 - ofEra / 146096) / 365
  let ofYear := ofEra - (365 * yearOfEra + yearOfEra / 4 - yearOfEra / 100)
  let fromMarch := (5 * ofYear + 2) / 153
  let month := if fromMarch < 10 then fromMarch + 3 else fromMarch - 9
  ⟨(yearOfEra : Int) + era * 400 + (if month ≤ 2 then 1 else 0), month,
    ofYear - (153 * fromMarch + 2) / 5 + 1⟩

/-- A number with zeros ahead of it, `width` digits at least. -/
def padded (width n : Nat) : String :=
  let digits := toString n
  String.ofList (List.replicate (width - digits.length) '0') ++ digits

/-- A year: four digits, and a sign if they do not do. -/
def yearText (year : Int) : String :=
  if 0 ≤ year ∧ year ≤ 9999 then padded 4 year.toNat
  else (if year < 0 then "-" else "+") ++ padded 4 year.natAbs

/-- **The text of a moment**, to the millisecond. -/
def text (milliseconds : Int) : String :=
  let date := dateOf (milliseconds / 86400000)
  let ofDay := (milliseconds % 86400000).toNat
  let seconds := ofDay / 1000
  let day := s!"{yearText date.year}-{padded 2 date.month}-{padded 2 date.day}"
  let time := s!"{padded 2 (seconds / 3600)}:{padded 2 (seconds / 60 % 60)}:{padded 2 (seconds % 60)}"
  s!"{day}T{time}.{padded 3 (ofDay % 1000)}Z"

end Timestamp

end Remedy

/-!
# Timestamps

A point in time as text: the day and the time of day in universal time, with three places for the
milliseconds if there are any.  Days are counted in eras of four hundred years, which all have the
same number of days, with years that begin in March, so that a leap day is the last of its year.
-/

namespace FleetLink

/-- Year, month and day. -/
structure CivilDate where
  year : Nat
  month : Nat
  day : Nat
  deriving DecidableEq, Repr

namespace CivilDate

/-- The date so many days after the first of January 1970. -/
def ofDays (days : Nat) : CivilDate :=
  let shifted := days + 719468
  let era := shifted / 146097
  let dayOfEra := shifted % 146097
  let yearOfEra :=
    (dayOfEra - dayOfEra / 1460 + dayOfEra / 36524 - dayOfEra / 146096) / 365
  let dayOfYear := dayOfEra - (365 * yearOfEra + yearOfEra / 4 - yearOfEra / 100)
  let march := (5 * dayOfYear + 2) / 153
  let day := dayOfYear - (153 * march + 2) / 5 + 1
  let month := if march < 10 then march + 3 else march - 9
  ⟨yearOfEra + era * 400 + if month ≤ 2 then 1 else 0, month, day⟩

end CivilDate

/-- A number with zeros in front, so that it has so many digits. -/
def zeroPadded (width n : Nat) : String :=
  let ds := Nat.toDigits 10 n
  String.ofList (List.replicate (width - ds.length) '0' ++ ds)

/-- The text of a point in time, in milliseconds after the beginning of 1970. -/
def timestampText (millis : Nat) : String :=
  let date := CivilDate.ofDays (millis / 86400000)
  let ofDay := millis % 86400000
  let fraction := if ofDay % 1000 = 0 then "" else "." ++ zeroPadded 3 (ofDay % 1000)
  zeroPadded 4 date.year ++ "-" ++ zeroPadded 2 date.month ++ "-" ++ zeroPadded 2 date.day ++ "T" ++
    zeroPadded 2 (ofDay / 3600000) ++ ":" ++ zeroPadded 2 (ofDay / 60000 % 60) ++ ":" ++
    zeroPadded 2 (ofDay / 1000 % 60) ++ fraction ++ "Z"

example : timestampText 951782400000 = "2000-02-29T00:00:00Z" := by decide +kernel

example : timestampText 1735689599007 = "2024-12-31T23:59:59.007Z" := by decide +kernel

end FleetLink

import ReleaseBuild.Text
import ReleaseBuild.Version
/-!
# The version header

Before the binaries are built, the release writes a C header with the product version into
the script directory, so that the resource scripts of the drivers and tools carry the same
numbers. The header records when it was generated, as a local date and time written
`YYYY-MM-DD HH:MM:SS`.

Dates are proleptic Gregorian. A year from 0 to 9999 is written with four digits; any other
year is written with its sign and at least four digits (`+10000`, `-0001`). A leap second is a
second 59 whose fraction reaches a whole second; it is written as second 60.
-/

namespace ReleaseBuild

/-- A local date and time with nanoseconds. A nanosecond count of one second or more stands
for a leap second. -/
structure Timestamp where
  year : Int
  month : Nat
  day : Nat
  hour : Nat
  minute : Nat
  second : Nat
  nano : Nat
  deriving DecidableEq, Repr

namespace Timestamp

/-- The smallest year that can be represented. -/
def minYear : Int := -262144

/-- The largest year that can be represented. -/
def maxYear : Int := 262143

/-- Leap years of the proleptic Gregorian calendar. -/
def isLeapYear (year : Int) : Bool :=
  year % 4 == 0 && (year % 100 != 0 || year % 400 == 0)

/-- The number of days of a month; `0` for a month outside 1 to 12. -/
def daysInMonth (year : Int) (month : Nat) : Nat :=
  match month with
  | 1 | 3 | 5 | 7 | 8 | 10 | 12 => 31
  | 4 | 6 | 9 | 11 => 30
  | 2 => if isLeapYear year then 29 else 28
  | _ => 0

/-- Whether the fields name a real moment: a representable year, a day of the month, a time
of day, and a fraction below two seconds that exceeds one second only in second 59. -/
def isValid (t : Timestamp) : Bool :=
  minYear ≤ t.year && t.year ≤ maxYear && 1 ≤ t.day && t.day ≤ daysInMonth t.year t.month &&
    t.hour < 24 && t.minute < 60 && t.second < 60 && t.nano < 2000000000 &&
    (t.nano < 1000000000 || t.second == 59)

/-- The moment with the given fields, if they name one. -/
def make? (year : Int) (month day hour minute second nano : Nat) : Option Timestamp :=
  let t : Timestamp := ⟨year, month, day, hour, minute, second, nano⟩
  if t.isValid then some t else none

/-- The year as written: four digits within 0 to 9999, else signed with at least four. -/
def yearText (year : Int) : String :=
  if 0 ≤ year && year ≤ 9999 then Text.zeroPad (toString year.toNat) 4
  else (if year < 0 then "-" else "+") ++ Text.zeroPad (toString year.natAbs) 4

/-- A two-digit field. -/
def twoDigits (n : Nat) : String := Text.zeroPad (toString n) 2

/-- The second as written: 60 during a leap second. -/
def shownSecond (t : Timestamp) : Nat :=
  if 1000000000 ≤ t.nano then t.second + 1 else t.second

/-- The moment written as `YYYY-MM-DD HH:MM:SS`. -/
def render (t : Timestamp) : String :=
  yearText t.year ++ "-" ++ twoDigits t.month ++ "-" ++ twoDigits t.day ++ " " ++
    twoDigits t.hour ++ ":" ++ twoDigits t.minute ++ ":" ++ twoDigits t.shownSecond

end Timestamp

namespace Header

/-- The file name of the header in the script directory. -/
def fileName : String := "version.h"

/-- The text that starts the line recording when the header was generated. -/
def generatedPrefix : String := "// Automatically generated by hone-build on "

/-- The header for a version, generated at the given moment. -/
def render (v : Version) (moment : Timestamp) : String :=
  "// -=-=-=-=-=- DO NOT EDIT THIS FILE! -=-=-=-=-=-\n" ++
  "//\n" ++
  "// Hone product version information.\n" ++
  generatedPrefix ++ moment.render ++ "\n" ++
  "//\n\n" ++
  "#define HONE_PRODUCTVERSION      " ++ v.numericList ++ "\n" ++
  "#define HONE_PRODUCTVERSION_STR  \"" ++ v.text ++ "\"\n"

end Header

end ReleaseBuild

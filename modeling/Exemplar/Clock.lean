import Exemplar.Decimal.Notation

/-!
# Exemplar.Clock

A reading of a wall clock, and the texts for it.  The reading is local; the offset says how many
minutes it is ahead of universal time.  Years have four digits, and a sign when they are outside
0 to 9999.  In a leap second the nanoseconds go on to count past one second, and the seconds are
shown as 60.

* `dateText` — `2024-05-19`;
* `timeText` — `22:08:00`;
* `instantText` — `2024-05-19T22:08:00+00:00`.
-/

namespace Exemplar

/-- A reading of a wall clock. -/
structure ClockReading where
  year : Int
  month : Nat
  day : Nat
  hour : Nat
  minute : Nat
  second : Nat
  /-- Minutes ahead of universal time. -/
  offset : Int
  nanosecond : Nat
deriving DecidableEq

namespace ClockReading

/-- The reading that the texts above show. -/
def evening : ClockReading := ⟨2024, 5, 19, 22, 8, 0, 0, 0⟩

/-- A number with zeros in front up to a width. -/
def padded (width n : Nat) : String :=
  let digits := digitChars n
  String.ofList (List.replicate (width - digits.length) '0' ++ digits)

/-- The year with four digits at least. -/
def yearText (t : ClockReading) : String :=
  if 0 ≤ t.year ∧ t.year ≤ 9999 then padded 4 t.year.natAbs
  else (if t.year < 0 then "-" else "+") ++ padded 4 t.year.natAbs

/-- The second as it is shown, 60 in a leap second. -/
def shownSecond (t : ClockReading) : Nat := t.second + t.nanosecond / 1000000000

/-- The date. -/
def dateText (t : ClockReading) : String :=
  t.yearText ++ "-" ++ padded 2 t.month ++ "-" ++ padded 2 t.day

/-- The time of day. -/
def timeText (t : ClockReading) : String :=
  padded 2 t.hour ++ ":" ++ padded 2 t.minute ++ ":" ++ padded 2 t.shownSecond

/-- The offset from universal time. -/
def offsetText (t : ClockReading) : String :=
  (if t.offset < 0 then "-" else "+") ++ padded 2 (t.offset.natAbs / 60) ++ ":"
    ++ padded 2 (t.offset.natAbs % 60)

/-- Date and time. -/
def dateTimeText (t : ClockReading) : String := t.dateText ++ " " ++ t.timeText

/-- Date, time and offset. -/
def instantText (t : ClockReading) : String := t.dateText ++ "T" ++ t.timeText ++ t.offsetText

end ClockReading

end Exemplar

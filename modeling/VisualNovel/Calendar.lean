import VisualNovel.Number.Integer

/-!
# Calendar

Save slots carry the time at which they were written, spelled out in words.
-/

namespace VisualNovel

/-- A minute of the calendar. -/
structure Moment where
  /-- The year. -/
  year : Nat
  /-- The month, from one. -/
  month : Nat
  /-- The day of the month, from one. -/
  day : Nat
  /-- The hour of the day. -/
  hour : Nat
  /-- The minute of the hour. -/
  minute : Nat
  deriving DecidableEq, Repr, Inhabited

namespace Moment

/-- The days of the week, from Sunday. -/
def weekdays : List String :=
  ["Sunday", "Monday", "Tuesday", "Wednesday", "Thursday", "Friday", "Saturday"]

/-- The months. -/
def months : List String :=
  ["January", "February", "March", "April", "May", "June", "July", "August", "September",
    "October", "November", "December"]

/-- How far the weekdays of a month are ahead of those of the January before, from January to
December. Years begin with March, so that a leap day ends one. -/
def monthShifts : List Nat := [0, 3, 2, 5, 0, 3, 5, 1, 4, 6, 2, 4]

/-- The number of the day in the week, from Sunday. -/
def weekday (m : Moment) : Nat :=
  let y := if m.month < 3 then m.year - 1 else m.year
  (y + y / 4 + y / 400 + monthShifts.getD (m.month - 1) 0 + m.day + 6 * (y / 100)) % 7

/-- A number with at least two digits. -/
def twoDigits (n : Nat) : String :=
  if n < 10 then "0" ++ String.ofList (Number.decimal n) else String.ofList (Number.decimal n)

/-- The moment in words: weekday, month, day, year and time. -/
def format (m : Moment) : String :=
  let weekday := weekdays.getD m.weekday ""
  let month := months.getD (m.month - 1) ""
  let time := s!"{twoDigits m.hour}:{twoDigits m.minute}"
  s!"{weekday}, {month} {twoDigits m.day} {m.year}, {time}"

end Moment

end VisualNovel

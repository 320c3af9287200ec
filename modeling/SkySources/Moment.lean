import SkySources.Decimal.Text

/-!
# Dates and times

A moment is a day of the calendar, a time of day, or both together, then
perhaps with the distance of the local clock from universal time.
-/

namespace SkySources

/-- A day of the calendar. -/
structure Date where
  year : Nat
  month : Nat
  day : Nat
  deriving DecidableEq, Repr

/-- A time of day, to the millionth of a second. -/
structure Clock where
  hour : Nat
  minute : Nat
  second : Nat
  micros : Nat
  deriving DecidableEq, Repr

/-- A day, a time of day, or both. -/
inductive Moment where
  | date (d : Date)
  | clock (t : Clock)
  /-- A day and a time; the distance from universal time is in minutes. -/
  | both (d : Date) (t : Clock) (offset : Option Int)
  deriving DecidableEq, Repr

namespace Date

/-- Whether a year has a leap day. -/
def isLeap (year : Nat) : Bool :=
  year % 4 == 0 && (year % 100 != 0 || year % 400 == 0)

/-- The number of days of a month. -/
def monthLength (year month : Nat) : Nat :=
  if month = 2 then (if isLeap year then 29 else 28)
  else if month = 4 ∨ month = 6 ∨ month = 9 ∨ month = 11 then 30
  else 31

/-- Whether the calendar has such a day; there is no year zero. -/
def isValid (d : Date) : Bool :=
  decide (1 ≤ d.year ∧ 1 ≤ d.month ∧ d.month ≤ 12 ∧ 1 ≤ d.day ∧ d.day ≤ monthLength d.year d.month)

end Date

namespace Moment

/-- Numbers as arguments, separated by commas. -/
def arguments (ns : List Nat) : String := ", ".intercalate (ns.map Decimal.digitsText)

/-- The numbers of a day. -/
def dateNumbers (d : Date) : List Nat := [d.year, d.month, d.day]

/-- The numbers of a time of day, without a zero for the seconds and the
fraction at the end. -/
def clockNumbers (t : Clock) : List Nat :=
  if t.micros ≠ 0 then [t.hour, t.minute, t.second, t.micros]
  else if t.second ≠ 0 then [t.hour, t.minute, t.second]
  else [t.hour, t.minute]

/-- The text of the distance from universal time, in days and seconds. -/
def offsetText (minutes : Int) : String :=
  if minutes = 0 then "datetime.timezone.utc"
  else
    let days := (minutes * 60).fdiv 86400
    let seconds := (minutes * 60).fmod 86400
    let dayText := if days = 0 then [] else ["days=" ++ Decimal.integerText days]
    let secondText := if seconds = 0 then [] else ["seconds=" ++ Decimal.integerText seconds]
    "datetime.timezone(datetime.timedelta(" ++ ", ".intercalate (dayText ++ secondText) ++ "))"

/-- The text of a moment. -/
def text : Moment → String
  | date d => "datetime.date(" ++ arguments (dateNumbers d) ++ ")"
  | clock t => "datetime.time(" ++ arguments (clockNumbers t) ++ ")"
  | both d t offset =>
    let zone := match offset with
      | some minutes => ", tzinfo=" ++ offsetText minutes
      | none => ""
    "datetime.datetime(" ++ arguments (dateNumbers d ++ clockNumbers t) ++ zone ++ ")"

end Moment
end SkySources

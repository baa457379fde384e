import ContractCheck.Text.Integer

/-! # Dates and times

A configuration file can hold a day of the calendar, a time of day, or both, and then also an offset
from universal time.  They are values of their own, which messages show by what they are made of.
-/
namespace ContractCheck

/-- A day of the calendar. -/
structure Day where
  year : Nat
  month : Nat
  day : Nat
deriving DecidableEq

/-- A time of day, to the millionth of a second. -/
structure DayTime where
  hour : Nat
  minute : Nat
  second : Nat
  micros : Nat := 0
deriving DecidableEq

/-- A day, a time of day, or both, with an offset from universal time in minutes. -/
inductive Moment where
  | day (d : Day)
  | time (t : DayTime)
  | both (d : Day) (t : DayTime) (offset : Option Int)
deriving DecidableEq

/-- A number with at least `width` digits. -/
def Text.padded (width n : Nat) : Text :=
  List.replicate (width - (Text.ofNat n).length) '0' ++ Text.ofNat n

namespace Day

/-- The day with dashes. -/
def text (d : Day) : Text :=
  Text.padded 4 d.year ++ '-' :: Text.padded 2 d.month ++ '-' :: Text.padded 2 d.day

/-- What the day is made of. -/
def parts (d : Day) : List Nat := [d.year, d.month, d.day]

end Day

namespace DayTime

/-- The time with colons. -/
def text (t : DayTime) : Text :=
  Text.padded 2 t.hour ++ ':' :: Text.padded 2 t.minute ++ ':' :: Text.padded 2 t.second ++
    (if t.micros = 0 then [] else '.' :: Text.padded 6 t.micros)

/-- What the time is made of, without seconds and their parts if there are none. -/
def parts (t : DayTime) : List Nat :=
  if t.micros = 0 then if t.second = 0 then [t.hour, t.minute] else [t.hour, t.minute, t.second]
  else [t.hour, t.minute, t.second, t.micros]

end DayTime

namespace Moment

/-- An offset of minutes behind a time. -/
def offsetText (minutes : Int) : Text :=
  (if minutes < 0 then '-' else '+') ::
    Text.padded 2 (minutes.natAbs / 60) ++ ':' :: Text.padded 2 (minutes.natAbs % 60)

/-- The moment as plain output shows it. -/
def text : Moment → Text
  | .day d => d.text
  | .time t => t.text
  | .both d t offset => d.text ++ ' ' :: t.text ++ (offset.map offsetText).getD []

/-- An offset of minutes as messages show it: a part of a day, counted back from whole days if it is
negative. -/
def offsetShown (minutes : Int) : Text :=
  if minutes = 0 then "datetime.timezone.utc".toList
  else
    "datetime.timezone(datetime.timedelta(".toList ++
      (if minutes < 0 then "days=-1, ".toList else []) ++
      "seconds=".toList ++ Text.ofInt (60 * (minutes % 1440)) ++ "))".toList

/-- The moment as messages show it. -/
def shown : Moment → Text
  | .day d => "datetime.date(".toList ++ numbers d.parts ++ [')']
  | .time t => "datetime.time(".toList ++ numbers t.parts ++ [')']
  | .both d t offset =>
    "datetime.datetime(".toList ++ numbers (d.parts ++ t.parts) ++
      (offset.map fun m => ", tzinfo=".toList ++ offsetShown m).getD [] ++ [')']
where
  /-- Numbers with commas between them. -/
  numbers (ns : List Nat) : Text := Text.join ", ".toList (ns.map Text.ofNat)

end Moment
end ContractCheck

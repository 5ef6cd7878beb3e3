import Stepwise.Number.Power

/-!
# Timestamps

A plain scalar that starts with a four-digit year is a timestamp when it is a date,
or a date and a time of day. The text of a timestamp has two digits in every field
and a zone.
-/
namespace Stepwise.Yaml

/-- A date, a time of day and the distance of its zone in minutes. -/
structure Timestamp where
  year : Nat
  month : Nat
  day : Nat
  hour : Nat
  minute : Nat
  second : Nat
  nanosecond : Nat
  zone : Int
  deriving DecidableEq, Repr

namespace Timestamp

def isLeap (year : Nat) : Bool :=
  year % 4 == 0 && (year % 100 != 0 || year % 400 == 0)

def daysIn (year month : Nat) : Nat :=
  if month == 2 then (if isLeap year then 29 else 28)
  else if month == 4 || month == 6 || month == 9 || month == 11 then 30
  else 31

def number (digits : List Char) : Nat :=
  digits.foldl (fun n c => n * 10 + (c.toNat - 48)) 0

def readNumber : List Char → Option (Nat × List Char)
  | a :: b :: rest =>
    if a.isDigit then
      if b.isDigit then some (number [a, b], rest) else some (number [a], b :: rest)
    else none
  | [a] => if a.isDigit then some (number [a], []) else none
  | [] => none

def readTwo : List Char → Option (Nat × List Char)
  | a :: b :: rest => if a.isDigit && b.isDigit then some (number [a, b], rest) else none
  | _ => none

/-- Passes one fixed character. -/
def expect (c : Char) : List Char → Option (List Char)
  | d :: rest => if d == c then some rest else none
  | [] => none

def readDate (cs : List Char) : Option (Nat × Nat × Nat × List Char) := do
  let digits := cs.takeWhile Char.isDigit
  if digits.length != 4 then none
  else
    let rest ← expect '-' (cs.drop 4)
    let (month, rest) ← readNumber rest
    let rest ← expect '-' rest
    let (day, rest) ← readNumber rest
    let year := number digits
    if month == 0 || 12 < month || day == 0 || daysIn year month < day then none
    else return (year, month, day, rest)

/-- The nanoseconds that the digits of a fraction stand for; more than nine are cut. -/
def nanoseconds (digits : List Char) : Nat :=
  let digits := digits.take 9
  number digits * Number.powTen (9 - digits.length)

/-- Reads a fraction of a second, if one follows. -/
def readFraction : List Char → Nat × List Char
  | p :: d :: rest =>
    if (p == '.' || p == ',') && d.isDigit then
      let digits := (d :: rest).takeWhile Char.isDigit
      (nanoseconds digits, (d :: rest).drop digits.length)
    else (0, p :: d :: rest)
  | rest => (0, rest)

def readClock (cs : List Char) : Option (Nat × Nat × Nat × Nat × List Char) := do
  let (hour, rest) ← readNumber cs
  let rest ← expect ':' rest
  let (minute, rest) ← readNumber rest
  let rest ← expect ':' rest
  let (second, rest) ← readNumber rest
  if 24 ≤ hour || 60 ≤ minute || 60 ≤ second then none
  else
    let (nanosecond, rest) := readFraction rest
    return (hour, minute, second, nanosecond, rest)

/-- Reads a zone: the letter Z, or a signed distance. -/
def readZone : List Char → Option (Int × List Char)
  | 'Z' :: rest => some (0, rest)
  | sign :: rest => do
    if sign != '+' && sign != '-' then none
    else
      let (hour, rest) ← readTwo rest
      let rest ← expect ':' rest
      let (minute, rest) ← readTwo rest
      if 24 < hour || 60 < minute then none
      else
        let distance : Int := (hour * 60 + minute : Nat)
        return (if sign == '-' then -distance else distance, rest)
  | [] => none

def parse? (text : String) : Option Timestamp := do
  let (year, month, day, rest) ← readDate text.toList
  match rest with
  | [] => return ⟨year, month, day, 0, 0, 0, 0, 0⟩
  | c :: rest =>
    if c == 'T' || c == 't' then
      let (hour, minute, second, nanosecond, rest) ← readClock rest
      let (zone, rest) ← readZone rest
      if rest.isEmpty then return ⟨year, month, day, hour, minute, second, nanosecond, zone⟩
      else none
    else if c == ' ' then
      let (hour, minute, second, nanosecond, rest) ← readClock (rest.dropWhile (· == ' '))
      if rest.isEmpty then return ⟨year, month, day, hour, minute, second, nanosecond, 0⟩
      else none
    else none

/-- A number with at least the given count of digits. -/
def padded (width n : Nat) : String :=
  let digits := toString n
  String.ofList (List.replicate (width - digits.length) '0') ++ digits

/-- The fraction of a second without trailing zeros. -/
def fractionText (nanosecond : Nat) : String :=
  if nanosecond == 0 then ""
  else
    let digits := (padded 9 nanosecond).toList
    "." ++ String.ofList (digits.reverse.dropWhile (· == '0')).reverse

def zoneText (zone : Int) : String :=
  if zone == 0 then "Z"
  else
    (if zone < 0 then "-" else "+") ++ padded 2 (zone.natAbs / 60) ++ ":" ++
      padded 2 (zone.natAbs % 60)

/-- The text of a timestamp; a zone a whole day away has none. -/
def text? (t : Timestamp) : Option String :=
  if 24 * 60 ≤ t.zone.natAbs then none
  else some (padded 4 t.year ++ "-" ++ padded 2 t.month ++ "-" ++ padded 2 t.day ++ "T" ++
    padded 2 t.hour ++ ":" ++ padded 2 t.minute ++ ":" ++ padded 2 t.second ++
    fractionText t.nanosecond ++ zoneText t.zone)

end Timestamp
end Stepwise.Yaml

import Stepwise.Number.Literal
import Stepwise.Number.Power
import Stepwise.Number.Word
import Stepwise.Text.Quoted

/-!
# Durations

A duration is a whole number of nanoseconds in 64 bits. It is written as a sum of
numbers with units, the largest unit first, and read back from such a sum in any
order. A fraction of a unit is worked out in double precision.
-/
namespace Stepwise

structure Duration where
  nanoseconds : Int
  deriving DecidableEq, Repr

inductive DurationError where
  | invalid (text : String)
  | missingUnit (text : String)
  | unknownUnit (unit text : String)
  deriving DecidableEq, Repr

namespace DurationError

/-- A text between double quotes, with everything outside of printable ASCII shown byte
by byte. -/
def quoted (text : String) : String :=
  let escape := fun c : Char =>
    if c == '"' || c == '\\' then ['\\', c]
    else if 0x20 ≤ c.toNat && c.toNat < 0x80 then [c]
    else c.toString.toUTF8.toList.flatMap fun b => '\\' :: 'x' :: Text.hexDigits 2 b.toNat
  String.ofList ('"' :: text.toList.flatMap escape ++ ['"'])

def message : DurationError → String
  | invalid text => "time: invalid duration " ++ quoted text
  | missingUnit text => "time: missing unit in duration " ++ quoted text
  | unknownUnit unit text =>
    "time: unknown unit " ++ quoted unit ++ " in duration " ++ quoted text

end DurationError

namespace Duration

def second : Nat := 1000000000

def units : List (String × Nat) :=
  [("ns", 1), ("us", 1000), ("µs", 1000), ("\u03bcs", 1000), ("ms", 1000000), ("s", second),
    ("m", 60 * second), ("h", 3600 * second)]

/-- No sum may exceed half the count of words of 64 bits. -/
def limit : Nat := Number.wordCount64 / 2

/-- A fraction of a unit: its digits as a number, and ten to their count. Digits beyond
what 64 bits hold are dropped. -/
def fractionOf (digits : List Char) : Nat × Nat :=
  let step := fun (acc : Nat × Nat × Bool) (c : Char) =>
    let (x, scale, full) := acc
    let y := x * 10 + (c.toNat - 48)
    if full || (limit - 1) / 10 < x || limit < y then (x, scale, true) else (y, scale * 10, false)
  let (x, scale, _) := digits.foldl step (0, 1, false)
  (x, scale)

/-- The whole number of nanoseconds in `x / scale` units, by way of doubles. -/
def fractionLength (x scale unit : Nat) : Nat :=
  let length? : Option Nat := do
    let factor ← Number.Binary64.ofFraction? false x 1
    let each ← Number.Binary64.ofFraction? false unit scale
    let (n, d) := factor.fraction
    let (n', d') := each.fraction
    let product ← Number.Binary64.ofFraction? false (n * n') (d * d')
    return product.truncate.toNat
  length?.getD 0

/-- Reads the numbers with units that make up a text. `total` is the sum so far; no sum
may exceed the limit. The first argument bounds their number. -/
def readParts (text : String) : Nat → Nat → List Char → Except DurationError Nat
  | _, total, [] => .ok total
  | 0, _, _ => .error (.invalid text)
  | fuel + 1, total, cs =>
    let whole := cs.takeWhile Char.isDigit
    let rest := cs.dropWhile Char.isDigit
    let (fraction, rest) := match rest with
      | '.' :: rest => (rest.takeWhile Char.isDigit, rest.dropWhile Char.isDigit)
      | rest => ([], rest)
    let value := Number.digitsValue 10 whole
    if (whole.isEmpty && fraction.isEmpty) || limit < value then .error (.invalid text)
    else
      let name := rest.takeWhile fun c => c != '.' && !c.isDigit
      let rest := rest.dropWhile fun c => c != '.' && !c.isDigit
      if name.isEmpty then .error (.missingUnit text)
      else
        match units.lookup (String.ofList name) with
        | none => .error (.unknownUnit (String.ofList name) text)
        | some unit =>
          let (x, scale) := fractionOf fraction
          let length := value * unit + (if 0 < x then fractionLength x scale unit else 0)
          if limit / unit < value || limit < length || limit < total + length then
            .error (.invalid text)
          else readParts text fuel (total + length) rest

def splitSign : List Char → Bool × List Char
  | '-' :: rest => (true, rest)
  | '+' :: rest => (false, rest)
  | rest => (false, rest)

def parse (text : String) : Except DurationError Duration :=
  let (negative, cs) := splitSign text.toList
  if cs == ['0'] then .ok ⟨0⟩
  else if cs.isEmpty then .error (.invalid text)
  else
    match readParts text (cs.length + 1) 0 cs with
    | .error e => .error e
    | .ok n =>
      if negative then .ok ⟨-(n : Int)⟩
      else if limit ≤ n then .error (.invalid text)
      else .ok ⟨n⟩

/-- A number of `10 ^ places` parts with its fraction, without zeros at the end. -/
def withFraction (n places : Nat) : String :=
  let rest := (toString (n % Number.powTen places)).toList
  let padded := List.replicate (places - rest.length) '0' ++ rest
  let digits := (padded.reverse.dropWhile (· == '0')).reverse
  toString (n / Number.powTen places) ++ (if digits.isEmpty then "" else "." ++ String.ofList digits)

/-- The text of a number of nanoseconds. -/
def magnitudeText (n : Nat) : String :=
  if n = 0 then "0s"
  else if n < 1000 then toString n ++ "ns"
  else if n < 1000000 then withFraction n 3 ++ "µs"
  else if n < second then withFraction n 6 ++ "ms"
  else
    let minutes := n / second / 60
    let seconds := withFraction (n % (60 * second)) 9 ++ "s"
    if minutes = 0 then seconds
    else if minutes < 60 then toString minutes ++ "m" ++ seconds
    else toString (minutes / 60) ++ "h" ++ toString (minutes % 60) ++ "m" ++ seconds

def text (d : Duration) : String :=
  (if d.nanoseconds < 0 then "-" else "") ++ magnitudeText d.nanoseconds.natAbs

end Duration
end Stepwise

import Stepwise.Number.Binary64

/-!
# The shortest decimal text of a double

The text of a double has the fewest digits that read back as the same double, and
of those the digits nearest to its value. The notation is positional from a
millionth up to the 21st power of ten and has an exponent of at least two digits
outside that interval.
-/
namespace Stepwise.Number

/-- The ends of the interval of reals that round to a magnitude, as numerators over a
common denominator, with the magnitude itself between them. -/
structure Interval where
  low : Nat
  value : Nat
  high : Nat
  den : Nat
  closed : Bool
  deriving DecidableEq, Repr

/-- The rounding interval of a double. Its lower half is narrower at the least
mantissa of an exponent. -/
def Binary64.interval (x : Binary64) : Interval :=
  let narrow := x.mantissa == powTwo 52 && x.exponent != minExponent
  let low := if narrow then 4 * x.mantissa - 1 else 4 * x.mantissa - 2
  let high := 4 * x.mantissa + 2
  let closed := x.mantissa % 2 == 0
  let e := x.exponent - 2
  if 0 ≤ e then
    let p := powTwo e.toNat
    ⟨low * p, 4 * x.mantissa * p, high * p, 1, closed⟩
  else ⟨low, 4 * x.mantissa, high, powTwo (-e).toNat, closed⟩

/-- Whether the fraction `num / den` lies in the interval. -/
def Interval.contains (i : Interval) (num den : Nat) : Bool :=
  if i.closed then i.low * den ≤ num * i.den && num * i.den ≤ i.high * den
  else i.low * den < num * i.den && num * i.den < i.high * den

def powerOfTen (e : Int) : Nat × Nat :=
  if 0 ≤ e then (powTen e.toNat, 1) else (1, powTen (-e).toNat)

/-- The least `k` with `value < 10 ^ k`, searched upward from a lower bound. -/
def leadingPlace (i : Interval) : Nat → Int → Int
  | 0, k => k
  | fuel + 1, k =>
    let (num, den) := powerOfTen k
    if i.value * den < num * i.den then k else leadingPlace i fuel (k + 1)

structure Decimal where
  digits : Nat
  unit : Int
  deriving DecidableEq, Repr

/-- The grid point with the given unit that lies in the interval and is nearest to the
value, a tie going to the even digit. -/
def onGrid? (i : Interval) (unit : Int) : Option Decimal :=
  let (num, den) := powerOfTen unit
  let value := i.value * den
  let step := i.den * num
  let below := value / step
  let nearest := roundDiv value step
  let inside := fun d => i.contains (d * num) den
  if inside nearest then some ⟨nearest, unit⟩
  else if inside below then some ⟨below, unit⟩
  else if inside (below + 1) then some ⟨below + 1, unit⟩
  else none

/-- The first grid with a point in the interval, from the given unit down. -/
def firstGrid (i : Interval) : Nat → Int → Decimal
  | 0, unit => (onGrid? i unit).getD ⟨0, 0⟩
  | fuel + 1, unit =>
    match onGrid? i unit with
    | some d => d
    | none => firstGrid i fuel (unit - 1)

/-- The digits of the shortest decimal without trailing zeros, and the place of the
point: the value is `0.digits * 10 ^ place`. -/
def Binary64.shortest (x : Binary64) : List Char × Int :=
  if x.mantissa == 0 then (['0'], 1)
  else
    let i := x.interval
    let guess := ((x.mantissa.log2 : Int) + x.exponent) * 30102 / 100000 - 1
    let d := firstGrid i 17 (leadingPlace i 5 guess - 1)
    let digits := (toString d.digits).toList
    ((digits.reverse.dropWhile (· == '0')).reverse, digits.length + d.unit)

/-- Digits with a point at the given place, filled up with zeros. -/
def positional (digits : List Char) (place : Int) : List Char :=
  if place ≤ 0 then '0' :: '.' :: (List.replicate (-place).toNat '0' ++ digits)
  else
    let n := place.toNat
    if digits.length ≤ n then digits ++ List.replicate (n - digits.length) '0'
    else digits.take n ++ '.' :: digits.drop n

/-- Digits with the point after the first and a signed exponent of two or more
digits. -/
def withExponent (digits : List Char) (place : Int) : List Char :=
  let mantissa := match digits with
    | d :: e :: rest => d :: '.' :: e :: rest
    | ds => ds
  let e := place - 1
  let magnitude := (toString e.natAbs).toList
  let magnitude := if magnitude.length < 2 then '0' :: magnitude else magnitude
  mantissa ++ 'e' :: (if e < 0 then '-' else '+') :: magnitude

def Binary64.text (x : Binary64) : String :=
  let (digits, place) := x.shortest
  let sign := if x.negative then ['-'] else []
  let isPositional := x.mantissa == 0 || (-6 < place && place ≤ 21)
  String.ofList (sign ++ if isPositional then positional digits place else withExponent digits place)

end Stepwise.Number

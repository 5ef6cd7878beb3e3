import Stepwise.Number.Binary64

/-!
# Number literals

A floating-point literal is decimal, or hexadecimal with a binary exponent. A
single underscore may stand between two digits or after the base mark. Its exact
value is a fraction, and the literal is accepted when that fraction rounds to a
finite double.
-/
namespace Stepwise.Number

/-- A letter of the basic alphabet in lower case. -/
def lowerLetter (c : Char) : Char :=
  if 'A' ≤ c && c ≤ 'Z' then Char.ofNat (c.toNat + 32) else c

/-- The value of a digit in a base of at most 36. -/
def digitValue? (base : Nat) (c : Char) : Option Nat :=
  let c := lowerLetter c
  let value :=
    if '0' ≤ c && c ≤ '9' then some (c.toNat - 48)
    else if 'a' ≤ c && c ≤ 'z' then some (c.toNat - 87)
    else none
  value.filter (· < base)

/-- What the last character read was, for the placing of underscores. -/
inductive Last where
  | digit
  | underscore
  | other
  deriving DecidableEq, Repr

/-- Whether every underscore follows a digit and is followed by one. -/
def separatesFrom (hex : Bool) : Last → List Char → Bool
  | last, [] => last != .underscore
  | last, c :: cs =>
    if (digitValue? (if hex then 16 else 10) c).isSome then separatesFrom hex .digit cs
    else if c == '_' then last == .digit && separatesFrom hex .underscore cs
    else last != .underscore && separatesFrom hex .other cs

/-- Whether the underscores of an unsigned number are well placed. The base mark
counts as a digit. -/
def separatorsOk : List Char → Bool
  | '0' :: m :: cs =>
    let m := lowerLetter m
    if m == 'x' || m == 'b' || m == 'o' then separatesFrom (m == 'x') .digit cs
    else separatesFrom false .other ('0' :: m :: cs)
  | cs => separatesFrom false .other cs

def digitsValue (base : Nat) (cs : List Char) : Nat :=
  cs.foldl (fun n c => n * base + (digitValue? base c).getD 0) 0

structure Parts where
  base : Nat
  whole : List Char
  fraction : List Char
  exponent : Int
  deriving DecidableEq, Repr

/-- From here on the digits of an exponent are left out. -/
def exponentLimit : Nat := 10000

/-- The value of an exponent. One of more than five digits is cut off after the fifth, which
changes no double unless some ten thousand digits stand in front of it. -/
def exponentValue (digits : List Char) : Nat :=
  digits.foldl (fun e d => if e < exponentLimit then e * 10 + (digitValue? 10 d).getD 0 else e) 0

/-- Reads an exponent after its mark: an optional sign and digits. -/
def readExponent (cs : List Char) : Option Int :=
  let (negative, cs) := match cs with
    | '+' :: rest => (false, rest)
    | '-' :: rest => (true, rest)
    | rest => (false, rest)
  match cs with
  | [] => none
  | c :: _ =>
    if c.isDigit && cs.all (fun c => c.isDigit || c == '_') then
      let n := exponentValue (cs.filter (· != '_'))
      some (if negative then -(n : Int) else (n : Int))
    else none

/-- Reads the digits, the point and the exponent of an unsigned literal. -/
def readParts (base : Nat) (mark : Char) (cs : List Char) : Option Parts :=
  let isPart := fun c => (digitValue? base c).isSome || c == '_'
  let (whole, rest) := cs.span isPart
  let (fraction, rest) := match rest with
    | '.' :: rest => rest.span isPart
    | rest => ([], rest)
  let whole := whole.filter (· != '_')
  let fraction := fraction.filter (· != '_')
  if whole.isEmpty && fraction.isEmpty then none
  else match rest with
    | [] => if base == 16 then none else some ⟨base, whole, fraction, 0⟩
    | e :: rest =>
      if lowerLetter e == mark then (readExponent rest).map (⟨base, whole, fraction, ·⟩) else none

/-- The parts of an unsigned literal. -/
def parts? (cs : List Char) : Option Parts :=
  if cs.contains '_' && !separatorsOk cs then none
  else match cs with
    | '0' :: x :: c :: rest =>
      if lowerLetter x == 'x' then readParts 16 'p' (c :: rest)
      else readParts 10 'e' ('0' :: x :: c :: rest)
    | cs => readParts 10 'e' cs

namespace Parts

/-- The digits as one whole number. -/
def mantissa (p : Parts) : Nat :=
  digitsValue p.base (p.whole ++ p.fraction)

/-- The number of places the point stands after the first digit that is not zero. -/
def magnitude (p : Parts) : Int :=
  let zeros := ((p.whole ++ p.fraction).takeWhile (· == '0')).length
  (p.whole.length : Int) - zeros + p.exponent

/-- The value as a fraction, or nothing when it is too large for any double. A value
too small to differ from zero counts as zero. -/
def fraction? (p : Parts) : Option (Nat × Nat) :=
  if p.mantissa == 0 then some (0, 1)
  else if p.base == 16 then
    let e := p.exponent - 4 * p.fraction.length
    some (if 0 ≤ e then (p.mantissa * powTwo e.toNat, 1) else (p.mantissa, powTwo (-e).toNat))
  else if 310 < p.magnitude then none
  else if p.magnitude < -330 then some (0, 1)
  else
    let e := p.exponent - p.fraction.length
    some (if 0 ≤ e then (p.mantissa * powTen e.toNat, 1) else (p.mantissa, powTen (-e).toNat))

end Parts

/-- Splits off a sign: whether it is a minus, and the rest. -/
def splitSign : List Char → Bool × List Char
  | '-' :: rest => (true, rest)
  | '+' :: rest => (false, rest)
  | rest => (false, rest)

def parseFloat? (text : String) : Option Binary64 := do
  let (negative, cs) := splitSign text.toList
  let parts ← parts? cs
  let (num, den) ← parts.fraction?
  Binary64.ofFraction? negative num den

/-- Why a text denotes no double. -/
inductive LiteralFault where
  | notLiteral
  | outOfRange
  deriving DecidableEq, Repr

/-- Why a text denotes no double, if it denotes none. -/
def literalFault (text : String) : LiteralFault :=
  if (parts? (splitSign text.toList).2).isSome then .outOfRange else .notLiteral

/-- The digits of a whole number after its base mark, with that base. -/
def splitBase : List Char → Nat × List Char
  | '0' :: m :: c :: rest =>
    let l := lowerLetter m
    if l == 'x' then (16, c :: rest)
    else if l == 'o' then (8, c :: rest)
    else if l == 'b' then (2, c :: rest)
    else (8, m :: c :: rest)
  | '0' :: c :: rest => (8, c :: rest)
  | cs => (10, cs)

/-- The value of a non-empty row of digits in a base. -/
def digitsValue? (base : Nat) (cs : List Char) : Option Nat :=
  if !cs.isEmpty && cs.all (fun c => (digitValue? base c).isSome) then some (digitsValue base cs)
  else none

/-- The natural number that digits with an optional base mark denote. -/
def parseMarked? (cs : List Char) : Option Nat :=
  let (base, digits) := splitBase cs
  digitsValue? base digits

end Stepwise.Number

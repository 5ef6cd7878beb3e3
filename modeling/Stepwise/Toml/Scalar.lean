import Stepwise.Number.Word
import Stepwise.Toml.Text

/-!
# Numbers, truth values and moments of TOML

A word that is no string is a truth value, a number, a date or a time. Digits may be
set apart by single underscores.
-/
namespace Stepwise.Toml

/-- Whether underscores stand only between digits. -/
def underscoresOk (isDigit : Char → Bool) : Bool → List Char → Bool
  | _, [] => true
  | afterDigit, '_' :: d :: rest => afterDigit && isDigit d && underscoresOk isDigit true rest
  | _, ['_'] => false
  | _, c :: rest => underscoresOk isDigit (isDigit c) rest

/-- Digits without underscores, if there are any digits and the underscores are in order. -/
def digits? (isDigit : Char → Bool) (cs : List Char) : Option (List Char) :=
  let plain := cs.filter (· != '_')
  if !plain.isEmpty && plain.all isDigit && underscoresOk isDigit false cs then some plain
  else none

def inRange (n : Int) : Option SettingValue :=
  if Number.fits64 n then some (.int n) else none

/-- Splits off a sign: whether it is a minus, whether there is one, and the rest. -/
def splitSign : List Char → Bool × Bool × List Char
  | '-' :: rest => (true, true, rest)
  | '+' :: rest => (false, true, rest)
  | rest => (false, false, rest)

def basedInt? (base : Nat) (isDigit : Char → Bool) (cs : List Char) : Option SettingValue :=
  (digits? isDigit cs).bind fun ds => inRange (Number.digitsValue base ds)

/-- A decimal whole number, without zeros in front. -/
def decimalInt? (negative : Bool) (cs : List Char) : Option SettingValue :=
  (digits? Char.isDigit cs).bind fun ds =>
    if 1 < ds.length && ds.head? == some '0' then none
    else
      let n : Int := Number.digitsValue 10 ds
      inRange (if negative then -n else n)

/-- Whether the exponent of a number is in order. -/
def exponentOk (cs : List Char) : Bool :=
  let (_, _, cs) := splitSign cs
  (digits? Char.isDigit cs).isSome

/-- A decimal fraction, with an exponent or without. -/
def float? (cs : List Char) : Option SettingValue :=
  let (_, _, body) := splitSign cs
  let isMark := fun c : Char => c == 'e' || c == 'E'
  let mantissa := body.takeWhile fun c => !isMark c
  let exponent := body.dropWhile fun c => !isMark c
  let whole := mantissa.takeWhile (· != '.')
  let fraction := mantissa.dropWhile (· != '.')
  let wholeOk := match digits? Char.isDigit whole with
    | some ds => ds.length == 1 || ds.head? != some '0'
    | none => false
  let fractionOk := match fraction with
    | [] => !exponent.isEmpty
    | _ :: ds => (digits? Char.isDigit ds).isSome
  let exponentFits := match exponent with
    | [] => true
    | _ :: rest => exponentOk rest
  if wholeOk && fractionOk && exponentFits then
    (Number.parseFloat? (String.ofList (cs.filter (· != '_')))).map .float
  else none

def number? (cs : List Char) : Option SettingValue :=
  let (negative, signed, body) := splitSign cs
  match body with
  | ['i', 'n', 'f'] => some (.irregular (if negative then "-Inf" else "+Inf"))
  | ['n', 'a', 'n'] => some (.irregular "NaN")
  | '0' :: 'x' :: ds =>
    if signed then none else basedInt? 16 (fun c => (Text.hexValue? c).isSome) ds
  | '0' :: 'o' :: ds => if signed then none else basedInt? 8 (fun c => '0' ≤ c && c ≤ '7') ds
  | '0' :: 'b' :: ds => if signed then none else basedInt? 2 (fun c => c == '0' || c == '1') ds
  | body => (decimalInt? negative body).or (float? cs)

/-- Whether a word has the form of a pattern, in which `0` stands for any digit. -/
def fits (pattern : String) (cs : List Char) : Bool :=
  pattern.length == cs.length &&
    (pattern.toList.zip cs).all fun (p, c) => if p == '0' then c.isDigit else p == c

/-- Whether a word is a time of day, perhaps with a fraction of a second. -/
def isTime (cs : List Char) : Bool :=
  fits "00:00:00" (cs.take 8) &&
    match cs.drop 8 with
    | [] => true
    | '.' :: ds => !ds.isEmpty && ds.all Char.isDigit
    | _ => false

/-- Whether a word is a time of day with a zone. -/
def isZonedTime (cs : List Char) : Bool :=
  match cs.reverse with
  | z :: rest =>
    if z == 'Z' || z == 'z' then isTime rest.reverse
    else
      let n := cs.length - 6
      (fits "+00:00" (cs.drop n) || fits "-00:00" (cs.drop n)) && isTime (cs.take n)
  | [] => false

/-- Whether a word is a date, a time or both. -/
def isMoment (cs : List Char) : Bool :=
  isTime cs ||
    (fits "0000-00-00" (cs.take 10) &&
      match cs.drop 10 with
      | [] => true
      | mark :: rest =>
        (mark == 'T' || mark == 't' || mark == ' ') && (isTime rest || isZonedTime rest))

def word? (cs : List Char) : Option SettingValue :=
  if cs == "true".toList then some (.bool true)
  else if cs == "false".toList then some (.bool false)
  else if isMoment cs then some .moment
  else number? cs

def isWordChar (c : Char) : Bool :=
  c.isAlphanum || c == '_' || c == '+' || c == '-' || c == '.' || c == ':'

/-- Splits off a word. A date may have its time after a single space. -/
def spanWord (cs : List Char) : List Char × List Char :=
  let word := cs.takeWhile isWordChar
  let rest := cs.dropWhile isWordChar
  match rest with
  | ' ' :: d :: _ =>
    if fits "0000-00-00" word && d.isDigit then
      let time := rest.tail.takeWhile isWordChar
      (word ++ ' ' :: time, rest.tail.dropWhile isWordChar)
    else (word, rest)
  | _ => (word, rest)

end Stepwise.Toml

/-!
# Percent coding

The parts of a location are octet sequences. An octet that a part does not allow is
written as a percent sign and two hexadecimal digits.
-/
namespace Stepwise.Location

def octets (text : String) : List Nat :=
  text.toUTF8.data.toList.map (·.toNat)

/-- One upper-case hexadecimal digit. -/
def hexDigit (n : Nat) : Char :=
  if n < 10 then Char.ofNat (48 + n) else Char.ofNat (55 + n)

/-- The value of a hexadecimal digit. -/
def hexValue? (n : Nat) : Option Nat :=
  if 48 ≤ n && n ≤ 57 then some (n - 48)
  else if 97 ≤ n && n ≤ 102 then some (n - 87)
  else if 65 ≤ n && n ≤ 70 then some (n - 55)
  else none

/-- Whether an octet is one of the characters of a text. -/
def isOneOf (chars : String) (n : Nat) : Bool :=
  chars.toList.any fun c => c.toNat == n

/-- Letters and digits of the basic alphabet and the marks that are never encoded. -/
def isUnreserved (n : Nat) : Bool :=
  (48 ≤ n && n ≤ 57) || (65 ≤ n && n ≤ 90) || (97 ≤ n && n ≤ 122) || isOneOf "-_.~" n

/-- The octets that stand for themselves in a path. -/
def inPath (n : Nat) : Bool :=
  isUnreserved n || isOneOf "$&+,/:;=@" n

/-- The octets that stand for themselves in a path that is kept as written. -/
def inWrittenPath (n : Nat) : Bool :=
  inPath n || isOneOf "!'()*[]%" n

/-- The octets that stand for themselves in a host. -/
def inHost (n : Nat) : Bool :=
  isUnreserved n || isOneOf "!$&'()*+,;=:[]<>\"" n

/-- The octets that stand for themselves in a fragment. -/
def inFragment (n : Nat) : Bool :=
  isUnreserved n || isOneOf "$&+,/:;=?@!()*" n

def escapeOctet (n : Nat) : List Char :=
  ['%', hexDigit (n / 16 % 16), hexDigit (n % 16)]

/-- Octets as text, escaping those that are not allowed. -/
def encode (allowed : Nat → Bool) (ns : List Nat) : String :=
  String.ofList (ns.flatMap fun n => if allowed n then [Char.ofNat n] else escapeOctet n)

/-- The octets that escapes and other octets stand for; a broken escape is an error. -/
def decode? : List Nat → Option (List Nat)
  | [] => some []
  | 37 :: a :: b :: rest => do
    let a ← hexValue? a
    let b ← hexValue? b
    let more ← decode? rest
    return (a * 16 + b) :: more
  | 37 :: _ => none
  | n :: rest => (decode? rest).map (n :: ·)

/-- The octets of a part of a query, where a plus sign stands for a space. -/
def decodeQuery? (ns : List Nat) : Option (List Nat) :=
  decode? (ns.map fun n => if n == 43 then 32 else n)

def encodeQuery (ns : List Nat) : String :=
  String.ofList (ns.flatMap fun n =>
    if n == 32 then ['+'] else if isUnreserved n then [Char.ofNat n] else escapeOctet n)

end Stepwise.Location

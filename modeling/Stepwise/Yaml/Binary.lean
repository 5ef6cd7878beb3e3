/-!
# Binary scalars

A scalar with the binary tag holds octets in base 64. Where it is used as a text,
the octets are read as UTF-8, with the replacement character for what is not.
-/
namespace Stepwise.Yaml.Binary

def digit? (c : Char) : Option Nat :=
  if 'A' ≤ c && c ≤ 'Z' then some (c.toNat - 65)
  else if 'a' ≤ c && c ≤ 'z' then some (c.toNat - 71)
  else if '0' ≤ c && c ≤ '9' then some (c.toNat + 4)
  else if c == '+' then some 62
  else if c == '/' then some 63
  else none

/-- The octets of base 64 digits in groups of four; only the last group is padded. -/
def octets? : List Char → Option (List Nat)
  | [] => some []
  | [a, b, '=', '='] => do
    let a ← digit? a
    let b ← digit? b
    return [a * 4 + b / 16]
  | [a, b, c, '='] => do
    let a ← digit? a
    let b ← digit? b
    let c ← digit? c
    return [a * 4 + b / 16, b % 16 * 16 + c / 4]
  | a :: b :: c :: d :: rest => do
    let a ← digit? a
    let b ← digit? b
    let c ← digit? c
    let d ← digit? d
    let more ← octets? rest
    return [a * 4 + b / 16, b % 16 * 16 + c / 4, c % 4 * 64 + d] ++ more
  | _ => none

/-- Whether an octet continues a character. -/
def isContinuation (n : Nat) : Bool :=
  n / 64 == 2

/-- The character with a number, unless it is out of range or encoded too long. -/
def checked (least n : Nat) : Option Char :=
  if n < least || (0xD800 ≤ n && n ≤ 0xDFFF) || 0x10FFFF < n then none else some (Char.ofNat n)

/-- The character at the start of octets and the number of octets it takes. -/
def char? : List Nat → Option (Char × Nat)
  | [] => none
  | a :: rest =>
    let more := rest.takeWhile isContinuation
    if a < 0x80 then some (Char.ofNat a, 1)
    else if a / 32 == 6 then
      match more with
      | b :: _ => (checked 0x80 (a % 32 * 64 + b % 64)).map (·, 2)
      | _ => none
    else if a / 16 == 14 then
      match more with
      | b :: c :: _ => (checked 0x800 (a % 16 * 4096 + b % 64 * 64 + c % 64)).map (·, 3)
      | _ => none
    else if a / 8 == 30 then
      match more with
      | b :: c :: d :: _ =>
        (checked 0x10000 (a % 8 * 262144 + b % 64 * 4096 + c % 64 * 64 + d % 64)).map (·, 4)
      | _ => none
    else none

/-- Reads octets as UTF-8; an octet that starts no character is replaced. -/
def text : Nat → List Nat → List Char
  | 0, _ => []
  | _, [] => []
  | fuel + 1, a :: rest =>
    match char? (a :: rest) with
    | some (c, n) => c :: text fuel (rest.drop (n - 1))
    | none => '\ufffd' :: text fuel rest

/-- The text that a binary scalar holds. -/
def decode? (value : String) : Option String :=
  (octets? (value.toList.filter fun c => c != '\n' && c != '\r')).map fun ns =>
    String.ofList (text ns.length ns)

end Stepwise.Yaml.Binary

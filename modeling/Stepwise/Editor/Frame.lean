import Stepwise.Number.Word
import Stepwise.Text.Blank
import Stepwise.Text.Quoted

/-!
# Frames

An editor sends its messages in frames: header lines, an empty line, and as many
bytes as the header says. The input may end between two frames; an end inside the
header or right before the bytes of a body counts as that too.
-/
namespace Stepwise.Editor

/-- The header that holds the length of a body. -/
def lengthHeader : String := "Content-Length"

inductive LengthFault where
  | notNumber
  | outOfRange
  deriving DecidableEq, Repr

inductive FrameFault where
  | badHeader (line : String)
  | badLength (value : String) (fault : LengthFault)
  | tooShort (length : Int)
  | missingLength
  | truncated
  deriving DecidableEq, Repr

def FrameFault.message : FrameFault → String
  | badHeader line => "invalid header line " ++ Text.quoted line
  | badLength value fault =>
    "failed parsing " ++ lengthHeader ++ ": " ++ value ++ ": strconv.ParseInt: parsing " ++
      Text.quoted value ++ ": " ++
      match fault with
      | .notNumber => "invalid syntax"
      | .outOfRange => "value out of range"
  | tooShort length => "invalid " ++ lengthHeader ++ ": " ++ toString length
  | missingLength => "missing " ++ lengthHeader ++ " header"
  | truncated => "read data: unexpected EOF"

inductive FrameItem where
  | closed
  | failed (fault : FrameFault)
  | body (bytes rest : List UInt8)
  deriving DecidableEq, Repr

/-- A text from bytes; bytes that are no UTF-8 give the empty text. -/
def textOf (bytes : List UInt8) : String :=
  (String.fromUTF8? ⟨bytes.toArray⟩).getD ""

def readLength (value : String) : Except LengthFault Int :=
  let (negative, digits) := match value.toList with
    | '-' :: rest => (true, rest)
    | '+' :: rest => (false, rest)
    | rest => (false, rest)
  if digits.isEmpty || !digits.all Char.isDigit then .error .notNumber
  else
    let magnitude : Int := digits.foldl (fun n c => 10 * n + (c.toNat - 48)) (0 : Nat)
    let n := if negative then -magnitude else magnitude
    if Number.fits32 n then .ok n else .error .outOfRange

/-- Reads one header line that is not empty: a new length, or nothing of interest. -/
def readHeader (line : String) : Except FrameFault (Option Nat) :=
  let cs := line.toList
  if !cs.contains ':' then .error (.badHeader line)
  else
    let name := String.ofList (cs.takeWhile (· != ':'))
    let value := Text.trim (String.ofList ((cs.dropWhile (· != ':')).drop 1))
    if name != lengthHeader then .ok none
    else
      match readLength value with
      | .error fault => .error (.badLength value fault)
      | .ok n => if n ≤ 0 then .error (.tooShort n) else .ok (some n.toNat)

inductive FrameHead where
  | closed
  | failed (fault : FrameFault)
  | length (n : Nat) (rest : List UInt8)
  deriving DecidableEq, Repr

/-- Reads a header after some of its lines. `length` is the last length given, or 0. The
first argument bounds the number of lines. -/
def readHeadFrom : Nat → Nat → List UInt8 → FrameHead
  | 0, _, _ => .closed
  | fuel + 1, length, bytes =>
    match bytes.dropWhile (· != 10) with
    | [] => .closed
    | _ :: rest =>
      let line := Text.trim (textOf (bytes.takeWhile (· != 10)))
      if line.isEmpty then
        if length = 0 then .failed .missingLength else .length length rest
      else
        match readHeader line with
        | .error fault => .failed fault
        | .ok none => readHeadFrom fuel length rest
        | .ok (some n) => readHeadFrom fuel n rest

def readHead (bytes : List UInt8) : FrameHead :=
  readHeadFrom (bytes.length + 1) 0 bytes

def readBody (length : Nat) (bytes : List UInt8) : FrameItem :=
  if bytes.isEmpty then .closed
  else if bytes.length < length then .failed .truncated
  else .body (bytes.take length) (bytes.drop length)

def nextFrame (bytes : List UInt8) : FrameItem :=
  match readHead bytes with
  | .closed => .closed
  | .failed fault => .failed fault
  | .length n rest => readBody n rest

def frameText (body : String) : String :=
  lengthHeader ++ ": " ++ toString body.utf8ByteSize ++ "\r\n\r\n" ++ body

end Stepwise.Editor

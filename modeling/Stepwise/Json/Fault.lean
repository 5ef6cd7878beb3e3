import Stepwise.Json.Read
import Stepwise.Text.Quoted

/-!
# Messages about texts that are no JSON

A message names the place and shows the first octet of the character that is out of
place there.
-/
namespace Stepwise.Json

/-- The first octet of a character, shown as the character with its number. -/
def firstOctet (c : Char) : Char :=
  match c.toString.toUTF8.toList with
  | b :: _ => Char.ofNat b.toNat
  | [] => c

def SyntaxFault.message : SyntaxFault → String
  | endOfText => "unexpected end of JSON input"
  | badChar c place => "invalid character " ++ Text.quotedLetter (firstOctet c) ++ " " ++ place.text
  | tooDeep => "exceeded max depth"

def sortName : Json → String
  | null => "null"
  | bool _ => "bool"
  | number _ => "number"
  | string _ => "string"
  | array _ => "array"
  | object _ => "object"

end Stepwise.Json

import Stepwise.Text.Hex
import Stepwise.Text.Printable

/-!
# Quoted text

Messages show a name between double quotes. Characters that cannot be printed are
shown by escapes.
-/
namespace Stepwise.Text

/-- How a character is shown between quotes. -/
def quotedChar (c : Char) : List Char :=
  if c == '"' || c == '\\' then ['\\', c]
  else if isPrintable c then [c]
  else if c.toNat == 7 then ['\\', 'a']
  else if c.toNat == 8 then ['\\', 'b']
  else if c.toNat == 12 then ['\\', 'f']
  else if c == '\n' then ['\\', 'n']
  else if c == '\r' then ['\\', 'r']
  else if c == '\t' then ['\\', 't']
  else if c.toNat == 11 then ['\\', 'v']
  else if c.toNat < 32 || c.toNat == 127 then '\\' :: 'x' :: hexDigits 2 c.toNat
  else if c.toNat < 65536 then '\\' :: 'u' :: hexDigits 4 c.toNat
  else '\\' :: 'U' :: hexDigits 8 c.toNat

def quoted (text : String) : String :=
  String.ofList ('"' :: text.toList.flatMap quotedChar ++ ['"'])

def quotedLetter (c : Char) : String :=
  if c == '\'' then "'\\''"
  else if c == '"' then "'\"'"
  else "'" ++ String.ofList (quotedChar c) ++ "'"

end Stepwise.Text

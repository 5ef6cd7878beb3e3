import Stepwise.Keyword.Kind
import Stepwise.Language.Tag

/-!
# Keyword phrases

A phrase is declared with the name of its language, its kind and its words. A
keyword is a declared phrase with its words cut at white space and its language
name read as a tag.
-/
namespace Stepwise

structure Phrase where
  language : String
  kind : Kind
  words : List String
  deriving DecidableEq, Repr

/-- The words of a declaration. Each entry is cut at white space, so that it does not
matter how a phrase is divided between entries. -/
def Phrase.plainWords (p : Phrase) : List String :=
  p.words.flatMap Text.words

structure Keyword where
  words : List String
  tag : Language.Tag
  kind : Kind
  deriving DecidableEq, Repr

namespace Keyword

def size (k : Keyword) : Nat :=
  k.words.length

def text (k : Keyword) : String :=
  Text.joinWords k.words

/-- The text with its first letter in upper case, by the rules of its language. -/
def capitalized (k : Keyword) : String :=
  match k.text.toList with
  | [] => ""
  | c :: cs => String.ofList (Text.Casing.upperChar k.tag.tailoring c ++ cs)

/-- Words in the lower case of a language, each word on its own. -/
def lowerWords (tag : Language.Tag) (words : List String) : List String :=
  words.map (Text.lower tag.tailoring)

/-- The words in the lower case of the keyword's language. -/
def lowered (k : Keyword) : List String :=
  lowerWords k.tag k.words

end Keyword

/-- The keyword that a declaration gives. A declaration without words gives none, and
neither does the lone asterisk that stands for any keyword. -/
def Phrase.keyword? (p : Phrase) : Option Keyword :=
  match p.plainWords with
  | [] => none
  | ["*"] => none
  | words => some ⟨words, Language.parse p.language, p.kind⟩

end Stepwise

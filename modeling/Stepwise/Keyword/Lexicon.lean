import Stepwise.Keyword.Basic

/-!
# The lexicon of keywords

A lexicon holds the declared keywords in order, step phrases and headings apart.
Looking up a line lowers its leading words once for each language in use and then
compares word lists. The longest phrase wins, and of two phrases of one length
the one declared first.
-/
namespace Stepwise

structure LexiconEntry where
  keyword : Keyword
  lowered : List String
  deriving DecidableEq, Repr

/-- The keywords in use. `width` is the word count of the longest phrase. -/
structure Lexicon where
  steps : List LexiconEntry
  headers : List LexiconEntry
  tags : List Language.Tag
  width : Nat
  deriving DecidableEq, Repr

namespace Lexicon

def empty : Lexicon := ⟨[], [], [], 0⟩

instance : Inhabited Lexicon := ⟨empty⟩

/-- The keywords of a list of declarations, in the order of declaration. -/
def ofPhrases (phrases : List Phrase) : Lexicon :=
  let keywords := phrases.filterMap Phrase.keyword?
  let entries := keywords.map fun k => LexiconEntry.mk k k.lowered
  { steps := entries.filter fun e => !e.keyword.kind.isHeader
    headers := entries.filter fun e => e.keyword.kind.isHeader
    tags := (keywords.map (·.tag)).eraseDups
    width := (keywords.map (·.size)).foldl max 0 }

/-- The step keywords in order of declaration. -/
def stepKeywords (l : Lexicon) : List Keyword :=
  l.steps.map (·.keyword)

/-- The leading words of a line in the lower case of each language in use. No more
words are lowered than the longest phrase has. -/
def lowerInput (l : Lexicon) (words : List String) : List (Language.Tag × List String) :=
  l.tags.map fun tag => (tag, Keyword.lowerWords tag (words.take l.width))

/-- The longest of the entries that satisfy a test, the earlier of two of one length. -/
def longest? (accepts : LexiconEntry → Bool) (entries : List LexiconEntry) :
    Option LexiconEntry :=
  entries.foldl (fun best e =>
    match best with
    | some b => if b.keyword.size < e.keyword.size && accepts e then some e else best
    | none => if accepts e then some e else none) none

/-- The longest step phrase that the words begin with. -/
def find? (l : Lexicon) (words : List String) : Option Keyword :=
  let input := l.lowerInput words
  (longest? (fun e => e.lowered.isPrefixOf ((input.lookup e.keyword.tag).getD [])) l.steps).map
    (·.keyword)

/-- Whether lower-case words open with a heading: the words before the last are equal,
and the last is directly followed by a colon. -/
def opensWith (heading input : List String) : Bool :=
  match heading, input with
  | [], _ => false
  | [last], word :: _ => Text.startsWith (last ++ ":") word
  | h :: hs, w :: ws => h == w && opensWith hs ws
  | _, [] => false

/-- The longest heading that a line opens with. -/
def findHeader? (l : Lexicon) (line : String) : Option Keyword :=
  let input := l.lowerInput (Text.words line)
  (longest? (fun e => opensWith e.lowered ((input.lookup e.keyword.tag).getD [])) l.headers).map
    (·.keyword)

end Lexicon
end Stepwise

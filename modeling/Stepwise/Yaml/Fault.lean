import Stepwise.Text.Quoted

/-!
# What is wrong with a text

A fault has a problem and perhaps a line. Of the two places that a fault concerns,
the start of the construct and the place of the problem, the first that is not on
the first line is shown; a fault on the first line shows none.
-/
namespace Stepwise.Yaml

inductive Problem where
  | controlCharacter
  | missingColon
  | tooDeep (limit : Nat)
  | strayEntry
  | strayKey
  | strayValue
  | strayCharacter
  | unknownDirective
  | missingLineEnd
  | missingDirectiveName
  | badDirectiveName
  | missingVersionPoint
  | longVersion
  | missingVersion
  | missingBlank
  | missingBlankOrBreak
  | missingName
  | missingAngle
  | missingExclamation
  | missingTagText
  | missingOctet
  | badLeadingOctet
  | badTrailingOctet
  | zeroIndentation
  | tabForSpace
  | tabInIndentation
  | documentMark
  | endOfText
  | unknownEscape
  | missingHexDigit
  | badEscapeCode
  | missingDocumentStart
  | repeatedVersion
  | wrongVersion
  | repeatedHandle
  | unknownHandle
  | missingContent
  | missingDash
  | missingKey
  | missingCommaOrBracket
  | missingCommaOrBrace
  | unknownAnchor (name : String)
  | selfReference (name : String)
  deriving DecidableEq, Repr

def Problem.text : Problem → String
  | controlCharacter => "control characters are not allowed"
  | missingColon => "could not find expected ':'"
  | tooDeep limit => "exceeded max depth of " ++ toString limit
  | strayEntry => "block sequence entries are not allowed in this context"
  | strayKey => "mapping keys are not allowed in this context"
  | strayValue => "mapping values are not allowed in this context"
  | strayCharacter => "found character that cannot start any token"
  | unknownDirective => "found unknown directive name"
  | missingLineEnd => "did not find expected comment or line break"
  | missingDirectiveName => "could not find expected directive name"
  | badDirectiveName => "found unexpected non-alphabetical character"
  | missingVersionPoint => "did not find expected digit or '.' character"
  | longVersion => "found extremely long version number"
  | missingVersion => "did not find expected version number"
  | missingBlank => "did not find expected whitespace"
  | missingBlankOrBreak => "did not find expected whitespace or line break"
  | missingName => "did not find expected alphabetic or numeric character"
  | missingAngle => "did not find the expected '>'"
  | missingExclamation => "did not find expected '!'"
  | missingTagText => "did not find expected tag URI"
  | missingOctet => "did not find URI escaped octet"
  | badLeadingOctet => "found an incorrect leading UTF-8 octet"
  | badTrailingOctet => "found an incorrect trailing UTF-8 octet"
  | zeroIndentation => "found an indentation indicator equal to 0"
  | tabForSpace => "found a tab character where an indentation space is expected"
  | tabInIndentation => "found a tab character that violates indentation"
  | documentMark => "found unexpected document indicator"
  | endOfText => "found unexpected end of stream"
  | unknownEscape => "found unknown escape character"
  | missingHexDigit => "did not find expected hexdecimal number"
  | badEscapeCode => "found invalid Unicode character escape code"
  | missingDocumentStart => "did not find expected <document start>"
  | repeatedVersion => "found duplicate %YAML directive"
  | wrongVersion => "found incompatible YAML document"
  | repeatedHandle => "found duplicate %TAG directive"
  | unknownHandle => "found undefined tag handle"
  | missingContent => "did not find expected node content"
  | missingDash => "did not find expected '-' indicator"
  | missingKey => "did not find expected key"
  | missingCommaOrBracket => "did not find expected ',' or ']'"
  | missingCommaOrBrace => "did not find expected ',' or '\x7d'"
  | unknownAnchor name => "unknown anchor '" ++ name ++ "' referenced"
  | selfReference name => "anchor '" ++ name ++ "' value contains itself"

structure Fault where
  problem : Problem
  line : Option Nat
  deriving DecidableEq, Repr

namespace Fault

def plain (problem : Problem) : Fault := ⟨problem, none⟩

/-- A problem of the characters: the lines, counted from 0, of the construct and of the
place. -/
def ofScan (construct place : Nat) (problem : Problem) : Fault :=
  ⟨problem, if construct != 0 then some (construct + 1)
    else if place != 0 then some (place + 1) else none⟩

/-- A problem of the tokens: the lines, counted from 0, of the construct and of the
token. The shown line is the one before the token when counted from 1. -/
def ofTokens (construct place : Nat) (problem : Problem) : Fault :=
  ⟨problem, if construct != 0 then some construct
    else if place != 0 then some place else none⟩

def message (f : Fault) : String :=
  "yaml: " ++ (match f.line with
    | some n => "line " ++ toString n ++ ": "
    | none => "") ++ f.problem.text

end Fault
end Stepwise.Yaml

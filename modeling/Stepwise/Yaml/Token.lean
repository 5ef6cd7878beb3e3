import Stepwise.Yaml.Input

/-!
# Tokens of YAML

The tokens carry the line they start on, because a node is reported by that line.
-/
namespace Stepwise.Yaml

inductive Style where
  | plain
  | singleQuoted
  | doubleQuoted
  | literal
  | folded
  deriving DecidableEq, Repr

inductive TokenKind where
  | streamEnd
  | versionDirective (major minor : Nat)
  | tagDirective (handle uri : String)
  | documentStart
  | documentEnd
  | blockSequenceStart
  | blockMappingStart
  | blockEnd
  | flowSequenceStart
  | flowSequenceEnd
  | flowMappingStart
  | flowMappingEnd
  | blockEntry
  | flowEntry
  | key
  | value
  | reference (name : String)
  | anchor (name : String)
  | tag (handle suffix : String)
  | scalar (style : Style) (text : String)
  deriving DecidableEq, Repr

/-- A token and the line it starts on, the first line being 0. -/
structure Token where
  kind : TokenKind
  line : Nat
  deriving DecidableEq, Repr

end Stepwise.Yaml

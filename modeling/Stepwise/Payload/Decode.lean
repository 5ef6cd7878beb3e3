import Stepwise.Payload.Field
import Stepwise.Keyword.Basic
import Stepwise.Registry.Steps
import Stepwise.Registry.Variables
import Stepwise.Registry.Imports
import Stepwise.Text.Quoted

/-!
# Registries from payloads

Each kind of configuration has its decoder. A payload may have several shapes; a
node of no accepted shape is reported with its line.
-/
namespace Stepwise

open Yaml (Node)

/-- What was expected where a node has an unsupported shape. -/
inductive Expected where
  | keywords
  | keyword
  | keywordKind (name : String)
  | categories (language : String)
  | steps
  | vars
  | imports
  | importTarget (name : String)
  | text
  | texts
  deriving DecidableEq, Repr

def Expected.phrase : Expected → String
  | keywords => "keywords"
  | keyword => "keyword"
  | keywordKind name => "keyword kind " ++ Text.quoted name
  | categories language => "language " ++ Text.quoted language
  | steps => "steps"
  | vars => "variables"
  | imports => "imports"
  | importTarget name => "import " ++ Text.quoted name
  | text => "expected string"
  | texts => "expected strings"

/-- Why a payload gives no registry: a node of unsupported shape, or a field with an
unsuitable value. -/
inductive DecodeError where
  | shape (expected : Expected) (line : Nat)
  | field
  deriving DecidableEq, Repr

def DecodeError.shapeMessage (expected : Expected) (line : Nat) : String :=
  expected.phrase ++ " at line " ++ toString line ++ ": unsupported payload shape"

namespace Payload

/-- Turns a missing result into the error for an unsuitable field. -/
def orField {α : Type} : Option α → Except DecodeError α
  | some a => .ok a
  | none => .error .field

def itemText : Node → Except DecodeError String
  | .scalar _ _ _ text => .ok text
  | n => .error (.shape .text n.line)

/-- The texts of a scalar or of a sequence of scalars, as they are written. -/
def writtenTexts : Node → Except DecodeError (List String)
  | .scalar _ _ _ text => .ok [text]
  | .sequence _ _ items => items.mapM itemText
  | n => .error (.shape .texts n.line)

/-- The kind named by an entry; an entry without a kind declares steps. -/
def entryKind (name : String) (line : Nat) : Except DecodeError Kind :=
  if name.isEmpty then .ok .step
  else match Kind.ofCategory? name with
    | some k => .ok k
    | none => .error (.shape (.keywordKind name) line)

/-- The phrases of an entry with its own language and kind. -/
def entryPhrases (n : Node) : Except DecodeError (List Phrase) := do
  let entries := (← orField n.entries?).getD []
  let language ← orField (Yaml.textField entries "language")
  let kind ← orField (Yaml.textField entries "kind")
  let phrases ← orField (Yaml.textsField entries "phrases")
  let kind ← entryKind kind n.line
  return phrases.map fun p => ⟨language, kind, [p]⟩

def listedPhrases : Node → Except DecodeError (List Phrase)
  | .scalar _ _ _ text => .ok [⟨"", .step, [text]⟩]
  | .sequence line tag items =>
    (writtenTexts (.sequence line tag items)).map fun words => [⟨"", .step, words⟩]
  | .mapping line tag members => entryPhrases (.mapping line tag members)
  | n => .error (.shape .keyword n.line)

/-- The phrases of one category of a language; unknown categories have none. -/
def categoryPhrases (language : String) (member : Node × Node) :
    Except DecodeError (List Phrase) :=
  match Kind.ofCategory? member.1.value with
  | none => .ok []
  | some kind => (writtenTexts member.2).map fun ps => ps.map fun p => ⟨language, kind, [p]⟩

def languagePhrases (member : Node × Node) : Except DecodeError (List Phrase) :=
  match member.2 with
  | .mapping _ _ categories =>
    (categories.mapM (categoryPhrases member.1.value)).map List.flatten
  | n => .error (.shape (.categories member.1.value) n.line)

/-- Reads keyword phrases: a list of phrases and entries, or a mapping from languages
to categories to phrases. -/
def keywords : Option Node → Except DecodeError (List Phrase)
  | none => .ok []
  | some (.sequence _ _ items) => (items.mapM listedPhrases).map List.flatten
  | some (.mapping _ _ members) => (members.mapM languagePhrases).map List.flatten
  | some n => .error (.shape .keywords n.line)

def metatags : Option Node → Except DecodeError (List String)
  | none => .ok []
  | some n => writtenTexts n

def stepDefinition (n : Node) : Except DecodeError StepDefinition := do
  let entries := (← orField n.entries?).getD []
  let text := fun name => orField (Yaml.textField entries name)
  let key ← text "key"
  let label ← text "label"
  let keyword ← text "keyword"
  let insertText ← text "insertText"
  let documentation ← text "documentation"
  let group ← text "section"
  let sortText ← text "sortText"
  let kind ← orField (Yaml.intField entries "kind")
  return { key, label, keyword, insertText, documentation, group, sortText, kind }

/-- Reads step definitions: a mapping from keys to definitions, or a list of
definitions with their own keys. -/
def steps : Option Node → Except DecodeError Steps
  | none => .ok .empty
  | some (.mapping _ _ members) => do
    let defs ← members.mapM fun m => do
      let d ← stepDefinition m.2
      return { d with key := m.1.value }
    return Steps.ofList defs
  | some (.sequence _ _ items) => (items.mapM stepDefinition).map Steps.ofList
  | some n => .error (.shape .steps n.line)

/-- Reads a variable. A scalar is short for a variable named after its id. -/
def variableEntry (member : Node × Node) : Except DecodeError Variable :=
  let id := member.1.value
  match member.2 with
  | .scalar _ _ _ text => .ok ⟨id, id, text⟩
  | n => do
    let entries := (← orField n.entries?).getD []
    let name ← orField (Yaml.textField entries "name")
    let value ← orField (Yaml.textField entries "value")
    return ⟨id, if name.isEmpty then id else name, value⟩

def vars : Option Node → Except DecodeError Variables
  | none => .ok .empty
  | some (.mapping _ _ members) => (members.mapM variableEntry).map Variables.ofList
  | some n => .error (.shape .vars n.line)

/-- Reads an import: a location, or a record with a URI or a path. -/
def importEntry (member : Node × Node) : Except DecodeError ImportEntry :=
  let name := member.1.value
  match member.2 with
  | .scalar _ _ _ text => .ok ⟨name, text, 0⟩
  | .mapping line tag members => do
    let entries := (← orField (Node.mapping line tag members).entries?).getD []
    let uri ← orField (Yaml.textField entries "uri")
    let path ← orField (Yaml.textField entries "path")
    let lineNumber ← orField (Yaml.intField entries "lineNumber")
    return ⟨name, if uri.isEmpty then path else uri, lineNumber⟩
  | n => .error (.shape (.importTarget name) n.line)

def imports : Option Node → Except DecodeError Imports
  | none => .ok .empty
  | some (.mapping _ _ members) => (members.mapM importEntry).map Imports.ofList
  | some n => .error (.shape .imports n.line)

/-- Reads messages by id; a null is an empty message. -/
def messages : Option Node → Except DecodeError (List (String × String))
  | none => .ok []
  | some n => do
    let entries := (← orField n.entries?).getD []
    orField (entries.mapM fun e => e.2.text?.map fun t => (e.1, t.getD ""))

end Payload
end Stepwise

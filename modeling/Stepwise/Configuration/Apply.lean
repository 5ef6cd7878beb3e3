import Stepwise.Configuration.Basic
import Stepwise.Payload.Basic
import Stepwise.Payload.Decode
import Stepwise.Schema.Violation
import Stepwise.Json.Compact

/-!
# Applying configuration data

The data of a configuration request is JSON. It is compacted, checked against the
schema of its kind, read as a payload and decoded. When any of these fails the
registry becomes empty: it does not keep its old content, and nothing of a broken
payload gets into it. Data that is absent or `null` stands for an empty registry
and is no failure.
-/
namespace Stepwise

inductive Refusal where
  | malformed
  | notJson
  | violation (v : Violation)
  | payload (e : PayloadError)
  | decoding (e : DecodeError)

/-- The root node of configuration data; absent data has none. -/
def ConfigKind.rootOf (kind : ConfigKind) (data : Option String) :
    Except Refusal (Option Yaml.Node) :=
  let trimmed := Text.trim (data.getD "")
  if trimmed.isEmpty || trimmed == "null" then .ok none
  else
    match Json.compact? false trimmed with
    | none => .error .malformed
    | some compact =>
      match Json.first? compact with
      | none => .error .notJson
      | some json =>
        match kind.violation? json with
        | some v => .error (.violation v)
        | none =>
          match Payload.parse compact with
          | .ok p => .ok p.root
          | .error e => .error (.payload e)

def ConfigKind.decodeWith {α : Type} (kind : ConfigKind)
    (decode : Option Yaml.Node → Except DecodeError α) (data : Option String) :
    Except Refusal α :=
  match kind.rootOf data with
  | .error e => .error e
  | .ok root =>
    match decode root with
    | .ok a => .ok a
    | .error e => .error (.decoding e)

namespace Configuration

/-- A configuration after a request, and why its data was refused if it was. -/
abbrev Applied := Configuration × Option Refusal

/-- Installs decoded content, or the empty content when there is none. -/
def install {α : Type} (content : Except Refusal α) (empty : α) (put : α → Configuration) :
    Applied :=
  match content with
  | .ok a => (put a, none)
  | .error e => (put empty, some e)

/-- Replaces the registry of a kind by the content of configuration data. -/
def apply (c : Configuration) (kind : ConfigKind) (data : Option String) : Applied :=
  match kind with
  | .keywords =>
    install (kind.decodeWith Payload.keywords data) [] fun ps => c.withLexicon (.ofPhrases ps)
  | .metatags => install (kind.decodeWith Payload.metatags data) [] c.withMetatags
  | .steps => install (kind.decodeWith Payload.steps data) .empty c.withSteps
  | .vars => install (kind.decodeWith Payload.vars data) .empty c.withVariables
  | .imports => install (kind.decodeWith Payload.imports data) .empty c.withImports
  | .messages => install (kind.decodeWith Payload.messages data) [] c.withMessages

end Configuration
end Stepwise

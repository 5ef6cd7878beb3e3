import Stepwise.Session.Basic

/-!
# Registry files

A registry file is a payload with one section for each kind of configuration. Every
section that is present is applied, in a fixed order and whether or not it passes
its schema; what is wrong with a section is reported beside that.
-/
namespace Stepwise

inductive RegistryError where
  | payload (e : PayloadError)
  | violation (kind : ConfigKind) (line : Nat) (v : Violation)

namespace RegistryError

def violationMessage (kind : ConfigKind) (line : Nat) (v : Violation) : String :=
  kind.name ++ " at line " ++ toString line ++ ": " ++ v.text

end RegistryError

namespace Session

structure Loaded where
  session : Session
  errors : List RegistryError
  log : List LogEvent

/-- Applies the section of one kind, if the payload has it. -/
def loadSection (p : Payload) (before : Loaded) (kind : ConfigKind) : Loaded :=
  let path := [kind.name]
  match p.sectionJson path with
  | .ok none => before
  | .error e => { before with errors := before.errors ++ [.payload e] }
  | .ok (some json) =>
    let errors := match kind.violation? json with
      | some v => [.violation kind (p.lineOf path) v]
      | none => []
    let handled := before.session.process (.configure kind (some json.render))
    ⟨handled.session, before.errors ++ errors, before.log ++ handled.log ++ [.sectionLoaded]⟩

/-- Applies every section of a registry file. -/
def loadRegistry (s : Session) (text : String) : Loaded :=
  match Payload.parse text with
  | .error e => ⟨s, [.payload e], []⟩
  | .ok p => ConfigKind.all.foldl (loadSection p) ⟨s, [], []⟩

end Session
end Stepwise

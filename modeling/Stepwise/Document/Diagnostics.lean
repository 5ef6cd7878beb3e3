import Stepwise.Document.LineClass

/-!
# Flagged lines

A line is flagged when its class is unknown, or when it is a step line that invokes
no registered step. The markers are in the order of the lines.
-/
namespace Stepwise

/-- Whether a line of a class is in order. -/
def Configuration.accepts (c : Configuration) (cls : LineClass) (line : String) : Bool :=
  match cls with
  | .step => (c.invokedStep? line).isSome
  | .unknown => false
  | _ => true

/-- The marker of a flagged line, which covers its content. -/
def Marker.flag (text : String) (lineNumber : Nat) (line : String) : Marker :=
  ⟨Severity.error, text, .onLine lineNumber (Text.minColumn line) (Text.maxColumn line)⟩

def Document.diagnostics (c : Configuration) (d : Document) : List Marker :=
  ((d.classes c).zip d.numbered).filterMap fun (cls, number, line) =>
    if c.accepts cls line then none else some (.flag c.syntaxMessage number line)

end Stepwise

import Stepwise.Editor.Position

/-!
# Diagnostics of an editor

A diagnostic is a marker with the name of the tool that made it. Coming back from an
editor, a severity that is none of the four known ones counts as an error.
-/
namespace Stepwise.Editor

/-- The name under which diagnostics are published. -/
def sourceName : String := "turbo-gherkin-ls"

inductive DiagnosticSeverity where
  | error
  | warning
  | information
  | hint
  deriving DecidableEq, Repr

namespace DiagnosticSeverity

def code : DiagnosticSeverity → Nat
  | error => 1
  | warning => 2
  | information => 3
  | hint => 4

def ofMarker (severity : Int) : DiagnosticSeverity :=
  if severity = Severity.hint then hint
  else if severity = Severity.info then information
  else if severity = Severity.warning then warning
  else error

def toMarker : DiagnosticSeverity → Int
  | error => Severity.error
  | warning => Severity.warning
  | information => Severity.info
  | hint => Severity.hint

end DiagnosticSeverity

structure Diagnostic where
  range : Range
  severity : DiagnosticSeverity
  source : String
  message : String
  deriving DecidableEq, Repr

namespace Diagnostic

def blank : Diagnostic := ⟨.zero, .error, "", ""⟩

def ofMarker (m : Marker) : Diagnostic :=
  ⟨.ofSpan m.span, .ofMarker m.severity, sourceName, m.message⟩

def toMarker (d : Diagnostic) : Marker :=
  ⟨d.severity.toMarker, d.message, d.range.toSpan⟩

/-- The markers of the diagnostics that this tool made. -/
def ownMarkers (ds : List Diagnostic) : List Marker :=
  (ds.filter fun d => d.source == sourceName).map toMarker

end Diagnostic
end Stepwise.Editor

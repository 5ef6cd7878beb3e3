/-!
# Spans and markers

Lines and columns of a span are 1-indexed, and its end column is exclusive. Zeros
stand for a place that was not given.
-/
namespace Stepwise

structure Span where
  startLine : Int
  startColumn : Int
  endLine : Int
  endColumn : Int
  deriving DecidableEq, Repr

namespace Span

/-- The span that was not given. -/
def unset : Span := ⟨0, 0, 0, 0⟩

instance : Inhabited Span := ⟨unset⟩

/-- The columns from `start` up to `stop` of one line. -/
def onLine (line start stop : Int) : Span :=
  ⟨line, start, line, stop⟩

def containsLine (s : Span) (line : Int) : Bool :=
  s.startLine ≤ line && line ≤ s.endLine

end Span

/-- The weights that a host gives to markers. -/
def Severity.hint : Int := 1

@[inherit_doc Severity.hint]
def Severity.info : Int := 2

@[inherit_doc Severity.hint]
def Severity.warning : Int := 4

@[inherit_doc Severity.hint]
def Severity.error : Int := 8

/-- A message attached to a span. The severity is a number because a host may send
back one that is not among the known weights. -/
structure Marker where
  severity : Int
  message : String
  span : Span
  deriving DecidableEq, Repr

def Marker.blank : Marker := ⟨0, "", .unset⟩

instance : Inhabited Marker := ⟨Marker.blank⟩

end Stepwise

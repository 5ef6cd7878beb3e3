import Stepwise.Json.Extent

/-!
# Streams of values

A stream is a sequence of values with white space between them. Between two values
a single comma or colon is passed over too, and anything else that cannot begin a
value is taken as part of the value after it. The end of the stream is an error
when a value has begun.
-/
namespace Stepwise.Json

inductive StreamEnd where
  | finished
  | broken
  deriving DecidableEq, Repr

inductive StreamItem where
  | done (how : StreamEnd)
  | value (text : List Char) (rest : List Char)
  deriving DecidableEq, Repr

/-- The next value, from its first character or from what stands before it. -/
def nextValue (cs : List Char) : StreamItem :=
  let lead := cs.takeWhile fun c => !startsValue c
  match spanWithin maxDepth (cs.dropWhile fun c => !startsValue c) with
  | some (value, rest) => .value (lead ++ value) rest
  | none => .done .broken

def nextItem (cs : List Char) : StreamItem :=
  match skipSpace cs with
  | [] => .done .finished
  | c :: rest => if c == ',' || c == ':' then nextValue rest else nextValue (c :: rest)

/-- The values of a stream and its end. Each value takes at least one character, so
the length of the text bounds their number. -/
def streamFrom : Nat → List Char → List String × StreamEnd
  | 0, _ => ([], .finished)
  | fuel + 1, cs =>
    match nextItem cs with
    | .done how => ([], how)
    | .value text rest =>
      let (values, how) := streamFrom fuel rest
      (String.ofList text :: values, how)

/-- The values of a stream, each as it is written, and the end of the stream. -/
def stream (text : String) : List String × StreamEnd :=
  let cs := upToNul text
  streamFrom (cs.length + 1) cs

end Stepwise.Json

import Stepwise.Text.Blank

/-!
# Placeholders

A placeholder is a quoted or bracketed token of a line: a double-quoted string
without double quotes inside, a single-quoted string without single quotes
inside, or an angle bracket token without quotes and without ASCII white space,
extended to the last closing bracket of its run.

`pieces` cuts a line into placeholders and single characters, from left to right
and without looking back. Finding and replacing placeholders are two readings of
that one cut.
-/
namespace Stepwise.Step

inductive Delimiter where
  | double
  | single
  | angle
  deriving DecidableEq, Repr

namespace Delimiter

def opening : Delimiter → Char
  | double => '"'
  | single => '\''
  | angle => '<'

def closing : Delimiter → Char
  | double => '"'
  | single => '\''
  | angle => '>'

def isQuote : Delimiter → Bool
  | angle => false
  | _ => true

end Delimiter

/-- The characters that cannot stand inside angle brackets. -/
def breaksAngle (c : Char) : Bool :=
  c == ' ' || c == '\t' || c == '\n' || c == '\x0c' || c == '\r' || c == '"' || c == '\''

/-- Reads up to the first `quote`: the text before it and the text after it. -/
def upToQuote (quote : Char) : List Char → Option (List Char × List Char)
  | [] => none
  | c :: cs =>
    if c == quote then some ([], cs)
    else (upToQuote quote cs).map fun (inner, rest) => (c :: inner, rest)

/-- Reads up to the last closing bracket before a character that breaks the token. -/
def upToAngle : List Char → Option (List Char × List Char)
  | [] => none
  | c :: cs =>
    if breaksAngle c then none
    else match upToAngle cs with
      | some (inner, rest) => some (c :: inner, rest)
      | none => if c == '>' then some ([], cs) else none

/-- The placeholder that starts here: its delimiter, its inner text and what follows. -/
def tokenAt? : List Char → Option (Delimiter × List Char × List Char)
  | [] => none
  | c :: cs =>
    if c == '"' then (upToQuote '"' cs).map fun r => (.double, r.1, r.2)
    else if c == '\'' then (upToQuote '\'' cs).map fun r => (.single, r.1, r.2)
    else if c == '<' then (upToAngle cs).map fun r => (.angle, r.1, r.2)
    else none

theorem upToQuote_length {q : Char} {cs inner rest : List Char}
    (h : upToQuote q cs = some (inner, rest)) : inner.length + 1 + rest.length = cs.length := by
  induction cs generalizing inner rest with
  | nil => simp [upToQuote] at h
  | cons c cs ih =>
    unfold upToQuote at h
    split at h
    · simp only [Option.some.injEq, Prod.mk.injEq] at h
      obtain ⟨rfl, rfl⟩ := h
      simp [Nat.add_comm]
    · obtain ⟨⟨i, r⟩, hr, heq⟩ := Option.map_eq_some_iff.1 h
      simp only [Prod.mk.injEq] at heq
      obtain ⟨rfl, rfl⟩ := heq
      have := ih hr
      simp only [List.length_cons]
      omega

theorem upToAngle_length {cs inner rest : List Char}
    (h : upToAngle cs = some (inner, rest)) : inner.length + 1 + rest.length = cs.length := by
  induction cs generalizing inner rest with
  | nil => simp [upToAngle] at h
  | cons c cs ih =>
    unfold upToAngle at h
    split at h
    · simp at h
    · split at h
      · rename_i i r hr
        simp only [Option.some.injEq, Prod.mk.injEq] at h
        obtain ⟨rfl, rfl⟩ := h
        have := ih hr
        simp only [List.length_cons]
        omega
      · split at h
        · simp only [Option.some.injEq, Prod.mk.injEq] at h
          obtain ⟨rfl, rfl⟩ := h
          simp [Nat.add_comm]
        · simp at h

/-- A token is its two delimiters and its inner text. -/
theorem tokenAt?_length {cs inner rest : List Char} {d : Delimiter}
    (h : tokenAt? cs = some (d, inner, rest)) : inner.length + 2 + rest.length = cs.length := by
  cases cs with
  | nil => simp [tokenAt?] at h
  | cons c cs =>
    simp only [tokenAt?] at h
    simp only [List.length_cons]
    split at h
    · obtain ⟨r, hr, heq⟩ := Option.map_eq_some_iff.1 h
      simp only [Prod.mk.injEq] at heq
      obtain ⟨-, rfl, rfl⟩ := heq
      have := upToQuote_length hr
      omega
    · split at h
      · obtain ⟨r, hr, heq⟩ := Option.map_eq_some_iff.1 h
        simp only [Prod.mk.injEq] at heq
        obtain ⟨-, rfl, rfl⟩ := heq
        have := upToQuote_length hr
        omega
      · split at h
        · obtain ⟨r, hr, heq⟩ := Option.map_eq_some_iff.1 h
          simp only [Prod.mk.injEq] at heq
          obtain ⟨-, rfl, rfl⟩ := heq
          have := upToAngle_length hr
          omega
        · simp at h

/-- A part of a line: a placeholder, or one character outside all placeholders. -/
inductive Piece where
  | token (delimiter : Delimiter) (inner : List Char)
  | plain (c : Char)
  deriving DecidableEq, Repr

/-- The left-to-right cut of a line into placeholders and single characters. -/
def pieces : List Char → List Piece
  | [] => []
  | c :: cs =>
    match _h : tokenAt? (c :: cs) with
    | some (d, inner, rest) => .token d inner :: pieces rest
    | none => .plain c :: pieces cs
termination_by cs => cs.length
decreasing_by
  · have := tokenAt?_length _h
    simp only [List.length_cons] at this ⊢
    omega
  · simp

def Piece.text : Piece → List Char
  | token d inner => d.opening :: inner ++ [d.closing]
  | plain c => [c]

/-- A placeholder on a line, with the column of its opening delimiter. -/
structure Placeholder where
  delimiter : Delimiter
  inner : String
  start : Nat
  deriving DecidableEq, Repr

namespace Placeholder

/-- The column just after the closing delimiter. -/
def stop (p : Placeholder) : Nat :=
  p.start + p.inner.length + 2

def text (p : Placeholder) : String :=
  p.delimiter.opening.toString ++ p.inner ++ p.delimiter.closing.toString

/-- Whether a column touches the token; the column just after it counts. -/
def touches (p : Placeholder) (column : Int) : Bool :=
  (p.start : Int) ≤ column && column ≤ (p.stop : Int)

/-- A dollar just inside both delimiters with something between them. -/
def isDollarWrapped (p : Placeholder) : Bool :=
  let cs := p.inner.toList
  3 ≤ cs.length && cs.head? == some '$' && cs.getLast? == some '$'

end Placeholder

/-- The placeholders among `parts`, the first part starting at `column`. -/
def placeholdersFrom (column : Nat) : List Piece → List Placeholder
  | [] => []
  | .token d inner :: rest =>
    ⟨d, String.ofList inner, column⟩ :: placeholdersFrom (column + inner.length + 2) rest
  | .plain _ :: rest => placeholdersFrom (column + 1) rest

/-- The placeholders of a line, from left to right. -/
def placeholders (line : String) : List Placeholder :=
  placeholdersFrom 1 (pieces line.toList)

/-- The first placeholder that touches a column. -/
def placeholderAt? (line : String) (column : Int) : Option Placeholder :=
  (placeholders line).find? (·.touches column)

/-- The line with `marker` in place of every placeholder. -/
def replacePlaceholders (line marker : String) : String :=
  String.ofList <| (pieces line.toList).flatMap fun
    | .token _ _ => marker.toList
    | .plain c => [c]

end Stepwise.Step

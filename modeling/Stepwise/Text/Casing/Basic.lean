import Stepwise.Text.Casing.Lower
import Stepwise.Text.Casing.Upper
import Stepwise.Text.Casing.Fold
import Stepwise.Text.Casing.Property

/-!
# Lower case, upper case and folding of text

Three comparisons of names ignore case, each by its own rule. Registries compare
by the simple lower case, character by character. Step shapes and directives
compare by full case folding. Keywords compare by the lower case of their
language, which knows the final sigma and the tailorings of a few languages.
-/
namespace Stepwise.Text.Casing

/-- The languages whose casing rules differ from the general ones. -/
inductive Tailoring where
  | none
  | turkic
  | greek
  | lithuanian
  deriving DecidableEq, Repr

def lowerSimple (c : Char) : Char :=
  match image? lowerRuns c.toNat with
  | some n => Char.ofNat n
  | none => c

/-- The full lower case of a character out of context. Only the dotted capital I has
more than one character: it keeps its dot as a mark. -/
def lowerFull (c : Char) : List Char :=
  if c.toNat == 0x130 then ['i', '\u0307'] else [lowerSimple c]

def upperFull (c : Char) : List Char :=
  match image? upperRuns c.toNat with
  | some n => [Char.ofNat n]
  | none =>
    match upperLong.find? (·.1 == c.toNat) with
    | some (_, ns) => ns.map Char.ofNat
    | none => [c]

def foldFull (c : Char) : List Char :=
  match image? foldRuns c.toNat with
  | some n => [Char.ofNat n]
  | none =>
    match foldLong.find? (·.1 == c.toNat) with
    | some (_, ns) => ns.map Char.ofNat
    | none => [c]

/-- The accented Greek capitals, as intervals that share a base letter. -/
def greekBases : List (Nat × Nat × Nat) := [
  (0x386, 0x386, 0x391), (0x388, 0x388, 0x395), (0x389, 0x389, 0x397), (0x38A, 0x38A, 0x399),
  (0x38C, 0x38C, 0x39F), (0x38E, 0x38E, 0x3A5), (0x38F, 0x38F, 0x3A9), (0x3AA, 0x3AA, 0x399),
  (0x3AB, 0x3AB, 0x3A5), (0x3D3, 0x3D4, 0x3D2), (0x1F08, 0x1F0F, 0x391), (0x1F18, 0x1F1D, 0x395),
  (0x1F28, 0x1F2F, 0x397), (0x1F38, 0x1F3F, 0x399), (0x1F48, 0x1F4D, 0x39F),
  (0x1F59, 0x1F59, 0x3A5), (0x1F5B, 0x1F5B, 0x3A5), (0x1F5D, 0x1F5D, 0x3A5),
  (0x1F5F, 0x1F5F, 0x3A5), (0x1F68, 0x1F6F, 0x3A9), (0x1FB8, 0x1FBB, 0x391),
  (0x1FC8, 0x1FC9, 0x395), (0x1FCA, 0x1FCB, 0x397), (0x1FCD, 0x1FCF, 0x1FBF),
  (0x1FD8, 0x1FDB, 0x399), (0x1FDD, 0x1FDF, 0x1FFE), (0x1FE8, 0x1FEB, 0x3A5),
  (0x1FEC, 0x1FEC, 0x3A1), (0x1FF8, 0x1FF9, 0x39F), (0x1FFA, 0x1FFB, 0x3A9),
  (0x2126, 0x2126, 0x3A9)]

/-- The base letter of an accented Greek capital. -/
def greekBase? (c : Char) : Option Char :=
  (greekBases.find? fun r => r.1 ≤ c.toNat && c.toNat ≤ r.2.1).map fun r => Char.ofNat r.2.2

/-- The upper case of a single character. Turkish and Azeri keep the dot of i; Greek
capitals carry no accents. -/
def upperChar (t : Tailoring) (c : Char) : List Char :=
  match t with
  | .turkic => if c == 'i' then ['\u0130'] else upperFull c
  | .greek =>
    let up := upperFull c
    if isGreek c then
      match up with
      | first :: _ =>
        match greekBase? first with
        | some base => [base]
        | none => up
      | [] => up
    else up
  | _ => upperFull c

/-- The number of marks that a rule looks past when it searches for a dot or a
following letter. -/
def reach : Nat := 30

/-- Whether a letter follows, looking past characters that are ignored for casing. -/
def casedFollows : Nat → List Char → Bool
  | 0, _ => false
  | _, [] => false
  | n + 1, c :: cs =>
    if isCaseIgnorable c then casedFollows n cs else isCased c

/-- Whether a dot above follows the marks of a letter. No other mark above may stand
between. -/
def dotFollows : Nat → List Char → Bool
  | 0, _ => false
  | _, [] => false
  | n + 1, c :: cs =>
    if c == '\u0307' then true
    else if isAbove c || !isCombining c then false
    else dotFollows n cs

/-- Removes the first dot above. -/
def eraseDot (cs : List Char) : List Char :=
  cs.erase '\u0307'

/-- Puts a dot above in front of the first mark above, if one follows the marks of a
letter. -/
def insertDot : Nat → List Char → List Char
  | 0, cs => cs
  | _, [] => []
  | n + 1, c :: cs =>
    if isAbove c then '\u0307' :: c :: cs
    else if isCombining c then c :: insertDot n cs
    else c :: cs

/-- The Lithuanian lower case of a capital with an accent above: the plain letter, a
dot above, and the accents. -/
def lithuanianAccented : List (Nat × List Nat) := [
  (0xCC, [0x69, 0x307, 0x300]), (0xCD, [0x69, 0x307, 0x301]), (0xCE, [0x69, 0x307, 0x302]),
  (0xCF, [0x69, 0x307, 0x308]), (0x128, [0x69, 0x307, 0x303]), (0x12A, [0x69, 0x307, 0x304]),
  (0x12C, [0x69, 0x307, 0x306]), (0x130, [0x69, 0x307, 0x307]), (0x134, [0x6A, 0x307, 0x302]),
  (0x1CF, [0x69, 0x307, 0x30C]), (0x208, [0x69, 0x307, 0x30F]), (0x20A, [0x69, 0x307, 0x311]),
  (0x1E2E, [0x69, 0x307, 0x308, 0x301]), (0x1EC8, [0x69, 0x307, 0x309])]

/-- The capitals I and J and their forms with a mark below, whose lower case takes a
dot when a mark above follows. -/
def takesDot (c : Char) : Bool :=
  c == 'I' || c == 'J' || c.toNat == 0x12E || c.toNat == 0x1E2C || c.toNat == 0x1ECA

/-- The lower case of a letter in a language, and the text after it as that rule
leaves it. -/
def lowerLetter (t : Tailoring) (c : Char) (rest : List Char) : List Char × List Char :=
  match t with
  | .turkic =>
    if c.toNat == 0x130 then (['i'], rest)
    else if c == 'I' then
      if dotFollows reach rest then (['i'], eraseDot rest) else (['ı'], rest)
    else (lowerFull c, rest)
  | .lithuanian =>
    match lithuanianAccented.find? (·.1 == c.toNat) with
    | some (_, ns) => (ns.map Char.ofNat, rest)
    | none => if takesDot c then (lowerFull c, insertDot reach rest) else (lowerFull c, rest)
  | _ => (lowerFull c, rest)

/-- Lower-cases a text. The flag says whether a letter of the current word has been
seen; the number bounds the characters still to be read, with room for a dot that
a rule puts in. -/
def lowerFrom (t : Tailoring) : Nat → Bool → List Char → List Char
  | 0, _, cs => cs
  | _, _, [] => []
  | n + 1, inWord, c :: cs =>
    if inWord && c.toNat == 0x3A3 then
      (if casedFollows (reach + 1) cs then 'σ' else 'ς') :: lowerFrom t n true cs
    else
      let inWord' := isCased c || (inWord && isCaseIgnorable c)
      let (head, rest) := lowerLetter t c cs
      head ++ lowerFrom t n inWord' rest

end Casing

open Casing

def lowerSimple (text : String) : String :=
  String.ofList (text.toList.map Casing.lowerSimple)

def fold (text : String) : String :=
  String.ofList (text.toList.flatMap foldFull)

def lower (t : Tailoring) (text : String) : String :=
  String.ofList (lowerFrom t (2 * text.length) false text.toList)

/-- Whether two texts are equal up to case folding. -/
def foldEqual (a b : String) : Bool :=
  fold a == fold b

end Stepwise.Text

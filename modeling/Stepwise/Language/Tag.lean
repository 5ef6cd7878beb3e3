import Stepwise.Language.Registry
import Stepwise.Text.Casing.Basic

/-!
# Language tags

A keyword phrase names its language by a tag such as `en-GB` or `sr-Latn`. Parsing
accepts the well-formed tags whose subtags are registered and writes them in
their preferred spelling; everything else stands for no language in particular.
-/
namespace Stepwise.Language

structure Tag where
  language : String
  script : String
  region : String
  variants : List String
  extensions : List String
  deriving DecidableEq, Repr

namespace Tag

/-- No language in particular. -/
def undetermined : Tag := ⟨"und", "", "", [], []⟩

/-- The subtags joined by hyphens. -/
def text (t : Tag) : String :=
  "-".intercalate (([t.language, t.script, t.region] ++ t.variants ++ t.extensions).filter
    fun s => !s.isEmpty)

end Tag

/-- A letter of the basic alphabet in lower case; other characters are kept. -/
def lowerLetter (c : Char) : Char :=
  if 'A' ≤ c && c ≤ 'Z' then Char.ofNat (c.toNat + 32) else c

/-- A letter of the basic alphabet in upper case; other characters are kept. -/
def upperLetter (c : Char) : Char :=
  if 'a' ≤ c && c ≤ 'z' then Char.ofNat (c.toNat - 32) else c

/-- A lower-case letter or a digit. -/
def isSubtagChar (c : Char) : Bool :=
  ('a' ≤ c && c ≤ 'z') || ('0' ≤ c && c ≤ '9')

/-- Whether a subtag has only letters. -/
def isAlpha (s : String) : Bool :=
  s.toList.all fun c => 'a' ≤ c && c ≤ 'z'

/-- The subtags of a text in lower case, if all are well formed. -/
def subtags? (text : String) : Option (List String) :=
  let parts := (text.toList.map lowerLetter).splitOnP fun c => c == '-' || c == '_'
  if parts.all fun p => 1 ≤ p.length && p.length ≤ 8 && p.all isSubtagChar then
    some (parts.map String.ofList)
  else none

/-- The language a two- or three-letter subtag names. -/
def language? (s : String) : Option String :=
  match s.toList with
  | [_, _] => if twoLetterCodes.contains s then some s else none
  | [a, b, c] =>
    if s == "und" then some s
    else match shortForms.lookup s with
      | some short => some short
      | none => if isThreeLetterCode a b c then some s else none
  | _ => none

/-- The script a four-letter subtag names. -/
def script? (s : String) : Option String :=
  let titled := match s.toList with
    | c :: cs => String.ofList (upperLetter c :: cs)
    | [] => s
  if scripts.contains titled then some titled else none

/-- The region that a two-letter or three-digit subtag names. -/
def region? (s : String) : Option String :=
  if s.length == 3 then numericRegions.lookup s
  else
    let upper := String.ofList (s.toList.map upperLetter)
    if regions.contains upper then some upper else none

/-- Takes the language and the extended language subtags, the last of which names the
language. -/
def takeExtended (language : String) : List String → Option (String × List String)
  | [] => some (language, [])
  | s :: rest =>
    if s.length == 3 && isAlpha s then
      match language? s with
      | some l => takeExtended l rest
      | none => none
    else some (language, s :: rest)

def takeScript : List String → Option (String × List String)
  | [] => some ("", [])
  | s :: rest =>
    if s.length == 4 && isAlpha s then (script? s).map fun x => (x, rest)
    else some ("", s :: rest)

def takeRegion : List String → Option (String × List String)
  | [] => some ("", [])
  | s :: rest =>
    if s.length == 2 || s.length == 3 then (region? s).map fun x => (x, rest)
    else some ("", s :: rest)

/-- Takes the variants that follow. Each must be registered. -/
def takeVariants : List String → Option (List String × List String)
  | [] => some ([], [])
  | s :: rest =>
    if 4 ≤ s.length then
      if variants.contains s then
        (takeVariants rest).map fun (vs, rest) => (s :: vs, rest)
      else none
    else some ([], s :: rest)

/-- Groups the subtags of extensions, each group led by its one-character subtag. -/
def groupExtensions : List String → List (List String)
  | [] => []
  | s :: rest =>
    if s == "x" then [s :: rest]
    else match groupExtensions rest with
      | group :: groups =>
        match rest with
        | r :: _ => if r.length == 1 then [s] :: group :: groups else (s :: group) :: groups
        | [] => [s] :: group :: groups
      | [] => [[s]]

/-- A group is well formed when something follows its one-character subtag. -/
def isExtension (group : List String) : Bool :=
  match group with
  | s :: a :: _ => s.length == 1 && (s == "x" || 2 ≤ a.length)
  | _ => false

/-- Sorts variants and drops repeats. -/
def sortVariants (vs : List String) : List String :=
  (vs.mergeSort fun a b => decide (a ≤ b)).eraseDups

/-- Replaces an older language or region code by the one in use. -/
def preferred (t : Tag) : Tag :=
  let t :=
    if t.language == "sh" then
      { t with language := "sr", script := if t.script.isEmpty then "Latn" else t.script }
    else if t.language == "mo" then
      { t with language := "ro", region := if t.region.isEmpty then "MD" else t.region }
    else match replacedLanguages.lookup t.language with
      | some l => { t with language := l }
      | none => t
  match replacedRegions.lookup t.region with
  | some r => { t with region := r }
  | none => t

/-- Reads well-formed subtags. -/
def ofSubtags? (parts : List String) : Option Tag := do
  match parts with
  | [] => none
  | "x" :: a :: rest => some ⟨"", "", "", [], "x" :: a :: rest⟩
  | first :: rest =>
    let language ← language? first
    let (language, rest) ← takeExtended language rest
    let (script, rest) ← takeScript rest
    let (region, rest) ← takeRegion rest
    let (vs, rest) ← takeVariants rest
    let groups := groupExtensions rest
    if groups.all isExtension then
      let privateUse := groups.filter fun g => g.head? == some "x"
      let others := groups.filter fun g => g.head? != some "x"
      let sorted := others.mergeSort fun a b => decide (a.headD "" ≤ b.headD "")
      some (preferred ⟨language, script, region, sortVariants vs, (sorted ++ privateUse).flatten⟩)
    else none

/-- Reads a language tag; a text that is no registered tag is undetermined. -/
def parse (text : String) : Tag :=
  match subtags? text with
  | none => .undetermined
  | some parts =>
    let parts := match wholeTags.lookup ("-".intercalate parts) with
      | some whole => (subtags? whole).getD parts
      | none => parts
    (ofSubtags? parts).getD .undetermined

/-- The script that a tag is written in when it names none and its language has more
than one. -/
def Tag.likelyScript (t : Tag) : String :=
  if !t.script.isEmpty then t.script
  else if t.language == "el" then "Grek"
  else if t.language == "az" || t.language == "azj" then
    if t.region == "IR" || t.region == "IQ" then "Arab"
    else if t.region == "RU" then "Cyrl"
    else "Latn"
  else "Latn"

/-- The casing rules of a language. They belong to its usual script, so that Azeri in
Cyrillic letters follows the general rules. -/
def Tag.tailoring (t : Tag) : Text.Casing.Tailoring :=
  if t.language == "tr" || t.language == "az" || t.language == "azj" then
    if t.likelyScript == "Latn" then .turkic else .none
  else if t.language == "lt" then
    if t.likelyScript == "Latn" then .lithuanian else .none
  else if t.language == "el" then
    if t.likelyScript == "Grek" then .greek else .none
  else .none

end Stepwise.Language

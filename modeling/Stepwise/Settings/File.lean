import Stepwise.Json.Fault
import Stepwise.Toml.Document
import Stepwise.Yaml.Document

/-!
# Settings files

The format of a settings file goes by the extension of its name. Whatever the
format, a file is a table, and the names in it are compared without regard to case.
-/
namespace Stepwise

inductive SettingsFormat where
  | yaml
  | json
  | toml
  deriving DecidableEq, Repr

inductive SettingsTextFault where
  | yaml (fault : Yaml.Fault)
  | yamlValue (fault : Yaml.ValueFault)
  | yamlRoot (line : Nat) (tag : Yaml.Tag) (text : Option String)
  | json (fault : Json.SyntaxFault)
  | jsonNumber (digits : String)
  | jsonRoot (sort : String)
  | toml
  deriving DecidableEq, Repr

namespace SettingsTextFault

def tableType : String := "map[string]interface \x7b\x7d"

/-- The characters that fit into a number of octets. Of a character that is cut, every
octet is shown by the replacement character. -/
def cutOctets : Nat → List Char → List Char
  | _, [] => []
  | count, c :: rest =>
    if c.utf8Size ≤ count then c :: cutOctets (count - c.utf8Size) rest
    else List.replicate count '\ufffd'

/-- The text of a scalar in a message. A text of more than ten octets is cut. -/
def shown (text : String) : String :=
  " \x60" ++ (if text.utf8ByteSize ≤ 10 then text
    else String.ofList (cutOctets 7 text.toList) ++ "...") ++ "\x60"

def message : SettingsTextFault → String
  | yaml fault => fault.message
  | yamlValue fault => fault.message
  | yamlRoot line tag text =>
    Yaml.ValueFault.listed ["line " ++ toString line ++ ": cannot unmarshal " ++ tag.text ++
      (text.map shown).getD "" ++ " into " ++ tableType]
  | json fault => fault.message
  | jsonNumber digits =>
    "json: cannot unmarshal number " ++ digits ++ " into Go value of type float64"
  | jsonRoot sort => "json: cannot unmarshal " ++ sort ++ " into Go value of type " ++ tableType
  | toml => "toml: invalid document"

end SettingsTextFault

namespace SettingsFormat

/-- What follows the last dot in the last part of a path. -/
def extension (path : String) : String :=
  let name := path.toList.reverse.takeWhile (· != '/')
  if name.contains '.' then String.ofList (name.takeWhile (· != '.')).reverse else ""

def ofExtension? (extension : String) : Option SettingsFormat :=
  if extension == "yaml" || extension == "yml" then some yaml
  else if extension == "json" then some json
  else if extension == "toml" then some toml
  else none

/-- The table of a YAML document. Names are texts, whatever they look like. -/
def yamlTable (text : String) : Except SettingsTextFault SettingTable :=
  match Yaml.parse text with
  | .error e => .error (.yaml e)
  | .ok .empty => .ok []
  | .ok (.root root) =>
    match root.resolved with
    | .mapping _ _ members =>
      if !root.isExpandable then .error (.yamlValue .tooManyAliases)
      else
        let merging : Except Yaml.ValueFault Yaml.Merging := do
          Yaml.checkKeys members
          let m ← Yaml.addMembers false ⟨["<<"], []⟩ members
          Yaml.addMerges m members
        match merging with
        | .ok m => .ok (SettingValue.ofYamlMembers m.members)
        | .error e => .error (.yamlValue e)
    | .scalar line tag _ text =>
      if tag = .null then .ok [] else .error (.yamlRoot line tag (some text))
    | .sequence line tag _ => .error (.yamlRoot line tag none)
    | .reference line _ target => .error (.yamlRoot line target.tag none)

def jsonTable (text : String) : Except SettingsTextFault SettingTable :=
  match Json.parse text with
  | .error e => .error (.json e)
  | .ok (.object members) => (SettingValue.ofJsonMembers [] members).mapError .jsonNumber
  | .ok .null => .ok []
  | .ok v => .error (.jsonRoot v.sortName)

/-- The table of a file, its names in lower case. -/
def table (format : SettingsFormat) (text : String) : Except SettingsTextFault SettingTable :=
  (match format with
    | yaml => yamlTable text
    | json => jsonTable text
    | toml => (Toml.parse? text).elim (.error .toml) .ok).map SettingValue.lowerMembers

end SettingsFormat
end Stepwise

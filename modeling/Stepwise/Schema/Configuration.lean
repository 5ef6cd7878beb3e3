import Stepwise.Schema.Basic

/-!
# Schemas of configuration payloads

Six kinds of configuration are known, each with its schema.
-/
namespace Stepwise

inductive ConfigKind where
  | keywords
  | metatags
  | steps
  | vars
  | imports
  | messages
  deriving DecidableEq, Repr

namespace ConfigKind

/-- All kinds in the order of a registry file. -/
def all : List ConfigKind := [keywords, metatags, steps, vars, imports, messages]

def name : ConfigKind → String
  | keywords => "keywords"
  | metatags => "metatags"
  | steps => "steps"
  | vars => "variables"
  | imports => "imports"
  | messages => "messages"

def ofName? (name : String) : Option ConfigKind :=
  all.find? fun k => k.name == name

open Schema in
/-- A phrase: a text or a list of texts. -/
def phraseSchema : Schema :=
  oneOf [ofTypes [.string], arrayOf (ofTypes [.string]) 0]

open Schema in
/-- An entry of a keyword list with its own language and kind. -/
def keywordEntrySchema : Schema :=
  record [("language", ofTypes [.string]), ("kind", ofTypes [.string]),
    ("phrases", arrayOf (ofTypes [.string]) 1)] ["phrases"] []

open Schema in
/-- Keywords: a list of phrases and entries, or languages with their categories. -/
def keywordsSchema : Schema :=
  oneOf [arrayOf (oneOf [phraseSchema, keywordEntrySchema]) 0, mapOf (mapOf phraseSchema)]

open Schema in
/-- Metatags: a list of texts that are not empty. -/
def metatagsSchema : Schema :=
  arrayOf (text 1) 0

open Schema in
def stepSchema : Schema :=
  record [("key", ofTypes [.string]), ("label", ofTypes [.string]),
    ("keyword", ofTypes [.string]), ("insertText", ofTypes [.string]),
    ("documentation", ofTypes [.string, .null]), ("section", ofTypes [.string, .null]),
    ("sortText", ofTypes [.string, .null]), ("kind", ofTypes [.integer, .null])]
    ["label", "insertText"] []

open Schema in
/-- Steps: definitions by key, or a list of definitions with keys. -/
def stepsSchema : Schema :=
  oneOf [mapOf stepSchema, arrayOf (Schema.allOf [stepSchema, requiring ["key"]]) 0]

open Schema in
/-- Variables: plain values or named values by id. -/
def variablesSchema : Schema :=
  mapOf (oneOf [ofTypes [.string, .number, .boolean],
    record [("name", ofTypes [.string]),
      ("value", ofTypes [.string, .number, .boolean, .null])] ["name"] []])

open Schema in
/-- Imports: locations or targets by name. -/
def importsSchema : Schema :=
  mapOf (oneOf [text 1,
    record [("uri", ofTypes [.string]), ("path", ofTypes [.string]),
      ("lineNumber", wholeFrom 1)] [] [requiring ["uri"], requiring ["path"]]])

open Schema in
def messagesSchema : Schema :=
  mapOf (ofTypes [.string])

def schema : ConfigKind → Schema
  | keywords => keywordsSchema
  | metatags => metatagsSchema
  | steps => stepsSchema
  | vars => variablesSchema
  | imports => importsSchema
  | messages => messagesSchema

end ConfigKind
end Stepwise

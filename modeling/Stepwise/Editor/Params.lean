import Stepwise.Editor.Diagnostic
import Stepwise.Json.Compact
import Stepwise.Json.Reader
import Stepwise.Number.Word

/-!
# Parameters of editor requests

The parameters of a method are a record. Fields that are not used still have to be
of their type.
-/
namespace Stepwise.Editor

open Json (Reader)
open Json.Reader (field)

/-- A field that has to be of its type and is not used. -/
def checked {σ α : Type} (name : String) (fresh : α) (reader : Reader α) : Reader.Field σ where
  name := name
  read := fun s cs => (reader fresh cs).map fun (_, rest) => (s, rest)

def numberReader : Reader (Option Number.Binary64) := fun old cs =>
  match Reader.afterNull? (Json.skipSpace cs) with
  | some rest => some (old, rest)
  | none =>
    match Json.skipSpace cs with
    | [] => none
    | c :: rest =>
      if c == '-' || c.isDigit then
        let text := String.ofList (c :: rest.takeWhile Json.isNumberChar)
        (Number.parseFloat? text).map fun x => (some x, rest.dropWhile Json.isNumberChar)
      else none

/-- Passes over a value of any form that is well formed. -/
def anyReader : Reader Unit := fun _ cs =>
  (Json.compactValue false (cs.length + 2) cs).toOption.map fun (_, rest) => ((), rest)

def int32Reader : Reader Int :=
  Reader.intIn Number.least32 Number.greatest32

/-- Reads the token of a progress report, a number or a text. -/
def tokenReader : Reader Unit := fun _ cs =>
  match Json.spanValue (Json.skipSpace cs) with
  | none => none
  | some (value, rest) =>
    let text := String.ofList value
    if (int32Reader.run 0 text).isSome || (Reader.text.run "" text).isSome then some ((), rest)
    else none

def workToken {σ : Type} : Reader.Field σ :=
  checked "workDoneToken" none (Reader.optional () tokenReader)

/-- The token of a progress report on the result. -/
def partialToken {σ : Type} : Reader.Field σ :=
  checked "partialResultToken" none (Reader.optional () tokenReader)

def Position.reader : Reader Position :=
  Reader.record
    [field "line" Position.line (fun p n => { p with line := n }) Reader.word32,
      field "character" Position.character (fun p n => { p with character := n }) Reader.word32]

def Range.reader : Reader Range :=
  Reader.record
    [field "start" Range.start (fun r p => { r with start := p }) Position.reader,
      field "end" Range.stop (fun r p => { r with stop := p }) Position.reader]

/-- The severity with a number; any other number is an error. -/
def DiagnosticSeverity.ofNumber (x : Option Number.Binary64) : DiagnosticSeverity :=
  let known := [warning, information, hint]
  (known.find? fun s => x == Number.Binary64.ofFraction? false s.code 1).getD error

def DiagnosticSeverity.reader : Reader DiagnosticSeverity := fun old cs =>
  (numberReader none cs).map fun (x, rest) => (if x.isSome then ofNumber x else old, rest)

/-- Reads a place in another document, which is not used. -/
def relatedReader : Reader Unit :=
  Reader.record
    [checked "location" ()
        (Reader.record [checked "uri" "" Reader.text, checked "range" .zero Range.reader]),
      checked "message" "" Reader.text]

def Diagnostic.reader : Reader Diagnostic :=
  Reader.record
    [field "range" Diagnostic.range (fun d v => { d with range := v }) Range.reader,
      field "severity" Diagnostic.severity (fun d v => { d with severity := v })
        DiagnosticSeverity.reader,
      checked "code" () anyReader,
      checked "codeDescription" () (Reader.record [checked "href" "" Reader.text]),
      field "source" Diagnostic.source (fun d v => { d with source := v }) Reader.text,
      field "message" Diagnostic.message (fun d v => { d with message := v }) Reader.text,
      checked "tags" [] (Reader.list none numberReader),
      checked "relatedInformation" [] (Reader.list () relatedReader),
      checked "data" () anyReader]

structure OpenParams where
  uri : String
  version : Int
  text : String

def OpenParams.reader : Reader OpenParams :=
  Reader.record [field "textDocument" (fun p => p) (fun _ p => p)
    (Reader.record
      [field "uri" uri (fun p v => { p with uri := v }) Reader.text,
        checked "languageId" "" Reader.text,
        field "version" version (fun p v => { p with version := v }) int32Reader,
        field "text" text (fun p v => { p with text := v }) Reader.text])]

structure ChangeParams where
  uri : String
  version : Int
  texts : List String

def ChangeParams.changeReader : Reader String :=
  Reader.record
    [checked "range" .zero Range.reader, checked "rangeLength" 0 Reader.word32,
      field "text" (fun t => t) (fun _ t => t) Reader.text]

def ChangeParams.reader : Reader ChangeParams :=
  Reader.record
    [field "textDocument" (fun p => p) (fun _ p => p)
        (Reader.record
          [field "uri" uri (fun p v => { p with uri := v }) Reader.text,
            field "version" version (fun p v => { p with version := v }) int32Reader]),
      field "contentChanges" texts (fun p v => { p with texts := v })
        (Reader.list "" changeReader)]

structure PlaceParams where
  uri : String
  position : Position

def addressField {σ : Type} (get : σ → String) (set : σ → String → σ) : Reader.Field σ :=
  field "textDocument" get set (Reader.record [field "uri" (fun u => u) (fun _ u => u) Reader.text])

def PlaceParams.fields : List (Reader.Field PlaceParams) :=
  [addressField uri fun p v => { p with uri := v },
    field "position" position (fun p v => { p with position := v }) Position.reader]

def PlaceParams.completionReader : Reader PlaceParams :=
  Reader.record (fields ++
    [workToken, partialToken,
      checked "context" ()
        (Reader.record
          [checked "triggerCharacter" "" Reader.text, checked "triggerKind" none numberReader])])

def PlaceParams.hoverReader : Reader PlaceParams :=
  Reader.record (fields ++ [workToken])

def PlaceParams.foldingReader : Reader PlaceParams :=
  Reader.record (fields ++ [partialToken])

/-- Reads the address of a document that was closed. -/
def closedReader : Reader String :=
  Reader.record [addressField (fun u => u) fun _ u => u]

/-- Reads the address of a document whose links are wanted. -/
def linksReader : Reader String :=
  Reader.record [workToken, partialToken, addressField (fun u => u) fun _ u => u]

structure ActionParams where
  uri : String
  range : Range
  diagnostics : List Diagnostic

def ActionParams.reader : Reader ActionParams :=
  Reader.record
    [workToken, partialToken, addressField uri fun p v => { p with uri := v },
      field "context" (fun p => p) (fun _ p => p)
        (Reader.record
          [field "diagnostics" diagnostics (fun p v => { p with diagnostics := v })
              (Reader.list .blank Diagnostic.reader),
            checked "only" [] (Reader.list "" Reader.text)]),
      field "range" range (fun p v => { p with range := v }) Range.reader]

def emptyReader : Reader Unit :=
  Reader.record []

/-- Reads what an editor says about itself, none of which is used. -/
def initializeReader : Reader Unit :=
  Reader.record
    [workToken, checked "processId" 0 int32Reader,
      checked "clientInfo" ()
        (Reader.record [checked "name" "" Reader.text, checked "version" "" Reader.text]),
      checked "locale" "" Reader.text, checked "rootPath" "" Reader.text,
      checked "rootUri" "" Reader.text, checked "initializationOptions" () anyReader,
      checked "capabilities" ()
        (Reader.record
          [checked "workspace" () emptyReader, checked "textDocument" () emptyReader,
            checked "window" () emptyReader, checked "general" () emptyReader,
            checked "experimental" () anyReader]),
      checked "trace" "" Reader.text,
      checked "workspaceFolders" []
        (Reader.list ()
          (Reader.record [checked "uri" "" Reader.text, checked "name" "" Reader.text]))]

end Stepwise.Editor

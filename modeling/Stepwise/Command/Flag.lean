import Stepwise.Number.Power
import Stepwise.Settings.Load

/-!
# Flags of the command line

A flag has a long name and perhaps a single letter. A switch needs no value; every
other flag takes one, after an equals sign or as the next argument. Flags and plain
arguments may be mixed, and a double dash ends the flags.
-/
namespace Stepwise.Command

inductive FlagKind where
  | text
  | words
  | duration
  | switch
  deriving DecidableEq, Repr

/-- A flag. The shown default is empty when there is none to show. -/
structure Flag where
  name : String
  letter : Option Char
  kind : FlagKind
  usage : String
  shownDefault : String
  deriving DecidableEq, Repr

def Flag.title (f : Flag) : String :=
  match f.letter with
  | some c => "-" ++ c.toString ++ ", --" ++ f.name
  | none => "--" ++ f.name

inductive ValueFault where
  | duration (e : DurationError)
  | truth (text : String)
  | bareQuote (column : Nat)
  | openQuote (column : Nat)
  deriving DecidableEq, Repr

def ValueFault.message : ValueFault → String
  | duration e => e.message
  | truth text => "strconv.ParseBool: parsing " ++ Text.quoted text ++ ": invalid syntax"
  | bareQuote column =>
    "parse error on line 1, column " ++ toString column ++ ": bare \" in non-quoted field"
  | openQuote column =>
    "parse error on line 1, column " ++ toString column ++
      ": extraneous or missing \" in quoted-field"

inductive FlagError where
  | unknown (name : String)
  | unknownLetter (letter : Char) (letters : String)
  | needsValue (name : String)
  | letterNeedsValue (letter : Char) (letters : String)
  | malformed (argument : String)
  | badValue (value : String) (flag : Flag) (fault : ValueFault)
  deriving DecidableEq, Repr

def FlagError.message : FlagError → String
  | unknown name => "unknown flag: --" ++ name
  | unknownLetter letter letters =>
    "unknown shorthand flag: " ++ Text.quotedLetter letter ++ " in -" ++ letters
  | needsValue name => "flag needs an argument: --" ++ name
  | letterNeedsValue letter letters =>
    "flag needs an argument: " ++ Text.quotedLetter letter ++ " in -" ++ letters
  | malformed argument => "bad flag syntax: " ++ argument
  | badValue value flag fault =>
    "invalid argument " ++ Text.quoted value ++ " for " ++ Text.quoted flag.title ++ " flag: " ++
      fault.message

inductive FlagValue where
  | text (s : String)
  | words (ws : List String)
  | duration (d : Duration)
  | truth (b : Bool)
  deriving DecidableEq, Repr

/-- The rest of a quoted field after its opening quote: the field and what follows its
closing quote, or the column of the fault. A doubled quote stands for one. -/
def quotedField (column : Nat) : List Char → Except ValueFault (List Char × Nat × List Char)
  | [] => .error (.openQuote column)
  | '"' :: '"' :: rest =>
    match quotedField (column + 2) rest with
    | .ok (s, column, rest) => .ok ('"' :: s, column, rest)
    | .error e => .error e
  | '"' :: rest => .ok ([], column + 1, rest)
  | c :: rest =>
    match quotedField (column + c.utf8Size) rest with
    | .ok (s, column, rest) => .ok (c :: s, column, rest)
    | .error e => .error e

/-- The number of bytes of a text. -/
def byteCount (cs : List Char) : Nat :=
  Number.total (cs.map Char.utf8Size)

/-- Splits a line at its commas. A field may stand in double quotes; elsewhere quotes may
not occur. Columns count bytes. -/
def splitFields : Nat → Nat → List Char → Except ValueFault (List String)
  | 0, _, _ => .ok []
  | fuel + 1, column, '"' :: rest =>
    match quotedField (column + 1) rest with
    | .error e => .error e
    | .ok (field, column, ',' :: rest) =>
      match splitFields fuel (column + 1) rest with
      | .ok fields => .ok (String.ofList field :: fields)
      | .error e => .error e
    | .ok (field, _, []) => .ok [String.ofList field]
    | .ok (_, column, _) => .error (.openQuote (column - 1))
  | fuel + 1, column, cs =>
    let field := cs.takeWhile (· != ',')
    if field.contains '"' then
      .error (.bareQuote (column + byteCount (field.takeWhile (· != '"'))))
    else
      match cs.dropWhile (· != ',') with
      | [] => .ok [String.ofList field]
      | _ :: rest =>
        match splitFields fuel (column + byteCount field + 1) rest with
        | .ok fields => .ok (String.ofList field :: fields)
        | .error e => .error e

def readWords (value : String) : Except ValueFault (List String) :=
  let line := value.toList.takeWhile (· != '\n')
  if value.isEmpty then .ok [] else splitFields (line.length + 1) 1 line

def readTruth? (value : String) : Option Bool :=
  if ["1", "t", "T", "true", "TRUE", "True"].contains value then some true
  else if ["0", "f", "F", "false", "FALSE", "False"].contains value then some false
  else none

def Flag.read (f : Flag) (value : String) : Except ValueFault FlagValue :=
  match f.kind with
  | .text => .ok (.text value)
  | .words =>
    match readWords value with
    | .ok ws => .ok (.words ws)
    | .error e => .error e
  | .duration =>
    match Duration.parse value with
    | .ok d => .ok (.duration d)
    | .error e => .error (.duration e)
  | .switch =>
    match readTruth? value with
    | some b => .ok (.truth b)
    | none => .error (.truth value)

structure Parsed where
  values : List (String × FlagValue)
  arguments : List String
  deriving DecidableEq, Repr

namespace Parsed

def empty : Parsed := ⟨[], []⟩

/-- Sets a flag. The words of a list flag are added to those before; otherwise the last
value wins. -/
def set (p : Parsed) (name : String) (value : FlagValue) : Parsed :=
  let value := match p.values.lookup name, value with
    | some (.words before), .words ws => .words (before ++ ws)
    | _, value => value
  { p with values := (name, value) :: p.values }

def addArgument (p : Parsed) (argument : String) : Parsed :=
  { p with arguments := p.arguments ++ [argument] }

def isOn (p : Parsed) (name : String) : Bool :=
  p.values.lookup name == some (.truth true)

end Parsed

def setFlag (p : Parsed) (f : Flag) (value : String) : Except FlagError Parsed :=
  match f.read value with
  | .ok v => .ok (p.set f.name v)
  | .error e => .error (.badValue value f e)

/-- The result of one argument: what is parsed so far, and the arguments left. -/
abbrev Advance := Except FlagError (Parsed × List String)

/-- Sets a flag and goes on with some arguments. -/
def advance (p : Parsed) (f : Flag) (value : String) (rest : List String) : Advance :=
  (setFlag p f value).map fun p => (p, rest)

/-- Reads a long flag after its two dashes. -/
def readLong (flags : List Flag) (p : Parsed) (body : List Char) (rest : List String) : Advance :=
  match body with
  | [] => .error (.malformed "--")
  | c :: _ =>
    if c == '-' || c == '=' then .error (.malformed (String.ofList ('-' :: '-' :: body)))
    else
      let name := String.ofList (body.takeWhile (· != '='))
      match flags.find? fun f => f.name == name with
      | none => .error (.unknown name)
      | some f =>
        match body.dropWhile (· != '='), f.kind, rest with
        | _ :: value, _, rest => advance p f (String.ofList value) rest
        | [], .switch, rest => advance p f "true" rest
        | [], _, value :: rest => advance p f value rest
        | [], _, [] => .error (.needsValue name)

/-- Reads the letters after a single dash. A letter that takes a value takes the rest of
its argument, or the next one. -/
def readLetters (flags : List Flag) (p : Parsed) (rest : List String) : List Char → Advance
  | [] => .ok (p, rest)
  | c :: more =>
    match flags.find? fun f => f.letter == some c with
    | none => .error (.unknownLetter c (String.ofList (c :: more)))
    | some f =>
      match f.kind, more, rest with
      | _, '=' :: d :: value, rest => advance p f (String.ofList (d :: value)) rest
      | .switch, more, rest =>
        match setFlag p f "true" with
        | .ok p => readLetters flags p rest more
        | .error e => .error e
      | _, d :: value, rest => advance p f (String.ofList (d :: value)) rest
      | _, [], value :: rest => advance p f value rest
      | _, [], [] => .error (.letterNeedsValue c (String.ofList [c]))

/-- Reads arguments. Every step uses up at least one of them, so their number bounds the
steps. -/
def readArguments (flags : List Flag) : Nat → Parsed → List String → Except FlagError Parsed
  | 0, p, _ => .ok p
  | _, p, [] => .ok p
  | fuel + 1, p, argument :: rest =>
    let next : Advance := match argument.toList with
      | ['-', '-'] => .ok ({ p with arguments := p.arguments ++ rest }, [])
      | '-' :: '-' :: body => readLong flags p body rest
      | '-' :: c :: letters => readLetters flags p rest (c :: letters)
      | _ => .ok (p.addArgument argument, rest)
    match next with
    | .ok (p, rest) => readArguments flags fuel p rest
    | .error e => .error e

def parseFlags (flags : List Flag) (arguments : List String) : Except FlagError Parsed :=
  readArguments flags (arguments.length + 1) .empty arguments

end Stepwise.Command

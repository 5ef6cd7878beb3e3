import Stepwise.Toml.Scalar

/-!
# TOML documents

A document is a sequence of members and table headings. A member belongs to the
table of the last heading. No name is given two values, and a table has one heading;
a table that was only named on the way to another may still get its own.
-/
namespace Stepwise.Toml

/-- A table under construction. A closed table is an inline table, which takes no more
members; an array of tables grows by headings. -/
inductive Item where
  | value (v : SettingValue)
  | table (headed closed : Bool) (members : List (String × Item))
  | tables (elements : List (List (String × Item)))

/-- The members of a table under construction. -/
abbrev Items := List (String × Item)

mutual

def Item.finish : Item → SettingValue
  | .value v => v
  | .table _ _ members => .table (finishMembers members)
  | .tables elements => .list (finishTables elements)

def finishMembers : List (String × Item) → List (String × SettingValue)
  | [] => []
  | (name, item) :: rest => (name, item.finish) :: finishMembers rest

def finishTables : List (List (String × Item)) → List SettingValue
  | [] => []
  | members :: rest => .table (finishMembers members) :: finishTables rest

end

/-- Changes the member with a name, or adds it. -/
def alter (name : String) (f : Option Item → Option Item) : Items → Option Items
  | [] => (f none).map fun item => [(name, item)]
  | (n, item) :: rest =>
    if n == name then (f (some item)).map fun item => (n, item) :: rest
    else (alter name f rest).map fun rest => (n, item) :: rest

/-- Changes the table at a path of names. Tables on the way are made if they are missing,
and an array of tables stands for its last element. -/
def alterAt (path : List String) (f : Items → Option Items) (items : Items) : Option Items :=
  match path with
  | [] => f items
  | name :: path =>
    alter name (fun
      | none => (alterAt path f []).map (.table false false)
      | some (.table headed closed members) =>
        if closed then none else (alterAt path f members).map (.table headed closed)
      | some (.tables elements) =>
        match elements.reverse with
        | last :: before => (alterAt path f last).map fun last => .tables (before.reverse ++ [last])
        | [] => none
      | some (.value _) => none) items

/-- Gives a name its value; it may not have one already. -/
def define (name : String) (item : Item) (items : Items) : Option Items :=
  alter name (fun
    | none => some item
    | some _ => none) items

def openTable (name : String) (items : Items) : Option Items :=
  alter name (fun
    | none => some (.table true false [])
    | some (.table false false members) => some (.table true false members)
    | some _ => none) items

/-- Opens the next table of an array. -/
def openElement (name : String) (items : Items) : Option Items :=
  alter name (fun
    | none => some (.tables [[]])
    | some (.tables elements) => some (.tables (elements ++ [[]]))
    | some _ => none) items

/-- Drops a comment up to the end of its line. -/
def skipComment : List Char → Option (List Char)
  | '#' :: rest =>
    let body := rest.takeWhile (· != '\n')
    let body := if body.getLast? == some '\r' then body.dropLast else body
    if body.any isForbidden then none else some (rest.dropWhile (· != '\n'))
  | rest => some rest

/-- Drops white space, line ends and comments inside an array. -/
def skipFiller : Nat → List Char → Option (List Char)
  | 0, cs => some cs
  | fuel + 1, cs =>
    match skipBlank cs with
    | '#' :: rest => (skipComment ('#' :: rest)).bind (skipFiller fuel)
    | rest => some rest

/-- Gives the name at the end of a dotted key its value. -/
def defineAt (key : List String) (item : Item) (items : Items) : Option Items :=
  match key.reverse with
  | [] => none
  | name :: before => alterAt before.reverse (define name item) items

mutual

def readValue : Nat → List Char → Option (Item × List Char)
  | 0, _ => none
  | fuel + 1, cs =>
    match cs with
    | '"' :: rest => (readString ('"' :: rest)).map fun (s, rest) => (.value (.text s), rest)
    | '\'' :: rest => (readString ('\'' :: rest)).map fun (s, rest) => (.value (.text s), rest)
    | '[' :: rest => (readArray fuel rest).map fun (vs, rest) => (.value (.list vs), rest)
    | '\x7b' :: rest =>
      match skipSpace rest with
      | '\x7d' :: rest => some (.table false true [], rest)
      | rest => (readInline fuel [] rest).map fun (items, rest) => (.table false true items, rest)
    | cs =>
      let (word, rest) := spanWord cs
      (word? word).map fun v => (.value v, rest)

/-- Reads the items of an array up to its closing bracket. -/
def readArray : Nat → List Char → Option (List SettingValue × List Char)
  | 0, _ => none
  | fuel + 1, cs =>
    match skipFiller (cs.length + 1) cs with
    | none => none
    | some (']' :: rest) => some ([], rest)
    | some rest =>
      match readValue fuel rest with
      | none => none
      | some (item, rest) =>
        match skipFiller (rest.length + 1) rest with
        | some (',' :: rest) =>
          (readArray fuel rest).map fun (vs, rest) => (item.finish :: vs, rest)
        | some (']' :: rest) => some ([item.finish], rest)
        | _ => none

/-- Reads the members of an inline table up to its closing brace. -/
def readInline : Nat → Items → List Char → Option (Items × List Char)
  | 0, _, _ => none
  | fuel + 1, items, cs =>
    match readKey (cs.length + 1) cs with
    | some (key, '=' :: rest) =>
      match readValue fuel (skipSpace rest) with
      | none => none
      | some (item, rest) =>
        match defineAt key item items with
        | none => none
        | some items =>
          match skipSpace rest with
          | ',' :: rest => readInline fuel items rest
          | '\x7d' :: rest => some (items, rest)
          | _ => none
    | _ => none

end

/-- The rest after the end of a line, which may hold a comment. -/
def endOfLine (cs : List Char) : Option (List Char) :=
  match skipComment (skipSpace cs) with
  | some [] => some []
  | some ('\n' :: rest) => some rest
  | some ('\r' :: '\n' :: rest) => some rest
  | _ => none

/-- The document so far: its members, and the path of the table that is open. -/
structure Reading where
  items : Items
  path : List String

/-- Reads a heading after its first bracket. -/
def readHeading (r : Reading) (cs : List Char) : Option (Reading × List Char) :=
  let (isElement, cs) := match cs with
    | '[' :: rest => (true, rest)
    | cs => (false, cs)
  match readKey (cs.length + 1) cs with
  | none => none
  | some (key, rest) =>
    let rest? := if isElement then Json.afterWord? "]]" rest else Json.afterWord? "]" rest
    match rest?.bind endOfLine, key.reverse with
    | some rest, name :: before =>
      let openIt := if isElement then openElement name else openTable name
      (alterAt before.reverse openIt r.items).map fun items => (⟨items, key⟩, rest)
    | _, _ => none

def readMember (r : Reading) (cs : List Char) : Option (Reading × List Char) :=
  match readKey (cs.length + 1) cs with
  | some (key, '=' :: rest) =>
    match readValue (rest.length + 2) (skipSpace rest) with
    | none => none
    | some (item, rest) =>
      match endOfLine rest, alterAt r.path (defineAt key item) r.items with
      | some rest, some items => some ({ r with items }, rest)
      | _, _ => none
  | _ => none

def readLines : Nat → Reading → List Char → Option Reading
  | 0, _, _ => none
  | fuel + 1, r, cs =>
    match skipSpace cs with
    | [] => some r
    | '[' :: rest =>
      match readHeading r rest with
      | some (r, rest) => readLines fuel r rest
      | none => none
    | c :: rest =>
      if c == '#' || c == '\n' || c == '\r' then
        match endOfLine (c :: rest) with
        | some rest => readLines fuel r rest
        | none => none
      else
        match readMember r (c :: rest) with
        | some (r, rest) => readLines fuel r rest
        | none => none

def parse? (text : String) : Option SettingTable :=
  let cs := text.toList
  (readLines (cs.length + 1) ⟨[], []⟩ cs).map fun r => finishMembers r.items

end Stepwise.Toml

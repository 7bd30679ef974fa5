import Reckon.Toml.Statement

namespace Reckon.Toml

/-!
# Documents

A document holds what each key was given, under the path of the key.  A key is given one value,
except that a table which only came about on the way to another one may be defined once itself.
It keeps what it holds then, unless the key was last given an array: what the key is given takes
the place of an array.
-/

/-- A step on the way to an entry: into a table, or to one of an array of tables. -/
inductive PathStep where
  | key (key : Key)
  | item (index : Nat)
  deriving Repr, DecidableEq

/-- What stands at a path. -/
inductive Entry where
  | text (chars : List Char)
  | integer (number : Int)
  | boolean (truth : Bool)
  | other
  | table
  | tables (count : Nat)
  deriving Repr, DecidableEq

/--
What a key is given, by paths from the key: its own entry under the empty path, and the entries
below it if it is a table.
-/
abbrev Content := List (List PathStep × Entry)

namespace Content

/-- The content of a key that has nothing below it. -/
def ofEntry (entry : Entry) : Content :=
  [([], entry)]

/-- Put content at a path in place of what is there and below. -/
def assign (content : Content) (path : List PathStep) (value : Content) : Content :=
  (content.filter fun other => !path.isPrefixOf other.1) ++
    value.map fun entry => (path ++ entry.1, entry.2)

/-- Make the tables on the way to a key that are missing; nothing else may be in the way. -/
def openWay? (content : Content) : List PathStep → List Key → Option Content
  | _, [] => some content
  | path, key :: rest =>
      let inner := path ++ [.key key]
      match content.lookup inner with
      | none => openWay? (content ++ [(inner, .table)]) inner rest
      | some .table => openWay? content inner rest
      | some _ => none

/-- Give a field of a table its content. -/
def setField? (content : Content) (path : List Key) (value : Content) : Option Content := do
  let opened ← content.openWay? [] path.dropLast
  some (opened.assign (path.map .key) value)

end Content

/-- The entries of a document, and which keys are tables on the way and which hold arrays. -/
structure Document where
  entries : Content
  implicits : List (List Key)
  arrays : List (List Key)
  deriving Repr, DecidableEq

namespace Document

/-- A document without entries. -/
def empty : Document :=
  { entries := [], implicits := [], arrays := [] }

/-- The entry at a path. -/
def find? (document : Document) (path : List PathStep) : Option Entry :=
  document.entries.lookup path

/-- Put an entry at a path where there is none. -/
def put (document : Document) (path : List PathStep) (entry : Entry) : Document :=
  { document with entries := document.entries ++ [(path, entry)] }

/-- Put content at a path in place of what is there and below. -/
def assign (document : Document) (path : List PathStep) (content : Content) : Document :=
  { document with entries := document.entries.assign path content }

/-- Change how many tables an array of tables has. -/
def setCount (document : Document) (path : List PathStep) (count : Nat) : Document :=
  { document with
    entries :=
      document.entries.map fun other =>
        if other.1 = path then (path, .tables count) else other }

/-- Note that a key is a table on the way to another. -/
def addImplicit (document : Document) (path : List Key) : Document :=
  { document with implicits := path :: document.implicits }

/-- Note that a key was defined itself. -/
def removeImplicit (document : Document) (path : List Key) : Document :=
  { document with implicits := document.implicits.filter (· ≠ path) }

/-- Note whether a key holds an array; a key without a name stands for the table around it. -/
def setSort (document : Document) (context : List Key) (key : Key) (isArray : Bool) : Document :=
  let path := if key.isEmpty ∧ !context.isEmpty then context else context ++ [key]
  let others := document.arrays.filter (· ≠ path)
  { document with arrays := if isArray then path :: others else others }

/-- The table at a path, or the last one of an array of tables there. -/
def enter? (document : Document) (path : List PathStep) : Option (List PathStep) :=
  match document.find? path with
  | some .table => some path
  | some (.tables count) => some (path ++ [.item (count - 1)])
  | _ => none

/-- The way to the table of a key that is there. -/
def locate? (document : Document) : List PathStep → List Key → Option (List PathStep)
  | path, [] => some path
  | path, key :: rest => do
      let inner ← document.enter? (path ++ [.key key])
      document.locate? inner rest

/-- Give a key in a table its content. -/
def define?
    (document : Document)
    (context : List Key)
    (key : Key)
    (content : Content) :
    Option Document := do
  let outer ← document.locate? [] context
  let path := outer ++ [.key key]
  let name := context ++ [key]
  match document.find? path with
  | none => some (document.assign path content)
  | some _ =>
      if document.implicits.contains name then
        let defined := document.removeImplicit name
        some (if document.arrays.contains name then defined.assign path content else defined)
      else
        none

/-- Go into the tables of a key, making those that are missing. -/
def openParents?
    (document : Document) :
    List Key → List PathStep → List Key → Option (Document × List PathStep)
  | _, path, [] => some (document, path)
  | names, path, key :: rest => do
      let name := names ++ [key]
      let inner := path ++ [.key key]
      let document :=
        match document.find? inner with
        | some _ => document
        | none => (document.addImplicit name).put inner .table
      let entered ← document.enter? inner
      document.openParents? name entered rest

/-- Open a table. -/
def openTable? (document : Document) (path : List Key) : Option Document :=
  match path.getLast? with
  | none => none
  | some last => do
      let (document, _) ← document.openParents? [] [] path.dropLast
      document.define? path.dropLast last (.ofEntry .table)

/-- Open one more table of an array of tables. -/
def openItem? (document : Document) (path : List Key) : Option Document :=
  match path.getLast? with
  | none => none
  | some last => do
      let (document, outer) ← document.openParents? [] [] path.dropLast
      let inner := outer ++ [.key last]
      match document.find? inner with
      | none => some (document.put inner (.tables 1))
      | some (.tables count) => some (document.setCount inner (count + 1))
      | some _ => none

/-- Open the tables of a key with points in it, one after the other. -/
def openContext? (document : Document) (context : List Key) : List Key → Option Document
  | [] => some document
  | key :: rest => do
      let inner := context ++ [key]
      let document ← (document.addImplicit inner).openTable? inner
      document.openContext? inner rest

/-- Open the tables of a key with points in it; the last part is given its value there. -/
def openPath?
    (document : Document)
    (context path : List Key) :
    Option (Document × List Key × Key) :=
  match path.getLast? with
  | none => none
  | some key => do
      let document ← document.openContext? context path.dropLast
      some (document, context ++ path.dropLast, key)

/-- Give a key in a table content that is not an array. -/
def giveContent?
    (document : Document)
    (context : List Key)
    (key : Key)
    (content : Content) :
    Option (Document × Content) := do
  let document ← document.define? context key content
  some (document.setSort context key false, content)

mutual

/-- Give a key in a table a value; the content of the value is handed on. -/
def give?
    (document : Document)
    (context : List Key)
    (key : Key) :
    Expression → Option (Document × Content)
  | .text chars => document.giveContent? context key (.ofEntry (.text chars))
  | .integer number => document.giveContent? context key (.ofEntry (.integer number))
  | .float => document.giveContent? context key (.ofEntry .other)
  | .boolean truth => document.giveContent? context key (.ofEntry (.boolean truth))
  | .moment => document.giveContent? context key (.ofEntry .other)
  | .array items => do
      let document ← (document.setSort context key true).giveItems? context key items
      let document ← document.define? context key (.ofEntry .other)
      some (document.setSort context key true, .ofEntry .other)
  | .table fields => do
      let inner := context ++ [key]
      let document ← (document.addImplicit inner).openTable? inner
      let (document, content) ← document.giveFields? inner (.ofEntry .table) fields
      document.giveContent? context key content

/-- Take in the tables among the items of an array. -/
def giveItems?
    (document : Document)
    (context : List Key)
    (key : Key) :
    List Expression → Option Document
  | [] => some document
  | item :: rest => do
      let document ← document.giveItem? context key item
      document.giveItems? context key rest

/-- Take in an item of an array. -/
def giveItem?
    (document : Document)
    (context : List Key)
    (key : Key) :
    Expression → Option Document
  | .array items => (document.setSort context key true).giveItems? context key items
  | .table fields => do
      let inner := context ++ [key]
      let document ← (document.addImplicit inner).openItem? inner
      let (document, _) ← document.giveFields? inner (.ofEntry .table) fields
      some document
  | _ => some document

/-- Give the fields of a table their values, in the document and in the content of the table. -/
def giveFields?
    (document : Document)
    (context : List Key)
    (content : Content) :
    List (List Key × Expression) → Option (Document × Content)
  | [] => some (document, content)
  | (path, value) :: rest => do
      let (document, inner, key) ← document.openPath? context path
      let (document, given) ← document.give? inner key value
      let content ← content.setField? path given
      document.giveFields? context content rest

end

/-- Take in a statement, seen from the table that is open; the result has the table open then. -/
def take? (document : Document) (context : List Key) : Statement → Option (Document × List Key)
  | .header path => do
      let document ← document.openTable? path
      some (document.setSort path [] false, path)
  | .arrayHeader path => do
      let document ← document.openItem? path
      some (document.setSort path [] false, path)
  | .assignment path value => do
      let (document, inner, key) ← document.openPath? context path
      let (document, _) ← document.give? inner key value
      some (document, context)

/-- Take in statements one after the other. -/
def takeAll? (document : Document) (context : List Key) : List Statement → Option Document
  | [] => some document
  | statement :: rest => do
      let (document, context) ← document.take? context statement
      document.takeAll? context rest

/-- The document of a file. -/
def read? (text : List Char) : Option Document := do
  let statements ← statements? text
  empty.takeAll? [] statements

/-- The entries of a table, each with its key. -/
def fields (document : Document) (path : List PathStep) : List (Key × Entry) :=
  document.entries.filterMap fun entry =>
    match path.isPrefixOf entry.1, entry.1.drop path.length with
    | true, [.key key] => some (key, entry.2)
    | _, _ => none

end Document

end Reckon.Toml

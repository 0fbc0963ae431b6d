import TableDiff.Config
import TableDiff.Config.Toml.Scalar

/-!
# Statements of a configuration file

A field is set by `field = value`.  A mode can also be chosen as the only key of the field's table,
with nothing in it, and such a table can be written in all the ways of TOML:

* in place, `field = { mode = {} }`;
* by a dotted key, `field.mode = {}`;
* below a header, `[field]` and then `mode = {}`;
* by a header of its own, `[field.mode]`, with no entry below it.

An empty list `[]` has nothing in it either.  Everything else that TOML allows, such as lists of
tables, longer keys, truth values, floats and dates, gives no field a value that it can take, so it
is refused unread.
-/

namespace TableDiff.Toml

/-- A key of one part, or of two parts with a dot between them. -/
inductive Key where
  | plain (name : String)
  | dotted (table name : String)

/-- What a key is given. -/
inductive Value where
  | setting (s : Setting)
  | nothing

inductive Statement where
  /-- A field is set, with no header in front of it. -/
  | entry (field : String) (setting : Setting)
  /-- A header opens the table of a field. -/
  | header (field : String)
  /-- A mode of a field is chosen by a header or below one. -/
  | choice (field mode : String)

/-- Where an entry stands: in front of all headers, below the header of a field, or below the header
of a mode. -/
inductive Place where
  | top
  | belowField (field : String)
  | belowMode

/-- What an entry says at its place; the table of a mode takes no entry. -/
def Place.statement? : Place → Key → Value → Option Statement
  | top, .plain field, .setting s => some (.entry field s)
  | top, .dotted field mode, .nothing => some (.entry field (.text mode))
  | belowField field, .plain mode, .nothing => some (.choice field mode)
  | _, _, _ => none

/-! ## Space -/

def readChar? (c : Char) : List Char → Option (List Char)
  | d :: rest => if c = d then some rest else none
  | [] => none

/-- Drops blanks, a comment and a line end; nothing else may stand on the rest of a line. -/
def finishLine? (cs : List Char) : Option (List Char) :=
  let rest := cs.dropWhile isBlank
  let rest := match rest with
    | '#' :: comment => comment.dropWhile isPlain
    | _ => rest
  if rest = [] then some [] else dropLineEnd? rest

/-- Drops blanks, and comments with the line ends behind them. -/
def dropLines : (fuel : Nat) → List Char → List Char
  | 0, cs => cs
  | fuel + 1, cs => match finishLine? cs with
    | some rest => dropLines fuel rest
    | none => cs.dropWhile isBlank

/-! ## Keys and values -/

def readName? : List Char → Option (String × List Char)
  | '\x22' :: rest => (readBasic? (rest.length + 1) rest).map fun (text, rest) =>
    (String.ofList text, rest)
  | '\x27' :: rest => (readLiteral? rest).map fun (text, rest) => (String.ofList text, rest)
  | cs =>
    let name := cs.takeWhile isBareKey
    if name = [] then none else some (String.ofList name, cs.drop name.length)

/-- Reads a key and the blanks around it. -/
def readKey? (cs : List Char) : Option (Key × List Char) := do
  let (name, rest) ← readName? (cs.dropWhile isBlank)
  match rest.dropWhile isBlank with
  | '.' :: rest =>
    let (inner, rest) ← readName? (rest.dropWhile isBlank)
    some (.dotted name inner, rest.dropWhile isBlank)
  | rest => some (.plain name, rest)

/-- Reads an empty table, which stands on one line, or an empty list, which may hold comments. -/
def readNothing? : List Char → Option (List Char)
  | '\x7b' :: rest => readChar? '\x7d' (rest.dropWhile isBlank)
  | '[' :: rest => readChar? ']' (dropLines rest.length rest)
  | _ => none

/-- Reads a table on one line, whose only key is a name with nothing in it. -/
def readChosen? : List Char → Option (String × List Char)
  | '\x7b' :: rest => do
    let (name, rest) ← readName? (rest.dropWhile isBlank)
    let rest ← readChar? '=' (rest.dropWhile isBlank)
    let rest ← readNothing? (rest.dropWhile isBlank)
    let rest ← readChar? '\x7d' (rest.dropWhile isBlank)
    some (name, rest)
  | _ => none

def readValue? (cs : List Char) : Option (Value × List Char) :=
  match readNothing? cs with
  | some rest => some (.nothing, rest)
  | none => match (readChosen? cs).or (readString? cs) with
    | some (text, rest) => some (.setting (.text text), rest)
    | none => (readInteger? cs).map fun (n, rest) => (.setting (.number n), rest)

/-! ## Lines -/

/-- Reads a key, an equality sign and a value, all on the line on which the value begins. -/
def readSetting? (place : Place) (cs : List Char) : Option (Statement × List Char) := do
  let (key, rest) ← readKey? cs
  let rest ← readChar? '=' rest
  let (value, rest) ← readValue? (rest.dropWhile isBlank)
  let statement ← place.statement? key value
  some (statement, rest)

/-- Reads a key in square brackets. -/
def readHeader? (cs : List Char) : Option (Key × List Char) := do
  let rest ← readChar? '[' cs
  let (key, rest) ← readKey? rest
  let rest ← readChar? ']' rest
  some (key, rest)

/-- Reads a header or an entry, and says where the next entry stands. -/
def readStatement? (place : Place) (cs : List Char) :
    Option (Statement × Place × List Char) :=
  match readHeader? cs with
  | some (.plain field, rest) => some (.header field, .belowField field, rest)
  | some (.dotted field mode, rest) => some (.choice field mode, .belowMode, rest)
  | none => (readSetting? place cs).map fun (statement, rest) => (statement, place, rest)

/-- Reads the lines of a document, at most `fuel` of them. -/
def readStatements? : (fuel : Nat) → Place → List Char → Option (List Statement)
  | 0, _, cs => if cs = [] then some [] else none
  | fuel + 1, place, cs =>
    if cs = [] then some []
    else match finishLine? cs with
      | some rest => readStatements? fuel place rest
      | none => do
        let (statement, place, rest) ← readStatement? place (cs.dropWhile isBlank)
        let rest ← finishLine? rest
        let statements ← readStatements? fuel place rest
        some (statement :: statements)

end TableDiff.Toml

import TableDiff.Config.Toml.Statement

/-!
# Configuration files

A configuration file is a TOML document whose keys are the fields of a configuration, each set at
most once.
-/

namespace TableDiff.Toml

namespace Statement

def setting? : Statement → Option (String × Setting)
  | entry field setting => some (field, setting)
  | header _ => none
  | choice field mode => some (field, .text mode)

def header? : Statement → Option String
  | header field => some field
  | _ => none

def choiceField? : Statement → Option String
  | choice field _ => some field
  | _ => none

end Statement

/-- A header stands once at most, and a mode is chosen in the table that it opens, by an entry below
it or by a header anywhere. -/
def headersFit (statements : List Statement) : Bool :=
  let headers := statements.filterMap Statement.header?
  decide headers.Nodup && headers.all (statements.filterMap Statement.choiceField?).contains

/-- The settings of a document, in its order; a byte order mark in front of it is skipped. -/
def settings? (document : String) : Option (List (String × Setting)) := do
  let cs := match document.toList with
    | '\ufeff' :: rest => rest
    | cs => cs
  let statements ← readStatements? cs.length .top cs
  if headersFit statements then some (statements.filterMap Statement.setting?) else none

end TableDiff.Toml

namespace TableDiff.Config

/-- The configuration that a document describes. -/
def ofToml (document : String) : Except MatchError Config :=
  match (Toml.settings? document).bind ofSettings? with
  | none => .error .configSyntax
  | some config => do
    config.validate
    return config

/-- The configuration in a file, given its bytes if there is such a file. -/
def ofFile (bytes? : Option ByteArray) : Except MatchError Config :=
  match bytes?.bind String.fromUTF8? with
  | none => .error .configUnreadable
  | some document => ofToml document

end TableDiff.Config

import LiteSql.Toml.Reader

/-!
# Settings of the command

Settings are kept in a TOML file with the keys `color`, `show_params` and `format`. Keys
that are missing keep their defaults and other keys are ignored.
-/

namespace LiteSql

/-- How a statement is printed. -/
inductive OutputFormat
  /-- The text of the statement, then a line per bound value. -/
  | text
  /-- A JSON object. -/
  | json
deriving DecidableEq

namespace OutputFormat

def name : OutputFormat → String
  | .text => "text"
  | .json => "json"

def ofName? (name : String) : Option OutputFormat :=
  if name = "text" then some .text
  else if name = "json" then some .json
  else none

/-- Reads a name; the case of ASCII letters may be ignored. -/
def ofNameWith? (ignoreCase : Bool) (name : String) : Option OutputFormat :=
  ofName? (if ignoreCase then String.ofList (name.toList.map Char.toLower) else name)

/-- What is said about a name that is no format. -/
def unknownMessage (name : String) : Text :=
  "invalid variant: ".toList ++ name.toList

/-- A format is a string, or a table with its name as the only key and nothing in it. -/
def ofToml? : Toml → Option OutputFormat
  | .string name => ofName? name
  | .table _ [(name, .table _ [])] => ofName? name
  | .table _ [(name, .array [])] => ofName? name
  | _ => none

end OutputFormat

/-- What the command can be told to do by default. -/
structure Settings where
  color : Bool := true
  /-- Whether bound values are printed after the statement. -/
  showParams : Bool := true
  format : OutputFormat := .text
deriving DecidableEq

namespace Settings

/-- The value of a key, or its default when the key is missing. -/
def entry? {α : Type} (read : Toml → Option α) (default : α) : Option Toml → Option α
  | none => some default
  | some v => read v

def boolOfToml? : Toml → Option Bool
  | .bool b => some b
  | _ => none

def ofToml? (t : Toml.Entries) : Option Settings := do
  let defaults : Settings := {}
  let color ← entry? boolOfToml? defaults.color (t.get? "color")
  let showParams ← entry? boolOfToml? defaults.showParams (t.get? "show_params")
  let format ← entry? OutputFormat.ofToml? defaults.format (t.get? "format")
  return { color, showParams, format }

/-- Reads the text of a settings file. -/
def ofText? (text : String) : Option Settings := do
  ofToml? (← Toml.ofText? text)

end Settings

end LiteSql

import LiteSql.Command.Arguments
import LiteSql.Command.Reading
import LiteSql.Command.Style
import LiteSql.Json.Printer
import LiteSql.Json.Reader
import LiteSql.Returning
import LiteSql.Statement.Bulk
import LiteSql.Statement.Change
import LiteSql.Statement.Select
import LiteSql.Tree.Hint
import LiteSql.Tree.Query
import LiteSql.Tree.Schema

/-!
# Running the command

A call reads its settings, then its tree, compiles it and prints the statement. What it
needs from outside is in `World`, over any monad, so that a call can also be run on files
in memory.
-/

namespace LiteSql.Command

/-- What a call can see of its surroundings. -/
structure World (m : Type → Type) where
  /-- Reads a file by its name. -/
  read : String → m Reading
  /-- All of standard input. -/
  input : m Reading
  /-- The value of a variable of the environment. -/
  lookUp : String → Option String
  /-- The directory of the user's settings. -/
  settingsFolder : Option String
  /-- Whether the output goes to a terminal. -/
  onTerminal : Bool

/-- The variable that names the settings file. -/
def settingsVariable : String := "QAIL_SQLITE_CONFIG"

/-- The place of the settings file in the directory of the user's settings. -/
def settingsFile (folder : String) : String :=
  folder ++ "/qail-sqlite/config.toml"

def versionText : Text := "qail-sqlite 0.1.0\n".toList

def helpText : Text :=
  ("Usage: qail-sqlite [OPTIONS] <COMMAND> <INPUT>\n\n" ++
    "Commands: select, update-all, delete-all, ddl, returning\n" ++
    "Options: --config <CONFIG>, --format <FORMAT>, --no-color, --no-params\n").toList

/-- What a call prints, and its exit code. -/
structure Outcome where
  code : UInt8
  output : Text := []
  errors : Text := []

/-- Arguments that make no sense. -/
def Outcome.misused : Outcome := { code := 2, errors := "error: invalid arguments\n".toList }

/-- Why a call failed. -/
inductive Failure
  | noSettings (name : String)
  | settingsUnreadable (why : ReadFailure)
  | badSettings (name : String)
  | inputUnreadable (name : String) (why : ReadFailure)
  | badTree (name : String)
  | refused (error : Error)

def Failure.message : Failure → Text
  | .noSettings name => "Configuration error: ".toList ++ name.toList ++ " not found".toList
  | .settingsUnreadable why =>
    "IO error: ".toList ++ why.message ++ ": ".toList ++ why.message
  | .badSettings name =>
    "Configuration error: ".toList ++ name.toList ++
      ": Configuration error: TOML parse error".toList
  | .inputUnreadable name why =>
    "Failed to read ".toList ++ (if name = "-" then "stdin".toList else name.toList) ++
      ": ".toList ++ why.message
  | .badTree name => "Invalid tree in ".toList ++ name.toList
  | .refused error => error.message

/-- Whether variables or the terminal ask for colours. -/
def wantsColor (lookUp : String → Option String) (onTerminal : Bool) : Bool :=
  if (lookUp "CLICOLOR_FORCE").any (· != "0") then true
  else if (lookUp "NO_COLOR").isSome then false
  else onTerminal && (lookUp "CLICOLOR").all (· != "0")

/-- The line about a failure. -/
def Failure.line (failure : Failure) (colored : Bool) : Text :=
  Style.failure.apply colored "Error:".toList ++ ' ' :: (failure.message ++ ['\n'])

/-- The settings in a file that has been read. -/
def settingsOf (name : String) : Reading → Except Failure Settings
  | .error why => .error (.settingsUnreadable why)
  | .ok text =>
    match Settings.ofText? text with
    | some settings => .ok settings
    | none => .error (.badSettings name)

/-- The settings of a call. A file that is asked for has to be there. -/
def loadSettings {m : Type → Type} [Monad m] (world : World m) (asked : Option String) :
    m (Except Failure Settings) := do
  match asked with
  | some name =>
    let reading ← world.read name
    return if reading.found then settingsOf name reading else .error (.noSettings name)
  | none =>
    match world.settingsFolder with
    | none => return .ok {}
    | some folder =>
      let reading ← world.read (settingsFile folder)
      return if reading.found then settingsOf (settingsFile folder) reading else .ok {}

/-- The settings after the options of a call. -/
def Options.override (options : Options) (settings : Settings) : Settings where
  color := settings.color && !options.noColor
  showParams := settings.showParams && !options.noParams
  format := options.format.getD settings.format

/-- The lines of bound values from number `n` on. -/
def paramLines (colored : Bool) (n : Nat) : List Value → Text
  | [] => []
  | v :: vs =>
    "  ".toList ++ placeholder n ++ " = ".toList ++ Style.value.apply colored v.describe ++
      '\n' :: paramLines colored (n + 1) vs

/-- The statement as text. -/
def compiledText (colored showParams : Bool) (c : Compiled) : Text :=
  Style.statement.apply colored c.sql.toList ++ '\n' ::
    (if showParams && !c.params.isEmpty then
      '\n' :: (Style.heading.apply colored "Parameters:".toList ++
        '\n' :: paramLines colored 1 c.params)
    else [])

/-- The statement as JSON. -/
def compiledJson (c : Compiled) : Json :=
  .object [("sql", .string c.sql), ("params", .array (c.params.map Value.toJson))]

/-- A statement and its hint as text. -/
def splitText (colored : Bool) (statement : String) (hint : Option ReturningHint) : Text :=
  Style.statement.apply colored statement.toList ++ '\n' ::
    (match hint with
      | none => Style.remark.apply colored "(no RETURNING hint)".toList ++ ['\n']
      | some h =>
        '\n' :: (Style.heading.apply colored "Re-fetch after".toList ++
          ' ' :: (Style.operation.apply colored h.operation.keyword.toList ++ " on ".toList ++
          Style.table.apply colored h.tableDescription ++ "\n  ".toList ++
          Style.value.apply colored (Text.joined ", " (h.columns.map String.toList)) ++ ['\n'])))

/-- A hint as JSON, with its keys sorted. -/
def hintJson (h : ReturningHint) : Json :=
  .object [("columns", Json.ofStrings h.columns), ("operation", h.operation.toJson),
    ("prefix", Json.ofOption .string h.table.schema), ("table", .string h.table.name)]

/-- A statement and its hint as JSON. -/
def splitJson (statement : String) (hint : Option ReturningHint) : Json :=
  .object [("returning", Json.ofOption hintJson hint), ("statement", .string statement)]

/-- What is printed about a compiled statement. -/
def printCompiled (settings : Settings) (colored : Bool) (c : Compiled) : Text :=
  match settings.format with
  | .json => (compiledJson c).pretty ++ ['\n']
  | .text => compiledText colored settings.showParams c

/-- What is printed about a statement that was split. -/
def printSplit (settings : Settings) (colored : Bool) (statement : String)
    (hint : Option ReturningHint) : Text :=
  match settings.format with
  | .json => (splitJson statement hint).pretty ++ ['\n']
  | .text => splitText colored statement hint

/-- Reads the tree of an action. -/
def readTree {m : Type → Type} [Monad m] {α : Type} (world : World m) (name : String)
    (decode : Json → Option α) : m (Except Failure α) := do
  let reading ← if name = "-" then world.input else world.read name
  match reading with
  | .error why => return .error (.inputUnreadable name why)
  | .ok text =>
    match (Json.ofLimitedText? text).bind decode with
    | some tree => return .ok tree
    | none => return .error (.badTree name)

/-- Reads a tree, compiles it and prints the statement. -/
def compileTree {m : Type → Type} [Monad m] {α : Type} (world : World m) (settings : Settings)
    (colored : Bool) (name : String) (decode : Json → Option α)
    (compile : α → Except Error Compiled) : m (Except Failure Text) := do
  let tree ← readTree world name decode
  return do
    let compiled ← (compile (← tree)).mapError .refused
    return printCompiled settings colored compiled

/-- Performs an action and gives what it prints. -/
def perform {m : Type → Type} [Monad m] (world : World m) (settings : Settings)
    (colored : Bool) : Action → m (Except Failure Text)
  | .select input => compileTree world settings colored input Query.ofJson? Query.compileSelect
  | .updateAll input =>
    compileTree world settings colored input Query.ofJson? Query.compileUpdateAll
  | .deleteAll input =>
    compileTree world settings colored input Query.ofJson? Query.compileDeleteAll
  | .schemaChange input =>
    compileTree world settings colored input SchemaChange.ofJson? SchemaChange.compile
  | .splitReturning sql => return do
    let (statement, hint) ← (splitReturning sql).mapError .refused
    return printSplit settings colored statement hint

/-- The end of a call that was understood. -/
def Outcome.ofResult (colored : Bool) : Except Failure Text → Outcome
  | .ok output => { code := 0, output }
  | .error failure => { code := 1, errors := failure.line colored }

/-- Runs a call with its options. The settings file is named by an option, or else by a
variable, which may not be empty. -/
def runWith {m : Type → Type} [Monad m] (world : World m) (options : Options) (action : Action) :
    m Outcome := do
  let asked := options.config.orElse fun _ => world.lookUp settingsVariable
  let wanted := wantsColor world.lookUp world.onTerminal
  if asked = some "" then return .misused
  match ← loadSettings world asked with
  | .error failure => return .ofResult wanted (.error failure)
  | .ok settings =>
    let settings := options.override settings
    let colored := wanted && settings.color
    let result ← perform world settings colored action
    return .ofResult colored result

/-- Runs a call. -/
def run {m : Type → Type} [Monad m] (world : World m) (args : List String) : m Outcome := do
  match parse? {} args with
  | none => return .misused
  | some .version => return { code := 0, output := versionText }
  | some .help => return { code := 0, output := helpText }
  | some (.perform options action) => runWith world options action

end LiteSql.Command

import LiteSql.Settings

/-!
# Arguments of the command

Options come first, then the name of an action and its one operand. Options with a value
take it from the rest of their argument or from the next one; a value in an argument of
its own does not start with a dash, unless it is a single dash. No option is given twice.
After `--` the operand may be any text.
-/

namespace LiteSql.Command

/-- What the command is asked to do. The trees are in a file, or `-` for standard input. -/
inductive Action
  | select (input : String)
  | updateAll (input : String)
  | deleteAll (input : String)
  | schemaChange (input : String)
  | splitReturning (sql : String)
deriving DecidableEq

/-- The action with a name. -/
def Action.ofName? : String → Option (String → Action)
  | "select" => some .select
  | "update-all" => some .updateAll
  | "delete-all" => some .deleteAll
  | "ddl" => some .schemaChange
  | "returning" => some .splitReturning
  | _ => none

/-- The options of a call. -/
structure Options where
  config : Option String := none
  format : Option OutputFormat := none
  noColor : Bool := false
  noParams : Bool := false
deriving DecidableEq

/-- What a call asks for. -/
inductive Request
  | perform (options : Options) (action : Action)
  | version
  | help
deriving DecidableEq

/-- An option, apart from its value. -/
inductive Flag
  | config
  | format
  | noColor
  | noParams
  | version
  | help
deriving DecidableEq

def Flag.ofLongName? : String → Option Flag
  | "config" => some .config
  | "format" => some .format
  | "no-color" => some .noColor
  | "no-params" => some .noParams
  | "version" => some .version
  | "help" => some .help
  | _ => none

def Flag.ofLetter? : Char → Option Flag
  | 'c' => some .config
  | 'f' => some .format
  | 'V' => some .version
  | 'h' => some .help
  | _ => none

def Flag.takesValue : Flag → Bool
  | .config | .format => true
  | _ => false

/-- An argument that may name an option: it starts with a dash and is not just one. -/
def isOption (arg : String) : Bool :=
  match arg.toList with
  | '-' :: _ :: _ => true
  | _ => false

/-- Sets an option with a value that is not set yet. -/
def Options.setValue? (o : Options) (flag : Flag) (value : String) : Option Options :=
  match flag with
  | .config =>
    if o.config.isSome || value.isEmpty then none else some { o with config := some value }
  | .format =>
    if o.format.isSome then none
    else (OutputFormat.ofName? value).map fun f => { o with format := some f }
  | _ => none

/-- Sets an option without a value that is not set yet. -/
def Options.set? (o : Options) (flag : Flag) : Option Options :=
  match flag with
  | .noColor => if o.noColor then none else some { o with noColor := true }
  | .noParams => if o.noParams then none else some { o with noParams := true }
  | _ => none

/-- An argument that names an option: the option, and the value that is in the argument. -/
def splitOption? (arg : String) : Option (Flag × Option String) :=
  match arg.toList with
  | '-' :: '-' :: rest =>
    let name := rest.takeWhile (· != '=')
    (Flag.ofLongName? (String.ofList name)).map fun flag =>
      (flag, match rest.dropWhile (· != '=') with
        | [] => none
        | _ :: value => some (String.ofList value))
  | '-' :: letter :: rest =>
    (Flag.ofLetter? letter).map fun flag =>
      (flag, match flag.takesValue, rest with
        | true, '=' :: value => some (String.ofList value)
        | true, c :: value => some (String.ofList (c :: value))
        | _, _ => none)
  | _ => none

/-- The operand of an action. -/
def operand? : List String → Option (Option String)
  | ["--help"] | ["-h"] => some none
  | [value] => if isOption value then none else some (some value)
  | ["--", value] => some (some value)
  | [value, "--"] => if isOption value then none else some (some value)
  | _ => none

/-- Reads the arguments; `none` if they make no sense. -/
def parse? (options : Options) : List String → Option Request
  | [] => none
  | [arg] =>
    match splitOption? arg with
    | some (.version, none) => some .version
    | some (.help, none) => some .help
    | _ => none
  | arg :: next :: rest =>
    if isOption arg then
      match splitOption? arg with
      | some (.version, none) => some .version
      | some (.help, none) => some .help
      | some (flag, some value) => do
        let options ← options.setValue? flag value
        parse? options (next :: rest)
      | some (flag, none) =>
        if flag.takesValue then
          if isOption next then none
          else do
            let options ← options.setValue? flag next
            parse? options rest
        else do
          let options ← options.set? flag
          parse? options (next :: rest)
      | none => none
    else
      match Action.ofName? arg, operand? (next :: rest) with
      | some action, some (some value) => some (.perform options (action value))
      | some _, some none => some .help
      | _, _ => none

end LiteSql.Command

import DocMarkup.Files.Path

/-!
What a command line asks for.

Options take one value and are given at most once. Their value follows, or is attached:
`--config c.yaml`, `--config=c.yaml`, `-c c.yaml`, `-cc.yaml`, `-c=c.yaml`. After `--` there
are no options.
-/

namespace DocMarkup.CommandLine

inductive Request
  | render (repository document : Path) (config sections : Option Path)
      (owner : Option String)
  | tokens (document : Path)
  | hierarchy (repository : Path) (typeName : String) (config : Option Path)
  | version
  | help
  deriving DecidableEq, Repr

inductive UsageError
  | noCommand
  | unknownCommand (name : String)
  | unknownOption (option : String)
  | missingValue (option : String)
  | repeatedOption (option : String)
  | unexpectedArgument (argument : String)
  | missingArgument (name : String)
  deriving DecidableEq, Repr

namespace UsageError

def message : UsageError → String
  | noCommand => "a command is required"
  | unknownCommand name => "unrecognized command '" ++ name ++ "'"
  | unknownOption option => "unexpected option '" ++ option ++ "'"
  | missingValue option => "option '--" ++ option ++ "' needs a value"
  | repeatedOption option => "option '--" ++ option ++ "' is given more than once"
  | unexpectedArgument argument => "unexpected argument '" ++ argument ++ "'"
  | missingArgument name => "argument '" ++ name ++ "' is missing"

end UsageError

abbrev OptionName := String × Char

inductive Command
  | render
  | tokens
  | hierarchy
  deriving DecidableEq, Repr

namespace Command

def ofName? : String → Option Command
  | "render" => some render
  | "tokens" => some tokens
  | "hierarchy" => some hierarchy
  | _ => none

def options : Command → List OptionName
  | render => [("repository", 'r'), ("config", 'c'), ("sections", 's'), ("owner", 'o')]
  | tokens => []
  | hierarchy => [("repository", 'r'), ("config", 'c')]

end Command

structure Arguments where
  values : List (String × String) := []
  operand : Option String := none

namespace Arguments

def setValue (arguments : Arguments) (option value : String) : Except UsageError Arguments :=
  if (arguments.values.lookup option).isSome then .error (.repeatedOption option)
  else .ok { arguments with values := arguments.values ++ [(option, value)] }

def setOperand (arguments : Arguments) (operand : String) : Except UsageError Arguments :=
  if arguments.operand.isSome then .error (.unexpectedArgument operand)
  else .ok { arguments with operand := some operand }

def value? (arguments : Arguments) (option : String) : Option String :=
  arguments.values.lookup option

def required (arguments : Arguments) (option : String) : Except UsageError String :=
  ((arguments.value? option).map Except.ok).getD (.error (.missingArgument option))

end Arguments

inductive Spelling
  | endOfOptions
  | help
  | option (name : String) (value : Option String)
  | unknown
  | operand

def attachedValue : List Char → Option String
  | [] => none
  | '=' :: value => some (String.ofList value)
  | value => some (String.ofList value)

def longOption (options : List OptionName) (spelled : List Char) : Spelling :=
  let name := String.ofList (spelled.takeWhile (· != '='))
  match options.find? fun option => option.1 == name, spelled.dropWhile (· != '=') with
  | some option, [] => .option option.1 none
  | some option, _ :: value => .option option.1 (some (String.ofList value))
  | none, [] => if name = "help" then .help else .unknown
  | none, _ => .unknown

def shortOption (options : List OptionName) (letter : Char) (rest : List Char) : Spelling :=
  match options.find? fun option => option.2 == letter with
  | some option => .option option.1 (attachedValue rest)
  | none => if letter = 'h' then .help else .unknown

def spelling (options : List OptionName) (argument : String) : Spelling :=
  match argument.toList with
  | ['-', '-'] => .endOfOptions
  | '-' :: '-' :: spelled => longOption options spelled
  | '-' :: letter :: rest => shortOption options letter rest
  | _ => .operand

/-- Reads the arguments of a command; nothing if they ask for help. -/
def readArguments (options : List OptionName) (read : Arguments) :
    List String → Except UsageError (Option Arguments)
  | [] => .ok (some read)
  | argument :: rest =>
      match spelling options argument with
      | .endOfOptions => return some (← rest.foldlM Arguments.setOperand read)
      | .help => .ok none
      | .unknown => .error (.unknownOption argument)
      | .operand => do readArguments options (← read.setOperand argument) rest
      | .option name (some value) => do readArguments options (← read.setValue name value) rest
      | .option name none =>
          match rest with
          | [] => .error (.missingValue name)
          | value :: rest =>
              match spelling [] value with
              | .operand => do readArguments options (← read.setValue name value) rest
              | _ => .error (.missingValue name)

namespace Command

def request (command : Command) (arguments : Arguments) : Except UsageError Request :=
  let operand (name : String) : Except UsageError String :=
    (arguments.operand.map Except.ok).getD (.error (.missingArgument name))
  match command with
  | render =>
      return .render (← arguments.required "repository") (← operand "path")
        (arguments.value? "config") (arguments.value? "sections") (arguments.value? "owner")
  | tokens => return .tokens (← operand "path")
  | hierarchy =>
      return .hierarchy (← arguments.required "repository") (← operand "type")
        (arguments.value? "config")

end Command

namespace Request

def ofHelpTopic : List String → Except UsageError Request
  | [] => .ok .help
  | topic :: rest =>
      if (Command.ofName? topic).isNone ∧ topic ≠ "help" then .error (.unknownCommand topic)
      else
        match rest with
        | [] => .ok .help
        | other :: _ => .error (.unknownCommand other)

def ofArguments : List String → Except UsageError Request
  | [] => .error .noCommand
  | name :: rest =>
      match Command.ofName? name with
      | some command => do
          match ← readArguments command.options {} rest with
          | some arguments => command.request arguments
          | none => return .help
      | none =>
          if name = "help" then ofHelpTopic rest
          else if name = "--version" ∨ name.startsWith "-V" then .ok .version
          else if name = "--help" ∨ name.startsWith "-h" then .ok .help
          else if name.startsWith "-" ∧ name ≠ "-" then .error (.unknownOption name)
          else .error (.unknownCommand name)

end Request

end DocMarkup.CommandLine

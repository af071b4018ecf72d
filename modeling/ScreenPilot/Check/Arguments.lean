/-!
# Arguments of the checker

The command line names the pipelines to check, and may name a configuration and
entries that must be there. Arguments are taken from left to right: the first
that asks for help or for the version is followed, unless one before it is
wrong. After two dashes alone every argument names a pipeline.
-/

set_option autoImplicit false

namespace ScreenPilot

namespace Check

/-- What is to be checked. -/
structure Options where
  config : Option String
  entries : List String
  pipelines : List String
deriving DecidableEq, Inhabited

/-- What the command line asks for. -/
inductive Command where
  | check (options : Options)
  | showVersion
  | showHelp
  /-- The command line cannot be followed. -/
  | refuse
deriving DecidableEq

/-- An option that takes a value. -/
inductive ValueOption where
  | config
  | entry
deriving DecidableEq

namespace Options

/-- Adds a pipeline; its path may not be empty. -/
def addPipeline (options : Options) (path : String) : Option Options :=
  if path = "" then none else some { options with pipelines := options.pipelines ++ [path] }

/-- Sets an option. A configuration is named at most once, and not empty. -/
def setValue (options : Options) (value : String) : ValueOption → Option Options
  | .config =>
    if value = "" ∨ options.config.isSome then none
    else some { options with config := some value }
  | .entry => some { options with entries := options.entries ++ [value] }

end Options

/-- What an argument is, before two dashes alone. -/
inductive Argument where
  | pipeline (path : String)
  /-- An option whose value is the next argument. -/
  | awaiting (option : ValueOption)
  | set (option : ValueOption) (value : String)
  | help
  | version
  /-- Two dashes alone. -/
  | separator
  | unknown
deriving DecidableEq

/-- What a long option is. -/
def longOption : List Char → Argument
  | [] => .separator
  | name =>
    let key := String.ofList (name.takeWhile (· ≠ '='))
    match key, name.dropWhile (· ≠ '=') with
    | "config", [] => .awaiting .config
    | "config", _ :: value => .set .config (String.ofList value)
    | "entry", [] => .awaiting .entry
    | "entry", _ :: value => .set .entry (String.ofList value)
    | "help", [] => .help
    | "version", [] => .version
    | _, _ => .unknown

/-- What an argument is. -/
def Argument.of (argument : String) : Argument :=
  match argument.toList with
  | '-' :: '-' :: name => longOption name
  | '-' :: 'h' :: _ => .help
  | '-' :: 'V' :: _ => .version
  | '-' :: _ :: _ => .unknown
  | _ => .pipeline argument

/-- The command when every argument that is left names a pipeline. -/
def pipelinesOnly (options : Options) (arguments : List String) : Command :=
  match arguments.foldlM Options.addPipeline options with
  | none => .refuse
  | some options => if options.pipelines.isEmpty then .refuse else .check options

/-- The command of the arguments that are left. `pending` is an option that
waits for its value. -/
def commandFrom (options : Options) (pending : Option ValueOption) : List String → Command
  | [] => if pending.isSome then .refuse else pipelinesOnly options []
  | argument :: arguments =>
    match pending, Argument.of argument with
    | some option, .pipeline value =>
      match options.setValue value option with
      | none => .refuse
      | some options => commandFrom options none arguments
    | some _, _ => .refuse
    | none, .pipeline path =>
      match options.addPipeline path with
      | none => .refuse
      | some options => commandFrom options none arguments
    | none, .awaiting option => commandFrom options (some option) arguments
    | none, .set option value =>
      match options.setValue value option with
      | none => .refuse
      | some options => commandFrom options none arguments
    | none, .help => .showHelp
    | none, .version => .showVersion
    | none, .separator => pipelinesOnly options arguments
    | none, .unknown => .refuse

/-- What a command line asks for. -/
def Command.of (arguments : List String) : Command := commandFrom ⟨none, [], []⟩ none arguments

end Check

end ScreenPilot

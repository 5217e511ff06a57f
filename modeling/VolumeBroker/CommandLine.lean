/-!
# The command line

The command line is read from left to right.  An option may have its value attached, or after it as
an argument of its own, which then must not look like an option.  A value of its own is taken in
only when the next option comes or the line ends, so an argument that is not understood is
complained about before a value that is.
-/

set_option autoImplicit false

namespace VolumeBroker

/-- What can be set on the command line. -/
inductive Setting
  | config
  | endpoint
  | nodeId
  | driverName
  | storePath
  | discoveryCommand
  | logLevel
  | logFormat
  deriving DecidableEq, Repr

namespace Setting

/-- The long name of the option, without its dashes. -/
def name : Setting → String
  | .config => "config"
  | .endpoint => "endpoint"
  | .nodeId => "node-id"
  | .driverName => "drivername"
  | .storePath => "store-path"
  | .discoveryCommand => "nvme-cli"
  | .logLevel => "log-level"
  | .logFormat => "log-format"

/-- All options, in the order in which the help lists them. -/
def all : List Setting :=
  [.config, .endpoint, .nodeId, .driverName, .storePath, .discoveryCommand, .logLevel, .logFormat]

/-- The option of this name. -/
def ofName? (s : String) : Option Setting := all.find? (·.name == s)

/-- Whether the value is a path, which cannot be empty. -/
def isPath : Setting → Bool
  | .config => true
  | .storePath => true
  | _ => false

end Setting

/-- Why a command line is not carried out. -/
inductive UsageError
  | unknownArgument
  /-- A value is missing, or is empty where it cannot be. -/
  | invalidValue
  | argumentConflict
  /-- A value is attached to an option that takes none. -/
  | tooManyValues
  | displayHelp
  | displayVersion
  deriving DecidableEq, Repr

/-- The complaint in words. -/
def UsageError.message : UsageError → String
  | .unknownArgument => "unknown argument"
  | .invalidValue => "an option has no value, or an empty one where a path must stand"
  | .argumentConflict => "an option is given twice"
  | .tooManyValues => "a value is given to an option that takes none"
  | .displayHelp => "help is asked for"
  | .displayVersion => "the version is asked for"

/-- A command line that has been read up to some place. -/
structure CommandLine where
  /-- The settings that have been taken in, the last one first. -/
  given : List (Setting × String) := []
  /-- The option that was read last and the argument after it, while they are to be taken in. -/
  pending : Option (Setting × Option String) := none
  /-- Whether two dashes alone have ended the options. -/
  optionsEnded : Bool := false
  deriving DecidableEq, Repr

namespace CommandLine

/-- Gives an option its value, unless it has one already or may not be given this one. -/
def accept (l : CommandLine) (s : Setting) (value : String) : Except UsageError CommandLine :=
  if (l.given.lookup s).isSome then .error .argumentConflict
  else if s.isPath && value.isEmpty then .error .invalidValue
  else .ok { l with given := (s, value) :: l.given }

/-- Ends the option that waits for its value: with the value that it has, or with a complaint. -/
def settle (l : CommandLine) : Except UsageError CommandLine :=
  match l.pending with
  | none => .ok l
  | some (_, none) => .error .invalidValue
  | some (s, some value) => { l with pending := none }.accept s value

/-- Reads an option, with the value that is attached to it if there is one. -/
def readOption (l : CommandLine) (s : Setting) (attached : Option String) :
    Except UsageError CommandLine := do
  let l ← l.settle
  match attached with
  | some value => l.accept s value
  | none => return { l with pending := some (s, none) }

/-- Reads a question, which ends the reading. -/
def ask (l : CommandLine) (answer : UsageError) : Except UsageError CommandLine := do
  let _ ← l.settle
  .error answer

/-- Reads an argument with two dashes in front. -/
def readLong (l : CommandLine) (body : List Char) : Except UsageError CommandLine :=
  let name := String.ofList (body.takeWhile (· != '='))
  let attached := match body.dropWhile (· != '=') with
    | [] => none
    | _ :: value => some (String.ofList value)
  match Setting.ofName? name with
  | some s => l.readOption s attached
  | none =>
    if name == "help" || name == "version" then
      if attached.isSome then .error .tooManyValues
      else l.ask (if name == "help" then .displayHelp else .displayVersion)
    else .error .unknownArgument

/-- Reads an argument with one dash in front. -/
def readShort (l : CommandLine) (body : List Char) : Except UsageError CommandLine :=
  match body with
  | 'c' :: [] => l.readOption .config none
  | 'c' :: '=' :: value => l.readOption .config (some (String.ofList value))
  | 'c' :: value => l.readOption .config (some (String.ofList value))
  | 'h' :: _ => l.ask .displayHelp
  | 'V' :: _ => l.ask .displayVersion
  | _ => .error .unknownArgument

/-- Reads an argument that is no option: the value of the one before it, if that waits for one. -/
def readPlain (l : CommandLine) (arg : String) : Except UsageError CommandLine :=
  match l.pending with
  | some (s, none) => .ok { l with pending := some (s, some arg) }
  | _ => .error .unknownArgument

/-- Takes one more argument. -/
def read (l : CommandLine) (arg : String) : Except UsageError CommandLine :=
  if l.optionsEnded then .error .unknownArgument
  else match arg.toList with
    | ['-', '-'] => .ok { l with optionsEnded := true }
    | '-' :: '-' :: body => l.readLong body
    | ['-'] => l.readPlain arg
    | '-' :: body => l.readShort body
    | _ => l.readPlain arg

/-- Reads the arguments from left to right and ends what is still waiting. -/
def parse (args : List String) : Except UsageError CommandLine := do
  let l ← args.foldlM read {}
  l.settle

/-- The value that was given for a setting. -/
def value? (l : CommandLine) (s : Setting) : Option String := l.given.lookup s

end CommandLine

end VolumeBroker

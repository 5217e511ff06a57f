import VolumeBroker.CommandLine
import VolumeBroker.Config.File

/-!
# Starting a driver

The configuration of a driver comes from four places.  An option of the command line counts most,
then a variable of the environment, then the configuration file, then the default.  A file that does
not exist is as good as an empty one.
-/

set_option autoImplicit false

namespace VolumeBroker

/-- The variables of the environment that count. -/
structure Environment where
  endpoint : Option String := none
  nodeId : Option String := none
  deriving DecidableEq, Repr

/-- Why a driver does not start. -/
inductive StartupError
  /-- The command line is not carried out. -/
  | usage (e : UsageError)
  | unreadableFile (path : String)
  | invalidFile (path : String)
  /-- There is no such format of log lines. -/
  | unknownLogFormat (text : String)
  deriving DecidableEq, Repr

/-- The complaint with which the program ends. -/
def StartupError.message : StartupError → String
  | .usage e => e.message
  | .unreadableFile path => "failed to read config file " ++ path
  | .invalidFile path => "failed to parse config file " ++ path
  | .unknownLogFormat text => "unknown log format " ++ text ++ ", expected text or json"

/-- A driver that is ready to start. -/
structure Startup where
  /-- Where the configuration file was looked for. -/
  configPath : String
  config : Config
  deriving DecidableEq, Repr

namespace Startup

/-- Where the configuration file is looked for if nothing else is said. -/
def defaultConfigPath : String := "/etc/nvmf-csi/driver.toml"

/-- What an option or a variable of the environment says about a setting. -/
def override? (l : CommandLine) (env : Environment) (s : Setting) : Option String :=
  (l.value? s).or <| match s with
    | .endpoint => env.endpoint
    | .nodeId => env.nodeId
    | _ => none

/-- Reads the configuration file at a path, with the bytes it holds if it exists. -/
def readConfig (path : String) (file : Option ByteArray) : Except StartupError Config :=
  match file with
  | none => .ok {}
  | some bytes =>
    match String.fromUTF8? bytes with
    | none => .error (.unreadableFile path)
    | some text =>
      match Config.parse? text with
      | none => .error (.invalidFile path)
      | some config => .ok config

/-- Reads the format of log lines that is asked for. -/
def logFormat (asked : Option String) (default : LogFormat) : Except StartupError LogFormat :=
  match asked with
  | none => .ok default
  | some text =>
    match LogFormat.ofName? text with
    | some format => .ok format
    | none => .error (.unknownLogFormat text)

/-- Lays what the command line and the environment say over a configuration. -/
def applyOverrides (config : Config) (said : Setting → Option String) :
    Except StartupError Config := do
  let format ← logFormat (said .logFormat) config.logging.format
  return {
    driver := {
      name := (said .driverName).getD config.driver.name
      nodeId := (said .nodeId).getD config.driver.nodeId
      endpoint := (said .endpoint).getD config.driver.endpoint }
    store := { path := (said .storePath).getD config.store.path }
    discovery := {
      config.discovery with
      command := (said .discoveryCommand).getD config.discovery.command }
    logging := { level := (said .logLevel).getD config.logging.level, format } }

/-- Where a command line says that the configuration file is. -/
def configPathOf (l : CommandLine) : String := (l.value? .config).getD defaultConfigPath

/-- Makes a driver ready, with the command line read and the file at its path at hand. -/
def ofCommandLine (l : CommandLine) (env : Environment) (file : Option ByteArray) :
    Except StartupError Startup := do
  let path := configPathOf l
  let config ← readConfig path file
  return ⟨path, ← applyOverrides config (override? l env)⟩

/-- Makes a driver ready to start from its arguments, its environment and the files there are. -/
def prepare (args : List String) (env : Environment) (files : String → Option ByteArray) :
    Except StartupError Startup :=
  match CommandLine.parse args with
  | .error e => .error (.usage e)
  | .ok l => ofCommandLine l env (files (configPathOf l))

end Startup

end VolumeBroker

import VolumeBroker.Endpoint
import VolumeBroker.Startup

/-!
# The driver program

The command line, the environment and the configuration file are read, the configuration is worked
out, and what the driver would serve is told.
-/

set_option autoImplicit false

open VolumeBroker

/-- The bytes of a file, if there is one. -/
def readIfPresent (path : String) : IO (Option ByteArray) := do
  try
    return some (← IO.FS.readBinFile path)
  catch
    | .noFileOrDirectory _ _ _ => return none
    | e => throw e

/-- The help: one line for each option. -/
def helpText : String :=
  String.intercalate "\n" (Setting.all.map fun s => "  --" ++ s.name ++ " <value>")

/-- Ends the program because of the command line. -/
def answerUsage (e : UsageError) : IO UInt32 := do
  match e with
  | .displayHelp =>
    IO.println helpText
    return 0
  | .displayVersion =>
    IO.println "nvmf-csi-driver 0.1.0"
    return 0
  | e =>
    IO.eprintln e.message
    return 2

/-- Tells what a driver with this configuration serves. -/
def announce (config : Config) : IO UInt32 := do
  match Endpoint.parse config.driver.endpoint with
  | .error e =>
    IO.eprintln e.message
    return 1
  | .ok endpoint =>
    IO.println (config.driver.name ++ " at " ++ endpoint.text)
    IO.println ("allocations in " ++ config.store.path)
    return 0

/-- Reads the command line and the configuration, and says what is wrong with them or what has been
set up. -/
def main (args : List String) : IO UInt32 := do
  let env : Environment := ⟨← IO.getEnv "CSI_ENDPOINT", ← IO.getEnv "NODE_ID"⟩
  match CommandLine.parse args with
  | .error e => answerUsage e
  | .ok line =>
    let file ← readIfPresent (Startup.configPathOf line)
    match Startup.ofCommandLine line env file with
    | .error e =>
      IO.eprintln e.message
      return 1
    | .ok startup => announce startup.config

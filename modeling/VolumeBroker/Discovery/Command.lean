import VolumeBroker.Discovery.Target
import VolumeBroker.Discovery.LogText
import VolumeBroker.Text.Utf8

/-!
# The discovery command

The fabric is asked by a command that prints the discovery log.  What the command is given depends
only on the target and the settings; what it answers is its output and the way it ended.  Of the
output one part matters at a time: the log after a success, the complaint after a failure.
-/

set_option autoImplicit false

namespace VolumeBroker

/-- The names of signals. -/
def signalNames : List (Nat × String) :=
  [(1, "SIGHUP"), (2, "SIGINT"), (3, "SIGQUIT"), (4, "SIGILL"), (5, "SIGTRAP"), (6, "SIGABRT"),
    (7, "SIGBUS"), (8, "SIGFPE"), (9, "SIGKILL"), (10, "SIGUSR1"), (11, "SIGSEGV"),
    (12, "SIGUSR2"), (13, "SIGPIPE"), (14, "SIGALRM"), (15, "SIGTERM"), (16, "SIGSTKFLT"),
    (17, "SIGCHLD"), (18, "SIGCONT"), (19, "SIGSTOP"), (20, "SIGTSTP"), (21, "SIGTTIN"),
    (22, "SIGTTOU"), (23, "SIGURG"), (24, "SIGXCPU"), (25, "SIGXFSZ"), (26, "SIGVTALRM"),
    (27, "SIGPROF"), (28, "SIGWINCH"), (29, "SIGIO"), (30, "SIGPWR"), (31, "SIGSYS")]

/-- How a command ended. -/
inductive Ending
  | exited (status : Nat)
  /-- A signal has ended it, and its memory may have been dumped. -/
  | signalled (signal : Nat) (dumped : Bool)
  deriving DecidableEq, Repr

namespace Ending

/-- Whether the command did what it was asked for. -/
def isSuccess (e : Ending) : Bool := e == .exited 0

/-- The ending as it is worded in a complaint. -/
def message : Ending → String
  | .exited status => "exit status: " ++ status.repr
  | .signalled signal dumped =>
    let name := match signalNames.lookup signal with
      | some name => " (" ++ name ++ ")"
      | none => ""
    "signal: " ++ signal.repr ++ name ++ if dumped then " (core dumped)" else ""

end Ending

/-- What a command that ran leaves behind. -/
structure CommandOutput where
  ending : Ending
  stdout : ByteArray
  stderr : ByteArray

/-- The command as the system has it: one that cannot be started, or a program with an output. -/
inductive Program
  | unstartable (fault : StartFault)
  | present (output : CommandOutput)

namespace DiscoverySettings

/-- The arguments with which the command is run. -/
def arguments (settings : DiscoverySettings) (target : DiscoveryTarget) : List String :=
  ["discover", "-t", target.transport.name, "-a", target.address, "-s", target.port.toNat.repr,
    "-o", "json"] ++
  match settings.hostNqn with
  | some nqn => ["--hostnqn", nqn]
  | none => []

/-- Whether the command line can be handed to the system: it holds no NUL. -/
def isRunnable (settings : DiscoverySettings) (target : DiscoveryTarget) : Bool :=
  (settings.command :: settings.arguments target).all fun s => !s.toList.contains '\x00'

/-- Runs the command, if it can be handed to the system and be started there. -/
def run (settings : DiscoverySettings) (target : DiscoveryTarget) (program : Program) :
    Except DiscoveryError CommandOutput :=
  if settings.isRunnable target then
    match program with
    | .present output => .ok output
    | .unstartable fault => .error (.notStarted settings.command fault)
  else .error (.notStarted settings.command .nulCharacter)

end DiscoverySettings

namespace CommandOutput

/-- The devices that the output of a discovery reports. -/
def devices (output : CommandOutput) : Except DiscoveryError (List Descriptor) :=
  if output.ending.isSuccess then Descriptor.parseLog (Text.decodeLossy output.stdout)
  else .error (.commandFailed output.ending.message (Text.trim (Text.decodeLossy output.stderr)))

end CommandOutput

/-- A discovery by command: what the command was given, if it ran, and the outcome. -/
structure CommandRun where
  arguments : Option (List String)
  outcome : Except DiscoveryError (List Descriptor)

/-- Reads the target from the parameters, runs the command and reads what it printed; the first of
these that fails is the outcome. -/
def DiscoverySettings.discover (settings : DiscoverySettings) (params : Parameters)
    (program : Program) : CommandRun :=
  match DiscoveryTarget.ofParameters params settings with
  | .error e => ⟨none, .error e⟩
  | .ok target =>
    match settings.run target program with
    | .error e => ⟨none, .error e⟩
    | .ok output => ⟨some (settings.arguments target), output.devices⟩

end VolumeBroker

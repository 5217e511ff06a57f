import VolumeBroker.Discovery.Command
import VolumeBroker.Proofs.DiscoveryTargets
import VolumeBroker.Proofs.PrintedText

/-!
# Discoveries by command

A discovery by command goes through stages, each of which can end it: the parameters are read, the
command line is handed to the system, the program runs and ends, and what it has printed is read as
a log.  `DiscoverySettings.RunsOn` says that the first two of them have been passed, and
`discover_of_runsOn` what comes of the others.  The command line tells the target that it was made
from, because the transport and the port are written so that they can be read back.
-/

set_option autoImplicit false

namespace VolumeBroker

/-- A number is read back from its decimal digits. -/
theorem Text.spells_repr (n : Nat) : Spells n.repr.toList n := by
  rw [Nat.toList_repr]
  refine ⟨Nat.toDigits 10 n, .inl rfl, ⟨?_, fun c hc => ?_⟩, ?_⟩
  · exact List.ne_nil_of_length_pos Nat.length_toDigits_pos
  · exact Nat.isDigit_of_mem_toDigits (by decide) (by decide) hc
  · exact Nat.ofDigitChars_toDigits (by decide) (by decide)

namespace DiscoverySettings

variable {settings : DiscoverySettings} {params others : Parameters}
variable {target target' : DiscoveryTarget} {output : CommandOutput}

/-- The parameters give the target, and the command line for it can be handed to the system. -/
def RunsOn (settings : DiscoverySettings) (params : Parameters) (target : DiscoveryTarget) : Prop :=
  DiscoveryTarget.ofParameters params settings = .ok target ∧ settings.isRunnable target = true

/-- Different targets have different command lines. -/
theorem arguments_inj : settings.arguments target = settings.arguments target' ↔
    target = target' := by
  constructor
  · intro h
    obtain ⟨hname, haddress, hport⟩ : target.transport.name = target'.transport.name ∧
        target.address = target'.address ∧ target.port.toNat.repr = target'.port.toNat.repr := by
      simpa [arguments] using h
    obtain ⟨transport, address, port⟩ := target
    obtain rfl := Transport.name_inj.mp hname
    obtain rfl := haddress
    have hvalue : port.toNat = target'.port.toNat := by
      rw [← (Text.spells_repr port.toNat).leadingValue_eq, hport,
        (Text.spells_repr target'.port.toNat).leadingValue_eq]
    obtain rfl := UInt16.toNat_inj.mp hvalue
    rfl
  · rintro rfl
    rfl

/-- Without a target nothing is run. -/
theorem discover_of_error {e : DiscoveryError}
    (h : DiscoveryTarget.ofParameters params settings = .error e) (program : Program) :
    settings.discover params program = ⟨none, .error e⟩ := by
  simp only [discover, h]

/-- With a target the program is run, and its output decides. -/
theorem discover_of_runsOn (h : settings.RunsOn params target) (output : CommandOutput) :
    settings.discover params (.present output) =
      ⟨some (settings.arguments target), output.devices⟩ := by
  obtain ⟨hparams, hrunnable⟩ := h
  simp only [discover, hparams, run, if_pos hrunnable]

/-- Every discovery by command runs the program, or comes to nothing. -/
theorem discover_cases (settings : DiscoverySettings) (params : Parameters) (program : Program) :
    (∃ target output, settings.RunsOn params target ∧ program = .present output) ∨
      ∃ e, settings.discover params program = ⟨none, .error e⟩ := by
  cases hparams : DiscoveryTarget.ofParameters params settings with
  | error e => exact .inr ⟨e, discover_of_error hparams program⟩
  | ok target =>
    by_cases hrunnable : settings.isRunnable target = true
    · cases program with
      | present output => exact .inl ⟨target, output, ⟨hparams, hrunnable⟩, rfl⟩
      | unstartable fault =>
        right
        simp only [discover, hparams, run, if_pos hrunnable]
        exact ⟨_, rfl⟩
    · right
      simp only [discover, hparams, run, if_neg hrunnable]
      exact ⟨_, rfl⟩

/-- The arguments that the program was started with are those of the target. -/
theorem arguments_eq_some_iff {program : Program} {args : List String} :
    (settings.discover params program).arguments = some args ↔
      ∃ target output, settings.RunsOn params target ∧ program = .present output ∧
        settings.arguments target = args := by
  constructor
  · intro h
    rcases discover_cases settings params program with ⟨target, output, hruns, rfl⟩ | ⟨e, he⟩
    · rw [discover_of_runsOn hruns] at h
      exact ⟨target, output, hruns, rfl, Option.some.inj h⟩
    · rw [he] at h
      cases h
  · rintro ⟨target, output, hruns, rfl, rfl⟩
    rw [discover_of_runsOn hruns]

end DiscoverySettings

namespace CommandOutput

variable {output : CommandOutput}

/-- The output of a program that succeeds is read as a log. -/
theorem devices_of_success (h : output.ending = .exited 0) :
    output.devices = Descriptor.parseLog (Text.decodeLossy output.stdout) := by
  rw [devices, Ending.isSuccess, h, if_pos (by decide)]

/-- A program that fails is quoted with what it wrote to its error stream, without the blanks around
it. -/
theorem devices_of_failure (h : output.ending ≠ .exited 0) :
    output.devices = .error (.commandFailed output.ending.message
      (Text.trim (Text.decodeLossy output.stderr))) := by
  rw [devices, Ending.isSuccess, if_neg (by simpa using h)]

/-- There are devices exactly if the program succeeded and its output is a log. -/
theorem devices_eq_ok_iff {found : List Descriptor} :
    output.devices = .ok found ↔ output.ending = .exited 0 ∧
      Descriptor.parseLog (Text.decodeLossy output.stdout) = .ok found := by
  by_cases h : output.ending = .exited 0
  · rw [devices_of_success h]
    exact (and_iff_right h).symm
  · rw [devices_of_failure h]
    simp [h]

end CommandOutput

namespace DiscoverySettings

/-- A discovery succeeds exactly if the parameters give a target, the program runs and succeeds, and
its output is a log. -/
theorem outcome_eq_ok_iff {settings : DiscoverySettings} {params : Parameters} {program : Program}
    {found : List Descriptor} :
    (settings.discover params program).outcome = .ok found ↔
      ∃ target output, settings.RunsOn params target ∧ program = .present output ∧
        output.ending = .exited 0 ∧
        Descriptor.parseLog (Text.decodeLossy output.stdout) = .ok found := by
  constructor
  · intro h
    rcases discover_cases settings params program with ⟨target, output, hruns, rfl⟩ | ⟨e, he⟩
    · rw [discover_of_runsOn hruns] at h
      exact ⟨target, output, hruns, rfl, CommandOutput.devices_eq_ok_iff.mp h⟩
    · rw [he] at h
      cases h
  · rintro ⟨target, output, hruns, rfl, hdevices⟩
    rw [discover_of_runsOn hruns]
    exact CommandOutput.devices_eq_ok_iff.mpr hdevices

/-- The program of a discovery is run only if a target can be read from the parameters, and then
with a command line that tells this target and nothing else: the port is read back from it.  Devices
come of a program that has run and ended with success and whose output, as far as it is text, is a
log, and the complaint that it has printed as well does not matter.  After any other end the
complaint is all that matters, even if the output is a log.  An output that is a text is read as
that text. -/
theorem discovery_by_command (settings : DiscoverySettings) :
    (∀ params program args, (settings.discover params program).arguments = some args ↔
      ∃ target output, settings.RunsOn params target ∧ program = .present output ∧
        settings.arguments target = args) ∧
    (∀ params program e, DiscoveryTarget.ofParameters params settings = .error e →
      settings.discover params program = ⟨none, .error e⟩) ∧
    (∀ params others output output',
      (∃ args, (settings.discover params (.present output)).arguments = some args ∧
        (settings.discover others (.present output')).arguments = some args) ↔
      ∃ target, settings.RunsOn params target ∧ settings.RunsOn others target) ∧
    (∀ target target', settings.arguments target = settings.arguments target' ↔
      target = target') ∧
    (∀ target, (settings.arguments target)[5]? = some "-s" ∧ ∃ port,
      (settings.arguments target)[6]? = some port ∧
      Text.readBounded Text.maxPort port.toList = .ok target.port.toNat) ∧
    (∀ params program found, (settings.discover params program).outcome = .ok found ↔
      ∃ target output, settings.RunsOn params target ∧ program = .present output ∧
        output.ending = .exited 0 ∧
        Descriptor.parseLog (Text.decodeLossy output.stdout) = .ok found) ∧
    ∀ params target, settings.RunsOn params target → ∀ stdout stderr : ByteArray,
      (∀ stderr' : ByteArray,
        (settings.discover params (.present ⟨.exited 0, stdout, stderr⟩)).outcome =
          (settings.discover params (.present ⟨.exited 0, stdout, stderr'⟩)).outcome) ∧
      (∀ ending : Ending, ending ≠ .exited 0 →
        (settings.discover params (.present ⟨ending, stdout, stderr⟩)).outcome =
          .error (.commandFailed ending.message (Text.trim (Text.decodeLossy stderr)))) ∧
      ∀ text : String,
        (settings.discover params (.present ⟨.exited 0, text.toUTF8, stderr⟩)).outcome =
          Descriptor.parseLog text := by
  refine ⟨fun _ _ _ => arguments_eq_some_iff, fun _ program _ h => discover_of_error h program,
    fun params others output output' => ⟨?_, ?_⟩, fun _ _ => arguments_inj, fun target => ?_,
    fun _ _ _ => outcome_eq_ok_iff, fun params target hruns stdout stderr => ?_⟩
  · rintro ⟨args, hargs, hargs'⟩
    obtain ⟨target, -, hruns, -, rfl⟩ := arguments_eq_some_iff.mp hargs
    obtain ⟨target', -, hruns', -, hsame⟩ := arguments_eq_some_iff.mp hargs'
    obtain rfl := arguments_inj.mp hsame
    exact ⟨_, hruns, hruns'⟩
  · rintro ⟨target, hruns, hruns'⟩
    refine ⟨settings.arguments target, ?_, ?_⟩
    · rw [discover_of_runsOn hruns]
    · rw [discover_of_runsOn hruns']
  · have hport : target.port.toNat ≤ Text.maxPort := Nat.le_of_lt_succ target.port.toNat_lt
    exact ⟨rfl, _, rfl, Text.readBounded_eq_ok_iff.mpr ⟨Text.spells_repr _, hport⟩⟩
  · simp only [discover_of_runsOn hruns]
    refine ⟨fun stderr' => ?_, fun ending hending => ?_, fun text => ?_⟩
    · rw [CommandOutput.devices_of_success rfl, CommandOutput.devices_of_success rfl]
    · exact CommandOutput.devices_of_failure hending
    · rw [CommandOutput.devices_of_success rfl, Text.decodeLossy_toUTF8]

/-- A log with a path to a subsystem whose name has characters of two and of four bytes. -/
def printedLog : String := "[[[\"tcp\",\"\",\"\",\"4420\",\"10.0.0.1\",\"nqn-é😀\"]]]"

/-- The records of the log. -/
def printedRecords : List LogRecord := [⟨"tcp", "", "", "4420", "10.0.0.1", "nqn-é😀"⟩]

/-- Parameters with blanks around the address, and with a plus and zeros in front of the port. -/
def paddedParameters : Parameters :=
  .ofList [("targetTrAddr", " fd00::5 "), ("targetTrPort", "+08009")]

/-- The padded parameters give the plain command line.  The log is read if the program succeeds, and
is not looked at if it fails. -/
theorem printed_log_reported :
    (discover {} paddedParameters (.present ⟨.exited 0, printedLog.toUTF8, .empty⟩)).arguments =
      some ["discover", "-t", "tcp", "-a", "fd00::5", "-s", "8009", "-o", "json"] ∧
    (discover {} paddedParameters (.present ⟨.exited 0, printedLog.toUTF8, .empty⟩)).outcome =
      .ok [⟨"nqn-é😀", .tcp, ["10.0.0.1:4420"]⟩] ∧
    (discover {} paddedParameters (.present ⟨.exited 1, printedLog.toUTF8, .empty⟩)).outcome =
      .error (.commandFailed "exit status: 1" "") := by
  have hruns : RunsOn {} paddedParameters ⟨.tcp, "fd00::5", 8009⟩ :=
    ⟨by decide +kernel, by decide +kernel⟩
  have hrecords : LogRecord.parseLog? printedLog = some printedRecords := by decide +kernel
  obtain ⟨harguments, -, -, -, -, -, houtcome⟩ := discovery_by_command {}
  obtain ⟨-, hfailure, htext⟩ := houtcome _ _ hruns printedLog.toUTF8 .empty
  refine ⟨(harguments _ _ _).mpr ⟨_, _, hruns, rfl, by decide +kernel⟩, ?_, ?_⟩
  · rw [htext printedLog]
    simp only [Descriptor.parseLog, hrecords]
    decide +kernel
  · rw [hfailure _ (by decide)]
    decide +kernel

end DiscoverySettings

end VolumeBroker

import VolumeBroker.Startup
import VolumeBroker.Proofs.OptionSpellings

/-!
# Where a configuration comes from

Every field of a configuration has its value from the first of its sources that says anything: the
command line, the environment, the file, the default.  What a file says is kept apart from the
defaults here, as `FileSettings`, with nothing for a key that is missing; `Startup.merged` puts the
sources together field by field, and `Startup.prepare_by_source` says that this is what a driver
starts with.
-/

set_option autoImplicit false

namespace VolumeBroker

open Toml

/-- A format is known by its own name, and by no other. -/
theorem LogFormat.ofName?_eq_some_iff {s : String} {f : LogFormat} :
    ofName? s = some f ↔ s = f.name := by
  constructor
  · intro h
    have hname := List.find?_some h
    exact (beq_iff_eq.mp hname).symm
  · rintro rfl
    cases f <;> decide

namespace Config

/-! ## What a file says -/

/-- A key that is missing says nothing, any other what its item is read as. -/
inductive Says {α : Type} (read : Item → Option α) : Option Item → Option α → Prop
  | missing : Says read none none
  | present {item : Item} {a : α} : read item = some a → Says read (some item) (some a)

/-- The keys of the section of the driver. -/
def driverKeys : List String := ["name", "node_id", "endpoint"]

/-- The keys of the section of the store. -/
def storeKeys : List String := ["path"]

/-- The keys of the section of the discovery. -/
def discoveryKeys : List String := ["nvme_cli", "default_transport", "default_port", "host_nqn"]

/-- The keys of the section of the log. -/
def loggingKeys : List String := ["level", "format"]

/-- The entries of the sections of a file. -/
structure FileSections where
  driver : Entries
  store : Entries
  discovery : Entries
  logging : Entries

/-- The entries of a section; one that is missing has none. -/
def sectionEntries? (keys : List String) : Option Item → Option Entries
  | none => some []
  | some item => fields? keys item

/-- The sections of a file, if they are sections and none has one of its keys twice. -/
def sections? (root : Entries) : Option FileSections :=
  return {
    driver := ← sectionEntries? driverKeys (root.find? "driver")
    store := ← sectionEntries? storeKeys (root.find? "store")
    discovery := ← sectionEntries? discoveryKeys (root.find? "discovery")
    logging := ← sectionEntries? loggingKeys (root.find? "logging") }

/-- What a file says, field by field. -/
structure FileSettings where
  name : Option String := none
  nodeId : Option String := none
  endpoint : Option String := none
  storePath : Option String := none
  command : Option String := none
  transport : Option Transport := none
  port : Option UInt16 := none
  hostNqn : Option String := none
  level : Option String := none
  format : Option LogFormat := none

/-- The transport that an item names. -/
def transportOf? (item : Item) : Option Transport := (choiceOf? item).bind Transport.ofName?

/-- The format that an item names. -/
def formatOf? (item : Item) : Option LogFormat := (choiceOf? item).bind LogFormat.ofName?

namespace FileSettings

/-- The sections say this, and no more. -/
structure SaidBy (f : FileSettings) (s : FileSections) : Prop where
  name : Says textOf? (s.driver.find? "name") f.name
  nodeId : Says textOf? (s.driver.find? "node_id") f.nodeId
  endpoint : Says textOf? (s.driver.find? "endpoint") f.endpoint
  storePath : Says textOf? (s.store.find? "path") f.storePath
  command : Says textOf? (s.discovery.find? "nvme_cli") f.command
  transport : Says transportOf? (s.discovery.find? "default_transport") f.transport
  port : Says portOf? (s.discovery.find? "default_port") f.port
  hostNqn : Says textOf? (s.discovery.find? "host_nqn") f.hostNqn
  level : Says textOf? (s.logging.find? "level") f.level
  format : Says formatOf? (s.logging.find? "format") f.format

/-- The settings of the driver, with the defaults for what the file leaves out. -/
def driver (f : FileSettings) : DriverSettings :=
  let default : DriverSettings := {}
  { name := f.name.getD default.name
    nodeId := f.nodeId.getD default.nodeId
    endpoint := f.endpoint.getD default.endpoint }

/-- The settings of the store, with the default for what the file leaves out. -/
def store (f : FileSettings) : StoreSettings :=
  let default : StoreSettings := {}
  { path := f.storePath.getD default.path }

/-- The settings of the discovery, with the defaults for what the file leaves out. -/
def discovery (f : FileSettings) : DiscoverySettings :=
  let default : DiscoverySettings := {}
  { command := f.command.getD default.command
    defaultTransport := f.transport.getD default.defaultTransport
    defaultPort := f.port.getD default.defaultPort
    hostNqn := f.hostNqn }

/-- The settings of the log, with the defaults for what the file leaves out. -/
def logging (f : FileSettings) : LogSettings :=
  let default : LogSettings := {}
  { level := f.level.getD default.level
    format := f.format.getD default.format }

/-- The configuration that the file alone makes, with the defaults for what it leaves out. -/
def config (f : FileSettings) : Config := ⟨f.driver, f.store, f.discovery, f.logging⟩

end FileSettings

/-! ## Reading the sections -/

section

variable {α : Type} {read : Item → Option α} {default a : α} {name : String} {fields : Entries}

/-- A field is what its key says, and the default if the key says nothing. -/
theorem field?_eq_some_iff : field? read default name fields = some a ↔
    ∃ said, Says read (fields.find? name) said ∧ a = said.getD default := by
  unfold field?
  cases fields.find? name with
  | none =>
    constructor
    · intro h
      exact ⟨none, .missing, (Option.some.inj h).symm⟩
    · rintro ⟨said, hsaid, rfl⟩
      cases hsaid
      rfl
  | some item =>
    constructor
    · intro h
      exact ⟨some a, .present h, rfl⟩
    · rintro ⟨said, hsaid, rfl⟩
      cases hsaid with
      | present h => exact h

/-- A field that has no default is just what its key says. -/
theorem optionalField?_eq_some_iff {said : Option α} :
    field? (fun item => (read item).map some) none name fields = some said ↔
      Says read (fields.find? name) said := by
  unfold field?
  cases fields.find? name with
  | none =>
    constructor
    · intro h
      obtain rfl := Option.some.inj h
      exact .missing
    · intro h
      cases h
      rfl
  | some item =>
    constructor
    · intro h
      obtain ⟨a, ha, rfl⟩ := Option.map_eq_some_iff.mp h
      exact .present ha
    · intro h
      cases h with
      | present ha => exact Option.map_eq_some_iff.mpr ⟨_, ha, rfl⟩

/-- A section is read from its entries, and one that is missing from none. -/
theorem sectionOf?_eq {β : Type} {names : List String} {default : β} {read : Entries → Option β}
    (hdefault : read [] = some default) (root : Entries) :
    sectionOf? name names default read root =
      (sectionEntries? names (root.find? name)).bind read := by
  unfold sectionOf? sectionEntries?
  cases root.find? name with
  | none => exact hdefault.symm
  | some item => rfl

/-- The sections of a file are got one by one. -/
theorem sections?_eq_some_iff {root : Entries} {s : FileSections} : sections? root = some s ↔
    sectionEntries? driverKeys (root.find? "driver") = some s.driver ∧
    sectionEntries? storeKeys (root.find? "store") = some s.store ∧
    sectionEntries? discoveryKeys (root.find? "discovery") = some s.discovery ∧
    sectionEntries? loggingKeys (root.find? "logging") = some s.logging := by
  constructor
  · intro h
    obtain ⟨driver, hdriver, h⟩ := Option.bind_eq_some_iff.mp h
    obtain ⟨store, hstore, h⟩ := Option.bind_eq_some_iff.mp h
    obtain ⟨discovery, hdiscovery, h⟩ := Option.bind_eq_some_iff.mp h
    obtain ⟨logging, hlogging, h⟩ := Option.bind_eq_some_iff.mp h
    obtain rfl := Option.some.inj h
    exact ⟨hdriver, hstore, hdiscovery, hlogging⟩
  · rintro ⟨hdriver, hstore, hdiscovery, hlogging⟩
    unfold sections?
    rw [hdriver, hstore, hdiscovery, hlogging]
    rfl

/-- The section of the driver is read as what its keys say. -/
theorem driverOf?_eq_some_iff {entries : Entries} {d : DriverSettings} :
    driverOf? entries = some d ↔ ∃ name nodeId endpoint, Says textOf? (entries.find? "name") name ∧
      Says textOf? (entries.find? "node_id") nodeId ∧
      Says textOf? (entries.find? "endpoint") endpoint ∧
      d = FileSettings.driver { name, nodeId, endpoint } := by
  constructor
  · intro h
    obtain ⟨_, hname', h⟩ := Option.bind_eq_some_iff.mp h
    obtain ⟨_, hnodeId', h⟩ := Option.bind_eq_some_iff.mp h
    obtain ⟨_, hendpoint', h⟩ := Option.bind_eq_some_iff.mp h
    obtain ⟨name, hname, rfl⟩ := field?_eq_some_iff.mp hname'
    obtain ⟨nodeId, hnodeId, rfl⟩ := field?_eq_some_iff.mp hnodeId'
    obtain ⟨endpoint, hendpoint, rfl⟩ := field?_eq_some_iff.mp hendpoint'
    exact ⟨name, nodeId, endpoint, hname, hnodeId, hendpoint, (Option.some.inj h).symm⟩
  · rintro ⟨name, nodeId, endpoint, hname, hnodeId, hendpoint, rfl⟩
    refine Option.bind_eq_some_iff.mpr ⟨_, field?_eq_some_iff.mpr ⟨name, hname, rfl⟩, ?_⟩
    refine Option.bind_eq_some_iff.mpr ⟨_, field?_eq_some_iff.mpr ⟨nodeId, hnodeId, rfl⟩, ?_⟩
    exact Option.bind_eq_some_iff.mpr ⟨_, field?_eq_some_iff.mpr ⟨endpoint, hendpoint, rfl⟩, rfl⟩

/-- The section of the store is read as what its key says. -/
theorem storeOf?_eq_some_iff {entries : Entries} {d : StoreSettings} :
    storeOf? entries = some d ↔ ∃ storePath, Says textOf? (entries.find? "path") storePath ∧
      d = FileSettings.store { storePath } := by
  constructor
  · intro h
    obtain ⟨_, hpath', h⟩ := Option.bind_eq_some_iff.mp h
    obtain ⟨storePath, hpath, rfl⟩ := field?_eq_some_iff.mp hpath'
    exact ⟨storePath, hpath, (Option.some.inj h).symm⟩
  · rintro ⟨storePath, hpath, rfl⟩
    exact Option.bind_eq_some_iff.mpr ⟨_, field?_eq_some_iff.mpr ⟨storePath, hpath, rfl⟩, rfl⟩

/-- The section of the discovery is read as what its keys say. -/
theorem discoveryOf?_eq_some_iff {entries : Entries} {d : DiscoverySettings} :
    discoveryOf? entries = some d ↔ ∃ command transport port hostNqn,
      Says textOf? (entries.find? "nvme_cli") command ∧
      Says transportOf? (entries.find? "default_transport") transport ∧
      Says portOf? (entries.find? "default_port") port ∧
      Says textOf? (entries.find? "host_nqn") hostNqn ∧
      d = FileSettings.discovery { command, transport, port, hostNqn } := by
  constructor
  · intro h
    obtain ⟨_, hcommand', h⟩ := Option.bind_eq_some_iff.mp h
    obtain ⟨_, htransport', h⟩ := Option.bind_eq_some_iff.mp h
    obtain ⟨_, hport', h⟩ := Option.bind_eq_some_iff.mp h
    obtain ⟨hostNqn, hhostNqn, h⟩ := Option.bind_eq_some_iff.mp h
    obtain ⟨command, hcommand, rfl⟩ := field?_eq_some_iff.mp hcommand'
    obtain ⟨transport, htransport, rfl⟩ := field?_eq_some_iff.mp htransport'
    obtain ⟨port, hport, rfl⟩ := field?_eq_some_iff.mp hport'
    exact ⟨command, transport, port, hostNqn, hcommand, htransport, hport,
      optionalField?_eq_some_iff.mp hhostNqn, (Option.some.inj h).symm⟩
  · rintro ⟨command, transport, port, hostNqn, hcommand, htransport, hport, hhostNqn, rfl⟩
    refine Option.bind_eq_some_iff.mpr ⟨_, field?_eq_some_iff.mpr ⟨command, hcommand, rfl⟩, ?_⟩
    refine Option.bind_eq_some_iff.mpr ⟨_, field?_eq_some_iff.mpr ⟨transport, htransport, rfl⟩, ?_⟩
    refine Option.bind_eq_some_iff.mpr ⟨_, field?_eq_some_iff.mpr ⟨port, hport, rfl⟩, ?_⟩
    exact Option.bind_eq_some_iff.mpr ⟨_, optionalField?_eq_some_iff.mpr hhostNqn, rfl⟩

/-- The section of the log is read as what its keys say. -/
theorem loggingOf?_eq_some_iff {entries : Entries} {d : LogSettings} :
    loggingOf? entries = some d ↔ ∃ level format, Says textOf? (entries.find? "level") level ∧
      Says formatOf? (entries.find? "format") format ∧
      d = FileSettings.logging { level, format } := by
  constructor
  · intro h
    obtain ⟨_, hlevel', h⟩ := Option.bind_eq_some_iff.mp h
    obtain ⟨_, hformat', h⟩ := Option.bind_eq_some_iff.mp h
    obtain ⟨level, hlevel, rfl⟩ := field?_eq_some_iff.mp hlevel'
    obtain ⟨format, hformat, rfl⟩ := field?_eq_some_iff.mp hformat'
    exact ⟨level, format, hlevel, hformat, (Option.some.inj h).symm⟩
  · rintro ⟨level, format, hlevel, hformat, rfl⟩
    refine Option.bind_eq_some_iff.mpr ⟨_, field?_eq_some_iff.mpr ⟨level, hlevel, rfl⟩, ?_⟩
    exact Option.bind_eq_some_iff.mpr ⟨_, field?_eq_some_iff.mpr ⟨format, hformat, rfl⟩, rfl⟩

/-- A document is a configuration if each of its sections has the fields of one, and each known key
in them a value of its kind. -/
theorem ofEntries?_eq_some_iff {root : Entries} {config : Config} :
    ofEntries? root = some config ↔ ∃ (s : FileSections) (f : FileSettings),
      sections? root = some s ∧ f.SaidBy s ∧ config = f.config := by
  have hdriver := @sectionOf?_eq "driver" _ driverKeys {} driverOf? rfl root
  have hstore := @sectionOf?_eq "store" _ storeKeys {} storeOf? rfl root
  have hdiscovery := @sectionOf?_eq "discovery" _ discoveryKeys {} discoveryOf? rfl root
  have hlogging := @sectionOf?_eq "logging" _ loggingKeys {} loggingOf? rfl root
  constructor
  · intro h
    obtain ⟨driver, hd, h⟩ := Option.bind_eq_some_iff.mp h
    obtain ⟨store, hs, h⟩ := Option.bind_eq_some_iff.mp h
    obtain ⟨discovery, hc, h⟩ := Option.bind_eq_some_iff.mp h
    obtain ⟨logging, hl, h⟩ := Option.bind_eq_some_iff.mp h
    obtain ⟨driverEntries, hdriverEntries, hd⟩ := Option.bind_eq_some_iff.mp (hdriver.symm.trans hd)
    obtain ⟨storeEntries, hstoreEntries, hs⟩ := Option.bind_eq_some_iff.mp (hstore.symm.trans hs)
    obtain ⟨discoveryEntries, hdiscoveryEntries, hc⟩ :=
      Option.bind_eq_some_iff.mp (hdiscovery.symm.trans hc)
    obtain ⟨loggingEntries, hloggingEntries, hl⟩ :=
      Option.bind_eq_some_iff.mp (hlogging.symm.trans hl)
    obtain ⟨name, nodeId, endpoint, hname, hnodeId, hendpoint, rfl⟩ := driverOf?_eq_some_iff.mp hd
    obtain ⟨storePath, hpath, rfl⟩ := storeOf?_eq_some_iff.mp hs
    obtain ⟨command, transport, port, hostNqn, hcommand, htransport, hport, hhostNqn, rfl⟩ :=
      discoveryOf?_eq_some_iff.mp hc
    obtain ⟨level, format, hlevel, hformat, rfl⟩ := loggingOf?_eq_some_iff.mp hl
    exact ⟨⟨driverEntries, storeEntries, discoveryEntries, loggingEntries⟩,
      ⟨name, nodeId, endpoint, storePath, command, transport, port, hostNqn, level, format⟩,
      sections?_eq_some_iff.mpr
        ⟨hdriverEntries, hstoreEntries, hdiscoveryEntries, hloggingEntries⟩,
      ⟨hname, hnodeId, hendpoint, hpath, hcommand, htransport, hport, hhostNqn, hlevel, hformat⟩,
      (Option.some.inj h).symm⟩
  · rintro ⟨s, f, hsections, hf, rfl⟩
    obtain ⟨hd, hs, hc, hl⟩ := sections?_eq_some_iff.mp hsections
    have hd' : driverOf? s.driver = some f.driver :=
      driverOf?_eq_some_iff.mpr ⟨_, _, _, hf.name, hf.nodeId, hf.endpoint, rfl⟩
    have hs' : storeOf? s.store = some f.store := storeOf?_eq_some_iff.mpr ⟨_, hf.storePath, rfl⟩
    have hc' : discoveryOf? s.discovery = some f.discovery := discoveryOf?_eq_some_iff.mpr
      ⟨_, _, _, _, hf.command, hf.transport, hf.port, hf.hostNqn, rfl⟩
    have hl' : loggingOf? s.logging = some f.logging :=
      loggingOf?_eq_some_iff.mpr ⟨_, _, hf.level, hf.format, rfl⟩
    refine Option.bind_eq_some_iff.mpr
      ⟨f.driver, hdriver.trans (Option.bind_eq_some_iff.mpr ⟨_, hd, hd'⟩), ?_⟩
    refine Option.bind_eq_some_iff.mpr
      ⟨f.store, hstore.trans (Option.bind_eq_some_iff.mpr ⟨_, hs, hs'⟩), ?_⟩
    refine Option.bind_eq_some_iff.mpr
      ⟨f.discovery, hdiscovery.trans (Option.bind_eq_some_iff.mpr ⟨_, hc, hc'⟩), ?_⟩
    exact Option.bind_eq_some_iff.mpr
      ⟨f.logging, hlogging.trans (Option.bind_eq_some_iff.mpr ⟨_, hl, hl'⟩), rfl⟩

end

/-! ## Files -/

/-- There is no file, or one that holds a text. -/
inductive IsReadable : Option ByteArray → Prop
  | missing : IsReadable none
  | text {bytes : ByteArray} {text : String} :
      String.fromUTF8? bytes = some text → IsReadable (some bytes)

/-- The file can be read as a configuration, and says this. -/
inductive Decodes : Option ByteArray → FileSettings → Prop
  | missing : Decodes none {}
  | text {bytes : ByteArray} {text : String} {root : Entries} {s : FileSections}
      {f : FileSettings} :
      String.fromUTF8? bytes = some text → Toml.parse? text = some root →
      sections? root = some s → f.SaidBy s → Decodes (some bytes) f

/-- The sections have the same items under the keys that are known. -/
structure SameKnown (s s' : FileSections) : Prop where
  driver : ∀ key ∈ driverKeys, s.driver.find? key = s'.driver.find? key
  store : ∀ key ∈ storeKeys, s.store.find? key = s'.store.find? key
  discovery : ∀ key ∈ discoveryKeys, s.discovery.find? key = s'.discovery.find? key
  logging : ∀ key ∈ loggingKeys, s.logging.find? key = s'.logging.find? key

/-- The files hold documents that differ at most in sections and keys that are not known. -/
inductive AgreeOnKnown : Option ByteArray → Option ByteArray → Prop
  | texts {bytes bytes' : ByteArray} {text text' : String} {root root' : Entries} :
      String.fromUTF8? bytes = some text → Toml.parse? text = some root →
      String.fromUTF8? bytes' = some text' → Toml.parse? text' = some root' →
      Option.Rel SameKnown (sections? root) (sections? root') →
      AgreeOnKnown (some bytes) (some bytes')

/-- It does not matter which of the two sections comes first. -/
theorem SameKnown.symm {s s' : FileSections} (h : SameKnown s s') : SameKnown s' s :=
  ⟨fun key hkey => (h.driver key hkey).symm, fun key hkey => (h.store key hkey).symm,
    fun key hkey => (h.discovery key hkey).symm, fun key hkey => (h.logging key hkey).symm⟩

/-- Sections with the same items under the known keys say the same. -/
theorem SameKnown.saidBy {s s' : FileSections} (h : SameKnown s s') {f : FileSettings}
    (hf : f.SaidBy s) : f.SaidBy s' where
  name := h.driver "name" (by decide) ▸ hf.name
  nodeId := h.driver "node_id" (by decide) ▸ hf.nodeId
  endpoint := h.driver "endpoint" (by decide) ▸ hf.endpoint
  storePath := h.store "path" (by decide) ▸ hf.storePath
  command := h.discovery "nvme_cli" (by decide) ▸ hf.command
  transport := h.discovery "default_transport" (by decide) ▸ hf.transport
  port := h.discovery "default_port" (by decide) ▸ hf.port
  hostNqn := h.discovery "host_nqn" (by decide) ▸ hf.hostNqn
  level := h.logging "level" (by decide) ▸ hf.level
  format := h.logging "format" (by decide) ▸ hf.format

/-- It does not matter which file comes first, if both have sections or neither has. -/
theorem sameKnown_comm {s? s'? : Option FileSections} (h : Option.Rel SameKnown s? s'?) :
    Option.Rel SameKnown s'? s? := by
  cases h with
  | some hsame => exact .some hsame.symm
  | none => exact .none

/-- It does not matter which of the two files comes first. -/
theorem AgreeOnKnown.symm {file file' : Option ByteArray} (h : AgreeOnKnown file file') :
    AgreeOnKnown file' file := by
  obtain ⟨htext, hroot, htext', hroot', hsections⟩ := h
  exact .texts htext' hroot' htext hroot (sameKnown_comm hsections)

/-- Files that agree about the known keys are decoded alike. -/
theorem AgreeOnKnown.decodes {file file' : Option ByteArray} (h : AgreeOnKnown file file')
    {f : FileSettings} (hf : Decodes file f) : Decodes file' f := by
  obtain ⟨htext, hroot, htext', hroot', hsections⟩ := h
  obtain _ | ⟨htext₁, hroot₁, hs, hsaid⟩ := hf
  obtain rfl := Option.some.inj (htext.symm.trans htext₁)
  obtain rfl := Option.some.inj (hroot.symm.trans hroot₁)
  rw [hs] at hsections
  generalize hs' : sections? _ = found at hsections
  cases hsections with
  | some hsame => exact .text htext' hroot' hs' (hsame.saidBy hsaid)

end Config

namespace Startup

open Config

/-- A file is read exactly if it can be decoded, and as what it says together with the defaults. -/
theorem readConfig_eq_ok_iff {path : String} {file : Option ByteArray} {config : Config} :
    readConfig path file = .ok config ↔ ∃ f, Decodes file f ∧ config = f.config := by
  constructor
  · intro h
    cases file with
    | none =>
      obtain rfl := Except.ok.inj h
      exact ⟨{}, .missing, rfl⟩
    | some bytes =>
      unfold readConfig at h
      dsimp only at h
      split at h
      · cases h
      · next text htext =>
        split at h
        · cases h
        · next parsed hparsed =>
          obtain rfl := Except.ok.inj h
          obtain ⟨root, hroot, hentries⟩ := Option.bind_eq_some_iff.mp hparsed
          obtain ⟨s, f, hs, hf, hconfig⟩ := ofEntries?_eq_some_iff.mp hentries
          exact ⟨f, .text htext hroot hs hf, hconfig⟩
  · rintro ⟨f, hf, rfl⟩
    cases hf with
    | missing => rfl
    | @text bytes text root s f htext hroot hs hf =>
      have hparsed : Config.parse? text = some f.config :=
        Option.bind_eq_some_iff.mpr ⟨root, hroot, ofEntries?_eq_some_iff.mpr ⟨s, f, hs, hf, rfl⟩⟩
      unfold readConfig
      dsimp only
      rw [htext]
      dsimp only
      rw [hparsed]

/-- A file that holds a text but cannot be decoded is refused, by its path. -/
theorem readConfig_eq_error {path : String} {file : Option ByteArray} (hfile : IsReadable file)
    (hnone : ¬ ∃ f, Decodes file f) : readConfig path file = .error (.invalidFile path) := by
  cases hread : readConfig path file with
  | ok config =>
    obtain ⟨f, hf, -⟩ := readConfig_eq_ok_iff.mp hread
    exact absurd ⟨f, hf⟩ hnone
  | error e =>
    cases hfile with
    | missing => cases hread
    | @text bytes text htext =>
      unfold readConfig at hread
      dsimp only at hread
      rw [htext] at hread
      dsimp only at hread
      split at hread
      · exact hread.symm
      · cases hread

/-! ## All sources together -/

/-- The format of log lines that is asked for on the command line exists. -/
def AsksForFormat (said : Setting → Option String) : Prop :=
  ∀ text, said .logFormat = some text → text = "text" ∨ text = "json"

/-- Each field from the first of its sources that says anything: the command line, the environment,
the file, the default. -/
def merged (said : Setting → Option String) (env : Environment) (f : FileSettings) : Config where
  driver := {
    name := ((said .driverName).or f.name).getD "csi.nvmf.io"
    nodeId := ((said .nodeId).or (env.nodeId.or f.nodeId)).getD ""
    endpoint := ((said .endpoint).or (env.endpoint.or f.endpoint)).getD "unix:///csi/csi.sock" }
  store := { path := ((said .storePath).or f.storePath).getD "/var/lib/nvmf-csi/allocations.redb" }
  discovery := {
    command := ((said .discoveryCommand).or f.command).getD "nvme"
    defaultTransport := f.transport.getD .tcp
    defaultPort := f.port.getD 4420
    hostNqn := f.hostNqn }
  logging := {
    level := ((said .logLevel).or f.level).getD "info"
    format := (((said .logFormat).bind LogFormat.ofName?).or f.format).getD .text }

section

variable {said : Setting → Option String} {l : CommandLine}

/-- What overrides the file: the options, and for two of the fields also the environment. -/
theorem override?_eq (hl : l.value? = said) (env : Environment) :
    override? l env .logFormat = said .logFormat ∧
      override? l env .driverName = said .driverName ∧
      override? l env .nodeId = (said .nodeId).or env.nodeId ∧
      override? l env .endpoint = (said .endpoint).or env.endpoint ∧
      override? l env .storePath = said .storePath ∧
      override? l env .discoveryCommand = said .discoveryCommand ∧
      override? l env .logLevel = said .logLevel := by
  subst hl
  exact ⟨Option.or_none, Option.or_none, rfl, rfl, Option.or_none, Option.or_none, Option.or_none⟩

/-- A known format that is asked for is used, and the one of the file if none is asked for. -/
theorem logFormat_eq_ok (hformat : AsksForFormat said) (default : LogFormat) :
    logFormat (said .logFormat) default =
      .ok (((said .logFormat).bind LogFormat.ofName?).getD default) := by
  unfold logFormat
  cases hsaid : said .logFormat with
  | none => rfl
  | some text => rcases hformat text hsaid with rfl | rfl <;> rfl

/-- With a format that can be used, the overrides put the sources together. -/
theorem applyOverrides_eq_ok (hformat : AsksForFormat said) (hl : l.value? = said)
    (env : Environment) (f : FileSettings) :
    applyOverrides f.config (override? l env) = .ok (merged said env f) := by
  obtain ⟨hlogFormat, hname, hnodeId, hendpoint, hpath, hcommand, hlevel⟩ := override?_eq hl env
  unfold applyOverrides merged
  rw [hlogFormat, logFormat_eq_ok hformat, hname, hnodeId, hendpoint, hpath, hcommand, hlevel]
  simp only [Option.getD_or]
  rfl

/-- With an unknown format the overrides are refused. -/
theorem applyOverrides_eq_error {text : String} (hsaid : said .logFormat = some text)
    (htext : text ≠ "text" ∧ text ≠ "json") (hl : l.value? = said) (env : Environment)
    (config : Config) :
    applyOverrides config (override? l env) = .error (.unknownLogFormat text) := by
  obtain ⟨hlogFormat, -⟩ := override?_eq hl env
  have hunknown : LogFormat.ofName? text = none := by
    rw [Option.eq_none_iff_forall_ne_some]
    intro format hformat
    have hname := LogFormat.ofName?_eq_some_iff.mp hformat
    cases format with
    | text => exact htext.1 hname
    | json => exact htext.2 hname
  unfold applyOverrides logFormat
  rw [hlogFormat, hsaid]
  dsimp only
  rw [hunknown]
  rfl

/-- The path of the configuration file, with what the command line says about it. -/
def pathSaid (said : Setting → Option String) : String := (said .config).getD defaultConfigPath

/-- The options are read, then the file at the path that they give, and then it is overridden. -/
theorem prepare_eq {options : List Spelled} (h : Spelled.Give options said) (env : Environment)
    (files : String → Option ByteArray) : ∃ l : CommandLine, l.value? = said ∧
      prepare (options.flatMap Spelled.args) env files =
        (readConfig (pathSaid said) (files (pathSaid said))).bind fun config =>
          (applyOverrides config (override? l env)).map (⟨pathSaid said, ·⟩) := by
  obtain ⟨l, hparse, hl⟩ := CommandLine.parse_spelled h
  have hpath : configPathOf l = pathSaid said := by rw [configPathOf, hl, pathSaid]
  refine ⟨l, hl, ?_⟩
  unfold prepare ofCommandLine
  rw [hparse]
  dsimp only
  rw [hpath]
  rfl

variable {options options' : List Spelled} {env : Environment}
variable {files files' : String → Option ByteArray} {f : FileSettings}

/-- If file and format are in order, the driver starts with the sources put together. -/
theorem prepare_eq_ok (h : Spelled.Give options said) (hf : Decodes (files (pathSaid said)) f)
    (hformat : AsksForFormat said) : prepare (options.flatMap Spelled.args) env files =
      .ok ⟨pathSaid said, merged said env f⟩ := by
  obtain ⟨l, hl, hprepare⟩ := prepare_eq h env files
  rw [hprepare, readConfig_eq_ok_iff.mpr ⟨f, hf, rfl⟩]
  show (applyOverrides f.config (override? l env)).map _ = _
  rw [applyOverrides_eq_ok hformat hl]
  rfl

/-- An unknown format is complained about once the file has been read. -/
theorem prepare_eq_unknownLogFormat (h : Spelled.Give options said)
    (hf : Decodes (files (pathSaid said)) f) {text : String} (hsaid : said .logFormat = some text)
    (htext : text ≠ "text" ∧ text ≠ "json") :
    prepare (options.flatMap Spelled.args) env files = .error (.unknownLogFormat text) := by
  obtain ⟨l, hl, hprepare⟩ := prepare_eq h env files
  rw [hprepare, readConfig_eq_ok_iff.mpr ⟨f, hf, rfl⟩]
  show (applyOverrides f.config (override? l env)).map _ = _
  rw [applyOverrides_eq_error hsaid htext hl]
  rfl

/-- A file that cannot be decoded is complained about whatever the options are. -/
theorem prepare_eq_invalidFile (h : Spelled.Give options said)
    (hfile : IsReadable (files (pathSaid said)))
    (hnone : ¬ ∃ f, Decodes (files (pathSaid said)) f) :
    prepare (options.flatMap Spelled.args) env files = .error (.invalidFile (pathSaid said)) := by
  obtain ⟨l, -, hprepare⟩ := prepare_eq h env files
  rw [hprepare, readConfig_eq_error hfile hnone]
  rfl

/-- What asks for no known format asks for an unknown one by name. -/
theorem exists_of_not_asksForFormat (h : ¬ AsksForFormat said) :
    ∃ text, said .logFormat = some text ∧ text ≠ "text" ∧ text ≠ "json" := by
  unfold AsksForFormat at h
  push Not at h
  exact h

/-- What a driver starts with depends on what is said, and not on how it is written. -/
theorem prepare_congr (h : Spelled.Give options said) (h' : Spelled.Give options' said)
    (hfile : IsReadable (files (pathSaid said))) (hfile' : IsReadable (files' (pathSaid said)))
    (hsame : ∀ f, Decodes (files (pathSaid said)) f ↔ Decodes (files' (pathSaid said)) f) :
    prepare (options.flatMap Spelled.args) env files =
      prepare (options'.flatMap Spelled.args) env files' := by
  by_cases hdecodes : ∃ f, Decodes (files (pathSaid said)) f
  · obtain ⟨f, hf⟩ := hdecodes
    have hf' := (hsame f).mp hf
    by_cases hformat : AsksForFormat said
    · rw [prepare_eq_ok h hf hformat, prepare_eq_ok h' hf' hformat]
    · obtain ⟨text, hsaid, htext⟩ := exists_of_not_asksForFormat hformat
      rw [prepare_eq_unknownLogFormat h hf hsaid htext,
        prepare_eq_unknownLogFormat h' hf' hsaid htext]
  · have hnone : ¬ ∃ f, Decodes (files' (pathSaid said)) f := by
      rintro ⟨f, hf⟩
      exact hdecodes ⟨f, (hsame f).mpr hf⟩
    rw [prepare_eq_invalidFile h hfile hdecodes, prepare_eq_invalidFile h' hfile' hnone]

/-- A driver whose options are legal, each given once, starts exactly if its file can be read as a
configuration and the format of log lines it is asked for exists; a file that cannot is complained
about first.  It starts with each field from the first source that says anything about it.  The
order and the spelling of the options do not matter, nor do keys of the file that are not known. -/
theorem prepare_by_source (h : Spelled.Give options said)
    (hfile : IsReadable (files (pathSaid said))) :
    ((∃ startup, prepare (options.flatMap Spelled.args) env files = .ok startup) ↔
      (∃ f, Decodes (files (pathSaid said)) f) ∧ AsksForFormat said) ∧
    (∀ f, Decodes (files (pathSaid said)) f → AsksForFormat said →
      prepare (options.flatMap Spelled.args) env files =
        .ok ⟨pathSaid said, merged said env f⟩) ∧
    (∀ f text, Decodes (files (pathSaid said)) f → said .logFormat = some text →
      text ≠ "text" ∧ text ≠ "json" →
      prepare (options.flatMap Spelled.args) env files = .error (.unknownLogFormat text)) ∧
    ((¬ ∃ f, Decodes (files (pathSaid said)) f) →
      prepare (options.flatMap Spelled.args) env files =
        .error (.invalidFile (pathSaid said))) ∧
    (∀ options', Spelled.Give options' said →
      prepare (options'.flatMap Spelled.args) env files =
        prepare (options.flatMap Spelled.args) env files) ∧
    ∀ files', AgreeOnKnown (files (pathSaid said)) (files' (pathSaid said)) →
      prepare (options.flatMap Spelled.args) env files' =
        prepare (options.flatMap Spelled.args) env files := by
  refine ⟨⟨?_, ?_⟩, fun f hf hformat => prepare_eq_ok h hf hformat,
    fun f text hf hsaid htext => prepare_eq_unknownLogFormat h hf hsaid htext,
    fun hnone => prepare_eq_invalidFile h hfile hnone,
    fun options' h' => prepare_congr h' h hfile hfile fun f => .rfl, fun files' hagree => ?_⟩
  · rintro ⟨startup, hstartup⟩
    by_contra hnot
    rcases not_and_or.mp hnot with hnone | hformat
    · rw [prepare_eq_invalidFile h hfile hnone] at hstartup
      cases hstartup
    · by_cases hdecodes : ∃ f, Decodes (files (pathSaid said)) f
      · obtain ⟨f, hf⟩ := hdecodes
        obtain ⟨text, hsaid, htext⟩ := exists_of_not_asksForFormat hformat
        rw [prepare_eq_unknownLogFormat h hf hsaid htext] at hstartup
        cases hstartup
      · rw [prepare_eq_invalidFile h hfile hdecodes] at hstartup
        cases hstartup
  · rintro ⟨⟨f, hf⟩, hformat⟩
    exact ⟨_, prepare_eq_ok h hf hformat⟩
  · have hfile' : IsReadable (files' (pathSaid said)) := by
      generalize files (pathSaid said) = file at hagree
      generalize files' (pathSaid said) = file' at hagree ⊢
      obtain ⟨-, -, htext', -, -⟩ := hagree
      exact .text htext'
    exact prepare_congr h h hfile' hfile fun f => ⟨hagree.symm.decodes, hagree.decodes⟩

end

/-- A file with one known key, and with one that nobody knows. -/
def partialFile : String := "[driver]\nnode_id = \"n-0\"\nname = \"drv\"\nextra = 1\n"

/-- Three options, in three spellings. -/
def spokenOptions : List Spelled :=
  [⟨.nodeId, "-", .long⟩, ⟨.config, "/etc/b.toml", .shortJoined⟩, ⟨.logFormat, "json", .longEquals⟩]

/-- What these options say. -/
def spokenSettings : Setting → Option String
  | .nodeId => some "-"
  | .config => some "/etc/b.toml"
  | .logFormat => some "json"
  | _ => none

/-- The node has its name from the option, the endpoint comes from the environment, and the name of
the driver from the file, which leaves the rest to the defaults. -/
theorem prepare_partialFile :
    prepare ["--node-id", "-", "-c/etc/b.toml", "--log-format=json"]
        { endpoint := some "tcp://[::]:1", nodeId := some "n-1" }
        (fun _ => some partialFile.toUTF8) =
      .ok ⟨"/etc/b.toml", {
        driver := { name := "drv", nodeId := "-", endpoint := "tcp://[::]:1" }
        logging := { format := .json } }⟩ := by
  have hgive : Spelled.Give spokenOptions spokenSettings := by
    refine ⟨?_, by decide, ?_⟩
    · intro o ho
      simp only [spokenOptions, List.mem_cons, List.not_mem_nil, or_false] at ho
      rcases ho with rfl | rfl | rfl
      all_goals exact ⟨by decide, by decide, by decide, by decide⟩
    · intro s v
      cases s <;> simp [spokenSettings, spokenOptions]
  have htext : String.fromUTF8? partialFile.toUTF8 = some partialFile :=
    dif_pos partialFile.isValidUTF8
  let alone : Config := { driver := { name := "drv", nodeId := "n-0" } }
  have hparsed : Config.parse? partialFile = some alone := by decide +kernel
  have hread : readConfig "/etc/b.toml" (some partialFile.toUTF8) = .ok alone := by
    simp only [readConfig, htext, hparsed]
  obtain ⟨f, hf, halone⟩ := readConfig_eq_ok_iff.mp hread
  have hformat : AsksForFormat spokenSettings := by
    intro text htext
    exact .inr (Option.some.inj htext).symm
  let env : Environment := { endpoint := some "tcp://[::]:1", nodeId := some "n-1" }
  let files : String → Option ByteArray := fun _ => some partialFile.toUTF8
  obtain ⟨-, hstarts, -⟩ := @prepare_by_source spokenSettings spokenOptions env files hgive
    (.text htext)
  have hmerged : merged spokenSettings env f = {
      driver := { name := "drv", nodeId := "-", endpoint := "tcp://[::]:1" }
      logging := { format := .json } } := by
    have hname : f.name.getD "csi.nvmf.io" = "drv" := (congrArg (·.driver.name) halone).symm
    have hstore : f.store = {} := (congrArg (·.store) halone).symm
    have hdiscovery : f.discovery = {} := (congrArg (·.discovery) halone).symm
    have hlevel : f.level.getD "info" = "info" := (congrArg (·.logging.level) halone).symm
    unfold merged
    simp only [Option.getD_or, hname, hlevel]
    show (⟨_, f.store, f.discovery, _⟩ : Config) = _
    rw [hstore, hdiscovery]
    rfl
  rw [← hmerged]
  exact hstarts f hf hformat

end Startup

end VolumeBroker

import VolumeBroker.Config
import VolumeBroker.Text.Numeral
import VolumeBroker.Toml.Document

/-!
# Configuration files

A configuration file is a TOML document with a table for each section.  Keys that are not known are
passed over, and a key that is missing leaves its field at the default.  Values are taken as they
are: a number is no text and a text is no number.  A section may also be an array of its values in
the order of its fields, or a date, which has no fields at all.  A choice is given by its name, or
by a table whose only key is that name and stands for nothing.
-/

set_option autoImplicit false

namespace VolumeBroker

open Toml

namespace Config

/-- The fields of a section that has these names for them. -/
def fields? (names : List String) : Item → Option Entries
  | .table _ entries => some entries
  | .array items => some (names.zip items)
  | .tables elements => some (names.zip (elements.map (.table .header)))
  | .datetime => some []
  | _ => none

/-- Reads a field, which keeps its default where it is missing. -/
def field? {α : Type} (read : Item → Option α) (default : α) (name : String) (fields : Entries) :
    Option α :=
  match fields.find? name with
  | none => some default
  | some item => read item

/-- The text that an item is. -/
def textOf? : Item → Option String
  | .string s => some s
  | _ => none

/-- The port that an item is, if it is a whole number in range. -/
def portOf? : Item → Option UInt16
  | .integer n => if 0 ≤ n ∧ n ≤ Text.maxPort then some (.ofNat n.toNat) else none
  | _ => none

/-- Whether an item stands for nothing: an empty table or array. -/
def isNothing : Item → Bool
  | .table _ entries => entries.isEmpty
  | .array items => items.isEmpty
  | _ => false

/-- The name of a choice without a value of its own: a text, or a table with one empty member. -/
def choiceOf? : Item → Option String
  | .string s => some s
  | .table _ [(name, item)] => if isNothing item then some name else none
  | _ => none

/-- Reads a section of the file, or takes the default where there is none. -/
def sectionOf? {α : Type} (name : String) (names : List String) (default : α)
    (read : Entries → Option α) (root : Entries) : Option α :=
  match root.find? name with
  | none => some default
  | some item => (fields? names item).bind read

/-- Reads the section of the driver, with a default for each field that is not given. -/
def driverOf? (fields : Entries) : Option DriverSettings :=
  let default : DriverSettings := {}
  return {
    name := ← field? textOf? default.name "name" fields
    nodeId := ← field? textOf? default.nodeId "node_id" fields
    endpoint := ← field? textOf? default.endpoint "endpoint" fields }

/-- Reads the section of the store. -/
def storeOf? (fields : Entries) : Option StoreSettings :=
  let default : StoreSettings := {}
  return { path := ← field? textOf? default.path "path" fields }

/-- Reads the section of the discovery, where the name of the host may be missing for good. -/
def discoveryOf? (fields : Entries) : Option DiscoverySettings :=
  let default : DiscoverySettings := {}
  return {
    command := ← field? textOf? default.command "nvme_cli" fields
    defaultTransport := ←
      field? (fun i => (choiceOf? i).bind Transport.ofName?) default.defaultTransport
        "default_transport" fields
    defaultPort := ← field? portOf? default.defaultPort "default_port" fields
    hostNqn := ← field? (fun i => (textOf? i).map some) default.hostNqn "host_nqn" fields }

/-- Reads the section of the logging. -/
def loggingOf? (fields : Entries) : Option LogSettings :=
  let default : LogSettings := {}
  return {
    level := ← field? textOf? default.level "level" fields
    format := ←
      field? (fun i => (choiceOf? i).bind LogFormat.ofName?) default.format "format" fields }

/-- Reads a configuration from the entries of a document. -/
def ofEntries? (root : Entries) : Option Config :=
  return {
    driver := ← sectionOf? "driver" ["name", "node_id", "endpoint"] {} driverOf? root
    store := ← sectionOf? "store" ["path"] {} storeOf? root
    discovery := ←
      sectionOf? "discovery" ["nvme_cli", "default_transport", "default_port", "host_nqn"] {}
        discoveryOf? root
    logging := ← sectionOf? "logging" ["level", "format"] {} loggingOf? root }

/-- Reads a configuration from the text of a file. -/
def parse? (s : String) : Option Config := (Toml.parse? s).bind ofEntries?

end Config

end VolumeBroker

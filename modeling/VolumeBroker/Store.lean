import VolumeBroker.Snapshot
import VolumeBroker.Device.Record

/-!
# Stores

A store keeps allocations.  One kind keeps them as they are and loses them with the process, the
other keeps the text of a record for each device.  Saving puts the given records in place of those
that were there and leaves all others alone; loading gives everything that is there, and fails if a
text is no record.
-/

set_option autoImplicit false

namespace VolumeBroker

/-- The part of a database that fails. -/
inductive DatabasePart
  /-- The database as a whole, which cannot be opened. -/
  | file
  | storage
  | table
  | transaction
  | commit
  deriving DecidableEq, Repr

/-- What a failure of the part is called. -/
def DatabasePart.title : DatabasePart → String
  | .file => "redb error"
  | .storage => "redb storage error"
  | .table => "redb table error"
  | .transaction => "redb transaction error"
  | .commit => "redb commit error"

/-- Why a store did not do what it was asked for. -/
inductive StoreError
  /-- A text is no record. -/
  | undecodable
  | database (part : DatabasePart) (text : String)
  /-- The directory of the database cannot be made. -/
  | io (text : String)
  /-- The task that works on the database has come to no end of its own. -/
  | task (text : String)
  | backend (text : String)
  deriving DecidableEq, Repr

namespace StoreError

/-- The complaint in words, which say what part has failed. -/
def message : StoreError → String
  | .undecodable => "record encoding error: " ++ Json.unreadable
  | .database part text => part.title ++ ": " ++ text
  | .io text => "io error: " ++ text
  | .task text => "store task failed: " ++ text
  | .backend text => "store backend error: " ++ text

/-- Whether the trouble is in what is stored and not in the store. -/
def isUndecodable : StoreError → Bool
  | .undecodable => true
  | _ => false

end StoreError

/-- A store with what it holds. -/
inductive Store
  | memory (records : Snapshot)
  /-- The texts of records, kept in a database. -/
  | database (texts : Std.ExtTreeMap String String)

namespace Store

/-- The name by which a store goes. -/
def name : Store → String
  | .memory _ => "memory"
  | .database _ => "redb"

/-- A store kept in memory that holds the records. -/
def inMemory (records : Snapshot) : Store := .memory records

/-- A store in a database that holds the records as texts. -/
def inDatabase (records : Snapshot) : Store := .database (records.map fun _ a => a.encode)

/-- Everything that the store holds, unless a text in it is no record. -/
def load : Store → Except StoreError Snapshot
  | .memory records => .ok records
  | .database texts =>
    if texts.toList.all fun (_, text) => (Allocation.decode? text).isSome then
      .ok (texts.filterMap fun _ text => Allocation.decode? text)
    else .error .undecodable

/-- Puts records into the store, in place of those with the same names. -/
def save (s : Store) (records : Snapshot) : Store :=
  match s with
  | .memory old => .memory (old ∪ records)
  | .database texts => .database (texts ∪ records.map fun _ a => a.encode)

/-- Puts one record into the store. -/
def put (s : Store) (nqn : String) (a : Allocation) : Store :=
  s.save ((∅ : Snapshot).insert nqn a)

/-- Closes the store and opens it again, with other hands having put texts into it between.  Only a
database is there to be written to. -/
def reopen (s : Store) (texts : Std.ExtTreeMap String String) : Store :=
  match s with
  | .memory records => .memory records
  | .database old => .database (old ∪ texts)

end Store

end VolumeBroker

/-!
# Items of a TOML document

An item is what a key stands for.  Tables remember how they came about, because that decides whether
they may still grow: a table that a header names or that stands between braces is closed to dotted
keys, and one that was only passed through on the way to another is open to all.

`grow` is the one way in which a table changes: it follows a path of keys from a table, making the
tables that are missing on the way, and lets a function change the table at the end.
-/

set_option autoImplicit false

namespace VolumeBroker.Toml

/-- How a table came about. -/
inductive Origin
  | header
  /-- A header names a table inside it. -/
  | implied
  | dotted
  | inline
  deriving DecidableEq, Repr

/-- What a key stands for.  Of values that nobody asks for only the kind is kept. -/
inductive Item
  | string (text : String)
  | integer (value : Int)
  | float
  | boolean (value : Bool)
  | datetime
  | array (items : List Item)
  | table (origin : Origin) (entries : List (String × Item))
  /-- The tables that headers in double brackets have begun, the newest one last. -/
  | tables (elements : List (List (String × Item)))

/-- The entries of a table, in the order in which they were made. -/
abbrev Entries := List (String × Item)

namespace Entries

/-- The item under a key. -/
def find? (entries : Entries) (key : String) : Option Item := entries.lookup key

/-- Makes a key stand for an item, in the place where it stood for another or at the end. -/
def set (entries : Entries) (key : String) (item : Item) : Entries :=
  match entries with
  | [] => [(key, item)]
  | (k, old) :: rest => if k = key then (key, item) :: rest else (k, old) :: set rest key item

/-- Adds a key that must be new. -/
def insertNew? (entries : Entries) (key : String) (item : Item) : Option Entries :=
  if (entries.find? key).isSome then none else some (entries ++ [(key, item)])

/-- The table that a key leads into, made new where there is none.  On its way to a header a path
may pass through the tables that headers name; on its way to the value of a dotted key it may
not. -/
def enter? (entries : Entries) (toHeader : Bool) (key : String) :
    Option (Origin × Entries × (Entries → Item)) :=
  match entries.find? key with
  | none =>
    let origin : Origin := if toHeader then .implied else .dotted
    some (origin, [], .table origin)
  | some (.table origin inner) =>
    if origin = .inline ∨ (origin = .header ∧ !toHeader) then none
    else some (origin, inner, .table origin)
  | some (.tables elements) =>
    (elements.getLast?).map fun last => (.header, last, fun e => .tables (elements.dropLast ++ [e]))
  | some _ => none

/-- Follows a path of keys from a table and changes the table at its end. -/
def grow (toHeader : Bool) (change : Origin → Entries → Option Entries) :
    List String → Origin → Entries → Option Entries
  | [], origin, entries => change origin entries
  | key :: path, _, entries => do
    let (origin, inner, close) ← entries.enter? toHeader key
    let inner ← grow toHeader change path origin inner
    return entries.set key (close inner)

/-- Adds the value of a key that may be dotted.  A dotted key must end in a table of dotted keys. -/
def insertPath? (entries : Entries) (path : List String) (key : String) (item : Item) :
    Option Entries :=
  grow false
    (fun origin entries =>
      if !path.isEmpty && origin != .dotted then none else entries.insertNew? key item)
    path .header entries

end Entries

/-- A key with the keys in front of it, and its value. -/
structure Pair where
  path : List String
  key : String
  value : Item

/-- Adds pairs to a table, one after the other. -/
def Entries.insertPairs? (entries : Entries) (pairs : List Pair) : Option Entries :=
  pairs.foldlM (fun entries p => entries.insertPath? p.path p.key p.value) entries

end VolumeBroker.Toml

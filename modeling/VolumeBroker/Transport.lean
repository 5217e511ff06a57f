import VolumeBroker.Text.Blank

/-!
# Transports

A subsystem of the fabric is reached over one of four transports.  Each has one name, which is what
is printed; a name is read with blanks around it and in any case of its ASCII letters.
-/

set_option autoImplicit false

namespace VolumeBroker

/-- How a subsystem is reached. -/
inductive Transport
  | tcp
  | rdma
  | fc
  | loop
  deriving DecidableEq, Repr, Inhabited

/-- A text that names no transport. -/
structure UnknownTransport where
  text : String
  deriving DecidableEq, Repr

namespace UnknownTransport

/-- The wording, which repeats the text as it was given. -/
def message (e : UnknownTransport) : String := "unknown transport: " ++ e.text

end UnknownTransport

namespace Transport

/-- The name of a transport, in lower case. -/
def name : Transport → String
  | .tcp => "tcp"
  | .rdma => "rdma"
  | .fc => "fc"
  | .loop => "loop"

/-- All transports. -/
def all : List Transport := [.tcp, .rdma, .fc, .loop]

/-- The transport of this name. -/
def ofName? (s : String) : Option Transport := all.find? (·.name == s)

/-- Reads the name of a transport; blanks around it and the case of its letters do not matter. -/
def parse (s : String) : Except UnknownTransport Transport :=
  match ofName? (Text.trim s).toLower with
  | some t => .ok t
  | none => .error ⟨s⟩

/-- A name is read back as its transport. -/
theorem ofName?_name (t : Transport) : ofName? t.name = some t := by
  cases t <;> decide

/-- Only its own name is exactly the name of a transport. -/
theorem ofName?_eq_some_iff {s : String} {t : Transport} : ofName? s = some t ↔ s = t.name := by
  constructor
  · intro h
    have := List.find?_some h
    simpa using (beq_iff_eq.1 this).symm
  · rintro rfl
    exact ofName?_name t

/-- Transports differ in their names. -/
theorem name_inj {t t' : Transport} : t.name = t'.name ↔ t = t' := by
  rw [← ofName?_eq_some_iff, ofName?_name, Option.some.injEq]

end Transport

end VolumeBroker

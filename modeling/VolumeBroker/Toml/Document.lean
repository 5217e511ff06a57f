import VolumeBroker.Toml.Quoted
import VolumeBroker.Toml.Scalar

/-!
# TOML documents

A document is a list of lines: pairs of a key and a value, and headers.  A header ends the table
before it and begins the next; `Section.attach` puts a table that has ended into its place.  Values
nest to a fixed depth.  A line end may be written as a carriage return with a line feed; no other
carriage return is allowed anywhere.
-/

set_option autoImplicit false

namespace VolumeBroker.Toml

open Reader

/-! ## Values -/

/-- Takes a comment, up to the end of its line. -/
def comment : Reader Unit := do
  mark '#'
  let _ ← span isPrintable

/-- Skips lines that hold nothing, or nothing but a comment. -/
def blankLines (bound : Nat) : Reader Unit := do
  let _ ← many
    ((fun _ => ()) <$> one (fun c => isWhite c || c == '\n') <|> (comment *> mark '\n')) bound

/-- Takes the equals sign and the value of a pair. -/
def pairOf (key : Reader (List String)) (value : Reader Item) : Reader Pair := do
  let keys ← key
  mark '='
  white
  let value ← value
  return ⟨keys.dropLast, keys.getLastD "", value⟩

/-- Takes an array.  A comma may follow its last value. -/
def array (value : Reader Item) (bound : Nat) : Reader Item := do
  mark '['
  let items ← optional <|
    separated (blankLines bound *> value <* blankLines bound) (mark ',') bound
  if items.isSome then
    let _ ← optional (mark ',')
  blankLines bound
  mark ']'
  return .array (items.getD [])

/-- Takes a table within braces, which stands on one line. -/
def inlineTable (value : Reader Item) (bound : Nat) : Reader Item := do
  mark '\x7b'
  let pairs ← optional (separated (pairOf (dottedKey bound) value <* white) (mark ',') bound)
  white
  mark '\x7d'
  match Entries.insertPairs? [] (pairs.getD []) with
  | some entries => return .table .inline entries
  | none => failure

/-- How deep arrays and tables within braces may nest. -/
def maxDepth : Nat := 79

/-- Takes a value with at most so many levels of nesting. -/
def value (bound : Nat) : Nat → Reader Item
  | 0 => (.string <$> string bound) <|> scalar bound
  | depth + 1 =>
    array (value bound depth) bound <|> inlineTable (value bound depth) bound <|>
      (.string <$> string bound) <|> scalar bound

/-! ## Lines -/

/-- A line that says something. -/
inductive Line
  | pair (pair : Pair)
  | header (path : List String)
  | element (path : List String)

/-- Takes the end of a line or of the text. -/
def lineEnd : Reader Unit := mark '\n' <|> atEnd

/-- Takes what may follow on a line that has said something. -/
def lineRest : Reader Unit := do
  white
  let _ ← optional comment
  lineEnd

/-- Reads the header of a table or of an element of an array. -/
def headerLine (bound : Nat) : Reader Line := do
  if ← comes "[[" then
    marks "[["
    let path ← dottedKey bound
    marks "]]"
    return .element path
  else
    mark '['
    let path ← dottedKey bound
    mark ']'
    return .header path

/-- Takes a line, which may say nothing. -/
def line (bound : Nat) : Reader (Option Line) := do
  white
  if ← comes "\n" then mark '\n'; return none
  if ← comes "#" then comment; lineEnd; return none
  let line ← if ← comes "[" then headerLine bound
    else Line.pair <$> pairOf (dottedKey bound) (value bound maxDepth)
  lineRest
  return some line

/-- Writes the line ends of a text as line feeds. -/
def unifyLineEnds : List Char → List Char
  | '\r' :: '\n' :: rest => '\n' :: unifyLineEnds rest
  | c :: rest => c :: unifyLineEnds rest
  | [] => []

/-- The lines of a text.  A mark of the byte order at the beginning says nothing. -/
def lines? (cs : List Char) : Option (List Line) :=
  let cs := match cs with
    | '\uFEFF' :: rest => rest
    | _ => cs
  let cs := unifyLineEnds cs
  let bound := cs.length + 1
  let reader : Reader (List Line) := do
    let lines ← many (line bound) bound
    white
    atEnd
    return lines.filterMap id
  (reader cs).map (·.1)

/-! ## Sections -/

/-- A header with the pairs that follow it. -/
structure Section where
  /-- Whether the header stands in double brackets. -/
  isElement : Bool
  path : List String
  pairs : List Pair := []

/-- A document as sections: the pairs before the first header, and the sections in order. -/
structure Sections where
  top : List Pair := []
  sections : List Section := []

namespace Sections

/-- Puts a line in front of the lines that have been sorted into sections. -/
def addFront (line : Line) (s : Sections) : Sections :=
  match line with
  | .pair p => { s with top := p :: s.top }
  | .header path => ⟨[], ⟨false, path, s.top⟩ :: s.sections⟩
  | .element path => ⟨[], ⟨true, path, s.top⟩ :: s.sections⟩

/-- Groups lines by the header they follow. -/
def ofLines (lines : List Line) : Sections := lines.foldr addFront {}

end Sections

/-- Puts the table of a section into the table that is to hold it, under its last key.  A table may
be named by a header once; it may have been implied before. -/
def Section.place (s : Section) (key : String) (parent : Entries) : Option Entries := do
  match s.isElement, parent.find? key with
  | true, none => return parent.set key (.tables [← Entries.insertPairs? [] s.pairs])
  | true, some (.tables elements) =>
    return parent.set key (.tables (elements ++ [← Entries.insertPairs? [] s.pairs]))
  | false, none => return parent.set key (.table .header (← Entries.insertPairs? [] s.pairs))
  | false, some (.table .implied entries) =>
    return parent.set key (.table .header (← Entries.insertPairs? entries s.pairs))
  | _, _ => none

/-- Puts the table of a section into a document. -/
def Section.attach (root : Entries) (s : Section) : Option Entries :=
  Entries.grow true (fun _ parent => s.place (s.path.getLastD "") parent) s.path.dropLast .header
    root

/-- The entries of the document that lines make up. -/
def entriesOf? (lines : List Line) : Option Entries := do
  let s := Sections.ofLines lines
  let root ← Entries.insertPairs? [] s.top
  s.sections.foldlM Section.attach root

/-- The entries of a text. -/
def parse? (s : String) : Option Entries := (lines? s.toList).bind entriesOf?

end VolumeBroker.Toml

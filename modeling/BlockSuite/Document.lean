import BlockSuite.Yaml.Reader
import BlockSuite.Check.Located
import BlockSuite.Suite
import BlockSuite.Text.Utf16

/-!
Suites as documents: a YAML text is read as one mapping and checked against the form of a suite.
A text that cannot be read is reported with the place of the problem, a mapping that is no suite
with the part of it that is refused.
-/

namespace BlockSuite.Document

/-- Where a text comes from. The lines of a file are not shown in reports. -/
inductive Source where
  | text (filename : Option String)
  | bytes (filename : Option String)
  | file (path : String)
deriving Repr, Inhabited

/-- The name under which a report of a refused part gives the source. -/
def Source.name? : Source → Option String
  | text filename | bytes filename => filename
  | file path => some path

/-- The place of a mark in a text. -/
def place (source : Source) (text : List Char) (m : Yaml.Mark) : Place :=
  let (name, excerpt) := match source with
    | .text _ => ("<unicode string>", m.excerpt text)
    | .bytes _ => ("<byte string>", m.excerpt text)
    | .file path => (path, "")
  { filename := some (.text name)
    line := some (.int m.line)
    column := some (.int m.column)
    excerpt := some excerpt }

/-- The error of what is no text at all. -/
def noText : BlockError := .of .schema "Unexpected error"

/-- The error of a text that cannot be read. -/
def unreadable (source : Source) (text : List Char) : Yaml.Flaw → BlockError
  | .unreadable => noText
  | .problem m p =>
    { reason := .schema
      message := .text ("Invalid YAML\n    " ++ p.text)
      place := place source text m }

/-- How the text of a source is taken in. -/
def Source.intake : Source → Yaml.Intake
  | text _ | bytes _ => .whole
  | file _ => .pieces

/-- The suite that a mapping spells. -/
def suite (source : Source) (v : Invalid.Part) : Except BlockError Suite :=
  (Suite.check v.1).mapError fun issues => (Invalid.mk "TestFile" issues).located v source.name?

/-- The suite of a text; an empty document is one without members. -/
def read (source : Source) (s : String) : Except BlockError Suite := do
  let text := s.toList
  let v ← (Yaml.read source.intake text).mapError (unreadable source text)
  match v.1 with
  | .null => suite source (.dict [], .unknown)
  | .dict _ => suite source v
  | _ => throw (.of .schema "Test file must be a mapping")

/-- The text of bytes. A mark at their beginning tells of units of two bytes and their order. -/
def textOfBytes? : List UInt8 → Option String
  | bs@(0xFF :: 0xFE :: _) => Text.ofUtf16? false bs
  | bs@(0xFE :: 0xFF :: _) => Text.ofUtf16? true bs
  | bs => if Text.isUtf8 bs then some (Text.ofBytes bs) else none

/-- The suite of a value, which has to be a text or the bytes of one. -/
def readValue (filename : Option String) : Value → Except BlockError Suite
  | .text s => read (.text filename) s
  | .bytes bs => (textOfBytes? bs).elim (.error noText) (read (.bytes filename))
  | _ => .error noText

end BlockSuite.Document

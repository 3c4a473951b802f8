import BlockSuite.Yaml.Mark

/-!
Tokens of a YAML text: signs of its structure, properties of nodes, and scalars.
-/

namespace BlockSuite.Yaml

/-- What a token is. -/
inductive Sign where
  | directive
  | documentStart
  | documentEnd
  | streamEnd
  | blockSequenceStart
  | blockMappingStart
  | blockEnd
  | flowSequenceStart
  | flowSequenceEnd
  | flowMappingStart
  | flowMappingEnd
  | key
  | value
  | blockEntry
  | flowEntry
  | reference
  | anchor
  | tag
  | scalar
deriving Repr, DecidableEq, Inhabited

/-- The name of a token in messages. -/
def Sign.name : Sign → String
  | directive => "<directive>"
  | documentStart => "<document start>"
  | documentEnd => "<document end>"
  | streamEnd => "<stream end>"
  | blockSequenceStart => "<block sequence start>"
  | blockMappingStart => "<block mapping start>"
  | blockEnd => "<block end>"
  | flowSequenceStart => "["
  | flowSequenceEnd => "]"
  | flowMappingStart => "\x7b"
  | flowMappingEnd => "\x7d"
  | key => "?"
  | value => ":"
  | blockEntry => "-"
  | flowEntry => ","
  | reference => "<alias>"
  | anchor => "<anchor>"
  | tag => "<tag>"
  | scalar => "<scalar>"

/-- What a directive says. -/
inductive Directive where
  | version (major : Nat)
  | handle (name uri : String)
  | other
deriving Repr, DecidableEq, Inhabited

/-- What a token carries: the name of an anchor or alias, a tag with its handle, a scalar with
whether it is plain, or nothing. -/
inductive Content where
  | none
  | directive (d : Directive)
  | name (s : String)
  | tag (handle : Option String) (suffix : String)
  | scalar (text : String) (plain : Bool)
deriving Repr, DecidableEq, Inhabited

/-- A token with its place in the text. -/
structure Token where
  sign : Sign
  start : Mark
  stop : Mark
  content : Content := .none
deriving Repr, DecidableEq, Inhabited

end BlockSuite.Yaml

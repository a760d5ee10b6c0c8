-- SUMMARY: YAML tokens, and the characters that separate or mark them.

/-!
# YAML tokens

What a document consists of when blanks, comments and indentation are gone: where a
block opens and closes is a token of its own, and so is each key and each value.
-/

namespace IngestCoordinator.Settings.YamlFile

inductive Token where
  /-- A directive that tells the version. -/
  | version
  /-- A directive that tells what the tags with a handle start with. -/
  | handle (handle stem : String)
  | documentStart
  | documentEnd
  | openMapping
  | openSequence
  | closeBlock
  | openBrace
  | closeBrace
  | openBracket
  | closeBracket
  | dash
  | comma
  | key
  | value
  | anchor (name : String)
  | reference (name : String)
  | tag (handle rest : String)
  /-- A text; one without quotes may mean something else. -/
  | text (plain : Bool) (text : String)
  deriving DecidableEq, Repr

/-! ## Characters -/

def isBlank (c : Char) : Bool :=
  c == ' ' || c == '\t'

def isBreak (c : Char) : Bool :=
  c == '\n' || c == '\r'

/-- A character that marks the structure inside braces and brackets. -/
def isFlow (c : Char) : Bool :=
  [',', '[', ']', '{', '}'].contains c

/-- A character of the names of directives and handles. -/
def isWordChar (c : Char) : Bool :=
  c.isAlphanum || c == '_' || c == '-'

/-- A character of the names of anchors. -/
def isAnchorChar (c : Char) : Bool :=
  !(isBlank c || isBreak c || isFlow c || c.toNat = 0xFEFF)

/-- A character of the addresses that tags are. -/
def isUriChar (c : Char) : Bool :=
  isWordChar c || "#;/?:@&=+$,_.!~*'()[]%".toList.contains c

/-- A character of tags that stand behind a handle. -/
def isTagChar (c : Char) : Bool :=
  isUriChar c && !isFlow c && c ≠ '!'

/-- Whether a word ends before what comes next, or before the end of the text. -/
def endsWord (next : Option Char) : Bool :=
  next.all fun c => isBlank c || isBreak c

/-- Whether a line ends before what comes next, or the text does. -/
def endsLine (next : Option Char) : Bool :=
  next.all isBreak

end IngestCoordinator.Settings.YamlFile

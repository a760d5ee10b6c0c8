-- SUMMARY: The layout of a YAML text: the place reached, the open blocks and the keys that may be.
import IngestCoordinator.Settings.Format.Yaml.Token
import IngestCoordinator.Text.Reader

/-!
# Layout

A YAML text is read from left to right while its layout is kept: how far the lines of
the open blocks are indented, how deep in braces and brackets the reader is, and which
token would turn out to be a key if a colon came next.
-/

namespace IngestCoordinator.Settings.YamlFile

/-- A token that may turn out to be a key, by its number and where it starts. -/
structure PossibleKey where
  /-- It stands where only a key can stand. -/
  required : Bool
  token : Nat
  index : Nat
  line : Nat
  column : Nat
  deriving DecidableEq, Repr

/-- A level of indentation. -/
structure Level where
  /-- The indentation outside. -/
  outer : Int
  /-- The level is a block; any other has been made in case a block follows. -/
  block : Bool
  deriving DecidableEq, Repr

structure Layout where
  rest : List Char
  index : Nat := 0
  line : Nat := 0
  column : Nat := 0
  /-- Nothing but blanks has been read of the line. -/
  fresh : Bool := true
  /-- A key may start here. -/
  keyAllowed : Bool := true
  /-- The possible key of each level of braces and brackets, innermost first. -/
  keys : List (Option PossibleKey) := [none]
  indent : Int := -1
  levels : List Level := []
  /-- How many braces and brackets are open. -/
  depth : Nat := 0
  /-- A brace has been opened, so that a colon belongs to a mapping that is there. -/
  inBraces : Bool := false
  /-- A mapping of one pair, without braces, is open. -/
  inPair : Bool := false
  /-- The place at which a colon needs no blank behind it. -/
  adjacent : Nat := 0
  tokens : Array Token := #[]
  /-- The last token is an anchor or a tag at the start of a line. -/
  marked : Bool := false

/-- A reader of characters that keeps the layout. -/
abbrev Scan (α : Type) := StateT Layout Option α

/-! ## Characters -/

/-- The next character, which stays unread. -/
def peek? : Scan (Option Char) := do
  return (← get).rest.head?

/-- Reads over characters of one line, of which some are no blanks. -/
def skipChars (count : Nat) : Scan Unit :=
  modify fun layout =>
    { layout with
      rest := layout.rest.drop count
      index := layout.index + count
      column := layout.column + count
      fresh := layout.fresh && count = 0 }

/-- Reads over characters of one line after which the line is as fresh as before. -/
def skipBlanks (count : Nat) : Scan Unit := do
  let fresh := (← get).fresh
  skipChars count
  modify fun layout => { layout with fresh }

/-- Reads characters as long as they are of a kind. -/
def takeWhile (p : Char → Bool) : Scan (List Char) := do
  let text := (← get).rest.takeWhile p
  skipChars text.length
  return text

/-- Reads a character, which must be the given one. -/
def expect (c : Char) : Scan Unit := do
  if (← peek?) ≠ some c then failure
  skipChars 1

/-- Reads over the end of a line, if it is next. -/
def skipBreak : Scan Unit :=
  modify fun layout =>
    let (rest, count) :=
      match layout.rest with
      | '\r' :: '\n' :: rest => (rest, 2)
      | '\r' :: rest | '\n' :: rest => (rest, 1)
      | rest => (rest, 0)
    if count = 0 then layout
    else
      { layout with
        rest, index := layout.index + count, line := layout.line + 1, column := 0, fresh := true }

/-- Reads over the rest of the line up to its end. -/
def skipLine : Scan Unit := do
  let _ ← takeWhile fun c => !isBreak c

/-! ## Tokens and keys -/

/-- Adds a token at the end. -/
def push (token : Token) : Scan Unit :=
  modify fun layout => { layout with tokens := layout.tokens.push token, marked := false }

/-- Puts a token in front of the one with a number. -/
def insert (place : Nat) (token : Token) : Scan Unit :=
  modify fun layout =>
    let tokens := layout.tokens
    { layout with
      tokens := (tokens.extract 0 place).push token ++ tokens.extract place tokens.size }

def allowKey (allowed : Bool) : Scan Unit :=
  modify fun layout => { layout with keyAllowed := allowed }

/-- Outside braces and brackets allows a key, and inside forbids it. -/
def allowKeyOutside : Scan Unit := do
  allowKey ((← get).depth == 0)

/-- Notes that the next token may be a key, if one may start here. -/
def noteKey : Scan Unit :=
  modify fun layout =>
    if layout.keyAllowed then
      let required := layout.depth == 0 && layout.indent == layout.column &&
        layout.levels.head?.any Level.block
      let key := { layout with required, token := layout.tokens.size : PossibleKey }
      { layout with keys := some key :: layout.keys.tail }
    else layout

/-- Gives up the innermost possible key, which must not be required. -/
def dropKey : Scan Unit := do
  let layout ← get
  if (layout.keys.head?.join).any PossibleKey.required then failure
  set { layout with keys := none :: layout.keys.tail }

/-- A possible key that cannot be one any more: it is on a line before or too far back. -/
def Layout.outlives (layout : Layout) (key : PossibleKey) : Bool :=
  layout.depth == 0 && (key.line < layout.line || key.index + 1024 < layout.index)

/-- Gives up the possible keys that cannot be any more; none of them may be required. -/
def dropStaleKeys : Scan Unit := do
  let layout ← get
  let stale (key : Option PossibleKey) : Bool := key.any layout.outlives
  if layout.keys.any fun key => stale key && key.any PossibleKey.required then failure
  set { layout with keys := layout.keys.map fun key => if stale key then none else key }

/-! ## Indentation -/

/-- Leaves the innermost level. -/
def Layout.leave (layout : Layout) : Layout :=
  match layout.levels with
  | [] => layout
  | level :: levels => { layout with indent := level.outer, levels }

/-- Opens a block at a column, if the lines so far are indented less: then a token says so. -/
def openBlock (column : Nat) (token : Token) (place : Option Nat) : Scan Unit := do
  let layout ← get
  if layout.depth = 0 then
    let layout :=
      if layout.indent ≤ column && layout.levels.head?.any (!·.block) then layout.leave else layout
    set layout
    if layout.indent < column then
      set { layout with
        indent := column, levels := { outer := layout.indent, block := true } :: layout.levels }
      match place with
      | none => push token
      | some place => insert place token

/-- Closes all blocks that are indented more than a column. -/
def closeBlocks (column : Int) : Scan Unit := do
  if (← get).depth = 0 then go (← get).levels
where
  go : List Level → Scan Unit
    | [] => return
    | level :: levels => do
      if column < (← get).indent then
        modify Layout.leave
        if level.block then push .closeBlock
        go levels

/-- Makes a level one column further in, in case a block follows. -/
def prepareLevel : Scan Unit :=
  modify fun layout =>
    if layout.depth = 0 && layout.levels.head?.any Level.block then
      { layout with
        indent := layout.indent + 1
        levels := { outer := layout.indent, block := false } :: layout.levels }
    else layout

/-- Leaves the levels that have been made in vain. -/
def dropLevels : Scan Unit := do
  go (← get).levels
where
  go : List Level → Scan Unit
    | [] => return
    | level :: levels => do
      if !level.block then
        modify Layout.leave
        go levels

/-! ## Blanks and comments -/

/-- What blanks have been read over. -/
structure Blanks where
  spaces : Bool
  tabs : Bool

/-- Reads over blanks and a comment, which must have a blank in front. -/
def skipToLineEnd : Scan Blanks := do
  let blanks := (← get).rest.takeWhile isBlank
  skipBlanks blanks.length
  if (← peek?) = some '#' then
    if blanks.isEmpty then failure
    skipLine
  return { spaces := blanks.contains ' ', tabs := blanks.contains '\t' }

/-- Reads over blanks, comments and ends of lines; tabs do not indent a line with anything on it. -/
def skipToToken : Scan Unit := do
  go ((← get).rest.length + 1)
where
  go : Nat → Scan Unit
    | 0 => failure
    | fuel + 1 => do
      let layout ← get
      match layout.rest.head? with
      | some '\t' =>
        if !layout.levels.isEmpty && layout.fresh && layout.column < layout.indent then
          let _ ← skipToLineEnd
          if !endsLine (← peek?) then failure
        else skipBlanks 1
        go fuel
      | some ' ' =>
        skipBlanks 1
        go fuel
      | some '\n' | some '\r' =>
        skipBreak
        if layout.depth = 0 then allowKey true
        go fuel
      | some '#' =>
        skipLine
        go fuel
      | _ => return

/-- Reads over spaces, comments and ends of lines, of which there must be some. -/
def skipSpaces : Scan Unit := do
  let start := (← get).index
  go ((← get).rest.length + 1) start
where
  go : Nat → Nat → Scan Unit
    | 0, _ => failure
    | fuel + 1, start => do
      let layout ← get
      match layout.rest.head? with
      | some ' ' =>
        skipBlanks 1
        go fuel start
      | some '\n' | some '\r' =>
        skipBreak
        if layout.depth = 0 then allowKey true
        go fuel start
      | some '#' =>
        skipLine
        go fuel start
      | _ => if layout.index = start then failure

end IngestCoordinator.Settings.YamlFile

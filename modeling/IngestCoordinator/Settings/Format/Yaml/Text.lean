-- SUMMARY: YAML texts: quoted, plain, and in blocks; how their lines are folded.
import IngestCoordinator.Settings.Format.Yaml.Layout

/-!
# Texts

A text may run over lines. In a quoted or a plain text a single end of a line with the
blanks around it is a space, and of several ends of lines the first is left out. A
block of lines is kept as it is, or folded in the same way where its lines are not
indented further.
-/

namespace IngestCoordinator.Settings.YamlFile

/-! ## Folding -/

/-- What stands between two pieces of a text. -/
structure Gap where
  /-- The blanks before the first end of a line. -/
  blanks : List Char := []
  /-- The number of ends of lines. -/
  breaks : Nat := 0
  deriving DecidableEq, Repr

def newlines (count : Nat) : List Char :=
  List.replicate count '\n'

/-- The text that a gap stands for. -/
def Gap.fold (gap : Gap) : List Char :=
  match gap.breaks with
  | 0 => gap.blanks
  | 1 => [' ']
  | breaks + 1 => newlines breaks

/-- Whether a mark that starts or ends a document is next, at the start of a line. -/
def documentMarkNext : Scan Bool := do
  let layout ← get
  let mark := layout.rest.take 3
  return layout.column = 0 && (mark = "---".toList || mark = "...".toList) &&
    endsWord (layout.rest.drop 3).head?

/-! ## Quoted texts -/

/-- The character with a code of so many hexadecimal digits. -/
def hexChar (digits : Nat) : Scan Char := do
  match Reader.hexChar digits (← get).rest with
  | none => failure
  | some (c, _) =>
    skipChars digits
    return c

/-- The character that an escape stands for, behind the backslash. -/
def escape : Scan Char := do
  let c? ← peek?
  skipChars 1
  match c? with
  | some '0' => return Char.ofNat 0
  | some 'a' => return Char.ofNat 7
  | some 'b' => return Char.ofNat 8
  | some 't' | some '\t' => return '\t'
  | some 'n' => return '\n'
  | some 'v' => return Char.ofNat 11
  | some 'f' => return Char.ofNat 12
  | some 'r' => return '\r'
  | some 'e' => return Char.ofNat 27
  | some ' ' => return ' '
  | some '"' => return '"'
  | some '/' => return '/'
  | some '\\' => return '\\'
  | some 'N' => return Char.ofNat 0x85
  | some '_' => return Char.ofNat 0xA0
  | some 'L' => return Char.ofNat 0x2028
  | some 'P' => return Char.ofNat 0x2029
  | some 'x' => hexChar 2
  | some 'u' => hexChar 4
  | some 'U' => hexChar 8
  | _ => failure

/-- A piece without blanks of a quoted text; says whether it ends with an escaped end of a line. -/
def quotedPiece (quote : Char) : Nat → Scan (List Char × Bool)
  | 0 => failure
  | fuel + 1 => do
    match (← get).rest with
    | [] => return ([], false)
    | c :: rest =>
      if isBlank c || isBreak c then return ([], false)
      else if c = quote then
        if quote = '\'' && rest.head? = some quote then
          skipChars 2
          let (piece, broken) ← quotedPiece quote fuel
          return (quote :: piece, broken)
        else return ([], false)
      else if c = '\\' && quote = '"' then
        skipChars 1
        if rest.head?.any isBreak then
          skipBreak
          return ([], true)
        let c ← escape
        let (piece, broken) ← quotedPiece quote fuel
        return (c :: piece, broken)
      else
        skipChars 1
        let (piece, broken) ← quotedPiece quote fuel
        return (c :: piece, broken)

/-- The gap between pieces; behind the end of a line, tabs do not indent. -/
def quotedGap (broken : Bool) : Nat → Gap → Scan Gap
  | 0, _ => failure
  | fuel + 1, gap => do
    match ← peek? with
    | none => return gap
    | some c =>
      if isBreak c then
        skipBreak
        quotedGap broken fuel { gap with breaks := gap.breaks + 1 }
      else if !isBlank c then return gap
      else
        let layout ← get
        if broken || gap.breaks ≠ 0 then
          if c = '\t' && layout.column < layout.indent then failure
          skipBlanks 1
          quotedGap broken fuel gap
        else
          skipBlanks 1
          quotedGap broken fuel { gap with blanks := gap.blanks ++ [c] }

/-- The rest of a quoted text, up to its quote. -/
def quotedRest (quote : Char) : Nat → Scan (List Char)
  | 0 => failure
  | fuel + 1 => do
    if ← documentMarkNext then failure
    let layout ← get
    if layout.rest.isEmpty || layout.column < layout.indent then failure
    let (piece, broken) ← quotedPiece quote (layout.rest.length + 1)
    if (← peek?) = some quote then return piece
    let gap ← quotedGap broken (layout.rest.length + 1) {}
    let between := if broken then newlines gap.breaks else gap.fold
    return piece ++ between ++ (← quotedRest quote fuel)

/-- A quoted text; only what may follow a value or a key on its line may stand behind it. -/
def quoted (quote : Char) : Scan String := do
  let start ← get
  skipChars 1
  let text ← quotedRest quote start.rest.length
  skipChars 1
  let _ ← skipToLineEnd
  let layout ← get
  let next := layout.rest.head?
  let closes := next.any fun c => c == ',' || c == '}' || c == ']'
  let isKey := next = some ':' && (layout.depth ≠ 0 || layout.line = start.line)
  if !(endsLine next || isKey || (layout.depth ≠ 0 && closes)) then failure
  return String.ofList text

/-! ## Plain texts -/

/-- How many characters of a plain text are next. -/
def plainLength (inFlow : Bool) : List Char → Nat
  | [] => 0
  | c :: rest =>
    let ends := isBlank c || isBreak c || (inFlow && isFlow c) ||
      (c == ':' && (endsWord rest.head? || (inFlow && rest.head?.any isFlow)))
    if ends then 0 else plainLength inFlow rest + 1

/-- The gap between pieces; tabs do not indent a line with anything on it. -/
def plainGap (indent : Int) : Nat → Gap → Scan Gap
  | 0, _ => failure
  | fuel + 1, gap => do
    match ← peek? with
    | none => return gap
    | some c =>
      if isBreak c then
        skipBreak
        plainGap indent fuel { gap with breaks := gap.breaks + 1 }
      else if !isBlank c then return gap
      else if gap.breaks = 0 then
        skipBlanks 1
        plainGap indent fuel { gap with blanks := gap.blanks ++ [c] }
      else if c = '\t' && (← get).column < indent then
        let _ ← skipToLineEnd
        if !endsLine (← peek?) then failure
        plainGap indent fuel gap
      else
        skipBlanks 1
        plainGap indent fuel gap

/-- The pieces of a plain text that are still to come, behind a gap. -/
def plainRest (indent : Int) : Nat → Gap → Scan (List Char)
  | 0, _ => failure
  | fuel + 1, gap => do
    if ← documentMarkNext then return []
    let layout ← get
    let inFlow := layout.depth ≠ 0
    if layout.rest.head? = some '#' then return []
    if inFlow && layout.rest.head? = some '-' && layout.rest.tail.head?.any isFlow then failure
    let count := plainLength inFlow layout.rest
    skipChars count
    let text := if count = 0 then [] else gap.fold ++ layout.rest.take count
    if !(← peek?).any fun c => isBlank c || isBreak c then return text
    let gap ← plainGap indent (layout.rest.length + 1) {}
    if !inFlow && (← get).column < indent then return text
    return text ++ (← plainRest indent fuel gap)

/-- A plain text; a line that goes on with it is indented further than the block. -/
def plainText : Scan String := do
  dropLevels
  let layout ← get
  let indent := layout.indent + 1
  if layout.depth ≠ 0 && layout.column < indent then failure
  let text ← plainRest indent (layout.rest.length + 1) {}
  if (← get).fresh then allowKey true
  if text.isEmpty then failure
  return String.ofList text

/-! ## Blocks -/

/-- What becomes of the ends of lines at the end of a block. -/
inductive Chomping where
  | strip
  /-- One is kept. -/
  | clip
  | keep
  deriving DecidableEq, Repr

/-- The chomping that a sign is for, if it is next. -/
def chomping : Scan (Option Chomping) := do
  match ← peek? with
  | some '+' =>
    skipChars 1
    return some .keep
  | some '-' =>
    skipChars 1
    return some .strip
  | _ => return none

/-- How much further a block is indented, if a digit is next; it may not be zero. -/
def increment : Scan Nat := do
  match ← peek? with
  | some c =>
    if !c.isDigit then return 0
    if c = '0' then failure
    skipChars 1
    return c.toNat - 48
  | none => return 0

/-- The sign and the digit at the head of a block, in either order. -/
def blockHead : Scan (Chomping × Nat) := do
  match ← chomping with
  | some chomping => return (chomping, ← increment)
  | none =>
    let increment ← increment
    if increment = 0 then return (.clip, 0)
    return ((← chomping).getD .clip, increment)

/-- Reads over the indentation of a line and over empty lines before it, which are counted. -/
def skipIndentation (indent : Nat) : Nat → Nat → Scan Nat
  | 0, _ => failure
  | fuel + 1, breaks => do
    let layout ← get
    let spaces := (layout.rest.takeWhile (· == ' ')).length
    skipBlanks (min spaces (indent - layout.column))
    if (← peek?).any isBreak then
      skipBreak
      skipIndentation indent fuel (breaks + 1)
    else return breaks

/-- The widest indentation up to the first line that is not empty, and the empty lines before it. -/
def firstIndentation : Nat → Nat → Nat → Scan (Nat × Nat)
  | 0, _, _ => failure
  | fuel + 1, widest, breaks => do
    let spaces := ((← get).rest.takeWhile (· == ' ')).length
    skipBlanks spaces
    let widest := max widest (← get).column
    if (← peek?).any isBreak then
      skipBreak
      firstIndentation fuel widest (breaks + 1)
    else return (widest, breaks)

/-- The lines of a block up to its end, and what stands behind the last of them. -/
structure Lines where
  text : List Char := []
  /-- The end of the last line, if it has come. -/
  ended : Bool := false
  /-- The number of empty lines behind it. -/
  empty : Nat := 0

/-- The lines of a block on top of those before; a blank in front keeps lines from being folded. -/
def blockLines (literal : Bool) (indent : Nat) : Nat → Bool → Lines → Scan Lines
  | 0, _, _ => failure
  | fuel + 1, afterBlank, lines => do
    let layout ← get
    let finished := layout.column ≠ indent || layout.rest.isEmpty
    if finished || (indent = 0 && (← documentMarkNext)) then return lines
    let blank := layout.rest.head?.any isBlank
    let between :=
      if !literal && lines.ended && !afterBlank && !blank then
        if lines.empty = 0 then [' '] else newlines lines.empty
      else newlines (lines.empty + if lines.ended then 1 else 0)
    let line := layout.rest.takeWhile fun c => !isBreak c
    skipBlanks line.length
    let text := lines.text ++ between ++ line
    if (← peek?).isNone then return { text }
    skipBreak
    let empty ← skipIndentation indent (layout.rest.length + 1) 0
    blockLines literal indent fuel blank { text, ended := true, empty }

/-- A block without lines: what is left of it are ends of lines. -/
def emptyBlock (chomping : Chomping) (sameLine ended : Bool) (empty : Nat) : List Char :=
  if chomping = .strip || sameLine then []
  else if chomping = .keep && empty ≠ 0 then newlines empty
  else newlines (if ended then 1 else 0)

/-- A block of lines. -/
def block (literal : Bool) : Scan String := do
  let start := (← get).line
  skipChars 1
  dropLevels
  let (chomping, increment) ← blockHead
  let _ ← skipToLineEnd
  let next ← peek?
  if !endsLine next then failure
  skipBreak
  if (← peek?) = some '\t' then failure
  let layout ← get
  let fuel := layout.rest.length + 1
  let (indent, empty) ←
    if increment ≠ 0 then
      let indent := (max layout.indent 0).toNat + increment
      pure (indent, ← skipIndentation indent fuel 0)
    else do
      let (widest, empty) ← firstIndentation fuel 0 0
      let least := (layout.indent + 1).toNat
      pure (max widest (if 0 < layout.indent then max least 1 else least), empty)
  let layout ← get
  if layout.rest.isEmpty then
    return String.ofList (emptyBlock chomping (layout.line = start) next.isSome empty)
  if layout.column < indent && layout.indent < layout.column then failure
  let lines ← blockLines literal indent fuel false { empty }
  let layout ← get
  let unended := layout.rest.isEmpty && max indent 1 ≤ layout.column
  let ends := (if lines.ended then 1 else 0) + if unended then 1 else 0
  let tail :=
    match chomping with
    | .strip => 0
    | .clip => ends
    | .keep => ends + lines.empty
  return String.ofList (lines.text ++ newlines tail)

end IngestCoordinator.Settings.YamlFile

-- SUMMARY: The tokens of a YAML text.
import IngestCoordinator.Settings.Format.Yaml.Property
import IngestCoordinator.Settings.Format.Yaml.Text

/-!
# Tokens of a text

A text is read token by token up to its end. That a token is a key is known only when
its colon comes; then the token that says so is put in front of it, and the one that
opens a block if it is the first key there.
-/

namespace IngestCoordinator.Settings.YamlFile

/-! ## Braces and brackets -/

/-- Closes a mapping of one pair that has no braces. -/
def closePair : Scan Unit := do
  if (← get).inPair then
    modify fun layout => { layout with inPair := false, inBraces := false }
    push .closeBrace

/-- Braces or brackets open, which may be a key. -/
def openFlow (token : Token) : Scan Unit := do
  noteKey
  prepareLevel
  if 255 ≤ (← get).depth then failure
  modify fun layout =>
    { layout with
      depth := layout.depth + 1
      keys := none :: layout.keys
      keyAllowed := true
      inBraces := layout.inBraces || token == .openBrace }
  skipChars 1
  let _ ← skipToLineEnd
  push token

/-- Braces or brackets close; a colon right behind them needs no blank. -/
def closeFlow (token : Token) : Scan Unit := do
  dropKey
  modify fun layout =>
    if layout.depth = 0 then layout
    else { layout with depth := layout.depth - 1, keys := layout.keys.tail }
  allowKey false
  closePair
  skipChars 1
  let _ ← skipToLineEnd
  modify fun layout =>
    if layout.depth = 0 then layout else { layout with adjacent := layout.index }
  push token

/-- A comma between entries. -/
def comma : Scan Unit := do
  dropKey
  allowKey true
  closePair
  skipChars 1
  let _ ← skipToLineEnd
  push .comma

/-! ## Entries, keys and values -/

/-- A dash in front of an entry of a block. -/
def dash : Scan Unit := do
  let layout ← get
  if layout.depth ≠ 0 || !layout.keyAllowed then failure
  if layout.marked && layout.column = 0 && -1 < layout.indent then failure
  skipChars 1
  openBlock layout.column .openSequence none
  let blanks ← skipToLineEnd
  let rest := (← get).rest
  if blanks.tabs && rest.head? = some '-' && endsWord rest.tail.head? then failure
  if rest.head?.any fun c => isBreak c || isFlow c then prepareLevel
  dropKey
  allowKey true
  push .dash

/-- A question mark in front of a key. -/
def explicitKey : Scan Unit := do
  let layout ← get
  if layout.depth = 0 then
    if !layout.keyAllowed then failure
    openBlock layout.column .openMapping none
  else modify fun layout => { layout with inBraces := true }
  dropKey
  allowKeyOutside
  skipChars 1
  skipSpaces
  if (← peek?) = some '\t' then failure
  push .key

/-- Reads over a colon; no word may follow behind tabs alone. -/
def skipColon : Scan Unit := do
  skipChars 1
  if (← peek?) = some '\t' then
    let blanks ← skipToLineEnd
    if !blanks.spaces && (← peek?).any isWordChar then failure

/-- A colon in front of a value, which makes a key of the token that may be one. -/
def colon : Scan Unit := do
  let start ← get
  let pair := start.depth ≠ 0 && !start.inBraces
  modify fun layout => { layout with inPair := pair }
  skipColon
  match start.keys.head?.join with
  | some key =>
    insert key.token .key
    if pair then
      if key.line < start.line then failure
      insert key.token .openBrace
    openBlock key.column .openMapping (some key.token)
    prepareLevel
    modify fun layout => { layout with keys := none :: layout.keys.tail }
    allowKey false
  | none =>
    if pair then push .openBrace
    if start.depth = 0 then
      if !start.keyAllowed then failure
      openBlock start.column .openMapping none
    prepareLevel
    allowKeyOutside
  push .value

/-! ## Properties and texts -/

/-- An anchor or a tag, which may belong to a key. -/
def property (scan : Scan Token) : Scan Unit := do
  noteKey
  allowKey false
  let column := (← get).column
  push (← scan)
  modify fun layout => { layout with marked := column = 0 }

/-- A reference to an anchor. -/
def reference : Scan Unit := do
  noteKey
  allowKey false
  push (.reference (← anchorName))

/-- A quoted text; a colon right behind it needs no blank. -/
def quotedToken (quote : Char) : Scan Unit := do
  noteKey
  allowKey false
  let text ← quoted quote
  skipToToken
  modify fun layout => { layout with adjacent := layout.index }
  push (.text false text)

def plainToken : Scan Unit := do
  noteKey
  allowKey false
  push (.text true (← plainText))

def blockToken (literal : Bool) : Scan Unit := do
  noteKey
  allowKey true
  push (.text false (← block literal))

/-! ## Documents -/

/-- Closes all blocks in front of something that stands outside of documents. -/
def leaveDocument : Scan Unit := do
  closeBlocks (-1)
  dropKey
  allowKey false

/-- A mark that starts or ends a document; only a comment may stand behind the mark of an end. -/
def documentMark : Scan Unit := do
  let ends := (← peek?) = some '.'
  leaveDocument
  skipChars 3
  push (if ends then .documentEnd else .documentStart)
  if ends then
    let _ ← skipToLineEnd
    if !endsLine (← peek?) then failure

/-- The end of the text, where no key may be missing. -/
def endOfText : Scan Unit := do
  if (← get).keys.any fun key => key.any PossibleKey.required then failure
  modify fun layout => { layout with keys := layout.keys.map fun _ => none }
  leaveDocument

/-- The token that starts with the next character. -/
def token (c : Char) : Scan Unit := do
  let layout ← get
  let next := layout.rest.tail.head?
  let inFlow := layout.depth ≠ 0
  let adjacent := layout.index = layout.adjacent
  match c with
  | '[' => openFlow .openBracket
  | '{' => openFlow .openBrace
  | ']' => closeFlow .closeBracket
  | '}' => closeFlow .closeBrace
  | ',' => comma
  | '*' => reference
  | '&' => property (return .anchor (← anchorName))
  | '!' => property tag
  | '\'' | '"' => quotedToken c
  | '%' | '@' | '`' => failure
  | _ =>
    if c = '-' && endsWord next then dash
    else if c = '?' && endsWord next then explicitKey
    else if c = ':' && endsWord next then colon
    else if c = ':' && inFlow && (next.any isFlow || adjacent) then
      if !adjacent && next.any fun c => c == '[' || c == '{' then failure
      colon
    else if c = '|' && !inFlow then blockToken true
    else if c = '>' && !inFlow then blockToken false
    else plainToken

/-- All tokens up to the end of the text. -/
def allTokens : Nat → Scan Unit
  | 0 => failure
  | fuel + 1 => do
    skipToToken
    dropStaleKeys
    closeBlocks (← get).column
    match ← peek? with
    | none => endOfText
    | some c =>
      if c = '%' && (← get).column = 0 then
        leaveDocument
        push (← directive)
      else if ← documentMarkNext then documentMark
      else if (← get).column < (← get).indent then failure
      else token c
      allTokens fuel

/-- The tokens of a text, if it has any; a text ends before its first null character. -/
def tokens? (text : String) : Option (List Token) :=
  let text := text.toList.takeWhile fun c => c.toNat ≠ 0
  ((allTokens (text.length + 1)).run { rest := text }).map fun (_, layout) =>
    layout.tokens.toList

end IngestCoordinator.Settings.YamlFile

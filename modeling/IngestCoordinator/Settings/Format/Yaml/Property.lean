-- SUMMARY: YAML anchors, tags and directives.
import IngestCoordinator.Settings.Format.Yaml.Layout

/-!
# Properties

What may stand in front of a value: an anchor that names it, or a tag that tells its
type; and the directives in front of a document, which tell the version and what the
handles of tags stand for.
-/

namespace IngestCoordinator.Settings.YamlFile

/-! ## Anchors -/

/-- The name behind the sign of an anchor or of a reference to one. -/
def anchorName : Scan String := do
  skipChars 1
  let name ← takeWhile isAnchorChar
  if name.isEmpty then failure
  return String.ofList name

/-! ## Tags -/

/-- A byte written as a percent sign and two hexadecimal digits. -/
def escapedByte : Scan Nat := do
  match (← get).rest.take 3 with
  | ['%', high, low] =>
    match Reader.hexDigit? high, Reader.hexDigit? low with
    | some high, some low =>
      skipChars 3
      return high * 16 + low
    | _, _ => failure
  | _ => failure

/-- How many bytes belong to a character whose first byte is given. -/
def width? (lead : Nat) : Option Nat :=
  if lead < 0x80 then some 1
  else if lead < 0xC0 then none
  else if lead < 0xE0 then some 2
  else if lead < 0xF0 then some 3
  else if lead < 0xF8 then some 4
  else none

/-- A character of a tag written in bytes; the number of the character is that of its bytes. -/
def escapedChar : Scan Char := do
  let lead ← escapedByte
  match width? lead with
  | none => failure
  | some width =>
    let n ← (List.replicate (width - 1) ()).foldlM (fun n _ => do
      let byte ← escapedByte
      if byte < 0x80 || 0xC0 ≤ byte then failure
      return n * 256 + byte) lead
    if n.isValidChar then return Char.ofNat n else failure

/-- The characters of a tag that are of a kind, of which some may be written in bytes. -/
def tagText (p : Char → Bool) : Nat → Scan (List Char)
  | 0 => failure
  | fuel + 1 => do
    match ← peek? with
    | none => return []
    | some c =>
      if !p c then return []
      let c ← if c = '%' then escapedChar else do
        skipChars 1
        pure c
      return c :: (← tagText p fuel)

/-- The handle of a tag: exclamation marks around a word; of a tag itself the second may lack. -/
def tagHandle (directive : Bool) : Scan (List Char) := do
  expect '!'
  let word ← takeWhile isWordChar
  if (← peek?) = some '!' then
    skipChars 1
    return '!' :: word ++ ['!']
  else if directive && !word.isEmpty then failure
  else return '!' :: word

/-- A tag that is written out, in angle brackets. -/
def wholeTag : Scan Token := do
  skipChars 2
  let text ← tagText isUriChar (← get).rest.length.succ
  expect '>'
  return .tag "" (String.ofList text)

/-- A tag behind a handle; a single exclamation mark is a tag of its own. -/
def shortTag : Scan Token := do
  let handle ← tagHandle false
  let rest ← tagText isTagChar (← get).rest.length.succ
  if 2 ≤ handle.length && handle.getLast? = some '!' then
    if rest.isEmpty then failure
    return .tag (String.ofList handle) (String.ofList rest)
  else
    let rest := handle.tail ++ rest
    if rest.isEmpty then return .tag "" "!" else return .tag "!" (String.ofList rest)

/-- A tag, which must be separated from what follows. -/
def tag : Scan Token := do
  let tag ← if (← get).rest.tail.head? = some '<' then wholeTag else shortTag
  let layout ← get
  let next := layout.rest.head?
  if !(endsWord next || (layout.depth ≠ 0 && next.any isFlow)) then failure
  return tag

/-! ## Directives -/

/-- A number of a version. -/
def versionNumber : Scan Unit := do
  let digits ← takeWhile Char.isDigit
  if digits.isEmpty || 9 < digits.length then failure

/-- What the tags with a handle start with. -/
def tagStem : Scan (List Char) := do
  match ← peek? with
  | none => failure
  | some c =>
    if c ≠ '!' && !isTagChar c then failure
    if c = '!' then
      skipChars 1
      return c :: (← tagText isUriChar (← get).rest.length.succ)
    else tagText isUriChar (← get).rest.length.succ

/-- A directive; one of an unknown name says nothing. -/
def directive : Scan Token := do
  skipChars 1
  let name ← takeWhile isWordChar
  if name.isEmpty || !endsWord (← peek?) then failure
  let token ←
    match String.ofList name with
    | "YAML" =>
      let _ ← takeWhile isBlank
      versionNumber
      expect '.'
      versionNumber
      pure Token.version
    | "TAG" =>
      let _ ← takeWhile isBlank
      let handle ← tagHandle true
      let _ ← takeWhile isBlank
      let stem ← tagStem
      if !endsWord (← peek?) then failure
      pure (Token.handle (String.ofList handle) (String.ofList stem))
    | _ =>
      skipLine
      pure (Token.handle "" "")
  let _ ← skipToLineEnd
  if !endsLine (← peek?) then failure
  skipBreak
  return token

end IngestCoordinator.Settings.YamlFile

-- SUMMARY: YAML values: what the tokens of a text stand for.
import IngestCoordinator.Settings.Format.Yaml.Plain
import IngestCoordinator.Settings.Format.Yaml.Tokens
import IngestCoordinator.Settings.Path

/-!
# Nodes

The tokens of a text are read as documents, each of one value. A mapping gives what
its fields give; two fields of one name are a fault. A list is nothing that a setting
can be. A reference stands for the value that its anchor names.
-/

namespace IngestCoordinator.Settings.YamlFile

/-! ## Mappings -/

/-- The name that a key is: a text or an integer, which are told apart. -/
def Node.name? : Node → Option (String × Bool)
  | .plain (.text name) => some (name, false)
  | .plain (.int value) => some (toString value, true)
  | _ => none

/-- What a value gives to the paths below its own. -/
def Node.given : Node → Source
  | .unset => [⟨[], .other⟩]
  | .plain value => [⟨[], value⟩]
  | .mapping given => given

/--
What keys and values in turn give, on top of what was given before under other names.
A key that is not there is left out, so that the value behind it is the next key.
-/
def fieldsOf? (names : List (String × Bool)) (before : Source) : List Node → Option Source
  | .unset :: rest => fieldsOf? names before rest
  | key :: value :: rest =>
    match key.name? with
    | none => none
    | some name =>
      if names.contains name then none
      else fieldsOf? (name :: names) (before.withField name.1 value.given) rest
  | _ => some before

/-! ## Progress -/

/-- The tokens that are left, and what the document has named. -/
structure Progress where
  tokens : List Token
  /-- The values by their anchors, the latest last; they are not there before they end. -/
  anchors : Array (String × Node) := #[]
  /-- What the tags with a handle start with. -/
  stems : List (String × String) := []

/-- A reader of tokens. -/
abbrev Build (α : Type) := StateT Progress Option α

/-- The next token, which stays unread. -/
def nextToken? : Build (Option Token) := do
  return (← get).tokens.head?

/-- Reads over a token. -/
def skipOne : Build Unit :=
  modify fun progress => { progress with tokens := progress.tokens.tail }

/-- Whether one of the given tokens is next. -/
def isNext (expected : List Token) : Build Bool := do
  return (← nextToken?).any expected.contains

/-- Reads a token, which must be the given one. -/
def expectToken (expected : Token) : Build Unit := do
  if !(← isNext [expected]) then failure
  skipOne

def null : Node :=
  .plain .other

/-- What is behind an anchor and a tag, in either order. -/
structure Properties where
  anchor : Option Nat := none
  tag : Option (String × String) := none

/-- A tag as its stem and the rest; a handle that looks like one must have been declared. -/
def resolve (handle rest : String) : Build (String × String) := do
  match (← get).stems.lookup handle with
  | some stem => return (stem, rest)
  | none =>
    if handle = "!!" then return ("tag:yaml.org,2002:", rest)
    else if 2 ≤ handle.length && handle.startsWith "!" && handle.endsWith "!" then failure
    else return (handle, rest)

/-- Reads an anchor if it is next, and notes its name. -/
def readAnchor : Build (Option Nat) := do
  match ← nextToken? with
  | some (.anchor name) =>
    skipOne
    let place := (← get).anchors.size
    modify fun progress => { progress with anchors := progress.anchors.push (name, .unset) }
    return some place
  | _ => return none

/-- Reads a tag if it is next. -/
def readTag : Build (Option (String × String)) := do
  match ← nextToken? with
  | some (.tag handle rest) =>
    skipOne
    return some (← resolve handle rest)
  | _ => return none

/-- Reads an anchor and a tag, in either order. -/
def readProperties : Build Properties := do
  match ← readAnchor with
  | some place => return { anchor := some place, tag := ← readTag }
  | none =>
    match ← readTag with
    | some tag => return { tag := some tag, anchor := ← readAnchor }
    | none => return {}

/-- What a text is; a tag tells the type of one without quotes. -/
def textNode (properties : Properties) (plain : Bool) (text : String) : Build Node := do
  let node? :=
    if !plain then some (.plain (.text text))
    else
      match properties.tag with
      | none => (scalar? text).map Node.plain
      | some (stem, rest) =>
        if stem = "tag:yaml.org,2002:" then typed? rest text else some (.plain (.text text))
  match node? with
  | some node => return node
  | none => failure

/-! ## Values -/

mutual

/-- A value; in braces and brackets there are no blocks, and only some lists need no indentation. -/
def node : Nat → Bool → Bool → Build Node
  | 0, _, _ => failure
  | fuel + 1, inBlock, flatLists => do
    if let some (.reference name) ← nextToken? then
      skipOne
      match (← get).anchors.toList.reverse.lookup name with
      | some node => return node
      | none => failure
    let properties ← readProperties
    let node ← content fuel inBlock flatLists properties
    if let some place := properties.anchor then
      modify fun progress =>
        { progress with anchors := progress.anchors.modify place fun (name, _) => (name, node) }
    return node
termination_by structural fuel => fuel

/-- A value behind its properties, which may also stand alone. -/
def content : Nat → Bool → Bool → Properties → Build Node
  | 0, _, _, _ => failure
  | fuel + 1, inBlock, flatLists, properties => do
    let isList : Build Unit → Build Node := fun items => do
      items
      return .plain .other
    let isMapping : Build (List Node) → Build Node := fun nodes => do
      match fieldsOf? [] [] (← nodes) with
      | some given => return .mapping given
      | none => failure
    match ← nextToken? with
    | some (.text plain text) =>
      skipOne
      textNode properties plain text
    | some .openBracket =>
      skipOne
      isList (inBrackets fuel true)
    | some .openBrace =>
      skipOne
      isMapping (inBraces fuel true)
    | next =>
      if next = some .dash && flatLists then isList (flatEntries fuel)
      else if next = some .openSequence && inBlock then
        skipOne
        isList (blockEntries fuel)
      else if next = some .openMapping && inBlock then
        skipOne
        isMapping (blockFields fuel)
      else if properties.tag.isSome || properties.anchor.isSome then textNode properties true ""
      else failure
termination_by structural fuel => fuel

/-- The entries of a block, up to its end. -/
def blockEntries : Nat → Build Unit
  | 0 => failure
  | fuel + 1 => do
    if ← isNext [.closeBlock] then skipOne
    else
      expectToken .dash
      if !(← isNext [.dash, .closeBlock]) then
        let _ ← node fuel true false
      blockEntries fuel
termination_by structural fuel => fuel

/-- The entries of a list that is indented no further than what it stands in. -/
def flatEntries : Nat → Build Unit
  | 0 => failure
  | fuel + 1 => do
    if ← isNext [.dash] then
      skipOne
      if !(← isNext [.dash, .key, .value, .closeBlock]) then
        let _ ← node fuel true false
      flatEntries fuel
termination_by structural fuel => fuel

/-- The keys and values of a block in turn, up to its end. -/
def blockFields : Nat → Build (List Node)
  | 0 => failure
  | fuel + 1 => do
    if ← isNext [.closeBlock] then
      skipOne
      return []
    let key ←
      if ← isNext [.key] then part fuel .key
      else if ← isNext [.value] then pure null
      else failure
    let value ← if ← isNext [.value] then part fuel .value else pure null
    return key :: value :: (← blockFields fuel)
termination_by structural fuel => fuel

/-- The key or the value behind its mark, which may be missing. -/
def part : Nat → Token → Build Node
  | 0, _ => failure
  | fuel + 1, mark => do
    expectToken mark
    if ← isNext [.key, .value, .closeBlock] then return null else node fuel true true
termination_by structural fuel => fuel

/-- The keys and values in braces in turn, up to the closing one. -/
def inBraces : Nat → Bool → Build (List Node)
  | 0, _ => failure
  | fuel + 1, first => do
    if ← isNext [.closeBrace] then
      skipOne
      return []
    if !first then expectToken .comma
    if ← isNext [.closeBrace] then
      skipOne
      return []
    if ← isNext [.key] then
      skipOne
      let key ←
        if ← isNext [.value, .comma, .closeBrace] then pure null else node fuel false false
      let value ← flowValue fuel .closeBrace
      return key :: value :: (← inBraces fuel false)
    else if ← isNext [.value] then
      let value ← flowValue fuel .closeBrace
      return null :: value :: (← inBraces fuel false)
    else
      let key ← node fuel false false
      return key :: null :: (← inBraces fuel false)
termination_by structural fuel => fuel

/-- The value behind its mark in braces or brackets; both may be missing. -/
def flowValue : Nat → Token → Build Node
  | 0, _ => failure
  | fuel + 1, closing => do
    if ← isNext [.value] then
      skipOne
      if ← isNext [.comma, closing] then return null else node fuel false false
    else return null
termination_by structural fuel => fuel

/-- The items in brackets, up to the closing one; an item may be a mapping of one pair. -/
def inBrackets : Nat → Bool → Build Unit
  | 0, _ => failure
  | fuel + 1, first => do
    if ← isNext [.closeBracket] then skipOne
    else
      if !first then expectToken .comma
      if ← isNext [.closeBracket] then skipOne
      else if ← isNext [.key] then
        skipOne
        let key ←
          if ← isNext [.value, .comma, .closeBracket] then do
            skipOne
            pure null
          else node fuel false false
        let value ← flowValue fuel .closeBracket
        if (fieldsOf? [] [] [key, value]).isNone then failure
        inBrackets fuel false
      else
        let _ ← node fuel false false
        inBrackets fuel false
termination_by structural fuel => fuel

end

/-! ## Documents -/

/-- Reads over directives; what the last of them says counts. -/
def directives : Nat → Bool → Build Unit
  | 0, _ => failure
  | fuel + 1, versioned => do
    match ← nextToken? with
    | some .version =>
      if versioned then failure
      skipOne
      modify fun progress => { progress with stems := [] }
      directives fuel true
    | some (.handle handle stem) =>
      skipOne
      modify fun progress => { progress with stems := [(handle, stem)] }
      directives fuel versioned
    | _ => return

/-- Whether a directive is next. -/
def directiveNext : Build Bool := do
  match ← nextToken? with
  | some .version | some (.handle _ _) => return true
  | _ => return false

/-- The value of a document whose start has been marked. -/
def markedDocument (fuel : Nat) : Build Node := do
  directives fuel false
  expectToken .documentStart
  let next ← nextToken?
  if next.isNone || (← directiveNext) || (← isNext [.documentStart, .documentEnd]) then return null
  else node fuel true false

/-- Reads over marks that end documents. -/
def skipEnds : Nat → Build Unit
  | 0 => failure
  | fuel + 1 => do
    if ← isNext [.documentEnd] then
      skipOne
      skipEnds fuel

/-- The values of all documents; the start of one needs a mark unless the end before it has one. -/
def documents : Nat → Bool → Build (List Node)
  | 0, _ => failure
  | fuel + 1, ended => do
    skipEnds fuel
    if (← nextToken?).isNone then return []
    modify fun progress => { progress with anchors := #[] }
    let marked := !ended || (← directiveNext) || (← isNext [.documentStart])
    let node ← if marked then markedDocument fuel else node fuel true false
    modify fun progress => { progress with stems := [] }
    let ended ← isNext [.documentEnd]
    if ended then skipOne
    else if ← directiveNext then failure
    return node :: (← documents fuel ended)

/-- The values of the documents of a text. -/
def nodes? (text : String) : Option (List Node) := do
  let tokens ← tokens? text
  let (nodes, _) ← (documents (3 * tokens.length + 6) true).run { tokens }
  return nodes

end IngestCoordinator.Settings.YamlFile

-- SUMMARY: The ordered key-value store, in memory and in a database.
import IngestCoordinator.Operation
import IngestCoordinator.SortedMap
import IngestCoordinator.Text.Bytes

/-!
# Backends

A backend maps string keys to byte strings and lists the entries whose key starts
with a given text in the order of their keys. A call either does its work at once
or fails without effect. Memory and database differ in how they fail, and in that
a cell of a database may hold an integer where bytes belong.
-/

namespace IngestCoordinator

/-- What is stored under a key. -/
inductive Cell where
  | bytes (value : Bytes)
  /-- A number in a place where only byte strings belong. -/
  | integer (value : Int64)
  deriving DecidableEq, Repr

/-- The bytes of a cell. -/
def Cell.read : Cell → Except Error Bytes
  | .bytes value => .ok value
  | .integer _ => .error (.malformed .text)

/-- Where a backend keeps its entries. -/
inductive Medium where
  | memory
  | database
  deriving DecidableEq, Repr

/-- A key-value store. -/
structure Backend where
  medium : Medium := .memory
  entries : SortedMap String Cell := .empty
  /-- No call succeeds: memory is marked so, or the connections of a database are closed. -/
  unavailable : Bool := false
  /-- The table of a database is gone. -/
  tableDropped : Bool := false
  /-- Whether each of the coming calls is refused, whatever else; later ones are not. -/
  refusals : List Bool := []
  /-- How many of the coming conditional writes lose against another writer. -/
  losses : Nat := 0
  deriving DecidableEq, Repr

namespace Backend

/-- Why a call fails, if it does. -/
def fault? (backend : Backend) : Option StoreFault :=
  if backend.unavailable || backend.refusals.headD false then
    match backend.medium with
    | .memory => some .markedUnavailable
    | .database => some .poolClosed
  else if backend.tableDropped then some .tableMissing
  else none

/-- The backend once the next call has been made. -/
def afterCall (backend : Backend) : Backend :=
  { backend with refusals := backend.refusals.tail }

/-- Makes a call: it fails without effect, or is answered from the backend. -/
def call (answer : Backend → α × Backend) : Operation Backend α := do
  let backend ← get
  match backend.fault? with
  | some fault =>
    set backend.afterCall
    throw (.storeUnavailable fault)
  | none =>
    let (value, backend) := answer backend.afterCall
    set backend
    return value

/-- Makes a call whose answer may turn out not to be bytes. -/
def read (answer : Backend → Except Error α) : Operation Backend α := do
  match ← call fun backend => (answer backend, backend) with
  | .ok value => return value
  | .error error => throw error

/-- The bytes stored under a key. -/
def get? (key : String) : Operation Backend (Option Bytes) :=
  read fun backend =>
    match backend.entries.get? key with
    | none => .ok none
    | some cell => some <$> cell.read

/-- Stores bytes under a key. -/
def put (key : String) (value : Bytes) : Operation Backend Unit :=
  call fun backend =>
    ((), { backend with entries := backend.entries.insert key (.bytes value) })

/-- Removes a key. -/
def delete (key : String) : Operation Backend Unit :=
  call fun backend => ((), { backend with entries := backend.entries.erase key })

/--
Stores bytes under a key if the bytes there are the expected ones, where `none`
expects the key to be absent. Says whether it did.
-/
def compareAndPut (key : String) (expected : Option Bytes) (value : Bytes) :
    Operation Backend Bool :=
  call fun backend =>
    if backend.entries.get? key = expected.map .bytes then
      (true, { backend with entries := backend.entries.insert key (.bytes value) })
    else (false, backend)

/-- A conditional write that may lose against a writer that is not seen otherwise. -/
def contend (key : String) (expected : Option Bytes) (value : Bytes) :
    Operation Backend Bool := do
  let backend ← get
  match backend.losses with
  | 0 => compareAndPut key expected value
  | losses + 1 =>
    set { backend with losses }
    return false

/-! ## Scans -/

/-- Whether a key starts with a text. -/
def startsWith (stem key : String) : Bool :=
  stem.toList.isPrefixOf key.toList

/-- The entries from the first key not below the text on, as long as keys start with it. -/
def scanRange (stem : String) (entries : List (String × Cell)) : List (String × Cell) :=
  (entries.dropWhile fun entry => entry.1 < stem).takeWhile fun entry => startsWith stem entry.1

/-- The entries whose key starts with the text. -/
def scanFilter (stem : String) (entries : List (String × Cell)) : List (String × Cell) :=
  entries.filter fun entry => startsWith stem entry.1

/-- The entries whose key starts with a text, in the order of their keys. -/
def scan (stem : String) : Operation Backend (List (String × Bytes)) :=
  read fun backend =>
    let found :=
      match backend.medium with
      | .memory => scanRange stem backend.entries.toList
      | .database => scanFilter stem backend.entries.toList
    found.mapM fun (key, cell) => return (key, ← cell.read)

/-! ## Administration -/

/-- Marks the backend unavailable or available again. -/
def setUnavailable (backend : Backend) (unavailable : Bool) : Backend :=
  { backend with unavailable }

/-- Drops the table of a database, with all it holds. -/
def dropTable (backend : Backend) : Backend :=
  { backend with entries := .empty, tableDropped := true }

/-- Puts a number into a cell of a database. -/
def putInteger (backend : Backend) (key : String) (value : Int64) : Backend :=
  { backend with entries := backend.entries.insert key (.integer value) }

end Backend

end IngestCoordinator

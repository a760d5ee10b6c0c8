-- SUMMARY: The ways in which an operation can fail, with their wording.
import IngestCoordinator.Segment.Key
import IngestCoordinator.Segment.State
import IngestCoordinator.Timestamp

/-!
# Errors

An error names its cause; the wording is derived from it in one place. Two errors
only mean that a segment must be opened or is open already, so the caller may
simply try again. One is no answer at all: a sum that no word can hold ends whatever
was being done, and nobody goes on after it.
-/

namespace IngestCoordinator

/-- A thing that an operation looked for or tried to add. -/
inductive Entity where
  | collection (id : CollectionId)
  | partition (id : PartitionId)
  | segment (id : SegmentId)
  | node (id : NodeId)
  | channel (name : String)
  deriving DecidableEq, Repr

/-- A thing as messages name it. -/
def Entity.describe : Entity → String
  | .collection id => "collection `" ++ toString id ++ "`"
  | .partition id => "partition `" ++ toString id ++ "`"
  | .segment id => "segment `" ++ toString id ++ "`"
  | .node id => "node `" ++ toString id ++ "`"
  | .channel name => "channel `" ++ name ++ "`"

/-- Why no node can do what is asked. -/
inductive NodeFault where
  | noneToServe
  | noneRegistered
  | notRegistered
  | queueClosed
  deriving DecidableEq, Repr

def NodeFault.message : NodeFault → String
  | .noneToServe => "cannot allocate insert channels without data nodes"
  | .noneRegistered => "no data node registered to watch insert channels"
  | .notRegistered => "node is not registered"
  | .queueClosed => "command queue closed"

/-- Why something is in no state for what is asked. -/
inductive StateFault where
  | cannotOpen (id : SegmentId) (state : SegmentState)
  | cannotSeal (id : SegmentId) (state : SegmentState)
  | cannotFlush (id : SegmentId) (state : SegmentState)
  | grantsOutstanding (id : SegmentId) (sealedTime : Timestamp)
  | changedWhileAllocating (id : SegmentId)
  | identityChanged (id : SegmentId)
  | channelsNotAllocated (collection : CollectionId)
  | alreadyStarted
  | refused (reason : String)
  deriving DecidableEq, Repr

def StateFault.message : StateFault → String
  | .cannotOpen id state => s!"segment {id} is {state} and cannot be opened"
  | .cannotSeal id state => s!"segment {id} is {state} and cannot be sealed"
  | .cannotFlush id state => s!"segment {id} is {state} and cannot be flushed"
  | .grantsOutstanding id sealedTime =>
    "segment " ++ toString id ++ " has grants expiring after " ++ toString sealedTime.toNat
  | .changedWhileAllocating id => s!"segment {id} changed while allocating"
  | .identityChanged id => s!"mutation of segment {id} changed its id"
  | .channelsNotAllocated collection =>
    s!"insert channels of collection {collection} are not allocated"
  | .alreadyStarted => "data coordinator already started"
  | .refused reason => reason

/-- Why the store did not do what was asked. -/
inductive StoreFault where
  | markedUnavailable
  | poolClosed
  | tableMissing
  | cannotConnect
  | contention
  | writeRejected
  | readRejected
  | listRejected
  | idsRejected
  deriving DecidableEq, Repr

def StoreFault.message : StoreFault → String
  | .markedUnavailable => "memory kv backend marked unavailable"
  | .poolClosed => "attempted to acquire a connection on a closed pool"
  | .tableMissing => "no such table: kv"
  | .cannotConnect => "unable to open database file"
  | .contention => "contention while reserving id block"
  | .writeRejected => "write rejected"
  | .readRejected => "read rejected"
  | .listRejected => "list rejected"
  | .idsRejected => "ids rejected"

/-- What could not be decoded. -/
inductive DecodeFault where
  | text
  | counter (key : String)
  | collectionRecord (key : String)
  | segmentRecord (key : String)
  deriving DecidableEq, Repr

/-- The wording of a decoding fault; that of a bare text is left to the decoder. -/
def DecodeFault.message? : DecodeFault → Option String
  | .text => none
  | .counter key => some ("malformed counter at `" ++ key ++ "`")
  | .collectionRecord key => some ("collection record `" ++ key ++ "`")
  | .segmentRecord key => some ("segment record `" ++ key ++ "`")

/-- What makes an argument unacceptable. -/
inductive ArgumentFault where
  | vectorWithoutDimension (field : String)
  | binaryVectorDimension (field : String) (dim : UInt32)
  | schemaWithoutFields (schema : String)
  | rowCountNotPositive
  | idBlockEmpty
  | idBlockTooLarge
  | channelsNotPositive
  | unreadableCatalog (path : String) (reason : String)
  deriving DecidableEq, Repr

def ArgumentFault.message : ArgumentFault → String
  | .vectorWithoutDimension field => "vector field `" ++ field ++ "` has no dimension"
  | .binaryVectorDimension field dim =>
    "binary vector field `" ++ field ++ "` needs a dimension divisible by 8, got " ++
      toString dim.toNat
  | .schemaWithoutFields schema => "collection schema `" ++ schema ++ "` has no fields"
  | .rowCountNotPositive => "row count must be positive"
  | .idBlockEmpty => "id block size must be at least 1"
  | .idBlockTooLarge => "id block size too large"
  | .channelsNotPositive => "insert channels per collection must be positive"
  | .unreadableCatalog path reason => s!"cannot read catalog {path}: {reason}"

/-- What went wrong inside. -/
inductive InternalFault where
  | idSpaceExhausted
  | catalogRejected
  deriving DecidableEq, Repr

def InternalFault.message : InternalFault → String
  | .idSpaceExhausted => "id space exhausted"
  | .catalogRejected => "catalog rejected"

/-- A duration in milliseconds, in the largest of the units s and ms that leaves a whole part. -/
def describeMs (ms : Nat) : String :=
  if ms = 0 then "0ns"
  else if ms < 1000 then s!"{ms}ms"
  else
    let rest := ms % 1000
    let digits :=
      if rest = 0 then ""
      else if rest % 100 = 0 then "." ++ toString (rest / 100)
      else if rest % 10 = 0 then "." ++ (if rest < 100 then "0" else "") ++ toString (rest / 10)
      else "." ++ (if rest < 10 then "00" else if rest < 100 then "0" else "") ++ toString rest
    toString (ms / 1000) ++ digits ++ "s"

/-- Why an operation failed. -/
inductive Error where
  | noGrowingSegment (key : SegmentKey)
  | segmentAlreadyOpen (id : SegmentId) (key : SegmentKey)
  | nodeUnavailable (node : Option NodeId) (cause : NodeFault)
  | notFound (entity : Entity)
  | alreadyExists (entity : Entity)
  | invalidState (cause : StateFault)
  | storeUnavailable (cause : StoreFault)
  | timeout (registered expected : Nat) (afterMs : Nat)
  | cancelled
  | malformed (cause : DecodeFault)
  | invalidArgument (cause : ArgumentFault)
  | internal (cause : InternalFault)
  /-- A sum was too large for a word: what was being done ends there. -/
  | overflow
  deriving DecidableEq, Repr

namespace Error

/-- The name of the kind of an error. -/
def kind : Error → String
  | .noGrowingSegment _ => "NoGrowingSegment"
  | .segmentAlreadyOpen _ _ => "SegmentAlreadyOpen"
  | .nodeUnavailable _ _ => "NodeUnavailable"
  | .notFound _ => "NotFound"
  | .alreadyExists _ => "AlreadyExists"
  | .invalidState _ => "InvalidState"
  | .storeUnavailable _ => "MetaUnavailable"
  | .timeout _ _ _ => "Timeout"
  | .cancelled => "Cancelled"
  | .malformed _ => "DeserializationError"
  | .invalidArgument _ => "ValidationError"
  | .internal _ => "Internal"
  | .overflow => "Overflow"

/-- The wording of an error, unless a decoder words it. -/
def message? : Error → Option String
  | .noGrowingSegment key => some s!"no growing segment for {key}"
  | .segmentAlreadyOpen id key =>
    some ("segment `" ++ toString id ++ "` is already open for " ++ toString key)
  | .nodeUnavailable _ cause => some ("node unavailable: " ++ cause.message)
  | .notFound entity => some (entity.describe ++ " was not found")
  | .alreadyExists entity => some (entity.describe ++ " already exists")
  | .invalidState cause => some ("invalid state: " ++ cause.message)
  | .storeUnavailable cause => some ("metadata store unavailable: " ++ cause.message)
  | .timeout registered expected afterMs =>
    some (s!"timed out: {registered} of {expected} data nodes registered after " ++
      describeMs afterMs)
  | .cancelled => some "cancelled: shutdown while waiting for data nodes"
  | .malformed cause => cause.message?.map ("deserialization error: " ++ ·)
  | .invalidArgument cause => some ("validation error: " ++ cause.message)
  | .internal cause => some ("internal error: " ++ cause.message)
  | .overflow => some "arithmetic overflow"

/-- Whether trying again may succeed without anything else changing. -/
def isRetryable : Error → Bool
  | .noGrowingSegment _ | .segmentAlreadyOpen _ _ => true
  | _ => false

end Error

end IngestCoordinator

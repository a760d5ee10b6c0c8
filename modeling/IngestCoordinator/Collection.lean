-- SUMMARY: Collections: field types, schemas, the size of a row, and stored collection records.
import IngestCoordinator.Error

/-!
# Collections

A collection has a schema of typed fields and a list of partitions. The schema
estimates how many bytes a row takes, which decides how many rows fit a segment;
a schema without fields, or with a vector of no usable dimension, has no
estimate.
-/

namespace IngestCoordinator

/-- The type of a field. -/
inductive DataType where
  | bool
  | int8
  | int16
  | int32
  | int64
  | float
  | double
  | varChar
  | floatVector
  | binaryVector
  deriving DecidableEq, Repr

namespace DataType

/-- The word for a type. -/
def name : DataType → String
  | .bool => "bool"
  | .int8 => "int8"
  | .int16 => "int16"
  | .int32 => "int32"
  | .int64 => "int64"
  | .float => "float"
  | .double => "double"
  | .varChar => "var_char"
  | .floatVector => "float_vector"
  | .binaryVector => "binary_vector"

/-- The type that a word names. -/
def ofName? : String → Option DataType
  | "bool" => some .bool
  | "int8" => some .int8
  | "int16" => some .int16
  | "int32" => some .int32
  | "int64" => some .int64
  | "float" => some .float
  | "double" => some .double
  | "var_char" => some .varChar
  | "float_vector" => some .floatVector
  | "binary_vector" => some .binaryVector
  | _ => none

theorem ofName?_name (type : DataType) : ofName? type.name = some type := by
  cases type <;> rfl

def toJson (type : DataType) : Json :=
  .ofString type.name

def ofJson? (value : Json) : Option DataType :=
  value.word?.bind ofName?

end DataType

/-- A field of a schema. -/
structure Field where
  name : String
  type : DataType
  /-- The length of a vector, in elements. -/
  dim : UInt32 := 0
  deriving DecidableEq, Repr

namespace Field

/-- Whether the field holds vectors. -/
def isVector (field : Field) : Bool :=
  field.type == .floatVector || field.type == .binaryVector

/-- The bytes that one value takes; text is taken to be 64 bytes long. -/
def width (field : Field) : Except Error UInt64 :=
  match field.type with
  | .bool | .int8 => .ok 1
  | .int16 => .ok 2
  | .int32 | .float => .ok 4
  | .int64 | .double => .ok 8
  | .varChar => .ok 64
  | .floatVector =>
    if field.dim = 0 then .error (.invalidArgument (.vectorWithoutDimension field.name))
    else .ok (4 * field.dim.toUInt64)
  | .binaryVector =>
    if field.dim = 0 ∨ field.dim % 8 ≠ 0 then
      .error (.invalidArgument (.binaryVectorDimension field.name field.dim))
    else .ok (field.dim.toUInt64 / 8)

def toJson (field : Field) : Json :=
  .record [
    ("name", .ofString field.name),
    ("data_type", field.type.toJson),
    ("dim", .ofNat field.dim.toNat)]

def ofJson? (value : Json) : Option Field := do
  let fields ← Json.Fields.ofJson? ["name", "data_type", "dim"] value
  return {
    name := ← fields.required "name" Json.string?
    type := ← fields.required "data_type" DataType.ofJson?
    dim := ← fields.defaulted "dim" 0 Json.uint32? }

end Field

/-- The shape of the rows of a collection. -/
structure Schema where
  name : String
  fields : List Field
  deriving DecidableEq, Repr

namespace Schema

/-- The bytes that one row takes: the sum of the widths of its fields. -/
def rowWidth (schema : Schema) : Except Error UInt64 :=
  if schema.fields.isEmpty then .error (.invalidArgument (.schemaWithoutFields schema.name))
  else schema.fields.foldlM (fun total field => return total + (← field.width)) 0

def toJson (schema : Schema) : Json :=
  .record [
    ("name", .ofString schema.name),
    ("fields", .ofList Field.toJson schema.fields)]

def ofJson? (value : Json) : Option Schema := do
  let fields ← Json.Fields.ofJson? ["name", "fields"] value
  return {
    name := ← fields.required "name" Json.string?
    fields := ← fields.required "fields" (Json.list? Field.ofJson?) }

end Schema

/-- A collection as it is stored. -/
structure Collection where
  id : CollectionId
  schema : Schema
  partitions : List PartitionId
  deriving DecidableEq, Repr

namespace Collection

/-- Whether the collection has a partition. -/
def hasPartition (collection : Collection) (partition : PartitionId) : Bool :=
  collection.partitions.contains partition

/-- The collection with a partition at the end of its list, unless it is there already. -/
def withPartition (collection : Collection) (partition : PartitionId) : Collection :=
  if collection.hasPartition partition then collection
  else { collection with partitions := collection.partitions ++ [partition] }

def toJson (collection : Collection) : Json :=
  .record [
    ("collection_id", collection.id.toJson),
    ("schema", collection.schema.toJson),
    ("partitions", .ofList Identifier.toJson collection.partitions)]

def ofJson? (value : Json) : Option Collection := do
  let fields ← Json.Fields.ofJson? ["collection_id", "schema", "partitions"] value
  return {
    id := ← fields.required "collection_id" Identifier.ofJson?
    schema := ← fields.required "schema" Schema.ofJson?
    partitions := ← fields.required "partitions" (Json.list? Identifier.ofJson?) }

end Collection

end IngestCoordinator

-- SUMMARY: Database addresses and the backends that they open.
import IngestCoordinator.Store.Backend

/-!
# Databases

A database is addressed by a text: a scheme, the name of a file or `:memory:`, and
options after a question mark. Names and options may be percent-encoded. A
database can be used if its options are known, it may be written, and it lives in
memory or in a directory that exists.
-/

namespace IngestCoordinator.Database

/-- Undoes percent-encoding; a percent sign without two digits stands for itself. -/
def percentDecode : Bytes → Bytes
  | 37 :: h :: l :: bs =>
    match Bytes.hexDigit? h, Bytes.hexDigit? l with
    | some high, some low => UInt8.ofNat (high * 16 + low) :: percentDecode bs
    | _, _ => 37 :: percentDecode (h :: l :: bs)
  | b :: bs => b :: percentDecode bs
  | [] => []

/-- Where a database is kept. -/
inductive Place where
  | memory
  | file (path : Bytes)
  deriving DecidableEq, Repr

/-- What an address says about a database. -/
structure Address where
  place : Place
  writable : Bool := true
  deriving DecidableEq, Repr

/-- An option of an address: a name and a value, with plus signs for spaces. -/
def decodeOption (bs : Bytes) : Bytes × Bytes :=
  let plain (bs : Bytes) : Bytes := percentDecode (bs.map fun b => if b = 43 then 32 else b)
  (plain (bs.takeWhile (· ≠ 61)), plain ((bs.dropWhile (· ≠ 61)).drop 1))

/-- An address changed by an option, unless the option is unknown. -/
def Address.apply (address : Address) (option : Bytes × Bytes) : Option Address :=
  match Bytes.text? option.1, Bytes.text? option.2 with
  | some "mode", some "ro" => some { address with writable := false }
  | some "mode", some "rw" | some "mode", some "rwc" => some address
  | some "mode", some "memory" => some { address with place := .memory }
  | some "cache", some "private" | some "cache", some "shared" => some address
  | some "immutable", some "true" | some "immutable", some "1" =>
    match address.place with
    | .memory => some address
    | .file _ => some { address with writable := false }
  | some "immutable", some "false" | some "immutable", some "0" => some address
  | some "vfs", some "unix" => some address
  | _, _ => none

/-- A text without the scheme at its start, however often it stands there. -/
def dropScheme (scheme : Bytes) : Nat → Bytes → Bytes
  | 0, bs => bs
  | fuel + 1, bs =>
    if !scheme.isEmpty && scheme.isPrefixOf bs then
      dropScheme scheme fuel (bs.drop scheme.length)
    else bs

/-- The pieces of a byte string between separators. -/
def splitAt (separator : UInt8) : Bytes → List Bytes
  | [] => [[]]
  | b :: bs =>
    if b = separator then [] :: splitAt separator bs
    else
      match splitAt separator bs with
      | [] => [[b]]
      | piece :: pieces => (b :: piece) :: pieces

/-- Reads an address. -/
def Address.parse? (text : String) : Option Address :=
  let bs := Bytes.ofString text
  let bs := dropScheme (Bytes.ofString "sqlite://") bs.length bs
  let bs := dropScheme (Bytes.ofString "sqlite:") bs.length bs
  let name := bs.takeWhile (· ≠ 63)
  let options := (splitAt 38 ((bs.dropWhile (· ≠ 63)).drop 1)).filter (!·.isEmpty)
  let place : Option Place :=
    if name = Bytes.ofString ":memory:" then some .memory
    else (percentDecode name).text?.map fun _ => .file (percentDecode name)
  place.bind fun place =>
    options.foldlM (fun address option => address.apply (decodeOption option)) { place }

/-- The directory of a file: what stands before the last slash, if there is one. -/
def directory? (path : Bytes) : Option Bytes :=
  if path.contains 47 then some (path.reverse.dropWhile (· ≠ 47)).reverse else none

/--
Opens the database at an address, with nothing in it. Files can be made in the
directories that `isDirectory` accepts and where no directory of their name is.
-/
def connect (isDirectory : Bytes → Bool) (text : String) : Except Error Backend :=
  match Address.parse? text with
  | some { place := .memory, writable := true } => .ok { medium := .database }
  | some { place := .file path, writable := true } =>
    if !isDirectory path && (directory? path).all isDirectory then .ok { medium := .database }
    else .error (.storeUnavailable .cannotConnect)
  | _ => .error (.storeUnavailable .cannotConnect)

end IngestCoordinator.Database

import Mathlib
import ShiftPV.BlockResolver
import ShiftPV.Lib.Buffer

/-! The decoder of device-mapper tables. The kernel answers with a chain of records in one buffer: a header of fixed size,
    whose `next` field names the record that follows by its distance from the first, and a text of parameters that ends in a
    zero byte. The byte order of the machine enters as a parameter. -/

namespace ShiftPV
open Buffer Buffer.Access

structure Native where
  uint32 : List UInt8 → UInt32
  uint64 : List UInt8 → UInt64

def littleEndian (bytes : List UInt8) : Nat := bytes.foldr (fun b rest => b.toNat + 256 * rest) 0

def littleNative : Native where
  uint32 bytes := .ofNat (littleEndian bytes)
  uint64 bytes := .ofNat (littleEndian bytes)

def sizeofDmIoctl : UInt32 := 312
def sizeofDmTargetSpec : UInt32 := 40

/-! ### Texts as bytes -/

def asciiBytes (text : String) : List UInt8 := text.toList.map fun c => c.toNat.toUInt8

def bytesText (bytes : List UInt8) : String := .ofList (bytes.map fun b => Char.ofNat b.toNat)

/-- `strings.TrimRight` with a zero byte. -/
def trimZeros (bytes : List UInt8) : List UInt8 := (bytes.reverse.dropWhile (· = 0)).reverse

/-- The width of the white space a text begins with, and zero when it begins with none. The bytes beyond ASCII are the
    UTF-8 forms of the spaces of Unicode, whose first byte never stands inside another character. -/
def spaceWidth : List UInt8 → Nat
  | 0xC2 :: 0x85 :: _ => 2
  | 0xC2 :: 0xA0 :: _ => 2
  | 0xE1 :: 0x9A :: 0x80 :: _ => 3
  | 0xE2 :: 0x80 :: b :: _ => if 0x80 ≤ b ∧ b ≤ 0x8A ∨ b = 0xA8 ∨ b = 0xA9 ∨ b = 0xAF then 3 else 0
  | 0xE2 :: 0x81 :: 0x9F :: _ => 3
  | 0xE3 :: 0x80 :: 0x80 :: _ => 3
  | b :: _ => if 9 ≤ b ∧ b ≤ 13 ∨ b = 32 then 1 else 0
  | [] => 0

/-- The loop of `strings.Fields`: `skip` bytes of a space are still to be passed, `field` is the field read so far, in
    reverse. -/
def fieldsFrom : (skip : Nat) → (field : List UInt8) → List UInt8 → List (List UInt8)
  | _, [], [] => []
  | _, field, [] => [field.reverse]
  | skip + 1, field, _ :: rest => fieldsFrom skip field rest
  | 0, field, b :: rest =>
    match spaceWidth (b :: rest), field with
    | 0, _ => fieldsFrom 0 (b :: field) rest
    | width + 1, [] => fieldsFrom width [] rest
    | width + 1, _ => field.reverse :: fieldsFrom width [] rest

/-- `strings.Fields`. -/
def splitFields (bytes : List UInt8) : List (List UInt8) := fieldsFrom 0 [] bytes

/-! ### Records -/

/-- The parameters of a linear mapping: the device below and the sector it begins at. -/
def linearParameters (text : List UInt8) : Except String (String × UInt64) :=
  match splitFields text with
  | [device, backing] => do
    let _ ← parseDevice device
    match parseUint 64 backing with
    | none => .error "linear backing offset is invalid"
    | some backingStart => return (bytesText device, .ofNat backingStart)
  | _ => .error "linear allocation parameters are invalid"

section
variable (native : Native) (data : View) (start size : UInt32)

/-- One turn of the decoder: the segment of the record at `offset`, and where the record ends. -/
def decodeDMTarget (offset : UInt32) (last : Bool) : Access (Segment × UInt32) := do
  check (offset % 8 = 0 ∧ offset ≤ size ∧ sizeofDmTargetSpec ≤ size - offset) "device-mapper target response is truncated"
  let target ← data.slice offset.toNat (offset + sizeofDmTargetSpec).toNat
  let nextBytes ← target.slice 20 24
  let next := native.uint32 nextBytes.bytes
  check (last ∨ next ≤ size - start ∧ offset - start + sizeofDmTargetSpec < next) "device-mapper target offset is invalid"
  let stop := if last then size else start + next
  let kindBytes ← target.slice 24 40
  let kind := trimZeros kindBytes.bytes
  check (kind = asciiBytes "linear")
    ("device-mapper target " ++ Check.quoted (bytesText kind) ++ " does not prove fixed allocation")
  let parameters ← data.slice (offset + sizeofDmTargetSpec).toNat stop.toNat
  check (0 ∈ parameters.bytes) "device-mapper target parameters are incomplete"
  let (device, backingStart) ← ofExcept (linearParameters (parameters.bytes.takeWhile (· ≠ 0)))
  let startBytes ← target.slice 0 8
  let sectorBytes ← target.slice 8 16
  return ({ start := native.uint64 startBytes.bytes, sectors := native.uint64 sectorBytes.bytes, device,
            offset := backingStart }, stop)

/-- The loop of the decoder, with the number of records still to be read. -/
def decodeDMTargets : Nat → UInt32 → List Segment → Access (List Segment)
  | 0, _, segments => return segments
  | remaining + 1, offset, segments => do
    let (segment, stop) ← decodeDMTarget native data start size offset (remaining = 0)
    decodeDMTargets remaining stop (segments ++ [segment])

def decodeDMTable (count : UInt32) : Access (List Segment) := do
  check (size.toNat ≤ data.bytes.length % 2 ^ 32 ∧ sizeofDmIoctl ≤ start ∧ start < size ∧ count ≠ 0 ∧ count.toNat ≤ maxExtents)
    "device-mapper allocation response is invalid"
  decodeDMTargets native data start size count.toNat start []

end

/-! ### What the chain says -/

section
variable (native : Native) (data : List UInt8) (start : Nat)

def bytesBetween (lo hi : Nat) : List UInt8 := (data.drop lo).take (hi - lo)

/-- Where the chain places a record: the first at the start of the data, every other where its predecessor says. -/
def recordAt : Nat → Nat
  | 0 => start
  | i + 1 => start + (native.uint32 (bytesBetween data (recordAt i + 20) (recordAt i + 24))).toNat

def recordEnd (size count i : Nat) : Nat := if i + 1 < count then recordAt native data start (i + 1) else size

/-- The text of parameters of a record, with what stands behind its terminator. -/
def recordParameters (size count i : Nat) : List UInt8 :=
  bytesBetween data (recordAt native data start i + 40) (recordEnd native data start size count i)

/-- A record that may not be decoded: it does not reach beyond its own header, its successor is placed outside the data,
    or its parameters are not terminated. -/
def BrokenRecord (size count i : Nat) : Prop :=
  recordEnd native data start size count i ≤ recordAt native data start i + 40 ∨
    size < recordEnd native data start size count i ∨ 0 ∉ recordParameters native data start size count i

def RecordSegment (size count i : Nat) (segment : Segment) : Prop :=
  segment.start = native.uint64 (bytesBetween data (recordAt native data start i) (recordAt native data start i + 8)) ∧
  segment.sectors = native.uint64 (bytesBetween data (recordAt native data start i + 8) (recordAt native data start i + 16)) ∧
  linearParameters ((recordParameters native data start size count i).takeWhile (· ≠ 0)) = .ok (segment.device, segment.offset)

end

end ShiftPV

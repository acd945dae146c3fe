import ShiftPV.PoolRegistry

/-! The resolver of block allocations. A device is a partition of a parent, a table of segments on other devices, or a
    physical device; the resolver follows a range of sectors down to physical devices. -/

namespace ShiftPV
open Check

def maxDepth : Nat := 16

structure Segment where
  start : UInt64
  sectors : UInt64
  device : String
  offset : UInt64
  deriving DecidableEq

structure Block where
  size : UInt64
  identity : String
  parent : String
  start : UInt64
  mapped : Bool
  segments : List Segment
  deriving DecidableEq

/-- What the kernel says about each device. -/
abbrev Backend := String → Except String Block

abbrev Adder := UInt64 → UInt64 → Except String UInt64

def machineAdd : Adder := fun a b => pure (a + b)

def exactAdd : Adder := fun a b => do
  require (a.toNat + b.toNat < 2 ^ 64) "the sum wraps"
  return a + b

section
variable (add : Adder)

/-- The table begins at `stop` and has neither gaps nor empty segments; its end is returned. -/
def validateSegmentsFrom : UInt64 → List Segment → Except String UInt64
  | stop, [] => pure stop
  | stop, s :: rest => do
    require (s.start = stop ∧ s.sectors ≠ 0 ∧ s.sectors ≤ maxUint64 - stop ∧ s.device ≠ "")
      "mapped allocation table has gaps or invalid ranges"
    let next ← add stop s.sectors
    validateSegmentsFrom next rest

def validateSegments (b : Block) : Except String Unit := do
  require (b.segments ≠ [] ∧ b.segments.length ≤ maxExtents) "mapped allocation has no complete bounded table"
  let stop ← validateSegmentsFrom add 0 b.segments
  require (stop = b.size) "mapped allocation table does not cover the device"

def resolveSegments (resolve : String → UInt64 → UInt64 → Except String (List Extent)) (start sectors : UInt64) :
    List Extent → List Segment → Except String (List Extent)
  | extents, [] => pure extents
  | extents, s :: rest => do
    let stop ← add start sectors
    let segmentStop ← add s.start s.sectors
    let first := max start s.start
    let last := min stop segmentStop
    if first ≥ last then
      resolveSegments resolve start sectors extents rest
    else do
      let offset := first - s.start
      require (offset ≤ maxUint64 - s.offset) "mapped allocation offset overflows"
      let target ← add s.offset offset
      let resolved ← resolve s.device target (last - first)
      require ((extents ++ resolved).length ≤ maxExtents) "block allocation extent limit exceeded"
      resolveSegments resolve start sectors (extents ++ resolved) rest

/-- The physical extents of a range of a device, at most `depth` devices further down. -/
def resolveRange (backend : Backend) : Nat → List String → String → UInt64 → UInt64 → Except String (List Extent)
  | 0, _, _, _, _ => throw "block allocation dependency cycle or depth exceeded"
  | depth + 1, visiting, device, start, sectors => do
    require (device ∉ visiting) "block allocation dependency cycle or depth exceeded"
    let b ← backend device
    require (sectors ≠ 0 ∧ start ≤ b.size ∧ sectors ≤ b.size - start) "block allocation range is invalid"
    if b.parent ≠ "" then do
      require (start ≤ maxUint64 - b.start) "partition offset overflows"
      let offset ← add b.start start
      resolveRange backend depth (device :: visiting) b.parent offset sectors
    else if ¬b.mapped then
      return [{ device := if b.identity = "" then device else b.identity, start, sectors }]
    else do
      validateSegments add b
      resolveSegments add (resolveRange backend depth (device :: visiting)) start sectors [] b.segments

def normalizeOntoWith : List Extent → List Extent → Except String (List Extent)
  | normalized, [] => pure normalized.reverse
  | normalized, e :: rest => do
    e.validate
    match normalized with
    | previous :: before =>
      if previous.device = e.device then do
        let stop ← add previous.start previous.sectors
        require (stop ≤ e.start) "block allocation contains overlapping extents"
        if e.start = stop then do
          let sectors ← add previous.sectors e.sectors
          normalizeOntoWith ({ previous with sectors } :: before) rest
        else
          normalizeOntoWith (e :: normalized) rest
      else
        normalizeOntoWith (e :: normalized) rest
    | [] => normalizeOntoWith [e] rest

def normalizeWith (extents : List Extent) : Except String (List Extent) := do
  require (extents ≠ [] ∧ extents.length ≤ maxExtents) "block allocation must contain bounded extents"
  normalizeOntoWith add [] (extents.insertionSort fun a b => a.before b)

def resolveWith (backend : Backend) (device : String) : Except String (List Extent) := do
  let b ← backend device
  let extents ← resolveRange add backend maxDepth [] device 0 b.size
  normalizeWith add extents

end

def resolveDevice (backend : Backend) (device : String) : Except String (List Extent) := resolveWith machineAdd backend device

end ShiftPV

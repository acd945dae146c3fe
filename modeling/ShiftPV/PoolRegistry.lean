import Mathlib.Data.List.Sort
import ShiftPV.Lib.Check
import ShiftPV.Lib.Paths
import ShiftPV.PoolScan

/-! Pool registrations. A Pool is placeable when its own probe, inventory and protection are current and its backing is
    independent of the other registrations on its node. -/

namespace ShiftPV
open Check

/-! ### Backing allocations -/

structure Extent where
  device : String
  start : UInt64
  sectors : UInt64
  deriving DecidableEq

def maxExtents : Nat := 256

def maxUint64 : UInt64 := 0xffffffffffffffff

def parseUint (bits : Nat) (digits : List UInt8) : Option Nat :=
  let value := digits.foldl (fun n d => n * 10 + (d.toNat - 48)) 0
  if digits ≠ [] ∧ (∀ d ∈ digits, 48 ≤ d ∧ d ≤ 57) ∧ value < 2 ^ bits then some value else none

def decimalBytes (n : Nat) : List UInt8 := (Nat.toDigits 10 n).map fun c => c.toNat.toUInt8

/-- A block device is named by its major and its minor number, in canonical form. -/
def parseDevice (device : List UInt8) : Except String (Nat × Nat) :=
  match device.splitOn 58 with
  | [majorText, minorText] =>
    match parseUint 32 majorText with
    | none => .error "invalid block device major"
    | some major =>
      match parseUint 32 minorText with
      | none => .error "invalid block device minor"
      | some minor =>
        if device = decimalBytes major ++ 58 :: decimalBytes minor then .ok (major, minor)
        else .error "block device identity is not canonical"
  | _ => .error "invalid block device identity"

def validateDevice (device : String) : Except String Unit := do
  let _ ← parseDevice (device.toList.flatMap String.utf8EncodeChar)

def lowerHexDigit (c : Char) : Bool := ('0' ≤ c && c ≤ '9') || ('a' ≤ c && c ≤ 'f')

def validateBackingIdentity (device : String) : Except String Unit :=
  let wwid := "wwid:".toList
  if wwid.isPrefixOf device.toList then
    let digest := device.toList.drop wwid.length
    require (digest.length = 64 ∧ digest.all lowerHexDigit) "invalid backing WWID digest"
  else
    validateDevice device

def Extent.before (a b : Extent) : Bool := a.device < b.device || (a.device = b.device && a.start ≤ b.start)

def Extent.validate (e : Extent) : Except String Unit := do
  validateBackingIdentity e.device
  require (e.sectors ≠ 0 ∧ e.sectors ≤ maxUint64 - e.start) "block allocation extent is invalid"

def normalizeOnto : List Extent → List Extent → Except String (List Extent)
  | normalized, [] => pure normalized.reverse
  | normalized, e :: rest => do
    e.validate
    match normalized with
    | previous :: before =>
      if previous.device = e.device then
        require (previous.start + previous.sectors ≤ e.start) "block allocation contains overlapping extents"
        if e.start = previous.start + previous.sectors then
          normalizeOnto ({ previous with sectors := previous.sectors + e.sectors } :: before) rest
        else
          normalizeOnto (e :: normalized) rest
      else
        normalizeOnto (e :: normalized) rest
    | [] => normalizeOnto [e] rest

def normalize (extents : List Extent) : Except String (List Extent) := do
  require (extents ≠ [] ∧ extents.length ≤ maxExtents) "block allocation must contain bounded extents"
  normalizeOnto [] (extents.insertionSort fun a b => a.before b)

def Extent.meets (a b : Extent) : Bool := a.device = b.device && a.start < b.start + b.sectors && b.start < a.start + a.sectors

def overlap (left right : List Extent) : Except String Bool := do
  let l ← normalize left
  let r ← normalize right
  return l.any fun a => r.any a.meets

/-! ### Registrations -/

def fixedBlock : String := "FixedBlock"

def poolMountPolicyRequireMountPoint : String := "RequireMountPoint"

structure CapacityUnit where
  device : String
  source : String
  filesystem : String
  extents : List Extent
  deriving DecidableEq

def CapacityUnit.validate (unit : Option CapacityUnit) : Except String Unit :=
  let incomplete := "fixed filesystem capacity identity is incomplete or unsupported"
  match unit with
  | none => throw incomplete
  | some unit => do
    require (passes (validateDevice unit.device) ∧ unit.source ≠ "" ∧ (unit.filesystem = "ext4" ∨ unit.filesystem = "xfs"))
      incomplete
    let normalized ← normalize unit.extents
    require (normalized = unit.extents) "capacity allocation evidence is not normalized"

structure RegistrationCheck where
  ok : Bool
  known : Bool
  reason : String
  message : String

namespace RegistrationCheck

def failed (reason message : String) : RegistrationCheck := { ok := false, known := true, reason, message }

def verified : RegistrationCheck :=
  { ok := true, known := true, reason := "CapacityAllocationVerified"
    message := "Pool capacity is independent of its peers" }

def passed : RegistrationCheck := { ok := true, known := true, reason := "", message := "" }

end RegistrationCheck

open RegistrationCheck

/-- What a registration claims of its node's storage, with the evidence for it. -/
structure Allocation where
  uid : String
  nodeName : String
  mountPath : String
  policy : String
  approved : Bool
  deleting : Bool
  retired : Bool
  unit : Option CapacityUnit
  evidence : RegistrationCheck

namespace Allocation

def proven (allocation : Allocation) : Bool :=
  allocation.evidence.known && allocation.evidence.ok && passes (CapacityUnit.validate allocation.unit)

def extents (allocation : Allocation) : List Extent := (allocation.unit.map (·.extents)).getD []

def independentPair (target peer : Allocation) : RegistrationCheck :=
  if target.policy ≠ fixedBlock then
    failed "CapacityIsolationRequired" "multiple approved Pools on one node require capacityPolicy FixedBlock"
  else if Paths.overlap target.mountPath peer.mountPath then
    failed "CapacityPathsOverlap" "Pool paths overlap or are nested"
  else if peer.policy ≠ fixedBlock ∨ ¬peer.proven then
    failed "CapacityPeerUnproven" "a peer has no current fixed capacity evidence"
  else match overlap target.extents peer.extents with
    | .ok false => verified
    | _ => failed "CapacityBackingOverlap" "Pools have overlapping or unproven backing allocations"

/-- The peers a target is compared with. An approved target ignores candidates. -/
def concerns (target peer : Allocation) : Bool :=
  peer.nodeName = target.nodeName && peer.uid ≠ target.uid && !(target.approved && !peer.approved)

def independentPeers (target : Allocation) : List Allocation → RegistrationCheck
  | [] => verified
  | peer :: rest =>
    if ¬target.concerns peer then target.independentPeers rest
    else if peer.retired then
      if Paths.overlap target.mountPath peer.mountPath then
        failed "CapacityPathsOverlap" "retired Pool paths remain reserved until physical identity release"
      else target.independentPeers rest
    else
      let check := target.independentPair peer
      if check.ok then target.independentPeers rest else check

def independent (target : Allocation) (allocations : List Allocation) : RegistrationCheck :=
  if target.retired ∧ ¬target.deleting then
    failed "PoolRegistrationRetired" "Pool registration no longer participates in allocation"
  else if target.policy ≠ "" ∧ target.policy ≠ fixedBlock then
    failed "CapacityPolicyInvalid" "unsupported capacity policy"
  else if target.policy = fixedBlock ∧ ¬target.proven then
    if target.evidence.reason ≠ "" ∧ ¬target.evidence.ok then target.evidence
    else failed "CapacityIsolationUnproven" "fixed capacity evidence is missing or invalid"
  else if target.deleting then verified
  else target.independentPeers allocations

end Allocation

/-! ### Registered Pools -/

inductive PoolConditionType
  | ready | accessible | writable | capacityReadable | capacityIndependent | capacityBackingVerified | mounted
  | identityReleased
  deriving DecidableEq

structure PoolCondition where
  type : PoolConditionType
  isTrue : Bool
  reason : String
  observedGeneration : Int
  deriving DecidableEq

/-- The helpers of the API library for the conditions of a status. -/
structure StatusConditions where
  find : List PoolCondition → PoolConditionType → Option PoolCondition
  set : List PoolCondition → PoolCondition → List PoolCondition
  remove : List PoolCondition → PoolConditionType → List PoolCondition

structure PoolMountIdentity where
  device : String
  root : String
  source : String
  filesystem : String
  deriving DecidableEq

/-- An inventory with the moment of its scan; a moment that was never set is `none`. -/
structure ObservedInventory extends PoolInventory where
  observedAt : Option Int
  deriving DecidableEq

structure CapacityProbeResult where
  requestID : String
  evidence : String
  totalBytes : Int
  availableBytes : Int
  availableInodes : Int
  error : String
  deriving DecidableEq

structure RegisteredPoolStatus where
  registrationApproved : Bool
  capacityProbeSupported : Bool
  capacityProbe : Option CapacityProbeResult
  observedGeneration : Int
  lastProbeTime : Option Int
  capacityUnit : Option CapacityUnit
  mountIdentity : Option PoolMountIdentity
  conditions : List PoolCondition
  inventory : Option ObservedInventory
  deriving DecidableEq

structure ProbeRequest where
  id : String
  evidence : String
  deriving DecidableEq

structure RegisteredPool where
  name : String
  uid : String
  nodeName : String
  poolGroup : String
  mountPath : String
  capacityPolicy : String
  mountPolicy : String
  capacityLimit : String
  generation : Int
  isDeleting : Bool
  finalizers : List String
  retirementRequest : String
  retirementApproval : String
  capacityProbeRequest : Option ProbeRequest
  status : RegisteredPoolStatus
  deriving DecidableEq

def poolProtectionFinalizer : String := "shiftpv.io/pool-protection"

def fresh (now staleAfter : Int) (moment : Option Int) : Bool := moment.any fun t => t ≤ now && now - t ≤ staleAfter

namespace RegisteredPool

variable (pool : RegisteredPool) (conditions : StatusConditions)

def findCondition (type : PoolConditionType) : Option PoolCondition := conditions.find pool.status.conditions type

def registrationRetired : Bool := pool.uid ≠ "" && pool.retirementApproval = pool.uid

def retirementRequested : Bool := pool.uid ≠ "" && pool.retirementRequest = pool.uid

/-- The registration was accepted once. Anchors and successful observations of older versions count. -/
def registrationApproved : Bool :=
  pool.status.registrationApproved || pool.status.capacityUnit.isSome || pool.status.mountIdentity.isSome ||
    ((pool.findCondition conditions .ready).any (·.isTrue) &&
      pool.status.inventory.any fun inventory => inventory.valid && !inventory.truncated && inventory.message = "")

def PoolCondition.reasonOr (condition : Option PoolCondition) (otherwise : String) : String :=
  match condition with
  | some c => if c.reason ≠ "" then c.reason else otherwise
  | none => otherwise

def backingConfigurationCheck : RegistrationCheck :=
  if pool.nodeName = "" ∨ ¬Paths.isAbs pool.mountPath ∨ Paths.clean pool.mountPath = "/" ∨
      (pool.mountPolicy ≠ "" ∧ pool.mountPolicy ≠ poolMountPolicyRequireMountPoint) ∨
      (pool.capacityPolicy ≠ "" ∧ pool.capacityPolicy ≠ fixedBlock) then
    failed "PoolConfigurationInvalid" "invalid nodeName, mountPath, mountPolicy, or capacityPolicy"
  else passed

def topologyConfigurationCheck (isDNS1123Label : String → Bool) : RegistrationCheck :=
  if ¬pool.backingConfigurationCheck.ok then pool.backingConfigurationCheck
  else if ¬isDNS1123Label pool.poolGroup then failed "PoolConfigurationInvalid" "poolGroup must be a DNS-1123 label"
  else passed

def capacityBackingReadyAt (generation : Int) : Except String Unit :=
  if pool.capacityPolicy = "" then pure ()
  else do
    require (pool.capacityPolicy = fixedBlock ∧ passes (CapacityUnit.validate pool.status.capacityUnit)) "CapacityIdentityMissing"
    -- Older node images report their backing only as a part of independence.
    let condition := (pool.findCondition conditions .capacityBackingVerified).or (pool.findCondition conditions .capacityIndependent)
    require (condition.any fun c => c.observedGeneration = generation && c.isTrue)
      (PoolCondition.reasonOr condition "CapacityProbePending")

def capacityReadyAt (generation : Int) : Except String Unit := do
  pool.capacityBackingReadyAt conditions generation
  let condition := pool.findCondition conditions .capacityIndependent
  require (pool.capacityPolicy = "" ∨ condition.any fun c => c.observedGeneration = generation && c.isTrue)
    (PoolCondition.reasonOr condition "CapacityProbePending")

def mountReady (generation : Int) : Except String Unit :=
  if pool.mountPolicy = poolMountPolicyRequireMountPoint then do
    require pool.status.mountIdentity.isSome "MountIdentityMissing"
    let mounted := pool.findCondition conditions .mounted
    require (mounted.all fun c => c.observedGeneration = generation) "MountProbeOutdated"
    require (mounted.any (·.isTrue)) (PoolCondition.reasonOr mounted "MountProbePending")
  else pure ()

def readyAt (now staleAfter : Int) : Except String String := do
  require (¬pool.registrationRetired) "PoolRegistrationRetired"
  require (¬pool.retirementRequested) "PoolRetirementPending"
  require (¬pool.isDeleting) "PoolDeregistering"
  let condition := pool.findCondition conditions .ready
  require (condition.any (·.isTrue)) (PoolCondition.reasonOr condition "ProbePending")
  require (pool.status.observedGeneration = pool.generation ∧
    condition.all fun c => c.observedGeneration = pool.generation) "ProbeOutdated"
  require (0 < staleAfter ∧ fresh now staleAfter pool.status.lastProbeTime) "ProbeStale"
  pool.mountReady conditions pool.generation
  pool.capacityReadyAt conditions pool.generation
  return PoolCondition.reasonOr condition ""

def inventoryReadyAt (now staleAfter : Int) : Except String Unit :=
  match pool.status.inventory with
  | none => throw "InventoryMissing"
  | some inventory => do
    require (inventory.valid ∧ inventory.message = "") "InventoryInvalid"
    require (¬inventory.truncated) "InventoryTruncated"
    require (fresh now staleAfter inventory.observedAt) "InventoryStale"

def registrationAllocation : Allocation :=
  { uid := pool.uid, nodeName := pool.nodeName, mountPath := pool.mountPath, policy := pool.capacityPolicy
    approved := pool.registrationApproved conditions, deleting := pool.isDeleting, retired := pool.registrationRetired
    unit := pool.status.capacityUnit
    evidence := { ok := passes (pool.capacityBackingReadyAt conditions pool.generation), known := true, reason := "", message := "" } }

def capacityIndependent (pools : List RegisteredPool) : RegistrationCheck :=
  (pool.registrationAllocation conditions).independent (pools.map (·.registrationAllocation conditions))

def placedBefore (other : RegisteredPool) : Bool :=
  pool.nodeName < other.nodeName || (pool.nodeName = other.nodeName && pool.name ≤ other.name)

end RegisteredPool

/-! ### The registry -/

/-- What is called of the API library: the parser of quantities (the bytes of a quantity, `none` when they are not exact),
    the check of labels and the condition helpers. -/
structure ApiLibrary where
  parseQuantity : String → Except String (Option Int)
  isDNS1123Label : String → Bool
  conditions : StatusConditions

/-- A reader of the registrations: its clock and its staleness budget. -/
structure PoolReader extends ApiLibrary where
  now : Int
  staleAfter : Int

def defaultPoolReadinessStaleAfter : Int := 180000000000

structure PoolSnapshot where
  registered : List RegisteredPool
  ready : List RegisteredPool

namespace PoolReader

variable (r : PoolReader)

def parseLimitBytes (limit : String) : Except String Int := do
  match ← r.parseQuantity limit with
  | none => throw "value cannot be represented as bytes"
  | some value =>
    require (0 < value) "value must be greater than zero"
    return value

def configurationCheck (pool : RegisteredPool) : RegistrationCheck :=
  let topology := pool.topologyConfigurationCheck r.isDNS1123Label
  if ¬topology.ok then topology
  else match r.parseLimitBytes pool.capacityLimit with
    | .error e => failed "PoolCapacityLimitInvalid" ("capacity.limit must be an exact positive int64 byte count: " ++ e)
    | .ok _ => passed

def budget : Int := if r.staleAfter ≤ 0 then defaultPoolReadinessStaleAfter else r.staleAfter

/-- The gate of new placement: a fresh probe, a complete inventory and installed protection. -/
def poolReady (pool : RegisteredPool) : Except String Unit := do
  require (r.configurationCheck pool).ok (r.configurationCheck pool).reason
  let _ ← pool.readyAt r.conditions r.now r.budget
  pool.inventoryReadyAt r.now r.budget
  require (poolProtectionFinalizer ∈ pool.finalizers) "PoolProtectionMissing"

def errPoolConfiguration : String := "ShiftPV Pool configuration is invalid"

def errPoolNotFound : String := "ShiftPV Pool is not registered"

def errPoolIdentityChanged : String := errStateConflict ++ ": ShiftPV Pool identity changed"

def errPoolNotReady : String := "ShiftPV Pool is not ready"

def poolForIdentity (stored : List RegisteredPool) (name uid nodeName : String) : Except String RegisteredPool := do
  require (name ≠ "" ∧ uid ≠ "" ∧ nodeName ≠ "") (errPoolConfiguration ++ ": Pool name, UID, and node name are required")
  match stored.find? fun pool => pool.name = name with
  | none => throw (errPoolNotFound ++ ": ShiftPVPool " ++ quoted name)
  | some pool =>
    require (pool.uid = uid ∧ pool.nodeName = nodeName) (errPoolIdentityChanged ++ ": ShiftPVPool " ++ quoted name)
    require (Paths.isAbs pool.mountPath ∧ pool.mountPath ≠ "/")
      (errPoolConfiguration ++ ": ShiftPVPool " ++ quoted name ++ " has invalid mountPath")
    return pool

def readyPoolForIdentity (stored : List RegisteredPool) (name uid nodeName : String) : Except String RegisteredPool := do
  let pool ← poolForIdentity stored name uid nodeName
  match r.poolReady pool with
  | .error reason =>
    throw (errPoolNotReady ++ ": ShiftPVPool " ++ quoted name ++ " on node " ++ quoted nodeName ++ ": " ++ reason)
  | .ok () =>
    let independent := pool.capacityIndependent r.conditions stored
    require independent.ok (errPoolNotReady ++ ": " ++ independent.reason)
    return pool

def listPools (stored : List RegisteredPool) : List RegisteredPool := stored.insertionSort fun a b => a.placedBefore b

def observePools (stored : List RegisteredPool) : PoolSnapshot :=
  let pools := listPools stored
  { registered := pools
    ready := pools.filter fun pool => passes (r.poolReady pool) && (pool.capacityIndependent r.conditions pools).ok }

end PoolReader

end ShiftPV

import ShiftPV.Measurement

/-! What a node records about a Pool. One observation writes the filesystem numbers and the conditions together, and Ready is
    only recorded true when every check passed and the filesystem has bytes and inodes left. -/

namespace ShiftPV
open Check RegistrationCheck

structure StatFS where
  blocks : Nat
  bavail : Nat
  bsize : Nat
  ffree : Nat

def maxInt64 : Int := 2 ^ 63 - 1

def blockBytes (blocks blockSize : Nat) : Except String Int := do
  require (blockSize = 0 ∨ blocks ≤ (maxInt64 / blockSize).toNat) "block count and size overflow int64"
  return blocks * blockSize

def parseStatOutput (stat : StatFS) : Except String Filesystem := do
  let totalBytes ← (blockBytes stat.blocks stat.bsize).mapError ("calculate total bytes: " ++ ·)
  let availableBytes ← (blockBytes stat.bavail stat.bsize).mapError ("calculate available bytes: " ++ ·)
  require ((stat.ffree : Int) ≤ maxInt64) "available inode count overflows int64"
  return { totalBytes, availableBytes, availableInodes := stat.ffree }

/-- What a probe learns of the filesystem: the answer of statfs, or why there is none. -/
inductive StatRead where
  | answered (stat : StatFS)
  | unread (known : Bool) (reason message : String)

def StatRead.observed : StatRead → RegistrationCheck × Filesystem
  | .unread known reason message => ({ ok := false, known, reason, message }, ⟨0, 0, 0⟩)
  | .answered stat =>
    match parseStatOutput stat with
    | .error e => (failed "ProbeFailed" e, ⟨0, 0, 0⟩)
    | .ok stats =>
      ({ ok := true, known := true, reason := "CapacityReadable", message := "filesystem capacity is readable" }, stats)

/-- One inspection of a Pool by its node. A check without a reason was not made. -/
structure Inspection where
  backing : RegistrationCheck
  independent : RegistrationCheck
  accessible : RegistrationCheck
  mounted : RegistrationCheck
  writable : RegistrationCheck
  stat : StatRead
  capacityUnit : Option CapacityUnit
  mountIdentity : Option PoolMountIdentity

def Inspection.capacityReadable (result : Inspection) : RegistrationCheck := result.stat.observed.1

def Inspection.filesystem (result : Inspection) : Filesystem := result.stat.observed.2

def RegistrationCheck.made (check : RegistrationCheck) : List RegistrationCheck := if check.reason ≠ "" then [check] else []

def Inspection.checks (result : Inspection) : List RegistrationCheck :=
  result.backing.made ++ result.independent.made ++ [result.accessible] ++ result.mounted.made ++
    [result.writable, result.capacityReadable]

def Inspection.readyCheck (result : Inspection) : RegistrationCheck :=
  match result.checks.find? fun check => !check.known || !check.ok with
  | some check => { check with ok := false, known := true }
  | none =>
    if result.filesystem.availableBytes ≤ 0 ∨ result.filesystem.availableInodes ≤ 0 then
      failed "NoSpace" "filesystem has no available bytes or inodes for new allocation"
    else
      { ok := true, known := true, reason := "PoolReady"
        message := "Pool directory is accessible, writable, and has filesystem headroom" }

def RegistrationCheck.condition (check : RegistrationCheck) (type : PoolConditionType) (generation : Int) : PoolCondition :=
  { type, isTrue := check.known && check.ok, reason := check.reason, observedGeneration := generation }

def Inspection.conditions (result : Inspection) (generation : Int) : List PoolCondition :=
  [result.accessible.condition .accessible generation] ++
    result.backing.made.map (·.condition .capacityBackingVerified generation) ++
    result.independent.made.map (·.condition .capacityIndependent generation) ++
    result.mounted.made.map (·.condition .mounted generation) ++
    [result.writable.condition .writable generation, result.capacityReadable.condition .capacityReadable generation,
      result.readyCheck.condition .ready generation]

structure MeasuredPool extends RegisteredPool where
  filesystemTotalBytes : Int
  filesystemAvailableBytes : Option Int
  filesystemAvailableInodes : Option Int

/-! ### Observations -/

section
variable (r : PoolReader) (pool : MeasuredPool) (result : Inspection)

def inspectedConditions : List PoolCondition :=
  (result.conditions pool.generation).foldl r.conditions.set pool.status.conditions

def allocationReady : Bool := (r.conditions.find (inspectedConditions r pool result) .ready).any (·.isTrue)

def observedConditions : List PoolCondition :=
  let observed := inspectedConditions r pool result
  let configuration := r.configurationCheck pool.toRegisteredPool
  let settled :=
    if ¬configuration.ok then r.conditions.set observed (configuration.condition .ready pool.generation)
    else if pool.isDeleting ∧ allocationReady r pool result then
      r.conditions.set observed ((failed "PoolDeregistering"
        "Pool rejects new placement while deregistration converges").condition .ready pool.generation)
    else observed
  r.conditions.remove settled .identityReleased

def completeInventory (inventory : Option ObservedInventory) : Bool :=
  inventory.any fun inventory => inventory.valid && !inventory.truncated && inventory.message = ""

/-- The part of the status that an observation replaces as a whole, with the inventory that was scanned for it. -/
def observedStatus (inventory : Option ObservedInventory) : MeasuredPool :=
  let accepted := allocationReady r pool result && completeInventory inventory
  let readable := result.capacityReadable.ok
  { pool with
    status :=
      { pool.status with
        registrationApproved := pool.registrationApproved r.conditions ||
          (accepted && !pool.isDeleting && (r.configurationCheck pool.toRegisteredPool).ok)
        capacityProbeSupported := true, observedGeneration := pool.generation, lastProbeTime := some r.now
        conditions := observedConditions r pool result
        inventory
        mountIdentity :=
          if accepted ∧ pool.mountPolicy = poolMountPolicyRequireMountPoint ∧ pool.status.mountIdentity = none then
            result.mountIdentity
          else pool.status.mountIdentity
        capacityUnit :=
          if accepted ∧ pool.capacityPolicy = fixedBlock ∧ pool.status.capacityUnit = none ∧ result.independent.ok then
            result.capacityUnit
          else pool.status.capacityUnit }
    filesystemTotalBytes := if readable then result.filesystem.totalBytes else 0
    filesystemAvailableBytes := if readable then some result.filesystem.availableBytes else none
    filesystemAvailableInodes := if readable then some result.filesystem.availableInodes else none }

def retiredStatus : MeasuredPool :=
  { pool with
    status :=
      { pool.status with
        registrationApproved := pool.registrationApproved r.conditions, observedGeneration := pool.generation
        conditions := r.conditions.set pool.status.conditions ((failed "PoolRegistrationRetired"
          "registration is retired; storage and identity remain preserved").condition .ready pool.generation)
        inventory := some
          { valid := false, truncated := false, message := "PoolRegistrationRetired: no storage observation requested"
            copies := [], observedAt := some r.now } } }

/-- What a pass writes for a Pool, with the outcome of its identity release. -/
def reconcilePool (inventory : Option ObservedInventory) (release : RegistrationCheck) : MeasuredPool :=
  if pool.registrationRetired ∧ ¬pool.isDeleting then retiredStatus r pool
  else
    let observed := observedStatus r pool result inventory
    if ¬pool.isDeleting then observed
    else
      { observed with
        status :=
          { observed.status with
            conditions := r.conditions.set observed.status.conditions (release.condition .identityReleased pool.generation) } }

end

/-! ### The stored Pools -/

abbrev PoolTable := Table fun pool : MeasuredPool => pool.name

inductive PoolAct where
  | register (pool : RegisteredPool)
  /-- Somebody edits the specification or the metadata of the Pool. -/
  | edit (pool : RegisteredPool)
  | remove (name : String)
  | answer (expected : RegisteredPool) (result : CapacityProbeResult)
  /-- A pass of a node writes what it makes of the Pool, whatever it has read of it before. -/
  | reconcile (now : Int) (nodeName : String) (read : MeasuredPool) (result : Inspection) (inventory : Option ObservedInventory)
      (release : RegistrationCheck)

def RegisteredPool.created (pool : RegisteredPool) : MeasuredPool :=
  { pool with
    status :=
      { registrationApproved := false, capacityProbeSupported := false, capacityProbe := none, observedGeneration := 0
        lastProbeTime := none, capacityUnit := none, mountIdentity := none, conditions := [], inventory := none }
    filesystemTotalBytes := 0, filesystemAvailableBytes := none, filesystemAvailableInodes := none }

def PoolTable.stored (pools : PoolTable) (name : String) : Except String MeasuredPool :=
  match pools.find name with
  | none => throw "read ShiftPVPool status"
  | some current => return current

def PoolTable.next (api : ApiLibrary) (pools : PoolTable) : PoolAct → Except String PoolTable
  | .register pool => do
    require (pools.find pool.name = none) "the object exists"
    return pools.put pool.created
  | .edit pool => do
    let current ← pools.stored pool.name
    return pools.put { current with toRegisteredPool := { pool with status := current.status } }
  | .remove name => return pools.erase name
  | .answer expected result => do
    let current ← pools.stored expected.name
    let next ← RegisteredPool.recordPoolCapacityProbe expected result current.toRegisteredPool
    return pools.put { current with toRegisteredPool := next }
  | .reconcile now nodeName read result inventory release => do
    let current ← pools.stored read.name
    let observed := reconcilePool { api with now, staleAfter := 0 } read result inventory release
    let next ← RegisteredPool.setStatus read.uid nodeName observed.status current.toRegisteredPool
    return pools.put { observed with toRegisteredPool := next }

def PoolRun (api : ApiLibrary) (history : List PoolTable) : Prop :=
  Run (· = Table.empty _) (Run.onHead fun pools act pools' => PoolTable.next api pools act = .ok pools') history

end ShiftPV

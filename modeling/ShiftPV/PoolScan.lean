import ShiftPV.Cleanup
import ShiftPV.Lib.Run
import ShiftPV.Lib.Table

/-! Pool scans and absence proofs. A purge is confirmed by a scan that began after its receipt was stored. The
    order is established by generations alone: the journal's reconciler advances the scan epoch of the Pool and
    records the generation it got, the Node scans under the generation it read, and a later read of the Pool
    compares the two. All three act concurrently and may stop after any write. -/

namespace ShiftPV
open Check

/-! ### Pools -/

structure CopyObservation where
  marker : String
  identity : Option CopyIdentity
  isPresent : Bool
  published : Bool
  problem : String
  deriving DecidableEq

structure PoolInventory where
  valid : Bool
  truncated : Bool
  message : String
  copies : List CopyObservation
  deriving DecidableEq

/-- The fixed backing of a Pool; its extents are validated where it is read. -/
structure PoolCapacityUnit where
  identity : String
  valid : Bool
  deriving DecidableEq

structure PoolStatus where
  registrationApproved : Bool
  observedGeneration : Int
  capacityUnit : Option PoolCapacityUnit
  inventory : Option PoolInventory

structure Pool where
  name : String
  uid : String
  nodeName : String
  scanEpoch : Int
  generation : Int
  isProtected : Bool
  isDeleting : Bool
  retirementApproval : String
  capacityPolicy : String
  mountPolicy : String
  /-- Why the configuration is refused, empty when it is accepted. -/
  configurationReason : String
  status : PoolStatus

def sameCapacityUnit (left right : Option PoolCapacityUnit) : Bool :=
  left.any fun l => right.any fun r => l.valid && r.valid && l = r

def int64Max : Int := 2 ^ 63 - 1

/-- The Pool after its scan epoch advanced. The API server raises the generation, by `raise` above the next one. -/
def requestPoolScan (target : CopyIdentity) (raise : Nat) (pool : Pool) : Except String Pool := do
  require (pool.uid = target.poolUID ∧ pool.isProtected) (errStateConflict ++ ": Pool identity or protection changed")
  require (pool.nodeName = target.nodeName) (errStateConflict ++ ": Pool node changed")
  require (0 ≤ pool.scanEpoch ∧ pool.scanEpoch ≠ int64Max) (errStateConflict ++ ": Pool scan epoch is exhausted")
  let updated := { pool with scanEpoch := pool.scanEpoch + 1, generation := pool.generation + 1 + raise }
  require (pool.generation < updated.generation ∧ 0 < updated.generation)
    (errStateConflict ++ ": Pool scan request did not advance generation")
  return updated

def setPoolStatus (name uid nodeName : String) (status : PoolStatus) (current : Pool) : Except String Pool := do
  require (name ≠ "" ∧ uid ≠ "" ∧ nodeName ≠ "") "ShiftPVPool name, UID, and node name are required"
  require (current.uid = uid) (errStateConflict ++ ": ShiftPVPool " ++ quoted name ++ " UID changed from " ++ quoted uid ++
    " to " ++ quoted current.uid)
  require (current.nodeName = nodeName) (errStateConflict ++ ": ShiftPVPool " ++ quoted name ++
    " belongs to node " ++ quoted current.nodeName ++ ", not " ++ quoted nodeName)
  require (current.status.capacityUnit.isSome → sameCapacityUnit current.status.capacityUnit status.capacityUnit)
    (errStateConflict ++ ": ShiftPVPool " ++ quoted name ++ " capacity identity cannot be changed or cleared")
  require (current.status.registrationApproved → status.registrationApproved)
    (errStateConflict ++ ": ShiftPVPool " ++ quoted name ++ " registration approval cannot be cleared")
  require (status.observedGeneration ≠ 0 → status.observedGeneration = current.generation)
    (errStateConflict ++ ": Pool observation generation changed: ShiftPVPool " ++ quoted name)
  require (status.capacityUnit.all (·.valid)) "invalid ShiftPVPool capacity identity"
  return { current with status }

/-! ### Node passes -/

structure PoolCheck where
  ok : Bool
  reason : String

/-- What the probe of a pass found, as far as its inventory depends on it. -/
structure ProbeResult where
  independent : PoolCheck
  backing : PoolCheck
  mounted : PoolCheck

def Pool.registrationRetired (pool : Pool) : Bool := pool.uid ≠ "" && pool.retirementApproval = pool.uid

def Pool.withoutScan (pool : Pool) (approved : Bool) (result : ProbeResult) : Option String :=
  if pool.registrationRetired ∧ ¬pool.isDeleting then
    some "PoolRegistrationRetired: no storage observation requested"
  else if pool.isDeleting ∧ pool.capacityPolicy = "FixedBlock" ∧ ¬approved then
    none
  else if ¬pool.isDeleting ∧ ¬approved ∧ pool.configurationReason ≠ "" then
    some ("ConfigurationUnavailable: " ++ pool.configurationReason)
  else if ¬approved ∧ result.independent.reason ≠ "" ∧ ¬result.independent.ok then
    some ("CapacityUnavailable: " ++ result.independent.reason)
  else if pool.capacityPolicy ≠ "" ∧ ¬result.backing.ok then
    some ("BackingUnavailable: " ++ result.backing.reason)
  else if pool.mountPolicy = "RequireMountPoint" ∧ ¬result.mounted.ok then
    some ("MountUnavailable: " ++ result.mounted.reason)
  else
    none

def unscannedInventory (message : String) : PoolInventory := { valid := false, truncated := false, message, copies := [] }

/-! ### Absence -/

/-- The inventory shows the target neither present nor published, and says nothing that puts it in doubt. -/
def inventoryProvesAbsence (inventory : PoolInventory) (poolName poolUID nodeName : String) (target : CopyIdentity) : Bool :=
  inventory.copies.all fun observed =>
    observed.marker ≠ "" && observed.problem = "" && observed.identity.any fun identity =>
      identity.valid && identity.installationID = target.installationID && identity.poolName = poolName &&
        identity.poolUID = poolUID && identity.nodeName = nodeName &&
        observed.marker = "placement-" ++ identity.copyID ++ ".json" && !(observed.published && !observed.isPresent) &&
        !(identity = target && (observed.isPresent || observed.published))

/-- The generation whose scan proves the absence; `none` leaves the journal where it is. -/
def scanProvesAbsence (journal : Journal) (pool : Pool) : Except String (Option Int) := do
  require (pool.uid = journal.spec.target.poolUID ∧ pool.isProtected)
    (errConflict ++ ": cleanup Pool identity or protection changed")
  require (validAbsenceFence journal.spec.target journal.status.absenceProof)
    (errConflict ++ ": cleanup absence fence is invalid")
  match journal.status.absenceProof, pool.status.inventory with
  | some proof, some inventory =>
    if pool.status.observedGeneration = pool.generation ∧ proof.requiredGeneration ≤ pool.status.observedGeneration ∧
        inventory.valid ∧ ¬inventory.truncated ∧ inventory.message = "" ∧
        inventoryProvesAbsence inventory pool.name pool.uid pool.nodeName journal.spec.target then
      return some pool.status.observedGeneration
    else
      return none
  | _, _ => return none

/-- The identity of a scan request; `digest` stands for the hash of its text. -/
def absenceRequestID (digest : String → String) (spec : CleanupSpec) (generation : Int) : String :=
  "scan-" ++ digest (spec.authority.uid ++ "\x00" ++ spec.operationID ++ "\x00" ++ toString generation)

def absenceFence (digest : String → String) (journal : Journal) (generation : Int) : CleanupStatus :=
  { journal.status with
    phase := .confirmingAbsence
    absenceProof := some { requestID := absenceRequestID digest journal.spec generation
                           poolName := journal.spec.target.poolName, poolUID := journal.spec.target.poolUID
                           requiredGeneration := generation, observedGeneration := 0, valid := false
                           complete := false, absent := false, confirmedAt := .absent } }

def settledStatus (journal : Journal) (observedGeneration : Int) (now : Nat) : CleanupStatus :=
  { journal.status with
    phase := .completed
    absenceProof := journal.status.absenceProof.map fun proof =>
      { proof with observedGeneration, valid := true, complete := true, absent := true, confirmedAt := .at now }
    settledAt := .at now }

/-! ### The system -/

/-- A readiness pass of a Node over one Pool: the Pool as it was read, and the scan it runs under it. -/
inductive PassStage where
  | read
  | scanning
  | scanned (inventory : PoolInventory)
  deriving DecidableEq

structure NodePass where
  pool : Pool
  stage : PassStage

/-- A call of `ReconcileAbsence`: the journal it loaded, and what it got since. -/
inductive ReconcileStage where
  | loaded
  | requested (generation : Int)
  | proven (observedGeneration : Int)
  deriving DecidableEq

structure AbsenceCall where
  authority : Authority
  journal : Journal
  stage : ReconcileStage

inductive ScanEvent where
  | registered (poolUID : String)
  | requested (poolUID : String) (generation : Int)
  | receiptStored (authority : Authority) (receipt : PurgeReceipt)
  | scanBegan (pass : Nat) (poolUID : String)
  | scanEnded (pass : Nat) (inventory : PoolInventory)
  deriving DecidableEq

/-- Journals, Pools, Node passes and absence calls of an installation. Passes and calls live in numbered slots. -/
structure ScanWorld where
  pools : Table Pool.name
  parents : Table CleanupParent.authority
  passes : Nat → Option NodePass
  calls : Nat → Option AbsenceCall
  trace : List ScanEvent

inductive ScanAct where
  | registerPool (pool : Pool)
  | removePool (name : String)
  /-- Another writer changes the spec of a Pool, or only its metadata. -/
  | editSpec (name : String) (next : Pool) (raise : Nat)
  | editMetadata (name : String) (isProtected isDeleting : Bool) (retirementApproval : String)
  /-- A scan request of a rollback, or of a caller that never records its answer. -/
  | requestScan (target : CopyIdentity) (raise : Nat)
  | createParent (authority : Authority)
  | journal (authority : Authority) (write : JournalWrite)
  | load (call : Nat) (authority : Authority)
  | request (call : Nat) (raise : Nat)
  | fence (call : Nat)
  | prove (call : Nat)
  | settle (call : Nat) (now : Nat)
  | abandon (call : Nat)
  | readPool (pass : Nat) (name : String)
  | beginScan (pass : Nat)
  | endScan (pass : Nat) (inventory : PoolInventory)
  /-- The status write of a pass. `approved` and `unit` are what it settled on for the registration. -/
  | report (pass : Nat) (result : ProbeResult) (approved : Bool) (unit : Option PoolCapacityUnit) (nodeName : String)
  | leave (pass : Nat)

/-- The writers other than `ReconcileAbsence` record neither a fence nor the completion. -/
def JournalWrite.ordinary : JournalWrite → Bool
  | .updateStatus _ next => next.phase ≠ .confirmingAbsence && next.phase ≠ .completed
  | _ => true

def found {α : Type} (row : Option α) (message : String) : Except String α :=
  match row with
  | some a => return a
  | none => throw message

namespace ScanWorld

def setPass (w : ScanWorld) (pass : Nat) (next : Option NodePass) : ScanWorld :=
  { w with passes := fun other => if other = pass then next else w.passes other }

def setCall (w : ScanWorld) (call : Nat) (next : Option AbsenceCall) : ScanWorld :=
  { w with calls := fun other => if other = call then next else w.calls other }

def record (w : ScanWorld) (event : ScanEvent) : ScanWorld := { w with trace := event :: w.trace }

/-- The receipt event of a parent whose journal got its receipt by a write. -/
def recordReceipt (w : ScanWorld) (before after : CleanupParent) : ScanWorld :=
  match after.cleanup.bind (·.status.receipt) with
  | none => w
  | some receipt =>
    if before.cleanup.bind (·.status.receipt) = some receipt then w
    else w.record (.receiptStored after.authority receipt)

def writeJournal (w : ScanWorld) (authority : Authority) (write : JournalWrite) : Except String ScanWorld := do
  let parent ← found (w.parents.find authority) "parent not found"
  let next ← parent.write write
  return { w with parents := w.parents.put next }.recordReceipt parent next

def requestScan (w : ScanWorld) (target : CopyIdentity) (raise : Nat) : Except String (ScanWorld × Int) := do
  let pool ← found (w.pools.find target.poolName) "Pool not found"
  let updated ← requestPoolScan target raise pool
  return ({ w with pools := w.pools.put updated }.record (.requested updated.uid updated.generation), updated.generation)

def reported (pass : NodePass) (approved : Bool) (result : ProbeResult) : Except String PoolInventory :=
  match pass.pool.withoutScan approved result, pass.stage with
  | some message, _ => return unscannedInventory message
  | none, .scanned inventory => return inventory
  | none, _ => throw "the scan is not finished"

def step (digest : String → String) (w : ScanWorld) : ScanAct → Except String ScanWorld
  | .registerPool pool => do
    require (w.pools.find pool.name = none ∧ .registered pool.uid ∉ w.trace) "Pool exists"
    let status := { registrationApproved := false, observedGeneration := 0, capacityUnit := none, inventory := none }
    return { w with pools := w.pools.put { pool with status } }.record (.registered pool.uid)
  | .removePool name => return { w with pools := w.pools.erase name }
  | .editSpec name next raise => do
    let pool ← found (w.pools.find name) "Pool not found"
    return { w with pools := w.pools.put { next with name, uid := pool.uid, status := pool.status, isProtected := pool.isProtected
                                                     generation := pool.generation + 1 + raise } }
  | .editMetadata name isProtected isDeleting retirementApproval => do
    let pool ← found (w.pools.find name) "Pool not found"
    return { w with pools := w.pools.put { pool with isProtected, isDeleting, retirementApproval } }
  | .requestScan target raise => do
    let (w, _) ← w.requestScan target raise
    return w
  | .createParent authority => do
    require (w.parents.find authority = none) "parent exists"
    return { w with parents := w.parents.put { authority, isProtected := true, cleanup := none } }
  | .journal authority write => do
    require write.ordinary "only ReconcileAbsence confirms absence"
    w.writeJournal authority write
  | .load call authority => do
    let parent ← found (w.parents.find authority) "parent not found"
    parent.validate authority
    let journal ← found (← parent.journal) "cleanup journal not found"
    return w.setCall call (some { authority, journal, stage := .loaded })
  | .request call raise => do
    let this ← found (w.calls call) "no call"
    require (this.stage = .loaded ∧ this.journal.status.phase = .verifying) "no fence to open"
    require (validPurgedReceipt this.journal.spec this.journal.status)
      (errConflict ++ ": absence scan requires a purged API receipt")
    let (w, generation) ← w.requestScan this.journal.spec.target raise
    return w.setCall call (some { this with stage := .requested generation })
  | .fence call => do
    let this ← found (w.calls call) "no call"
    match this.stage with
    | .requested generation =>
      let w ← w.writeJournal this.authority (.updateStatus this.journal.spec (absenceFence digest this.journal generation))
      return w.setCall call none
    | _ => throw "no request"
  | .prove call => do
    let this ← found (w.calls call) "no call"
    require (this.stage = .loaded ∧ this.journal.status.phase = .confirmingAbsence) "no fence to reach"
    require (validPurgedReceipt this.journal.spec this.journal.status)
      (errConflict ++ ": absence confirmation requires a purged API receipt")
    let pool ← found (w.pools.find this.journal.spec.target.poolName) "Pool not found"
    match ← scanProvesAbsence this.journal pool with
    | some generation => return w.setCall call (some { this with stage := .proven generation })
    | none => return w.setCall call none
  | .settle call now => do
    let this ← found (w.calls call) "no call"
    match this.stage with
    | .proven generation =>
      let w ← w.writeJournal this.authority (.updateStatus this.journal.spec (settledStatus this.journal generation now))
      return w.setCall call none
    | _ => throw "nothing proven"
  | .abandon call => return w.setCall call none
  | .readPool pass name => do
    let pool ← found (w.pools.find name) "Pool not found"
    return w.setPass pass (some { pool, stage := .read })
  | .beginScan pass => do
    let this ← found (w.passes pass) "no pass"
    return (w.setPass pass (some { this with stage := .scanning })).record (.scanBegan pass this.pool.uid)
  | .endScan pass inventory => do
    let this ← found (w.passes pass) "no pass"
    require (this.stage = .scanning) "no scan"
    return (w.setPass pass (some { this with stage := .scanned inventory })).record (.scanEnded pass inventory)
  | .report pass result approved unit nodeName => do
    let this ← found (w.passes pass) "no pass"
    let inventory ← reported this approved result
    let current ← found (w.pools.find this.pool.name) "Pool not found"
    let status := { registrationApproved := approved, observedGeneration := this.pool.generation, capacityUnit := unit
                    inventory := some inventory }
    let next ← setPoolStatus this.pool.name this.pool.uid nodeName status current
    return { w with pools := w.pools.put next }.setPass pass none
  | .leave pass => return w.setPass pass none

def initial : ScanWorld where
  pools := .empty Pool.name
  parents := .empty CleanupParent.authority
  passes := fun _ => none
  calls := fun _ => none
  trace := []

end ScanWorld

abbrev ScanRun (digest : String → String) : List ScanWorld → Prop :=
  Run (· = .initial) (Run.onHead fun w (act : ScanAct) w' => w.step digest act = .ok w')

end ShiftPV

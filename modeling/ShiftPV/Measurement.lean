import ShiftPV.Lib.Run
import ShiftPV.PoolRegistry

/-! Capacity probes. A caller that must know the free space of a Pool now posts a nonce on the Pool, and the Node answers
    it in the status after reading the filesystem. Request and answer live on one object that callers of several
    processes, the Node and its readiness probe write concurrently. -/

namespace ShiftPV
open Check

structure Filesystem where
  totalBytes : Int
  availableBytes : Int
  availableInodes : Int
  deriving DecidableEq

/-! ### Evidence and requests -/

structure MeasuredRegistration where
  name : String
  uid : String
  nodeName : String
  mountPath : String
  capacityPolicy : String
  mountPolicy : String
  generation : Int
  capacityUnit : Option CapacityUnit
  mountIdentity : Option PoolMountIdentity

def RegisteredPool.measured (pool : RegisteredPool) : MeasuredRegistration :=
  { name := pool.name, uid := pool.uid, nodeName := pool.nodeName, mountPath := pool.mountPath
    capacityPolicy := pool.capacityPolicy, mountPolicy := pool.mountPolicy, generation := pool.generation
    capacityUnit := pool.status.capacityUnit, mountIdentity := pool.status.mountIdentity }

section Evidence

variable (digest : MeasuredRegistration → String)

def measurementEvidence (pool : RegisteredPool) : Except String String := do
  require (pool.name ≠ "" ∧ pool.uid ≠ "" ∧ pool.nodeName ≠ "" ∧ Paths.isAbs pool.mountPath ∧ Paths.clean pool.mountPath ≠ "/")
    "measurement requires an exact Pool registration"
  require (pool.capacityPolicy = "" ∨
      (pool.capacityPolicy = fixedBlock ∧ passes (CapacityUnit.validate pool.status.capacityUnit)))
    "measurement requires supported capacity evidence"
  require (pool.mountPolicy = "" ∨
      (pool.mountPolicy = poolMountPolicyRequireMountPoint ∧ pool.status.mountIdentity.isSome))
    "measurement requires supported mount evidence"
  return digest pool.measured

def matchingEvidence (expected current : RegisteredPool) : Except String String := do
  let left ← measurementEvidence digest expected
  match measurementEvidence digest current with
  | .ok right =>
    require (right = left) "capacity probe Pool evidence changed"
    return right
  | .error _ => throw "capacity probe Pool evidence changed"

end Evidence

def validHex (value : String) (size : Nat) : Bool := value.toList.length = 2 * size && value.toList.all lowerHexDigit

def parseRequest (posted : Option ProbeRequest) : Except String ProbeRequest :=
  match posted with
  | none => throw "invalid capacity probe request"
  | some request => do
    require (validHex request.id 16 ∧ validHex request.evidence 32) "invalid capacity probe request"
    return request

/-! ### Writes of the Pool -/

namespace RegisteredPool

def mutatePoolProbe (expected current : RegisteredPool) (apply : RegisteredPool → Except String RegisteredPool) :
    Except String RegisteredPool := do
  require (expected.uid = "" ∨ current.uid = expected.uid) (errStateConflict ++ ": ShiftPVPool " ++ quoted expected.name ++
    " UID changed from " ++ quoted expected.uid ++ " to " ++ quoted current.uid)
  require (current.nodeName = expected.nodeName ∧ current.generation = expected.generation ∧
      current.mountPath = expected.mountPath ∧ ¬current.isDeleting ∧
      current.status.mountIdentity = expected.status.mountIdentity ∧
      current.status.capacityUnit = expected.status.capacityUnit)
    (errStateConflict ++ ": capacity probe Pool evidence changed")
  apply current

def requestPoolCapacityProbe (expected : RegisteredPool) (request : ProbeRequest) (current : RegisteredPool) :
    Except String RegisteredPool :=
  mutatePoolProbe expected current fun pool => return { pool with capacityProbeRequest := some request }

def recordPoolCapacityProbe (expected : RegisteredPool) (result : CapacityProbeResult) (current : RegisteredPool) :
    Except String RegisteredPool :=
  mutatePoolProbe expected current fun pool => do
    require (expected.capacityProbeRequest ≠ none ∧ pool.capacityProbeRequest = expected.capacityProbeRequest)
      (errStateConflict ++ ": capacity probe request changed")
    return { pool with status := { pool.status with capacityProbe := some result } }

def sameUnit (left right : Option CapacityUnit) : Bool :=
  passes (CapacityUnit.validate left) && passes (CapacityUnit.validate right) && left = right

def setStatus (uid nodeName : String) (status : RegisteredPoolStatus) (current : RegisteredPool) : Except String RegisteredPool := do
  require (current.name ≠ "" ∧ uid ≠ "" ∧ nodeName ≠ "") "ShiftPVPool name, UID, and node name are required"
  require (current.uid = uid) (errStateConflict ++ ": ShiftPVPool " ++ quoted current.name ++ " UID changed from " ++
    quoted uid ++ " to " ++ quoted current.uid)
  require (current.nodeName = nodeName) (errStateConflict ++ ": ShiftPVPool " ++ quoted current.name ++ " belongs to node " ++
    quoted current.nodeName ++ ", not " ++ quoted nodeName)
  require (current.status.capacityUnit.isSome → sameUnit current.status.capacityUnit status.capacityUnit)
    (errStateConflict ++ ": ShiftPVPool " ++ quoted current.name ++ " capacity identity cannot be changed or cleared")
  require (current.status.registrationApproved → status.registrationApproved)
    (errStateConflict ++ ": ShiftPVPool " ++ quoted current.name ++ " registration approval cannot be cleared")
  require (status.observedGeneration ≠ 0 → status.observedGeneration = current.generation)
    (errStateConflict ++ ": Pool observation generation changed: ShiftPVPool " ++ quoted current.name)
  require (status.capacityUnit.isSome → passes (CapacityUnit.validate status.capacityUnit)) "invalid ShiftPVPool capacity identity"
  return { current with status := { status with capacityProbe := current.status.capacityProbe } }

end RegisteredPool

/-! ### Callers and answers -/

inductive StatFSStage where
  | reading
  | requesting (pool : RegisteredPool) (request : ProbeRequest)
  | awaiting (pool : RegisteredPool) (request : ProbeRequest)
  | ended

structure StatFSCall where
  expected : RegisteredPool
  stage : StatFSStage

inductive AnswerStage where
  | verifying (pool : RegisteredPool) (request : ProbeRequest)
  | measuring (pool : RegisteredPool) (request : ProbeRequest)
  | confirming (pool : RegisteredPool) (request : ProbeRequest) (stats : Filesystem)
  | recording (pool : RegisteredPool) (result : CapacityProbeResult)

inductive ProbeEvent where
  | posted (call : Nat) (request : ProbeRequest)
  | measured (pool : RegisteredPool) (stats : Filesystem)
  | returned (call : Nat) (expected : RegisteredPool) (stats : Filesystem)
  deriving DecidableEq

structure ProbeWorld where
  pool : RegisteredPool
  peers : List RegisteredPool
  filesystem : Filesystem
  calls : List StatFSCall
  answers : List AnswerStage
  nonces : List String
  trace : List ProbeEvent

/-- One step of somebody; reads are made with the clock of the process that makes them. -/
inductive ProbeAct where
  | allocate (filesystem : Filesystem)
  /-- Somebody else edits the Pool or another registration. -/
  | edit (pool : RegisteredPool) (peers : List RegisteredPool)
  | setStatus (uid nodeName : String) (status : RegisteredPoolStatus)
  | call (expected : RegisteredPool)
  | check (r : PoolReader) (call : Nat) (nonce : String)
  | post (call : Nat)
  | poll (r : PoolReader) (call : Nat)
  /-- A call ends: its time is over, its caller left it, or it takes the fallback. -/
  | leave (call : Nat)
  | answer (r : PoolReader) (nodeName name uid : String)
  | verify (r : PoolReader) (index : Nat) (mount : Except String Unit)
  | measure (index : Nat) (failure : Option String)
  | confirm (r : PoolReader) (index : Nat) (mount : Except String Unit)
  | record (index : Nat)
  | leaveAnswer (index : Nat)

def ProbeRequest.failed (request : ProbeRequest) (e : String) : CapacityProbeResult :=
  { requestID := request.id, evidence := request.evidence, totalBytes := 0, availableBytes := 0, availableInodes := 0
    error := String.ofList (e.toList.take 1024) }

def ProbeRequest.answered (request : ProbeRequest) (stats : Filesystem) : CapacityProbeResult :=
  { requestID := request.id, evidence := request.evidence, totalBytes := stats.totalBytes
    availableBytes := stats.availableBytes, availableInodes := stats.availableInodes, error := "" }

def CapacityProbeResult.stats (result : CapacityProbeResult) : Filesystem :=
  { totalBytes := result.totalBytes, availableBytes := result.availableBytes, availableInodes := result.availableInodes }

/-- Whether an answer is there yet, and the statistics it gives. -/
def awaitPoll (digest : MeasuredRegistration → String) (r : PoolReader) (stored : List RegisteredPool) (expected : RegisteredPool)
    (request : ProbeRequest) : Except String (Option Filesystem) := do
  let pool ← r.readyPoolForIdentity stored expected.name expected.uid expected.nodeName
  let _ ← matchingEvidence digest expected pool
  match pool.status.capacityProbe with
  | none => return none
  | some answer =>
    if answer.requestID ≠ request.id then return none
    else
      require (answer.evidence = request.evidence ∧ pool.capacityProbeRequest ≠ none) "capacity probe answer evidence changed"
      match parseRequest pool.capacityProbeRequest with
      | .error _ => throw "capacity probe request changed"
      | .ok current =>
        require (current = request) "capacity probe request changed"
        require (answer.error = "") ("Node capacity probe: " ++ answer.error)
        require (0 < answer.totalBytes ∧ 0 ≤ answer.availableBytes ∧ answer.availableBytes ≤ answer.totalBytes ∧
          0 ≤ answer.availableInodes) "Node capacity probe returned invalid space"
        return some answer.stats

namespace ProbeWorld

variable (digest : MeasuredRegistration → String) (w : ProbeWorld)

def stored : List RegisteredPool := w.pool :: w.peers

def setCall (call : Nat) (expected : RegisteredPool) (stage : StatFSStage) : ProbeWorld :=
  { w with calls := w.calls.set call { expected, stage } }

def setAnswer (index : Nat) (stage : AnswerStage) : ProbeWorld := { w with answers := w.answers.set index stage }

def log (event : ProbeEvent) : ProbeWorld := { w with trace := event :: w.trace }

/-- The Pool is still the one that is to be measured, and its mount is verified with the outcome `mount`. -/
def verified (r : PoolReader) (expected : RegisteredPool) (mount : Except String Unit) : Except String Unit := do
  let pool ← r.readyPoolForIdentity w.stored expected.name expected.uid expected.nodeName
  let _ ← matchingEvidence digest expected pool
  mount

/-- The first read of a call; `nonce` is drawn when the Node supports requests. -/
def checkCall (r : PoolReader) (call : Nat) (expected : RegisteredPool) (nonce : String) : Except String ProbeWorld := do
  let pool ← r.readyPoolForIdentity w.stored expected.name expected.uid expected.nodeName
  let evidence ← matchingEvidence digest expected pool
  require pool.status.capacityProbeSupported "Node does not support the Pool capacity probe"
  require (nonce ∉ w.nonces) "nonces are unique"
  return { w with nonces := nonce :: w.nonces }.setCall call expected (.requesting pool { id := nonce, evidence })

/-- The read of an answer; a malformed or answered request is left alone. -/
def readRequest (r : PoolReader) (nodeName name uid : String) : Except String ProbeWorld := do
  require (name = w.pool.name) "the event is of another Pool"
  let pool ← r.readyPoolForIdentity w.stored name uid nodeName
  let request ← parseRequest pool.capacityProbeRequest
  require (pool.status.capacityProbe.all fun answer => answer.requestID ≠ request.id) "the request is answered"
  match matchingEvidence digest pool pool with
  | .error e => return { w with answers := .recording pool (request.failed e) :: w.answers }
  | .ok evidence =>
    if evidence = request.evidence then return { w with answers := .verifying pool request :: w.answers }
    else return { w with answers := .recording pool (request.failed "requested Pool evidence changed") :: w.answers }

def step : ProbeAct → Except String ProbeWorld
  | .allocate filesystem => return { w with filesystem }
  | .edit pool peers => do
    require (pool.name = w.pool.name ∧ pool.uid = w.pool.uid ∧ pool.nodeName = w.pool.nodeName ∧
        pool.capacityProbeRequest = w.pool.capacityProbeRequest ∧ pool.status.capacityProbe = w.pool.status.capacityProbe)
      "identity, request and answer have their own writers"
    return { w with pool, peers }
  | .setStatus uid nodeName status => return { w with pool := ← w.pool.setStatus uid nodeName status }
  | .call expected => do
    require (expected.name = w.pool.name) "the call is for another Pool"
    return { w with calls := w.calls ++ [{ expected, stage := .reading }] }
  | .check r call nonce =>
    match w.calls[call]? with
    | some { expected, stage := .reading } => w.checkCall digest r call expected nonce
    | _ => throw "no such call"
  | .post call =>
    match w.calls[call]? with
    | some { expected, stage := .requesting pool request } => do
      let written ← pool.requestPoolCapacityProbe request w.pool
      return ({ w with pool := written }.setCall call expected (.awaiting pool request)).log (.posted call request)
    | _ => throw "no such call"
  | .poll r call =>
    match w.calls[call]? with
    | some { expected, stage := .awaiting pool request } =>
      match awaitPoll digest r w.stored pool request with
      | .ok none => return w
      | .ok (some stats) => return (w.setCall call expected .ended).log (.returned call expected stats)
      | .error _ => return w.setCall call expected .ended
    | _ => throw "no such call"
  | .leave call =>
    match w.calls[call]? with
    | some { expected, .. } => return w.setCall call expected .ended
    | none => throw "no such call"
  | .answer r nodeName name uid => w.readRequest digest r nodeName name uid
  | .verify r index mount =>
    match w.answers[index]? with
    | some (.verifying pool request) =>
      match w.verified digest r pool mount with
      | .ok () => return w.setAnswer index (.measuring pool request)
      | .error e => return w.setAnswer index (.recording pool (request.failed e))
    | _ => throw "no such answer"
  | .measure index failure =>
    match w.answers[index]? with
    | some (.measuring pool request) =>
      match failure with
      | none => return (w.setAnswer index (.confirming pool request w.filesystem)).log (.measured pool w.filesystem)
      | some e => return w.setAnswer index (.recording pool (request.failed e))
    | _ => throw "no such answer"
  | .confirm r index mount =>
    match w.answers[index]? with
    | some (.confirming pool request stats) =>
      match w.verified digest r pool mount with
      | .ok () => return w.setAnswer index (.recording pool (request.answered stats))
      | .error e => return w.setAnswer index (.recording pool (request.failed e))
    | _ => throw "no such answer"
  | .record index =>
    match w.answers[index]? with
    | some (.recording pool result) => do
      let written ← pool.recordPoolCapacityProbe result w.pool
      return { w with pool := written, answers := w.answers.eraseIdx index }
    | _ => throw "no such answer"
  | .leaveAnswer index => return { w with answers := w.answers.eraseIdx index }

structure Initial : Prop where
  calls : w.calls = []
  answers : w.answers = []
  trace : w.trace = []
  request : ∀ request, w.pool.capacityProbeRequest = some request → request.id ∈ w.nonces
  answer : ∀ answer, w.pool.status.capacityProbe = some answer → answer.requestID ∈ w.nonces

end ProbeWorld

abbrev ProbeRun (digest : MeasuredRegistration → String) : List ProbeWorld → Prop :=
  Run ProbeWorld.Initial (Run.onHead fun w (act : ProbeAct) w' => w.step digest act = .ok w')

end ShiftPV

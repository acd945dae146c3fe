import ShiftPV.Volume

/-! The Volume writes of the registry. Each returns the record that is stored, or the reason why the
    write is refused. -/

namespace ShiftPV
open Check

/-! ### Storing a state -/

/-- A writer that leaves a history field empty keeps the stored value. -/
def refill (current next : State) : State :=
  { next with
    creationOperationID :=
      if next.creationOperationID = "" then current.creationOperationID else next.creationOperationID
    deletionOperationID :=
      if next.deletionOperationID = "" then current.deletionOperationID else next.deletionOperationID
    currentCopy := next.currentCopy.or current.currentCopy
    creationExecutor := next.creationExecutor.or current.creationExecutor
    creationReceipt := next.creationReceipt.or current.creationReceipt }

/-- Only the status is written; metadata, spec and the embedded cleanup journal stay. -/
def setState (current next : State) : State :=
  { current with
    phase := next.phase
    ownerNode := next.ownerNode
    activeMove := next.activeMove
    publishedNodes := next.publishedNodes
    creationOperationID := next.creationOperationID
    deletionOperationID := next.deletionOperationID
    currentCopy := next.currentCopy
    creationExecutor := next.creationExecutor
    creationReceipt := next.creationReceipt }

def mutateState (current : State) (mutate : State → Except String State) : Except String State := do
  -- decoding the stored object refuses a malformed copy
  require (current.currentCopy.all CopyIdentity.valid) "invalid copy identity"
  let next ← mutate current
  return setState current (refill current next)

/-! ### Creation -/

def initialServingCopy (uid : String) (pool : PoolReference) (installationID volumeID ownerNode : String) :
    Except String (CopyIdentity × String) := do
  require (uid ≠ "" ∧ pool.uid ≠ "") (errStateConflict ++ ": Kubernetes object identity is missing")
  let operationID ← creationOperationID uid
  let copy : CopyIdentity :=
    { installationID, poolName := pool.name, poolUID := pool.uid, volumeID, volumeUID := uid
      copyID := "initial-" ++ uid, nodeName := ownerNode, role := .serving }
  require copy.valid "build creation identity: invalid copy identity"
  return (copy, operationID)

def bindInitialPool (current expected : State) (pool : PoolReference) : Except String State := do
  require (current.uid = expected.uid ∧ current.initializing ∧ current.requestName = expected.requestName ∧
    current.initialNode = expected.initialNode ∧ current.capacityBytes = expected.capacityBytes) errStateConflict
  require (current.initialPool.all (· = pool)) errStateConflict
  return { current with initialPool := some pool }

def recordCreationIntent (volumeID : String) (next current : State) : Except String State :=
  mutateState current fun current => do
    require (current.uid = next.uid) (errStateConflict ++ ": ShiftPVVolume " ++ quoted volumeID ++
      " UID changed from " ++ quoted next.uid ++ " to " ++ quoted current.uid)
    if current.phase ≠ .unset then
      return current
    else
      require (current.initializing ∧ current.initialPool.isSome ∧ current.initialPool = next.initialPool ∧
        current.requestName = next.requestName ∧ current.initialNode = next.initialNode ∧
        current.capacityBytes = next.capacityBytes ∧ current.creationClaim = next.creationClaim)
        errStateConflict
      return next

/-- The intent written for an observed unstarted creation, in the Pool its spec reserves. -/
def completeInitialization (volumeID installationID : String) (observed current : State) :
    Except String State := do
  require observed.initializing errStateConflict
  match observed.initialPool with
  | none => throw errStateConflict
  | some pool =>
    let (copy, operationID) ← initialServingCopy observed.uid pool installationID volumeID observed.initialNode
    recordCreationIntent volumeID
      { observed with
        phase := .pending, ownerNode := observed.initialNode
        creationOperationID := operationID, currentCopy := some copy } current

/-- The stored record still describes the creation an executor was bound for. -/
def sameNodeCreation (current expected : State) : Bool :=
  current.uid ≠ "" && current.uid = expected.uid &&
    current.creationOperationID = expected.creationOperationID &&
    (match current.currentCopy, expected.currentCopy with
      | some copy, some other =>
        copy = other && copy.volumeUID = current.uid && copy.nodeName = current.ownerNode
      | _, _ => false) &&
    current.ownerNode = expected.ownerNode && current.creationOperationID = "create-" ++ current.uid &&
    current.activeMove = "" && current.publishedNodes = [] &&
    current.finalizers.contains volumeProtectionFinalizer

def bindCreation (expected : State) (executor : NodeExecutor) (current : State) : Except String State := do
  require (executor.valid ∧ expected.currentCopy.any (executor.nodeName = ·.nodeName)) errStateConflict
  mutateState current fun current => do
    require (sameNodeCreation current expected ∧ current.creationReceipt = none ∧
      (current.phase = .pending ∨ current.phase = .nodeCreating) ∧
      current.creationExecutor = expected.creationExecutor) errStateConflict
    return { current with phase := .nodeCreating, creationExecutor := some executor }

def recordCreationReceipt (expected : State) (receipt : CreationReceipt) (current : State) :
    Except String State := do
  require expected.currentCopy.isSome errStateConflict
  mutateState current fun current => do
    require (sameNodeCreation current expected ∧ current.phase = .nodeCreating ∧
      current.creationExecutor = expected.creationExecutor) errStateConflict
    match current.creationReceipt with
    | some stored =>
      require (stored = receipt) errStateConflict
      return current
    | none =>
      let next := { current with creationReceipt := some receipt }
      require (validCreationReceipt next) errStateConflict
      return next

def completeCreate (uid : String) (copy : CopyIdentity) (current : State) : Except String State :=
  match creationOperationID uid with
  | .error _ => throw errStateConflict
  | .ok operationID =>
    mutateState current fun current => do
      require (uid ≠ "" ∧ current.uid = uid ∧ current.currentCopy = some copy ∧
        current.creationOperationID = operationID ∧ current.ownerNode = copy.nodeName) errStateConflict
      if current.phase = .ready then
        return current
      else
        require (current.phase = .pending ∨ current.phase = .nodeCreating) errStateConflict
        require (current.phase = .nodeCreating → validCreationReceipt current) errStateConflict
        return { current with phase := .ready }

/-! ### Deletion -/

inductive Disposition where
  | reject | waitForUnpublish | begin | resume
  deriving DecidableEq

def decideDeletion (current : State) (uid operationID : String) (copy : CopyIdentity) : Disposition :=
  if uid = "" ∨ ¬copy.valid ∨ copy.volumeUID ≠ uid ∨ operationID ≠ ShiftPV.deletionOperationID uid ∨
      current.uid ≠ uid ∨ current.ownerNode ≠ copy.nodeName ∨ current.currentCopy ≠ some copy ∨
      current.activeMove ≠ "" then .reject
  else if current.phase = .ready ∧ current.deletionOperationID = "" ∧
      current.publishedNodes = [copy.nodeName] then .waitForUnpublish
  else if current.publishedNodes ≠ [] then .reject
  else if current.phase = .ready ∧ current.deletionOperationID = "" then .begin
  else if current.phase = .deleting ∧ current.deletionOperationID = operationID then .resume
  else .reject

def fenceForDeletion (current : State) (uid operationID : String) (copy : CopyIdentity) :
    Except String State :=
  match decideDeletion current uid operationID copy with
  | .waitForUnpublish => throw (errStateConflict ++ ": " ++ errVolumePublished)
  | .begin => return { current with phase := .deleting, deletionOperationID := operationID }
  | .resume => return current
  | .reject => throw errStateConflict

def beginDelete (volumeID uid : String) (copy : CopyIdentity) (current : State) : Except String State := do
  require (uid ≠ "" ∧ copy.valid ∧ copy.volumeID = volumeID ∧ copy.volumeUID = uid) errStateConflict
  mutateState current fun current =>
    fenceForDeletion current uid (ShiftPV.deletionOperationID uid) copy

def beginCreationCancellation (volumeID uid : String) (copy : CopyIdentity) (current : State) :
    Except String State := do
  require (copy.volumeID = volumeID ∧ copy.volumeUID = uid ∧
    isCreationCancellation copy (creationCancellationPrefix ++ uid)) errStateConflict
  mutateState current fun current => do
    require (current.uid = uid ∧ current.currentCopy = some copy) errStateConflict
    if current.cancellingCreation then
      return current
    else
      require current.cancellableCreation errStateConflict
      return { current with phase := .deleting, deletionOperationID := creationCancellationPrefix ++ uid }

/-! ### Mobility -/

/-- The shared compare-and-set of the mobility controller. Publication is maintained by the nodes, so
    the stored list survives whatever the controller observed. -/
def compareAndSet (volumeID : String) (expectedPhase : VolumePhase) (expectedActiveMove expectedOwner : String)
    (expectedCopy : Option CopyIdentity) (next current : State) : Except String State :=
  mutateState current fun current => do
    require (next.uid ≠ "" ∧ current.uid = next.uid ∧ current.phase = expectedPhase ∧
      current.activeMove = expectedActiveMove ∧ current.ownerNode = expectedOwner)
      (errStateConflict ++ ": volume " ++ quoted volumeID ++ " is phase=" ++ quoted current.phase.text ++
        " activeMove=" ++ quoted current.activeMove ++ " owner=" ++ quoted current.ownerNode)
    -- only a source transition compares the copy, and only it refuses to lock a volume being deleted
    require (expectedCopy.isSome → current.currentCopy = expectedCopy) (errStateConflict ++ ": source copy changed")
    require (expectedCopy.isSome →
      ¬(expectedActiveMove = "" ∧ next.activeMove ≠ "" ∧ (current.deleting ∨ current.hasCleanup)))
      (errStateConflict ++ ": source is being deleted")
    require (next.phase = .ready → ∀ node ∈ current.publishedNodes, node = next.ownerNode)
      (errStateConflict ++ ": node " ++ quoted ((current.publishedNodes.find? (· ≠ next.ownerNode)).getD "") ++
        " is still published")
    return { next with publishedNodes := current.publishedNodes }

def compareAndSetState (volumeID : String) (expectedPhase : VolumePhase) (expectedActiveMove expectedOwner : String)
    (next current : State) : Except String State :=
  compareAndSet volumeID expectedPhase expectedActiveMove expectedOwner none next current

def CopyIdentity.servesFor (copy : CopyIdentity) (volumeID uid nodeName : String) : Bool :=
  copy.valid && copy.role = .serving && copy.volumeID = volumeID && copy.volumeUID = uid &&
    copy.nodeName = nodeName

/-- Changes a source's mobility state without changing its owner or copy. -/
def compareAndSetSourceState (volumeID : String) (expected next current : State) : Except String State :=
  match expected.currentCopy with
  | none => throw (errStateConflict ++ ": source transition must preserve the exact serving copy")
  | some copy => do
    require (copy.servesFor volumeID expected.uid expected.ownerNode ∧ next.uid = expected.uid ∧
      next.ownerNode = expected.ownerNode ∧ next.currentCopy.all (· = copy))
      (errStateConflict ++ ": source transition must preserve the exact serving copy")
    compareAndSet volumeID expected.phase expected.activeMove expected.ownerNode (some copy)
      { next with currentCopy := some copy } current

/-! ### Publication -/

def sortedNodes (nodes : List String) : List String := nodes.dedup.insertionSort (· ≤ ·)

def beginPublish (nodeName : String) (copy : CopyIdentity) (current : State) : Except String State :=
  mutateState current fun state => do
    require (state.phase = .ready ∧ state.ownerNode = nodeName ∧ state.currentCopy = some copy)
      (errStateConflict ++ ": volume is not publishable by this copy")
    return { state with publishedNodes := sortedNodes (nodeName :: state.publishedNodes) }

/-- Changes publication for the exact live copy, after the node inspected its mounts. -/
def reconcilePublished (volumeID nodeName : String) (copy : CopyIdentity) (published : Bool) (current : State) :
    Except String State :=
  mutateState current fun state => do
    require (copy.servesFor volumeID state.uid nodeName ∧ state.ownerNode = nodeName ∧
      state.currentCopy = some copy) (errStateConflict ++ ": publication copy identity changed")
    require (published → state.phase = .ready) (errStateConflict ++ ": volume is not publishable")
    let nodes := if published then nodeName :: state.publishedNodes else state.publishedNodes.filter (· ≠ nodeName)
    return { state with publishedNodes := sortedNodes nodes }

end ShiftPV

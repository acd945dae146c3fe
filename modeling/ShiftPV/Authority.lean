import ShiftPV.Controller

/-! The authority checks of the executors. A helper Pod or the resident Node rereads the durable objects
    right before it touches the filesystem; what it reads are separate API reads. -/

namespace ShiftPV
open Check

structure PoolEvidence where
  hasPublishedCopy : Bool
  hasUnpublishedCopy : Int → Bool

/-- The API reads of one check; `none` is a failed read. -/
structure AuthorityReads where
  getMove : String → Option Move
  get : String → Option State
  inventoryPoolForIdentity : CopyIdentity → Option PoolEvidence

/-- The reads of a check: the Move first, from the objects stored at that time, then the Volume. -/
def authorityReads (moves volume : Store) (pools : CopyIdentity → Option PoolEvidence) : AuthorityReads where
  getMove := moves.moves.find
  get id := if id = volume.volumeID then volume.volume else none
  inventoryPoolForIdentity := pools

def stateConflict (text : String) : String := text ++ ": " ++ errStateConflict

/-! ### Cleanup -/

/-- The ordinary forward path that retires the source after commit. -/
def movePostcommitCleanupPhase (move : Move) : Bool :=
  move.status.phase = .waitingForDestinationPublish || move.status.phase = .cleaningSource

/-- The blocked Move retires artifacts with `owner` as the verified recovery authority. -/
def moveRetiringUnderRecoveryOwner (move : Move) (owner : String) : Bool :=
  move.status.phase = .blocked && recoveryRequested move && move.status.recoveryPhase = .retiring &&
    move.status.recoveryOwner = owner

/-- The destination serving copy is the committed owner and the only published one. -/
def destinationOwnsPublishedCopy (move : Move) (state : State) : Bool :=
  state.phase = .ready && state.ownerNode = move.status.destinationNode &&
    state.currentCopy = move.status.destinationCopy && state.publishedNodes.contains move.status.destinationNode &&
    !state.publishedNodes.contains move.spec.sourceNode

/-- `target` is one of the two destination copies this Move recorded. -/
def moveOwnsDestinationArtifact (move : Move) (target : CopyIdentity) : Bool :=
  move.status.incomingCopy = some target || move.status.destinationCopy = some target

def verifyUnpublishedDestination (reads : AuthorityReads) (move : Move) (copy : CopyIdentity) (state : State) :
    Except String Unit := do
  require (moveRetiresUnpublishedSource move state) (stateConflict "unpublished destination settlement authority changed")
  match reads.inventoryPoolForIdentity copy with
  | none => throw "read Pool inventory"
  | some pool =>
    require (pool.hasUnpublishedCopy move.status.rollbackRequiredGeneration)
      (stateConflict "unpublished destination settlement inventory changed")

/-- The postcommit shape: the destination is the committed published owner, and the Move settles the ordinary
    cleanup or retires the source under destination-owner recovery. -/
def verifyMoveSourceCleanupAuthority (reads : AuthorityReads) (spec : CleanupSpec) (move : Move) (state : State) :
    Except String Unit := do
  require (spec.operationID = moveCleanupOperationID move.uid ∧ move.status.sourceCopy = some spec.target)
    (stateConflict "move source cleanup identity changed")
  match move.status.destinationCopy with
  | none => throw (stateConflict "move source cleanup identity changed")
  | some copy =>
    if move.status.settlementRequested then
      verifyUnpublishedDestination reads move copy state
    else
      require ((movePostcommitCleanupPhase move ∨ moveRetiringUnderRecoveryOwner move move.status.destinationNode) ∧
        destinationOwnsPublishedCopy move state) (stateConflict "move source cleanup authority changed")
      match reads.inventoryPoolForIdentity copy with
      | none => throw "destination Pool publication proof unavailable"
      | some pool =>
        require pool.hasPublishedCopy (stateConflict "move source cleanup publication proof changed")

/-- The precommit shape: the source is still the blocked owner, and the target is a destination artifact of this
    Move on the Pool that was approved. -/
def verifyMoveRollbackCleanupAuthority (spec : CleanupSpec) (move : Move) (state : State) : Except String Unit :=
  require (spec.operationID = moveRollbackOperationID move.uid ∧ moveOwnsDestinationArtifact move spec.target ∧
    spec.target.nodeName = move.status.destinationNode ∧ spec.target.poolUID = move.status.destinationPoolUID ∧
    moveRetiringUnderRecoveryOwner move move.spec.sourceNode ∧ state.phase = .blocked ∧
    state.ownerNode = move.spec.sourceNode ∧ state.currentCopy = move.status.sourceCopy ∧
    ¬state.publishedNodes.contains spec.target.nodeName) (stateConflict "move rollback cleanup authority changed")

def verifyMoveCleanupAuthority (reads : AuthorityReads) (spec : CleanupSpec) : Except String Unit :=
  match reads.getMove spec.authority.name with
  | none => throw "read move cleanup Move"
  | some move => do
    require (move.spec.protocolVersion = moveProtocolPreparedV1 ∧ move.uid = spec.authority.uid ∧
      move.spec.volumeID = spec.target.volumeID ∧ move.status.sourceCopy.any (·.nodeName = move.spec.sourceNode))
      (stateConflict "move cleanup authority changed")
    match reads.get move.spec.volumeID with
    | none => throw "read move cleanup volume state"
    | some state =>
      require (state.uid = spec.target.volumeUID ∧ state.activeMove = move.name ∧ state.currentCopy.isSome)
        (stateConflict "move cleanup volume authority changed")
      match spec.reason with
      | .moveSource => verifyMoveSourceCleanupAuthority reads spec move state
      | .moveRollback => verifyMoveRollbackCleanupAuthority spec move state
      | _ => throw "move cleanup reason is not implemented"

/-- Rechecks the parent durable state that authorizes the exact cleanup. -/
def verifyCleanupAuthority (reads : AuthorityReads) (spec : CleanupSpec) : Except String Unit :=
  match spec.authority.kind with
  | .shiftPVVolume =>
    match reads.get spec.authority.name with
    | none => throw "read volume cleanup state"
    | some state => do
      require (state.uid = spec.authority.uid ∧ state.currentCopy = some spec.target ∧ state.phase = .deleting ∧
        state.deletionOperationID = spec.operationID ∧ state.activeMove = "" ∧ state.publishedNodes = [])
        (stateConflict "volume cleanup authority changed")
      if spec.reason = .creationCancelled then
        require state.cancellingCreation errStateConflict
      else
        require (spec.reason = .volumeDelete ∧ state.deletionOperationID ≠ creationCancellationPrefix ++ state.uid)
          errStateConflict
  | .shiftPVMove => verifyMoveCleanupAuthority reads spec
  | .unknown => throw "cleanup authority is not implemented"

/-! ### Copy and promotion -/

inductive MoveAction where
  | copy | promote

structure MoveOptions where
  moveName : String
  moveUID : String
  operationID : String

structure ExecutorReads where
  /-- the name of the live Job of the Move that owns the helper Pod, on the given node -/
  ownedMoveJob : Move → String → Except String String
  installationID : Except String String
  poolForIdentity : CopyIdentity → Except String PoolReference
  /-- the mounted Pool root is still the Pool's backing mount, and the executor runs on its node -/
  localAuthority : CopyIdentity → Except String Unit

/-- The Move is still the exact object, with both transaction copies. -/
def moveTransactionIntact (move : Move) (options : MoveOptions) : Bool :=
  move.spec.protocolVersion = moveProtocolPreparedV1 && move.uid = options.moveUID && move.status.sourceCopy.isSome &&
    move.status.incomingCopy.isSome

def moveActionPhaseAllowed (move : Move) : MoveAction → Bool
  | .copy => move.status.phase = .waitingForCapacity || move.status.phase = .copying
  | .promote => move.status.phase = .copying || move.status.phase = .promoting

/-- The recorded Job, operation and copies still name this action against `target`. -/
def moveActionOperationMatches (move : Move) (options : MoveOptions) (action : MoveAction) (target : CopyIdentity) : Bool :=
  match action with
  | .copy => move.status.copyJobName ≠ "" && move.status.copyOperationID = options.operationID &&
      move.status.incomingCopy = some target
  | .promote => move.status.promotionJobName ≠ "" && move.status.promotionOperationID = options.operationID &&
      move.status.incomingCopy = some target && move.status.destinationCopy.isSome

def verifyMoveExecutor (executor : ExecutorReads) (move : Move) (action : MoveAction) (nodeName : String) :
    Except String Unit := do
  let job ← executor.ownedMoveJob move nodeName
  let wantedJob := match action with
    | .copy => move.status.copyJobName
    | .promote => move.status.promotionJobName
  require (job = wantedJob) "move executor Job differs from the durable operation"

def poolMatchesIdentity (pool : PoolReference) (identity : CopyIdentity) : Bool :=
  pool.name = identity.poolName && pool.uid = identity.poolUID

/-- The source volume still moves under this Move, from its source copy, and is not published there. -/
def moveSourceVolumeAuthorizes (state : State) (move : Move) (target : CopyIdentity) : Bool :=
  state.uid = target.volumeUID && state.phase = .moving && state.activeMove = move.name &&
    state.ownerNode = move.spec.sourceNode && state.currentCopy = move.status.sourceCopy &&
    !state.publishedNodes.contains move.spec.sourceNode

/-- Rechecks that the exact copy or promotion is still authorized. -/
def moveAuthority (reads : AuthorityReads) (executor : ExecutorReads) (options : MoveOptions) (action : MoveAction)
    (target : CopyIdentity) : Except String Unit :=
  match reads.getMove options.moveName with
  | none => throw "read Move"
  | some move => do
    require (moveTransactionIntact move options) (stateConflict "move authority changed")
    require (moveActionPhaseAllowed move action ∧ moveActionOperationMatches move options action target)
      "move operation is no longer authorized"
    verifyMoveExecutor executor move action target.nodeName
    let installationID ← executor.installationID
    require (installationID = target.installationID) (stateConflict "installation authority changed")
    let pool ← executor.poolForIdentity target
    require (poolMatchesIdentity pool target) (stateConflict "Pool authority changed")
    match reads.get move.spec.volumeID with
    | none => throw "read source volume state"
    | some state => require (moveSourceVolumeAuthorizes state move target) (stateConflict "source volume authority changed")

end ShiftPV

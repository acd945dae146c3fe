import ShiftPV.Registry
import ShiftPV.MoveRegistry

/-! The Volume writes of the mobility controller. Each is a guard on the Move and the Volume that the
    reconcile step observed, followed by a compare-and-set against the stored Volume. -/

namespace ShiftPV
open Check

/-! ### Source authority -/

def noDestinationEffectIntent (move : Move) : Bool :=
  move.status.incomingCopy = none && move.status.destinationCopy = none && move.status.copyJobName = "" &&
    move.status.promotionJobName = "" && move.status.copyOperationID = "" && move.status.promotionOperationID = ""

/-- The same predicate of the validator of settled Moves, the other way round. -/
def SettledHistory.hasDestinationIntent (move : Move) : Bool :=
  move.status.incomingCopy.isSome || move.status.destinationCopy.isSome || move.status.copyJobName ≠ "" ||
    move.status.promotionJobName ≠ "" || move.status.copyOperationID ≠ "" || move.status.promotionOperationID ≠ ""

def sourceMatches (move : Move) (state : State) : Bool :=
  move.status.sourceCopy.any fun source =>
    source.servesFor move.spec.volumeID state.uid move.spec.sourceNode && state.currentCopy = some source

def preparationSourceAuthority (move : Move) (state : State) : Except String Unit := do
  require (¬state.deleting ∧ ¬state.hasCleanup ∧ state.ownerNode = move.spec.sourceNode ∧
    state.currentCopy.any (·.servesFor move.spec.volumeID state.uid move.spec.sourceNode))
    "prepared source authority is unavailable or changed"
  require (state.activeMove = "" ∨ state.activeMove = move.name) "prepared source belongs to another Move"
  require (state.phase = .ready ∨
    (move.status.phase = .startingDisruption ∧ state.phase = .moving ∧ state.activeMove = move.name))
    ("prepared source has unexpected phase " ++ quoted state.phase.text)
  require (move.status.sourceCopy.isSome → move.status.sourceCopy = state.currentCopy)
    "prepared source serving-copy identity changed"

def cancellablePreparation (move : Move) : Except String Unit := do
  require (move.spec.protocolVersion = moveProtocolPreparedV1 ∧ move.name ≠ "" ∧ move.uid ≠ "")
    "cancellation requires an identified prepared Move"
  require (¬move.status.capacityApproved ∧ noDestinationEffectIntent move ∧ move.cleanupPhase = .unset ∧
    move.status.rollbackRequiredGeneration = 0 ∧ move.status.recoveryPhase = .unset ∧
    move.status.recoveryOwner = "")
    "preparation cancellation cannot release destination execution or recovery authority"

def cancellationSourceIdentity (move : Move) (state : State) : Except String Unit :=
  require (sourceMatches move state ∧ state.ownerNode = move.spec.sourceNode ∧ ¬state.deleting ∧ ¬state.hasCleanup)
    "cancellation cannot prove the exact authoritative source copy"

def cancellationSource (move : Move) (state : State) : Except String Unit := do
  if state.phase = .blocked then
    require ((move.status.phase = .canceling ∨ move.status.phase = .cancelled) ∧ state.activeMove = move.name)
      "blocked source restoration requires its cancellation fence"
    cancellablePreparation move
    cancellationSourceIdentity move state
  else
    require (state.phase = .ready ∨ state.phase = .moving) "cancellation requires a Ready or Moving source"
    cancellationSourceIdentity move state

/-- The source a cancelling Move may act on. `none` is a Volume that is gone. -/
def cancellationVolume (move : Move) (observed : Option State) : Except String Unit :=
  match observed with
  | some state =>
    if state.activeMove = move.name then
      cancellationSource move state
    else if move.status.phase = .cancelled then
      return
    else do
      require (move.status.preparation = none) "preparation reservation has lost its exact ActiveMove"
      require (state.activeMove = "") "cancellation source is owned by another Move"
      whenever move.status.sourceCopy.isSome do
        cancellationSource move state
        require (state.phase = .ready) "unlocked cancellation source is not Ready"
  | none =>
    if move.status.phase = .cancelled then
      return
    else do
      require (move.status.preparation = none) "preparation reservation has lost its exact ActiveMove"
      require (move.status.sourceCopy = none) "observe planned cancellation source: not found"

/-! ### Committed authority -/

def validDestinationAuthorityIntent (move : Move) : Bool :=
  move.name ≠ "" && move.status.destinationNode ≠ "" && move.status.destinationNode ≠ move.spec.sourceNode &&
    move.status.destinationPoolUID ≠ "" &&
    move.status.destinationCopy.any fun destination => destination.valid && destination.role = .serving &&
      destination.poolUID = move.status.destinationPoolUID && destination.volumeID = move.spec.volumeID &&
      destination.nodeName = move.status.destinationNode

def matchesCommittedDestinationIdentity (move : Move) (state : State) (allowReleased : Bool) : Bool :=
  validDestinationAuthorityIntent move &&
    move.status.destinationCopy.any (fun destination => state.uid = destination.volumeUID &&
      state.currentCopy = some destination) &&
    state.ownerNode = move.status.destinationNode &&
    (state.activeMove = move.name || (allowReleased && state.activeMove = ""))

def hasCommittedDestinationAuthority (move : Move) (state : State) (allowReleased : Bool) : Bool :=
  state.phase = .ready && matchesCommittedDestinationIdentity move state allowReleased

def completionAllowed (move : Move) (observed : Option State) : Bool :=
  move.status.phase = .completing && validDestinationAuthorityIntent move &&
    match observed with
    | none => true
    | some state => hasCommittedDestinationAuthority move state true

/-- The copy a Move's plan assigns to the node that owns the volume. -/
def plannedCopy (move : Move) (state : State) : Option CopyIdentity :=
  if state.ownerNode = move.spec.sourceNode then move.status.sourceCopy
  else if state.ownerNode = move.status.destinationNode then move.status.destinationCopy
  else none

def recordedOwnerIntact (move : Move) (state : State) : Except String Unit := do
  require (state.ownerNode = move.spec.sourceNode ∨ state.ownerNode = move.status.destinationNode)
    "owner is outside this Move's recorded plan"
  require ((plannedCopy move state).any fun copy =>
    copy.servesFor move.spec.volumeID state.uid state.ownerNode && state.currentCopy = some copy)
    "current owner does not carry this Move's exact recorded copy"

def workloadSettlementAuthority (move : Move) (state : State) : Except String Unit := do
  require (state.activeMove = move.name ∧ ¬state.deleting ∧ ¬state.hasCleanup ∧
    (state.phase = .moving ∨ state.phase = .ready ∨ state.phase = .blocked))
    "workload settlement requires this Move's exact live authority"
  recordedOwnerIntact move state

def recoveryAuthorityIntact (move : Move) (state : State) : Except String Unit := do
  require (move.status.settlementRequested → ¬state.deleting ∧ ¬state.hasCleanup)
    "Volume has conflicting deletion authority"
  recordedOwnerIntact move state
  require (state.activeMove = move.name ∧
    (state.ownerNode = move.spec.sourceNode ∨ state.ownerNode = move.status.destinationNode) ∧
    state.ownerNode ≠ "") "expected this move and source or committed destination owner"
  require (move.status.recoveryOwner ≠ "" → state.ownerNode = move.status.recoveryOwner)
    "owner changed since recovery request"

def recoveryGuards (move : Move) (state : State) : Except String Unit := do
  recoveryAuthorityIntact move state
  require (¬(move.status.destinationNode = "" ∧ (move.status.copyJobName ≠ "" ∨ move.status.promotionJobName ≠ "")))
    "disk work was recorded without a destination; operator investigation required"
  require (state.phase = .blocked ∨ (state.phase = .ready ∧ (move.status.recoveryPhase = .resuming ∨
    move.status.recoveryPhase = .retiring ∨ move.status.recoveryPhase = .completing)))
    ("cannot recover volume in phase " ++ quoted state.phase.text)
  require (∀ node ∈ state.publishedNodes, node = state.ownerNode)
    ("node " ++ quoted ((state.publishedNodes.find? (· ≠ state.ownerNode)).getD "") ++
      " is still published; confirm unpublish before recovery")

/-- The destination ledger key of an owner handoff, bound to the exact copies handed over. -/
def ownerCommitPoolUID (move : Move) (state : State) : Except String String := do
  require (sourceMatches move state) "source serving-copy identity does not match owner handoff"
  match move.status.sourceCopy, move.status.destinationCopy with
  | some source, some target =>
    require (target.servesFor move.spec.volumeID source.volumeUID move.status.destinationNode ∧
      target.installationID = source.installationID ∧ target.poolUID = move.status.destinationPoolUID ∧
      target.poolUID ≠ source.poolUID) "destination serving-copy identity does not match owner handoff"
    return target.poolUID
  | _, _ => throw "destination serving-copy identity does not match owner handoff"

/-! ### The writes -/

inductive MobilityWrite where
  | claimSource | startSource | restoreSource | releaseSource | markBlocked | requestSettlement | commitOwner
  | markSucceeded | resumeRecovery | completeRecovery
  deriving DecidableEq

/-- Claiming records the Move as the volume's lock holder; a cancelling Move claims only to fence. -/
def claimPreparationSource (move : Move) (observed current : State) : Except String State := do
  require (move.status.sourceCopy.isSome ∧ observed.activeMove ≠ move.name) "source is claimed or not planned"
  if move.status.phase = .canceling then
    cancellationVolume move (some observed)
    compareAndSetSourceState move.spec.volumeID observed { observed with activeMove := move.name } current
  else
    preparationSourceAuthority move observed
    compareAndSetSourceState move.spec.volumeID observed { observed with activeMove := move.name } current

def startPreparedSource (move : Move) (observed current : State) : Except String State := do
  preparationSourceAuthority move observed
  require (observed.activeMove = move.name ∧ move.status.preparation.isSome)
    "disruption requires its source claim and durable preparation"
  require (observed.phase = .ready) "source is already fenced"
  compareAndSetSourceState move.spec.volumeID observed { observed with phase := .moving } current

def restoreSource (move : Move) (observed current : State) : Except String State := do
  cancellationVolume move (some observed)
  require (observed.activeMove = move.name ∧ (observed.phase = .moving ∨ observed.phase = .blocked))
    "source needs no restoration"
  compareAndSetSourceState move.spec.volumeID observed { observed with phase := .ready } current

def releaseSource (move : Move) (observed current : State) : Except String State := do
  require (move.status.phase = .cancelled) "source is released by cancellation only"
  cancellationVolume move (some observed)
  require (observed.activeMove = move.name ∧ observed.phase ≠ .moving ∧ observed.phase ≠ .blocked)
    "source is not claimed or not restored"
  compareAndSetSourceState move.spec.volumeID observed { observed with activeMove := "" } current

def markBlocked (move : Move) (observed current : State) : Except String State := do
  require ((observed.phase = .ready ∨ observed.phase = .moving) ∧ observed.activeMove = move.name)
    ("cannot block volume in phase " ++ quoted observed.phase.text ++ " with active move " ++
      quoted observed.activeMove)
  compareAndSetState move.spec.volumeID observed.phase observed.activeMove observed.ownerNode
    { observed with phase := .blocked, activeMove := move.name } current

def requestWorkloadSettlement (move : Move) (observed current : State) : Except String State := do
  workloadSettlementAuthority move observed
  compareAndSetSourceState move.spec.volumeID observed { observed with phase := .blocked } current

/-- The state an owner commit proposes. Fields it leaves empty are refilled from the stored record. -/
def committedState (move : Move) (destination : CopyIdentity) (observed : State) : State :=
  { uid := observed.uid, finalizers := [], requestName := "", capacityBytes := 0, initialNode := ""
    initialPool := none, creationClaim := none, hasCleanup := false, deleting := false
    phase := .ready, ownerNode := move.status.destinationNode, activeMove := move.name
    publishedNodes := observed.publishedNodes, creationOperationID := "", deletionOperationID := ""
    currentCopy := some destination, creationExecutor := none, creationReceipt := none }

def commitOwner (move : Move) (observed current : State) : Except String State := do
  require (move.status.destinationNode ≠ "") "destination node is empty"
  require (¬hasCommittedDestinationAuthority move observed false) "owner is already committed"
  let _ ← ownerCommitPoolUID move observed
  match move.status.destinationCopy with
  | none => throw "destination serving-copy identity does not match owner handoff"
  | some destination =>
    compareAndSetState move.spec.volumeID .moving move.name move.spec.sourceNode
      (committedState move destination observed) current

def markSucceeded (move : Move) (observed current : State) : Except String State := do
  require (completionAllowed move (some observed))
    "completion requires durable cleanup evidence and matching destination authority"
  require (observed.activeMove ≠ "") "source lock is already released"
  compareAndSetState move.spec.volumeID .ready move.name observed.ownerNode
    { observed with activeMove := "" } current

def resumeRecovery (move : Move) (observed current : State) : Except String State := do
  recoveryGuards move observed
  require (observed.phase = .blocked) "source is already resumed"
  compareAndSetState move.spec.volumeID .blocked move.name observed.ownerNode
    { observed with phase := .ready } current

def completeRecovery (move : Move) (observed current : State) : Except String State := do
  recoveryGuards move observed
  compareAndSetSourceState move.spec.volumeID observed
    { observed with
      activeMove := ""
      phase := if move.status.settlementRequested then .ready else observed.phase } current

def applyMobilityWrite : MobilityWrite → Move → State → State → Except String State
  | .claimSource => claimPreparationSource
  | .startSource => startPreparedSource
  | .restoreSource => restoreSource
  | .releaseSource => releaseSource
  | .markBlocked => markBlocked
  | .requestSettlement => requestWorkloadSettlement
  | .commitOwner => commitOwner
  | .markSucceeded => markSucceeded
  | .resumeRecovery => resumeRecovery
  | .completeRecovery => completeRecovery

end ShiftPV

import ShiftPV.History
import ShiftPV.Observe

/-! The mobility controller at work on the Moves of one volume. A reconcile pass reads its Move, reads the
    Volume, decides, writes, and records the decision; passes of one Move run one at a time, everything
    else interleaves with them, and a pass may end after any of its steps. -/

namespace ShiftPV
open Check

/-! ### Evidence

    A pass persists the evidence of an effect in a narrow status write of its own, before the effect or
    before the decision is recorded. -/

structure ResourceNames where
  copyJob : String
  promotionJob : String

def namesFor (moveName : String) : ResourceNames where
  copyJob := "shiftpv-move-" ++ moveName ++ "-copy"
  promotionJob := "shiftpv-move-" ++ moveName ++ "-promote"

inductive Evidence where
  /-- A destination Pool granted its logical hold. -/
  | grant (pool : PoolReference) (nodeName placementPodUID : String)
  | measure (bytes : Int)
  /-- The destination filesystem has no room for the measured source. -/
  | deny
  /-- The logical hold becomes the execution approval. -/
  | convert
  | promotion
  /-- The scan generation that must show what a rollback has to remove. -/
  | scan (generation : Int)
  /-- The hold is released; `artifact` is what that scan still shows. -/
  | release (artifact : Option CopyIdentity)

def Evidence.action : Evidence → Action
  | .grant .. => .reservePreparation
  | .measure _ | .deny | .convert => .ensureCapacity
  | .promotion => .ensurePromotion
  | .scan _ | .release _ => .retireRecovery

def present (volume : Option State) : Except String State :=
  match volume with
  | some state => return state
  | none => throw "get ShiftPVVolume: not found"

def grantPreparation (move : Move) (pool : PoolReference) (nodeName placementPodUID : String) (state : State) :
    Except String MoveStatus := do
  require (placementPodUID ≠ "" ∧ pool.uid ≠ "") "preparation requires a capacity locker and exact placement Pod UID"
  require (move.status.sourceCopy.any fun source => source.valid && nodeName ≠ source.nodeName)
    "automatic move requires an exact source copy and another destination node"
  require (move.status.destinationPoolUID = "" ∨ move.status.destinationPoolUID = pool.uid)
    ("node " ++ quoted nodeName ++ " has no Ready Pool in source group with the required identity")
  preparationSourceAuthority move state
  require (state.activeMove = move.name ∧ state.phase = .ready) "preparation requires its Ready source claim"
  require (¬move.deleting ∧ move.isProtected ∧ move.status.preparation = none)
    (errStateConflict ++ ": preparation Move changed before reservation")
  return { move.status with
    preparation := some { pool, nodeName, reservedBytes := state.capacityBytes }
    destinationNode := nodeName
    destinationPoolUID := pool.uid
    placementPodUID
    candidateNodes := [nodeName]
    reason := ""
    capacityReason := "" }

def sourceUsageCopy (move : Move) (state : State) : Except String CopyIdentity := do
  require (state.phase = .moving ∧ state.activeMove = move.name ∧ state.ownerNode = move.spec.sourceNode ∧
    ¬state.deleting ∧ ¬state.hasCleanup ∧ state.publishedNodes = [])
    "source volume has no locked unpublished serving-copy identity"
  match state.currentCopy with
  | none => throw "source volume has no locked unpublished serving-copy identity"
  | some copy =>
    require (copy.servesFor move.spec.volumeID state.uid move.spec.sourceNode)
      "source volume has no locked unpublished serving-copy identity"
    require (move.status.sourceCopy = some copy) "source copy identity changed before capacity admission"
    return copy

/-- The hold is still the exact quiesced reservation of this Move. -/
def preparedCapacitySnapshot (move : Move) (hold : MovePreparation) (state : State) : Except String Unit := do
  require (state.capacityBytes > 0) ("volume " ++ quoted move.spec.volumeID ++ " has invalid capacity")
  require (state.capacityBytes = hold.reservedBytes ∧ state.phase = .moving ∧ state.activeMove = move.name ∧
    state.publishedNodes = []) "prepared execution no longer has its exact quiesced reservation"
  cancellationSource move state
  require (¬move.deleting) (errStateConflict ++ ": prepared execution Move changed")

/-- The execution plan of an approved Move, bound to the Pool of its hold. -/
def prepareMoveCopyIdentities (move : Move) (hold : MovePreparation) : Except String MoveStatus :=
  match move.status.sourceCopy with
  | none => throw "move source identity is missing"
  | some source => do
    require (validIdentityToken move.uid ∧ source.valid) "move source identity is missing"
    require (hold.pool.name ≠ "" ∧ hold.pool.uid ≠ "" ∧ hold.pool.uid = move.status.destinationPoolUID ∧
      hold.nodeName = move.status.destinationNode) "destination Pool identity changed or is missing"
    let copies := moveTransactionCopies move.uid move.spec.volumeID (preparationAnchor source hold)
    require (copies.1.valid ∧ copies.2.valid) "generated move copy identity is invalid"
    require (noDestinationEffectIntent move) "move copy identity changed"
    return { move.status with
      incomingCopy := some copies.1
      destinationCopy := some copies.2
      copyJobName := (namesFor move.name).copyJob
      copyOperationID := moveCopyOperationID move.uid
      promotionOperationID := movePromotionOperationID move.uid }

/-- The hold a conversion starts from: measured, quiesced and unchanged. -/
def convertibleHold (move : Move) (state : State) : Except String MovePreparation := do
  validateMovePreparation move
  require (move.status.sourceBytes > 0) "source usage observation is pending"
  match move.status.preparation with
  | none => throw "execution approval requires its prepared destination reservation"
  | some hold =>
    preparedCapacitySnapshot move hold state
    return hold

def convertPreparation (move : Move) (state : State) : Except String MoveStatus := do
  let hold ← convertibleHold move state
  let status ← prepareMoveCopyIdentities move hold
  return { status with preparation := none, capacityApproved := true, capacityReason := "" }

def ensurePromotion (move : Move) : Except String MoveStatus := do
  require (move.status.destinationNode ≠ "") "observed destination differs from the approved plan"
  require (move.status.incomingCopy.isSome ∧ move.status.destinationCopy.isSome ∧ move.status.promotionOperationID ≠ "")
    "promotion identity is missing"
  return { move.status with promotionJobName := (namesFor move.name).promotionJob }

def validRollbackIntent (move : Move) : Except String Unit := do
  require (move.status.recoveryPhase = .retiring) "rollback scan requires durable Retiring intent"
  require (move.name ≠ "") (moveIdentityMismatch "Name")
  match move.status.sourceCopy, move.status.incomingCopy, move.status.destinationCopy with
  | some source, some incoming, some _ =>
    require source.valid (moveIdentityMismatch "SourceCopy")
    require (source.role = .serving) (moveIdentityMismatch "SourceCopy.Role")
    require (source.nodeName = move.spec.sourceNode) (moveIdentityMismatch "SourceCopy.NodeName")
    require (source.volumeID = move.spec.volumeID) (moveIdentityMismatch "SourceCopy.VolumeID")
    require move.status.capacityApproved (moveIdentityMismatch "CapacityApproved")
    require (move.status.sourceBytes > 0) (moveIdentityMismatch "SourceBytes")
    require (move.status.destinationNode ≠ "" ∧ move.status.destinationNode ≠ move.spec.sourceNode)
      (moveIdentityMismatch "DestinationNode")
    require (move.status.destinationPoolUID ≠ "") (moveIdentityMismatch "DestinationPoolUID")
    validateMoveTransactionIdentities move (recordedAnchor move.status source incoming)
    require (move.status.copyJobName = (namesFor move.name).copyJob) (moveIdentityMismatch "CopyJobName")
    require (move.status.promotionJobName = "" ∨ move.status.promotionJobName = (namesFor move.name).promotionJob)
      (moveIdentityMismatch "PromotionJobName")
  | none, _, _ => throw (moveIdentityMismatch "SourceCopy")
  | _, none, _ => throw (moveIdentityMismatch "IncomingCopy")
  | _, _, none => throw (moveIdentityMismatch "DestinationCopy")

def precommitSource (move : Move) (state : State) : Except String Unit :=
  require (state.phase = .blocked ∧ state.activeMove = move.name ∧
    state.currentCopy.any (·.servesFor move.spec.volumeID state.uid move.spec.sourceNode))
    "precommit source authority is incomplete"

/-- A scan is requested before a rollback, and before a settlement retires the source. -/
def ensureRollbackScan (move : Move) (state : State) (generation : Int) : Except String MoveStatus := do
  if state.ownerNode = move.spec.sourceNode then
    precommitSource move state
    require (move.status.sourceCopy.isSome ∧ state.currentCopy = move.status.sourceCopy)
      "recorded source identity differs from current authority"
  else
    require (state.ownerNode = move.status.destinationNode ∧ move.status.settlementRequested)
      "rollback scan is not required"
  validRollbackIntent move
  require (move.status.rollbackRequiredGeneration = 0) "rollback scan is already requested"
  require (generation > 0) "rollback scan request returned no generation"
  return { move.status with rollbackRequiredGeneration := generation }

/-- The unpublished destination that a settlement keeps while it retires the source. -/
def moveRetiresUnpublishedSource (move : Move) (state : State) : Bool :=
  move.status.settlementRequested && move.status.phase = .blocked && move.status.recoveryPhase = .retiring &&
    move.status.recoveryOwner = move.status.destinationNode && move.status.rollbackRequiredGeneration > 0 &&
    passes (validatePreparedMovePlan move) && move.status.destinationNode ≠ move.spec.sourceNode &&
    match move.status.sourceCopy, move.status.incomingCopy, move.status.destinationCopy with
    | some source, some incoming, some copy =>
      move.status.destinationPoolUID ≠ source.poolUID &&
        passes (validateMoveTransactionIdentities move (recordedAnchor move.status source incoming)) &&
        !state.deleting && !state.hasCleanup && state.phase = .blocked && state.activeMove = move.name &&
        state.uid = copy.volumeUID && state.ownerNode = copy.nodeName && state.currentCopy = some copy &&
        state.publishedNodes = []
    | _, _, _ => false

/-- The destination owns the volume and serves it, so the source copy may go. -/
def destinationServes (move : Move) (state : State) : Bool :=
  state.phase = .ready && state.activeMove = move.name && move.status.destinationCopy.isSome &&
    state.currentCopy = move.status.destinationCopy &&
    move.status.destinationCopy.any (·.volumeUID = state.uid) &&
    state.publishedNodes.contains move.status.destinationNode && !state.publishedNodes.contains move.spec.sourceNode

/-- The cleanup a retiring Move owes under the observed owner; `artifact` is what the destination scan still
    shows. `none` means that nothing was ever written, or that the scan shows it gone. -/
def retiringCleanup (move : Move) (state : State) (artifact : Option CopyIdentity) :
    Except String (Option CleanupSpec) :=
  if state.ownerNode = move.spec.sourceNode then do
    precommitSource move state
    if noDestinationEffectIntent move then
      require (¬move.status.capacityApproved) "execution approval has no recorded destination plan"
      return none
    else
      require (move.status.sourceCopy.isSome ∧ state.currentCopy = move.status.sourceCopy)
        "recorded source identity differs from current authority"
      validRollbackIntent move
      require (move.status.rollbackRequiredGeneration > 0) "rollback scan is not recorded"
      match artifact with
      | none => return none
      | some target =>
        require (move.status.incomingCopy = some target ∨ move.status.destinationCopy = some target)
          "destination inventory contains a conflicting volume artifact"
        return some (moveRollbackSpec move target)
  else do
    require (state.ownerNode = move.status.destinationNode)
      "authoritative owner is neither the source nor recorded destination"
    if move.status.settlementRequested then
      validRollbackIntent move
      require (moveRetiresUnpublishedSource move state)
        "waiting for exact fenced destination authority without publication"
      let spec ← moveCleanupSpec move
      return some spec
    else
      require (destinationServes move state) "waiting for exact destination publication before source cleanup"
      let spec ← moveCleanupSpec move
      return some spec

def cleanupClosed (move : Move) (owed : Option CleanupSpec) : Except String Unit :=
  match owed, move.cleanup with
  | none, none => return
  | none, some journal =>
    require (noDestinationEffectIntent move ∨ journal.spec = moveRollbackSpec move journal.spec.target ∧
      journal.status.phase = .completed) "rollback settlement found an open cleanup operation"
  | some _, none => throw "cleanup executor settlement is pending"
  | some spec, some journal =>
    require (journal.spec = spec ∧ journal.status.phase = .completed) "cleanup executor settlement is pending"

def settleRecoveryArtifacts (move : Move) (state : State) (artifact : Option CopyIdentity) :
    Except String MoveStatus := do
  require (move.status.capacityReason ≠ "RecoverySettled") "capacity hold is settled"
  let owed ← retiringCleanup move state artifact
  cleanupClosed move owed
  return { move.status with capacityApproved := false, capacityReason := "RecoverySettled" }

/-- The status write of a piece of evidence. `observed` is the Volume the pass decided on, `fresh` the one it
    read again under the Pool lock. -/
def Evidence.write (evidence : Evidence) (move : Move) (observed fresh : Option State) : Except String MoveWrite :=
  match evidence with
  | .grant pool nodeName placementPodUID => do
    let state ← present fresh
    let status ← grantPreparation move pool nodeName placementPodUID state
    return .status move status
  | .measure bytes => do
    let state ← present fresh
    let copy ← sourceUsageCopy move state
    require (move.status.sourceBytes ≤ 0 ∧ bytes > 0) "source volume usage must be positive"
    return .recordSourceUsage move copy bytes state
  | .deny => do
    let state ← present fresh
    let _ ← convertibleHold move state
    return .status move { move.status with capacityReason := "DestinationFilesystemSpace" }
  | .convert => do
    let state ← present fresh
    let status ← convertPreparation move state
    return .status move status
  | .promotion => do
    let status ← ensurePromotion move
    return .status move status
  | .scan generation => do
    let state ← present observed
    let status ← ensureRollbackScan move state generation
    return .status move status
  | .release artifact => do
    let state ← present observed
    let status ← settleRecoveryArtifacts move state artifact
    return .status move status

def Action.cleanup (action : Action) (move : Move) (observed : Option State) (artifact : Option CopyIdentity) :
    Except String CleanupSpec :=
  match action with
  | .ensureCleanup => do
    require move.status.destinationCopy.isSome "move cleanup contract is incomplete"
    moveCleanupSpec move
  | .retireRecovery => do
    let state ← present observed
    let owed ← retiringCleanup move state artifact
    match owed with
    | some spec => return spec
    | none => throw "no cleanup is owed"
  | _ => throw "action opens no cleanup journal"

/-! ### Actions -/

def Action.volumeWrite : Action → Option MobilityWrite
  | .claimSource => some .claimSource
  | .startDisruption => some .startSource
  | .restoreSource => some .restoreSource
  | .releaseSource => some .releaseSource
  | .markBlocked => some .markBlocked
  | .requestSettlement => some .requestSettlement
  | .commitOwner => some .commitOwner
  | .markSucceeded => some .markSucceeded
  | .resumeRecovery => some .resumeRecovery
  | .completeRecovery => some .completeRecovery
  | _ => none

def committedOutcome (move : Move) (state : State) : Bool :=
  state.phase = .ready && state.ownerNode = move.status.destinationNode && state.activeMove = move.name &&
    move.status.destinationCopy.isSome && state.currentCopy = move.status.destinationCopy

def blockedUnder (move : Move) (state : State) : Bool := state.phase = .blocked && state.activeMove = move.name

/-- The action is complete, so the pass records its decision. `current` is the Volume read back after a
    conflict; an action that is never complete needs the next pass to observe its effect. -/
def Action.complete (action : Action) (move : Move) (next : MovePhase) (observed current : Option State)
    (wrote : Bool) : Bool :=
  match action with
  | .protectMove | .claimSource | .restoreSource | .releaseSource | .finalizeHistory | .finalizeSourceUsage => false
  | .deletePlacement => next ≠ .canceling && next ≠ .cancelled
  | .requestSettlement => wrote
  | .startDisruption => wrote || observed.any (·.phase = .moving)
  | .commitOwner => wrote || observed.any (committedOutcome move) || current.any (committedOutcome move)
  | .markSucceeded => wrote || observed.all (·.activeMove = "")
  | .markBlocked =>
    wrote || observed.any (blockedUnder move) || current.any (blockedUnder move) ||
      (move.status.phase = .pending && observed.any fun state => state.phase = .ready && state.activeMove = "")
  | .resumeRecovery => observed.any fun state => state.phase ≠ .blocked && state.publishedNodes.contains state.ownerNode
  | .completeRecovery => wrote || (move.status.settlementRequested && observed.all (·.activeMove = ""))
  | .retireRecovery => move.status.capacityReason = "RecoverySettled" && !move.status.capacityApproved
  | .ensureCapacity => move.status.capacityApproved || move.status.capacityReason ≠ ""
  | .ensurePromotion => move.status.promotionJobName = (namesFor move.name).promotionJob
  | .confirmCleanup => cleanupCompleted move
  | _ => true

/-- The cleanup evidence an action requires of the stored Move before it releases the Volume. -/
def Action.cleanupSettled (action : Action) (stored : Move) : Except String Unit :=
  match action with
  | .markSucceeded => require (cleanupCompleted stored) "completion requires settled cleanup receipt"
  | .completeRecovery => whenever stored.status.settlementRequested (validateSettlementCompletion stored)
  | _ => return

/-- The binding that a preparation records, and the reason it waits for. -/
structure WorkloadPlan where
  persistentVolumeName : String
  persistentVolumeUID : String
  claimNamespace : String
  claimName : String
  claimUID : String
  consumerName : String
  consumerUID : String
  candidateNodes : List String
  reason : String

/-- What an action leaves in the status for the write that records the decision. -/
def Action.stage (action : Action) (status : MoveStatus) (observed : Option State) (plan : WorkloadPlan) : MoveStatus :=
  match action with
  | .initializePreparation => { status with
      sourceCopy := observed.bind (·.currentCopy)
      persistentVolumeName := plan.persistentVolumeName
      persistentVolumeUID := plan.persistentVolumeUID
      claimNamespace := plan.claimNamespace
      claimName := plan.claimName
      claimUID := plan.claimUID
      consumerName := plan.consumerName
      consumerUID := plan.consumerUID
      candidateNodes := plan.candidateNodes }
  | .reservePreparation => { status with reason := if status.preparation.isSome then status.reason else plan.reason }
  | .releasePreparation => { status with preparation := none, capacityReason := "PreparationCancelled" }
  | .requestSettlement => { status with settlementRequested := true, recoveryOwner := "", recoveryPhase := .unset }
  | .beginRecovery => { status with recoveryOwner := (observed.map (·.ownerNode)).getD "" }
  | _ => status

def applyMoveDecision (move : Move) (decision : Decision) : MoveStatus :=
  let status := { move.status with
    phase := decision.next.phase
    recoveryPhase := decision.next.recoveryPhase }
  if move.status.settlementRequested then
    { status with reason := if decision.action = .requestSettlement then decision.reason else status.reason }
  else if move.status.recoveryPhase ≠ decision.next.recoveryPhase then
    status
  else if move.status.phase = .blocked ∧ decision.next.phase = .blocked ∧ recoveryRequested move ∧
      decision.action ≠ .requestSettlement then
    status
  else if move.status.phase = .canceling ∨ move.status.phase = .cancelled then
    -- settlement preserves why cancellation began
    status
  else
    { status with reason :=
        if decision.action ≠ .reservePreparation ∨ decision.reason ≠ "" then decision.reason else status.reason }

/-! ### Passes -/

inductive Stage where
  | started
  | decided (observed : Observed) (decision : Decision) (fresh : Option State) (wrote : Bool)

/-- A pass in flight, with the Move it read or last wrote. -/
structure Pass where
  move : Move
  stage : Stage

/-- The stored objects, all their earlier versions, and the passes in flight. -/
structure World where
  store : Store
  past : List Store
  passes : String → Option Pass

def World.setPass (w : World) (name : String) (pass : Option Pass) : World :=
  { w with passes := fun other => if other = name then pass else w.passes other }

def World.commit (w : World) (op : Op) : Except String World := do
  let store ← w.store.apply op
  return { w with store, past := w.store :: w.past }

def World.pass (w : World) (name : String) : Except String Pass :=
  match w.passes name with
  | some pass => return pass
  | none => throw "no pass of this Move is in flight"

def Op.external : Op → Bool
  | .volume (.mobility ..) => false
  | .move _ (.status ..) | .move _ (.recordSourceUsage ..) | .move _ (.ensureCleanup _) => false
  | _ => true

inductive WorldAct where
  | external (op : Op)
  /-- Discovery records the first phase of a Move it has created. -/
  | announce (name : String)
  | start (name : String)
  | observe (name : String) (cluster : ClusterFacts)
  /-- A changed preparation sends the pass back to the Volume and to the decision. -/
  | retry (name reason : String)
  | reread (name : String)
  | write (name : String)
  | evidence (name : String) (evidence : Evidence)
  | journal (name : String) (artifact : Option CopyIdentity)
  | finish (name : String) (plan : WorkloadPlan)
  | diagnose (name reason : String)
  | leave (name : String)

def Action.retries : Action → Bool
  | .initializePreparation | .reservePreparation | .startDisruption => true
  | _ => false

def World.step (w : World) : WorldAct → Except String World
  | .external op => do
    require op.external "the mobility controller writes this itself"
    w.commit op
  | .announce name => do
    let move ← w.store.move name
    require ((w.passes name).isNone ∧ move.status = .empty) "the Move is announced"
    w.commit (.move name (.status move { move.status with phase := .pending }))
  | .start name => do
    require (w.passes name).isNone "passes of one Move run one at a time"
    let move ← w.store.move name
    return w.setPass name (some { move, stage := .started })
  | .observe name cluster => do
    let pass ← w.pass name
    match pass.stage with
    | .started =>
      let observed ← observeLifecycle pass.move w.store.volume cluster
      let decision ← observed.decide pass.move
      return w.setPass name (some { pass with stage := .decided observed decision none false })
    | .decided .. => throw "the pass has observed its Volume"
  | .retry name reason => do
    let pass ← w.pass name
    match pass.stage with
    | .started => throw "the pass has not decided"
    | .decided _ decision _ wrote =>
      require (decision.action.retries ∧ ¬wrote) "the action reports no changed preparation"
      cancellablePreparation pass.move
      require (pass.move.status.phase ≠ .canceling ∧ pass.move.status.phase ≠ .cancelled) "cancellation has begun"
      let state ← present w.store.volume
      let observed : Observed := { volume := some state
                                   facts := { Observation.none with preparationChangedReason := reason } }
      let decision ← observed.decide pass.move
      return w.setPass name (some { pass with stage := .decided observed decision none false })
  | .reread name => do
    let pass ← w.pass name
    match pass.stage with
    | .started => throw "the pass has not decided"
    | .decided observed decision _ wrote =>
      return w.setPass name (some { pass with stage := .decided observed decision w.store.volume wrote })
  | .write name => do
    let pass ← w.pass name
    match pass.stage with
    | .started => throw "the pass has not decided"
    | .decided observed decision fresh wrote =>
      require (¬wrote) "the pass has written the Volume"
      let state ← present observed.volume
      match decision.action.volumeWrite with
      | none => throw "the action writes no Volume"
      | some write =>
        let stored ← w.store.move name
        decision.action.cleanupSettled stored
        let w ← w.commit (.volume (.mobility write pass.move state))
        return w.setPass name (some { pass with stage := .decided observed decision fresh true })
  | .evidence name evidence => do
    let pass ← w.pass name
    match pass.stage with
    | .started => throw "the pass has not decided"
    | .decided observed decision fresh wrote =>
      require (evidence.action = decision.action) "the action records other evidence"
      let write ← evidence.write pass.move observed.volume fresh
      let w ← w.commit (.move name write)
      let move ← w.store.move name
      return w.setPass name (some { move, stage := .decided observed decision fresh wrote })
  | .journal name artifact => do
    let pass ← w.pass name
    match pass.stage with
    | .started => throw "the pass has not decided"
    | .decided observed decision _ _ =>
      let spec ← decision.action.cleanup pass.move observed.volume artifact
      w.commit (.move name (.ensureCleanup spec))
  | .finish name plan => do
    let pass ← w.pass name
    match pass.stage with
    | .started => throw "the pass has not decided"
    | .decided observed decision _ wrote =>
      require (decision.action.complete pass.move decision.next.phase observed.volume w.store.volume wrote)
        "lifecycle action requires re-observation"
      let stored ← w.store.move name
      decision.action.cleanupSettled stored
      let staged := { pass.move with status := decision.action.stage pass.move.status observed.volume plan }
      let next := applyMoveDecision staged decision
      if next = pass.move.status then
        return w.setPass name none
      else
        let w ← w.commit (.move name (.status pass.move next))
        return w.setPass name none
  | .diagnose name reason => do
    let pass ← w.pass name
    require (¬preparationLifecycle pass.move.status.phase) "preparation errors are not recorded"
    let w ← w.commit (.move name (.status pass.move { pass.move.status with reason }))
    return w.setPass name none
  | .leave name => return w.setPass name none

def World.Initial (w : World) : Prop := w.store.Initial ∧ w.past = [] ∧ ∀ name, w.passes name = none

abbrev WorldRun : List World → Prop := Run World.Initial (Run.onHead fun w (act : WorldAct) w' => w.step act = .ok w')

end ShiftPV

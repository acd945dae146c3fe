import ShiftPV.Move

/-! The Move writes of the registry. A status write is accepted only against the exact resource version
    the writer read, and only if it passes the validators below; the embedded cleanup journal belongs to
    another writer and is carried over. -/

namespace ShiftPV
open Check

/-! ### The recorded plan -/

def validatePreparationFields (preparation : MovePreparation) : Except String Unit :=
  require (validObjectName preparation.pool.name ∧ validIdentityToken preparation.pool.uid ∧
    validObjectName preparation.nodeName ∧ preparation.reservedBytes > 0)
    (errStateConflict ++ ": invalid Move preparation reservation")

def requiresField (name value : String) : Except String Unit :=
  require (validIdentityToken value) (errStateConflict ++ ": prepared Move requires " ++ name)

def validatePreparedPlan (move : Move) : Except String Unit := do
  require (move.name ≠ "" ∧ validIdentityToken move.uid) (errStateConflict ++ ": prepared Move identity is missing")
  requiresField "persistentVolumeName" move.status.persistentVolumeName
  requiresField "persistentVolumeUID" move.status.persistentVolumeUID
  requiresField "claimNamespace" move.status.claimNamespace
  requiresField "claimName" move.status.claimName
  requiresField "claimUID" move.status.claimUID
  requiresField "consumerName" move.status.consumerName
  requiresField "consumerUID" move.status.consumerUID
  require (move.status.sourceCopy.any fun source => source.valid && source.role = .serving &&
    source.volumeID = move.spec.volumeID && source.nodeName = move.spec.sourceNode)
    (errStateConflict ++ ": prepared Move source copy does not match its spec")

def validatePreparedMovePlan (move : Move) : Except String Unit := do
  require (move.spec.protocolVersion = moveProtocolPreparedV1)
    (errStateConflict ++ ": prepared protocol is required")
  validatePreparedPlan move

def Move.hasDestinationIntent (move : Move) : Bool :=
  move.status.incomingCopy.isSome || move.status.destinationCopy.isSome || move.status.copyOperationID ≠ "" ||
    move.status.promotionOperationID ≠ "" || move.status.copyJobName ≠ "" || move.status.promotionJobName ≠ "" ||
    move.cleanupPhase ≠ .unset || move.status.rollbackRequiredGeneration ≠ 0

def validateMovePreparation (move : Move) : Except String Unit :=
  match move.status.preparation with
  | none => return
  | some preparation => do
    require (move.spec.protocolVersion = moveProtocolPreparedV1)
      (errStateConflict ++ ": preparation requires protocol " ++ quoted moveProtocolPreparedV1)
    validatePreparationFields preparation
    validatePreparedPlan move
    require (¬move.status.capacityApproved ∧ ¬move.hasDestinationIntent)
      (errStateConflict ++ ": preparation cannot coexist with destination execution authority")
    require (validIdentityToken move.status.placementPodUID)
      (errStateConflict ++ ": preparation requires the exact placement Pod UID")
    require (move.status.sourceCopy.all (preparation.pool.uid ≠ ·.poolUID))
      (errStateConflict ++ ": preparation destination is the source")
    require ((move.status.destinationNode = "" ∨ move.status.destinationNode = preparation.nodeName) ∧
      (move.status.destinationPoolUID = "" ∨ move.status.destinationPoolUID = preparation.pool.uid))
      (errStateConflict ++ ": preparation destination does not match the Move plan")

def moveCleanupSettled (move : Move) : Bool :=
  move.status.preparation = none &&
    (move.spec.protocolVersion = "" || move.spec.protocolVersion = moveProtocolPreparedV1) &&
    if move.spec.protocolVersion = moveProtocolPreparedV1 ∧ move.status.phase = .cancelled then
      !move.status.capacityApproved && !move.hasDestinationIntent
    else
      (move.spec.protocolVersion ≠ moveProtocolPreparedV1 || passes (validatePreparedPlan move)) &&
        if move.status.phase = .succeeded then move.cleanupPhase = .completed
        else
          move.status.phase = .blocked && move.status.recoveryPhase = .recovered &&
            !move.status.capacityApproved && move.status.capacityReason = "RecoverySettled"

/-! ### Status validators -/

def validateSettlementTransition (current : Move) (next : MoveStatus) : Except String Unit := do
  require (current.status.settlementRequested → next.settlementRequested)
    (errStateConflict ++ ": settlement intent cannot be removed")
  require (next.settlementRequested → next.phase = .blocked)
    (errStateConflict ++ ": settlement requires a blocked Move")
  require (¬(next.settlementRequested ∧ ¬current.status.settlementRequested ∧
    ¬current.status.capacityApproved ∧ ¬current.hasDestinationIntent))
    (errStateConflict ++ ": unapproved preparation must use cancellation")

def immutableCopy (name : String) (current next : Option CopyIdentity) : Except String Unit :=
  require (current.isSome → next = current) (errStateConflict ++ ": Move " ++ name ++ " is immutable")

def immutableText (kind name current next : String) : Except String Unit :=
  require (current ≠ "" → next = current) (errStateConflict ++ ": " ++ kind ++ " " ++ name ++ " is immutable")

def preserveMoveIdentity (current next : MoveStatus) : Except String Unit := do
  require (0 ≤ next.sourceBytes ∧ (current.sourceBytes > 0 → next.sourceBytes = current.sourceBytes))
    (errStateConflict ++ ": recorded Move sourceBytes is immutable")
  require (0 ≤ next.rollbackRequiredGeneration ∧ (current.rollbackRequiredGeneration > 0 →
    next.rollbackRequiredGeneration = current.rollbackRequiredGeneration))
    (errStateConflict ++ ": Move rollbackRequiredGeneration is immutable")
  immutableCopy "sourceCopy" current.sourceCopy next.sourceCopy
  immutableCopy "incomingCopy" current.incomingCopy next.incomingCopy
  immutableCopy "destinationCopy" current.destinationCopy next.destinationCopy
  immutableText "Move" "copyOperationID" current.copyOperationID next.copyOperationID
  immutableText "Move" "promotionOperationID" current.promotionOperationID next.promotionOperationID

def preservePreparedPlan (current next : MoveStatus) : Except String Unit := do
  immutableText "prepared Move" "persistentVolumeName" current.persistentVolumeName next.persistentVolumeName
  immutableText "prepared Move" "persistentVolumeUID" current.persistentVolumeUID next.persistentVolumeUID
  immutableText "prepared Move" "claimNamespace" current.claimNamespace next.claimNamespace
  immutableText "prepared Move" "claimName" current.claimName next.claimName
  immutableText "prepared Move" "claimUID" current.claimUID next.claimUID
  immutableText "prepared Move" "consumerName" current.consumerName next.consumerName
  immutableText "prepared Move" "consumerUID" current.consumerUID next.consumerUID
  immutableText "prepared Move" "placementPodUID" current.placementPodUID next.placementPodUID
  immutableText "prepared Move" "destinationNode" current.destinationNode next.destinationNode
  immutableText "prepared Move" "destinationPoolUID" current.destinationPoolUID next.destinationPoolUID

def validatePreparationStart (current next : Move) : Except String Unit := do
  require (¬(next.status.capacityApproved ∧ ¬current.status.capacityApproved))
    (errStateConflict ++ ": execution approval requires the existing preparation reservation")
  require (¬(next.hasDestinationIntent ∧ ¬current.status.capacityApproved ∧ ¬current.hasDestinationIntent))
    (errStateConflict ++ ": destination intent requires prior execution approval")
  require (next.status.preparation.isSome → ¬current.status.capacityApproved ∧ ¬current.hasDestinationIntent ∧
    (current.status.phase = .unset ∨ current.status.phase = .pending ∨ current.status.phase = .preparing))
    (errStateConflict ++ ": preparation can only begin before disruption")

/-- The anchor under which an approved Move's copies must have been derived from its preparation. -/
def preparationAnchor (source : CopyIdentity) (preparation : MovePreparation) : MoveDestinationAnchor where
  installationID := source.installationID
  poolName := preparation.pool.name
  poolUID := preparation.pool.uid
  nodeName := preparation.nodeName
  volumeUID := source.volumeUID

def preservePreparation (current next : Move) : Except String Unit :=
  match current.status.preparation with
  | none => validatePreparationStart current next
  | some before => do
    validateMovePreparation current
    match next.status.preparation with
    | some after => require (before = after) (errStateConflict ++ ": preparation reservation is immutable")
    | none =>
      if current.status.phase = .canceling ∧ next.status.phase = .cancelled ∧ ¬next.status.capacityApproved ∧
          ¬next.hasDestinationIntent then
        return
      else
        require (current.status.phase = .waitingForCapacity ∧ next.status.capacityApproved ∧
          next.status.destinationNode = before.nodeName ∧ next.status.destinationPoolUID = before.pool.uid)
          (errStateConflict ++ ": preparation may only be released by cancellation or exact execution approval")
        match current.status.sourceCopy with
        | none => throw (errStateConflict ++ ": prepared Move source copy does not match its spec")
        | some source => validateMoveTransactionIdentities next (preparationAnchor source before)

/-- The anchor of the plan a Move has already recorded: the Pool name is the incoming copy's. -/
def recordedAnchor (status : MoveStatus) (source incoming : CopyIdentity) : MoveDestinationAnchor where
  installationID := source.installationID
  poolName := incoming.poolName
  poolUID := status.destinationPoolUID
  nodeName := status.destinationNode
  volumeUID := source.volumeUID

def validateExecutionHoldRelease (current next : Move) : Except String Unit :=
  if ¬current.status.capacityApproved ∨ next.status.capacityApproved then
    return
  else do
    require (current.status.phase = .blocked ∧ current.status.recoveryPhase = .retiring ∧
      next.status.phase = .blocked ∧ next.status.recoveryPhase = .retiring ∧
      next.status.capacityReason = "RecoverySettled")
      (errStateConflict ++ ": execution hold release requires recovery settlement")
    require (current.cleanupPhase = .unset ∨ current.cleanupPhase = .completed)
      (errStateConflict ++ ": execution cleanup is not settled")
    require (current.cleanupPhase = .unset → current.status.rollbackRequiredGeneration > 0)
      (errStateConflict ++ ": execution hold release requires a recorded rollback scan")
    match current.status.sourceCopy, current.status.incomingCopy with
    | some source, some incoming =>
      validateMoveTransactionIdentities current (recordedAnchor current.status source incoming)
    | _, _ => throw (errStateConflict ++ ": execution hold has no exact disk plan")

def validatePreparedTransition (current : Move) (next : MoveStatus) : Except String Unit := do
  validateSettlementTransition current next
  preserveMoveIdentity current.status next
  preservePreparedPlan current.status next
  let candidate := { current with status := next }
  validateMovePreparation candidate
  whenever (next.sourceCopy.isSome ∨ next.capacityApproved ∨ next.placementPodUID ≠ "" ∨
    next.persistentVolumeUID ≠ "" ∨ next.claimUID ≠ "") (validatePreparedPlan candidate)
  require (next.capacityApproved → validIdentityToken next.placementPodUID ∧ next.preparation = none)
    (errStateConflict ++ ": approved Move requires its placement identity and no logical hold")
  validateExecutionHoldRelease current candidate
  preservePreparation current candidate

def validatePreparedProtection (current : Move) (next : MoveStatus) : Except String Unit := do
  require (¬(next.phase = .cancelled ∧ current.cleanup.isSome))
    (errStateConflict ++ ": cancellation cannot settle a Move with a cleanup journal")
  let granting := (current.status.preparation.isNone && next.preparation.isSome) ||
    (!current.status.capacityApproved && next.capacityApproved)
  require (granting → ¬current.deleting)
    (errStateConflict ++ ": deleting Move cannot acquire preparation or execution authority")
  require (granting → current.isProtected)
    (errStateConflict ++ ": Move protection is required before granting capacity")

/-! ### Accepted writes -/

/-- Decoding refuses a stored Move with malformed copies, preparation or rollback generation. -/
def decodeMove (move : Move) : Except String Unit := do
  require (0 ≤ move.status.rollbackRequiredGeneration) "rollbackRequiredGeneration must not be negative"
  require (move.status.sourceCopy.all (·.valid)) "decode sourceCopy: invalid copy identity"
  require (move.status.incomingCopy.all (·.valid)) "decode incomingCopy: invalid copy identity"
  require (move.status.destinationCopy.all (·.valid)) "decode destinationCopy: invalid copy identity"
  match move.status.preparation with
  | none => return
  | some preparation => validatePreparationFields preparation

def compareAndSetMoveStatus (expected : Move) (next : MoveStatus) (current : Move) : Except String Move := do
  require (expected.name ≠ "" ∧ expected.uid ≠ "" ∧ expected.resourceVersion ≠ 0)
    (errStateConflict ++ ": Move name, UID and resourceVersion are required")
  require (current.name = expected.name) "read Move before status compare-and-set: not found"
  require (current.uid = expected.uid ∧ current.resourceVersion = expected.resourceVersion)
    (errStateConflict ++ ": Move UID or resourceVersion changed")
  decodeMove current
  require (current.spec = expected.spec ∧ current.spec.protocolVersion = moveProtocolPreparedV1)
    (errStateConflict ++ ": Move protocol or spec changed")
  validatePreparedProtection current next
  validatePreparedTransition current next
  return { current with status := next, resourceVersion := current.resourceVersion + 1 }

/-- A source measurement, recorded without replaying the writer's other status fields. -/
def recordSourceUsage (expected : Move) (copy : CopyIdentity) (bytes : Int) (state : State) (current : Move) :
    Except String Move := do
  require (expected.name ≠ "" ∧ expected.uid ≠ "" ∧ expected.resourceVersion ≠ 0 ∧ bytes > 0 ∧
    copy.valid ∧ copy.role = .serving ∧ copy.volumeID = expected.spec.volumeID ∧
    copy.nodeName = expected.spec.sourceNode)
    (errStateConflict ++ ": source usage requires exact Move/copy identity and positive bytes")
  require (current.name = expected.name) "read Move before recording source usage: not found"
  decodeMove current
  require (current.uid = expected.uid ∧ current.resourceVersion = expected.resourceVersion ∧
    current.spec = expected.spec) (errStateConflict ++ ": Move identity, version or spec changed")
  require (¬current.deleting ∧ current.isProtected ∧ ¬current.status.capacityApproved ∧
    current.cleanup = none ∧ ¬current.hasDestinationIntent)
    (errStateConflict ++ ": source usage requires a protected pre-execution Move")
  require (current.spec.protocolVersion = moveProtocolPreparedV1) (errStateConflict ++ ": unsupported Move protocol")
  require (current.status.phase = .waitingForCapacity ∧ current.status.preparation.isSome)
    (errStateConflict ++ ": prepared Move has no waiting reservation")
  validateMovePreparation current
  require (current.status.sourceCopy = some copy) (errStateConflict ++ ": source copy changed")
  require (0 ≤ current.status.sourceBytes ∧ (current.status.sourceBytes > 0 → current.status.sourceBytes = bytes))
    (errStateConflict ++ ": recorded source usage is immutable")
  require (¬state.deleting ∧ ¬state.hasCleanup ∧ state.finalizers.contains volumeProtectionFinalizer ∧
    state.uid = copy.volumeUID ∧ state.phase = .moving ∧ state.ownerNode = current.spec.sourceNode ∧
    state.activeMove = current.name ∧ state.currentCopy = some copy ∧ state.publishedNodes = [])
    (errStateConflict ++ ": source usage no longer has exact quiesced authority")
  if current.status.sourceBytes = bytes then
    return current
  else
    return { current with
      status := { current.status with sourceBytes := bytes }
      resourceVersion := current.resourceVersion + 1 }

/-- A journal write stores the journal and leaves the rest of the status alone; a journal that is already
    recorded is not written again. -/
def Move.setJournal (move : Move) (journal : Journal) : Move :=
  { move with
    cleanup := some journal
    resourceVersion := if move.cleanup = some journal then move.resourceVersion else move.resourceVersion + 1 }

def Move.ensureCleanup (move : Move) (spec : CleanupSpec) : Except String Move := do
  let journal ← move.cleanupParent.ensure spec
  return move.setJournal journal

def Move.updateCleanup (move : Move) (expected : CleanupSpec) (next : CleanupStatus) : Except String Move := do
  let journal ← move.cleanupParent.updateStatus expected next
  return move.setJournal journal

/-- A Move as it is created: protected, prepared-v1, with an empty status. -/
def createMove (name uid volumeID sourceNode : String) : Move where
  name := name
  uid := uid
  resourceVersion := 1
  deleting := false
  finalizers := [moveProtectionFinalizer]
  spec := { protocolVersion := moveProtocolPreparedV1, volumeID, sourceNode, recovery := "" }
  status := .empty
  cleanup := none

end ShiftPV

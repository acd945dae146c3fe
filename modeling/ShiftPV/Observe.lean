import ShiftPV.Fsm
import ShiftPV.Mobility

/-! How a reconcile pass of the mobility controller builds the observation it decides on. The facts that
    come from nodes, Pools, workloads and Jobs enter as a `ClusterFacts`; what is read from the Move and from
    its Volume is computed here. -/

namespace ShiftPV
open Check

structure ClusterFacts where
  facts : Observation
  /-- Eligibility ended on a final diagnosis, so the execution graph was not observed. -/
  diagnosed : Bool

/-- One observation snapshot. `none` is a Volume that is missing, or that the stage does not read. -/
structure Observed where
  volume : Option State
  facts : Observation

def Observation.none : Observation where
  protectionPresent := false
  sourcePlanRecorded := false
  sourceClaimed := false
  sourceMoving := false
  sourceBlocked := false
  preparationReserved := false
  preparationChangedReason := ""
  preparationUnavailable := false
  destinationIntentRecorded := false
  placementAbsent := false
  recoveryRequested := false
  workloadRetired := false
  settlementOnly := false
  recoveryOwnerIsDestination := false
  recoveryUnlockObserved := false
  preconditionsValid := false
  preflightDeferred := false
  unsafeReason := ""
  sourceHealthy := false
  sourceAuthorityInvalid := false
  consumersAmbiguous := false
  publishedOnSource := false
  replacementExists := false
  replacementHeld := false
  placementExists := false
  destinationScheduled := false
  destinationBlocked := false
  destinationUnavailable := false
  capacityApproved := false
  capacityBlocked := false
  copyComplete := false
  copyFailed := false
  promotionComplete := false
  promotionFailed := false
  ownerCommitted := false
  publishedOnDestination := false
  cleanupComplete := false
  cleanupFailed := false
  completionReady := false

/-! ### Facts of the Move and its Volume -/

def recoveryRequested (move : Move) : Bool := move.spec.recovery = "ResumeOwner" || move.status.settlementRequested

def lifecycleFacts (move : Move) (volume : Option State) (facts : Observation) : Observation :=
  { facts with
    protectionPresent := move.isProtected
    sourcePlanRecorded := move.status.sourceCopy.isSome
    sourceClaimed := (volume.map (·.activeMove)).getD "" = move.name
    preparationReserved := move.status.preparation.isSome
    destinationIntentRecorded := !noDestinationEffectIntent move
    capacityApproved := move.status.capacityApproved
    sourceMoving := volume.any (·.phase = .moving)
    sourceBlocked := volume.any (·.phase = .blocked)
    recoveryRequested := recoveryRequested move
    settlementOnly := move.status.settlementRequested
    recoveryOwnerIsDestination := volume.any fun state =>
      state.ownerNode ≠ "" && state.ownerNode = move.status.destinationNode }

def preparationLifecycle (phase : MovePhase) : Bool :=
  match phase with
  | .unset | .pending | .preparing | .startingDisruption | .canceling | .cancelled => true
  | _ => false

def needsRecoveryObservation (move : Move) : Bool :=
  move.status.phase = .blocked && recoveryRequested move && move.status.recoveryPhase ≠ .recovered &&
    (move.status.capacityApproved || !noDestinationEffectIntent move || move.status.recoveryPhase ≠ .unset)

def needsWorkloadLifetime (move : Move) : Bool :=
  move.spec.protocolVersion = moveProtocolPreparedV1 && !move.status.settlementRequested &&
    move.status.recoveryPhase ≠ .recovered && move.status.phase ≠ .succeeded && move.status.phase ≠ .cancelled &&
    move.status.phase ≠ .canceling &&
    (move.status.capacityApproved || !noDestinationEffectIntent move ||
      (move.status.sourceCopy.isSome && move.status.preparation.isSome))

/-! ### Prepared execution -/

def validatePreparedExecutionPlan (move : Move) : Except String Unit := do
  require (move.status.incomingCopy.isSome ∧ move.status.preparation = none ∧ move.status.placementPodUID ≠ "")
    "prepared execution requires the complete approved disk plan"
  match move.status.sourceCopy, move.status.incomingCopy with
  | some source, some incoming => validateMoveTransactionIdentities move (recordedAnchor move.status source incoming)
  | _, _ => throw "prepared execution requires the complete approved disk plan"

/-- Admission facts of the execution graph: without approval only the waiting phases may be observed. -/
def validatePreparedStage (move : Move) : Except String Unit := do
  validatePreparedMovePlan move
  validateMovePreparation move
  if move.status.capacityApproved ∨ ¬noDestinationEffectIntent move then
    validatePreparedExecutionPlan move
  else if move.status.phase = .blocked then
    return
  else
    require (move.status.preparation.isSome ∧ move.isProtected)
      "prepared execution requires its protected durable reservation"
    require (move.status.phase = .waitingForUnpublish ∨ move.status.phase = .waitingForReplacement ∨
      move.status.phase = .waitingForDestination ∨ move.status.phase = .waitingForCapacity)
      ("prepared Move has no execution approval in phase " ++ quoted move.status.phase.text)

/-- The claim whose data the Move carries is gone; `none` means that it is not, or that nobody asks. -/
def observeWorkloadRetirement (move : Move) (state : State) (cluster : ClusterFacts) : Option (Except String Observed) :=
  if ¬needsWorkloadLifetime move ∨ ¬cluster.facts.workloadRetired then
    none
  else
    some do
      if ¬move.status.capacityApproved ∧ noDestinationEffectIntent move then
        cancellablePreparation move
        validateMovePreparation move
        require (state.activeMove = move.name) "retired preparation lost its exact source claim"
        require (state.phase = .ready ∨ state.phase = .moving ∨ state.phase = .blocked)
          "retired preparation has no restorable source"
        cancellationSourceIdentity move state
      else
        validatePreparedStage move
      recordedOwnerIntact move state
      return { volume := some state, facts := { Observation.none with workloadRetired := true } }

/-! ### Cleanup of a Move -/

def moveCleanupAuthority (move : Move) : Authority := { kind := .shiftPVMove, name := move.name, uid := move.uid }

/-- The cleanup of the source copy once the destination owns the volume. -/
def moveCleanupSpec (move : Move) : Except String CleanupSpec :=
  match move.status.sourceCopy with
  | none => throw "move cleanup identity is incomplete"
  | some source => do
    let spec : CleanupSpec := { operationID := moveCleanupOperationID move.uid, target := source, reason := .moveSource
                                authority := moveCleanupAuthority move }
    spec.validate
    return spec

/-- The cleanup of a destination artifact while the source still owns the volume. -/
def moveRollbackSpec (move : Move) (target : CopyIdentity) : CleanupSpec where
  operationID := moveRollbackOperationID move.uid
  target := target
  reason := .moveRollback
  authority := moveCleanupAuthority move

def cleanupCompleted (move : Move) : Bool :=
  match moveCleanupSpec move, move.cleanup with
  | .ok spec, some journal => journal.spec = spec && journal.status.phase = .completed
  | _, _ => false

def cleanupNeedsReview (move : Move) : Bool :=
  match moveCleanupSpec move, move.cleanup with
  | .ok spec, some journal => journal.spec = spec && journal.status.phase = .needsReview
  | _, _ => false

/-! ### Observations by stage -/

def eligibilityFacts (move : Move) (state : State) (cluster : ClusterFacts) : Observation :=
  { Observation.none with
    ownerCommitted := hasCommittedDestinationAuthority move state false
    preconditionsValid := cluster.facts.preconditionsValid
    preflightDeferred := cluster.facts.preflightDeferred
    preparationUnavailable := cluster.facts.preparationUnavailable
    unsafeReason := cluster.facts.unsafeReason
    sourceHealthy := cluster.facts.sourceHealthy
    sourceAuthorityInvalid := cluster.facts.sourceAuthorityInvalid
    consumersAmbiguous := cluster.facts.consumersAmbiguous
    replacementExists := cluster.facts.replacementExists
    replacementHeld := cluster.facts.replacementHeld }

def observeCancellation (move : Move) (volume : Option State) (cluster : ClusterFacts) : Except String Observed := do
  cancellablePreparation move
  require (¬(move.status.phase = .cancelled ∧ move.status.preparation.isSome))
    "cancelled Move still holds a preparation reservation"
  validateMovePreparation move
  cancellationVolume move volume
  let locked := volume.any (·.activeMove = move.name)
  if (move.status.phase = .canceling ∧ ¬locked ∧ move.status.sourceCopy.isSome) ∨
      (locked ∧ volume.any fun state => state.phase = .moving || state.phase = .blocked) then
    return { volume, facts := .none }
  else
    return { volume, facts := { Observation.none with placementAbsent := cluster.facts.placementAbsent } }

def preparationFacts (move : Move) (state : State) (cluster : ClusterFacts) : Observation :=
  { eligibilityFacts move state cluster with
    preparationChangedReason := cluster.facts.preparationChangedReason
    placementExists := cluster.facts.placementExists }

def observePreparation (move : Move) (volume : Option State) (cluster : ClusterFacts) : Except String Observed := do
  require (¬move.status.capacityApproved ∧ noDestinationEffectIntent move ∧ move.cleanupPhase = .unset ∧
    move.status.rollbackRequiredGeneration = 0) "preparation cannot run with destination execution authority"
  validateMovePreparation move
  if move.deleting ∧ move.status.phase ≠ .startingDisruption then
    return { volume := none, facts := { Observation.none with preparationChangedReason := "MoveDeleting" } }
  else if ¬move.isProtected then
    return { volume := none, facts := .none }
  else
    match volume with
    | none => throw "get ShiftPVVolume: not found"
    | some state =>
      match observeWorkloadRetirement move state cluster with
      | some retired => retired
      | none =>
        if move.status.phase = .startingDisruption ∧ state.phase = .blocked ∧ state.activeMove = move.name then
          -- the Volume was fenced before the Move status was recorded
          cancellationSourceIdentity move state
          return { volume, facts := { eligibilityFacts move state cluster with preparationChangedReason := "SourceBlocked" } }
        else
          preparationSourceAuthority move state
          require (move.status.preparation.isSome → state.activeMove = move.name ∨
            move.deleting ∨ cluster.facts.preparationChangedReason ≠ "")
            "preparation reservation lost its source claim"
          if move.deleting then
            return { volume, facts := { eligibilityFacts move state cluster with preparationChangedReason := "MoveDeleting" } }
          else
            return { volume, facts := preparationFacts move state cluster }

/-- The execution graph: Jobs, placement and publication, next to the persisted Move status. -/
def executionFacts (move : Move) (state : State) (cluster : ClusterFacts) : Observation :=
  let capacityBlocked := move.status.capacityReason ≠ "" && !move.status.capacityApproved
  let cleaning := move.status.phase = .waitingForDestinationPublish || move.status.phase = .cleaningSource
  { cluster.facts with
    completionReady := false
    workloadRetired := false
    recoveryUnlockObserved := false
    placementAbsent := false
    preparationChangedReason := ""
    ownerCommitted := hasCommittedDestinationAuthority move state false
    publishedOnSource := state.publishedNodes.contains move.spec.sourceNode
    capacityBlocked
    unsafeReason := reasonOr cluster.facts.unsafeReason (if capacityBlocked then move.status.capacityReason else "")
    publishedOnDestination := cluster.facts.publishedOnDestination &&
      state.publishedNodes.contains move.status.destinationNode
    -- the executor of a completed cleanup has to be gone as well
    cleanupComplete := cleaning && cleanupCompleted move && cluster.facts.cleanupComplete
    cleanupFailed := cleaning && cleanupNeedsReview move }

def observeExecution (move : Move) (volume : Option State) (cluster : ClusterFacts) : Except String Observed :=
  match volume with
  | none => do
    require (completionAllowed move none) "get ShiftPVVolume: not found"
    return { volume, facts := { Observation.none with completionReady := true } }
  | some state =>
    if move.status.phase = .completing then
      return { volume, facts := { Observation.none with completionReady := completionAllowed move volume } }
    else if state.phase = .blocked ∧ matchesCommittedDestinationIdentity move state false ∧
        (move.status.phase = .waitingForDestinationPublish ∨ move.status.phase = .cleaningSource) ∧
        cleanupNeedsReview move then
      return { volume, facts := { Observation.none with cleanupFailed := true } }
    else
      match observeWorkloadRetirement move state cluster with
      | some retired => retired
      | none =>
        if cluster.diagnosed then return { volume, facts := eligibilityFacts move state cluster }
        else return { volume, facts := executionFacts move state cluster }

/-- Before approval a changed preparation is reported with the observation. -/
def preparedExecutionChanged (move : Move) (cluster : ClusterFacts) (observed : Observed) : Observed :=
  if move.status.capacityApproved ∨ ¬noDestinationEffectIntent move then
    observed
  else
    { observed with facts := { observed.facts with
        preparationChangedReason := if move.deleting then "MoveDeleting" else cluster.facts.preparationChangedReason
        preparationUnavailable := !move.deleting && cluster.facts.preparationUnavailable } }

/-! ### Recovery -/

def Journal.validateSettled (journal : Journal) : Except String Unit := do
  journal.spec.validate
  require (journal.status.phase = .completed ∧ validPurgedReceipt journal.spec journal.status ∧
    validAbsenceFence journal.spec.target journal.status.absenceProof ∧
    confirmedAbsence journal.status.absenceProof ∧ journal.status.settledAt.parses)
    (errConflict ++ ": completed cleanup proof is invalid")

def validateTransaction (move : Move) : Except String Unit :=
  match move.status.sourceCopy, move.status.incomingCopy with
  | some source, some incoming => do
    require (move.status.sourceBytes > 0 ∧ move.status.destinationNode ≠ move.spec.sourceNode ∧
      move.status.destinationPoolUID ≠ source.poolUID) "Move history lacks its exact destination transaction"
    validateMoveTransactionIdentities move (recordedAnchor move.status source incoming)
  | _, _ => throw "Move history lacks its exact destination transaction"

def validateJournal (move : Move) (expected : CleanupSpec) : Except String Unit :=
  match move.cleanup with
  | none => throw "Move history lacks a completed cleanup journal"
  | some journal => do
    require (journal.spec = expected) "cleanup journal does not match the exact Move transaction"
    journal.validateSettled

def validateRecoveryArtifacts (move : Move) : Except String Unit := do
  require (¬move.status.capacityApproved ∧ move.status.capacityReason = "RecoverySettled")
    "Move capacity settlement is incomplete"
  whenever move.status.settlementRequested (validateTransaction move)
  if move.status.recoveryOwner = move.spec.sourceNode ∧ noDestinationEffectIntent move then
    require (move.cleanup = none ∧ move.status.rollbackRequiredGeneration = 0)
      "recovered Move needs independent rollback absence evidence"
  else
    validateTransaction move
    if move.status.recoveryOwner = move.status.destinationNode then
      let spec ← moveCleanupSpec move
      validateJournal move spec
    else
      require (move.status.recoveryOwner = move.spec.sourceNode)
        "Move recovery owner is neither transaction endpoint"
      require (move.status.rollbackRequiredGeneration > 0)
        "recovered Move lacks recorded rollback completion evidence"
      match move.cleanup with
      | none => return
      | some journal =>
        require (move.status.incomingCopy = some journal.spec.target ∨
          move.status.destinationCopy = some journal.spec.target) "rollback cleanup targets another transaction copy"
        validateJournal move (moveRollbackSpec move journal.spec.target)
        require (journal.status.absenceProof.any fun proof =>
          proof.requiredGeneration ≥ move.status.rollbackRequiredGeneration)
          "rollback cleanup proof predates the rollback fence"

def validateSettlementCompletion (move : Move) : Except String Unit := do
  require (move.status.settlementRequested ∧ move.status.phase = .blocked ∧ move.status.recoveryPhase = .completing ∧
    move.status.preparation = none) "Move is not completing workload retirement"
  validatePreparedMovePlan move
  validateRecoveryArtifacts move

/-- The Volume a settlement has already released, or that is gone; `none` while this Move still holds it. -/
def observeSettlementRelease (move : Move) (volume : Option State) : Option (Except String Observed) :=
  let closed (volume : Option State) : Except String Observed := do
    validateSettlementCompletion move
    return { volume, facts := .none }
  match volume with
  | none => some (closed none)
  | some state =>
    if state.activeMove = move.name then
      none
    else
      some do
        require (state.activeMove = "" ∧ state.ownerNode = move.status.recoveryOwner)
          "settlement release has conflicting Volume authority"
        recordedOwnerIntact move state
        require ((state.phase = .ready ∧ ¬state.deleting ∧ ¬state.hasCleanup) ∨
          (state.phase = .deleting ∧ state.deletionOperationID = deletionOperationID state.uid))
          "settlement release has no accepted unlock or exact deletion fence"
        closed volume

def observeServiceRecovery (move : Move) (volume : Option State) : Except String Observed :=
  match volume with
  | none => throw "get ShiftPVVolume: not found"
  | some state =>
    if move.status.recoveryPhase = .completing ∧ state.phase = .ready ∧ state.activeMove = "" ∧
        state.ownerNode = move.status.recoveryOwner then do
      recordedOwnerIntact move state
      return { volume, facts := { Observation.none with recoveryUnlockObserved := true } }
    else do
      recoveryGuards move state
      return { volume, facts := .none }

def observeRecovery (move : Move) (volume : Option State) : Except String Observed :=
  if move.status.settlementRequested ∧ move.status.recoveryPhase = .completing then
    (observeSettlementRelease move volume).getD (observeServiceRecovery move volume)
  else
    observeServiceRecovery move volume

def observeBlockedLifecycle (move : Move) (volume : Option State) (cluster : ClusterFacts) : Except String Observed := do
  require (needsWorkloadLifetime move → volume.isSome) "get ShiftPVVolume: not found"
  match volume.bind fun state => observeWorkloadRetirement move state cluster with
  | some retired => retired
  | none =>
    if needsRecoveryObservation move then observeRecovery move volume
    else return { volume := none, facts := .none }

def observeLifecycle (move : Move) (volume : Option State) (cluster : ClusterFacts) : Except String Observed :=
  match move.status.phase with
  | .succeeded => return { volume := none, facts := .none }
  | .canceling | .cancelled => observeCancellation move volume cluster
  | .blocked =>
    if move.status.recoveryPhase = .recovered then return { volume := none, facts := .none }
    else observeBlockedLifecycle move volume cluster
  | .unset | .pending | .preparing | .startingDisruption => observePreparation move volume cluster
  | _ => do
    validatePreparedStage move
    let observed ← observeExecution move volume cluster
    return preparedExecutionChanged move cluster observed

def Observed.decide (observed : Observed) (move : Move) : Except String Decision := do
  let decision ← decideMove { phase := move.status.phase, recoveryPhase := move.status.recoveryPhase }
    (lifecycleFacts move observed.volume observed.facts)
  whenever (decision.next.phase = .canceling) (cancellablePreparation move)
  return decision

end ShiftPV

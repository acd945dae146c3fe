import ShiftPV.Move

/-! The decision model of a Move. One pure function selects the next lifecycle step from the recorded
    phase and one observation; it names the action to run and the state to record once it completed. -/

namespace ShiftPV
open Check

def MovePhase.text : MovePhase → String
  | .unset => ""
  | .pending => "Pending"
  | .preparing => "Preparing"
  | .startingDisruption => "StartingDisruption"
  | .canceling => "Canceling"
  | .cancelled => "Cancelled"
  | .waitingForUnpublish => "WaitingForUnpublish"
  | .waitingForReplacement => "WaitingForReplacement"
  | .waitingForDestination => "WaitingForDestination"
  | .waitingForCapacity => "WaitingForCapacity"
  | .copying => "Copying"
  | .promoting => "Promoting"
  | .committing => "Committing"
  | .releasingDestination => "ReleasingDestination"
  | .waitingForDestinationPublish => "WaitingForDestinationPublish"
  | .cleaningSource => "CleaningSource"
  | .completing => "Completing"
  | .succeeded => "Succeeded"
  | .blocked => "Blocked"

inductive Action where
  | wait | ensurePlacement | ensureCapacity | deletePlacement | releasePlacement | ensureCopy | ensurePromotion
  | commitOwner | ensureCleanup | confirmCleanup | markSucceeded | markBlocked | protectMove | initializePreparation
  | claimSource | reservePreparation | startDisruption | restoreSource | releasePreparation | releaseSource
  | finalizeHistory | finalizeSourceUsage | beginRecovery | quiesceRecovery | verifyRecovery | retireRecovery
  | resumeRecovery | completeRecovery | requestSettlement
  deriving DecidableEq

/-- The phase of the transaction, kept while recovery settles its owner. -/
structure LifecycleState where
  phase : MovePhase
  recoveryPhase : RecoveryPhase

structure Observation where
  workloadRetired : Bool
  settlementOnly : Bool
  protectionPresent : Bool
  sourcePlanRecorded : Bool
  sourceClaimed : Bool
  preparationReserved : Bool
  preparationChangedReason : String
  preparationUnavailable : Bool
  sourceMoving : Bool
  sourceBlocked : Bool
  placementAbsent : Bool
  destinationIntentRecorded : Bool
  recoveryRequested : Bool
  recoveryOwnerIsDestination : Bool
  recoveryUnlockObserved : Bool
  preconditionsValid : Bool
  preflightDeferred : Bool
  unsafeReason : String
  sourceHealthy : Bool
  sourceAuthorityInvalid : Bool
  consumersAmbiguous : Bool
  publishedOnSource : Bool
  replacementExists : Bool
  replacementHeld : Bool
  placementExists : Bool
  destinationScheduled : Bool
  destinationBlocked : Bool
  destinationUnavailable : Bool
  capacityApproved : Bool
  capacityBlocked : Bool
  copyComplete : Bool
  copyFailed : Bool
  promotionComplete : Bool
  promotionFailed : Bool
  ownerCommitted : Bool
  publishedOnDestination : Bool
  cleanupComplete : Bool
  cleanupFailed : Bool
  completionReady : Bool

structure Decision where
  next : LifecycleState
  action : Action
  reason : String

/-! ### Transitions -/

def allowedTransitions : MovePhase → List MovePhase
  | .pending => [.pending, .preparing, .blocked, .canceling]
  | .preparing => [.preparing, .startingDisruption, .canceling]
  | .startingDisruption => [.startingDisruption, .waitingForUnpublish, .canceling, .blocked]
  | .canceling => [.canceling, .cancelled]
  | .cancelled => [.cancelled]
  | .waitingForUnpublish => [.waitingForUnpublish, .waitingForReplacement, .blocked, .canceling]
  | .waitingForReplacement => [.waitingForReplacement, .waitingForDestination, .blocked, .canceling]
  | .waitingForDestination => [.waitingForDestination, .waitingForCapacity, .blocked, .canceling]
  | .waitingForCapacity => [.waitingForCapacity, .copying, .blocked, .canceling]
  | .copying => [.copying, .promoting, .blocked]
  | .promoting => [.promoting, .committing, .blocked]
  | .committing => [.committing, .releasingDestination, .blocked]
  | .releasingDestination => [.releasingDestination, .waitingForDestinationPublish, .blocked]
  | .waitingForDestinationPublish => [.waitingForDestinationPublish, .cleaningSource, .blocked]
  | .cleaningSource => [.cleaningSource, .completing, .blocked]
  | .completing => [.completing, .succeeded]
  | .succeeded => [.succeeded]
  | .blocked => [.blocked, .canceling]
  | .unset => []

def knownPhase (phase : MovePhase) : Bool := phase ≠ .unset

def terminalPhase (phase : MovePhase) : Bool := phase = .succeeded || phase = .cancelled

def validateTransition (source target : MovePhase) : Except String Unit := do
  require (knownPhase source ∧ knownPhase target)
    ("transition contains unknown phase: " ++ quoted source.text ++ " -> " ++ quoted target.text)
  require (terminalPhase source → source = target)
    ("terminal phase " ++ quoted source.text ++ " cannot transition to " ++ quoted target.text)
  require (target ∈ allowedTransitions source)
    ("illegal mobility transition " ++ quoted source.text ++ " -> " ++ quoted target.text)

def transition (source target : MovePhase) (action : Action) (reason : String) : Except String Decision := do
  validateTransition source target
  return { next := { phase := target, recoveryPhase := .unset }, action, reason }

def reasonOr (value fallback : String) : String := if value ≠ "" then value else fallback

def beforeExecutionApproval (o : Observation) : Bool := !o.capacityApproved && !o.destinationIntentRecorded

/-- `StartingDisruption` is a durable intent; a blocked Move has no recorded earlier phase. -/
def disruptionPossible (phase : MovePhase) : Bool := phase ≠ .unset && phase ≠ .pending && phase ≠ .preparing

def beforeCommit : MovePhase → Bool
  | .pending | .waitingForUnpublish | .waitingForReplacement | .waitingForDestination | .waitingForCapacity
  | .copying | .promoting | .committing => true
  | _ => false

def blockedDecision (reason : String) : Decision :=
  { next := { phase := .blocked, recoveryPhase := .unset }, action := .markBlocked, reason }

/-- Failing closed; before approval and before disruption the Move is cancelled instead. -/
def blockedWith (current : MovePhase) (o : Observation) (fallback : String) : Decision :=
  if beforeExecutionApproval o ∧ ¬disruptionPossible current then
    { next := { phase := .canceling, recoveryPhase := .unset }, action := .wait
      reason := reasonOr o.unsafeReason fallback }
  else
    blockedDecision (reasonOr o.unsafeReason fallback)

def preparationChanged (current : MovePhase) (o : Observation) : Except String Decision :=
  if disruptionPossible current ∧ o.preparationUnavailable ∧ ¬o.sourceAuthorityInvalid then
    transition current current .wait o.preparationChangedReason
  else
    return blockedWith current { o with unsafeReason := o.preparationChangedReason } "PreparationChanged"

/-! ### State validation -/

def validatePreparationEvidence (phase : MovePhase) (o : Observation) : Except String Unit := do
  require (¬(phase = .pending ∧ (o.capacityApproved ∨ o.destinationIntentRecorded)))
    "pending preparation cannot carry destination execution authority"
  require (¬(phase = .cancelled ∧ o.preparationReserved)) "cancelled Move still holds its preparation reservation"

def validateState (current : LifecycleState) (o : Observation) : Except String Unit := do
  require (knownPhase current.phase) ("unknown mobility phase " ++ quoted current.phase.text)
  require (current.recoveryPhase ≠ .unset → current.phase = .blocked) "invalid recovery state"
  require (current.phase = .preparing ∨ current.phase = .startingDisruption ∨ current.phase = .canceling ∨
    current.phase = .cancelled → ¬(o.capacityApproved ∨ o.destinationIntentRecorded))
    ("phase " ++ quoted current.phase.text ++ " cannot release destination execution authority")
  validatePreparationEvidence current.phase o

def validateReservedSource (o : Observation) : Except String Unit :=
  require (o.preparationReserved → o.sourcePlanRecorded ∧ o.sourceClaimed)
    "preparation reservation lost its recorded source claim"

/-! ### Lifecycle decisions -/

def canCancelRetiredPreparation (current : LifecycleState) (o : Observation) : Bool :=
  o.workloadRetired && beforeExecutionApproval o && current.phase ≠ .canceling && current.phase ≠ .cancelled &&
    current.phase ≠ .succeeded && current.recoveryPhase = .unset

def canRequestSettlement (current : LifecycleState) (o : Observation) : Bool :=
  o.workloadRetired && current.recoveryPhase ≠ .recovered && !beforeExecutionApproval o &&
    current.phase ≠ .succeeded && current.phase ≠ .cancelled && current.phase ≠ .canceling

def decidePreparation (current : MovePhase) (o : Observation) : Except String Decision := do
  validateReservedSource o
  if ¬o.protectionPresent then
    transition current current .protectMove ""
  else if o.sourceAuthorityInvalid then
    return blockedWith current o "SourceAuthorityInvalid"
  else if ¬o.sourceHealthy ∨ ¬o.preconditionsValid ∨ o.preflightDeferred then
    if o.preparationReserved then
      return blockedWith current o "PreparationChanged"
    else
      transition current current (if o.placementExists then .deletePlacement else .wait)
        (reasonOr o.unsafeReason "PreparationDeferred")
  else if ¬o.sourcePlanRecorded then
    transition current .preparing .initializePreparation ""
  else if current = .pending then
    transition current .preparing .wait ""
  else if ¬o.sourceClaimed then
    transition current current .claimSource ""
  else if ¬o.preparationReserved then
    transition current current .reservePreparation ""
  else
    -- a durable intent; nothing is evicted in this pass
    transition current .startingDisruption .wait ""

def decideStartingDisruption (current : MovePhase) (o : Observation) : Except String Decision := do
  require (o.protectionPresent ∧ o.sourcePlanRecorded ∧ o.sourceClaimed ∧ o.preparationReserved)
    "disruption requires the protected plan, source claim and reservation"
  if o.sourceAuthorityInvalid then
    return blockedWith current o "SourceAuthorityInvalid"
  else if ¬o.sourceHealthy ∨ o.preflightDeferred then
    transition current current .wait (reasonOr o.unsafeReason "PreparationUnavailable")
  else if o.replacementExists ∧ ¬o.replacementHeld then
    return blockedWith current o "UnexpectedConsumerPlacement"
  else
    transition current .waitingForUnpublish .startDisruption ""

def decideCancellation (current : LifecycleState) (o : Observation) : Except String Decision := do
  validateReservedSource o
  if current.phase = .canceling ∧ o.sourcePlanRecorded ∧ ¬o.sourceClaimed then
    return { next := current, action := .claimSource, reason := "" }
  else if o.sourceClaimed ∧ (o.sourceMoving ∨ o.sourceBlocked) then
    return { next := current, action := .restoreSource, reason := "" }
  else if ¬o.placementAbsent then
    return { next := current, action := .deletePlacement, reason := "" }
  else if current.phase = .canceling then
    -- the hold goes in the same write that records the terminal phase, before the claim is cleared
    transition current.phase .cancelled .releasePreparation ""
  else if o.sourceClaimed then
    return { next := current, action := .releaseSource, reason := "" }
  else
    return { next := current, action := .finalizeHistory, reason := "" }

def decideRecovery (current : LifecycleState) (o : Observation) : Except String Decision :=
  let advance (recoveryPhase : RecoveryPhase) (action : Action) : Except String Decision :=
    return { next := { current with recoveryPhase }, action, reason := "" }
  match current.recoveryPhase with
  | .unset => advance .quiescing .beginRecovery
  | .quiescing => advance .verifying .quiesceRecovery
  | .verifying =>
    advance (if o.recoveryOwnerIsDestination ∧ ¬o.settlementOnly then .resuming else .retiring) .verifyRecovery
  | .retiring =>
    advance (if o.recoveryOwnerIsDestination ∨ o.settlementOnly then .completing else .resuming) .retireRecovery
  | .resuming => advance (if o.recoveryOwnerIsDestination then .retiring else .completing) .resumeRecovery
  | .completing => advance .recovered (if o.recoveryUnlockObserved then .wait else .completeRecovery)
  | .recovered => throw "unknown recovery phase \"Recovered\""

def decideBlocked (current : LifecycleState) (o : Observation) : Except String Decision :=
  if current.recoveryPhase = .recovered then
    return { next := current, action := .finalizeHistory, reason := "" }
  else if beforeExecutionApproval o ∧ current.recoveryPhase = .unset then
    return { next := current, action := .finalizeSourceUsage, reason := "" }
  else if o.recoveryRequested then
    decideRecovery current o
  else
    return { next := current, action := .finalizeSourceUsage, reason := "" }

/-- Lifecycle routing comes before the execution phases; `none` hands over to them. -/
def decideLifecycle (current : LifecycleState) (o : Observation) : Option (Except String Decision) :=
  if canCancelRetiredPreparation current o then
    some do
      require (¬o.sourceAuthorityInvalid ∧ o.sourcePlanRecorded ∧ o.sourceClaimed ∧ o.preparationReserved)
        "retired preparation requires its exact reserved source authority"
      transition current.phase .canceling .wait "WorkloadRetired"
  else if canRequestSettlement current o then
    some (return { next := { phase := .blocked, recoveryPhase := .unset }, action := .requestSettlement
                   reason := "WorkloadRetired" })
  else if current.phase = .succeeded then
    some (return { next := current, action := .finalizeHistory, reason := "" })
  else if current.phase = .canceling ∨ current.phase = .cancelled then
    some (decideCancellation current o)
  else if current.phase = .blocked then
    some (decideBlocked current o)
  else if beforeExecutionApproval o ∧ o.preparationChangedReason ≠ "" then
    some (preparationChanged current.phase o)
  else if current.phase = .pending ∨ current.phase = .preparing then
    some (decidePreparation current.phase o)
  else if current.phase = .startingDisruption then
    some (decideStartingDisruption current.phase o)
  else
    none

/-! ### Guards of the execution phases

    A guard that fires owns the decision; `none` lets the next one look. -/

/-- `Completing` answers only to durable completion evidence. -/
def lifecycleGuard (current : MovePhase) (o : Observation) : Option (Except String Decision) :=
  if current ≠ .completing then none
  else if o.completionReady then some (transition current .succeeded .markSucceeded "")
  else some (transition current current .wait "CompletionAuthorityMismatch")

/-- A source that can no longer back the transaction fails it closed. -/
def authorityGuard (current : MovePhase) (o : Observation) : Option (Except String Decision) :=
  if o.sourceAuthorityInvalid then
    some (return blockedWith current o "SourceAuthorityInvalid")
  else if beforeCommit current ∧ ¬o.ownerCommitted ∧ ¬o.sourceHealthy then
    if beforeExecutionApproval o ∧ disruptionPossible current then
      some (transition current current .wait (reasonOr o.unsafeReason "SourceUnavailable"))
    else
      some (return blockedWith current o "SourceUnavailable")
  else
    none

def destinationGuard (current : MovePhase) (o : Observation) : Option (Except String Decision) :=
  if o.destinationUnavailable then some (transition current current .wait "DestinationUnavailable")
  else if o.destinationBlocked then some (return blockedWith current o "InvalidDestination")
  else none

def placementGuard (current : MovePhase) (o : Observation) : Option (Except String Decision) :=
  if ¬o.placementExists ∨ ¬o.destinationScheduled then some (transition current current .ensurePlacement "")
  else none

def consumerGuard (current : MovePhase) (o : Observation) : Option (Except String Decision) :=
  if o.consumersAmbiguous ∧ ¬o.ownerCommitted then some (transition current current .wait "MultipleConsumers")
  else none

/-! ### Execution decisions -/

def decideWaitingForUnpublish (current : MovePhase) (o : Observation) : Except String Decision :=
  if o.publishedOnSource then transition current current .wait ""
  else transition current .waitingForReplacement .wait ""

def decideWaitingForReplacement (current : MovePhase) (o : Observation) : Except String Decision :=
  if ¬o.replacementExists then transition current current .wait ""
  else if ¬o.replacementHeld then return blockedWith current o "PlacementHoldLost"
  else transition current .waitingForDestination .ensurePlacement ""

def decideWaitingForDestination (current : MovePhase) (o : Observation) : Except String Decision :=
  -- no placement exists yet, so an unavailable destination is not a wait condition here
  if o.destinationBlocked then return blockedWith current o "DestinationUnavailable"
  else if ¬o.replacementExists then transition current current .wait ""
  else if ¬o.replacementHeld then return blockedWith current o "PlacementHoldLost"
  else if ¬o.destinationScheduled then transition current current .ensurePlacement ""
  else if o.destinationUnavailable then transition current .waitingForCapacity .wait "DestinationUnavailable"
  else transition current .waitingForCapacity .wait ""

def decideWaitingForCapacity (current : MovePhase) (o : Observation) : Except String Decision :=
  ((destinationGuard current o).or (consumerGuard current o)).getD <|
    if o.capacityBlocked then
      -- the reason was persisted by an earlier probe; free space may approve the same reservation
      transition current current .ensureCapacity (reasonOr o.unsafeReason "DestinationCapacityInsufficient")
    else if o.capacityApproved then transition current .copying .ensureCopy ""
    else transition current current .ensureCapacity ""

def decideCopying (current : MovePhase) (o : Observation) : Except String Decision :=
  (destinationGuard current o).getD <|
    if o.copyFailed then return blockedWith current { o with unsafeReason := "" } "CopyFailed"
    else ((consumerGuard current o).or (placementGuard current o)).getD <|
      if o.copyComplete then transition current .promoting .ensurePromotion ""
      else transition current current .ensureCopy ""

def decidePromoting (current : MovePhase) (o : Observation) : Except String Decision :=
  if o.ownerCommitted then
    -- the owner write may have succeeded before its phase was recorded
    transition current .committing .commitOwner ""
  else (destinationGuard current o).getD <|
    if o.promotionFailed then return blockedWith current { o with unsafeReason := "" } "PromotionFailed"
    else ((consumerGuard current o).or (placementGuard current o)).getD <|
      if o.promotionComplete then transition current .committing .commitOwner ""
      else transition current current .ensurePromotion ""

def decideCommitting (current : MovePhase) (o : Observation) : Except String Decision :=
  if o.ownerCommitted then
    -- authority already moved: a blocked destination can no longer invalidate it
    if o.destinationUnavailable then transition current current .wait "DestinationUnavailable"
    else transition current .releasingDestination .deletePlacement ""
  else (((destinationGuard current o).or (consumerGuard current o)).or (placementGuard current o)).getD <|
    transition current current .commitOwner ""

def decideReleasingDestination (current : MovePhase) (o : Observation) : Except String Decision :=
  if o.destinationUnavailable then transition current current .wait "DestinationUnavailable"
  else if o.placementExists then transition current current .deletePlacement ""
  else if o.replacementExists ∧ o.replacementHeld then
    transition current .waitingForDestinationPublish .releasePlacement ""
  else
    transition current .waitingForDestinationPublish .wait
      (if o.consumersAmbiguous ∧ ¬o.publishedOnDestination then "MultipleConsumers" else "")

def decideWaitingForDestinationPublish (current : MovePhase) (o : Observation) : Except String Decision :=
  if o.cleanupFailed then return blockedWith current { o with unsafeReason := "" } "CleanupFailed"
  else if o.destinationUnavailable then transition current current .wait "DestinationUnavailable"
  else if o.replacementExists ∧ o.replacementHeld then transition current current .releasePlacement ""
  else if ¬o.publishedOnDestination then
    transition current current .wait (if o.consumersAmbiguous then "MultipleConsumers" else "")
  else transition current .cleaningSource .ensureCleanup ""

def decideCleaningSource (current : MovePhase) (o : Observation) : Except String Decision :=
  if o.destinationUnavailable then transition current current .wait "DestinationUnavailable"
  else if o.cleanupFailed then return blockedWith current { o with unsafeReason := "" } "CleanupFailed"
  else if o.replacementExists ∧ o.replacementHeld then transition current current .releasePlacement ""
  else if o.cleanupComplete then transition current .completing .confirmCleanup ""
  else transition current current .ensureCleanup ""

/-- The rule of an execution phase, after the guards that own every phase. -/
def decidePhase (current : MovePhase) (o : Observation) : Except String Decision :=
  match current with
  | .waitingForUnpublish => decideWaitingForUnpublish current o
  | .waitingForReplacement => decideWaitingForReplacement current o
  | .waitingForDestination => decideWaitingForDestination current o
  | .waitingForCapacity => decideWaitingForCapacity current o
  | .copying => decideCopying current o
  | .promoting => decidePromoting current o
  | .committing => decideCommitting current o
  | .releasingDestination => decideReleasingDestination current o
  | .waitingForDestinationPublish => decideWaitingForDestinationPublish current o
  | .cleaningSource => decideCleaningSource current o
  | _ => throw ("mobility phase " ++ quoted current.text ++ " has no decision rule")

def decideExecution (current : MovePhase) (o : Observation) : Except String Decision :=
  ((lifecycleGuard current o).or (authorityGuard current o)).getD (decidePhase current o)

/-- A Move without a phase is a pending one. -/
def LifecycleState.normalized (s : LifecycleState) : LifecycleState :=
  if s.phase = .unset ∧ s.recoveryPhase = .unset then { s with phase := .pending } else s

def decideMove (state : LifecycleState) (o : Observation) : Except String Decision := do
  let current := state.normalized
  validateState current o
  match decideLifecycle current o with
  | some decision => decision
  | none =>
    let decision ← decideExecution current.phase o
    validateTransition current.phase decision.next.phase
    return decision

end ShiftPV

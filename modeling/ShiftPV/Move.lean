import ShiftPV.Cleanup

/-! The ShiftPVMove record: one transaction that moves a volume, its recorded plan, its capacity hold
    and the identities derived from its UID. -/

namespace ShiftPV
open Check

/-! ### The record -/

inductive MovePhase where
  | unset | pending | preparing | startingDisruption | canceling | cancelled | waitingForUnpublish
  | waitingForReplacement | waitingForDestination | waitingForCapacity | copying | promoting | committing
  | releasingDestination | waitingForDestinationPublish | cleaningSource | completing | succeeded | blocked
  deriving DecidableEq

inductive RecoveryPhase where
  | unset | quiescing | verifying | retiring | resuming | completing | recovered
  deriving DecidableEq

structure MoveSpec where
  protocolVersion : String
  volumeID : String
  sourceNode : String
  recovery : String
  deriving DecidableEq

/-- The logical hold of a Move on its destination Pool, before execution is approved. -/
structure MovePreparation where
  pool : PoolReference
  nodeName : String
  reservedBytes : Int
  deriving DecidableEq

structure MoveStatus where
  preparation : Option MovePreparation
  persistentVolumeName : String
  persistentVolumeUID : String
  claimNamespace : String
  claimName : String
  claimUID : String
  consumerName : String
  consumerUID : String
  placementPodUID : String
  phase : MovePhase
  reason : String
  destinationNode : String
  destinationPoolUID : String
  sourceBytes : Int
  capacityApproved : Bool
  capacityReason : String
  candidateNodes : List String
  copyJobName : String
  promotionJobName : String
  copyOperationID : String
  promotionOperationID : String
  sourceCopy : Option CopyIdentity
  incomingCopy : Option CopyIdentity
  destinationCopy : Option CopyIdentity
  rollbackRequiredGeneration : Int
  settlementRequested : Bool
  recoveryPhase : RecoveryPhase
  recoveryOwner : String
  deriving DecidableEq

structure Move where
  name : String
  uid : String
  resourceVersion : Nat
  deleting : Bool
  finalizers : List String
  spec : MoveSpec
  status : MoveStatus
  cleanup : Option Journal
  deriving DecidableEq

def moveProtectionFinalizer : String := "shiftpv.io/move-protection"

def moveProtocolPreparedV1 : String := "prepared-v1"

def MoveStatus.empty : MoveStatus where
  preparation := none
  persistentVolumeName := ""
  persistentVolumeUID := ""
  claimNamespace := ""
  claimName := ""
  claimUID := ""
  consumerName := ""
  consumerUID := ""
  placementPodUID := ""
  phase := .unset
  reason := ""
  destinationNode := ""
  destinationPoolUID := ""
  sourceBytes := 0
  capacityApproved := false
  capacityReason := ""
  candidateNodes := []
  copyJobName := ""
  promotionJobName := ""
  copyOperationID := ""
  promotionOperationID := ""
  sourceCopy := none
  incomingCopy := none
  destinationCopy := none
  rollbackRequiredGeneration := 0
  settlementRequested := false
  recoveryPhase := .unset
  recoveryOwner := ""

/-- The cleanup phase a Move reports, decoded from its embedded journal. -/
def Move.cleanupPhase (move : Move) : CleanupPhase :=
  match move.cleanup with
  | none => .unset
  | some journal => journal.status.phase

def Move.isProtected (move : Move) : Bool := move.finalizers.contains moveProtectionFinalizer

def Move.cleanupParent (move : Move) : CleanupParent where
  authority := { kind := .shiftPVMove, name := move.name, uid := move.uid }
  isProtected := move.isProtected
  cleanup := move.cleanup

/-! ### Transaction identities -/

def moveCopyIDs (moveUID : String) : String × String :=
  ("move-" ++ moveUID ++ "-incoming", "move-" ++ moveUID ++ "-serving")

def moveCopyOperationID (moveUID : String) : String := "copy-" ++ moveUID

def movePromotionOperationID (moveUID : String) : String := "promote-" ++ moveUID

def moveCleanupOperationID (moveUID : String) : String := "cleanup-" ++ moveUID

def moveRollbackOperationID (moveUID : String) : String := "rollback-" ++ moveUID

/-- The destination binding the transaction copies are derived from. -/
structure MoveDestinationAnchor where
  installationID : String
  poolName : String
  poolUID : String
  nodeName : String
  volumeUID : String

/-- The incoming and destination serving copies that the Move `moveUID` owns under `anchor`. -/
def moveTransactionCopies (moveUID volumeID : String) (anchor : MoveDestinationAnchor) :
    CopyIdentity × CopyIdentity :=
  let copy (copyID : String) (role : CopyRole) : CopyIdentity :=
    { installationID := anchor.installationID, poolName := anchor.poolName, poolUID := anchor.poolUID
      volumeID, volumeUID := anchor.volumeUID, copyID, nodeName := anchor.nodeName, role }
  (copy (moveCopyIDs moveUID).1 .incoming, copy (moveCopyIDs moveUID).2 .serving)

def moveIdentityMismatch (term : String) : String :=
  "Move " ++ term ++ " does not match the exact transaction identity"

def CopyIdentity.difference (observed expected : CopyIdentity) : Option String :=
  if observed.installationID ≠ expected.installationID then some "InstallationID"
  else if observed.poolName ≠ expected.poolName then some "PoolName"
  else if observed.poolUID ≠ expected.poolUID then some "PoolUID"
  else if observed.volumeID ≠ expected.volumeID then some "VolumeID"
  else if observed.volumeUID ≠ expected.volumeUID then some "VolumeUID"
  else if observed.copyID ≠ expected.copyID then some "CopyID"
  else if observed.nodeName ≠ expected.nodeName then some "NodeName"
  else if observed.role ≠ expected.role then some "Role"
  else none

def matchMoveCopy (name : String) (observed expected : CopyIdentity) : Except String Unit :=
  match observed.difference expected with
  | some field => throw (moveIdentityMismatch (name ++ "." ++ field))
  | none => return

def validateMoveTransactionIdentities (move : Move) (anchor : MoveDestinationAnchor) : Except String Unit := do
  require (validIdentityToken move.uid) (moveIdentityMismatch "UID")
  match move.status.incomingCopy, move.status.destinationCopy with
  | some incoming, some destination =>
    require incoming.valid (moveIdentityMismatch "IncomingCopy")
    require destination.valid (moveIdentityMismatch "DestinationCopy")
    let expected := moveTransactionCopies move.uid move.spec.volumeID anchor
    matchMoveCopy "IncomingCopy" incoming expected.1
    matchMoveCopy "DestinationCopy" destination expected.2
    require (move.status.copyOperationID = moveCopyOperationID move.uid) (moveIdentityMismatch "CopyOperationID")
    require (move.status.promotionOperationID = movePromotionOperationID move.uid)
      (moveIdentityMismatch "PromotionOperationID")
  | none, _ => throw (moveIdentityMismatch "IncomingCopy")
  | some incoming, none =>
    require incoming.valid (moveIdentityMismatch "IncomingCopy")
    throw (moveIdentityMismatch "DestinationCopy")

theorem difference_eq_none {a b : CopyIdentity} : a.difference b = none ↔ a = b := by
  constructor
  · intro h
    unfold CopyIdentity.difference at h
    cases a
    cases b
    simp only [CopyIdentity.mk.injEq]
    split_ifs at h
    simp_all
  · rintro rfl
    simp [CopyIdentity.difference]

@[simp] theorem matchMoveCopy_ok {name : String} {a b : CopyIdentity} {u : Unit} :
    matchMoveCopy name a b = .ok u ↔ a = b := by
  unfold matchMoveCopy
  cases h : a.difference b with
  | none => simpa using difference_eq_none.mp h
  | some field =>
    simp only [throw_ok, false_iff]
    intro heq
    rw [difference_eq_none.mpr heq] at h
    cases h

/-- A Move whose identities pass carries exactly the copies and operations derived from its UID. -/
theorem validateMoveTransactionIdentities_ok {move : Move} {anchor : MoveDestinationAnchor}
    (h : validateMoveTransactionIdentities move anchor = .ok ()) :
    validIdentityToken move.uid ∧
      move.status.incomingCopy = some (moveTransactionCopies move.uid move.spec.volumeID anchor).1 ∧
      move.status.destinationCopy = some (moveTransactionCopies move.uid move.spec.volumeID anchor).2 ∧
      move.status.copyOperationID = moveCopyOperationID move.uid ∧
      move.status.promotionOperationID = movePromotionOperationID move.uid ∧
      (moveTransactionCopies move.uid move.spec.volumeID anchor).1.valid ∧
      (moveTransactionCopies move.uid move.spec.volumeID anchor).2.valid := by
  simp only [validateMoveTransactionIdentities, bind_ok, require_ok] at h
  obtain ⟨-, huid, h⟩ := h
  cases hin : move.status.incomingCopy with
  | none => simp [hin] at h
  | some incoming =>
    cases hdst : move.status.destinationCopy with
    | none => simp [hin, hdst] at h
    | some destination =>
      simp only [hin, hdst, bind_ok, require_ok, matchMoveCopy_ok] at h
      obtain ⟨-, hvi, -, hvd, -, rfl, -, rfl, -, hc, hp⟩ := h
      exact ⟨huid, rfl, rfl, hc, hp, hvi, hvd⟩

end ShiftPV

import ShiftPV.Identity

/-! The ShiftPVVolume record and every write of its registry. A write is a function of the stored record: the registry re-
    reads the object, applies the writer's rule and stores the result under the resource version it read, so an accepted write
    is one atomic step on the current record. -/

namespace ShiftPV
open Check

/-! ### The record -/

inductive VolumePhase where
  | unset | pending | nodeCreating | ready | deleting | moving | blocked
  deriving DecidableEq

def VolumePhase.text : VolumePhase → String
  | .unset => ""
  | .pending => "Pending"
  | .nodeCreating => "NodeCreating"
  | .ready => "Ready"
  | .deleting => "Deleting"
  | .moving => "Moving"
  | .blocked => "Blocked"

structure PoolReference where
  name : String
  uid : String
  deriving DecidableEq

structure ClaimReference where
  namespaceName : String
  name : String
  uid : String
  deriving DecidableEq

structure NodeExecutor where
  namespaceName : String
  podName : String
  podUID : String
  nodeName : String
  deriving DecidableEq

structure CreationReceipt where
  operationID : String
  executorUID : String
  observedAt : Timestamp
  localReceiptDigest : String
  deriving DecidableEq

structure State where
  uid : String
  finalizers : List String
  requestName : String
  capacityBytes : Int
  initialNode : String
  initialPool : Option PoolReference
  creationClaim : Option ClaimReference
  hasCleanup : Bool
  deleting : Bool
  phase : VolumePhase
  ownerNode : String
  activeMove : String
  publishedNodes : List String
  creationOperationID : String
  deletionOperationID : String
  currentCopy : Option CopyIdentity
  creationExecutor : Option NodeExecutor
  creationReceipt : Option CreationReceipt
  deriving DecidableEq

def volumeProtectionFinalizer : String := "shiftpv.io/volume-protection"

def errStateConflict : String := "ShiftPV state precondition failed"

def errVolumePublished : String := "volume publication is still being released"

/-! ### Creation identity -/

def NodeExecutor.valid (e : NodeExecutor) : Bool :=
  validObjectName e.namespaceName && validObjectName e.podName && validIdentityToken e.podUID &&
    validObjectName e.nodeName

def validCreationReceipt (s : State) : Bool :=
  match s.creationExecutor, s.creationReceipt, s.currentCopy with
  | some executor, some receipt, some copy =>
    executor.valid && copy.valid && copy.volumeUID = s.uid && copy.role = .serving &&
      validDigest receipt.localReceiptDigest && receipt.observedAt.parses &&
      creationOperationID s.uid = .ok receipt.operationID &&
      receipt.operationID = s.creationOperationID && receipt.executorUID = executor.podUID &&
      executor.nodeName = copy.nodeName
  | _, _, _ => false

def State.unstartedCreation (s : State) : Bool :=
  validIdentityToken s.uid && s.requestName ≠ "" && s.initialNode ≠ "" && s.capacityBytes > 0 &&
    s.finalizers.contains volumeProtectionFinalizer && !s.hasCleanup && s.phase = .unset &&
    s.ownerNode = "" && s.activeMove = "" && s.publishedNodes = [] && s.currentCopy = none &&
    s.creationOperationID = "" && s.deletionOperationID = "" && s.creationExecutor = none &&
    s.creationReceipt = none

def State.initializing (s : State) : Bool := !s.deleting && s.unstartedCreation

/-- The Pool hold of an unstarted creation, kept even while the object is being deleted. -/
def State.hasInitialReservation (s : State) : Bool :=
  (match s.initialPool with
    | some pool => validIdentityToken pool.name && validIdentityToken pool.uid
    | none => false) && s.unstartedCreation

def State.initialCreationHistory (s : State) (copy : CopyIdentity) : Bool :=
  s.initialPool.all (fun pool => pool.name = copy.poolName && pool.uid = copy.poolUID) &&
    match s.creationExecutor with
    | none => s.creationReceipt = none
    | some executor =>
      executor.valid && executor.nodeName = s.ownerNode &&
        (s.creationReceipt = none || validCreationReceipt s)

def State.initialCreationIdentity (s : State) : Bool :=
  match s.currentCopy with
  | none => false
  | some copy =>
    s.uid ≠ "" && s.capacityBytes > 0 && s.requestName ≠ "" && s.initialNode ≠ "" &&
      s.ownerNode = s.initialNode && copy.volumeUID = s.uid && copy.nodeName = s.ownerNode &&
      isCreationCancellation copy (creationCancellationPrefix ++ s.uid) &&
      s.creationOperationID = "create-" ++ s.uid && s.activeMove = "" && s.publishedNodes = [] &&
      s.finalizers.contains volumeProtectionFinalizer && s.initialCreationHistory copy

def State.cancellableCreation (s : State) : Bool :=
  !s.hasCleanup && s.deletionOperationID = "" && s.initialCreationIdentity &&
    ((s.phase = .pending && s.creationExecutor = none && s.creationReceipt = none) ||
      (s.phase = .nodeCreating && s.creationExecutor.isSome))

def State.cancellingCreation (s : State) : Bool :=
  s.phase = .deleting && s.initialCreationIdentity &&
    s.currentCopy.any fun copy => isCreationCancellation copy s.deletionOperationID

end ShiftPV

import ShiftPV.Lib.Unstructured
import ShiftPV.MoveRegistry
import ShiftPV.PoolRegistry

/-! How the status of a Move and of a Volume is stored. A write builds the status map anew from the record, some fields only
    when they are set, and carries the cleanup journal over from the old map; a read takes the record out field by field. The
    client library that reads nested fields and converts records is a parameter. -/

namespace ShiftPV
open Check Unstructured

structure ReceiptFields where
  operationID : String
  executorUID : String
  observedAt : String
  localReceiptDigest : String

/-- The calls of the client library: its accessors, its conversions of the records of a status, and its checks of names. -/
structure StatusApi extends Accessors where
  copyIdentity : Converter CopyIdentity
  nodeExecutor : Converter NodeExecutor
  creationReceipt : Converter ReceiptFields
  movePreparation : Map → Except String MovePreparation
  claimReference : Map → Except String ClaimReference
  isDNS1123Label : String → Bool
  isDNS1123Subdomain : String → Bool

section
variable (api : StatusApi)

/-- A copy in the status; `wrap` is put around the text of a field that does not fit. -/
def copyFrom (wrap : String → String) (object : Map) (name : String) : Except String (Option CopyIdentity) := do
  match ← api.nestedMap object ["status", name] with
  | none => return none
  | some data =>
    let identity ← (api.copyIdentity.fromUnstructured data).mapError wrap
    require identity.valid "invalid copy identity"
    return some identity

def readCopy : Map → String → Except String (Option CopyIdentity) := copyFrom api id

/-- The journal inside a status, which other writers own; null counts as none. -/
def embeddedCleanup (object : Map) : Option Value :=
  match object.get "status" with
  | some (.map status) =>
    match Map.get status "cleanup" with
    | some .null => none
    | found => found
  | _ => none

/-! ### Moves -/

structure MoveStatusFields where
  preparation : Option MovePreparation
  persistentVolumeUID : String
  claimUID : String
  placementPodUID : String
  phase : String
  reason : String
  message : String
  lastTransitionTime : String
  lastProgressTime : String
  persistentVolumeName : String
  claimNamespace : String
  claimName : String
  consumerName : String
  consumerUID : String
  replacementName : String
  replacementUID : String
  destinationNode : String
  destinationPoolUID : String
  sourceBytes : Int
  capacityApproved : Bool
  capacityReason : String
  candidateNodes : List String
  evictionRequested : Bool
  copyJobName : String
  promotionJobName : String
  cleanupPhase : String
  copyOperationID : String
  promotionOperationID : String
  sourceCopy : Option CopyIdentity
  incomingCopy : Option CopyIdentity
  destinationCopy : Option CopyIdentity
  rollbackRequiredGeneration : Int
  settlementRequested : Bool
  recoveryPhase : String
  recoveryOwner : String
  recoveryReason : String
  recoveryMessage : String
  deriving Inhabited

def MovePreparation.encoded (preparation : MovePreparation) : Map :=
  [("pool", .map [("name", .string preparation.pool.name), ("uid", .string preparation.pool.uid)]),
   ("nodeName", .string preparation.nodeName), ("reservedBytes", .int preparation.reservedBytes)]

def movePreparationFrom (object : Map) : Except String (Option MovePreparation) := do
  match ← api.nestedFieldNoCopy object ["status", "preparation"] with
  | none | some .null => return none
  | some (.map data) =>
    let preparation ← (api.movePreparation data).mapError ("decode preparation: " ++ ·)
    validatePreparationFields preparation
    return some preparation
  | some _ => throw "decode preparation: expected object or null"

def cleanupPhaseFrom (object : Map) : String := orZero "" (api.nestedString object ["status", "cleanup", "status", "phase"])

def moveStatusFrom (object : Map) : Except String MoveStatusFields := do
  let read (name : String) : String := orZero "" (api.nestedString object ["status", name])
  let candidates ← (api.nestedStringSlice object ["status", "candidateNodes"]).mapError ("decode candidateNodes: " ++ ·)
  let evictionRequested := orZero false (api.nestedBool object ["status", "evictionRequested"])
  let settlementRequested ← (api.nestedBool object ["status", "settlementRequested"]).mapError ("decode settlementRequested: " ++ ·)
  let rollbackGeneration ←
    (api.nestedInt64 object ["status", "rollbackRequiredGeneration"]).mapError ("decode rollbackRequiredGeneration: " ++ ·)
  require (0 ≤ rollbackGeneration.getD 0) "rollbackRequiredGeneration must not be negative"
  let sourceBytes := orZero 0 (api.nestedInt64 object ["status", "sourceBytes"])
  let capacityApproved := orZero false (api.nestedBool object ["status", "capacityApproved"])
  let sourceCopy ← (readCopy api object "sourceCopy").mapError ("decode sourceCopy: " ++ ·)
  let incomingCopy ← (readCopy api object "incomingCopy").mapError ("decode incomingCopy: " ++ ·)
  let destinationCopy ← (readCopy api object "destinationCopy").mapError ("decode destinationCopy: " ++ ·)
  let preparation ← movePreparationFrom api object
  return {
    preparation, persistentVolumeUID := read "persistentVolumeUID", claimUID := read "persistentVolumeClaimUID"
    placementPodUID := read "placementPodUID", phase := read "phase", reason := read "reason", message := read "message"
    lastTransitionTime := read "lastTransitionTime", lastProgressTime := read "lastProgressTime"
    persistentVolumeName := read "persistentVolumeName", claimNamespace := read "persistentVolumeClaimNamespace"
    claimName := read "persistentVolumeClaimName", consumerName := read "consumerName", consumerUID := read "consumerUID"
    replacementName := read "replacementName", replacementUID := read "replacementUID"
    destinationNode := read "destinationNode", destinationPoolUID := read "destinationPoolUID", sourceBytes, capacityApproved
    capacityReason := read "capacityReason", candidateNodes := candidates.getD [], evictionRequested
    copyJobName := read "copyJobName", promotionJobName := read "promotionJobName", cleanupPhase := cleanupPhaseFrom api object
    copyOperationID := read "copyOperationID", promotionOperationID := read "promotionOperationID"
    sourceCopy, incomingCopy, destinationCopy, rollbackRequiredGeneration := rollbackGeneration.getD 0
    settlementRequested := settlementRequested.getD false, recoveryPhase := read "recoveryPhase"
    recoveryOwner := read "recoveryOwner", recoveryReason := read "recoveryReason", recoveryMessage := read "recoveryMessage" }

def encodedMoveStatus (object : Map) (status : MoveStatusFields) : Map :=
  let next : Map :=
    [("phase", .string status.phase), ("reason", .string status.reason), ("message", .string status.message),
     ("lastTransitionTime", .string status.lastTransitionTime), ("lastProgressTime", .string status.lastProgressTime),
     ("persistentVolumeName", .string status.persistentVolumeName),
     ("persistentVolumeClaimNamespace", .string status.claimNamespace),
     ("persistentVolumeClaimName", .string status.claimName), ("consumerName", .string status.consumerName),
     ("consumerUID", .string status.consumerUID), ("replacementName", .string status.replacementName),
     ("replacementUID", .string status.replacementUID), ("destinationNode", .string status.destinationNode),
     ("destinationPoolUID", .string status.destinationPoolUID), ("sourceBytes", .int status.sourceBytes),
     ("capacityApproved", .bool status.capacityApproved), ("capacityReason", .string status.capacityReason),
     ("candidateNodes", strings status.candidateNodes), ("evictionRequested", .bool status.evictionRequested),
     ("copyJobName", .string status.copyJobName), ("promotionJobName", .string status.promotionJobName),
     ("copyOperationID", .string status.copyOperationID), ("promotionOperationID", .string status.promotionOperationID),
     ("recoveryPhase", .string status.recoveryPhase), ("recoveryOwner", .string status.recoveryOwner),
     ("recoveryReason", .string status.recoveryReason), ("recoveryMessage", .string status.recoveryMessage)]
  let next := next.putSome "persistentVolumeUID" (whenSet status.persistentVolumeUID)
  let next := next.putSome "persistentVolumeClaimUID" (whenSet status.claimUID)
  let next := next.putSome "placementPodUID" (whenSet status.placementPodUID)
  let next := next.putSome "preparation" (status.preparation.map fun preparation => .map preparation.encoded)
  let next := next.putSome "rollbackRequiredGeneration"
    (if status.rollbackRequiredGeneration > 0 then some (.int status.rollbackRequiredGeneration) else none)
  let next := next.putSome "settlementRequested" (if status.settlementRequested then some (.bool true) else none)
  let next := next.putSome "cleanup" (embeddedCleanup object)
  let next := next.putSome "sourceCopy" (api.copyIdentity.written status.sourceCopy)
  let next := next.putSome "incomingCopy" (api.copyIdentity.written status.incomingCopy)
  next.putSome "destinationCopy" (api.copyIdentity.written status.destinationCopy)

def setMoveStatus (object : Map) (status : MoveStatusFields) : Map :=
  object.put "status" (.map (encodedMoveStatus api object status))

/-! ### Volumes -/

structure VolumeStatusFields where
  phase : String
  ownerNode : String
  activeMove : String
  publishedNodes : List String
  creationOperationID : String
  deletionOperationID : String
  currentCopy : Option CopyIdentity
  creationExecutor : Option NodeExecutor
  creationReceipt : Option ReceiptFields

structure VolumeSpecFields where
  requestName : String
  capacityBytes : Int
  initialNode : String
  initialPool : Option PoolReference
  creationClaim : Option ClaimReference

structure VolumeResource where
  uid : String
  finalizers : List String
  deleting : Bool
  content : Map

structure StateFields where
  uid : String
  finalizers : List String
  deleting : Bool
  hasCleanup : Bool
  spec : VolumeSpecFields
  status : VolumeStatusFields

def claimUIDChar (c : Char) : Bool := ('A' ≤ c && c ≤ 'Z') || ('a' ≤ c && c ≤ 'z') || ('0' ≤ c && c ≤ '9')

def ClaimReference.valid (claim : ClaimReference) : Bool :=
  api.isDNS1123Label claim.namespaceName && api.isDNS1123Subdomain claim.name && validIdentityToken claim.uid &&
    claim.uid.toList.head?.any claimUIDChar &&
    claim.uid.toList.all fun c => claimUIDChar c || c = '.' || c = '_' || c = '-'

def claimFrom (object : Map) : Except String (Option ClaimReference) := do
  match ← (api.nestedMap object ["spec", "creationClaim"]).mapError ("decode creationClaim: " ++ ·) with
  | none => return none
  | some data =>
    let claim ← (api.claimReference data).mapError ("decode creationClaim: " ++ ·)
    require (claim.valid api ∧ orZero "" (api.nestedString object ["spec", "requestName"]) = "pvc-" ++ claim.uid)
      (errStateConflict ++ ": invalid original creation claim")
    return some claim

def initialPoolFrom (object : Map) : Except String (Option PoolReference) := do
  match ← api.nestedMap object ["spec", "initialPool"] with
  | none => return none
  | some data =>
    let name := orZero "" (api.nestedString data ["name"])
    let uid := orZero "" (api.nestedString data ["uid"])
    require (validIdentityToken name ∧ validIdentityToken uid) (errStateConflict ++ ": invalid initial Pool reservation")
    return some { name, uid }

def specFrom (object : Map) : Except String VolumeSpecFields := do
  let creationClaim ← claimFrom api object
  let initialPool ← initialPoolFrom api object
  return {
    creationClaim, initialPool, requestName := orZero "" (api.nestedString object ["spec", "requestName"])
    initialNode := orZero "" (api.nestedString object ["spec", "initialNode"])
    capacityBytes := orZero 0 (api.nestedInt64 object ["spec", "capacityBytes"]) }

def decodeStatusField {α : Type} (target : Converter α) (object : Map) (name : String) : Except String (Option α) := do
  match ← api.nestedMap object ["status", name] with
  | none => return none
  | some data =>
    let value ← (target.fromUnstructured data).mapError ("decode " ++ name ++ ": " ++ ·)
    return some value

def volumeStatusFrom (object : Map) : Except String (VolumeStatusFields × Bool) := do
  let read (name : String) : String := orZero "" (api.nestedString object ["status", name])
  let publishedNodes ← (api.nestedStringSlice object ["status", "publishedNodes"]).mapError ("decode publishedNodes: " ++ ·)
  let creationExecutor ← decodeStatusField api api.nodeExecutor object "creationExecutor"
  let creationReceipt ← decodeStatusField api api.creationReceipt object "creationReceipt"
  let currentCopy ← copyFrom api ("decode current copy: " ++ ·) object "currentCopy"
  let cleanup ← api.nestedFieldNoCopy object ["status", "cleanup"]
  return (
    { phase := read "phase", ownerNode := read "ownerNode", activeMove := read "activeMove"
      publishedNodes := publishedNodes.getD [], creationOperationID := read "creationOperationID"
      deletionOperationID := read "deletionOperationID", currentCopy, creationExecutor, creationReceipt },
    match cleanup with | none | some .null => false | some _ => true)

def StatusCodec.stateFrom (object : VolumeResource) : Except String StateFields := do
  let spec ← specFrom api object.content
  let (status, hasCleanup) ← volumeStatusFrom api object.content
  return { uid := object.uid, finalizers := object.finalizers, deleting := object.deleting, hasCleanup, spec, status }

def setStatusField {α : Type} (converter : Converter α) (object : Map) (name : String) (value : Option α) : Map :=
  match value with
  | none => object
  | some value =>
    match converter.toUnstructured value with
    | .error _ => object
    | .ok encoded =>
      match api.setNestedMap object encoded ["status", name] with
      | .error _ => object
      | .ok object => object

def encodedVolumeStatus (object : Map) (status : VolumeStatusFields) : Map :=
  let next : Map :=
    [("phase", .string status.phase), ("ownerNode", .string status.ownerNode), ("activeMove", .string status.activeMove),
     ("publishedNodes", strings status.publishedNodes)]
  let next := next.putSome "cleanup" (embeddedCleanup object)
  let next := next.putSome "creationOperationID" (whenSet status.creationOperationID)
  next.putSome "deletionOperationID" (whenSet status.deletionOperationID)

def setVolumeStatus (object : Map) (status : VolumeStatusFields) : Map :=
  let next := object.put "status" (.map (encodedVolumeStatus object status))
  let next := setStatusField api api.nodeExecutor next "creationExecutor" status.creationExecutor
  let next := setStatusField api api.creationReceipt next "creationReceipt" status.creationReceipt
  -- the copy is written into the status map itself, which the object now holds
  match next.get "status" with
  | some (.map fields) => next.put "status" (.map (Map.putSome fields "currentCopy" (api.copyIdentity.written status.currentCopy)))
  | _ => next

def StatusCodec.setState (object : VolumeResource) (state : StateFields) : VolumeResource :=
  { object with content := setVolumeStatus api object.content state.status }

end

end ShiftPV

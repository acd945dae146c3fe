import ShiftPV.Disk

/-! Creation and transfer of copies on a node. Each operation holds the lock of its volume from its second authority
    check to its end, and leaves enough on disk to be run again after it was interrupted anywhere. -/

namespace ShiftPV
open Check

variable {Api : Type}

namespace NodeOp

/-! ### The store -/

def openStore (pool : PoolIdentity) : NodeOp Api Unit := do
  .ensure (validIdentityToken pool.installationID ∧ validIdentityToken pool.poolUID) .identity
  ensureMarker .pool (.pool pool)

def openExisting (pool : PoolIdentity) : NodeOp Api Unit := do
  .ensure (validIdentityToken pool.installationID ∧ validIdentityToken pool.poolUID) .identity
  checkMarker .pool (.pool pool)

/-- Taking the lock of a volume; what others may do meanwhile is said where operations run together. -/
def acquire (pool : PoolIdentity) (volumeID : String) : NodeOp Api Unit := do
  .ensure (validateID volumeID) (.refused ("invalid ShiftPV volume ID " ++ quoted volumeID))
  checkMarker .pool (.pool pool)

def readPlacement (copyID : String) : NodeOp Api Placement :=
  readMarker (.placement copyID) fun
    | .placement record => some record
    | _ => none

def verifyPath (area : Area) (name : String) (record : Placement) (expected : CopyIdentity) : NodeOp Api Unit := do
  .ensure (record.identity = expected ∧ record.id.known) .identity
  let id ← openDirectory area name
  .ensure (id.val = record.id) .identity

def openIdentityDirectory (area : Area) (name : String) (expected : FileID) : NodeOp Api Unit := do
  let id ← openDirectory area name
  .ensure (id.val = expected) .identity

def copyMarkerExists (identity : CopyIdentity) : NodeOp Api Bool := do
  return (← ifExists (checkMarker (.copy identity.copyID) (.copy identity))).isSome

def removeCopyMetadata (identity : CopyIdentity) (id : FileID) : NodeOp Api Unit := do
  removeMarker (.placement identity.copyID) (.placement { identity, id })
  removeMarker (.copy identity.copyID) (.copy identity)

def makeOrKeepDirectory (area : Area) (name : String) (fresh : LiveID) : NodeOp Api Unit := do
  match ← (makeDirectory area name fresh).attempt with
  | .ok _ | .error .alreadyExists => return ()
  | .error e => .fail e

/-! ### Serving copies -/

def stageName (identity : CopyIdentity) : String := "create-" ++ identity.copyID

/-- Re-enters a publish that was interrupted after its placement was written. The answer says whether the serving
    directory is already in place. -/
def resumeServingPlacement (identity : CopyIdentity) (record : Placement) (markerExisted : Bool) : NodeOp Api Bool := do
  .ensure markerExisted (.needsReview "serving placement exists without copy intent")
  .ensure (record.identity = identity) .identity
  match ← ifExists (verifyPath .volumes identity.volumeID record identity) with
  | some _ => return true
  | none =>
    verifyPath .incoming (stageName identity) record identity
    return false

/-- Builds the staged directory and its markers when no placement exists yet. -/
def stageServingCopy (identity : CopyIdentity) (fresh : LiveID) (markerExisted : Bool) : NodeOp Api Placement := do
  let finalExists ← pathExists .volumes identity.volumeID
  .ensure (¬finalExists) (.needsReview "serving directory exists without placement receipt")
  let stageExists ← pathExists .incoming (stageName identity)
  if ¬markerExisted then
    .ensure (¬stageExists) (.needsReview "unrecorded serving stage")
    ensureMarker (.copy identity.copyID) (.copy identity)
  makeOrKeepDirectory .incoming (stageName identity) fresh
  let id ← openDirectory .incoming (stageName identity)
  let record := { identity, id := id.val }
  ensureMarker (.placement identity.copyID) (.placement record)
  return record

def publishServingCopy (identity : CopyIdentity) (record : Placement) : NodeOp Api Unit := do
  match ← (renameDirectory .incoming (stageName identity) .volumes identity.volumeID).attempt with
  | .ok _ => verifyPath .volumes identity.volumeID record identity
  | .error .alreadyExists => .fail (.needsReview "unrecorded serving directory")
  | .error e => .fail e

def ensureServing (identity : CopyIdentity) (fresh : LiveID) : NodeOp Api Unit := do
  .ensure (identity.role = .serving) .identity
  .ensure identity.valid (.refused "invalid copy identity")
  let markerExisted ← copyMarkerExists identity
  openOrCreateDirectory .volumes
  openOrCreateDirectory .incoming
  match ← ifExists (readPlacement identity.copyID) with
  | some record =>
    let served ← resumeServingPlacement identity record markerExisted
    if served then return ()
    publishServingCopy identity record
  | none =>
    let record ← stageServingCopy identity fresh markerExisted
    publishServingCopy identity record

def prepareServing (identity : CopyIdentity) (fresh : LiveID) (authority : Api → Except Fault Unit) : NodeOp Api Unit := do
  let pool := { installationID := identity.installationID, poolUID := identity.poolUID }
  consult authority
  openStore pool
  acquire pool identity.volumeID
  consult authority
  ensureServing identity fresh
  consult authority

def verifyServing (identity : CopyIdentity) : NodeOp Api Unit := do
  checkMarker (.copy identity.copyID) (.copy identity)
  let record ← readPlacement identity.copyID
  openArea .volumes
  verifyPath .volumes identity.volumeID record identity

/-! ### Incoming copies -/

/-- What the copy callback does to the incoming directory, write by write, and how it ends. -/
structure Population where
  writes : List Contents
  outcome : Except Fault Unit

def populate (copyID : String) (population : Population) : NodeOp Api Unit := do
  .forEach (fun contents => change fun d => .ok ((), d.setContents .incoming copyID contents)) population.writes
  .done population.outcome

def ensureIncoming (identity : CopyIdentity) (fresh : LiveID) : NodeOp Api Unit := do
  let markerExisted ← copyMarkerExists identity
  openOrCreateDirectory .incoming
  match ← ifExists (readPlacement identity.copyID) with
  | some current =>
    .ensure markerExisted (.needsReview "incoming placement exists without copy intent")
    verifyPath .incoming identity.copyID current identity
  | none =>
    let directoryExists ← pathExists .incoming identity.copyID
    if ¬markerExisted then
      .ensure (¬directoryExists) (.needsReview "unrecorded incoming directory")
      ensureMarker (.copy identity.copyID) (.copy identity)
    makeOrKeepDirectory .incoming identity.copyID fresh
    let id ← openDirectory .incoming identity.copyID
    (ensureMarker (.placement identity.copyID) (.placement { identity, id := id.val })).mapError fun _ =>
      .needsReview "incoming directory created before placement receipt"

def verifyIncoming (identity : CopyIdentity) : NodeOp Api Unit := do
  .ensure (identity.role = .incoming) .identity
  checkMarker (.copy identity.copyID) (.copy identity)
  let placed ← readPlacement identity.copyID
  openArea .incoming
  verifyPath .incoming identity.copyID placed identity

def readTransferReceipt (name : MarkerName) : NodeOp Api TransferReceipt :=
  readMarker name fun
    | .transfer receipt => some receipt
    | _ => none

def populateIncoming (identity : CopyIdentity) (operationID : String) (fresh : LiveID) (population : Population)
    (authority : Api → Except Fault Unit) : NodeOp Api Unit := do
  .ensure (identity.role = .incoming ∧ validIdentityToken operationID ∧ identity.valid) .identity
  let pool := { installationID := identity.installationID, poolUID := identity.poolUID }
  consult authority
  openStore pool
  acquire pool identity.volumeID
  consult authority
  ensureIncoming identity fresh
  match ← ifExists (readTransferReceipt (.copyReceipt operationID)) with
  | some receipt =>
    .ensure (receipt.operationID = operationID ∧ receipt.identity = identity) .identity
    verifyIncoming identity
  | none =>
    populate identity.copyID population
    consult authority
    let placed ← (readPlacement identity.copyID).mapError (.joined · .identity)
    (verifyIncoming identity).mapError fun _ => .identity
    ensureMarker (.copyReceipt operationID) (.transfer { operationID, identity, id := placed.id })
    consult authority

/-! ### Promotion -/

def validPromotionRequest (incoming serving : CopyIdentity) (operationID : String) : Bool :=
  validIdentityToken operationID && incoming.valid && serving.valid && incoming.role = .incoming &&
    serving.role = .serving && incoming.copyID ≠ serving.copyID && incoming.installationID = serving.installationID &&
    incoming.poolName = serving.poolName && incoming.poolUID = serving.poolUID && incoming.volumeID = serving.volumeID &&
    incoming.volumeUID = serving.volumeUID && incoming.nodeName = serving.nodeName

/-- Whether the receipt of this exact promotion is already durable. -/
def replayPromotionReceipt (operationID : String) (incoming serving : CopyIdentity) : NodeOp Api Bool := do
  match ← ifExists (readTransferReceipt (.promotionReceipt operationID)) with
  | none => return false
  | some receipt =>
    .ensure (receipt.operationID = operationID ∧ receipt.identity = serving) .identity
    verifyServing serving
    removeCopyMetadata incoming receipt.id
    return true

/-- Proves the sealed incoming inode, and records the intent and the destination before any directory moves. -/
def journalPromotion (operationID : String) (incoming serving : CopyIdentity) : NodeOp Api TransferIntent := do
  checkMarker (.copy incoming.copyID) (.copy incoming)
  let placed ← (readPlacement incoming.copyID).mapError (.joined · .identity)
  .ensure (placed.identity = incoming) .identity
  let intent := { operationID, incoming, destination := serving, id := placed.id }
  ensureMarker (.promotion operationID) (.promotion intent)
  ensureMarker (.copy serving.copyID) (.copy serving)
  return intent

/-- Moves the journaled inode into place. A missing source means that it was moved before an interruption. -/
def publishPromotedDirectory (intent : TransferIntent) (incoming serving : CopyIdentity) : NodeOp Api Unit := do
  match ← ifExists (openIdentityDirectory .incoming incoming.copyID intent.id) with
  | none => return ()
  | some _ =>
    match ← ifExists (openDirectory .volumes serving.volumeID) with
    | some _ => .fail .identity
    | none => renameDirectory .incoming incoming.copyID .volumes serving.volumeID

/-- Proves that the published directory is the journaled inode, and records its placement. -/
def sealPromotedPlacement (intent : TransferIntent) (serving : CopyIdentity) : NodeOp Api Placement := do
  let id ← openDirectory .volumes serving.volumeID
  .ensure (id.val = intent.id) .identity
  let record := { identity := serving, id := id.val }
  ensureMarker (.placement serving.copyID) (.placement record)
  return record

/-- Records the receipt under live authority, then drops the superseded incoming metadata. -/
def commitPromotion (operationID : String) (incoming serving : CopyIdentity) (placed : Placement)
    (authority : Api → Except Fault Unit) : NodeOp Api Unit := do
  consult authority
  ensureMarker (.promotionReceipt operationID) (.transfer { operationID, identity := serving, id := placed.id })
  consult authority
  within "finish promotion metadata" (removeCopyMetadata incoming placed.id)
  consult authority

/-- Publishes the sealed incoming inode as the new serving copy. -/
def promoteIncoming (incoming serving : CopyIdentity) (operationID : String) (authority : Api → Except Fault Unit) :
    NodeOp Api Unit := do
  .ensure (validPromotionRequest incoming serving operationID) .identity
  let pool := { installationID := incoming.installationID, poolUID := incoming.poolUID }
  consult authority
  openExisting pool
  acquire pool incoming.volumeID
  consult authority
  let replayed ← replayPromotionReceipt operationID incoming serving
  if replayed then return ()
  let intent ← journalPromotion operationID incoming serving
  openArea .incoming
  openOrCreateDirectory .volumes
  publishPromotedDirectory intent incoming serving
  let placed ← sealPromotedPlacement intent serving
  commitPromotion operationID incoming serving placed authority

end NodeOp

end ShiftPV

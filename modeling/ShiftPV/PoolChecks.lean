import ShiftPV.Fsm
import ShiftPV.Ledger
import ShiftPV.PoolRegistry

/-! The checks before a Pool goes. Deletion and retirement of a registration are refused while a Volume or an unsettled Move
    may still use the Pool. -/

namespace ShiftPV
open Check

structure Blocker where
  kind : String
  namespaceName : String
  name : String
  reason : String

def blockerKey (blocker : Blocker) : String :=
  blocker.kind ++ "\x00" ++ blocker.namespaceName ++ "\x00" ++ blocker.name ++ "\x00" ++ blocker.reason

def sortBlockers (blockers : List Blocker) : List Blocker := blockers.insertionSort fun a b => blockerKey a ≤ blockerKey b

def safeReport (blockers : List Blocker) : Bool := blockers = []

/-! ### What uses a Pool -/

def copyUsesPool (copy : Option CopyIdentity) (pool : RegisteredPool) : Bool :=
  copy.any fun c => c.poolName = pool.name && c.poolUID = pool.uid

def exactMoveCopy (copy : Option CopyIdentity) (volumeID nodeName : String) (role : CopyRole) : Bool :=
  copy.any fun c => c.valid && c.volumeID = volumeID && c.nodeName = nodeName && c.role = role

/-- Whether the preparation uses the Pool, and whether it says exactly which Pool it uses. -/
def preparationUsesPool (preparation : Option MovePreparation) (pool : RegisteredPool) : Bool × Bool :=
  match preparation with
  | none => (false, false)
  | some preparation =>
    if preparation.pool.uid = pool.uid then (true, true)
    else if validObjectName preparation.pool.name ∧ validIdentityToken preparation.pool.uid ∧
        validObjectName preparation.nodeName then
      (false, true)
    else
      (preparation.pool.name = pool.name || preparation.nodeName = "" || preparation.nodeName = pool.nodeName, false)

def moveUsesPool (move : Move) (pool : RegisteredPool) : Bool :=
  let preparation := preparationUsesPool move.status.preparation pool
  let sourceKnown := exactMoveCopy move.status.sourceCopy move.spec.volumeID move.spec.sourceNode .serving
  let incomingKnown := exactMoveCopy move.status.incomingCopy move.spec.volumeID move.status.destinationNode .incoming
  let destinationKnown := exactMoveCopy move.status.destinationCopy move.spec.volumeID move.status.destinationNode .serving
  let poolKnown := move.status.destinationNode ≠ "" && move.status.destinationPoolUID ≠ ""
  preparation.1 || (if sourceKnown then copyUsesPool move.status.sourceCopy pool else move.spec.sourceNode = pool.nodeName) ||
    (incomingKnown && copyUsesPool move.status.incomingCopy pool) ||
    (destinationKnown && copyUsesPool move.status.destinationCopy pool) ||
    (poolKnown && move.status.destinationPoolUID = pool.uid) ||
    (!(preparation.2 || incomingKnown || destinationKnown || poolKnown) &&
      (move.status.destinationNode = pool.nodeName || move.status.candidateNodes.contains pool.nodeName))

/-- Whether the current copy uses the Pool; `none` when the Volume does not say. -/
def currentCopyUsesPool (volumeID : String) (state : State) (pool : RegisteredPool) : Option Bool :=
  if state.hasInitialReservation then
    some (state.initialPool.any fun reserved => reserved.name = pool.name && reserved.uid = pool.uid)
  else
    match state.currentCopy with
    | none => none
    | some copy =>
      if copy.valid ∧ copy.volumeID = volumeID ∧ copy.volumeUID = state.uid ∧ copy.nodeName = state.ownerNode ∧
          copy.role = .serving then
        some (copy.poolName = pool.name && copy.poolUID = pool.uid)
      else none

def poolVolumeUses (volume : VolumeObject) (pool : RegisteredPool) : Bool :=
  match currentCopyUsesPool volume.id volume.state pool with
  | some uses => uses
  | none =>
    volume.state.publishedNodes.contains pool.nodeName || volume.state.ownerNode = pool.nodeName ||
      (volume.state.phase = .unset && volume.state.initialNode = pool.nodeName)

def volumeBlocker (id reason : String) : Blocker := { kind := "ShiftPVVolume", namespaceName := "", name := id, reason }

def moveBlocker (name reason : String) : Blocker := { kind := "ShiftPVMove", namespaceName := "", name, reason }

def poolVolumeBlockers (volumes : List VolumeObject) (pool : RegisteredPool) : List Blocker :=
  (volumes.filter (poolVolumeUses · pool)).map fun volume =>
    volumeBlocker volume.id <| "owner=" ++ volume.state.ownerNode ++
      match volume.state.currentCopy with
      | none => " currentCopy=missing"
      | some copy => " pool=" ++ copy.poolName ++ " poolUID=" ++ copy.poolUID

def moveBlockers (moves : List Move) (pool : Option RegisteredPool) : List Blocker :=
  (moves.filter fun move => !moveCleanupSettled move && pool.all (moveUsesPool move)).map fun move =>
    moveBlocker move.name ("phase=" ++ move.status.phase.text ++ " volume=" ++ move.spec.volumeID)

/-- The blockers of a deletion; `others` are those of the inventory, of PersistentVolumes and of cleanup journals. -/
def checkPoolDeleteAfter (volumes : Table VolumeObject.id) (moves : List Move) (others : List Blocker) (target : RegisteredPool) :
    List Blocker :=
  sortBlockers (others ++ poolVolumeBlockers volumes.rows target ++ moveBlockers moves (some target))

/-! ### Retirement -/

/-- A Move as retirement reads it: an unclaimed source is the current copy, and hints of a destination do not count. -/
def retirementMoveView (move : Move) (volumes : Table VolumeObject.id) : Move :=
  let source := match volumes.find move.spec.volumeID, move.status.sourceCopy with
    | some { state, .. }, none =>
      if state.currentCopy.any (·.volumeUID = state.uid) ∧ state.ownerNode = move.spec.sourceNode ∧
          exactMoveCopy state.currentCopy move.spec.volumeID move.spec.sourceNode .serving then
        state.currentCopy
      else none
    | _, recorded => recorded
  let unplaced := !move.status.capacityApproved && move.status.preparation = none && move.status.incomingCopy = none &&
    move.status.destinationCopy = none && move.status.destinationPoolUID = ""
  { move with status := { move.status with
      sourceCopy := source
      candidateNodes := []
      destinationNode := if unplaced then "" else move.status.destinationNode } }

def retirementCopyUses (copy : Option CopyIdentity) (pool : RegisteredPool) : Bool :=
  copy.any fun c => c.poolUID = pool.uid || (!c.valid && (c.nodeName = "" || c.nodeName = pool.nodeName))

def retirementMoveUsesPool (move : Move) (pool : RegisteredPool) (volumes : Table VolumeObject.id) : Bool :=
  retirementCopyUses move.status.sourceCopy pool || retirementCopyUses move.status.incomingCopy pool ||
    retirementCopyUses move.status.destinationCopy pool || move.status.destinationPoolUID = pool.uid ||
    move.status.preparation.any (fun preparation => preparation.pool.uid = pool.uid) ||
    !validObjectName move.spec.sourceNode || moveUsesPool (retirementMoveView move volumes) pool

def referencesPool (state : State) (pool : RegisteredPool) : Bool :=
  state.initialPool.any (·.uid = pool.uid) || state.currentCopy.any (·.poolUID = pool.uid)

def unlocated (volume : VolumeObject) (pool : RegisteredPool) : Bool :=
  currentCopyUsesPool volume.id volume.state pool = none && !validObjectName volume.state.ownerNode &&
    (volume.state.phase ≠ .unset || !validObjectName volume.state.initialNode)

def retirementVolumeBlockers (volumes : List VolumeObject) (pool : RegisteredPool) : List Blocker :=
  let started := volumes.filter fun volume => !referencesPool volume.state pool &&
    !(volume.state.initialPool = none && volume.state.unstartedCreation)
  (volumes.filter (referencesPool ·.state pool)).map (volumeBlocker ·.id "Pool UID reference remains") ++
    (started.filter (unlocated · pool)).map (volumeBlocker ·.id "Pool ownership cannot be located") ++
    poolVolumeBlockers (started.filter fun volume => !unlocated volume pool) pool

/-- The blockers of a retirement; `others` are those of PersistentVolumes, of cleanup journals and of active helpers. -/
def retirementReferences (volumes : Table VolumeObject.id) (moves : List Move) (others : List Blocker) (pool : RegisteredPool) :
    List Blocker :=
  sortBlockers (retirementVolumeBlockers volumes.rows pool ++ others ++
    (moves.filter fun move => !moveCleanupSettled move && retirementMoveUsesPool move pool volumes).map fun move =>
      moveBlocker move.name "unsettled Pool reference")

end ShiftPV

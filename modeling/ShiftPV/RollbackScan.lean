import ShiftPV.Controller
import ShiftPV.PoolScan

/-! What a rollback reads from the inventory of its destination. It is the second decider about absent copies: a journal asks
    whether the inventory proves one copy absent, a rollback asks which of its two copies is still there. -/

namespace ShiftPV
open Check

def errRecoveryCleanupNeedsReview : String := "recovery cleanup needs review"

def needsRecoveryCleanupReview (text : String) : String := errRecoveryCleanupNeedsReview ++ ": " ++ text

/-- An identity that is neither of the two copies and yet belongs to the volume or to the transaction. -/
def conflictingArtifact (move : Move) (source incoming identity : CopyIdentity) : Bool :=
  identity.volumeID = move.spec.volumeID || identity.volumeUID = source.volumeUID ||
    (identity.role = .incoming && identity.copyID = incoming.copyID)

/-- The entries one by one; the flags say whether the incoming and the destination copy were met. -/
def rollbackObserved (move : Move) (destination : Pool) (source incoming copy : CopyIdentity) :
    List CopyObservation → Bool × Bool → Except String (Bool × Bool)
  | [], found => return found
  | observed :: rest, (incomingPresent, destinationPresent) => do
    require (observed.problem = "") (needsRecoveryCleanupReview "destination inventory contains an ambiguous observation")
    if ¬observed.isPresent then
      rollbackObserved move destination source incoming copy rest (incomingPresent, destinationPresent)
    else
      match observed.identity with
      | none => throw (needsRecoveryCleanupReview "destination inventory contains an unidentified artifact")
      | some identity =>
        require (identity.valid ∧ identity.poolName = destination.name ∧ identity.poolUID = destination.uid ∧
          identity.nodeName = destination.nodeName)
          (needsRecoveryCleanupReview "destination inventory contains an invalid copy identity")
        if identity = incoming then do
          require (¬observed.published) (needsRecoveryCleanupReview "destination inventory contains a published artifact")
          rollbackObserved move destination source incoming copy rest (true, destinationPresent)
        else if identity = copy then do
          require (¬observed.published) (needsRecoveryCleanupReview "destination inventory contains a published artifact")
          rollbackObserved move destination source incoming copy rest (incomingPresent, true)
        else do
          require (¬conflictingArtifact move source incoming identity)
            (needsRecoveryCleanupReview "destination inventory contains a conflicting volume artifact")
          rollbackObserved move destination source incoming copy rest (incomingPresent, destinationPresent)

/-- The copy that is left to roll back, or `none` when neither is; a failure keeps the data and asks for a review. -/
def rollbackPresentArtifact (move : Move) (destination : Pool) : Except String (Option CopyIdentity) :=
  match destination.status.inventory, move.status.sourceCopy, move.status.incomingCopy, move.status.destinationCopy with
  | some inventory, some source, some incoming, some copy => do
    let (incomingPresent, destinationPresent) ←
      rollbackObserved move destination source incoming copy inventory.copies (false, false)
    require (¬(incomingPresent ∧ destinationPresent))
      (needsRecoveryCleanupReview "both incoming and promoted destination artifacts are present")
    return if incomingPresent then some incoming else if destinationPresent then some copy else none
  -- the callers have checked that all four are there
  | _, _, _, _ => throw (needsRecoveryCleanupReview "destination inventory is missing")

def Pool.observing (pool : Pool) (inventory : PoolInventory) : Pool :=
  { pool with status := { pool.status with inventory := some inventory } }

end ShiftPV

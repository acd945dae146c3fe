import ShiftPV.Lib.Table
import ShiftPV.Mobility

/-! The stored objects of one volume: the ShiftPVVolume with its embedded cleanup journal and the
    ShiftPVMoves that name it, with every operation that writes them. -/

namespace ShiftPV
open Check

structure Store where
  volumeID : String
  volume : Option State
  cleanup : Option Journal
  moves : Table Move.name

/-! ### Writes of the Volume -/

inductive VolumeWrite where
  | bindInitialPool (expected : State) (pool : PoolReference)
  | recordCreationIntent (installationID : String) (observed : State)
  | bindCreation (expected : State) (executor : NodeExecutor)
  | recordCreationReceipt (expected : State) (receipt : CreationReceipt)
  | completeCreate (uid : String) (copy : CopyIdentity)
  | beginPublish (nodeName : String) (copy : CopyIdentity)
  | reconcilePublished (nodeName : String) (copy : CopyIdentity) (published : Bool)
  | beginDelete (uid : String) (copy : CopyIdentity)
  | beginCreationCancellation (uid : String) (copy : CopyIdentity)
  | mobility (write : MobilityWrite) (move : Move) (observed : State)
  | requestDeletion

def applyVolumeWrite (volumeID : String) : VolumeWrite → State → Except String State
  | .bindInitialPool expected pool => fun current => bindInitialPool current expected pool
  | .recordCreationIntent installationID observed => completeInitialization volumeID installationID observed
  | .bindCreation expected executor => bindCreation expected executor
  | .recordCreationReceipt expected receipt => recordCreationReceipt expected receipt
  | .completeCreate uid copy => completeCreate uid copy
  | .beginPublish nodeName copy => beginPublish nodeName copy
  | .reconcilePublished nodeName copy published => reconcilePublished volumeID nodeName copy published
  | .beginDelete uid copy => beginDelete volumeID uid copy
  | .beginCreationCancellation uid copy => beginCreationCancellation volumeID uid copy
  | .mobility write move observed => applyMobilityWrite write move observed
  -- the API server stamps the deletion time; the protection finalizer keeps the object
  | .requestDeletion => fun current => return { current with deleting := true }

/-! ### Writes of a Move -/

inductive MoveWrite where
  | status (expected : Move) (next : MoveStatus)
  | recordSourceUsage (expected : Move) (copy : CopyIdentity) (bytes : Int) (state : State)
  | ensureCleanup (spec : CleanupSpec)
  | updateCleanup (expected : CleanupSpec) (next : CleanupStatus)
  | setRecovery (recovery : String)
  | requestDeletion

def storeMove : MoveWrite → Move → Except String Move
  | .status expected next => compareAndSetMoveStatus expected next
  | .recordSourceUsage expected copy bytes state => recordSourceUsage expected copy bytes state
  | .ensureCleanup spec => fun move => do
    -- every caller derives the spec from a plan whose destination copy is recorded
    require move.status.destinationCopy.isSome "move cleanup contract is incomplete"
    move.ensureCleanup spec
  | .updateCleanup expected next => fun move => move.updateCleanup expected next
  | .setRecovery recovery => fun move =>
    return { move with spec := { move.spec with recovery }, resourceVersion := move.resourceVersion + 1 }
  | .requestDeletion => fun move =>
    return { move with deleting := true, resourceVersion := move.resourceVersion + 1 }

/-- The controller records a destination only from a Pool on another node than the source copy's. -/
def validPlacement (move : Move) : MoveWrite → Bool
  | .status _ next => next.destinationNode = move.status.destinationNode || next.destinationNode ≠ move.spec.sourceNode
  | _ => true

def applyMoveWrite (write : MoveWrite) (move : Move) : Except String Move := do
  require (validPlacement move write) "automatic move requires an exact source copy and another destination node"
  storeMove write move

/-! ### Operations -/

inductive Op where
  | volume (write : VolumeWrite)
  | move (name : String) (write : MoveWrite)
  | createMove (name uid sourceNode : String)
  | ensureVolumeCleanup (spec : CleanupSpec)
  | updateVolumeCleanup (expected : CleanupSpec) (next : CleanupStatus)
  | removeVolume

def Store.cleanupParent (s : Store) (state : State) : CleanupParent where
  authority := { kind := .shiftPVVolume, name := s.volumeID, uid := state.uid }
  isProtected := state.finalizers.contains volumeProtectionFinalizer
  cleanup := s.cleanup

/-- The volume's durable record may go once its cleanup is settled, or if it never started. -/
def Store.removable (s : Store) (state : State) : Bool :=
  (state.deleting && state.unstartedCreation) ||
    (state.phase = .deleting && s.cleanup.any fun journal => journal.status.phase = .completed)

def Store.current (s : Store) : Except String State :=
  match s.volume with
  | some state => return state
  | none => throw "get ShiftPVVolume: not found"

def Store.move (s : Store) (name : String) : Except String Move :=
  match s.moves.find name with
  | some move => return move
  | none => throw "get ShiftPVMove: not found"

def Store.apply (s : Store) : Op → Except String Store
  | .volume write => do
    let state ← s.current
    let next ← applyVolumeWrite s.volumeID write state
    return { s with volume := some next }
  | .move name write => do
    let move ← s.move name
    let next ← applyMoveWrite write move
    return { s with moves := s.moves.put next }
  | .createMove name uid sourceNode => do
    require (name ≠ "" ∧ uid ≠ "") "create ShiftPVMove: object identity is missing"
    require (s.moves.find name = none) "create ShiftPVMove: already exists"
    -- object UIDs are unique
    require (∀ move ∈ s.moves.rows, move.uid ≠ uid) "create ShiftPVMove: UID is taken"
    return { s with moves := s.moves.put (createMove name uid s.volumeID sourceNode) }
  | .ensureVolumeCleanup spec => do
    let state ← s.current
    require (state.phase = .deleting ∧ spec.operationID = state.deletionOperationID ∧
      state.currentCopy = some spec.target) "volume cleanup requires its deletion fence"
    let journal ← (s.cleanupParent state).ensure spec
    return { s with cleanup := some journal, volume := some { state with hasCleanup := true } }
  | .updateVolumeCleanup expected next => do
    let state ← s.current
    let journal ← (s.cleanupParent state).updateStatus expected next
    return { s with cleanup := some journal }
  | .removeVolume => do
    let state ← s.current
    require (s.removable state) "volume cleanup is not settled"
    return { s with volume := none }

end ShiftPV

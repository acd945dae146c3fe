import ShiftPV.Grpc
import ShiftPV.Node

/-! NodeUnpublishVolume as one call with its answer. The call unmounts its target, finds the copy whose publication this node
    still owns, and reconciles the published nodes of the Volume with the mounts that are left, under the storage lock. -/

namespace ShiftPV
open Check

inductive UnmountFailure where
  | mismatch (text : String)
  | other (text : String)

structure PoolFailure where
  identityUnavailable : Bool
  text : String

inductive LockFailure where
  | identity | needsReview | notExist | busy
  | other (text : String)
  deriving DecidableEq

inductive PublicationFailure where
  | identityUnavailable
  | observationRetry (text : String)
  | stateConflict (text : String)
  | api (e : Failure)
  | lock (e : LockFailure)
  | readOnly (text : String)
  | other (text : String)
  deriving DecidableEq

/-- What one call reads and what its commands answer. The write reads the Volume again, as it is then. -/
structure UnpublishReads where
  configured : Except String Unit
  target : Except String Unit
  unmount : Except UnmountFailure Unit
  state : ObjectRead State
  pool : Except PoolFailure NodePool
  path : Except String String
  existingLock : Except LockFailure Unit
  lock : Except LockFailure Unit
  freshPool : Except PoolFailure NodePool
  freshState : ObjectRead State
  inspect : Except String Unit
  stored : State → Except Failure State

structure UnpublishTarget where
  copy : CopyIdentity
  poolRoot : String
  source : String
  stateUID : String

/-- The copy whose publication this node must reconcile; nothing when the volume is gone, served elsewhere, or no longer
    carried by its Pool. -/
def unpublishTarget (nodeName : String) (reads : UnpublishReads) : Except Status (Option UnpublishTarget) :=
  match reads.state with
  | .notFound => .ok none
  | .failed text => .error ⟨.unavailable, "read volume state before unpublish: " ++ text⟩
  | .found state =>
    match state.currentCopy.filter (·.role = .serving) with
    | none => .error ⟨.failedPrecondition, "identified serving copy is required for unpublish"⟩
    | some copy =>
      if copy.nodeName ≠ nodeName then .ok none
      else match reads.pool with
        | .error e =>
          if e.identityUnavailable then .ok none
          else .error ⟨.unavailable, "resolve node pool after unpublish: " ++ e.text⟩
        | .ok pool =>
          if ¬copyMatchesPool copy pool then .ok none
          else match reads.path with
            | .error e => .error ⟨.invalidArgument, e⟩
            | .ok source => .ok (some { copy, poolRoot := pool.root, source, stateUID := state.uid })

/-- The refusal of the write, which does not decode a Volume with a malformed copy. -/
def writeFailure (stored : State) (text : String) : PublicationFailure :=
  if stored.currentCopy.all CopyIdentity.valid then .stateConflict text else .other text

/-- The reconciliation under the storage lock: the Volume as it is written, or nothing to write. -/
def reconcileUnpublished (nodeName volumeID : String) (reads : UnpublishReads) (target : UnpublishTarget) (mounts : List String)
    (volume : State) : Except PublicationFailure (Option State) :=
  match reads.freshPool with
  | .error e =>
    if e.identityUnavailable then .error .identityUnavailable
    else .error (.observationRetry ("refresh node pool after unpublish: " ++ e.text))
  | .ok pool =>
    if pool.root ≠ target.poolRoot ∨ ¬copyMatchesPool target.copy pool then .error .identityUnavailable
    else match reads.freshState with
      | .notFound => .error (.observationRetry "read volume unpublish authority: not found")
      | .failed text => .error (.observationRetry ("read volume unpublish authority: " ++ text))
      | .found fresh =>
        if fresh.currentCopy.any fun copy => copy.role = .serving && copy.nodeName ≠ nodeName then .ok none
        else if fresh.uid ≠ target.stateUID ∨ fresh.currentCopy ≠ some target.copy ∨ fresh.ownerNode ≠ nodeName then
          .error (.stateConflict ("volume unpublish authority changed: " ++ errStateConflict))
        else match reads.inspect with
          | .error text => .error (.other text)
          | .ok () =>
            match reads.stored volume with
            | .error e => .error (.api e)
            | .ok stored =>
              match reconcilePublished volumeID nodeName target.copy (mounts ≠ []) stored with
              | .error text => .error (writeFailure stored text)
              | .ok next => .ok (some next)

/-- `Publisher.Unpublish`: the existing lock is joined, and a missing one is made. -/
def publisherUnpublish (nodeName volumeID : String) (reads : UnpublishReads) (target : UnpublishTarget) (mounts : List String)
    (volume : State) : Bool × Except PublicationFailure (Option State) :=
  match reads.existingLock with
  | .ok () => (true, reconcileUnpublished nodeName volumeID reads target mounts volume)
  | .error .notExist =>
    match reads.lock with
    | .ok () => (true, reconcileUnpublished nodeName volumeID reads target mounts volume)
    | .error e => (false, .error (.lock e))
  | .error e => (false, .error (.lock e))

def PublicationFailure.code : PublicationFailure → Code
  | .observationRetry _ | .lock .busy => .unavailable
  | .api e => if e.kind = .canceled ∨ e.kind = .deadlineExceeded ∨ e.kind = .busy then .unavailable else .internal
  | .stateConflict _ | .lock .identity | .lock .needsReview | .readOnly _ => .failedPrecondition
  | _ => .internal

def publicationError (op : String) (e : PublicationFailure) (enteredLock : Bool) : Status :=
  if ¬enteredLock then ⟨.unavailable, "reconcile publication after " ++ op⟩ else ⟨e.code, op ++ " identified volume"⟩

/-- A failure after which there is nothing left that this node may reconcile. -/
def PublicationFailure.settled (e : PublicationFailure) (enteredLock : Bool) : Bool :=
  e = .identityUnavailable || (!enteredLock && (e = .lock .identity || e = .lock .needsReview))

structure NodeVolume where
  state : State
  mounts : List String

/-- The call for one target: its answer, and what it leaves. -/
def nodeUnpublishVolume (nodeName volumeID target : String) (reads : UnpublishReads) (v : NodeVolume) :
    Except Status Unit × NodeVolume :=
  match reads.configured with
  | .error e => (.error ⟨.internal, e⟩, v)
  | .ok () =>
    if volumeID = "" ∨ target = "" then (.error ⟨.invalidArgument, "volume ID and target path are required"⟩, v)
    else if ¬validateID volumeID then (.error ⟨.invalidArgument, "invalid ShiftPV volume ID " ++ quoted volumeID⟩, v)
    else match reads.target with
      | .error e => (.error ⟨.invalidArgument, e⟩, v)
      | .ok () =>
        match reads.unmount with
        | .error (.mismatch e) => (.error ⟨.failedPrecondition, "unmount target: " ++ e⟩, v)
        | .error (.other e) => (.error ⟨.internal, "unmount target: " ++ e⟩, v)
        | .ok () =>
          let unmounted : NodeVolume := { v with mounts := v.mounts.filter (· ≠ target) }
          match unpublishTarget nodeName reads with
          | .error e => (.error e, unmounted)
          | .ok none => (.ok (), unmounted)
          | .ok (some t) =>
            match publisherUnpublish nodeName volumeID reads t unmounted.mounts unmounted.state with
            | (_, .ok none) => (.ok (), unmounted)
            | (_, .ok (some next)) => (.ok (), { unmounted with state := next })
            | (enteredLock, .error e) =>
              if e.settled enteredLock then (.ok (), unmounted)
              else (.error (publicationError "unpublish" e enteredLock), unmounted)

structure UnpublishCall where
  target : String
  reads : UnpublishReads

def NodeVolume.unpublish (nodeName volumeID : String) : NodeVolume → List UnpublishCall → List (Except Status Unit) × NodeVolume
  | v, [] => ([], v)
  | v, call :: rest =>
    let (answer, after) := nodeUnpublishVolume nodeName volumeID call.target call.reads v
    let (answers, last) := NodeVolume.unpublish nodeName volumeID after rest
    (answer :: answers, last)

end ShiftPV

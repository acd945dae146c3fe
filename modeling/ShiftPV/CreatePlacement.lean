import ShiftPV.CapacityDecision
import ShiftPV.Consumer

/-! The placement of a new volume. The candidates are the Ready Pools of the group on the selected node; each is tried under
    its lock, and what the request is answered depends on how they deny it. -/

namespace ShiftPV
open Check

/-! ### Errors of reads -/

def capacityProbeError (operation : String) (e : Failure) : Status where
  code :=
    match e.kind with
    | .canceled => .canceled
    | .deadlineExceeded => .deadlineExceeded
    | .poolNotReady | .busy | .retryable => .unavailable
    | _ => .internal
  message := operation ++ ": " ++ e.text

def poolSelectionError (e : Failure) : Status :=
  match e.kind with
  | .poolConfiguration | .poolNotFound | .poolNotReady => ⟨.failedPrecondition, "read selected Pool: " ++ e.text⟩
  | _ => kubernetesAPIError "read selected Pool" e

/-! ### Requests -/

structure CreateParameters where
  pvcNamespace : String
  pvcName : String
  pvName : String
  poolGroup : String

structure PlacedRequest extends CreationRequest where
  nodeName : String

def requestedPoolGroup (parameters : CreateParameters) : String :=
  if parameters.poolGroup ≠ "" then parameters.poolGroup else defaultPoolGroup

def requestUID (requestName : String) : String :=
  match requestName.toList with
  | 'p' :: 'v' :: 'c' :: '-' :: uid => .ofList uid
  | _ => requestName

inductive ClaimInspection where
  | notConfigured
  | identity (text : String)
  | failed (e : Failure)
  | unproven
  | differs
  | verified

def inspectCreationClaim : ClaimInspection → Except Status Unit
  | .notConfigured => .error ⟨.unavailable, "creation claim inspection is not configured"⟩
  | .identity text => .error ⟨.failedPrecondition, text⟩
  | .failed e =>
    if e.kind = .canceled ∨ e.kind = .deadlineExceeded then .error (kubernetesAPIError "verify original creation claim" e)
    else .error ⟨.unavailable, "verify original creation claim: " ++ e.text⟩
  | .unproven => .error ⟨.unavailable, "original creation claim identity is unproven"⟩
  | .differs => .error ⟨.failedPrecondition, "verified creation claim differs from the requested original"⟩
  | .verified => .ok ()

def newCreationRequest (requestName : String) (parameters : CreateParameters) (claim : ClaimInspection) : Except Status Unit :=
  if parameters.pvcNamespace = "" ∨ parameters.pvcName = "" ∨ requestUID requestName = requestName then .ok ()
  else if parameters.pvName ≠ "" ∧ parameters.pvName ≠ requestName then
    .error ⟨.failedPrecondition, "PV metadata differs from the creation request"⟩
  else inspectCreationClaim claim

/-! ### Denials -/

structure AttemptReads where
  reader : PoolReader
  /-- The initialization of an old release, when the request re-admits one: unchanged or not. -/
  initializing : Option (Except Failure Bool)
  volumes : Except Failure (Table VolumeObject.id)
  moves : Except Failure (List Move)
  stats : Except Failure Filesystem
  /-- The filesystem as a denial reads it again. -/
  observed : Except Failure Filesystem
  consumer : Option (Option ConsumerReader)
  claim : ClaimInspection
  beginCreate : Except String State

def exceedsTotal (requested total : Int) : Bool := total > 0 && requested > total

def observedTotalCanFit (r : PoolReader) (pool : MeasuredPool) (requested : Int) : Bool :=
  passes (pool.readyAt r.conditions r.now r.budget) && pool.filesystemTotalBytes > 0 && requested ≤ pool.filesystemTotalBytes

def inspectConsumerPlacement (consumer : Option (Option ConsumerReader)) (parameters : CreateParameters)
    (requestName node message : String) : Except Status PlacementResult :=
  match consumer with
  | none => .error ⟨.unavailable, "consumer placement inspection is not configured"⟩
  | some reader =>
    match inspectConsumer reader
        { ns := parameters.pvcNamespace, name := parameters.pvcName, uid := requestUID requestName, node } with
    | .error .identity => .error ⟨.failedPrecondition, message ++ "; PVC placement identity changed"⟩
    | .error (.other text) => .error ⟨.unavailable, message ++ "; inspect PVC consumer: " ++ text⟩
    | .ok placement => .ok placement

def preserveNode (message : String) (placement : PlacementResult) (node : String) : Status :=
  ⟨.unavailable, message ++ "; " ++ placement.reason ++ "; preserve node " ++ quoted node ++ " and retry"⟩

/-- The filesystem that the text of a denial may speak of: what was read for the request, or else, for a fixed consumer of a
    Pool whose recorded total says nothing, a further read. -/
def deniedStats (reads : AttemptReads) (pool : MeasuredPool) (placement : PlacementResult) (requested limit : Int)
    (stats : Option Filesystem) : Except Status (Option Filesystem) :=
  if requested ≤ limit ∧ placement.placement = .fixed ∧ stats = none ∧ ¬observedTotalCanFit reads.reader pool requested then
    match reads.observed with
    | .error e => .error (capacityProbeError "inspect Pool filesystem capacity" e)
    | .ok observed => .ok (some observed)
  else .ok stats

def capacityDenied (reads : AttemptReads) (parameters : CreateParameters) (requestName : String) (pool : MeasuredPool)
    (requested limit : Int) (stats : Option Filesystem) (message : String) : Status :=
  match inspectConsumerPlacement reads.consumer parameters requestName pool.nodeName message with
  | .error e => e
  | .ok placement =>
    if placement.placement ≠ .reschedulable then
      let message :=
        if requested > limit then message ++ "; request exceeds Pool limit; change capacity configuration or request size"
        else message
      match deniedStats reads pool placement requested limit stats with
      | .error e => e
      | .ok stats =>
        let message :=
          if stats.any fun s => exceedsTotal requested s.totalBytes then
            message ++ "; request exceeds filesystem total; change capacity configuration or request size"
          else message
        preserveNode message placement pool.nodeName
    else ⟨.resourceExhausted, message⟩

def poolReservedBytes (reads : AttemptReads) (poolUID : String) : Except Status Int :=
  match reads.volumes with
  | .error e => .error (kubernetesAPIError "list volume owners" e)
  | .ok volumes =>
    match reads.moves with
    | .error e => .error (kubernetesAPIError "list capacity-approved moves" e)
    | .ok moves =>
      match reservedBytesForPool volumes moves poolUID with
      | .error e => .error ⟨.failedPrecondition, e⟩
      | .ok total => .ok total

/-- Whether the candidate admits the request; a denial is no error. -/
def poolDenial (reads : AttemptReads) (parameters : CreateParameters) (request : PlacedRequest) (pool : MeasuredPool) :
    Except Status (Option Status) :=
  let requested := request.capacityBytes
  match poolLimitBytes reads.reader pool.toRegisteredPool with
  | .error e => .ok (some ⟨.failedPrecondition, "Pool " ++ quoted pool.name ++ " capacity limit is invalid: " ++ e⟩)
  | .ok limit =>
    match poolReservedBytes reads pool.uid with
    | .error e => .error e
    | .ok reserved =>
      if ¬fitsReservation requested reserved limit then
        .ok (some (capacityDenied reads parameters request.requestName pool requested limit none
          ("Pool " ++ quoted pool.name ++ " reservation limit exceeded: requested=" ++ toString requested ++ " reserved=" ++
            toString reserved ++ " limit=" ++ toString limit)))
      else match reads.stats with
        | .error e => .ok (some (capacityProbeError "inspect Pool filesystem capacity" e))
        | .ok stats =>
          if requested > stats.availableBytes then
            .ok (some (capacityDenied reads parameters request.requestName pool requested limit (some stats)
              ("Pool " ++ quoted pool.name ++ " filesystem space is insufficient: requested=" ++ toString requested ++
                " available=" ++ toString stats.availableBytes)))
          else .ok none

/-! ### Candidates -/

inductive PoolFit where
  | allowed (created : State)
  | denied (denial : Status)

/-- The initialization that a request re-admits is still the one it was. -/
def checkInitializing (reads : AttemptReads) : Except Status Unit :=
  match reads.initializing with
  | some (.error e) => .error (kubernetesAPIError "read legacy initialization" e)
  | some (.ok false) => .error ⟨.aborted, "legacy creation changed during capacity admission"⟩
  | _ => .ok ()

def recordCreation (reads : AttemptReads) (parameters : CreateParameters) (request : PlacedRequest) : Except Status State :=
  match if reads.initializing.isNone then newCreationRequest request.requestName parameters reads.claim else .ok () with
  | .error e => .error e
  | .ok () =>
    match reads.beginCreate with
    | .error e => .error ⟨.unknown, e⟩
    | .ok created => .ok created

def attemptCreateInPool (reads : AttemptReads) (parameters : CreateParameters) (request : PlacedRequest) (pool : MeasuredPool) :
    Except Status PoolFit :=
  match checkInitializing reads with
  | .error e => .error e
  | .ok () =>
    match poolDenial reads parameters request pool with
    | .error e => .error e
    | .ok (some denial) => .ok (.denied denial)
    | .ok none =>
      match recordCreation reads parameters request with
      | .error e => .error e
      | .ok created => .ok (.allowed created)

/-- The loop over the candidates: an Unavailable denial replaces the one that is kept. Without a candidate the answer is
    `missing`. -/
def tryPools (attempt : MeasuredPool → Except Status PoolFit) (missing : Status) :
    Option Status → List MeasuredPool → Except Status State
  | denied, [] => .error (denied.getD missing)
  | denied, pool :: rest =>
    match attempt pool with
    | .error e => .error e
    | .ok (.allowed created) => .ok created
    | .ok (.denied denial) =>
      tryPools attempt missing (if denied = none ∨ denial.code = .unavailable then some denial else denied) rest

def poolHasServingVolume (pool : RegisteredPool) (volumeID : String) : Bool :=
  pool.status.inventory.any fun inventory => inventory.copies.any fun observed =>
    observed.isPresent && observed.identity.any fun identity => identity.role = .serving && identity.volumeID = volumeID

def noReadyPool (consumer : Option (Option ConsumerReader)) (parameters : CreateParameters) (requestName node : String)
    (registered : List RegisteredPool) : Status :=
  let group := requestedPoolGroup parameters
  if registered.any fun pool => pool.nodeName = node && poolGroup pool = group then
    ⟨.unavailable, "node " ++ quoted node ++ " has registered Pools in group " ++ quoted group ++
      ", but none is Ready; wait for Pool observation"⟩
  else
    let message := "node " ++ quoted node ++ " has no registered Pool in group " ++ quoted group
    match inspectConsumerPlacement consumer parameters requestName node message with
    | .error e => e
    | .ok placement =>
      if placement.placement = .reschedulable then ⟨.resourceExhausted, message⟩ else preserveNode message placement node

/-- What one placement reads: the Pools, what is read for each candidate, and the consumers when there is none. -/
structure PlacementReads where
  registered : List RegisteredPool
  ready : List MeasuredPool
  attempt : MeasuredPool → AttemptReads
  consumer : Option (Option ConsumerReader)

def PlacementReads.candidates (reads : PlacementReads) (parameters : CreateParameters) (node : String) : List MeasuredPool :=
  reads.ready.filter fun pool => pool.nodeName = node && poolGroup pool.toRegisteredPool = requestedPoolGroup parameters

def placeNewCreate (snapshot : Except Failure PlacementReads) (request : PlacedRequest) (parameters : CreateParameters) :
    Except Status State :=
  match snapshot with
  | .error e => .error (poolSelectionError e)
  | .ok reads =>
    let candidates := reads.candidates parameters request.nodeName
    match candidates.find? fun pool => poolHasServingVolume pool.toRegisteredPool request.volumeID with
    | some pool => .error ⟨.failedPrecondition, "Pool " ++ quoted pool.name ++ " already contains a serving copy for volume " ++
        quoted request.volumeID ++ "; wait for orphan cleanup"⟩
    | none =>
      tryPools (fun pool => attemptCreateInPool (reads.attempt pool) parameters request pool)
        (noReadyPool reads.consumer parameters request.requestName request.nodeName reads.registered) none candidates

end ShiftPV

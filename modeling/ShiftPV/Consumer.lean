import ShiftPV.Grpc

/-! The inspection of a claim's consumers. It reads the claim, lists the Pods of its namespace and reads the Pods that own the
    claim, each at its own moment. -/

namespace ShiftPV

inductive PodPhase where
  | pending | running | succeeded | failed | unknown
  deriving DecidableEq

/-- A volume of a Pod: a claim it names, or one that is made for it. -/
structure PodVolume where
  name : String
  ephemeral : Bool
  claimName : Option String

structure ConsumerPod where
  name : String
  uid : String
  ns : String
  nodeName : String
  phase : PodPhase
  volumes : List PodVolume

structure OwnerReference where
  apiVersion : String
  kind : String
  name : String
  uid : String
  controller : Bool

structure DataSource where
  apiGroup : Option String
  kind : String

/-- A claim, with the annotations that say where it is placed and what populates it. -/
structure ConsumerClaim where
  name : String
  ns : String
  uid : String
  selectedNode : String
  populatorKind : Option String
  primeName : String
  isDeleting : Bool
  volumeName : String
  owners : List OwnerReference
  dataSource : Option DataSource

structure ConsumerReader where
  claim : String → ObjectRead ConsumerClaim
  pods : Except String (List ConsumerPod)
  pod : String → ObjectRead ConsumerPod

inductive ConsumerPlacement where
  | unknown | fixed | reschedulable
  deriving DecidableEq

structure PlacementResult where
  placement : ConsumerPlacement
  reason : String

inductive InspectError where
  | identity
  | other (text : String)

structure ConsumerRequest where
  ns : String
  name : String
  uid : String
  node : String

def ConsumerPod.live (pod : ConsumerPod) : Bool := pod.phase ≠ .succeeded && pod.phase ≠ .failed

def ConsumerPod.volumeClaimName (pod : ConsumerPod) (v : PodVolume) : String := pod.name ++ "-" ++ v.name

def usesClaim (pod : ConsumerPod) (name : String) : Bool :=
  pod.volumes.any fun v => (v.ephemeral && pod.volumeClaimName v = name) || v.claimName = some name

def controllerOf (owners : List OwnerReference) : Option OwnerReference := owners.find? (·.controller)

def volumeIsForPod (pod : ConsumerPod) (pvc : ConsumerClaim) : Bool :=
  pvc.ns = pod.ns && (controllerOf pvc.owners).any (·.uid = pod.uid)

def schedulerOwnsEphemeral (pod : ConsumerPod) (pvc : ConsumerClaim) : Bool :=
  volumeIsForPod pod pvc && pod.volumes.any fun v => v.ephemeral && pod.volumeClaimName v = pvc.name

/-- One turn of the loop over the Pods: the result so far, and whether a consumer runs elsewhere. -/
def placementStep (name node : String) (state : PlacementResult × Bool) (pod : ConsumerPod) : PlacementResult × Bool :=
  if ¬usesClaim pod name ∨ ¬pod.live then state
  else
    let result := if pod.nodeName = node then ⟨.fixed, "consumer is assigned to selected node"⟩ else state.1
    let result :=
      if pod.nodeName = "" ∧ result.placement ≠ .fixed then ⟨.reschedulable, "consumer remains scheduler-managed"⟩ else result
    (result, state.2 || (pod.nodeName ≠ "" && pod.nodeName ≠ node))

def placementForPods (pods : List ConsumerPod) (name node : String) : PlacementResult :=
  let (result, conflict) := pods.foldl (placementStep name node) (⟨.unknown, "no active PVC consumer is observable"⟩, false)
  if conflict then ⟨.unknown, "consumer is assigned to another node"⟩ else result

def OwnerReference.isPod (owner : OwnerReference) : Bool := owner.apiVersion = "v1" && owner.kind = "Pod"

/-- The loop over the owners: the first Pod among them that is not settled makes the placement uncertain. -/
def podOwnerPlacement (reader : ConsumerReader) (pvc : ConsumerClaim) (placement : PlacementResult) :
    List OwnerReference → Except InspectError PlacementResult
  | [] => .ok placement
  | owner :: rest =>
    if ¬owner.isPod then podOwnerPlacement reader pvc placement rest
    else match reader.pod owner.name with
      | .notFound => .ok ⟨.unknown, "Pod owner is not observable"⟩
      | .failed text => .error (.other text)
      | .found pod =>
        if pod.uid ≠ owner.uid ∨ ¬usesClaim pod pvc.name then
          .ok ⟨.unknown, "Pod owner identity or claim reference is unproven"⟩
        else if pod.nodeName = "" ∧ ¬schedulerOwnsEphemeral pod pvc then
          .ok ⟨.unknown, "Pod owner assignment is pending"⟩
        else podOwnerPlacement reader pvc placement rest

/-- The claim of a populator inherits the node of the claim it is made for. -/
def primePlacement (reader : ConsumerReader) (pvc : ConsumerClaim) (kind : String) (req : ConsumerRequest) :
    Except InspectError PlacementResult :=
  if kind ≠ "VolumeImportSource" ∧ kind ≠ "VolumeUploadSource" then
    .ok ⟨.unknown, "populator placement contract is unknown"⟩
  else match controllerOf pvc.owners with
    | none => .ok ⟨.unknown, "prime PVC parent is unproven"⟩
    | some owner =>
      if owner.apiVersion ≠ "v1" ∨ owner.kind ≠ "PersistentVolumeClaim" then .ok ⟨.unknown, "prime PVC parent is unproven"⟩
      else match reader.claim owner.name with
        | .notFound => .ok ⟨.unknown, "prime PVC parent is not observable"⟩
        | .failed text => .error (.other text)
        | .found parent =>
          if parent.uid ≠ owner.uid ∨ parent.isDeleting ∨ parent.selectedNode ≠ req.node ∨
              ¬parent.dataSource.any (fun s => s.apiGroup = some "cdi.kubevirt.io" && s.kind = kind) then
            .error .identity
          else if parent.primeName ≠ "" ∧ parent.primeName ≠ pvc.name then .error .identity
          else .ok ⟨.fixed, "CDI prime inherits its parent PVC node before consumer creation"⟩

def ConsumerClaim.matches (pvc : ConsumerClaim) (req : ConsumerRequest) : Bool :=
  pvc.uid = req.uid && pvc.selectedNode = req.node && !pvc.isDeleting && pvc.volumeName = ""

def inspectConsumer (reader : Option ConsumerReader) (req : ConsumerRequest) : Except InspectError PlacementResult :=
  if req.ns = "" ∨ req.name = "" ∨ req.uid = "" ∨ req.node = "" then .ok ⟨.unknown, "PVC metadata is incomplete"⟩
  else match reader with
    | none => .error (.other "consumer reader is not configured")
    | some reader =>
      match reader.claim req.name with
      | .notFound => .ok ⟨.unknown, "PVC is not observable"⟩
      | .failed text => .error (.other text)
      | .found pvc =>
        if ¬pvc.matches req then .error .identity
        else match pvc.populatorKind with
          | some kind => primePlacement reader pvc kind req
          | none =>
            match reader.pods with
            | .error text => .error (.other text)
            | .ok pods =>
              let placement := placementForPods pods pvc.name req.node
              if placement.placement = .fixed then .ok placement
              else podOwnerPlacement reader pvc placement pvc.owners

end ShiftPV

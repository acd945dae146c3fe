import Mathlib.Logic.Function.Basic
import ShiftPV.History

/-! Publication on the nodes. A NodePublishVolume or NodeUnpublishVolume call runs under the node's lock for
    the volume and takes one step at a time: reads, the durable write, the bind mount, the inspection. Every
    step may fail, and the call may die before any of them. -/

namespace ShiftPV
open Check

/-! ### Calls -/

structure NodePool where
  name : String
  uid : String
  nodeName : String
  root : String

def copyMatchesPool (copy : CopyIdentity) (pool : NodePool) : Bool :=
  copy.poolName = pool.name && copy.poolUID = pool.uid && copy.nodeName = pool.nodeName

/-- An in-flight call; each constructor names the step that comes next. -/
inductive Call where
  | readPublish (target : String)
  | verifyPublish (target root : String) (copy : CopyIdentity)
  | beginPublish (target : String) (copy : CopyIdentity)
  | bind (target : String) (copy : CopyIdentity)
  | unbind (target : String)
  | readUnpublish
  | verifyUnpublish (root uid : String) (copy : CopyIdentity)
  | inspect (copy : CopyIdentity)
  | reconcile (copy : CopyIdentity) (stillPublished : Bool)

structure Outcome where
  readable : Bool
  /-- the Pool lookup: nothing when the Pool is gone or unreadable -/
  pool : Option NodePool
  /-- the storage lock was entered and the directory carries the copy's identity -/
  serving : Bool
  effect : Bool
  /-- a failed command still took effect on the mount table -/
  left : Bool
  inspected : Bool

/-- The node's live bind mounts of the volume's serving path, by target, and the call that holds the lock. -/
structure NodeState where
  mounts : List String
  call : Option Call

/-- One step of a call: it stays on the node, or it is one write of the Volume. -/
inductive CallStep where
  | onNode (next : NodeState)
  | write (write : VolumeWrite) (accepted rejected : NodeState)

def NodeState.finish (node : NodeState) : NodeState := { node with call := none }

def NodeState.proceed (node : NodeState) (call : Call) : NodeState := { node with call := some call }

def NodeState.hasPublishedTarget (node : NodeState) : Bool := node.mounts ≠ []

def servingHere (nodeName : String) (copy : CopyIdentity) : Bool := copy.nodeName = nodeName && copy.role = .serving

def publishable (nodeName : String) (state : State) : Option CopyIdentity :=
  if state.phase = .ready ∧ state.ownerNode ≠ "" ∧ state.ownerNode = nodeName then
    state.currentCopy.filter (servingHere nodeName)
  else none

/-- One step of `call` on the node `nodeName`, reading the stored volume `current`. -/
def NodeState.advance (nodeName : String) (current : Option State) (out : Outcome) (node : NodeState) : Call → CallStep
  | .readPublish target => .onNode <|
    if out.readable then
      match current.bind (publishable nodeName), out.pool with
      | some copy, some pool =>
        if copyMatchesPool copy pool then node.proceed (.verifyPublish target pool.root copy) else node.finish
      | _, _ => node.finish
    else node.finish
  | .verifyPublish target root copy => .onNode <|
    match out.pool, current with
    | some pool, some fresh =>
      if pool.root = root ∧ copyMatchesPool copy pool ∧ out.readable ∧ fresh.currentCopy = some copy ∧
          fresh.phase = .ready ∧ fresh.ownerNode = nodeName ∧ out.serving then
        node.proceed (.beginPublish target copy)
      else node.finish
    | _, _ => node.finish
  | .beginPublish target copy =>
    .write (.beginPublish nodeName copy) (node.proceed (.bind target copy)) node.finish
  | .bind target copy => .onNode <|
    let bound := if target ∈ node.mounts then node.mounts else target :: node.mounts
    if out.effect then { mounts := bound, call := none }
    else { mounts := if out.left then bound else node.mounts, call := some (.inspect copy) }
  | .unbind target => .onNode <|
    let unbound := node.mounts.filter (· ≠ target)
    if out.effect then { mounts := unbound, call := some .readUnpublish }
    else { mounts := if out.left then unbound else node.mounts, call := none }
  | .readUnpublish => .onNode <|
    match current with
    | none => node.finish
    | some state =>
      match out.readable, state.currentCopy.filter (servingHere nodeName), out.pool with
      | true, some copy, some pool =>
        if copyMatchesPool copy pool then node.proceed (.verifyUnpublish pool.root state.uid copy) else node.finish
      | _, _, _ => node.finish
  | .verifyUnpublish root uid copy => .onNode <|
    match out.pool, current with
    | some pool, some fresh =>
      if pool.root = root ∧ copyMatchesPool copy pool ∧ out.readable ∧ fresh.uid = uid ∧
          fresh.currentCopy = some copy ∧ fresh.ownerNode = nodeName then
        node.proceed (.inspect copy)
      else node.finish
    | _, _ => node.finish
  | .inspect copy => .onNode <|
    if out.inspected then node.proceed (.reconcile copy node.hasPublishedTarget) else node.finish
  | .reconcile copy stillPublished =>
    .write (.reconcilePublished nodeName copy stillPublished) node.finish node.finish

/-! ### The cluster -/

/-- The stored objects with their history, and the nodes by name. -/
structure Cluster where
  stores : List Store
  nodes : String → NodeState

inductive Act where
  | store (op : Op)
  | publish (nodeName target : String)
  | unpublish (nodeName target : String)
  | advance (nodeName : String) (out : Outcome)
  | crash (nodeName : String)
  | reboot (nodeName : String)

/-- Publication is written by the nodes' calls only. -/
def Op.publication : Op → Bool
  | .volume (.beginPublish _ _) | .volume (.reconcilePublished _ _ _) => true
  | _ => false

def Cluster.setNode (c : Cluster) (nodeName : String) (node : NodeState) : Cluster :=
  { c with nodes := Function.update c.nodes nodeName node }

def Cluster.act (c : Cluster) : Act → Option Cluster
  | .store op =>
    match c.stores.head?, op.publication with
    | some s, false =>
      match s.apply op with
      | .ok t => some { c with stores := t :: c.stores }
      | .error _ => none
    | _, _ => none
  | .publish nodeName target =>
    let node := c.nodes nodeName
    if node.call = none then some (c.setNode nodeName (node.proceed (.readPublish target))) else none
  | .unpublish nodeName target =>
    let node := c.nodes nodeName
    if node.call = none then some (c.setNode nodeName (node.proceed (.unbind target))) else none
  | .advance nodeName out =>
    let node := c.nodes nodeName
    match node.call, c.stores.head? with
    | some call, some s =>
      match node.advance nodeName s.volume out call with
      | .onNode next => some (c.setNode nodeName next)
      | .write write accepted rejected =>
        match s.apply (.volume write) with
        | .ok t => some { c.setNode nodeName accepted with stores := t :: c.stores }
        | .error _ => some (c.setNode nodeName rejected)
    | _, _ => none
  -- the process dies with its call; the mounts stay
  | .crash nodeName => some (c.setNode nodeName (c.nodes nodeName).finish)
  | .reboot nodeName => some (c.setNode nodeName { mounts := [], call := none })

def Act.Observed (h : List Store) : Act → Prop
  | .store op => op.Observed h
  | _ => True

def ClusterStep (c : Cluster) (a : Act) (c' : Cluster) : Prop := a.Observed c.stores ∧ c.act a = some c'

def Cluster.Initial (c : Cluster) : Prop :=
  (∃ s, c.stores = [s] ∧ s.Initial) ∧ ∀ nodeName, c.nodes nodeName = { mounts := [], call := none }

abbrev ClusterRun : List Cluster → Prop := Run Cluster.Initial (Run.onHead ClusterStep)

end ShiftPV

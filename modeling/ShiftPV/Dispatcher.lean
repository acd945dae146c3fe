import ShiftPV.Identity
import ShiftPV.Lib.Run

/-! The dispatcher of Volume work. A scan publishes references as it finds them and, when it was complete, replaces all hints
    by what it found; workers take Volumes from the queue and act on a copy of their hints. The lock covers the maps only:
    hinting and queueing, and taking and looking up, are steps of their own. -/

namespace ShiftPV

structure MoveReference where
  (name uid : String)
  deriving DecidableEq

structure PodReference where
  (ns name uid : String)
  deriving DecidableEq

structure DiscoverySource where
  (volumeUID ownerNode nodeUID : String)
  copy : CopyIdentity
  sourceAvailable : Bool
  deriving DecidableEq

structure VolumeWork where
  (volumeID volumeUID : String)
  discover : Bool
  source : Option DiscoverySource
  moves : List MoveReference
  ownerPods : List PodReference

def VolumeWork.empty : VolumeWork := ⟨"", "", false, none, [], []⟩

def appendNew {α : Type} [DecidableEq α] (current next : List α) : List α :=
  next.foldl (fun refs ref => if ref ∈ refs then refs else refs ++ [ref]) current

def mergeVolumeWork (current next : VolumeWork) : VolumeWork where
  volumeID := next.volumeID
  volumeUID := if next.volumeUID ≠ "" then next.volumeUID else current.volumeUID
  discover := current.discover || next.discover
  source := if next.discover then next.source else current.source
  moves := appendNew current.moves next.moves
  ownerPods := appendNew current.ownerPods next.ownerPods

abbrev Hints := String → VolumeWork

def Hints.merge (hints : Hints) (work : VolumeWork) : Hints :=
  Function.update hints work.volumeID (mergeVolumeWork (hints work.volumeID) work)

structure DeferredDiscovery where
  source : Option DiscoverySource
  deadline : Int

structure DiscoveryResult where
  (uid reason : String)
  failed : Bool

inductive DispatchEvent where
  | begun
  | handed (id : String) (work : VolumeWork)
  | replaced (hints : Hints)

structure Dispatcher where
  hints : Hints
  deferred : String → Option DeferredDiscovery
  retryAfter : Int
  queue : List String
  /-- The Volumes that workers have taken and not yet looked up. -/
  taken : List String
  /-- The Volume that the scan has hinted and not yet queued. -/
  adding : Option String
  found : Option Hints
  trace : List DispatchEvent

def Dispatcher.initial (retryAfter : Int) : Dispatcher := ⟨fun _ => .empty, fun _ => none, retryAfter, [], [], none, none, []⟩

inductive DispatchAct where
  | beginScan
  | publish (work : VolumeWork)
  | add
  | endScan (complete : Bool)
  | get (id : String)
  | snapshot (id : String) (now : Int)
  | deferDiscovery (work : VolumeWork) (result : DiscoveryResult) (now : Int)
  | requeue (id : String)

namespace Dispatcher

/-- The hints that a worker is given, and the deferrals afterwards. -/
def snapshot (d : Dispatcher) (id : String) (now : Int) : VolumeWork × (String → Option DeferredDiscovery) :=
  let work := d.hints id
  match d.deferred id with
  | none => (work, d.deferred)
  | some previous =>
    if work.discover ∧ work.source = previous.source ∧ 0 < previous.deadline - now then ({ work with discover := false }, d.deferred)
    else (work, Function.update d.deferred id none)

def deferDiscovery (d : Dispatcher) (work : VolumeWork) (result : DiscoveryResult) (now : Int) : Dispatcher :=
  let uid := (work.source.map (·.volumeUID)).getD ""
  let current := d.hints work.volumeID
  if ¬work.discover ∨ d.retryAfter ≤ 0 ∨ uid = "" ∨ ¬current.discover ∨ current.source ≠ work.source then d
  else
    let deferral := if result.failed ∨ result.reason = "" ∨ result.uid ≠ uid then none else some ⟨work.source, now + d.retryAfter⟩
    { d with deferred := Function.update d.deferred work.volumeID deferral }

def replace (d : Dispatcher) (hints : Hints) : Dispatcher :=
  { d with
    hints
    deferred := fun id => (d.deferred id).filter fun previous => (hints id).discover && (hints id).source = previous.source }

def enabled (d : Dispatcher) : DispatchAct → Bool
  | .beginScan => d.found.isNone
  | .publish _ | .endScan _ => d.found.isSome && d.adding.isNone
  | .add => d.adding.isSome
  | .get id => id ∈ d.queue
  | .snapshot id _ => id ∈ d.taken
  | _ => true

def events (d : Dispatcher) : DispatchAct → List DispatchEvent
  | .beginScan => [.begun]
  | .endScan true => d.found.toList.map .replaced
  | .snapshot id now => [.handed id (d.snapshot id now).1]
  | _ => []

def effect (d : Dispatcher) : DispatchAct → Dispatcher
  | .beginScan => { d with found := some fun _ => .empty }
  | .publish work =>
    { d with hints := d.hints.merge work, found := d.found.map (·.merge work), adding := some work.volumeID }
  | .add => { d with queue := d.adding.toList ++ d.queue, adding := none }
  | .endScan complete => { if complete then d.found.elim d d.replace else d with found := none }
  | .get id => { d with queue := d.queue.filter (· ≠ id), taken := id :: d.taken }
  | .snapshot id now => { d with deferred := (d.snapshot id now).2, taken := d.taken.erase id }
  | .deferDiscovery work result now => d.deferDiscovery work result now
  | .requeue id => { d with queue := id :: d.queue }

def next (d : Dispatcher) (act : DispatchAct) : Dispatcher := { d.effect act with trace := d.events act ++ d.trace }

end Dispatcher

def DispatchRun : List Dispatcher → Prop :=
  Run (fun d => ∃ retryAfter, d = .initial retryAfter) (Run.onHead fun (d : Dispatcher) act t => d.enabled act ∧ t = d.next act)

end ShiftPV

import Mathlib.Data.List.Sort
import ShiftPV.CapacityDecision
import ShiftPV.Grpc
import ShiftPV.Lib.Run

/-! Waiting requests. `Retries` remembers the claims whose creation found no placeable Pool or no capacity, and annotates them
    when a Pool may serve them, so that they are asked for again. The index is advisory and bounded. -/

namespace ShiftPV
open Check

def maxWaiters : Nat := 4096

def waiterLifetime : Int := 15 * 60 * 1000000000

structure Waiter where
  ns : String
  name : String
  uid : String
  node : String
  group : String
  requested : Int
  firstSeen : Int
  lastSeen : Int
  serial : Nat
  /-- It waits for a placeable Pool, not for capacity. -/
  observation : Bool
  observedPool : String
  observedGeneration : Int
  observedProbe : Option Int

def Waiter.matches (w : Waiter) (pool : RegisteredPool) : Bool :=
  if pool.nodeName ≠ w.node ∨ poolGroup pool ≠ w.group then false
  else
    -- The Pool that was observed must have produced new evidence.
    ¬w.observation || w.observedPool ≠ pool.uid || w.observedGeneration ≠ pool.generation ||
      pool.status.lastProbeTime ≠ w.observedProbe

def Waiter.before (a b : Waiter) : Bool := a.firstSeen < b.firstSeen || (a.firstSeen = b.firstSeen && a.uid ≤ b.uid)

/-! ### The index -/

structure RetryIndex where
  waiting : Table Waiter.uid
  serial : Nat

structure WaitingClaim where
  ns : String
  name : String
  uid : String
  node : String
  group : String

structure ObservedPool where
  uid : String
  generation : Int
  lastProbeTime : Option Int

namespace RetryIndex

def empty : RetryIndex := ⟨.empty _, 0⟩

def expire (index : RetryIndex) (now : Int) : RetryIndex :=
  { index with waiting := index.waiting.restrict fun w => ¬now - w.lastSeen ≥ waiterLifetime }

def registerWaiter (index : RetryIndex) (claim : WaitingClaim) (requested : Int) (observation : Bool) (observed : ObservedPool)
    (now : Int) : RetryIndex :=
  if claim.ns = "" ∨ claim.name = "" ∨ claim.uid = "" ∨ claim.node = "" ∨ (¬observation ∧ requested ≤ 0) then index
  else
    let index := index.expire now
    let previous := index.waiting.find claim.uid
    if previous = none ∧ index.waiting.rows.length ≥ maxWaiters then index
    else
      { waiting := index.waiting.put
          { ns := claim.ns, name := claim.name, uid := claim.uid, node := claim.node
            group := if claim.group = "" then defaultPoolGroup else claim.group
            requested, firstSeen := (previous.map (·.firstSeen)).getD now, lastSeen := now, serial := index.serial + 1
            observation, observedPool := observed.uid, observedGeneration := observed.generation
            observedProbe := observed.lastProbeTime }
        serial := index.serial + 1 }

def register (index : RetryIndex) (claim : WaitingClaim) (requested now : Int) : RetryIndex :=
  index.registerWaiter claim requested false ⟨"", 0, none⟩ now

def registerObservation (index : RetryIndex) (claim : WaitingClaim) (observed : ObservedPool) (now : Int) : RetryIndex :=
  index.registerWaiter claim 0 true observed now

def snapshot (index : RetryIndex) : List Waiter := index.waiting.rows.insertionSort fun a b => a.before b

/-- The registration that `w` was read from is still the current one. -/
def holds (index : RetryIndex) (w : Waiter) : Bool := (index.waiting.find w.uid).any fun current => current.serial = w.serial

def take (index : RetryIndex) (w : Waiter) : RetryIndex :=
  if index.holds w then { index with waiting := index.waiting.erase w.uid } else index

def putBack (index : RetryIndex) (w : Waiter) : RetryIndex :=
  if index.waiting.find w.uid = none ∧ index.waiting.rows.length < maxWaiters then
    { index with waiting := index.waiting.put w }
  else index

end RetryIndex

/-! ### Passes -/

structure RetryClaim where
  uid : String
  isDeleting : Bool
  volumeName : String
  isBound : Bool
  selectedNode : String

/-- The claim no longer waits for the node that the waiter is for. -/
def Waiter.settledBy (w : Waiter) (claim : RetryClaim) : Bool :=
  claim.uid ≠ w.uid || claim.isDeleting || claim.volumeName ≠ "" || claim.isBound || claim.selectedNode ≠ w.node

/-- A call of `notify`: first the claim is read, then, with the waiter taken from the index, it is updated. -/
structure NotifyCall where
  waiter : Waiter
  pool : Option RegisteredPool
  taken : Bool

/-- How a capacity wait was served: the Pool it was offered, and whether its claim was updated. -/
structure Offer where
  waiter : Waiter
  pool : Option RegisteredPool
  notified : Bool

def firstFit (pools : Table RegisteredPool.uid) (free : String → Int) (w : Waiter) : Option RegisteredPool :=
  pools.rows.find? fun pool => w.matches pool && w.requested ≤ free pool.uid

structure ObservationLoop where
  waiting : List Waiter
  pools : Table RegisteredPool.uid
  rest : List Waiter
  capacityWaits : List Waiter

/-- The loop over the capacity waits, with the ledger it was started on. -/
structure CapacityLoop where
  waiting : List Waiter
  pools : Table RegisteredPool.uid
  reader : PoolReader
  volumes : Table VolumeObject.id
  moves : List Move
  free : String → Int
  rest : List Waiter
  offers : List Offer

inductive RetryPass where
  | idle
  | pools (waiting : List Waiter)
  | observations (loop : ObservationLoop)
  | ledger (waiting : List Waiter) (pools : Table RegisteredPool.uid) (capacityWaits : List Waiter)
  | capacity (loop : CapacityLoop)

def RetryPass.waiting : RetryPass → List Waiter
  | .idle => []
  | .pools waiting | .ledger waiting _ _ => waiting
  | .observations loop => loop.waiting
  | .capacity loop => loop.waiting

def addRoom (reader : PoolReader) (volumes : Table VolumeObject.id) (moves : List Move) (free : String → Int)
    (pool : RegisteredPool) : Except String (String → Int) := do
  let limit ← reader.parseLimitBytes pool.capacityLimit
  let reserved ← reservedBytesForPool volumes moves pool.uid
  return if reserved < limit then Function.update free pool.uid (limit - reserved) else free

def poolRoom (reader : PoolReader) (volumes : Table VolumeObject.id) (moves : List Move) (pools : Table RegisteredPool.uid) :
    Except String (String → Int) :=
  pools.rows.foldlM (addRoom reader volumes moves) fun _ => 0

structure Retries where
  index : RetryIndex
  pass : RetryPass
  call : Option NotifyCall

inductive RetryAct where
  | register (claim : WaitingClaim) (requested now : Int)
  | registerObservation (claim : WaitingClaim) (observed : ObservedPool) (now : Int)
  | reconcile (now : Int)
  | readyPools (pools : Table RegisteredPool.uid)
  /-- One round of the loop over the observation waits, or its end. -/
  | observe
  | readLedger (reader : PoolReader) (volumes : Table VolumeObject.id) (moves : List Move)
  | offer
  | readClaim (claim : ObjectRead RetryClaim)
  | updateClaim (succeeds : Bool)
  /-- A read of the pass fails or its context is over. -/
  | giveUp

namespace Retries

def returned (s : Retries) (call : NotifyCall) (notified : Bool) : Retries :=
  match s.pass with
  | .capacity loop =>
    { s with
      call := none
      pass := .capacity
        { loop with
          free :=
            match call.pool with
            | some pool => if notified then Function.update loop.free pool.uid (loop.free pool.uid - call.waiter.requested) else loop.free
            | none => loop.free
          offers := ⟨call.waiter, call.pool, notified⟩ :: loop.offers } }
  | _ => { s with call := none }

def observe (s : Retries) (loop : ObservationLoop) : Retries :=
  match loop.rest with
  | [] =>
    if loop.capacityWaits = [] then { s with pass := .idle }
    else { s with pass := .ledger loop.waiting loop.pools loop.capacityWaits }
  | w :: rest =>
    if ¬w.observation then { s with pass := .observations { loop with rest, capacityWaits := loop.capacityWaits ++ [w] } }
    else
      { s with
        pass := .observations { loop with rest }
        call := if loop.pools.rows.any w.matches then some ⟨w, none, false⟩ else none }

def offer (s : Retries) (loop : CapacityLoop) : Retries :=
  match loop.rest with
  | [] => { s with pass := .idle }
  | w :: rest =>
    match firstFit loop.pools loop.free w with
    | none => { s with pass := .capacity { loop with rest, offers := ⟨w, none, false⟩ :: loop.offers } }
    | some pool => { s with pass := .capacity { loop with rest }, call := some ⟨w, some pool, false⟩ }

def readClaim (s : Retries) (call : NotifyCall) : ObjectRead RetryClaim → Retries
  | .notFound => { s with index := s.index.take call.waiter }.returned call false
  | .failed _ => s.returned call false
  | .found claim =>
    if call.waiter.settledBy claim then { s with index := s.index.take call.waiter }.returned call false
    else if s.index.holds call.waiter then { s with index := s.index.take call.waiter, call := some { call with taken := true } }
    else s.returned call false

def next (s : Retries) : RetryAct → Except String Retries
  | .register claim requested now => .ok { s with index := s.index.register claim requested now }
  | .registerObservation claim observed now => .ok { s with index := s.index.registerObservation claim observed now }
  | .reconcile now =>
    match s.pass, s.call with
    | .idle, none =>
      let index := s.index.expire now
      .ok { s with index, pass := if index.snapshot = [] then .idle else .pools index.snapshot }
    | _, _ => .error "a pass is running"
  | .readyPools pools =>
    match s.pass, s.call with
    | .pools waiting, none => .ok { s with pass := .observations { waiting, pools, rest := waiting, capacityWaits := [] } }
    | _, _ => .error "no Pools are read"
  | .observe =>
    match s.pass, s.call with
    | .observations loop, none => .ok (s.observe loop)
    | _, _ => .error "the loop is not at its head"
  | .readLedger reader volumes moves =>
    match s.pass, s.call with
    | .ledger waiting pools capacityWaits, none =>
      match poolRoom reader volumes moves pools with
      | .error _ => .ok { s with pass := .idle }
      | .ok free =>
        .ok { s with pass := .capacity { waiting, pools, reader, volumes, moves, free, rest := capacityWaits, offers := [] } }
    | _, _ => .error "no ledger is read"
  | .offer =>
    match s.pass, s.call with
    | .capacity loop, none => .ok (s.offer loop)
    | _, _ => .error "the loop is not at its head"
  | .readClaim claim =>
    match s.call with
    | some call => if call.taken then .error "the claim is being updated" else .ok (s.readClaim call claim)
    | none => .error "no claim is read"
  | .updateClaim succeeds =>
    match s.call with
    | some call =>
      if ¬call.taken then .error "no claim is updated"
      else if succeeds then .ok (s.returned call true)
      else .ok ({ s with index := s.index.putBack call.waiter }.returned call false)
    | none => .error "no claim is updated"
  | .giveUp => if s.call.any (·.taken) then .error "a claim is being updated" else .ok { s with pass := .idle, call := none }

end Retries

def RetryRun (history : List Retries) : Prop :=
  Run (fun s : Retries => s = ⟨.empty, .idle, none⟩) (Run.onHead fun (s : Retries) act t => s.next act = .ok t) history

end ShiftPV

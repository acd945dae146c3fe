import ShiftPV.PoolAdmission
import ShiftPV.PoolReadiness

/-! The decisions that are made on the capacity ledger. Creation and preparation compare a request with the limit of a
    Pool by different formulas, on 64 bit numbers, and what is advertised is computed from the recorded filesystem
    numbers by a third one. -/

namespace ShiftPV
open Check

/-- The result of an operation of the machine on signed 64 bit numbers. -/
def int64 (x : Int) : Int := x.bmod (2 ^ 64)

def preparationPoolFits (r : PoolReader) (pool : RegisteredPool) (requested : Int) (volumes : Table VolumeObject.id)
    (moves : List Move) : Except String Bool := do
  let limit ← r.parseLimitBytes pool.capacityLimit
  let reserved ← reservedBytesForPool volumes moves pool.uid
  return requested > 0 && requested ≤ int64 (limit - reserved)

/-! ### Creation -/

def defaultPoolGroup : String := "default"

def poolGroup (pool : RegisteredPool) : String := if pool.poolGroup ≠ "" then pool.poolGroup else defaultPoolGroup

def poolLimitBytes (r : PoolReader) (pool : RegisteredPool) : Except String Int := do
  require (pool.capacityLimit ≠ "") "spec.capacity.limit is required"
  r.parseLimitBytes pool.capacityLimit

/-- Whether a creation is admitted to the Pool, with the filesystem as it is read for it. A denial is no error. -/
def poolFits (r : PoolReader) (pool : RegisteredPool) (requested : Int) (volumes : Table VolumeObject.id) (moves : List Move)
    (inspected : Except String Filesystem) : Except String Bool :=
  match poolLimitBytes r pool with
  | .error _ => return false
  | .ok limit => do
    let reserved ← reservedBytesForPool volumes moves pool.uid
    if ¬fitsReservation requested reserved limit then return false
    else match inspected with
      | .error _ => return false
      | .ok stats => return requested ≤ stats.availableBytes

/-! ### Advertised capacity -/

structure CapacityResponse where
  availableCapacity : Int
  maximumVolumeSize : Int
  deriving DecidableEq

def observedPoolHeadroom (r : PoolReader) (pool : MeasuredPool) (reserved : Int) : Int :=
  match r.parseLimitBytes pool.capacityLimit with
  | .error _ => 0
  | .ok limit =>
    if reserved < 0 ∨ reserved ≥ limit then 0
    else match pool.filesystemAvailableBytes, pool.filesystemAvailableInodes with
      | some available, some inodes =>
        if pool.filesystemTotalBytes ≤ 0 ∨ available < 0 ∨ available > pool.filesystemTotalBytes ∨ inodes ≤ 0 then 0
        else min (int64 (limit - reserved)) available
      | _, _ => 0

def CapacityResponse.add (response : CapacityResponse) (available : Int) : CapacityResponse where
  availableCapacity :=
    if available > int64 (maxInt64 - response.availableCapacity) then maxInt64
    else int64 (response.availableCapacity + available)
  maximumVolumeSize := max response.maximumVolumeSize available

def MeasuredPool.inScope (pool : MeasuredPool) (group node : String) : Bool :=
  poolGroup pool.toRegisteredPool = group && (node = "" || pool.nodeName = node)

def addHeadrooms (r : PoolReader) (volumes : Table VolumeObject.id) (moves : List Move) :
    CapacityResponse → List MeasuredPool → Except String CapacityResponse
  | response, [] => pure response
  | response, pool :: rest => do
    let reserved ← reservedBytesForPool volumes moves pool.uid
    addHeadrooms r volumes moves (response.add (observedPoolHeadroom r pool reserved)) rest

/-- The advertised capacity of the Ready Pools of a group, on one node or on all of them. -/
def getCapacity (r : PoolReader) (ready : List MeasuredPool) (volumes : Table VolumeObject.id) (moves : List Move)
    (group node : String) : Except String CapacityResponse :=
  addHeadrooms r volumes moves { availableCapacity := 0, maximumVolumeSize := 0 } (ready.filter (·.inScope group node))

end ShiftPV

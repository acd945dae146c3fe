import ShiftPV.CapacityDecision
import ShiftPV.PoolAdmission

/-! The free space of one Pool. Copies of approved Moves write into the Pool while `convertPreparation` approves more of them.
    -/

namespace ShiftPV
open Check

/-! ### The comparison -/

/-- What the approved Moves other than `current` are to write into the Pool. -/
def pendingPhysicalBytes (current poolUID : String) (volumes : Table VolumeObject.id) : Int → List Move → Except String Int
  | physicalPending, [] => return physicalPending
  | physicalPending, move :: rest =>
    if move.name = current ∨ moveCleanupSettled move ∨ ¬move.status.capacityApproved ∨
        move.status.destinationPoolUID ≠ poolUID then
      pendingPhysicalBytes current poolUID volumes physicalPending rest
    else
      match volumes.find move.spec.volumeID with
      | none => throw ("approved move " ++ quoted move.name ++ " has no volume state")
      | some volume =>
        if volume.state.currentCopy.any (·.poolUID = poolUID) then
          pendingPhysicalBytes current poolUID volumes physicalPending rest
        else do
          require (¬(volume.state.capacityBytes ≤ 0 ∨ move.status.sourceBytes < 0))
            ("approved move " ++ quoted move.name ++ " has invalid capacity state")
          require (¬move.status.sourceBytes > int64 (maxInt64 - physicalPending))
            "destination physical pending total overflows int64"
          pendingPhysicalBytes current poolUID volumes (int64 (physicalPending + move.status.sourceBytes)) rest

def preparedMoveListed (expected : Move) (moves : List Move) : Except String Unit :=
  match moves.find? fun current => current.name = expected.name with
  | none => throw "prepared execution Move disappeared"
  | some current =>
    require (current.uid = expected.uid ∧ current.resourceVersion = expected.resourceVersion ∧
        current.spec = expected.spec ∧ ¬current.deleting ∧ current.status.preparation = expected.status.preparation)
      (errStateConflict ++ ": prepared execution Move changed")

def destinationCapacityForPool (current : Move) (poolUID : String) (volumes : Table VolumeObject.id) (moves : List Move) :
    Except String Int :=
  match volumes.find current.spec.volumeID, current.status.preparation with
  | none, _ => throw ("volume " ++ quoted current.spec.volumeID ++ " has no capacity state")
  | some _, none => throw "prepared execution no longer has its exact quiesced reservation"
  | some volume, some hold => do
    preparedCapacitySnapshot current hold volume.state
    preparedMoveListed current moves
    let _ ← reservedBytesForPool volumes moves poolUID
    pendingPhysicalBytes current.name poolUID volumes 0 moves

def destinationFilesystemShort (physicalPending available sourceBytes : Int) : Bool :=
  physicalPending > available || sourceBytes > int64 (available - physicalPending)

/-! ### Copies -/

def World.committed (w : World) (move : Move) : Bool :=
  (w.store :: w.past).any fun store => store.volume.any fun state =>
    state.currentCopy.isSome && state.currentCopy = move.status.destinationCopy

def World.copiesInto (w : World) (uid : String) (move : Move) : Bool :=
  move.status.capacityApproved && move.status.destinationPoolUID = uid && !w.committed move

/-- What the copy of the Move may still write into the Pool, after what it has written. -/
def World.mayWrite (w : World) (uid : String) (written : String → Int) (move : Move) : Int :=
  if w.copiesInto uid move then max 0 (move.status.sourceBytes - written move.name) else 0

/-- What the copies of the Moves of one volume may still write into the Pool. -/
def World.outstanding (w : World) (uid : String) (written : String → Int) : Int :=
  (w.store.moves.rows.map (w.mayWrite uid written)).sum

def Fleet.outstanding (f : Fleet) (uid : String) (written : String → Int) : Int :=
  (f.worlds.rows.map (·.outstanding uid written)).sum

/-! ### The Pool -/

inductive ConvertStage where
  | locked
  | volumes (listed : Table VolumeObject.id)
  | pending (physicalPending : Int)
  | compared (short : Bool)

/-- A conversion that holds the lock of the Pool, with the Move it was called for. -/
structure Conversion where
  volumeID : String
  move : Move
  stage : ConvertStage

/-- An installation around one Pool, with the filesystem of the Pool. -/
structure CopySpace where
  fleet : Fleet
  free : Int
  written : String → Int
  converting : Option Conversion

def CopySpace.outstanding (s : CopySpace) (uid : String) : Int := s.fleet.outstanding uid s.written

inductive SpaceAct where
  | fleet (act : FleetAct)
  | copy (volumeID name : String) (bytes : Int)
  | reclaim (bytes : Int)
  | beginConvert (volumeID name : String)
  | convertVolumes
  | convertMoves
  | convertStat
  | convertWrite
  | leave

def Fleet.locks (f : Fleet) (uid : String) : FleetAct → Bool
  | .beginCreate .. | .beginGrant .. | .beginDeletion .. => true
  | .step volumeID act => (f.worlds.find volumeID).any (·.handsOver uid act)
  | _ => false

def Fleet.converts (f : Fleet) (uid : String) : FleetAct → Bool
  | .step volumeID (.evidence name .convert) => (f.worlds.find volumeID).any (·.handsOver uid (.evidence name .convert))
  | _ => false

namespace CopySpace

def step (home : PoolHome) (limit : Int) (s : CopySpace) : SpaceAct → Except String CopySpace
  | .fleet act => do
    require (¬s.fleet.converts home.uid act) "a preparation is converted under the lock of its Pool"
    require (s.fleet.locks home.uid act → s.converting.isNone) "the Pool is locked"
    let fleet ← s.fleet.step home limit act
    return { s with fleet }
  | .copy volumeID name bytes => do
    let w ← s.fleet.world volumeID
    let move ← w.store.move name
    require (w.copiesInto home.uid move) "the Move does not copy into this Pool"
    require (0 ≤ bytes ∧ s.written name + bytes ≤ move.status.sourceBytes) "the copy is complete"
    return { s with
      free := s.free - bytes
      written := fun other => if other = name then s.written name + bytes else s.written other }
  | .reclaim bytes => do
    require (0 ≤ bytes) "nothing is reclaimed"
    return { s with free := s.free + bytes }
  | .beginConvert volumeID name => do
    require (s.fleet.lock.isNone ∧ s.converting.isNone) "the Pool is locked"
    let w ← s.fleet.world volumeID
    let pass ← w.pass name
    require (pass.move.status.sourceBytes > 0) "source usage observation is pending"
    require (pass.move.status.preparation.any (·.pool.uid = home.uid)) "another Pool"
    return { s with converting := some { volumeID, move := pass.move, stage := .locked } }
  | .convertVolumes =>
    match s.converting with
    | some { volumeID, move, stage := .locked } => do
      let fleet ← s.fleet.advance volumeID (.reread move.name)
      return { s with fleet, converting := some { volumeID, move, stage := .volumes s.fleet.volumes } }
    | _ => throw "no conversion lists Volumes"
  | .convertMoves =>
    match s.converting with
    | some { volumeID, move, stage := .volumes listed } => do
      -- objects of one kind have distinct names
      require (s.fleet.moves.map (·.name)).Nodup "list ShiftPVMoves: names are not unique"
      let physicalPending ← destinationCapacityForPool move home.uid listed s.fleet.moves
      return { s with converting := some { volumeID, move, stage := .pending physicalPending } }
    | _ => throw "no conversion lists Moves"
  | .convertStat =>
    match s.converting with
    | some { volumeID, move, stage := .pending physicalPending } => do
      require (s.free ≤ maxInt64) "inspect prepared destination filesystem: block count and size overflow int64"
      let short := destinationFilesystemShort physicalPending s.free move.status.sourceBytes
      return { s with converting := some { volumeID, move, stage := .compared short } }
    | _ => throw "no conversion reads the filesystem"
  | .convertWrite =>
    match s.converting with
    | some { volumeID, move, stage := .compared short } => do
      let w ← s.fleet.world volumeID
      -- the call still runs, so its Move is the one it was called for
      require ((w.passes move.name).any (·.move = move)) "the pass of the Move is over"
      let fleet ← s.fleet.advance volumeID (.evidence move.name (if short then .deny else .convert))
      return { s with fleet, converting := none }
    | _ => throw "no conversion writes"
  | .leave => return { s with converting := none }

def Initial (home : PoolHome) (s : CopySpace) : Prop :=
  s.fleet.Initial home ∧ 0 ≤ s.free ∧ (∀ name, s.written name = 0) ∧ s.converting = none

end CopySpace

abbrev SpaceRun (home : PoolHome) (limit : Int) : List CopySpace → Prop :=
  Run (CopySpace.Initial home) (Run.onHead fun s (act : SpaceAct) s' => s.step home limit act = .ok s')

end ShiftPV

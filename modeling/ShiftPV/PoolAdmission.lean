import ShiftPV.Controller
import ShiftPV.PoolChecks

/-! The admissions of one Pool. Volumes and Moves of a whole installation take room in the Pool through two doors,
    `attemptCreateInPool` and `grantPreparation`, and the Pool goes through `reconcileDeletion`. -/

namespace ShiftPV
open Check

/-! ### The objects of all volumes -/

def World.volumeID (w : World) : String := w.store.volumeID

def World.volumeObject (w : World) : Option VolumeObject := w.store.volume.map fun state => ⟨w.store.volumeID, state⟩

/-- The worlds of the volumes of one installation. They share no object. -/
structure Installation where
  worlds : List World
  distinct : (worlds.map (·.store.volumeID)).Nodup

theorem World.volumeObject_id {w : World} {volume : VolumeObject} (h : w.volumeObject = some volume) :
    volume.id = w.store.volumeID := by
  obtain ⟨state, -, rfl⟩ := Option.map_eq_some_iff.mp h
  rfl

def Installation.volumes (i : Installation) : Table VolumeObject.id where
  rows := i.worlds.filterMap World.volumeObject
  nodup := by
    obtain ⟨worlds, distinct⟩ := i
    refine List.Pairwise.map _ (fun _ _ h => h) (List.Pairwise.filterMap _ ?_ (List.pairwise_map.mp distinct))
    intro w w' hne volume hvolume volume' hvolume' heq
    exact hne (by rw [← World.volumeObject_id hvolume, ← World.volumeObject_id hvolume', heq])

def Installation.moves (i : Installation) : List Move := i.worlds.flatMap (·.store.moves.rows)

/-! ### Steps that concern the Pool -/

def WorldAct.admits (uid : String) : WorldAct → Bool
  | .evidence _ (.grant pool _ _) => pool.uid = uid
  | .external (.volume (.bindInitialPool _ pool)) => pool.uid = uid
  | _ => false

def Pass.commits (pass : Pass) : Bool :=
  match pass.stage with
  | .started => false
  | .decided _ decision _ _ => decision.action = .commitOwner

/-- The step takes the lock of the Pool to make a preparation an approval, or to hand the Volume over to the Pool. -/
def World.handsOver (w : World) (uid : String) : WorldAct → Bool
  | .evidence name .convert => (w.passes name).any fun pass => pass.move.status.preparation.any (·.pool.uid = uid)
  | .write name => (w.passes name).any fun pass => pass.commits && pass.move.status.destinationCopy.any (·.poolUID = uid)
  | _ => false

/-! ### Critical sections -/

structure CreationRequest where
  volumeID : String
  requestName : String
  capacityBytes : Int

inductive CreateStage where
  | locked
  | volumes (listed : Table VolumeObject.id)
  | fits
  | placed

inductive GrantStage where
  | locked
  | ready (current : RegisteredPool)
  | volumes (current : RegisteredPool) (listed : Table VolumeObject.id)
  | moves (current : RegisteredPool) (listed : Table VolumeObject.id) (moves : List Move)

inductive DeletionStage where
  | locked
  | volumes (target : RegisteredPool) (listed : Table VolumeObject.id)
  | checked (safe : Bool)

/-- Who holds the lock of the Pool, with the Pool it chose before it took the lock. -/
inductive Holder where
  | create (pool : RegisteredPool) (request : CreationRequest) (stage : CreateStage)
  | grant (pool : RegisteredPool) (volumeID name : String) (stage : GrantStage)
  | deletion (pool : RegisteredPool) (stage : DeletionStage)

structure PoolHome where
  name : String
  uid : String
  nodeName : String

structure Fleet where
  pools : List RegisteredPool
  worlds : Table World.volumeID
  lock : Option Holder

def Fleet.installation (f : Fleet) : Installation := ⟨f.worlds.rows, f.worlds.nodup⟩

def Fleet.volumes (f : Fleet) : Table VolumeObject.id := f.installation.volumes

def Fleet.moves (f : Fleet) : List Move := f.installation.moves

inductive FleetAct where
  /-- Registrations come, change and go. -/
  | register (pools : List RegisteredPool)
  /-- A Volume object that takes no room in this Pool. -/
  | appear (volumeID : String) (state : State)
  | step (volumeID : String) (act : WorldAct)
  | beginCreate (pool : RegisteredPool) (request : CreationRequest)
  | createVolumes
  | createMoves
  | createPlace (reader : PoolReader)
  | createVolume (uid : String)
  | createBind (expected : State)
  | beginGrant (pool : RegisteredPool) (volumeID name : String)
  | grantReady (reader : PoolReader)
  | grantVolumes
  | grantMoves
  | grantWrite (placementPodUID : String)
  | beginDeletion (pool : RegisteredPool)
  | deletionVolumes
  | deletionMoves (others : List Blocker)
  | removeFinalizer
  | unlock

def fitsReservation (requested reserved limit : Int) : Bool :=
  requested > 0 && reserved ≥ 0 && reserved < limit && requested ≤ limit - reserved

def exactPool (pools : List RegisteredPool) (name uid : String) : Except String RegisteredPool := do
  require (name ≠ "" ∧ uid ≠ "") "exact Pool identity is required"
  match pools.find? fun pool => pool.name = name with
  | none => throw ("Pool " ++ quoted name ++ " was not found")
  | some pool =>
    require (pool.uid = uid) ("Pool " ++ quoted name ++ " identity changed")
    return pool

def newVolumeObject (request : CreationRequest) (pool : RegisteredPool) (uid : String) : State where
  uid := uid
  finalizers := [volumeProtectionFinalizer]
  requestName := request.requestName
  capacityBytes := request.capacityBytes
  initialNode := pool.nodeName
  initialPool := some { name := pool.name, uid := pool.uid }
  creationClaim := none
  hasCleanup := false
  deleting := false
  phase := .unset
  ownerNode := ""
  activeMove := ""
  publishedNodes := []
  creationOperationID := ""
  deletionOperationID := ""
  currentCopy := none
  creationExecutor := none
  creationReceipt := none

/-- A registration without its protection; an object without finalizers is gone. -/
def removePoolFinalizer (uid : String) (pool : RegisteredPool) : Option RegisteredPool :=
  if pool.uid ≠ uid then some pool
  else
    let finalizers := pool.finalizers.filter (· ≠ poolProtectionFinalizer)
    if finalizers = [] then none else some { pool with finalizers }

namespace Fleet

def world (f : Fleet) (volumeID : String) : Except String World :=
  match f.worlds.find volumeID with
  | some w => return w
  | none => throw "ShiftPVVolume not found"

def advance (f : Fleet) (volumeID : String) (act : WorldAct) : Except String Fleet := do
  let w ← f.world volumeID
  let next ← w.step act
  return { f with worlds := f.worlds.put next }

/-- A new Volume object under an ID that was never used. -/
def add (f : Fleet) (volumeID : String) (state : State) : Except String Fleet := do
  require (f.worlds.find volumeID = none) "begin ShiftPVVolume creation: already exists"
  require state.unstartedCreation "volume creation request is incomplete"
  let w : World := { store := { volumeID, volume := some state, cleanup := none, moves := .empty Move.name }
                     past := [], passes := fun _ => none }
  return { f with worlds := f.worlds.put w }

/-- A Pool UID names one Pool, and a deletion is not taken back. -/
def registered (home : PoolHome) (f : Fleet) (pools : List RegisteredPool) : Bool :=
  pools.all fun pool => pool.uid ≠ home.uid ||
    (pool.name = home.name && pool.nodeName = home.nodeName && f.pools.any (·.uid = home.uid) &&
      f.pools.all fun old => old.uid ≠ home.uid || !old.isDeleting || pool.isDeleting)

def hold (f : Fleet) (holder : Holder) : Except String Fleet := do
  require f.lock.isNone "the Pool is locked"
  return { f with lock := some holder }

def step (home : PoolHome) (limit : Int) (f : Fleet) : FleetAct → Except String Fleet
  | .register pools => do
    require (f.registered home pools) "ShiftPVPool identity is immutable"
    return { f with pools }
  | .appear volumeID state => do
    require (state.initialPool.all (·.uid ≠ home.uid)) "the Volume reserves room in this Pool"
    f.add volumeID state
  | .step volumeID act => do
    require (¬act.admits home.uid) "room in this Pool is admitted under its lock"
    let w ← f.world volumeID
    require (w.handsOver home.uid act → f.lock.isNone) "the Pool is locked"
    f.advance volumeID act
  | .beginCreate pool request => do
    require (pool.uid = home.uid ∧ pool.name = home.name ∧ pool.nodeName = home.nodeName) "another Pool"
    f.hold (.create pool request .locked)
  | .createVolumes =>
    match f.lock with
    | some (.create pool request .locked) => return { f with lock := some (.create pool request (.volumes f.volumes)) }
    | _ => throw "no admission lists Volumes"
  | .createMoves =>
    match f.lock with
    | some (.create pool request (.volumes listed)) => do
      let reserved ← reservedBytesForPool listed f.moves pool.uid
      require (fitsReservation request.capacityBytes reserved limit) "Pool reservation limit exceeded"
      return { f with lock := some (.create pool request .fits) }
    | _ => throw "no admission lists Moves"
  | .createPlace reader =>
    match f.lock with
    | some (.create pool request .fits) => do
      let _ ← reader.readyPoolForIdentity f.pools pool.name pool.uid pool.nodeName
      return { f with lock := some (.create pool request .placed) }
    | _ => throw "no admission places its Volume"
  | .createVolume uid =>
    match f.lock with
    | some (.create pool request .placed) => do
      let f ← f.add request.volumeID (newVolumeObject request pool uid)
      return { f with lock := none }
    | _ => throw "no admission creates a Volume"
  | .createBind expected =>
    match f.lock with
    | some (.create pool request .placed) => do
      -- the request of a Volume that an older release left without reservation is the Volume's own
      require (expected.capacityBytes = request.capacityBytes ∧ expected.initialNode = pool.nodeName) errStateConflict
      let f ← f.advance request.volumeID
        (.external (.volume (.bindInitialPool expected { name := pool.name, uid := pool.uid })))
      return { f with lock := none }
    | _ => throw "no admission binds a Volume"
  | .beginGrant pool volumeID name => do
    require (pool.uid = home.uid ∧ pool.name = home.name ∧ pool.nodeName = home.nodeName) "another Pool"
    f.hold (.grant pool volumeID name .locked)
  | .grantReady reader =>
    match f.lock with
    | some (.grant pool volumeID name .locked) => do
      let current ← reader.readyPoolForIdentity f.pools pool.name pool.uid pool.nodeName
      return { f with lock := some (.grant pool volumeID name (.ready current)) }
    | _ => throw "no preparation reads its Pool"
  | .grantVolumes =>
    match f.lock with
    | some (.grant pool volumeID name (.ready current)) => do
      let next ← f.advance volumeID (.reread name)
      return { next with lock := some (.grant pool volumeID name (.volumes current f.volumes)) }
    | _ => throw "no preparation lists Volumes"
  | .grantMoves =>
    match f.lock with
    | some (.grant pool volumeID name (.volumes current listed)) =>
      return { f with lock := some (.grant pool volumeID name (.moves current listed f.moves)) }
    | _ => throw "no preparation lists Moves"
  | .grantWrite placementPodUID =>
    match f.lock with
    | some (.grant _ volumeID name (.moves current listed moves)) => do
      match listed.find volumeID with
      | none => throw "preparation requires its Ready source claim"
      | some volume => do
        let reserved ← reservedBytesForPool listed moves current.uid
        require (0 < volume.state.capacityBytes ∧ volume.state.capacityBytes ≤ limit - reserved) "PreparationCapacity"
        require current.status.capacityProbeSupported "capacity probe is pending"
        let f ← f.advance volumeID
          (.evidence name (.grant { name := current.name, uid := current.uid } current.nodeName placementPodUID))
        return { f with lock := none }
    | _ => throw "no preparation is granted"
  | .beginDeletion pool => do
    require (pool.uid = home.uid ∧ pool.name = home.name ∧ pool.isDeleting) "another Pool"
    -- the deletion time that the reconciler listed is stamped
    require (f.pools.all fun registered => registered.uid ≠ home.uid || registered.isDeleting) "the Pool is not deleted"
    f.hold (.deletion pool .locked)
  | .deletionVolumes =>
    match f.lock with
    | some (.deletion pool .locked) => do
      let target ← exactPool f.pools pool.name pool.uid
      return { f with lock := some (.deletion pool (.volumes target f.volumes)) }
    | _ => throw "no deletion lists Volumes"
  | .deletionMoves others =>
    match f.lock with
    | some (.deletion pool (.volumes target listed)) =>
      return { f with lock := some (.deletion pool (.checked (safeReport (checkPoolDeleteAfter listed f.moves others target)))) }
    | _ => throw "no deletion lists Moves"
  | .removeFinalizer =>
    match f.lock with
    | some (.deletion pool (.checked true)) =>
      return { f with pools := f.pools.filterMap (removePoolFinalizer pool.uid), lock := none }
    | _ => throw "the deletion is not safe"
  | .unlock => return { f with lock := none }

def Initial (home : PoolHome) (f : Fleet) : Prop :=
  f.worlds.rows = [] ∧ f.lock = none ∧
    ∀ pool ∈ f.pools, pool.uid = home.uid → pool.name = home.name ∧ pool.nodeName = home.nodeName

end Fleet

abbrev FleetRun (home : PoolHome) (limit : Int) : List Fleet → Prop :=
  Run (Fleet.Initial home) (Run.onHead fun f (act : FleetAct) f' => f.step home limit act = .ok f')

end ShiftPV

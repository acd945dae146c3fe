import ShiftPV.PoolScan
import ShiftPV.Reclaim

/-! The scan of a Pool directory by its node. It takes no lock. The three places are listed one after another, then
    every placement record is read and compared with the path that it names, and last every listed path that no record
    accounts for is looked at again. Each read is one step, and operations of the node run in between. -/

namespace ShiftPV
open Check

variable {Api : Type}

def Fault.text : Fault → String
  | .notExist => "no such file or directory"
  | .alreadyExists => "file exists"
  | .notDirectory => "not a directory"
  | .notEmpty => "directory not empty"
  | .noSpace => "no space left on device"
  | .identity => "node storage identity mismatch"
  | .needsReview "" => "node storage state needs review"
  | .needsReview text => "node storage state needs review: " ++ text
  | .refused text => text
  | .wrapped context cause => context ++ ": " ++ cause.text
  | .joined first second => first.text ++ "\n" ++ second.text

/-! ### Placement records -/

def Disk.control (d : Disk) : Bool := (d.areas .incoming).isSome || (d.areas .retired).isSome || !d.markers.keys.isEmpty

def Disk.placements (d : Disk) : List String := d.markers.keys.filterMap fun
  | .placement copyID => some copyID
  | _ => none

namespace Inventory

structure Observation where
  marker : String
  identity : Option CopyIdentity
  isPresent : Bool
  problem : String

def placementMarker (copyID : String) : String := "placement-" ++ copyID ++ ".json"

section

variable (pool : PoolIdentity)

/-- A record that names its own file and this Pool, is still there, and belongs to a copy that has its marker. -/
def readPlacement (copyID : String) : NodeOp Api Placement := do
  let record ← NodeOp.readPlacement copyID
  .ensure (record.identity.valid ∧ record.identity.copyID = copyID) .identity
  .ensure (record.identity.installationID = pool.installationID ∧ record.identity.poolUID = pool.poolUID) .identity
  NodeOp.checkMarker (.placement copyID) (.placement record)
  NodeOp.checkMarker (.copy copyID) (.copy record.identity)
  return record

def pathPresent (record : Placement) : NodeOp Api Bool :=
  match NodeOp.rolePath record.identity with
  | none => .fail .identity
  | some (area, name) => do
    match ← NodeOp.ifExists (NodeOp.openArea area) with
    | none => return false
    | some _ =>
      match ← NodeOp.ifExists (NodeOp.openDirectory area name) with
      | none => return false
      | some id =>
        .ensure (id.val = record.id) .identity
        return true

def observe (copyID : String) : NodeOp Api Observation := do
  match ← (readPlacement pool copyID).attempt with
  | .error e => return { marker := placementMarker copyID, identity := none, isPresent := false, problem := e.text }
  | .ok record =>
    match ← (pathPresent record).attempt with
    | .error e => return { marker := placementMarker copyID, identity := none, isPresent := false, problem := e.text }
    | .ok isPresent =>
      return { marker := placementMarker copyID, identity := some record.identity, isPresent, problem := "" }

def observeEach : List String → NodeOp Api (List Observation)
  | [] => return []
  | copyID :: rest => do
    let first ← observe pool copyID
    let others ← observeEach rest
    return first :: others

/-- The names that are left to read. The first read lists the directory. -/
def readDir : Option (List String) → NodeOp Api (List String)
  | none => NodeOp.look fun d => .ok d.placements
  | some names => return names

structure Page where
  items : List Observation
  rest : List String
  done : Bool

def page (stream : Option (List String)) (limit : Nat) : NodeOp Api Page := do
  .ensure (1 ≤ limit ∧ limit ≤ 64) (.refused "inventory page limit must be 1..64")
  NodeOp.checkMarker .pool (.pool pool)
  let names ← readDir stream
  let items ← observeEach pool (names.take limit)
  return { items, rest := names.drop limit, done := names.isEmpty }

end

end Inventory

/-! ### Paths -/

def Area.path : Area → String
  | .volumes => "volumes"
  | .incoming => ".shiftpv/incoming"
  | .retired => ".shiftpv/retired"

def unrecordedPath (place : Area × String) (problem : String) : CopyObservation :=
  { marker := "path:" ++ place.1.path ++ "/" ++ place.2, identity := none, isPresent := true, published := false, problem }

/-- Lists one place after another; `true` says that the limit left something out. -/
def listDirectories (limit : Nat) : List Area → List (Area × String) → NodeOp Api (List (Area × String) × Bool)
  | [], result => return (result, false)
  | area :: rest, result => do
    match ← NodeOp.look fun d => .ok ((d.areas area).map fun rows => rows.keys) with
    | none => listDirectories limit rest result
    | some names =>
      let room := limit - result.length
      if room < names.length then
        return (result ++ (names.take room).map (area, ·), true)
      else
        listDirectories limit rest (result ++ names.map (area, ·))

def scanPhysical (limit : Nat) : NodeOp Api (List (Area × String) × Bool) := do
  let control ← NodeOp.look fun d => .ok d.control
  listDirectories limit (if control then [.volumes, .incoming, .retired] else [.volumes]) []

def physicalPathType (place : Area × String) : NodeOp Api (Option Bool) := do
  match ← NodeOp.ifExists (NodeOp.openArea place.1) with
  | none => return none
  | some _ => NodeOp.look fun d => .ok ((d.find place.1 place.2).map fun entry => entry.id?.isSome)

/-- Only a verified present serving copy explains its vanished creation stage. -/
def completedCreationStage (place : Area × String) (copies : List CopyObservation) : Bool :=
  copies.any fun item => item.identity.any fun identity =>
    item.isPresent && item.problem = "" && identity.role = .serving && place = (.incoming, NodeOp.stageName identity)

/-- Looks again at every listed path that is not `known`. `false` says that the answer already carries its message. -/
def observeUnrecorded (limit : Nat) (known : List (Area × String)) :
    List (Area × String) → PoolInventory → NodeOp Api (PoolInventory × Bool)
  | [], result => return (result, true)
  | place :: paths, result =>
    if place ∈ known then
      observeUnrecorded limit known paths result
    else do
      match ← physicalPathType place with
      | none =>
        if completedCreationStage place result.copies then
          observeUnrecorded limit known paths result
        else
          return ({ result with message := "PhysicalInventoryChanged" }, false)
      | some isDirectory =>
        if result.copies.length = limit then
          return ({ result with truncated := true }, true)
        else
          let item := unrecordedPath place (if isDirectory then "UnrecordedPath" else "UnexpectedPathType")
          observeUnrecorded limit known paths { result with copies := result.copies ++ [item] }

def copyProblemMessage (copies : List CopyObservation) : String :=
  if copies.any (·.problem ≠ "") then "CopyObservationProblem" else ""

/-! ### Scans -/

/-- Whether the directory at a path below the Pool is mounted anywhere. -/
abbrev Publications := String → Except String Bool

structure Scanner where
  hostRoot : String
  targetRoot : String
  installation : Option (Except String String)
  publications : Option Publications
  snapshotPublications : Option (Except String (Option Publications))
  limit : Nat
  verifyBacking : Except String Unit

structure Recording where
  copies : List CopyObservation
  known : List (Area × String)
  stream : Option (List String)
  done : Bool
  failure : String

def Recording.start : Recording := { copies := [], known := [], stream := none, done := false, failure := "" }

namespace Scanner

variable (s : Scanner)

def isAbs (path : String) : Bool := path.toList.head? = some '/'

def configurationInvalid (pool : Pool) : Bool :=
  s.installation.isNone || s.publications.isNone || !isAbs s.hostRoot || !isAbs s.targetRoot || pool.uid = "" ||
    s.limit < 1 || 256 < s.limit

/-- The publications of one scan, which are read once when there is a way to. -/
def scanPublications : Option Publications :=
  match s.snapshotPublications with
  | none => s.publications
  | some (.ok publications) => publications
  | some (.error _) => none

section

variable (publications : Publications) (pool : Pool) (installationID : String)

/-- A placement of another installation, Pool or node loses its identity; an intact present copy is asked for mounts. -/
def observeItem (item : Inventory.Observation) : CopyObservation :=
  let observation : CopyObservation :=
    { marker := item.marker, identity := item.identity, isPresent := item.isPresent, published := false, problem := item.problem }
  match item.identity with
  | none => observation
  | some identity =>
    if identity.installationID ≠ installationID ∨ identity.poolName ≠ pool.name ∨ identity.poolUID ≠ pool.uid ∨
        identity.nodeName ≠ pool.nodeName then
      { observation with identity := none, problem := "PoolIdentityMismatch" }
    else if item.isPresent ∧ item.problem = "" then
      match NodeOp.rolePath identity with
      | none => observation
      | some (area, name) =>
        match publications (area.path ++ "/" ++ name) with
        | .ok published => { observation with published }
        | .error e => { observation with problem := "PublicationObservationFailed: " ++ e }
    else
      observation

def knownPath (item : Inventory.Observation) : Option (Area × String) :=
  if item.isPresent then item.identity.bind NodeOp.rolePath else none

def addPage (r : Recording) (page : Inventory.Page) : Recording :=
  { r with copies := r.copies ++ page.items.map (observeItem publications pool installationID)
           known := r.known ++ page.items.filterMap knownPath
           stream := some page.rest
           done := page.done }

def poolIdentity : PoolIdentity := { installationID, poolUID := pool.uid }

/-- Pages through the records. Every page but the last adds a copy, so that `limit + 1` of them are enough. -/
def recordPages : Nat → Recording → NodeOp Api Recording
  | 0, r => return r
  | fuel + 1, r =>
    if r.done ∨ s.limit ≤ r.copies.length then
      return r
    else do
      match ← (Inventory.page (poolIdentity pool installationID) r.stream (min 64 (s.limit - r.copies.length))).attempt with
      | .error e => return { r with failure := "InventoryReadFailed: " ++ e.text }
      | .ok page => recordPages fuel (addPage publications pool installationID r page)

/-- At the limit, one more page tells whether anything is left. -/
def probeRest (r : Recording) : NodeOp Api Recording :=
  if r.failure = "" ∧ ¬r.done ∧ r.copies.length = s.limit then do
    match ← (Inventory.page (poolIdentity pool installationID) r.stream 1).attempt with
    | .error e => return { r with failure := "InventoryReadFailed: " ++ e.text }
    | .ok page => return { r with stream := some page.rest, done := page.items.isEmpty && page.done }
  else
    return r

def observeRecorded : NodeOp Api Recording := do
  let r ← recordPages s publications pool installationID (s.limit + 1) .start
  probeRest s pool installationID r

def finish (paths : List (Area × String)) (known : List (Area × String)) (result : PoolInventory) :
    NodeOp Api PoolInventory := do
  let (result, complete) ← observeUnrecorded s.limit known paths result
  if ¬complete then
    return result
  else
    match s.verifyBacking with
    | .error e => return { result with message := "MountUnavailable: " ++ e }
    | .ok _ =>
      let message := if result.message = "" then copyProblemMessage result.copies else result.message
      return { result with message, valid := message = "" }

def scanFiles : NodeOp Api PoolInventory := do
  let (paths, truncated) ← scanPhysical s.limit
  match ← (NodeOp.openExisting (poolIdentity pool installationID)).attempt with
  | .ok _ =>
    match ← (NodeOp.checkMarker .pool (.pool (poolIdentity pool installationID))).attempt with
    | .error e => return unscannedInventory ("InventoryOpenFailed: " ++ e.text)
    | .ok _ =>
      let r ← observeRecorded s publications pool installationID
      if r.failure ≠ "" then
        return { unscannedInventory r.failure with copies := r.copies }
      else
        s.finish paths r.known { valid := false, truncated := !r.done || truncated, message := "", copies := r.copies }
  | .error e =>
    let message := if e.missing then "" else "PoolIdentityInvalid: " ++ e.text
    s.finish paths [] { valid := false, truncated, message, copies := [] }

end

def scan (pool : Pool) : NodeOp Api PoolInventory :=
  if s.configurationInvalid pool then
    return unscannedInventory "InventoryConfigurationInvalid"
  else
    match s.scanPublications with
    | none => return unscannedInventory "PublicationSnapshotUnavailable"
    | some publications =>
      match s.installation with
      | none => return unscannedInventory "InventoryConfigurationInvalid"
      | some (.error e) => return unscannedInventory ("InstallationIdentityUnavailable: " ++ e)
      | some (.ok installationID) =>
        match s.verifyBacking with
        | .error e => return unscannedInventory ("MountUnavailable: " ++ e)
        | .ok _ => s.scanFiles publications pool installationID

end Scanner

/-! ### Operations at work on a Pool -/

/-- The operations of a node on the directories of a Pool, with what they are called with. -/
inductive PoolOperation (Api : Type) where
  | prepareServing (identity : CopyIdentity) (fresh : LiveID) (authority : Api → Except Fault Unit)
  | populateIncoming (identity : CopyIdentity) (operationID : String) (fresh : LiveID) (population : NodeOp.Population)
      (authority : Api → Except Fault Unit)
  | promoteIncoming (incoming serving : CopyIdentity) (operationID : String) (authority : Api → Except Fault Unit)
  | cancelCreation (target : CopyIdentity) (operationID : String) (authority : Bool → Api → Except Fault Unit)
  | reclaimWithResume (target : CopyIdentity) (operationID : String) (authority : Bool → Api → Except Fault Unit)

section

-- the hash of a receipt's text
variable (receiptDigest : Receipt → String)

def PoolOperation.program : PoolOperation Api → NodeOp Api Unit
  | .prepareServing identity fresh authority => NodeOp.prepareServing identity fresh authority
  | .populateIncoming identity operationID fresh population authority =>
    NodeOp.populateIncoming identity operationID fresh population authority
  | .promoteIncoming incoming serving operationID authority => NodeOp.promoteIncoming incoming serving operationID authority
  | .cancelCreation target operationID authority => do
    let _ ← NodeOp.cancelCreation receiptDigest target operationID authority
    return ()
  | .reclaimWithResume target operationID authority => do
    let _ ← NodeOp.reclaimWithResume receiptDigest target operationID authority
    return ()

/-- A Pool directory, and what is left of the operations that run on it. -/
structure BusyPool (Api : Type) where
  host : Host Api
  running : List (NodeOp Api Unit)

inductive PoolStep (Api : Type) where
  | surroundings (api : Api)
  | start (operation : PoolOperation Api)
  | advance (index : Nat)
  /-- The operation at an index has ended, or dies here. -/
  | leave (index : Nat)
  | rest

/-- Locks are not asked for: what holds here holds whatever the locks exclude. -/
def BusyPool.step (pool : BusyPool Api) : PoolStep Api → BusyPool Api
  | .surroundings api => { pool with host := { pool.host with api } }
  | .start operation => { pool with running := operation.program receiptDigest :: pool.running }
  | .advance index =>
    match pool.running[index]? with
    | some (.step act next) => { host := act pool.host, running := pool.running.set index (next pool.host) }
    | _ => pool
  | .leave index => { pool with running := pool.running.eraseIdx index }
  | .rest => pool

/-- The Pool at every moment, from any directory on which nothing runs yet. -/
structure PoolHistory (D : Nat → BusyPool Api) : Prop where
  idle : (D 0).running = []
  step : ∀ k, ∃ act, (D k).step receiptDigest act = D (k + 1)

end

end ShiftPV

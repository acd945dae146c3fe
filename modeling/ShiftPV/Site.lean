import ShiftPV.Authority
import ShiftPV.Reclaim

/-! The destination Pool of one Move. Copies, promotions and rollback cleanups of the Move run there one at a time,
    each holding the lock of the volume to its end; each may be stopped after any step. Meanwhile the controller goes
    on, and every authority check reads the objects as they are then. -/

namespace ShiftPV
open Check

/-- What the authority checks read: the stored objects, the executor's own surroundings, the Pool inventories. -/
structure SiteApi where
  world : World
  executor : ExecutorReads
  pools : CopyIdentity → Option PoolEvidence

def SiteApi.reads (cluster : SiteApi) : AuthorityReads :=
  authorityReads cluster.world.store cluster.world.store cluster.pools

def helperAuthority (options : MoveOptions) (action : MoveAction) (target : CopyIdentity) (cluster : SiteApi) :
    Except Fault Unit :=
  Except.mapError Fault.refused do
    moveAuthority cluster.reads cluster.executor options action target
    cluster.executor.localAuthority target

/-- The check of the resident executor: the approved journal is still the running one, and its parent authorizes it. -/
def reclaimAuthority (approved : Journal) (cluster : SiteApi) : Except Fault Unit :=
  Except.mapError Fault.refused do
    match cluster.reads.getMove approved.spec.authority.name with
    | none => throw "read cleanup journal"
    | some move =>
      require (move.uid = approved.spec.authority.uid ∧ move.cleanup.any fun current => current.spec = approved.spec ∧
        current.status.phase = .running ∧ current.status.executor = approved.status.executor) errConflict
      verifyCleanupAuthority cluster.reads approved.spec
      cluster.executor.localAuthority approved.spec.target

/-- The runs for the copies of a Move. `fresh` is the inode that the filesystem allocates. -/
inductive Job where
  | copy (operationID : String) (fresh : LiveID) (population : NodeOp.Population)
  | promote (operationID : String)
  | reclaim (approved : Journal)

section

-- the Move, and the hash of a receipt's text
variable (moveName moveUID : String) (receiptDigest : Receipt → String)

def Job.program (move : Move) : Job → Except String (NodeOp SiteApi Unit)
  | .copy operationID fresh population =>
    match move.status.incomingCopy with
    | none => throw (stateConflict "copy intent identity changed")
    | some identity => do
      require (move.uid = moveUID ∧ move.status.copyOperationID = operationID) (stateConflict "copy intent identity changed")
      return NodeOp.populateIncoming identity operationID fresh population
        (helperAuthority { moveName, moveUID, operationID } .copy identity)
  | .promote operationID =>
    match move.status.incomingCopy, move.status.destinationCopy with
    | some incoming, some destination => do
      require (move.uid = moveUID ∧ move.status.promotionOperationID = operationID)
        (stateConflict "promotion intent identity changed")
      return NodeOp.promoteIncoming incoming destination operationID
        (helperAuthority { moveName, moveUID, operationID } .promote incoming)
    | _, _ => throw (stateConflict "promotion intent identity changed")
  | .reclaim approved => do
    require (move.uid = moveUID ∧ approved.spec.authority = { kind := .shiftPVMove, name := moveName, uid := moveUID } ∧
      approved.spec.reason = .moveRollback ∧ moveOwnsDestinationArtifact move approved.spec.target)
      "not a rollback cleanup of a copy of the Move"
    return do
      let _ ← NodeOp.reclaimWithResume receiptDigest approved.spec.target approved.spec.operationID fun _ =>
        reclaimAuthority approved
      return ()

/-- The Pool and the cluster, and what is left of the run that holds the lock of the volume. -/
structure Site where
  host : Host SiteApi
  running : Option (NodeOp SiteApi Unit)

inductive SiteAct where
  | controller (act : WorldAct)
  | surroundings (executor : ExecutorReads) (pools : CopyIdentity → Option PoolEvidence)
  | start (job : Job)
  | advance
  /-- The run has ended, or dies here; its lock is released. -/
  | leave

def Site.step (site : Site) : SiteAct → Except String Site
  | .controller act => do
    let world ← site.host.api.world.step act
    return { site with host := { site.host with api := { site.host.api with world } } }
  | .surroundings executor pools =>
    return { site with host := { site.host with api := { site.host.api with executor, pools } } }
  | .start job => do
    require site.running.isNone "the volume is locked"
    let move ← site.host.api.world.store.move moveName
    let program ← job.program moveName moveUID receiptDigest move
    return { site with running := some program }
  | .advance =>
    match site.running with
    | some (.step act next) => return { host := act site.host, running := some (next site.host) }
    | _ => throw "nothing runs"
  | .leave => return { site with running := none }

/-- The objects are as some run of the controller left them, every directory has an inode of its own, and no cleanup
    of a copy of the Move has begun. -/
structure Site.Initial (site : Site) : Prop where
  world : ∃ past, WorldRun (site.host.api.world :: past)
  idle : site.running = none
  inodes : ∀ {area area' name name' id}, site.host.disk.idAt area name = some id →
    site.host.disk.idAt area' name' = some id → (area, name) = (area', name')
  intents : ∀ {operationID intent}, site.host.disk.marker (.cleanup operationID) = some (.cleanup intent) →
    intent.target.copyID ≠ (moveCopyIDs moveUID).1 ∧ intent.target.copyID ≠ (moveCopyIDs moveUID).2
  receipts : ∀ {operationID receipt}, site.host.disk.marker (.receipt operationID) = some (.receipt receipt) →
    receipt.target.copyID ≠ (moveCopyIDs moveUID).1 ∧ receipt.target.copyID ≠ (moveCopyIDs moveUID).2

abbrev SiteRun : List Site → Prop :=
  Run (Site.Initial moveUID) (Run.onHead fun site (act : SiteAct) site' => site.step moveName moveUID receiptDigest act = .ok site')

end

end ShiftPV

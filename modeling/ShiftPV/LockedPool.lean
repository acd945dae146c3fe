import ShiftPV.Scanner
import ShiftPV.Lib.Run

/-! A Pool directory on which operations run one after another, each holding the lock to its end. Each may be stopped after
    any step, and what an authority check answers is up to the API at that moment. -/

namespace ShiftPV
open Check

variable {Api : Type}

/-- The directory, the operation that holds the lock, and what is left of it. -/
structure LockedPool (Api : Type) where
  host : Host Api
  running : Option (PoolOperation Api × NodeOp Api Unit)

inductive LockedStep (Api : Type) where
  | surroundings (api : Api)
  | start (operation : PoolOperation Api)
  | advance
  /-- The operation has ended, or dies here; its lock is released. -/
  | leave

/-- The pool is as it was before the first copy was completed on it. -/
structure LockedPool.Initial (pool : LockedPool Api) : Prop where
  idle : pool.running = none
  uncopied : ∀ operationID, pool.host.disk.marker (.copyReceipt operationID) = none

section

-- the hash of a receipt's text
variable (receiptDigest : Receipt → String)

def LockedPool.step (pool : LockedPool Api) : LockedStep Api → Except String (LockedPool Api)
  | .surroundings api => return { pool with host := { pool.host with api } }
  | .start operation => do
    require pool.running.isNone "the volume is locked"
    return { pool with running := some (operation, operation.program receiptDigest) }
  | .advance =>
    match pool.running with
    | some (operation, .step act next) => return { host := act pool.host, running := some (operation, next pool.host) }
    | _ => throw "nothing runs"
  | .leave => return { pool with running := none }

abbrev LockedRun : List (LockedPool Api) → Prop :=
  Run LockedPool.Initial (Run.onHead fun pool (act : LockedStep Api) pool' => pool.step receiptDigest act = .ok pool')

end

/-! ### Copies that were completed -/

def Disk.attested (d : Disk) (identity : CopyIdentity) : Bool :=
  d.markers.entries.any fun row =>
    match row with
    | ⟨.copyReceipt _, .transfer receipt⟩ => receipt.identity = identity
    | _ => false

/-- A copy with a receipt is only populated again while its placement is still there: neither a promotion nor a reclaim has
    removed it since. -/
def LockedStep.populatesUnmoved (d : Disk) : LockedStep Api → Bool
  | .start (.populateIncoming identity _ _ _ _) => !d.attested identity || (d.marker (.placement identity.copyID)).isSome
  | _ => true

end ShiftPV

import ShiftPV.Volume

/-! Cleanup journals. A journal is embedded in the status of the Volume or Move that owns the cleanup:
    its spec names one copy and one operation, its status records the executor, the purge receipt and
    the absence proof. -/

namespace ShiftPV
open Check

/-! ### Journals -/

inductive CleanupPhase where
  | unset | pending | running | verifying | confirmingAbsence | completed | needsReview
  deriving DecidableEq

def CleanupPhase.text : CleanupPhase → String
  | .unset => ""
  | .pending => "Pending"
  | .running => "Running"
  | .verifying => "Verifying"
  | .confirmingAbsence => "ConfirmingAbsence"
  | .completed => "Completed"
  | .needsReview => "NeedsReview"

inductive AuthorityKind where
  | shiftPVVolume | shiftPVMove | unknown
  deriving DecidableEq

inductive CleanupReason where
  | volumeDelete | creationCancelled | moveSource | moveRollback | unknown
  deriving DecidableEq

structure Authority where
  kind : AuthorityKind
  name : String
  uid : String
  deriving DecidableEq

structure CleanupSpec where
  operationID : String
  target : CopyIdentity
  reason : CleanupReason
  authority : Authority
  deriving DecidableEq

inductive ExecutorKind where
  | job | node | unknown
  deriving DecidableEq

structure CleanupExecutor where
  kind : ExecutorKind
  namespaceName : String
  podName : String
  jobName : String
  jobUID : String
  podUID : String
  nodeName : String
  deriving DecidableEq

structure PurgeReceipt where
  operationID : String
  executorUID : String
  observedAt : Timestamp
  retired : Bool
  purged : Bool
  localReceiptDigest : String
  deriving DecidableEq

/-- The scan generation that a purge must be confirmed by, and the later negative observation. -/
structure AbsenceProof where
  requestID : String
  poolName : String
  poolUID : String
  requiredGeneration : Int
  observedGeneration : Int
  valid : Bool
  complete : Bool
  absent : Bool
  confirmedAt : Timestamp
  deriving DecidableEq

structure CleanupStatus where
  phase : CleanupPhase
  executor : Option CleanupExecutor
  receipt : Option PurgeReceipt
  absenceProof : Option AbsenceProof
  settledAt : Timestamp
  deriving DecidableEq

structure Journal where
  spec : CleanupSpec
  status : CleanupStatus
  deriving DecidableEq

def errConflict : String := "cleanup journal state precondition failed"

/-! ### Specs -/

def Authority.validate (a : Authority) : Except String Unit := do
  require (validObjectName a.name ∧ validIdentityToken a.uid) "invalid cleanup parent identity"
  require (a.kind ≠ .unknown) "invalid cleanup authority"

def CleanupSpec.validate (s : CleanupSpec) : Except String Unit := do
  require (validIdentityToken s.operationID ∧ s.target.valid) "invalid cleanup identity"
  s.authority.validate
  match s.reason with
  | .volumeDelete | .creationCancelled =>
    require (s.authority.kind = .shiftPVVolume ∧ s.authority.name = s.target.volumeID ∧
      s.authority.uid = s.target.volumeUID) "volume cleanup authority does not match the target"
    require (s.reason = .creationCancelled → isCreationCancellation s.target s.operationID)
      "creation cancellation must identify the original initial copy"
    require (s.reason = .volumeDelete → s.operationID ≠ creationCancellationPrefix ++ s.target.volumeUID)
      "creation cancellation requires its own cleanup reason"
  | .moveSource | .moveRollback =>
    require (s.authority.kind = .shiftPVMove) "move cleanup requires ShiftPVMove authority"
  | .unknown => throw "invalid cleanup reason"

/-! ### Status transitions -/

def CleanupExecutor.executionUID (e : CleanupExecutor) : String :=
  if e.kind = .node then e.podUID else e.jobUID

def CleanupExecutor.valid (e : CleanupExecutor) : Bool :=
  validObjectName e.nodeName &&
    match e.kind with
    | .node => e.jobName = "" && e.jobUID = "" && validObjectName e.namespaceName &&
        validObjectName e.podName && validIdentityToken e.podUID
    | .job => e.namespaceName = "" && e.podName = "" && validObjectName e.jobName && validIdentityToken e.jobUID
    | .unknown => false

def validPurgedReceipt (spec : CleanupSpec) (status : CleanupStatus) : Bool :=
  match status.executor, status.receipt with
  | some executor, some receipt =>
    executor.valid && validIdentityToken executor.podUID && executor.nodeName = spec.target.nodeName &&
      receipt.operationID = spec.operationID && receipt.executorUID = executor.executionUID &&
      receipt.retired && receipt.purged && validDigest receipt.localReceiptDigest && receipt.observedAt.parses
  | _, _ => false

def sameAbsenceFence (current next : AbsenceProof) : Bool :=
  current.requestID = next.requestID && current.poolName = next.poolName && current.poolUID = next.poolUID &&
    current.requiredGeneration = next.requiredGeneration

def validAbsenceFence (target : CopyIdentity) (proof : Option AbsenceProof) : Bool :=
  proof.any fun p => validIdentityToken p.requestID && p.poolName = target.poolName &&
    p.poolUID = target.poolUID && p.requiredGeneration > 0

def confirmedAbsence (proof : Option AbsenceProof) : Bool :=
  proof.any fun p => p.valid && p.complete && p.absent && p.observedGeneration ≥ p.requiredGeneration &&
    p.confirmedAt.parses

/-- A retry may bind a new Pod of the same backend and node while no receipt exists. -/
def executorTransitionAllowed (phase nextPhase : CleanupPhase) (current : CleanupExecutor)
    (next : Option CleanupExecutor) (receipt nextReceipt : Option PurgeReceipt) : Bool :=
  next = some current ||
    (phase = .running && nextPhase = .running && receipt = none && nextReceipt = none &&
      next.any fun e => validIdentityToken e.podUID && e.valid && current.kind = e.kind &&
        current.namespaceName = e.namespaceName && current.jobName = e.jobName && current.jobUID = e.jobUID &&
        current.nodeName = e.nodeName)

def allowedCleanupEdges : CleanupPhase → List CleanupPhase
  | .pending => [.pending, .running, .needsReview]
  | .running => [.running, .verifying, .needsReview]
  | .verifying => [.verifying, .confirmingAbsence, .needsReview]
  | .confirmingAbsence => [.confirmingAbsence, .completed, .needsReview]
  | .completed => [.completed]
  | .needsReview => [.needsReview]
  | .unset => []

/-- The phase a journal is in: one that never recorded a phase is pending. -/
def Journal.phase (j : Journal) : CleanupPhase := if j.status.phase = .unset then .pending else j.status.phase

def validateCleanupTransition (current : Journal) (next : CleanupStatus) : Except String Unit := do
  require (next.phase ∈ allowedCleanupEdges current.phase)
    (errConflict ++ ": phase " ++ current.phase.text ++ " cannot transition to " ++ next.phase.text)
  require (current.status.executor.all fun executor => executorTransitionAllowed current.phase next.phase
    executor next.executor current.status.receipt next.receipt) (errConflict ++ ": executor identity is immutable")
  require (next.phase = .running → next.executor.any (·.valid)) (errConflict ++ ": Running requires an executor")
  require (current.status.receipt.isSome → current.status.receipt = next.receipt)
    (errConflict ++ ": receipt is immutable")
  require (next.receipt.all fun receipt => next.executor.any fun executor =>
    receipt.operationID = current.spec.operationID && receipt.executorUID = executor.executionUID)
    (errConflict ++ ": receipt identity does not match intent and executor")
  require (next.receipt.all (·.observedAt.parses)) (errConflict ++ ": invalid receipt time")
  require (next.phase = .verifying → validPurgedReceipt current.spec next ∧ next.absenceProof = none)
    (errConflict ++ ": Verifying requires a Pod-bound executor and only the API receipt")
  require (current.status.absenceProof.all fun fence => next.absenceProof.any (sameAbsenceFence fence))
    (errConflict ++ ": absence fence identity is immutable")
  require (current.status.absenceProof.any (·.confirmedAt ≠ .absent) →
    current.status.absenceProof = next.absenceProof) (errConflict ++ ": confirmed absence proof is immutable")
  require (next.phase = .confirmingAbsence ∨ next.phase = .completed →
    validPurgedReceipt current.spec next ∧ validAbsenceFence current.spec.target next.absenceProof)
    (errConflict ++ ": cleanup confirmation requires a post-receipt absence fence")
  require (next.phase = .completed → confirmedAbsence next.absenceProof ∧ next.settledAt ≠ .absent)
    (errConflict ++ ": Completed requires a purged receipt and later complete exact absence proof")
  require (next.phase = .completed → next.settledAt.parses) (errConflict ++ ": invalid settlement time")

/-! ### The journal slot of a parent -/

/-- The object a journal is embedded in, as the journal store reads it. -/
structure CleanupParent where
  authority : Authority
  isProtected : Bool
  cleanup : Option Journal

def CleanupParent.validate (parent : CleanupParent) (authority : Authority) : Except String Unit := do
  require (parent.authority = authority) (errConflict ++ ": cleanup parent identity changed")
  require parent.isProtected (errConflict ++ ": cleanup parent lacks its protection finalizer")

/-- Decoding refuses a journal whose spec is invalid or names another parent. -/
def CleanupParent.journal (parent : CleanupParent) : Except String (Option Journal) :=
  match parent.cleanup with
  | none => return none
  | some journal => do
    journal.spec.validate
    require (journal.spec.authority = parent.authority)
      (errConflict ++ ": embedded cleanup authority does not match its parent")
    return some journal

/-- The journal stored after `Ensure`: the one already bound to this intent, or a new pending one. -/
def CleanupParent.ensure (parent : CleanupParent) (spec : CleanupSpec) : Except String Journal := do
  spec.validate
  parent.validate spec.authority
  match ← parent.journal with
  | some journal =>
    require (journal.spec = spec) (errConflict ++ ": parent cleanup slot is bound to another intent")
    return journal
  | none =>
    return { spec, status := { phase := .pending, executor := none, receipt := none, absenceProof := none,
                               settledAt := .absent } }

def CleanupParent.updateStatus (parent : CleanupParent) (expected : CleanupSpec) (next : CleanupStatus) :
    Except String Journal := do
  expected.validate
  parent.validate expected.authority
  match ← parent.journal with
  | none => throw errConflict
  | some journal =>
    require (journal.spec = expected) errConflict
    if journal.status = next then
      return journal
    else
      validateCleanupTransition journal next
      return { journal with status := next }

/-- The writes of a journal slot. Other writers may change the protection of the parent in between. -/
inductive JournalWrite where
  | ensure (spec : CleanupSpec)
  | updateStatus (expected : CleanupSpec) (next : CleanupStatus)
  | protect (isProtected : Bool)

def CleanupParent.write (parent : CleanupParent) : JournalWrite → Except String CleanupParent
  | .ensure spec => do
    let journal ← parent.ensure spec
    return { parent with cleanup := some journal }
  | .updateStatus expected next => do
    let journal ← parent.updateStatus expected next
    return { parent with cleanup := some journal }
  | .protect isProtected => return { parent with isProtected }

end ShiftPV

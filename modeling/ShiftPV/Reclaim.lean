import ShiftPV.Transfer

/-! Removal of copies on a node. A reclaim records which inode it is about to remove, moves it out of the way,
    empties and removes it, and leaves a receipt; a run that finds the record resumes from what is left. -/

namespace ShiftPV
open Check

variable {Api : Type}

/-! ### Emptying a directory -/

namespace Contents

def names : Contents → List String
  | empty => []
  | file name rest | folder name _ rest => name :: rest.names

def isFolder (name : String) : Contents → Option Bool
  | empty => none
  | file other rest => if other = name then some false else rest.isFolder name
  | folder other _ rest => if other = name then some true else rest.isFolder name

def inner (name : String) : Contents → Contents
  | empty => empty
  | file _ rest => rest.inner name
  | folder other below rest => if other = name then below else rest.inner name

def setInner (name : String) (below : Contents) : Contents → Contents
  | empty => empty
  | file other rest => file other (setInner name below rest)
  | folder other inner rest =>
    if other = name then folder other below rest else folder other inner (setInner name below rest)

def remove (name : String) : Contents → Contents
  | empty => empty
  | file other rest => if other = name then rest else file other (rest.remove name)
  | folder other inner rest => if other = name then rest else folder other inner (rest.remove name)

def depth : Contents → Nat
  | empty => 0
  | file _ rest => rest.depth
  | folder _ inner rest => max (inner.depth + 1) rest.depth

def unlink (name : String) (c : Contents) : Except Fault (Unit × Contents) :=
  match c.isFolder name with
  | none => .error .notExist
  | some true => if c.inner name = empty then .ok ((), c.remove name) else .error .notEmpty
  | some false => .ok ((), c.remove name)

end Contents

def purgeContents : Nat → Proc Contents Fault Unit
  | 0 => .fail (.refused "purge depth exceeds 256")
  | left + 1 => do
    let names ← .read fun c => .ok c.names
    .forEach (fun name => do
      match ← .read fun c => (c.isFolder name).elim (.error .notExist) .ok with
      | true =>
        (purgeContents left).zoom (Contents.inner name) (Contents.setInner name)
        .atomic (Contents.unlink name)
      | false => .atomic (Contents.unlink name)) names

namespace NodeOp

def exactDirectoryPresent (area : Area) (name : String) (expected : FileID) : NodeOp Api Bool := do
  return (← ifExists (openIdentityDirectory area name expected)).isSome

def purgeRetired (intent : LocalIntent) : NodeOp Api Unit := do
  openArea .retired
  match ← ifExists (openDirectory .retired intent.target.copyID) with
  | none => return ()
  | some id =>
    .ensure (id.val = intent.id) .identity
    (purgeContents 257).zoom (fun h => h.disk.contentsAt .retired intent.target.copyID)
      (fun contents h => { h with disk := h.disk.setContents .retired intent.target.copyID contents })
    removeDirectory .retired intent.target.copyID

/-! ### Reclaim -/

def rolePath (identity : CopyIdentity) : Option (Area × String) :=
  match identity.role with
  | .serving => some (.volumes, identity.volumeID)
  | .incoming => some (.incoming, identity.copyID)
  | .retired => some (.retired, identity.copyID)
  | .unknown => none

def openRoleParent (identity : CopyIdentity) : NodeOp Api (Area × String) :=
  match rolePath identity with
  | none => .fail .identity
  | some (area, name) => do
    openArea area
    return (area, name)

def verifyCurrentPath (record : Placement) : NodeOp Api Unit := do
  let (area, name) ← openRoleParent record.identity
  verifyPath area name record record.identity

def verifyAbsent (target : CopyIdentity) : NodeOp Api Unit :=
  match rolePath target with
  | none => .fail .identity
  | some (area, name) => do
    match ← ifExists (openArea area) with
    | none => return ()
    | some _ =>
      match ← ifExists (openDirectory area name) with
      | none => return ()
      | some _ => .fail (.needsReview "cleanup target still exists")

def localIntent (target : CopyIdentity) (operationID : String) : NodeOp Api (Option LocalIntent) := do
  match ← ifExists (readMarker (.cleanup operationID) fun
    | .cleanup intent => some intent
    | _ => none) with
  | none => return none
  | some intent =>
    .ensure (intent.operationID = operationID ∧ intent.target = target) .identity
    return some intent

def ensureLocalIntent (target : CopyIdentity) (operationID : String) (placed : Placement) : NodeOp Api LocalIntent := do
  match ← ifExists (readMarker (.cleanup operationID) fun
    | .cleanup intent => some intent
    | _ => none) with
  | some existing =>
    .ensure (existing.operationID = operationID ∧ existing.target = target ∧ existing.id = placed.id) .identity
    return existing
  | none =>
    verifyCurrentPath placed
    let intent := { operationID, target, id := placed.id }
    ensureMarker (.cleanup operationID) (.cleanup intent)
    return intent

def cleanupEffectStarted (target : CopyIdentity) (intent : LocalIntent) : NodeOp Api Bool := do
  let sourcePresent ← match ← ifExists (openRoleParent target) with
    | none => pure false
    | some (area, name) => exactDirectoryPresent area name intent.id
  if target.role = .retired then return !sourcePresent
  let retiredPresent ← match ← ifExists (openArea .retired) with
    | none => pure false
    | some _ => exactDirectoryPresent .retired target.copyID intent.id
  .ensure (¬(sourcePresent ∧ retiredPresent)) .identity
  return !sourcePresent || retiredPresent

/-- Moves the recorded inode out of its place. A missing source means that it was moved before an interruption. -/
def retire (target : CopyIdentity) (intent : LocalIntent) : NodeOp Api Unit := do
  openOrCreateDirectory .retired
  let (area, name) ← openRoleParent target
  let source ← (openIdentityDirectory area name intent.id).attempt
  if target.role = .retired then
    match source with
    | .ok _ => return ()
    | .error e => if e.missing then return () else .fail e
  else
    let destination ← (openIdentityDirectory .retired target.copyID intent.id).attempt
    match source, destination with
    | .ok _, .ok _ => .fail .identity
    | .ok _, .error e => if e.missing then renameDirectory area name .retired target.copyID else .fail e
    | .error e, .ok _ => if e.missing then return () else .fail e
    | .error e, .error e' => if !e.missing then .fail e else if e'.missing then return () else .fail e'

/-- Proves that the untouched copy is the recorded one, and records the intent. -/
def confirmFreshReclaimTarget (target : CopyIdentity) (operationID : String) (intent : Option LocalIntent) :
    NodeOp Api LocalIntent := do
  within "verify copy identity" (checkMarker (.copy target.copyID) (.copy target))
  let placed ← within "verify copy placement" ((readPlacement target.copyID).mapError (.joined · .identity))
  .ensure (placed.identity = target) (.wrapped "verify copy placement" .identity)
  match intent with
  | some intent =>
    .ensure (intent.id = placed.id) .identity
    return intent
  | none => within "persist local cleanup intent" (ensureLocalIntent target operationID placed)

/-- Reads a recorded effect, checks authority for what it already permits, and returns the intent to apply. -/
def prepareReclaimIntent (target : CopyIdentity) (operationID : String) (authority : Bool → Api → Except Fault Unit) :
    NodeOp Api (LocalIntent × Bool) := do
  match ← within "read local cleanup intent" (localIntent target operationID) with
  | none =>
    consult (authority false)
    return (← confirmFreshReclaimTarget target operationID none, false)
  | some intent =>
    let effectStarted ← within "inspect local cleanup effect" (cleanupEffectStarted target intent)
    consult (authority effectStarted)
    if effectStarted then return (intent, true)
    return (← confirmFreshReclaimTarget target operationID (some intent), false)

def applyReclaimEffect (target : CopyIdentity) (intent : LocalIntent) (effectStarted : Bool)
    (authority : Bool → Api → Except Fault Unit) : NodeOp Api Unit := do
  within "recheck cleanup authority before filesystem effect" (consult (authority effectStarted))
  within "retire cleanup target" (retire target intent)
  within "purge retired target" (purgeRetired intent)

section Receipts

-- the hash of a receipt's text
variable (receiptDigest : Receipt → String)

/-- Records the receipt, proves that the target is gone, and drops the metadata that the receipt supersedes. -/
def settleReclaim (target : CopyIdentity) (operationID : String) (intent : LocalIntent) : NodeOp Api (Receipt × String) := do
  let receipt := { operationID, target, id := intent.id, retired := true, purged := true }
  within "persist local cleanup receipt" (ensureMarker (.receipt operationID) (.receipt receipt))
  within "verify cleanup absence" (verifyAbsent target)
  within "finish cleanup metadata" (removeCopyMetadata target receipt.id)
  return (receipt, receiptDigest receipt)

def readReceipt (operationID : String) : NodeOp Api (Option Receipt) :=
  ifExists (readMarker (.receipt operationID) fun
    | .receipt receipt => some receipt
    | _ => none)

/-- The outcome of this exact cleanup, if its receipt is already durable. -/
def replayReclaimReceipt (target : CopyIdentity) (operationID : String) (authority : Bool → Api → Except Fault Unit) :
    NodeOp Api (Option (Receipt × String)) := do
  match ← readReceipt operationID with
  | none => return none
  | some completed =>
    .ensure (completed.operationID = operationID ∧ completed.target = target ∧ completed.retired ∧ completed.purged) .identity
    consult (authority true)
    verifyAbsent target
    within "finish cleanup metadata" (removeCopyMetadata target completed.id)
    return some (completed, receiptDigest completed)

/-- Retires and purges a copy. Authority is told whether the effect already began. -/
def reclaimWithResume (target : CopyIdentity) (operationID : String) (authority : Bool → Api → Except Fault Unit) :
    NodeOp Api (Receipt × String) := do
  .ensure (validIdentityToken operationID ∧ target.valid) .identity
  let pool := { installationID := target.installationID, poolUID := target.poolUID }
  openExisting pool
  acquire pool target.volumeID
  match ← replayReclaimReceipt receiptDigest target operationID authority with
  | some outcome => return outcome
  | none =>
    let (intent, effectStarted) ← prepareReclaimIntent target operationID authority
    applyReclaimEffect target intent effectStarted authority
    settleReclaim receiptDigest target operationID intent

/-! ### Cancelled creations -/

inductive CreationPath where
  | serving | stage | retired
  deriving DecidableEq

def CreationPath.place (target : CopyIdentity) : CreationPath → Area × String
  | .serving => (.volumes, target.volumeID)
  | .stage => (.incoming, stageName target)
  | .retired => (.retired, target.copyID)

/-- The identity of the directory at a path, which must be empty where that is required. -/
def observeCreationPath (target : CopyIdentity) (path : CreationPath) (requireEmpty : Bool) : NodeOp Api (Option FileID) := do
  let (area, name) := path.place target
  match ← ifExists (openArea area) with
  | none => return none
  | some _ =>
    match ← ifExists ((openDirectory area name).mapError fun
        | .notDirectory => .joined (.needsReview "") .notDirectory
        | e => e) with
    | none => return none
    | some id =>
      if requireEmpty then
        let contents ← look fun d => .ok (d.contentsAt area name)
        .ensure (contents = .empty) (.needsReview "unplaced creation stage is not provably empty")
      return some id.val

/-- The one place that holds the directory of a creation, and which directory it is. -/
def observeCreationSource (target : CopyIdentity) (emptyStage : Bool) : NodeOp Api (Option (CreationPath × FileID)) := do
  let unexpected ← match ← ifExists (openArea .incoming) with
    | none => pure false
    | some _ => pathExists .incoming target.copyID
  .ensure (¬unexpected) (.needsReview "")
  let serving ← observeCreationPath target .serving false
  let stage ← observeCreationPath target .stage emptyStage
  .ensure (¬(serving.isSome ∧ stage.isSome)) (.needsReview "multiple creation locations exist")
  let retired ← observeCreationPath target .retired false
  .ensure (¬((serving.isSome ∨ stage.isSome) ∧ retired.isSome)) (.needsReview "multiple creation locations exist")
  return (serving.map (CreationPath.serving, ·)).or ((stage.map (CreationPath.stage, ·)).or
    (retired.map (CreationPath.retired, ·)))

/-- A fresh cancellation finds the creation where its markers allow it to be. -/
def validCreationSource (marker : Bool) (source : Option CreationPath) (placed : Option Placement) : Bool :=
  match source with
  | none => placed.isNone
  | some path => path ≠ .retired && !(path = .serving && placed.isNone) && marker

def validCreationResume (intent : LocalIntent) (marker : Bool) (source : Option (CreationPath × FileID))
    (placed : Option Placement) : Bool :=
  (intent.id.device = 0 ↔ intent.id.inode = 0) && (intent.id.inode = 0 || marker) &&
    source.all (·.2 = intent.id) && placed.all (·.id = intent.id)

def prepareCreationCancellation (target : CopyIdentity) (operationID : String) :
    NodeOp Api (LocalIntent × Option CreationPath) := do
  let recorded ← localIntent target operationID
  let marker ← copyMarkerExists target
  let placed ← ifExists (readPlacement target.copyID)
  .ensure (placed.all fun record => marker ∧ record.identity = target) .identity
  let source ← observeCreationSource target (placed.isNone ∧ recorded.isNone)
  match recorded with
  | some intent =>
    .ensure (validCreationResume intent marker source placed) .identity
    return (intent, source.map (·.1))
  | none =>
    .ensure (validCreationSource marker (source.map (·.1)) placed)
      (.needsReview "creation location has no matching intent/placement")
    .ensure (placed.all fun record => source.all (·.2 = record.id)) .identity
    let intent := { operationID, target, id := (source.map (·.2)).getD ⟨0, 0⟩ }
    ensureMarker (.cleanup operationID) (.cleanup intent)
    return (intent, source.map (·.1))

def retireCreation (target : CopyIdentity) (intent : LocalIntent) (source : Option CreationPath) : NodeOp Api Unit :=
  match source with
  | none | some .retired => openOrCreateDirectory .retired
  | some path => do
    let (area, name) := path.place target
    openArea area
    openIdentityDirectory area name intent.id
    openOrCreateDirectory .retired
    renameDirectory area name .retired target.copyID

def verifyCreationAbsent (target : CopyIdentity) : NodeOp Api Unit := do
  let source ← observeCreationSource target false
  .ensure source.isNone (.needsReview "a creation location still exists")

def replayCreationCancellation (target : CopyIdentity) (operationID : String)
    (authority : Bool → Api → Except Fault Unit) : NodeOp Api (Option (Receipt × String)) := do
  match ← readReceipt operationID with
  | none => return none
  | some receipt =>
    let intent ← localIntent target operationID
    .ensure (intent.any fun intent => receipt.operationID = operationID ∧ receipt.target = target ∧ receipt.retired ∧
      receipt.purged ∧ receipt.id = intent.id ∧ (receipt.id.device = 0 ↔ receipt.id.inode = 0)) .identity
    verifyCreationAbsent target
    replayReclaimReceipt receiptDigest target operationID authority

/-- Retires an approved initial copy without completing its creation. -/
def cancelCreation (target : CopyIdentity) (operationID : String) (authority : Bool → Api → Except Fault Unit) :
    NodeOp Api (Receipt × String) := do
  .ensure (isCreationCancellation target operationID) .identity
  let pool := { installationID := target.installationID, poolUID := target.poolUID }
  consult (authority false)
  openStore pool
  acquire pool target.volumeID
  consult (authority false)
  match ← replayCreationCancellation receiptDigest target operationID authority with
  | some outcome => return outcome
  | none =>
    let (intent, source) ← prepareCreationCancellation target operationID
    consult (authority (source = some .retired ∨ source = none))
    if intent.id.inode ≠ 0 then
      retireCreation target intent source
      consult (authority true)
      purgeRetired intent
    consult (authority true)
    verifyCreationAbsent target
    settleReclaim receiptDigest target operationID intent

end Receipts

end NodeOp

end ShiftPV

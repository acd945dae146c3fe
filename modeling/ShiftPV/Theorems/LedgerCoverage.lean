import ShiftPV.PoolChecks
import ShiftPV.Theorems.Coherence
import ShiftPV.Theorems.PoolIsolation

/-! The checks before a Pool goes cover the ledger: a Volume or Move that is charged to a Pool blocks its deletion and its
    retirement. The ledger reads UIDs, the checks also names and nodes, so the records must agree on what a UID names. -/

namespace ShiftPV
open Check

variable {nameOf nodeOf : String → String} {volumes : Table VolumeObject.id} {moves : List Move} {pool : RegisteredPool}

/-! ### Agreement on UIDs -/

def CopyIdentity.Agrees (nameOf nodeOf : String → String) (copy : CopyIdentity) : Prop :=
  copy.poolName = nameOf copy.poolUID ∧ copy.nodeName = nodeOf copy.poolUID

@[mk_iff] structure State.Agrees (nameOf nodeOf : String → String) (state : State) : Prop where
  reserved : ∀ reserved ∈ state.initialPool, reserved.name = nameOf reserved.uid
  current : ∀ copy ∈ state.currentCopy, copy.Agrees nameOf nodeOf

/-- The Pools of a Move agree; the source copy is on the source node and the destination Pool on the destination node. -/
@[mk_iff] structure Move.Agrees (nameOf nodeOf : String → String) (move : Move) : Prop where
  prepared : ∀ preparation ∈ move.status.preparation,
    preparation.pool.name = nameOf preparation.pool.uid ∧ preparation.nodeName = nodeOf preparation.pool.uid
  source : ∀ copy ∈ move.status.sourceCopy, copy.Agrees nameOf nodeOf ∧ copy.nodeName = move.spec.sourceNode
  incoming : ∀ copy ∈ move.status.incomingCopy, copy.Agrees nameOf nodeOf
  destination : ∀ copy ∈ move.status.destinationCopy, copy.Agrees nameOf nodeOf
  destinationPool : move.status.destinationPoolUID ≠ "" → move.status.destinationNode = nodeOf move.status.destinationPoolUID

@[mk_iff] structure UIDsAgree (nameOf nodeOf : String → String) (volumes : Table VolumeObject.id) (moves : List Move) (pool : RegisteredPool) :
    Prop where
  registered : pool.name = nameOf pool.uid ∧ pool.nodeName = nodeOf pool.uid
  volumes : ∀ volume ∈ volumes.rows, volume.state.Agrees nameOf nodeOf
  moves : ∀ move ∈ moves, move.Agrees nameOf nodeOf

instance (copy : CopyIdentity) : Decidable (copy.Agrees nameOf nodeOf) := inferInstanceAs (Decidable (_ ∧ _))

instance (state : State) : Decidable (state.Agrees nameOf nodeOf) := decidable_of_iff _ (State.agrees_iff ..).symm

instance (move : Move) : Decidable (move.Agrees nameOf nodeOf) := decidable_of_iff _ (Move.agrees_iff ..).symm

instance : Decidable (UIDsAgree nameOf nodeOf volumes moves pool) := decidable_of_iff _ (uIDsAgree_iff ..).symm

/-! ### Reports -/

def Named (kind name : String) (report : List Blocker) : Prop := ∃ blocker ∈ report, blocker.kind = kind ∧ blocker.name = name

theorem Named.sort {kind name : String} {blockers : List Blocker} (h : Named kind name blockers) :
    Named kind name (sortBlockers blockers) := by
  obtain ⟨blocker, hmem, hnames⟩ := h
  exact ⟨blocker, (List.mem_insertionSort _).mpr hmem, hnames⟩

theorem Named.not_safe {kind name : String} {blockers : List Blocker} (h : Named kind name blockers) : ¬safeReport blockers := by
  obtain ⟨blocker, hmem, -⟩ := h
  simpa [safeReport] using List.ne_nil_of_mem hmem

/-- The object of this kind and name blocks the deletion and the retirement of the Pool. -/
structure BlocksBoth (volumes : Table VolumeObject.id) (moves : List Move) (pool : RegisteredPool) (deleting retiring : List Blocker)
    (kind name : String) : Prop where
  deletion : Named kind name (checkPoolDeleteAfter volumes moves deleting pool)
  retirement : Named kind name (retirementReferences volumes moves retiring pool)

variable {deleting retiring : List Blocker}

theorem volume_blocksBoth {volume : VolumeObject} (h : volume ∈ volumes.rows) (huses : poolVolumeUses volume pool)
    (hreferences : referencesPool volume.state pool) :
    BlocksBoth volumes moves pool deleting retiring "ShiftPVVolume" volume.id := by
  constructor <;> apply Named.sort
  · have hmem : volume ∈ volumes.rows.filter (poolVolumeUses · pool) := List.mem_filter.mpr ⟨h, huses⟩
    exact ⟨_, List.mem_append_left _ (List.mem_append_right _ (List.mem_map_of_mem hmem)), rfl, rfl⟩
  · have hmem : volume ∈ volumes.rows.filter (referencesPool ·.state pool) := List.mem_filter.mpr ⟨h, hreferences⟩
    refine ⟨volumeBlocker volume.id "Pool UID reference remains", List.mem_append_left _ (List.mem_append_left _ ?_), rfl, rfl⟩
    exact List.mem_append_left _ (List.mem_append_left _ (List.mem_map_of_mem hmem))

theorem move_blocksBoth {move : Move} (h : move ∈ moves) (hopen : ¬moveCleanupSettled move) (huses : moveUsesPool move pool)
    (hretirement : retirementMoveUsesPool move pool volumes) :
    BlocksBoth volumes moves pool deleting retiring "ShiftPVMove" move.name := by
  constructor <;> apply Named.sort <;> refine ⟨_, List.mem_append_right _ (List.mem_map_of_mem (List.mem_filter.mpr ⟨h, ?_⟩)), rfl, rfl⟩
  · simp [hopen, huses]
  · simp [hopen, hretirement]

/-! ### What the ledger charges -/

theorem ownerPoolUID_inv {id uid : String} {state : State} (h : ownerPoolUID id state = .ok uid) (hne : uid ≠ "") :
    (state.hasInitialReservation ∧ ∃ reserved, state.initialPool = some reserved ∧ reserved.uid = uid) ∨
      ¬state.hasInitialReservation ∧ ∃ copy, state.currentCopy = some copy ∧ copy.poolUID = uid ∧
        copy.nodeName = state.ownerNode := by
  unfold ownerPoolUID at h
  split at h
  · rename_i hreserved
    have huid := pure_ok.mp h
    cases hpool : state.initialPool with
    | none => simp [hpool, eq_comm, hne] at huid
    | some reserved => exact .inl ⟨hreserved, reserved, rfl, by simpa [hpool] using huid⟩
  · rename_i hreserved
    split at h
    · exact absurd (pure_ok.mp h).symm hne
    · split at h
      · rename_i copy hcopy
        rw [seq_ok, require_ok] at h
        exact .inr ⟨hreserved, copy, hcopy, pure_ok.mp h.2, h.1.2.2.2⟩
      · simp at h

theorem moveReservation_inv {move : Move} {uid : String} {bytes : Int} (h : moveReservation volumes move = .ok (uid, bytes))
    (hne : uid ≠ "") :
    (∃ preparation, move.status.preparation = some preparation ∧ preparation.pool.uid = uid) ∨
      ¬moveCleanupSettled move ∧ move.status.preparation = none ∧
        (move.status.destinationPoolUID = uid ∨ ∃ source, move.status.sourceCopy = some source ∧ source.poolUID = uid) := by
  unfold moveReservation at h
  split at h
  · unfold preparationReservation at h
    split at h
    · simp at h
    · split at h
      · simp at h
      · rename_i preparation _ _ hpreparation
        rw [seq_ok, seq_ok] at h
        exact .inl ⟨preparation, hpreparation, congrArg Prod.fst (pure_ok.mp h.2.2)⟩
      · simp at h
  · rename_i hnone
    split at h
    · exact absurd (congrArg Prod.fst (pure_ok.mp h)).symm hne
    · rename_i hopen
      refine .inr ⟨fun hsettled => hopen (.inl hsettled), by simpa using hnone, ?_⟩
      split at h
      · simp at h
      · split at h
        · rename_i source _ hsource
          rw [seq_ok] at h
          have huid := congrArg Prod.fst (pure_ok.mp h.2)
          simp only at huid
          split at huid
          · exact .inr ⟨source, hsource, huid⟩
          · exact .inl huid
        · simp at h

/-! ### Coverage -/

theorem exactMoveCopy_nameless (copy : Option CopyIdentity) (volumeID : String) (role : CopyRole) :
    exactMoveCopy copy volumeID "" role = false := by
  have hnameless : validObjectName "" = false := by decide
  cases copy with
  | none => rfl
  | some copy =>
    rw [exactMoveCopy, Option.any_some, Bool.eq_false_iff]
    simp only [Bool.and_eq_true, decide_eq_true_eq, ne_eq, CopyIdentity.valid]
    grind

theorem charged_volume_uses {volume : VolumeObject} (hagrees : volume.state.Agrees nameOf nodeOf)
    (hpool : pool.name = nameOf pool.uid ∧ pool.nodeName = nodeOf pool.uid) (hne : pool.uid ≠ "")
    (h : ownerPoolUID volume.id volume.state = .ok pool.uid) :
    poolVolumeUses volume pool ∧ referencesPool volume.state pool := by
  obtain ⟨hname, hnode⟩ := hpool
  rcases ownerPoolUID_inv h hne with ⟨hreserved, reserved, hreference, huid⟩ | ⟨hreserved, copy, hcopy, huid, howner⟩
  · have hreservedName := hagrees.reserved reserved hreference
    rw [huid, ← hname] at hreservedName
    simp [poolVolumeUses, currentCopyUsesPool, referencesPool, hreserved, hreference, huid, hreservedName]
  · obtain ⟨hcopyName, hcopyNode⟩ := hagrees.current copy hcopy
    rw [huid] at hcopyName hcopyNode
    refine ⟨?_, by simp [referencesPool, hcopy, huid]⟩
    -- an exact copy names the Pool; an inexact one still has its owner on the node of the Pool
    rw [poolVolumeUses, currentCopyUsesPool, if_neg hreserved, hcopy]
    simp only
    split
    · rename_i uses huses
      split at huses
      · obtain rfl := Option.some.inj huses
        simp [hcopyName, huid, hname]
      · simp at huses
    · simp [← howner, hcopyNode, hnode]

theorem held_destination_uses {move : Move} (hagrees : move.Agrees nameOf nodeOf)
    (hnode : pool.nodeName = nodeOf pool.uid) (hne : pool.uid ≠ "") (hnone : move.status.preparation = none)
    (hdestination : move.status.destinationPoolUID = pool.uid) : moveUsesPool move pool := by
  have hon := hagrees.destinationPool (hdestination ▸ hne)
  rw [hdestination, ← hnode] at hon
  by_cases hnamed : move.status.destinationNode = ""
  · -- nothing is known about a destination without a node, so the node decides
    have hincoming := exactMoveCopy_nameless move.status.incomingCopy move.spec.volumeID .incoming
    have hserving := exactMoveCopy_nameless move.status.destinationCopy move.spec.volumeID .serving
    simp [moveUsesPool, preparationUsesPool, hnone, hnamed, hincoming, hserving, hon ▸ hnamed]
  · simp [moveUsesPool, hnamed, hdestination, hne]

theorem held_source_uses {move : Move} {source : CopyIdentity} (hagrees : move.Agrees nameOf nodeOf)
    (hpool : pool.name = nameOf pool.uid ∧ pool.nodeName = nodeOf pool.uid) (hsource : move.status.sourceCopy = some source)
    (huid : source.poolUID = pool.uid) : moveUsesPool move pool := by
  obtain ⟨⟨hsourceName, hsourceNode⟩, hon⟩ := hagrees.source source hsource
  rw [huid, ← hpool.1] at hsourceName
  rw [huid, ← hpool.2, hon] at hsourceNode
  have huses : copyUsesPool (some source) pool := by simp [copyUsesPool, hsourceName, huid]
  simp [moveUsesPool, hsource, huses, hsourceNode]

theorem charged_move_uses {move : Move} {bytes : Int} (hagrees : move.Agrees nameOf nodeOf)
    (hpool : pool.name = nameOf pool.uid ∧ pool.nodeName = nodeOf pool.uid) (hne : pool.uid ≠ "")
    (h : moveReservation volumes move = .ok (pool.uid, bytes)) :
    ¬moveCleanupSettled move ∧ moveUsesPool move pool ∧ retirementMoveUsesPool move pool volumes := by
  rcases moveReservation_inv h hne with ⟨preparation, hpreparation, huid⟩ | ⟨hopen, hnone, hdestination | ⟨source, hsource, huid⟩⟩
  · simp [moveCleanupSettled, moveUsesPool, preparationUsesPool, retirementMoveUsesPool, hpreparation, huid]
  · exact ⟨hopen, held_destination_uses hagrees hpool.2 hne hnone hdestination, by simp [retirementMoveUsesPool, hdestination]⟩
  · exact ⟨hopen, held_source_uses hagrees hpool hsource huid,
      by simp [retirementMoveUsesPool, retirementCopyUses, hsource, huid]⟩

theorem charged_volume_blocks {volume : VolumeObject} {amount : Int} (hagree : UIDsAgree nameOf nodeOf volumes moves pool)
    (hne : pool.uid ≠ "") (hmem : volume ∈ volumes.rows) (h : volume.charge = .ok (pool.uid, amount)) :
    BlocksBoth volumes moves pool deleting retiring "ShiftPVVolume" volume.id := by
  obtain ⟨uid, howner, heq⟩ := bind_ok.mp h
  obtain ⟨rfl, -⟩ := Prod.mk.inj (pure_ok.mp heq)
  obtain ⟨huses, hreferences⟩ := charged_volume_uses (hagree.volumes volume hmem) hagree.registered hne howner
  exact volume_blocksBoth hmem huses hreferences

theorem charged_move_blocks {move : Move} {amount : Int} (hagree : UIDsAgree nameOf nodeOf volumes moves pool) (hne : pool.uid ≠ "")
    (hmem : move ∈ moves) (h : moveReservation volumes move = .ok (pool.uid, amount)) :
    BlocksBoth volumes moves pool deleting retiring "ShiftPVMove" move.name := by
  obtain ⟨hopen, huses, hretirement⟩ := charged_move_uses (hagree.moves move hmem) hagree.registered hne h
  exact move_blocksBoth hmem hopen huses hretirement

theorem reservedBytesForPool_charged {poolUID : String} {bytes : Int}
    (h : reservedBytesForPool volumes moves poolUID = .ok bytes) (hpositive : 0 < bytes) :
    (∃ volume ∈ volumes.rows, ∃ amount, volume.charge = .ok (poolUID, amount)) ∨
      ∃ move ∈ moves, ∃ amount, moveReservation volumes move = .ok (poolUID, amount) := by
  obtain ⟨-, -, -, rfl, -⟩ := reservedBytesForPool_ok.mp h
  by_cases hvolumes : (volumes.rows.map (Tally.share VolumeObject.charge poolUID)).sum = 0
  · rw [ledgerSum, hvolumes, zero_add] at hpositive
    exact .inr (Tally.exists_charged hpositive.ne')
  · exact .inl (Tally.exists_charged hvolumes)

/-- Whatever the ledger charges to a Pool blocks the deletion and the retirement of the Pool: a positive sum leaves neither
    report safe, and both name every Volume and every Move that is charged. -/
theorem checks_cover_ledger {deleting retiring : List Blocker} {bytes : Int} (hagree : UIDsAgree nameOf nodeOf volumes moves pool)
    (h : reservedBytesForPool volumes moves pool.uid = .ok bytes) (hpositive : 0 < bytes) :
    (¬safeReport (checkPoolDeleteAfter volumes moves deleting pool) ∧
      ¬safeReport (retirementReferences volumes moves retiring pool)) ∧
      (∀ volume ∈ volumes.rows, ∀ amount, volume.charge = .ok (pool.uid, amount) →
        BlocksBoth volumes moves pool deleting retiring "ShiftPVVolume" volume.id) ∧
      ∀ move ∈ moves, ∀ amount, moveReservation volumes move = .ok (pool.uid, amount) →
        BlocksBoth volumes moves pool deleting retiring "ShiftPVMove" move.name := by
  have hne := (reservedBytesForPool_ok.mp h).1
  refine ⟨?_, fun volume hmem _ => charged_volume_blocks hagree hne hmem, fun move hmem _ => charged_move_blocks hagree hne hmem⟩
  obtain ⟨kind, name, hblocks⟩ : ∃ kind name, BlocksBoth volumes moves pool deleting retiring kind name := by
    rcases reservedBytesForPool_charged h hpositive with ⟨volume, hmem, amount, hcharge⟩ | ⟨move, hmem, amount, hcharge⟩
    · exact ⟨_, _, charged_volume_blocks hagree hne hmem hcharge⟩
    · exact ⟨_, _, charged_move_blocks hagree hne hmem hcharge⟩
  exact ⟨hblocks.deletion.not_safe, hblocks.retirement.not_safe⟩

/-! The source of a migration stays held after the owner commit. -/

def movingState : State :=
  { sampleState with
    phase := .moving, ownerNode := "node-a", activeMove := "move", creationOperationID := "create-volume-1"
    currentCopy := some sampleCopy }

def sampleMigration (status : MoveStatus) : Move :=
  { createMove "move" "move-1" sampleVolumeID "node-a" with finalizers := [moveProtectionFinalizer], status }

def servedMove : Move := sampleMigration { approved (planned .empty) with phase := .committing }

def servedState : State :=
  { movingState with phase := .ready, ownerNode := "node-b", currentCopy := servedMove.status.destinationCopy }

def volumesOf (state : State) : Table VolumeObject.id := (Table.empty VolumeObject.id).put ⟨sampleVolumeID, state⟩

def movesOf (move : Move) : Table Move.name := (Table.empty Move.name).put move

def sourcePool : RegisteredPool :=
  { fixedPool "pool-a" "/data" "" 0 with uid := "pool-a-uid", nodeName := "node-a" }

def poolNames (uid : String) : String := if uid = "pool-a-uid" then "pool-a" else "pool-b"

def poolNodes (uid : String) : String := if uid = "pool-a-uid" then "node-a" else "node-b"

theorem checks_cover_committed_source :
    reservedBytesForPool (volumesOf servedState) (movesOf servedMove).rows sourcePool.uid = .ok 10 ∧
      (¬safeReport (checkPoolDeleteAfter (volumesOf servedState) (movesOf servedMove).rows [] sourcePool) ∧
        ¬safeReport (retirementReferences (volumesOf servedState) (movesOf servedMove).rows [] sourcePool)) ∧
      BlocksBoth (volumesOf servedState) (movesOf servedMove).rows sourcePool [] [] "ShiftPVMove" "move" := by
  have hheld : reservedBytesForPool (volumesOf servedState) (movesOf servedMove).rows sourcePool.uid = .ok 10 := by decide +kernel
  have hagree : UIDsAgree poolNames poolNodes (volumesOf servedState) (movesOf servedMove).rows sourcePool := by decide +kernel
  have hcharged : moveReservation (volumesOf servedState) servedMove = .ok (sourcePool.uid, 10) := by decide +kernel
  obtain ⟨hreports, -, hmoves⟩ := checks_cover_ledger hagree hheld (by decide)
  exact ⟨hheld, hreports, hmoves servedMove (.head _) 10 hcharged⟩

end ShiftPV

import Mathlib.Data.List.Dedup
import ShiftPV.Store

/-! What an accepted write of the Volume can do: one inversion lemma per writer, each giving the guards
    that held and the record that was stored. -/

namespace ShiftPV
open Check

variable {s t next observed : State} {copy : CopyIdentity} {volumeID : String}

/-! ### Storing -/

def stored (s next : State) : State := setState s (refill s next)

@[simp] theorem stored_uid : (stored s next).uid = s.uid := rfl
@[simp] theorem stored_finalizers : (stored s next).finalizers = s.finalizers := rfl
@[simp] theorem stored_capacityBytes : (stored s next).capacityBytes = s.capacityBytes := rfl
@[simp] theorem stored_initialNode : (stored s next).initialNode = s.initialNode := rfl
@[simp] theorem stored_initialPool : (stored s next).initialPool = s.initialPool := rfl
@[simp] theorem stored_hasCleanup : (stored s next).hasCleanup = s.hasCleanup := rfl
@[simp] theorem stored_deleting : (stored s next).deleting = s.deleting := rfl
@[simp] theorem stored_phase : (stored s next).phase = next.phase := rfl
@[simp] theorem stored_ownerNode : (stored s next).ownerNode = next.ownerNode := rfl
@[simp] theorem stored_activeMove : (stored s next).activeMove = next.activeMove := rfl
@[simp] theorem stored_publishedNodes : (stored s next).publishedNodes = next.publishedNodes := rfl
@[simp] theorem stored_currentCopy : (stored s next).currentCopy = next.currentCopy.or s.currentCopy := rfl
@[simp] theorem stored_deletionOperationID : (stored s next).deletionOperationID =
    if next.deletionOperationID = "" then s.deletionOperationID else next.deletionOperationID := rfl

/-- A writer that changes only the status of the record it read stores exactly its proposal. -/
theorem stored_eq (hspec : setState s next = next)
    (hcreate : next.creationOperationID = "" → s.creationOperationID = "")
    (hdelete : next.deletionOperationID = "" → s.deletionOperationID = "")
    (hcopy : next.currentCopy = none → s.currentCopy = none)
    (hexecutor : next.creationExecutor = none → s.creationExecutor = none)
    (hreceipt : next.creationReceipt = none → s.creationReceipt = none) : stored s next = next := by
  have hor {α : Type} {a b : Option α} (h : a = none → b = none) : a.or b = a := by
    cases a with
    | none => simpa using h rfl
    | some x => rfl
  have hrefill : refill s next = next := by
    unfold refill
    rw [hor hcopy, hor hexecutor, hor hreceipt]
    have h1 : (if next.creationOperationID = "" then s.creationOperationID else next.creationOperationID) =
        next.creationOperationID := by
      split
      · rename_i h
        rw [h, hcreate h]
      · rfl
    have h2 : (if next.deletionOperationID = "" then s.deletionOperationID else next.deletionOperationID) =
        next.deletionOperationID := by
      split
      · rename_i h
        rw [h, hdelete h]
      · rfl
    rw [h1, h2]
  rw [stored, hrefill, hspec]

theorem stored_self : stored s s = s := stored_eq rfl id id id id id

theorem mutateState_inv {f : State → Except String State} (h : mutateState s f = .ok t) :
    ∃ next, f s = .ok next ∧ t = stored s next := by
  rw [mutateState, seq_ok, bind_ok] at h
  obtain ⟨-, next, hf, hnext⟩ := h
  exact ⟨next, hf, (pure_ok.mp hnext).symm⟩

/-! ### Creation -/

theorem unstartedCreation_inv (h : s.unstartedCreation) :
    validIdentityToken s.uid ∧ s.hasCleanup = false ∧ s.phase = .unset ∧ s.ownerNode = "" ∧ s.activeMove = "" ∧
      s.publishedNodes = [] ∧ s.currentCopy = none ∧ s.creationOperationID = "" ∧ s.deletionOperationID = "" ∧
      s.creationExecutor = none ∧ s.creationReceipt = none := by
  simp only [State.unstartedCreation, Bool.and_eq_true, decide_eq_true_eq, Bool.not_eq_true', and_assoc] at h
  obtain ⟨huid, -, -, -, -, hrest⟩ := h
  exact ⟨huid, hrest⟩

theorem bindInitialPool_inv {expected : State} {pool : PoolReference} (h : bindInitialPool s expected pool = .ok t) :
    s.initializing ∧ t = { s with initialPool := some pool } := by
  simp only [bindInitialPool, seq_ok, require_ok, pure_ok] at h
  obtain ⟨⟨-, hinit, -⟩, -, rfl⟩ := h
  exact ⟨hinit, rfl⟩

theorem initialServingCopy_inv {uid installationID ownerNode op : String} {pool : PoolReference}
    (h : initialServingCopy uid pool installationID volumeID ownerNode = .ok (copy, op)) :
    copy = { installationID, poolName := pool.name, poolUID := pool.uid, volumeID, volumeUID := uid
             copyID := "initial-" ++ uid, nodeName := ownerNode, role := .serving } ∧
      copy.valid ∧ op = "create-" ++ uid := by
  rw [initialServingCopy, seq_ok, bind_ok] at h
  obtain ⟨-, op', hop, h⟩ := h
  rw [seq_ok, require_ok, pure_ok, Prod.mk.injEq] at h
  obtain ⟨hvalid, rfl, rfl⟩ := h
  exact ⟨rfl, hvalid, creationOperationID_ok hop⟩

/-- The creation intent of an unstarted creation: its first copy, on the node its spec names. -/
theorem completeInitialization_inv {installationID : String}
    (h : completeInitialization volumeID installationID observed s = .ok t) :
    (s.phase ≠ .unset ∧ t = s) ∨ s.initializing ∧ ∃ pool copy, s.initialPool = some pool ∧
      copy.servesFor volumeID s.uid s.initialNode ∧ copy.copyID = "initial-" ++ s.uid ∧ copy.poolUID = pool.uid ∧
      t = { s with
        phase := .pending, ownerNode := s.initialNode, creationOperationID := "create-" ++ s.uid
        currentCopy := some copy } := by
  rw [completeInitialization, seq_ok, require_ok] at h
  obtain ⟨hobserved, h⟩ := h
  split at h
  · simp at h
  · rename_i pool hpool
    rw [bind_ok] at h
    obtain ⟨⟨copy, op⟩, hcopy, h⟩ := h
    obtain ⟨hshape, hvalid, rfl⟩ := initialServingCopy_inv hcopy
    obtain ⟨next, hnext, rfl⟩ := mutateState_inv h
    rw [seq_ok, require_ok] at hnext
    obtain ⟨huid, hnext⟩ := hnext
    split at hnext
    · rename_i hphase
      exact Or.inl ⟨hphase, by rw [← pure_ok.mp hnext, stored_self]⟩
    · rw [seq_ok, require_ok, pure_ok] at hnext
      obtain ⟨⟨hinit, -, hpools, -, hnode, -⟩, rfl⟩ := hnext
      simp only [State.initializing, Bool.and_eq_true, Bool.not_eq_true'] at hobserved
      obtain ⟨-, -, -, -, hactive, hpub, -, -, hdel, hexec, hrec⟩ := unstartedCreation_inv hobserved.2
      have hstarted := hinit
      simp only [State.initializing, Bool.and_eq_true, Bool.not_eq_true'] at hstarted
      obtain ⟨-, -, -, -, hactive', hpub', hcur', -, hdel', hexec', hrec'⟩ := unstartedCreation_inv hstarted.2
      simp only at huid hpools hnode
      refine Or.inr ⟨hinit, pool, copy, by rw [hpools, hpool], ?_, ?_, ?_, ?_⟩
      · rw [hshape] at hvalid ⊢
        simp [CopyIdentity.servesFor, hvalid, huid, hnode]
      · rw [hshape, huid]
      · rw [hshape]
      · simp [stored, setState, refill, huid, hnode, hactive, hpub, hdel, hexec, hrec, hactive', hpub', hdel',
          hexec', hrec']

theorem sameNodeCreation_inv {expected : State} (h : sameNodeCreation s expected) :
    s.activeMove = "" ∧ s.publishedNodes = [] ∧ s.creationOperationID = "create-" ++ s.uid ∧
      ∃ copy, s.currentCopy = some copy ∧ expected.currentCopy = some copy ∧ copy.nodeName = s.ownerNode := by
  simp only [sameNodeCreation, Bool.and_eq_true, decide_eq_true_eq] at h
  obtain ⟨⟨⟨⟨⟨⟨-, hcopy⟩, -⟩, hop⟩, hactive⟩, hpub⟩, -⟩ := h
  cases hs : s.currentCopy with
  | none => simp [hs] at hcopy
  | some copy =>
    cases he : expected.currentCopy with
    | none => simp [hs, he] at hcopy
    | some other =>
      simp only [hs, he, Bool.and_eq_true, decide_eq_true_eq] at hcopy
      obtain ⟨⟨rfl, -⟩, hnode⟩ := hcopy
      exact ⟨hactive, hpub, hop, copy, rfl, rfl, hnode⟩

theorem bindCreation_inv {expected : State} {executor : NodeExecutor} (h : bindCreation expected executor s = .ok t) :
    (s.phase = .pending ∨ s.phase = .nodeCreating) ∧ sameNodeCreation s expected ∧
      executor.nodeName = s.ownerNode ∧ t = { s with phase := .nodeCreating, creationExecutor := some executor } := by
  rw [bindCreation, seq_ok, require_ok] at h
  obtain ⟨⟨-, hexec⟩, h⟩ := h
  obtain ⟨next, hnext, rfl⟩ := mutateState_inv h
  rw [seq_ok, require_ok, pure_ok] at hnext
  obtain ⟨⟨hsame, hrec, hphase, -⟩, rfl⟩ := hnext
  obtain ⟨-, -, -, copy, -, hcopy, hnode⟩ := sameNodeCreation_inv hsame
  refine ⟨hphase, hsame, ?_, stored_eq rfl id id id (by simp) id⟩
  simpa [hcopy, hnode] using hexec

theorem recordCreationReceipt_inv {expected : State} {receipt : CreationReceipt}
    (h : recordCreationReceipt expected receipt s = .ok t) :
    s.phase = .nodeCreating ∧ sameNodeCreation s expected ∧
      (t = s ∨ s.creationReceipt = none ∧ t = { s with creationReceipt := some receipt }) := by
  rw [recordCreationReceipt, seq_ok] at h
  obtain ⟨next, hnext, rfl⟩ := mutateState_inv h.2
  rw [seq_ok, require_ok] at hnext
  obtain ⟨⟨hsame, hphase, -⟩, hnext⟩ := hnext
  refine ⟨hphase, hsame, ?_⟩
  split at hnext
  · rw [seq_ok, pure_ok] at hnext
    obtain ⟨-, rfl⟩ := hnext
    exact Or.inl stored_self
  · rename_i hnone
    rw [seq_ok, pure_ok] at hnext
    obtain ⟨-, rfl⟩ := hnext
    exact Or.inr ⟨hnone, stored_eq rfl id id id id (by simp)⟩

theorem completeCreate_inv {uid : String} (h : completeCreate uid copy s = .ok t) :
    s.currentCopy = some copy ∧ (s.phase = .ready ∧ t = s ∨
      (s.phase = .pending ∨ s.phase = .nodeCreating) ∧ t = { s with phase := .ready }) := by
  unfold completeCreate at h
  split at h
  · simp at h
  · obtain ⟨next, hnext, rfl⟩ := mutateState_inv h
    rw [seq_ok, require_ok] at hnext
    obtain ⟨⟨-, -, hcopy, -, -⟩, hnext⟩ := hnext
    refine ⟨hcopy, ?_⟩
    split at hnext
    · rename_i hready
      exact Or.inl ⟨hready, by rw [← pure_ok.mp hnext, stored_self]⟩
    · simp only [seq_ok, require_ok, pure_ok] at hnext
      obtain ⟨hphase, -, rfl⟩ := hnext
      exact Or.inr ⟨hphase, stored_eq rfl id id id id id⟩

/-! ### Deletion -/

theorem beginDelete_inv {uid : String} (h : beginDelete volumeID uid copy s = .ok t) :
    s.uid = uid ∧ s.currentCopy = some copy ∧ s.activeMove = "" ∧ s.publishedNodes = [] ∧
      (s.phase = .ready ∧ s.deletionOperationID = "" ∧
          t = { s with phase := .deleting, deletionOperationID := deletionOperationID s.uid } ∨
        s.phase = .deleting ∧ s.deletionOperationID = deletionOperationID s.uid ∧ t = s) := by
  rw [beginDelete, seq_ok] at h
  obtain ⟨next, hnext, rfl⟩ := mutateState_inv h.2
  unfold fenceForDeletion at hnext
  have hd : decideDeletion s uid (deletionOperationID uid) copy = .begin ∨
      decideDeletion s uid (deletionOperationID uid) copy = .resume := by
    split at hnext
    · simp at hnext
    · rename_i hb
      exact Or.inl hb
    · rename_i hb
      exact Or.inr hb
    · simp at hnext
  have hdel : deletionOperationID uid ≠ "" := by simp [deletionOperationID]
  unfold decideDeletion at hd hnext
  split at hd
  · simp at hd
  · rename_i hguard
    rw [if_neg hguard] at hnext
    simp only [not_or, not_not] at hguard
    obtain ⟨-, -, -, -, rfl, -, hcopy, hactive⟩ := hguard
    split at hd
    · simp at hd
    · rename_i hwait
      rw [if_neg hwait] at hnext
      split at hd
      · simp at hd
      · rename_i hpub
        rw [if_neg hpub] at hnext
        refine ⟨rfl, hcopy, hactive, not_not.mp hpub, ?_⟩
        split at hd
        · rename_i hready
          rw [if_pos hready] at hnext
          rw [← pure_ok.mp hnext]
          exact Or.inl ⟨hready.1, hready.2, stored_eq rfl id (fun h => absurd h hdel) id id id⟩
        · rename_i hready
          rw [if_neg hready] at hnext
          split at hd
          · rename_i hresume
            rw [if_pos hresume] at hnext
            rw [← pure_ok.mp hnext, stored_self]
            exact Or.inr ⟨hresume.1, hresume.2, rfl⟩
          · simp at hd

theorem initialCreationIdentity_inv (h : s.initialCreationIdentity) :
    s.activeMove = "" ∧ s.publishedNodes = [] ∧ s.ownerNode = s.initialNode ∧ s.currentCopy.isSome := by
  unfold State.initialCreationIdentity at h
  cases hs : s.currentCopy with
  | none => simp [hs] at h
  | some c =>
    simp only [hs, Bool.and_eq_true, decide_eq_true_eq, and_assoc] at h
    obtain ⟨-, -, -, -, howner, -, -, -, -, hactive, hpub, -, -⟩ := h
    exact ⟨hactive, hpub, howner, rfl⟩

theorem beginCreationCancellation_inv {uid : String} (h : beginCreationCancellation volumeID uid copy s = .ok t) :
    s.uid = uid ∧ s.currentCopy = some copy ∧ s.initialCreationIdentity ∧
      (s.cancellingCreation ∧ t = s ∨ (s.phase = .pending ∨ s.phase = .nodeCreating) ∧ s.deletionOperationID = "" ∧
        s.hasCleanup = false ∧
        t = { s with phase := .deleting, deletionOperationID := creationCancellationPrefix ++ s.uid }) := by
  rw [beginCreationCancellation, seq_ok] at h
  obtain ⟨next, hnext, rfl⟩ := mutateState_inv h.2
  rw [seq_ok, require_ok] at hnext
  obtain ⟨⟨rfl, hcopy⟩, hnext⟩ := hnext
  refine ⟨rfl, hcopy, ?_⟩
  split at hnext
  · rename_i hcan
    have hid := hcan
    simp only [State.cancellingCreation, Bool.and_eq_true] at hid
    exact ⟨hid.1.2, Or.inl ⟨hcan, by rw [← pure_ok.mp hnext, stored_self]⟩⟩
  · rw [seq_ok, require_ok, pure_ok] at hnext
    obtain ⟨hcan, rfl⟩ := hnext
    simp only [State.cancellableCreation, Bool.and_eq_true, Bool.or_eq_true, decide_eq_true_eq, Bool.not_eq_true'] at hcan
    obtain ⟨⟨⟨hclean, hdel⟩, hid⟩, hphase⟩ := hcan
    refine ⟨hid, Or.inr ⟨?_, hdel, hclean, stored_eq rfl id ?_ id id id⟩⟩
    · exact hphase.imp (fun h => h.1.1) (fun h => h.1)
    · intro h
      simp [creationCancellationPrefix] at h

/-! ### Publication -/

@[simp] theorem mem_sortedNodes {nodes : List String} {node : String} : node ∈ sortedNodes nodes ↔ node ∈ nodes := by
  rw [sortedNodes, List.mem_insertionSort, List.mem_dedup]

theorem beginPublish_inv {nodeName : String} (h : beginPublish nodeName copy s = .ok t) :
    s.phase = .ready ∧ s.ownerNode = nodeName ∧ s.currentCopy = some copy ∧
      t = { s with publishedNodes := sortedNodes (nodeName :: s.publishedNodes) } := by
  obtain ⟨next, hnext, rfl⟩ := mutateState_inv h
  rw [seq_ok, require_ok, pure_ok] at hnext
  obtain ⟨⟨hphase, howner, hcopy⟩, rfl⟩ := hnext
  exact ⟨hphase, howner, hcopy, stored_eq rfl id id id id id⟩

theorem reconcilePublished_inv {nodeName : String} {published : Bool}
    (h : reconcilePublished volumeID nodeName copy published s = .ok t) :
    s.ownerNode = nodeName ∧ s.currentCopy = some copy ∧ (published = true → s.phase = .ready) ∧
      t = { s with
        publishedNodes := sortedNodes
          (if published then nodeName :: s.publishedNodes else s.publishedNodes.filter (· ≠ nodeName)) } := by
  obtain ⟨next, hnext, rfl⟩ := mutateState_inv h
  simp only [seq_ok, require_ok, pure_ok] at hnext
  obtain ⟨⟨-, howner, hcopy⟩, hready, rfl⟩ := hnext
  exact ⟨howner, hcopy, hready, stored_eq rfl id id id id id⟩

end ShiftPV

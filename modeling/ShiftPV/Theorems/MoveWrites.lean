import ShiftPV.Store
import ShiftPV.Theorems.StatusWrites

/-! What any accepted write of a Move can do (`MoveStep`), what every version of a Move keeps of the
    earlier ones (`Continues`), and where its destination plan comes from (`Planned`): the plan is derived
    from the Move's own UID when execution is approved, and from nothing else. -/

namespace ShiftPV
open Check

variable {m n k : Move}

/-! ### Journals -/

inductive JournalStep (before : Option Journal) (after : Journal) : Prop where
  | opened (none : before = none) (pending : after.status.phase = .pending) (valid : after.spec.validate = .ok ())
  | kept (same : before = some after)
  | advanced (journal : Journal) (some : before = some journal) (spec : after.spec = journal.spec)
      (transition : validateCleanupTransition journal after.status = .ok ())

theorem CleanupParent.journal_inv {parent : CleanupParent} {slot : Option Journal} (h : parent.journal = .ok slot) :
    slot = parent.cleanup := by
  unfold CleanupParent.journal at h
  split at h
  · rename_i hnone
    rw [hnone, ← pure_ok.mp h]
  · rename_i journal hsome
    simp only [seq_ok, pure_ok] at h
    rw [hsome, ← h.2.2]

theorem CleanupParent.ensure_inv {parent : CleanupParent} {spec : CleanupSpec} {journal : Journal}
    (h : parent.ensure spec = .ok journal) :
    JournalStep parent.cleanup journal ∧ journal.spec = spec ∧ spec.authority = parent.authority := by
  rw [CleanupParent.ensure, seq_ok, seq_ok, bind_ok] at h
  obtain ⟨hvalid, hparent, slot, hslot, h⟩ := h
  simp only [CleanupParent.validate, seq_ok, require_ok] at hparent
  have hcleanup := CleanupParent.journal_inv hslot
  split at h
  · rw [seq_ok, require_ok, pure_ok] at h
    obtain ⟨hspec, rfl⟩ := h
    exact ⟨.kept hcleanup.symm, hspec, hparent.1.symm⟩
  · obtain rfl := pure_ok.mp h
    exact ⟨.opened hcleanup.symm rfl hvalid, rfl, hparent.1.symm⟩

theorem CleanupParent.updateStatus_inv {parent : CleanupParent} {expected : CleanupSpec} {next : CleanupStatus}
    {journal : Journal} (h : parent.updateStatus expected next = .ok journal) :
    JournalStep parent.cleanup journal ∧ ∃ before, parent.cleanup = some before := by
  rw [CleanupParent.updateStatus, seq_ok, seq_ok, bind_ok] at h
  obtain ⟨-, -, slot, hslot, h⟩ := h
  have hcleanup := CleanupParent.journal_inv hslot
  split at h
  · simp at h
  · rename_i before
    rw [seq_ok] at h
    obtain ⟨-, h⟩ := h
    refine ⟨?_, before, hcleanup.symm⟩
    split at h
    · obtain rfl := pure_ok.mp h
      exact .kept hcleanup.symm
    · rw [seq_ok, pure_ok] at h
      obtain ⟨htrans, rfl⟩ := h
      exact .advanced before hcleanup.symm rfl htrans

theorem JournalStep.phase_ne_unset {before : Option Journal} {after : Journal} (h : JournalStep before after)
    (hbefore : ∀ j, before = some j → j.status.phase ≠ .unset) : after.status.phase ≠ .unset := by
  cases h with
  | opened _ hpending _ => simp [hpending]
  | kept hsame => exact hbefore _ hsame
  | advanced journal hsome _ htrans =>
    rw [validateCleanupTransition, seq_ok, require_ok] at htrans
    intro hunset
    have hedge := htrans.1
    rw [hunset] at hedge
    unfold allowedCleanupEdges at hedge
    split at hedge <;> simp at hedge

/-! ### Moves -/

inductive MoveStep (m n : Move) : Prop where
  | status (step : StatusStep m n)
  | usage (bytes : Int) (positive : 0 < bytes) (once : m.status.sourceBytes > 0 → m.status.sourceBytes = bytes)
      (held : ∃ p, m.Prepared p) (waiting : m.status.phase = .waitingForCapacity)
      (record : n = m ∨ n = { m with
        status := { m.status with sourceBytes := bytes }, resourceVersion := m.resourceVersion + 1 })
  | journal (journal : Journal) (step : JournalStep m.cleanup journal)
      (planned : m.cleanup = none → m.status.destinationCopy.isSome) (record : n = m.setJournal journal)
  | recovery (recovery : String) (record : n = { m with
      spec := { m.spec with recovery }, resourceVersion := m.resourceVersion + 1 })
  | deletion (record : n = { m with deleting := true, resourceVersion := m.resourceVersion + 1 })

theorem recordSourceUsage_inv {expected : Move} {copy : CopyIdentity} {bytes : Int} {state : State}
    (h : recordSourceUsage expected copy bytes state m = .ok n) :
    0 < bytes ∧ (m.status.sourceBytes > 0 → m.status.sourceBytes = bytes) ∧ (∃ p, m.Prepared p) ∧
      m.status.phase = .waitingForCapacity ∧ (n = m ∨ n = { m with
        status := { m.status with sourceBytes := bytes }, resourceVersion := m.resourceVersion + 1 }) := by
  simp only [recordSourceUsage, seq_ok, require_ok] at h
  obtain ⟨⟨-, -, -, hbytes, -⟩, -, -, -, -, -, ⟨hwait, hsome⟩, hprep, -, ⟨-, honce⟩, -, h⟩ := h
  obtain ⟨p, hp⟩ := Option.isSome_iff_exists.mp hsome
  refine ⟨hbytes, honce, ⟨p, validateMovePreparation_ok hprep hp⟩, hwait, ?_⟩
  split at h
  · exact Or.inl (pure_ok.mp h).symm
  · exact Or.inr (pure_ok.mp h).symm

theorem storeMove_inv {write : MoveWrite} (h : storeMove write m = .ok n) : MoveStep m n := by
  cases write with
  | status expected next =>
    obtain ⟨rfl, -, -, -, -, hstep⟩ := compareAndSetMoveStatus_inv h
    exact .status hstep
  | recordSourceUsage expected copy bytes state =>
    obtain ⟨hbytes, honce, hheld, hwait, hrecord⟩ := recordSourceUsage_inv h
    exact .usage bytes hbytes honce hheld hwait hrecord
  | ensureCleanup spec =>
    simp only [storeMove, seq_ok, require_ok] at h
    obtain ⟨hplan, h⟩ := h
    rw [Move.ensureCleanup, bind_ok] at h
    obtain ⟨journal, hjournal, h⟩ := h
    exact .journal journal (CleanupParent.ensure_inv hjournal).1 (fun _ => hplan) (pure_ok.mp h).symm
  | updateCleanup expected next =>
    simp only [storeMove, Move.updateCleanup, bind_ok] at h
    obtain ⟨journal, hjournal, h⟩ := h
    obtain ⟨hstep, before, hbefore⟩ := CleanupParent.updateStatus_inv hjournal
    have hcleanup : m.cleanup = some before := hbefore
    exact .journal journal hstep (fun hnone => by simp [hcleanup] at hnone) (pure_ok.mp h).symm
  | setRecovery recovery => exact .recovery recovery (pure_ok.mp h).symm
  | requestDeletion => exact .deletion (pure_ok.mp h).symm

theorem applyMoveWrite_inv {write : MoveWrite} (h : applyMoveWrite write m = .ok n) : MoveStep m n := by
  rw [applyMoveWrite, seq_ok] at h
  exact storeMove_inv h.2

theorem applyMoveWrite_node {write : MoveWrite} (h : applyMoveWrite write m = .ok n) :
    n.status.destinationNode = m.status.destinationNode ∨ n.status.destinationNode ≠ m.spec.sourceNode := by
  rw [applyMoveWrite, seq_ok, require_ok] at h
  obtain ⟨hplace, h⟩ := h
  cases write with
  | status expected next =>
    obtain ⟨rfl, -⟩ := compareAndSetMoveStatus_inv h
    simpa [validPlacement] using hplace
  | recordSourceUsage expected copy bytes state =>
    obtain ⟨-, -, -, -, rfl | rfl⟩ := recordSourceUsage_inv h <;> exact Or.inl rfl
  | ensureCleanup spec =>
    simp only [storeMove, Move.ensureCleanup, bind_ok, pure_ok] at h
    obtain ⟨-, -, journal, -, rfl⟩ := h
    exact Or.inl rfl
  | updateCleanup expected next =>
    simp only [storeMove, Move.updateCleanup, bind_ok, pure_ok] at h
    obtain ⟨journal, -, rfl⟩ := h
    exact Or.inl rfl
  | setRecovery recovery | requestDeletion =>
    obtain rfl := pure_ok.mp h
    exact Or.inl rfl

/-! ### Versions of one Move -/

/-- `n` is a later version of `m`: the same object, with every recorded part of the plan in place. -/
structure Continues (m n : Move) : Prop extends PlanKept m n where
  name : n.name = m.name
  uid : n.uid = m.uid
  volumeID : n.spec.volumeID = m.spec.volumeID
  sourceNode : n.spec.sourceNode = m.spec.sourceNode
  protocol : n.spec.protocolVersion = m.spec.protocolVersion

theorem PlanKept.of_eq (h : n.status = m.status) : PlanKept m n := by
  constructor <;> rw [h] <;> intros <;> first | assumption | rfl

theorem PlanKept.trans (h₁ : PlanKept m n) (h₂ : PlanKept n k) : PlanKept m k where
  source c hc := h₂.source c (h₁.source c hc)
  incoming c hc := h₂.incoming c (h₁.incoming c hc)
  destination c hc := h₂.destination c (h₁.destination c hc)
  copyOperation hc := by rw [h₂.copyOperation (by rwa [h₁.copyOperation hc]), h₁.copyOperation hc]
  promotionOperation hc := by rw [h₂.promotionOperation (by rwa [h₁.promotionOperation hc]), h₁.promotionOperation hc]
  rollback hc := by rw [h₂.rollback (by rwa [h₁.rollback hc]), h₁.rollback hc]
  bytes hc := by rw [h₂.bytes (by rwa [h₁.bytes hc]), h₁.bytes hc]
  node hc := by rw [h₂.node (by rwa [h₁.node hc]), h₁.node hc]
  pool hc := by rw [h₂.pool (by rwa [h₁.pool hc]), h₁.pool hc]
  settlement hc := h₂.settlement (h₁.settlement hc)

theorem Continues.refl (m : Move) : Continues m m :=
  { PlanKept.of_eq rfl with name := rfl, uid := rfl, volumeID := rfl, sourceNode := rfl, protocol := rfl }

theorem Continues.trans (h₁ : Continues m n) (h₂ : Continues n k) : Continues m k :=
  { h₁.toPlanKept.trans h₂.toPlanKept with
    name := h₂.name.trans h₁.name
    uid := h₂.uid.trans h₁.uid
    volumeID := h₂.volumeID.trans h₁.volumeID
    sourceNode := h₂.sourceNode.trans h₁.sourceNode
    protocol := h₂.protocol.trans h₁.protocol }

theorem MoveStep.continues (h : MoveStep m n) : Continues m n := by
  cases h with
  | status step =>
    exact { step.toPlanKept with
      name := step.name, uid := step.uid
      volumeID := by rw [step.spec], sourceNode := by rw [step.spec], protocol := by rw [step.spec] }
  | usage bytes hpos honce _ _ hrecord =>
    rcases hrecord with rfl | rfl
    · exact .refl n
    · exact { PlanKept.of_eq (m := m) (n := m) rfl with
        name := rfl, uid := rfl, volumeID := rfl, sourceNode := rfl, protocol := rfl
        bytes := fun hset => (honce hset).symm }
  | journal journal _ _ hrecord =>
    subst hrecord
    exact { PlanKept.of_eq (m := m) (n := m.setJournal journal) rfl with
      name := rfl, uid := rfl, volumeID := rfl, sourceNode := rfl, protocol := rfl }
  | recovery recovery hrecord | deletion hrecord =>
    subst hrecord
    exact { PlanKept.of_eq (m := m) rfl with name := rfl, uid := rfl, volumeID := rfl, sourceNode := rfl, protocol := rfl }

/-! ### The destination plan -/

/-- The recorded destination plan is the one derived from the Move's UID and source copy under `anchor`,
    on a Pool other than the source copy's. -/
structure PlanDerived (m : Move) (source : CopyIdentity) (anchor : MoveDestinationAnchor) : Prop where
  planned : m.PlansSource source
  installation : anchor.installationID = source.installationID
  volumeUID : anchor.volumeUID = source.volumeUID
  foreign : anchor.poolUID ≠ source.poolUID
  node : m.status.destinationNode = anchor.nodeName
  pool : m.status.destinationPoolUID = anchor.poolUID
  incoming : m.status.incomingCopy = some (moveTransactionCopies m.uid m.spec.volumeID anchor).1
  destination : m.status.destinationCopy = some (moveTransactionCopies m.uid m.spec.volumeID anchor).2
  copyOperation : m.status.copyOperationID = moveCopyOperationID m.uid
  promotionOperation : m.status.promotionOperationID = movePromotionOperationID m.uid
  valid : (moveTransactionCopies m.uid m.spec.volumeID anchor).2.valid

theorem validIdentityToken_ne_empty {token : String} (h : validIdentityToken token) : token ≠ "" := by
  rintro rfl
  simp [validIdentityToken] at h

theorem valid_poolUID_ne_empty {copy : CopyIdentity} (h : copy.valid) : copy.poolUID ≠ "" := by
  simp only [CopyIdentity.valid, Bool.and_eq_true] at h
  exact validIdentityToken_ne_empty h.1.1.1.1.1.2

theorem valid_nodeName_ne_empty {copy : CopyIdentity} (h : copy.valid) : copy.nodeName ≠ "" := by
  simp only [CopyIdentity.valid, validObjectName, Bool.and_eq_true] at h
  exact validIdentityToken_ne_empty h.1.2.1

theorem PlanDerived.continues {source : CopyIdentity} {anchor : MoveDestinationAnchor} (h : PlanDerived m source anchor)
    (hk : Continues m n) : PlanDerived n source anchor := by
  obtain ⟨hs, hv, hr, hid, hn⟩ := h.planned
  have hnode : m.status.destinationNode ≠ "" := h.node ▸ valid_nodeName_ne_empty h.valid
  have hpool : m.status.destinationPoolUID ≠ "" := h.pool ▸ valid_poolUID_ne_empty h.valid
  have hcopy : m.status.copyOperationID ≠ "" := by simp [h.copyOperation, moveCopyOperationID]
  have hprom : m.status.promotionOperationID ≠ "" := by simp [h.promotionOperation, movePromotionOperationID]
  exact
    { planned := ⟨hk.source source hs, hv, hr, by rw [hk.volumeID, hid], by rw [hk.sourceNode, hn]⟩
      installation := h.installation
      volumeUID := h.volumeUID
      foreign := h.foreign
      node := by rw [hk.node hnode, h.node]
      pool := by rw [hk.pool hpool, h.pool]
      incoming := by rw [hk.uid, hk.volumeID]; exact hk.incoming _ h.incoming
      destination := by rw [hk.uid, hk.volumeID]; exact hk.destination _ h.destination
      copyOperation := by rw [hk.copyOperation hcopy, h.copyOperation, hk.uid]
      promotionOperation := by rw [hk.promotionOperation hprom, h.promotionOperation, hk.uid]
      valid := by rw [hk.uid, hk.volumeID]; exact h.valid }

theorem HoldApproved.derived {p : MovePreparation} {source : CopyIdentity} (h : HoldApproved m n p source)
    (hp : m.Prepared p) (hk : Continues m n) : PlanDerived n source (preparationAnchor source p) := by
  obtain ⟨hs, hv, hr, hid, hn⟩ := h.planned
  obtain ⟨other, ⟨hother, -⟩, hforeign⟩ := hp.plan
  obtain rfl : other = source := Option.some.inj (hother.symm.trans hs)
  exact
    { planned := ⟨hk.source other hs, hv, hr, by rw [hk.volumeID, hid], by rw [hk.sourceNode, hn]⟩
      installation := rfl
      volumeUID := rfl
      foreign := hforeign
      node := h.node
      pool := h.pool
      incoming := by rw [hk.uid, hk.volumeID]; exact h.incoming
      destination := by rw [hk.uid, hk.volumeID]; exact h.destination
      copyOperation := by rw [h.copyOperation, hk.uid]
      promotionOperation := by rw [h.promotionOperation, hk.uid]
      valid := by rw [hk.uid, hk.volumeID]; exact h.valid }

structure MoveSound (m : Move) : Prop where
  journal : ∀ j, m.cleanup = some j → j.status.phase ≠ .unset
  prepared : ∀ p, m.status.preparation = some p → m.Prepared p
  derived : m.status.capacityApproved ∨ m.hasDestinationIntent → ∃ source anchor, PlanDerived m source anchor

theorem moveSound_createMove {name uid volumeID sourceNode : String} :
    MoveSound (createMove name uid volumeID sourceNode) where
  journal j hj := by simp [createMove] at hj
  prepared p hp := by simp [createMove, MoveStatus.empty] at hp
  derived h := by simp [createMove, MoveStatus.empty, Move.hasDestinationIntent, Move.cleanupPhase] at h

theorem Move.intent_of_destination (h : m.status.destinationCopy.isSome) : m.hasDestinationIntent := by
  simp [Move.hasDestinationIntent, h]

theorem Move.Prepared.of_same {p : MovePreparation} (h : m.Prepared p) (hs : n.status.preparation = some p)
    (happ : n.status.capacityApproved = m.status.capacityApproved) (hint : n.hasDestinationIntent = m.hasDestinationIntent)
    (hk : Continues m n) (hnode : n.status.destinationNode = m.status.destinationNode)
    (hpool : n.status.destinationPoolUID = m.status.destinationPoolUID) : n.Prepared p := by
  obtain ⟨source, ⟨hsrc, hv, hr, hid, hn⟩, hforeign⟩ := h.plan
  exact
    { held := hs, bytes := h.bytes, poolName := h.poolName, poolUID := h.poolUID
      unapproved := happ.trans h.unapproved
      noIntent := hint.trans h.noIntent
      plan := ⟨source, ⟨hk.source source hsrc, hv, hr, by rw [hk.volumeID, hid], by rw [hk.sourceNode, hn]⟩, hforeign⟩
      node := by rw [hnode]; exact h.node
      pool := by rw [hpool]; exact h.pool }

theorem StatusStep.sound (hs : StatusStep m n) (h : MoveSound m) : MoveSound n := by
  have hk := (MoveStep.status hs).continues
  have hkeep : m.status.capacityApproved ∨ m.hasDestinationIntent → ∃ source anchor, PlanDerived n source anchor := by
    intro hexec
    obtain ⟨source, anchor, hplan⟩ := h.derived hexec
    exact ⟨source, anchor, hplan.continues hk⟩
  refine ⟨fun j hj => h.journal j (hs.cleanup ▸ hj), ?_, ?_⟩
  · intro p hp
    cases hs.hold with
    | idle before after | cancel q before after | approve q source before after => simp [after] at hp
    | start q before after | keep q before after =>
      obtain rfl : q = p := Option.some.inj (after.held.symm.trans hp)
      exact after
  · intro hexec
    cases hs.hold with
    | idle before after approval intent =>
      rcases hexec with happ | hint
      · exact hkeep (Or.inl (approval happ))
      · exact hkeep (intent hint)
    | start q before after | keep q before after => simp [after.unapproved, after.noIntent] at hexec
    | cancel q before after _ _ unapproved noIntent => simp [unapproved, noIntent] at hexec
    | approve q source before after approval => exact ⟨source, _, approval.derived before hk⟩

theorem MoveStep.sound (hs : MoveStep m n) (h : MoveSound m) : MoveSound n := by
  have hk := hs.continues
  have hplan (hexec : m.status.capacityApproved ∨ m.hasDestinationIntent) : ∃ source anchor, PlanDerived n source anchor := by
    obtain ⟨source, anchor, hplan⟩ := h.derived hexec
    exact ⟨source, anchor, hplan.continues hk⟩
  cases hs with
  | status step => exact step.sound h
  | usage bytes _ _ _ _ hrecord =>
    rcases hrecord with rfl | rfl
    · exact h
    · exact ⟨h.journal, fun p hp => (h.prepared p hp).of_same hp rfl rfl hk rfl rfl, hplan⟩
  | journal journal step planned hrecord =>
    subst hrecord
    -- a journal exists only under a recorded destination, so there is no preparation beside it
    have hintent : m.hasDestinationIntent := by
      cases hc : m.cleanup with
      | none => exact Move.intent_of_destination (planned hc)
      | some j => simp [Move.hasDestinationIntent, Move.cleanupPhase, hc, h.journal j hc]
    refine ⟨?_, ?_, fun _ => hplan (Or.inr hintent)⟩
    · intro j hj
      obtain rfl : journal = j := Option.some.inj hj
      exact step.phase_ne_unset h.journal
    · intro p hp
      simp [(h.prepared p hp).noIntent] at hintent
  | recovery recovery hrecord | deletion hrecord =>
    subst hrecord
    exact ⟨h.journal, fun p hp => (h.prepared p hp).of_same hp rfl rfl hk rfl rfl, hplan⟩

end ShiftPV

import ShiftPV.MoveRegistry

/-! What an accepted status write of a Move can do. One inversion lemma per validator, and from them
    `StatusStep`: the recorded plan never changes, and the capacity hold moves only along `HoldStep`. -/

namespace ShiftPV
open Check

variable {m n : Move} {next : MoveStatus} {p : MovePreparation}

/-! ### Validators -/

theorem immutableText_ok {kind name a b : String} {u : Unit} :
    immutableText kind name a b = .ok u ↔ (a ≠ "" → b = a) := require_ok

theorem immutableCopy_ok {name : String} {a b : Option CopyIdentity} {u : Unit} :
    immutableCopy name a b = .ok u ↔ ∀ c, a = some c → b = some c := by
  rw [immutableCopy, require_ok]
  cases a <;> simp

/-- The source copy a prepared plan names: a serving copy of the Move's volume on its source node. -/
def Move.PlansSource (move : Move) (source : CopyIdentity) : Prop :=
  move.status.sourceCopy = some source ∧ source.valid ∧ source.role = .serving ∧
    source.volumeID = move.spec.volumeID ∧ source.nodeName = move.spec.sourceNode

theorem validatePreparedPlan_ok (h : validatePreparedPlan m = .ok ()) :
    m.name ≠ "" ∧ validIdentityToken m.uid ∧ ∃ source, m.PlansSource source := by
  simp only [validatePreparedPlan, requiresField, seq_ok, require_ok] at h
  obtain ⟨⟨hname, huid⟩, -, -, -, -, -, -, -, hsource⟩ := h
  cases hs : m.status.sourceCopy with
  | none => simp [hs] at hsource
  | some source =>
    simp only [hs, Option.any_some, Bool.and_eq_true, decide_eq_true_eq] at hsource
    obtain ⟨⟨⟨hv, hr⟩, hid⟩, hn⟩ := hsource
    exact ⟨hname, huid, source, hs, hv, hr, hid, hn⟩

/-- A well-formed logical hold: it excludes execution authority and lies outside the source Pool. -/
structure Move.Prepared (move : Move) (p : MovePreparation) : Prop where
  held : move.status.preparation = some p
  bytes : p.reservedBytes > 0
  poolName : validObjectName p.pool.name
  poolUID : validIdentityToken p.pool.uid
  unapproved : move.status.capacityApproved = false
  noIntent : move.hasDestinationIntent = false
  plan : ∃ source, move.PlansSource source ∧ p.pool.uid ≠ source.poolUID
  node : move.status.destinationNode = "" ∨ move.status.destinationNode = p.nodeName
  pool : move.status.destinationPoolUID = "" ∨ move.status.destinationPoolUID = p.pool.uid

theorem validateMovePreparation_ok (h : validateMovePreparation m = .ok ())
    (hp : m.status.preparation = some p) : m.Prepared p := by
  simp only [validateMovePreparation, hp, seq_ok, require_ok, validatePreparationFields] at h
  obtain ⟨-, ⟨hname, huid, -, hbytes⟩, hplan, ⟨happ, hint⟩, -, hpool, hnode, hpool'⟩ := h
  obtain ⟨-, -, source, hsource⟩ := validatePreparedPlan_ok hplan
  exact
    { held := hp
      bytes := hbytes
      poolName := hname
      poolUID := huid
      unapproved := by simpa using happ
      noIntent := by simpa using hint
      plan := ⟨source, hsource, by simpa [hsource.1] using hpool⟩
      node := hnode
      pool := hpool' }

/-! ### The capacity hold -/

/-- The release of an approved hold: recovery settled the destination and says on which evidence. -/
structure HoldReleased (m n : Move) : Prop where
  blocked : m.status.phase = .blocked ∧ n.status.phase = .blocked
  retiring : m.status.recoveryPhase = .retiring ∧ n.status.recoveryPhase = .retiring
  reason : n.status.capacityReason = "RecoverySettled"
  evidence : m.cleanupPhase = .completed ∨
    m.cleanupPhase = .unset ∧ m.status.rollbackRequiredGeneration > 0

/-- The approval of a hold: it carries the plan derived from the preparation it consumes. -/
structure HoldApproved (m n : Move) (p : MovePreparation) (source : CopyIdentity) : Prop where
  planned : m.PlansSource source
  waiting : m.status.phase = .waitingForCapacity
  approved : n.status.capacityApproved = true
  node : n.status.destinationNode = p.nodeName
  pool : n.status.destinationPoolUID = p.pool.uid
  incoming : n.status.incomingCopy =
    some (moveTransactionCopies m.uid m.spec.volumeID (preparationAnchor source p)).1
  destination : n.status.destinationCopy =
    some (moveTransactionCopies m.uid m.spec.volumeID (preparationAnchor source p)).2
  copyOperation : n.status.copyOperationID = moveCopyOperationID m.uid
  promotionOperation : n.status.promotionOperationID = movePromotionOperationID m.uid
  valid : (moveTransactionCopies m.uid m.spec.volumeID (preparationAnchor source p)).2.valid

/-- The capacity hold of a Move across one accepted status write. -/
inductive HoldStep (m n : Move) : Prop where
  | idle (before : m.status.preparation = none) (after : n.status.preparation = none)
      (approval : n.status.capacityApproved → m.status.capacityApproved)
      (intent : n.hasDestinationIntent → m.status.capacityApproved ∨ m.hasDestinationIntent)
      (release : m.status.capacityApproved → n.status.capacityApproved = false → HoldReleased m n)
  | start (p : MovePreparation) (before : m.status.preparation = none) (after : n.Prepared p)
      (unapproved : m.status.capacityApproved = false) (noIntent : m.hasDestinationIntent = false)
      (phase : m.status.phase = .unset ∨ m.status.phase = .pending ∨ m.status.phase = .preparing)
  | keep (p : MovePreparation) (before : m.Prepared p) (after : n.Prepared p)
  | cancel (p : MovePreparation) (before : m.Prepared p) (after : n.status.preparation = none)
      (canceling : m.status.phase = .canceling) (cancelled : n.status.phase = .cancelled)
      (unapproved : n.status.capacityApproved = false) (noIntent : n.hasDestinationIntent = false)
  | approve (p : MovePreparation) (source : CopyIdentity) (before : m.Prepared p)
      (after : n.status.preparation = none) (approval : HoldApproved m n p source)

/-! ### Status writes -/

structure SameMove (m n : Move) : Prop where
  name : n.name = m.name
  uid : n.uid = m.uid
  spec : n.spec = m.spec
  finalizers : n.finalizers = m.finalizers
  deleting : n.deleting = m.deleting
  cleanup : n.cleanup = m.cleanup

structure PlanKept (m n : Move) : Prop where
  source : ∀ c, m.status.sourceCopy = some c → n.status.sourceCopy = some c
  incoming : ∀ c, m.status.incomingCopy = some c → n.status.incomingCopy = some c
  destination : ∀ c, m.status.destinationCopy = some c → n.status.destinationCopy = some c
  copyOperation : m.status.copyOperationID ≠ "" → n.status.copyOperationID = m.status.copyOperationID
  promotionOperation : m.status.promotionOperationID ≠ "" →
    n.status.promotionOperationID = m.status.promotionOperationID
  rollback : m.status.rollbackRequiredGeneration > 0 →
    n.status.rollbackRequiredGeneration = m.status.rollbackRequiredGeneration
  bytes : m.status.sourceBytes > 0 → n.status.sourceBytes = m.status.sourceBytes
  node : m.status.destinationNode ≠ "" → n.status.destinationNode = m.status.destinationNode
  pool : m.status.destinationPoolUID ≠ "" → n.status.destinationPoolUID = m.status.destinationPoolUID
  settlement : m.status.settlementRequested → n.status.settlementRequested

structure StatusStep (m n : Move) : Prop extends SameMove m n, PlanKept m n where
  protocol : m.spec.protocolVersion = moveProtocolPreparedV1
  sourcePlan : ∀ c, n.status.sourceCopy = some c → n.PlansSource c
  settlementBlocked : n.status.settlementRequested → n.status.phase = .blocked
  settlementExecution : n.status.settlementRequested → m.status.settlementRequested ∨
    m.status.capacityApproved ∨ m.hasDestinationIntent
  hold : HoldStep m n

theorem preserveMoveIdentity_ok {a b : MoveStatus} (h : preserveMoveIdentity a b = .ok ()) :
    (a.sourceBytes > 0 → b.sourceBytes = a.sourceBytes) ∧
      (a.rollbackRequiredGeneration > 0 → b.rollbackRequiredGeneration = a.rollbackRequiredGeneration) ∧
      (∀ c, a.sourceCopy = some c → b.sourceCopy = some c) ∧
      (∀ c, a.incomingCopy = some c → b.incomingCopy = some c) ∧
      (∀ c, a.destinationCopy = some c → b.destinationCopy = some c) ∧
      (a.copyOperationID ≠ "" → b.copyOperationID = a.copyOperationID) ∧
      (a.promotionOperationID ≠ "" → b.promotionOperationID = a.promotionOperationID) := by
  simp only [preserveMoveIdentity, seq_ok, require_ok, immutableCopy_ok, immutableText_ok] at h
  obtain ⟨⟨-, hbytes⟩, ⟨-, hroll⟩, hs, hi, hd, hc, hp⟩ := h
  exact ⟨hbytes, hroll, hs, hi, hd, hc, hp⟩

theorem preservePreparedPlan_ok {a b : MoveStatus} (h : preservePreparedPlan a b = .ok ()) :
    (a.destinationNode ≠ "" → b.destinationNode = a.destinationNode) ∧
      (a.destinationPoolUID ≠ "" → b.destinationPoolUID = a.destinationPoolUID) := by
  simp only [preservePreparedPlan, seq_ok, immutableText_ok] at h
  obtain ⟨-, -, -, -, -, -, -, -, hn, hp⟩ := h
  exact ⟨hn, hp⟩

theorem validateExecutionHoldRelease_ok (h : validateExecutionHoldRelease m n = .ok ())
    (hm : m.status.capacityApproved) (hn : n.status.capacityApproved = false) : HoldReleased m n := by
  rw [validateExecutionHoldRelease, if_neg (by simp [hm, hn])] at h
  simp only [seq_ok, require_ok] at h
  obtain ⟨⟨hb, hr, hb', hr', hreason⟩, hphase, hroll, -⟩ := h
  refine ⟨⟨hb, hb'⟩, ⟨hr, hr'⟩, hreason, ?_⟩
  rcases hphase with hnone | hdone
  · exact Or.inr ⟨hnone, hroll hnone⟩
  · exact Or.inl hdone

theorem preservePreparation_ok (h : preservePreparation m n = .ok ()) (hname : n.uid = m.uid)
    (hspec : n.spec = m.spec) (hprep : validateMovePreparation n = .ok ())
    (hrel : validateExecutionHoldRelease m n = .ok ()) : HoldStep m n := by
  unfold preservePreparation at h
  cases hm : m.status.preparation with
  | none =>
    simp only [hm, validatePreparationStart, seq_ok, require_ok] at h
    obtain ⟨happ, hint, hstart⟩ := h
    cases hn : n.status.preparation with
    | none =>
      refine .idle hm hn (fun ha => by_contra fun hna => happ ⟨ha, hna⟩) (fun hi => ?_)
        (validateExecutionHoldRelease_ok hrel)
      by_contra hno
      rw [not_or] at hno
      exact hint ⟨hi, hno.1, hno.2⟩
    | some p =>
      obtain ⟨ha, hi, hphase⟩ := hstart (by simp [hn])
      exact .start p hm (validateMovePreparation_ok hprep hn) (by simpa using ha) (by simpa using hi) hphase
  | some p =>
    simp only [hm, seq_ok] at h
    obtain ⟨hcur, h⟩ := h
    have hbefore := validateMovePreparation_ok hcur hm
    cases hn : n.status.preparation with
    | some q =>
      simp only [hn, require_ok] at h
      subst h
      exact .keep p hbefore (validateMovePreparation_ok hprep hn)
    | none =>
      simp only [hn] at h
      split at h
      · rename_i hc
        obtain ⟨hcan, hdone, happ, hint⟩ := hc
        exact .cancel p hbefore hn hcan hdone (by simpa using happ) (by simpa using hint)
      · simp only [seq_ok, require_ok] at h
        obtain ⟨⟨hwait, happ, hnode, hpool⟩, h⟩ := h
        obtain ⟨source, hsource, -⟩ := hbefore.plan
        simp only [hsource.1] at h
        obtain ⟨-, hin, hdst, hcopy, hprom, -, hv⟩ := validateMoveTransactionIdentities_ok h
        rw [hname, hspec] at hin hdst hv
        rw [hname] at hcopy hprom
        exact .approve p source hbefore hn
          { planned := hsource, waiting := hwait, approved := happ, node := hnode, pool := hpool, incoming := hin
            destination := hdst, copyOperation := hcopy, promotionOperation := hprom, valid := hv }

theorem compareAndSetMoveStatus_inv {expected : Move} (h : compareAndSetMoveStatus expected next m = .ok n) :
    n = { m with status := next, resourceVersion := m.resourceVersion + 1 } ∧
      expected.name = m.name ∧ expected.uid = m.uid ∧ expected.spec = m.spec ∧
      expected.resourceVersion = m.resourceVersion ∧ StatusStep m n := by
  simp only [compareAndSetMoveStatus, seq_ok, require_ok, pure_ok] at h
  obtain ⟨-, hname, ⟨huid, hrv⟩, -, ⟨hspec, hproto⟩, -, htrans, rfl⟩ := h
  refine ⟨rfl, hname.symm, huid.symm, hspec.symm, hrv.symm, ?_⟩
  simp only [validatePreparedTransition, validateSettlementTransition, seq_ok, require_ok, whenever_ok] at htrans
  obtain ⟨⟨hkeep, hblocked, hexec⟩, hident, hplan, hprep, hsource, -, hrel, hpres⟩ := htrans
  obtain ⟨hbytes, hroll, hs, hi, hd, hc, hp⟩ := preserveMoveIdentity_ok hident
  obtain ⟨hnode, hpool⟩ := preservePreparedPlan_ok hplan
  refine
    { name := rfl, uid := rfl, spec := rfl, finalizers := rfl, deleting := rfl, cleanup := rfl
      source := hs, incoming := hi, destination := hd, copyOperation := hc, promotionOperation := hp
      rollback := hroll, bytes := hbytes, node := hnode, pool := hpool, settlement := hkeep
      protocol := hproto, sourcePlan := ?_, settlementBlocked := hblocked, settlementExecution := ?_
      hold := ?_ }
  · intro c hc
    have hset : next.sourceCopy.isSome := by rw [show next.sourceCopy = some c from hc]; rfl
    obtain ⟨-, -, source, hs⟩ := validatePreparedPlan_ok (hsource (Or.inl hset))
    have : source = c := Option.some.inj (hs.1.symm.trans hc)
    exact this ▸ hs
  · intro hset
    by_contra hno
    rw [not_or, not_or] at hno
    exact hexec ⟨hset, hno.1, hno.2.1, hno.2.2⟩
  · exact preservePreparation_ok (n := { m with status := next, resourceVersion := m.resourceVersion + 1 })
      hpres rfl rfl hprep hrel

end ShiftPV

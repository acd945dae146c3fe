import ShiftPV.Theorems.Coherence

/-! The capacity hold of a Move over whole histories. Approval happens once because it consumes the preparation and records
    the destination plan, which rules out another preparation for good. -/

namespace ShiftPV
open Check

def Move.Fresh (m : Move) : Prop := m.status = .empty ∧ m.cleanup = none

abbrev MoveRun : List Move → Prop := Run Move.Fresh (Run.onHead fun m write n => storeMove write m = .ok n)

variable {m n : Move} {h past : List Move} {p : MovePreparation}

theorem moveSound_fresh (hm : m.Fresh) : MoveSound m where
  journal j hj := by simp [hm.2] at hj
  prepared p hp := by simp [hm.1, MoveStatus.empty] at hp
  derived h := by simp [hm.1, hm.2, MoveStatus.empty, Move.hasDestinationIntent, Move.cleanupPhase] at h

theorem MoveRun.sound (hr : MoveRun h) : ∀ m ∈ h, MoveSound m := by
  refine Run.forall_mem (fun m => moveSound_fresh) ?_ hr
  intro m n past write _ ih hs
  exact (storeMove_inv (Run.onHead_cons.mp hs)).sound (ih m (by simp))

theorem MoveRun.planned (hr : MoveRun (m :: past)) : ∀ k ∈ m :: past, k.status.capacityApproved →
    m.status.destinationCopy.isSome := by
  have h := Run.invariant (I := fun h => ∀ m past, h = m :: past → ∀ k ∈ h, k.status.capacityApproved →
    m.status.destinationCopy.isSome) ?_ ?_ hr
  · exact h m past rfl
  · rintro m hm k past heq x hx happ
    cases heq
    obtain rfl := List.mem_singleton.mp hx
    simp [hm.1, MoveStatus.empty] at happ
  · rintro m n past write hr ih hs k past' heq x hx happ
    cases heq
    have hstep := storeMove_inv (Run.onHead_cons.mp hs)
    rcases List.mem_cons.mp hx with rfl | hx
    · obtain ⟨source, anchor, hplan⟩ := (hstep.sound (MoveRun.sound hr m (by simp))).derived (Or.inl happ)
      simp [hplan.destination]
    · obtain ⟨d, hd⟩ := Option.isSome_iff_exists.mp (ih m past rfl x hx happ)
      simp [hstep.continues.destination d hd]

theorem MoveRun.intent (hr : MoveRun (m :: past)) {k : Move} (hk : k ∈ m :: past) (happ : k.status.capacityApproved) :
    m.hasDestinationIntent := Move.intent_of_destination (MoveRun.planned hr k hk happ)

/-! ### One write -/

theorem Move.Prepared.exclusive (hp : m.Prepared p) : ¬m.status.capacityApproved ∧ ¬m.hasDestinationIntent := by
  simp [hp.unapproved, hp.noIntent]

theorem MoveStep.hold_kept (hs : MoveStep m n) : StatusStep m n ∨
    n.status.capacityApproved = m.status.capacityApproved ∧ n.status.preparation = m.status.preparation ∧
      n.status.settlementRequested = m.status.settlementRequested := by
  cases hs with
  | status step => exact Or.inl step
  | usage bytes _ _ _ _ hrecord => rcases hrecord with rfl | rfl <;> exact Or.inr ⟨rfl, rfl, rfl⟩
  | journal journal _ _ hrecord | recovery recovery hrecord | deletion hrecord => subst hrecord; exact Or.inr ⟨rfl, rfl, rfl⟩

/-- Approval consumes the preparation in the write that records the plan derived from it. -/
theorem MoveStep.approval (hs : MoveStep m n) (hm : m.status.capacityApproved = false)
    (hn : n.status.capacityApproved = true) : ∃ p source, m.Prepared p ∧ n.status.preparation = none ∧
      HoldApproved m n p source := by
  rcases hs.hold_kept with step | ⟨happ, -⟩
  · cases step.hold with
    | idle before after approval => simp [approval hn] at hm
    | start q before after | keep q before after => simp [after.unapproved] at hn
    | cancel q before after _ _ unapproved => simp [unapproved] at hn
    | approve q source before after approval => exact ⟨q, source, before, after, approval⟩
  · simp [happ, hm] at hn

/-- A Move with a recorded plan neither prepares nor gets approved. -/
theorem MoveStep.no_second_hold (hs : MoveStep m n) (hsound : MoveSound m) (hint : m.hasDestinationIntent) :
    n.status.preparation = none ∧ (n.status.capacityApproved → m.status.capacityApproved) := by
  rcases hs.hold_kept with step | ⟨happ, hprep, -⟩
  · cases step.hold with
    | idle before after approval => exact ⟨after, approval⟩
    | start q before after unapproved noIntent => simp [noIntent] at hint
    | keep q before after | cancel q before after | approve q source before after => simp [before.noIntent] at hint
  · refine ⟨?_, fun h => happ ▸ h⟩
    rw [hprep]
    cases hm : m.status.preparation with
    | none => rfl
    | some q => simp [(hsound.prepared q hm).noIntent] at hint

theorem MoveStep.dropped (hs : MoveStep m n) (hm : m.status.preparation = some p) (hn : n.status.preparation = none)
    (happ : n.status.capacityApproved = false) :
    m.status.phase = .canceling ∧ n.status.phase = .cancelled ∧ n.hasDestinationIntent = false := by
  rcases hs.hold_kept with step | ⟨-, hprep, -⟩
  · cases step.hold with
    | idle before after | start q before after => simp [before] at hm
    | keep q before after => simp [after.held] at hn
    | cancel q before after canceling cancelled _ noIntent => exact ⟨canceling, cancelled, noIntent⟩
    | approve q source before after approval => simp [approval.approved] at happ
  · simp [hprep, hm] at hn

theorem MoveStep.released (hs : MoveStep m n) (hm : m.status.capacityApproved = true)
    (hn : n.status.capacityApproved = false) : HoldReleased m n := by
  rcases hs.hold_kept with step | ⟨happ, -⟩
  · cases step.hold with
    | idle before after approval intent release => exact release hm hn
    | start q before after unapproved => simp [unapproved] at hm
    | keep q before after | cancel q before after => simp [before.unapproved] at hm
    | approve q source before after approval => simp [approval.approved] at hn
  · simp [happ, hm] at hn

/-! ### Histories -/

/-- The hold protocol, for every history of accepted writes from an empty status. -/
theorem hold_protocol (hr : MoveRun h) :
    (∀ m ∈ h, m.status.preparation.isSome → ¬m.status.capacityApproved ∧ ¬m.hasDestinationIntent) ∧
    ∀ m write n, h.head? = some m → storeMove write m = .ok n →
      (¬m.status.capacityApproved → n.status.capacityApproved →
        (∀ k ∈ h, ¬k.status.capacityApproved) ∧ m.status.phase = .waitingForCapacity ∧
        ∃ p source, m.status.preparation = some p ∧ n.status.preparation = none ∧
          m.status.sourceCopy = some source ∧
          n.status.destinationNode = p.nodeName ∧ n.status.destinationPoolUID = p.pool.uid ∧
          n.status.incomingCopy = some (moveTransactionCopies m.uid m.spec.volumeID (preparationAnchor source p)).1 ∧
          n.status.destinationCopy = some (moveTransactionCopies m.uid m.spec.volumeID (preparationAnchor source p)).2 ∧
          n.status.copyOperationID = moveCopyOperationID m.uid ∧
          n.status.promotionOperationID = movePromotionOperationID m.uid) ∧
      ((∃ k ∈ h, k.status.capacityApproved) → n.status.preparation = none) ∧
      (m.status.preparation.isSome → n.status.preparation = none → ¬n.status.capacityApproved →
        m.status.phase = .canceling ∧ n.status.phase = .cancelled ∧ ¬n.hasDestinationIntent) ∧
      (m.status.capacityApproved → ¬n.status.capacityApproved →
        m.status.phase = .blocked ∧ n.status.phase = .blocked ∧ m.status.recoveryPhase = .retiring ∧
        n.status.recoveryPhase = .retiring ∧ n.status.capacityReason = "RecoverySettled" ∧
        ((∃ j, m.cleanup = some j ∧ j.status.phase = .completed) ∨
          m.cleanup = none ∧ m.status.rollbackRequiredGeneration > 0)) ∧
      (m.status.settlementRequested → n.status.settlementRequested) := by
  refine ⟨?_, ?_⟩
  · intro m hm hsome
    obtain ⟨p, hp⟩ := Option.isSome_iff_exists.mp hsome
    exact ((MoveRun.sound hr m hm).prepared p hp).exclusive
  rintro m write n hhead hw
  obtain ⟨past, rfl⟩ := List.head?_eq_some_iff.mp hhead
  have hsound := MoveRun.sound hr m (by simp)
  have hs := storeMove_inv hw
  refine ⟨?_, ?_, ?_, ?_, ?_⟩
  · intro hm hn
    obtain ⟨p, source, hp, hnone, happ⟩ := hs.approval (by simpa using hm) hn
    refine ⟨fun k hk hka => ?_, happ.waiting, p, source, hp.held, hnone, happ.planned.1, happ.node, happ.pool,
      happ.incoming, happ.destination, happ.copyOperation, happ.promotionOperation⟩
    exact hm ((hs.no_second_hold hsound (MoveRun.intent hr hk hka)).2 hn)
  · rintro ⟨k, hk, hka⟩
    exact (hs.no_second_hold hsound (MoveRun.intent hr hk hka)).1
  · intro hsome hnone happ
    obtain ⟨p, hp⟩ := Option.isSome_iff_exists.mp hsome
    obtain ⟨hcan, hdone, hint⟩ := hs.dropped hp hnone (by simpa using happ)
    exact ⟨hcan, hdone, by simp [hint]⟩
  · intro hm hn
    obtain ⟨⟨hb, hb'⟩, ⟨hret, hret'⟩, hreason, hevidence⟩ := hs.released hm (by simpa using hn)
    refine ⟨hb, hb', hret, hret', hreason, ?_⟩
    cases hc : m.cleanup with
    | none =>
      rcases hevidence with hdone | ⟨-, hroll⟩
      · simp [Move.cleanupPhase, hc] at hdone
      · exact Or.inr ⟨rfl, hroll⟩
    | some j =>
      rcases hevidence with hdone | ⟨hunset, -⟩
      · exact Or.inl ⟨j, rfl, by simpa [Move.cleanupPhase, hc] using hdone⟩
      · exact absurd (by simpa [Move.cleanupPhase, hc] using hunset) (hsound.journal j hc)
  · intro hset
    rcases hs.hold_kept with step | ⟨-, -, hsame⟩
    · exact step.settlement hset
    · rw [hsame]
      exact hset

/-! A Move is prepared, waits for capacity and is approved. -/

def sampleMove : Move := createMove "move" "move-1" sampleVolumeID "node-a"

def preparedMove : Move := { sampleMove with status := planned sampleMove.status, resourceVersion := 2 }

def waitingMove : Move :=
  { preparedMove with status := { preparedMove.status with phase := .waitingForCapacity }, resourceVersion := 3 }

def approvedMove : Move := { waitingMove with status := approved waitingMove.status, resourceVersion := 4 }

theorem waitingMove_run : MoveRun [waitingMove, preparedMove, sampleMove] := by
  have hprepare : storeMove (.status sampleMove preparedMove.status) sampleMove = .ok preparedMove := by decide +kernel
  have hwait : storeMove (.status preparedMove waitingMove.status) preparedMove = .ok waitingMove := by decide +kernel
  have hrun : MoveRun [preparedMove, sampleMove] := .next (.start ⟨rfl, rfl⟩) (Run.onHead_cons.mpr hprepare)
  exact .next hrun (Run.onHead_cons.mpr hwait)

theorem hold_protocol_approval :
    storeMove (.status waitingMove approvedMove.status) waitingMove = .ok approvedMove ∧
      approvedMove.status.capacityApproved ∧ ∀ k ∈ [waitingMove, preparedMove, sampleMove],
        ¬k.status.capacityApproved := by
  have happrove : storeMove (.status waitingMove approvedMove.status) waitingMove = .ok approvedMove := by
    decide +kernel
  exact ⟨happrove, rfl, (((hold_protocol waitingMove_run).2 _ _ _ rfl happrove).1 (by decide) rfl).1⟩

end ShiftPV

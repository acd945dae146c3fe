import ShiftPV.Controller
import ShiftPV.Theorems.HoldProtocol

/-! The predicates that say whether destination execution was ever recorded. The store counts a cleanup phase and a rollback
    generation as intent, the controller and the history validator do not; they agree on every stored Move because a stored
    Move with any intent carries its two transaction copies. -/

namespace ShiftPV
open Check

variable {m n : Move} {h : List Move}

/-- A Move as the controller creates it, under the name and UID that the API server gives it. -/
def Move.Created (m : Move) : Prop :=
  ∃ name uid volumeID sourceNode, name ≠ "" ∧ uid ≠ "" ∧ m = createMove name uid volumeID sourceNode

structure Move.Identified (m : Move) : Prop where
  protocol : m.spec.protocolVersion = moveProtocolPreparedV1
  name : m.name ≠ ""
  uid : m.uid ≠ ""

theorem Move.Created.identified (hm : m.Created) : m.Identified := by
  obtain ⟨name, uid, volumeID, sourceNode, hname, huid, rfl⟩ := hm
  exact ⟨rfl, hname, huid⟩

theorem Continues.identified (hk : Continues m n) (hm : m.Identified) : n.Identified :=
  ⟨hk.protocol.trans hm.protocol, hk.name ▸ hm.name, hk.uid ▸ hm.uid⟩

abbrev CreatedRun : List Move → Prop := Run Move.Created (Run.onHead fun m write n => storeMove write m = .ok n)

theorem CreatedRun.sound (hr : CreatedRun h) : ∀ m ∈ h, MoveSound m ∧ m.Identified := by
  refine Run.forall_mem (fun m hm => ⟨?_, hm.identified⟩) ?_ hr
  · obtain ⟨name, uid, volumeID, sourceNode, -, -, rfl⟩ := hm
    exact moveSound_createMove
  · intro m n past write _ ih hs
    have hstep := storeMove_inv (Run.onHead_cons.mp hs)
    obtain ⟨hsound, hidentified⟩ := ih m (by simp)
    exact ⟨hstep.sound hsound, hstep.continues.identified hidentified⟩

/-! ### The predicates -/

theorem noDestinationEffectIntent_eq : noDestinationEffectIntent m = !SettledHistory.hasDestinationIntent m := by
  unfold noDestinationEffectIntent SettledHistory.hasDestinationIntent
  cases m.status.incomingCopy <;> cases m.status.destinationCopy <;> simp [Bool.not_or]

/-- A stored Move with any intent has recorded both transaction copies. -/
theorem MoveSound.copies (hm : MoveSound m) (hintent : m.hasDestinationIntent) :
    m.status.incomingCopy.isSome ∧ m.status.destinationCopy.isSome := by
  obtain ⟨source, anchor, hplan⟩ := hm.derived (.inr hintent)
  simp [hplan.incoming, hplan.destination]

theorem MoveSound.intent_eq (hm : MoveSound m) : m.hasDestinationIntent = !noDestinationEffectIntent m := by
  cases hintent : m.hasDestinationIntent with
  | true =>
    obtain ⟨incoming, hincoming⟩ := Option.isSome_iff_exists.mp (hm.copies hintent).1
    simp [noDestinationEffectIntent, hincoming]
  | false =>
    simp only [Move.hasDestinationIntent, Bool.or_eq_false_iff, Option.isSome_eq_false_iff, Option.isNone_iff_eq_none, ne_eq,
      decide_eq_false_iff_not, not_not] at hintent
    obtain ⟨⟨⟨⟨⟨⟨⟨hincoming, hdestination⟩, hcopy⟩, hpromotion⟩, hcopyJob⟩, hpromotionJob⟩, -⟩, -⟩ := hintent
    simp [noDestinationEffectIntent, hincoming, hdestination, hcopy, hpromotion, hcopyJob, hpromotionJob]

theorem Move.intent_of_cleanup (h : m.cleanupPhase ≠ .unset ∨ m.status.rollbackRequiredGeneration ≠ 0) : m.hasDestinationIntent := by
  rcases h with h | h <;> simp [Move.hasDestinationIntent, h]

theorem MoveSound.cancellable_iff (hm : MoveSound m) (hidentified : m.Identified) : cancellablePreparation m = .ok () ↔
    ¬m.status.capacityApproved ∧ noDestinationEffectIntent m ∧ m.status.recoveryPhase = .unset ∧ m.status.recoveryOwner = "" := by
  rw [cancellablePreparation, seq_ok, require_ok, require_ok]
  constructor
  · rintro ⟨-, hfree, hnone, -, -, hphase, howner⟩
    exact ⟨hfree, hnone, hphase, howner⟩
  · rintro ⟨hfree, hnone, hphase, howner⟩
    have hintent : m.hasDestinationIntent = false := by rw [hm.intent_eq, hnone]; rfl
    have hcleanup : ¬(m.cleanupPhase ≠ .unset ∨ m.status.rollbackRequiredGeneration ≠ 0) := fun h => by
      simp [Move.intent_of_cleanup h] at hintent
    simp only [ne_eq, not_or, not_not] at hcleanup
    exact ⟨⟨hidentified.protocol, hidentified.name, hidentified.uid⟩, hfree, hnone, hcleanup.1, hcleanup.2, hphase, howner⟩

/-- The destination-intent predicates agree on every Move that accepted writes reach from its creation, and no such Move has a
    cleanup phase or a rollback generation without its two transaction copies. -/
theorem intent_predicates_agree (hr : CreatedRun h) : ∀ m ∈ h,
    noDestinationEffectIntent m = !SettledHistory.hasDestinationIntent m ∧
    m.hasDestinationIntent = !noDestinationEffectIntent m ∧
    (cancellablePreparation m = .ok () ↔ ¬m.status.capacityApproved ∧ noDestinationEffectIntent m ∧
      m.status.recoveryPhase = .unset ∧ m.status.recoveryOwner = "") ∧
    (m.cleanupPhase ≠ .unset ∨ m.status.rollbackRequiredGeneration ≠ 0 →
      m.status.incomingCopy.isSome ∧ m.status.destinationCopy.isSome) := by
  intro m hm
  obtain ⟨hsound, hidentified⟩ := CreatedRun.sound hr m hm
  exact ⟨noDestinationEffectIntent_eq, hsound.intent_eq, hsound.cancellable_iff hidentified,
    fun h => hsound.copies (Move.intent_of_cleanup h)⟩

/-- A Move that is approved is no longer cancellable. -/
theorem intent_predicates_agree_approved : CreatedRun [approvedMove, waitingMove, preparedMove, sampleMove] ∧
    noDestinationEffectIntent approvedMove = false ∧ approvedMove.hasDestinationIntent = !noDestinationEffectIntent approvedMove := by
  have hprepare : storeMove (.status sampleMove preparedMove.status) sampleMove = .ok preparedMove := by decide +kernel
  have hwait : storeMove (.status preparedMove waitingMove.status) preparedMove = .ok waitingMove := by decide +kernel
  have happrove : storeMove (.status waitingMove approvedMove.status) waitingMove = .ok approvedMove := by decide +kernel
  have hcreated : CreatedRun [sampleMove] := .start ⟨_, _, _, _, by decide, by decide, rfl⟩
  have hprepared : CreatedRun [preparedMove, sampleMove] := .next hcreated (Run.onHead_cons.mpr hprepare)
  have hwaiting : CreatedRun [waitingMove, preparedMove, sampleMove] := .next hprepared (Run.onHead_cons.mpr hwait)
  have hrun : CreatedRun [approvedMove, waitingMove, preparedMove, sampleMove] := .next hwaiting (Run.onHead_cons.mpr happrove)
  exact ⟨hrun, by decide +kernel, (intent_predicates_agree hrun approvedMove (by simp)).2.1⟩

end ShiftPV

import ShiftPV.Fsm

/-! What the decision model can answer in each phase. `outcomes` lists the actions a phase can select, each
    with the phase it records afterwards; the remaining lemmas say which facts of the observation stand
    behind the decisions that grant or give up authority. -/

namespace ShiftPV
open Check

variable {current : LifecycleState} {phase : MovePhase} {o : Observation} {d : Decision}

/-! ### The outcome table -/

/-- Failing closed, cancelling, settling and waiting are open to every running phase. -/
def stops (phase : MovePhase) : List (Action × MovePhase) :=
  [(.wait, phase), (.wait, .canceling), (.markBlocked, .blocked), (.requestSettlement, .blocked)]

def outcomes : MovePhase → List (Action × MovePhase)
  | .pending => stops .pending ++
      [(.protectMove, .pending), (.deletePlacement, .pending), (.initializePreparation, .preparing), (.wait, .preparing)]
  | .preparing => stops .preparing ++
      [(.protectMove, .preparing), (.deletePlacement, .preparing), (.initializePreparation, .preparing),
        (.claimSource, .preparing), (.reservePreparation, .preparing), (.wait, .startingDisruption)]
  | .startingDisruption => stops .startingDisruption ++ [(.startDisruption, .waitingForUnpublish)]
  | .canceling => [(.claimSource, .canceling), (.restoreSource, .canceling), (.deletePlacement, .canceling),
      (.releasePreparation, .cancelled)]
  | .cancelled => [(.restoreSource, .cancelled), (.deletePlacement, .cancelled), (.releaseSource, .cancelled),
      (.finalizeHistory, .cancelled)]
  | .waitingForUnpublish => stops .waitingForUnpublish ++ [(.wait, .waitingForReplacement)]
  | .waitingForReplacement => stops .waitingForReplacement ++ [(.ensurePlacement, .waitingForDestination)]
  | .waitingForDestination => stops .waitingForDestination ++
      [(.ensurePlacement, .waitingForDestination), (.wait, .waitingForCapacity)]
  | .waitingForCapacity => stops .waitingForCapacity ++
      [(.ensureCapacity, .waitingForCapacity), (.ensureCopy, .copying)]
  | .copying => stops .copying ++
      [(.ensurePlacement, .copying), (.ensureCopy, .copying), (.ensurePromotion, .promoting)]
  | .promoting => stops .promoting ++
      [(.ensurePlacement, .promoting), (.ensurePromotion, .promoting), (.commitOwner, .committing)]
  | .committing => stops .committing ++
      [(.ensurePlacement, .committing), (.commitOwner, .committing), (.deletePlacement, .releasingDestination)]
  | .releasingDestination => stops .releasingDestination ++
      [(.deletePlacement, .releasingDestination), (.releasePlacement, .waitingForDestinationPublish),
        (.wait, .waitingForDestinationPublish)]
  | .waitingForDestinationPublish => stops .waitingForDestinationPublish ++
      [(.releasePlacement, .waitingForDestinationPublish), (.ensureCleanup, .cleaningSource)]
  | .cleaningSource => stops .cleaningSource ++
      [(.releasePlacement, .cleaningSource), (.ensureCleanup, .cleaningSource), (.confirmCleanup, .completing)]
  | .completing => stops .completing ++ [(.markSucceeded, .succeeded)]
  | .succeeded => [(.finalizeHistory, .succeeded)]
  | .blocked => [(.wait, .canceling), (.wait, .blocked), (.requestSettlement, .blocked), (.finalizeHistory, .blocked),
      (.finalizeSourceUsage, .blocked), (.beginRecovery, .blocked), (.quiesceRecovery, .blocked),
      (.verifyRecovery, .blocked), (.retireRecovery, .blocked), (.resumeRecovery, .blocked),
      (.completeRecovery, .blocked)]
  | .unset => []

def Decision.Listed (d : Decision) (phase : MovePhase) : Prop := (d.action, d.next.phase) ∈ outcomes phase

def Decision.Stops (d : Decision) (phase : MovePhase) : Prop := (d.action, d.next.phase) ∈ stops phase

def Yields (P : Decision → Prop) (r : Except String Decision) : Prop := ∀ d, r = .ok d → P d

abbrev Answers (phase : MovePhase) (r : Except String Decision) : Prop := Yields (·.Listed phase) r

theorem transition_inv {source target : MovePhase} {action : Action} {reason : String}
    (h : transition source target action reason = .ok d) :
    d = { next := { phase := target, recoveryPhase := .unset }, action, reason } := by
  rw [transition, seq_ok, pure_ok] at h
  exact h.2.symm

theorem blockedWith_cases (current : MovePhase) (o : Observation) (fallback : String) :
    (blockedWith current o fallback).action = .wait ∧ (blockedWith current o fallback).next.phase = .canceling ∧
        beforeExecutionApproval o ∨
      (blockedWith current o fallback).action = .markBlocked ∧ (blockedWith current o fallback).next.phase = .blocked := by
  unfold blockedWith
  split
  · rename_i h
    exact Or.inl ⟨rfl, rfl, h.1⟩
  · exact Or.inr ⟨rfl, rfl⟩

/-! ### Composing answers -/

def MovePhase.Stoppable (phase : MovePhase) : Prop := ∀ x ∈ stops phase, x ∈ outcomes phase

instance (phase : MovePhase) : Decidable phase.Stoppable := by unfold MovePhase.Stoppable; infer_instance

section Answers
variable {P : Decision → Prop} {p : Prop} [Decidable p] {a b : Except String Decision}
  {g h : Option (Except String Decision)}

theorem Yields.mono {Q : Decision → Prop} (h : Yields P a) (hPQ : ∀ d, P d → Q d) : Yields Q a :=
  fun d hd => hPQ d (h d hd)

theorem Yields.ite (ha : Yields P a) (hb : Yields P b) : Yields P (if p then a else b) := by
  split <;> assumption

theorem Yields.cases (ha : p → Yields P a) (hb : ¬p → Yields P b) : Yields P (if p then a else b) := by
  split
  · exact ha ‹_›
  · exact hb ‹_›

theorem Yields.guarded (hg : ∀ r, g = some r → Yields P r) (ha : Yields P a) : Yields P (g.getD a) := by
  cases g with
  | none => exact ha
  | some r => exact hg r rfl

theorem Yields.or (hg : ∀ r, g = some r → Yields P r) (hh : ∀ r, h = some r → Yields P r) :
    ∀ r, g.or h = some r → Yields P r := by
  intro r hr
  rcases Option.or_eq_some_iff.mp hr with hr | ⟨-, hr⟩
  · exact hg r hr
  · exact hh r hr

theorem Yields.route (ha : p → Yields P a) (hh : ¬p → ∀ r, h = some r → Yields P r) :
    ∀ r, (if p then some a else h) = some r → Yields P r := by
  intro r hr
  split at hr
  · exact Option.some.inj hr ▸ ha ‹_›
  · exact hh ‹_› r hr

theorem Yields.seq {check : Except String Unit} (ha : check = .ok () → Yields P a) :
    Yields P (check >>= fun _ => a) := by
  intro d hd
  obtain ⟨hcheck, hd⟩ := seq_ok.mp hd
  exact ha hcheck d hd

theorem Yields.throw {message : String} : Yields P (throw message) := by
  intro d hd
  simp at hd

theorem Yields.pure (h : P d) : Yields P (Pure.pure d) := by
  intro e he
  exact pure_ok.mp he ▸ h

theorem Yields.step {source target : MovePhase} {action : Action} {reason : String}
    (h : P { next := { phase := target, recoveryPhase := .unset }, action, reason }) :
    Yields P (transition source target action reason) := by
  intro d hd
  exact transition_inv hd ▸ h

theorem Yields.transition {source target : MovePhase} {action : Action} {reason : String}
    (h : decide ((action, target) ∈ outcomes phase) = true) : Answers phase (transition source target action reason) :=
  .step (of_decide_eq_true h : (action, target) ∈ outcomes phase)

theorem Yields.stay {recoveryPhase : RecoveryPhase} {action : Action} {reason : String}
    (h : decide ((action, phase) ∈ outcomes phase) = true) :
    Answers phase (Pure.pure { next := { phase, recoveryPhase }, action, reason }) :=
  .pure (of_decide_eq_true h : (action, phase) ∈ outcomes phase)

theorem Yields.wait {source : MovePhase} {reason : String} (h : decide phase.Stoppable = true) :
    Answers phase (ShiftPV.transition source phase .wait reason) :=
  .step (of_decide_eq_true h _ (by simp [stops]))

theorem Yields.blocked {fallback : String} (h : decide phase.Stoppable = true) :
    Answers phase (Pure.pure (blockedWith phase o fallback)) := by
  refine .pure (of_decide_eq_true h _ ?_)
  rcases blockedWith_cases phase o fallback with ⟨ha, hp, -⟩ | ⟨ha, hp⟩ <;> rw [ha, hp] <;> simp [stops]

end Answers

/-! ### One lemma per rule -/

theorem blockedWith_stops {fallback : String} : (blockedWith phase o fallback).Stops phase := by
  rcases blockedWith_cases phase o fallback with ⟨ha, hp, -⟩ | ⟨ha, hp⟩ <;> simp [Decision.Stops, ha, hp, stops]

theorem destinationGuard_stops : ∀ r, destinationGuard phase o = some r → Yields (·.Stops phase) r := by
  intro r hr
  unfold destinationGuard at hr
  split_ifs at hr
  · exact Option.some.inj hr ▸ .step (by simp [Decision.Stops, stops])
  · exact Option.some.inj hr ▸ .pure blockedWith_stops

theorem consumerGuard_stops : ∀ r, consumerGuard phase o = some r → Yields (·.Stops phase) r := by
  intro r hr
  unfold consumerGuard at hr
  split_ifs at hr
  exact Option.some.inj hr ▸ .step (by simp [Decision.Stops, stops])

theorem authorityGuard_stops : ∀ r, authorityGuard phase o = some r → Yields (·.Stops phase) r := by
  intro r hr
  unfold authorityGuard at hr
  split_ifs at hr
  · exact Option.some.inj hr ▸ .pure blockedWith_stops
  · exact Option.some.inj hr ▸ .step (by simp [Decision.Stops, stops])
  · exact Option.some.inj hr ▸ .pure blockedWith_stops

theorem destinationGuard_answers (h : decide phase.Stoppable = true) :
    ∀ r, destinationGuard phase o = some r → Answers phase r :=
  fun r hr => (destinationGuard_stops r hr).mono fun _ => of_decide_eq_true h _

theorem consumerGuard_answers (h : decide phase.Stoppable = true) :
    ∀ r, consumerGuard phase o = some r → Answers phase r :=
  fun r hr => (consumerGuard_stops r hr).mono fun _ => of_decide_eq_true h _

theorem placementGuard_answers (h : decide ((.ensurePlacement, phase) ∈ outcomes phase) = true) :
    ∀ r, placementGuard phase o = some r → Answers phase r := by
  intro r hr
  unfold placementGuard at hr
  split_ifs at hr
  exact Option.some.inj hr ▸ .transition h

theorem deferral_answers {reason : String} (hwait : (.wait, phase) ∈ outcomes phase)
    (hdelete : (.deletePlacement, phase) ∈ outcomes phase) :
    Answers phase (transition phase phase (if o.placementExists then .deletePlacement else .wait) reason) := by
  refine .step ?_
  show _ ∈ _
  split <;> assumption

theorem decidePreparation_answers (hphase : phase = .pending ∨ phase = .preparing) :
    Answers phase (decidePreparation phase o) := by
  -- a pending Move with a recorded plan moves on before it reaches the claim
  have hclaim : Answers phase (if phase = .pending then transition phase .preparing .wait ""
      else if ¬o.sourceClaimed then transition phase phase .claimSource ""
      else if ¬o.preparationReserved then transition phase phase .reservePreparation ""
      else transition phase .startingDisruption .wait "") := by
    rcases hphase with rfl | rfl
    · exact .transition rfl
    · rw [if_neg (by decide)]
      exact .ite (.transition rfl) (.ite (.transition rfl) (.transition rfl))
  have hstop : decide phase.Stoppable = true := by rcases hphase with rfl | rfl <;> rfl
  refine .seq fun _ => (.ite ?_ (.ite (.blocked hstop) (.ite (.ite (.blocked hstop) ?_) (.ite ?_ hclaim))))
  · exact .transition (by rcases hphase with rfl | rfl <;> rfl)
  · exact deferral_answers (of_decide_eq_true hstop _ (by simp [stops])) (by rcases hphase with rfl | rfl <;> decide)
  · exact .transition (by rcases hphase with rfl | rfl <;> rfl)

theorem decideStartingDisruption_answers : Answers .startingDisruption (decideStartingDisruption .startingDisruption o) := by
  exact .seq fun _ => (.ite (.blocked rfl) (.ite (.wait rfl) (.ite (.blocked rfl) (.transition rfl))))

theorem decideCancellation_answers (hphase : current.phase = .canceling ∨ current.phase = .cancelled) :
    Answers current.phase (decideCancellation current o) := by
  obtain ⟨phase, recoveryPhase⟩ := current
  rcases hphase with rfl | rfl
  · change Answers .canceling _
    refine .seq fun _ => (.ite (.stay rfl) (.ite (.stay rfl) (.ite (.stay rfl) (.cases ?_ ?_))))
    · exact fun _ => .transition rfl
    · exact fun hne => absurd rfl hne
  · change Answers .cancelled _
    refine .seq fun _ => (.cases ?_ fun _ => .ite (.stay rfl) (.ite (.stay rfl) (.cases ?_ fun _ => .ite (.stay rfl) (.stay rfl))))
    · exact fun hclaim => by simp at hclaim
    · exact fun hcancel => by simp at hcancel

theorem decideBlocked_inv {recoveryPhase : RecoveryPhase} (h : decideBlocked ⟨.blocked, recoveryPhase⟩ o = .ok d) :
    d.Listed .blocked ∧ d.next.phase = .blocked := by
  have stays : ∀ {next : RecoveryPhase} {a : Action}, (a, .blocked) ∈ outcomes .blocked →
      (pure { next := ⟨.blocked, next⟩, action := a, reason := "" } : Except String Decision) = .ok d →
      d.Listed .blocked ∧ d.next.phase = .blocked := by
    intro next a hlisted h
    obtain rfl := pure_ok.mp h
    exact ⟨hlisted, rfl⟩
  unfold decideBlocked at h
  split_ifs at h
  · exact stays (by decide) h
  · exact stays (by decide) h
  · cases recoveryPhase with
    | unset => exact stays (a := .beginRecovery) (by decide) h
    | quiescing => exact stays (a := .quiesceRecovery) (by decide) h
    | verifying => exact stays (a := .verifyRecovery) (by decide) h
    | retiring => exact stays (a := .retireRecovery) (by decide) h
    | resuming => exact stays (a := .resumeRecovery) (by decide) h
    | completing => exact stays (by split <;> decide) h
    | recovered => simp [decideRecovery] at h
  · exact stays (by decide) h

theorem decideWaitingForCapacity_answers : Answers .waitingForCapacity (decideWaitingForCapacity .waitingForCapacity o) := by
  unfold decideWaitingForCapacity
  refine .guarded (.or (destinationGuard_answers rfl) (consumerGuard_answers rfl)) ?_
  exact .ite (.transition rfl) (.ite (.transition rfl) (.transition rfl))

theorem decideCopying_answers : Answers .copying (decideCopying .copying o) := by
  unfold decideCopying
  refine .guarded (destinationGuard_answers rfl) (.ite (.blocked rfl) ?_)
  refine .guarded (.or (consumerGuard_answers rfl) (placementGuard_answers rfl)) ?_
  exact .ite (.transition rfl) (.transition rfl)

theorem decidePromoting_answers : Answers .promoting (decidePromoting .promoting o) := by
  unfold decidePromoting
  refine .ite (.transition rfl) (.guarded (destinationGuard_answers rfl) (.ite (.blocked rfl) ?_))
  refine .guarded (.or (consumerGuard_answers rfl) (placementGuard_answers rfl)) ?_
  exact .ite (.transition rfl) (.transition rfl)

theorem decideCommitting_answers : Answers .committing (decideCommitting .committing o) := by
  unfold decideCommitting
  refine .ite (.ite (.wait rfl) (.transition rfl)) (.guarded ?_ (.transition rfl))
  exact .or (.or (destinationGuard_answers rfl) (consumerGuard_answers rfl)) (placementGuard_answers rfl)

theorem decidePhase_answers : Answers phase (decidePhase phase o) := by
  unfold decidePhase
  split
  · exact .ite (.wait rfl) (.transition rfl)
  · exact .ite (.wait rfl) (.ite (.blocked rfl) (.transition rfl))
  · exact .ite (.blocked rfl) (.ite (.wait rfl) (.ite (.blocked rfl) (.ite (.transition rfl) (.ite (.transition rfl) (.transition rfl)))))
  · exact decideWaitingForCapacity_answers
  · exact decideCopying_answers
  · exact decidePromoting_answers
  · exact decideCommitting_answers
  · exact .ite (.wait rfl) (.ite (.transition rfl) (.ite (.transition rfl) (.transition rfl)))
  · exact .ite (.blocked rfl) (.ite (.wait rfl) (.ite (.transition rfl) (.ite (.transition rfl) (.transition rfl))))
  · exact .ite (.wait rfl) (.ite (.blocked rfl) (.ite (.transition rfl) (.ite (.transition rfl) (.transition rfl))))
  · exact .throw

def MovePhase.executes : MovePhase → Bool
  | .unset | .pending | .preparing | .startingDisruption | .canceling | .cancelled | .succeeded | .blocked => false
  | _ => true

theorem decideExecution_answers (hphase : phase.executes) : Answers phase (decideExecution phase o) := by
  have hstop : phase.Stoppable := by cases phase <;> first | decide | simp [MovePhase.executes] at hphase
  unfold decideExecution
  refine .guarded (.or ?_ ?_) decidePhase_answers
  · intro r hr
    unfold lifecycleGuard at hr
    split_ifs at hr with hne hready
    · obtain rfl := not_not.mp hne
      exact Option.some.inj hr ▸ .transition rfl
    · exact Option.some.inj hr ▸ .wait (decide_eq_true hstop)
  · exact fun r hr => (authorityGuard_stops r hr).mono fun _ => hstop _

/-! ### The decision -/

theorem decideLifecycle_none (h : decideLifecycle current o = none) (hknown : current.phase ≠ .unset) :
    current.phase.executes := by
  simp only [decideLifecycle, ite_eq_right_iff, reduceCtorEq, imp_false, ite_eq_iff, and_false, false_or] at h
  obtain ⟨-, -, hsucceeded, hcancel, hblocked, -, hprep, hstart⟩ := h
  cases hp : current.phase <;> simp_all [MovePhase.executes]

theorem preparationChanged_answers (h : decide phase.Stoppable = true) : Answers phase (preparationChanged phase o) :=
  .ite (.wait h) (.blocked h)

/-- The rule that took a decision, with the conditions that lead to it. -/
inductive Route (s : LifecycleState) (o : Observation) (d : Decision) : Prop where
  | retired (may : canCancelRetiredPreparation s o) (authority : ¬o.sourceAuthorityInvalid)
      (plan : o.sourcePlanRecorded) (claim : o.sourceClaimed) (reserved : o.preparationReserved)
      (decided : transition s.phase .canceling .wait "WorkloadRetired" = .ok d)
  | settlement (may : canRequestSettlement s o)
      (decided : d = { next := { phase := .blocked, recoveryPhase := .unset }, action := .requestSettlement
                       reason := "WorkloadRetired" })
  | history (succeeded : s.phase = .succeeded) (decided : d = { next := s, action := .finalizeHistory, reason := "" })
  | cancellation (undo : s.phase = .canceling ∨ s.phase = .cancelled) (decided : decideCancellation s o = .ok d)
  | blocked (phase : s.phase = .blocked) (decided : decideBlocked s o = .ok d)
  | changed (running : s.phase ∉ [.succeeded, .canceling, .cancelled, .blocked]) (unapproved : beforeExecutionApproval o)
      (reason : o.preparationChangedReason ≠ "") (decided : preparationChanged s.phase o = .ok d)
      (kept : ¬canCancelRetiredPreparation s o)
  | preparation (phase : s.phase = .pending ∨ s.phase = .preparing) (decided : decidePreparation s.phase o = .ok d)
  | disruption (phase : s.phase = .startingDisruption) (decided : decideStartingDisruption s.phase o = .ok d)
  | execution (phase : s.phase.executes) (decided : decideExecution s.phase o = .ok d)
      (checked : validateTransition s.phase d.next.phase = .ok ())

theorem decideLifecycle_route (h : decideLifecycle current o = some (.ok d)) : Route current o d := by
  have hroutes : ∀ r, decideLifecycle current o = some r → Yields (Route current o) r := by
    unfold decideLifecycle
    refine .route (fun hretired => .seq fun hauth d hd => ?_) fun hkept => .route (fun hsettle => .pure (.settlement hsettle rfl)) fun _ =>
      .route (fun hsucceeded => .pure (.history hsucceeded rfl)) fun hsucceeded => .route (fun hcancel _ => .cancellation hcancel)
      fun hcancel => .route (fun hblocked _ => .blocked hblocked) fun hblocked => .route (fun hchanged _ hd => .changed ?_ hchanged.1 hchanged.2 hd hkept)
      fun _ => .route (fun hprep _ => .preparation hprep) fun _ => .route (fun hstart _ => .disruption hstart) fun _ => by simp
    · obtain ⟨hvalid, hplan, hclaim, hreserved⟩ := require_ok.mp hauth
      exact .retired hretired hvalid hplan hclaim hreserved hd
    · simpa [not_or] using ⟨hsucceeded, (not_or.mp hcancel).1, (not_or.mp hcancel).2, hblocked⟩
  exact hroutes _ h d rfl

theorem decideLifecycle_answers (hknown : current.phase ≠ .unset) (h : decideLifecycle current o = some (.ok d)) :
    d.Listed current.phase := by
  cases decideLifecycle_route h with
  | retired may _ _ _ _ decided =>
    simp only [canCancelRetiredPreparation, Bool.and_eq_true, decide_eq_true_eq] at may
    rw [transition_inv decided]
    cases hp : current.phase <;> simp_all [Decision.Listed, outcomes, stops]
  | settlement may decided =>
    simp only [canRequestSettlement, Bool.and_eq_true, decide_eq_true_eq] at may
    rw [decided]
    cases hp : current.phase <;> simp_all [Decision.Listed, outcomes, stops]
  | history succeeded decided => simp [decided, Decision.Listed, succeeded, outcomes]
  | cancellation undo decided => exact decideCancellation_answers undo d decided
  | blocked phase decided =>
    obtain ⟨current, recoveryPhase⟩ := current
    subst phase
    exact (decideBlocked_inv decided).1
  | changed running unapproved reason decided =>
    refine preparationChanged_answers ?_ d decided
    cases hp : current.phase <;> first | rfl | simp_all
  | preparation phase decided => exact decidePreparation_answers phase d decided
  | disruption phase decided =>
    rw [phase] at decided ⊢
    exact decideStartingDisruption_answers d decided
  | execution phase decided => exact decideExecution_answers phase d decided

variable {state : LifecycleState}

theorem decideMove_inv (h : decideMove state o = .ok d) :
    validateState state.normalized o = .ok () ∧
      (decideLifecycle state.normalized o = some (.ok d) ∨
        decideLifecycle state.normalized o = none ∧ decideExecution state.normalized.phase o = .ok d) := by
  rw [decideMove, seq_ok] at h
  refine ⟨h.1, ?_⟩
  replace h := h.2
  split at h
  · rename_i r hr
    exact Or.inl (h ▸ hr)
  · rename_i hnone
    rw [bind_ok] at h
    obtain ⟨e, he, h⟩ := h
    rw [seq_ok, pure_ok] at h
    exact Or.inr ⟨hnone, h.2 ▸ he⟩

theorem validateState_known (h : validateState current o = .ok ()) : current.phase ≠ .unset := by
  rw [validateState, seq_ok, require_ok] at h
  simpa [knownPhase] using h.1

theorem decideMove_listed (h : decideMove state o = .ok d) : d.Listed state.normalized.phase := by
  obtain ⟨hvalid, hlife | ⟨hnone, hexec⟩⟩ := decideMove_inv h
  · exact decideLifecycle_answers (validateState_known hvalid) hlife
  · exact decideExecution_answers (decideLifecycle_none hnone (validateState_known hvalid)) d hexec

theorem normalized_of_known (h : state.phase ≠ .unset) : state.normalized = state := by
  simp [LifecycleState.normalized, h]

/-- A blocked Move leaves its phase only to cancel a preparation that never got its approval. -/
theorem decideMove_blocked (h : decideMove state o = .ok d) (hphase : state.phase = .blocked)
    (hnext : d.next.phase ≠ .blocked) : beforeExecutionApproval o := by
  obtain ⟨-, hdecided⟩ := decideMove_inv h
  rw [normalized_of_known (by simp [hphase])] at hdecided
  obtain ⟨phase, recoveryPhase⟩ := state
  subst hphase
  rcases hdecided with hlife | ⟨hnone, -⟩
  · unfold decideLifecycle at hlife
    by_cases hretired : canCancelRetiredPreparation ⟨.blocked, recoveryPhase⟩ o
    · simp only [canCancelRetiredPreparation, Bool.and_eq_true] at hretired
      exact hretired.1.1.1.1.2
    · rw [if_neg hretired] at hlife
      split at hlife
      · obtain rfl := pure_ok.mp (Option.some.inj hlife)
        exact absurd rfl hnext
      · have hstay : decideBlocked ⟨.blocked, recoveryPhase⟩ o = .ok d := by simpa using hlife
        exact absurd (decideBlocked_inv hstay).2 hnext
  · have := decideLifecycle_none hnone (by simp)
    simp [MovePhase.executes] at this

/-! ### Executing phases

    The lifecycle routing and the authority guard only ever stop an executing phase; what advances it is the
    rule of the phase itself. -/

theorem decideMove_recovered (h : decideMove ⟨.blocked, .recovered⟩ o = .ok d) : d.action = .finalizeHistory := by
  obtain ⟨-, hlife | ⟨hnone, -⟩⟩ := decideMove_inv h
  · rw [normalized_of_known (by simp)] at hlife
    simp only [decideLifecycle, canCancelRetiredPreparation, canRequestSettlement] at hlife
    simp only [decideBlocked] at hlife
    obtain rfl := pure_ok.mp (by simpa using hlife)
    rfl
  · rw [normalized_of_known (by simp)] at hnone
    simp [decideLifecycle, canCancelRetiredPreparation, canRequestSettlement] at hnone

theorem decideLifecycle_stops (hphase : current.phase.executes) {r : Except String Decision}
    (hr : decideLifecycle current o = some r) : Yields (·.Stops current.phase) r := by
  have hother : ∀ phase, current.phase = phase → phase.executes = true := fun phase h => h ▸ hphase
  revert hr
  unfold decideLifecycle
  refine Yields.route (fun _ => .seq fun _ => .step ?_) (fun _ => .route (fun _ => .pure ?_) fun _ =>
    .route (fun hsucceeded => absurd (hother _ hsucceeded) (by decide)) fun _ => .route (fun hcancel => ?_) fun _ =>
    .route (fun hblocked => absurd (hother _ hblocked) (by decide)) fun _ =>
    .route (fun _ => .ite (.step ?_) (.pure blockedWith_stops)) fun _ => .route (fun hprep => ?_) fun _ =>
    .route (fun hstart => absurd (hother _ hstart) (by decide)) fun _ => by simp) r
  · simp [Decision.Stops, stops]
  · simp [Decision.Stops, stops]
  · rcases hcancel with hcancel | hcancel <;> exact absurd (hother _ hcancel) (by decide)
  · simp [Decision.Stops, stops]
  · rcases hprep with hprep | hprep <;> exact absurd (hother _ hprep) (by decide)

theorem decideMove_executes (h : decideMove state o = .ok d) (hphase : state.phase.executes)
    (hne : state.phase ≠ .completing) : d.Stops state.phase ∨ decidePhase state.phase o = .ok d := by
  have hnormal : state.normalized = state := normalized_of_known (by rintro hu; simp [hu, MovePhase.executes] at hphase)
  obtain ⟨-, hdecided⟩ := decideMove_inv h
  rw [hnormal] at hdecided
  rcases hdecided with hlife | ⟨-, hexec⟩
  · exact Or.inl (decideLifecycle_stops hphase hlife d rfl)
  · rw [decideExecution, lifecycleGuard, if_pos hne, Option.none_or] at hexec
    cases hguard : authorityGuard state.phase o with
    | none => exact Or.inr (by rw [hguard] at hexec; exact hexec)
    | some r => exact Or.inl (authorityGuard_stops _ hguard d (by rw [hguard] at hexec; exact hexec))

theorem decideMove_copying (h : decideMove state o = .ok d) (hphase : state.phase = .waitingForCapacity)
    (hnext : d.next.phase = .copying) : o.capacityApproved := by
  rcases decideMove_executes h (by simp [hphase, MovePhase.executes]) (by simp [hphase]) with hstop | hrule
  · simp [Decision.Stops, hnext, hphase, stops] at hstop
  · have hstop : ∀ d : Decision, d.Stops .waitingForCapacity → d.next.phase = .copying → o.capacityApproved := by
      intro d hd hcopy
      simp [Decision.Stops, hcopy, stops] at hd
    have hyields : Yields (·.next.phase = .copying → o.capacityApproved)
        (decideWaitingForCapacity .waitingForCapacity o) := by
      unfold decideWaitingForCapacity
      refine .guarded (.or ?_ ?_) (.ite (.step (by simp)) (.cases (fun happroved => .step fun _ => happroved) ?_))
      · exact fun r hr => (destinationGuard_stops r hr).mono hstop
      · exact fun r hr => (consumerGuard_stops r hr).mono hstop
      · exact fun _ => .step (by simp)
    rw [hphase] at hrule
    exact hyields d hrule hnext

end ShiftPV

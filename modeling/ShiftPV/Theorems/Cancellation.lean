import ShiftPV.Theorems.DecisionRuns

/-! Closed transitions, and who may cancel. `Decide` checks the table of allowed transitions again for the
    execution phases only; the other rules have to stay inside it by themselves. Cancellation is reached from
    several rules, all of which stand on an observation without execution authority. -/

namespace ShiftPV
open Check

variable {state : LifecycleState} {phase source target : MovePhase} {o : Observation} {d : Decision}

/-! ### Closed transitions -/

def knownRecovery (phase : RecoveryPhase) : Bool := phase ≠ .unset

/-- The decision takes `phase` along the table, and keeps a recovery phase to blocked Moves. -/
structure Decision.ClosedIn (d : Decision) (phase : MovePhase) : Prop where
  transition : validateTransition phase d.next.phase = .ok ()
  recovery : d.next.recoveryPhase = .unset ∨ d.next.phase = .blocked

theorem validateTransition_of_mem (h : target ∈ allowedTransitions source) : validateTransition source target = .ok () := by
  have table : ∀ s, ∀ t ∈ allowedTransitions s, knownPhase s ∧ knownPhase t ∧ (terminalPhase s → s = t) := by
    intro s
    cases s <;> decide
  obtain ⟨hsource, htarget, hterminal⟩ := table _ _ h
  simp only [validateTransition, seq_ok, require_ok]
  exact ⟨⟨hsource, htarget⟩, hterminal, h⟩

theorem transition_closed {action : Action} {reason : String} :
    Yields (·.ClosedIn source) (transition source target action reason) := by
  intro d hd
  have hchecked := (seq_ok.mp hd).1
  rw [transition_inv hd]
  exact ⟨hchecked, Or.inl rfl⟩

theorem blockedWith_recovery {fallback : String} : (blockedWith phase o fallback).next.recoveryPhase = .unset := by
  unfold blockedWith
  split <;> rfl

theorem blockedWith_canceling {fallback : String} (h : (blockedWith phase o fallback).next.phase = .canceling) :
    beforeExecutionApproval o ∧ ¬disruptionPossible phase := by
  unfold blockedWith at h
  split_ifs at h with hcancel
  · exact hcancel
  · simp [blockedDecision] at h

theorem blockedWith_closed {fallback : String} (hblocked : disruptionPossible phase → .blocked ∈ allowedTransitions phase)
    (hcancel : ¬disruptionPossible phase → beforeExecutionApproval o ∧ .canceling ∈ allowedTransitions phase) :
    (blockedWith phase o fallback).ClosedIn phase := by
  refine ⟨validateTransition_of_mem ?_, Or.inl blockedWith_recovery⟩
  unfold blockedWith
  split_ifs with h
  · exact (hcancel h.2).2
  · by_cases hdisrupted : disruptionPossible phase
    · exact hblocked hdisrupted
    · exact absurd ⟨(hcancel hdisrupted).1, hdisrupted⟩ h

/-! ### Decisions of the execution phases -/

/-- The decision carries no recovery phase, and cancels only what cannot have been disrupted. -/
structure Decision.Plain (d : Decision) (phase : MovePhase) : Prop where
  recovery : d.next.recoveryPhase = .unset
  cancels : d.next.phase = .canceling → ¬disruptionPossible phase

theorem plain_stop {o' : Observation} {fallback : String} : Yields (·.Plain phase) (pure (blockedWith phase o' fallback)) :=
  .pure ⟨blockedWith_recovery, fun h => (blockedWith_canceling h).2⟩

theorem plain_step {action : Action} {reason : String} (h : decide (target ≠ .canceling) = true) :
    Yields (·.Plain phase) (transition source target action reason) :=
  .step ⟨rfl, fun hcancel => absurd hcancel (of_decide_eq_true h)⟩

section Plain
variable (hne : phase ≠ .canceling)
include hne

theorem authorityGuard_plain : ∀ r, authorityGuard phase o = some r → Yields (·.Plain phase) r := by
  intro r hr
  unfold authorityGuard at hr
  split_ifs at hr
  · exact Option.some.inj hr ▸ plain_stop
  · exact Option.some.inj hr ▸ plain_step (decide_eq_true hne)
  · exact Option.some.inj hr ▸ plain_stop

theorem destinationGuard_plain : ∀ r, destinationGuard phase o = some r → Yields (·.Plain phase) r := by
  intro r hr
  unfold destinationGuard at hr
  split_ifs at hr
  · exact Option.some.inj hr ▸ plain_step (decide_eq_true hne)
  · exact Option.some.inj hr ▸ plain_stop

theorem consumerGuard_plain : ∀ r, consumerGuard phase o = some r → Yields (·.Plain phase) r := by
  intro r hr
  unfold consumerGuard at hr
  split_ifs at hr
  exact Option.some.inj hr ▸ plain_step (decide_eq_true hne)

theorem placementGuard_plain : ∀ r, placementGuard phase o = some r → Yields (·.Plain phase) r := by
  intro r hr
  unfold placementGuard at hr
  split_ifs at hr
  exact Option.some.inj hr ▸ plain_step (decide_eq_true hne)

theorem decidePhase_plain : Yields (·.Plain phase) (decidePhase phase o) := by
  unfold decidePhase
  split
  · exact .ite (plain_step rfl) (plain_step rfl)
  · exact .ite (plain_step rfl) (.ite plain_stop (plain_step rfl))
  · exact .ite plain_stop (.ite (plain_step rfl) (.ite plain_stop (.ite (plain_step rfl) (.ite (plain_step rfl) (plain_step rfl)))))
  · refine .guarded (.or (destinationGuard_plain hne) (consumerGuard_plain hne)) ?_
    exact .ite (plain_step rfl) (.ite (plain_step rfl) (plain_step rfl))
  · refine .guarded (destinationGuard_plain hne) (.ite plain_stop ?_)
    exact .guarded (.or (consumerGuard_plain hne) (placementGuard_plain hne)) (.ite (plain_step rfl) (plain_step rfl))
  · refine .ite (plain_step rfl) (.guarded (destinationGuard_plain hne) (.ite plain_stop ?_))
    exact .guarded (.or (consumerGuard_plain hne) (placementGuard_plain hne)) (.ite (plain_step rfl) (plain_step rfl))
  · refine .ite (.ite (plain_step rfl) (plain_step rfl)) (.guarded ?_ (plain_step rfl))
    exact .or (.or (destinationGuard_plain hne) (consumerGuard_plain hne)) (placementGuard_plain hne)
  · exact .ite (plain_step rfl) (.ite (plain_step rfl) (.ite (plain_step rfl) (plain_step rfl)))
  · exact .ite plain_stop (.ite (plain_step rfl) (.ite (plain_step rfl) (.ite (plain_step rfl) (plain_step rfl))))
  · exact .ite (plain_step rfl) (.ite plain_stop (.ite (plain_step rfl) (.ite (plain_step rfl) (plain_step rfl))))
  · exact .throw

theorem decideExecution_plain : Yields (·.Plain phase) (decideExecution phase o) := by
  refine .guarded (.or ?_ (authorityGuard_plain hne)) (decidePhase_plain hne)
  intro r hr
  unfold lifecycleGuard at hr
  split_ifs at hr
  · exact Option.some.inj hr ▸ plain_step rfl
  · exact Option.some.inj hr ▸ plain_step (decide_eq_true hne)

end Plain

theorem executes_disrupted (h : phase.executes) : phase ≠ .canceling ∧ disruptionPossible phase := by
  cases phase <;> simp_all [MovePhase.executes, disruptionPossible]

/-! ### Every rule stays inside the table -/

theorem validateState_inv (h : validateState state o = .ok ()) :
    state.phase ≠ .unset ∧ (state.recoveryPhase ≠ .unset → state.phase = .blocked) ∧
      (state.phase ∈ [.pending, .preparing, .startingDisruption, .canceling, .cancelled] → beforeExecutionApproval o) ∧
      (state.phase = .cancelled → ¬o.preparationReserved) := by
  have hknown := validateState_known h
  simp only [validateState, validatePreparationEvidence, seq_ok, require_ok] at h
  obtain ⟨-, hrecovery, hundo, hpending, hcancelled⟩ := h
  refine ⟨hknown, hrecovery, fun hphase => ?_, fun hphase hreserved => hcancelled ⟨hphase, hreserved⟩⟩
  simp only [List.mem_cons, List.not_mem_nil, or_false] at hphase
  have hnone : ¬(o.capacityApproved ∨ o.destinationIntentRecorded) := by
    rcases hphase with hp | hp
    · exact fun hauthority => hpending ⟨hp, hauthority⟩
    · exact hundo hp
  simpa [beforeExecutionApproval, not_or] using hnone

theorem decideCancellation_closed (hphase : state.phase = .canceling ∨ state.phase = .cancelled)
    (hplain : state.recoveryPhase = .unset) : Yields (·.ClosedIn state.phase) (decideCancellation state o) := by
  have hself : state.phase ∈ allowedTransitions state.phase := by rcases hphase with hp | hp <;> rw [hp] <;> decide
  have stay : ∀ {a : Action}, Yields (·.ClosedIn state.phase) (pure { next := state, action := a, reason := "" }) :=
    .pure ⟨validateTransition_of_mem hself, Or.inl hplain⟩
  exact .seq fun _ => .ite stay (.ite stay (.ite stay (.ite transition_closed (.ite stay stay))))

theorem decidePreparation_closed (hphase : phase = .pending ∨ phase = .preparing) (hbefore : beforeExecutionApproval o) :
    Yields (·.ClosedIn phase) (decidePreparation phase o) := by
  have stop : ∀ {fallback : String}, Yields (·.ClosedIn phase) (pure (blockedWith phase o fallback)) := by
    intro fallback
    refine .pure (blockedWith_closed ?_ fun _ => ⟨hbefore, ?_⟩)
    · rcases hphase with rfl | rfl <;> simp [disruptionPossible]
    · rcases hphase with rfl | rfl <;> decide
  refine .seq fun _ => .ite transition_closed (.ite stop (.ite (.ite stop transition_closed) (.ite transition_closed ?_)))
  exact .ite transition_closed (.ite transition_closed (.ite transition_closed transition_closed))

/-- The running phases that may fail closed; before disruption only by cancelling. -/
theorem running_blocked (hknown : phase ≠ .unset) (hne : phase ≠ .completing)
    (hrunning : phase ∉ [.succeeded, .canceling, .cancelled]) :
    (disruptionPossible phase → .blocked ∈ allowedTransitions phase) ∧
      (¬disruptionPossible phase → .canceling ∈ allowedTransitions phase) := by
  cases phase <;> first | contradiction | decide

theorem decideStartingDisruption_closed :
    Yields (·.ClosedIn .startingDisruption) (decideStartingDisruption .startingDisruption o) := by
  have stop : ∀ {fallback : String},
      Yields (·.ClosedIn .startingDisruption) (pure (blockedWith .startingDisruption o fallback)) :=
    .pure (blockedWith_closed (fun _ => by decide) fun h => absurd (by decide) h)
  exact .seq fun _ => .ite stop (.ite transition_closed (.ite stop transition_closed))

theorem decideBlocked_phase (hphase : state.phase = .blocked) (h : decideBlocked state o = .ok d) :
    d.next.phase = .blocked := by
  obtain ⟨phase, recoveryPhase⟩ := state
  subst hphase
  exact (decideBlocked_inv h).2

/-- A `Completing` Move that settlement or a changed preparation takes away from its completion evidence. A retired
    workload before approval is refused, since nothing leaves `Completing` for `Canceling`. -/
def completionInterrupted (s : LifecycleState) (o : Observation) : Bool :=
  s.phase = .completing && s.recoveryPhase = .unset &&
    if o.workloadRetired then !beforeExecutionApproval o
    else beforeExecutionApproval o && o.preparationChangedReason ≠ "" && !(o.preparationUnavailable && !o.sourceAuthorityInvalid)

/-- The decision follows the table of transitions, and only a blocked Move carries a recovery phase, a known one. -/
def Decision.Closed (d : Decision) (phase : MovePhase) : Prop :=
  validateTransition phase d.next.phase = .ok () ∧
    (d.next.recoveryPhase ≠ .unset → d.next.phase = .blocked ∧ knownRecovery d.next.recoveryPhase)

theorem preparationChanged_closed (hknown : state.phase ≠ .unset)
    (hrunning : state.phase ∉ [.succeeded, .canceling, .cancelled, .blocked]) (hbefore : beforeExecutionApproval o)
    (hsteady : state.phase = .completing → o.preparationUnavailable ∧ ¬o.sourceAuthorityInvalid) :
    Yields (·.ClosedIn state.phase) (preparationChanged state.phase o) := by
  refine .cases (fun _ => transition_closed) fun hchanged => .pure ?_
  have hne : state.phase ≠ .completing := fun hcompleting => hchanged ⟨by rw [hcompleting]; decide, hsteady hcompleting⟩
  have hstop := running_blocked hknown hne (by simp_all)
  exact blockedWith_closed hstop.1 fun h => ⟨hbefore, hstop.2 h⟩

theorem decideMove_closed (h : decideMove state o = .ok d) (hsteady : ¬completionInterrupted state.normalized o) :
    d.Closed state.normalized.phase := by
  obtain ⟨hvalid, hroute⟩ := decideMove_route h
  obtain ⟨hknown, hrecovery, hbefore, -⟩ := validateState_inv hvalid
  have hplain : state.normalized.phase ≠ .blocked → state.normalized.recoveryPhase = .unset := by
    intro hne
    by_contra hset
    exact hne (hrecovery hset)
  suffices hclosed : d.ClosedIn state.normalized.phase by
    refine ⟨hclosed.transition, fun hset => ⟨?_, by simpa [knownRecovery] using hset⟩⟩
    exact hclosed.recovery.resolve_left hset
  cases hroute with
  | retired may authority plan claim reserved decided => exact transition_closed d decided
  | settlement may decided =>
    subst decided
    refine ⟨validateTransition_of_mem ?_, Or.inl rfl⟩
    simp only [canRequestSettlement, Bool.and_eq_true, decide_eq_true_eq, Bool.not_eq_true'] at may
    obtain ⟨⟨⟨⟨⟨hretired, -⟩, happroved⟩, hne1⟩, hne2⟩, hne3⟩ := may
    have hne : state.normalized.phase ≠ .completing := fun hcompleting =>
      hsteady (by simp [completionInterrupted, hcompleting, hplain (by simp [hcompleting]), hretired, happroved])
    -- an approved observation is refused before disruption, so the phase may fail closed
    have hlate : state.normalized.phase ∉ [.pending, .preparing, .startingDisruption, .canceling, .cancelled] :=
      fun hearly => by simp [hbefore hearly] at happroved
    have hstop := running_blocked hknown hne (by simp_all)
    exact hstop.1 (by simp_all [disruptionPossible])
  | history succeeded decided =>
    subst decided
    refine ⟨validateTransition_of_mem ?_, Or.inl (hplain (by simp [succeeded]))⟩
    rw [succeeded]
    decide
  | cancellation undo decided =>
    exact decideCancellation_closed undo (hplain (by rcases undo with hp | hp <;> simp [hp])) d decided
  | blocked phase decided =>
    have hnext := decideBlocked_phase phase decided
    refine ⟨validateTransition_of_mem ?_, Or.inr hnext⟩
    rw [phase, hnext]
    decide
  | changed running unapproved reason decided kept =>
    refine preparationChanged_closed hknown running unapproved (fun hcompleting => ?_) d decided
    have hretired : o.workloadRetired = false := by
      simpa [canCancelRetiredPreparation, unapproved, hcompleting, hplain (by simp [hcompleting])] using kept
    simpa [completionInterrupted, hcompleting, hplain (by simp [hcompleting]), hretired, unapproved, reason] using hsteady
  | preparation phase decided =>
    exact decidePreparation_closed phase (hbefore (by rcases phase with hp | hp <;> simp [hp])) d decided
  | disruption phase decided =>
    rw [phase] at decided ⊢
    exact decideStartingDisruption_closed d decided
  | execution phase decided checked =>
    exact ⟨checked, Or.inl (decideExecution_plain (executes_disrupted phase).1 d decided).recovery⟩

theorem completing_not_blocked (hd : d.next.phase = .blocked) : ¬d.Closed .completing := by
  rintro ⟨htable, -⟩
  rw [hd] at htable
  simp [validateTransition, allowedTransitions] at htable

theorem completionInterrupted_blocks (h : completionInterrupted state.normalized o) :
    ∃ d, decideMove state o = .ok d ∧ d.next.phase = .blocked := by
  simp only [completionInterrupted, Bool.and_eq_true, decide_eq_true_eq] at h
  obtain ⟨⟨hphase, hrecovery⟩, h⟩ := h
  generalize hcurrent : state.normalized = current at hphase hrecovery
  obtain ⟨phase, recovery⟩ := current
  obtain ⟨rfl, rfl⟩ : phase = .completing ∧ recovery = .unset := ⟨hphase, hrecovery⟩
  have hvalid : validateState ⟨.completing, .unset⟩ o = .ok () := by
    simp [validateState, validatePreparationEvidence, knownPhase, require_ok]
  suffices ∃ d, decideLifecycle ⟨.completing, .unset⟩ o = some (.ok d) ∧ d.next.phase = .blocked by
    obtain ⟨d, hd, hblocked⟩ := this
    refine ⟨d, ?_, hblocked⟩
    rw [decideMove, hcurrent, seq_ok, hd]
    exact ⟨hvalid, rfl⟩
  unfold decideLifecycle
  split_ifs at h with hretired
  · refine ⟨_, by simp_all [canCancelRetiredPreparation, canRequestSettlement]; rfl, rfl⟩
  · simp only [Bool.and_eq_true, decide_eq_true_eq, Bool.not_eq_true', Bool.and_eq_false_iff] at h
    obtain ⟨⟨hbefore, hreason⟩, hfinal⟩ := h
    have hchanged : preparationChanged .completing o =
        .ok (blockedWith .completing { o with unsafeReason := o.preparationChangedReason } "PreparationChanged") := by
      refine if_neg ?_
      rintro ⟨-, hlater, hauthority⟩
      simp_all
    refine ⟨_, Eq.trans ?_ (congrArg some hchanged), by simp [blockedWith, disruptionPossible, blockedDecision]⟩
    simp [canCancelRetiredPreparation, canRequestSettlement, hretired, hbefore, hreason]

def retiredFacts : Observation := { Observation.none with workloadRetired := true, capacityApproved := true }

def settlementDecision : Decision :=
  { next := { phase := .blocked, recoveryPhase := .unset }, action := .requestSettlement, reason := "WorkloadRetired" }

def Cancels (phase : MovePhase) (o : Observation) : Prop :=
  (phase = .pending ∨ phase = .preparing) ∨
    o.workloadRetired ∧ ¬o.sourceAuthorityInvalid ∧ o.sourcePlanRecorded ∧ o.sourceClaimed ∧ o.preparationReserved

/-- The rules before disruption and a changed preparation cancel what cannot have been disrupted. -/
theorem preparationChanged_cancels (hne : phase ≠ .canceling) :
    Yields (fun d => d.next.phase = .canceling → ¬disruptionPossible phase) (preparationChanged phase o) :=
  .ite (.step fun h => absurd h hne) (.pure fun h => (blockedWith_canceling h).2)

theorem decideStartingDisruption_cancels :
    Yields (·.next.phase ≠ .canceling) (decideStartingDisruption .startingDisruption o) := by
  have stop : ∀ {fallback : String}, Yields (·.next.phase ≠ .canceling) (pure (blockedWith .startingDisruption o fallback)) :=
    .pure fun h => (blockedWith_canceling h).2 (by decide)
  exact .seq fun _ => .ite stop (.ite (.step (by simp)) (.ite stop (.step (by simp))))

theorem decideMove_cancels (h : decideMove state o = .ok d) (hnext : d.next.phase = .canceling)
    (hother : state.normalized.phase ≠ .canceling) : Cancels state.normalized.phase o := by
  obtain ⟨hvalid, hroute⟩ := decideMove_route h
  have hknown := validateState_known hvalid
  have undisrupted : ¬disruptionPossible state.normalized.phase → Cancels state.normalized.phase o := by
    intro hearly
    refine Or.inl ?_
    cases hp : state.normalized.phase <;> simp_all [disruptionPossible]
  cases hroute with
  | retired may authority plan claim reserved decided =>
    simp only [canCancelRetiredPreparation, Bool.and_eq_true] at may
    exact Or.inr ⟨may.1.1.1.1.1, authority, plan, claim, reserved⟩
  | settlement may decided => simp [decided] at hnext
  | history succeeded decided => simp [decided, succeeded] at hnext
  | cancellation undo decided =>
    -- a cancelled Move only repeats its own phase
    have hlisted := decideCancellation_answers undo d decided
    have hcancelled := undo.resolve_left hother
    simp [Decision.Listed, hcancelled, outcomes, hnext] at hlisted
  | blocked phase decided => simp [decideBlocked_phase phase decided] at hnext
  | changed running unapproved reason decided => exact undisrupted (preparationChanged_cancels hother d decided hnext)
  | preparation phase decided => exact Or.inl phase
  | disruption phase decided =>
    rw [phase] at decided
    exact absurd hnext (decideStartingDisruption_cancels d decided)
  | execution phase decided =>
    exact undisrupted ((decideExecution_plain hother d decided).cancels hnext)

theorem decideMove_unapproved (h : decideMove state o = .ok d)
    (hnext : d.next.phase = .canceling ∨ d.next.phase = .cancelled) : beforeExecutionApproval o := by
  obtain ⟨hvalid, hroute⟩ := decideMove_route h
  obtain ⟨-, -, hbefore, -⟩ := validateState_inv hvalid
  have early : state.normalized.phase ∈ [.pending, .preparing, .startingDisruption, .canceling, .cancelled] →
      beforeExecutionApproval o := hbefore
  cases hroute with
  | retired may =>
    simp only [canCancelRetiredPreparation, Bool.and_eq_true] at may
    exact may.1.1.1.1.2
  | settlement may decided => simp [decided] at hnext
  | history succeeded decided => simp [decided, succeeded] at hnext
  | cancellation undo => exact early (by rcases undo with hp | hp <;> simp [hp])
  | blocked phase decided => simp [decideBlocked_phase phase decided] at hnext
  | changed running unapproved => exact unapproved
  | preparation phase => exact early (by rcases phase with hp | hp <;> simp [hp])
  | disruption phase => exact early (by simp [phase])
  | execution phase decided checked =>
    obtain ⟨hne, hdisrupted⟩ := executes_disrupted phase
    rcases hnext with hnext | hnext
    · exact absurd hdisrupted ((decideExecution_plain hne d decided).cancels hnext)
    · -- no executing phase lists the cancelled one
      have hlisted := decideExecution_answers phase d decided
      simp only [Decision.Listed, hnext] at hlisted
      cases hp : state.normalized.phase <;> simp_all [outcomes, stops, MovePhase.executes]

theorem Route.of_canceling (hroute : Route state o d) (hphase : state.phase = .canceling) :
    decideCancellation state o = .ok d := by
  cases hroute with
  | retired may => simp [canCancelRetiredPreparation, hphase] at may
  | settlement may => simp [canRequestSettlement, hphase] at may
  | history succeeded => simp [hphase] at succeeded
  | cancellation undo decided => exact decided
  | blocked phase | preparation phase | disruption phase => simp [hphase] at phase
  | changed running => simp [hphase] at running
  | execution phase => simp [hphase, MovePhase.executes] at phase

theorem decideCancellation_release :
    Yields (fun d => d.action = .releasePreparation →
      o.placementAbsent ∧ ¬(o.sourceClaimed ∧ (o.sourceMoving ∨ o.sourceBlocked))) (decideCancellation state o) := by
  refine .seq fun _ => .ite (.pure (by simp)) (.cases (fun _ => .pure (by simp)) fun hidle => ?_)
  refine .cases (fun _ => .pure (by simp)) fun habsent => .ite (.step fun _ => ⟨by simpa using habsent, hidle⟩) ?_
  exact .ite (.pure (by simp)) (.pure (by simp))

theorem outcomes_release (phase : MovePhase) : ∀ x ∈ outcomes phase,
    (x.1 = .releasePreparation → phase = .canceling) ∧ (x.1 = .releaseSource → phase = .cancelled) ∧
      (x.2 = .cancelled → phase = .cancelled ∨ x.1 = .releasePreparation) := by
  cases phase <;> decide

/-- A run is in `Cancelled` only after the hold was given up, unless it began there. -/
theorem DecisionRun.cancelled {start : LifecycleState} {t : Turn} {past : List Turn}
    (hr : DecisionRun start (t :: past)) (hphase : t.state.phase = .cancelled) :
    start.phase = .cancelled ∨ ∃ e ∈ past, e.decision.action = .releasePreparation := by
  suffices h : ∀ l, DecisionRun start l → ∀ t past, l = t :: past → t.state.phase = .cancelled →
      start.phase = .cancelled ∨ ∃ e ∈ past, e.decision.action = .releasePreparation from h _ hr _ _ rfl hphase
  intro l hl
  induction hl with
  | start h0 =>
    rintro t past ⟨⟩ hcancelled
    exact Or.inl (h0.1 ▸ hcancelled)
  | @next s t past _ hr hs ih =>
    rintro t past ⟨⟩ hcancelled
    have hrun : DecisionRun start (s :: past) := hr
    have hstate : s.decision.next = t.state := by simpa [Turn.follows] using hs.1
    obtain ⟨-, -, hentered⟩ := outcomes_release _ _ (decideMove_listed (TurnRun.decided hrun s (by simp)))
    rcases hentered (hstate ▸ hcancelled) with hbefore | hreleased
    · rcases ih _ _ rfl (normalized_phase hbefore (by decide)) with hstart | ⟨e, he, hact⟩
      · exact Or.inl hstart
      · exact Or.inr ⟨e, List.mem_cons_of_mem _ he, hact⟩
    · exact Or.inr ⟨s, by simp, hreleased⟩

/-- Cancellation authority, of single decisions and along runs. -/
theorem cancellation_authority :
    (∀ state o d, decideMove state o = .ok d →
      (d.next.phase = .canceling ∨ d.next.phase = .cancelled →
        o.capacityApproved = false ∧ o.destinationIntentRecorded = false) ∧
      (d.next.phase = .canceling → state.normalized.phase ≠ .canceling → Cancels state.normalized.phase o) ∧
      (d.action = .releasePreparation → state.phase = .canceling ∧ o.placementAbsent ∧
        ¬(o.sourceClaimed ∧ (o.sourceMoving ∨ o.sourceBlocked))) ∧
      (d.action = .releaseSource → state.phase = .cancelled)) ∧
    ∀ start later t past, DecisionRun start (later ++ t :: past) → t.decision.action = .releaseSource →
      (start.phase = .cancelled ∨ ∃ e ∈ past, e.decision.action = .releasePreparation) ∧
      t.observation.preparationReserved = false ∧ t.observation.capacityApproved = false ∧
      t.observation.destinationIntentRecorded = false := by
  have unapproved : ∀ {o : Observation}, beforeExecutionApproval o →
      o.capacityApproved = false ∧ o.destinationIntentRecorded = false := by
    intro o ho
    simpa [beforeExecutionApproval] using ho
  refine ⟨fun state o d h => ?_, fun start later t past hr ha => ?_⟩
  · obtain ⟨hprepared, hsource, -⟩ := outcomes_release _ _ (decideMove_listed h)
    refine ⟨fun hnext => unapproved (decideMove_unapproved h hnext), decideMove_cancels h, fun ha => ?_, fun ha => ?_⟩
    · have hphase := hprepared ha
      have hdecided := (decideMove_route h).2.of_canceling hphase
      exact ⟨normalized_phase hphase (by decide), decideCancellation_release d hdecided ha⟩
    · exact normalized_phase (hsource ha) (by decide)
  · have hrun : DecisionRun start (t :: past) := Run.suffix hr
    have ht : t.Decided := TurnRun.decided hrun t (by simp)
    have hphase := (outcomes_release _ _ (decideMove_listed ht)).2.1 ha
    obtain ⟨-, -, hbefore, hhold⟩ := validateState_inv (decideMove_route ht).1
    refine ⟨DecisionRun.cancelled hrun (normalized_phase hphase (by decide)), ?_, unapproved (hbefore (by simp [hphase]))⟩
    simpa using hhold hphase

def cancelledFacts : Observation := { preparedFacts with placementAbsent := true, preparationChangedReason := "PoolReplaced" }

/-- A changed preparation is cancelled, its hold goes, and then its claim. -/
def cancellationTurns : List Turn :=
  turns (fun _ _ => true) ⟨.pending, .unset⟩ []
    [preparedFacts, cancelledFacts, cancelledFacts, { cancelledFacts with preparationReserved := false }]

theorem cancellation_authority_released :
    ∃ t past, cancellationTurns = t :: past ∧ t.decision.action = .releaseSource ∧
      (∃ e ∈ past, e.decision.action = .releasePreparation) ∧ t.observation.preparationReserved = false := by
  have hlast : cancellationTurns.head?.map (·.decision.action) = some .releaseSource := by decide +kernel
  cases hl : cancellationTurns with
  | nil => simp [hl] at hlast
  | cons t past =>
    have ha : t.decision.action = .releaseSource := by simpa [hl] using hlast
    have hr : DecisionRun ⟨.pending, .unset⟩ ([] ++ t :: past) := turns_start hl
    obtain ⟨hhold, hreserved, -⟩ := cancellation_authority.2 _ _ _ _ hr ha
    exact ⟨t, past, rfl, ha, hhold.resolve_left (by decide), hreserved⟩

end ShiftPV

import ShiftPV.Lib.Run
import ShiftPV.Observe
import ShiftPV.Theorems.Decisions

/-! Runs of the decision model. A run applies every decision and meets an arbitrary observation in each turn,
    so an order between two pieces of evidence has to be carried by the phases in between. `Route` says which
    rule decided; the phases remember evidence as `Milestone`s. -/

namespace ShiftPV
open Check

variable {state : LifecycleState} {o : Observation} {d : Decision}

/-! ### Turns -/

structure Turn where
  state : LifecycleState
  observation : Observation
  decision : Decision

def Turn.Decided (t : Turn) : Prop := decideMove t.state t.observation = .ok t.decision

def Turn.enters (t : Turn) (phase : MovePhase) : Prop :=
  t.decision.next.phase = phase ∧ t.state.normalized.phase ≠ phase

def Turn.follows (t : Turn) (past : List Turn) : Prop := past.head?.map (·.decision.next) = some t.state

/-- Runs of the decision model, newest turn first. `allowed` restricts what a turn may observe after a past. -/
abbrev TurnRun (start : LifecycleState) (allowed : List Turn → Turn → Bool) : List Turn → Prop :=
  Run (fun t => t.state = start ∧ t.Decided ∧ allowed [] t)
    (fun past (_ : Unit) t => t.follows past ∧ t.Decided ∧ allowed past t)

abbrev DecisionRun (start : LifecycleState) : List Turn → Prop := TurnRun start fun _ _ => true

section Replay
variable {start : LifecycleState} {allowed : List Turn → Turn → Bool} {past l : List Turn} {t : Turn}

def turns (allowed : List Turn → Turn → Bool) (state : LifecycleState) (past : List Turn) :
    List Observation → List Turn
  | [] => past
  | o :: os =>
    match decideMove state o with
    | .ok d => if allowed past ⟨state, o, d⟩ then turns allowed d.next (⟨state, o, d⟩ :: past) os else past
    | .error _ => past

theorem turns_run {os : List Observation} (hr : TurnRun start allowed (t :: past)) :
    TurnRun start allowed (turns allowed t.decision.next (t :: past) os) := by
  induction os generalizing t past with
  | nil => exact hr
  | cons o os ih =>
    unfold turns
    split
    · rename_i d hd
      split
      · rename_i hallowed
        exact ih (t := ⟨t.decision.next, o, d⟩) (@Run.next _ Unit _ _ _ _ _ () hr ⟨rfl, hd, hallowed⟩)
      · exact hr
    · exact hr

theorem turns_start {os : List Observation} (h : turns allowed start [] os = t :: past) :
    TurnRun start allowed (t :: past) := by
  cases os with
  | nil => simp [turns] at h
  | cons o os =>
    unfold turns at h
    split at h
    · rename_i d hd
      split at h
      · rename_i hallowed
        exact h ▸ turns_run (t := ⟨start, o, d⟩) (.start ⟨rfl, hd, hallowed⟩)
      · simp at h
    · simp at h

theorem TurnRun.decided (hr : TurnRun start allowed l) : ∀ t ∈ l, t.Decided :=
  Run.forall_mem (fun _ h => h.2.1) (fun _ _ h => h.2.1) hr

end Replay

/-! ### Routes -/

theorem decideMove_route (h : decideMove state o = .ok d) :
    validateState state.normalized o = .ok () ∧ Route state.normalized o d := by
  obtain ⟨hvalid, hlife | ⟨hnone, hexec⟩⟩ := decideMove_inv h
  · exact ⟨hvalid, decideLifecycle_route hlife⟩
  · refine ⟨hvalid, .execution (decideLifecycle_none hnone (validateState_known hvalid)) hexec ?_⟩
    rw [decideMove, seq_ok] at h
    simp only [hnone, hexec] at h
    exact (seq_ok.mp h.2).1

/-! ### What the rule of a phase needs to advance it -/

section Advance
variable {phase target : MovePhase} {P : Prop}

def Decision.halts (d : Decision) (phase : MovePhase) : Prop := d.next.phase ∈ [phase, .canceling, .blocked]

theorem Decision.Stops.halts (h : d.Stops phase) : d.halts phase := by
  simp only [Decision.Stops, stops, List.mem_cons, Prod.mk.injEq, List.not_mem_nil, or_false] at h
  rcases h with h | h | h | h <;> simp [Decision.halts, h.2]

theorem halts_skip {g : Option (Except String Decision)} (hg : ∀ r, g = some r → Yields (·.halts phase) r)
    (htarget : decide (target ∉ [phase, .canceling, .blocked]) = true) :
    ∀ r, g = some r → Yields (·.next.phase = target → P) r :=
  fun r hr => (hg r hr).mono fun _ hd hnext => absurd (hnext ▸ hd) (of_decide_eq_true htarget)

theorem destinationGuard_halts : ∀ r, destinationGuard phase o = some r → Yields (·.halts phase) r :=
  fun r hr => (destinationGuard_stops r hr).mono fun _ => Decision.Stops.halts

theorem consumerGuard_halts : ∀ r, consumerGuard phase o = some r → Yields (·.halts phase) r :=
  fun r hr => (consumerGuard_stops r hr).mono fun _ => Decision.Stops.halts

theorem placementGuard_halts : ∀ r, placementGuard phase o = some r → Yields (·.halts phase) r := by
  intro r hr
  unfold placementGuard at hr
  split_ifs at hr
  exact Option.some.inj hr ▸ .step (by simp [Decision.halts])

theorem blockedWith_skip {o' : Observation} {fallback : String} (htarget : decide (target ∉ [phase, .canceling, .blocked]) = true) :
    Yields (·.next.phase = target → P) (pure (blockedWith phase o' fallback)) :=
  .pure fun hnext => absurd (hnext ▸ blockedWith_stops.halts) (of_decide_eq_true htarget)

theorem transition_skip {source other : MovePhase} {action : Action} {reason : String} (h : decide (other ≠ target) = true) :
    Yields (·.next.phase = target → P) (transition source other action reason) :=
  .step fun hnext => absurd hnext (of_decide_eq_true h)

theorem decideMove_advance (h : decideMove state o = .ok d) (hphase : state.phase = phase)
    (hnext : d.next.phase = target) (hrule : Yields (·.next.phase = target → P) (decidePhase phase o))
    (hexec : phase.executes ∧ phase ≠ .completing)
    (htarget : decide (target ∉ [phase, .canceling, .blocked]) = true) : P := by
  subst hphase
  rcases decideMove_executes h hexec.1 hexec.2 with hstop | hrule'
  · exact absurd (hnext ▸ hstop.halts) (of_decide_eq_true htarget)
  · exact hrule d hrule' hnext

theorem decideMove_promoting (h : decideMove state o = .ok d) (hphase : state.phase = .copying)
    (hnext : d.next.phase = .promoting) : o.copyComplete := by
  refine decideMove_advance h hphase hnext ?_ (by decide) rfl
  change Yields _ (decideCopying .copying o)
  unfold decideCopying
  refine .guarded (halts_skip destinationGuard_halts rfl) (.ite (blockedWith_skip rfl) ?_)
  refine .guarded (.or (halts_skip consumerGuard_halts rfl) (halts_skip placementGuard_halts rfl)) ?_
  exact .cases (fun hcopied => .step fun _ => hcopied) fun _ => transition_skip rfl

theorem decideMove_committing (h : decideMove state o = .ok d) (hphase : state.phase = .promoting)
    (hnext : d.next.phase = .committing) : o.promotionComplete ∨ o.ownerCommitted := by
  refine decideMove_advance h hphase hnext ?_ (by decide) rfl
  change Yields _ (decidePromoting .promoting o)
  unfold decidePromoting
  refine .cases (fun hcommitted => .step fun _ => Or.inr hcommitted) fun _ => ?_
  refine .guarded (halts_skip destinationGuard_halts rfl) (.ite (blockedWith_skip rfl) ?_)
  refine .guarded (.or (halts_skip consumerGuard_halts rfl) (halts_skip placementGuard_halts rfl)) ?_
  exact .cases (fun hpromoted => .step fun _ => Or.inl hpromoted) fun _ => transition_skip rfl

theorem decideMove_releasing (h : decideMove state o = .ok d) (hphase : state.phase = .committing)
    (hnext : d.next.phase = .releasingDestination) : o.ownerCommitted := by
  refine decideMove_advance h hphase hnext ?_ (by decide) rfl
  change Yields _ (decideCommitting .committing o)
  unfold decideCommitting
  refine .cases (fun hcommitted => .ite (transition_skip rfl) (.step fun _ => hcommitted)) fun _ => ?_
  refine .guarded (.or (.or ?_ ?_) ?_) (transition_skip rfl)
  · exact halts_skip destinationGuard_halts rfl
  · exact halts_skip consumerGuard_halts rfl
  · exact halts_skip placementGuard_halts rfl

theorem decideMove_cleaning (h : decideMove state o = .ok d) (hphase : state.phase = .waitingForDestinationPublish)
    (hnext : d.next.phase = .cleaningSource) : o.publishedOnDestination := by
  refine decideMove_advance h hphase hnext ?_ (by decide) rfl
  change Yields _ (decideWaitingForDestinationPublish .waitingForDestinationPublish o)
  refine .ite (blockedWith_skip rfl) (.ite (transition_skip rfl) (.ite (transition_skip rfl) (.cases (fun _ => transition_skip rfl) ?_)))
  exact fun hpublished => .step fun _ => by simpa using hpublished

theorem decideMove_completing (h : decideMove state o = .ok d) (hphase : state.phase = .cleaningSource)
    (hnext : d.next.phase = .completing) : o.cleanupComplete := by
  refine decideMove_advance h hphase hnext ?_ (by decide) rfl
  change Yields _ (decideCleaningSource .cleaningSource o)
  refine .ite (transition_skip rfl) (.ite (blockedWith_skip rfl) (.ite (transition_skip rfl) (.cases ?_ fun _ => (transition_skip rfl))))
  exact fun hclean => .step fun _ => hclean

theorem preparationChanged_halts : Yields (·.halts phase) (preparationChanged phase o) :=
  .ite (.step (by simp [Decision.halts])) (.pure blockedWith_stops.halts)

/-- A phase past its preparation that is left for one that is no stop of it follows its own rule. -/
theorem decideMove_own_rule (h : decideMove state o = .ok d) (hphase : state.phase = phase)
    (hrunning : phase ∉ [.unset, .pending, .preparing, .succeeded, .canceling, .cancelled, .blocked])
    (hnext : ¬d.halts phase) : phase = .startingDisruption ∧ decideStartingDisruption phase o = .ok d ∨
      phase.executes ∧ decideExecution phase o = .ok d := by
  subst hphase
  simp only [List.mem_cons, List.not_mem_nil, or_false, not_or] at hrunning
  obtain ⟨hunset, hpending, hpreparing, hsucceeded, hcanceling, hcancelled, hblocked⟩ := hrunning
  obtain ⟨-, hroute⟩ := decideMove_route h
  rw [normalized_of_known hunset] at hroute
  cases hroute with
  | retired may authority plan claim reserved decided => simp [Decision.halts, transition_inv decided] at hnext
  | settlement may decided => simp [Decision.halts, decided] at hnext
  | history succeeded => exact absurd succeeded hsucceeded
  | cancellation undo => exact (undo.elim hcanceling hcancelled).elim
  | blocked phase => exact absurd phase hblocked
  | changed running unapproved reason decided => exact absurd (preparationChanged_halts d decided) hnext
  | preparation phase => exact (phase.elim hpending hpreparing).elim
  | disruption phase decided => exact .inl ⟨phase, decided⟩
  | execution phase decided => exact .inr ⟨phase, decided⟩

theorem decideMove_succeeded (h : decideMove state o = .ok d) (hphase : state.phase = .completing)
    (hnext : d.next.phase = .succeeded) : o.completionReady := by
  rcases decideMove_own_rule h hphase (by decide) (by simp [Decision.halts, hnext]) with ⟨hother, -⟩ | ⟨-, hrule⟩
  · cases hother
  · rw [decideExecution, lifecycleGuard, if_neg (by simp)] at hrule
    split at hrule
    · assumption
    · simp [transition_inv hrule] at hnext

theorem decideMove_disruption (h : decideMove state o = .ok d) (hphase : state.phase = .startingDisruption)
    (hnext : d.next.phase = .waitingForUnpublish) :
    o.protectionPresent ∧ o.sourcePlanRecorded ∧ o.sourceClaimed ∧ o.preparationReserved := by
  rcases decideMove_own_rule h hphase (by decide) (by simp [Decision.halts, hnext]) with ⟨-, hrule⟩ | ⟨hexec, -⟩
  · exact require_ok.mp (seq_ok.mp hrule).1
  · exact absurd hexec (by decide)

end Advance

/-! ### Evidence that the phases remember -/

inductive Milestone where
  | copied | promoted | committed | published
  deriving DecidableEq

def Milestone.observed : Milestone → Observation → Bool
  | .copied, o => o.copyComplete
  | .promoted, o => o.promotionComplete || o.ownerCommitted
  | .committed, o => o.ownerCommitted
  | .published, o => o.publishedOnDestination

/-- What some earlier turn has observed when a run from `Pending` is in the phase. -/
def MovePhase.milestones : MovePhase → List Milestone
  | .promoting => [.copied]
  | .committing => [.copied, .promoted]
  | .releasingDestination | .waitingForDestinationPublish => [.copied, .promoted, .committed]
  | .cleaningSource | .completing | .succeeded => [.copied, .promoted, .committed, .published]
  | _ => []

def milestoneTransitions : List (MovePhase × MovePhase) :=
  [(.copying, .promoting), (.promoting, .committing), (.committing, .releasingDestination),
    (.waitingForDestinationPublish, .cleaningSource)]

theorem outcomes_milestones (phase : MovePhase) : ∀ x ∈ outcomes phase,
    (∀ m ∈ x.2.milestones, m ∈ phase.milestones) ∨ (phase, x.2) ∈ milestoneTransitions := by
  cases phase <;> decide

theorem normalized_milestones : state.normalized.phase.milestones = state.phase.milestones := by
  unfold LifecycleState.normalized
  split
  · rename_i h
    simp [h.1, MovePhase.milestones]
  · rfl

/-- A decision keeps the milestones of its phase; one that it adds it has observed. -/
theorem decideMove_milestones (h : decideMove state o = .ok d) :
    ∀ m ∈ d.next.phase.milestones, m ∈ state.phase.milestones ∨ m.observed o := by
  rcases outcomes_milestones _ _ (decideMove_listed h) with hkept | hpassed
  · rw [normalized_milestones] at hkept
    exact fun m hm => Or.inl (hkept m hm)
  · have hphase : state.normalized.phase = state.phase := by
      unfold LifecycleState.normalized at hpassed ⊢
      split_ifs at hpassed ⊢ with hunset
      · simp [milestoneTransitions] at hpassed
      · rfl
    rw [hphase] at hpassed
    simp only [milestoneTransitions, List.mem_cons, Prod.mk.injEq, List.not_mem_nil, or_false] at hpassed
    intro m hm
    rcases hpassed with ⟨hp, hn⟩ | ⟨hp, hn⟩ | ⟨hp, hn⟩ | ⟨hp, hn⟩
    · have := decideMove_promoting h hp hn
      simp_all [MovePhase.milestones, Milestone.observed]
    · have := decideMove_committing h hp hn
      simp only [hn, MovePhase.milestones, List.mem_cons, List.not_mem_nil, or_false] at hm
      rcases hm with rfl | rfl <;> simp_all [MovePhase.milestones, Milestone.observed]
    · have := decideMove_releasing h hp hn
      simp only [hn, MovePhase.milestones, List.mem_cons, List.not_mem_nil, or_false] at hm
      rcases hm with rfl | rfl | rfl <;> simp_all [MovePhase.milestones, Milestone.observed]
    · have := decideMove_cleaning h hp hn
      simp only [hn, MovePhase.milestones, List.mem_cons, List.not_mem_nil, or_false] at hm
      rcases hm with rfl | rfl | rfl | rfl <;> simp_all [MovePhase.milestones, Milestone.observed]

section Milestones
variable {start : LifecycleState} {past later : List Turn} {t : Turn}

theorem DecisionRun.milestones (hstart : start.phase.milestones = []) (hr : DecisionRun start (t :: past)) :
    ∀ m ∈ t.state.phase.milestones, ∃ e ∈ past, m.observed e.observation := by
  suffices h : ∀ l, DecisionRun start l → ∀ t past, l = t :: past →
      ∀ m ∈ t.state.phase.milestones, ∃ e ∈ past, m.observed e.observation from h _ hr _ _ rfl
  intro l hl
  induction hl with
  | start h0 =>
    rintro t past ⟨⟩ m hm
    simp [h0.1, hstart] at hm
  | @next s t past _ hr hs ih =>
    rintro t past ⟨⟩ m hm
    have hstate : s.decision.next = t.state := by simpa [Turn.follows] using hs.1
    have hrun : DecisionRun start (s :: past) := hr
    rw [← hstate] at hm
    rcases decideMove_milestones (TurnRun.decided hrun s (by simp)) m hm with hkept | hseen
    · obtain ⟨e, he, hobs⟩ := ih _ _ rfl m hkept
      exact ⟨e, List.mem_cons_of_mem _ he, hobs⟩
    · exact ⟨s, by simp, hseen⟩

/-- A milestone that a turn's decision stands on was observed before the turn or in it. -/
theorem DecisionRun.reached (hstart : start.phase.milestones = []) (hr : DecisionRun start (t :: past)) {m : Milestone}
    (hm : m ∈ t.decision.next.phase.milestones) : ∃ e ∈ t :: past, m.observed e.observation := by
  rcases decideMove_milestones (TurnRun.decided hr t (by simp)) m hm with hkept | hseen
  · obtain ⟨e, he, hobs⟩ := DecisionRun.milestones hstart hr m hkept
    exact ⟨e, List.mem_cons_of_mem _ he, hobs⟩
  · exact ⟨t, by simp, hseen⟩

theorem outcomes_commitOwner (phase : MovePhase) : ∀ x ∈ outcomes phase, x.1 = .commitOwner →
    .copied ∈ phase.milestones ∧ .promoted ∈ x.2.milestones := by
  cases phase <;> decide

theorem outcomes_ensureCleanup (phase : MovePhase) : ∀ x ∈ outcomes phase, x.1 = .ensureCleanup →
    .committed ∈ phase.milestones ∧ .published ∈ x.2.milestones := by
  cases phase <;> decide

def entrance : List (MovePhase × MovePhase) :=
  [(.startingDisruption, .waitingForUnpublish), (.waitingForCapacity, .copying), (.cleaningSource, .completing),
    (.completing, .succeeded)]

theorem outcomes_entrance (phase : MovePhase) : ∀ x ∈ outcomes phase, x.2 ≠ phase → ∀ e ∈ entrance, e.2 = x.2 →
    e.1 = phase ∧ (x.2 = .waitingForUnpublish → x.1 = .startDisruption) := by
  cases phase <;> decide

theorem outcomes_startDisruption (phase : MovePhase) : ∀ x ∈ outcomes phase, x.1 = .startDisruption →
    phase = .startingDisruption ∧ x.2 = .waitingForUnpublish := by
  cases phase <;> decide

theorem normalized_phase {phase : MovePhase} (h : state.normalized.phase = phase) (hne : phase ≠ .pending) :
    state.phase = phase := by
  unfold LifecycleState.normalized at h
  split_ifs at h with hunset
  · exact absurd h.symm hne
  · exact h

theorem Turn.enters_from (source : MovePhase) {target : MovePhase} (ht : t.Decided) (he : t.enters target)
    (hentrance : (source, target) ∈ entrance) (hne : source ≠ .pending) :
    t.state.phase = source ∧ (target = .waitingForUnpublish → t.decision.action = .startDisruption) := by
  obtain ⟨hnext, hother⟩ := he
  obtain ⟨hsource, haction⟩ := outcomes_entrance _ _ (decideMove_listed ht) (by rw [hnext]; exact hother.symm)
    _ hentrance hnext.symm
  exact ⟨normalized_phase hsource.symm hne, fun h => haction (hnext.trans h)⟩

/-- The order of evidence: every step of a run from `Pending` stands on what it or an earlier step observed. -/
theorem evidence_order (hr : DecisionRun ⟨.pending, .unset⟩ (later ++ t :: past)) :
    (t.enters .waitingForUnpublish ∨ t.decision.action = .startDisruption →
        t.enters .waitingForUnpublish ∧ t.decision.action = .startDisruption ∧ t.observation.protectionPresent ∧
          t.observation.sourcePlanRecorded ∧ t.observation.sourceClaimed ∧ t.observation.preparationReserved) ∧
      (t.enters .copying → t.observation.capacityApproved) ∧
      (t.decision.action = .commitOwner → (∃ e ∈ past, e.observation.copyComplete) ∧
        ∃ e ∈ t :: past, e.observation.promotionComplete ∨ e.observation.ownerCommitted) ∧
      (t.decision.action = .ensureCleanup → (∃ e ∈ past, e.observation.ownerCommitted) ∧
        ∃ e ∈ t :: past, e.observation.publishedOnDestination) ∧
      (t.enters .completing → t.observation.cleanupComplete) ∧
      (t.enters .succeeded → t.observation.completionReady) := by
  have hr' : DecisionRun ⟨.pending, .unset⟩ (t :: past) := Run.suffix hr
  have ht : t.Decided := TurnRun.decided hr' t (by simp)
  have hlisted := decideMove_listed ht
  refine ⟨fun h => ?_, fun he => ?_, fun ha => ?_, fun ha => ?_, fun he => ?_, fun he => ?_⟩
  · have henters : t.enters .waitingForUnpublish := by
      rcases h with h | ha
      · exact h
      · obtain ⟨hphase, hnext⟩ := outcomes_startDisruption _ _ hlisted ha
        exact ⟨hnext, by rw [hphase]; decide⟩
    obtain ⟨hphase, haction⟩ := Turn.enters_from .startingDisruption ht henters (by decide) (by decide)
    exact ⟨henters, haction rfl, decideMove_disruption ht hphase henters.1⟩
  · obtain ⟨hphase, -⟩ := Turn.enters_from .waitingForCapacity ht he (by decide) (by decide)
    exact decideMove_copying ht hphase he.1
  · obtain ⟨hcopied, hpromoted⟩ := outcomes_commitOwner _ _ hlisted ha
    rw [normalized_milestones] at hcopied
    refine ⟨DecisionRun.milestones rfl hr' _ hcopied, ?_⟩
    simpa [Milestone.observed] using DecisionRun.reached rfl hr' hpromoted
  · obtain ⟨hcommitted, hpublished⟩ := outcomes_ensureCleanup _ _ hlisted ha
    rw [normalized_milestones] at hcommitted
    exact ⟨DecisionRun.milestones rfl hr' _ hcommitted, DecisionRun.reached rfl hr' hpublished⟩
  · obtain ⟨hphase, -⟩ := Turn.enters_from .cleaningSource ht he (by decide) (by decide)
    exact decideMove_completing ht hphase he.1
  · obtain ⟨hphase, -⟩ := Turn.enters_from .completing ht he (by decide) (by decide)
    exact decideMove_succeeded ht hphase he.1

def preparedFacts : Observation :=
  { Observation.none with
    protectionPresent := true, sourcePlanRecorded := true, sourceClaimed := true, preparationReserved := true
    sourceHealthy := true, preconditionsValid := true, replacementExists := true, replacementHeld := true
    destinationScheduled := true, placementExists := true }

def executedFacts : Observation :=
  { preparedFacts with capacityApproved := true, copyComplete := true, promotionComplete := true }

def committedFacts : Observation :=
  { executedFacts with ownerCommitted := true, placementExists := false, replacementHeld := false
                       publishedOnDestination := true }

def migrationTurns : List Turn :=
  turns (fun _ _ => true) ⟨.pending, .unset⟩ []
    (List.replicate 6 preparedFacts ++ List.replicate 3 executedFacts ++ List.replicate 3 committedFacts)

theorem evidence_order_migration :
    ∃ t past, migrationTurns = t :: past ∧ t.decision.action = .ensureCleanup ∧
      (∃ e ∈ past, e.observation.ownerCommitted) ∧ ∃ e ∈ t :: past, e.observation.publishedOnDestination := by
  have hlast : migrationTurns.head?.map (·.decision.action) = some .ensureCleanup := by decide +kernel
  cases hl : migrationTurns with
  | nil => simp [hl] at hlast
  | cons t past =>
    have ha : t.decision.action = .ensureCleanup := by simpa [hl] using hlast
    have hr : DecisionRun ⟨.pending, .unset⟩ ([] ++ t :: past) := turns_start hl
    obtain ⟨-, -, -, hcleanup, -⟩ := evidence_order hr
    exact ⟨t, past, rfl, ha, hcleanup ha⟩

end Milestones

end ShiftPV

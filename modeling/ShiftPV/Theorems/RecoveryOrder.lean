import ShiftPV.Theorems.Cancellation

/-! The order of recovery. Along one attempt every step moves up the order of its owner side; a settlement request is the only
    way back, and it happens once. -/

namespace ShiftPV
open Check

variable {owner : Bool} {past later l : List Turn} {t : Turn} {o : Observation} {d : Decision}

/-! ### Recovery runs -/

/-- What a turn of a recovery observes after `past`: the destination intent and the owner side stay, settlement is
    recorded once it was requested, and the retirement it answers is not observed again. -/
def recoveryTurn (owner : Bool) (past : List Turn) (t : Turn) : Bool :=
  t.observation.destinationIntentRecorded && t.observation.recoveryOwnerIsDestination == owner &&
    t.observation.settlementOnly == past.any (·.decision.action = .requestSettlement) &&
    !(t.observation.workloadRetired && t.observation.settlementOnly)

/-- Recoveries of a blocked Move whose owner is the destination, or the source. -/
abbrev RecoveryRun (owner : Bool) : List Turn → Prop := TurnRun ⟨.blocked, .unset⟩ (recoveryTurn owner)

/-- The turns of the present attempt: those since the last settlement request. -/
def attempt (past : List Turn) : List Turn := past.takeWhile (·.decision.action ≠ .requestSettlement)

def Turn.leaves (t : Turn) (phase : RecoveryPhase) : Prop :=
  t.state.recoveryPhase = phase ∧ t.decision.next.recoveryPhase ≠ phase

theorem attempt_cons (h : t.decision.action ≠ .requestSettlement) : attempt (t :: past) = t :: attempt past := by
  simp [attempt, h]

theorem attempt_requested (h : t.decision.action = .requestSettlement) : attempt (t :: past) = [] := by
  simp [attempt, h]

/-! ### One turn -/

/-- The order of the recovery phases: a destination owner resumes before it retires the source. -/
def RecoveryPhase.rank (owner : Bool) : RecoveryPhase → Nat
  | .unset => 0
  | .quiescing => 1
  | .verifying => 2
  | .retiring => if owner then 4 else 3
  | .resuming => if owner then 3 else 4
  | .completing => 5
  | .recovered => 6

inductive RecoveryStep (r : RecoveryPhase) (o : Observation) (d : Decision) : Prop where
  | settlement (retired : o.workloadRetired) (open_ : r ≠ .recovered)
      (decided : d.next = ⟨.blocked, .unset⟩ ∧ d.action = .requestSettlement)
  | stay (decided : d.next = ⟨.blocked, r⟩) (action : d.action ∈ [.finalizeHistory, .finalizeSourceUsage])
  | advance (open_ : r ≠ .recovered) (decided : decideRecovery ⟨.blocked, r⟩ o = .ok d)

theorem decideMove_recovery {r : RecoveryPhase} (h : decideMove ⟨.blocked, r⟩ o = .ok d)
    (hintent : o.destinationIntentRecorded) : RecoveryStep r o d := by
  obtain ⟨-, hroute⟩ := decideMove_route h
  rw [normalized_of_known (by simp)] at hroute
  have happroved : beforeExecutionApproval o = false := by simp [beforeExecutionApproval, hintent]
  cases hroute with
  | retired may => simp [canCancelRetiredPreparation, happroved] at may
  | settlement may decided =>
    simp only [canRequestSettlement, Bool.and_eq_true, decide_eq_true_eq] at may
    exact .settlement may.1.1.1.1.1 may.1.1.1.1.2 (by simp [decided])
  | history succeeded => simp at succeeded
  | cancellation undo => simp at undo
  | blocked phase decided =>
    unfold decideBlocked at decided
    split_ifs at decided with hrecovered hunset hrequested
    · obtain rfl := pure_ok.mp decided
      exact .stay rfl (by simp)
    · simp [happroved] at hunset
    · exact .advance hrecovered decided
    · obtain rfl := pure_ok.mp decided
      exact .stay rfl (by simp)
  | changed running unapproved => simp [happroved] at unapproved
  | preparation phase => simp at phase
  | disruption phase => simp at phase
  | execution phase => simp [MovePhase.executes] at phase

theorem decideRecovery_inv {r : RecoveryPhase} (h : decideRecovery ⟨.blocked, r⟩ o = .ok d) :
    d.next.phase = .blocked ∧
      ((r, d.next.recoveryPhase, d.action) = (.unset, .quiescing, .beginRecovery) ∨
        (r, d.next.recoveryPhase, d.action) = (.quiescing, .verifying, .quiesceRecovery) ∨
        (r, d.next.recoveryPhase, d.action) =
          (.verifying, if o.recoveryOwnerIsDestination ∧ ¬o.settlementOnly then .resuming else .retiring, .verifyRecovery) ∨
        (r, d.next.recoveryPhase, d.action) =
          (.retiring, if o.recoveryOwnerIsDestination ∨ o.settlementOnly then .completing else .resuming, .retireRecovery) ∨
        (r, d.next.recoveryPhase, d.action) =
          (.resuming, if o.recoveryOwnerIsDestination then .retiring else .completing, .resumeRecovery) ∨
        (r, d.next.recoveryPhase, d.action) =
          (.completing, .recovered, if o.recoveryUnlockObserved then .wait else .completeRecovery)) := by
  cases r with
  | recovered => simp [decideRecovery] at h
  | _ =>
    obtain rfl := pure_ok.mp h
    simp

theorem decideRecovery_rank {r : RecoveryPhase} (h : decideRecovery ⟨.blocked, r⟩ o = .ok d) :
    r.rank o.recoveryOwnerIsDestination < d.next.recoveryPhase.rank o.recoveryOwnerIsDestination := by
  obtain ⟨-, hstep⟩ := decideRecovery_inv h
  simp only [Prod.mk.injEq] at hstep
  rcases hstep with ⟨rfl, hn, -⟩ | ⟨rfl, hn, -⟩ | ⟨rfl, hn, -⟩ | ⟨rfl, hn, -⟩ | ⟨rfl, hn, -⟩ | ⟨rfl, hn, -⟩ <;> rw [hn]
  · simp [RecoveryPhase.rank]
  · simp [RecoveryPhase.rank]
  · cases ho : o.recoveryOwnerIsDestination <;> cases hs : o.settlementOnly <;> simp [RecoveryPhase.rank]
  · cases ho : o.recoveryOwnerIsDestination <;> cases hs : o.settlementOnly <;> simp [RecoveryPhase.rank]
  · cases ho : o.recoveryOwnerIsDestination <;> simp [RecoveryPhase.rank]
  · simp [RecoveryPhase.rank]

/-! ### One attempt -/

/-- The state of an attempt: what it has left is behind it, and what it stands on was done in it. -/
structure AttemptSound (owner : Bool) (past : List Turn) (s : LifecycleState) : Prop where
  blocked : s.phase = .blocked
  left : ∀ p, ∀ e ∈ attempt past, e.leaves p → p.rank owner < s.recoveryPhase.rank owner
  verified : s.recoveryPhase ∈ [.retiring, .resuming, .completing, .recovered] →
    ∃ e ∈ attempt past, e.decision.action = .verifyRecovery
  retired : owner = false → s.recoveryPhase = .resuming → ∃ e ∈ attempt past, e.decision.action = .retireRecovery
  resumed : owner = true → s.recoveryPhase = .retiring → (∀ e ∈ past, e.decision.action ≠ .requestSettlement) →
    ∃ e ∈ attempt past, e.decision.action = .resumeRecovery

theorem attemptSound_fresh (h : attempt past = []) : AttemptSound owner past ⟨.blocked, .unset⟩ where
  blocked := rfl
  left := by simp [h]
  verified := by simp
  retired := by simp
  resumed := by simp

theorem attempt_older {a : Action} (hreq : t.decision.action ≠ .requestSettlement)
    (h : ∃ e ∈ attempt past, e.decision.action = a) : ∃ e ∈ attempt (t :: past), e.decision.action = a := by
  obtain ⟨e, he, ha⟩ := h
  rw [attempt_cons hreq]
  exact ⟨e, List.mem_cons_of_mem _ he, ha⟩

theorem attempt_newest {a : Action} (hreq : t.decision.action ≠ .requestSettlement) (ha : t.decision.action = a) :
    ∃ e ∈ attempt (t :: past), e.decision.action = a := by
  rw [attempt_cons hreq]
  exact ⟨t, by simp, ha⟩

theorem recoveryTurn_inv (h : recoveryTurn owner past t) :
    t.observation.destinationIntentRecorded ∧ t.observation.recoveryOwnerIsDestination = owner ∧
      (t.observation.settlementOnly ↔ ∃ e ∈ past, e.decision.action = .requestSettlement) ∧
      ¬(t.observation.workloadRetired ∧ t.observation.settlementOnly) := by
  simp only [recoveryTurn, Bool.and_eq_true, beq_iff_eq, Bool.not_eq_true', Bool.and_eq_false_iff] at h
  obtain ⟨⟨⟨hintent, howner⟩, hsettled⟩, honce⟩ := h
  refine ⟨hintent, howner, ?_, ?_⟩
  · rw [hsettled, List.any_eq_true]
    simp
  · rintro ⟨hr, hs⟩
    rcases honce with h | h
    · simp [hr] at h
    · simp [hs] at h

theorem AttemptSound.step (hs : AttemptSound owner past t.state) (ht : t.Decided) (hturn : recoveryTurn owner past t) :
    AttemptSound owner (t :: past) t.decision.next := by
  obtain ⟨hintent, howner, hsettled, -⟩ := recoveryTurn_inv hturn
  obtain ⟨r, hr⟩ : ∃ r, t.state = ⟨.blocked, r⟩ := ⟨t.state.recoveryPhase, by rw [← hs.blocked]⟩
  have hdecided : decideMove ⟨.blocked, r⟩ t.observation = .ok t.decision := hr ▸ ht
  have hrr : t.state.recoveryPhase = r := by rw [hr]
  cases decideMove_recovery hdecided hintent with
  | settlement retired open_ decided =>
    rw [decided.1]
    exact attemptSound_fresh (attempt_requested decided.2)
  | stay decided action =>
    have hreq : t.decision.action ≠ .requestSettlement := by rintro h; simp [h] at action
    rw [decided, ← hr]
    refine ⟨hs.blocked, fun p e he hleaves => ?_, fun h => attempt_older hreq (hs.verified h),
      fun ho h => attempt_older hreq (hs.retired ho h), fun ho h hnone => attempt_older hreq (hs.resumed ho h ?_)⟩
    · rw [attempt_cons hreq] at he
      rcases List.mem_cons.mp he with rfl | he
      · obtain ⟨hp, hne⟩ := hleaves
        simp [decided, ← hp, hrr] at hne
      · exact hs.left p e he hleaves
    · exact fun e he => hnone e (List.mem_cons_of_mem _ he)
  | advance open_ decided =>
    obtain ⟨hblocked, hmove⟩ := decideRecovery_inv decided
    have hrank := decideRecovery_rank decided
    rw [howner] at hrank
    have hreq : t.decision.action ≠ .requestSettlement := by
      intro h
      simp only [h, Prod.mk.injEq, reduceCtorEq, and_false, false_or] at hmove
      obtain ⟨-, -, hact⟩ := hmove
      split at hact <;> simp at hact
    simp only [howner, Prod.mk.injEq] at hmove
    refine ⟨hblocked, fun p e he hleaves => ?_, fun h => ?_, fun ho h => ?_, fun ho h hnone => ?_⟩
    · rw [attempt_cons hreq] at he
      rcases List.mem_cons.mp he with rfl | he
      · exact hleaves.1 ▸ hrr ▸ hrank
      · exact (hs.left p e he hleaves).trans (hrr ▸ hrank)
    · -- the phases after verification are entered by verifying, or from one of them
      rcases hmove with ⟨-, hn, -⟩ | ⟨-, hn, -⟩ | ⟨-, -, ha⟩ | ⟨hp, -, -⟩ | ⟨hp, -, -⟩ | ⟨hp, -, -⟩
      · simp [hn] at h
      · simp [hn] at h
      · exact attempt_newest hreq ha
      · exact attempt_older hreq (hs.verified (by simp [hrr, hp]))
      · exact attempt_older hreq (hs.verified (by simp [hrr, hp]))
      · exact attempt_older hreq (hs.verified (by simp [hrr, hp]))
    · subst ho
      rcases hmove with ⟨-, hn, -⟩ | ⟨-, hn, -⟩ | ⟨-, hn, -⟩ | ⟨-, -, ha⟩ | ⟨-, hn, -⟩ | ⟨-, hn, -⟩
      · simp [hn] at h
      · simp [hn] at h
      · simp [hn] at h
      · exact attempt_newest hreq ha
      · simp [hn] at h
      · simp [hn] at h
    · -- verifying leads a destination owner to retiring under settlement only
      subst ho
      have hplain : t.observation.settlementOnly = false := by
        by_contra hset
        obtain ⟨e, he, hact⟩ := hsettled.mp (by simpa using hset)
        exact hnone e (List.mem_cons_of_mem _ he) hact
      rcases hmove with ⟨-, hn, -⟩ | ⟨-, hn, -⟩ | ⟨-, hn, -⟩ | ⟨-, hn, -⟩ | ⟨-, -, ha⟩ | ⟨-, hn, -⟩
      · simp [hn] at h
      · simp [hn] at h
      · simp [hn, hplain] at h
      · simp [hn] at h
      · exact attempt_newest hreq ha
      · simp [hn] at h

theorem RecoveryRun.turn (hr : RecoveryRun owner (t :: past)) :
    t.Decided ∧ recoveryTurn owner past t ∧ AttemptSound owner past t.state := by
  suffices h : ∀ l, RecoveryRun owner l → ∀ t past, l = t :: past →
      t.Decided ∧ recoveryTurn owner past t ∧ AttemptSound owner past t.state from h _ hr _ _ rfl
  intro l hl
  induction hl with
  | start h0 =>
    rintro t past ⟨⟩
    exact ⟨h0.2.1, h0.2.2, h0.1 ▸ attemptSound_fresh rfl⟩
  | @next s t past _ hr hs ih =>
    rintro t past ⟨⟩
    have hstate : s.decision.next = t.state := by simpa [Turn.follows] using hs.1
    obtain ⟨hdecided, hturn, hsound⟩ := ih _ _ rfl
    exact ⟨hs.2.1, hs.2.2, hstate ▸ hsound.step hdecided hturn⟩

/-! ### The order of a recovery -/

theorem decideRecovery_action {r : RecoveryPhase} (h : decideRecovery ⟨.blocked, r⟩ o = .ok d) :
    d.action ≠ .requestSettlement ∧ (d.action = .retireRecovery → r = .retiring) ∧
      (d.action = .resumeRecovery → r = .resuming) ∧ (d.next.recoveryPhase = .recovered → r = .completing) := by
  obtain ⟨-, hmove⟩ := decideRecovery_inv h
  simp only [Prod.mk.injEq] at hmove
  rcases hmove with ⟨rfl, hn, ha⟩ | ⟨rfl, hn, ha⟩ | ⟨rfl, hn, ha⟩ | ⟨rfl, hn, ha⟩ | ⟨rfl, hn, ha⟩ | ⟨rfl, hn, ha⟩ <;>
    rw [hn, ha]
  · simp
  · simp
  · split <;> simp
  · split <;> simp
  · split <;> simp
  · split <;> simp

/-- Every turn of a recovery run: the attempt never returns to a phase it left, artifacts and service follow the
    verified owner in its order, the end is final, and settlement restarts the attempt at most once. -/
theorem recovery_order (hr : RecoveryRun owner (later ++ t :: past)) :
    (∀ p, t.leaves p → ∀ e ∈ attempt past, ¬e.leaves p) ∧
      (t.decision.action = .retireRecovery ∨ t.decision.action = .resumeRecovery →
        ∃ e ∈ attempt past, e.decision.action = .verifyRecovery) ∧
      (owner = false → t.decision.action = .resumeRecovery → ∃ e ∈ attempt past, e.decision.action = .retireRecovery) ∧
      (owner = true → t.observation.settlementOnly = false → t.decision.action = .retireRecovery →
        ∃ e ∈ attempt past, e.decision.action = .resumeRecovery) ∧
      (t.decision.next.recoveryPhase = .recovered → t.state.recoveryPhase = .completing ∨ t.state.recoveryPhase = .recovered) ∧
      (t.state.recoveryPhase = .recovered → t.decision.next = t.state) ∧
      (t.decision.action = .requestSettlement → ∀ e ∈ past, e.decision.action ≠ .requestSettlement) := by
  obtain ⟨ht, hturn, hsound⟩ := RecoveryRun.turn (Run.suffix hr)
  obtain ⟨hintent, -, hsettled, honce⟩ := recoveryTurn_inv hturn
  obtain ⟨r, hr⟩ : ∃ r, t.state = ⟨.blocked, r⟩ := ⟨t.state.recoveryPhase, by rw [← hsound.blocked]⟩
  have hrr : t.state.recoveryPhase = r := by rw [hr]
  have hdecided : decideMove ⟨.blocked, r⟩ t.observation = .ok t.decision := hr ▸ ht
  have hleft : ∀ p, t.leaves p → ∀ e ∈ attempt past, ¬e.leaves p := by
    intro p hp e he hleaves
    exact absurd (hsound.left p e he hleaves) (by rw [hp.1]; exact lt_irrefl _)
  cases decideMove_recovery hdecided hintent with
  | settlement retired open_ decided =>
    have hfirst : ∀ e ∈ past, e.decision.action ≠ .requestSettlement := by
      intro e he hact
      exact honce ⟨retired, hsettled.mpr ⟨e, he, hact⟩⟩
    refine ⟨hleft, ?_, ?_, ?_, ?_, ?_, fun _ => hfirst⟩
    · simp [decided.2]
    · simp [decided.2]
    · simp [decided.2]
    · simp [decided.1]
    · exact fun h => absurd (hrr ▸ h) open_
  | stay decided action =>
    have hidle : ∀ a, a ∉ [Action.finalizeHistory, .finalizeSourceUsage] → t.decision.action ≠ a :=
      fun a ha h => ha (h ▸ action)
    refine ⟨hleft, ?_, ?_, ?_, ?_, fun _ => decided.trans hr.symm, ?_⟩
    · rintro (h | h)
      · exact absurd h (hidle _ (by decide))
      · exact absurd h (hidle _ (by decide))
    · exact fun _ h => absurd h (hidle _ (by decide))
    · exact fun _ _ h => absurd h (hidle _ (by decide))
    · exact fun h => Or.inr (by rw [hrr]; simpa [decided] using h)
    · exact fun h => absurd h (hidle _ (by decide))
  | advance open_ decided =>
    obtain ⟨hreq, hretire, hresume, hrecovered⟩ := decideRecovery_action decided
    refine ⟨hleft, ?_, ?_, ?_, ?_, ?_, fun h => absurd h hreq⟩
    · rintro (h | h)
      · exact hsound.verified (by simp [hrr, hretire h])
      · exact hsound.verified (by simp [hrr, hresume h])
    · exact fun ho h => hsound.retired ho (hrr.trans (hresume h))
    · intro ho hplain h
      refine hsound.resumed ho (hrr.trans (hretire h)) fun e he hact => ?_
      exact absurd (hsettled.mpr ⟨e, he, hact⟩) (by simp [hplain])
    · exact fun h => Or.inl (hrr.trans (hrecovered h))
    · exact fun h => absurd (hrr.symm.trans h) open_

def recoveryFacts : Observation :=
  { Observation.none with
    destinationIntentRecorded := true, capacityApproved := true, recoveryRequested := true
    recoveryOwnerIsDestination := true }

def recoveryTurns : List Turn :=
  turns (recoveryTurn true) ⟨.blocked, .unset⟩ [] (List.replicate 5 recoveryFacts)

theorem recovery_order_destination :
    ∃ t past, recoveryTurns = t :: past ∧ t.decision.action = .retireRecovery ∧
      (∃ e ∈ attempt past, e.decision.action = .verifyRecovery) ∧
      ∃ e ∈ attempt past, e.decision.action = .resumeRecovery := by
  have hlast : recoveryTurns.head?.map (fun t => (t.decision.action, t.observation.settlementOnly)) =
      some (.retireRecovery, false) := by decide +kernel
  cases hl : recoveryTurns with
  | nil => simp [hl] at hlast
  | cons t past =>
    obtain ⟨ha, hplain⟩ : t.decision.action = .retireRecovery ∧ t.observation.settlementOnly = false := by
      simpa [hl] using hlast
    have hr : RecoveryRun true ([] ++ t :: past) := turns_start hl
    obtain ⟨-, hverified, -, hresumed, -⟩ := recovery_order hr
    exact ⟨t, past, rfl, ha, hverified (Or.inl ha), hresumed rfl hplain ha⟩

end ShiftPV

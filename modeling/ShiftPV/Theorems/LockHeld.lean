import ShiftPV.Theorems.Cancellation
import ShiftPV.Theorems.Exclusivity
import ShiftPV.Theorems.Purge
import ShiftPV.Theorems.RecoveryOrder

/-! A Move has the lock of its Volume as long as it holds capacity. Only the pass of the lock's own Move gives the lock
    back, and it decides to do so in phases where the hold is gone: cancellation drops the preparation before it, and
    recovery the approval. The one phase in which a hold outlives its lock is `Completing`. -/

namespace ShiftPV
open Check

variable {w w' : World} {act : WorldAct} {name : String} {m n p : Move} {observed : Observed} {d : Decision}
  {fresh : Option State} {wrote : Bool} {v x o : State}

/-! ### Locks -/

def Locked (w : World) (name : String) : Prop := ∃ v, w.store.volume = some v ∧ v.activeMove = name

def Action.unlocks (action : Action) : Bool := action = .releaseSource || action = .markSucceeded || action = .completeRecovery

theorem applyMobilityWrite_lock {write : MobilityWrite} (h : applyMobilityWrite write m o v = .ok x) :
    x.activeMove = m.name ∨ write = .releaseSource ∨ write = .markSucceeded ∨ write = .completeRecovery := by
  have hkept : ∀ {phase active}, OwnerKept o v x phase active → active = m.name → x.activeMove = m.name := by
    rintro phase active kept rfl
    rw [kept.record]
    rfl
  cases write with
  | claimSource => exact .inl (hkept (claimPreparationSource_inv h).1.toOwnerKept rfl)
  | startSource => exact .inl (hkept (startPreparedSource_inv h).1.toOwnerKept (startPreparedSource_inv h).2.1)
  | restoreSource => exact .inl (hkept (restoreSource_inv h).1.toOwnerKept (restoreSource_inv h).2.1)
  | releaseSource => exact .inr (.inl rfl)
  | markBlocked => exact .inl (hkept (markBlocked_inv h).1 rfl)
  | requestSettlement => exact .inl (hkept (requestWorkloadSettlement_inv h).1.toOwnerKept (requestWorkloadSettlement_inv h).2.1)
  | commitOwner =>
    obtain ⟨source, target, hcommit⟩ := commitOwner_inv h
    exact .inl (by rw [hcommit.record]; rfl)
  | markSucceeded => exact .inr (.inr (.inl rfl))
  | resumeRecovery => exact .inl (hkept (resumeRecovery_inv h).1 (resumeRecovery_inv h).2.1)
  | completeRecovery => exact .inr (.inr (.inr rfl))

theorem Action.unlocks_of_write {action : Action} {kind : MobilityWrite} (h : action.volumeWrite = some kind)
    (hkind : kind = .releaseSource ∨ kind = .markSucceeded ∨ kind = .completeRecovery) : action.unlocks := by
  rcases hkind with rfl | rfl | rfl <;> cases action <;> simp_all [Action.volumeWrite, Action.unlocks]

theorem Action.commitOwner_of_write {action : Action} (h : action.volumeWrite = some .commitOwner) : action = .commitOwner := by
  cases action <;> simp_all [Action.volumeWrite]

/-- Who writes the lock of a Volume: the pass of the Move that has it, or has just claimed it. -/
theorem WorldSound.lock_writer {kind : MobilityWrite} {op : Op} {t : Store} (hw : WorldSound w)
    (hstep : StaleStep w.history op t) (hop : op = .volume (.mobility kind p o)) (hv : w.store.volume = some v)
    (hlock : v.activeMove ≠ "") :
    p.name = v.activeMove ∧ ∃ x, t.volume = some x ∧ applyMobilityWrite kind p o v = .ok x := by
  subst hop
  obtain ⟨hobserved, happly⟩ := staleStep_cons.mp hstep
  cases Store.apply_inv happly with
  | @volume _ y x current accepted =>
    obtain rfl : y = v := Option.some.inj (current.symm.trans hv)
    obtain ⟨k, -, hk, heff⟩ := hw.coherent.effect hobserved.1 hobserved.2 hv accepted
    refine ⟨?_, x, rfl, accepted⟩
    rcases heff.lock with ⟨hfree, -⟩ | hheld
    · exact absurd hfree hlock
    · rw [hheld, hk.name]

theorem removable_unlocked (hw : WorldSound w) (hv : w.store.volume = some v) (h : w.store.removable v) : v.activeMove = "" := by
  simp only [Store.removable, Bool.or_eq_true, Bool.and_eq_true, decide_eq_true_eq] at h
  rcases h with ⟨-, hunstarted⟩ | ⟨hdeleting, -⟩
  · exact (unstartedCreation_inv hunstarted).2.2.2.2.1
  · exact ((hw.coherent.sound v (.head hv)).deleting hdeleting).1

theorem WorldSound.lock_step {op : Op} {t : Store} (hw : WorldSound w) (hstep : StaleStep w.history op t)
    (hv : w.store.volume = some v) (hlock : v.activeMove ≠ "") :
    (∃ x, t.volume = some x ∧ x.activeMove = v.activeMove) ∨ ∃ kind p o, op = .volume (.mobility kind p o) ∧
      p.name = v.activeMove ∧ (kind = .releaseSource ∨ kind = .markSucceeded ∨ kind = .completeRecovery) := by
  obtain ⟨-, happly⟩ := staleStep_cons.mp hstep
  cases Store.apply_inv happly with
  | @volume write y x current accepted =>
    obtain rfl : y = v := Option.some.inj (current.symm.trans hv)
    by_cases hmobility : ∃ kind p o, write = .mobility kind p o
    · obtain ⟨kind, p, o, rfl⟩ := hmobility
      obtain ⟨hwriter, z, hz, hwrite⟩ := hw.lock_writer hstep rfl hv hlock
      rcases applyMobilityWrite_lock hwrite with hkept | hunlocks
      · exact .inl ⟨z, hz, hkept.trans hwriter⟩
      · exact .inr ⟨kind, p, o, rfl, hwriter, hunlocks⟩
    · have hplain : ∀ kind p o, write ≠ .mobility kind p o := fun kind p o h => hmobility ⟨kind, p, o, h⟩
      obtain ⟨-, hsame⟩ := applyVolumeWrite_sound accepted (hw.coherent.sound y (.head hv)) hplain
      exact .inl ⟨x, rfl, hsame.lock⟩
  | move current accepted | create named identified absent unique | updateCleanup current accepted => exact .inl ⟨v, hv, rfl⟩
  | @ensureCleanup spec y journal current deleting operation target accepted =>
    obtain rfl : y = v := Option.some.inj (current.symm.trans hv)
    exact .inl ⟨_, rfl, rfl⟩
  | @remove y current removable =>
    obtain rfl : y = v := Option.some.inj (current.symm.trans hv)
    exact absurd (removable_unlocked hw hv removable) hlock

/-- A lock stays with its Move until the pass of the Move gives it back. -/
theorem Locked.step (h : Locked w name) (hname : name ≠ "") (hw : WorldSound w) (hs : WorldStep w act w') :
    Locked w' name ∨ ∃ p observed d fresh, w.passes name = some ⟨p, .decided observed d fresh false⟩ ∧ d.action.unlocks := by
  obtain ⟨v, hv, rfl⟩ := h
  cases hw.store_change hs with
  | same store past => exact .inl ⟨v, store ▸ hv, rfl⟩
  | write op step past own =>
    rcases hw.lock_step step hv hname with hkept | ⟨kind, p, o, hop, hwriter, hunlocks⟩
    · exact .inl hkept
    · obtain ⟨observed, d, fresh, hpass, haction⟩ := own kind p o hop
      exact .inr ⟨p, observed, d, fresh, hwriter ▸ hpass, Action.unlocks_of_write haction hunlocks⟩

/-- The owner of a locked Volume changes only in the commit of the pass that has the lock. -/
theorem Locked.owner (h : Locked w name) (hname : name ≠ "") (hw : WorldSound w) (hs : WorldStep w act w')
    (hcommit : ∀ p observed d fresh, w.passes name = some ⟨p, .decided observed d fresh false⟩ → d.action ≠ .commitOwner)
    (hv : w.store.volume = some v) (hx : w'.store.volume = some x) : x.ownerNode = v.ownerNode := by
  obtain ⟨y, hy, rfl⟩ := h
  obtain rfl : y = v := Option.some.inj (hy.symm.trans hv)
  cases hw.store_change hs with
  | same store past =>
    rw [store, hv] at hx
    exact (Option.some.inj hx) ▸ rfl
  | write op step past own =>
    have hset : y.phase ≠ .unset := fun hunset => hname ((hw.coherent.sound y (.head hv)).unset hunset).1
    refine (hw.coherent.owner_kept step hv hx hset fun p o hop => ?_).1
    obtain ⟨hwriter, -⟩ := hw.lock_writer step hop hv hname
    obtain ⟨observed, d, fresh, hpass, haction⟩ := own _ _ _ hop
    exact hcommit p observed d fresh (hwriter ▸ hpass) (Action.commitOwner_of_write haction)

/-! ### Passes -/

inductive PassChange (w w' : World) (name : String) (p : Move) (observed : Observed) (d : Decision) (fresh : Option State) :
    Bool → Prop where
  | kept {wrote : Bool} (pass : w.passes name = some ⟨p, .decided observed d fresh wrote⟩) :
      PassChange w w' name p observed d fresh wrote
  | observed {cluster : ClusterFacts} (pass : w.passes name = some ⟨p, .started⟩) (store : w'.store = w.store)
      (seen : observeLifecycle p w.store.volume cluster = .ok observed) (decided : observed.decide p = .ok d)
      (unread : fresh = none) : PassChange w w' name p observed d fresh false
  | retried (cancellable : cancellablePreparation p = .ok ()) (store : w'.store = w.store) (unread : fresh = none) :
      PassChange w w' name p observed d fresh false
  | reread {before : Option State} {wrote : Bool} (pass : w.passes name = some ⟨p, .decided observed d before wrote⟩)
      (store : w'.store = w.store) (read : fresh = w.store.volume) : PassChange w w' name p observed d fresh wrote
  | wrote {o : State} {kind : MobilityWrite} (pass : w.passes name = some ⟨p, .decided observed d fresh false⟩)
      (volume : observed.volume = some o) (action : d.action.volumeWrite = some kind)
      (applied : w.store.apply (.volume (.mobility kind p o)) = .ok w'.store) : PassChange w w' name p observed d fresh true
  | recorded {before : Move} {evidence : Evidence} {wrote : Bool}
      (pass : w.passes name = some ⟨before, .decided observed d fresh wrote⟩) (action : evidence.action = d.action)
      (volume : w'.store.volume = w.store.volume) : PassChange w w' name p observed d fresh wrote

theorem WorldStep.pass_change (hs : WorldStep w act w') (hpass : w'.passes name = some ⟨p, .decided observed d fresh wrote⟩) :
    PassChange w w' name p observed d fresh wrote := by
  -- a step sets the pass of one Move only
  have hset : ∀ {u : World} {other : String} {pass : Option Pass}, u.passes = w.passes →
      (u.setPass other pass).passes name = some ⟨p, .decided observed d fresh wrote⟩ →
      other = name ∧ pass = some ⟨p, .decided observed d fresh wrote⟩ ∨
        w.passes name = some ⟨p, .decided observed d fresh wrote⟩ := by
    intro u other pass hpasses h
    simp only [World.setPass, hpasses] at h
    split_ifs at h with hname
    · exact .inl ⟨hname.symm, h⟩
    · exact .inr h
  cases hs with
  | external allowed applied | announce idle stored fresh applied | journal pass owed applied => exact .kept hpass
  | start idle stored | finish pass complete current settled changed applied | unchanged | diagnose pass executing applied
  | leave =>
    rcases hset rfl hpass with ⟨-, h⟩ | h
    · simp at h
    · exact .kept h
  | observe pass seen decided =>
    rcases hset rfl hpass with ⟨rfl, h⟩ | h
    · simp only [Option.some.injEq, Pass.mk.injEq, Stage.decided.injEq] at h
      obtain ⟨rfl, rfl, rfl, rfl, rfl⟩ := h
      exact .observed pass rfl seen decided rfl
    · exact .kept h
  | retry pass retries cancellable open' current decided =>
    rcases hset rfl hpass with ⟨rfl, h⟩ | h
    · simp only [Option.some.injEq, Pass.mk.injEq, Stage.decided.injEq] at h
      obtain ⟨rfl, rfl, rfl, rfl, rfl⟩ := h
      exact .retried cancellable rfl rfl
    · exact .kept h
  | reread pass =>
    rcases hset rfl hpass with ⟨rfl, h⟩ | h
    · simp only [Option.some.injEq, Pass.mk.injEq, Stage.decided.injEq] at h
      obtain ⟨rfl, rfl, rfl, rfl, rfl⟩ := h
      exact .reread pass rfl rfl
    · exact .kept h
  | write pass volume action current settled applied =>
    rcases hset rfl hpass with ⟨rfl, h⟩ | h
    · simp only [Option.some.injEq, Pass.mk.injEq, Stage.decided.injEq] at h
      obtain ⟨rfl, rfl, rfl, rfl, rfl⟩ := h
      exact .wrote pass volume action applied
    · exact .kept h
  | evidence pass action recorded applied stored =>
    rcases hset rfl hpass with ⟨rfl, h⟩ | h
    · simp only [Option.some.injEq, Pass.mk.injEq, Stage.decided.injEq] at h
      obtain ⟨rfl, rfl, rfl, rfl, rfl⟩ := h
      refine .recorded pass action ?_
      cases Store.apply_inv applied with
      | move current accepted => rfl
    · exact .kept h

/-! ### Decisions -/

section Decisions
variable {state : LifecycleState} {obs : Observation}

abbrev Unrecovered (r : Except String Decision) : Prop := Yields (fun d => d.next.recoveryPhase = .unset) r

theorem unrecovered_stop {phase : MovePhase} {fallback : String} : Unrecovered (pure (blockedWith phase obs fallback)) :=
  .pure blockedWith_recovery

theorem unrecovered_step {source target : MovePhase} {action : Action} {reason : String} :
    Unrecovered (transition source target action reason) :=
  .step rfl

theorem decideCancellation_unrecovered (hunset : state.recoveryPhase = .unset) : Unrecovered (decideCancellation state obs) := by
  have stay : ∀ {a : Action}, Unrecovered (pure { next := state, action := a, reason := "" }) := .pure hunset
  exact .seq fun _ => .ite stay (.ite stay (.ite stay (.ite unrecovered_step (.ite stay stay))))

theorem decidePreparation_unrecovered {phase : MovePhase} : Unrecovered (decidePreparation phase obs) := by
  refine .seq fun _ => .ite unrecovered_step (.ite unrecovered_stop (.ite (.ite unrecovered_stop unrecovered_step) ?_))
  exact .ite unrecovered_step (.ite unrecovered_step (.ite unrecovered_step (.ite unrecovered_step unrecovered_step)))

theorem decideStartingDisruption_unrecovered {phase : MovePhase} : Unrecovered (decideStartingDisruption phase obs) :=
  .seq fun _ => .ite unrecovered_stop (.ite unrecovered_step (.ite unrecovered_stop unrecovered_step))

theorem decideMove_recovering (h : decideMove state obs = .ok d) (hne : d.next.recoveryPhase ≠ .unset) :
    state.phase = .blocked ∧ decideBlocked state obs = .ok d := by
  obtain ⟨hvalid, hroute⟩ := decideMove_route h
  obtain ⟨-, hrecovery, -⟩ := validateState_inv hvalid
  have hkeep : state.normalized.phase ≠ .blocked → state.normalized.recoveryPhase = .unset := fun hphase =>
    not_not.mp fun hset => hphase (hrecovery hset)
  cases hroute with
  | retired may authority plan claim reserved decided => exact absurd (unrecovered_step d decided) hne
  | settlement may decided => exact absurd (by rw [decided]) hne
  | history succeeded decided => exact absurd (by rw [decided]; exact hkeep (by simp [succeeded])) hne
  | cancellation undo decided =>
    have hunset := hkeep (by rcases undo with hp | hp <;> simp [hp])
    exact absurd (decideCancellation_unrecovered hunset d decided) hne
  | blocked phase decided =>
    have hphase := normalized_phase phase (by decide)
    rw [normalized_of_known (by simp [hphase])] at decided
    exact ⟨hphase, decided⟩
  | changed running unapproved reason decided =>
    exact absurd ((Yields.ite unrecovered_step unrecovered_stop : Unrecovered (preparationChanged _ _)) d decided) hne
  | preparation phase decided => exact absurd (decidePreparation_unrecovered d decided) hne
  | disruption phase decided => exact absurd (decideStartingDisruption_unrecovered d decided) hne
  | execution phase decided checked =>
    exact absurd (decideExecution_plain (executes_disrupted phase).1 d decided).recovery hne

theorem decideMove_recovery_cases {r : RecoveryPhase} (h : decideMove ⟨.blocked, r⟩ obs = .ok d)
    (hne : d.next.recoveryPhase ≠ .unset) :
    d.next.recoveryPhase = r ∧ (d.action = .finalizeHistory ∨ d.action = .finalizeSourceUsage) ∨
      (beforeExecutionApproval obs = false ∨ r ≠ .unset) ∧ decideRecovery ⟨.blocked, r⟩ obs = .ok d := by
  obtain ⟨-, hdecided⟩ := decideMove_recovering h hne
  unfold decideBlocked at hdecided
  split_ifs at hdecided with hrecovered hbefore hrequested
  · exact .inl (pure_ok.mp hdecided ▸ ⟨rfl, .inl rfl⟩)
  · exact .inl (pure_ok.mp hdecided ▸ ⟨rfl, .inr rfl⟩)
  · refine .inr ⟨?_, hdecided⟩
    by_cases hb : beforeExecutionApproval obs
    · exact .inr fun hr => hbefore ⟨hb, hr⟩
    · exact .inl (by simpa using hb)
  · exact .inl (pure_ok.mp hdecided ▸ ⟨rfl, .inr rfl⟩)

theorem decideMove_blocked_rule {r : RecoveryPhase} (h : decideMove ⟨.blocked, r⟩ obs = .ok d) :
    d.action = .wait ∨ d.action = .requestSettlement ∨ decideBlocked ⟨.blocked, r⟩ obs = .ok d := by
  obtain ⟨-, hroute⟩ := decideMove_route h
  rw [normalized_of_known (by simp)] at hroute
  cases hroute with
  | retired may authority plan claim reserved decided => exact .inl (by rw [transition_inv decided])
  | settlement may decided => exact .inr (.inl (by rw [decided]))
  | history succeeded => simp at succeeded
  | cancellation undo => simp at undo
  | blocked phase decided => exact .inr (.inr decided)
  | changed running => simp at running
  | preparation phase => simp at phase
  | disruption phase => simp at phase
  | execution phase => simp [MovePhase.executes] at phase

theorem decideMove_completeRecovery {r : RecoveryPhase} (h : decideMove ⟨.blocked, r⟩ obs = .ok d)
    (haction : d.action = .completeRecovery) : r = .completing := by
  rcases decideMove_blocked_rule h with hwait | hsettle | hrule
  · simp [haction] at hwait
  · simp [haction] at hsettle
  · unfold decideBlocked at hrule
    split_ifs at hrule
    · simp [← pure_ok.mp hrule] at haction
    · simp [← pure_ok.mp hrule] at haction
    · have hstep := (decideRecovery_inv hrule).2
      simp only [Prod.mk.injEq, haction, reduceCtorEq, and_false, false_or] at hstep
      exact hstep.1
    · simp [← pure_ok.mp hrule] at haction

theorem decideMove_completing_approved {r : RecoveryPhase} (h : decideMove ⟨.completing, r⟩ obs = .ok d)
    (happroved : obs.capacityApproved) :
    d.next.phase = .completing ∨ d.next.phase = .succeeded ∨ d.action = .requestSettlement := by
  have hafter : beforeExecutionApproval obs = false := by simp [beforeExecutionApproval, happroved]
  obtain ⟨-, hroute⟩ := decideMove_route h
  rw [normalized_of_known (by simp)] at hroute
  cases hroute with
  | retired may => simp [canCancelRetiredPreparation, hafter] at may
  | settlement may decided => exact .inr (.inr (by rw [decided]))
  | history succeeded => simp at succeeded
  | cancellation undo => simp at undo
  | blocked phase => simp at phase
  | changed running unapproved => simp [hafter] at unapproved
  | preparation phase => simp at phase
  | disruption phase => simp at phase
  | execution phase decided checked =>
    unfold decideExecution lifecycleGuard at decided
    split_ifs at decided with hne hready
    · exact absurd rfl hne
    · exact .inr (.inl (by rw [transition_inv decided]))
    · exact .inl (by rw [transition_inv decided])

end Decisions

/-! ### Statuses -/

structure Orderly (m : Move) : Prop where
  recovery : m.status.recoveryPhase ≠ .unset → m.status.phase = .blocked
  prepared : m.status.preparation.isSome → m.status.recoveryPhase = .unset
  unapproved : m.status.phase = .canceling ∨ m.status.phase = .cancelled → m.status.capacityApproved = false
  released : m.status.phase = .cancelled → m.status.preparation = none

theorem Orderly.of_eq (h : Orderly m) (hphase : n.lifecycle = m.lifecycle)
    (hpreparation : n.status.preparation.isSome → m.status.preparation.isSome ∨ m.status.phase = .preparing)
    (happroved : n.status.capacityApproved → m.status.capacityApproved ∨ m.status.phase = .waitingForCapacity) : Orderly n := by
  obtain ⟨hp, hr⟩ : n.status.phase = m.status.phase ∧ n.status.recoveryPhase = m.status.recoveryPhase := by
    simpa [Move.lifecycle] using hphase
  refine ⟨?_, ?_, ?_, ?_⟩
  · rw [hp, hr]
    exact h.recovery
  · intro hsome
    rw [hr]
    rcases hpreparation hsome with hbefore | hpreparing
    · exact h.prepared hbefore
    · by_contra hset
      simp [h.recovery hset] at hpreparing
  · intro hcancel
    rw [hp] at hcancel
    by_contra hset
    rcases happroved (by simpa using hset) with hbefore | hwaiting
    · simp [h.unapproved hcancel] at hbefore
    · simp [hwaiting] at hcancel
  · intro hcancelled
    rw [hp] at hcancelled
    by_contra hnone
    rcases hpreparation (Option.isSome_iff_ne_none.mpr hnone) with hbefore | hpreparing
    · simp [h.released hcancelled] at hbefore
    · simp [hpreparing] at hcancelled

theorem Decided.evidence_phase {h : List Store} (hd : Decided h p observed d fresh) :
    (d.action = .reservePreparation → p.status.phase = .preparing) ∧
      (d.action = .ensureCapacity → p.status.phase = .waitingForCapacity) := by
  have table : ∀ phase : MovePhase, ∀ x ∈ outcomes phase,
      (x.1 = .reservePreparation → phase = .preparing) ∧ (x.1 = .ensureCapacity → phase = .waitingForCapacity) := by
    intro phase
    cases phase <;> decide
  obtain ⟨hreserve, hcapacity⟩ := table _ _ hd.listed
  exact ⟨fun ha => normalized_phase (hreserve ha) (by decide), fun ha => normalized_phase (hcapacity ha) (by decide)⟩

theorem EvidenceWrite.kept {volume : Option State} {evidence : Evidence} {write : MoveWrite}
    (h : EvidenceWrite p volume fresh evidence write) (hsame : m.status = p.status) (hw : applyMoveWrite write m = .ok n) :
    (∀ hold, n.status.preparation = some hold →
      m.status.preparation = some hold ∨ ∃ pool nodeName podUID, evidence = .grant pool nodeName podUID) ∧
      (n.status.capacityApproved → m.status.capacityApproved ∨ evidence = .convert) := by
  cases h with
  | grant read granted =>
    obtain ⟨-, -, -, -, -, rfl⟩ := grantPreparation_inv granted
    rw [(applyMoveWrite_status hw).1, hsame]
    exact ⟨fun hold _ => .inr ⟨_, _, _, rfl⟩, .inl⟩
  | measure read source unmeasured =>
    rw [applyMoveWrite, seq_ok] at hw
    obtain ⟨-, -, -, -, rfl | rfl⟩ := recordSourceUsage_inv hw.2
    · exact ⟨fun _ => .inl, .inl⟩
    · exact ⟨fun _ => .inl, .inl⟩
  | deny =>
    rw [(applyMoveWrite_status hw).1, hsame]
    exact ⟨fun _ => .inl, .inl⟩
  | convert read converted =>
    obtain ⟨hold, source, -, -, -, -, rfl⟩ := convertPreparation_inv converted
    rw [(applyMoveWrite_status hw).1]
    exact ⟨fun hold h => by simp at h, fun _ => .inr rfl⟩
  | promotion promoted =>
    obtain rfl := ensurePromotion_inv promoted
    rw [(applyMoveWrite_status hw).1, hsame]
    exact ⟨fun _ => .inl, .inl⟩
  | scan read requested =>
    obtain ⟨-, -, rfl⟩ := ensureRollbackScan_inv requested
    rw [(applyMoveWrite_status hw).1, hsame]
    exact ⟨fun _ => .inl, .inl⟩
  | release read settled =>
    obtain ⟨owed, -, -, rfl⟩ := settleRecoveryArtifacts_inv settled
    rw [(applyMoveWrite_status hw).1, hsame]
    exact ⟨fun _ => .inl, fun h => by simp at h⟩

theorem EvidenceWrite.holds {volume : Option State} {evidence : Evidence} {write : MoveWrite}
    (h : EvidenceWrite p volume fresh evidence write) (hsame : m.status = p.status) (hw : applyMoveWrite write m = .ok n) :
    (n.status.preparation.isSome → m.status.preparation.isSome ∨ evidence.action = .reservePreparation) ∧
      (n.status.capacityApproved → m.status.capacityApproved ∨ evidence.action = .ensureCapacity) := by
  obtain ⟨hpreparation, happroved⟩ := h.kept hsame hw
  refine ⟨fun hsome => ?_, fun hset => (happroved hset).imp_right fun hevidence => by rw [hevidence]; rfl⟩
  obtain ⟨hold, hhold⟩ := Option.isSome_iff_exists.mp hsome
  rcases hpreparation hold hhold with hbefore | ⟨pool, nodeName, podUID, rfl⟩
  · exact .inl (by simp [hbefore])
  · exact .inr rfl

theorem finishedStatus_recoveryPhase {plan : WorkloadPlan} :
    (finishedStatus m observed d plan).recoveryPhase = d.next.recoveryPhase := by
  obtain ⟨reason, h⟩ := finishedStatus_eq m observed d plan
  rw [h]

theorem finishedStatus_preparation {plan : WorkloadPlan} (h : (finishedStatus m observed d plan).preparation.isSome) :
    m.status.preparation.isSome ∧ d.action ≠ .releasePreparation := by
  obtain ⟨reason, heq⟩ := finishedStatus_eq m observed d plan
  rw [heq] at h
  cases ha : d.action <;> simp_all [Action.stage]

theorem Move.Prepared.noEffect {hold : MovePreparation} (h : m.Prepared hold) : noDestinationEffectIntent m := by
  have hintent := h.noIntent
  simp only [Move.hasDestinationIntent, Bool.or_eq_false_iff, Option.isSome_eq_false_iff, Option.isNone_iff_eq_none, ne_eq,
    decide_not, Bool.not_eq_false', decide_eq_true_eq] at hintent
  obtain ⟨⟨⟨⟨⟨⟨⟨hincoming, hdestination⟩, hcopy⟩, hpromotion⟩, hcopyJob⟩, hpromotionJob⟩, -⟩, -⟩ := hintent
  simp [noDestinationEffectIntent, hincoming, hdestination, hcopy, hpromotion, hcopyJob, hpromotionJob]

theorem Decided.plain {h : List Store} (hd : Decided h p observed d fresh) (hplain : ∀ evidence : Evidence, evidence.action ≠ d.action) :
    observed.decide p = .ok d := by
  obtain ⟨read, -, -, -, hdecide, rfl | ⟨evidence, haction⟩⟩ := hd.decided
  · exact hdecide
  · exact absurd haction (hplain evidence)

theorem Orderly.finished {h : List Store} {plan : WorkloadPlan} (hp : Orderly p)
    (hbefore : p.status.preparation.isSome → p.status.capacityApproved = false ∧ noDestinationEffectIntent p) (hd : Decided h p observed d fresh)
    (hstatus : n.status = finishedStatus p observed d plan) : Orderly n := by
  obtain ⟨read, -, -, hlife, hdecide, -⟩ := hd.decided
  have hmove := (Observed.decide_inv hdecide).1
  rw [hlife] at hmove
  obtain ⟨-, -, hcancelled⟩ := outcomes_release _ _ hd.listed
  refine ⟨?_, ?_, ?_, ?_⟩
  · intro hset
    rw [hstatus, finishedStatus_recoveryPhase] at hset
    rw [hstatus, finishedStatus_phase]
    obtain ⟨hblocked, hrule⟩ := decideMove_recovering hmove hset
    exact decideBlocked_phase hblocked hrule
  · -- a Move that still has its preparation has no authority a recovery could take
    intro hsome
    rw [hstatus] at hsome ⊢
    rw [finishedStatus_recoveryPhase]
    by_contra hset
    obtain ⟨hsome, -⟩ := finishedStatus_preparation hsome
    have hlifecycle : p.lifecycle = ⟨.blocked, .unset⟩ := by
      rw [← (decideMove_recovering hmove hset).1, ← hp.prepared hsome]
      rfl
    rw [hlifecycle] at hmove
    rcases decideMove_recovery_cases hmove hset with ⟨hkept, -⟩ | ⟨-, hadvance⟩
    · exact hset hkept
    · have haction : d.action = .beginRecovery := by
        have := (decideRecovery_inv hadvance).2
        simp only [Prod.mk.injEq, reduceCtorEq, false_and, or_false, true_and] at this
        exact this.2
      have hown := (Observed.decide_inv (hd.plain fun evidence h => by cases evidence <;> simp_all [Evidence.action])).1
      rw [hlifecycle] at hown
      rcases decideMove_recovery_cases hown hset with ⟨hkept, -⟩ | ⟨hlate | hlate, -⟩
      · exact hset hkept
      · obtain ⟨hunapproved, hnoEffect⟩ := hbefore hsome
        simp [beforeExecutionApproval, lifecycleFacts, hunapproved, hnoEffect] at hlate
      · exact hlate rfl
  · intro hcancel
    rw [hstatus, finishedStatus_phase] at hcancel
    rw [hstatus, finishedStatus_capacityApproved]
    rcases hcancel with hnext | hnext
    · have hactions : ∀ phase : MovePhase, ∀ x ∈ outcomes phase, x.2 = .canceling →
          x.1 = .wait ∨ x.1 = .claimSource ∨ x.1 = .restoreSource ∨ x.1 = .deletePlacement := by
        intro phase
        cases phase <;> decide
      have haction := hactions _ _ hd.listed hnext
      have hown := hd.plain fun evidence h => by
        rw [← h] at haction
        cases evidence <;> simp [Evidence.action] at haction
      have hcancellable := (Observed.decide_inv hown).2 hnext
      rw [cancellablePreparation, seq_ok, require_ok, require_ok] at hcancellable
      simpa using hcancellable.2.1
    · refine hp.unapproved ?_
      rcases hcancelled hnext with hphase | haction
      · exact .inr (normalized_phase hphase (by decide))
      · exact .inl (normalized_phase ((outcomes_release _ _ hd.listed).1 haction) (by decide))
  · intro hnext
    rw [hstatus, finishedStatus_phase] at hnext
    by_contra hnone
    rw [hstatus] at hnone
    obtain ⟨hsome, haction⟩ := finishedStatus_preparation (Option.isSome_iff_ne_none.mpr hnone)
    rcases hcancelled hnext with hphase | hrelease
    · simp [hp.released (normalized_phase hphase (by decide))] at hsome
    · exact haction hrelease

theorem Orderly.change (hm : Orderly m) (hw : WorldSound w) (hstored : w.store.moves.find name = some m)
    (hchange : StatusChange w name m n) : Orderly n := by
  have htransfer : ∀ {k : Move}, m.status = k.status → Orderly k := by
    intro k hsame
    exact ⟨hsame ▸ hm.recovery, hsame ▸ hm.prepared, hsame ▸ hm.unapproved, hsame ▸ hm.released⟩
  cases hchange with
  | kept same => exact htransfer same.symm
  | announced fresh status =>
    have hstatus : n.status = { MoveStatus.empty with phase := .pending } := by rw [status, fresh]
    exact ⟨by simp [hstatus, MoveStatus.empty], by simp [hstatus, MoveStatus.empty], by simp [hstatus], by simp [hstatus]⟩
  | diagnosed executing status =>
    refine hm.of_eq (by rw [Move.lifecycle, status]; rfl) ?_ ?_
    · rw [status]
      exact .inl
    · rw [status]
      exact .inl
  | evidence pass same action recorded accepted =>
    have hd := hw.decided pass
    obtain ⟨hpreparation, happroved⟩ := recorded.holds same accepted
    refine hm.of_eq ?_ ?_ ?_
    · rw [recorded.lifecycle accepted same, Move.lifecycle, Move.lifecycle, same]
    · intro hsome
      exact (hpreparation hsome).imp id fun ha => by rw [same]; exact hd.evidence_phase.1 (action ▸ ha)
    · intro hsome
      exact (happroved hsome).imp id fun ha => by rw [same]; exact hd.evidence_phase.2 (action ▸ ha)
  | @finished p observed d fresh wrote plan pass same complete settled status =>
    refine (htransfer same).finished (fun hsome => ?_) (hw.decided pass) status
    obtain ⟨hold, hhold⟩ := Option.isSome_iff_exists.mp hsome
    have hprepared := (hw.coherent.bound name m hstored).sound.prepared hold (same ▸ hhold)
    have hnoEffect := hprepared.noEffect
    rw [noDestinationEffectIntent, same] at hnoEffect
    exact ⟨same ▸ hprepared.unapproved, hnoEffect⟩

/-! ### Holds -/

/-- The Move holds capacity, and is not about to complete. -/
def Move.Holds (m : Move) : Prop :=
  m.status.preparation.isSome ∨
    m.status.capacityApproved ∧ m.status.phase ≠ .completing ∧ m.status.phase ≠ .succeeded

/-- Every hold has its lock. The other fields say what passes in flight and recoveries rely on for it. -/
structure Held (w : World) : Prop where
  locked : ∀ name m, w.store.moves.find name = some m → m.Holds → Locked w name
  granting : ∀ name p observed d fresh wrote v, w.passes name = some ⟨p, .decided observed d fresh wrote⟩ →
    d.action = .reservePreparation → fresh = some v → v.activeMove = name → Locked w name
  settling : ∀ name p observed d fresh, w.passes name = some ⟨p, .decided observed d fresh true⟩ →
    d.action = .requestSettlement → Locked w name
  recovering : ∀ name p observed d fresh wrote, w.passes name = some ⟨p, .decided observed d fresh wrote⟩ →
    p.status.phase = .blocked → p.status.capacityApproved → d.action = .verifyRecovery ∨ d.action = .resumeRecovery →
    ∃ o, observed.volume = some o ∧ ∀ v, w.store.volume = some v → v.ownerNode = o.ownerNode
  resumed : ∀ name m, w.store.moves.find name = some m → m.status.capacityApproved → m.status.recoveryPhase = .resuming →
    ∃ v, w.store.volume = some v ∧ v.ownerNode ≠ "" ∧ v.ownerNode = m.status.destinationNode
  recovered : ∀ name m, w.store.moves.find name = some m → m.status.capacityApproved →
    m.status.recoveryPhase ≠ .completing ∧ m.status.recoveryPhase ≠ .recovered

theorem Held.unlocks (h : Held w) (hw : WorldSound w) (hm : w.store.moves.find name = some m) (horder : Orderly m)
    (hcopies : m.status.phase.copies → m.status.capacityApproved)
    (hpass : w.passes name = some ⟨p, .decided observed d fresh wrote⟩) (hunlocks : d.action.unlocks) : ¬m.Holds := by
  have hd := hw.decided hpass
  have hsound := (hw.coherent.bound name m hm).sound
  obtain ⟨k, hk, hstatus⟩ := (hw.passes name _ hpass).stored
  obtain rfl : m = k := Option.some.inj (hm.symm.trans hk)
  have hphases : ∀ phase : MovePhase, ∀ x ∈ outcomes phase, (x.1 = .releaseSource → phase = .cancelled) ∧
      (x.1 = .markSucceeded → phase = .completing) ∧ (x.1 = .completeRecovery → phase = .blocked) := by
    intro phase
    cases phase <;> decide
  obtain ⟨hrelease, hsucceed, hcomplete⟩ := hphases _ _ hd.listed
  simp only [Action.unlocks, Bool.or_eq_true, decide_eq_true_eq, or_assoc] at hunlocks
  rcases hunlocks with ha | ha | ha
  · have hphase : m.status.phase = .cancelled := by rw [hstatus]; exact normalized_phase (hrelease ha) (by decide)
    rintro (hsome | ⟨happroved, -⟩)
    · simp [horder.released hphase] at hsome
    · simp [horder.unapproved (.inr hphase)] at happroved
  · have hphase : m.status.phase = .completing := by rw [hstatus]; exact normalized_phase (hsucceed ha) (by decide)
    rintro (hsome | ⟨-, hne, -⟩)
    · obtain ⟨hold, hhold⟩ := Option.isSome_iff_exists.mp hsome
      have happroved := hcopies (by simp [hphase, MovePhase.copies])
      simp [(hsound.prepared hold hhold).unapproved] at happroved
    · exact hne hphase
  · have hblocked : p.status.phase = .blocked := normalized_phase (hcomplete ha) (by decide)
    have hmove := (Observed.decide_inv (hd.plain fun evidence h => by cases evidence <;> simp_all [Evidence.action])).1
    have hrecovery : m.status.recoveryPhase = .completing := by
      rw [hstatus]
      rw [Move.lifecycle, hblocked] at hmove
      exact decideMove_completeRecovery hmove ha
    rintro (hsome | ⟨happroved, -⟩)
    · simp [horder.prepared hsome] at hrecovery
    · exact (h.recovered name m hm happroved).1 hrecovery

theorem Decided.completing {h : List Store} (hd : Decided h p observed d fresh) (happroved : p.status.capacityApproved)
    (hphase : p.status.phase = .completing ∨ p.status.phase = .succeeded) :
    d.next.phase = .completing ∨ d.next.phase = .succeeded ∨ d.action = .requestSettlement := by
  have hlisted := hd.listed
  rcases hphase with hphase | hphase
  · have hplain : ∀ evidence : Evidence, evidence.action ≠ d.action := by
      rw [normalized_of_known (by simp [Move.lifecycle, hphase])] at hlisted
      simp only [Decision.Listed, Move.lifecycle, hphase, outcomes, stops, List.cons_append, List.nil_append, List.mem_cons,
        Prod.mk.injEq, List.not_mem_nil] at hlisted
      intro evidence
      cases evidence <;> simp only [Evidence.action] <;> grind
    have hmove := (Observed.decide_inv (hd.plain hplain)).1
    rw [Move.lifecycle, hphase] at hmove
    exact decideMove_completing_approved hmove happroved
  · rw [normalized_of_known (by simp [Move.lifecycle, hphase])] at hlisted
    simp only [Decision.Listed, Move.lifecycle, hphase, outcomes, List.mem_singleton, Prod.mk.injEq] at hlisted
    exact .inr (.inl hlisted.2)

/-- Where a hold comes from: it was there, its preparation was granted on a locked Volume, or a settlement takes it over. -/
theorem StatusChange.holds (hchange : StatusChange w name m n) (hw : WorldSound w) (hholds : n.Holds) :
    m.Holds ∨
      (∃ p observed d fresh wrote v, w.passes name = some ⟨p, .decided observed d fresh wrote⟩ ∧ d.action = .reservePreparation ∧
        fresh = some v ∧ v.activeMove = name) ∨
      ∃ p observed d fresh, w.passes name = some ⟨p, .decided observed d fresh true⟩ ∧ d.action = .requestSettlement := by
  cases hchange with
  | kept same =>
    rw [Move.Holds, same] at hholds
    exact .inl hholds
  | announced fresh status => simp [Move.Holds, status, fresh, MoveStatus.empty] at hholds
  | diagnosed executing status =>
    rw [Move.Holds, status] at hholds
    exact .inl hholds
  | @evidence p observed d fresh wrote evidence write pass same action recorded accepted =>
    by_cases hbefore : m.Holds
    · exact .inl hbefore
    obtain ⟨hpreparation, happroved⟩ := recorded.holds same accepted
    have hphase := recorded.phase accepted same
    rcases hholds with hsome | ⟨hset, hcompleting, hsucceeded⟩
    · rcases hpreparation hsome with hprepared | hgrant
      · exact .inl (.inl hprepared)
      · refine .inr (.inl ?_)
        cases recorded with
        | @grant pool nodeName podUID v status read granted =>
          obtain ⟨-, hlock, -⟩ := grantPreparation_inv granted
          exact ⟨p, observed, d, fresh, wrote, v, pass, action ▸ rfl, read, hlock.trans (hw.passes name _ pass).named⟩
        | _ => simp [Evidence.action] at hgrant
    · rcases happroved hset with happroved | hconvert
      · exact .inl (.inr ⟨happroved, hphase ▸ hcompleting, hphase ▸ hsucceeded⟩)
      · -- the conversion finds the preparation it converts
        cases recorded with
        | convert read converted =>
          obtain ⟨hold, source, hprepared, -⟩ := convertPreparation_inv converted
          exact .inl (.inl (by rw [same, hprepared.held]; rfl))
        | measure read source unmeasured =>
          rw [applyMoveWrite, seq_ok] at accepted
          obtain ⟨-, -, -, -, rfl | rfl⟩ := recordSourceUsage_inv accepted.2
          · exact absurd (.inr ⟨hset, hcompleting, hsucceeded⟩) hbefore
          · exact absurd (.inr ⟨hset, hcompleting, hsucceeded⟩) hbefore
        | deny =>
          rw [(applyMoveWrite_status accepted).1] at hset
          exact .inl (.inr ⟨same ▸ hset, hphase ▸ hcompleting, hphase ▸ hsucceeded⟩)
        | _ => simp [Evidence.action] at hconvert
  | @finished p observed d fresh wrote plan pass same complete settled status =>
    rcases hholds with hsome | ⟨hset, hcompleting, hsucceeded⟩
    · rw [status] at hsome
      exact .inl (.inl (same ▸ (finishedStatus_preparation hsome).1))
    · by_cases hbefore : m.status.phase = .completing ∨ m.status.phase = .succeeded
      · have hd := hw.decided pass
        have happroved : p.status.capacityApproved := by rwa [status, finishedStatus_capacityApproved] at hset
        rw [status, finishedStatus_phase] at hcompleting hsucceeded
        rcases hd.completing happroved (same ▸ hbefore) with hnext | hnext | haction
        · exact absurd hnext hcompleting
        · exact absurd hnext hsucceeded
        · simp only [haction, Action.complete] at complete
          exact .inr (.inr ⟨p, observed, d, fresh, complete ▸ pass, haction⟩)
      · rw [not_or] at hbefore
        refine .inl (.inr ⟨?_, hbefore⟩)
        rwa [status, finishedStatus_capacityApproved, ← same] at hset

theorem StatusChange.recovers (hchange : StatusChange w name m n) (hw : WorldSound w) (horder : Orderly m)
    (happroved : n.status.capacityApproved) (hset : n.status.recoveryPhase ≠ .unset) :
    m.status.capacityApproved ∧ (m.status.recoveryPhase = n.status.recoveryPhase ∨
      ∃ p observed d fresh wrote obs, w.passes name = some ⟨p, .decided observed d fresh wrote⟩ ∧ m.status = p.status ∧
        p.status.phase = .blocked ∧ d.next.recoveryPhase = n.status.recoveryPhase ∧
        decideRecovery ⟨.blocked, p.status.recoveryPhase⟩ obs = .ok d ∧
        ((∀ evidence : Evidence, evidence.action ≠ d.action) → obs = lifecycleFacts p observed.volume observed.facts) ∧
        d.action.complete p d.next.phase observed.volume w.store.volume wrote) := by
  cases hchange with
  | kept same => exact ⟨same ▸ happroved, .inl (by rw [same])⟩
  | announced fresh status => simp [status, fresh, MoveStatus.empty] at hset
  | diagnosed executing status =>
    rw [status] at happroved ⊢
    exact ⟨happroved, .inl rfl⟩
  | evidence pass same action recorded accepted =>
    have hlife : n.lifecycle = m.lifecycle := by
      rw [recorded.lifecycle accepted same, Move.lifecycle, Move.lifecycle, same]
    have hrecovery : n.status.recoveryPhase = m.status.recoveryPhase := by simpa [Move.lifecycle] using congrArg (·.recoveryPhase) hlife
    refine ⟨?_, .inl hrecovery.symm⟩
    rcases (recorded.holds same accepted).2 happroved with hbefore | hcapacity
    · exact hbefore
    · have hwaiting := (hw.decided pass).evidence_phase.2 (action ▸ hcapacity)
      have hblocked := horder.recovery (hrecovery ▸ hset)
      simp [same, hwaiting] at hblocked
  | @finished p observed d fresh wrote plan pass same complete settled status =>
    rw [status, finishedStatus_capacityApproved, ← same] at happroved
    refine ⟨happroved, ?_⟩
    rw [status, finishedStatus_recoveryPhase] at hset ⊢
    obtain ⟨read, -, -, hlife, hdecide, hread⟩ := (hw.decided pass).decided
    have hmove := (Observed.decide_inv hdecide).1
    rw [hlife] at hmove
    have hblocked : p.status.phase = .blocked := (decideMove_recovering hmove hset).1
    rw [Move.lifecycle, hblocked] at hmove
    rcases decideMove_recovery_cases hmove hset with ⟨hkept, -⟩ | ⟨-, hadvance⟩
    · exact .inl (by rw [same, hkept])
    · refine .inr ⟨p, observed, d, fresh, wrote, _, pass, same, hblocked, rfl, hadvance, fun hplain => ?_, complete⟩
      rcases hread with rfl | ⟨evidence, haction⟩
      · rfl
      · exact absurd haction (hplain evidence)

theorem Store.apply_mobility {s t : Store} {kind : MobilityWrite} (h : s.apply (.volume (.mobility kind p o)) = .ok t) :
    ∃ v x, s.volume = some v ∧ t.volume = some x ∧ applyMobilityWrite kind p o v = .ok x := by
  cases Store.apply_inv h with
  | @volume _ v x current accepted => exact ⟨v, x, current, rfl, accepted⟩

theorem observeLifecycle_recovering {volume : Option State} {cluster : ClusterFacts}
    (h : observeLifecycle p volume cluster = .ok observed) (hphase : p.status.phase = .blocked)
    (hneeds : needsRecoveryObservation p) : observed.volume = volume := by
  have hopen : p.status.recoveryPhase ≠ .recovered := by
    simp only [needsRecoveryObservation, Bool.and_eq_true, decide_eq_true_eq] at hneeds
    exact hneeds.1.2
  simp only [observeLifecycle, hphase, if_neg hopen] at h
  rw [observeBlockedLifecycle, seq_ok] at h
  replace h := h.2
  split at h
  · rename_i r hr
    obtain ⟨state, rfl, hr⟩ := Option.bind_eq_some_iff.mp hr
    exact observeWorkloadRetirement_volume hr h
  · rw [if_pos hneeds] at h
    exact observeRecovery_volume h

def Action.recovers : Action → Bool
  | .beginRecovery | .quiesceRecovery | .verifyRecovery | .retireRecovery | .resumeRecovery | .completeRecovery => true
  | _ => false

theorem needsRecovery_of_decide (hdecide : observed.decide p = .ok d) (hphase : p.status.phase = .blocked)
    (haction : d.action.recovers) : needsRecoveryObservation p := by
  have hmove := (Observed.decide_inv hdecide).1
  rw [Move.lifecycle, hphase] at hmove
  rcases decideMove_blocked_rule hmove with hwait | hsettle | hrule
  · simp [hwait, Action.recovers] at haction
  · simp [hsettle, Action.recovers] at haction
  · unfold decideBlocked at hrule
    split_ifs at hrule with hrecovered hbefore hrequested
    · simp [← pure_ok.mp hrule, Action.recovers] at haction
    · simp [← pure_ok.mp hrule, Action.recovers] at haction
    · simp only at hrecovered
      have hasked : recoveryRequested p := hrequested
      have hopen : p.status.capacityApproved ∨ noDestinationEffectIntent p = false ∨ p.status.recoveryPhase ≠ .unset := by
        by_contra hnone
        simp only [not_or, Bool.not_eq_true, Bool.not_eq_false, not_not] at hnone
        exact hbefore (by simp [beforeExecutionApproval, lifecycleFacts, hnone])
      simpa [needsRecoveryObservation, hphase, hrecovered, hasked, or_assoc] using hopen
    · simp [← pure_ok.mp hrule, Action.recovers] at haction

section Step
variable (h : Held w) (hw : WorldSound w) (hs : WorldStep w act w')
include h hw hs

omit h in
theorem lock_kept (hlock : Locked w name) (hpass : w.passes name = some ⟨p, .decided observed d fresh wrote⟩)
    (hkeeps : d.action.unlocks = false) : Locked w' name := by
  obtain ⟨k, hk, -⟩ := (hw.passes name _ hpass).stored
  have hname : name ≠ "" := Table.key_of_find hk ▸ (hw.coherent.bound name k hk).named
  rcases hlock.step hname hw hs with hkept | ⟨p', observed', d', fresh', hpass', hunlocks⟩
  · exact hkept
  · rw [hpass, Option.some.injEq, Pass.mk.injEq, Stage.decided.injEq] at hpass'
    simp [← hpass'.2.2.1, hkeeps] at hunlocks

theorem Held.locked_step (horder : ∀ name m, w.store.moves.find name = some m → Orderly m)
    (hcopies : ∀ name m, w.store.moves.find name = some m → m.status.phase.copies → m.status.capacityApproved)
    (hn : w'.store.moves.find name = some n) (hholds : n.Holds) : Locked w' name := by
  rcases hw.move_origin hs hn with ⟨m, hm, hstep, hchange⟩ | ⟨-, uid, node, rfl, -⟩
  · have hname : name ≠ "" := Table.key_of_find hm ▸ (hw.coherent.bound name m hm).named
    rcases hchange.holds hw hholds with hbefore | ⟨p, obs, d, fresh, wrote, v, hpass, ha, hread, hlock⟩ | ⟨p, obs, d, fresh, hpass, ha⟩
    · rcases (h.locked name m hm hbefore).step hname hw hs with hkept | ⟨p, obs, d, fresh, hpass, hunlocks⟩
      · exact hkept
      · exact absurd hbefore (h.unlocks hw hm (horder name m hm) (hcopies name m hm) hpass hunlocks)
    · exact lock_kept hw hs (h.granting name p obs d fresh wrote v hpass ha hread hlock) hpass (by simp [ha, Action.unlocks])
    · exact lock_kept hw hs (h.settling name p obs d fresh hpass ha) hpass (by simp [ha, Action.unlocks])
  · simp [Move.Holds, createMove, MoveStatus.empty] at hholds

theorem Held.granting_step (hpass : w'.passes name = some ⟨p, .decided observed d fresh wrote⟩)
    (ha : d.action = .reservePreparation) (hread : fresh = some v) (hlock : v.activeMove = name) : Locked w' name := by
  cases hs.pass_change hpass with
  | kept pass => exact lock_kept hw hs (h.granting name p observed d fresh wrote v pass ha hread hlock) pass (by simp [ha, Action.unlocks])
  | observed pass store seen decided unread | retried cancellable store unread => simp [unread] at hread
  | reread pass store read => exact ⟨v, by rw [store, ← read, hread], hlock⟩
  | wrote pass volume action applied => simp [ha, Action.volumeWrite] at action
  | recorded pass action volume =>
    obtain ⟨x, hx, hxlock⟩ := h.granting name _ observed d fresh wrote v pass ha hread hlock
    exact ⟨x, volume ▸ hx, hxlock⟩

theorem Held.settling_step (hpass : w'.passes name = some ⟨p, .decided observed d fresh true⟩)
    (ha : d.action = .requestSettlement) : Locked w' name := by
  generalize hwrote : true = wrote at hpass
  cases hs.pass_change hpass with
  | kept pass => exact lock_kept hw hs (h.settling name p observed d fresh (hwrote ▸ pass) ha) pass (by simp [ha, Action.unlocks])
  | observed pass store seen decided unread => simp at hwrote
  | retried cancellable store unread => simp at hwrote
  | reread pass store read =>
    obtain ⟨x, hx, hxlock⟩ := h.settling name p observed d _ (hwrote ▸ pass) ha
    exact ⟨x, store ▸ hx, hxlock⟩
  | @wrote o kind pass volume action applied =>
    obtain rfl : kind = .requestSettlement := by simpa [ha, Action.volumeWrite, eq_comm] using action
    obtain ⟨v, x, -, hx, hwrite⟩ := Store.apply_mobility applied
    obtain ⟨hkept, hlock, -⟩ := requestWorkloadSettlement_inv hwrite
    refine ⟨x, hx, ?_⟩
    rw [hkept.record, ← (hw.passes name _ pass).named]
    exact hlock
  | @recorded before evidence wrote pass action volume => cases evidence <;> simp [Evidence.action, ha] at action

theorem Held.owner_kept (hm : w.store.moves.find name = some m) (hblocked : m.status.phase = .blocked)
    (happroved : m.status.capacityApproved) :
    ∃ v, w.store.volume = some v ∧ ∀ x, w'.store.volume = some x → x.ownerNode = v.ownerNode := by
  have hlock := h.locked name m hm (.inr ⟨happroved, by simp [hblocked], by simp [hblocked]⟩)
  have hname : name ≠ "" := Table.key_of_find hm ▸ (hw.coherent.bound name m hm).named
  have ⟨v, hv, _⟩ := hlock
  refine ⟨v, hv, fun x hx => hlock.owner hname hw hs ?_ hv hx⟩
  intro p observed d fresh hpass ha
  exact hw.commit_unblocked hm hpass (by simp [ha, Action.volumeWrite]) hblocked

theorem Held.recovering_step (hpass : w'.passes name = some ⟨p, .decided observed d fresh wrote⟩)
    (hblocked : p.status.phase = .blocked) (happroved : p.status.capacityApproved)
    (ha : d.action = .verifyRecovery ∨ d.action = .resumeRecovery) :
    ∃ o, observed.volume = some o ∧ ∀ v, w'.store.volume = some v → v.ownerNode = o.ownerNode := by
  have hkept : ∀ {fresh wrote}, w.passes name = some ⟨p, .decided observed d fresh wrote⟩ →
      ∃ o, observed.volume = some o ∧ ∀ v, w'.store.volume = some v → v.ownerNode = o.ownerNode := by
    intro fresh wrote pass
    obtain ⟨m, hm, hstatus⟩ := (hw.passes name _ pass).stored
    obtain ⟨o, ho, howner⟩ := h.recovering name p observed d fresh wrote pass hblocked happroved ha
    obtain ⟨v, hv, hsame⟩ := h.owner_kept hw hs hm (hstatus ▸ hblocked) (hstatus ▸ happroved)
    exact ⟨o, ho, fun x hx => (hsame x hx).trans (howner v hv)⟩
  cases hs.pass_change hpass with
  | kept pass | reread pass store read | wrote pass volume action applied => exact hkept pass
  | observed pass store seen decided unread =>
    obtain ⟨m, hm, hstatus⟩ := (hw.passes name _ pass).stored
    have hphase : m.status.phase = .blocked := hstatus ▸ hblocked
    obtain ⟨v, hv, -⟩ := h.locked name m hm (.inr ⟨hstatus ▸ happroved, by simp [hphase], by simp [hphase]⟩)
    have hrecovers : d.action.recovers := by rcases ha with ha | ha <;> simp [ha, Action.recovers]
    have hvolume := observeLifecycle_recovering seen hblocked (needsRecovery_of_decide decided hblocked hrecovers)
    refine ⟨v, hvolume.trans hv, fun x hx => ?_⟩
    rw [store, hv] at hx
    rw [Option.some.inj hx]
  | retried cancellable store unread =>
    rw [cancellablePreparation, seq_ok, require_ok, require_ok] at cancellable
    exact absurd happroved cancellable.2.1
  | @recorded before evidence wrote pass action volume =>
    rw [← action] at ha
    cases evidence <;> simp [Evidence.action] at ha

theorem Held.resumed_step (horder : ∀ name m, w.store.moves.find name = some m → Orderly m)
    (hn : w'.store.moves.find name = some n) (hlock : Locked w' name) (happroved : n.status.capacityApproved)
    (hresuming : n.status.recoveryPhase = .resuming) :
    ∃ v, w'.store.volume = some v ∧ v.ownerNode ≠ "" ∧ v.ownerNode = n.status.destinationNode := by
  rcases hw.move_origin hs hn with ⟨m, hm, hstep, hchange⟩ | ⟨-, uid, node, rfl, -⟩
  · have hset : n.status.recoveryPhase ≠ .unset := by simp [hresuming]
    obtain ⟨hbefore, hrecovery⟩ := hchange.recovers hw (horder name m hm) happroved hset
    have hk := Continues.of_change hstep
    obtain ⟨x, hx, -⟩ := hlock
    -- where the owner of the Volume was the destination before the step, it still is
    have htransport : m.status.phase = .blocked → (∃ v, w.store.volume = some v ∧ v.ownerNode ≠ "" ∧
        v.ownerNode = m.status.destinationNode) →
        ∃ v, w'.store.volume = some v ∧ v.ownerNode ≠ "" ∧ v.ownerNode = n.status.destinationNode := by
      rintro hblocked ⟨v, hv, hne, hnode⟩
      obtain ⟨v', hv', hsame⟩ := h.owner_kept hw hs hm hblocked hbefore
      obtain rfl : v = v' := Option.some.inj (hv.symm.trans hv')
      refine ⟨x, hx, by rwa [hsame x hx], ?_⟩
      rw [hsame x hx, hk.node (hnode ▸ hne), hnode]
    rcases hrecovery with hsame | ⟨p, observed, d, fresh, wrote, obs, pass, same, hblocked, hnext, hadvance, hobs, complete⟩
    · rw [hresuming] at hsame
      exact htransport ((horder name m hm).recovery (by simp [hsame])) (h.resumed name m hm hbefore hsame)
    · obtain ⟨-, hcases⟩ := decideRecovery_inv hadvance
      rw [hnext, hresuming] at hcases
      simp only [Prod.mk.injEq] at hcases
      rcases hcases with ⟨-, hc, -⟩ | ⟨-, hc, -⟩ | ⟨hr, hc, ha⟩ | ⟨-, -, ha⟩ | ⟨-, hc, -⟩ | ⟨-, hc, -⟩
      · simp at hc
      · simp at hc
      · have hplain : ∀ evidence : Evidence, evidence.action ≠ d.action := by
          intro evidence
          cases evidence <;> simp [Evidence.action, ha]
        split_ifs at hc with howner
        obtain ⟨o, ho, hseen⟩ := h.recovering name p observed d fresh wrote pass hblocked (same ▸ hbefore) (.inl ha)
        obtain ⟨v, hv, -⟩ := h.locked name m hm (.inr ⟨hbefore, by simp [same, hblocked], by simp [same, hblocked]⟩)
        refine htransport (same ▸ hblocked) ⟨v, hv, ?_⟩
        rw [hobs hplain] at howner
        simpa [lifecycleFacts, ho, hseen v hv, same] using howner.1
      · simp only [ha, Action.complete, Bool.and_eq_true, Bool.not_eq_true'] at complete
        simp [same, complete.2] at hbefore
      · split_ifs at hc
      · simp at hc
  · simp [createMove, MoveStatus.empty] at hresuming

theorem Held.recovered_step (horder : ∀ name m, w.store.moves.find name = some m → Orderly m)
    (hn : w'.store.moves.find name = some n) (happroved : n.status.capacityApproved) :
    n.status.recoveryPhase ≠ .completing ∧ n.status.recoveryPhase ≠ .recovered := by
  rw [← not_or]
  intro hlate
  have hset : n.status.recoveryPhase ≠ .unset := by rcases hlate with hp | hp <;> simp [hp]
  rcases hw.move_origin hs hn with ⟨m, hm, hstep, hchange⟩ | ⟨-, uid, node, rfl, -⟩
  · obtain ⟨hbefore, hrecovery⟩ := hchange.recovers hw (horder name m hm) happroved hset
    have hopen := h.recovered name m hm hbefore
    rcases hrecovery with hsame | ⟨p, observed, d, fresh, wrote, obs, pass, same, hblocked, hnext, hadvance, hobs, complete⟩
    · rw [← hsame] at hlate
      exact hlate.elim hopen.1 hopen.2
    · obtain ⟨-, hcases⟩ := decideRecovery_inv hadvance
      rw [hnext] at hcases
      simp only [Prod.mk.injEq] at hcases
      rcases hcases with ⟨-, hc, -⟩ | ⟨-, hc, -⟩ | ⟨-, hc, -⟩ | ⟨-, -, ha⟩ | ⟨hr, hc, ha⟩ | ⟨hr, -, -⟩
      · simp [hc] at hlate
      · simp [hc] at hlate
      · rw [hc] at hlate
        split_ifs at hlate <;> simp at hlate
      · simp only [ha, Action.complete, Bool.and_eq_true, Bool.not_eq_true'] at complete
        simp [same, complete.2] at hbefore
      · -- a destination owner retires its source first, and the owner has not changed since
        have hplain : ∀ evidence : Evidence, evidence.action ≠ d.action := by
          intro evidence
          cases evidence <;> simp [Evidence.action, ha]
        obtain ⟨v, hv, hne, hnode⟩ := h.resumed name m hm hbefore (same ▸ hr)
        obtain ⟨o, ho, hseen⟩ := h.recovering name p observed d fresh wrote pass hblocked (same ▸ hbefore) (.inr ha)
        have howner : obs.recoveryOwnerIsDestination := by
          rw [hobs hplain]
          have hat : o.ownerNode = p.status.destinationNode := (hseen v hv).symm.trans (hnode.trans (by rw [same]))
          simp only [lifecycleFacts, ho, Option.any_some, Bool.and_eq_true, decide_eq_true_eq]
          exact ⟨hseen v hv ▸ hne, hat⟩
        rw [hc, if_pos howner] at hlate
        simp at hlate
      · exact hopen.1 (by rw [same, hr])
  · simp [createMove, MoveStatus.empty] at happroved

end Step

theorem Held.step (h : Held w) (hw : WorldSound w) (hs : WorldStep w act w')
    (horder : ∀ name m, w.store.moves.find name = some m → Orderly m)
    (hcopies : ∀ name m, w.store.moves.find name = some m → m.status.phase.copies → m.status.capacityApproved)
    (horder' : ∀ name m, w'.store.moves.find name = some m → Orderly m) : Held w' where
  locked _ _ hn hholds := h.locked_step hw hs horder hcopies hn hholds
  granting _ _ _ _ _ _ _ hpass ha hread hlock := h.granting_step hw hs hpass ha hread hlock
  settling _ _ _ _ _ hpass ha := h.settling_step hw hs hpass ha
  recovering _ _ _ _ _ _ hpass hblocked happroved ha := h.recovering_step hw hs hpass hblocked happroved ha
  resumed name n hn happroved hresuming := by
    have hblocked := (horder' name n hn).recovery (by simp [hresuming])
    have hholds : n.Holds := .inr ⟨happroved, by simp [hblocked], by simp [hblocked]⟩
    exact h.resumed_step hw hs horder hn (h.locked_step hw hs horder hcopies hn hholds) happroved hresuming
  recovered _ _ hn happroved := h.recovered_step hw hs horder hn happroved

/-! ### Runs -/

theorem WorldRun.orderly {l : List World} (hr : WorldRun l) :
    ∀ w ∈ l, ∀ name m, w.store.moves.find name = some m → Orderly m := by
  refine WorldRun.move_invariant (I := Orderly) ?_ ?_ hr
  · intro name uid volumeID sourceNode
    exact ⟨by simp [createMove, MoveStatus.empty], by simp [createMove, MoveStatus.empty], by simp [createMove, MoveStatus.empty],
      by simp [createMove, MoveStatus.empty]⟩
  · intro w name m n hw hm ih hstep hchange
    exact ih.change hw hm hchange

theorem held_initial (h : w.Initial) : Held w := by
  obtain ⟨⟨v, -, -, -, hmoves⟩, -, hpasses⟩ := h
  have hnone : ∀ name, w.store.moves.find name = none := by
    intro name
    simp [Table.find, hmoves]
  exact ⟨by simp [hnone], by simp [hpasses], by simp [hpasses], by simp [hpasses], by simp [hnone], by simp [hnone]⟩

theorem WorldRun.held {l : List World} (hr : WorldRun l) : ∀ w ∈ l, Held w := by
  refine Run.forall_mem (I := Held) (fun w hinit => held_initial hinit) ?_ hr
  intro w w' past act hrun ih hs
  have hstep := World.step_inv (Run.onHead_cons.mp hs)
  exact (ih w (by simp)).step (WorldRun.sound hrun w (by simp)) hstep (WorldRun.orderly hrun w (by simp))
    (WorldRun.approved hrun w (by simp)) (WorldRun.orderly (.next hrun hs) w' (by simp))

end ShiftPV

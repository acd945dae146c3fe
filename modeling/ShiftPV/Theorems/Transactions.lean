import ShiftPV.Theorems.Passes

/-! The transaction a Move records, over runs of the controller. One step changes the status of a Move only as
    a pass of that Move decided (`StatusChange`); from this follow what an executing phase holds, that a
    blocked transaction stays blocked, and that a closed one stays closed. -/

namespace ShiftPV
open Check

variable {w w' : World} {act : WorldAct} {name : String} {m n : Move} {l : List World}

/-! ### One step -/

/-- How one step changes the status of a stored Move. `p` is the Move as its pass holds it. -/
inductive StatusChange (w : World) (name : String) (m n : Move) : Prop where
  | kept (same : n.status = m.status)
  | announced (fresh : m.status = .empty) (status : n.status = { m.status with phase := .pending })
  | evidence {p : Move} {observed : Observed} {d : Decision} {fresh : Option State} {wrote : Bool} {evidence : Evidence}
      {write : MoveWrite} (pass : w.passes name = some ⟨p, .decided observed d fresh wrote⟩)
      (same : m.status = p.status) (action : evidence.action = d.action)
      (recorded : EvidenceWrite p observed.volume fresh evidence write) (accepted : applyMoveWrite write m = .ok n)
  | finished {p : Move} {observed : Observed} {d : Decision} {fresh : Option State} {wrote : Bool} {plan : WorkloadPlan}
      (pass : w.passes name = some ⟨p, .decided observed d fresh wrote⟩) (same : m.status = p.status)
      (complete : d.action.complete p d.next.phase observed.volume w.store.volume wrote)
      (settled : d.action.cleanupSettled m = .ok ()) (status : n.status = finishedStatus p observed d plan)
  | diagnosed {reason : String} (executing : preparationLifecycle m.status.phase = false)
      (status : n.status = { m.status with reason })

theorem WorldSound.move_change (hw : WorldSound w) (hs : WorldStep w act w') (hm : w.store.moves.find name = some m) :
    ∃ n, w'.store.moves.find name = some n ∧ (n = m ∨ MoveStep m n) ∧ StatusChange w name m n := by
  have hstay : w'.store.moves.find name = some m →
      ∃ n, w'.store.moves.find name = some n ∧ (n = m ∨ MoveStep m n) ∧ StatusChange w name m n :=
    fun h => ⟨m, h, Or.inl rfl, .kept rfl⟩
  -- a write of the stored objects reaches this Move only under its own name
  have hwrite : ∀ {op t}, w.store.apply op = .ok t → w'.store.moves = t.moves →
      (∀ write n, op = .move name write → applyMoveWrite write m = .ok n → StatusChange w name m n) →
      ∃ n, w'.store.moves.find name = some n ∧ (n = m ∨ MoveStep m n) ∧ StatusChange w name m n := by
    intro op t happly hmoves hchange
    rw [hmoves]
    rcases Store.move_cases happly hm with hsame | ⟨write, n, rfl, hn, hfind⟩
    · exact ⟨m, hsame, Or.inl rfl, .kept rfl⟩
    · exact ⟨n, hfind, Or.inr (applyMoveWrite_inv hn), hchange write n rfl hn⟩
  -- a pass writes the status it holds
  have hpass : ∀ {other p stage}, w.passes other = some ⟨p, stage⟩ → other = name → m.status = p.status := by
    rintro other p stage hp rfl
    obtain ⟨k, hk, hstatus⟩ := (hw.passes other _ hp).stored
    rw [hm] at hk
    exact (Option.some.inj hk) ▸ hstatus
  cases hs with
  | external allowed applied =>
    refine hwrite applied rfl ?_
    rintro write n rfl hn
    exact .kept (applyMoveWrite_keepsStatus hn (Op.keepsStatus_of_external allowed))
  | @announce other k t idle stored fresh applied =>
    refine hwrite applied rfl ?_
    intro write n hop hn
    cases hop
    obtain rfl : m = k := Option.some.inj (hm.symm.trans stored)
    exact .announced fresh (applyMoveWrite_status hn).1
  | write pass volume action current settled applied =>
    refine hwrite applied rfl ?_
    intro write n hop hn
    simp at hop
  | @evidence other evidence p n observed d fresh wrote write t pass action recorded applied stored =>
    refine hwrite applied rfl ?_
    intro write' n hop hn
    cases hop
    exact .evidence pass (hpass pass rfl) action (Evidence.write_inv recorded) hn
  | journal pass owed applied =>
    refine hwrite applied rfl ?_
    intro write n hop hn
    cases hop
    exact .kept (applyMoveWrite_keepsStatus hn rfl)
  | @finish other plan p stored observed d fresh wrote t pass complete current settled changed applied =>
    refine hwrite applied rfl ?_
    intro write n hop hn
    cases hop
    obtain rfl : m = stored := Option.some.inj (hm.symm.trans current)
    exact .finished pass (hpass pass rfl) complete settled (applyMoveWrite_status hn).1
  | @diagnose other reason p stage t pass executing applied =>
    refine hwrite applied rfl ?_
    intro write n hop hn
    cases hop
    have hsame := hpass pass rfl
    rw [← hsame] at executing hn
    exact .diagnosed executing (applyMoveWrite_status hn).1
  | _ => exact hstay hm

theorem Continues.of_change (h : n = m ∨ MoveStep m n) : Continues m n := by
  rcases h with rfl | h
  · exact .refl n
  · exact h.continues

theorem WorldSound.move_origin (hw : WorldSound w) (hs : WorldStep w act w') (hn : w'.store.moves.find name = some n) :
    (∃ m, w.store.moves.find name = some m ∧ (n = m ∨ MoveStep m n) ∧ StatusChange w name m n) ∨
      w.store.moves.find name = none ∧
        ∃ uid sourceNode, n = createMove name uid w.store.volumeID sourceNode ∧ act = .external (.createMove name uid sourceNode) := by
  cases hm : w.store.moves.find name with
  | some m =>
    obtain ⟨k, hk, hstep, hchange⟩ := hw.move_change hs hm
    obtain rfl : k = n := Option.some.inj (hk.symm.trans hn)
    exact Or.inl ⟨m, rfl, hstep, hchange⟩
  | none =>
    -- only the creation of a Move stores one under a name that was free
    have hwrite : ∀ {op t}, w.store.apply op = .ok t → w'.store.moves = t.moves →
        ∃ uid sourceNode, n = createMove name uid w.store.volumeID sourceNode ∧ op = .createMove name uid sourceNode := by
      intro op t happly hmoves
      rw [hmoves] at hn
      cases Store.apply_inv happly with
      | @move other write k k' current accepted =>
        have hkey := (applyMoveWrite_inv accepted).continues.name.trans (Table.key_of_find current)
        rw [Table.find_put, hkey] at hn
        split_ifs at hn with hname
        · subst hname
          simp [hm] at current
        · simp [hm] at hn
      | @create other uid node named identified absent unique =>
        rw [Table.find_put] at hn
        split_ifs at hn with hname
        · obtain rfl := Option.some.inj hn
          obtain rfl : other = name := hname
          exact ⟨uid, node, rfl, rfl⟩
        · simp [hm] at hn
      | _ => simp [hm] at hn
    have hstay : w'.store.moves = w.store.moves → False := by
      intro h
      rw [h, hm] at hn
      cases hn
    refine Or.inr ⟨rfl, ?_⟩
    cases hs with
    | external allowed applied =>
      obtain ⟨uid, node, hn, rfl⟩ := hwrite applied rfl
      exact ⟨uid, node, hn, rfl⟩
    | announce idle stored fresh applied | write pass volume action current settled applied
    | evidence pass action recorded applied stored | journal pass owed applied
    | finish pass complete current settled changed applied | diagnose pass executing applied =>
      obtain ⟨uid, node, -, hop⟩ := hwrite applied rfl
      cases hop
    | _ => exact (hstay rfl).elim

/-- What a new Move satisfies and every step keeps, every stored Move satisfies. -/
theorem WorldRun.step_invariant {I : Move → Prop}
    (hcreate : ∀ name uid volumeID sourceNode, I (createMove name uid volumeID sourceNode))
    (hkeep : ∀ {w w' act name m n}, WorldSound w → WorldStep w act w' → w.store.moves.find name = some m →
      w'.store.moves.find name = some n → I m → I n) (hr : WorldRun l) :
    ∀ w ∈ l, ∀ name m, w.store.moves.find name = some m → I m := by
  refine Run.forall_mem (I := fun w => ∀ name m, w.store.moves.find name = some m → I m) ?_ ?_ hr
  · rintro w ⟨⟨v, -, -, -, hmoves⟩, -⟩ name m hm
    simp [Table.find, hmoves] at hm
  · intro w w' past act hrun ih hs name n hn
    have hsound := WorldRun.sound hrun w (by simp)
    have hstep := World.step_inv (Run.onHead_cons.mp hs)
    rcases hsound.move_origin hstep hn with ⟨m, hm, -, -⟩ | ⟨-, uid, node, rfl, -⟩
    · exact hkeep hsound hstep hm hn (ih w (by simp) name m hm)
    · exact hcreate name uid w.store.volumeID node

theorem WorldRun.move_invariant {I : Move → Prop}
    (hcreate : ∀ name uid volumeID sourceNode, I (createMove name uid volumeID sourceNode))
    (hchange : ∀ {w name m n}, WorldSound w → w.store.moves.find name = some m → I m → n = m ∨ MoveStep m n →
      StatusChange w name m n → I n) (hr : WorldRun l) :
    ∀ w ∈ l, ∀ name m, w.store.moves.find name = some m → I m := by
  refine WorldRun.step_invariant hcreate (fun hw hs hm hn hI => ?_) hr
  obtain ⟨k, hk, hmove, hstatus⟩ := hw.move_change hs hm
  obtain rfl := Option.some.inj (hk.symm.trans hn)
  exact hchange hw hm hI hmove hstatus

/-! ### The decision behind a status -/

theorem Observed.decide_inv {observed : Observed} {d : Decision} (h : observed.decide m = .ok d) :
    decideMove m.lifecycle (lifecycleFacts m observed.volume observed.facts) = .ok d ∧
      (d.next.phase = .canceling → cancellablePreparation m = .ok ()) := by
  rw [Observed.decide, bind_ok] at h
  obtain ⟨e, he, h⟩ := h
  rw [seq_ok, whenever_ok, pure_ok] at h
  obtain ⟨hcancel, rfl⟩ := h
  exact ⟨he, hcancel⟩

theorem Decided.listed {h : List Store} {observed : Observed} {d : Decision} {fresh : Option State}
    (hd : Decided h m observed d fresh) : d.Listed m.lifecycle.normalized.phase := by
  obtain ⟨read, -, -, hlife, hdecide, -⟩ := hd.decided
  exact hlife ▸ decideMove_listed (Observed.decide_inv hdecide).1

theorem Decided.current {h : List Store} {observed : Observed} {d : Decision} {fresh : Option State}
    (hd : Decided h m observed d fresh) (hplain : ∀ evidence : Evidence, evidence.action ≠ d.action) :
    decideMove m.lifecycle (lifecycleFacts m observed.volume observed.facts) = .ok d := by
  obtain ⟨read, -, -, -, hdecide, rfl | ⟨evidence, haction⟩⟩ := hd.decided
  · exact (Observed.decide_inv hdecide).1
  · exact absurd haction (hplain evidence)

section Finished
variable {observed : Observed} {d : Decision} {plan : WorkloadPlan}

theorem applyMoveDecision_eq : ∃ reason, applyMoveDecision m d =
    { m.status with phase := d.next.phase, recoveryPhase := d.next.recoveryPhase, reason } := by
  unfold applyMoveDecision
  split_ifs <;> exact ⟨_, rfl⟩

theorem finishedStatus_eq (m : Move) (observed : Observed) (d : Decision) (plan : WorkloadPlan) :
    ∃ reason, finishedStatus m observed d plan =
    { d.action.stage m.status observed.volume plan with
      phase := d.next.phase, recoveryPhase := d.next.recoveryPhase, reason } :=
  applyMoveDecision_eq

theorem finishedStatus_phase : (finishedStatus m observed d plan).phase = d.next.phase := by
  obtain ⟨reason, h⟩ := finishedStatus_eq m observed d plan
  rw [h]

theorem finishedStatus_capacityApproved :
    (finishedStatus m observed d plan).capacityApproved = m.status.capacityApproved := by
  obtain ⟨reason, h⟩ := finishedStatus_eq m observed d plan
  rw [h]
  unfold Action.stage
  split <;> rfl

end Finished

/-! ### Execution -/

def MovePhase.copies : MovePhase → Bool
  | .copying | .promoting | .committing | .releasingDestination | .waitingForDestinationPublish | .cleaningSource
  | .completing | .succeeded => true
  | _ => false

theorem outcomes_copies {phase : MovePhase} : ∀ x ∈ outcomes phase, x.2.copies →
    phase.copies ∨ phase = .waitingForCapacity ∧ x.2 = .copying ∧ x.1 = .ensureCopy := by
  cases phase <;> decide

theorem normalized_of_ne_pending {state : LifecycleState} (h : state.normalized.phase ≠ .pending) :
    state.normalized = state := by
  unfold LifecycleState.normalized at h ⊢
  split_ifs at h ⊢
  · exact absurd rfl h
  · rfl

theorem MoveStep.approval_kept (h : MoveStep m n) (happroved : m.status.capacityApproved)
    (hphase : m.status.phase ≠ .blocked) : n.status.capacityApproved := by
  cases h with
  | status step =>
    cases step.hold with
    | idle before after approval intent release =>
      by_contra hdropped
      exact hphase (release happroved (by simpa using hdropped)).blocked.1
    | start p before after unapproved => simp [unapproved] at happroved
    | keep p before after | cancel p before after => simp [before.unapproved] at happroved
    | approve p source before after approval => exact approval.approved
  | usage bytes _ _ _ _ record => rcases record with rfl | rfl <;> exact happroved
  | journal journal step planned record | recovery recovery record | deletion record => exact record ▸ happroved

theorem WorldRun.approved (hr : WorldRun l) :
    ∀ w ∈ l, ∀ name m, w.store.moves.find name = some m → m.status.phase.copies → m.status.capacityApproved := by
  refine WorldRun.move_invariant (I := fun m => m.status.phase.copies → m.status.capacityApproved) ?_ ?_ hr
  · intro name uid volumeID sourceNode h
    simp [createMove, MoveStatus.empty, MovePhase.copies] at h
  intro w name m n hw hm ih hstep hchange hcopies
  -- a phase that copied before kept its approval
  have hold : m.status.phase.copies → n.status.capacityApproved := by
    intro hbefore
    rcases hstep with rfl | hstep
    · exact ih hbefore
    · refine hstep.approval_kept (ih hbefore) ?_
      rintro hblocked
      simp [hblocked, MovePhase.copies] at hbefore
  cases hchange with
  | kept same => exact hold (same ▸ hcopies)
  | announced fresh status => simp [status, MovePhase.copies] at hcopies
  | diagnosed executing status =>
    rw [status] at hcopies
    exact hold hcopies
  | @evidence p observed d fresh wrote evidence write pass same action recorded accepted =>
    exact hold (recorded.phase accepted same ▸ hcopies)
  | @finished p observed d fresh wrote plan pass same complete settled status =>
    have hd := hw.decided pass
    rw [status, finishedStatus_phase] at hcopies
    have hlisted := outcomes_copies _ hd.listed hcopies
    have hnormal : p.lifecycle.normalized = p.lifecycle := by
      refine normalized_of_ne_pending fun hpending => ?_
      simp [hpending, MovePhase.copies] at hlisted
    rw [hnormal] at hlisted
    rcases hlisted with hbefore | ⟨hwaiting, hcopying, haction⟩
    · exact hold (same ▸ hbefore)
    · have hdecide := hd.current fun evidence h => by cases evidence <;> simp_all [Evidence.action]
      rw [status, finishedStatus_capacityApproved]
      exact decideMove_copying hdecide hwaiting hcopying

/-! ### Blocked and closed transactions -/

theorem StatusChange.blocked (hw : WorldSound w) (h : StatusChange w name m n) (hblocked : m.status.phase = .blocked)
    (hplan : m.status.destinationCopy.isSome) : n.status.phase = .blocked := by
  cases h with
  | kept same => rw [same, hblocked]
  | announced fresh status => simp [fresh, MoveStatus.empty] at hblocked
  | diagnosed executing status => rw [status, hblocked]
  | @evidence p observed d fresh wrote evidence write pass same action recorded accepted =>
    rw [recorded.phase accepted same, hblocked]
  | @finished p observed d fresh wrote plan pass same complete settled status =>
    have hd := hw.decided pass
    rw [same] at hblocked hplan
    rw [status, finishedStatus_phase]
    by_contra hnext
    have hlisted := hd.listed
    rw [normalized_of_known (by simp [Move.lifecycle, hblocked])] at hlisted
    have haction : d.action = .wait := by
      simp only [Decision.Listed, Move.lifecycle, hblocked, outcomes, List.mem_cons, Prod.mk.injEq, List.not_mem_nil] at hlisted
      grind
    have hdecide := hd.current fun evidence h => by cases evidence <;> simp_all [Evidence.action]
    have hbefore := decideMove_blocked hdecide hblocked hnext
    simp only [beforeExecutionApproval, lifecycleFacts, noDestinationEffectIntent] at hbefore
    simp [Option.isSome_iff_ne_none.mp hplan] at hbefore

def Move.Closed (m : Move) : Prop :=
  m.status.phase = .cancelled ∨ m.status.phase = .succeeded ∨
    m.status.phase = .blocked ∧ m.status.recoveryPhase = .recovered

theorem Decided.closed {h : List Store} {observed : Observed} {d : Decision} {fresh : Option State}
    (hd : Decided h m observed d fresh) (hc : m.Closed) :
    d.action = .restoreSource ∨ d.action = .deletePlacement ∧ d.next.phase = .cancelled ∨ d.action = .releaseSource ∨
      d.action = .finalizeHistory := by
  have hlisted := hd.listed
  rcases hc with hcancelled | hsucceeded | ⟨hblocked, hrecovered⟩
  · rw [normalized_of_known (by simp [Move.lifecycle, hcancelled])] at hlisted
    simp [Decision.Listed, Move.lifecycle, hcancelled, outcomes] at hlisted
    grind
  · rw [normalized_of_known (by simp [Move.lifecycle, hsucceeded])] at hlisted
    simp [Decision.Listed, Move.lifecycle, hsucceeded, outcomes] at hlisted
    exact Or.inr (Or.inr (Or.inr hlisted.1))
  · obtain ⟨read, -, -, hlife, hdecide, -⟩ := hd.decided
    have hmove := (Observed.decide_inv hdecide).1
    rw [hlife, Move.lifecycle, hblocked, hrecovered] at hmove
    exact Or.inr (Or.inr (Or.inr (decideMove_recovered hmove)))

theorem StatusChange.closed (hw : WorldSound w) (h : StatusChange w name m n) (hc : m.Closed) :
    ∃ reason, n.status = { m.status with reason } := by
  have hclosed : ∀ {p : Move}, m.status = p.status → p.Closed := by
    intro p same
    unfold Move.Closed at hc ⊢
    rwa [← same]
  cases h with
  | kept same => exact ⟨m.status.reason, same⟩
  | announced fresh status => simp [Move.Closed, fresh, MoveStatus.empty] at hc
  | @diagnosed reason executing status => exact ⟨reason, status⟩
  | @evidence p observed d fresh wrote evidence write pass same action recorded accepted =>
    have haction := (hw.decided pass).closed (hclosed same)
    rw [← action] at haction
    cases evidence <;> simp [Evidence.action] at haction
  | @finished p observed d fresh wrote plan pass same complete settled status =>
    rcases (hw.decided pass).closed (hclosed same) with ha | ⟨ha, hnext⟩ | ha | ha <;>
      simp [ha, Action.complete] at complete
    simp [hnext] at complete

end ShiftPV

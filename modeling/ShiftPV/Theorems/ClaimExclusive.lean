import ShiftPV.Theorems.LedgerAvailable

/-! Exclusive transactions. A claim may land between the two writes in which a Move ends; one that does not finds every Move
    that was ever approved settled (`claim_exclusive`). -/

namespace ShiftPV
open Check

variable {w w' : World} {act : WorldAct} {name : String} {m n p : Move} {observed : Observed} {d : Decision}
  {fresh : Option State} {past : List World}

/-! ### Plans -/

def Move.PlanHeld (m : Move) : Prop :=
  m.status.destinationCopy.isSome →
    m.status.capacityApproved ∨ m.status.phase = .blocked ∧ m.status.capacityReason = "RecoverySettled"

theorem Move.PlanHeld.evidence {h : List Store} {evidence : Evidence} {write : MoveWrite} {volume : Option State}
    (hm : m.PlanHeld) (hd : Decided h p observed d fresh) (action : evidence.action = d.action)
    (hwrite : EvidenceWrite p volume fresh evidence write) (same : m.status = p.status)
    (haccepted : applyMoveWrite write m = .ok n) : n.PlanHeld := by
  have hopen : p.status.phase ≠ .blocked → p.status.destinationCopy.isSome → p.status.capacityApproved := by
    intro hne hsome
    rw [Move.PlanHeld, same] at hm
    exact (hm hsome).resolve_right fun hblocked => hne hblocked.1
  unfold Move.PlanHeld at hm ⊢
  rw [same] at hm
  cases hwrite with
  | grant read granted =>
    obtain ⟨-, -, -, -, -, rfl⟩ := grantPreparation_inv granted
    rw [(applyMoveWrite_status haccepted).1]
    exact fun hsome => .inl (hopen (by simp [hd.evidence_phase.1 action.symm]) hsome)
  | measure read source unmeasured =>
    rw [applyMoveWrite, seq_ok] at haccepted
    obtain ⟨-, -, -, -, rfl | rfl⟩ := recordSourceUsage_inv haccepted.2
    all_goals simpa only [same] using hm
  | deny =>
    rw [(applyMoveWrite_status haccepted).1]
    exact fun hsome => .inl (hopen (by simp [hd.evidence_phase.2 action.symm]) hsome)
  | convert read converted =>
    obtain ⟨hold, source, -, -, -, -, rfl⟩ := convertPreparation_inv converted
    rw [(applyMoveWrite_status haccepted).1]
    exact fun _ => .inl rfl
  | promotion promoted =>
    obtain rfl := ensurePromotion_inv promoted
    rw [(applyMoveWrite_status haccepted).1]
    exact hm
  | scan read requested =>
    obtain ⟨-, -, rfl⟩ := ensureRollbackScan_inv requested
    rw [(applyMoveWrite_status haccepted).1]
    exact hm
  | release read settled =>
    obtain ⟨owed, -, -, rfl⟩ := settleRecoveryArtifacts_inv settled
    rw [(applyMoveWrite_status haccepted).1]
    have table : ∀ phase : MovePhase, ∀ x ∈ outcomes phase, x.1 = .retireRecovery → phase = .blocked := by
      intro phase
      cases phase <;> decide
    exact fun _ => .inr ⟨normalized_phase (table _ _ hd.listed action.symm) (by decide), rfl⟩

theorem Move.PlanHeld.finished {h : List Store} {plan : WorkloadPlan} (hp : p.PlanHeld) (hd : Decided h p observed d fresh)
    (hstatus : n.status = finishedStatus p observed d plan) : n.PlanHeld := by
  intro hsome
  obtain ⟨reason, hfinished⟩ := finishedStatus_eq p observed d plan
  have hplanned : p.status.destinationCopy.isSome := by
    rw [hstatus, hfinished] at hsome
    cases ha : d.action <;> simpa [ha, Action.stage] using hsome
  rcases hp hplanned with happroved | ⟨hblocked, hreleased⟩
  · exact .inl (by rwa [hstatus, finishedStatus_capacityApproved])
  · have table : ∀ x ∈ outcomes .blocked, x.1 ≠ .releasePreparation ∧ (x.2 = .blocked ∨ x.1 = .wait ∧ x.2 = .canceling) := by
      decide
    have hlisted := hd.listed
    rw [normalized_of_known (by simp [Move.lifecycle, hblocked]), Move.lifecycle, hblocked] at hlisted
    obtain ⟨haction, hnext | ⟨hwait, hcanceling⟩⟩ := table _ hlisted
    · refine .inr ⟨by rw [hstatus, finishedStatus_phase]; exact hnext, ?_⟩
      rw [hstatus, hfinished]
      cases ha : d.action <;> simp_all [Action.stage]
    · -- a planned Move cannot be cancelled
      have hown := hd.plain fun evidence h => by
        rw [← h] at hwait
        cases evidence <;> simp [Evidence.action] at hwait
      have hcancellable := (Observed.decide_inv hown).2 hcanceling
      rw [cancellablePreparation, seq_ok, require_ok, require_ok] at hcancellable
      have hnone := hcancellable.2.2.1
      simp only [noDestinationEffectIntent, Bool.and_eq_true, decide_eq_true_eq] at hnone
      simp [hnone.1.1.1.1.2] at hplanned

theorem WorldRun.planHeld {l : List World} (hr : WorldRun l) :
    ∀ w ∈ l, ∀ name m, w.store.moves.find name = some m → m.PlanHeld := by
  refine WorldRun.move_invariant (I := Move.PlanHeld) ?_ ?_ hr
  · intro name uid volumeID sourceNode h
    simp [createMove, MoveStatus.empty] at h
  intro w name m n hw hm ih hstep hchange
  cases hchange with
  | kept same =>
    rw [Move.PlanHeld, same]
    exact ih
  | announced fresh status => simp [Move.PlanHeld, status, fresh, MoveStatus.empty]
  | diagnosed executing status =>
    rw [Move.PlanHeld, status]
    exact ih
  | evidence pass same action recorded accepted => exact ih.evidence (hw.decided pass) action recorded same accepted
  | @finished p observed d fresh wrote plan pass same complete settled status =>
    refine Move.PlanHeld.finished (p := p) ?_ (hw.decided pass) status
    rw [Move.PlanHeld, ← same]
    exact ih

/-! ### Locks -/

theorem WorldRun.locked_once (hr : WorldRun (w :: past)) (hm : w.store.moves.find name = some m)
    (happroved : m.status.capacityApproved) : ∃ u ∈ w :: past, Locked u name := by
  induction past generalizing w m with
  | nil =>
    cases hr with
    | start h =>
      obtain ⟨⟨v, -, -, -, hmoves⟩, -⟩ := h
      simp [Table.find, hmoves] at hm
  | cons x past ih =>
    by_cases hholds : m.Holds
    · exact ⟨w, by simp, (WorldRun.held hr w (by simp)).locked name m hm hholds⟩
    obtain ⟨hrun, act, hstep⟩ := WorldRun.change hr
    have hsound := WorldRun.sound hrun x (by simp)
    rcases hsound.move_origin hstep hm with ⟨k, hk, -, hchange⟩ | ⟨-, uid, node, rfl, -⟩
    · have hbefore : k.status.capacityApproved → ∃ u ∈ w :: x :: past, Locked u name := by
        intro hbefore
        obtain ⟨u, hu, hlocked⟩ := ih hrun hk hbefore
        exact ⟨u, List.mem_cons_of_mem _ hu, hlocked⟩
      cases hchange with
      | kept same => exact hbefore (same ▸ happroved)
      | announced fresh status => simp [status, fresh, MoveStatus.empty] at happroved
      | diagnosed executing status => exact hbefore (by rwa [status] at happroved)
      | @evidence p observed d fresh wrote evidence write pass same action recorded accepted =>
        refine (recorded.holds same accepted).2 happroved |>.elim hbefore fun haction => ?_
        -- the approval is given while the Move waits for capacity, so it is a hold
        have hphase : m.status.phase = .waitingForCapacity := by
          rw [recorded.phase accepted same, same]
          exact (hsound.decided pass).evidence_phase.2 (action ▸ haction)
        exact absurd (.inr ⟨happroved, by simp [hphase], by simp [hphase]⟩) hholds
      | finished pass same complete settled status =>
        rw [status, finishedStatus_capacityApproved, ← same] at happroved
        exact hbefore happroved
    · simp [createMove, MoveStatus.empty] at happroved

/-! ### Ends -/

def Move.ended (m : Move) : Bool :=
  m.status.phase = .succeeded || m.status.phase = .cancelled ||
    m.status.phase = .blocked && m.status.recoveryPhase = .recovered

/-- The Move has had the lock and given it back, and its end is not recorded yet. -/
def World.ending (w : World) (name : String) : Bool :=
  w.history.any (·.volume.any (·.activeMove = name)) && !w.store.volume.any (·.activeMove = name) &&
    (w.store.moves.find name).any (!·.ended)

/-- No Move but `name` is between the write that gives its lock back and the write that records its end. -/
def World.quiet (w : World) (name : String) : Bool := w.store.moves.rows.all fun m => m.name = name || !w.ending m.name

/-- An end that is recorded for an approved Move is a settled one. -/
theorem WorldRun.ended_settled (hr : WorldRun (w :: past)) (hm : w.store.moves.find name = some m)
    (hplanned : m.status.destinationCopy.isSome) (hended : m.ended) : moveCleanupSettled m := by
  have hsound := ((WorldRun.sound hr w (by simp)).coherent.bound name m hm).sound
  have hregistered := WorldRun.registered hr w (by simp) name m hm
  have horder := WorldRun.orderly hr w (by simp) name m hm
  have hintent := Move.intent_of_destination hplanned
  obtain ⟨source, anchor, hplan⟩ := hsound.derived (.inr hintent)
  have hsource : m.status.sourceCopy.isSome := by rw [hplan.planned.1]; rfl
  have hnone : m.status.preparation = none := by
    by_contra hsome
    obtain ⟨hold, hhold⟩ := Option.ne_none_iff_exists'.mp hsome
    simp [(hsound.prepared hold hhold).noIntent] at hintent
  simp only [Move.ended, Bool.or_eq_true, Bool.and_eq_true, decide_eq_true_eq] at hended
  rcases hended with (hsucceeded | hcancelled) | ⟨hblocked, hrecovered⟩
  · exact settled_of_succeeded hregistered hnone hsource hsucceeded (WorldRun.succeeded_clean hr w (by simp) name m hm hsucceeded)
  · rcases WorldRun.planHeld hr w (by simp) name m hm hplanned with happroved | ⟨hblocked, -⟩
    · simp [horder.unapproved (.inr hcancelled)] at happroved
    · simp [hcancelled] at hblocked
  · have hunapproved : m.status.capacityApproved = false := by
      by_contra happroved
      exact ((WorldRun.held hr w (by simp)).recovered name m hm (by simpa using happroved)).2 hrecovered
    have hreason := (WorldRun.planHeld hr w (by simp) name m hm hplanned).resolve_left (by simp [hunapproved])
    have hvalid : passes (validatePreparedPlan m) := passes_iff.mpr ⟨(), hregistered.plan hsource⟩
    simp [moveCleanupSettled, hnone, hregistered.protocol, hblocked, hrecovered, hunapproved, hreason.2, hvalid]

theorem claim_unlocked (hclaim : w.claims name) (hs : w.step (.write name) = .ok w') :
    ∃ v, w.store.volume = some v ∧ v.activeMove = "" := by
  cases World.step_inv hs with
  | @write _ p _ observed d fresh o kind t pass volume action current settled applied =>
    have haction : d.action = .claimSource := by simpa [World.claims, pass] using hclaim
    obtain rfl : .claimSource = kind := by simpa [haction, Action.volumeWrite] using action
    cases Store.apply_inv applied with
    | volume current accepted =>
      obtain ⟨hkept, hfree, -⟩ := claimPreparationSource_inv accepted
      exact ⟨_, current, hkept.sameLock ▸ hfree⟩

/-- In every run, a claim that does not land between the write that gives another Move's lock back and the write that
    records its end finds every other Move that was ever approved settled. -/
theorem claim_exclusive (hr : WorldRun (w :: past)) (hclaim : w.claims name) (hquiet : w.quiet name)
    (hs : w.step (.write name) = .ok w') :
    ∀ other m, other ≠ name → w.store.moves.find other = some m →
      (∃ u ∈ w :: past, ∃ k, u.store.moves.find other = some k ∧ k.status.capacityApproved) → moveCleanupSettled m := by
  rintro other m hne hm ⟨u, hu, k, hk, happroved⟩
  have hw := WorldRun.sound hr w (by simp)
  have hnamed : other ≠ "" := Table.key_of_find hm ▸ (hw.coherent.bound other m hm).named
  -- the plan of the approval is still recorded
  have hplanned : m.status.destinationCopy.isSome := by
    obtain ⟨source, anchor, hplan⟩ := ((WorldRun.sound hr u hu).coherent.bound other k hk).sound.derived (.inl happroved)
    obtain rfl : k.name = other := Table.key_of_find hk
    obtain ⟨n, hn, hcontinues⟩ := hw.coherent.moves k ⟨u.store, WorldRun.stores_seen hr u hu, hk⟩
    obtain rfl : n = m := Option.some.inj (hn.symm.trans hm)
    rw [hcontinues.destination _ hplan.destination]
    rfl
  have hlocked : ∃ s ∈ w.history, ∃ v, s.volume = some v ∧ v.activeMove = other := by
    obtain ⟨later, earlier, hl⟩ := List.append_of_mem hu
    have hrun : WorldRun (u :: earlier) := Run.suffix (hl ▸ hr)
    obtain ⟨x, hx, hlock⟩ := WorldRun.locked_once hrun hk happroved
    exact ⟨x.store, WorldRun.stores_seen hr x (by rw [hl]; exact List.mem_append_right _ hx), hlock⟩
  have hended : m.ended := by
    by_contra hopen
    obtain ⟨v, hv, hfree⟩ := claim_unlocked hclaim hs
    have hending : w.ending other := by
      simp only [World.ending, Bool.and_eq_true, List.any_eq_true, Option.any_eq_true, decide_eq_true_eq, hv, hm]
      exact ⟨⟨hlocked, by simp [hfree, hnamed.symm]⟩, by simpa using hopen⟩
    have hrow := List.all_eq_true.mp hquiet m (Table.mem_of_find hm)
    rw [show m.name = other from Table.key_of_find hm] at hrow
    simp [hending, hne] at hrow
  exact WorldRun.ended_settled hr hm hplanned hended

def secondMigration : List World :=
  replayedWorlds (fun _ _ => true) sampleStore <| creationActs ++ claimActs "move" "move-1" "node-a" ++
    approvalActs "move" samplePreparation.pool "node-b" ++ commitActs "move" ++ retireActs ++ purgeActs ++
    recorded "move" releasedCluster [] ++ recorded "move" releasedCluster [.write "move"] ++
    claimActs "other" "move-2" "node-b"

theorem claim_exclusive_second : ∃ w past w' m, secondMigration = w :: past ∧ w.step (.write "other") = .ok w' ∧
    w.store.moves.find "move" = some m ∧ m.status.capacityApproved ∧ moveCleanupSettled m := by
  have hclaim : (secondMigration.head?.any fun w => w.claims "other" && w.quiet "other" &&
      passes (w.step (.write "other")) && (w.store.moves.find "move").any (·.status.capacityApproved)) = true := by
    decide +kernel
  obtain ⟨w, past, hl, hw⟩ := Run.exists_head hclaim
  simp only [Bool.and_eq_true, Option.any_eq_true] at hw
  obtain ⟨⟨⟨hclaims, hquiet⟩, haccepted⟩, m, hm, happroved⟩ := hw
  obtain ⟨w', hw'⟩ := passes_iff.mp haccepted
  have hrun : WorldRun (w :: past) := GuardedRun.worldRun (replayedWorlds_run sampleStore_initial hl)
  exact ⟨w, past, w', m, hl, hw', hm, happroved,
    claim_exclusive hrun hclaims hquiet hw' "move" m (by decide) hm ⟨w, by simp, m, hm, happroved⟩⟩

end ShiftPV

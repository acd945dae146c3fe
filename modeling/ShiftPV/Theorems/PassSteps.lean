import ShiftPV.Controller
import ShiftPV.Theorems.Coherence

/-! What one accepted step of the mobility controller did (`WorldStep`), and what each piece of evidence
    was computed from (`EvidenceWrite`). -/

namespace ShiftPV
open Check

variable {w w' : World} {act : WorldAct} {name : String}

/-! ### One step -/

def World.record (w : World) (t : Store) : World := { w with store := t, past := w.store :: w.past }

def World.history (w : World) : List Store := w.store :: w.past

def finishedStatus (m : Move) (observed : Observed) (d : Decision) (plan : WorkloadPlan) : MoveStatus :=
  applyMoveDecision { m with status := d.action.stage m.status observed.volume plan } d

inductive WorldStep (w : World) : WorldAct → World → Prop where
  | external {op : Op} {t : Store} (allowed : op.external) (applied : w.store.apply op = .ok t) :
      WorldStep w (.external op) (w.record t)
  | announce {name : String} {m : Move} {t : Store} (idle : w.passes name = none)
      (stored : w.store.moves.find name = some m) (fresh : m.status = .empty)
      (applied : w.store.apply (.move name (.status m { m.status with phase := .pending })) = .ok t) :
      WorldStep w (.announce name) (w.record t)
  | start {name : String} {m : Move} (idle : w.passes name = none) (stored : w.store.moves.find name = some m) :
      WorldStep w (.start name) (w.setPass name (some ⟨m, .started⟩))
  | observe {name : String} {cluster : ClusterFacts} {m : Move} {observed : Observed} {d : Decision}
      (pass : w.passes name = some ⟨m, .started⟩)
      (seen : observeLifecycle m w.store.volume cluster = .ok observed) (decided : observed.decide m = .ok d) :
      WorldStep w (.observe name cluster) (w.setPass name (some ⟨m, .decided observed d none false⟩))
  | retry {name reason : String} {m : Move} {observed : Observed} {d d' : Decision} {fresh : Option State} {v : State}
      (pass : w.passes name = some ⟨m, .decided observed d fresh false⟩) (retries : d.action.retries)
      (cancellable : cancellablePreparation m = .ok ())
      (open' : m.status.phase ≠ .canceling ∧ m.status.phase ≠ .cancelled) (current : w.store.volume = some v)
      (decided : Observed.decide ⟨some v, { Observation.none with preparationChangedReason := reason }⟩ m = .ok d') :
      WorldStep w (.retry name reason) (w.setPass name
        (some ⟨m, .decided ⟨some v, { Observation.none with preparationChangedReason := reason }⟩ d' none false⟩))
  | reread {name : String} {m : Move} {observed : Observed} {d : Decision} {fresh : Option State} {wrote : Bool}
      (pass : w.passes name = some ⟨m, .decided observed d fresh wrote⟩) :
      WorldStep w (.reread name) (w.setPass name (some ⟨m, .decided observed d w.store.volume wrote⟩))
  | write {name : String} {m stored : Move} {observed : Observed} {d : Decision} {fresh : Option State} {v : State}
      {kind : MobilityWrite} {t : Store} (pass : w.passes name = some ⟨m, .decided observed d fresh false⟩)
      (volume : observed.volume = some v) (action : d.action.volumeWrite = some kind)
      (current : w.store.moves.find name = some stored) (settled : d.action.cleanupSettled stored = .ok ())
      (applied : w.store.apply (.volume (.mobility kind m v)) = .ok t) :
      WorldStep w (.write name) ((w.record t).setPass name (some ⟨m, .decided observed d fresh true⟩))
  | evidence {name : String} {evidence : Evidence} {m n : Move} {observed : Observed} {d : Decision}
      {fresh : Option State} {wrote : Bool} {write : MoveWrite} {t : Store}
      (pass : w.passes name = some ⟨m, .decided observed d fresh wrote⟩) (action : evidence.action = d.action)
      (recorded : evidence.write m observed.volume fresh = .ok write)
      (applied : w.store.apply (.move name write) = .ok t) (stored : t.moves.find name = some n) :
      WorldStep w (.evidence name evidence) ((w.record t).setPass name (some ⟨n, .decided observed d fresh wrote⟩))
  | journal {name : String} {artifact : Option CopyIdentity} {m : Move} {observed : Observed} {d : Decision}
      {fresh : Option State} {wrote : Bool} {spec : CleanupSpec} {t : Store}
      (pass : w.passes name = some ⟨m, .decided observed d fresh wrote⟩)
      (owed : d.action.cleanup m observed.volume artifact = .ok spec)
      (applied : w.store.apply (.move name (.ensureCleanup spec)) = .ok t) :
      WorldStep w (.journal name artifact) (w.record t)
  | finish {name : String} {plan : WorkloadPlan} {m stored : Move} {observed : Observed} {d : Decision}
      {fresh : Option State} {wrote : Bool} {t : Store}
      (pass : w.passes name = some ⟨m, .decided observed d fresh wrote⟩)
      (complete : d.action.complete m d.next.phase observed.volume w.store.volume wrote)
      (current : w.store.moves.find name = some stored) (settled : d.action.cleanupSettled stored = .ok ())
      (changed : finishedStatus m observed d plan ≠ m.status)
      (applied : w.store.apply (.move name (.status m (finishedStatus m observed d plan))) = .ok t) :
      WorldStep w (.finish name plan) ((w.record t).setPass name none)
  | unchanged {name : String} {plan : WorkloadPlan} : WorldStep w (.finish name plan) (w.setPass name none)
  | diagnose {name reason : String} {m : Move} {stage : Stage} {t : Store} (pass : w.passes name = some ⟨m, stage⟩)
      (executing : preparationLifecycle m.status.phase = false)
      (applied : w.store.apply (.move name (.status m { m.status with reason })) = .ok t) :
      WorldStep w (.diagnose name reason) ((w.record t).setPass name none)
  | leave {name : String} : WorldStep w (.leave name) (w.setPass name none)

theorem World.commit_inv {op : Op} (h : w.commit op = .ok w') : ∃ t, w.store.apply op = .ok t ∧ w' = w.record t := by
  rw [World.commit, bind_ok] at h
  obtain ⟨t, ht, h⟩ := h
  exact ⟨t, ht, (pure_ok.mp h).symm⟩

theorem World.pass_inv {pass : Pass} (h : w.pass name = .ok pass) : w.passes name = some pass := by
  unfold World.pass at h
  split at h
  · rename_i p hp
    rw [hp, pure_ok.mp h]
  · simp at h

theorem present_inv {volume : Option State} {v : State} (h : present volume = .ok v) : volume = some v := by
  unfold present at h
  split at h
  · rw [pure_ok.mp h]
  · simp at h

theorem World.step_inv (h : w.step act = .ok w') : WorldStep w act w' := by
  cases act with
  | external op =>
    rw [World.step, seq_ok, require_ok] at h
    obtain ⟨hext, h⟩ := h
    obtain ⟨t, ht, rfl⟩ := World.commit_inv h
    exact .external hext ht
  | announce name =>
    rw [World.step, bind_ok] at h
    obtain ⟨m, hm, h⟩ := h
    rw [seq_ok, require_ok] at h
    obtain ⟨⟨hidle, hfresh⟩, h⟩ := h
    obtain ⟨t, ht, rfl⟩ := World.commit_inv h
    exact .announce (Option.isNone_iff_eq_none.mp hidle) (Store.move_inv hm) hfresh ht
  | start name =>
    rw [World.step, seq_ok, require_ok, bind_ok] at h
    obtain ⟨hidle, m, hm, h⟩ := h
    obtain rfl := pure_ok.mp h
    exact .start (Option.isNone_iff_eq_none.mp hidle) (Store.move_inv hm)
  | observe name cluster =>
    rw [World.step, bind_ok] at h
    obtain ⟨⟨m, stage⟩, hpass, h⟩ := h
    cases stage with
    | started =>
      simp only [bind_ok] at h
      obtain ⟨observed, hobs, d, hd, h⟩ := h
      obtain rfl := pure_ok.mp h
      exact .observe (World.pass_inv hpass) hobs hd
    | decided observed d fresh wrote => simp at h
  | retry name reason =>
    rw [World.step, bind_ok] at h
    obtain ⟨⟨m, stage⟩, hpass, h⟩ := h
    cases stage with
    | started => simp at h
    | decided observed d fresh wrote =>
      simp only at h
      rw [seq_ok, require_ok, seq_ok, seq_ok, require_ok, bind_ok] at h
      obtain ⟨⟨hretry, hwrote⟩, hcancel, hopen, v, hv, h⟩ := h
      rw [bind_ok] at h
      obtain ⟨d', hd, h⟩ := h
      obtain rfl := pure_ok.mp h
      obtain rfl : wrote = false := by simpa using hwrote
      exact .retry (World.pass_inv hpass) hretry hcancel hopen (present_inv hv) hd
  | reread name =>
    rw [World.step, bind_ok] at h
    obtain ⟨⟨m, stage⟩, hpass, h⟩ := h
    cases stage with
    | started => simp at h
    | decided observed d fresh wrote =>
      obtain rfl := pure_ok.mp h
      exact .reread (World.pass_inv hpass)
  | write name =>
    rw [World.step, bind_ok] at h
    obtain ⟨⟨m, stage⟩, hpass, h⟩ := h
    cases stage with
    | started => simp at h
    | decided observed d fresh wrote =>
      simp only at h
      rw [seq_ok, require_ok, bind_ok] at h
      obtain ⟨hwrote, v, hv, h⟩ := h
      obtain rfl : wrote = false := by simpa using hwrote
      split at h
      · simp at h
      · rename_i kind hkind
        rw [bind_ok] at h
        obtain ⟨stored, hstored, h⟩ := h
        rw [seq_ok, bind_ok] at h
        obtain ⟨hsettled, w₁, hw₁, h⟩ := h
        obtain ⟨t, ht, rfl⟩ := World.commit_inv hw₁
        obtain rfl := pure_ok.mp h
        exact .write (World.pass_inv hpass) (present_inv hv) hkind (Store.move_inv hstored) hsettled ht
  | evidence name evidence =>
    rw [World.step, bind_ok] at h
    obtain ⟨⟨m, stage⟩, hpass, h⟩ := h
    cases stage with
    | started => simp at h
    | decided observed d fresh wrote =>
      simp only at h
      rw [seq_ok, require_ok, bind_ok] at h
      obtain ⟨haction, write, hwrite, h⟩ := h
      rw [bind_ok] at h
      obtain ⟨w₁, hw₁, h⟩ := h
      obtain ⟨t, ht, rfl⟩ := World.commit_inv hw₁
      rw [bind_ok] at h
      obtain ⟨n, hn, h⟩ := h
      obtain rfl := pure_ok.mp h
      exact .evidence (World.pass_inv hpass) haction hwrite ht (Store.move_inv hn)
  | journal name artifact =>
    rw [World.step, bind_ok] at h
    obtain ⟨⟨m, stage⟩, hpass, h⟩ := h
    cases stage with
    | started => simp at h
    | decided observed d fresh wrote =>
      simp only [bind_ok] at h
      obtain ⟨spec, hspec, h⟩ := h
      obtain ⟨t, ht, rfl⟩ := World.commit_inv h
      exact .journal (World.pass_inv hpass) hspec ht
  | finish name plan =>
    rw [World.step, bind_ok] at h
    obtain ⟨⟨m, stage⟩, hpass, h⟩ := h
    cases stage with
    | started => simp at h
    | decided observed d fresh wrote =>
      simp only at h
      rw [seq_ok, require_ok, bind_ok] at h
      obtain ⟨hcomplete, stored, hstored, h⟩ := h
      rw [seq_ok] at h
      obtain ⟨hsettled, h⟩ := h
      split at h
      · obtain rfl := pure_ok.mp h
        exact .unchanged
      · rename_i hchanged
        rw [bind_ok] at h
        obtain ⟨w₁, hw₁, h⟩ := h
        obtain ⟨t, ht, rfl⟩ := World.commit_inv hw₁
        obtain rfl := pure_ok.mp h
        exact .finish (World.pass_inv hpass) hcomplete (Store.move_inv hstored) hsettled hchanged ht
  | diagnose name reason =>
    rw [World.step, bind_ok] at h
    obtain ⟨⟨m, stage⟩, hpass, h⟩ := h
    rw [seq_ok, require_ok, bind_ok] at h
    obtain ⟨hphase, w₁, hw₁, h⟩ := h
    obtain ⟨t, ht, rfl⟩ := World.commit_inv hw₁
    obtain rfl := pure_ok.mp h
    exact .diagnose (World.pass_inv hpass) (by simpa using hphase) ht
  | leave name =>
    obtain rfl := pure_ok.mp h
    exact .leave

/-! ### Evidence -/

inductive EvidenceWrite (m : Move) (observed fresh : Option State) : Evidence → MoveWrite → Prop where
  | grant {pool : PoolReference} {nodeName podUID : String} {v : State} {status : MoveStatus} (read : fresh = some v)
      (granted : grantPreparation m pool nodeName podUID v = .ok status) :
      EvidenceWrite m observed fresh (.grant pool nodeName podUID) (.status m status)
  | measure {bytes : Int} {v : State} {copy : CopyIdentity} (read : fresh = some v)
      (source : sourceUsageCopy m v = .ok copy) (unmeasured : m.status.sourceBytes ≤ 0) :
      EvidenceWrite m observed fresh (.measure bytes) (.recordSourceUsage m copy bytes v)
  | deny : EvidenceWrite m observed fresh .deny
      (.status m { m.status with capacityReason := "DestinationFilesystemSpace" })
  | convert {v : State} {status : MoveStatus} (read : fresh = some v) (converted : convertPreparation m v = .ok status) :
      EvidenceWrite m observed fresh .convert (.status m status)
  | promotion {status : MoveStatus} (promoted : ensurePromotion m = .ok status) :
      EvidenceWrite m observed fresh .promotion (.status m status)
  | scan {generation : Int} {v : State} {status : MoveStatus} (read : observed = some v)
      (requested : ensureRollbackScan m v generation = .ok status) :
      EvidenceWrite m observed fresh (.scan generation) (.status m status)
  | release {artifact : Option CopyIdentity} {v : State} {status : MoveStatus} (read : observed = some v)
      (settled : settleRecoveryArtifacts m v artifact = .ok status) :
      EvidenceWrite m observed fresh (.release artifact) (.status m status)

variable {m : Move}

theorem Evidence.write_inv {evidence : Evidence} {observed fresh : Option State} {write : MoveWrite}
    (h : evidence.write m observed fresh = .ok write) : EvidenceWrite m observed fresh evidence write := by
  cases evidence with
  | grant pool nodeName podUID =>
    simp only [Evidence.write, bind_ok, pure_ok] at h
    obtain ⟨v, hv, status, hs, rfl⟩ := h
    exact .grant (present_inv hv) hs
  | measure bytes =>
    simp only [Evidence.write, bind_ok, require_ok, pure_ok] at h
    obtain ⟨v, hv, copy, hcopy, -, ⟨hbytes, -⟩, rfl⟩ := h
    exact .measure (present_inv hv) hcopy hbytes
  | deny =>
    simp only [Evidence.write, bind_ok, pure_ok] at h
    obtain ⟨v, hv, hold, -, rfl⟩ := h
    exact .deny
  | convert =>
    simp only [Evidence.write, bind_ok, pure_ok] at h
    obtain ⟨v, hv, status, hs, rfl⟩ := h
    exact .convert (present_inv hv) hs
  | promotion =>
    simp only [Evidence.write, bind_ok, pure_ok] at h
    obtain ⟨status, hs, rfl⟩ := h
    exact .promotion hs
  | scan generation =>
    simp only [Evidence.write, bind_ok, pure_ok] at h
    obtain ⟨v, hv, status, hs, rfl⟩ := h
    exact .scan (present_inv hv) hs
  | release artifact =>
    simp only [Evidence.write, bind_ok, pure_ok] at h
    obtain ⟨v, hv, status, hs, rfl⟩ := h
    exact .release (present_inv hv) hs

def Move.lifecycle (m : Move) : LifecycleState := ⟨m.status.phase, m.status.recoveryPhase⟩

variable {status : MoveStatus}

theorem grantPreparation_inv {pool : PoolReference} {nodeName podUID : String} {v : State}
    (h : grantPreparation m pool nodeName podUID v = .ok status) :
    pool.uid ≠ "" ∧ v.activeMove = m.name ∧ v.phase = .ready ∧ m.status.preparation = none ∧
      preparationSourceAuthority m v = .ok () ∧ status = { m.status with
        preparation := some { pool, nodeName, reservedBytes := v.capacityBytes }
        destinationNode := nodeName
        destinationPoolUID := pool.uid
        placementPodUID := podUID
        candidateNodes := [nodeName]
        reason := ""
        capacityReason := "" } := by
  simp only [grantPreparation, seq_ok, require_ok, pure_ok] at h
  obtain ⟨⟨-, hpool⟩, -, -, hsource, ⟨hactive, hready⟩, ⟨-, -, hnone⟩, rfl⟩ := h
  exact ⟨hpool, hactive, hready, hnone, hsource, rfl⟩

theorem convertibleHold_inv {v : State} {hold : MovePreparation} (h : convertibleHold m v = .ok hold) :
    m.Prepared hold ∧ m.status.sourceBytes > 0 ∧ preparedCapacitySnapshot m hold v = .ok () := by
  rw [convertibleHold, seq_ok, seq_ok, require_ok] at h
  obtain ⟨hvalid, hbytes, h⟩ := h
  split at h
  · simp at h
  · rename_i p hp
    rw [seq_ok, pure_ok] at h
    obtain ⟨hsnapshot, rfl⟩ := h
    exact ⟨validateMovePreparation_ok hvalid hp, hbytes, hsnapshot⟩

theorem convertPreparation_inv {v : State} (h : convertPreparation m v = .ok status) :
    ∃ hold source, m.Prepared hold ∧ m.status.sourceBytes > 0 ∧ preparedCapacitySnapshot m hold v = .ok () ∧
      m.status.sourceCopy = some source ∧ status = { m.status with
        incomingCopy := some (moveTransactionCopies m.uid m.spec.volumeID (preparationAnchor source hold)).1
        destinationCopy := some (moveTransactionCopies m.uid m.spec.volumeID (preparationAnchor source hold)).2
        copyJobName := (namesFor m.name).copyJob
        copyOperationID := moveCopyOperationID m.uid
        promotionOperationID := movePromotionOperationID m.uid
        preparation := none
        capacityApproved := true
        capacityReason := "" } := by
  simp only [convertPreparation, bind_ok, pure_ok] at h
  obtain ⟨hold, hhold, planned, hplan, rfl⟩ := h
  obtain ⟨hprepared, hbytes, hsnapshot⟩ := convertibleHold_inv hhold
  unfold prepareMoveCopyIdentities at hplan
  split at hplan
  · simp at hplan
  · rename_i source hsource
    simp only [seq_ok, pure_ok] at hplan
    obtain ⟨-, -, -, -, rfl⟩ := hplan
    exact ⟨hold, source, hprepared, hbytes, hsnapshot, hsource, rfl⟩

theorem ensurePromotion_inv (h : ensurePromotion m = .ok status) :
    status = { m.status with promotionJobName := (namesFor m.name).promotionJob } := by
  simp only [ensurePromotion, seq_ok, pure_ok] at h
  exact h.2.2.symm

theorem validRollbackIntent_retiring (h : validRollbackIntent m = .ok ()) :
    m.status.recoveryPhase = .retiring := by
  rw [validRollbackIntent, seq_ok, require_ok] at h
  exact h.1

theorem ensureRollbackScan_inv {v : State} {generation : Int}
    (h : ensureRollbackScan m v generation = .ok status) :
    m.status.recoveryPhase = .retiring ∧ generation > 0 ∧
      status = { m.status with rollbackRequiredGeneration := generation } := by
  unfold ensureRollbackScan at h
  split at h
  all_goals
    simp only [seq_ok, require_ok, pure_ok] at h
  · obtain ⟨-, -, hintent, -, hgen, rfl⟩ := h
    exact ⟨validRollbackIntent_retiring hintent, hgen, rfl⟩
  · obtain ⟨-, hintent, -, hgen, rfl⟩ := h
    exact ⟨validRollbackIntent_retiring hintent, hgen, rfl⟩

theorem settleRecoveryArtifacts_inv {v : State} {artifact : Option CopyIdentity}
    (h : settleRecoveryArtifacts m v artifact = .ok status) :
    ∃ owed, retiringCleanup m v artifact = .ok owed ∧ cleanupClosed m owed = .ok () ∧
      status = { m.status with capacityApproved := false, capacityReason := "RecoverySettled" } := by
  rw [settleRecoveryArtifacts, seq_ok, bind_ok] at h
  obtain ⟨-, owed, howed, h⟩ := h
  rw [seq_ok, pure_ok] at h
  exact ⟨owed, howed, h.1, h.2.symm⟩

theorem applyMoveWrite_status {stored n : Move} {next : MoveStatus} (h : applyMoveWrite (.status m next) stored = .ok n) :
    n.status = next ∧ m.uid = stored.uid ∧ m.spec = stored.spec := by
  rw [applyMoveWrite, seq_ok] at h
  obtain ⟨rfl, -, huid, hspec, -⟩ := compareAndSetMoveStatus_inv h.2
  exact ⟨rfl, huid, hspec⟩

/-- No piece of evidence moves the transaction on. -/
theorem EvidenceWrite.lifecycle {stored n : Move} {observed fresh : Option State} {evidence : Evidence}
    {write : MoveWrite} (h : EvidenceWrite m observed fresh evidence write) (hw : applyMoveWrite write stored = .ok n)
    (hsame : stored.status = m.status) : n.lifecycle = m.lifecycle := by
  cases h with
  | grant read granted =>
    obtain ⟨-, -, -, -, -, rfl⟩ := grantPreparation_inv granted
    simp [Move.lifecycle, (applyMoveWrite_status hw).1]
  | measure read source unmeasured =>
    rw [applyMoveWrite, seq_ok] at hw
    obtain ⟨-, -, -, -, rfl | rfl⟩ := recordSourceUsage_inv hw.2 <;> simp [Move.lifecycle, hsame]
  | deny => simp [Move.lifecycle, (applyMoveWrite_status hw).1]
  | convert read converted =>
    obtain ⟨hold, source, -, -, -, -, rfl⟩ := convertPreparation_inv converted
    simp [Move.lifecycle, (applyMoveWrite_status hw).1]
  | promotion promoted =>
    obtain rfl := ensurePromotion_inv promoted
    simp [Move.lifecycle, (applyMoveWrite_status hw).1]
  | scan read requested =>
    obtain ⟨-, -, rfl⟩ := ensureRollbackScan_inv requested
    simp [Move.lifecycle, (applyMoveWrite_status hw).1]
  | release read settled =>
    obtain ⟨owed, -, -, rfl⟩ := settleRecoveryArtifacts_inv settled
    simp [Move.lifecycle, (applyMoveWrite_status hw).1]

theorem EvidenceWrite.phase {stored n : Move} {observed fresh : Option State} {evidence : Evidence}
    {write : MoveWrite} (h : EvidenceWrite m observed fresh evidence write) (hw : applyMoveWrite write stored = .ok n)
    (hsame : stored.status = m.status) : n.status.phase = stored.status.phase := by
  rw [hsame]
  exact congrArg LifecycleState.phase (h.lifecycle hw hsame)

/-! ### Running a script -/

abbrev GuardedRun (allowed : World → WorldAct → Bool) : List World → Prop :=
  Run World.Initial (Run.onHead fun w (act : WorldAct) w' => allowed w act ∧ w.step act = .ok w')

variable {allowed : World → WorldAct → Bool}

theorem GuardedRun.worldRun {l : List World} (hr : GuardedRun allowed l) : WorldRun l := by
  induction hr with
  | start h => exact .start h
  | next hr hs ih => exact .next ih (Run.onHead_cons.mpr (Run.onHead_cons.mp hs).2)

def World.of (s : Store) : World := { store := s, past := [], passes := fun _ => none }

/-- Every world that a script of steps goes through, newest first. -/
def replayedWorlds (allowed : World → WorldAct → Bool) (s : Store) (acts : List WorldAct) : List World :=
  Run.replay (Run.guarded allowed World.step) (World.of s) [] acts

theorem replayedWorlds_run {s : Store} {acts : List WorldAct} {past : List World} (hs : s.Initial)
    (h : replayedWorlds allowed s acts = w :: past) : GuardedRun allowed (w :: past) :=
  Run.replay_run_of Run.guarded_ok.mp (.start ⟨hs, rfl, fun _ => rfl⟩) h

end ShiftPV

import ShiftPV.Theorems.VolumeWrites

/-! What an accepted Volume write of the mobility controller can do. Nine of the ten writes keep the owner
    they observed and change only the phase and the lock; the owner commit replaces owner and copy. -/

namespace ShiftPV
open Check

variable {s t next observed : State} {move : Move} {volumeID : String}

/-! ### Compare-and-set -/

/-- A write from `observed` that keeps its owner and stores a new phase and lock. -/
structure OwnerKept (observed s t : State) (phase : VolumePhase) (activeMove : String) : Prop where
  uid : observed.uid = s.uid
  named : s.uid ≠ ""
  samePhase : observed.phase = s.phase
  sameLock : observed.activeMove = s.activeMove
  sameOwner : observed.ownerNode = s.ownerNode
  ready : phase = .ready → ∀ node ∈ s.publishedNodes, node = s.ownerNode
  record : t = stored s
    { observed with phase := phase, activeMove := activeMove, publishedNodes := s.publishedNodes }

/-- A write that also compares the exact serving copy, and never locks a volume that is being deleted. -/
structure SourceKept (volumeID : String) (observed s t : State) (phase : VolumePhase) (activeMove : String) : Prop
    extends OwnerKept observed s t phase activeMove where
  copy : ∃ c, observed.currentCopy = some c ∧ s.currentCopy = some c ∧ c.servesFor volumeID s.uid s.ownerNode
  live : observed.activeMove = "" → activeMove ≠ "" → s.deleting = false ∧ s.hasCleanup = false

theorem compareAndSet_inv {phase : VolumePhase} {active owner : String} {expectedCopy : Option CopyIdentity}
    (h : compareAndSet volumeID phase active owner expectedCopy next s = .ok t) :
    s.uid ≠ "" ∧ next.uid = s.uid ∧ s.phase = phase ∧ s.activeMove = active ∧ s.ownerNode = owner ∧
      (∀ c, expectedCopy = some c → s.currentCopy = some c ∧
        (active = "" → next.activeMove ≠ "" → s.deleting = false ∧ s.hasCleanup = false)) ∧
      (next.phase = .ready → ∀ node ∈ s.publishedNodes, node = next.ownerNode) ∧
      t = stored s { next with publishedNodes := s.publishedNodes } := by
  obtain ⟨proposed, hproposed, rfl⟩ := mutateState_inv h
  simp only [seq_ok, require_ok, pure_ok] at hproposed
  obtain ⟨⟨hnamed, huid, hphase, hactive, howner⟩, hcopy, hlive, hready, rfl⟩ := hproposed
  refine ⟨huid ▸ hnamed, huid.symm, hphase, hactive, howner, ?_, hready, rfl⟩
  rintro c rfl
  refine ⟨hcopy rfl, fun ha hn => ⟨?_, ?_⟩⟩
  · by_contra hdel
    exact hlive rfl ⟨ha, hn, Or.inl (by simpa using hdel)⟩
  · by_contra hclean
    exact hlive rfl ⟨ha, hn, Or.inr (by simpa using hclean)⟩

theorem compareAndSetState_inv {phase : VolumePhase} {active : String}
    (h : compareAndSetState volumeID observed.phase observed.activeMove observed.ownerNode
      { observed with phase := phase, activeMove := active } s = .ok t) :
    OwnerKept observed s t phase active := by
  obtain ⟨hnamed, huid, hphase, hactive, howner, -, hready, rfl⟩ := compareAndSet_inv h
  exact
    { uid := huid, named := hnamed, samePhase := hphase.symm, sameLock := hactive.symm, sameOwner := howner.symm
      ready := fun hp => howner ▸ hready hp, record := rfl }

theorem compareAndSetSourceState_inv {phase : VolumePhase} {active : String}
    (h : compareAndSetSourceState volumeID observed { observed with phase := phase, activeMove := active } s = .ok t) :
    SourceKept volumeID observed s t phase active := by
  unfold compareAndSetSourceState at h
  split at h
  · simp at h
  · rename_i copy hcopy
    rw [seq_ok, require_ok] at h
    obtain ⟨⟨hserves, -, -, -⟩, h⟩ := h
    obtain ⟨hnamed, huid, hphase, hactive, howner, hexp, hready, rfl⟩ := compareAndSet_inv h
    obtain ⟨hsame, hlive⟩ := hexp copy rfl
    exact
      { uid := huid, named := hnamed, samePhase := hphase.symm, sameLock := hactive.symm, sameOwner := howner.symm
        ready := fun hp => howner ▸ hready hp
        record := by rw [← hcopy]
        copy := ⟨copy, hcopy, hsame, by rw [← show observed.uid = s.uid from huid, howner]; exact hserves⟩
        live := hlive }

/-! ### Guards -/

/-- The observed volume serves the Move's recorded source copy from its source node. -/
structure SourceHeld (move : Move) (observed : State) : Prop where
  owner : observed.ownerNode = move.spec.sourceNode
  copy : ∃ c, move.status.sourceCopy = some c ∧ observed.currentCopy = some c ∧
    c.servesFor move.spec.volumeID observed.uid move.spec.sourceNode

/-- The observed volume serves the Move's recorded destination copy from its destination node. -/
structure DestinationHeld (move : Move) (observed : State) : Prop where
  owner : observed.ownerNode = move.status.destinationNode
  named : move.status.destinationNode ≠ ""
  copy : ∃ c, move.status.destinationCopy = some c ∧ observed.currentCopy = some c ∧
    c.servesFor move.spec.volumeID observed.uid move.status.destinationNode

theorem sourceMatches_inv (h : sourceMatches move s) :
    ∃ c, move.status.sourceCopy = some c ∧ s.currentCopy = some c ∧
      c.servesFor move.spec.volumeID s.uid move.spec.sourceNode := by
  unfold sourceMatches at h
  cases hs : move.status.sourceCopy with
  | none => simp [hs] at h
  | some c =>
    simp only [hs, Option.any_some, Bool.and_eq_true, decide_eq_true_eq] at h
    exact ⟨c, rfl, h.2, h.1⟩

theorem preparationSourceAuthority_inv (h : preparationSourceAuthority move s = .ok ()) :
    (s.activeMove = "" ∨ s.activeMove = move.name) ∧
      (s.phase = .ready ∨ s.phase = .moving ∧ s.activeMove = move.name) ∧
      s.deleting = false ∧ s.hasCleanup = false ∧ (move.status.sourceCopy.isSome → SourceHeld move s) := by
  simp only [preparationSourceAuthority, seq_ok, require_ok] at h
  obtain ⟨⟨hdel, hclean, howner, hserves⟩, hlock, hphase, hsource⟩ := h
  refine ⟨hlock, hphase.imp id (fun h => h.2), by simpa using hdel, by simpa using hclean, fun hset => ⟨howner, ?_⟩⟩
  obtain ⟨c, hc⟩ := Option.isSome_iff_exists.mp hset
  have hcur : s.currentCopy = some c := (hsource hset).symm.trans hc
  exact ⟨c, hc, hcur, by simpa [hcur] using hserves⟩

theorem cancellationSourceIdentity_inv (h : cancellationSourceIdentity move s = .ok ()) :
    SourceHeld move s ∧ s.deleting = false ∧ s.hasCleanup = false := by
  rw [cancellationSourceIdentity, require_ok] at h
  obtain ⟨hmatch, howner, hdel, hclean⟩ := h
  exact ⟨⟨howner, sourceMatches_inv hmatch⟩, by simpa using hdel, by simpa using hclean⟩

theorem cancellationSource_inv (h : cancellationSource move s = .ok ()) :
    SourceHeld move s ∧ s.deleting = false ∧ s.hasCleanup = false ∧
      (s.phase = .ready ∨ s.phase = .moving ∨ s.phase = .blocked ∧
        (move.status.phase = .canceling ∨ move.status.phase = .cancelled) ∧ cancellablePreparation move = .ok ()) := by
  unfold cancellationSource at h
  split at h
  · rename_i hblocked
    simp only [seq_ok, require_ok] at h
    obtain ⟨⟨hphase, -⟩, hcan, hid⟩ := h
    obtain ⟨hheld, hdel, hclean⟩ := cancellationSourceIdentity_inv hid
    exact ⟨hheld, hdel, hclean, Or.inr (Or.inr ⟨hblocked, hphase, hcan⟩)⟩
  · simp only [seq_ok, require_ok] at h
    obtain ⟨hphase, hid⟩ := h
    obtain ⟨hheld, hdel, hclean⟩ := cancellationSourceIdentity_inv hid
    exact ⟨hheld, hdel, hclean, hphase.imp id Or.inl⟩

theorem hasCommittedDestinationAuthority_inv {allowReleased : Bool}
    (h : hasCommittedDestinationAuthority move s allowReleased) :
    s.phase = .ready ∧ DestinationHeld move s ∧ (s.activeMove = move.name ∨ s.activeMove = "") := by
  simp only [hasCommittedDestinationAuthority, matchesCommittedDestinationIdentity, validDestinationAuthorityIntent,
    Bool.and_eq_true, Bool.or_eq_true, decide_eq_true_eq, ne_eq, and_assoc] at h
  obtain ⟨hphase, -, hnode, -, -, hdest, hsame, howner, hlock⟩ := h
  refine ⟨hphase, ⟨howner, hnode, ?_⟩, hlock.imp id (fun h => h.2)⟩
  cases hd : move.status.destinationCopy with
  | none => simp [hd] at hdest
  | some c =>
    simp only [hd, Option.any_some, Bool.and_eq_true, decide_eq_true_eq, and_assoc] at hdest hsame
    obtain ⟨hvalid, hrole, -, hid, hname⟩ := hdest
    exact ⟨c, rfl, hsame.2, by simp [CopyIdentity.servesFor, hvalid, hrole, hid, hname, hsame.1]⟩

theorem recoveryGuards_inv (h : recoveryGuards move s = .ok ()) :
    recordedOwnerIntact move s = .ok () ∧ s.activeMove = move.name ∧ s.ownerNode ≠ "" ∧
      (s.phase = .blocked ∨ s.phase = .ready ∧ (move.status.recoveryPhase = .resuming ∨
        move.status.recoveryPhase = .retiring ∨ move.status.recoveryPhase = .completing)) ∧
      (move.status.recoveryOwner ≠ "" → s.ownerNode = move.status.recoveryOwner) := by
  simp only [recoveryGuards, recoveryAuthorityIntact, seq_ok, require_ok] at h
  obtain ⟨⟨-, howner, ⟨hlock, -, hnode⟩, hrec⟩, -, hphase, -⟩ := h
  exact ⟨howner, hlock, hnode, hphase, hrec⟩

/-! ### The writes -/

theorem claimPreparationSource_inv (h : claimPreparationSource move observed s = .ok t) :
    SourceKept move.spec.volumeID observed s t observed.phase move.name ∧ observed.activeMove = "" ∧
      observed.phase = .ready ∧ SourceHeld move observed := by
  rw [claimPreparationSource, seq_ok, require_ok] at h
  obtain ⟨⟨hsome, hlock⟩, h⟩ := h
  split at h
  · rename_i hcanceling
    rw [seq_ok] at h
    obtain ⟨hguard, h⟩ := h
    rw [cancellationVolume, if_neg hlock, if_neg (by simp [hcanceling])] at hguard
    simp only [seq_ok, require_ok, whenever_ok] at hguard
    obtain ⟨-, hfree, hsource⟩ := hguard
    obtain ⟨hsource, hready⟩ := hsource hsome
    exact ⟨compareAndSetSourceState_inv h, hfree, hready, (cancellationSource_inv hsource).1⟩
  · rw [seq_ok] at h
    obtain ⟨hguard, h⟩ := h
    obtain ⟨hfree, hphase, -, -, hheld⟩ := preparationSourceAuthority_inv hguard
    have hready : observed.phase = .ready := hphase.resolve_right fun hm => hlock hm.2
    exact ⟨compareAndSetSourceState_inv h, hfree.resolve_right hlock, hready, hheld hsome⟩

theorem startPreparedSource_inv (h : startPreparedSource move observed s = .ok t) :
    SourceKept move.spec.volumeID observed s t .moving observed.activeMove ∧ observed.activeMove = move.name ∧
      observed.phase = .ready ∧ move.status.preparation.isSome ∧ observed.deleting = false ∧
      observed.hasCleanup = false := by
  simp only [startPreparedSource, seq_ok, require_ok] at h
  obtain ⟨hguard, ⟨hlock, hprep⟩, hready, h⟩ := h
  obtain ⟨-, -, hdel, hclean, -⟩ := preparationSourceAuthority_inv hguard
  exact ⟨compareAndSetSourceState_inv h, hlock, hready, hprep, hdel, hclean⟩

/-- Cancellation acts on a locked volume only while it still serves the planned source copy. -/
theorem cancellationVolume_locked (h : cancellationVolume move (some observed) = .ok ())
    (hlock : observed.activeMove = move.name) : cancellationSource move observed = .ok () := by
  rwa [cancellationVolume, if_pos hlock] at h

theorem restoreSource_inv (h : restoreSource move observed s = .ok t) :
    SourceKept move.spec.volumeID observed s t .ready observed.activeMove ∧ observed.activeMove = move.name ∧
      SourceHeld move observed ∧ (observed.phase = .moving ∨ observed.phase = .blocked ∧
        (move.status.phase = .canceling ∨ move.status.phase = .cancelled) ∧ cancellablePreparation move = .ok ()) := by
  simp only [restoreSource, seq_ok, require_ok] at h
  obtain ⟨hguard, ⟨hlock, hphase⟩, h⟩ := h
  obtain ⟨hheld, -, -, hcan⟩ := cancellationSource_inv (cancellationVolume_locked hguard hlock)
  refine ⟨compareAndSetSourceState_inv h, hlock, hheld, ?_⟩
  rcases hcan with hready | hcan
  · simp [hready] at hphase
  · exact hcan

theorem releaseSource_inv (h : releaseSource move observed s = .ok t) :
    SourceKept move.spec.volumeID observed s t observed.phase "" ∧ observed.activeMove = move.name ∧
      observed.phase = .ready ∧ move.status.phase = .cancelled ∧ SourceHeld move observed := by
  simp only [releaseSource, seq_ok, require_ok] at h
  obtain ⟨hcancelled, hguard, ⟨hlock, hm, hb⟩, h⟩ := h
  obtain ⟨hheld, -, -, hcan⟩ := cancellationSource_inv (cancellationVolume_locked hguard hlock)
  have hready : observed.phase = .ready := by
    rcases hcan with hready | hmoving | hblocked
    · exact hready
    · exact absurd hmoving hm
    · exact absurd hblocked.1 hb
  exact ⟨compareAndSetSourceState_inv h, hlock, hready, hcancelled, hheld⟩

theorem markBlocked_inv (h : markBlocked move observed s = .ok t) :
    OwnerKept observed s t .blocked move.name ∧ observed.activeMove = move.name ∧
      (observed.phase = .ready ∨ observed.phase = .moving) := by
  rw [markBlocked, seq_ok, require_ok] at h
  obtain ⟨⟨hphase, hlock⟩, h⟩ := h
  exact ⟨compareAndSetState_inv h, hlock, hphase⟩

theorem requestWorkloadSettlement_inv (h : requestWorkloadSettlement move observed s = .ok t) :
    SourceKept move.spec.volumeID observed s t .blocked observed.activeMove ∧ observed.activeMove = move.name ∧
      (observed.phase = .moving ∨ observed.phase = .ready ∨ observed.phase = .blocked) ∧
      observed.deleting = false ∧ observed.hasCleanup = false ∧ recordedOwnerIntact move observed = .ok () := by
  simp only [requestWorkloadSettlement, workloadSettlementAuthority, seq_ok, require_ok] at h
  obtain ⟨⟨⟨hlock, hdel, hclean, hphase⟩, howner⟩, h⟩ := h
  exact ⟨compareAndSetSourceState_inv h, hlock, hphase, by simpa using hdel, by simpa using hclean, howner⟩

/-- An accepted owner commit: the stored volume waits in Moving under this Move on its source node, and
    receives the Move's destination copy. -/
structure OwnerCommitted (move : Move) (observed s t : State) (source target : CopyIdentity) : Prop where
  uid : observed.uid = s.uid
  named : s.uid ≠ ""
  moving : s.phase = .moving
  lock : s.activeMove = move.name
  owner : s.ownerNode = move.spec.sourceNode
  sourceCopy : move.status.sourceCopy = some source
  targetCopy : move.status.destinationCopy = some target
  observedCopy : observed.currentCopy = some source
  serves : source.servesFor move.spec.volumeID s.uid move.spec.sourceNode
  servesTarget : target.servesFor move.spec.volumeID s.uid move.status.destinationNode
  pool : target.poolUID = move.status.destinationPoolUID ∧ target.poolUID ≠ source.poolUID
  destination : move.status.destinationNode ≠ ""
  published : ∀ node ∈ s.publishedNodes, node = move.status.destinationNode
  record : t = stored s { committedState move target observed with publishedNodes := s.publishedNodes }

theorem commitOwner_inv (h : commitOwner move observed s = .ok t) :
    ∃ source target, OwnerCommitted move observed s t source target := by
  rw [commitOwner, seq_ok, seq_ok, bind_ok] at h
  obtain ⟨hnode, -, pool, hpool, h⟩ := h
  rw [require_ok] at hnode
  rw [ownerCommitPoolUID, seq_ok, require_ok] at hpool
  obtain ⟨hmatch, hpool⟩ := hpool
  obtain ⟨source, hsource, hobserved, hserves⟩ := sourceMatches_inv hmatch
  rw [hsource] at hpool
  cases htarget : move.status.destinationCopy with
  | none => simp [htarget] at h
  | some target =>
    simp only [htarget, seq_ok, require_ok, pure_ok] at hpool h
    obtain ⟨⟨htserves, -, hkey, hother⟩, -⟩ := hpool
    obtain ⟨hnamed, huid, hmoving, hlock, howner, -, hready, rfl⟩ := compareAndSet_inv h
    have huid : observed.uid = s.uid := huid
    rw [huid] at hserves
    have hvolume : source.volumeUID = s.uid := by
      simp only [CopyIdentity.servesFor, Bool.and_eq_true, decide_eq_true_eq] at hserves
      exact hserves.1.2
    exact ⟨source, target,
      { uid := huid, named := hnamed, moving := hmoving, lock := hlock, owner := howner, sourceCopy := hsource
        targetCopy := htarget, observedCopy := hobserved, serves := hserves, servesTarget := hvolume ▸ htserves
        pool := ⟨hkey, hother⟩, destination := hnode, published := hready rfl, record := rfl }⟩

theorem markSucceeded_inv (h : markSucceeded move observed s = .ok t) :
    OwnerKept observed s t observed.phase "" ∧ observed.activeMove = move.name ∧ observed.phase = .ready ∧
      move.status.phase = .completing ∧ DestinationHeld move observed := by
  simp only [markSucceeded, seq_ok, require_ok, completionAllowed, Bool.and_eq_true, decide_eq_true_eq] at h
  obtain ⟨⟨⟨hphase, -⟩, hauth⟩, hheld, h⟩ := h
  obtain ⟨hready, hdest, hlock⟩ := hasCommittedDestinationAuthority_inv hauth
  have hlock : observed.activeMove = move.name := hlock.resolve_right hheld
  rw [← hready, ← hlock] at h
  exact ⟨compareAndSetState_inv h, hlock, hready, hphase, hdest⟩

theorem resumeRecovery_inv (h : resumeRecovery move observed s = .ok t) :
    OwnerKept observed s t .ready observed.activeMove ∧ observed.activeMove = move.name ∧
      observed.phase = .blocked ∧ recoveryGuards move observed = .ok () := by
  simp only [resumeRecovery, seq_ok, require_ok] at h
  obtain ⟨hguards, hblocked, h⟩ := h
  obtain ⟨-, hlock, -⟩ := recoveryGuards_inv hguards
  rw [← hblocked, ← hlock] at h
  exact ⟨compareAndSetState_inv h, hlock, hblocked, hguards⟩

theorem completeRecovery_inv (h : completeRecovery move observed s = .ok t) :
    SourceKept move.spec.volumeID observed s t
        (if move.status.settlementRequested then .ready else observed.phase) "" ∧
      observed.activeMove = move.name ∧ (observed.phase = .blocked ∨ observed.phase = .ready) ∧
      recoveryGuards move observed = .ok () := by
  rw [completeRecovery, seq_ok] at h
  obtain ⟨hguards, h⟩ := h
  obtain ⟨-, hlock, -, hphase, -⟩ := recoveryGuards_inv hguards
  exact ⟨compareAndSetSourceState_inv h, hlock, hphase.imp id (fun h => h.1), hguards⟩

/-! ### One step -/

def VolumePhase.Mobile (phase : VolumePhase) : Prop := phase = .ready ∨ phase = .moving ∨ phase = .blocked

/-- What the ten writes have in common: a Move takes the lock of a Ready volume that serves its source
    copy, changes the phase under its lock, gives the lock back, or commits the owner. -/
inductive MobilityStep (move : Move) (observed s t : State) : MobilityWrite → Prop where
  | claim (kept : SourceKept move.spec.volumeID observed s t .ready move.name) (free : observed.activeMove = "")
      (ready : observed.phase = .ready) (source : SourceHeld move observed) :
      MobilityStep move observed s t .claimSource
  | hold {write : MobilityWrite} {phase : VolumePhase} (kept : OwnerKept observed s t phase move.name)
      (lock : observed.activeMove = move.name) (before : observed.phase.Mobile) (after : phase.Mobile)
      (hclaim : write ≠ .claimSource) (hcommit : write ≠ .commitOwner) : MobilityStep move observed s t write
  | release {write : MobilityWrite} {phase : VolumePhase} (kept : OwnerKept observed s t phase "")
      (lock : observed.activeMove = move.name) (before : observed.phase.Mobile) (after : phase.Mobile)
      (hclaim : write ≠ .claimSource) (hcommit : write ≠ .commitOwner) : MobilityStep move observed s t write
  | commit {source target : CopyIdentity} (committed : OwnerCommitted move observed s t source target) :
      MobilityStep move observed s t .commitOwner

theorem applyMobilityWrite_inv {write : MobilityWrite} (h : applyMobilityWrite write move observed s = .ok t) :
    MobilityStep move observed s t write := by
  cases write with
  | claimSource =>
    obtain ⟨hkept, hfree, hready, hheld⟩ := claimPreparationSource_inv h
    exact .claim (hready ▸ hkept) hfree hready hheld
  | startSource =>
    obtain ⟨hkept, hlock, hready, -⟩ := startPreparedSource_inv h
    exact .hold (hlock ▸ hkept.toOwnerKept) hlock (Or.inl hready) (Or.inr (Or.inl rfl)) (by simp) (by simp)
  | restoreSource =>
    obtain ⟨hkept, hlock, -, hphase⟩ := restoreSource_inv h
    exact .hold (hlock ▸ hkept.toOwnerKept) hlock (Or.inr (hphase.imp id (fun h => h.1))) (Or.inl rfl) (by simp)
      (by simp)
  | releaseSource =>
    obtain ⟨hkept, hlock, hready, -⟩ := releaseSource_inv h
    exact .release hkept.toOwnerKept hlock (Or.inl hready) (Or.inl hready) (by simp) (by simp)
  | markBlocked =>
    obtain ⟨hkept, hlock, hphase⟩ := markBlocked_inv h
    exact .hold hkept hlock (hphase.imp id Or.inl) (Or.inr (Or.inr rfl)) (by simp) (by simp)
  | requestSettlement =>
    obtain ⟨hkept, hlock, hphase, -⟩ := requestWorkloadSettlement_inv h
    refine .hold (hlock ▸ hkept.toOwnerKept) hlock ?_ (Or.inr (Or.inr rfl)) (by simp) (by simp)
    rcases hphase with hm | hr | hb
    · exact Or.inr (Or.inl hm)
    · exact Or.inl hr
    · exact Or.inr (Or.inr hb)
  | commitOwner =>
    obtain ⟨source, target, hcommit⟩ := commitOwner_inv h
    exact .commit hcommit
  | markSucceeded =>
    obtain ⟨hkept, hlock, hready, -⟩ := markSucceeded_inv h
    exact .release hkept hlock (Or.inl hready) (Or.inl hready) (by simp) (by simp)
  | resumeRecovery =>
    obtain ⟨hkept, hlock, hblocked, -⟩ := resumeRecovery_inv h
    exact .hold (hlock ▸ hkept) hlock (Or.inr (Or.inr hblocked)) (Or.inl rfl) (by simp) (by simp)
  | completeRecovery =>
    obtain ⟨hkept, hlock, hphase, -⟩ := completeRecovery_inv h
    have hbefore : observed.phase.Mobile := hphase.elim (fun h => Or.inr (Or.inr h)) Or.inl
    refine .release hkept.toOwnerKept hlock hbefore ?_ (by simp) (by simp)
    split
    · exact Or.inl rfl
    · exact hbefore

end ShiftPV

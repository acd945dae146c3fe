import ShiftPV.Theorems.JournalHistory
import ShiftPV.Theorems.Transactions

/-! Settled Moves stay settled. A Move ends in two writes of two objects, the lock of the volume first, and a claim
    asks for the lock only, so it may land between them, before the Move is settled. -/

namespace ShiftPV
open Check

variable {w w' : World} {act : WorldAct} {name : String} {m n : Move}

/-! ### Settled Moves -/

theorem moveCleanupSettled_closed (h : moveCleanupSettled m) : m.Closed := by
  simp only [moveCleanupSettled, Bool.and_eq_true] at h
  replace h := h.2
  unfold Move.Closed
  split_ifs at h with hcancelled hsucceeded
  · exact Or.inl hcancelled.2
  · exact Or.inr (Or.inl hsucceeded)
  · simp only [Bool.and_eq_true, decide_eq_true_eq] at h
    exact Or.inr (Or.inr ⟨h.2.1.1.1, h.2.1.1.2⟩)

theorem MoveStep.journal_cases (h : n = m ∨ MoveStep m n) : n.cleanup = m.cleanup ∨
    ∃ journal, n.cleanup = some journal ∧ JournalStep m.cleanup journal ∧
      (m.cleanup = none → m.status.destinationCopy.isSome) := by
  rcases h with rfl | h
  · exact Or.inl rfl
  cases h with
  | status step => exact Or.inl step.cleanup
  | usage bytes _ _ _ _ record => rcases record with rfl | rfl <;> exact Or.inl rfl
  | journal journal step planned record =>
    subst record
    exact Or.inr ⟨journal, rfl, step, planned⟩
  | recovery recovery record | deletion record =>
    subst record
    exact Or.inl rfl

theorem cleanupPhase_completed (h : n = m ∨ MoveStep m n) (hm : m.cleanupPhase = .completed) :
    n.cleanupPhase = .completed := by
  rcases MoveStep.journal_cases h with hsame | ⟨journal, hn, hstep, -⟩
  · rw [Move.cleanupPhase, hsame]
    exact hm
  · unfold Move.cleanupPhase at hm ⊢
    rw [hn]
    cases hstep with
    | opened none pending valid => simp [none] at hm
    | kept same => simpa [same] using hm
    | advanced before some spec transition =>
      have hbefore : before.status.phase = .completed := by simpa [some] using hm
      rw [validateCleanupTransition, seq_ok, require_ok] at transition
      simpa [Journal.phase, hbefore, allowedCleanupEdges] using transition.1

theorem cleanup_absent (h : n = m ∨ MoveStep m n) (hsound : MoveSound m) (hm : m.hasDestinationIntent = false) :
    n.cleanup = m.cleanup := by
  rcases MoveStep.journal_cases h with hsame | ⟨journal, -, hstep, hplanned⟩
  · exact hsame
  · exfalso
    cases hc : m.cleanup with
    | none => simp [Move.intent_of_destination (hplanned hc)] at hm
    | some before => simp [Move.hasDestinationIntent, Move.cleanupPhase, hc, hsound.journal before hc] at hm

theorem StatusChange.settled (hw : WorldSound w) (hstored : w.store.moves.find name = some m)
    (hstep : n = m ∨ MoveStep m n) (hchange : StatusChange w name m n) (hm : moveCleanupSettled m) :
    moveCleanupSettled n := by
  have hsound := (hw.coherent.bound name m hstored).sound
  have hk := Continues.of_change hstep
  obtain ⟨reason, hstatus⟩ := hchange.closed hw (moveCleanupSettled_closed hm)
  have hplan : validatePreparedPlan n = validatePreparedPlan m := by
    simp only [validatePreparedPlan, hstatus, hk.name, hk.uid, hk.volumeID, hk.sourceNode]
  unfold moveCleanupSettled at hm ⊢
  rw [hplan, hk.protocol, hstatus]
  simp only [Bool.and_eq_true] at hm ⊢
  refine ⟨hm.1, ?_⟩
  replace hm := hm.2
  split_ifs at hm ⊢ with hcancelled hsucceeded
  · -- a cancelled Move has no destination intent, so no journal can be opened on it
    simp only [Bool.and_eq_true, Bool.not_eq_true'] at hm ⊢
    refine ⟨hm.1, ?_⟩
    have hintent : n.hasDestinationIntent = m.hasDestinationIntent := by
      unfold Move.hasDestinationIntent Move.cleanupPhase
      rw [cleanup_absent hstep hsound hm.2, hstatus]
    rw [hintent, hm.2]
  · simp only [Bool.and_eq_true, decide_eq_true_eq] at hm ⊢
    exact ⟨hm.1, cleanupPhase_completed hstep hm.2⟩
  · exact hm

/-! ### Claims -/

def World.claims (w : World) (name : String) : Bool :=
  match w.passes name with
  | some { stage := .decided _ decision _ _, .. } => decision.action = .claimSource
  | _ => false

/-! A migration that releases its lock and stops before it records Succeeded; a Move created by hand then claims
    the volume. -/

/-- A cluster in which every effect of a pass is found complete. -/
def settledCluster : ClusterFacts where
  facts := { Observation.none with
    preconditionsValid := true, sourceHealthy := true, replacementExists := true, replacementHeld := true
    placementExists := true, destinationScheduled := true, copyComplete := true, promotionComplete := true
    publishedOnDestination := true, cleanupComplete := true }
  diagnosed := false

def releasedCluster : ClusterFacts :=
  { settledCluster with facts := { settledCluster.facts with placementExists := false, replacementHeld := false } }

def samplePlan : WorkloadPlan where
  persistentVolumeName := "pv"
  persistentVolumeUID := "pv-uid"
  claimNamespace := "ns"
  claimName := "pvc"
  claimUID := "pvc-uid"
  consumerName := "pod"
  consumerUID := "pod-uid"
  candidateNodes := []
  reason := ""

/-- A pass that runs `effects` and stops. -/
def stopped (name : String) (cluster : ClusterFacts) (effects : List WorldAct) : List WorldAct :=
  [.start name, .observe name cluster] ++ effects ++ [.leave name]

/-- A pass that runs `effects` and records its decision. -/
def recorded (name : String) (cluster : ClusterFacts) (effects : List WorldAct) : List WorldAct :=
  [.start name, .observe name cluster] ++ effects ++ [.finish name samplePlan]

def creationActs : List WorldAct :=
  [.external (.volume (.recordCreationIntent "install" sampleState)),
   .external (.volume (.completeCreate "volume-1" sampleCopy))]

def claimActs (name uid sourceNode : String) : List WorldAct :=
  .external (.createMove name uid sourceNode) :: recorded name settledCluster [] ++ [.start name, .observe name settledCluster]

def approvalActs (name : String) (pool : PoolReference) (nodeName : String) : List WorldAct :=
  [.write name, .leave name] ++
  stopped name settledCluster [.reread name, .evidence name (.grant pool nodeName "placement")] ++
  recorded name settledCluster [] ++
  recorded name settledCluster [.write name] ++
  recorded name settledCluster [] ++ recorded name settledCluster [] ++ recorded name settledCluster [] ++
  stopped name settledCluster [.reread name, .evidence name (.measure 5)] ++
  stopped name settledCluster [.reread name, .evidence name .convert]

def commitActs (name : String) : List WorldAct :=
  recorded name settledCluster [] ++ recorded name settledCluster [.evidence name .promotion] ++
  recorded name settledCluster [.write name]

def sampleDestination : CopyIdentity :=
  (moveTransactionCopies "move-1" sampleVolumeID (preparationAnchor sampleCopy samplePreparation)).2

def retireActs : List WorldAct :=
  recorded "move" settledCluster [] ++ recorded "move" releasedCluster [] ++
  [.external (.volume (.beginPublish "node-b" sampleDestination))] ++
  stopped "move" releasedCluster [.journal "move" none] ++ recorded "move" releasedCluster []

def purgeActs : List WorldAct := purgeStatuses.map fun next => .external (.move "move" (.updateCleanup sampleCleanup next))

def crashedMigration : List World :=
  replayedWorlds (fun _ _ => true) sampleStore <| creationActs ++ claimActs "move" "move-1" "node-a" ++
    approvalActs "move" samplePreparation.pool "node-b" ++ commitActs "move" ++ retireActs ++ purgeActs ++
    recorded "move" releasedCluster [] ++ stopped "move" releasedCluster [.write "move"] ++
    claimActs "other" "move-2" "node-b"

/-- The claim of the second Move is accepted while the first one is approved and not settled. -/
theorem claim_before_settlement : ∃ w past w' m, crashedMigration = w :: past ∧ WorldRun (w :: past) ∧
    w.claims "other" ∧ w.step (.write "other") = .ok w' ∧ w.store.moves.find "move" = some m ∧
    m.status.capacityApproved ∧ moveCleanupSettled m = false := by
  have hclaim : (crashedMigration.head?.any fun w => w.claims "other" && passes (w.step (.write "other")) &&
      (w.store.moves.find "move").any fun m => m.status.capacityApproved && !moveCleanupSettled m) = true := by
    decide +kernel
  obtain ⟨w, past, hl, hw⟩ := Run.exists_head hclaim
  simp only [Bool.and_eq_true, Option.any_eq_true, Bool.not_eq_true'] at hw
  obtain ⟨⟨hclaims, haccepted⟩, m, hm, happroved, hunsettled⟩ := hw
  obtain ⟨w', hw'⟩ := passes_iff.mp haccepted
  exact ⟨w, past, w', m, hl, GuardedRun.worldRun (replayedWorlds_run sampleStore_initial hl), hclaims, hw', hm, happroved,
    hunsettled⟩

end ShiftPV

import ShiftPV.CopySpace
import ShiftPV.Theorems.PoolCharges

/-! The owner commit in the life of a Move. The phases after `Committing` are reached only through an observed commit, so a
    Move in one of them has had its destination copy served. -/

namespace ShiftPV
open Check

variable {w w' : World} {act : WorldAct} {name uid : String} {m n p : Move} {v : State} {past l : List World}
  {observed : Observed} {d : Decision} {fresh : Option State} {wrote : Bool}

/-! ### Phases -/

def MovePhase.afterCommit : MovePhase → Bool
  | .releasingDestination | .waitingForDestinationPublish | .cleaningSource | .completing | .succeeded => true
  | _ => false

theorem outcomes_afterCommit (phase : MovePhase) : ∀ x ∈ outcomes phase, x.2.afterCommit →
    phase.afterCommit ∨ phase = .committing ∧ x.1 = .deletePlacement ∧ x.2 = .releasingDestination := by
  cases phase <;> decide

theorem observeLifecycle_committed {volume : Option State} {cluster : ClusterFacts}
    (h : observeLifecycle p volume cluster = .ok observed) (hphase : p.status.phase = .committing)
    (hcommitted : observed.facts.ownerCommitted) : ∃ v, volume = some v ∧ DestinationHeld p v := by
  simp only [observeLifecycle, hphase] at h
  rw [seq_ok, bind_ok] at h
  obtain ⟨-, seen, hseen, h⟩ := h
  obtain rfl := pure_ok.mp h
  have hfacts : seen.facts.ownerCommitted := by
    unfold preparedExecutionChanged at hcommitted
    split at hcommitted <;> exact hcommitted
  unfold observeExecution at hseen
  split at hseen
  · rw [seq_ok, pure_ok] at hseen
    obtain ⟨-, rfl⟩ := hseen
    simp [Observation.none] at hfacts
  · rename_i state
    rw [if_neg (by simp [hphase]), if_neg (by simp [hphase])] at hseen
    split at hseen
    · rename_i retired hretired
      rw [observeWorkloadRetirement_eq hretired hseen] at hfacts
      simp [Observation.none] at hfacts
    · have hauthority : hasCommittedDestinationAuthority p state false := by
        split at hseen <;> (obtain rfl := pure_ok.mp hseen; exact hfacts)
      exact ⟨state, rfl, (hasCommittedDestinationAuthority_inv hauthority).2.1⟩

/-! ### Served destinations -/

def Move.Served (h : List Store) (m : Move) : Prop := ∃ c, m.status.destinationCopy = some c ∧ CopySeen h c

theorem Move.Served.step (hm : m.Served w.history) (hw : WorldSound w) (hs : WorldStep w act w')
    (hkept : ∀ c, m.status.destinationCopy = some c → n.status.destinationCopy = some c) : n.Served w'.history := by
  obtain ⟨c, hc, v, ⟨s, hmem, hv⟩, hserved⟩ := hm
  exact ⟨c, hkept c hc, v, ⟨s, (hw.store_change hs).history s hmem, hv⟩, hserved⟩

theorem DestinationHeld.served (h : DestinationHeld m v) (hv : w.store.volume = some v) : m.Served w.history := by
  obtain ⟨c, hc, hserved, -⟩ := h.copy
  exact ⟨c, hc, .head hv hserved⟩

/-- A Move after its commit has had its destination served, and so has one whose pass is about to go on from its commit. -/
structure Committed (w : World) : Prop where
  moves : ∀ name m, w.store.moves.find name = some m → m.status.phase.afterCommit → m.Served w.history
  passes : ∀ name p observed d fresh wrote, w.passes name = some ⟨p, .decided observed d fresh wrote⟩ →
    p.status.phase = .committing → d.next.phase = .releasingDestination → p.Served w.history

theorem Committed.moves_step (h : Committed w) (hw : WorldSound w) (hs : WorldStep w act w')
    (hn : w'.store.moves.find name = some n) (hphase : n.status.phase.afterCommit) : n.Served w'.history := by
  rcases hw.move_origin hs hn with ⟨m, hm, hstep, hchange⟩ | ⟨-, uid, node, rfl, -⟩
  swap
  · simp [createMove, MoveStatus.empty, MovePhase.afterCommit] at hphase
  have hk := Continues.of_change hstep
  have hkept : m.status.phase.afterCommit → n.Served w'.history :=
    fun hbefore => (h.moves name m hm hbefore).step hw hs hk.destination
  cases hchange with
  | kept same => exact hkept (same ▸ hphase)
  | announced fresh status => simp [status, MovePhase.afterCommit] at hphase
  | diagnosed executing status => exact hkept (by rwa [status] at hphase)
  | evidence pass same action recorded accepted => exact hkept (recorded.phase accepted same ▸ hphase)
  | @finished p observed d fresh wrote plan pass same complete settled status =>
    rw [status, finishedStatus_phase] at hphase
    rcases outcomes_afterCommit _ _ (hw.decided pass).listed hphase with hbefore | ⟨hcommitting, -, hnext⟩
    · rw [normalized_of_ne_pending (by rintro hp; simp [hp, MovePhase.afterCommit] at hbefore)] at hbefore
      exact hkept (same ▸ hbefore)
    · have hserved := h.passes name p observed d fresh wrote pass (normalized_phase hcommitting (by decide)) hnext
      exact hserved.step hw hs (same ▸ hk.destination)

theorem Committed.passes_step (h : Committed w) (hw : WorldSound w) (hs : WorldStep w act w')
    (hcopies : ∀ name m, w'.store.moves.find name = some m → m.status.phase.copies → m.status.capacityApproved)
    (hpass : w'.passes name = some ⟨p, .decided observed d fresh wrote⟩) (hphase : p.status.phase = .committing)
    (hnext : d.next.phase = .releasingDestination) : p.Served w'.history := by
  have hkept : ∀ {before wrote}, w.passes name = some ⟨p, .decided observed d before wrote⟩ → p.Served w'.history :=
    fun pass => (h.passes name p observed d _ _ pass hphase hnext).step hw hs fun _ => id
  cases hs.pass_change hpass with
  | kept pass | reread pass store read | wrote pass volume action applied => exact hkept pass
  | observed pass store seen decided unread =>
    have hcommitted := decideMove_releasing (Observed.decide_inv decided).1 hphase hnext
    obtain ⟨v, hv, hheld⟩ := observeLifecycle_committed seen hphase hcommitted
    exact hheld.served (store ▸ hv)
  | retried cancellable store unread =>
    -- a preparation that can be taken back is not approved
    rw [cancellablePreparation, seq_ok, require_ok, require_ok] at cancellable
    obtain ⟨m, hm, hstatus⟩ := ((hw.step hs).passes name _ hpass).stored
    have happroved := hcopies name m hm (by simp [hstatus, hphase, MovePhase.copies])
    exact absurd (hstatus ▸ happroved) cancellable.2.1
  | @recorded before evidence wrote pass action volume =>
    have hlisted := ((hw.step hs).decided hpass).listed
    rcases outcomes_afterCommit _ _ hlisted (by simp [hnext, MovePhase.afterCommit]) with hbefore | ⟨-, haction, -⟩
    · rw [normalized_of_known (by simp [Move.lifecycle, hphase])] at hbefore
      simp [Move.lifecycle, hphase, MovePhase.afterCommit] at hbefore
    · rw [← action] at haction
      cases evidence <;> simp [Evidence.action] at haction

theorem committed_initial (h : w.Initial) : Committed w := by
  obtain ⟨⟨v, -, -, -, hmoves⟩, -, hpasses⟩ := h
  exact ⟨fun name m hm => by simp [Table.find, hmoves] at hm, by simp [hpasses]⟩

theorem WorldRun.committed (hr : WorldRun l) : ∀ w ∈ l, Committed w := by
  refine Run.forall_mem (I := Committed) (fun w hinit => committed_initial hinit) ?_ hr
  intro w w' past act hrun ih hs
  have hsound := WorldRun.sound hrun w (by simp)
  have hstep := World.step_inv (Run.onHead_cons.mp hs)
  have hnext : WorldRun (w' :: w :: past) := .next hrun hs
  exact ⟨fun _ _ hn => (ih w (by simp)).moves_step hsound hstep hn, fun _ _ _ _ _ _ hpass =>
    (ih w (by simp)).passes_step hsound hstep (WorldRun.approved hnext w' (by simp)) hpass⟩

/-! ### Uncommitted Moves -/

theorem World.committed_iff : w.committed m ↔ m.Served w.history := by
  simp only [World.committed, Move.Served, CopySeen, SeenVolume, World.history, List.any_eq_true, Option.any_eq_true,
    Bool.and_eq_true, decide_eq_true_eq, Option.isSome_iff_exists]
  constructor
  · rintro ⟨s, hs, v, hv, ⟨c, hc⟩, hsame⟩
    exact ⟨c, hsame.symm.trans hc, v, ⟨s, hs, hv⟩, hc⟩
  · rintro ⟨c, hc, v, ⟨s, hs, hv⟩, hserved⟩
    exact ⟨s, hs, v, hv, ⟨c, hserved⟩, hserved.trans hc.symm⟩

/-- An approved Move that has not committed is not settled, and its locked Volume still serves the source. -/
theorem WorldRun.uncommitted (hr : WorldRun (w :: past)) (hm : w.store.moves.find name = some m)
    (happroved : m.status.capacityApproved) (huncommitted : ¬w.committed m) :
    ¬moveCleanupSettled m ∧ ∃ v, w.store.volume = some v ∧ v.activeMove = name ∧ SourceHeld m v := by
  have hw := WorldRun.sound hr w (by simp)
  rw [World.committed_iff] at huncommitted
  have hphase : ¬m.status.phase.afterCommit := fun hphase =>
    huncommitted ((WorldRun.committed hr w (by simp)).moves name m hm hphase)
  have hcompleting : m.status.phase ≠ .completing := fun h => hphase (by simp [h, MovePhase.afterCommit])
  have hsucceeded : m.status.phase ≠ .succeeded := fun h => hphase (by simp [h, MovePhase.afterCommit])
  obtain ⟨v, hv, rfl⟩ := (WorldRun.held hr w (by simp)).locked name m hm (.inr ⟨happroved, hcompleting, hsucceeded⟩)
  refine ⟨not_settled_of_approved happroved hsucceeded, v, hv, rfl, ?_⟩
  have hname : v.activeMove ≠ "" := Table.key_of_find hm ▸ (hw.coherent.bound _ m hm).named
  obtain ⟨k, hk, howns⟩ := hw.coherent.lock v (.head hv) hname
  obtain rfl : k = m := Option.some.inj (hk.symm.trans hm)
  exact howns.resolve_right fun hheld => huncommitted (hheld.served hv)

theorem WorldRun.measured (hr : WorldRun l) :
    ∀ w ∈ l, ∀ name m, w.store.moves.find name = some m → m.status.capacityApproved → 0 < m.status.sourceBytes := by
  refine Run.forall_mem (I := fun w => ∀ name m, w.store.moves.find name = some m → m.status.capacityApproved →
    0 < m.status.sourceBytes) ?_ ?_ hr
  · rintro w ⟨⟨v, -, -, -, hmoves⟩, -⟩ name m hm
    simp [Table.find, hmoves] at hm
  · intro w w' past act hrun ih hs name n hn happroved
    have hw := WorldRun.sound hrun w (by simp)
    have hstep := World.step_inv (Run.onHead_cons.mp hs)
    rcases hw.move_origin hstep hn with ⟨m, hm, hmove, -⟩ | ⟨-, uid, node, rfl, -⟩
    swap
    · simp [createMove, MoveStatus.empty] at happroved
    cases hbefore : m.status.capacityApproved with
    | true =>
      have hbytes := ih w (by simp) name m hm hbefore
      exact (Continues.of_change hmove).bytes hbytes ▸ hbytes
    | false =>
      obtain ⟨-, p, stage, v, -, -, hconverted⟩ := hstep.approval hw hm hn hbefore happroved
      obtain ⟨hold, source, -, hbytes, -, -, hstatus⟩ := convertPreparation_inv hconverted
      rw [hstatus]
      exact hbytes

end ShiftPV

import ShiftPV.Authority
import ShiftPV.Theorems.DeletionFence
import ShiftPV.Theorems.Transactions

/-! Purge never hits live data. The authority check of a cleanup and the purge it allows are separate steps,
    so what the check saw must hold from then on: a deletion fence is absorbing, the source of a committed Move
    never serves again, and a blocked Move never commits its destination. -/

namespace ShiftPV
open Check

variable {w w₁ w₂ : World} {name : String} {m n : Move} {v : State} {c d : CopyIdentity}

/-! ### The check -/

inductive CleanupAuthorized (reads : AuthorityReads) (spec : CleanupSpec) : Prop where
  | volume (v : State) (read : reads.get spec.authority.name = some v) (deleting : v.phase = .deleting)
      (operation : v.deletionOperationID = spec.operationID)
  | source (m : Move) (v : State) (d : CopyIdentity) (readMove : reads.getMove spec.authority.name = some m)
      (read : reads.get m.spec.volumeID = some v) (source : m.status.sourceCopy = some spec.target)
      (destination : m.status.destinationCopy = some d) (serving : v.currentCopy = some d)
  | rollback (m : Move) (v : State) (readMove : reads.getMove spec.authority.name = some m)
      (read : reads.get m.spec.volumeID = some v) (target : moveOwnsDestinationArtifact m spec.target)
      (blocked : m.status.phase = .blocked) (serving : v.currentCopy = m.status.sourceCopy)
      (present : v.currentCopy.isSome)

theorem moveRetiresUnpublishedSource_copy (h : moveRetiresUnpublishedSource m v) (hd : m.status.destinationCopy = some d) :
    v.currentCopy = some d := by
  unfold moveRetiresUnpublishedSource at h
  rw [Bool.and_eq_true] at h
  replace h := h.2
  split at h
  · rename_i source incoming copy hs hi hcopy
    obtain rfl : copy = d := Option.some.inj (hcopy.symm.trans hd)
    simp only [Bool.and_eq_true, decide_eq_true_eq] at h
    exact h.1.2
  · simp at h

theorem verifyMoveSourceCleanupAuthority_inv {reads : AuthorityReads} {spec : CleanupSpec}
    (h : verifyMoveSourceCleanupAuthority reads spec m v = .ok ()) :
    m.status.sourceCopy = some spec.target ∧ ∃ d, m.status.destinationCopy = some d ∧ v.currentCopy = some d := by
  rw [verifyMoveSourceCleanupAuthority, seq_ok, require_ok] at h
  obtain ⟨⟨-, hsource⟩, h⟩ := h
  split at h
  · simp at h
  · rename_i d hd
    refine ⟨hsource, d, hd, ?_⟩
    split at h
    · rw [verifyUnpublishedDestination, seq_ok, require_ok] at h
      exact moveRetiresUnpublishedSource_copy h.1 hd
    · rw [seq_ok, require_ok] at h
      have hserves := h.1.2
      simp only [destinationOwnsPublishedCopy, Bool.and_eq_true, decide_eq_true_eq] at hserves
      rw [hserves.1.1.2, hd]

theorem verifyCleanupAuthority_inv {reads : AuthorityReads} {spec : CleanupSpec}
    (h : verifyCleanupAuthority reads spec = .ok ()) : CleanupAuthorized reads spec := by
  unfold verifyCleanupAuthority at h
  split at h
  · split at h
    · simp at h
    · rename_i v hv
      rw [seq_ok, require_ok] at h
      obtain ⟨⟨-, -, hphase, hop, -, -⟩, -⟩ := h
      exact .volume v hv hphase hop
  · unfold verifyMoveCleanupAuthority at h
    split at h
    · simp at h
    · rename_i m hm
      rw [seq_ok] at h
      replace h := h.2
      split at h
      · simp at h
      · rename_i v hv
        rw [seq_ok, require_ok] at h
        obtain ⟨⟨-, -, hpresent⟩, h⟩ := h
        split at h
        · obtain ⟨hsource, d, hd, hserving⟩ := verifyMoveSourceCleanupAuthority_inv h
          exact .source m v d hm hv hsource hd hserving
        · rw [verifyMoveRollbackCleanupAuthority, require_ok] at h
          obtain ⟨-, htarget, -, -, hretiring, -, -, hserving, -⟩ := h
          simp only [moveRetiringUnderRecoveryOwner, Bool.and_eq_true, decide_eq_true_eq] at hretiring
          exact .rollback m v hm hv htarget hretiring.1.1.1 hserving hpresent
        · simp at h
  · simp at h

/-! ### What one step keeps -/

def Planned (w : World) (name : String) (c d : CopyIdentity) : Prop :=
  ∃ m, w.store.moves.find name = some m ∧ m.status.sourceCopy = some c ∧ m.status.destinationCopy = some d

structure Spent (w : World) (name : String) (c d : CopyIdentity) : Prop where
  planned : Planned w name c d
  served : CopySeen w.history d

theorem Spent.step {act : WorldAct} (h : Spent w name c d) (hw : WorldSound w) (hs : WorldStep w act w₂) :
    Spent w₂ name c d := by
  obtain ⟨⟨m, hm, hc, hd⟩, v, ⟨s, hmem, hs'⟩, hserved⟩ := h
  obtain ⟨n, hn, hstep, -⟩ := hw.move_change hs hm
  have hk := Continues.of_change hstep
  exact ⟨⟨n, hn, hk.source c hc, hk.destination d hd⟩, v, ⟨s, (hw.store_change hs).history s hmem, hs'⟩, hserved⟩

theorem Spent.not_serving (h : Spent w name c d) (hw : WorldSound w) (hv : w.store.volume = some v) :
    v.currentCopy ≠ some c := by
  obtain ⟨⟨m, hm, hc, hd⟩, hserved⟩ := h
  exact (hw.descended.spent name m d c hm hd hc hserved).2 v hv

def BlockedWith (w : World) (name : String) (d : CopyIdentity) : Prop :=
  ∃ m, w.store.moves.find name = some m ∧ m.status.phase = .blocked ∧ m.status.destinationCopy = some d

theorem BlockedWith.step {act : WorldAct} (h : BlockedWith w name d) (hw : WorldSound w) (hs : WorldStep w act w₂) :
    BlockedWith w₂ name d := by
  obtain ⟨m, hm, hblocked, hd⟩ := h
  obtain ⟨n, hn, hstep, hchange⟩ := hw.move_change hs hm
  have hk := Continues.of_change hstep
  exact ⟨n, hn, hchange.blocked hw hblocked (by simp [hd]), hk.destination d hd⟩

theorem Decided.commit_phase {h : List Store} {observed : Observed} {e : Decision} {fresh : Option State}
    (hd : Decided h m observed e fresh) (haction : e.action.volumeWrite = some .commitOwner) :
    m.status.phase = .promoting ∨ m.status.phase = .committing := by
  have hcommit : e.action = .commitOwner := by
    cases ha : e.action <;> simp [ha, Action.volumeWrite] at haction
    rfl
  have hphases : ∀ phase : MovePhase, ∀ x ∈ outcomes phase, x.1 = .commitOwner → phase = .promoting ∨ phase = .committing := by
    intro phase
    cases phase <;> decide
  have hphase := hphases _ _ hd.listed hcommit
  rw [normalized_of_ne_pending (by rcases hphase with hp | hp <;> simp [hp])] at hphase
  exact hphase

theorem WorldSound.commit_unblocked {observed : Observed} {e : Decision} {fresh : Option State} {wrote : Bool} {p : Move}
    (hw : WorldSound w) (hm : w.store.moves.find name = some m) (hpass : w.passes name = some ⟨p, .decided observed e fresh wrote⟩)
    (haction : e.action.volumeWrite = some .commitOwner) : m.status.phase ≠ .blocked := by
  obtain ⟨k, hk, hstatus⟩ := (hw.passes _ _ hpass).stored
  obtain rfl : m = k := Option.some.inj (hm.symm.trans hk)
  rw [hstatus]
  rcases (hw.decided hpass).commit_phase haction with hp | hp <;> simp [hp]

structure Withheld (w : World) (name : String) (d : CopyIdentity) : Prop where
  blocked : BlockedWith w name d
  serving : ∀ v, w.store.volume = some v → v.currentCopy.isSome ∧ v.currentCopy ≠ some d

theorem Withheld.step {act : WorldAct} (h : Withheld w name d) (hw : WorldSound w) (hs : WorldStep w act w₂) :
    Withheld w₂ name d := by
  refine ⟨h.blocked.step hw hs, fun x hx => ?_⟩
  cases hw.store_change hs with
  | same store past => exact h.serving x (store ▸ hx)
  | write op step past own =>
    obtain ⟨v, hv, -⟩ := hw.coherent.volume_step step hx
    obtain ⟨hsome, hne⟩ := h.serving v hv
    cases hw.coherent.copy_step step hv hx with
    | kept same => exact same ▸ ⟨hsome, hne⟩
    | initial c before after named => simp [before] at hsome
    | commit m' m o write stored continues source destination =>
      obtain ⟨-, -, e, he, hxe, -⟩ := destination
      refine ⟨by simp [hxe], fun hxd => ?_⟩
      obtain rfl : e = d := Option.some.inj (hxe.symm.trans hxd)
      -- only this Move has `d` as its destination, and its own pass would have to commit it
      obtain ⟨k, hk, hblocked, hd⟩ := h.blocked
      obtain rfl := hw.descended.same_move hw.coherent hk stored hd he
      obtain ⟨observed, dec, fresh, hpass, haction⟩ := own _ _ _ write
      exact hw.commit_unblocked hk hpass haction hblocked

/-! ### Runs -/

theorem WorldRun.since {Q : World → Prop} (hQ : Q w) (hstep : ∀ {x y act}, WorldSound x → Q x → WorldStep x act y → Q y)
    {later earlier : List World} (hr : WorldRun (later ++ w :: earlier)) : ∀ u ∈ later ++ [w], Q u := by
  refine Run.since hQ ?_ hr
  intro x y rest act hrun hx hs
  exact hstep (WorldRun.sound hrun x (by simp)) hx (World.step_inv (Run.onHead_cons.mp hs))

theorem WorldRun.fence_since {later earlier : List World} (hr : WorldRun (later ++ w :: earlier))
    (hv : w.store.volume = some v) (hd : v.phase = .deleting) :
    ∀ u ∈ later ++ [w], ∀ x, u.store.volume = some x → SameFence v x := by
  refine WorldRun.since (Q := fun u => ∀ x, u.store.volume = some x → SameFence v x) ?_ ?_ hr
  · intro x hx
    obtain rfl : v = x := Option.some.inj (hv.symm.trans hx)
    exact .refl v
  · intro x y act hsound hx hs z hz
    cases hsound.store_change hs with
    | same store past => exact hx z (store ▸ hz)
    | write op step past own =>
      cases hxv : x.store.volume with
      | none => simp [(StaleStep.removed step hxv).2] at hz
      | some u =>
        have hfence := hx u hxv
        have hdeleting : u.phase = .deleting := hfence.phase.trans hd
        exact hfence.trans ((hsound.coherent.fence_step step hxv hdeleting).2 z hz)

theorem mem_run {later earlier : List World} (h : w ∈ later ++ [w₂]) : w ∈ later ++ w₂ :: earlier := by
  simp only [List.mem_append, List.mem_cons, List.not_mem_nil] at h ⊢
  tauto

theorem authorityReads_volume {moves volume : Store} {pools : CopyIdentity → Option PoolEvidence} {id : String}
    (h : (authorityReads moves volume pools).get id = some v) : volume.volume = some v := by
  simp only [authorityReads] at h
  split_ifs at h
  exact h

theorem MoveSound.artifacts (hm : MoveSound m) (h : moveOwnsDestinationArtifact m c) :
    m.status.destinationCopy = some c ∨ c.role = .incoming := by
  simp only [moveOwnsDestinationArtifact, Bool.or_eq_true, decide_eq_true_eq] at h
  rcases h with hi | hd
  · obtain ⟨source, anchor, hplan⟩ := hm.derived (Or.inr (by simp [Move.hasDestinationIntent, hi]))
    obtain rfl := Option.some.inj (hplan.incoming.symm.trans hi)
    exact Or.inr rfl
  · exact Or.inl hd

theorem WorldSound.serving_role (hw : WorldSound w) (hv : w.store.volume = some v) (hc : v.currentCopy = some c) :
    c.role = .serving := by
  have hserves := (hw.coherent.sound v (.head hv)).copy c hc
  simp only [CopyIdentity.servesFor, Bool.and_eq_true, decide_eq_true_eq] at hserves
  exact hserves.1.1.1.2

/-- A cleanup whose authority check passed never hits live data, however long its purge takes: the target is not
    the current copy from the check on, or the volume stands behind the deletion fence of this very operation
    until it is removed. The check reads the Move in `w₁` and the Volume later, in `w₂`. -/
theorem purge_never_live {later earlier : List World} {spec : CleanupSpec} {pools : CopyIdentity → Option PoolEvidence}
    (hr : WorldRun (later ++ w₂ :: earlier)) (hread : w₁ ∈ w₂ :: earlier)
    (hauth : verifyCleanupAuthority (authorityReads w₁.store w₂.store pools) spec = .ok ()) :
    (∀ w ∈ later ++ [w₂], ∀ v, w.store.volume = some v → v.currentCopy ≠ some spec.target) ∨
    ∀ w ∈ later ++ [w₂], ∀ v, w.store.volume = some v →
      v.phase = .deleting ∧ v.deletionOperationID = spec.operationID ∧ v.publishedNodes = [] := by
  have hsound := WorldRun.sound hr
  have hearly := Run.suffix hr
  have hsound₂ := hsound w₂ (by simp)
  -- the Move that was read, in the version stored when the Volume was read
  have hmove : ∀ m, w₁.store.moves.find spec.authority.name = some m →
      ∃ n, w₂.store.moves.find spec.authority.name = some n ∧ Continues m n := by
    intro m hm
    have hname : m.name = spec.authority.name := Table.key_of_find hm
    obtain ⟨n, hn, hk⟩ := hsound₂.coherent.moves m ⟨w₁.store, WorldRun.stores_seen hearly w₁ hread, by rw [hname, hm]⟩
    exact ⟨n, by rw [← hname, hn], hk⟩
  cases verifyCleanupAuthority_inv hauth with
  | volume v read deleting operation =>
    right
    intro w hw x hx
    have hfence := WorldRun.fence_since hr (authorityReads_volume read) deleting w hw x hx
    have hstate := (hsound w (mem_run hw)).coherent.sound x (.head hx)
    have hdeleting : x.phase = .deleting := hfence.phase.trans deleting
    exact ⟨hdeleting, hfence.operation.trans operation, (hstate.deleting hdeleting).2.1⟩
  | source m v d readMove read source destination serving =>
    left
    obtain ⟨n, hn, hk⟩ := hmove m readMove
    have hspent : Spent w₂ spec.authority.name spec.target d :=
      ⟨⟨n, hn, hk.source _ source, hk.destination d destination⟩, .head (authorityReads_volume read) serving⟩
    have hlater := WorldRun.since (Q := fun w => Spent w spec.authority.name spec.target d) hspent
      (fun hw h hs => h.step hw hs) hr
    intro w hw x hx
    exact (hlater w hw).not_serving (hsound w (mem_run hw)) hx
  | rollback m v readMove read target blocked serving present =>
    left
    have hsound₁ := hsound w₁ (List.mem_append_right _ hread)
    have hmove₁ := (hsound₁.coherent.bound _ m readMove).sound
    rcases hmove₁.artifacts target with hdest | hrole
    · obtain ⟨l, older, hsplit⟩ := List.append_of_mem hread
      have hrun₁ : WorldRun (l ++ w₁ :: older) := hsplit ▸ hearly
      obtain ⟨x, rest, hx, hmem⟩ := Run.head_later l w₁ older
      obtain rfl : w₂ = x := (List.cons.inj (hsplit.trans hx)).1
      have hblocked := WorldRun.since (Q := fun w => BlockedWith w spec.authority.name spec.target)
        ⟨m, readMove, blocked, hdest⟩ (fun hw h hs => h.step hw hs) hrun₁ w₂ hmem
      obtain ⟨-, source, hsource, hne⟩ := hmove₁.destination_id hdest
      have hwithheld : Withheld w₂ spec.authority.name spec.target := by
        refine ⟨hblocked, fun x hx => ?_⟩
        obtain rfl : v = x := Option.some.inj ((authorityReads_volume read).symm.trans hx)
        refine ⟨present, ?_⟩
        rw [serving, hsource]
        exact fun h => hne (Option.some.inj h).symm
      have hlater := WorldRun.since (Q := fun w => Withheld w spec.authority.name spec.target) hwithheld
        (fun hw h hs => h.step hw hs) hr
      intro w hw x hx
      exact ((hlater w hw).serving x hx).2
    · -- an incoming copy never serves
      intro w hw x hx hcopy
      have hserving := (hsound w (mem_run hw)).serving_role hx hcopy
      simp [hrole] at hserving

/-! A volume deletion whose object is stamped after the check. -/

def deletionActs : List WorldAct :=
  [.external (.volume (.recordCreationIntent "install" sampleState)),
   .external (.volume (.completeCreate "volume-1" sampleCopy)),
   .external (.volume (.beginDelete "volume-1" sampleCopy)),
   .external (.volume .requestDeletion)]

def deletionSpec : CleanupSpec where
  operationID := deletionOperationID "volume-1"
  target := sampleCopy
  reason := .volumeDelete
  authority := { kind := .shiftPVVolume, name := sampleVolumeID, uid := "volume-1" }

def deletion : List World := replayedWorlds (fun _ _ => true) sampleStore deletionActs

theorem purge_never_live_deletion : ∃ w₃ w₂ earlier, deletion = w₃ :: w₂ :: earlier ∧
    verifyCleanupAuthority (authorityReads w₂.store w₂.store fun _ => none) deletionSpec = .ok () ∧
    ((∀ w ∈ [w₃, w₂], ∀ v, w.store.volume = some v → v.currentCopy ≠ some deletionSpec.target) ∨
      ∀ w ∈ [w₃, w₂], ∀ v, w.store.volume = some v →
        v.phase = .deleting ∧ v.deletionOperationID = deletionSpec.operationID ∧ v.publishedNodes = []) := by
  have hauth : (deletion.tail.head?.any fun w =>
      passes (verifyCleanupAuthority (authorityReads w.store w.store fun _ => none) deletionSpec)) = true := by
    decide +kernel
  match hl : deletion with
  | [] | [_] => simp [hl] at hauth
  | w₃ :: w₂ :: earlier =>
    have hrun : WorldRun ([w₃] ++ w₂ :: earlier) := GuardedRun.worldRun (replayedWorlds_run sampleStore_initial hl)
    have hok : verifyCleanupAuthority (authorityReads w₂.store w₂.store fun _ => none) deletionSpec = .ok () := by
      simpa [hl, passes_unit] using hauth
    exact ⟨w₃, w₂, earlier, rfl, hok, purge_never_live hrun (by simp) hok⟩

end ShiftPV

import ShiftPV.Theorems.Coherence

/-! The deletion fence is absorbing. `mutateState` refills what a writer leaves empty and every writer
    carries a whole proposed record, so the fence holds because each writer's own precondition excludes the
    phase Deleting, and for no other reason. -/

namespace ShiftPV
open Check

variable {s t : Store} {past : List Store} {op : Op} {v w : State} {volumeID : String}

/-- Writes that would bring a fenced volume back: publication, creation and every mobility write. -/
def Op.revives : Op → Bool
  | .volume (.bindCreation _ _) | .volume (.recordCreationReceipt _ _) | .volume (.completeCreate _ _)
  | .volume (.beginPublish _ _) | .volume (.reconcilePublished _ _ true) | .volume (.mobility _ _ _) => true
  | _ => false

structure SameFence (v w : State) : Prop where
  phase : w.phase = v.phase
  operation : w.deletionOperationID = v.deletionOperationID
  copy : w.currentCopy = v.currentCopy
  uid : w.uid = v.uid

theorem SameFence.refl (v : State) : SameFence v v := ⟨rfl, rfl, rfl, rfl⟩

theorem SameFence.trans {x : State} (h₁ : SameFence v w) (h₂ : SameFence w x) : SameFence v x :=
  ⟨h₂.phase.trans h₁.phase, h₂.operation.trans h₁.operation, h₂.copy.trans h₁.copy, h₂.uid.trans h₁.uid⟩

/-- A write of the creation, publication or deletion path on a fenced volume leaves the fence alone. -/
theorem applyVolumeWrite_fenced {write : VolumeWrite} (hw : applyVolumeWrite volumeID write v = .ok w)
    (hd : v.phase = .deleting) (hmob : ∀ k m o, write ≠ .mobility k m o) :
    SameFence v w ∧ Op.revives (.volume write) = false := by
  cases write with
  | bindInitialPool expected pool =>
    obtain ⟨hinit, -⟩ := bindInitialPool_inv hw
    simp only [State.initializing, Bool.and_eq_true] at hinit
    simp [(unstartedCreation_inv hinit.2).2.2.1] at hd
  | recordCreationIntent installationID observed =>
    rcases completeInitialization_inv hw with ⟨-, rfl⟩ | ⟨hinit, -⟩
    · exact ⟨.refl w, rfl⟩
    · simp only [State.initializing, Bool.and_eq_true] at hinit
      simp [(unstartedCreation_inv hinit.2).2.2.1] at hd
  | bindCreation expected executor =>
    obtain ⟨hphase, -⟩ := bindCreation_inv hw
    simp [hd] at hphase
  | recordCreationReceipt expected receipt =>
    obtain ⟨hphase, -⟩ := recordCreationReceipt_inv hw
    simp [hd] at hphase
  | completeCreate uid copy =>
    obtain ⟨-, ⟨hphase, -⟩ | ⟨hphase, -⟩⟩ := completeCreate_inv hw <;> simp [hd] at hphase
  | beginPublish nodeName copy =>
    obtain ⟨hphase, -⟩ := beginPublish_inv hw
    simp [hd] at hphase
  | reconcilePublished nodeName copy published =>
    obtain ⟨-, -, hready, rfl⟩ := reconcilePublished_inv hw
    cases published with
    | true => simp [hd] at hready
    | false => exact ⟨⟨rfl, rfl, rfl, rfl⟩, rfl⟩
  | beginDelete uid copy =>
    obtain ⟨-, -, -, -, ⟨hphase, -⟩ | ⟨-, -, rfl⟩⟩ := beginDelete_inv hw
    · simp [hd] at hphase
    · exact ⟨.refl w, rfl⟩
  | beginCreationCancellation uid copy =>
    obtain ⟨-, -, -, ⟨-, rfl⟩ | ⟨hphase, -⟩⟩ := beginCreationCancellation_inv hw
    · exact ⟨.refl w, rfl⟩
    · simp [hd] at hphase
  | mobility k m o => exact absurd rfl (hmob k m o)
  | requestDeletion =>
    obtain rfl := pure_ok.mp hw
    exact ⟨⟨rfl, rfl, rfl, rfl⟩, rfl⟩

theorem Coherent.fence_step (hc : Coherent s (s :: past)) (hs : StaleStep (s :: past) op t) (hv : s.volume = some v)
    (hd : v.phase = .deleting) : op.revives = false ∧ ∀ w, t.volume = some w → SameFence v w := by
  obtain ⟨hobs, happly⟩ := staleStep_cons.mp hs
  have hsame : t.volume = s.volume → ∀ w, t.volume = some w → SameFence v w := by
    intro h w hw
    obtain rfl : v = w := Option.some.inj (hv.symm.trans (h.symm.trans hw))
    exact .refl v
  cases Store.apply_inv happly with
  | @volume write x y current accepted =>
    obtain rfl : x = v := Option.some.inj (current.symm.trans hv)
    by_cases hmob : ∃ k m o, write = .mobility k m o
    · obtain ⟨k, m', o, rfl⟩ := hmob
      obtain ⟨m, -, -, heff⟩ := hc.effect hobs.1 hobs.2 hv accepted
      exact absurd hd heff.before.ne_deleting
    · have hmob : ∀ k m o, write ≠ .mobility k m o := fun k m o h => hmob ⟨k, m, o, h⟩
      obtain ⟨hfence, hop⟩ := applyVolumeWrite_fenced accepted hd hmob
      refine ⟨hop, fun w hw => ?_⟩
      obtain rfl : y = w := Option.some.inj hw
      exact hfence
  | move current accepted | create named identified absent unique | updateCleanup current accepted => exact ⟨rfl, hsame rfl⟩
  | @ensureCleanup spec x journal current deleting operation target accepted =>
    obtain rfl : x = v := Option.some.inj (current.symm.trans hv)
    refine ⟨rfl, fun w hw => ?_⟩
    obtain rfl := Option.some.inj hw
    exact ⟨rfl, rfl, rfl, rfl⟩
  | remove current removable => exact ⟨rfl, by simp⟩

theorem StaleStep.removed (hs : StaleStep (s :: past) op t) (hv : s.volume = none) :
    op.revives = false ∧ t.volume = none := by
  have happly := (staleStep_cons.mp hs).2
  cases Store.apply_inv happly with
  | volume current accepted | ensureCleanup current deleting operation target accepted | updateCleanup current accepted
  | remove current removable => simp [hv] at current
  | move current accepted | create named identified absent unique => exact ⟨rfl, hv⟩

/-! ### Runs -/

/-- From a fenced state on, the stored volume stands behind that fence or is gone. -/
theorem fence_stable (hv : s.volume = some v) (hd : v.phase = .deleting) {l : List Store}
    (hr : StaleRun (l ++ s :: past)) : ∀ u ∈ l ++ [s], ∀ w, u.volume = some w → SameFence v w := by
  refine Run.since (Q := fun u => ∀ w, u.volume = some w → SameFence v w) ?_ ?_ hr
  · intro w hw
    obtain rfl : v = w := Option.some.inj (hv.symm.trans hw)
    exact .refl v
  · intro x t rest op hrun hx hs w hw
    cases hxv : x.volume with
    | none => simp [(StaleStep.removed hs hxv).2] at hw
    | some y =>
      have hy := hx y hxv
      exact hy.trans (((StaleRun.coherent hrun).fence_step hs hxv (hy.phase.trans hd)).2 w hw)

/-- A deletion operation that was ever recorded is the one a stored volume still records. -/
theorem StaleRun.operation_kept (hr : StaleRun (s :: past)) : ∀ v w, SeenVolume (s :: past) v →
    v.deletionOperationID ≠ "" → s.volume = some w → w.deletionOperationID = v.deletionOperationID := by
  rintro v w ⟨u, hu, huv⟩ hne hw
  obtain ⟨l, older, hsplit⟩ := List.append_of_mem hu
  have hrun : StaleRun (l ++ u :: older) := hsplit ▸ hr
  have hc := StaleRun.coherent (Run.suffix hrun)
  have hd : v.phase = .deleting := (hc.sound v (.head huv)).fenced hne
  obtain ⟨x, rest, hx, hmem⟩ := Run.head_later l u older
  obtain rfl : s = x := (List.cons.inj (hsplit.trans hx)).1
  exact (fence_stable huv hd hrun s hmem w hw).operation

theorem StaleRun.one_operation {h : List Store} (hr : StaleRun h) : ∀ v w, SeenVolume h v → SeenVolume h w →
    v.deletionOperationID ≠ "" → w.deletionOperationID ≠ "" → w.deletionOperationID = v.deletionOperationID := by
  induction hr with
  | @start s h0 =>
    rintro v w ⟨u, hu, hv⟩ ⟨x, hx, hw⟩ - -
    rw [List.mem_singleton] at hu hx
    subst hu hx
    rw [Option.some.inj (hv.symm.trans hw)]
  | @next s t past op hr hs ih =>
    intro v w hv hw hne hne'
    have hrun : StaleRun (t :: s :: past) := .next hr hs
    rcases seenVolume_cons.mp hw with hw' | hw'
    · exact StaleRun.operation_kept hrun v w hv hne hw'
    · rcases seenVolume_cons.mp hv with hv' | hv'
      · exact (StaleRun.operation_kept hrun w v hw hne' hv').symm
      · exact ih v w hv' hw' hne hne'

/-- Once the volume is fenced for deletion, every later version keeps phase, operation and copy with neither
    lock nor publication, no later write revives it, and one object never records both operations. -/
theorem deletion_fence_absorbing {l : List Store} (hr : StaleRun (l ++ s :: past)) (hv : s.volume = some v)
    (hd : v.phase = .deleting) :
    (∀ w, SeenVolume l w → w.phase = .deleting ∧ w.deletionOperationID = v.deletionOperationID ∧
      w.currentCopy = v.currentCopy ∧ w.activeMove = "" ∧ w.publishedNodes = []) ∧
    (∀ op t, StaleStep (l ++ s :: past) op t → op.revives = false) ∧
    ∀ a b, SeenVolume (l ++ s :: past) a → SeenVolume (l ++ s :: past) b →
      ¬(a.deletionOperationID = deletionOperationID a.uid ∧
        b.deletionOperationID = creationCancellationPrefix ++ b.uid) := by
  refine ⟨?_, ?_, ?_⟩
  · rintro w ⟨u, hu, hw⟩
    have hfence := fence_stable hv hd hr u (by simp [hu]) w hw
    obtain ⟨x, rest, hx, -⟩ := Run.head_later l s past
    rw [hx] at hr
    have hseen : SeenVolume (x :: rest) w := ⟨u, hx ▸ by simp [hu], hw⟩
    have hphase : w.phase = .deleting := hfence.phase.trans hd
    obtain ⟨hactive, hpub, -⟩ := ((StaleRun.coherent hr).sound w hseen).deleting hphase
    exact ⟨hphase, hfence.operation, hfence.copy, hactive, hpub⟩
  · intro op t hs
    have hfence := fence_stable hv hd hr
    obtain ⟨x, rest, hx, hmem⟩ := Run.head_later l s past
    rw [hx] at hr hs
    cases hxv : x.volume with
    | none => exact (hs.removed hxv).1
    | some y =>
      exact ((StaleRun.coherent hr).fence_step hs hxv ((hfence x hmem y hxv).phase.trans hd)).1
  · rintro a b ha hb ⟨hdelete, hcancel⟩
    have hna : a.deletionOperationID ≠ "" := by simp [hdelete, deletionOperationID]
    have hnb : b.deletionOperationID ≠ "" := by simp [hcancel, creationCancellationPrefix]
    have heq := StaleRun.one_operation hr a b ha hb hna hnb
    rw [hdelete, hcancel] at heq
    exact deletionOperationID_ne_cancellation _ _ heq.symm

/-! A created volume is deleted, and its object is marked for removal afterwards. -/

def deletionScript : List (Store → Op) :=
  [fun _ => .volume (.recordCreationIntent "install" sampleState),
   fun _ => .volume (.completeCreate "volume-1" sampleCopy),
   fun _ => .volume (.beginDelete "volume-1" sampleCopy),
   fun _ => .volume .requestDeletion]

theorem deletion_fence_absorbing_removal : ∃ s t v past, replayed sampleStore deletionScript = t :: s :: past ∧
    s.volume = some v ∧ v.phase = .deleting ∧
    ∀ w, t.volume = some w → w.phase = .deleting ∧ w.deletionOperationID = v.deletionOperationID := by
  have hrun : StaleRun (replayed sampleStore deletionScript) := replayed_run sampleStore_initial (by decide +kernel)
  have hfenced : ((replayed sampleStore deletionScript).tail.head?.bind (·.volume)).any (·.phase = .deleting) = true := by
    decide +kernel
  cases hh : replayed sampleStore deletionScript with
  | nil => simp [hh] at hfenced
  | cons t rest =>
    rw [hh, List.tail_cons] at hfenced
    obtain ⟨v, hv, hd⟩ := (Option.any_eq_true _ _).mp hfenced
    obtain ⟨s, hs, hsv⟩ := Option.bind_eq_some_iff.mp hv
    obtain ⟨past, rfl⟩ := List.head?_eq_some_iff.mp hs
    have hd : v.phase = .deleting := by simpa using hd
    rw [hh] at hrun
    have hrun : StaleRun ([t] ++ s :: past) := hrun
    refine ⟨s, t, v, past, rfl, hsv, hd, fun w hw => ?_⟩
    obtain ⟨hphase, hop, -⟩ := (deletion_fence_absorbing hrun hsv hd).1 w ⟨t, by simp, hw⟩
    exact ⟨hphase, hop⟩

end ShiftPV

import ShiftPV.Theorems.MobilityWrites
import ShiftPV.Theorems.MoveWrites

/-! The invariant of the stored Volume. Publication never leaves the owner and the current copy always
    serves the volume from the owner, whatever the writers observed. An owner commit compares neither the
    copy nor the publication list: that it hands over the right copy of an unpublished volume follows from
    the lock, since a locked volume serves a copy of the Move that holds the lock (`Owns`). -/

namespace ShiftPV
open Check

/-! ### The record on its own -/

structure StateSound (volumeID : String) (v : State) : Prop where
  published : ∀ node ∈ v.publishedNodes, node = v.ownerNode
  copy : ∀ c, v.currentCopy = some c → c.servesFor volumeID v.uid v.ownerNode
  present : v.phase ≠ .unset → v.currentCopy.isSome
  unset : v.phase = .unset → v.activeMove = "" ∧ v.publishedNodes = []
  creating : v.phase = .pending ∨ v.phase = .nodeCreating → v.activeMove = "" ∧ v.publishedNodes = []
  fenced : v.deletionOperationID ≠ "" → v.phase = .deleting
  deleting : v.phase = .deleting → v.activeMove = "" ∧ v.publishedNodes = [] ∧
    (v.deletionOperationID = deletionOperationID v.uid ∨ v.deletionOperationID = creationCancellationPrefix ++ v.uid)

structure OwnerUnchanged (v w : State) : Prop where
  uid : w.uid = v.uid
  lock : w.activeMove = v.activeMove
  owner : v.phase ≠ .unset → w.ownerNode = v.ownerNode
  copy : v.currentCopy.isSome → w.currentCopy = v.currentCopy
  initial : v.currentCopy = none → ∀ c, w.currentCopy = some c → c.copyID = "initial-" ++ v.uid

variable {volumeID : String} {v w : State}

theorem OwnerUnchanged.of_eq (huid : w.uid = v.uid) (hlock : w.activeMove = v.activeMove)
    (howner : w.ownerNode = v.ownerNode) (hcopy : w.currentCopy = v.currentCopy) : OwnerUnchanged v w :=
  ⟨huid, hlock, fun _ => howner, fun _ => hcopy, fun hnone c hc => by simp [hcopy, hnone] at hc⟩

theorem OwnerUnchanged.refl (v : State) : OwnerUnchanged v v := .of_eq rfl rfl rfl rfl

theorem stateSound_unstarted (h : v.unstartedCreation) : StateSound volumeID v := by
  obtain ⟨-, -, hphase, -, hactive, hpub, hcopy, -, hdel, -, -⟩ := unstartedCreation_inv h
  exact
    { published := by simp [hpub]
      copy := by simp [hcopy]
      present := fun h => absurd hphase h
      unset := fun _ => ⟨hactive, hpub⟩
      creating := by simp [hphase]
      fenced := fun h => absurd hdel h
      deleting := by simp [hphase] }

theorem StateSound.publish (h : StateSound volumeID v) {nodes : List String} (hphase : v.phase = .ready ∨ nodes = [] ∨
    ∀ node ∈ nodes, node ∈ v.publishedNodes) (hnodes : ∀ node ∈ nodes, node = v.ownerNode) :
    StateSound volumeID { v with publishedNodes := nodes } := by
  have hempty : v.phase ≠ .ready → v.publishedNodes = [] → nodes = [] := by
    intro hr hpub
    rcases hphase with hready | hnil | hsub
    · exact absurd hready hr
    · exact hnil
    · rw [hpub] at hsub
      exact List.eq_nil_iff_forall_not_mem.mpr fun node hn => List.not_mem_nil (hsub node hn)
  exact
    { published := hnodes
      copy := h.copy
      present := h.present
      unset := fun hu => ⟨(h.unset hu).1, hempty (by simp [show v.phase = .unset from hu]) (h.unset hu).2⟩
      creating := fun hc => by
        have hc : v.phase = .pending ∨ v.phase = .nodeCreating := hc
        refine ⟨(h.creating hc).1, hempty ?_ (h.creating hc).2⟩
        rcases hc with hc | hc <;> simp [hc]
      fenced := h.fenced
      deleting := fun hd => by
        obtain ⟨hactive, hpub, hop⟩ := h.deleting hd
        exact ⟨hactive, hempty (by simp [show v.phase = .deleting from hd]) hpub, hop⟩ }

theorem StateSound.not_deleting_op (h : StateSound volumeID v) (hp : v.phase ≠ .deleting) :
    v.deletionOperationID = "" := by
  by_contra hne
  exact hp (h.fenced hne)

/-- Every write of the creation, publication and deletion paths keeps the record sound, and none of them
    touches the owner, the copy of an initialized volume or the lock. -/
theorem applyVolumeWrite_sound {write : VolumeWrite} (hw : applyVolumeWrite volumeID write v = .ok w)
    (h : StateSound volumeID v) (hmob : ∀ k m o, write ≠ .mobility k m o) :
    StateSound volumeID w ∧ OwnerUnchanged v w := by
  cases write with
  | bindInitialPool expected pool =>
    obtain ⟨-, rfl⟩ := bindInitialPool_inv hw
    exact ⟨⟨h.published, h.copy, h.present, h.unset, h.creating, h.fenced, h.deleting⟩, .of_eq rfl rfl rfl rfl⟩
  | recordCreationIntent installationID observed =>
    rcases completeInitialization_inv hw with ⟨-, rfl⟩ | ⟨hinit, pool, copy, -, hserves, hid, -, rfl⟩
    · exact ⟨h, .refl w⟩
    · simp only [State.initializing, Bool.and_eq_true] at hinit
      obtain ⟨-, -, hphase, -, hactive, hpub, hnone, -, hdel, -, -⟩ := unstartedCreation_inv hinit.2
      refine ⟨?_, ⟨rfl, rfl, fun hne => absurd hphase hne, fun hsome => by simp [hnone] at hsome, ?_⟩⟩
      rotate_left
      · intro _ c hc
        obtain rfl : copy = c := Option.some.inj hc
        exact hid
      exact
        { published := by simp [hpub]
          copy := by
            intro c hc
            obtain rfl : copy = c := Option.some.inj hc
            exact hserves
          present := fun _ => rfl
          unset := by simp
          creating := fun _ => ⟨hactive, hpub⟩
          fenced := fun hne => absurd hdel hne
          deleting := by simp }
  | bindCreation expected executor =>
    obtain ⟨hphase, hsame, -, rfl⟩ := bindCreation_inv hw
    obtain ⟨hactive, hpub, -, copy, hcopy, -, -⟩ := sameNodeCreation_inv hsame
    refine ⟨?_, .of_eq rfl rfl rfl rfl⟩
    have hdel := h.not_deleting_op (by rcases hphase with hp | hp <;> simp [hp])
    exact
      { published := h.published, copy := h.copy
        present := fun _ => by simp [hcopy]
        unset := by simp
        creating := fun _ => ⟨hactive, hpub⟩
        fenced := fun hne => absurd hdel hne
        deleting := by simp }
  | recordCreationReceipt expected receipt =>
    obtain ⟨-, -, rfl | ⟨-, rfl⟩⟩ := recordCreationReceipt_inv hw
    · exact ⟨h, .refl w⟩
    · exact ⟨⟨h.published, h.copy, h.present, h.unset, h.creating, h.fenced, h.deleting⟩,
        .of_eq rfl rfl rfl rfl⟩
  | completeCreate uid copy =>
    obtain ⟨hcopy, ⟨-, rfl⟩ | ⟨hphase, rfl⟩⟩ := completeCreate_inv hw
    · exact ⟨h, .refl w⟩
    · have hdel := h.not_deleting_op (by rcases hphase with hp | hp <;> simp [hp])
      refine ⟨?_, .of_eq rfl rfl rfl rfl⟩
      exact
        { published := h.published, copy := h.copy
          present := fun _ => by simp [hcopy]
          unset := by simp
          creating := by simp
          fenced := fun hne => absurd hdel hne
          deleting := by simp }
  | beginPublish nodeName copy =>
    obtain ⟨hphase, howner, -, rfl⟩ := beginPublish_inv hw
    refine ⟨h.publish (Or.inl hphase) ?_, .of_eq rfl rfl rfl rfl⟩
    intro node hn
    rw [mem_sortedNodes, List.mem_cons] at hn
    rcases hn with rfl | hn
    · exact howner.symm
    · exact h.published node hn
  | reconcilePublished nodeName copy published =>
    obtain ⟨howner, -, hready, rfl⟩ := reconcilePublished_inv hw
    refine ⟨h.publish ?_ ?_, .of_eq rfl rfl rfl rfl⟩
    · cases published with
      | true => exact Or.inl (hready rfl)
      | false =>
        refine Or.inr (Or.inr fun node hn => ?_)
        rw [mem_sortedNodes] at hn
        exact List.mem_of_mem_filter hn
    · intro node hn
      rw [mem_sortedNodes] at hn
      cases published with
      | true =>
        rcases List.mem_cons.mp hn with rfl | hn
        · exact howner.symm
        · exact h.published node hn
      | false => exact h.published node (List.mem_of_mem_filter hn)
  | beginDelete uid copy =>
    obtain ⟨-, hcopy, hactive, hpub, ⟨-, -, rfl⟩ | ⟨-, -, rfl⟩⟩ := beginDelete_inv hw
    · refine ⟨?_, .of_eq rfl rfl rfl rfl⟩
      exact
        { published := h.published, copy := h.copy
          present := fun _ => by simp [hcopy]
          unset := by simp
          creating := by simp
          fenced := fun _ => rfl
          deleting := fun _ => ⟨hactive, hpub, Or.inl rfl⟩ }
    · exact ⟨h, .refl w⟩
  | beginCreationCancellation uid copy =>
    obtain ⟨-, hcopy, hid, ⟨-, rfl⟩ | ⟨-, -, -, rfl⟩⟩ := beginCreationCancellation_inv hw
    · exact ⟨h, .refl w⟩
    · obtain ⟨hactive, hpub, -, -⟩ := initialCreationIdentity_inv hid
      refine ⟨?_, .of_eq rfl rfl rfl rfl⟩
      exact
        { published := h.published, copy := h.copy
          present := fun _ => by simp [hcopy]
          unset := by simp
          creating := by simp
          fenced := fun _ => rfl
          deleting := fun _ => ⟨hactive, hpub, Or.inr rfl⟩ }
  | mobility k m o => exact absurd rfl (hmob k m o)
  | requestDeletion =>
    obtain rfl := pure_ok.mp hw
    exact ⟨⟨h.published, h.copy, h.present, h.unset, h.creating, h.fenced, h.deleting⟩, .of_eq rfl rfl rfl rfl⟩

/-! ### The lock -/

/-- The volume serves a copy of the Move's plan, from the node the plan gives that copy. -/
def Owns (m : Move) (v : State) : Prop := SourceHeld m v ∨ DestinationHeld m v

def Move.Apart (m : Move) : Prop := m.status.destinationNode = "" ∨ m.status.destinationNode ≠ m.spec.sourceNode

variable {m n : Move} {o : State}

theorem SourceHeld.continues (h : SourceHeld m v) (hk : Continues m n) : SourceHeld n v := by
  obtain ⟨howner, c, hc, hv, hserves⟩ := h
  exact ⟨by rw [hk.sourceNode, howner], c, hk.source c hc, hv, by rw [hk.volumeID, hk.sourceNode]; exact hserves⟩

theorem DestinationHeld.continues (h : DestinationHeld m v) (hk : Continues m n) : DestinationHeld n v := by
  obtain ⟨howner, hnode, c, hc, hv, hserves⟩ := h
  have hsame := hk.node hnode
  exact ⟨by rw [hsame, howner], by rw [hsame]; exact hnode, c, hk.destination c hc, hv,
    by rw [hk.volumeID, hsame]; exact hserves⟩

theorem Owns.continues (h : Owns m v) (hk : Continues m n) : Owns n v :=
  h.imp (fun h => h.continues hk) (fun h => h.continues hk)

/-- The plan decides the copy by the node that owns the volume. -/
theorem Owns.copy_eq (hv : Owns m v) (ho : Owns m o) (hm : m.Apart) (howner : o.ownerNode = v.ownerNode) :
    o.currentCopy = v.currentCopy := by
  rcases hv with ⟨hvn, c, hc, hvc, -⟩ | ⟨hvn, hne, c, hc, hvc, -⟩ <;>
    rcases ho with ⟨hon, d, hd, hoc, -⟩ | ⟨hon, hne', d, hd, hoc, -⟩
  · rw [hoc, hvc, ← hc, ← hd]
  · rcases hm with hempty | hapart
    · exact absurd hempty hne'
    · exact absurd (by rw [← hon, howner, hvn]) hapart
  · rcases hm with hempty | hapart
    · exact absurd hempty hne
    · exact absurd (by rw [← hvn, ← howner, hon]) hapart
  · rw [hoc, hvc, ← hc, ← hd]

theorem Owns.of_same (h : Owns m v) (huid : w.uid = v.uid) (howner : w.ownerNode = v.ownerNode)
    (hcopy : w.currentCopy = v.currentCopy) : Owns m w := by
  rcases h with ⟨hn, c, hc, hv, hserves⟩ | ⟨hn, hne, c, hc, hv, hserves⟩
  · exact Or.inl ⟨by rw [howner, hn], c, hc, by rw [hcopy, hv], by rw [huid]; exact hserves⟩
  · exact Or.inr ⟨by rw [howner, hn], hne, c, hc, by rw [hcopy, hv], by rw [huid]; exact hserves⟩

/-! ### Mobility -/

theorem VolumePhase.Mobile.ne_deleting {phase : VolumePhase} (h : phase.Mobile) : phase ≠ .deleting := by
  rcases h with rfl | rfl | rfl <;> simp

theorem VolumePhase.Mobile.ne_unset {phase : VolumePhase} (h : phase.Mobile) : phase ≠ .unset := by
  rcases h with rfl | rfl | rfl <;> simp

theorem StateSound.of_mobile (hphase : w.phase.Mobile) (hpub : ∀ node ∈ w.publishedNodes, node = w.ownerNode)
    {c : CopyIdentity} (hcopy : w.currentCopy = some c) (hserves : c.servesFor volumeID w.uid w.ownerNode)
    (hdel : w.deletionOperationID = "") : StateSound volumeID w where
  published := hpub
  copy d hd := by
    obtain rfl : c = d := Option.some.inj (hcopy.symm.trans hd)
    exact hserves
  present _ := by simp [hcopy]
  unset hu := absurd hu hphase.ne_unset
  creating hc := by
    rcases hphase with hp | hp | hp <;> rw [hp] at hc <;> simp at hc
  fenced hne := absurd hdel hne
  deleting hd := absurd hd hphase.ne_deleting

theorem OwnerKept.sound {phase : VolumePhase} {active : String} (hk : OwnerKept o v w phase active)
    (hv : StateSound volumeID v) (ho : StateSound volumeID o) (hbefore : o.phase.Mobile) (hafter : phase.Mobile)
    (hcopy : o.currentCopy = v.currentCopy) :
    StateSound volumeID w ∧ w.uid = v.uid ∧ w.ownerNode = v.ownerNode ∧ w.currentCopy = v.currentCopy ∧
      w.publishedNodes = v.publishedNodes ∧ w.phase = phase ∧ w.activeMove = active := by
  have hrecord := hk.record
  have hvphase : v.phase ≠ .unset := hk.samePhase ▸ hbefore.ne_unset
  have hvdel : v.deletionOperationID = "" := hv.not_deleting_op (hk.samePhase ▸ hbefore.ne_deleting)
  have hodel : o.deletionOperationID = "" := ho.not_deleting_op hbefore.ne_deleting
  obtain ⟨c, hc⟩ := Option.isSome_iff_exists.mp (hv.present hvphase)
  have howner : w.ownerNode = v.ownerNode := by simp [hrecord, hk.sameOwner]
  have hwcopy : w.currentCopy = v.currentCopy := by simp [hrecord, hcopy, hc]
  have hpub : w.publishedNodes = v.publishedNodes := by simp [hrecord]
  have hphase : w.phase = phase := by simp [hrecord]
  have huid : w.uid = v.uid := by simp [hrecord]
  refine ⟨?_, huid, howner, hwcopy, hpub, hphase, by simp [hrecord]⟩
  refine StateSound.of_mobile (hphase ▸ hafter) ?_ (hwcopy.trans hc) ?_ ?_
  · rw [hpub, howner]
    exact hv.published
  · rw [huid, howner]
    exact hv.copy c hc
  · simp [hrecord, hvdel, hodel]

structure MobilityEffect (volumeID : String) (m : Move) (v w : State) (write : MobilityWrite) : Prop where
  sound : StateSound volumeID w
  before : v.phase.Mobile
  after : w.phase.Mobile
  uid : w.uid = v.uid
  lock : v.activeMove = "" ∧ write = .claimSource ∨ v.activeMove = m.name
  locked : w.activeMove ≠ "" → w.activeMove = m.name ∧ Owns m w
  kept : write ≠ .commitOwner → w.ownerNode = v.ownerNode ∧ w.currentCopy = v.currentCopy ∧
    w.publishedNodes = v.publishedNodes
  commit : write = .commitOwner → v.phase = .moving ∧ v.publishedNodes = [] ∧ w.publishedNodes = [] ∧
    SourceHeld m v ∧ DestinationHeld m w

/-- `m'` is the version of the Move the writer read, `m` the stored one. -/
theorem MobilityStep.effect {m' : Move} {write : MobilityWrite} (hs : MobilityStep m' o v w write)
    (hv : StateSound volumeID v) (ho : StateSound volumeID o) (hid : m'.spec.volumeID = volumeID)
    (hk : Continues m' m) (hapart : m.Apart) (hlockv : v.activeMove = m.name → Owns m v)
    (hlocko : o.activeMove = m.name → Owns m o) : MobilityEffect volumeID m v w write := by
  have hname := hk.name
  have hheld : ∀ {phase active}, OwnerKept o v w phase active → o.activeMove = m'.name →
      o.currentCopy = v.currentCopy ∧ Owns m v := by
    intro phase active kept lock
    have hov : Owns m v := hlockv (by rw [← kept.sameLock, lock, hname])
    exact ⟨hov.copy_eq (hlocko (by rw [lock, hname])) hapart kept.sameOwner, hov⟩
  cases hs with
  | claim kept free ready source =>
    obtain ⟨c, hoc, hvc, hserves⟩ := kept.copy
    have hmobile : o.phase.Mobile := Or.inl ready
    obtain ⟨hsound, huid, howner, hcopy, hpub, hphase, hactive⟩ :=
      kept.sound hv ho hmobile (Or.inl rfl) (by rw [hoc, hvc])
    refine ⟨hsound, kept.samePhase ▸ hmobile, Or.inl hphase, huid, Or.inl ⟨by rw [← kept.sameLock, free], rfl⟩, ?_,
      fun _ => ⟨howner, hcopy, hpub⟩, by simp⟩
    intro _
    have hsource : SourceHeld m' v := by
      obtain ⟨hn, d, hd, hod, hserves⟩ := source
      exact ⟨by rw [← kept.sameOwner, hn], d, hd, by rw [hvc, ← hoc, hod], by rw [← kept.uid]; exact hserves⟩
    have hov : Owns m v := Or.inl (hsource.continues hk)
    exact ⟨by rw [hactive, hname], hov.of_same huid howner hcopy⟩
  | hold kept lock before after hclaim hcommit =>
    obtain ⟨hsame, hov⟩ := hheld kept lock
    obtain ⟨hsound, huid, howner, hcopy, hpub, hphase, hactive⟩ := kept.sound hv ho before after hsame
    exact ⟨hsound, kept.samePhase ▸ before, hphase ▸ after, huid, Or.inr (by rw [← kept.sameLock, lock, hname]),
      fun _ => ⟨by rw [hactive, hname], hov.of_same huid howner hcopy⟩, fun _ => ⟨howner, hcopy, hpub⟩,
      fun h => absurd h hcommit⟩
  | release kept lock before after hclaim hcommit =>
    obtain ⟨hsame, -⟩ := hheld kept lock
    obtain ⟨hsound, huid, howner, hcopy, hpub, hphase, hactive⟩ := kept.sound hv ho before after hsame
    exact ⟨hsound, kept.samePhase ▸ before, hphase ▸ after, huid, Or.inr (by rw [← kept.sameLock, lock, hname]),
      fun hne => absurd hactive hne, fun _ => ⟨howner, hcopy, hpub⟩, fun h => absurd h hcommit⟩
  | @commit source target hc =>
    have hnode : m.status.destinationNode = m'.status.destinationNode := hk.node hc.destination
    have hne : m'.status.destinationNode ≠ m'.spec.sourceNode := by
      rw [← hnode, ← hk.sourceNode]
      rcases hapart with hempty | hne
      · exact absurd (hnode.symm.trans hempty) hc.destination
      · exact hne
    -- the commit proposes Ready, so the stored list lies within the destination; it also lies within the source
    have hpub : v.publishedNodes = [] := by
      rw [List.eq_nil_iff_forall_not_mem]
      intro node hnode
      exact hne ((hc.published node hnode).symm.trans ((hv.published node hnode).trans hc.owner))
    have hsource : SourceHeld m v := by
      rcases hlockv (by rw [hc.lock, hname]) with hs | ⟨hn, -⟩
      · exact hs
      · rw [hnode, hc.owner] at hn
        exact absurd hn.symm hne
    have huid : w.uid = v.uid := by simp [hc.record]
    have hwowner : w.ownerNode = m.status.destinationNode := by simp [hc.record, committedState, hnode]
    have hwcopy : w.currentCopy = some target := by simp [hc.record, committedState]
    have hserves : target.servesFor m.spec.volumeID w.uid m.status.destinationNode := by
      rw [hk.volumeID, huid, hnode]
      exact hc.servesTarget
    have hdest : DestinationHeld m w :=
      ⟨hwowner, by rw [hnode]; exact hc.destination, target, hk.destination target hc.targetCopy, hwcopy, hserves⟩
    have hwpub : w.publishedNodes = [] := by simp [hc.record, hpub]
    have hphase : w.phase = .ready := by simp [hc.record, committedState]
    refine ⟨?_, Or.inr (Or.inl hc.moving), Or.inl hphase, huid, Or.inr (by rw [hc.lock, hname]),
      fun _ => ⟨by simp [hc.record, committedState, hname], Or.inr hdest⟩, by simp,
      fun _ => ⟨hc.moving, hpub, hwpub, hsource, hdest⟩⟩
    refine StateSound.of_mobile (Or.inl hphase) (by simp [hwpub]) hwcopy ?_ ?_
    · rw [hwowner, ← hid, ← hk.volumeID]
      exact hserves
    · have hvdel := hv.not_deleting_op (by simp [hc.moving])
      simp [hc.record, committedState, hvdel]

end ShiftPV

import ShiftPV.Node
import ShiftPV.Theorems.Coherence

/-! A volume is mounted on its owner only. The durable publication record covers every live mount: it is
    written before the mount, cleared only after an inspection under the same lock found no mount, and no
    other writer removes a node from it. -/

namespace ShiftPV
open Check

variable {s t : Store} {past : List Store} {op : Op} {nodeName : String}

/-! ### The durable record -/

def Published (current : Option State) (nodeName : String) : Prop :=
  ∃ v, current = some v ∧ nodeName ∈ v.publishedNodes

theorem applyVolumeWrite_published {volumeID : String} {write : VolumeWrite} {v w : State}
    (hw : applyVolumeWrite volumeID write v = .ok w) (hmob : ∀ k m o, write ≠ .mobility k m o)
    (hnode : Op.publication (.volume write) = false) : w.publishedNodes = v.publishedNodes := by
  cases write with
  | bindInitialPool expected pool =>
    obtain ⟨-, rfl⟩ := bindInitialPool_inv hw
    rfl
  | recordCreationIntent installationID observed =>
    obtain ⟨-, rfl⟩ | ⟨-, -, -, -, -, -, -, rfl⟩ := completeInitialization_inv hw <;> rfl
  | bindCreation expected executor =>
    obtain ⟨-, -, -, rfl⟩ := bindCreation_inv hw
    rfl
  | recordCreationReceipt expected receipt =>
    obtain ⟨-, -, rfl | ⟨-, rfl⟩⟩ := recordCreationReceipt_inv hw <;> rfl
  | completeCreate uid copy =>
    obtain ⟨-, ⟨-, rfl⟩ | ⟨-, rfl⟩⟩ := completeCreate_inv hw <;> rfl
  | beginPublish nodeName copy | reconcilePublished nodeName copy published => simp [Op.publication] at hnode
  | beginDelete uid copy =>
    obtain ⟨-, -, -, -, ⟨-, -, rfl⟩ | ⟨-, -, rfl⟩⟩ := beginDelete_inv hw <;> rfl
  | beginCreationCancellation uid copy =>
    obtain ⟨-, -, -, ⟨-, rfl⟩ | ⟨-, -, -, rfl⟩⟩ := beginCreationCancellation_inv hw <;> rfl
  | mobility k m o => exact absurd rfl (hmob k m o)
  | requestDeletion =>
    obtain rfl := pure_ok.mp hw
    rfl

theorem Store.removable.unpublished {v : State} (h : s.removable v) (hv : StateSound s.volumeID v) :
    v.publishedNodes = [] := by
  simp only [Store.removable, Bool.or_eq_true, Bool.and_eq_true, decide_eq_true_eq] at h
  rcases h with ⟨-, hstart⟩ | ⟨hphase, -⟩
  · exact (unstartedCreation_inv hstart).2.2.2.2.2.1
  · exact (hv.deleting hphase).2.1

/-- A published node stays published until its own call clears it. -/
theorem Coherent.published_kept (hc : Coherent s (s :: past)) (hs : StaleStep (s :: past) op t)
    (hop : ∀ copy, op ≠ .volume (.reconcilePublished nodeName copy false)) (hn : Published s.volume nodeName) :
    Published t.volume nodeName := by
  obtain ⟨hobs, happly⟩ := staleStep_cons.mp hs
  obtain ⟨v, hv, hmem⟩ := hn
  have hsound := hc.sound v (.head hv)
  cases Store.apply_inv happly with
  | @volume write x w current accepted =>
    obtain rfl : x = v := Option.some.inj (current.symm.trans hv)
    refine ⟨w, rfl, ?_⟩
    by_cases hmob : ∃ k m o, write = .mobility k m o
    · obtain ⟨k, m', o, rfl⟩ := hmob
      obtain ⟨m, -, -, heff⟩ := hc.effect hobs.1 hobs.2 hv accepted
      by_cases hk : k = .commitOwner
      · -- an owner commit finds nobody published
        obtain ⟨-, hempty, -⟩ := heff.commit hk
        simp [hempty] at hmem
      · rw [(heff.kept hk).2.2]
        exact hmem
    · have hmob : ∀ k m o, write ≠ .mobility k m o := fun k m o h => hmob ⟨k, m, o, h⟩
      cases hpub : Op.publication (.volume write) with
      | false => rwa [applyVolumeWrite_published accepted hmob hpub]
      | true =>
        cases write with
        | beginPublish other copy =>
          obtain ⟨-, -, -, rfl⟩ := beginPublish_inv accepted
          simp [hmem]
        | reconcilePublished other copy published =>
          obtain ⟨-, -, -, rfl⟩ := reconcilePublished_inv accepted
          cases published with
          | true => simp [hmem]
          | false =>
            have hne : nodeName ≠ other := by
              rintro rfl
              exact hop copy rfl
            simp [hmem, hne]
        | _ => simp [Op.publication] at hpub
  | move current accepted | create named identified absent unique | updateCleanup current accepted => exact ⟨v, hv, hmem⟩
  | @ensureCleanup spec x journal current deleting operation target accepted =>
    obtain rfl : x = v := Option.some.inj (current.symm.trans hv)
    exact ⟨_, rfl, hmem⟩
  | @remove x current removable =>
    obtain rfl : x = v := Option.some.inj (current.symm.trans hv)
    rw [Store.removable.unpublished removable hsound] at hmem
    simp at hmem

/-! ### One node -/

/-- Live mounts and a call that is about to mount are covered by the durable record; a call that is about to
    clear the record has found no mount. -/
structure NodeSound (current : Option State) (nodeName : String) (node : NodeState) : Prop where
  mounted : node.mounts ≠ [] → Published current nodeName
  binding : ∀ target copy, node.call = some (.bind target copy) → Published current nodeName
  clearing : ∀ copy, node.call = some (.reconcile copy false) → node.mounts = []

variable {current next : Option State} {node node' : NodeState} {call : Call} {out : Outcome}

theorem NodeSound.finish (h : NodeSound current nodeName node) : NodeSound current nodeName node.finish :=
  ⟨h.mounted, by simp [NodeState.finish], by simp [NodeState.finish]⟩

theorem NodeSound.proceed (h : NodeSound current nodeName node) (hbind : ∀ target copy, call ≠ .bind target copy)
    (hclear : ∀ copy, call ≠ .reconcile copy false) : NodeSound current nodeName (node.proceed call) := by
  refine ⟨h.mounted, ?_, ?_⟩
  · intro target copy hcall
    exact absurd (Option.some.inj hcall) (hbind target copy)
  · intro copy hcall
    exact absurd (Option.some.inj hcall) (hclear copy)

theorem NodeSound.mono (h : NodeSound current nodeName node)
    (hkeep : Published current nodeName → Published next nodeName) : NodeSound next nodeName node :=
  ⟨fun hm => hkeep (h.mounted hm), fun target copy hc => hkeep (h.binding target copy hc), h.clearing⟩

theorem NodeSound.advance (h : NodeSound current nodeName node) (hcall : node.call = some call)
    (hs : node.advance nodeName current out call = .onNode node') : NodeSound current nodeName node' := by
  cases call with
  | readPublish target =>
    simp only [NodeState.advance, CallStep.onNode.injEq] at hs
    subst hs
    split
    · split
      · split
        · exact h.proceed (by simp) (by simp)
        · exact h.finish
      · exact h.finish
    · exact h.finish
  | verifyPublish target root copy | verifyUnpublish root uid copy =>
    simp only [NodeState.advance, CallStep.onNode.injEq] at hs
    subst hs
    split
    · split
      · exact h.proceed (by simp) (by simp)
      · exact h.finish
    · exact h.finish
  | beginPublish target copy | reconcile copy stillPublished => simp [NodeState.advance] at hs
  | bind target copy =>
    -- the record was written before this step, so it covers the new mount as well
    have hpub := h.binding target copy hcall
    simp only [NodeState.advance, CallStep.onNode.injEq] at hs
    subst hs
    split
    · exact ⟨fun _ => hpub, by simp, by simp⟩
    · exact ⟨fun _ => hpub, by simp, by simp⟩
  | unbind target =>
    have hmounted : node.mounts.filter (· ≠ target) ≠ [] → Published current nodeName := by
      intro hne
      refine h.mounted fun hnil => hne ?_
      rw [hnil, List.filter_nil]
    simp only [NodeState.advance, CallStep.onNode.injEq] at hs
    subst hs
    split
    · exact ⟨hmounted, by simp, by simp⟩
    · refine ⟨?_, by simp, by simp⟩
      split
      · exact hmounted
      · exact h.mounted
  | readUnpublish =>
    simp only [NodeState.advance, CallStep.onNode.injEq] at hs
    subst hs
    split
    · exact h.finish
    · split
      · split
        · exact h.proceed (by simp) (by simp)
        · exact h.finish
      · exact h.finish
  | inspect copy =>
    simp only [NodeState.advance, CallStep.onNode.injEq] at hs
    subst hs
    split
    · refine ⟨h.mounted, by simp [NodeState.proceed], ?_⟩
      intro other hclear
      simpa [NodeState.proceed, NodeState.hasPublishedTarget] using (Call.reconcile.inj (Option.some.inj hclear)).2
    · exact h.finish

theorem NodeState.advance_write {write : VolumeWrite} {yes no : NodeState}
    (hs : node.advance nodeName current out call = .write write yes no) :
    (∃ target copy, write = .beginPublish nodeName copy ∧ yes = node.proceed (.bind target copy) ∧ no = node.finish) ∨
      ∃ copy stillPublished, call = .reconcile copy stillPublished ∧
        write = .reconcilePublished nodeName copy stillPublished ∧ yes = node.finish ∧ no = node.finish := by
  cases call with
  | beginPublish target copy =>
    simp only [NodeState.advance, CallStep.write.injEq] at hs
    obtain ⟨rfl, rfl, rfl⟩ := hs
    exact Or.inl ⟨target, copy, rfl, rfl, rfl⟩
  | reconcile copy stillPublished =>
    simp only [NodeState.advance, CallStep.write.injEq] at hs
    obtain ⟨rfl, rfl, rfl⟩ := hs
    exact Or.inr ⟨copy, stillPublished, rfl, rfl, rfl, rfl⟩
  | _ => simp [NodeState.advance] at hs

/-! ### The cluster -/

/-- The stored history is one of late writers, and every node is sound for the stored volume. -/
structure ClusterSound (c : Cluster) (s : Store) (past : List Store) : Prop where
  stores : c.stores = s :: past
  run : StaleRun (s :: past)
  nodes : ∀ nodeName, NodeSound s.volume nodeName (c.nodes nodeName)

variable {c c' : Cluster} {a : Act}

theorem ClusterSound.setNode (h : ClusterSound c s past) (hn : NodeSound s.volume nodeName node) :
    ClusterSound (c.setNode nodeName node) s past := by
  refine ⟨h.stores, h.run, fun other => ?_⟩
  by_cases heq : other = nodeName
  · subst heq
    simpa [Cluster.setNode] using hn
  · simpa [Cluster.setNode, heq] using h.nodes other

theorem ClusterSound.store (h : ClusterSound c s past) (hs : StaleStep (s :: past) op t)
    (hclear : ∀ other copy, op ≠ .volume (.reconcilePublished other copy false)) :
    ClusterSound { c with stores := t :: c.stores } t (s :: past) := by
  refine ⟨by rw [h.stores], .next h.run hs, fun other => ?_⟩
  exact (h.nodes other).mono ((StaleRun.coherent h.run).published_kept hs (hclear other))

theorem ClusterSound.write (h : ClusterSound c s past) (hs : StaleStep (s :: past) op t)
    (hclear : ∀ other copy, op = .volume (.reconcilePublished other copy false) → other = nodeName)
    (hn : NodeSound t.volume nodeName node) :
    ClusterSound { c.setNode nodeName node with stores := t :: c.stores } t (s :: past) := by
  refine ⟨by rw [h.stores], .next h.run hs, fun other => ?_⟩
  by_cases heq : other = nodeName
  · subst heq
    simpa [Cluster.setNode] using hn
  · have hkept := (StaleRun.coherent h.run).published_kept hs fun copy hop => heq (hclear other copy hop)
    simpa [Cluster.setNode, heq] using (h.nodes other).mono hkept

theorem ClusterSound.beginPublish (h : ClusterSound c s past) {target : String} {copy : CopyIdentity}
    (happly : s.apply (.volume (.beginPublish nodeName copy)) = .ok t) :
    ClusterSound { c.setNode nodeName ((c.nodes nodeName).proceed (.bind target copy)) with stores := t :: c.stores }
      t (s :: past) := by
  have hstep : StaleStep (s :: past) (.volume (.beginPublish nodeName copy)) t :=
    staleStep_cons.mpr ⟨trivial, happly⟩
  refine h.write hstep (by simp) ?_
  have hpub : Published t.volume nodeName := by
    cases Store.apply_inv happly with
    | volume current accepted =>
      obtain ⟨-, -, -, rfl⟩ := beginPublish_inv accepted
      exact ⟨_, rfl, by simp⟩
  exact ⟨fun _ => hpub, fun _ _ _ => hpub, by simp [NodeState.proceed]⟩

theorem ClusterSound.reconcile (h : ClusterSound c s past) {copy : CopyIdentity} {still : Bool}
    (hcall : (c.nodes nodeName).call = some (.reconcile copy still))
    (happly : s.apply (.volume (.reconcilePublished nodeName copy still)) = .ok t) :
    ClusterSound { c.setNode nodeName (c.nodes nodeName).finish with stores := t :: c.stores } t (s :: past) := by
  have hnode := h.nodes nodeName
  have hstep : StaleStep (s :: past) (.volume (.reconcilePublished nodeName copy still)) t :=
    staleStep_cons.mpr ⟨trivial, happly⟩
  refine h.write hstep (by simp) ⟨?_, by simp [NodeState.finish], by simp [NodeState.finish]⟩
  cases still with
  | true =>
    intro hm
    exact (StaleRun.coherent h.run).published_kept hstep (by simp) (hnode.mounted hm)
  | false =>
    -- the inspection found no mount, and nothing was mounted since under the lock
    intro hm
    exact absurd (hnode.clearing copy hcall) hm

theorem Cluster.act_store (hhead : c.stores.head? = some s) (h : c.act (.store op) = some c') :
    op.publication = false ∧ ∃ t, s.apply op = .ok t ∧ c' = { c with stores := t :: c.stores } := by
  simp only [Cluster.act, hhead] at h
  split at h
  · rename_i s' hs' hpub
    obtain rfl : s = s' := Option.some.inj hs'
    split at h
    · rename_i t happly
      exact ⟨hpub, t, happly, (Option.some.inj h).symm⟩
    · cases h
  · cases h

theorem ClusterSound.step (h : ClusterSound c s past) (hs : ClusterStep c a c') :
    ∃ t older, ClusterSound c' t older := by
  obtain ⟨hobs, hact⟩ := hs
  have hhead : c.stores.head? = some s := by simp [h.stores]
  cases a with
  | store op =>
    obtain ⟨hpub, t, happly, rfl⟩ := Cluster.act_store hhead hact
    have hstep : StaleStep (s :: past) op t := staleStep_cons.mpr ⟨h.stores ▸ hobs, happly⟩
    refine ⟨t, s :: past, h.store hstep ?_⟩
    rintro other copy rfl
    simp [Op.publication] at hpub
  | publish nodeName target | unpublish nodeName target =>
    simp only [Cluster.act] at hact
    split at hact
    · obtain rfl := Option.some.inj hact
      exact ⟨s, past, h.setNode ((h.nodes nodeName).proceed (by simp) (by simp))⟩
    · cases hact
  | advance nodeName out =>
    simp only [Cluster.act, hhead] at hact
    have hnode := h.nodes nodeName
    split at hact
    · rename_i call s' hcall hs'
      obtain rfl : s = s' := Option.some.inj hs'
      split at hact
      · rename_i next hadv
        obtain rfl := Option.some.inj hact
        exact ⟨s, past, h.setNode (hnode.advance hcall hadv)⟩
      · rename_i write yes no hadv
        rcases NodeState.advance_write hadv with ⟨target, copy, rfl, rfl, rfl⟩ | ⟨copy, still, rfl, rfl, rfl, rfl⟩
        · split at hact
          · rename_i t happly
            obtain rfl := Option.some.inj hact
            exact ⟨t, s :: past, h.beginPublish happly⟩
          · obtain rfl := Option.some.inj hact
            exact ⟨s, past, h.setNode hnode.finish⟩
        · split at hact
          · rename_i t happly
            obtain rfl := Option.some.inj hact
            exact ⟨t, s :: past, h.reconcile hcall happly⟩
          · obtain rfl := Option.some.inj hact
            exact ⟨s, past, h.setNode hnode.finish⟩
    · cases hact
  | crash nodeName =>
    obtain rfl := Option.some.inj hact
    exact ⟨s, past, h.setNode (h.nodes nodeName).finish⟩
  | reboot nodeName =>
    obtain rfl := Option.some.inj hact
    exact ⟨s, past, h.setNode ⟨by simp, by simp, by simp⟩⟩

theorem ClusterRun.sound {h : List Cluster} (hr : ClusterRun h) : ∀ c ∈ h, ∃ s past, ClusterSound c s past := by
  refine Run.forall_mem ?_ ?_ hr
  · rintro c ⟨⟨s, hs, hinit⟩, hnodes⟩
    exact ⟨s, [], hs, .start hinit, fun nodeName => by rw [hnodes]; exact ⟨by simp, by simp, by simp⟩⟩
  · intro c c' past a _ ih hs
    obtain ⟨s, older, h⟩ := ih c (by simp)
    exact h.step (Run.onHead_cons.mp hs)

/-- A live mount of the volume is covered by its publication record, on its owner. -/
theorem ClusterSound.mounted (h : ClusterSound c s past) (hm : (c.nodes nodeName).mounts ≠ []) :
    ∃ v, s.volume = some v ∧ nodeName ∈ v.publishedNodes ∧ v.ownerNode = nodeName := by
  obtain ⟨v, hv, hmem⟩ := (h.nodes nodeName).mounted hm
  exact ⟨v, hv, hmem, (((StaleRun.coherent h.run).sound v (.head hv)).published nodeName hmem).symm⟩

theorem ClusterSound.unmounted {v : State} (h : ClusterSound c s past) (hv : s.volume = some v)
    (hpub : v.publishedNodes = []) : (c.nodes nodeName).mounts = [] := by
  by_contra hm
  obtain ⟨w, hw, hmem, -⟩ := h.mounted hm
  obtain rfl : v = w := Option.some.inj (hv.symm.trans hw)
  simp [hpub] at hmem

/-- In every run, a live mount stands on the published owner, so there is one node with mounts at most, and
    neither an owner commit nor a deletion is accepted while a mount is live. -/
theorem single_mount {h : List Cluster} (hr : ClusterRun h) : ∀ c ∈ h,
    (∀ nodeName, (c.nodes nodeName).mounts ≠ [] → ∃ s v, c.stores.head? = some s ∧ s.volume = some v ∧
      nodeName ∈ v.publishedNodes ∧ v.ownerNode = nodeName) ∧
    (∀ nodeName other, (c.nodes nodeName).mounts ≠ [] → (c.nodes other).mounts ≠ [] → nodeName = other) ∧
    ∀ op c', ClusterStep c (.store op) c' → ((∃ m o, op = .volume (.mobility .commitOwner m o)) ∨
      ∃ uid copy, op = .volume (.beginDelete uid copy)) → ∀ nodeName, (c.nodes nodeName).mounts = [] := by
  intro c hmem
  obtain ⟨s, past, hc⟩ := ClusterRun.sound hr c hmem
  have hhead : c.stores.head? = some s := by simp [hc.stores]
  refine ⟨?_, ?_, ?_⟩
  · intro nodeName hm
    obtain ⟨v, hv, hpub, howner⟩ := hc.mounted hm
    exact ⟨s, v, hhead, hv, hpub, howner⟩
  · intro nodeName other hm hm'
    obtain ⟨v, hv, -, howner⟩ := hc.mounted hm
    obtain ⟨w, hw, -, howner'⟩ := hc.mounted hm'
    obtain rfl : v = w := Option.some.inj (hv.symm.trans hw)
    rw [← howner, ← howner']
  · rintro op c' ⟨hobs, hact⟩ hop nodeName
    have hobs : op.Observed (s :: past) := hc.stores ▸ hobs
    obtain ⟨-, t, happly, -⟩ := Cluster.act_store hhead hact
    rcases hop with ⟨m, o, rfl⟩ | ⟨uid, copy, rfl⟩
    · cases Store.apply_inv happly with
      | @volume _ v w current accepted =>
        have hcommit : applyMobilityWrite .commitOwner m o v = .ok w := accepted
        obtain ⟨m', -, -, heff⟩ := (StaleRun.coherent hc.run).effect hobs.1 hobs.2 current hcommit
        exact hc.unmounted current (heff.commit rfl).2.1
    · cases Store.apply_inv happly with
      | volume current accepted =>
        obtain ⟨-, -, -, hpub, -⟩ := beginDelete_inv accepted
        exact hc.unmounted current hpub

/-! A volume is created and published on its node. -/

def Cluster.perform (c : Cluster) (past : List Cluster) : List Act → Option (List Cluster)
  | [] => some (c :: past)
  | a :: acts => (c.act a).bind fun c' => c'.perform (c :: past) acts

theorem Cluster.perform_run {past h : List Cluster} {acts : List Act} (hr : ClusterRun (c :: past))
    (hobs : ∀ a ∈ acts, ∀ stores, a.Observed stores) (hh : c.perform past acts = some h) : ClusterRun h := by
  induction acts generalizing c past with
  | nil => exact Option.some.inj hh ▸ hr
  | cons a acts ih =>
    obtain ⟨c', hact, hh⟩ := Option.bind_eq_some_iff.mp hh
    have hstep : ClusterStep c a c' := ⟨hobs a (by simp) _, hact⟩
    exact ih (.next hr (Run.onHead_cons.mpr hstep)) (fun b hb => hobs b (by simp [hb])) hh

def sampleCluster : Cluster where
  stores := [sampleStore]
  nodes _ := { mounts := [], call := none }

def sampleOutcome : Outcome where
  readable := true
  pool := some { name := "pool-a", uid := "pool-a-uid", nodeName := "node-a", root := "/pools/a" }
  serving := true
  effect := true
  left := false
  inspected := true

def publishing : List Act :=
  [.store (.volume (.recordCreationIntent "install" sampleState)),
   .store (.volume (.completeCreate "volume-1" sampleCopy)),
   .publish "node-a" "/targets/pod-1",
   .advance "node-a" sampleOutcome,
   .advance "node-a" sampleOutcome,
   .advance "node-a" sampleOutcome,
   .advance "node-a" sampleOutcome]

theorem publishing_run : ∃ c h, ClusterRun (c :: h) ∧ (c.nodes "node-a").mounts = ["/targets/pod-1"] := by
  have hmounted : ((sampleCluster.perform [] publishing).bind (·.head?)).any
      (fun c => (c.nodes "node-a").mounts = ["/targets/pod-1"]) = true := by decide +kernel
  cases hc : (sampleCluster.perform [] publishing).bind (·.head?) with
  | none => simp [hc] at hmounted
  | some c =>
    obtain ⟨h, hh, hhead⟩ := Option.bind_eq_some_iff.mp hc
    have hstart : sampleCluster.Initial := ⟨⟨sampleStore, rfl, sampleStore_initial⟩, fun _ => rfl⟩
    have hobs : ∀ a ∈ publishing, ∀ stores, a.Observed stores := by simp [publishing, Act.Observed, Op.Observed]
    have hrun := Cluster.perform_run (.start hstart) hobs hh
    obtain ⟨rest, rfl⟩ : ∃ rest, h = c :: rest := List.head?_eq_some_iff.mp hhead
    exact ⟨c, rest, hrun, by simpa [hc] using hmounted⟩

theorem single_mount_published : ∃ c h, ClusterRun (c :: h) ∧ ∃ s v, c.stores.head? = some s ∧ s.volume = some v ∧
    "node-a" ∈ v.publishedNodes ∧ v.ownerNode = "node-a" := by
  obtain ⟨c, h, hrun, hmounts⟩ := publishing_run
  exact ⟨c, h, hrun, (single_mount hrun c (by simp)).1 "node-a" (by simp [hmounts])⟩

end ShiftPV

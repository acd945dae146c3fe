import ShiftPV.Theorems.Coherence
import ShiftPV.Unpublish

/-! Unpublishing the targets of a volume in any order. A call that meets no failure unmounts its target and reconciles the
    published nodes with the mounts that are left. -/

namespace ShiftPV
open Check

section
variable {nodeName volumeID uid : String} {copy : CopyIdentity}

structure ServedBy (nodeName uid : String) (copy : CopyIdentity) (s : State) : Prop where
  uid : s.uid = uid
  owner : s.ownerNode = nodeName
  copy : s.currentCopy = some copy

/-- Every command and every API call succeeds, and the copy, its Pool and the UID stay what they are. The controller may
    change the phase at any time. -/
structure Healthy (nodeName uid : String) (copy : CopyIdentity) (call : UnpublishCall) : Prop where
  configured : call.reads.configured = .ok ()
  named : call.target ≠ ""
  target : call.reads.target = .ok ()
  unmount : call.reads.unmount = .ok ()
  state : ∃ s, call.reads.state = .found s ∧ ServedBy nodeName uid copy s
  pool : ∃ pool, call.reads.pool = .ok pool ∧ call.reads.freshPool = .ok pool ∧ copyMatchesPool copy pool = true
  path : ∃ source, call.reads.path = .ok source
  lock : call.reads.existingLock = .ok () ∨ call.reads.existingLock = .error .notExist ∧ call.reads.lock = .ok ()
  fresh : ∃ s, call.reads.freshState = .found s ∧ ServedBy nodeName uid copy s
  inspect : call.reads.inspect = .ok ()
  stored : ∀ {v}, ServedBy nodeName uid copy v → ∃ s, call.reads.stored v = .ok s ∧ ServedBy nodeName uid copy s

/-- The Volume is Ready when the call writes it, or the call removes the last target. -/
def ReadyOrLast (call : UnpublishCall) (v : NodeVolume) : Prop :=
  ∀ s, call.reads.stored v.state = .ok s → s.phase = .ready ∨ v.mounts.filter (· ≠ call.target) = []

/-! ### One call -/

theorem servesFor_inv (h : copy.servesFor volumeID uid nodeName = true) :
    copy.valid = true ∧ copy.role = .serving ∧ copy.volumeID = volumeID ∧ copy.volumeUID = uid ∧ copy.nodeName = nodeName := by
  simp only [CopyIdentity.servesFor, Bool.and_eq_true, decide_eq_true_eq] at h
  obtain ⟨⟨⟨⟨hvalid, hrole⟩, hvolume⟩, huid⟩, hnode⟩ := h
  exact ⟨hvalid, hrole, hvolume, huid, hnode⟩

theorem valid_volumeID (h : copy.valid = true) : validateID copy.volumeID = true := by
  simp only [CopyIdentity.valid, Bool.and_eq_true] at h
  exact h.1.1.1.1.2

theorem reconcilePublished_ok (hcopy : copy.servesFor volumeID uid nodeName = true) {s : State} (hs : ServedBy nodeName uid copy s)
    {published : Bool} (hready : published = true → s.phase = .ready) :
    ∃ t, reconcilePublished volumeID nodeName copy published s = .ok t ∧ ServedBy nodeName uid copy t ∧
      (nodeName ∈ t.publishedNodes ↔ published = true) := by
  obtain ⟨hvalid, -⟩ := servesFor_inv hcopy
  have hwrite : ∃ t, reconcilePublished volumeID nodeName copy published s = .ok t := by
    unfold reconcilePublished mutateState
    simp only [bind_ok, require_ok, pure_ok, hs.copy, hs.uid, hs.owner, hcopy, Option.all_some, hvalid, true_and, and_true]
    exact ⟨_, (), _, ⟨(), (), hready, rfl⟩, rfl⟩
  obtain ⟨t, ht⟩ := hwrite
  refine ⟨t, ht, ?_⟩
  obtain ⟨-, -, -, rfl⟩ := reconcilePublished_inv ht
  refine ⟨⟨hs.uid, hs.owner, hs.copy⟩, ?_⟩
  rw [mem_sortedNodes]
  cases published with
  | true => simp
  | false => simp

theorem unpublishTarget_ok (hcopy : copy.servesFor volumeID uid nodeName = true) {call : UnpublishCall}
    (h : Healthy nodeName uid copy call) : ∃ target, unpublishTarget nodeName call.reads = .ok (some target) ∧
      target.copy = copy ∧ target.stateUID = uid ∧ call.reads.freshPool.toOption.map (·.root) = some target.poolRoot := by
  obtain ⟨-, hrole, -, -, hnode⟩ := servesFor_inv hcopy
  obtain ⟨s, hstate, hs⟩ := h.state
  obtain ⟨pool, hpool, hfresh, hmatches⟩ := h.pool
  obtain ⟨source, hpath⟩ := h.path
  refine ⟨{ copy, poolRoot := pool.root, source, stateUID := uid }, ?_, rfl, rfl, by simp [hfresh, Except.toOption]⟩
  have hserving : s.currentCopy.filter (·.role = .serving) = some copy := by simp [hs.copy, Option.filter, hrole]
  simp only [unpublishTarget, hstate, hserving, hnode, hpool, hmatches, hpath, hs.uid, ne_eq, not_true, if_false]

theorem nodeUnpublishVolume_healthy (hcopy : copy.servesFor volumeID uid nodeName = true) {call : UnpublishCall} {v : NodeVolume}
    (h : Healthy nodeName uid copy call) (hv : ServedBy nodeName uid copy v.state) (hready : ReadyOrLast call v) :
    ∃ state, nodeUnpublishVolume nodeName volumeID call.target call.reads v
        = (.ok (), ⟨state, v.mounts.filter (· ≠ call.target)⟩) ∧
      ServedBy nodeName uid copy state ∧ (nodeName ∈ state.publishedNodes ↔ v.mounts.filter (· ≠ call.target) ≠ []) := by
  obtain ⟨hvalid, hrole, hvolume, -, hnode⟩ := servesFor_inv hcopy
  have hid : validateID volumeID = true := hvolume ▸ valid_volumeID hvalid
  have hnamed : volumeID ≠ "" := by
    rintro rfl
    exact absurd hid (by decide)
  obtain ⟨target, htarget, rfl, huid, hroot⟩ := unpublishTarget_ok hcopy h
  obtain ⟨pool, -, hfreshPool, hmatches⟩ := h.pool
  obtain ⟨fresh, hfresh, hserved⟩ := h.fresh
  obtain ⟨s, hstored, hs⟩ := h.stored hv
  have hsroot : pool.root = target.poolRoot := by simpa [hfreshPool, Except.toOption] using hroot
  have hstill : decide (v.mounts.filter (· ≠ call.target) ≠ []) = true → s.phase = .ready := fun hleft =>
    (hready s hstored).resolve_right (of_decide_eq_true hleft)
  obtain ⟨t, hwrite, ht, hpublished⟩ := reconcilePublished_ok hcopy hs hstill
  have hreconcile : reconcileUnpublished nodeName volumeID call.reads target (v.mounts.filter (· ≠ call.target)) v.state
      = .ok (some t) := by
    have hhere : (some target.copy).any (fun copy => copy.role = .serving && copy.nodeName ≠ nodeName) = false := by
      simp [hnode]
    simp only [reconcileUnpublished, hfreshPool, hsroot, hmatches, hfresh, hserved.copy, hserved.uid, hserved.owner, huid,
      hhere, h.inspect, hstored, hwrite, ne_eq, not_true, or_self, Bool.false_eq_true, if_false]
  have hpublisher : publisherUnpublish nodeName volumeID call.reads target (v.mounts.filter (· ≠ call.target)) v.state
      = (true, .ok (some t)) := by
    unfold publisherUnpublish
    rcases h.lock with hlock | ⟨hmissing, hlock⟩
    · simp only [hlock, hreconcile]
    · simp only [hmissing, hlock, hreconcile]
  refine ⟨t, ?_, ht, hpublished.trans decide_eq_true_iff⟩
  simp only [nodeUnpublishVolume, h.configured, hnamed, h.named, or_self, if_false, hid, not_true, h.target, h.unmount,
    htarget, hpublisher]

/-! ### Any number of calls -/

def AllReadyOrLast (nodeName volumeID : String) : NodeVolume → List UnpublishCall → Prop
  | _, [] => True
  | v, call :: rest =>
    ReadyOrLast call v ∧ AllReadyOrLast nodeName volumeID (nodeUnpublishVolume nodeName volumeID call.target call.reads v).2 rest

theorem AllReadyOrLast.take {v : NodeVolume} {calls : List UnpublishCall} (h : AllReadyOrLast nodeName volumeID v calls) :
    ∀ n, AllReadyOrLast nodeName volumeID v (calls.take n) := by
  induction calls generalizing v with
  | nil => simp [AllReadyOrLast]
  | cons call rest ih =>
    intro n
    cases n with
    | zero => trivial
    | succ n => exact ⟨h.1, ih h.2 n⟩

theorem unpublish_healthy (hcopy : copy.servesFor volumeID uid nodeName = true) {calls : List UnpublishCall} {v : NodeVolume}
    (hhealthy : ∀ call ∈ calls, Healthy nodeName uid copy call) (hready : AllReadyOrLast nodeName volumeID v calls)
    (hv : ServedBy nodeName uid copy v.state) (hpublished : nodeName ∈ v.state.publishedNodes ↔ v.mounts ≠ []) :
    (v.unpublish nodeName volumeID calls).1 = calls.map (fun _ => .ok ()) ∧
      (v.unpublish nodeName volumeID calls).2.mounts = v.mounts.filter (fun t => t ∉ calls.map (·.target)) ∧
      (nodeName ∈ (v.unpublish nodeName volumeID calls).2.state.publishedNodes ↔
        (v.unpublish nodeName volumeID calls).2.mounts ≠ []) := by
  induction calls generalizing v with
  | nil => simpa [NodeVolume.unpublish] using hpublished
  | cons call rest ih =>
    obtain ⟨hcall, hrest⟩ := List.forall_mem_cons.mp hhealthy
    obtain ⟨state, hanswer, hstate, hpublished'⟩ := nodeUnpublishVolume_healthy hcopy hcall hv hready.1
    have hready' := hready.2
    rw [hanswer] at hready'
    obtain ⟨hanswers, hmounts, hafter⟩ := ih hrest hready' hstate hpublished'
    simp only [NodeVolume.unpublish, hanswer]
    refine ⟨by rw [hanswers, List.map_cons], ?_, hafter⟩
    rw [hmounts, List.filter_filter]
    refine List.filter_congr fun t _ => ?_
    rw [List.map_cons, Bool.eq_iff_iff]
    simp only [Bool.and_eq_true, decide_eq_true_eq, List.mem_cons, not_or]
    exact and_comm

end

/-- The targets of a volume are unpublished one by one, in any order and with repeats. When every call finds the Volume Ready
    or removes the last target, every call succeeds, and the node is published exactly as long as a target is left. -/
theorem unpublish_any_order {nodeName volumeID uid : String} {copy : CopyIdentity} {v : NodeVolume} {calls : List UnpublishCall}
    (hcopy : copy.servesFor volumeID uid nodeName = true) (hv : ServedBy nodeName uid copy v.state) (hlive : v.mounts ≠ [])
    (hpublished : nodeName ∈ v.state.publishedNodes) (hhealthy : ∀ call ∈ calls, Healthy nodeName uid copy call)
    (hready : AllReadyOrLast nodeName volumeID v calls) :
    (v.unpublish nodeName volumeID calls).1 = calls.map (fun _ => .ok ()) ∧
      ∀ n, let after := (v.unpublish nodeName volumeID (calls.take n)).2
        after.mounts = v.mounts.filter (fun t => t ∉ (calls.take n).map (·.target)) ∧
          (nodeName ∈ after.state.publishedNodes ↔ after.mounts ≠ []) := by
  have hstart : nodeName ∈ v.state.publishedNodes ↔ v.mounts ≠ [] := iff_of_true hpublished hlive
  refine ⟨(unpublish_healthy hcopy hhealthy hready hv hstart).1, fun n => ?_⟩
  exact (unpublish_healthy hcopy (fun call hcall => hhealthy call (List.mem_of_mem_take hcall)) (hready.take n) hv hstart).2

/-! ### Two targets -/

def twoTargets (phase : VolumePhase) : NodeVolume where
  state := { sampleState with phase, ownerNode := "node-a", publishedNodes := ["node-a"], currentCopy := some sampleCopy }
  mounts := ["/targets/pod-1", "/targets/pod-2"]

def calmCall (phase : VolumePhase) (target : String) : UnpublishCall where
  target := target
  reads :=
    { configured := .ok (), target := .ok (), unmount := .ok (), state := .found (twoTargets phase).state,
      pool := .ok ⟨"pool-a", "pool-a-uid", "node-a", "/pools/a"⟩, path := .ok "/pools/a/volumes", existingLock := .ok (),
      lock := .ok (), freshPool := .ok ⟨"pool-a", "pool-a-uid", "node-a", "/pools/a"⟩,
      freshState := .found (twoTargets phase).state, inspect := .ok (), stored := fun s => .ok { s with phase } }

theorem calmCall_healthy {phase : VolumePhase} {target : String} (htarget : target ≠ "") :
    Healthy "node-a" "volume-1" sampleCopy (calmCall phase target) where
  configured := rfl
  named := htarget
  target := rfl
  unmount := rfl
  state := ⟨_, rfl, rfl, rfl, rfl⟩
  pool := ⟨_, rfl, rfl, by decide⟩
  path := ⟨_, rfl⟩
  lock := .inl rfl
  fresh := ⟨_, rfl, rfl, rfl, rfl⟩
  inspect := rfl
  stored := fun hv => ⟨_, rfl, hv.uid, hv.owner, hv.copy⟩

/-- Three calls for two targets of a Ready Volume. -/
theorem unpublish_any_order_twice :
    let calls := ["/targets/pod-2", "/targets/pod-2", "/targets/pod-1"].map (calmCall .ready)
    ((twoTargets .ready).unpublish "node-a" sampleVolumeID calls).1 = [.ok (), .ok (), .ok ()] := by
  intro calls
  have hserved : ServedBy "node-a" "volume-1" sampleCopy (twoTargets .ready).state := ⟨rfl, rfl, rfl⟩
  refine (unpublish_any_order (by decide +kernel) hserved (by decide) (by decide) ?_ ?_).1
  · intro call hcall
    obtain ⟨target, htarget, rfl⟩ := List.mem_map.mp hcall
    refine calmCall_healthy ?_
    rintro rfl
    exact absurd htarget (by decide)
  · refine ⟨?_, ?_, ?_, trivial⟩
    all_goals
      intro s hs
      cases hs
      exact .inl rfl

/-- While the Volume moves, a call that leaves the other target mounted is refused. -/
theorem unpublish_moving_refused :
    ((twoTargets .moving).unpublish "node-a" sampleVolumeID [calmCall .moving "/targets/pod-1"]).1.map
        (fun answer => match answer with | .ok () => none | .error e => some e.code) = [some .failedPrecondition] ∧
      Healthy "node-a" "volume-1" sampleCopy (calmCall .moving "/targets/pod-1") :=
  ⟨by decide +kernel, calmCall_healthy (by decide)⟩

end ShiftPV

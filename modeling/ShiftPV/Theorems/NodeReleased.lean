import ShiftPV.CreatePlacement
import ShiftPV.Theorems.PoolIsolation

/-! When a placement gives its node up. Only two places answer ResourceExhausted, both after an inspection that found the
    claim reschedulable. -/

namespace ShiftPV
open Check

/-! ### The loop over the Pods -/

def Consumes (pod : ConsumerPod) (name : String) : Prop := usesClaim pod name = true ∧ pod.live = true

structure Surveyed (pods : List ConsumerPod) (name node : String) (state : PlacementResult × Bool) : Prop where
  fixed : state.1.placement = .fixed ↔ ∃ pod ∈ pods, Consumes pod name ∧ pod.nodeName = node
  waits : state.1.placement = .reschedulable → ∃ pod ∈ pods, Consumes pod name ∧ pod.nodeName = ""
  elsewhere : state.2 = true ↔ ∃ pod ∈ pods, Consumes pod name ∧ pod.nodeName ≠ "" ∧ pod.nodeName ≠ node

section
variable {pods : List ConsumerPod} {pod : ConsumerPod} {name node : String} {state : PlacementResult × Bool}

theorem exists_consumer_append {P : ConsumerPod → Prop} :
    (∃ p ∈ pods ++ [pod], Consumes p name ∧ P p) ↔ (∃ p ∈ pods, Consumes p name ∧ P p) ∨ Consumes pod name ∧ P pod := by
  simp only [List.mem_append, List.mem_singleton, or_and_right, exists_or, exists_eq_left]

theorem Surveyed.skip (h : Surveyed pods name node state) (hskip : ¬Consumes pod name) :
    Surveyed (pods ++ [pod]) name node state := by
  have hkeep : ∀ {P : ConsumerPod → Prop}, (∃ p ∈ pods ++ [pod], Consumes p name ∧ P p) ↔ ∃ p ∈ pods, Consumes p name ∧ P p := by
    intro P
    rw [exists_consumer_append]
    exact or_iff_left fun hc => hskip hc.1
  exact ⟨h.fixed.trans hkeep.symm, fun hr => hkeep.mpr (h.waits hr), h.elsewhere.trans hkeep.symm⟩

theorem placementStep_consumer (node : String) (state : PlacementResult × Bool) (hc : Consumes pod name) :
    (placementStep name node state pod).2 = (state.2 || (pod.nodeName ≠ "" && pod.nodeName ≠ node)) ∧
      ((placementStep name node state pod).1.placement = .fixed ↔ state.1.placement = .fixed ∨ pod.nodeName = node) ∧
      ((placementStep name node state pod).1.placement = .reschedulable →
        state.1.placement = .reschedulable ∨ pod.nodeName = "") := by
  unfold placementStep
  rw [if_neg (by simp [hc.1, hc.2])]
  refine ⟨rfl, ?_, ?_⟩
  · by_cases hnode : pod.nodeName = node
    · simp [hnode]
    · by_cases hfree : pod.nodeName = "" ∧ state.1.placement ≠ .fixed
      · simp only [hnode, if_false, if_pos hfree, reduceCtorEq, hfree.2, or_false]
      · simp only [hnode, hfree, if_false, or_false]
  · by_cases hnode : pod.nodeName = node
    · simp [hnode]
    · by_cases hfree : pod.nodeName = "" ∧ state.1.placement ≠ .fixed
      · exact fun _ => .inr hfree.1
      · simp only [hnode, hfree, if_false]
        exact .inl

theorem Surveyed.step (h : Surveyed pods name node state) (pod : ConsumerPod) :
    Surveyed (pods ++ [pod]) name node (placementStep name node state pod) := by
  by_cases hc : Consumes pod name
  · obtain ⟨hconflict, hfixed, hwaits⟩ := placementStep_consumer node state hc
    refine ⟨?_, fun hr => ?_, ?_⟩
    · rw [hfixed, exists_consumer_append, h.fixed]
      simp only [hc, true_and]
    · rw [exists_consumer_append]
      rcases hwaits hr with hold | hfree
      · exact .inl (h.waits hold)
      · exact .inr ⟨hc, hfree⟩
    · rw [hconflict, exists_consumer_append, ← h.elsewhere]
      simp only [hc, true_and, Bool.or_eq_true, Bool.and_eq_true, decide_eq_true_eq]
  · have hstate : placementStep name node state pod = state := by
      unfold placementStep
      rw [if_pos]
      by_contra hboth
      push Not at hboth
      exact hc hboth
    rw [hstate]
    exact h.skip hc

theorem Surveyed.foldl {seen : List ConsumerPod} (h : Surveyed seen name node state) (pods : List ConsumerPod) :
    Surveyed (seen ++ pods) name node (pods.foldl (placementStep name node) state) := by
  induction pods generalizing seen state with
  | nil => simpa using h
  | cons pod pods ih => simpa using ih (h.step pod)

theorem surveyed_start (name node : String) :
    Surveyed [] name node (⟨.unknown, "no active PVC consumer is observable"⟩, false) := by
  constructor <;> simp

theorem placementForPods_reschedulable (h : (placementForPods pods name node).placement = .reschedulable) :
    (∃ pod ∈ pods, Consumes pod name) ∧ ∀ pod ∈ pods, Consumes pod name → pod.nodeName = "" := by
  have hseen := (surveyed_start name node).foldl pods
  rw [List.nil_append] at hseen
  unfold placementForPods at h
  generalize pods.foldl (placementStep name node) _ = state at h hseen
  obtain ⟨result, conflict⟩ := state
  cases conflict with
  | true => simp at h
  | false =>
    simp only [Bool.false_eq_true, if_false] at h
    obtain ⟨pod, hpod, hc, -⟩ := hseen.waits h
    refine ⟨⟨pod, hpod, hc⟩, fun p hp hp' => ?_⟩
    by_contra hassigned
    have hnode : p.nodeName ≠ node := by
      intro hnode
      have hfixed := hseen.fixed.mpr ⟨p, hp, hp', hnode⟩
      rw [h] at hfixed
      cases hfixed
    exact absurd (hseen.elsewhere.mpr ⟨p, hp, hp', hassigned, hnode⟩) (by simp)

end

/-! ### The inspection -/

section
variable {reader : ConsumerReader} {pvc : ConsumerClaim} {placement result : PlacementResult} {req : ConsumerRequest}

/-- A Pod that owns the claim was read as the owner it is, and is assigned or left to the scheduler. -/
def OwnerSettled (reader : ConsumerReader) (pvc : ConsumerClaim) (owner : OwnerReference) : Prop :=
  ∃ pod, reader.pod owner.name = .found pod ∧ pod.uid = owner.uid ∧ usesClaim pod pvc.name = true ∧
    (pod.nodeName = "" → schedulerOwnsEphemeral pod pvc = true)

theorem podOwnerPlacement_reschedulable {owners : List OwnerReference}
    (h : podOwnerPlacement reader pvc placement owners = .ok result) (hr : result.placement = .reschedulable) :
    result = placement ∧ ∀ owner ∈ owners, owner.isPod = true → OwnerSettled reader pvc owner := by
  induction owners with
  | nil =>
    simp only [podOwnerPlacement, Except.ok.injEq] at h
    exact ⟨h.symm, by simp⟩
  | cons owner rest ih =>
    unfold podOwnerPlacement at h
    split at h
    · rename_i hother
      obtain ⟨heq, hrest⟩ := ih h
      refine ⟨heq, fun o ho hpod => ?_⟩
      rcases List.mem_cons.mp ho with rfl | ho
      · exact absurd hpod hother
      · exact hrest o ho hpod
    · split at h
      · cases h
        cases hr
      · cases h
      · rename_i pod hread
        split at h
        · cases h
          cases hr
        · rename_i hproven
          split at h
          · cases h
            cases hr
          · rename_i hassigned
            push Not at hproven hassigned
            obtain ⟨heq, hrest⟩ := ih h
            refine ⟨heq, fun o ho hpod => ?_⟩
            rcases List.mem_cons.mp ho with rfl | ho
            · exact ⟨pod, hread, hproven.1, hproven.2, hassigned⟩
            · exact hrest o ho hpod

structure Released (reader : ConsumerReader) (req : ConsumerRequest) (pvc : ConsumerClaim) (pods : List ConsumerPod) : Prop where
  claim : reader.claim req.name = .found pvc
  uid : pvc.uid = req.uid
  selected : pvc.selectedNode = req.node
  listed : reader.pods = .ok pods
  consumed : ∃ pod ∈ pods, Consumes pod pvc.name
  unassigned : ∀ pod ∈ pods, Consumes pod pvc.name → pod.nodeName = ""
  owners : ∀ owner ∈ pvc.owners, owner.isPod = true → OwnerSettled reader pvc owner

theorem inspectConsumer_reschedulable {source : Option ConsumerReader} (h : inspectConsumer source req = .ok result)
    (hr : result.placement = .reschedulable) : ∃ reader pvc pods, source = some reader ∧ Released reader req pvc pods := by
  unfold inspectConsumer at h
  split at h
  · cases h
    cases hr
  · split at h
    · cases h
    · rename_i reader
      split at h
      · cases h
        cases hr
      · cases h
      · rename_i pvc hclaim
        split at h
        · cases h
        · rename_i hmatches
          simp only [ConsumerClaim.matches, not_not, Bool.and_eq_true, decide_eq_true_eq] at hmatches
          split at h
          · -- the claim of a populator is fixed or unknown
            exfalso
            unfold primePlacement at h
            repeat' split at h
            all_goals cases h
            all_goals cases hr
          · split at h
            · cases h
            · rename_i pods hpods
              dsimp only at h
              split at h
              · rename_i hfixed
                cases h
                rw [hfixed] at hr
                cases hr
              · obtain ⟨rfl, howners⟩ := podOwnerPlacement_reschedulable h hr
                obtain ⟨hconsumed, hfree⟩ := placementForPods_reschedulable hr
                exact ⟨reader, pvc, pods, rfl, hclaim, hmatches.1.1.1, hmatches.1.1.2, hpods, hconsumed, hfree, howners⟩

end

/-! ### Denials -/

section
variable {parameters : CreateParameters} {request : PlacedRequest} {pool : MeasuredPool} {reads : AttemptReads}

def consumerRequest (parameters : CreateParameters) (requestName node : String) : ConsumerRequest :=
  { ns := parameters.pvcNamespace, name := parameters.pvcName, uid := requestUID requestName, node }

def Reschedules (consumer : Option (Option ConsumerReader)) (parameters : CreateParameters) (requestName node : String) : Prop :=
  ∃ reader pvc pods, consumer = some (some reader) ∧ Released reader (consumerRequest parameters requestName node) pvc pods

theorem inspectConsumerPlacement_error {consumer : Option (Option ConsumerReader)} {requestName node message : String}
    {e : Status} (h : inspectConsumerPlacement consumer parameters requestName node message = .error e) :
    e.code ≠ .resourceExhausted := by
  unfold inspectConsumerPlacement at h
  split at h
  · cases h
    simp
  · split at h
    all_goals cases h
    all_goals simp

theorem inspectConsumerPlacement_reschedulable {consumer : Option (Option ConsumerReader)} {requestName node message : String}
    {placement : PlacementResult} (h : inspectConsumerPlacement consumer parameters requestName node message = .ok placement)
    (hr : placement.placement = .reschedulable) : Reschedules consumer parameters requestName node := by
  unfold inspectConsumerPlacement at h
  split at h
  · cases h
  · rename_i source
    split at h
    all_goals cases h
    rename_i hinspect
    obtain ⟨reader, pvc, pods, rfl, hreleased⟩ := inspectConsumer_reschedulable hinspect hr
    exact ⟨reader, pvc, pods, rfl, hreleased⟩

theorem kubernetesAPIError_code (operation : String) (e : Failure) :
    (kubernetesAPIError operation e).code ≠ .resourceExhausted := by
  obtain ⟨kind, text⟩ := e
  cases kind <;> simp [kubernetesAPIError]

theorem capacityProbeError_code (operation : String) (e : Failure) :
    (capacityProbeError operation e).code ≠ .resourceExhausted := by
  obtain ⟨kind, text⟩ := e
  cases kind <;> simp [capacityProbeError]

theorem capacityDenied_exhausted {requested limit : Int} {stats : Option Filesystem} {requestName message : String}
    (h : (capacityDenied reads parameters requestName pool requested limit stats message).code = .resourceExhausted) :
    Reschedules reads.consumer parameters requestName pool.nodeName := by
  unfold capacityDenied at h
  split at h
  · rename_i e herror
    exact absurd h (inspectConsumerPlacement_error herror)
  · rename_i placement hplacement
    split at h
    · dsimp only at h
      split at h
      · rename_i e hstats
        unfold deniedStats at hstats
        split at hstats
        · split at hstats
          all_goals cases hstats
          exact absurd h (capacityProbeError_code _ _)
        · cases hstats
      · cases h
    · rename_i hr
      exact inspectConsumerPlacement_reschedulable hplacement (not_not.mp hr)

theorem poolReservedBytes_code {uid : String} {e : Status} (h : poolReservedBytes reads uid = .error e) :
    e.code ≠ .resourceExhausted := by
  unfold poolReservedBytes at h
  split at h
  · cases h
    exact kubernetesAPIError_code _ _
  · split at h
    · cases h
      exact kubernetesAPIError_code _ _
    · split at h
      all_goals cases h
      simp

theorem newCreationRequest_code {requestName : String} {claim : ClaimInspection} {e : Status}
    (h : newCreationRequest requestName parameters claim = .error e) : e.code ≠ .resourceExhausted := by
  unfold newCreationRequest at h
  split at h
  · cases h
  · split at h
    · cases h
      simp
    · unfold inspectCreationClaim at h
      repeat' split at h
      all_goals cases h
      all_goals first | exact kubernetesAPIError_code _ _ | simp

theorem poolDenial_error {e : Status} (h : poolDenial reads parameters request pool = .error e) :
    e.code ≠ .resourceExhausted := by
  unfold poolDenial at h
  dsimp only at h
  split at h
  · cases h
  · split at h
    · rename_i hreserved
      cases h
      exact poolReservedBytes_code hreserved
    · repeat' split at h
      all_goals cases h

theorem poolDenial_exhausted {denial : Status} (h : poolDenial reads parameters request pool = .ok (some denial))
    (hcode : denial.code = .resourceExhausted) : Reschedules reads.consumer parameters request.requestName pool.nodeName := by
  unfold poolDenial at h
  dsimp only at h
  split at h
  · cases h
    cases hcode
  · split at h
    · cases h
    · split at h
      · cases h
        exact capacityDenied_exhausted hcode
      · split at h
        · cases h
          exact absurd hcode (capacityProbeError_code _ _)
        · split at h
          · cases h
            exact capacityDenied_exhausted hcode
          · cases h

theorem checkInitializing_code {e : Status} (h : checkInitializing reads = .error e) : e.code ≠ .resourceExhausted := by
  unfold checkInitializing at h
  split at h
  all_goals cases h
  · exact kubernetesAPIError_code _ _
  · simp

theorem recordCreation_code {e : Status} (h : recordCreation reads parameters request = .error e) :
    e.code ≠ .resourceExhausted := by
  unfold recordCreation at h
  split at h
  · rename_i hrequest
    cases h
    split at hrequest
    · exact newCreationRequest_code hrequest
    · cases hrequest
  · split at h
    all_goals cases h
    simp

theorem attemptCreateInPool_error {e : Status} (h : attemptCreateInPool reads parameters request pool = .error e) :
    e.code ≠ .resourceExhausted := by
  unfold attemptCreateInPool at h
  split at h
  · rename_i hcheck
    cases h
    exact checkInitializing_code hcheck
  · split at h
    · rename_i hdenial
      cases h
      exact poolDenial_error hdenial
    · cases h
    · split at h
      · rename_i hrecord
        cases h
        exact recordCreation_code hrecord
      · cases h

theorem attemptCreateInPool_denied {denial : Status}
    (h : attemptCreateInPool reads parameters request pool = .ok (.denied denial)) (hcode : denial.code = .resourceExhausted) :
    Reschedules reads.consumer parameters request.requestName pool.nodeName := by
  unfold attemptCreateInPool at h
  split at h
  · cases h
  · split at h
    · cases h
    · rename_i hdenial
      cases h
      exact poolDenial_exhausted hdenial hcode
    · split at h
      all_goals cases h

end

/-! ### The placement -/

section
variable {attempt : MeasuredPool → Except Status PoolFit} {missing e : Status} {pools : List MeasuredPool}

/-- The loop ends with ResourceExhausted only when every candidate denied the request and none as Unavailable; then the
    first denial is the answer. -/
theorem tryPools_exhausted (hattempt : ∀ pool e, attempt pool = .error e → e.code ≠ .resourceExhausted)
    {denied : Option Status} (h : tryPools attempt missing denied pools = .error e) (hcode : e.code = .resourceExhausted) :
    (∀ pool ∈ pools, ∃ denial, attempt pool = .ok (.denied denial) ∧ denial.code ≠ .unavailable) ∧
      (denied = some e ∨ denied = none ∧ pools = [] ∧ e = missing ∨
        denied = none ∧ ∃ pool rest, pools = pool :: rest ∧ attempt pool = .ok (.denied e)) := by
  induction pools generalizing denied with
  | nil =>
    refine ⟨by simp, ?_⟩
    cases denied with
    | none =>
      obtain rfl : missing = e := by simpa [tryPools] using h
      exact .inr (.inl ⟨rfl, rfl, rfl⟩)
    | some denial =>
      obtain rfl : denial = e := by simpa [tryPools] using h
      exact .inl rfl
  | cons pool rest ih =>
    unfold tryPools at h
    split at h
    · rename_i herror
      cases h
      exact absurd hcode (hattempt pool _ herror)
    · cases h
    · rename_i denial hdenied
      obtain ⟨hrest, hkept⟩ := ih h
      -- a denial that is kept is not Unavailable, so the one that was just given is not either
      have hcase : denial.code ≠ .unavailable := by
        intro hunavailable
        rw [if_pos (.inr hunavailable)] at hkept
        rcases hkept with hkept | ⟨hnone, -⟩ | ⟨hnone, -⟩
        · cases hkept
          rw [hunavailable] at hcode
          cases hcode
        · cases hnone
        · cases hnone
      refine ⟨List.forall_mem_cons.mpr ⟨⟨denial, hdenied, hcase⟩, hrest⟩, ?_⟩
      cases denied with
      | some kept =>
        rw [if_neg (by simp [hcase])] at hkept
        rcases hkept with hkept | ⟨hnone, -⟩ | ⟨hnone, -⟩
        · exact .inl hkept
        · cases hnone
        · cases hnone
      | none =>
        rw [if_pos (.inl rfl)] at hkept
        rcases hkept with hkept | ⟨hnone, -⟩ | ⟨hnone, -⟩
        · cases hkept
          exact .inr (.inr ⟨rfl, pool, rest, rfl, hdenied⟩)
        · cases hnone
        · cases hnone

end

/-- The inspection that an answer of ResourceExhausted rests on: that of the first candidate, or the one without any. -/
def PlacementReads.deciding (reads : PlacementReads) (parameters : CreateParameters) (node : String) :
    Option (Option ConsumerReader) :=
  match reads.candidates parameters node with
  | [] => reads.consumer
  | pool :: _ => (reads.attempt pool).consumer

/-- A live Pod that owns the claim, uses it and was read with a node. -/
def AssignedOwner (reader : ConsumerReader) (pvc : ConsumerClaim) (pod : ConsumerPod) : Prop :=
  ∃ owner ∈ pvc.owners, owner.isPod = true ∧ reader.pod owner.name = .found pod ∧ Consumes pod pvc.name ∧ pod.nodeName ≠ ""

/-- When an owner was read with a node, the list has a consumer with a node too. -/
def OwnersListed (reader : ConsumerReader) (pvc : ConsumerClaim) (pods : List ConsumerPod) : Prop :=
  (∃ pod, AssignedOwner reader pvc pod) → ∃ pod ∈ pods, Consumes pod pvc.name ∧ pod.nodeName ≠ ""

theorem Released.owners_unassigned {reader : ConsumerReader} {req : ConsumerRequest} {pvc : ConsumerClaim}
    {pods : List ConsumerPod} (h : Released reader req pvc pods) :
    (∀ pod, ¬AssignedOwner reader pvc pod) ↔ OwnersListed reader pvc pods := by
  constructor
  · rintro hnone ⟨pod, hassigned⟩
    exact absurd hassigned (hnone pod)
  · intro hlisted pod hassigned
    obtain ⟨listed, hmem, hconsumes, hnode⟩ := hlisted ⟨pod, hassigned⟩
    exact hnode (h.unassigned listed hmem hconsumes)

theorem noReadyPool_exhausted {consumer : Option (Option ConsumerReader)} {parameters : CreateParameters}
    {requestName node : String} {registered : List RegisteredPool}
    (h : (noReadyPool consumer parameters requestName node registered).code = .resourceExhausted) :
    Reschedules consumer parameters requestName node := by
  unfold noReadyPool at h
  dsimp only at h
  split at h
  · cases h
  · split at h
    · rename_i herror
      exact absurd h (inspectConsumerPlacement_error herror)
    · rename_i hplacement
      split at h
      · rename_i hr
        exact inspectConsumerPlacement_reschedulable hplacement hr
      · cases h

theorem placeNewCreate_candidates {snapshot : Except Failure PlacementReads} {request : PlacedRequest}
    {parameters : CreateParameters} {e : Status} (h : placeNewCreate snapshot request parameters = .error e)
    (hcode : e.code = .resourceExhausted) :
    ∃ reads, snapshot = .ok reads ∧
      tryPools (fun pool => attemptCreateInPool (reads.attempt pool) parameters request pool)
        (noReadyPool reads.consumer parameters request.requestName request.nodeName reads.registered) none
        (reads.candidates parameters request.nodeName) = .error e := by
  unfold placeNewCreate at h
  split at h
  · rename_i failure
    exfalso
    cases h
    unfold poolSelectionError at hcode
    split at hcode
    all_goals first | cases hcode | exact kubernetesAPIError_code _ _ hcode
  · rename_i reads
    dsimp only at h
    split at h
    · cases h
      cases hcode
    · exact ⟨reads, rfl, h⟩

/-- A placement that gives its node up rests on an inspection that found the claim as it was recorded, a consumer of it, no
    listed consumer with a node and no unsettled owner, and every candidate denied the request, none of them as Unavailable.
    It has read no consumer with a node at all just when its list has one whenever an owner was read with a node. -/
theorem placeNewCreate_exhausted {snapshot : Except Failure PlacementReads} {request : PlacedRequest}
    {parameters : CreateParameters} {e : Status} (h : placeNewCreate snapshot request parameters = .error e)
    (hcode : e.code = .resourceExhausted) :
    ∃ reads reader pvc pods, snapshot = .ok reads ∧
      reads.deciding parameters request.nodeName = some (some reader) ∧
      Released reader (consumerRequest parameters request.requestName request.nodeName) pvc pods ∧
      (∀ pool ∈ reads.candidates parameters request.nodeName, ∃ denial,
        attemptCreateInPool (reads.attempt pool) parameters request pool = .ok (.denied denial) ∧
          denial.code ≠ .unavailable) ∧
      ((∀ pod, ¬AssignedOwner reader pvc pod) ↔ OwnersListed reader pvc pods) := by
  obtain ⟨reads, rfl, htry⟩ := placeNewCreate_candidates h hcode
  obtain ⟨hdenied, hkept⟩ := tryPools_exhausted (fun _ _ => attemptCreateInPool_error) htry hcode
  suffices Reschedules (reads.deciding parameters request.nodeName) parameters request.requestName request.nodeName by
    obtain ⟨reader, pvc, pods, hdeciding, hreleased⟩ := this
    exact ⟨reads, reader, pvc, pods, rfl, hdeciding, hreleased, hdenied, hreleased.owners_unassigned⟩
  unfold PlacementReads.deciding
  rcases hkept with hkept | ⟨-, hnone, rfl⟩ | ⟨-, pool, rest, hfirst, hattempt⟩
  · cases hkept
  · rw [hnone]
    exact noReadyPool_exhausted hcode
  · have hscope := (List.mem_filter.mp (hfirst ▸ List.mem_cons_self)).2
    simp only [Bool.and_eq_true, decide_eq_true_eq] at hscope
    rw [hfirst, ← hscope.1]
    exact attemptCreateInPool_denied hattempt hcode

/-! ### A Pod that is bound between two reads -/

def pendingWorker : ConsumerPod where
  name := "worker"
  uid := "pod-uid"
  ns := "test"
  nodeName := ""
  phase := .pending
  volumes := [⟨"data", true, none⟩]

def boundWorker : ConsumerPod := { pendingWorker with nodeName := "node", phase := .running }

def workerClaim : ConsumerClaim where
  name := "worker-data"
  ns := "test"
  uid := "claim-uid"
  selectedNode := "node"
  populatorKind := none
  primeName := ""
  isDeleting := false
  volumeName := ""
  owners := [⟨"v1", "Pod", "worker", "pod-uid", true⟩]
  dataSource := none

def workerReader (owner : ConsumerPod) : ConsumerReader where
  claim _ := .found workerClaim
  pods := .ok [pendingWorker]
  pod _ := .found owner

def workerRequest : PlacedRequest where
  volumeID := "shiftpv-0"
  requestName := "pvc-claim-uid"
  capacityBytes := 1
  nodeName := "node"

def workerParameters : CreateParameters where
  pvcNamespace := "test"
  pvcName := "worker-data"
  pvName := ""
  poolGroup := ""

def workerReads (reader : ConsumerReader) : PlacementReads where
  registered := []
  ready := []
  attempt _ :=
    { reader := sampleReader, initializing := none, volumes := .ok (.empty _), moves := .ok [],
      stats := .error ⟨.other, ""⟩, observed := .error ⟨.other, ""⟩, consumer := none, claim := .notConfigured,
      beginCreate := .error "" }
  consumer := some (some reader)

def answeredCode (answer : Except Status State) : Option Code :=
  match answer with
  | .error e => some e.code
  | .ok _ => none

/-- The owner is still pending when it is read, and no consumer has a node. -/
theorem placeNewCreate_exhausted_pending :
    answeredCode (placeNewCreate (.ok (workerReads (workerReader pendingWorker))) workerRequest workerParameters)
        = some .resourceExhausted ∧
      Released (workerReader pendingWorker) (consumerRequest workerParameters workerRequest.requestName "node") workerClaim
        [pendingWorker] ∧
      ∀ pod, ¬AssignedOwner (workerReader pendingWorker) workerClaim pod := by
  have hanswer : answeredCode (placeNewCreate (.ok (workerReads (workerReader pendingWorker))) workerRequest workerParameters)
      = some .resourceExhausted := by decide +kernel
  refine ⟨hanswer, ?_⟩
  cases hplace : placeNewCreate (.ok (workerReads (workerReader pendingWorker))) workerRequest workerParameters with
  | ok created => simp [hplace, answeredCode] at hanswer
  | error e =>
    have hcode : e.code = .resourceExhausted := by simpa [hplace, answeredCode] using hanswer
    obtain ⟨reads, reader, pvc, pods, hreads, hdeciding, hreleased, -, howners⟩ := placeNewCreate_exhausted hplace hcode
    cases hreads
    cases hdeciding
    cases hreleased.claim
    cases hreleased.listed
    refine ⟨hreleased, howners.mpr ?_⟩
    rintro ⟨pod, owner, -, -, hread, -, hnode⟩
    cases hread
    exact absurd rfl hnode

/-- The owner is bound after the list was read: the inspection sees it run on the node, and the node is given up. -/
theorem placeNewCreate_releases_bound :
    answeredCode (placeNewCreate (.ok (workerReads (workerReader boundWorker))) workerRequest workerParameters)
        = some .resourceExhausted ∧
      AssignedOwner (workerReader boundWorker) workerClaim boundWorker ∧ boundWorker.nodeName = workerRequest.nodeName :=
  ⟨by decide +kernel, ⟨_, .head _, rfl, rfl, ⟨by decide, rfl⟩, by decide⟩, rfl⟩

end ShiftPV

import ShiftPV.StatusCodec

/-! A status that is written and read again is the same status. A record that the client library failed to convert would be
    dropped without a word; the laws say that it does not fail on these. -/

namespace ShiftPV
open Check Unstructured

/-- What is relied on of the client library: its accessors read what is there, and each record of a status is converted and
    converted back. -/
structure StatusApi.Lawful (api : StatusApi) : Prop extends Accessors.Lawful api.toAccessors where
  copies (copy : CopyIdentity) : copy.valid → api.copyIdentity.Restores copy
  executors (executor : NodeExecutor) : api.nodeExecutor.Restores executor
  receipts (receipt : ReceiptFields) : api.creationReceipt.Restores receipt
  preparations (preparation : MovePreparation) : api.movePreparation preparation.encoded = .ok preparation

variable {api : StatusApi} {object next : Map} {status : MoveStatusFields} {key : String}

/-! ### Fields of a status -/

theorem copyFrom_put {wrap : String → String} {found : Option CopyIdentity} (h : api.Lawful)
    (hvalid : ∀ copy, found = some copy → copy.valid) (hget : next.get key = api.copyIdentity.written found) :
    copyFrom api wrap (object.put "status" (.map next)) key = .ok found := by
  have hrestores := fun copy hcopy => h.copies copy (hvalid copy hcopy)
  rw [copyFrom]
  rcases Converter.written_read object "status" h.map hrestores hget with
    ⟨rfl, hread⟩ | ⟨copy, data, rfl, hread, hfrom⟩
  · rw [hread]
    rfl
  · rw [hread]
    simp [hfrom, require_of (hvalid copy rfl), Except.mapError, bind, Except.bind, pure, Except.pure]

theorem decodeStatusField_put {α : Type} {converter : Converter α} {found : Option α} (h : api.Lawful)
    (hrestores : ∀ a, converter.Restores a) (hget : next.get key = converter.written found) :
    decodeStatusField api converter (object.put "status" (.map next)) key = .ok found := by
  rw [decodeStatusField]
  rcases Converter.written_read object "status" h.map (fun a _ => hrestores a) hget with
    ⟨rfl, hread⟩ | ⟨a, data, rfl, hread, hfrom⟩
  · rw [hread]
    rfl
  · rw [hread]
    simp [hfrom, Except.mapError, bind, Except.bind, pure, Except.pure]

theorem movePreparationFrom_put {found : Option MovePreparation} (h : api.Lawful)
    (hvalid : ∀ preparation, found = some preparation → validatePreparationFields preparation = .ok ())
    (hget : next.get "preparation" = found.map fun preparation => .map preparation.encoded) :
    movePreparationFrom api (object.put "status" (.map next)) = .ok found := by
  rw [movePreparationFrom]
  cases found with
  | none =>
    rw [h.field.missing_below hget]
    rfl
  | some preparation =>
    rw [h.field.found_below hget rfl]
    simp [h.preparations, hvalid preparation rfl, Except.mapError, bind, Except.bind, pure, Except.pure]

theorem embeddedCleanup_ne_null : embeddedCleanup object ≠ some .null := by
  unfold embeddedCleanup
  repeat' split
  all_goals simp_all

theorem embeddedCleanup_put (hget : next.get "cleanup" = embeddedCleanup object) :
    embeddedCleanup (object.put "status" (.map next)) = embeddedCleanup object := by
  conv_lhs => unfold embeddedCleanup
  simp only [Map.get_put, if_true, hget]
  split
  · exact absurd ‹_› embeddedCleanup_ne_null
  · rfl

theorem cleanupPhaseFrom_put (h : api.Lawful) (hget : next.get "cleanup" = embeddedCleanup object) :
    cleanupPhaseFrom api (object.put "status" (.map next)) = cleanupPhaseFrom api object := by
  have hnone (hno : embeddedCleanup object = none) : orZero "" (api.nestedString next ["cleanup", "status", "phase"]) = "" := by
    rw [h.string.missing _ (hget.trans hno)]
    rfl
  rw [cleanupPhaseFrom, cleanupPhaseFrom, h.string.orZero_below]
  cases hstatus : Map.get object "status" with
  | none =>
    rw [h.string.missing _ hstatus, hnone (by simp [embeddedCleanup, hstatus])]
    rfl
  | some found =>
    cases hmap : found.asMap with
    | none =>
      rw [orZero_of_ne (h.string.blocked _ _ hstatus hmap), hnone]
      cases found <;> simp_all [embeddedCleanup, Value.asMap]
    | some old =>
      obtain rfl : found = .map old := by cases found <;> simp_all [Value.asMap]
      rw [orZero_congr (h.string.below _ _ hstatus)]
      by_cases hnull : Map.get old "cleanup" = some .null
      · rw [orZero_of_ne (h.string.blocked _ _ hnull rfl), hnone (by simp [embeddedCleanup, hstatus, hnull])]
      · have hsame : next.get "cleanup" = old.get "cleanup" := by
          rw [hget]
          simp only [embeddedCleanup, hstatus]
        rw [h.string.first _ hsame]

/-! ### Moves -/

theorem moveStatusFrom_setMoveStatus (h : api.Lawful) (hsource : ∀ copy, status.sourceCopy = some copy → copy.valid)
    (hincoming : ∀ copy, status.incomingCopy = some copy → copy.valid)
    (hdestination : ∀ copy, status.destinationCopy = some copy → copy.valid)
    (hpreparation : ∀ preparation, status.preparation = some preparation → validatePreparationFields preparation = .ok ())
    (hrollback : 0 ≤ status.rollbackRequiredGeneration) (hcleanup : status.cleanupPhase = cleanupPhaseFrom api object) :
    moveStatusFrom api (setMoveStatus api object status) = .ok status := by
  have hcandidates : api.nestedStringSlice (setMoveStatus api object status) ["status", "candidateNodes"] =
      .ok (some status.candidateNodes) :=
    h.stringSlice.found_below (show _ = some (strings status.candidateNodes) by simp [encodedMoveStatus]) (asStrings_strings _)
  have heviction : api.nestedBool (setMoveStatus api object status) ["status", "evictionRequested"] =
      .ok (some status.evictionRequested) :=
    h.bool.found_below (show _ = some (.bool _) by simp [encodedMoveStatus]) rfl
  have happroved : api.nestedBool (setMoveStatus api object status) ["status", "capacityApproved"] =
      .ok (some status.capacityApproved) :=
    h.bool.found_below (show _ = some (.bool _) by simp [encodedMoveStatus]) rfl
  have hbytes : api.nestedInt64 (setMoveStatus api object status) ["status", "sourceBytes"] = .ok (some status.sourceBytes) :=
    h.int64.found_below (show _ = some (.int _) by simp [encodedMoveStatus]) rfl
  have hgeneration : ∃ found,
      api.nestedInt64 (setMoveStatus api object status) ["status", "rollbackRequiredGeneration"] = .ok found ∧
        found.getD 0 = status.rollbackRequiredGeneration := by
    by_cases hset : status.rollbackRequiredGeneration > 0
    · refine ⟨some status.rollbackRequiredGeneration, h.int64.found_below (show _ = some (.int _) from ?_) rfl, rfl⟩
      simp [encodedMoveStatus, hset]
    · refine ⟨none, h.int64.missing_below ?_, ?_⟩
      · simp [encodedMoveStatus, hset]
      · show (0 : Int) = _
        omega
  have hsettlement : ∃ found, api.nestedBool (setMoveStatus api object status) ["status", "settlementRequested"] = .ok found ∧
      found.getD false = status.settlementRequested := by
    cases hset : status.settlementRequested with
    | true =>
      refine ⟨some true, h.bool.found_below (show _ = some (.bool _) from ?_) rfl, rfl⟩
      simp [encodedMoveStatus, hset]
    | false =>
      refine ⟨none, h.bool.missing_below ?_, rfl⟩
      simp [encodedMoveStatus, hset]
  obtain ⟨generation, hgeneration, hgenerationEq⟩ := hgeneration
  obtain ⟨settlement, hsettlement, hsettlementEq⟩ := hsettlement
  have hsourceRead : readCopy api (setMoveStatus api object status) "sourceCopy" = .ok status.sourceCopy :=
    copyFrom_put h hsource (by simp [encodedMoveStatus])
  have hincomingRead : readCopy api (setMoveStatus api object status) "incomingCopy" = .ok status.incomingCopy :=
    copyFrom_put h hincoming (by simp [encodedMoveStatus])
  have hdestinationRead : readCopy api (setMoveStatus api object status) "destinationCopy" = .ok status.destinationCopy :=
    copyFrom_put h hdestination (by simp [encodedMoveStatus])
  have hpreparationRead : movePreparationFrom api (setMoveStatus api object status) = .ok status.preparation :=
    movePreparationFrom_put h hpreparation (by simp [encodedMoveStatus])
  have hphase : cleanupPhaseFrom api (setMoveStatus api object status) = status.cleanupPhase :=
    (cleanupPhaseFrom_put h (by simp [encodedMoveStatus])).trans hcleanup.symm
  have htext (key : String) : orZero "" (api.nestedString (setMoveStatus api object status) ["status", key]) =
      textOf ((encodedMoveStatus api object status).get key) := readString_put h.string
  simp only [moveStatusFrom, hcandidates, heviction, happroved, hbytes, hgeneration, hsettlement, hsourceRead, hincomingRead,
    hdestinationRead, hpreparationRead, hphase, htext, hgenerationEq, hsettlementEq, require_of hrollback, Except.mapError, bind,
    Except.bind, pure, Except.pure, orZero_some, Option.getD_some]
  simp [encodedMoveStatus, textOf_string, textOf_whenSet]

/-! ### Volumes -/

theorem specFrom_put {value : Value} (h : api.Lawful) : specFrom api (object.put "status" value) = specFrom api object := by
  have hspec : (object.put "status" value).get "spec" = object.get "spec" := by simp
  unfold specFrom claimFrom initialPoolFrom
  rw [h.map.first ["creationClaim"] hspec, h.map.first ["initialPool"] hspec, h.string.first ["requestName"] hspec,
    h.string.first ["initialNode"] hspec, h.int64.first ["capacityBytes"] hspec]

theorem setStatusField_put {α : Type} {converter : Converter α} {value : Option α} (h : api.Lawful) :
    setStatusField api converter (object.put "status" (.map next)) key value =
      object.put "status" (.map (next.putSome key (converter.written value))) := by
  have hset {data : Map} : api.setNestedMap (object.put "status" (.map next)) data ["status", key] =
      .ok (object.put "status" (.map (next.put key (.map data)))) := by
    rw [h.set (by rw [Map.get_put, if_pos rfl]), Map.put_put]
  unfold setStatusField Converter.written
  cases value with
  | none => rfl
  | some value => cases hto : converter.toUnstructured value <;> simp [Map.putSome, hset, hto]

def storedVolumeStatus (api : StatusApi) (object : Map) (status : VolumeStatusFields) : Map :=
  ((encodedVolumeStatus object status).putSome "creationExecutor" (api.nodeExecutor.written status.creationExecutor)
    |>.putSome "creationReceipt" (api.creationReceipt.written status.creationReceipt)
    |>.putSome "currentCopy" (api.copyIdentity.written status.currentCopy))

theorem setVolumeStatus_eq {status : VolumeStatusFields} (h : api.Lawful) :
    setVolumeStatus api object status = object.put "status" (.map (storedVolumeStatus api object status)) := by
  simp only [setVolumeStatus, setStatusField_put h, Map.get_put, if_true, Map.put_put, storedVolumeStatus]

theorem volumeStatusFrom_put {status : VolumeStatusFields} (h : api.Lawful)
    (hcopy : ∀ copy, status.currentCopy = some copy → copy.valid) :
    volumeStatusFrom api (object.put "status" (.map (storedVolumeStatus api object status))) =
      .ok (status, (embeddedCleanup object).isSome) := by
  let next := storedVolumeStatus api object status
  have hpublished : api.nestedStringSlice (object.put "status" (.map next)) ["status", "publishedNodes"] =
      .ok (some status.publishedNodes) :=
    h.stringSlice.found_below (show _ = some (strings status.publishedNodes) by simp [next, storedVolumeStatus, encodedVolumeStatus])
      (asStrings_strings _)
  have hexecutor : decodeStatusField api api.nodeExecutor (object.put "status" (.map next)) "creationExecutor" =
      .ok status.creationExecutor :=
    decodeStatusField_put h h.executors
      (by simp [next, storedVolumeStatus, encodedVolumeStatus])
  have hreceipt : decodeStatusField api api.creationReceipt (object.put "status" (.map next)) "creationReceipt" =
      .ok status.creationReceipt :=
    decodeStatusField_put h h.receipts
      (by simp [next, storedVolumeStatus, encodedVolumeStatus])
  have hcurrent : copyFrom api ("decode current copy: " ++ ·) (object.put "status" (.map next)) "currentCopy" =
      .ok status.currentCopy :=
    copyFrom_put h hcopy (by simp [next, storedVolumeStatus, encodedVolumeStatus])
  have hcleanup : api.nestedFieldNoCopy (object.put "status" (.map next)) ["status", "cleanup"] = .ok (embeddedCleanup object) := by
    have hget : next.get "cleanup" = embeddedCleanup object := by
      simp [next, storedVolumeStatus, encodedVolumeStatus]
    cases hembedded : embeddedCleanup object with
    | none => exact h.field.missing_below (hget.trans hembedded)
    | some value => exact h.field.found_below (hget.trans hembedded) rfl
  have htext (key : String) :
      orZero "" (api.nestedString (object.put "status" (.map next)) ["status", key]) = textOf (next.get key) :=
    readString_put h.string
  show volumeStatusFrom api (object.put "status" (.map next)) = _
  simp only [volumeStatusFrom, hpublished, hexecutor, hreceipt, hcurrent, hcleanup, htext, Except.mapError, bind, Except.bind, pure,
    Except.pure, Option.getD_some]
  refine congrArg Except.ok (Prod.ext ?_ ?_)
  · simp [next, storedVolumeStatus, encodedVolumeStatus, textOf_string, textOf_whenSet]
  · cases hembedded : embeddedCleanup object with
    | none => rfl
    | some value =>
      cases value with
      | null => exact absurd hembedded embeddedCleanup_ne_null
      | bool _ => rfl
      | int _ => rfl
      | string _ => rfl
      | list _ => rfl
      | map _ => rfl

/-! ### Both -/

/-- A status that is written into any object is read back as it was, and the journal that stands in the object is not touched:
    neither a Move's fields nor a Volume's, nor its spec, change by being stored. -/
theorem status_codecs_lose_nothing (hlaws : api.Lawful) :
    (∀ (object : Map) (status : MoveStatusFields),
      (∀ copy, status.sourceCopy = some copy ∨ status.incomingCopy = some copy ∨ status.destinationCopy = some copy →
        copy.valid) →
      (∀ preparation, status.preparation = some preparation → validatePreparationFields preparation = .ok ()) →
      0 ≤ status.rollbackRequiredGeneration → status.cleanupPhase = cleanupPhaseFrom api object →
      moveStatusFrom api (setMoveStatus api object status) = .ok status ∧
        embeddedCleanup (setMoveStatus api object status) = embeddedCleanup object) ∧
    (∀ (object : VolumeResource) (state : StateFields), (∀ copy, state.status.currentCopy = some copy → copy.valid) →
      StatusCodec.stateFrom api (StatusCodec.setState api object state) =
        (specFrom api object.content).map (fun spec =>
          { uid := object.uid, finalizers := object.finalizers, deleting := object.deleting
            hasCleanup := (embeddedCleanup object.content).isSome, spec, status := state.status }) ∧
      embeddedCleanup (StatusCodec.setState api object state).content = embeddedCleanup object.content ∧
      (StatusCodec.setState api object state).content.get "spec" = object.content.get "spec") := by
  refine ⟨fun object status hcopies hpreparation hrollback hcleanup => ⟨?_, ?_⟩,
    fun object state hcopy => ⟨?_, ?_, ?_⟩⟩
  · exact moveStatusFrom_setMoveStatus hlaws (fun copy h => hcopies copy (.inl h)) (fun copy h => hcopies copy (.inr (.inl h)))
      (fun copy h => hcopies copy (.inr (.inr h))) hpreparation hrollback hcleanup
  · exact embeddedCleanup_put (by simp [encodedMoveStatus])
  · rw [StatusCodec.stateFrom, StatusCodec.setState, setVolumeStatus_eq hlaws, volumeStatusFrom_put hlaws hcopy, specFrom_put hlaws]
    cases specFrom api object.content <;> rfl
  · rw [StatusCodec.setState, setVolumeStatus_eq hlaws]
    exact embeddedCleanup_put (by simp [storedVolumeStatus, encodedVolumeStatus])
  · simp [StatusCodec.setState, setVolumeStatus_eq hlaws]

/-! ### A plain client library -/

def CopyRole.text : CopyRole → String
  | .serving => "Serving"
  | .incoming => "Incoming"
  | .retired => "Retired"
  | .unknown => ""

def CopyRole.ofText (text : String) : CopyRole :=
  if text = "Serving" then .serving else if text = "Incoming" then .incoming else if text = "Retired" then .retired else .unknown

def plainCopyIdentity : Converter CopyIdentity where
  toUnstructured copy := return [("installationID", .string copy.installationID), ("poolName", .string copy.poolName),
    ("poolUID", .string copy.poolUID), ("volumeID", .string copy.volumeID), ("volumeUID", .string copy.volumeUID),
    ("copyID", .string copy.copyID), ("nodeName", .string copy.nodeName), ("role", .string copy.role.text)]
  fromUnstructured data := return {
    installationID := ← stringField data "installationID", poolName := ← stringField data "poolName"
    poolUID := ← stringField data "poolUID", volumeID := ← stringField data "volumeID"
    volumeUID := ← stringField data "volumeUID", copyID := ← stringField data "copyID"
    nodeName := ← stringField data "nodeName", role := .ofText (← stringField data "role") }

def plainNodeExecutor : Converter NodeExecutor where
  toUnstructured executor := return [("namespace", .string executor.namespaceName), ("podName", .string executor.podName),
    ("podUID", .string executor.podUID), ("nodeName", .string executor.nodeName)]
  fromUnstructured data := return {
    namespaceName := ← stringField data "namespace", podName := ← stringField data "podName"
    podUID := ← stringField data "podUID", nodeName := ← stringField data "nodeName" }

def plainCreationReceipt : Converter ReceiptFields where
  toUnstructured receipt := return [("operationID", .string receipt.operationID), ("executorUID", .string receipt.executorUID),
    ("observedAt", .string receipt.observedAt), ("localReceiptDigest", .string receipt.localReceiptDigest)]
  fromUnstructured data := return {
    operationID := ← stringField data "operationID", executorUID := ← stringField data "executorUID"
    observedAt := ← stringField data "observedAt", localReceiptDigest := ← stringField data "localReceiptDigest" }

def plainMovePreparation (data : Map) : Except String MovePreparation := do
  let pool ← field Value.asMap [] data "pool"
  return {
    pool := { name := ← stringField pool "name", uid := ← stringField pool "uid" }
    nodeName := ← stringField data "nodeName", reservedBytes := ← field Value.asInt 0 data "reservedBytes" }

def plainStatusApi : StatusApi where
  toAccessors := plain
  copyIdentity := plainCopyIdentity
  nodeExecutor := plainNodeExecutor
  creationReceipt := plainCreationReceipt
  movePreparation := plainMovePreparation
  claimReference data := return {
    namespaceName := ← stringField data "namespace", name := ← stringField data "name", uid := ← stringField data "uid" }
  isDNS1123Label _ := true
  isDNS1123Subdomain _ := true

theorem ofText_text {role : CopyRole} (h : role ≠ .unknown) : CopyRole.ofText role.text = role := by
  cases role with
  | unknown => exact absurd rfl h
  | serving => decide
  | incoming => decide
  | retired => decide

theorem plainStatusApi_lawful : plainStatusApi.Lawful where
  toLawful := plain_lawful
  copies copy h := by
    have hrole : copy.role ≠ .unknown := by
      simp only [CopyIdentity.valid, Bool.and_eq_true, decide_eq_true_eq] at h
      exact h.2
    refine ⟨_, rfl, ?_⟩
    simp [plainStatusApi, plainCopyIdentity, stringField, field, Value.asString, ofText_text hrole, bind, Except.bind,
      pure, Except.pure]
  executors executor := ⟨_, rfl, by
    simp [plainStatusApi, plainNodeExecutor, stringField, field, Value.asString, bind, Except.bind, pure, Except.pure]⟩
  receipts receipt := ⟨_, rfl, by
    simp [plainStatusApi, plainCreationReceipt, stringField, field, Value.asString, bind, Except.bind, pure, Except.pure]⟩
  preparations preparation := by
    simp [plainStatusApi, plainMovePreparation, MovePreparation.encoded, stringField, field, Value.asString,
      Value.asInt, Value.asMap, bind, Except.bind, pure, Except.pure]

def storedMove : Map :=
  [("spec", .map [("volumeID", .string "shiftpv-0123456789abcdef0123456789abcdef")]),
   ("status", .map [("phase", .string "OwnerCommitted"), ("cleanup", .map [("status", .map [("phase", .string "Purging")])])])]

def storedCopy : CopyIdentity :=
  { installationID := "i", poolName := "pool-a", poolUID := "u-a", volumeID := "shiftpv-0123456789abcdef0123456789abcdef"
    volumeUID := "v", copyID := "c-1", nodeName := "node-a", role := .serving }

def storedStatus : MoveStatusFields :=
  { (default : MoveStatusFields) with
    preparation := some { pool := { name := "pool-b", uid := "u-b" }, nodeName := "node-b", reservedBytes := 5 }
    persistentVolumeUID := "pv-uid", phase := "CleaningSource", destinationNode := "node-b", sourceBytes := 3
    capacityApproved := true, candidateNodes := ["node-b"], cleanupPhase := "Purging", copyOperationID := "op-1"
    sourceCopy := some storedCopy
    incomingCopy := some
      { storedCopy with poolName := "pool-b", poolUID := "u-b", copyID := "c-2", nodeName := "node-b", role := .incoming }
    destinationCopy := some { storedCopy with poolName := "pool-b", poolUID := "u-b", copyID := "c-3", nodeName := "node-b" } }

def storedVolume : VolumeResource :=
  { uid := "v", finalizers := [], deleting := false, content := storedMove }

def storedState : StateFields :=
  { uid := "v", finalizers := [], deleting := false, hasCleanup := true
    spec := { requestName := "", capacityBytes := 0, initialNode := "", initialPool := none, creationClaim := none }
    status := { phase := "Ready", ownerNode := "node-a", activeMove := "move-1", publishedNodes := [], creationOperationID := "op-0"
                deletionOperationID := "", currentCopy := some storedCopy
                creationExecutor := some { namespaceName := "shiftpv", podName := "node-x", podUID := "p-1", nodeName := "node-a" }
                creationReceipt := none } }

theorem status_codecs_lose_nothing_stored :
    moveStatusFrom plainStatusApi (setMoveStatus plainStatusApi storedMove storedStatus) = .ok storedStatus ∧
      StatusCodec.stateFrom plainStatusApi (StatusCodec.setState plainStatusApi storedVolume storedState) = .ok storedState := by
  obtain ⟨hmove, hvolume⟩ := status_codecs_lose_nothing plainStatusApi_lawful
  constructor
  · refine (hmove storedMove storedStatus ?_ ?_ (by decide) (by decide)).1
    · rintro copy (h | h | h)
      all_goals
        cases h
        decide +kernel
    · rintro preparation h
      cases h
      decide +kernel
  · have hcopy : ∀ copy, storedState.status.currentCopy = some copy → copy.valid := by
      rintro copy h
      cases h
      decide +kernel
    rw [(hvolume storedVolume storedState hcopy).1]
    rfl

end ShiftPV

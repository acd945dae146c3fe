import ShiftPV.Lib.Run
import ShiftPV.Observe
import ShiftPV.Theorems.Coherence

/-! The history of a cleanup journal. The transition rules look at one write at a time; over all accepted writes
    of a parent they make the receipt and the absence fence write-once, the receipt before the fence. -/

namespace ShiftPV
open Check

/-! ### Writes -/

abbrev JournalRun : List CleanupParent → Prop :=
  Run (fun parent => parent.cleanup = none) (Run.onHead fun parent (write : JournalWrite) next => parent.write write = .ok next)

variable {parent next : CleanupParent} {write : JournalWrite} {i j k : Journal}

theorem CleanupParent.ensure_opened {spec : CleanupSpec} (h : parent.ensure spec = .ok k) (hnone : parent.cleanup = none) :
    k.status = { phase := .pending, executor := none, receipt := none, absenceProof := none, settledAt := .absent } := by
  rw [CleanupParent.ensure, seq_ok, seq_ok, bind_ok] at h
  obtain ⟨-, -, slot, hslot, h⟩ := h
  rw [CleanupParent.journal_inv hslot, hnone] at h
  obtain rfl := pure_ok.mp h
  rfl

/-- An accepted write leaves the slot alone or steps its journal, and never changes the parent's identity. -/
theorem CleanupParent.write_inv (h : parent.write write = .ok next) :
    next.authority = parent.authority ∧
      (next.cleanup = parent.cleanup ∨
        ∃ k, next.cleanup = some k ∧ JournalStep parent.cleanup k ∧
          (parent.cleanup = none → k.spec.authority = parent.authority ∧ k.status.receipt = none)) := by
  cases write with
  | ensure spec =>
    obtain ⟨k, hk, h⟩ := bind_ok.mp h
    obtain rfl := pure_ok.mp h
    obtain ⟨hstep, hspec, hauthority⟩ := CleanupParent.ensure_inv hk
    refine ⟨rfl, Or.inr ⟨k, rfl, hstep, fun hnone => ⟨hspec ▸ hauthority, ?_⟩⟩⟩
    rw [CleanupParent.ensure_opened hk hnone]
  | updateStatus expected status =>
    obtain ⟨k, hk, h⟩ := bind_ok.mp h
    obtain rfl := pure_ok.mp h
    obtain ⟨hstep, i, hi⟩ := CleanupParent.updateStatus_inv hk
    exact ⟨rfl, Or.inr ⟨k, rfl, hstep, fun hnone => by simp [hnone] at hi⟩⟩
  | protect isProtected =>
    obtain rfl := pure_ok.mp h
    exact ⟨rfl, Or.inl rfl⟩

/-! ### One transition -/

/-- The executors run by one backend on one node; only the Pod differs. -/
structure CleanupExecutor.SameBackend (current next : CleanupExecutor) : Prop where
  kind : next.kind = current.kind
  namespaceName : next.namespaceName = current.namespaceName
  jobName : next.jobName = current.jobName
  jobUID : next.jobUID = current.jobUID
  nodeName : next.nodeName = current.nodeName

structure CleanupTransition (j k : Journal) : Prop where
  edge : k.status.phase ∈ allowedCleanupEdges j.phase
  executor : ∀ e, j.status.executor = some e → ∃ e', k.status.executor = some e' ∧ (e' = e ∨ e.SameBackend e' ∧
    j.phase = .running ∧ k.status.phase = .running ∧ j.status.receipt = none ∧ k.status.receipt = none)
  receipt : ∀ r, j.status.receipt = some r → k.status.receipt = some r
  bound : k.status.receipt.isSome → k.status.executor.isSome
  verifying : k.status.phase = .verifying → validPurgedReceipt j.spec k.status ∧ k.status.absenceProof = none
  fence : ∀ a, j.status.absenceProof = some a → ∃ b, k.status.absenceProof = some b ∧ sameAbsenceFence a b ∧
    (a.confirmedAt ≠ .absent → b = a)
  confirming : k.status.phase = .confirmingAbsence ∨ k.status.phase = .completed →
    validPurgedReceipt j.spec k.status ∧ validAbsenceFence j.spec.target k.status.absenceProof
  completed : k.status.phase = .completed → confirmedAbsence k.status.absenceProof ∧ k.status.settledAt.parses

theorem executorTransitionAllowed_inv {phase nextPhase : CleanupPhase} {e : CleanupExecutor} {n : Option CleanupExecutor}
    {r nr : Option PurgeReceipt} (h : executorTransitionAllowed phase nextPhase e n r nr) :
    ∃ e', n = some e' ∧
      (e' = e ∨ e.SameBackend e' ∧ phase = .running ∧ nextPhase = .running ∧ r = none ∧ nr = none) := by
  simp only [executorTransitionAllowed, Bool.or_eq_true, Bool.and_eq_true, decide_eq_true_eq, Option.any_eq_true] at h
  rcases h with hsame | ⟨⟨⟨⟨hphase, hnext⟩, hr⟩, hnr⟩, e', hsome, ⟨⟨⟨⟨⟨-, -⟩, hkind⟩, hnamespace⟩, hjob⟩, huid⟩, hnode⟩
  · exact ⟨e, hsame, Or.inl rfl⟩
  · exact ⟨e', hsome, Or.inr ⟨⟨hkind.symm, hnamespace.symm, hjob.symm, huid.symm, hnode.symm⟩, hphase, hnext, hr, hnr⟩⟩

theorem validateCleanupTransition_inv (h : validateCleanupTransition j k.status = .ok ()) : CleanupTransition j k := by
  simp only [validateCleanupTransition, seq_ok, require_ok] at h
  obtain ⟨hedge, hexec, -, hreceipt, hbound, -, hverify, hfence, hconfirmed, hconfirm, hcompleted, hsettled⟩ := h
  refine ⟨hedge, fun e he => ?_, fun r hr => ?_, fun hr => ?_, hverify, fun a ha => ?_, hconfirm, fun hc => ?_⟩
  · rw [he, Option.all_some] at hexec
    exact executorTransitionAllowed_inv hexec
  · rw [← hreceipt (by simp [hr]), hr]
  · obtain ⟨r, hr⟩ := Option.isSome_iff_exists.mp hr
    rw [hr, Option.all_some, Option.any_eq_true] at hbound
    obtain ⟨e, he, -⟩ := hbound
    simp [he]
  · rw [ha, Option.all_some, Option.any_eq_true] at hfence
    obtain ⟨b, hb, hsame⟩ := hfence
    refine ⟨b, hb, hsame, fun hset => ?_⟩
    have hfixed := hconfirmed (by simpa [ha] using hset)
    rw [ha, hb] at hfixed
    exact (Option.some.inj hfixed).symm
  · exact ⟨(hcompleted hc).1, hsettled hc⟩

/-! ### What a journal keeps -/

structure JournalKept (j k : Journal) : Prop where
  spec : k.spec = j.spec
  receipt : ∀ r, j.status.receipt = some r → k.status.receipt = some r ∧ k.status.executor = j.status.executor
  executor : ∀ e, j.status.executor = some e → ∃ e', k.status.executor = some e' ∧ e.SameBackend e'
  fence : ∀ a, j.status.absenceProof = some a → ∃ b, k.status.absenceProof = some b ∧ sameAbsenceFence a b ∧
    (a.confirmedAt ≠ .absent → b = a)
  terminal : j.status.phase = .completed ∨ j.status.phase = .needsReview → k.status.phase = j.status.phase

theorem CleanupExecutor.SameBackend.refl (e : CleanupExecutor) : e.SameBackend e := ⟨rfl, rfl, rfl, rfl, rfl⟩

theorem CleanupExecutor.SameBackend.trans {a b c : CleanupExecutor} (h : a.SameBackend b) (h' : b.SameBackend c) :
    a.SameBackend c :=
  ⟨h'.kind.trans h.kind, h'.namespaceName.trans h.namespaceName, h'.jobName.trans h.jobName,
    h'.jobUID.trans h.jobUID, h'.nodeName.trans h.nodeName⟩

theorem sameAbsenceFence_refl (a : AbsenceProof) : sameAbsenceFence a a := by simp [sameAbsenceFence]

theorem sameAbsenceFence_trans {a b c : AbsenceProof} (h : sameAbsenceFence a b) (h' : sameAbsenceFence b c) :
    sameAbsenceFence a c := by
  simp only [sameAbsenceFence, Bool.and_eq_true, decide_eq_true_eq] at *
  exact ⟨⟨⟨h.1.1.1.trans h'.1.1.1, h.1.1.2.trans h'.1.1.2⟩, h.1.2.trans h'.1.2⟩, h.2.trans h'.2⟩

theorem JournalKept.refl (j : Journal) : JournalKept j j where
  spec := rfl
  receipt _ hr := ⟨hr, rfl⟩
  executor e he := ⟨e, he, .refl e⟩
  fence a ha := ⟨a, ha, sameAbsenceFence_refl a, fun _ => rfl⟩
  terminal _ := rfl

theorem JournalKept.trans (h : JournalKept i j) (h' : JournalKept j k) : JournalKept i k where
  spec := h'.spec.trans h.spec
  receipt r hr := by
    obtain ⟨hj, he⟩ := h.receipt r hr
    obtain ⟨hk, he'⟩ := h'.receipt r hj
    exact ⟨hk, he'.trans he⟩
  executor e he := by
    obtain ⟨e', he', hsame⟩ := h.executor e he
    obtain ⟨e'', he'', hsame'⟩ := h'.executor e' he'
    exact ⟨e'', he'', hsame.trans hsame'⟩
  fence a ha := by
    obtain ⟨b, hb, hsame, hfixed⟩ := h.fence a ha
    obtain ⟨c, hc, hsame', hfixed'⟩ := h'.fence b hb
    refine ⟨c, hc, sameAbsenceFence_trans hsame hsame', fun hset => ?_⟩
    obtain rfl := hfixed hset
    exact hfixed' hset
  terminal hp := by
    have hj := h.terminal hp
    exact (h'.terminal (hj ▸ hp)).trans hj

structure JournalSound (authority : Authority) (j : Journal) : Prop where
  valid : j.spec.validate = .ok ()
  authority : j.spec.authority = authority
  recorded : j.status.phase ≠ .unset
  bound : j.status.receipt.isSome → j.status.executor.isSome
  verifying : j.status.phase = .verifying → validPurgedReceipt j.spec j.status ∧ j.status.absenceProof = none
  confirming : j.status.phase = .confirmingAbsence ∨ j.status.phase = .completed →
    validPurgedReceipt j.spec j.status ∧ validAbsenceFence j.spec.target j.status.absenceProof
  completed : j.status.phase = .completed → confirmedAbsence j.status.absenceProof ∧ j.status.settledAt.parses

variable {authority : Authority}

theorem JournalSound.phase (hj : JournalSound authority j) : j.phase = j.status.phase := by
  simp [Journal.phase, hj.recorded]

theorem JournalSound.opened (hvalid : k.spec.validate = .ok ()) (hauthority : k.spec.authority = authority)
    (hpending : k.status.phase = .pending) (hreceipt : k.status.receipt = none) : JournalSound authority k where
  valid := hvalid
  authority := hauthority
  recorded := by simp [hpending]
  bound := by simp [hreceipt]
  verifying := by simp [hpending]
  confirming := by simp [hpending]
  completed := by simp [hpending]

theorem CleanupTransition.sound (h : CleanupTransition j k) (hj : JournalSound authority j)
    (hspec : k.spec = j.spec) : JournalSound authority k where
  valid := hspec ▸ hj.valid
  authority := hspec ▸ hj.authority
  recorded := by
    intro hunset
    have hedge := h.edge
    rw [hunset] at hedge
    unfold allowedCleanupEdges at hedge
    split at hedge <;> simp at hedge
  bound := h.bound
  verifying := hspec ▸ h.verifying
  confirming := hspec ▸ h.confirming
  completed := h.completed

/-- The write keeps the journal of its parent sound, whichever it is. -/
theorem CleanupParent.write_sound (h : parent.write write = .ok next) (hk : next.cleanup = some k)
    (hbefore : ∀ j, parent.cleanup = some j → JournalSound parent.authority j) : JournalSound parent.authority k := by
  obtain ⟨-, hslot | ⟨k', hk', hstep, hopened⟩⟩ := CleanupParent.write_inv h
  · exact hbefore k (hslot ▸ hk)
  · obtain rfl : k' = k := Option.some.inj (hk'.symm.trans hk)
    cases hstep with
    | opened hnone hpending hvalid =>
      obtain ⟨hauthority, hreceipt⟩ := hopened hnone
      exact .opened hvalid hauthority hpending hreceipt
    | kept hsame => exact hbefore _ hsame
    | advanced j hj hspec htrans => exact (validateCleanupTransition_inv htrans).sound (hbefore j hj) hspec

theorem CleanupTransition.kept (h : CleanupTransition j k) (hj : JournalSound authority j)
    (hspec : k.spec = j.spec) : JournalKept j k where
  spec := hspec
  receipt r hr := by
    refine ⟨h.receipt r hr, ?_⟩
    -- a receipt names an executor, and a rebinding needs that there is none
    obtain ⟨e, he⟩ := Option.isSome_iff_exists.mp (hj.bound (by simp [hr]))
    obtain ⟨e', he', rfl | ⟨-, -, -, hnone, -⟩⟩ := h.executor e he
    · rw [he, he']
    · simp [hr] at hnone
  executor e he := by
    obtain ⟨e', he', rfl | ⟨hsame, -⟩⟩ := h.executor e he
    · exact ⟨e', he', .refl e'⟩
    · exact ⟨e', he', hsame⟩
  fence := h.fence
  terminal hp := by
    have hedge := h.edge
    rw [hj.phase] at hedge
    rcases hp with hp | hp <;> simpa [hp, allowedCleanupEdges] using hedge

/-! ### Histories -/

/-- The receipt of a journal that confirms its absence was stored before its fence. -/
def ReceiptFirst (past : List CleanupParent) (k : Journal) : Prop :=
  k.status.phase = .confirmingAbsence ∨ k.status.phase = .completed →
    ∃ u ∈ past, ∃ i, u.cleanup = some i ∧ i.status.receipt.isSome ∧ i.status.receipt = k.status.receipt ∧
      i.status.absenceProof = none

variable {past : List CleanupParent}

theorem ReceiptFirst.older (h : ReceiptFirst past k) : ReceiptFirst (parent :: past) k := by
  intro hphase
  obtain ⟨u, hu, rest⟩ := h hphase
  exact ⟨u, List.mem_cons_of_mem _ hu, rest⟩

theorem validPurgedReceipt_isSome {spec : CleanupSpec} {status : CleanupStatus} (h : validPurgedReceipt spec status) :
    status.receipt.isSome := by
  unfold validPurgedReceipt at h
  split at h
  · rename_i hr
    simp [hr]
  · simp at h

theorem CleanupTransition.receiptFirst (h : CleanupTransition j k)
    (hj : JournalSound authority j) (hslot : parent.cleanup = some j) (hfirst : ReceiptFirst past j) :
    ReceiptFirst (parent :: past) k := by
  intro hphase
  have hedge := h.edge
  rw [hj.phase] at hedge
  have hfrom : j.status.phase = .verifying ∨ j.status.phase = .confirmingAbsence ∨ j.status.phase = .completed := by
    cases hp : j.status.phase <;> rcases hphase with hk | hk <;> simp [hp, hk, allowedCleanupEdges] at hedge ⊢
  rcases hfrom with hverifying | hlater
  · obtain ⟨hpurged, hnone⟩ := hj.verifying hverifying
    obtain ⟨r, hr⟩ := Option.isSome_iff_exists.mp (validPurgedReceipt_isSome hpurged)
    exact ⟨parent, by simp, j, hslot, by simp [hr], by rw [hr, h.receipt r hr], hnone⟩
  · obtain ⟨u, hu, i, hi, hsome, hsame, hnone⟩ := hfirst hlater
    obtain ⟨r, hr⟩ := Option.isSome_iff_exists.mp (hsame ▸ hsome)
    exact ⟨u, List.mem_cons_of_mem _ hu, i, hi, hsome, by rw [hsame, hr, h.receipt r hr], hnone⟩

theorem JournalRun.sound (hr : JournalRun (parent :: past)) (hj : parent.cleanup = some j) :
    JournalSound parent.authority j ∧ ReceiptFirst past j := by
  suffices h : ∀ l, JournalRun l → ∀ p past j, l = p :: past → p.cleanup = some j →
      JournalSound p.authority j ∧ ReceiptFirst past j from h _ hr _ _ _ rfl hj
  intro l hl
  induction hl with
  | start h0 =>
    rintro p past j ⟨⟩ hj
    simp [h0] at hj
  | @next s t past write hr hs ih =>
    rintro p past k ⟨⟩ hk
    obtain ⟨hauthority, hslot | ⟨k', hk', hstep, hopened⟩⟩ := CleanupParent.write_inv (Run.onHead_cons.mp hs)
    · obtain ⟨hsound, hfirst⟩ := ih _ _ _ rfl (hslot ▸ hk)
      exact ⟨hauthority ▸ hsound, hfirst.older⟩
    · obtain rfl : k' = k := Option.some.inj (hk'.symm.trans hk)
      cases hstep with
      | opened hnone hpending hvalid =>
        obtain ⟨hbound, hreceipt⟩ := hopened hnone
        exact ⟨.opened hvalid (hbound.trans hauthority.symm) hpending hreceipt, by simp [ReceiptFirst, hpending]⟩
      | kept hsame =>
        obtain ⟨hsound, hfirst⟩ := ih _ _ _ rfl hsame
        exact ⟨hauthority ▸ hsound, hfirst.older⟩
      | advanced j hj hspec htrans =>
        obtain ⟨hsound, hfirst⟩ := ih _ _ _ rfl hj
        have htrans' := validateCleanupTransition_inv htrans
        exact ⟨hauthority ▸ htrans'.sound hsound hspec, htrans'.receiptFirst hsound hj hfirst⟩

/-- One write keeps the journal, and rebinds at most its Pod, in `Running` and without a receipt. -/
theorem JournalRun.step (hr : JournalRun (parent :: past)) (hj : parent.cleanup = some j)
    (h : parent.write write = .ok next) :
    ∃ k, next.cleanup = some k ∧ JournalKept j k ∧
      (∀ e, j.status.executor = some e → k.status.executor ≠ some e →
        j.status.phase = .running ∧ k.status.phase = .running ∧ j.status.receipt = none ∧ k.status.receipt = none) := by
  obtain ⟨hsound, -⟩ := JournalRun.sound hr hj
  have unchanged : next.cleanup = some j → ∃ k, next.cleanup = some k ∧ JournalKept j k ∧
      (∀ e, j.status.executor = some e → k.status.executor ≠ some e →
        j.status.phase = .running ∧ k.status.phase = .running ∧ j.status.receipt = none ∧ k.status.receipt = none) :=
    fun hsame => ⟨j, hsame, .refl j, fun e he hne => absurd he hne⟩
  obtain ⟨-, hslot | ⟨k, hk, hstep, -⟩⟩ := CleanupParent.write_inv h
  · exact unchanged (hslot.trans hj)
  · cases hstep with
    | opened hnone => simp [hnone] at hj
    | kept hsame => exact unchanged (by rw [hk, ← hsame, hj])
    | advanced i hi hspec htrans =>
      obtain rfl : i = j := Option.some.inj (hi.symm.trans hj)
      have htrans' := validateCleanupTransition_inv htrans
      refine ⟨k, hk, htrans'.kept hsound hspec, fun e he hne => ?_⟩
      obtain ⟨e', he', rfl | ⟨-, hrunning, rest⟩⟩ := htrans'.executor e he
      · exact absurd he' hne
      · exact ⟨hsound.phase ▸ hrunning, rest⟩

/-- A journal's history: what it ever recorded stays, only the Pod of a running executor is rebound, and a completed
    journal is settled, with a receipt that was stored before its fence. -/
theorem journal_history {later : List CleanupParent} (hr : JournalRun (later ++ parent :: past))
    (hj : parent.cleanup = some j) :
    (∀ t ∈ later, ∃ k, t.cleanup = some k ∧ JournalKept j k) ∧
      (∀ t k e, later.getLast? = some t → t.cleanup = some k → j.status.executor = some e → k.status.executor ≠ some e →
        j.status.phase = .running ∧ k.status.phase = .running ∧ j.status.receipt = none ∧ k.status.receipt = none) ∧
      (j.status.phase = .completed →
        j.spec.authority = parent.authority ∧ j.validateSettled = .ok () ∧ j.status.absenceProof.isSome ∧
          ∃ u ∈ past, ∃ i, u.cleanup = some i ∧ i.status.receipt.isSome ∧ i.status.receipt = j.status.receipt ∧
            i.status.absenceProof = none) := by
  have hrun : JournalRun (parent :: past) := Run.suffix hr
  obtain ⟨hsound, hfirst⟩ := JournalRun.sound hrun hj
  refine ⟨fun t ht => ?_, fun t k e hlast hk he hne => ?_, fun hcompleted => ?_⟩
  · have hkept := Run.since (Q := fun t : CleanupParent => ∃ k, t.cleanup = some k ∧ JournalKept j k)
      ⟨j, hj, .refl j⟩ ?_ hr
    · exact hkept t (by simp [ht])
    · rintro x t rest op hrx ⟨i, hi, hik⟩ hs
      obtain ⟨k, hk, hkept, -⟩ := JournalRun.step hrx hi (Run.onHead_cons.mp hs)
      exact ⟨k, hk, hik.trans hkept⟩
  · -- the write after `parent` ends the run up to it
    obtain ⟨init, rfl⟩ : ∃ init, later = init ++ [t] := by
      obtain ⟨init, hinit⟩ := List.getLast?_eq_some_iff.mp hlast
      exact ⟨init, hinit⟩
    have hnext : JournalRun (t :: parent :: past) := Run.suffix (by simpa using hr)
    cases hnext with
    | next hr hs =>
      obtain ⟨k', hk', -, hrebound⟩ := JournalRun.step hr hj (Run.onHead_cons.mp hs)
      obtain rfl : k' = k := Option.some.inj (hk'.symm.trans hk)
      exact hrebound e he hne
  · obtain ⟨hpurged, hfenced⟩ := hsound.confirming (Or.inr hcompleted)
    obtain ⟨hconfirmed, hsettled⟩ := hsound.completed hcompleted
    refine ⟨hsound.authority, ?_, ?_, hfirst (Or.inr hcompleted)⟩
    · simp only [Journal.validateSettled, seq_ok, require_ok]
      exact ⟨hsound.valid, hcompleted, hpurged, hfenced, hconfirmed, hsettled⟩
    · cases hproof : j.status.absenceProof with
      | none => simp [hproof, validAbsenceFence] at hfenced
      | some proof => rfl

/-! A journal from its intent to its settlement. -/

def sampleCleanup : CleanupSpec where
  operationID := moveCleanupOperationID "move-1"
  target := sampleCopy
  reason := .moveSource
  authority := { kind := .shiftPVMove, name := "move", uid := "move-1" }

def samplePurge : CleanupStatus where
  phase := .completed
  executor := some { kind := .node, namespaceName := "shiftpv", podName := "node-a-pod", jobName := "", jobUID := ""
                     podUID := "node-a-pod-uid", nodeName := "node-a" }
  receipt := some { operationID := sampleCleanup.operationID, executorUID := "node-a-pod-uid", observedAt := .at 0
                    retired := true, purged := true
                    localReceiptDigest := "0123456789abcdef0123456789abcdef0123456789abcdef0123456789abcdef" }
  absenceProof := some { requestID := "request", poolName := "pool-a", poolUID := "pool-a-uid", requiredGeneration := 1
                         observedGeneration := 1, valid := true, complete := true, absent := true, confirmedAt := .at 0 }
  settledAt := .at 0

def purgeStatuses : List CleanupStatus :=
  [{ samplePurge with phase := .running, receipt := none, absenceProof := none, settledAt := .absent },
   { samplePurge with phase := .verifying, absenceProof := none, settledAt := .absent },
   { samplePurge with phase := .confirmingAbsence, settledAt := .absent },
   samplePurge]

def settledJournal : List CleanupParent :=
  Run.replay CleanupParent.write
    { authority := sampleCleanup.authority, isProtected := true, cleanup := none } []
    (.ensure sampleCleanup :: purgeStatuses.map (.updateStatus sampleCleanup))

theorem journal_history_settled :
    ∃ parent past j, settledJournal = parent :: past ∧ parent.cleanup = some j ∧ j.status.phase = .completed ∧
      j.validateSettled = .ok () ∧ ∃ u ∈ past, ∃ i, u.cleanup = some i ∧ i.status.receipt = j.status.receipt ∧
        i.status.absenceProof = none := by
  have hdone : (settledJournal.head?.bind (·.cleanup)).map (·.status.phase) = some .completed := by decide +kernel
  cases hl : settledJournal with
  | nil => simp [hl] at hdone
  | cons parent past =>
    obtain ⟨j, hj, hphase⟩ : ∃ j, parent.cleanup = some j ∧ j.status.phase = .completed := by simpa [hl] using hdone
    have hr : JournalRun ([] ++ parent :: past) := Run.replay_run (.start rfl) hl
    obtain ⟨-, -, hcompleted⟩ := journal_history hr hj
    obtain ⟨-, hsettled, -, u, hu, i, hi, -, hsame, hnone⟩ := hcompleted hphase
    exact ⟨parent, past, j, rfl, hj, hphase, hsettled, u, hu, i, hi, hsame, hnone⟩

end ShiftPV

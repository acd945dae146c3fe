import ShiftPV.RollbackScan
import ShiftPV.Theorems.HoldProtocol
import ShiftPV.Theorems.ScanComplete

/-! The two deciders about absent copies agree: a rollback that reaches an answer has met its copies exactly where the
    inventory shows them. -/

namespace ShiftPV
open Check

variable {Api : Type} {D : Nat → Host Api} {ks : List Nat} {s : Scanner} {pool : Pool} {inventory : PoolInventory}
  {installationID : String} {move : Move} {source incoming copy target : CopyIdentity} {copies copies' : List CopyObservation}

/-! ### Entries of a scan -/

theorem scan_clean (hscan : (s.scan pool).along D ks = some (.ok inventory)) (hvalid : inventory.valid)
    (hfull : inventory.truncated = false) (hinstallation : s.installation = some (.ok installationID)) :
    ∀ entry ∈ inventory.copies, entry.problem = "" ∧ ∃ identity, entry.Clean installationID pool identity := by
  obtain ⟨publications, found, hfound, hfiles⟩ := scan_along hscan hvalid
  obtain rfl : found = installationID := by simpa [hinstallation, eq_comm] using hfound
  obtain ⟨-, -, -, r, -, -, hsound, hcopies, hclean, -⟩ := scanFiles_along hfiles hvalid hfull
  intro entry hentry
  rw [hcopies] at hentry
  exact ⟨hclean entry hentry, hsound.clean entry hentry (hclean entry hentry)⟩

def CopyObservation.shows (target : CopyIdentity) (entry : CopyObservation) : Bool :=
  entry.isPresent && entry.identity = some target

theorem inventoryProvesAbsence_iff
    (hclean : ∀ entry ∈ inventory.copies, entry.problem = "" ∧ ∃ identity, entry.Clean installationID pool identity)
    (htarget : target.installationID = installationID) :
    inventoryProvesAbsence inventory pool.name pool.uid pool.nodeName target ↔ ¬inventory.copies.any (·.shows target) := by
  simp only [inventoryProvesAbsence, List.all_eq_true, List.any_eq_true, not_exists, not_and]
  refine forall₂_congr fun entry hentry => ?_
  obtain ⟨hproblem, identity, hentry⟩ := hclean entry hentry
  have hmarker : entry.marker = "placement-" ++ identity.copyID ++ ".json" := hentry.marker
  have hnamed : entry.marker ≠ "" := by
    intro hempty
    simpa using congrArg String.length (hmarker.symm.trans hempty)
  have hpublished : (entry.published && !entry.isPresent) = false := by
    cases h : entry.published <;> simp [h, hentry.published]
  simp only [hproblem, hentry.identified, hentry.valid, hentry.installationID, htarget, hentry.poolName, hentry.poolUID,
    hentry.nodeName, ← hmarker, hpublished, hnamed, Option.any_some, CopyObservation.shows, ne_eq, decide_true, Bool.true_and,
    not_false_eq_true, Bool.not_false, Option.some.injEq]
  by_cases hsame : identity = target
  · cases hpresent : entry.isPresent <;> cases h : entry.published <;> simp_all
  · simp [hsame]

/-! ### Entries in a rollback -/

/-- An entry that a rollback passes: it is in no doubt, and it shows neither a published copy of the transaction nor another
    artifact of the volume. -/
def CopyObservation.Passes (move : Move) (destination : Pool) (source incoming copy : CopyIdentity) (entry : CopyObservation) :
    Prop :=
  entry.problem = "" ∧ (entry.isPresent → ∃ identity, entry.identity = some identity ∧
    (identity.valid ∧ identity.poolName = destination.name ∧ identity.poolUID = destination.uid ∧
      identity.nodeName = destination.nodeName) ∧
    if identity = incoming ∨ identity = copy then entry.published = false
    else conflictingArtifact move source incoming identity = false)

theorem rollbackObserved_ok {destination : Pool} {seen seen' : Bool × Bool} (hne : incoming ≠ copy) :
    rollbackObserved move destination source incoming copy copies seen = .ok seen' ↔
      (∀ entry ∈ copies, entry.Passes move destination source incoming copy) ∧
        seen' = (seen.1 || copies.any (·.shows incoming), seen.2 || copies.any (·.shows copy)) := by
  induction copies generalizing seen with
  | nil => simp [rollbackObserved, pure_ok, @eq_comm _ seen']
  | cons entry rest ih =>
    obtain ⟨incomingPresent, destinationPresent⟩ := seen
    have hshows : ∀ target, entry.shows target = (entry.isPresent && decide (entry.identity = some target)) := fun _ => rfl
    rw [rollbackObserved, seq_ok, require_ok, List.forall_mem_cons, CopyObservation.Passes]
    simp only [List.any_cons, hshows, and_assoc]
    refine and_congr_right fun _ => ?_
    cases hpresent : entry.isPresent with
    | false => simp [ih]
    | true =>
      cases hidentity : entry.identity with
      | none => simp [throw_ok]
      | some identity =>
        simp only [not_true_eq_false, if_false, seq_ok, require_ok, forall_const, Option.some.injEq, exists_eq_left', and_assoc]
        refine and_congr_right fun _ => and_congr_right fun _ => and_congr_right fun _ => and_congr_right fun _ => ?_
        by_cases hincoming : identity = incoming
        · subst hincoming
          simp [ih, require_ok, hne]
        · by_cases hcopy : identity = copy
          · subst hcopy
            simp [ih, require_ok, hincoming]
          · simp [ih, require_ok, hincoming, hcopy]

theorem rollbackPresentArtifact_ok {result : Option CopyIdentity} (hsource : move.status.sourceCopy = some source)
    (hincoming : move.status.incomingCopy = some incoming) (hcopy : move.status.destinationCopy = some copy)
    (hne : incoming ≠ copy) : rollbackPresentArtifact move (pool.observing inventory) = .ok result ↔
      (∀ entry ∈ inventory.copies, entry.Passes move pool source incoming copy) ∧
        ¬(inventory.copies.any (·.shows incoming) ∧ inventory.copies.any (·.shows copy)) ∧
        (if inventory.copies.any (·.shows incoming) then some incoming
          else if inventory.copies.any (·.shows copy) then some copy else none) = result := by
  simp only [rollbackPresentArtifact, Pool.observing, hsource, hincoming, hcopy, bind_ok, rollbackObserved_ok hne, require_ok,
    pure_ok, Bool.false_or]
  constructor
  · rintro ⟨⟨_, _⟩, ⟨hpasses, hseen⟩, -, hboth, hresult⟩
    obtain ⟨rfl, rfl⟩ := Prod.mk.inj hseen
    exact ⟨hpasses, hboth, hresult⟩
  · rintro ⟨hpasses, hboth, hresult⟩
    exact ⟨_, ⟨hpasses, rfl⟩, (), hboth, hresult⟩

/-- No entry shows a copy of the transaction published when a rollback passes them all. -/
theorem unpublished_of_passes
    (hclean : ∀ entry ∈ inventory.copies, entry.problem = "" ∧ ∃ identity, entry.Clean installationID pool identity)
    (hpasses : ∀ entry ∈ inventory.copies, entry.Passes move pool source incoming copy) (htarget : target = incoming ∨ target = copy) :
    ∀ entry ∈ inventory.copies, entry.identity = some target → ¬entry.published := by
  intro entry hentry hidentity hpublished
  obtain ⟨-, identity, hfound⟩ := hclean entry hentry
  obtain ⟨identity, hsame, -, hunpublished⟩ := (hpasses entry hentry).2 (hfound.published hpublished)
  obtain rfl := Option.some.inj (hidentity.symm.trans hsame)
  rw [if_pos htarget] at hunpublished
  simp [hpublished] at hunpublished

theorem toOption_congr {α : Type} {x y : Except String α} (h : ∀ a, x = .ok a ↔ y = .ok a) : x.toOption = y.toOption := by
  cases x with
  | ok a => rw [(h a).mp rfl]
  | error e =>
    cases y with
    | ok a => exact absurd ((h a).mpr rfl) (by simp)
    | error e' => rfl

/-- The absence deciders agree. Let a scan produce a valid and complete inventory of a Pool, and let the transaction copies of
    a Move be the ones of that Pool. A rollback finds nothing only when both copies are proven absent; the copy that it finds
    is present and unpublished, and exactly that one of the two is not proven absent; and what it finds, if it does not ask
    for a review, is the same for every order of the entries. -/
theorem absence_deciders_agree (hscan : (s.scan pool).along D ks = some (.ok inventory)) (hvalid : inventory.valid)
    (hfull : inventory.truncated = false) (hinstallation : s.installation = some (.ok installationID))
    (hsource : move.status.sourceCopy = some source)
    (hmove : validateMoveTransactionIdentities move
      ⟨installationID, pool.name, pool.uid, pool.nodeName, source.volumeUID⟩ = .ok ()) :
    ∃ incoming copy, move.status.incomingCopy = some incoming ∧ move.status.destinationCopy = some copy ∧
      (rollbackPresentArtifact move (pool.observing inventory) = .ok none →
        inventoryProvesAbsence inventory pool.name pool.uid pool.nodeName incoming ∧
          inventoryProvesAbsence inventory pool.name pool.uid pool.nodeName copy) ∧
      (∀ target, rollbackPresentArtifact move (pool.observing inventory) = .ok (some target) →
        (∃ entry ∈ inventory.copies, entry.identity = some target ∧ entry.isPresent) ∧
          (∀ entry ∈ inventory.copies, entry.identity = some target → ¬entry.published) ∧
          (target = incoming ∧ ¬inventoryProvesAbsence inventory pool.name pool.uid pool.nodeName incoming ∧
              inventoryProvesAbsence inventory pool.name pool.uid pool.nodeName copy ∨
            target = copy ∧ inventoryProvesAbsence inventory pool.name pool.uid pool.nodeName incoming ∧
              ¬inventoryProvesAbsence inventory pool.name pool.uid pool.nodeName copy)) ∧
      ∀ copies, copies.Perm inventory.copies →
        (rollbackPresentArtifact move (pool.observing { inventory with copies })).toOption =
          (rollbackPresentArtifact move (pool.observing inventory)).toOption := by
  obtain ⟨-, hincoming, hcopy, -⟩ := validateMoveTransactionIdentities_ok hmove
  have hclean := scan_clean hscan hvalid hfull hinstallation
  generalize hin : (moveTransactionCopies move.uid move.spec.volumeID _).1 = incoming at hincoming
  generalize hout : (moveTransactionCopies move.uid move.spec.volumeID _).2 = copy at hcopy
  have hne : incoming ≠ copy := by
    rintro rfl
    simpa [← hin, moveTransactionCopies] using congrArg CopyIdentity.role hout
  have hproves := inventoryProvesAbsence_iff hclean (hin ▸ rfl : incoming.installationID = installationID)
  have hproves' := inventoryProvesAbsence_iff hclean (hout ▸ rfl : copy.installationID = installationID)
  refine ⟨incoming, copy, hincoming, hcopy, fun hnone => ?_, fun target htarget => ?_, fun copies hperm => ?_⟩
  · obtain ⟨-, -, hnone⟩ := (rollbackPresentArtifact_ok hsource hincoming hcopy hne).mp hnone
    rw [hproves, hproves']
    split at hnone
    · simp at hnone
    · split at hnone
      · simp at hnone
      · exact ⟨‹_›, ‹_›⟩
  · obtain ⟨hpasses, hboth, htarget⟩ := (rollbackPresentArtifact_ok hsource hincoming hcopy hne).mp htarget
    rw [hproves, hproves']
    split at htarget
    · rename_i hshown
      obtain rfl := Option.some.inj htarget
      obtain ⟨entry, hentry, hshows⟩ := List.any_eq_true.mp hshown
      simp only [CopyObservation.shows, Bool.and_eq_true, decide_eq_true_eq] at hshows
      exact ⟨⟨entry, hentry, hshows.2, hshows.1⟩, unpublished_of_passes hclean hpasses (.inl rfl),
        .inl ⟨rfl, fun h => h hshown, fun h => hboth ⟨hshown, h⟩⟩⟩
    · rename_i hhidden
      split at htarget
      · rename_i hshown
        obtain rfl := Option.some.inj htarget
        obtain ⟨entry, hentry, hshows⟩ := List.any_eq_true.mp hshown
        simp only [CopyObservation.shows, Bool.and_eq_true, decide_eq_true_eq] at hshows
        exact ⟨⟨entry, hentry, hshows.2, hshows.1⟩, unpublished_of_passes hclean hpasses (.inr rfl),
          .inr ⟨rfl, hhidden, fun h => h hshown⟩⟩
      · simp at htarget
  · refine toOption_congr fun result => ?_
    rw [rollbackPresentArtifact_ok hsource hincoming hcopy hne, rollbackPresentArtifact_ok hsource hincoming hcopy hne]
    simp only [hperm.any_eq, hperm.mem_iff]

/-! A Pool that holds the incoming copy of an approved Move. -/

def strandedCopy : CopyIdentity :=
  (moveTransactionCopies "move-1" sampleVolumeID (preparationAnchor sampleCopy samplePreparation)).1

def strandedHost : Host Unit where
  disk :=
    { areas
        | .incoming => some (AList.insert strandedCopy.copyID (.directory incomingID .empty) ∅)
        | _ => none
      markers := AList.insert .pool (.pool ⟨"install", "pool-b-uid"⟩) <|
        AList.insert (.copy strandedCopy.copyID) (.copy strandedCopy) <|
          AList.insert (.placement strandedCopy.copyID) (.placement ⟨strandedCopy, incomingID.val⟩) ∅ }
  api := ()

def strandedInventory : PoolInventory where
  valid := true
  truncated := false
  message := ""
  copies := [⟨Inventory.placementMarker strandedCopy.copyID, some strandedCopy, true, false, ""⟩]

theorem absence_deciders_agree_stranded :
    rollbackPresentArtifact approvedMove (poolB.observing strandedInventory) = .ok (some strandedCopy) ∧
      ∃ incoming copy, approvedMove.status.incomingCopy = some incoming ∧ approvedMove.status.destinationCopy = some copy ∧
        (strandedCopy = incoming ∧
            ¬inventoryProvesAbsence strandedInventory poolB.name poolB.uid poolB.nodeName incoming ∧
            inventoryProvesAbsence strandedInventory poolB.name poolB.uid poolB.nodeName copy ∨
          strandedCopy = copy ∧ inventoryProvesAbsence strandedInventory poolB.name poolB.uid poolB.nodeName incoming ∧
            ¬inventoryProvesAbsence strandedInventory poolB.name poolB.uid poolB.nodeName copy) := by
  have hscan : (scannerB.scan poolB).along (fun _ => strandedHost) (List.replicate 14 0) = some (.ok strandedInventory) := by
    decide +kernel
  have hartifact : rollbackPresentArtifact approvedMove (poolB.observing strandedInventory) = .ok (some strandedCopy) := by
    decide +kernel
  have hmove : validateMoveTransactionIdentities approvedMove
      ⟨"install", poolB.name, poolB.uid, poolB.nodeName, sampleCopy.volumeUID⟩ = .ok () := by decide +kernel
  obtain ⟨incoming, copy, hincoming, hcopy, -, hfound, -⟩ := absence_deciders_agree hscan rfl rfl rfl rfl hmove
  exact ⟨hartifact, incoming, copy, hincoming, hcopy, (hfound _ hartifact).2.2⟩

end ShiftPV

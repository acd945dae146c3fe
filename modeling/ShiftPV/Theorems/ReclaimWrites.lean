import ShiftPV.Theorems.NodeLogic

/-! Every write of a reclaim, with what the run has checked before it. The run holds the lock of its volume, so the
    disk stands still between a check and the write it allows; what an authority check taught may only grow old in
    ways the API keeps. -/

namespace ShiftPV
open NodeOp Setting

variable {Api α : Type}

/-- The writes of a reclaim of `target`. Only a run that was `granted` records an intent. -/
inductive ReclaimWrite (granted : Prop) (target : CopyIdentity) (operationID : String) : Disk → Disk → Prop where
  | area {d} : ReclaimWrite granted target operationID d (d.makeArea .retired)
  | intend {d place id} (hgranted : granted) (hplace : rolePath target = some place) (hid : d.idAt place.1 place.2 = some id)
      (hplacement : d.marker (.placement target.copyID) = some (.placement { identity := target, id := id.val })) :
      ReclaimWrite granted target operationID d (d.putMarker (.cleanup operationID) (.cleanup { operationID, target, id := id.val }))
  | move {d place id contents intent} (hplace : rolePath target = some place) (hrole : target.role ≠ .retired)
      (hintent : d.marker (.cleanup operationID) = some (.cleanup intent)) (htarget : intent.target = target)
      (hfind : d.find place.1 place.2 = some (.directory id contents)) (hid : id.val = intent.id) :
      ReclaimWrite granted target operationID d ((d.erase place.1 place.2).put .retired target.copyID (.directory id contents))
  | refill {d id old contents intent} (hintent : d.marker (.cleanup operationID) = some (.cleanup intent))
      (htarget : intent.target = target) (hfind : d.find .retired target.copyID = some (.directory id old))
      (hid : id.val = intent.id) :
      ReclaimWrite granted target operationID d (d.put .retired target.copyID (.directory id contents))
  | clear {d id intent} (hintent : d.marker (.cleanup operationID) = some (.cleanup intent))
      (htarget : intent.target = target) (hfind : d.find .retired target.copyID = some (.directory id .empty))
      (hid : id.val = intent.id) : ReclaimWrite granted target operationID d (d.erase .retired target.copyID)
  | receipt {d place intent} (hplace : rolePath target = some place)
      (hintent : d.marker (.cleanup operationID) = some (.cleanup intent)) (htarget : intent.target = target)
      (hgone : d.find place.1 place.2 = none) (hretired : d.find .retired target.copyID = none) :
      ReclaimWrite granted target operationID d (d.putMarker (.receipt operationID)
        (.receipt { operationID, target, id := intent.id, retired := true, purged := true }))
  | forget {d m} (hm : m = .placement target.copyID ∨ m = .copy target.copyID) :
      ReclaimWrite granted target operationID d (d.eraseMarker m)

section

variable {S : Setting Api} {A G : Api → Prop} {d : Disk} {target : CopyIdentity} {operationID : String} {intent : LocalIntent}

/-- The invariant survives the writes of a reclaim; `G` is what its authority grants under. -/
def ReclaimSafe (S : Setting Api) (G : Api → Prop) (target : CopyIdentity) (operationID : String) : Prop :=
  ∀ {d d' api}, S.inv ⟨d, api⟩ → ReclaimWrite (G api) target operationID d d' → S.inv ⟨d', api⟩

theorem removeCopyMetadata_writes {id : FileID} (hA : S.Lasting A) (hsafe : ReclaimSafe S G target operationID) :
    S.Keeps A d (removeCopyMetadata target id) fun _ _ => True := by
  have hremove : ∀ {m value d}, m = .placement target.copyID ∨ m = .copy target.copyID →
      S.Keeps A d (removeMarker m value) fun _ _ => True := by
    intro m value d hm
    refine keeps_change hA ?_
    cases hfound : d.marker m with
    | none => exact ⟨fun _ _ h => h, trivial⟩
    | some found =>
      by_cases hsame : found = value
      · simp only [hsame, if_true]
        exact ⟨fun _ _ hi => hsafe hi (.forget hm), trivial⟩
      · simp only [hsame, if_false]
  refine keeps_bind ((hremove (.inl rfl)).mono fun r d' _ => ?_)
  cases r with
  | ok _ => exact hremove (.inr rfl)
  | error _ => trivial

/-- A retire that succeeds leaves nothing in the copy's own place, unless that is the retired directory. -/
theorem retire_writes {place : Area × String} (hA : S.Lasting A) (hsafe : ReclaimSafe S G target operationID)
    (hplace : rolePath target = some place) (hintent : d.marker (.cleanup operationID) = some (.cleanup intent))
    (htarget : intent.target = target) :
    S.Keeps A d (retire target intent) fun r d' => r = .ok () →
      d'.marker (.cleanup operationID) = some (.cleanup intent) ∧ (target.role ≠ .retired → d'.find place.1 place.2 = none) := by
  obtain ⟨area, name⟩ := place
  refine keeps_bind (keeps_change hA ⟨fun _ _ hi => hsafe hi .area, ?_⟩)
  have hintent₁ : (d.makeArea .retired).marker (.cleanup operationID) = _ := Disk.marker_makeArea.trans hintent
  generalize d.makeArea .retired = d₁ at hintent₁
  refine keeps_view_cases openRoleParent_views hA (fun found api hfound => ?_) (by simp)
  obtain rfl : (area, name) = found := Option.some.inj (hplace.symm.trans (openRoleParent_ok.mp hfound).1)
  refine keeps_attempt_bind openIdentityDirectory_views hA fun api => ?_
  by_cases hr : target.role = .retired
  · simp only [hr, if_true]
    cases value (openIdentityDirectory area name intent.id) d₁ api with
    | ok _ => exact keeps_pure fun _ => ⟨hintent₁, by simp⟩
    | error e =>
      by_cases he : e.missing
      · simp only [he, if_true]
        exact keeps_pure fun _ => ⟨hintent₁, by simp⟩
      · simp only [he, Bool.false_eq_true, if_false]
        exact keeps_fail (by simp)
  · simp only [hr, if_false]
    refine keeps_attempt_bind openIdentityDirectory_views hA fun api' => ?_
    have hne : (area, name) ≠ (.retired, target.copyID) := fun h => hr ((rolePath_retired hplace).mp h)
    cases hsource : value (openIdentityDirectory area name intent.id) d₁ api with
    | ok _ =>
      cases hdestination : value (openIdentityDirectory .retired target.copyID intent.id) d₁ api' with
      | ok _ => exact keeps_fail (by simp)
      | error e =>
        by_cases he : e.missing
        · obtain ⟨id, hidAt, hid⟩ := openIdentityDirectory_ok.mp hsource
          obtain ⟨contents, hfind⟩ := Disk.idAt_eq_some.mp hidAt
          have hvacant := openIdentityDirectory_missing.mp ⟨e, hdestination, he⟩
          simp only [he, if_true]
          refine keeps_change hA ?_
          simp only [hfind, hvacant]
          refine ⟨fun _ _ hi => hsafe hi (.move hplace hr hintent₁ htarget hfind hid), fun _ => ⟨hintent₁, fun _ => ?_⟩⟩
          rw [Disk.find_put, if_neg (by simpa using hne)]
          exact Disk.find_erase_self
        · simp only [he, Bool.false_eq_true, if_false]
          exact keeps_fail (by simp)
    | error e =>
      by_cases he : e.missing
      · have hgone := openIdentityDirectory_missing.mp ⟨e, hsource, he⟩
        cases value (openIdentityDirectory .retired target.copyID intent.id) d₁ api' with
        | ok _ =>
          simp only [he, if_true]
          exact keeps_pure fun _ => ⟨hintent₁, fun _ => hgone⟩
        | error e' =>
          by_cases he' : e'.missing
          · simp only [he, he', Bool.not_true, Bool.false_eq_true, if_false, if_true]
            exact keeps_pure fun _ => ⟨hintent₁, fun _ => hgone⟩
          · simp only [he, he', Bool.not_true, Bool.false_eq_true, if_false]
            exact keeps_fail (by simp)
      · cases value (openIdentityDirectory .retired target.copyID intent.id) d₁ api' with
        | ok _ =>
          simp only [he, Bool.false_eq_true, if_false]
          exact keeps_fail (by simp)
        | error e' =>
          simp only [he, Bool.not_false, if_true]
          exact keeps_fail (by simp)

/-- A purge that succeeds leaves nothing in the retired directory of the copy, and touches nothing else. -/
theorem purgeRetired_writes (hA : S.Lasting A) (hsafe : ReclaimSafe S G target operationID)
    (hintent : d.marker (.cleanup operationID) = some (.cleanup intent)) (htarget : intent.target = target) :
    S.Keeps A d (purgeRetired intent) fun r d' => r = .ok () →
      d'.marker (.cleanup operationID) = some (.cleanup intent) ∧ d'.find .retired target.copyID = none ∧
        ∀ a n, (a, n) ≠ (.retired, target.copyID) → d'.find a n = d.find a n := by
  subst htarget
  refine keeps_view_cases openArea_views hA (fun _ _ _ => ?_) (by simp)
  refine keeps_view_cases (ifExists_views openDirectory_views) hA (fun found api hfound => ?_) (by simp)
  cases found with
  | none => exact keeps_pure fun _ => ⟨hintent, openDirectory_missing.mp (value_ifExists_none.mp hfound), fun _ _ _ => rfl⟩
  | some id =>
    refine keeps_bind (keeps_ensure (fun hid => ?_) (by simp))
    obtain ⟨old, hold⟩ := Disk.idAt_eq_some.mp (openDirectory_ok.mp (value_ifExists_some.mp hfound))
    have hpurged : S.Keeps A d ((purgeContents 257).zoom (fun h => h.disk.contentsAt .retired intent.target.copyID)
        (fun contents h => { h with disk := h.disk.setContents .retired intent.target.copyID contents })) fun _ d' =>
        d'.marker (.cleanup operationID) = some (.cleanup intent) ∧
          (∃ contents, d'.find .retired intent.target.copyID = some (.directory id contents)) ∧
            ∀ a n, (a, n) ≠ (.retired, intent.target.copyID) → d'.find a n = d.find a n := by
      intro api ha hi
      refine Proc.Meets.zoom (I := fun _ => True) (Q := fun _ _ => True) (K := fun t => A t.api ∧ S.inv t ∧
        t.disk.marker (.cleanup operationID) = some (.cleanup intent) ∧
          (∃ contents, t.disk.find .retired intent.target.copyID = some (.directory id contents)) ∧
            ∀ a n, (a, n) ≠ (.retired, intent.target.copyID) → t.disk.find a n = d.find a n)
        (Proc.meets_of_forall (fun _ _ => trivial) fun _ _ => trivial) ⟨ha, hi, hintent, ⟨old, hold⟩, fun _ _ _ => rfl⟩
        ?_ ?_ ?_
      · rintro t u ⟨hat, hit, hrest⟩ ⟨hsame, hlater⟩
        obtain ⟨disk, api'⟩ := u
        obtain rfl : t.disk = disk := hsame
        exact ⟨⟨hA hlater hat, S.stable hlater hit, hrest⟩, rfl⟩
      · rintro t x ⟨hat, hit, hmark, ⟨contents, hfind⟩, hother⟩ -
        rw [Disk.setContents_of hfind]
        have hkept : S.inv ⟨t.disk.put .retired intent.target.copyID (.directory id x), t.api⟩ :=
          hsafe hit (.refill hmark rfl hfind hid)
        refine ⟨hkept, ⟨hat, hkept, hmark, ⟨x, Disk.find_put_self⟩, fun a n hne => ?_⟩, ?_⟩
        · rw [Disk.find_put, if_neg (by simpa using hne)]
          exact hother a n hne
        · simp [Disk.contentsAt]
      · rintro t r ⟨hat, hit, hrest⟩ -
        exact ⟨hrest, hat, hit⟩
    refine keeps_bind (hpurged.mono fun r d' h => ?_)
    obtain ⟨hmark, ⟨contents, hfind⟩, hother⟩ := h
    cases r with
    | error e => simp
    | ok _ =>
      refine keeps_change hA ?_
      simp only [hfind]
      cases contents with
      | empty =>
        refine ⟨fun _ _ hi => hsafe hi (.clear hmark rfl hfind hid), fun _ => ⟨hmark, Disk.find_erase_self, fun a n hne => ?_⟩⟩
        rw [Disk.find_erase, if_neg (by simpa using hne)]
        exact hother a n hne
      | file | folder => simp

theorem settleReclaim_writes {place : Area × String} {receiptDigest : Receipt → String} (hA : S.Lasting A)
    (hsafe : ReclaimSafe S G target operationID) (hplace : rolePath target = some place)
    (hintent : d.marker (.cleanup operationID) = some (.cleanup intent)) (htarget : intent.target = target)
    (hgone : d.find place.1 place.2 = none) (hretired : d.find .retired target.copyID = none) :
    S.Keeps A d (settleReclaim receiptDigest target operationID intent) fun _ _ => True := by
  have hrest : ∀ d' : Disk, S.Keeps A d' (do
      within "verify cleanup absence" (verifyAbsent target)
      within "finish cleanup metadata" (removeCopyMetadata target intent.id)
      let receipt := { operationID, target, id := intent.id, retired := true, purged := true }
      return (receipt, receiptDigest receipt)) fun _ _ => True := by
    intro d'
    refine keeps_view_cases verifyAbsent_views.mapError hA (fun _ _ _ => ?_) (by simp)
    refine keeps_bind (keeps_within ((removeCopyMetadata_writes hA hsafe).mono fun r d' _ => ?_))
    cases r with
    | ok _ => exact keeps_pure trivial
    | error _ => trivial
  refine keeps_bind (keeps_within (keeps_change hA ?_))
  cases hreceipt : d.marker (.receipt operationID) with
  | none => exact ⟨fun _ _ hi => hsafe hi (.receipt hplace hintent htarget hgone hretired), hrest _⟩
  | some found =>
    by_cases hsame : found = .receipt { operationID, target, id := intent.id, retired := true, purged := true }
    · simp only [hsame, if_true]
      exact ⟨fun _ _ hi => hi, hrest _⟩
    · simp only [hsame, if_false, Except.mapError]

theorem replayReclaimReceipt_writes {receiptDigest : Receipt → String} {authority : Bool → Api → Except Fault Unit}
    (hA : S.Lasting A) (hsafe : ReclaimSafe S G target operationID) :
    S.Keeps A d (replayReclaimReceipt receiptDigest target operationID authority) fun r d' => r = .ok none → d' = d := by
  refine keeps_view_cases readReceipt_views hA (fun found _ _ => ?_) (by simp)
  cases found with
  | none => exact keeps_pure fun _ => rfl
  | some completed =>
    refine keeps_bind (keeps_ensure (fun _ => ?_) (by simp))
    refine keeps_consult hA (fun _ ha => ha) (fun _ ha _ _ => ⟨ha, ?_⟩) (by simp)
    refine keeps_view_cases verifyAbsent_views hA (fun _ _ _ => ?_) (by simp)
    refine keeps_bind (keeps_within ((removeCopyMetadata_writes hA hsafe).mono fun r d' _ => ?_))
    cases r with
    | ok _ => exact keeps_pure (by simp)
    | error _ => simp [Except.mapError]

/-- The intent that a run applies is on disk, for its target. -/
def Journaled (target : CopyIdentity) (operationID : String) (intent : LocalIntent) (d : Disk) : Prop :=
  d.marker (.cleanup operationID) = some (.cleanup intent) ∧ intent.target = target

theorem ensureLocalIntent_writes {placed : Placement} (hG : S.Lasting G) (hsafe : ReclaimSafe S G target operationID)
    (hplaced : d.marker (.placement target.copyID) = some (.placement placed)) (hidentity : placed.identity = target) :
    S.Keeps G d (ensureLocalIntent target operationID placed) fun r d' =>
      ∀ intent, r = .ok intent → Journaled target operationID intent d' := by
  refine keeps_view_cases (ifExists_views readMarker_views) hG (fun found api hfound => ?_) (by simp)
  cases found with
  | some existing =>
    refine keeps_bind (keeps_ensure (fun hsame => keeps_pure ?_) (by simp))
    obtain ⟨m, hm, hdecode⟩ := readMarker_ok.mp (value_ifExists_some.mp hfound)
    rintro intent h
    obtain rfl : existing = intent := by simpa using h
    refine ⟨?_, hsame.2.1⟩
    cases m <;> simp_all
  | none =>
    refine keeps_view_cases verifyCurrentPath_views hG (fun _ _ hpath => ?_) (by simp)
    obtain ⟨area, name, id, hplace, hid, hrecord⟩ := verifyCurrentPath_ok.mp hpath
    have hnone := readMarker_missing.mp (value_ifExists_none.mp hfound)
    obtain ⟨identity, recorded⟩ := placed
    obtain rfl : id.val = recorded := hrecord
    obtain rfl : identity = target := hidentity
    refine keeps_bind (keeps_change hG ?_)
    simp only [hnone]
    refine ⟨fun _ hg hi => hsafe hi (.intend hg hplace hid hplaced), keeps_pure ?_⟩
    rintro intent h
    obtain rfl := Except.ok.inj h
    exact ⟨Disk.marker_putMarker_self, rfl⟩

theorem confirmFreshReclaimTarget_writes {recorded : Option LocalIntent} (hG : S.Lasting G)
    (hsafe : ReclaimSafe S G target operationID)
    (hrecorded : ∀ intent, recorded = some intent → Journaled target operationID intent d) :
    S.Keeps G d (confirmFreshReclaimTarget target operationID recorded) fun r d' =>
      ∀ intent, r = .ok intent → Journaled target operationID intent d' := by
  refine keeps_view_cases checkMarker_views.mapError hG (fun _ _ _ => ?_) (by simp)
  refine keeps_view_cases readPlacement_views.mapError.mapError hG (fun placed _ hplaced => ?_) (by simp)
  refine keeps_bind (keeps_ensure (fun hidentity => ?_) (by simp))
  cases recorded with
  | some intent =>
    refine keeps_bind (keeps_ensure (fun _ => keeps_pure ?_) (by simp))
    rintro found h
    obtain rfl := Except.ok.inj h
    exact hrecorded intent rfl
  | none =>
    have hmarker := readPlacement_ok.mp (value_mapError_ok.mp (value_within_ok.mp hplaced))
    refine keeps_within ((ensureLocalIntent_writes hG hsafe hmarker hidentity).mono fun r d' h => ?_)
    rintro intent hr
    cases r with
    | ok found => exact h intent (by simpa [Except.mapError] using hr)
    | error e => simp [Except.mapError] at hr

section Authority

variable {authority : Bool → Api → Except Fault Unit} (hG : S.Lasting G)
  (hgrant : ∀ {b d api}, S.inv ⟨d, api⟩ → authority b api = .ok () → G api)

include hG hgrant

theorem prepareReclaimIntent_writes (hsafe : ReclaimSafe S G target operationID) :
    S.Keeps (fun _ => True) d (prepareReclaimIntent target operationID authority) fun r d' =>
      ∀ intent b, r = .ok (intent, b) → Journaled target operationID intent d' := by
  have hany : S.Lasting fun _ => True := fun _ _ => trivial
  have hconfirm {d : Disk} {recorded : Option LocalIntent}
      (hrecorded : ∀ intent, recorded = some intent → Journaled target operationID intent d) :
      S.Keeps G d (do return (← confirmFreshReclaimTarget target operationID recorded, false)) fun r d' =>
        ∀ intent b, r = .ok (intent, b) → Journaled target operationID intent d' := by
    refine keeps_bind ((confirmFreshReclaimTarget_writes hG hsafe hrecorded).mono fun r d' h => ?_)
    cases r with
    | error e => simp
    | ok found =>
      refine keeps_pure ?_
      rintro intent b hr
      obtain ⟨rfl, rfl⟩ := Prod.mk.inj (Except.ok.inj hr)
      exact h _ rfl
  refine keeps_view_cases localIntent_views.mapError hany (fun recorded _ hread => ?_) (by simp)
  cases recorded with
  | none =>
    refine keeps_consult hany (fun _ _ => trivial) (fun api _ hi h => ⟨hgrant hi h, ?_⟩) (by simp)
    exact hconfirm (by simp)
  | some intent =>
    obtain ⟨hmarker, -, htarget⟩ := localIntent_some.mp (value_within_ok.mp hread)
    refine keeps_view_cases cleanupEffectStarted_views.mapError hany (fun effectStarted _ _ => ?_) (by simp)
    refine keeps_consult hany (fun _ _ => trivial) (fun api _ hi h => ⟨hgrant hi h, ?_⟩) (by simp)
    cases effectStarted with
    | true =>
      refine keeps_pure ?_
      rintro found b hr
      obtain ⟨rfl, rfl⟩ := Prod.mk.inj (Except.ok.inj hr)
      exact ⟨hmarker, htarget⟩
    | false =>
      refine hconfirm ?_
      rintro found hfound
      obtain rfl := Option.some.inj hfound
      exact ⟨hmarker, htarget⟩

theorem reclaimWithResume_writes {receiptDigest : Receipt → String} (hsafe : ReclaimSafe S G target operationID) :
    S.Keeps (fun _ => True) d (reclaimWithResume receiptDigest target operationID authority) fun _ _ => True := by
  have hany : S.Lasting fun _ => True := fun _ _ => trivial
  refine keeps_bind (keeps_ensure (fun hvalid => ?_) fun _ => trivial)
  obtain ⟨place, hplace⟩ : ∃ place, rolePath target = some place := by
    have hrole : target.role ≠ .unknown := by
      have := hvalid.2
      simp only [CopyIdentity.valid, Bool.and_eq_true, decide_eq_true_eq] at this
      exact this.2
    unfold rolePath
    cases h : target.role <;> simp_all
  refine keeps_view_cases openExisting_views hany (fun _ _ _ => ?_) (by simp)
  refine keeps_view_cases acquire_views hany (fun _ _ _ => ?_) (by simp)
  refine keeps_bind ((replayReclaimReceipt_writes hany hsafe).mono fun r d' _ => ?_)
  cases r with
  | error e => trivial
  | ok replayed =>
    cases replayed with
    | some outcome => exact keeps_pure trivial
    | none =>
      refine keeps_bind ((prepareReclaimIntent_writes hG hgrant hsafe).mono fun r d₁ h => ?_)
      cases r with
      | error e => trivial
      | ok prepared =>
        obtain ⟨intent, effectStarted⟩ := prepared
        obtain ⟨hintent, htarget⟩ := h intent effectStarted rfl
        refine keeps_bind (Keeps.mono (Q := fun r d' => r = .ok () → Journaled target operationID intent d' ∧
          d'.find place.1 place.2 = none ∧ d'.find .retired target.copyID = none) ?_ fun r d₂ h => ?_)
        · refine keeps_bind (keeps_within (keeps_asked hany fun api => ?_))
          cases authority effectStarted api with
          | error e => simp [Except.mapError]
          | ok _ =>
            refine keeps_bind (keeps_within ((retire_writes hany hsafe hplace hintent htarget).mono fun r d₂ h => ?_))
            cases r with
            | error e => simp [Except.mapError]
            | ok _ =>
              obtain ⟨hintent, hvacant⟩ := h rfl
              refine keeps_within ((purgeRetired_writes hany hsafe hintent htarget).mono fun r d₃ h => ?_)
              cases r with
              | error e => simp [Except.mapError]
              | ok _ =>
                obtain ⟨hintent, hretired, hother⟩ := h rfl
                refine fun _ => ⟨⟨hintent, htarget⟩, ?_, hretired⟩
                by_cases hrole : target.role = .retired
                · rw [(rolePath_retired hplace).mpr hrole]
                  exact hretired
                · rw [hother _ _ fun h => hrole ((rolePath_retired hplace).mp h)]
                  exact hvacant hrole
        · cases r with
          | error e => trivial
          | ok _ =>
            obtain ⟨⟨hintent, htarget⟩, hgone, hretired⟩ := h rfl
            exact settleReclaim_writes hany hsafe hplace hintent htarget hgone hretired

end Authority

end

end ShiftPV

import ShiftPV.Theorems.TransferWrites

/-! Promotion of an incoming copy, run again and again after it was stopped anywhere. Which markers and directories
    there are tells every run how far the ones before it came; a directory that was already served is in nobody's way
    but the promotion's. -/

namespace ShiftPV
open NodeOp Setting

variable {Api : Type}

/-! ### Progress -/

section Promotion

variable (incoming serving : CopyIdentity) (operationID : String) (id : LiveID) (contents : Contents)

def promotionIntent : TransferIntent := { operationID, incoming, destination := serving, id := id.val }

def promotionReceipt : TransferReceipt := { operationID, identity := serving, id := id.val }

/-- The markers of the incoming copy name the inode, and the promotion has no receipt. -/
structure Unpromoted (d : Disk) : Prop where
  copy : d.marker (.copy incoming.copyID) = some (.copy incoming)
  placement : d.marker (.placement incoming.copyID) = some (.placement { identity := incoming, id := id.val })
  sealed : d.marker (.placement serving.copyID) = none ∨
    d.marker (.placement serving.copyID) = some (.placement { identity := serving, id := id.val })
  receipt : d.marker (.promotionReceipt operationID) = none

structure PromotionJournaled (d : Disk) : Prop where
  intent : d.marker (.promotion operationID) = some (.promotion (promotionIntent incoming serving operationID id))
  destination : d.marker (.copy serving.copyID) = some (.copy serving)

structure PromotionWaiting (d : Disk) : Prop where
  source : d.find .incoming incoming.copyID = some (.directory id contents)
  target : d.find .volumes serving.volumeID = none

structure PromotionPublished (d : Disk) : Prop where
  source : d.find .incoming incoming.copyID = none
  target : d.find .volumes serving.volumeID = some (.directory id contents)

/-- The receipt is durable; of the incoming copy at most its markers are left. -/
structure PromotionSettled (d : Disk) : Prop where
  published : PromotionPublished incoming serving id contents d
  destination : d.marker (.copy serving.copyID) = some (.copy serving)
  sealed : d.marker (.placement serving.copyID) = some (.placement { identity := serving, id := id.val })
  receipt : d.marker (.promotionReceipt operationID) = some (.transfer (promotionReceipt serving operationID id))
  placement : d.marker (.placement incoming.copyID) = none ∨
    d.marker (.placement incoming.copyID) = some (.placement { identity := incoming, id := id.val })
  copy : d.marker (.copy incoming.copyID) = none ∨ d.marker (.copy incoming.copyID) = some (.copy incoming)

inductive PromotionProgress (d : Disk) : Prop where
  | waiting (hplaces : PromotionWaiting incoming serving id contents d)
      (hmarkers : Unpromoted incoming serving operationID id d)
      (hintent : d.marker (.promotion operationID) = none ∨
        d.marker (.promotion operationID) = some (.promotion (promotionIntent incoming serving operationID id)))
      (hserving : d.marker (.copy serving.copyID) = none ∨ d.marker (.copy serving.copyID) = some (.copy serving))
  | published (hplaces : PromotionPublished incoming serving id contents d)
      (hmarkers : Unpromoted incoming serving operationID id d)
      (hjournaled : PromotionJournaled incoming serving operationID id d)
  | settled (hsettled : PromotionSettled incoming serving operationID id contents d)

structure Promoting (d : Disk) : Prop where
  pool : d.marker .pool = some (.pool { installationID := incoming.installationID, poolUID := incoming.poolUID })
  area : (d.areas .incoming).isSome
  progress : PromotionProgress incoming serving operationID id contents d

structure Promoted (d : Disk) : Prop where
  pool : d.marker .pool = some (.pool { installationID := incoming.installationID, poolUID := incoming.poolUID })
  settled : PromotionSettled incoming serving operationID id contents d
  placement : d.marker (.placement incoming.copyID) = none
  copy : d.marker (.copy incoming.copyID) = none

variable {incoming serving operationID id contents} {d d' : Disk} {m : MarkerName}

theorem PromotionWaiting.of_find (h : PromotionWaiting incoming serving id contents d)
    (hf : ∀ area name, d'.find area name = d.find area name) : PromotionWaiting incoming serving id contents d' :=
  ⟨by rw [hf]; exact h.source, by rw [hf]; exact h.target⟩

theorem PromotionPublished.of_find (h : PromotionPublished incoming serving id contents d)
    (hf : ∀ area name, d'.find area name = d.find area name) : PromotionPublished incoming serving id contents d' :=
  ⟨by rw [hf]; exact h.source, by rw [hf]; exact h.target⟩

theorem Unpromoted.of_markers (h : Unpromoted incoming serving operationID id d)
    (hm : ∀ m, d'.marker m = d.marker m) : Unpromoted incoming serving operationID id d' :=
  ⟨by rw [hm]; exact h.copy, by rw [hm]; exact h.placement, by rw [hm]; exact h.sealed, by rw [hm]; exact h.receipt⟩

theorem PromotionJournaled.of_markers (h : PromotionJournaled incoming serving operationID id d)
    (hm : ∀ m, d'.marker m = d.marker m) : PromotionJournaled incoming serving operationID id d' :=
  ⟨by rw [hm]; exact h.intent, by rw [hm]; exact h.destination⟩

variable (Api incoming serving operationID id contents) in
/-- Promotions of one copy by one operation, with nobody else on its paths. -/
def promotionSetting : Setting Api where
  later _ _ := True
  refl _ := trivial
  trans _ _ := trivial
  inv h := Promoting incoming serving operationID id contents h.disk
  stable _ h := h

theorem promotionSetting_lasting :
    (promotionSetting Api incoming serving operationID id contents).Lasting fun _ => True := fun _ _ => trivial

/-! ### The steps of a run -/

theorem Unpromoted.sameBut (h : Unpromoted incoming serving operationID id d) (hs : d.SameBut m d')
    (hcopy : .copy incoming.copyID ≠ m) (hplacement : .placement incoming.copyID ≠ m)
    (hsealed : .placement serving.copyID ≠ m) (hreceipt : .promotionReceipt operationID ≠ m) :
    Unpromoted incoming serving operationID id d' :=
  ⟨(hs.marker hcopy).trans h.copy, (hs.marker hplacement).trans h.placement, by rw [hs.marker hsealed]; exact h.sealed,
    (hs.marker hreceipt).trans h.receipt⟩

/-- The disk is ready for the directory to be moved, or it is moved already. -/
structure PromotionReady (incoming serving : CopyIdentity) (operationID : String) (id : LiveID) (contents : Contents)
    (d : Disk) : Prop where
  pool : d.marker .pool = some (.pool { installationID := incoming.installationID, poolUID := incoming.poolUID })
  area : (d.areas .incoming).isSome
  markers : Unpromoted incoming serving operationID id d
  journaled : PromotionJournaled incoming serving operationID id d
  places : PromotionWaiting incoming serving id contents d ∨ PromotionPublished incoming serving id contents d

theorem PromotionReady.promoting (h : PromotionReady incoming serving operationID id contents d) :
    Promoting incoming serving operationID id contents d := by
  refine ⟨h.pool, h.area, ?_⟩
  rcases h.places with hplaces | hplaces
  · exact .waiting hplaces h.markers (Or.inr h.journaled.intent) (Or.inr h.journaled.destination)
  · exact .published hplaces h.markers h.journaled

theorem PromotionSettled.sameBut (h : PromotionSettled incoming serving operationID id contents d) (hs : d.SameBut m d')
    (hm : m = .placement incoming.copyID ∨ m = .copy incoming.copyID) (hne : incoming.copyID ≠ serving.copyID)
    (hgone : d'.marker m = none) : PromotionSettled incoming serving operationID id contents d' := by
  have hkept : ∀ {m'}, m' ≠ .placement incoming.copyID → m' ≠ .copy incoming.copyID → d'.marker m' = d.marker m' := by
    intro m' h₁ h₂
    rcases hm with rfl | rfl
    exacts [hs.marker h₁, hs.marker h₂]
  refine ⟨h.published.of_find hs.find, (hkept (by simp) (by simp [hne.symm])).trans h.destination,
    (hkept (by simp [hne.symm]) (by simp)).trans h.sealed, (hkept (by simp) (by simp)).trans h.receipt, ?_, ?_⟩
  · rcases hm with rfl | rfl
    · exact Or.inl hgone
    · rw [hs.marker (by simp)]
      exact h.placement
  · rcases hm with rfl | rfl
    · rw [hs.marker (by simp)]
      exact h.copy
    · exact Or.inl hgone

theorem removeIncomingMetadata_keeps (hne : incoming.copyID ≠ serving.copyID)
    (hpool : d.marker .pool = some (.pool { installationID := incoming.installationID, poolUID := incoming.poolUID }))
    (harea : (d.areas .incoming).isSome) (hs : PromotionSettled incoming serving operationID id contents d) :
    (promotionSetting Api incoming serving operationID id contents).Keeps (fun _ => True) d
      (removeCopyMetadata incoming id.val) fun r d' =>
        r = .ok () ∧ Promoted incoming serving operationID id contents d' := by
  refine keeps_bind (keeps_removeMarker promotionSetting_lasting hs.placement fun d₁ hs₁ hplacement => ?_)
  have hsettled₁ := hs.sameBut hs₁ (Or.inl rfl) hne hplacement
  have hpool₁ := (hs₁.marker (by simp)).trans hpool
  refine ⟨fun _ _ _ => ⟨hpool₁, by rw [hs₁.areas]; exact harea, .settled hsettled₁⟩, ?_⟩
  refine keeps_removeMarker promotionSetting_lasting hsettled₁.copy fun d₂ hs₂ hcopy => ?_
  have hsettled₂ := hsettled₁.sameBut hs₂ (Or.inr rfl) hne hcopy
  have hpool₂ := (hs₂.marker (by simp)).trans hpool₁
  refine ⟨fun _ _ _ => ⟨hpool₂, by rw [hs₂.areas, hs₁.areas]; exact harea, .settled hsettled₂⟩, rfl, hpool₂, hsettled₂, ?_, hcopy⟩
  rw [hs₂.marker (by simp)]
  exact hplacement

theorem PromotionSettled.serves (h : PromotionSettled incoming serving operationID id contents d) (api : Api) :
    value (verifyServing serving) d api = .ok () :=
  verifyServing_ok.mpr ⟨h.destination, id, h.sealed, Disk.idAt_eq_some.mpr ⟨contents, h.published.target⟩⟩

theorem replayPromotionReceipt_keeps (hne : incoming.copyID ≠ serving.copyID)
    (hd : Promoting incoming serving operationID id contents d) :
    (promotionSetting Api incoming serving operationID id contents).Keeps (fun _ => True) d
      (replayPromotionReceipt operationID incoming serving) fun r d' =>
        r = .ok true ∧ Promoted incoming serving operationID id contents d' ∨
          r = .ok false ∧ d' = d ∧ d.marker (.promotionReceipt operationID) = none := by
  have hviews : (ifExists (readTransferReceipt (.promotionReceipt operationID)) : NodeOp Api _).Views Host.disk :=
    ifExists_views readTransferReceipt_views
  have hfresh : d.marker (.promotionReceipt operationID) = none →
      (promotionSetting Api incoming serving operationID id contents).Keeps (fun _ => True) d
        (replayPromotionReceipt operationID incoming serving) fun r d' =>
          r = .ok true ∧ Promoted incoming serving operationID id contents d' ∨
            r = .ok false ∧ d' = d ∧ d.marker (.promotionReceipt operationID) = none := fun hnone =>
    keeps_view_bind hviews promotionSetting_lasting (fun _ => value_ifExists_none.mpr (readMarker_missing.mpr hnone))
      (keeps_pure (Or.inr ⟨rfl, rfl, hnone⟩))
  cases hd.progress with
  | waiting _ hmarkers | published _ hmarkers => exact hfresh hmarkers.receipt
  | settled hs =>
    refine keeps_view_bind hviews promotionSetting_lasting
      (fun _ => value_ifExists_some.mpr (readTransferReceipt_ok.mpr hs.receipt)) ?_
    refine keeps_ensure_bind ⟨rfl, rfl⟩ (keeps_view_bind verifyServing_views promotionSetting_lasting hs.serves ?_)
    refine keeps_bind ((removeIncomingMetadata_keeps hne hd.pool hd.area hs).mono fun r d₁ h => ?_)
    obtain ⟨rfl, hdone⟩ := h
    exact keeps_pure (Or.inl ⟨rfl, hdone⟩)

/-- The intent and the serving identity are recorded before anything moves. -/
theorem journalPromotion_keeps (hne : incoming.copyID ≠ serving.copyID)
    (hd : Promoting incoming serving operationID id contents d)
    (hreceipt : d.marker (.promotionReceipt operationID) = none) :
    (promotionSetting Api incoming serving operationID id contents).Keeps (fun _ => True) d
      (journalPromotion operationID incoming serving) fun r d' =>
        r = .ok (promotionIntent incoming serving operationID id) ∧
          PromotionReady incoming serving operationID id contents d' := by
  obtain ⟨hmarkers, hplaces, hintent, hdestination⟩ : Unpromoted incoming serving operationID id d ∧
      (PromotionWaiting incoming serving id contents d ∨ PromotionPublished incoming serving id contents d ∧
        PromotionJournaled incoming serving operationID id d) ∧
      (d.marker (.promotion operationID) = none ∨
        d.marker (.promotion operationID) = some (.promotion (promotionIntent incoming serving operationID id))) ∧
      (d.marker (.copy serving.copyID) = none ∨ d.marker (.copy serving.copyID) = some (.copy serving)) := by
    cases hd.progress with
    | waiting hplaces hmarkers hintent hserving => exact ⟨hmarkers, Or.inl hplaces, hintent, hserving⟩
    | published hplaces hmarkers hj =>
      exact ⟨hmarkers, Or.inr ⟨hplaces, hj⟩, Or.inr hj.intent, Or.inr hj.destination⟩
    | settled hs => simp [hs.receipt] at hreceipt
  refine keeps_view_bind (a := ()) checkMarker_views promotionSetting_lasting (fun _ => checkMarker_ok.mpr hmarkers.copy) ?_
  refine keeps_view_bind (readPlacement_views.mapError) promotionSetting_lasting
    (fun _ => value_mapError_ok.mpr (readPlacement_ok.mpr hmarkers.placement)) ?_
  refine keeps_ensure_bind rfl (keeps_bind (keeps_ensureMarker promotionSetting_lasting hintent fun d₁ hs₁ hintent₁ => ?_))
  have hpool₁ := (hs₁.marker (by simp)).trans hd.pool
  have harea₁ : (d₁.areas .incoming).isSome := by rw [hs₁.areas]; exact hd.area
  have hmarkers₁ := hmarkers.sameBut hs₁ (by simp) (by simp) (by simp) (by simp)
  have hdestination₁ : d₁.marker (.copy serving.copyID) = none ∨ d₁.marker (.copy serving.copyID) = some (.copy serving) := by
    rw [hs₁.marker (by simp)]
    exact hdestination
  have hd₁ : Promoting incoming serving operationID id contents d₁ := by
    refine ⟨hpool₁, harea₁, ?_⟩
    rcases hplaces with hplaces | ⟨hplaces, hj⟩
    · exact .waiting (hplaces.of_find hs₁.find) hmarkers₁ (Or.inr hintent₁) hdestination₁
    · exact .published (hplaces.of_find hs₁.find) hmarkers₁ ⟨hintent₁, (hs₁.marker (by simp)).trans hj.destination⟩
  refine ⟨fun _ _ _ => hd₁, keeps_bind (keeps_ensureMarker promotionSetting_lasting hdestination₁
    fun d₂ hs₂ hdestination₂ => ?_)⟩
  have hready : PromotionReady incoming serving operationID id contents d₂ := by
    refine ⟨(hs₂.marker (by simp)).trans hpool₁, by rw [hs₂.areas]; exact harea₁,
      hmarkers₁.sameBut hs₂ (by simp [hne]) (by simp) (by simp) (by simp),
      ⟨(hs₂.marker (by simp)).trans hintent₁, hdestination₂⟩, ?_⟩
    rcases hplaces with hplaces | ⟨hplaces, -⟩
    · exact Or.inl ((hplaces.of_find hs₁.find).of_find hs₂.find)
    · exact Or.inr ((hplaces.of_find hs₁.find).of_find hs₂.find)
  exact ⟨fun _ _ _ => hready.promoting, keeps_pure ⟨rfl, hready⟩⟩

theorem PromotionReady.makeArea (h : PromotionReady incoming serving operationID id contents d) (area : Area) :
    PromotionReady incoming serving operationID id contents (d.makeArea area) := by
  have hm : ∀ m, (d.makeArea area).marker m = d.marker m := fun _ => Disk.marker_makeArea
  have hf : ∀ a n, (d.makeArea area).find a n = d.find a n := fun _ _ => Disk.find_makeArea
  exact ⟨(hm _).trans h.pool, Disk.areas_makeArea_of h.area, h.markers.of_markers hm, h.journaled.of_markers hm,
    h.places.imp (·.of_find hf) (·.of_find hf)⟩

theorem publishPromotedDirectory_keeps (hd : PromotionReady incoming serving operationID id contents d) :
    (promotionSetting Api incoming serving operationID id contents).Keeps (fun _ => True) d
      (publishPromotedDirectory (promotionIntent incoming serving operationID id) incoming serving) fun r d' =>
        r = .ok () ∧ PromotionReady incoming serving operationID id contents d' ∧
          PromotionPublished incoming serving id contents d' := by
  rcases hd.places with hplaces | hplaces
  · refine keeps_view_bind (a := some ()) (ifExists_views openIdentityDirectory_views) promotionSetting_lasting
      (fun _ => value_ifExists_some.mpr (openIdentityDirectory_ok.mpr
        ⟨id, Disk.idAt_eq_some.mpr ⟨contents, hplaces.source⟩, rfl⟩)) ?_
    refine keeps_view_bind (ifExists_views openDirectory_views) promotionSetting_lasting
      (fun _ => value_ifExists_none.mpr (openDirectory_missing.mpr hplaces.target)) ?_
    refine keeps_change promotionSetting_lasting ?_
    simp only [hplaces.source, hplaces.target]
    have hplaces' : PromotionPublished incoming serving id contents
        ((d.erase .incoming incoming.copyID).put .volumes serving.volumeID (.directory id contents)) :=
      ⟨by simp [Disk.find_put], by simp⟩
    have hd' : PromotionReady incoming serving operationID id contents
        ((d.erase .incoming incoming.copyID).put .volumes serving.volumeID (.directory id contents)) :=
      ⟨hd.pool, Disk.areas_put (Disk.areas_erase hd.area), hd.markers.of_markers fun _ => rfl,
        hd.journaled.of_markers fun _ => rfl, Or.inr hplaces'⟩
    exact ⟨fun _ _ _ => hd'.promoting, trivial, hd', hplaces'⟩
  · refine keeps_view_bind (ifExists_views openIdentityDirectory_views) promotionSetting_lasting
      (fun _ => value_ifExists_none.mpr (openIdentityDirectory_missing.mpr hplaces.source)) ?_
    exact keeps_pure ⟨rfl, hd, hplaces⟩

theorem sealPromotedPlacement_keeps (hne : incoming.copyID ≠ serving.copyID)
    (hd : PromotionReady incoming serving operationID id contents d) (hp : PromotionPublished incoming serving id contents d) :
    (promotionSetting Api incoming serving operationID id contents).Keeps (fun _ => True) d
      (sealPromotedPlacement (promotionIntent incoming serving operationID id) serving) fun r d' =>
        r = .ok { identity := serving, id := id.val } ∧ PromotionReady incoming serving operationID id contents d' ∧
          PromotionPublished incoming serving id contents d' ∧
          d'.marker (.placement serving.copyID) = some (.placement { identity := serving, id := id.val }) := by
  refine keeps_view_bind openDirectory_views promotionSetting_lasting
    (fun _ => openDirectory_ok.mpr (Disk.idAt_eq_some.mpr ⟨contents, hp.target⟩)) ?_
  refine keeps_ensure_bind rfl (keeps_bind (keeps_ensureMarker promotionSetting_lasting hd.markers.sealed
    fun d₁ hs₁ hsealed => ?_))
  have hp₁ := hp.of_find hs₁.find
  have hd₁ : PromotionReady incoming serving operationID id contents d₁ :=
    ⟨(hs₁.marker (by simp)).trans hd.pool, by rw [hs₁.areas]; exact hd.area,
      ⟨(hs₁.marker (by simp)).trans hd.markers.copy, (hs₁.marker (by simp [hne])).trans hd.markers.placement, Or.inr hsealed,
        (hs₁.marker (by simp)).trans hd.markers.receipt⟩,
      ⟨(hs₁.marker (by simp)).trans hd.journaled.intent, (hs₁.marker (by simp)).trans hd.journaled.destination⟩, Or.inr hp₁⟩
  exact ⟨fun _ _ _ => hd₁.promoting, keeps_pure ⟨rfl, hd₁, hp₁, hsealed⟩⟩

variable {authority : Api → Except Fault Unit}

theorem commitPromotion_keeps (hgrants : ∀ api, authority api = .ok ())
    (hne : incoming.copyID ≠ serving.copyID) (hd : PromotionReady incoming serving operationID id contents d)
    (hp : PromotionPublished incoming serving id contents d)
    (hsealed : d.marker (.placement serving.copyID) = some (.placement { identity := serving, id := id.val })) :
    (promotionSetting Api incoming serving operationID id contents).Keeps (fun _ => True) d
      (commitPromotion operationID incoming serving { identity := serving, id := id.val } authority) fun r d' =>
        r = .ok () ∧ Promoted incoming serving operationID id contents d' := by
  refine keeps_granted promotionSetting_lasting hgrants (keeps_bind (keeps_ensureMarker promotionSetting_lasting
    (Or.inl hd.markers.receipt) fun d₁ hs₁ hreceipt => ?_))
  have hpool₁ := (hs₁.marker (by simp)).trans hd.pool
  have harea₁ : (d₁.areas .incoming).isSome := by rw [hs₁.areas]; exact hd.area
  have hs : PromotionSettled incoming serving operationID id contents d₁ :=
    ⟨hp.of_find hs₁.find, (hs₁.marker (by simp)).trans hd.journaled.destination, (hs₁.marker (by simp)).trans hsealed, hreceipt,
      Or.inr ((hs₁.marker (by simp)).trans hd.markers.placement), Or.inr ((hs₁.marker (by simp)).trans hd.markers.copy)⟩
  refine ⟨fun _ _ _ => ⟨hpool₁, harea₁, .settled hs⟩, keeps_granted promotionSetting_lasting hgrants ?_⟩
  refine keeps_bind (keeps_within ((removeIncomingMetadata_keeps hne hpool₁ harea₁ hs).mono fun r d₂ h => ?_))
  obtain ⟨rfl, hdone⟩ := h
  exact keeps_grant promotionSetting_lasting hgrants ⟨rfl, hdone⟩

theorem validPromotionRequest_incoming (h : validPromotionRequest incoming serving operationID) : incoming.valid := by
  simp only [validPromotionRequest, Bool.and_eq_true] at h
  tauto

theorem validPromotionRequest_apart (h : validPromotionRequest incoming serving operationID) :
    incoming.copyID ≠ serving.copyID := by
  rintro hsame
  simp [validPromotionRequest, hsame] at h

theorem promoteIncoming_keeps (hgrants : ∀ api, authority api = .ok ())
    (hvalid : validPromotionRequest incoming serving operationID)
    (hd : Promoting incoming serving operationID id contents d) :
    (promotionSetting Api incoming serving operationID id contents).Keeps (fun _ => True) d
      (promoteIncoming incoming serving operationID authority) fun r d' =>
        r = .ok () ∧ Promoted incoming serving operationID id contents d' := by
  have hne := validPromotionRequest_apart hvalid
  obtain ⟨hpool, hvolume⟩ := valid_tokens (validPromotionRequest_incoming hvalid)
  refine keeps_ensure_bind hvalid (keeps_granted promotionSetting_lasting hgrants ?_)
  refine keeps_view_bind (a := ()) openExisting_views promotionSetting_lasting
    (fun _ => openExisting_ok.mpr ⟨hpool, hd.pool⟩) ?_
  refine keeps_view_bind (a := ()) acquire_views promotionSetting_lasting (fun _ => acquire_ok.mpr ⟨hvolume, hd.pool⟩) ?_
  refine keeps_granted promotionSetting_lasting hgrants ?_
  refine keeps_bind ((replayPromotionReceipt_keeps hne hd).mono fun r d₁ h => ?_)
  rcases h with ⟨rfl, hdone⟩ | ⟨rfl, rfl, hreceipt⟩
  · exact keeps_pure ⟨rfl, hdone⟩
  refine keeps_bind ((journalPromotion_keeps hne hd hreceipt).mono fun r d₂ h => ?_)
  obtain ⟨rfl, hready⟩ := h
  refine keeps_view_bind (a := ()) openArea_views promotionSetting_lasting (fun _ => openArea_ok.mpr hready.area) ?_
  refine keeps_bind (keeps_change promotionSetting_lasting ⟨fun _ _ _ => (hready.makeArea .volumes).promoting, ?_⟩)
  refine keeps_bind ((publishPromotedDirectory_keeps (hready.makeArea .volumes)).mono fun r d₃ h => ?_)
  obtain ⟨rfl, hready₃, hp₃⟩ := h
  refine keeps_bind ((sealPromotedPlacement_keeps hne hready₃ hp₃).mono fun r d₄ h => ?_)
  obtain ⟨rfl, hready₄, hp₄, hsealed⟩ := h
  exact commitPromotion_keeps hgrants hne hready₄ hp₄ hsealed

/-- A finished promotion is found finished, and nothing changes. -/
theorem promoteIncoming_promoted {S : Setting Api} (hS : S.Lasting fun _ => True)
    (hgrants : ∀ api, authority api = .ok ()) (hvalid : validPromotionRequest incoming serving operationID)
    (hd : Promoted incoming serving operationID id contents d) :
    S.Keeps (fun _ => True) d (promoteIncoming incoming serving operationID authority) fun r d' => r = .ok () ∧ d' = d := by
  obtain ⟨hpool, hvolume⟩ := valid_tokens (validPromotionRequest_incoming hvalid)
  have hforget : ∀ {m v}, d.marker m = none → S.Keeps (fun _ => True) d (removeMarker m v) fun r d' => r = .ok () ∧ d' = d := by
    intro m v hm
    refine keeps_change hS ?_
    simp only [hm]
    exact ⟨fun _ _ h => h, trivial, trivial⟩
  refine keeps_ensure_bind hvalid (keeps_granted hS hgrants ?_)
  refine keeps_view_bind (a := ()) openExisting_views hS (fun _ => openExisting_ok.mpr ⟨hpool, hd.pool⟩) ?_
  refine keeps_view_bind (a := ()) acquire_views hS (fun _ => acquire_ok.mpr ⟨hvolume, hd.pool⟩) ?_
  refine keeps_granted hS hgrants (keeps_bind (Keeps.mono (Q := fun r d' => r = .ok true ∧ d' = d) ?_ fun r d' h => ?_))
  · refine keeps_view_bind (ifExists_views readTransferReceipt_views) hS
      (fun _ => value_ifExists_some.mpr (readTransferReceipt_ok.mpr hd.settled.receipt)) ?_
    refine keeps_ensure_bind ⟨rfl, rfl⟩ (keeps_view_bind verifyServing_views hS hd.settled.serves ?_)
    refine keeps_bind (keeps_bind ((hforget hd.placement).mono fun r d' h => ?_))
    obtain ⟨rfl, rfl⟩ := h
    refine (hforget hd.copy).mono fun r d'' h => ?_
    obtain ⟨rfl, rfl⟩ := h
    exact keeps_pure ⟨rfl, rfl⟩
  · obtain ⟨rfl, rfl⟩ := h
    exact keeps_pure ⟨rfl, rfl⟩

/-! ### Occupied places -/

/-- Another directory is served, and the operation has no receipt for the incoming inode. -/
structure Occupied (incoming serving : CopyIdentity) (operationID : String) (id other : LiveID) (d : Disk) : Prop where
  placement : d.marker (.placement incoming.copyID) = some (.placement { identity := incoming, id := id.val })
  target : d.idAt .volumes serving.volumeID = some other
  receipt : ∀ receipt, d.marker (.promotionReceipt operationID) = some (.transfer receipt) → receipt.id ≠ id.val

variable (Api) in
def occupiedSetting (incoming serving : CopyIdentity) (operationID : String) (id other : LiveID) : Setting Api where
  later _ _ := True
  refl _ := trivial
  trans _ _ := trivial
  inv h := Occupied incoming serving operationID id other h.disk
  stable _ h := h

variable {other : LiveID}

theorem Occupied.sameBut (h : Occupied incoming serving operationID id other d) (hs : d.SameBut m d')
    (hplacement : .placement incoming.copyID ≠ m) (hreceipt : .promotionReceipt operationID ≠ m) :
    Occupied incoming serving operationID id other d' := by
  refine ⟨(hs.marker hplacement).trans h.placement, ?_, ?_⟩
  · unfold Disk.idAt
    rw [hs.find]
    exact h.target
  · rw [hs.marker hreceipt]
    exact h.receipt

theorem Occupied.makeArea (h : Occupied incoming serving operationID id other d) (area : Area) :
    Occupied incoming serving operationID id other (d.makeArea area) := by
  refine ⟨Disk.marker_makeArea.trans h.placement, ?_, ?_⟩
  · unfold Disk.idAt
    rw [Disk.find_makeArea]
    exact h.target
  · rw [Disk.marker_makeArea]
    exact h.receipt

theorem occupiedSetting_lasting :
    (occupiedSetting Api incoming serving operationID id other).Lasting fun _ => True := fun _ _ => trivial

theorem replayPromotionReceipt_occupied (hd : Occupied incoming serving operationID id other d) :
    (occupiedSetting Api incoming serving operationID id other).Keeps (fun _ => True) d
      (replayPromotionReceipt operationID incoming serving) fun r d' => ∀ b, r = .ok b → b = false ∧ d' = d := by
  refine keeps_view_cases (ifExists_views readTransferReceipt_views) occupiedSetting_lasting (fun found _ hfound => ?_) (by simp)
  cases found with
  | none =>
    refine keeps_pure fun b hb => ⟨?_, rfl⟩
    exact (Except.ok.inj hb).symm
  | some receipt =>
    refine keeps_bind (keeps_ensure (fun _ => ?_) (by simp))
    refine keeps_view_cases verifyServing_views occupiedSetting_lasting (fun _ _ _ => ?_) (by simp)
    refine keeps_bind (keeps_bind (keeps_change occupiedSetting_lasting ?_))
    have hreceipt := hd.receipt receipt (readTransferReceipt_ok.mp (value_ifExists_some.mp hfound))
    simp [hd.placement, hreceipt.symm]

theorem journalPromotion_occupied (hd : Occupied incoming serving operationID id other d) :
    (occupiedSetting Api incoming serving operationID id other).Keeps (fun _ => True) d
      (journalPromotion operationID incoming serving) fun r d' => ∀ intent, r = .ok intent →
        intent.id = id.val ∧ Occupied incoming serving operationID id other d' := by
  refine keeps_view_cases checkMarker_views occupiedSetting_lasting (fun _ _ _ => ?_) (by simp)
  refine keeps_view_bind readPlacement_views.mapError occupiedSetting_lasting
    (fun _ => value_mapError_ok.mpr (readPlacement_ok.mpr hd.placement)) ?_
  refine keeps_ensure_bind rfl (keeps_bind (keeps_ensureMarker_any occupiedSetting_lasting (fun d₁ hs₁ _ => ?_) (by simp)))
  have hd₁ := hd.sameBut hs₁ (by simp) (by simp)
  refine ⟨fun _ _ _ => hd₁, keeps_bind (keeps_ensureMarker_any occupiedSetting_lasting (fun d₂ hs₂ _ => ?_) (by simp))⟩
  have hd₂ := hd₁.sameBut hs₂ (by simp) (by simp)
  refine ⟨fun _ _ _ => hd₂, keeps_pure fun intent hr => ?_⟩
  obtain rfl := Except.ok.inj hr
  exact ⟨rfl, hd₂⟩

theorem publishPromotedDirectory_occupied {intent : TransferIntent}
    (hd : Occupied incoming serving operationID id other d) :
    (occupiedSetting Api incoming serving operationID id other).Keeps (fun _ => True) d
      (publishPromotedDirectory intent incoming serving) fun r d' => r = .ok () → d' = d := by
  refine keeps_view_cases (ifExists_views openIdentityDirectory_views) occupiedSetting_lasting (fun source _ _ => ?_) (by simp)
  cases source with
  | none => exact keeps_pure fun _ => rfl
  | some _ =>
    refine keeps_view_bind (ifExists_views openDirectory_views) occupiedSetting_lasting
      (fun _ => value_ifExists_some.mpr (openDirectory_ok.mpr hd.target)) ?_
    exact keeps_fail (by simp)

theorem promoteIncoming_occupied (hne : other ≠ id)
    (hd : Occupied incoming serving operationID id other d) :
    (occupiedSetting Api incoming serving operationID id other).Keeps (fun _ => True) d
      (promoteIncoming incoming serving operationID authority) fun r _ => r ≠ .ok () := by
  refine keeps_bind (keeps_ensure (fun _ => ?_) (by simp))
  refine keeps_consult occupiedSetting_lasting (fun _ ha => ha) (fun _ ha _ _ => ⟨ha, ?_⟩) (by simp)
  refine keeps_view_cases openExisting_views occupiedSetting_lasting (fun _ _ _ => ?_) (by simp)
  refine keeps_view_cases acquire_views occupiedSetting_lasting (fun _ _ _ => ?_) (by simp)
  refine keeps_consult occupiedSetting_lasting (fun _ ha => ha) (fun _ ha _ _ => ⟨ha, ?_⟩) (by simp)
  refine keeps_bind ((replayPromotionReceipt_occupied hd).mono fun r d₁ h => ?_)
  rcases r with e | replayed
  · simp
  obtain ⟨rfl, rfl⟩ := h replayed rfl
  refine keeps_bind ((journalPromotion_occupied hd).mono fun r d₂ h => ?_)
  rcases r with e | intent
  · simp
  obtain ⟨hid, hd₂⟩ := h intent rfl
  refine keeps_view_cases openArea_views occupiedSetting_lasting (fun _ _ _ => ?_) (by simp)
  refine keeps_bind (keeps_change occupiedSetting_lasting ⟨fun _ _ _ => hd₂.makeArea .volumes, ?_⟩)
  refine keeps_bind ((publishPromotedDirectory_occupied (hd₂.makeArea .volumes)).mono fun r d₃ h => ?_)
  rcases r with e | _
  · simp
  obtain rfl := h rfl
  -- the directory found in the serving place is not the journaled one
  refine keeps_bind (keeps_view_bind openDirectory_views occupiedSetting_lasting
    (fun _ => openDirectory_ok.mpr (hd₂.makeArea .volumes).target) ?_)
  refine keeps_bind (keeps_ensure (fun hsame => ?_) (by simp))
  exact absurd (Subtype.ext (hsame.trans hid)) hne

/-! ### Sequences of runs -/

/-- The incoming copy is recorded with its inode, nothing stands in the serving place, and what the operation would
    write is not written yet, or is written already. -/
structure PromotionStart (incoming serving : CopyIdentity) (operationID : String) (id : LiveID) (contents : Contents)
    (d : Disk) : Prop where
  valid : validPromotionRequest incoming serving operationID
  pool : d.marker .pool = some (.pool { installationID := incoming.installationID, poolUID := incoming.poolUID })
  copy : d.marker (.copy incoming.copyID) = some (.copy incoming)
  placement : d.marker (.placement incoming.copyID) = some (.placement { identity := incoming, id := id.val })
  source : d.find .incoming incoming.copyID = some (.directory id contents)
  target : d.find .volumes serving.volumeID = none
  intent : d.marker (.promotion operationID) = none ∨
    d.marker (.promotion operationID) = some (.promotion { operationID, incoming, destination := serving, id := id.val })
  destination : d.marker (.copy serving.copyID) = none ∨ d.marker (.copy serving.copyID) = some (.copy serving)
  sealed : d.marker (.placement serving.copyID) = none ∨
    d.marker (.placement serving.copyID) = some (.placement { identity := serving, id := id.val })
  receipt : d.marker (.promotionReceipt operationID) = none

theorem PromotionStart.promoting (h : PromotionStart incoming serving operationID id contents d) :
    Promoting incoming serving operationID id contents d :=
  ⟨h.pool, Disk.areas_of_find h.source,
    .waiting ⟨h.source, h.target⟩ ⟨h.copy, h.placement, h.sealed, h.receipt⟩ h.intent h.destination⟩

variable (Api) in
def stillSetting (final : Host Api) : Setting Api where
  later a b := a = b
  refl _ := rfl
  trans := Eq.trans
  inv h := h = final
  stable hsame h := hsame ▸ h

/-- However often and wherever the promotions of a copy are stopped, the next one succeeds and leaves the inode in the
    serving place, with its placement and receipt and nothing of the incoming copy; after that no run changes
    anything. What is served already is never touched, and while it is another directory no run succeeds. -/
theorem promotion_resumes (hgrants : ∀ api, authority api = .ok ()) {h h' : Host Api}
    (hruns : Relation.ReflTransGen (promoteIncoming incoming serving operationID authority).Stopped h h') :
    (∀ id contents, PromotionStart incoming serving operationID id contents h.disk →
      ∃ final, (promoteIncoming incoming serving operationID authority).run h' = (.ok (), final) ∧
        final.disk.idAt .volumes serving.volumeID = some id ∧
        final.disk.marker (.placement serving.copyID) = some (.placement { identity := serving, id := id.val }) ∧
        final.disk.marker (.promotionReceipt operationID) =
          some (.transfer { operationID, identity := serving, id := id.val }) ∧
        final.disk.find .incoming incoming.copyID = none ∧ final.disk.marker (.placement incoming.copyID) = none ∧
        final.disk.marker (.copy incoming.copyID) = none ∧
        (promoteIncoming incoming serving operationID authority).run final = (.ok (), final) ∧
        ∀ t, (promoteIncoming incoming serving operationID authority).Stopped final t → t = final) ∧
    (∀ entry, h.disk.find .volumes serving.volumeID = some entry → h'.disk.find .volumes serving.volumeID = some entry) ∧
    ∀ id other, h.disk.marker (.placement incoming.copyID) = some (.placement { identity := incoming, id := id.val }) →
      h.disk.idAt .volumes serving.volumeID = some other → other ≠ id →
      (∀ receipt, h.disk.marker (.promotionReceipt operationID) = some (.transfer receipt) → receipt.id ≠ id.val) →
      ∃ e, ((promoteIncoming incoming serving operationID authority).run h').1 = .error e := by
  refine ⟨fun id contents hstart => ?_, fun entry hserved => ?_, fun id other hplacement htarget hne hreceipt => ?_⟩
  · have hkeeps : ∀ t : Host Api, Promoting incoming serving operationID id contents t.disk →
        (promoteIncoming incoming serving operationID authority).Meets (· = ·)
          (fun _ u => Promoting incoming serving operationID id contents u.disk)
          (fun r u => r = .ok () ∧ Promoted incoming serving operationID id contents u.disk) t := fun t ht =>
      (promoteIncoming_keeps hgrants hstart.valid ht).alone ht
    have hd := Proc.stopped_runs (I := fun t => Promoting incoming serving operationID id contents t.disk) hkeeps
      hstart.promoting hruns
    have hfinished : ∀ final : Host Api, Promoted incoming serving operationID id contents final.disk →
        (promoteIncoming incoming serving operationID authority).run final = (.ok (), final) ∧
          ∀ t, (promoteIncoming incoming serving operationID authority).Stopped final t → t = final := by
      intro final hdone
      have hstill := (promoteIncoming_promoted (S := stillSetting Api final) (fun _ _ => trivial) hgrants hstart.valid
        hdone).alone rfl
      have hunchanged : ∀ t, (promoteIncoming incoming serving operationID authority).Stopped final t → t = final :=
        fun t ht => hstill.stopped (I := fun t => t = final) rfl ht
      exact ⟨Prod.ext hstill.run.1 (hunchanged _ (Proc.stopped_run _ _)), hunchanged⟩
    obtain ⟨hok, hdone⟩ := (hkeeps h' hd).run
    exact ⟨_, Prod.ext hok rfl, Disk.idAt_eq_some.mpr ⟨contents, hdone.settled.published.target⟩, hdone.settled.sealed,
      hdone.settled.receipt, hdone.settled.published.source, hdone.placement, hdone.copy, hfinished _ hdone⟩
  · exact Proc.stopped_runs (I := fun t => t.disk.find .volumes serving.volumeID = some entry)
      (fun t ht => promoteIncoming_transfers.keeps (fun hsame ht => hsame ▸ ht) (fun hstep ht => hstep.2.served ht) ht)
      hserved hruns
  · have hkeeps : ∀ t : Host Api, Occupied incoming serving operationID id other t.disk →
        (promoteIncoming incoming serving operationID authority).Meets (· = ·)
          (fun _ u => Occupied incoming serving operationID id other u.disk) (fun r _ => r ≠ .ok ()) t := fun t ht =>
      (promoteIncoming_occupied hne ht).alone ht
    have hd := Proc.stopped_runs (I := fun t => Occupied incoming serving operationID id other t.disk) hkeeps
      ⟨hplacement, htarget, hreceipt⟩ hruns
    have hrun := (hkeeps h' hd).run
    cases hr : ((promoteIncoming incoming serving operationID authority).run h').1 with
    | ok _ => exact absurd hr hrun
    | error e => exact ⟨e, rfl⟩

end Promotion

/-! ### A promotion on one disk -/

def incomingCopy : CopyIdentity where
  installationID := "install"
  poolName := "pool-b"
  poolUID := "pool-b-uid"
  volumeID := "shiftpv-0123456789abcdef0123456789abcdef"
  volumeUID := "volume-1"
  copyID := "incoming-1"
  nodeName := "node-b"
  role := .incoming

def destinationCopy : CopyIdentity := { incomingCopy with copyID := "destination-1", role := .serving }

def incomingID : LiveID := ⟨⟨1, 9⟩, rfl⟩

def incomingDisk (m : MarkerName) (value : Marker) : Disk where
  areas
    | .incoming => some (AList.insert incomingCopy.copyID (.directory incomingID (.file "data" .empty)) ∅)
    | _ => none
  markers := AList.insert m value <| AList.insert .pool (.pool ⟨"install", "pool-b-uid"⟩) <|
    AList.insert (.copy incomingCopy.copyID) (.copy incomingCopy) <|
      AList.insert (.placement incomingCopy.copyID) (.placement ⟨incomingCopy, incomingID.val⟩) ∅

def promoteIncomingCopy : NodeOp Unit Unit := promoteIncoming incomingCopy destinationCopy "move-1" fun _ => .ok ()

theorem incomingDisk_start : PromotionStart incomingCopy destinationCopy "move-1" incomingID (.file "data" .empty)
    (incomingDisk (.copyReceipt "move-1") (.transfer ⟨"move-1", incomingCopy, incomingID.val⟩)) where
  valid := by decide +kernel
  pool := rfl
  copy := rfl
  placement := rfl
  source := rfl
  target := rfl
  intent := Or.inl rfl
  destination := Or.inl rfl
  sealed := Or.inl rfl
  receipt := rfl

/-- A promotion that was stopped right after the directory moved is finished by the next one. -/
theorem promotion_resumes_published :
    ∃ h' final, ((promoteIncomingCopy.after 14
        ⟨incomingDisk (.copyReceipt "move-1") (.transfer ⟨"move-1", incomingCopy, incomingID.val⟩), ()⟩).2 = h' ∧
      h'.disk.idAt .volumes destinationCopy.volumeID = some incomingID ∧
      h'.disk.marker (.placement destinationCopy.copyID) = none) ∧
      promoteIncomingCopy.run h' = (.ok (), final) ∧
      final.disk.marker (.placement destinationCopy.copyID) = some (.placement ⟨destinationCopy, incomingID.val⟩) ∧
      final.disk.marker (.copy incomingCopy.copyID) = none := by
  have hruns : Relation.ReflTransGen promoteIncomingCopy.Stopped
      ⟨incomingDisk (.copyReceipt "move-1") (.transfer ⟨"move-1", incomingCopy, incomingID.val⟩), ()⟩
      (promoteIncomingCopy.after 14
        ⟨incomingDisk (.copyReceipt "move-1") (.transfer ⟨"move-1", incomingCopy, incomingID.val⟩), ()⟩).2 :=
    .single ⟨14, rfl⟩
  obtain ⟨final, hrun, -, hsealed, -, -, -, hcopy, -⟩ :=
    (promotion_resumes (fun _ => rfl) hruns).1 incomingID _ incomingDisk_start
  exact ⟨_, final, ⟨rfl, rfl, rfl⟩, hrun, hsealed, hcopy⟩

/-- An intent that the operation recorded for an earlier directory of the copy is never replaced. -/
theorem stale_intent_refused :
    let stale := incomingDisk (.promotion "move-1") (.promotion ⟨"move-1", incomingCopy, destinationCopy, ⟨1, 3⟩⟩)
    stale.marker (.copy incomingCopy.copyID) = some (.copy incomingCopy) ∧
      stale.marker (.placement incomingCopy.copyID) = some (.placement ⟨incomingCopy, incomingID.val⟩) ∧
      stale.idAt .incoming incomingCopy.copyID = some incomingID ∧ stale.find .volumes destinationCopy.volumeID = none ∧
      (promoteIncomingCopy.run ⟨stale, ()⟩).1 = .error .identity := by
  refine ⟨rfl, rfl, rfl, rfl, rfl⟩

end ShiftPV

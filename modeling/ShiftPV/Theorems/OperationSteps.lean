import ShiftPV.Theorems.NodeLogic

/-! The calls that the operations of a node are made of. What an operation writes is said once, as the calls it makes: a
    property of steps that these calls have, every step of the operation has. -/

namespace ShiftPV
open NodeOp

variable {Api α : Type}

structure Permits where
  marks : MarkerName → Marker → Prop
  unmarks : MarkerName → Prop
  moves : Area → Area → Prop
  fills : Area → Prop
  removes : Area → Prop

structure Admits (G : Host Api → Host Api → Prop) (P : Permits) : Prop where
  look : ∀ h, G h h
  area : ∀ {area}, (openOrCreateDirectory area : NodeOp Api Unit).Does G
  mark : ∀ {m v}, P.marks m v → (ensureMarker m v : NodeOp Api Unit).Does G
  unmark : ∀ {m v}, P.unmarks m → (removeMarker m v : NodeOp Api Unit).Does G
  make : ∀ {name fresh}, (makeDirectory .incoming name fresh : NodeOp Api Unit).Does G
  fill : ∀ {area name contents} {h : Host Api}, P.fills area → G h { h with disk := h.disk.setContents area name contents }
  move : ∀ {area name target targetName}, P.moves area target →
    (renameDirectory area name target targetName : NodeOp Api Unit).Does G
  remove : ∀ {area name}, P.removes area → (removeDirectory area name : NodeOp Api Unit).Does G

theorem change_does {G : Host Api → Host Api → Prop} {f : Disk → Except Fault (α × Disk)} (hlook : ∀ h, G h h)
    (hf : ∀ {h a d}, f h.disk = .ok (a, d) → G h { h with disk := d }) : (change f : NodeOp Api α).Does G := by
  refine Proc.Does.atomic hlook fun {h a t} hstep => ?_
  cases hd : f h.disk with
  | error e => simp [hd, Except.map] at hstep
  | ok v =>
    obtain ⟨b, d⟩ := v
    simp only [hd, Except.map, Except.ok.injEq, Prod.mk.injEq] at hstep
    obtain ⟨-, rfl⟩ := hstep
    exact hf hd

/-! What the calls do to the disk. -/

section Calls

variable {G : Host Api → Host Api → Prop} {area target : Area} {name targetName : String} {m : MarkerName} {v : Marker}
  {fresh : LiveID}

theorem ensureMarker_does (hlook : ∀ h, G h h) (hput : ∀ {h : Host Api}, h.disk.marker m = none →
    G h { h with disk := h.disk.putMarker m v }) : (ensureMarker m v : NodeOp Api Unit).Does G := by
  refine change_does hlook fun {h a d} hstep => ?_
  cases hfound : h.disk.marker m with
  | none =>
    simp only [hfound, Except.ok.injEq, Prod.mk.injEq] at hstep
    obtain ⟨-, rfl⟩ := hstep
    exact hput hfound
  | some found =>
    simp only [hfound] at hstep
    split at hstep
    · obtain ⟨-, rfl⟩ := Prod.mk.inj (Except.ok.inj hstep)
      exact hlook h
    · simp at hstep

theorem removeMarker_does (hlook : ∀ h, G h h) (herase : ∀ h : Host Api, G h { h with disk := h.disk.eraseMarker m }) :
    (removeMarker m v : NodeOp Api Unit).Does G := by
  refine change_does hlook fun {h a d} hstep => ?_
  cases hfound : h.disk.marker m with
  | none =>
    simp only [hfound, Except.ok.injEq, Prod.mk.injEq] at hstep
    obtain ⟨-, rfl⟩ := hstep
    exact hlook h
  | some found =>
    simp only [hfound] at hstep
    split at hstep
    · obtain ⟨-, rfl⟩ := Prod.mk.inj (Except.ok.inj hstep)
      exact herase h
    · simp at hstep

theorem openOrCreateDirectory_does (hlook : ∀ h, G h h)
    (hmake : ∀ h : Host Api, G h { h with disk := h.disk.makeArea area }) :
    (openOrCreateDirectory area : NodeOp Api Unit).Does G := by
  refine change_does hlook fun {h a d} hstep => ?_
  obtain ⟨-, rfl⟩ := Prod.mk.inj (Except.ok.inj hstep)
  exact hmake h

theorem makeDirectory_does (hlook : ∀ h, G h h)
    (hmake : ∀ {h : Host Api}, h.disk.find area name = none → ¬h.disk.uses fresh →
      G h { h with disk := h.disk.put area name (.directory fresh .empty) }) :
    (makeDirectory area name fresh : NodeOp Api Unit).Does G := by
  refine change_does hlook fun {h a d} hstep => ?_
  split at hstep
  · simp at hstep
  · split at hstep
    · simp at hstep
    · rename_i hvacant hfresh
      obtain ⟨-, rfl⟩ := Prod.mk.inj (Except.ok.inj hstep)
      exact hmake (by simpa using hvacant) (by simpa using hfresh)

theorem renameDirectory_does (hlook : ∀ h, G h h)
    (hmove : ∀ {h : Host Api} {entry}, h.disk.find area name = some entry → h.disk.find target targetName = none →
      G h { h with disk := (h.disk.erase area name).put target targetName entry }) :
    (renameDirectory area name target targetName : NodeOp Api Unit).Does G := by
  refine change_does hlook fun {h a d} hstep => ?_
  cases hsource : h.disk.find area name with
  | none => simp [hsource] at hstep
  | some entry =>
    cases hvacant : h.disk.find target targetName with
    | some _ => simp [hsource, hvacant] at hstep
    | none =>
      simp only [hsource, hvacant, Except.ok.injEq, Prod.mk.injEq] at hstep
      obtain ⟨-, rfl⟩ := hstep
      exact hmove hsource hvacant

theorem removeDirectory_does (hlook : ∀ h, G h h)
    (herase : ∀ h : Host Api, G h { h with disk := h.disk.erase area name }) :
    (removeDirectory area name : NodeOp Api Unit).Does G := by
  refine change_does hlook fun {h a d} hstep => ?_
  split at hstep
  · obtain ⟨-, rfl⟩ := Prod.mk.inj (Except.ok.inj hstep)
    exact herase h
  all_goals simp at hstep

end Calls

/-! Checks that only look. -/

section Views

variable {identity target : CopyIdentity}

theorem verifyIncoming_views : (verifyIncoming identity : NodeOp Api Unit).Views Host.disk :=
  Proc.Views.ensure.bind fun _ => checkMarker_views.bind fun _ => readPlacement_views.bind fun _ => openArea_views.bind fun _ =>
    verifyPath_views

theorem observeCreationPath_views {path : CreationPath} {requireEmpty : Bool} :
    (observeCreationPath target path requireEmpty : NodeOp Api (Option FileID)).Views Host.disk := by
  refine (ifExists_views openArea_views).bind fun found => ?_
  cases found with
  | none => exact .pure
  | some _ =>
    refine (ifExists_views openDirectory_views.mapError).bind fun id => ?_
    cases id with
    | none => exact .pure
    | some id =>
      cases requireEmpty with
      | false => exact .pure
      | true => exact look_views.bind fun _ => Proc.Views.ensure.bind fun _ => .pure

theorem observeCreationSource_views {emptyStage : Bool} :
    (observeCreationSource target emptyStage : NodeOp Api (Option (CreationPath × FileID))).Views Host.disk := by
  refine (ifExists_views openArea_views).bind fun found => ?_
  cases found
  case' some => refine look_views.bind fun _ => ?_
  all_goals
    refine Proc.Views.ensure.bind fun _ => observeCreationPath_views.bind fun _ => observeCreationPath_views.bind fun _ => ?_
    exact Proc.Views.ensure.bind fun _ => observeCreationPath_views.bind fun _ => Proc.Views.ensure.bind fun _ => .pure

theorem verifyCreationAbsent_views : (verifyCreationAbsent target : NodeOp Api Unit).Views Host.disk :=
  observeCreationSource_views.bind fun _ => .ensure

end Views

/-! ### The operations -/

namespace Admits

variable {G : Host Api → Host Api → Prop} {P : Permits} {p : NodeOp Api α} {identity incoming serving target : CopyIdentity}
  {operationID name : String} {fresh : LiveID} {id : FileID} {pool : PoolIdentity} {intent : LocalIntent}
  {authority : Api → Except Fault Unit} {resumable : Bool → Api → Except Fault Unit} {receiptDigest : Receipt → String}

theorem views (hG : Admits G P) (hp : p.Views Host.disk) : p.Does G := hp.does hG.look

theorem consult (hG : Admits G P) : (NodeOp.consult authority).Does G := .read hG.look

theorem openStore (hG : Admits G P) (hpool : P.marks .pool (.pool pool)) : (NodeOp.openStore pool : NodeOp Api Unit).Does G :=
  Proc.Does.ensure.bind fun _ => hG.mark hpool

theorem removeCopyMetadata (hG : Admits G P) (hplacement : P.unmarks (.placement identity.copyID))
    (hcopy : P.unmarks (.copy identity.copyID)) : (NodeOp.removeCopyMetadata identity id : NodeOp Api Unit).Does G :=
  (hG.unmark hplacement).bind fun _ => hG.unmark hcopy

theorem makeOrKeepDirectory (hG : Admits G P) : (NodeOp.makeOrKeepDirectory .incoming name fresh : NodeOp Api Unit).Does G := by
  refine hG.make.attempt.bind fun r => ?_
  split
  · exact .pure
  · exact .pure
  · exact .fail

/-! Creations. -/

theorem publishServingCopy {record : Placement} (hG : Admits G P) (hmove : P.moves .incoming .volumes) :
    (NodeOp.publishServingCopy identity record : NodeOp Api Unit).Does G := by
  refine (hG.move hmove).attempt.bind fun r => ?_
  split
  · exact hG.views verifyPath_views
  · exact .fail
  · exact .fail

theorem resumeServingPlacement {record : Placement} {markerExisted : Bool} (hG : Admits G P) :
    (NodeOp.resumeServingPlacement identity record markerExisted : NodeOp Api Bool).Does G := by
  refine Proc.Does.ensure.bind fun _ => Proc.Does.ensure.bind fun _ => ?_
  refine (hG.views (ifExists_views verifyPath_views)).bind fun found => ?_
  cases found with
  | some _ => exact .pure
  | none => exact (hG.views verifyPath_views).bind fun _ => .pure

theorem stageServingCopy {markerExisted : Bool} (hG : Admits G P) (hcopy : P.marks (.copy identity.copyID) (.copy identity))
    (hplacement : ∀ id, P.marks (.placement identity.copyID) (.placement { identity, id })) :
    (NodeOp.stageServingCopy identity fresh markerExisted : NodeOp Api Placement).Does G := by
  refine (hG.views look_views).bind fun _ => Proc.Does.ensure.bind fun _ => (hG.views look_views).bind fun _ => ?_
  have hmade : (do
      NodeOp.makeOrKeepDirectory .incoming (stageName identity) fresh
      let id ← openDirectory .incoming (stageName identity)
      let record : Placement := { identity, id := id.val }
      ensureMarker (.placement identity.copyID) (.placement record)
      return record : NodeOp Api Placement).Does G :=
    hG.makeOrKeepDirectory.bind fun _ => (hG.views openDirectory_views).bind fun _ => (hG.mark (hplacement _)).bind fun _ => .pure
  split
  · exact Proc.Does.ensure.bind fun _ => (hG.mark hcopy).bind fun _ => hmade
  · exact hmade

theorem prepareServing (hG : Admits G P)
    (hpool : P.marks .pool (.pool { installationID := identity.installationID, poolUID := identity.poolUID }))
    (hserving : identity.role = .serving → P.marks (.copy identity.copyID) (.copy identity) ∧
      ∀ id, P.marks (.placement identity.copyID) (.placement { identity, id }))
    (hmove : P.moves .incoming .volumes) : (NodeOp.prepareServing identity fresh authority).Does G := by
  refine hG.consult.bind fun _ => (hG.openStore hpool).bind fun _ => (hG.views acquire_views).bind fun _ => ?_
  refine hG.consult.bind fun _ => Proc.Does.bind ?_ fun _ => hG.consult
  refine Proc.Does.after_ensure fun hrole => Proc.Does.ensure.bind fun _ => ?_
  obtain ⟨hcopy, hplacement⟩ := hserving hrole
  refine (hG.views copyMarkerExists_views).bind fun _ => hG.area.bind fun _ => hG.area.bind fun _ => ?_
  refine (hG.views (ifExists_views readPlacement_views)).bind fun found => ?_
  cases found with
  | some record =>
    refine hG.resumeServingPlacement.bind fun served => ?_
    cases served with
    | true => exact .pure
    | false => exact hG.publishServingCopy hmove
  | none => exact (hG.stageServingCopy hcopy hplacement).bind fun _ => hG.publishServingCopy hmove

/-! Copies. -/

theorem ensureIncoming (hG : Admits G P) (hcopy : P.marks (.copy identity.copyID) (.copy identity))
    (hplacement : ∀ id, P.marks (.placement identity.copyID) (.placement { identity, id })) :
    (NodeOp.ensureIncoming identity fresh : NodeOp Api Unit).Does G := by
  refine (hG.views copyMarkerExists_views).bind fun markerExisted => hG.area.bind fun _ => ?_
  refine (hG.views (ifExists_views readPlacement_views)).bind fun found => ?_
  have hmade : (do
      NodeOp.makeOrKeepDirectory .incoming identity.copyID fresh
      let id ← openDirectory .incoming identity.copyID
      (ensureMarker (.placement identity.copyID) (.placement { identity, id := id.val })).mapError fun _ =>
        .needsReview "incoming directory created before placement receipt" : NodeOp Api Unit).Does G :=
    hG.makeOrKeepDirectory.bind fun _ => (hG.views openDirectory_views).bind fun _ => (hG.mark (hplacement _)).mapError
  cases found with
  | some current => exact Proc.Does.ensure.bind fun _ => hG.views verifyPath_views
  | none =>
    refine (hG.views look_views).bind fun directoryExists => ?_
    split
    · exact Proc.Does.ensure.bind fun _ => (hG.mark hcopy).bind fun _ => hmade
    · exact hmade

theorem populate {population : Population} (hG : Admits G P) (hfill : P.fills .incoming) :
    (NodeOp.populate name population : NodeOp Api Unit).Does G := by
  refine Proc.Does.bind (Proc.Does.forEach (fun contents => change_does hG.look fun {h a d} hstep => ?_) _) fun _ => trivial
  obtain ⟨-, rfl⟩ := Prod.mk.inj (Except.ok.inj hstep)
  exact hG.fill hfill

theorem populateIncoming {population : Population} (hG : Admits G P)
    (hpool : P.marks .pool (.pool { installationID := identity.installationID, poolUID := identity.poolUID }))
    (hcopy : P.marks (.copy identity.copyID) (.copy identity))
    (hplacement : ∀ id, P.marks (.placement identity.copyID) (.placement { identity, id }))
    (hreceipt : ∀ id, P.marks (.copyReceipt operationID) (.transfer { operationID, identity, id })) (hfill : P.fills .incoming) :
    (NodeOp.populateIncoming identity operationID fresh population authority).Does G := by
  refine Proc.Does.ensure.bind fun _ => hG.consult.bind fun _ => (hG.openStore hpool).bind fun _ => ?_
  refine (hG.views acquire_views).bind fun _ => hG.consult.bind fun _ => (hG.ensureIncoming hcopy hplacement).bind fun _ => ?_
  refine (hG.views (ifExists_views readTransferReceipt_views)).bind fun found => ?_
  cases found with
  | some receipt => exact Proc.Does.ensure.bind fun _ => hG.views verifyIncoming_views
  | none =>
    refine (hG.populate hfill).bind fun _ => hG.consult.bind fun _ => ?_
    refine (hG.views readPlacement_views.mapError).bind fun _ => (hG.views verifyIncoming_views.mapError).bind fun _ => ?_
    exact (hG.mark (hreceipt _)).bind fun _ => hG.consult

/-! Promotions. -/

theorem replayPromotionReceipt (hG : Admits G P) (hplacement : P.unmarks (.placement incoming.copyID))
    (hcopy : P.unmarks (.copy incoming.copyID)) :
    (NodeOp.replayPromotionReceipt operationID incoming serving : NodeOp Api Bool).Does G := by
  refine (hG.views (ifExists_views readTransferReceipt_views)).bind fun found => ?_
  cases found with
  | none => exact .pure
  | some receipt =>
    exact Proc.Does.ensure.bind fun _ => (hG.views verifyServing_views).bind fun _ =>
      (hG.removeCopyMetadata hplacement hcopy).bind fun _ => .pure

theorem journalPromotion (hG : Admits G P) (hintent : ∀ intent, P.marks (.promotion operationID) (.promotion intent))
    (hserving : P.marks (.copy serving.copyID) (.copy serving)) :
    (NodeOp.journalPromotion operationID incoming serving : NodeOp Api TransferIntent).Does G := by
  refine (hG.views checkMarker_views).bind fun _ => (hG.views readPlacement_views.mapError).bind fun placed => ?_
  exact Proc.Does.ensure.bind fun _ => (hG.mark (hintent _)).bind fun _ => (hG.mark hserving).bind fun _ => .pure

theorem publishPromotedDirectory {intent : TransferIntent} (hG : Admits G P) (hmove : P.moves .incoming .volumes) :
    (NodeOp.publishPromotedDirectory intent incoming serving : NodeOp Api Unit).Does G := by
  refine (hG.views (ifExists_views openIdentityDirectory_views)).bind fun source => ?_
  cases source with
  | none => exact .pure
  | some _ =>
    refine (hG.views (ifExists_views openDirectory_views)).bind fun target => ?_
    cases target with
    | some _ => exact .fail
    | none => exact hG.move hmove

theorem promoteIncoming (hG : Admits G P) (hplacement : P.unmarks (.placement incoming.copyID))
    (hcopy : P.unmarks (.copy incoming.copyID)) (hintent : ∀ intent, P.marks (.promotion operationID) (.promotion intent))
    (hserving : serving.role = .serving → P.marks (.copy serving.copyID) (.copy serving) ∧
      ∀ id, P.marks (.placement serving.copyID) (.placement { identity := serving, id }))
    (hreceipt : ∀ receipt, P.marks (.promotionReceipt operationID) (.transfer receipt)) (hmove : P.moves .incoming .volumes) :
    (NodeOp.promoteIncoming incoming serving operationID authority).Does G := by
  refine Proc.Does.after_ensure fun hvalid => hG.consult.bind fun _ => (hG.views openExisting_views).bind fun _ => ?_
  have hrole : serving.role = .serving := by
    simp only [validPromotionRequest, Bool.and_eq_true, decide_eq_true_eq] at hvalid
    tauto
  obtain ⟨hservingCopy, hservingPlacement⟩ := hserving hrole
  refine (hG.views acquire_views).bind fun _ => hG.consult.bind fun _ => ?_
  refine (hG.replayPromotionReceipt hplacement hcopy).bind fun replayed => ?_
  cases replayed with
  | true => exact .pure
  | false =>
    refine (hG.journalPromotion hintent hservingCopy).bind fun intent => (hG.views openArea_views).bind fun _ => ?_
    refine hG.area.bind fun _ => (hG.publishPromotedDirectory hmove).bind fun _ => Proc.Does.bind ?_ fun placed => ?_
    · exact (hG.views openDirectory_views).bind fun _ => Proc.Does.ensure.bind fun _ =>
        (hG.mark (hservingPlacement _)).bind fun _ => .pure
    · exact hG.consult.bind fun _ => (hG.mark (hreceipt _)).bind fun _ => hG.consult.bind fun _ =>
        (hG.removeCopyMetadata hplacement hcopy).mapError.bind fun _ => hG.consult

/-! Reclaims. -/

theorem retire (hG : Admits G P)
    (hmove : ∀ {area name}, rolePath target = some (area, name) → target.role ≠ .retired → P.moves area .retired) :
    (NodeOp.retire target intent : NodeOp Api Unit).Does G := by
  refine hG.area.bind fun _ => ?_
  unfold openRoleParent
  cases hplace : rolePath target with
  | none => exact .fail
  | some place =>
    obtain ⟨area, name⟩ := place
    simp only [Proc.bind_assoc]
    refine (hG.views openArea_views).bind fun _ => (hG.views openIdentityDirectory_views.attempt).bind fun source => ?_
    split
    · split
      · exact .pure
      · split
        · exact .pure
        · exact .fail
    · rename_i hrole
      refine (hG.views openIdentityDirectory_views.attempt).bind fun destination => ?_
      split
      · exact .fail
      · split
        · exact hG.move (hmove hplace hrole)
        · exact .fail
      · split
        · exact .pure
        · exact .fail
      · split
        · exact .fail
        · split
          · exact .pure
          · exact .fail

theorem purgeRetired (hG : Admits G P) (hfill : P.fills .retired) (hremove : P.removes .retired) :
    (NodeOp.purgeRetired intent : NodeOp Api Unit).Does G := by
  refine (hG.views openArea_views).bind fun _ => (hG.views (ifExists_views openDirectory_views)).bind fun found => ?_
  cases found with
  | none => exact .pure
  | some id =>
    have hpurge : ((purgeContents 257).zoom (fun h : Host Api => h.disk.contentsAt .retired intent.target.copyID)
        fun contents h => { h with disk := h.disk.setContents .retired intent.target.copyID contents }).Does G :=
      .zoom fun _ _ => hG.fill hfill
    exact Proc.Does.ensure.bind fun _ => hpurge.bind fun _ => hG.remove hremove

theorem settleReclaim (hG : Admits G P) (hreceipt : ∀ receipt, P.marks (.receipt operationID) (.receipt receipt))
    (hplacement : P.unmarks (.placement target.copyID)) (hcopy : P.unmarks (.copy target.copyID)) :
    (NodeOp.settleReclaim receiptDigest target operationID intent : NodeOp Api (Receipt × String)).Does G :=
  (hG.mark (hreceipt _)).mapError.bind fun _ => (hG.views verifyAbsent_views.mapError).bind fun _ =>
    (hG.removeCopyMetadata hplacement hcopy).mapError.bind fun _ => .pure

theorem replayReclaimReceipt (hG : Admits G P) (hplacement : P.unmarks (.placement target.copyID))
    (hcopy : P.unmarks (.copy target.copyID)) :
    (NodeOp.replayReclaimReceipt receiptDigest target operationID resumable).Does G := by
  refine (hG.views readReceipt_views).bind fun found => ?_
  cases found with
  | none => exact .pure
  | some completed =>
    exact Proc.Does.ensure.bind fun _ => hG.consult.bind fun _ => (hG.views verifyAbsent_views).bind fun _ =>
      (hG.removeCopyMetadata hplacement hcopy).mapError.bind fun _ => .pure

theorem ensureLocalIntent {placed : Placement} (hG : Admits G P)
    (hintent : ∀ intent, P.marks (.cleanup operationID) (.cleanup intent)) :
    (NodeOp.ensureLocalIntent target operationID placed : NodeOp Api LocalIntent).Does G := by
  refine (hG.views (ifExists_views readMarker_views)).bind fun found => ?_
  cases found with
  | some existing => exact Proc.Does.ensure.bind fun _ => .pure
  | none => exact (hG.views verifyCurrentPath_views).bind fun _ => (hG.mark (hintent _)).bind fun _ => .pure

theorem confirmFreshReclaimTarget {intent : Option LocalIntent} (hG : Admits G P)
    (hintent : ∀ intent, P.marks (.cleanup operationID) (.cleanup intent)) :
    (NodeOp.confirmFreshReclaimTarget target operationID intent : NodeOp Api LocalIntent).Does G := by
  refine (hG.views checkMarker_views.mapError).bind fun _ => ?_
  refine (hG.views readPlacement_views.mapError.mapError).bind fun placed => Proc.Does.ensure.bind fun _ => ?_
  cases intent with
  | some intent => exact Proc.Does.ensure.bind fun _ => .pure
  | none => exact (hG.ensureLocalIntent hintent).mapError

theorem prepareReclaimIntent (hG : Admits G P) (hintent : ∀ intent, P.marks (.cleanup operationID) (.cleanup intent)) :
    (NodeOp.prepareReclaimIntent target operationID resumable).Does G := by
  refine (hG.views localIntent_views.mapError).bind fun found => ?_
  cases found with
  | none => exact hG.consult.bind fun _ => (hG.confirmFreshReclaimTarget hintent).bind fun _ => .pure
  | some intent =>
    refine (hG.views cleanupEffectStarted_views.mapError).bind fun started => hG.consult.bind fun _ => ?_
    cases started with
    | true => exact .pure
    | false => exact (hG.confirmFreshReclaimTarget hintent).bind fun _ => .pure

theorem reclaimWithResume (hG : Admits G P) (hintent : ∀ intent, P.marks (.cleanup operationID) (.cleanup intent))
    (hreceipt : ∀ receipt, P.marks (.receipt operationID) (.receipt receipt))
    (hplacement : P.unmarks (.placement target.copyID)) (hcopy : P.unmarks (.copy target.copyID))
    (hmove : ∀ {area name}, rolePath target = some (area, name) → target.role ≠ .retired → P.moves area .retired)
    (hfill : P.fills .retired) (hremove : P.removes .retired) :
    (NodeOp.reclaimWithResume receiptDigest target operationID resumable).Does G := by
  refine Proc.Does.ensure.bind fun _ => (hG.views openExisting_views).bind fun _ => ?_
  refine (hG.views acquire_views).bind fun _ => (hG.replayReclaimReceipt hplacement hcopy).bind fun found => ?_
  cases found with
  | some outcome => exact .pure
  | none =>
    refine (hG.prepareReclaimIntent hintent).bind fun prepared =>
      Proc.Does.bind ?_ fun _ => hG.settleReclaim hreceipt hplacement hcopy
    exact hG.consult.mapError.bind fun _ => (hG.retire hmove).mapError.bind fun _ => (hG.purgeRetired hfill hremove).mapError

/-! Cancelled creations. -/

theorem prepareCreationCancellation (hG : Admits G P) (hintent : ∀ intent, P.marks (.cleanup operationID) (.cleanup intent)) :
    (NodeOp.prepareCreationCancellation target operationID : NodeOp Api (LocalIntent × Option CreationPath)).Does G := by
  refine (hG.views localIntent_views).bind fun recorded => (hG.views copyMarkerExists_views).bind fun _ => ?_
  refine (hG.views (ifExists_views readPlacement_views)).bind fun placed => Proc.Does.ensure.bind fun _ => ?_
  refine (hG.views observeCreationSource_views).bind fun source => ?_
  cases recorded with
  | some intent => exact Proc.Does.ensure.bind fun _ => .pure
  | none => exact Proc.Does.ensure.bind fun _ => Proc.Does.ensure.bind fun _ => (hG.mark (hintent _)).bind fun _ => .pure

theorem retireCreation {source : Option CreationPath} (hG : Admits G P) (hserved : P.moves .volumes .retired)
    (hstaged : P.moves .incoming .retired) : (NodeOp.retireCreation target intent source : NodeOp Api Unit).Does G := by
  have hmove : ∀ place : Area × String, P.moves place.1 .retired → (do
      openArea place.1
      openIdentityDirectory place.1 place.2 intent.id
      openOrCreateDirectory .retired
      renameDirectory place.1 place.2 .retired target.copyID : NodeOp Api Unit).Does G := fun place hon =>
    (hG.views openArea_views).bind fun _ => (hG.views openIdentityDirectory_views).bind fun _ => hG.area.bind fun _ => hG.move hon
  rcases source with _ | _ | _ | _
  · exact hG.area
  · exact hmove (.volumes, target.volumeID) hserved
  · exact hmove (.incoming, stageName target) hstaged
  · exact hG.area

theorem replayCreationCancellation (hG : Admits G P) (hplacement : P.unmarks (.placement target.copyID))
    (hcopy : P.unmarks (.copy target.copyID)) :
    (NodeOp.replayCreationCancellation receiptDigest target operationID resumable).Does G := by
  refine (hG.views readReceipt_views).bind fun found => ?_
  cases found with
  | none => exact .pure
  | some receipt =>
    exact (hG.views localIntent_views).bind fun _ => Proc.Does.ensure.bind fun _ =>
      (hG.views verifyCreationAbsent_views).bind fun _ => hG.replayReclaimReceipt hplacement hcopy

theorem cancelCreation (hG : Admits G P)
    (hpool : P.marks .pool (.pool { installationID := target.installationID, poolUID := target.poolUID }))
    (hintent : ∀ intent, P.marks (.cleanup operationID) (.cleanup intent))
    (hreceipt : ∀ receipt, P.marks (.receipt operationID) (.receipt receipt))
    (hplacement : P.unmarks (.placement target.copyID)) (hcopy : P.unmarks (.copy target.copyID))
    (hserved : P.moves .volumes .retired) (hstaged : P.moves .incoming .retired) (hfill : P.fills .retired)
    (hremove : P.removes .retired) : (NodeOp.cancelCreation receiptDigest target operationID resumable).Does G := by
  refine Proc.Does.ensure.bind fun _ => hG.consult.bind fun _ => (hG.openStore hpool).bind fun _ => ?_
  refine (hG.views acquire_views).bind fun _ => hG.consult.bind fun _ => ?_
  refine (hG.replayCreationCancellation hplacement hcopy).bind fun found => ?_
  cases found with
  | some outcome => exact .pure
  | none =>
    refine (hG.prepareCreationCancellation hintent).bind fun prepared => hG.consult.bind fun _ => ?_
    have hsettle : (do
        NodeOp.consult (resumable true)
        verifyCreationAbsent target
        NodeOp.settleReclaim receiptDigest target operationID prepared.1 : NodeOp Api (Receipt × String)).Does G :=
      hG.consult.bind fun _ => (hG.views verifyCreationAbsent_views).bind fun _ => hG.settleReclaim hreceipt hplacement hcopy
    split
    · exact (hG.retireCreation hserved hstaged).bind fun _ => hG.consult.bind fun _ =>
        (hG.purgeRetired hfill hremove).bind fun _ => hsettle
    · exact hsettle

end Admits

end ShiftPV
